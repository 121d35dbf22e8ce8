/-
Purpose: The collaboration layer stack as the server stores it: a dictionary of layers, one of labels,
  one back from identifiers, and the order beside them; and how it represents an ordered stack.
Trusted boundary: identifiers of anonymous layers are never reused within a process
Main exports: StackStore, StackStore.Represents
-/
import UsdConnect.Lib.OrderedDict
import UsdConnect.Server.LayerStack

namespace UsdConnect

/-- The fields of a `CollaborationLayerStack`, and the muted layers of its stage. -/
structure StackStore where
  layers : OrderedDict String Nat
  keysByIdentifier : OrderedDict Nat String
  labels : OrderedDict String String
  order : List String
  revision : Nat
  muted : List Nat := []
  /-- Identifier of the next anonymous layer. -/
  nextIdentifier : Nat
deriving Repr

namespace StackStore

/-- `__init__` with the default layer. -/
def initial : StackStore where
  layers := OrderedDict.empty.set defaultLayerKey 0
  keysByIdentifier := OrderedDict.empty.set 0 defaultLayerKey
  labels := OrderedDict.empty.set defaultLayerKey "Default"
  order := [defaultLayerKey]
  revision := 1
  nextIdentifier := 1

def hasLayer (store : StackStore) (layerKey : String) : Bool :=
  layerKey ∈ store.layers.keys

/-- `layer_for`. -/
def layerFor (store : StackStore) (layerKey : String) : Except String Nat :=
  match store.layers.get? layerKey with
  | none => .error "unknown collaboration layer"
  | some identifier => .ok identifier

/-- `stage.IsLayerMuted`. -/
def isLayerMuted (store : StackStore) (identifier : Nat) : Bool :=
  identifier ∈ store.muted

/-- `ensure_layer`, which also returns the layer and whether it is new. -/
def ensureLayer (store : StackStore) (layerKey label : String) :
    Except String (StackStore × Nat × Bool) :=
  if layerKey = "" then .error "collaboration layer key must be non-empty"
  else
    match store.layers.get? layerKey with
    | some existing => .ok (store, existing, false)
    | none =>
        let displayLabel := if label ≠ "" then label else layerKey
        let layer := store.nextIdentifier
        .ok
          ({ store with
              layers := store.layers.set layerKey layer
              keysByIdentifier := store.keysByIdentifier.set layer layerKey
              labels := store.labels.set layerKey displayLabel
              order := store.order.dropLast ++ [layerKey, defaultLayerKey]
              revision := store.revision + 1
              nextIdentifier := store.nextIdentifier + 1 },
            layer, true)

/-- `set_order`. -/
def setOrder (store : StackStore) (order : List String) : Except String (StackStore × Bool) :=
  if ¬ order.Nodup then .error "collaboration layer order contains duplicates"
  else if ¬ ((∀ key ∈ order, key ∈ store.layers.keys) ∧ ∀ key ∈ store.layers.keys, key ∈ order) then
    .error "collaboration layer order must contain every managed key"
  else if order.getLast? ≠ some defaultLayerKey then
    .error "default collaboration layer must remain weakest"
  else if order = store.order then .ok (store, false)
  else .ok ({ store with order := order, revision := store.revision + 1 }, true)

/-- `set_muted`. -/
def setMuted (store : StackStore) (layerKey : String) (muted : Bool) :
    Except String (StackStore × Bool) :=
  match store.layerFor layerKey with
  | .error message => .error message
  | .ok layer =>
      if store.isLayerMuted layer = muted then .ok (store, false)
      else
        let mutedLayers :=
          if muted then layer :: store.muted else store.muted.filter (· ≠ layer)
        .ok ({ store with muted := mutedLayers, revision := store.revision + 1 }, true)

/-- `remove_layer`. -/
def removeLayer (store : StackStore) (layerKey : String) : Except String StackStore :=
  if layerKey = defaultLayerKey then .error "cannot remove the default collaboration layer"
  else
    match store.layerFor layerKey with
    | .error message => .error message
    | .ok layer =>
        .ok
          { store with
            muted := store.muted.filter (· ≠ layer)
            layers := store.layers.pop layerKey
            keysByIdentifier := store.keysByIdentifier.pop layer
            labels := store.labels.pop layerKey
            order := store.order.filter (· ≠ layerKey)
            revision := store.revision + 1 }

/-- One entry of `state`. -/
def stateEntry (store : StackStore) (key : String) : Option LogicalLayerState :=
  (store.layers.get? key).bind fun identifier =>
    (store.labels.get? key).map fun label =>
      { layerKey := key, label := label, muted := store.isLayerMuted identifier }

/-- The layers that `state` shows; `none` where a dictionary has no entry for a key of the order. -/
def visibleLayers (store : StackStore) : Option (List LogicalLayerState) :=
  store.order.mapM store.stateEntry

/-- `state`. -/
def state (store : StackStore) (generation : String) : Option LayerStackState :=
  store.visibleLayers.map fun layers =>
    { generation := generation, revision := store.revision, layers := layers }

/-! ### The ordered stack it represents -/

/-- The dictionaries hold the layers of an ordered stack. -/
structure Represents (store : StackStore) (stack : CollaborationLayerStack) : Prop where
  order : store.order = stack.layerKeys
  keys : ∀ key, key ∈ store.layers.keys ↔ key ∈ stack.layerKeys
  layers : ∀ layer ∈ stack.layers, store.layers.get? layer.layerKey = some layer.identifier
  labels : ∀ layer ∈ stack.layers, store.labels.get? layer.layerKey = some layer.label
  identifiers : ∀ layer ∈ stack.layers,
    store.keysByIdentifier.get? layer.identifier = some layer.layerKey
  muted : ∀ layer ∈ stack.layers, layer.muted = store.isLayerMuted layer.identifier
  mutedKnown : ∀ identifier ∈ store.muted, identifier < store.nextIdentifier
  revision : store.revision = stack.revision
  nextIdentifier : store.nextIdentifier = stack.nextIdentifier

end StackStore

end UsdConnect
