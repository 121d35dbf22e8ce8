/-
Purpose: The server's ordered collaboration layers: creation above the default layer, reordering,
  muting, removal, and the state advertised to receivers.
Trusted boundary: identifiers of anonymous layers are never reused within a process
Main exports: ManagedLayer, CollaborationLayerStack, ensureLayer, setOrder, setMuted
-/
import Mathlib.Data.List.Basic
import Mathlib.Data.List.Nodup
import Mathlib.Data.List.Perm.Basic

namespace UsdConnect

def defaultLayerKey : String := "default"

/-- A layer under its portable key.  The identifier is local to the process. -/
structure ManagedLayer where
  layerKey : String
  label : String
  identifier : Nat
  muted : Bool := false
deriving DecidableEq, Repr

/-- Layers of a stack, strongest first: one layer per key and per identifier, and no empty key. -/
structure LayersDistinct (layers : List ManagedLayer) : Prop where
  keys : (layers.map (·.layerKey)).Nodup
  identifiers : (layers.map (·.identifier)).Nodup
  named : ∀ layer ∈ layers, layer.layerKey ≠ ""

/-- `CollaborationLayerStack`.  The default layer is the weakest. -/
structure CollaborationLayerStack where
  upper : List ManagedLayer := []
  defaultLayer : ManagedLayer
  revision : Nat := 1
  /-- Identifier of the next anonymous layer. -/
  nextIdentifier : Nat
  defaultKey : defaultLayer.layerKey = defaultLayerKey
  distinct : LayersDistinct (upper ++ [defaultLayer])
  fresh : ∀ layer ∈ upper ++ [defaultLayer], layer.identifier < nextIdentifier

/-- One entry of a `LayerStackState`. -/
structure LogicalLayerState where
  layerKey : String
  label : String := ""
  muted : Bool := false
deriving DecidableEq, Repr

/-- `LayerStackState`: the stack as receivers see it. -/
structure LayerStackState where
  generation : String
  revision : Int
  layers : List LogicalLayerState
deriving DecidableEq, Repr

theorem LayersDistinct.perm {layers others : List ManagedLayer} (distinct : LayersDistinct layers)
    (same : layers.Perm others) : LayersDistinct others where
  keys := (same.map _).nodup_iff.1 distinct.keys
  identifiers := (same.map _).nodup_iff.1 distinct.identifiers
  named := fun layer member => distinct.named layer (same.mem_iff.2 member)

theorem LayersDistinct.sublist {layers others : List ManagedLayer}
    (distinct : LayersDistinct layers) (part : others.Sublist layers) : LayersDistinct others where
  keys := distinct.keys.sublist (part.map _)
  identifiers := distinct.identifiers.sublist (part.map _)
  named := fun layer member => distinct.named layer (part.subset member)

/-- Keys determine the layers of a stack. -/
theorem LayersDistinct.eq_of_key {layers : List ManagedLayer} (distinct : LayersDistinct layers)
    {layer other : ManagedLayer} (member : layer ∈ layers) (otherMember : other ∈ layers)
    (same : layer.layerKey = other.layerKey) : layer = other :=
  List.inj_on_of_nodup_map distinct.keys member otherMember same

theorem LayersDistinct.eq_of_identifier {layers : List ManagedLayer}
    (distinct : LayersDistinct layers) {layer other : ManagedLayer} (member : layer ∈ layers)
    (otherMember : other ∈ layers) (same : layer.identifier = other.identifier) : layer = other :=
  List.inj_on_of_nodup_map distinct.identifiers member otherMember same

namespace CollaborationLayerStack

/-- The stack of a new process: the default layer. -/
def initial : CollaborationLayerStack where
  defaultLayer := ⟨defaultLayerKey, "Default", 0, false⟩
  nextIdentifier := 1
  defaultKey := rfl
  distinct := ⟨by decide, by decide, by decide⟩
  fresh := by decide

/-- `ordered_layers`. -/
def layers (stack : CollaborationLayerStack) : List ManagedLayer :=
  stack.upper ++ [stack.defaultLayer]

def layerKeys (stack : CollaborationLayerStack) : List String :=
  stack.layers.map (·.layerKey)

def hasLayer (stack : CollaborationLayerStack) (layerKey : String) : Bool :=
  layerKey ∈ stack.layerKeys

def layerFor (stack : CollaborationLayerStack) (layerKey : String) : Option ManagedLayer :=
  stack.layers.find? fun layer => layer.layerKey = layerKey

def keyForLayer (stack : CollaborationLayerStack) (identifier : Nat) : Option String :=
  (stack.layers.find? fun layer => layer.identifier = identifier).map (·.layerKey)

theorem layerFor_some {stack : CollaborationLayerStack} {layerKey : String} {layer : ManagedLayer}
    (found : stack.layerFor layerKey = some layer) :
    layer ∈ stack.layers ∧ layer.layerKey = layerKey :=
  ⟨List.mem_of_find?_eq_some found, by simpa using List.find?_some found⟩

theorem layerFor_none {stack : CollaborationLayerStack} {layerKey : String} :
    stack.layerFor layerKey = none ↔ layerKey ∉ stack.layerKeys := by
  unfold layerFor layerKeys
  rw [List.find?_eq_none]
  simp

theorem layerFor_mem {stack : CollaborationLayerStack} {layer : ManagedLayer}
    (member : layer ∈ stack.layers) : stack.layerFor layer.layerKey = some layer := by
  cases found : stack.layerFor layer.layerKey with
  | none => exact absurd (List.mem_map_of_mem member) (layerFor_none.1 found)
  | some other =>
      obtain ⟨otherMember, same⟩ := layerFor_some found
      rw [stack.distinct.eq_of_key otherMember member same]

/-- `ensure_layer`; `true` when the layer is new. -/
def ensureLayer (stack : CollaborationLayerStack) (layerKey label : String) :
    Except String (CollaborationLayerStack × Bool) :=
  if named : layerKey = "" then .error "collaboration layer key must be non-empty"
  else if taken : layerKey ∈ stack.layerKeys then .ok (stack, false)
  else
    let layer : ManagedLayer :=
      { layerKey := layerKey
        label := if label ≠ "" then label else layerKey
        identifier := stack.nextIdentifier }
    have grown : (stack.upper ++ [layer] ++ [stack.defaultLayer]).Perm (layer :: stack.layers) := by
      rw [List.append_assoc]
      exact List.perm_middle
    .ok
      ({ stack with
          upper := stack.upper ++ [layer]
          revision := stack.revision + 1
          nextIdentifier := stack.nextIdentifier + 1
          distinct := by
            apply LayersDistinct.perm _ grown.symm
            constructor
            · exact List.nodup_cons.2 ⟨taken, stack.distinct.keys⟩
            · apply List.nodup_cons.2 ⟨_, stack.distinct.identifiers⟩
              intro reused
              obtain ⟨other, member, same⟩ := List.mem_map.1 reused
              exact absurd same (Nat.ne_of_lt (stack.fresh other member))
            · intro other member
              rcases List.mem_cons.1 member with rfl | before
              · exact named
              · exact stack.distinct.named other before
          fresh := by
            intro other member
            rcases List.mem_cons.1 (grown.mem_iff.1 member) with rfl | before
            · exact Nat.lt_succ_self _
            · exact Nat.lt_succ_of_lt (stack.fresh other before) },
        true)

/-- Layers of a new order, by key. -/
def reordered (stack : CollaborationLayerStack) (order : List String) : List ManagedLayer :=
  order.filterMap stack.layerFor

/-- The layers stand in the order of the keys. -/
theorem reordered_keys {stack : CollaborationLayerStack} {order : List String}
    (known : ∀ key ∈ order, key ∈ stack.layerKeys) :
    (stack.reordered order).map (·.layerKey) = order := by
  unfold reordered
  rw [List.map_filterMap]
  calc order.filterMap (fun key => (stack.layerFor key).map (·.layerKey))
      = order.filterMap some := by
        apply List.filterMap_congr
        intro key member
        cases found : stack.layerFor key with
        | none => exact absurd (known key member) (layerFor_none.1 found)
        | some layer => exact congrArg some (layerFor_some found).2
    _ = order := List.filterMap_some

/-- A complete order lists every layer once. -/
theorem reordered_perm {stack : CollaborationLayerStack} {order : List String}
    (nodup : order.Nodup) (known : ∀ key ∈ order, key ∈ stack.layerKeys)
    (complete : ∀ key ∈ stack.layerKeys, key ∈ order) :
    (stack.reordered order).Perm stack.layers := by
  have keysKept := reordered_keys known
  apply (List.perm_ext_iff_of_nodup _ _).2
  · intro layer
    constructor
    · intro member
      obtain ⟨key, _, found⟩ := List.mem_filterMap.1 member
      exact (layerFor_some found).1
    · intro member
      apply List.mem_filterMap.2
      exact ⟨layer.layerKey, complete _ (List.mem_map_of_mem member), layerFor_mem member⟩
  · exact List.Nodup.of_map _ (keysKept ▸ nodup)
  · exact List.Nodup.of_map _ stack.distinct.keys

/-- An order that ends with the default layer's key. -/
theorem reordered_dropLast {stack : CollaborationLayerStack} {order : List String}
    (weakest : order.getLast? = some defaultLayerKey) :
    stack.reordered order = stack.reordered order.dropLast ++ [stack.defaultLayer] := by
  obtain ⟨front, rfl⟩ := List.getLast?_eq_some_iff.1 weakest
  have last : stack.layerFor defaultLayerKey = some stack.defaultLayer := by
    rw [← stack.defaultKey]
    exact layerFor_mem (List.mem_append_right _ (List.mem_singleton_self _))
  unfold reordered
  rw [List.dropLast_concat, List.filterMap_append]
  simp [last]

/-- `set_order`; `true` when the order changes. -/
def setOrder (stack : CollaborationLayerStack) (order : List String) :
    Except String (CollaborationLayerStack × Bool) :=
  if nodup : order.Nodup then
    if complete : (∀ key ∈ order, key ∈ stack.layerKeys) ∧
        ∀ key ∈ stack.layerKeys, key ∈ order then
      if weakest : order.getLast? = some defaultLayerKey then
        if order = stack.layerKeys then .ok (stack, false)
        else
          have same := reordered_dropLast weakest ▸ reordered_perm nodup complete.1 complete.2
          .ok
            ({ stack with
                upper := stack.reordered order.dropLast
                revision := stack.revision + 1
                distinct := stack.distinct.perm same.symm
                fresh := fun layer member => stack.fresh layer (same.mem_iff.1 member) },
              true)
      else .error "default collaboration layer must remain weakest"
    else .error "collaboration layer order must contain every managed key"
  else .error "collaboration layer order contains duplicates"

/-- Change one layer of the stack without touching its identity. -/
def mapLayers (stack : CollaborationLayerStack) (change : ManagedLayer → ManagedLayer)
    (sameKey : ∀ layer, (change layer).layerKey = layer.layerKey)
    (sameIdentifier : ∀ layer, (change layer).identifier = layer.identifier) :
    CollaborationLayerStack :=
  have changed : stack.upper.map change ++ [change stack.defaultLayer] =
      stack.layers.map change := by
    unfold layers
    rw [List.map_append, List.map_singleton]
  { stack with
    upper := stack.upper.map change
    defaultLayer := change stack.defaultLayer
    defaultKey := (sameKey _).trans stack.defaultKey
    distinct := by
      rw [changed]
      constructor
      · have kept : (stack.layers.map change).map (·.layerKey) = stack.layerKeys := by
          rw [List.map_map]
          exact List.map_congr_left fun layer _ => sameKey layer
        rw [kept]
        exact stack.distinct.keys
      · have kept : (stack.layers.map change).map (·.identifier) =
            stack.layers.map (·.identifier) := by
          rw [List.map_map]
          exact List.map_congr_left fun layer _ => sameIdentifier layer
        rw [kept]
        exact stack.distinct.identifiers
      · intro layer member
        obtain ⟨before, beforeMember, rfl⟩ := List.mem_map.1 member
        rw [sameKey]
        exact stack.distinct.named before beforeMember
    fresh := by
      rw [changed]
      intro layer member
      obtain ⟨before, beforeMember, rfl⟩ := List.mem_map.1 member
      rw [sameIdentifier]
      exact stack.fresh before beforeMember }

/-- `set_muted` of a managed layer; `true` when its state changes. -/
def setMuted (stack : CollaborationLayerStack) (layerKey : String) (muted : Bool) :
    Except String (CollaborationLayerStack × Bool) :=
  match stack.layerFor layerKey with
  | none => .error "unknown collaboration layer"
  | some layer =>
      if layer.muted = muted then .ok (stack, false)
      else
        let changed := stack.mapLayers
          (fun other => if other.layerKey = layerKey then { other with muted := muted } else other)
          (fun other => by split <;> rfl) (fun other => by split <;> rfl)
        .ok ({ changed with revision := stack.revision + 1 }, true)

/-- `remove_layer`. -/
def removeLayer (stack : CollaborationLayerStack) (layerKey : String) :
    Except String CollaborationLayerStack :=
  if layerKey = defaultLayerKey then .error "cannot remove the default collaboration layer"
  else if layerKey ∉ stack.layerKeys then .error "unknown collaboration layer"
  else
    have part : (stack.upper.filter (·.layerKey ≠ layerKey) ++ [stack.defaultLayer]).Sublist
        stack.layers :=
      List.filter_sublist.append_right _
    .ok
      { stack with
        upper := stack.upper.filter (·.layerKey ≠ layerKey)
        revision := stack.revision + 1
        distinct := stack.distinct.sublist part
        fresh := fun layer member => stack.fresh layer (part.subset member) }

/-- `state`; the generation names the process. -/
def state (stack : CollaborationLayerStack) (generation : String) : LayerStackState where
  generation := generation
  revision := stack.revision
  layers := stack.layers.map fun layer =>
    { layerKey := layer.layerKey, label := layer.label, muted := layer.muted }

/-! ### What the operations do to the keys -/

theorem layerKeys_nodup (stack : CollaborationLayerStack) : stack.layerKeys.Nodup :=
  stack.distinct.keys

/-- What `ensure_layer` can do: nothing to a known layer, and nothing but adding an unknown one. -/
theorem ensureLayer_cases {stack after : CollaborationLayerStack} {layerKey label : String}
    {added : Bool} (ensured : stack.ensureLayer layerKey label = .ok (after, added)) :
    layerKey ∈ stack.layerKeys ∧ after = stack ∧ added = false ∨
      layerKey ∉ stack.layerKeys ∧ added = true ∧ after.revision = stack.revision + 1 ∧
        after.nextIdentifier = stack.nextIdentifier + 1 ∧
        ∃ layer : ManagedLayer, layer.layerKey = layerKey ∧
          layer.identifier = stack.nextIdentifier ∧ after.layers.Perm (layer :: stack.layers) := by
  unfold ensureLayer at ensured
  split at ensured
  · cases ensured
  split at ensured
  · next known =>
      cases ensured
      exact Or.inl ⟨known, rfl, rfl⟩
  · next unknown =>
      cases ensured
      right
      refine ⟨unknown, rfl, rfl, rfl, ⟨layerKey, if label ≠ "" then label else layerKey,
        stack.nextIdentifier, false⟩, rfl, rfl, ?_⟩
      unfold layers
      dsimp only
      rw [List.append_assoc]
      exact List.perm_middle

theorem setOrder_perm {stack after : CollaborationLayerStack} {order : List String} {changed : Bool}
    (ordered : stack.setOrder order = .ok (after, changed)) :
    after.layers.Perm stack.layers ∧ after.nextIdentifier = stack.nextIdentifier := by
  unfold setOrder at ordered
  split at ordered
  · next nodup =>
      split at ordered
      · next complete =>
          split at ordered
          · next weakest =>
              split at ordered
              · cases ordered
                exact ⟨.refl _, rfl⟩
              · cases ordered
                refine ⟨?_, rfl⟩
                change (stack.reordered order.dropLast ++ [stack.defaultLayer]).Perm _
                rw [← reordered_dropLast weakest]
                exact reordered_perm nodup complete.1 complete.2
          · cases ordered
      · cases ordered
  · cases ordered

theorem mapLayers_layers (stack : CollaborationLayerStack) (change : ManagedLayer → ManagedLayer)
    (sameKey : ∀ layer, (change layer).layerKey = layer.layerKey)
    (sameIdentifier : ∀ layer, (change layer).identifier = layer.identifier) :
    (stack.mapLayers change sameKey sameIdentifier).layers = stack.layers.map change := by
  unfold layers mapLayers
  rw [List.map_append, List.map_singleton]

theorem removeLayer_layers {stack after : CollaborationLayerStack} {layerKey : String}
    (removed : stack.removeLayer layerKey = .ok after) :
    after.layers = stack.layers.filter (·.layerKey ≠ layerKey) ∧
      after.nextIdentifier = stack.nextIdentifier := by
  unfold removeLayer at removed
  split at removed
  · cases removed
  next away =>
    split at removed
    · cases removed
    · cases removed
      refine ⟨?_, rfl⟩
      have kept : stack.defaultLayer.layerKey ≠ layerKey := by
        rw [stack.defaultKey]
        exact fun same => away same.symm
      unfold layers
      rw [List.filter_append]
      simp [kept]

end CollaborationLayerStack

end UsdConnect
