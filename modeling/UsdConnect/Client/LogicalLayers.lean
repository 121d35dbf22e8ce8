/-
Purpose: The receiver's logical layers: stack states guarded by generation and revision, the layers
  they create and drop, and the routing of records to them.
Trusted boundary: what an event makes of a layer depends on that layer alone, so a layer is the list
  of the events applied to it; the session sublayers and the muted layers of the stage are installed
  from the key order and the mute flags
Main exports: LogicalLayerRouter, LogicalLayerRouter.applyState
-/
import UsdConnect.Server.LayerStack
import UsdConnect.Lib.OrderedDict

namespace UsdConnect

variable {Event : Type}

/-- `LogicalLayerRouter`. -/
structure LogicalLayerRouter (Event : Type) where
  layers : OrderedDict String (List Event) := .empty
  layerKeys : List String := []
  muted : OrderedDict String Bool := .empty
  generation : String := ""
  revision : Int := -1
  ready : Bool := false

namespace LogicalLayerRouter

/-- Keys and mute flags of a state; empty and repeated keys are rejected. -/
def readLayers : List LogicalLayerState → List String → OrderedDict String Bool →
    Except String (List String × OrderedDict String Bool)
  | [], layerKeys, muted => .ok (layerKeys, muted)
  | item :: rest, layerKeys, muted =>
      if item.layerKey = "" then .error "logical layer state requires a layer_key"
      else if item.layerKey ∈ muted.keys then .error "duplicate logical layer"
      else readLayers rest (layerKeys ++ [item.layerKey]) (muted.set item.layerKey item.muted)

/-- New keys get an empty layer. -/
def createLayers (layers : OrderedDict String (List Event)) (layerKeys : List String) :
    OrderedDict String (List Event) :=
  layerKeys.foldl
    (fun layers layerKey => if layerKey ∈ layers.keys then layers else layers.set layerKey [])
    layers

/-- `_apply_state_inner`: layers of keys that are no longer named are dropped. -/
def applyStateInner (router : LogicalLayerRouter Event) (state : LayerStackState) :
    Except String (LogicalLayerRouter Event) :=
  match readLayers state.layers [] .empty with
  | .error message => .error message
  | .ok (layerKeys, muted) =>
      .ok
        { router with
          layers := (createLayers router.layers layerKeys).filterKeys fun key => key ∈ layerKeys
          layerKeys := layerKeys
          muted := muted }

/-- A state is older than what the router has, or the same. -/
def isStale (router : LogicalLayerRouter Event) (state : LayerStackState) : Bool :=
  state.generation = router.generation && state.revision ≤ router.revision

/-- `apply_state`; `false` for a stale state. -/
def applyState (router : LogicalLayerRouter Event) (state : LayerStackState) :
    Except String (LogicalLayerRouter Event × Bool) :=
  if state.revision < 0 then .error "layer state revision must be non-negative"
  else if router.isStale state then .ok (router, false)
  else
    match router.applyStateInner state with
    | .error message => .error message
    | .ok inner =>
        .ok
          ({ inner with
              generation := state.generation
              revision := state.revision
              ready := true },
            true)

/-- `layer_for`. -/
def layerFor (router : LogicalLayerRouter Event) (layerKey : String) : Except String (List Event) :=
  if ¬ router.ready then .error "layer stack state has not been received"
  else if layerKey ∉ router.layerKeys then .error "event targets unknown logical layer"
  else
    match router.layers.get? layerKey with
    | none => .error "event targets unknown logical layer"
    | some content => .ok content

/-- `apply_routed_records` of one record. -/
def applyRecord (router : LogicalLayerRouter Event) (layerKey : String) (event : Event) :
    Except String (LogicalLayerRouter Event) :=
  if layerKey = "" then .error "layered replay record is missing its collaboration layer key"
  else
    match router.layerFor layerKey with
    | .error message => .error message
    | .ok content =>
        .ok { router with layers := router.layers.set layerKey (content ++ [event]) }

/-- `clear`: the layers stay, without their opinions. -/
def clear (router : LogicalLayerRouter Event) : LogicalLayerRouter Event :=
  { router with layers := router.layers.mapValues fun _ => [] }

/-- The mute flag of a key. -/
def isMuted (router : LogicalLayerRouter Event) (layerKey : String) : Bool :=
  (router.muted.get? layerKey).getD false

/-! ### What a state of the server makes of a router -/

theorem readLayers_ok (items : List LogicalLayerState) :
    ∀ (layerKeys : List String) (muted : OrderedDict String Bool),
      (∀ item ∈ items, item.layerKey ≠ "") → (muted.keys ++ items.map (·.layerKey)).Nodup →
      ∃ after, readLayers items layerKeys muted =
          .ok (layerKeys ++ items.map (·.layerKey), after) ∧
        after.entries = muted.entries ++ items.map fun item => (item.layerKey, item.muted) := by
  induction items with
  | nil =>
      intro layerKeys muted _ _
      refine ⟨muted, ?_, (List.append_nil _).symm⟩
      unfold readLayers
      rw [List.map_nil, List.append_nil]
  | cons item rest ih =>
      intro layerKeys muted named distinct
      have fresh : item.layerKey ∉ muted.keys := by
        intro present
        have apart := (List.nodup_append.1 distinct).2.2
        exact apart _ present _ List.mem_cons_self rfl
      have appended : (muted.set item.layerKey item.muted).entries =
          muted.entries ++ [(item.layerKey, item.muted)] := if_neg fresh
      have keys : (muted.set item.layerKey item.muted).keys = muted.keys ++ [item.layerKey] := by
        unfold OrderedDict.keys
        rw [appended, List.map_append]
        rfl
      obtain ⟨after, read, entries⟩ := ih (layerKeys ++ [item.layerKey])
        (muted.set item.layerKey item.muted)
        (fun other member => named other (List.mem_cons_of_mem _ member))
        (by
          rw [keys, List.append_assoc]
          exact distinct)
      refine ⟨after, ?_, ?_⟩
      · unfold readLayers
        rw [if_neg (named item List.mem_cons_self), if_neg fresh, read, List.append_assoc]
        rfl
      · rw [entries, appended, List.append_assoc]
        rfl

theorem get?_createLayers (layerKeys : List String) :
    ∀ (layers : OrderedDict String (List Event)) (key : String),
      (createLayers layers layerKeys).get? key =
        if key ∈ layerKeys then some ((layers.get? key).getD []) else layers.get? key := by
  induction layerKeys with
  | nil =>
      intro layers key
      rfl
  | cons first rest ih =>
      intro layers key
      unfold createLayers at ih ⊢
      rw [List.foldl_cons, ih]
      have here : (if first ∈ layers.keys then layers else layers.set first []).get? key =
          if key = first then some ((layers.get? key).getD []) else layers.get? key := by
        split
        · next present =>
            split
            · next same =>
                rw [same]
                obtain ⟨content, found⟩ := OrderedDict.get?_isSome_of_mem_keys present
                rw [found]
                rfl
            · rfl
        · next absent =>
            split
            · next same =>
                rw [same, OrderedDict.get?_set_self, OrderedDict.get?_eq_none absent]
                rfl
            · next away => exact OrderedDict.get?_set_of_ne layers [] away
      rw [here]
      by_cases same : key = first
      · have member : key ∈ first :: rest := by
          rw [same]
          exact List.mem_cons_self
        rw [if_pos same, if_pos member]
        split
        · rfl
        · rfl
      · rw [if_neg same]
        simp only [List.mem_cons, same, false_or]

end LogicalLayerRouter

end UsdConnect
