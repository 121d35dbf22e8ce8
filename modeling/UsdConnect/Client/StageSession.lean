/-
Purpose: The session opinions a layered receiver keeps across stage rebinds: stage metadata and payload
  load rules, remembered from the received events and applied to every stage that is bound.
Trusted boundary: loading or unloading a path replaces the rules of that path and its descendants; no
  load or unload event targets a prim beneath an instance
Main exports: SessionStage, StageSessionState, StageSessionState.remember
-/
import UsdConnect.Events.Apply
import UsdConnect.Lib.PathRules

namespace UsdConnect

/-- What the session state reads and writes of a stage: the metadata fields of the session layer's
pseudo-root and the load rules. -/
@[ext] structure SessionStage where
  fields : StageMetadataKey → Option Datum
  rules : PathRules String Bool

namespace SessionStage

/-- `_apply_set_stage_metadata`. -/
def setMetadata (stage : SessionStage) (values : OrderedDict StageMetadataKey Datum) :
    SessionStage :=
  { stage with
    fields := fun key =>
      match values.get? key with
      | some value => if key = .upAxis ∧ value = .text "" then stage.fields key else some value
      | none => stage.fields key }

/-- `apply_event` for the remembered kinds. -/
def apply (stage : SessionStage) : Event → SessionStage
  | .setStageMetadata values => stage.setMetadata values
  | .loadPayload prim => { stage with rules := stage.rules.assign prim true }
  | .unloadPayload prim => { stage with rules := stage.rules.assign prim false }
  | _ => stage

/-- `apply_events`. -/
def applyEvents (stage : SessionStage) (events : List Event) : SessionStage :=
  (segmentOrder events).foldl apply stage

end SessionStage

/-- Keys of the remembered events. -/
inductive SessionKey where
  | metadata
  | payload (prim : ScenePath)
deriving DecidableEq, Repr

/-- `_StageSessionState`. -/
structure StageSessionState where
  stage : Option SessionStage := none
  /-- `_session_fields` and `_load_rules`: the bound stage as it was found. -/
  baseline : Option SessionStage := none
  events : OrderedDict SessionKey Event := .empty

/-- Path of a prim after a rename. -/
def ScenePath.renamed (prim : ScenePath) (newName : String) : ScenePath :=
  prim.dropLast ++ [newName]

namespace StageSessionState

/-- Values of the remembered metadata event. -/
def metadataValues (events : OrderedDict SessionKey Event) : OrderedDict StageMetadataKey Datum :=
  match events.get? .metadata with
  | some (.setStageMetadata values) => values
  | _ => .empty

/-- `_rename_payload_state`. -/
def renamePayloadState (events : OrderedDict SessionKey Event) (oldRoot : ScenePath)
    (newName : String) : OrderedDict SessionKey Event :=
  if oldRoot = [] ∨ newName = "" then events
  else
    let moved := events.entries.filterMap fun entry =>
      match entry.1 with
      | .metadata => none
      | .payload prim =>
          if oldRoot <+: prim then
            some (prim, PathRules.relocatePath oldRoot (oldRoot.renamed newName) prim, entry.2)
          else none
    moved.foldl (fun current (oldPrim, newPrim, event) =>
      (current.pop (.payload oldPrim)).set (.payload newPrim)
        (match event with
          | .loadPayload _ => .loadPayload newPrim
          | _ => .unloadPayload newPrim)) events

/-- One event of `remember`. -/
def rememberEvent (events : OrderedDict SessionKey Event) : Event → OrderedDict SessionKey Event
  | .setStageMetadata values =>
      events.set .metadata (.setStageMetadata ((metadataValues events).update values))
  | .loadPayload prim => events.set (.payload prim) (.loadPayload prim)
  | .unloadPayload prim => events.set (.payload prim) (.unloadPayload prim)
  | .renamePrim prim newName => renamePayloadState events prim newName
  | _ => events

/-- `remember`. -/
def remember (state : StageSessionState) (events : List Event) : StageSessionState :=
  { state with events := events.foldl rememberEvent state.events }

/-- `_apply_current` on a stage. -/
def applyCurrent (state : StageSessionState) (stage : SessionStage) : SessionStage :=
  stage.applyEvents (state.events.entries.map (·.2))

/-- `bind` to another stage: the old stage goes back to its baseline; returns it, and the state with
the new stage. -/
def bind (state : StageSessionState) (stage : SessionStage) :
    Option SessionStage × StageSessionState :=
  (state.stage.map fun current => state.baseline.getD current,
    { state with stage := some (state.applyCurrent stage), baseline := some stage })

/-- `reset`. -/
def reset (state : StageSessionState) : StageSessionState :=
  { stage := state.stage.map fun current => state.baseline.getD current
    baseline := state.baseline }

end StageSessionState

/-! ### What the state stands for -/

/-- An event received for a stage: renaming a prim takes its load rules along. -/
def SessionStage.receive (stage : SessionStage) : Event → SessionStage
  | .renamePrim prim newName =>
      { stage with rules := stage.rules.relocate prim (prim.renamed newName) }
  | event => stage.apply event

/-- A stage nobody has loaded or unloaded prims of; the rule of the pseudo-root says how it was
opened. -/
def SessionStage.Fresh (stage : SessionStage) : Prop :=
  ∀ prim : ScenePath, prim ≠ [] → stage.rules prim = none

/-- The kinds that concern the session state, as validation accepts them. -/
def Event.IsSessionEvent : Event → Prop
  | .setStageMetadata values => ∀ value, values.get? .upAxis = some value → value ≠ .text ""
  | .loadPayload prim | .unloadPayload prim => prim ≠ []
  | .renamePrim prim newName => prim ≠ [] ∧ newName ≠ ""
  | _ => False

/-- Binding a fresh stage after the received events gives what receiving them gives. -/
def SurvivesRebind (events : List Event) : Prop :=
  ∀ (state : StageSessionState) (fresh : SessionStage), state.events = .empty → fresh.Fresh →
    ((state.remember events).bind fresh).2.stage = some (events.foldl SessionStage.receive fresh)

/-- Prims of the remembered load and unload events, in dictionary order. -/
def StageSessionState.payloadPrims (events : OrderedDict SessionKey Event) : List ScenePath :=
  events.entries.filterMap fun entry =>
    match entry.1 with
    | .metadata => none
    | .payload prim => some prim

/-- The dictionary order of the remembered prims stays right when the event is remembered: a prim that
is loaded or unloaded again is followed by none of its ancestors or descendants; a rename that moves
remembered prims goes to a path with nothing else remembered at or below it, and none of the moved
prims is followed by an ancestor of the renamed prim. -/
def KeepsOrder (prims : List ScenePath) : Event → Prop
  | .loadPayload prim | .unloadPayload prim =>
      ∀ earlier later, prims = earlier ++ prim :: later →
        ∀ other ∈ later, PathRules.Apart other prim
  | .renamePrim prim newName =>
      (∃ moved ∈ prims, prim <+: moved) →
        (∀ other ∈ prims, prim.renamed newName <+: other → prim <+: other) ∧
          ∀ earlier moved later, prims = earlier ++ moved :: later → prim <+: moved →
            ∀ other ∈ later, other <+: moved → prim <+: other
  | _ => True

/-- Every received event keeps the order of what is remembered before it. -/
def OrderKept (events : List Event) : Prop :=
  ∀ before event after, events = before ++ event :: after →
    KeepsOrder
      (StageSessionState.payloadPrims
        (before.foldl StageSessionState.rememberEvent OrderedDict.empty)) event

end UsdConnect
