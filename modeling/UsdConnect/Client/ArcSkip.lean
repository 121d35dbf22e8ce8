/-
Purpose: Application of a flat batch to the dispatcher's mirror stage: arc events whose state already
  matches the stage are left out of the mirror commit.
Trusted boundary: composed variant selections are a parameter; the mirror's edit target maps paths to
  themselves; asset paths are written with forward slashes and custom data is in its serialized form;
  the adapter of an external scene does not touch the mirror
Main exports: FlatDispatcher, FlatDispatcher.applyBatch, FlatDispatcher.applyAll
-/
import UsdConnect.Client.SharedStage

namespace UsdConnect

namespace EventKind

/-- `STAGE_SYNC_KINDS`. -/
def stageSync : EventKind → Bool
  | .eraseTimeSamples | .setReference | .setPayload | .loadPayload | .unloadPayload
  | .setVariantSelections | .setMaterialBinding | .setConnectableInput | .setConnectableConnection
  | .setStageMetadata | .setInstanceable | .setSdfSpecFields | .replaceSdfLayerContent => true
  | _ => false

/-- `ARC_KINDS`. -/
def arc : EventKind → Bool
  | .setReference | .setPayload | .setVariantSelections => true
  | _ => false

end EventKind

/-! ### Arc states -/

/-- Normalized state of one list op. -/
structure CanonicalArcState where
  entries : List ArcItem := []
  authored : Bool := false
  explicit : Bool := false
deriving DecidableEq, Repr

/-- The checks of `_canonical_entry`. -/
def canonicalEntry (explicit references : Bool) (entry : ArcItem) : Except EditError ArcItem :=
  if entry.listPosition ∉ arcListPositions then .error "invalid arc list position"
  else if explicit ∧ entry.listPosition ≠ "explicit" then
    .error "explicit list ops cannot contain non-explicit entries"
  else if ¬ explicit ∧ entry.listPosition = "explicit" then
    .error "non-explicit list ops cannot contain explicit entries"
  else if entry.customData ≠ "" ∧ ¬ references then
    .error "payload entries cannot carry reference custom data"
  else .ok entry

namespace ArcState

/-- Whether the event authors a list op; by default one with entries or an explicit one does. -/
def isAuthored (state : ArcState) : Bool :=
  state.authored.getD (!state.entries.isEmpty || state.explicit)

/-- `canonical_arc_state`. -/
def canonical (state : ArcState) (references : Bool) : Except EditError CanonicalArcState :=
  if !state.isAuthored && (!state.entries.isEmpty || state.explicit) then
    .error "an unauthored list op cannot contain entries or be explicit"
  else do
    let normalized ← state.entries.mapM (canonicalEntry state.explicit references)
    pure
      { entries := { state with entries := normalized }.items
        authored := state.isAuthored
        explicit := state.explicit }

/-- The list-op checks of `_validate_arc_event`. -/
structure Valid (state : ArcState) (references : Bool) : Prop where
  unauthored : state.isAuthored = false → state.entries = [] ∧ state.explicit = false
  target : ∀ entry ∈ state.entries, entry.assetPath = "" → entry.primPath.isSome
  position : ∀ entry ∈ state.entries, entry.listPosition ∈ arcListPositions ∧
    (state.explicit = true ↔ entry.listPosition = "explicit")
  customData : ∀ entry ∈ state.entries, entry.customData ≠ "" → references = true

end ArcState

/-- `read_arc_state`; none when the field holds something that is no list op. -/
def Layer.readArcState (layer : Layer) (prim : ScenePath) (field : String) :
    Option CanonicalArcState :=
  match layer.info ⟨prim.specPath, none⟩ field with
  | none => some {}
  | some (.arcs explicit items) => some ⟨items, true, explicit⟩
  | some _ => none

/-- An event passed the checks of its list op. -/
def Event.ValidArcs : Event → Prop
  | .setReference _ state => state.Valid true
  | .setPayload _ state => state.Valid false
  | _ => True

/-! ### The dispatcher -/

/-- What applying a flat batch reads of the dispatcher. -/
structure FlatDispatcher where
  usd : Usd
  /-- Names and selections of a prim's composed variant sets. -/
  variantSets : Stage → ScenePath → OrderedDict String String
  /-- Layer of the mirror stage's edit target. -/
  target : LayerId
  /-- `adapter.targets_stage()` is the mirror stage. -/
  adapterHandlesMirror : Bool
  /-- `adapter.has_imported_children`. -/
  hasImportedChildren : ScenePath → Bool

namespace FlatDispatcher

variable (dispatcher : FlatDispatcher)

/-- `read_variant_selections`: the sets that have a selection. -/
def readVariantSelections (stage : Stage) (prim : ScenePath) : List (String × String) :=
  if dispatcher.usd.primAt stage prim then
    (dispatcher.variantSets stage prim).entries.filter fun entry => entry.2 ≠ ""
  else []

/-- Equality of two selection dictionaries, whatever their order. -/
def sameSelections (current : List (String × String)) (incoming : OrderedDict String String) :
    Bool :=
  current.length = incoming.entries.length && incoming.entries.all fun entry => entry ∈ current

/-- `_arc_changed`. -/
def arcChanged (scene : Scene) : Event → Except EditError Bool
  | .setReference prim state => do
      let incoming ← state.canonical true
      pure ((scene.layers dispatcher.target).readArcState prim "references" ≠ some incoming)
  | .setPayload prim state => do
      let incoming ← state.canonical false
      pure ((scene.layers dispatcher.target).readArcState prim "payload" ≠ some incoming)
  | .setVariantSelections prim selections =>
      pure (!sameSelections
        (dispatcher.readVariantSelections (scene.stage dispatcher.target) prim) selections)
  | _ => pure true

/-- `_compute_stage_skip`: for every event whether it is skipped. -/
def computeStageSkip (scene : Scene) (events : List Event) : Except EditError (List Bool) :=
  events.mapM fun event =>
    if event.kind.arc then return !(← dispatcher.arcChanged scene event) else pure false

/-- `_compute_adapter_skip`. -/
def computeAdapterSkip (events : List Event) (stageSkip : List Bool) : List Bool :=
  List.zipWith (fun event skipped => skipped && event.kind != .setVariantSelections &&
    dispatcher.hasImportedChildren (event.prim.getD [])) events stageSkip

/-- The events at the positions that are not skipped. -/
def unskipped (events : List Event) (skip : List Bool) : List Event :=
  ((events.zip skip).filter fun entry => !entry.2).map (·.1)

/-- `apply_events` with handles of its own; the auxiliary record starts empty. -/
def applyEventsAfresh (events : List Event) : SceneEdit Unit := do
  Edit.act (.mark none)
  Edit.act .clearOps
  applyEvents dispatcher.usd dispatcher.target events false

/-- `atomic_apply` around a block. -/
def atomicApply (scope : Option (List ScenePath)) (block : SceneEdit Unit) : SceneEdit Unit := do
  let layer ← Edit.look fun scene => scene.layers dispatcher.target
  match ← block.attempt with
  | .ok () => pure ()
  | .error error =>
      onLayer dispatcher.target (LayerSnapshot.enter layer scope).restore
      Edit.raise error

/-- What `_apply` does to the mirror stage. -/
def applyBatch (events : List Event) : SceneEdit Unit := do
  let skip ← Edit.look fun scene => dispatcher.computeStageSkip scene events
  match skip with
  | .error error => Edit.raise error
  | .ok stageSkip =>
      if dispatcher.adapterHandlesMirror then
        let nonSkipped := unskipped events (dispatcher.computeAdapterSkip events stageSkip)
        if nonSkipped = [] then pure () else dispatcher.applyEventsAfresh nonSkipped
      else
        let stageEvents := (unskipped events stageSkip).filter fun event => event.kind.stageSync
        if stageEvents = [] then pure ()
        else
          dispatcher.atomicApply (atomicApplyPrimPaths stageEvents)
            (dispatcher.applyEventsAfresh stageEvents)

/-- The events of a batch that concern the mirror: the stage-sync events, or all of them where the
adapter itself writes to the mirror. -/
def mirrorEvents (events : List Event) : List Event :=
  if dispatcher.adapterHandlesMirror then events
  else events.filter fun event => event.kind.stageSync

/-- Applying all of them in order. -/
def applyAll (events : List Event) : SceneEdit Unit :=
  dispatcher.applyEventsAfresh (dispatcher.mirrorEvents events)

/-- Two mirrors with the same arcs and variant selections. -/
structure SameArcs (first second : Scene) : Prop where
  references : ∀ prim, (first.layers dispatcher.target).readArcState prim "references" =
    (second.layers dispatcher.target).readArcState prim "references"
  payloads : ∀ prim, (first.layers dispatcher.target).readArcState prim "payload" =
    (second.layers dispatcher.target).readArcState prim "payload"
  selections : ∀ prim,
    dispatcher.readVariantSelections (first.stage dispatcher.target) prim =
      dispatcher.readVariantSelections (second.stage dispatcher.target) prim

/-- Skipping does not show in the arcs: where applying all events succeeds, `_apply` succeeds with
the same arcs, and where it raises, `_apply` raises. -/
structure SkipsSoundly (scene : Scene) (events : List Event) : Prop where
  applied : (dispatcher.applyAll events).result scene = .ok () →
    (dispatcher.applyBatch events).result scene = .ok () ∧
      dispatcher.SameArcs ((dispatcher.applyBatch events).after scene)
        ((dispatcher.applyAll events).after scene)
  raised : ∀ error, (dispatcher.applyAll events).result scene = .error error →
    ∃ other, (dispatcher.applyBatch events).result scene = .error other

/-- `_apply` leaves this event out of the mirror commit. -/
def Skipped (scene : Scene) (event : Event) : Prop :=
  event.kind.arc = true ∧ dispatcher.arcChanged scene event = .ok false ∧
    (dispatcher.adapterHandlesMirror = true → event.kind ≠ .setVariantSelections ∧
      dispatcher.hasImportedChildren (event.prim.getD []) = true)

/-- What an event would author is authored already: the list op of its prim, or the selections on a
prim that composes and takes edits. -/
def AlreadyAuthored (scene : Scene) : Event → Prop
  | .setVariantSelections prim selections =>
      dispatcher.usd.primAt (scene.stage dispatcher.target) prim = true ∧
        ∀ entry ∈ selections.entries,
          dispatcher.usd.refuses (scene.stage dispatcher.target) prim = none ∧ entry.2 ≠ "" ∧
            (scene.layers dispatcher.target).info ⟨prim.specPath, none⟩
              ("variantSelection:" ++ entry.1) = some (.text entry.2)
  | event => dispatcher.arcChanged scene event = .ok false

end FlatDispatcher

end UsdConnect
