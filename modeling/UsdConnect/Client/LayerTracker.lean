/-
Purpose: The snapshots of the layer tracker: the fields it indexes, the difference of two layers as
  sorted exact events, and the application of events to a snapshot and its index.
Trusted boundary: the text form of paths and how a layer stores its sublayer list are given; sets
  are listed in one of their orders
Main exports: CapturedLayer, indexSnapshot, diffSpecs, applySnapshotEvents
-/
import UsdConnect.Client.SpecEmission
import UsdConnect.SharedStage.Records

namespace UsdConnect.LayerTracker

/-- What the tracker is given: the text form of paths, which asset paths are portable, and the
sublayer list that the two topology fields of a layer hold. -/
structure TrackerRules where
  text : SpecPath → String
  portable : String → Bool
  readSublayers : Option Datum → Option Datum → List SublayerEntry
  writeSublayers : List SublayerEntry → Option Datum × Option Datum

/-! ### Snapshots -/

/-- The fields of each indexed spec by kind and path. -/
abbrev SpecIndex := SpecKey → Option (List String)

/-- `_LayerSnapshot`. -/
structure TrackedSnapshot where
  layer : Layer
  sublayers : List SublayerEntry
  specs : SpecIndex

/-- `_topology_snapshot`. -/
def topologySnapshot (rules : TrackerRules) (layer : Layer) : List SublayerEntry :=
  rules.readSublayers (layer.info .root "subLayers") (layer.info .root "subLayerOffsets")

/-- The fields of one spec: the sublayer topology of a layer is not one of them. -/
def indexedFields (usd : Usd) (layer : Layer) (key : SpecKey) : List String :=
  sortedFields <| (usd.listInfoKeys layer key.path).filter fun name =>
    !(key.kind = .layer ∧ name ∈ layerTopologyFields)

def indexSpecs (usd : Usd) (layer : Layer) : SpecIndex := fun key =>
  if layer.specKind key.path = some key.kind then some (indexedFields usd layer key) else none

/-- `_index_snapshot`. -/
def indexSnapshot (rules : TrackerRules) (usd : Usd) (layer : Layer) : TrackedSnapshot where
  layer := layer
  sublayers := topologySnapshot rules layer
  specs := indexSpecs usd layer

/-- A layer that a snapshot can be taken of: the libraries list its fields, and its sample tables are
finite. -/
structure CapturedLayer (usd : Usd) extends SourceLayer where
  listed : ∀ path, infoKeys path = usd.listInfoKeys content path
  sampleTimes : SpecPath → List TimeCode
  mem_sampleTimes : ∀ path time,
    time ∈ sampleTimes path ↔ (content.value path (.sample time)).isSome = true

/-! ### The difference of two layers -/

namespace CapturedLayer

variable {usd : Usd}

def specKeys (captured : CapturedLayer usd) : List SpecKey :=
  captured.paths.filterMap captured.keyAt

/-- `GetInfo` returns the same on both sides. -/
def SameInfo (previous current : CapturedLayer usd) (path : SpecPath) (name : String) : Prop :=
  if name = "timeSamples" then
    ∀ time ∈ previous.sampleTimes path ++ current.sampleTimes path,
      previous.content.value path (.sample time) = current.content.value path (.sample time)
  else previous.content.info path name = current.content.info path name

instance (previous current : CapturedLayer usd) (path : SpecPath) (name : String) :
    Decidable (previous.SameInfo current path name) :=
  inferInstanceAs (Decidable (if name = "timeSamples" then _ else _))

end CapturedLayer

/-- `_changed_fields` for a spec that both layers have. -/
def changedFields {usd : Usd} (previous current : CapturedLayer usd) (key : SpecKey) :
    List String :=
  let oldFields := indexedFields usd previous.content key
  let newFields := indexedFields usd current.content key
  (sortedFields (oldFields ++ newFields)).filter fun name =>
    decide (name ∈ oldFields) != decide (name ∈ newFields) ||
      !decide (previous.SameInfo current key.path name)

/-- The event about one spec, if it differs. -/
def specEvent {usd : Usd} (previous current : CapturedLayer usd) (key : SpecKey) :
    Option SpecDelta :=
  match indexSpecs usd previous.content key, indexSpecs usd current.content key with
  | some _, some _ =>
      match changedFields previous current key with
      | [] => none
      | fields => some (fieldsEvent usd current.toSourceLayer key fields)
  | some old, none => some (removalEvent key old)
  | none, some new => some (fieldsEvent usd current.toSourceLayer key new)
  | none, none => none

/-- `_REMOVE_KIND_ORDER`. -/
def trackerRemoveOrder (kind : SdfSpecKind) : Int :=
  -(kind.createOrder : Int)

/-- `sdf_event_sort_key`. -/
def trackerSortKey (rules : TrackerRules) (delta : SpecDelta) : Nat ×ₗ Int ×ₗ Int ×ₗ String :=
  if delta.removed then
    toLex (0, toLex (-(delta.specPath.depth : Int),
      toLex (trackerRemoveOrder delta.specKind, rules.text delta.specPath)))
  else
    toLex (1, toLex ((delta.specPath.depth : Int),
      toLex ((delta.specKind.createOrder : Int), rules.text delta.specPath)))

/-- The event copies a variant set or variant that stands in a variant of its own prim, which no
scratch layer has a place for. -/
def CopiesNested {usd : Usd} (previous current : CapturedLayer usd) (key : SpecKey) : Prop :=
  key.nested = true ∧ (specEvent previous current key).any (!·.removed) = true

instance {usd : Usd} (previous current : CapturedLayer usd) (key : SpecKey) :
    Decidable (CopiesNested previous current key) :=
  inferInstanceAs (Decidable (_ ∧ _))

/-- `_diff_specs`, with the current layer as the source of the fragments. -/
def diffSpecs (rules : TrackerRules) {usd : Usd} (previous current : CapturedLayer usd) :
    Except EditError (List SpecDelta) :=
  let keys := (previous.specKeys ++ current.specKeys).dedup
  if keys.any fun key => decide (CopiesNested previous current key) then
    .error "failed to copy Sdf spec"
  else
    .ok <| (keys.filterMap (specEvent previous current)).insertionSort fun first second =>
      trackerSortKey rules first ≤ trackerSortKey rules second

/-! ### Events on a snapshot -/

/-- Run a program on a working layer, which is thrown away when it raises. -/
def perform (program : LayerProgram Unit) (working : Layer) : Except EditError Layer :=
  match program.result working with
  | .error error => .error error
  | .ok () => .ok (program.after working)

/-- One of the two topology fields. -/
def writeTopologyField (name : String) (value : Option Datum) : LayerProgram Unit :=
  match value with
  | some datum => Edit.act (.author .root .layer (.info name) datum)
  | none => Edit.act (.clear .root (.info name))

/-- `apply_sublayer_entries`. -/
def applySublayerEntries (rules : TrackerRules) (entries : List SublayerEntry) :
    LayerProgram Unit := do
  match normalizeSublayerEntries rules.portable entries with
  | none => Edit.raise "invalid sublayer entries"
  | some normalized =>
      let (paths, offsets) := rules.writeSublayers normalized
      writeTopologyField "subLayers" paths
      writeTopologyField "subLayerOffsets" offsets

/-- The variables of the loop in `_apply_snapshot_events`. -/
structure SnapshotBuild where
  working : Layer
  sublayers : List SublayerEntry
  specs : SpecIndex
  requiresReindex : Bool := false

def SnapshotBuild.start (snapshot : TrackedSnapshot) : SnapshotBuild where
  working := snapshot.layer
  sublayers := snapshot.sublayers
  specs := snapshot.specs

/-- The index with the fields of one spec read again. -/
def SnapshotBuild.refresh (usd : Usd) (build : SnapshotBuild) (key : SpecKey) : SnapshotBuild :=
  { build with
    specs := Function.update build.specs key (some (indexedFields usd build.working key)) }

/-- The key of a delta, when the index can hold it. -/
def specKeyOf (delta : SpecDelta) : Option SpecKey :=
  delta.specKind.concrete.map fun kind => ⟨kind, delta.specPath⟩

/-- One event of the loop. -/
def applySnapshotEvent (rules : TrackerRules) (usd : Usd) (build : SnapshotBuild) :
    SharedEvent → Except EditError SnapshotBuild
  | .setSublayers event => do
      let working ← perform (applySublayerEntries rules event.sublayers) build.working
      return { build with working, sublayers := topologySnapshot rules working }
  | .scene (.replaceSdfLayerContent fragment) => do
      let working ← perform (applyLayerContentReplacement usd fragment) build.working
      return { build with working, requiresReindex := true }
  | .scene (.eraseTimeSamples specPath times) => do
      let working ← perform (eraseTimeSamples specPath times) build.working
      let erased := { build with working }
      return if working.specKind specPath = some .attribute then
        erased.refresh usd ⟨.attribute, specPath⟩
      else erased
  | .scene (.setSdfSpecFields delta) => do
      let existed := (specKeyOf delta).filter fun key => (build.specs key).isSome
      let working ← perform (applySpecDeltaToLayer usd delta) build.working
      let applied := { build with working }
      match existed with
      | some key =>
          return if delta.removed || !working.hasSpec key.path then
            { applied with requiresReindex := true }
          else applied.refresh usd key
      | none => return { applied with requiresReindex := true }
  | .scene _ => .error "unsupported snapshot event"

/-- `_apply_snapshot_events` on a copy of the layer. -/
def applySnapshotEvents (rules : TrackerRules) (usd : Usd) (snapshot : TrackedSnapshot)
    (events : List SharedEvent) : Except EditError TrackedSnapshot := do
  let done ← events.foldlM (applySnapshotEvent rules usd) (.start snapshot)
  return if done.requiresReindex then indexSnapshot rules usd done.working
    else { layer := done.working, sublayers := done.sublayers, specs := done.specs }

/-! ### What the diff is for -/

/-- Events about specs as the records of a shared stage. -/
def specRecords (events : List SpecDelta) : List SharedEvent :=
  events.map fun delta => .scene (.setSdfSpecFields delta)

/-- The index is the one that is read off the layer. -/
def Indexed (rules : TrackerRules) (usd : Usd) (snapshot : TrackedSnapshot) : Prop :=
  snapshot = indexSnapshot rules usd snapshot.layer

/-- What an event about a spec finds: everything its spec stands in, and the spec it removes. -/
structure FindsPlace (layer : Layer) (delta : SpecDelta) : Prop where
  parents : ∀ outer, delta.specPath.Inside outer → outer ≠ delta.specPath →
    layer.hasSpec outer = true
  removed : delta.removed = true → layer.hasSpecOfKind delta.specPath delta.specKind = true

/-- The specs and fields of `current`; the sublayer list and the reserved layer data are those of
`previous`. -/
structure Reproduces (previous current after : Layer) : Prop where
  specs : ∀ path, after.specKind path = current.specKind path
  fields : ∀ (key : SpecKey) name, ¬ (key.kind = .layer ∧ name ∈ layerTopologyFields) →
    after.fieldAs key name = current.fieldAs key name
  topology : ∀ name ∈ layerTopologyFields, after.info .root name = previous.info .root name
  reserved : after.reservedData = previous.reservedData

/-- Whether `ListInfoKeys` lists a field of a spec depends on that field alone. -/
def ListsOwnFields (usd : Usd) : Prop :=
  ∀ (first second : Layer) path name, (first.Authors path name ↔ second.Authors path name) →
    (name ∈ usd.listInfoKeys first path ↔ name ∈ usd.listInfoKeys second path)

/-- Layer text keeps the fragments of a diff. -/
def FragmentsReadBack {usd : Usd} (previous current : CapturedLayer usd) : Prop :=
  ∀ key delta, specEvent previous current key = some delta → delta.removed = false →
    usd.importFromString delta.fragment =
      some (serializedLayer current.content key.path key.kind.delta delta.fields)

end UsdConnect.LayerTracker
