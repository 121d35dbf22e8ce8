/-
Purpose: The reduction of a log: writes merge under a key, deletions discard what they delete,
  sample edits fence the writes before them; and the replay of a payload's children.
Trusted boundary: decoding gives the routing and the event that were encoded; origin and client
  address are copied along and left out
Main exports: StoredRecord, ReceivedEvent, MergeKey, mergePayload, LogCompaction.add
-/
import UsdConnect.Events.Apply
import UsdConnect.Server.History

namespace UsdConnect

/-! ### Records -/

/-- Routing and payload of a persisted event; an empty layer key is none. -/
structure StoredRecord where
  event : Event
  layerKey : String := ""
  clientId : String := ""
deriving DecidableEq, Repr

/-- `ReceivedEvent`. -/
structure ReceivedEvent extends StoredRecord where
  seq : Nat
deriving DecidableEq, Repr

/-- `_MergeKey`. -/
structure MergeKey where
  prim : Option ScenePath
  kind : EventKind
  time : Option TimeCode
  layerKey : String
  specPath : Option SpecPath := none
  materialPurpose : String := ""
deriving DecidableEq, Repr

namespace Event

/-- `spec_path` of a field delta or a sample erasure. -/
def exactPath : Event → Option SpecPath
  | .setSdfSpecFields delta => some delta.specPath
  | .eraseTimeSamples specPath _ => some specPath
  | _ => none

def materialPurpose : Event → String
  | .setMaterialBinding _ _ purpose => purpose
  | _ => ""

/-- What an event writes, apart from its layer. -/
def identity (event : Event) : MergeKey where
  prim := event.prim
  kind := event.kind
  time := event.time
  layerKey := ""
  specPath := event.exactPath
  materialPurpose := event.materialPurpose

/-- `_is_exact_deletion`. -/
def isExactDeletion : Event → Bool
  | .eraseTimeSamples .. => true
  | .setSdfSpecFields delta => delta.removed
  | _ => false

/-- `_sampled_attribute_names`. -/
def sampledAttributeNames : Event → List String
  | .setGprimAttrs _ attrs _ _ (some _) => attrs.keys
  | .setXformTrs _ values (some _) => values.keys.map XformField.attribute
  | .setConnectableInput _ _ inputs _ (some _) => inputs.keys.map ("inputs:" ++ ·)
  | .setVisibility _ _ (some _) => ["visibility"]
  | .setPointInstancer _ values (some _) =>
      values.keys.filterMap fun field => field.attribute.map (·.1)
  | _ => []

/-- Whether the event holds a whole sample table. -/
def holdsSamples : Event → Bool
  | .setSdfSpecFields delta => "timeSamples" ∈ delta.fields
  | _ => false

end Event

namespace EventKind

/-- `_SAMPLE_VALUE_KINDS`. -/
def sampleValue : EventKind → Bool
  | .setXformTrs | .setGprimAttrs | .setConnectableInput | .setVisibility | .setPointInstancer =>
      true
  | _ => false

/-- `_EXACT_LAYER_KINDS`. -/
def exactLayer : EventKind → Bool
  | .setSdfSpecFields | .eraseTimeSamples | .replaceSdfLayerContent => true
  | _ => false

/-- `event_apply_tier`. -/
def applyTier (kind : EventKind) : Nat :=
  if kind.create then 0 else if kind.structural then 1 else 2

/-- `_CHILD_REPLAY_KINDS`. -/
def childReplay : EventKind → Bool
  | .ensurePrim | .ensureXformOps | .setXformTrs | .setVisibility | .setMaterialBinding
  | .setConnectableInput | .setConnectableConnection | .deletePrim | .renamePrim
  | .eraseTimeSamples | .setSdfSpecFields => true
  | _ => false

end EventKind

/-- `_MergeKey.from_event`: session and stage state has no layer. -/
def MergeKey.fromEvent (event : Event) (layerKey : String) : MergeKey :=
  { event.identity with layerKey := if event.kind.nonCollaboration then "" else layerKey }

def StoredRecord.mergeKey (record : StoredRecord) : MergeKey :=
  .fromEvent record.event record.layerKey

/-! ### Merging payloads -/

/-- `names[name] = None` on an ordered set of names. -/
def addName {Name : Type} [DecidableEq Name] (names : List Name) (name : Name) : List Name :=
  if name ∈ names then names else names ++ [name]

/-- `_merge_connections`; a first event is merged with itself. -/
def mergeConnections
    (previous : OrderedDict ConnectableAttr ConnSource × List ConnectableAttr)
    (connections : OrderedDict ConnectableAttr ConnSource)
    (disconnections : List ConnectableAttr) :
    OrderedDict ConnectableAttr ConnSource × List ConnectableAttr :=
  let kept := (previous.2.foldl addName []).filter fun name => name ∉ connections.keys
  (previous.1.update connections, disconnections.foldl addName kept)

/-- Applied API schemas of two creations. -/
def mergeSchemas (previous current : List String) : List String :=
  (previous ++ current).dedup.insertionSort (· ≤ ·)

section Merge

variable (usd : Usd)

/-- `_merge_payload` of a second event under one key. -/
def mergeInto (previous event : Event) : Event :=
  match previous, event with
  | .setConnectableConnection prim oldConnections oldDisconnections,
    .setConnectableConnection _ connections disconnections =>
      let merged := mergeConnections (oldConnections, oldDisconnections) connections disconnections
      .setConnectableConnection prim merged.1 merged.2
  | .setXformTrs prim old time, .setXformTrs _ values _ =>
      if old.keys = values.keys then event else .setXformTrs prim (old.update values) time
  | .setPointInstancer prim old time, .setPointInstancer _ values _ =>
      if old.keys = values.keys then event else .setPointInstancer prim (old.update values) time
  | .setGprimAttrs prim oldAttrs oldMeta oldInterp time,
    .setGprimAttrs _ attrs primvarMeta attrInterp _ =>
      .setGprimAttrs prim (oldAttrs.update attrs) (oldMeta.update primvarMeta)
        (oldInterp.update attrInterp) time
  | .setConnectableInput prim oldId oldInputs oldTypes time,
    .setConnectableInput _ infoId inputs inputTypes _ =>
      .setConnectableInput prim (if infoId ≠ "" then infoId else oldId) (oldInputs.update inputs)
        (oldTypes.update inputTypes) time
  | .setVariantSelections prim old, .setVariantSelections _ selections =>
      .setVariantSelections prim (old.update selections)
  | .setStageMetadata old, .setStageMetadata values =>
      .setStageMetadata
        (stageMetadataKeys.foldl
          (fun merged key =>
            match values.get? key with
            | some value => merged.set key value
            | none => merged)
          old)
  | .setSdfSpecFields old, .setSdfSpecFields delta =>
      if old.specKind = delta.specKind then .setSdfSpecFields (mergeSpecEvents usd old delta)
      else event
  | .ensurePrim prim _ oldSchemas, .ensurePrim _ typeName apiSchemas =>
      -- the later type replaces the earlier one, also when it is empty
      .ensurePrim prim typeName (mergeSchemas oldSchemas apiSchemas)
  | _, event => event

/-- `_merge_payload`. -/
def mergePayload (previous : Option Event) (event : Event) : Event :=
  match previous, event with
  | some previous, event => mergeInto usd previous event
  | none, .setConnectableConnection prim connections disconnections =>
      let merged := mergeConnections (connections, disconnections) connections disconnections
      .setConnectableConnection prim merged.1 merged.2
  | none, event => event

end Merge

/-! ### The reduction -/

/-- Pending entries can merge, preserved entries keep their replay position.  Every entry is filed
under the key of its record. -/
structure LogCompaction where
  pending : OrderedDict MergeKey ReceivedEvent := .empty
  preserved : List (MergeKey × ReceivedEvent) := []
  pending_keyed : ∀ entry ∈ pending.entries, entry.2.mergeKey = entry.1 := by
    intro _ member
    cases member
  preserved_keyed : ∀ entry ∈ preserved, entry.2.mergeKey = entry.1 := by
    intro _ member
    cases member

namespace LogCompaction

def empty : LogCompaction where
  pending := .empty
  preserved := []

/-- Append to the preserved entries. -/
def keep (compaction : LogCompaction) (record : ReceivedEvent) : LogCompaction :=
  { compaction with
    preserved := compaction.preserved ++ [(record.mergeKey, record)]
    preserved_keyed := by
      intro entry member
      rcases List.mem_append.1 member with before | last
      · exact compaction.preserved_keyed entry before
      · rw [List.mem_singleton.1 last] }

/-- `_pending.pop`. -/
def drop (compaction : LogCompaction) (key : MergeKey) : LogCompaction :=
  { compaction with
    pending := compaction.pending.pop key
    pending_keyed := fun entry member =>
      compaction.pending_keyed entry (List.mem_of_mem_filter member) }

/-- `_preserve`. -/
def preserve (compaction : LogCompaction) (key : MergeKey) : LogCompaction :=
  match compaction.pending.get? key with
  | some record => (compaction.drop key).keep record
  | none => compaction

/-- `_discard`. -/
def discard (compaction : LogCompaction) (found : MergeKey → Bool) : LogCompaction where
  pending := compaction.pending.filterKeys fun key => !found key
  preserved := compaction.preserved.filter fun entry => !found entry.1
  pending_keyed := fun entry member =>
    compaction.pending_keyed entry (List.mem_of_mem_filter member)
  preserved_keyed := fun entry member =>
    compaction.preserved_keyed entry (List.mem_of_mem_filter member)

/-- `_pending[key] = record`. -/
def put (compaction : LogCompaction) (record : ReceivedEvent) : LogCompaction :=
  { compaction with
    pending := compaction.pending.set record.mergeKey record
    pending_keyed := by
      intro entry member
      rcases OrderedDict.mem_setEntries.1 member with ⟨here, same⟩ | ⟨_, before⟩
      · rw [here, same]
      · exact compaction.pending_keyed entry before }

/-- `_preserve_sample_order`. -/
def preserveSampleOrder (compaction : LogCompaction) (key : MergeKey) (event : Event) :
    LogCompaction :=
  let tables := event.sampledAttributeNames.map fun name =>
    { key with
      kind := .setSdfSpecFields
      time := none
      specPath := key.prim.map fun prim => ⟨prim.specPath, some name⟩
      materialPurpose := "" : MergeKey }
  let compaction := tables.foldl
    (fun current table =>
      match current.pending.get? table with
      | some previous => if previous.event.holdsSamples then current.preserve table else current
      | none => current)
    compaction
  if event.isSampleHistoryBarrier then
    let fenced := compaction.pending.keys.filter fun pending =>
      pending.prim = key.prim ∧ pending.layerKey = key.layerKey ∧
        (pending.kind.sampleValue ∨ (event.isExactDeletion ∧ pending.kind = .setSdfSpecFields))
    fenced.foldl preserve compaction
  else compaction

/-- `old.prim == key.prim or old.prim.startswith(key.prim + "/")`. -/
def coversPrim : Option ScenePath → Option ScenePath → Bool
  | some outer, some prim => prim = outer ∨ (outer ≠ [] ∧ outer <+: prim)
  | outer, prim => prim = outer

/-- Entries that a deletion, a replacement or a load state makes obsolete. -/
def makeRoom (compaction : LogCompaction) (key : MergeKey) : LogCompaction :=
  match key.kind with
  | .deletePrim | .renamePrim =>
      compaction.discard fun old => old.layerKey = key.layerKey ∧ coversPrim key.prim old.prim
  | .replaceSdfLayerContent =>
      compaction.discard fun old => old.layerKey = key.layerKey ∧ old.kind.exactLayer
  | .loadPayload => compaction.drop ⟨key.prim, .unloadPayload, none, key.layerKey, none, ""⟩
  | .unloadPayload => compaction.drop ⟨key.prim, .loadPayload, none, key.layerKey, none, ""⟩
  | _ => compaction

section Add

variable (usd : Usd)

/-- Merge a record with the pending one of its key.  Repeated op setup is dropped, and a repeated
creation keeps its earlier position. -/
def store (compaction : LogCompaction) (record : ReceivedEvent) : LogCompaction :=
  match compaction.pending.get? record.mergeKey with
  | none => compaction.put { record with event := mergePayload usd none record.event }
  | some previous =>
      if record.event.kind = .ensureXformOps then compaction
      else
        compaction.put
          { record with
            event := mergePayload usd (some previous.event) record.event
            seq := if record.event.kind = .ensurePrim then previous.seq else record.seq }

/-- `add_decoded_record`. -/
def add (compaction : LogCompaction) (record : ReceivedEvent) : LogCompaction :=
  let key := record.mergeKey
  let fenced := compaction.preserveSampleOrder key record.event
  if record.event.isExactDeletion then
    let cleared :=
      if key.kind = .setSdfSpecFields then
        fenced.discard fun old => old.layerKey = key.layerKey ∧ old.specPath = key.specPath
      else fenced
    cleared.keep record
  else (fenced.makeRoom key).store usd record

/-- All entries, preserved ones first. -/
def records (compaction : LogCompaction) : List ReceivedEvent :=
  compaction.preserved.map (·.2) ++ compaction.pending.entries.map (·.2)

/-- `replay_records`. -/
def replayRecords (compaction : LogCompaction) : List ReceivedEvent :=
  compaction.records.insertionSort fun first second => first.seq ≤ second.seq

end Add

end LogCompaction

/-- The reduction over stored records. -/
def logReduction (usd : Usd) : LogReduction StoredRecord where
  State := LogCompaction
  empty := .empty
  addStoredRecord compaction seq record := compaction.add usd { record with seq := seq }
  replayRecords compaction := compaction.replayRecords.map (·.toStoredRecord)

/-! ### Replay of a payload's children -/

section ChildReplay

variable (usd : Usd)

/-- Text form of a prim path. -/
def ScenePath.text (prim : ScenePath) : String :=
  "/" ++ "/".intercalate prim

/-- A record below a payload prim. -/
def belowPayload (prim : ScenePath) (record : StoredRecord) : Bool :=
  match record.event.prim with
  | some path => path ≠ prim ∧ prim <+: path
  | none => false

/-- Rows the child replay reads: child edits of its kinds, and the deletions and renames of the
payload prim and its ancestors. -/
def readByChildReplay (prim : ScenePath) (record : StoredRecord) : Bool :=
  (belowPayload prim record && record.event.kind.childReplay) ||
    match record.event with
    | .deletePrim path | .renamePrim path _ => path <+: prim
    | _ => false

/-- Order within a segment: creations first, parents before descendants. -/
def childSegmentOrder (segment : List StoredRecord) : List StoredRecord :=
  segment.insertionSort fun first second =>
    first.event.kind.applyTier < second.event.kind.applyTier ∨
      (first.event.kind.applyTier = second.event.kind.applyTier ∧
        (first.event.prim.getD []).text ≤ (second.event.prim.getD []).text)

/-- The loop over the reduced records; `segment` is what has been collected since the last
barrier. -/
def orderChildRecords (prim : ScenePath) : List StoredRecord → List StoredRecord → List StoredRecord
  | segment, [] => childSegmentOrder segment
  | segment, record :: rest =>
      if record.event.isBarrier then
        childSegmentOrder segment ++ (if belowPayload prim record then [record] else []) ++
          orderChildRecords prim [] rest
      else if belowPayload prim record then orderChildRecords prim (segment ++ [record]) rest
      else orderChildRecords prim segment rest

/-- `child_replay_records`. -/
def childReplayRecords (rows : List (Nat × StoredRecord)) (prim : ScenePath) :
    List StoredRecord :=
  let reduction := logReduction usd
  let found := rows.filter fun row => readByChildReplay prim row.2
  orderChildRecords prim [] (reduction.replayRecords (reduction.buildCompacted found))

end ChildReplay

end UsdConnect
