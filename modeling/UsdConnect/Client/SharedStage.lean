/-
Purpose: The shared-stage client: records are applied in sequence order to the local layers of their
  keys, those of unmapped layers wait for the graph, and an exception asks for a replay.
Trusted boundary: local edits are frozen out of the layers while records are applied, so a layer
  here holds authoritative content; what the stage composes, as far as it decides which events are
  dropped, is a parameter.
Main exports: SharedStageClient, applyRecord, applyPending, applyIncoming, refreshLayerGraph
-/
import UsdConnect.Client.Dispatcher
import UsdConnect.SharedStage.Records
import UsdConnect.Server.Scene

namespace UsdConnect

/-! ### Events of a layer's content -/

namespace Event

/-- The content events of a shared-stage layer. -/
def isLayerContent : Event → Bool
  | .replaceSdfLayerContent _ | .setSdfSpecFields _ | .eraseTimeSamples .. => true
  | _ => false

/-- The applier of a content event, on its layer. -/
def contentProgram (usd : Usd) : Event → LayerProgram Unit
  | .setSdfSpecFields delta => applySpecDeltaToLayer usd delta
  | .eraseTimeSamples specPath times => UsdConnect.eraseTimeSamples specPath times
  | .replaceSdfLayerContent fragment => applyLayerContentReplacement usd fragment
  | _ => Edit.raise "unsupported USD event kind"

/-- The elements of a spec path before its first variant selection. -/
def leadingPrims : PrimPath → ScenePath
  | .child name :: rest => name :: leadingPrims rest
  | _ => []

/-- The prim whose subtree contains what an exact event writes: variant selections live in the
subtree of the first prim that has one. -/
def contentScope (specPath : SpecPath) : Option ScenePath :=
  match leadingPrims specPath.prim with
  | [] => none
  | prim => some prim

/-- The prims that `atomic_apply_prim_paths` lists for one event; `none` asks for a snapshot of the
full layer. -/
def atomicApplyPaths : Event → Option (List ScenePath)
  | .setStageMetadata _ | .replaceSdfLayerContent _ => none
  | .setSdfSpecFields delta =>
      if delta.specKind = .layer then none
      else (contentScope delta.specPath).map fun prim => [prim]
  | .eraseTimeSamples specPath _ => (contentScope specPath).map fun prim => [prim]
  | .renamePrim prim newName =>
      if prim = [] ∨ newName = "" then none else some [prim, prim.dropLast ++ [newName]]
  | .setConnectableConnection prim connections _ =>
      if prim = [] then none
      else some (prim :: connections.entries.map fun entry => entry.2.sourcePrim)
  | event =>
      match event.prim with
      | none | some [] => none
      | some prim => some [prim]

end Event

/-- `atomic_apply_prim_paths`. -/
def atomicApplyPrimPaths (events : List Event) : Option (List ScenePath) :=
  (events.mapM Event.atomicApplyPaths).map List.flatten

/-- Scene event of a record. -/
def SharedRecord.sceneEvent (record : SharedRecord) : Option Event :=
  match record.event with
  | .setSublayers _ => none
  | .scene event => some event

/-- A record whose event goes into the content of its layer. -/
def SharedRecord.isContent (record : SharedRecord) : Bool :=
  record.sceneEvent.any Event.isLayerContent

/-! ### Applying content -/

/-- Where an application raises for a reason that its events do not show. -/
structure ApplyFault where
  /-- Raise before the event at this position, inside the rollback context. -/
  during : Option Nat := none
  /-- Raise when everything has been written: the tracker's bookkeeping follows. -/
  afterwards : Bool := false
deriving DecidableEq, Repr

/-- `apply_event` on a content event, `dropped` deciding from the layer as it stands; returns what it
decided. -/
def applyContentEvent (usd : Usd) (dropped : Layer → Event → Bool) (event : Event) :
    LayerProgram Bool := do
  let skipped ← Edit.look fun layer => dropped layer event
  if !skipped then event.contentProgram usd
  pure skipped

/-- The loop of `apply_events` over content events, which keep their input order. -/
def applyContentLoop (usd : Usd) (dropped : Layer → Event → Bool) :
    Option Nat → List Event → LayerProgram (List Bool)
  | _, [] => pure []
  | during, event :: rest =>
      if during = some 0 then Edit.raise "interrupted"
      else do
        let skipped ← applyContentEvent usd dropped event
        let later ← applyContentLoop usd dropped (during.map (· - 1)) rest
        pure (skipped :: later)

/-- `_validate_spec_events`. -/
def validateSpecEvents (usd : Usd) (events : List Event) : LayerProgram Unit :=
  events.forM fun event =>
    match event with
    | .setSdfSpecFields delta =>
        match validateSpecDelta usd delta with
        | some error => Edit.raise error
        | none => pure ()
    | _ => pure ()

/-- `apply_events` on content events: the deltas are validated before the first is applied. -/
def applyContentEvents (usd : Usd) (dropped : Layer → Event → Bool) (during : Option Nat)
    (events : List Event) : LayerProgram (List Bool) := do
  validateSpecEvents usd events
  applyContentLoop usd dropped during events

/-- Specification record of one applied content record. -/
structure ContentApplication where
  layer : LayerId
  record : SharedRecord
  dropped : Bool

/-- What the client takes from its surroundings: asset paths, layer text, and whether the composed
stage drops an event because it targets a prim beneath an instance. -/
structure SharedStageLibraries where
  paths : AssetPaths LayerId
  usd : Usd
  drops : LayerGraph LayerId → (LayerId → Layer) → Event → Bool

/-- State of `SharedStageClient` that receiving changes.  `applied` is a specification variable:
the content records applied so far, in the order they were applied. -/
structure SharedStageClient where
  graph : LayerGraph LayerId
  contents : LayerId → Layer
  lastSeq : Nat := 0
  pendingRecords : List SharedRecord := []
  applied : List ContentApplication := []

/-- What may change while one batch is applied, by sequence: the layers that can be opened and the
faults of an application.  A group of records is looked up by its first. -/
structure Circumstances where
  openable : Nat → LayerId → Bool
  fault : Nat → ApplyFault := fun _ => {}

namespace SharedStageClient

variable (libraries : SharedStageLibraries)

def withContent (client : SharedStageClient) (layer : LayerId) (content : Layer) :
    SharedStageClient :=
  { client with contents := Function.update client.contents layer content }

/-- The events that `_apply_layer_events` hands to `apply_events`. -/
def layerProgram (client : SharedStageClient) (layer : LayerId) (records : List SharedRecord)
    (fault : ApplyFault) : LayerProgram (List Bool) :=
  applyContentEvents libraries.usd
    (fun content =>
      libraries.drops client.graph (Function.update client.contents layer content))
    fault.during (records.filterMap SharedRecord.sceneEvent)

/-- `_apply_layer_events`; the flag says that it returned.  An exception inside the rollback
context restores the layer. -/
def applyLayerEvents (client : SharedStageClient) (layer : LayerId) (records : List SharedRecord)
    (fault : ApplyFault) : SharedStageClient × Bool :=
  let content := client.contents layer
  let snapshot := LayerSnapshot.enter content
    (atomicApplyPrimPaths (records.filterMap SharedRecord.sceneEvent))
  let program := client.layerProgram libraries layer records fault
  match program.result content with
  | .error _ =>
      (client.withContent layer (snapshot.restore.after (program.after content)), false)
  | .ok dropped =>
      ({ client.withContent layer (program.after content) with
          applied := client.applied ++ (records.zip dropped).map fun entry =>
            ⟨layer, entry.1, entry.2⟩ },
        !fault.afterwards)

/-- `_defer`. -/
def defer (client : SharedStageClient) (record : SharedRecord) : SharedStageClient :=
  { client with pendingRecords := client.pendingRecords ++ [record] }

/-- `_apply_record`; the flag says that it returned. -/
def applyRecord (client : SharedStageClient) (openable : LayerId → Bool) (fault : ApplyFault)
    (record : SharedRecord) : SharedStageClient × Bool :=
  if record.layerKey = 0 then (client, false)
  else
    match record.event with
    | .setSublayers event =>
        -- the graph transaction and the layer's rollback context undo an exception
        if fault.during.isSome then (client, false)
        else
          match client.graph.applySublayers libraries.paths openable record.layerKey event with
          | none => (client, false)
          | some graph => ({ client with graph := graph }, !fault.afterwards)
    | .scene event =>
        if event.isLayerContent then
          match client.graph.layers record.layerKey with
          | none => (client.defer record, true)
          | some layer => client.applyLayerEvents libraries layer [record] fault
        else (client, false)

/-! ### Waiting records -/

/-- Join the next record to the first group when both belong to one layer. -/
def joinGroup (layer : LayerId) (record : SharedRecord) :
    List (LayerId × List SharedRecord) → List (LayerId × List SharedRecord)
  | [] => [(layer, [record])]
  | (other, records) :: rest =>
      if other = layer then (layer, record :: records) :: rest
      else (layer, [record]) :: (other, records) :: rest

/-- The waiting records of mapped layers, consecutive ones of one layer grouped. -/
def pendingGroups (graph : LayerGraph LayerId) :
    List SharedRecord → List (LayerId × List SharedRecord)
  | [] => []
  | record :: rest =>
      match graph.layers record.layerKey with
      | none => pendingGroups graph rest
      | some layer => joinGroup layer record (pendingGroups graph rest)

/-- The waiting records whose layer is still unmapped. -/
def retainedRecords (graph : LayerGraph LayerId) (records : List SharedRecord) :
    List SharedRecord :=
  records.filter fun record => (graph.layers record.layerKey).isNone

/-- Sequence that names a group. -/
def groupSeq (records : List SharedRecord) : Nat :=
  (records.head?.map SharedRecord.seq).getD 0

/-- Apply the groups one after the other; an exception stops the loop. -/
def applyGroups (fault : Nat → ApplyFault) :
    List (LayerId × List SharedRecord) → SharedStageClient → SharedStageClient × Bool
  | [], client => (client, true)
  | (layer, records) :: rest, client =>
      match client.applyLayerEvents libraries layer records (fault (groupSeq records)) with
      | (client, false) => (client, false)
      | (client, true) => applyGroups fault rest client

/-- `_apply_pending`: the list is replaced only after the last group. -/
def applyPending (client : SharedStageClient) (fault : Nat → ApplyFault) :
    SharedStageClient × Bool :=
  match applyGroups libraries fault (pendingGroups client.graph client.pendingRecords) client with
  | (client, false) => (client, false)
  | (applied, true) =>
      ({ applied with pendingRecords := retainedRecords client.graph client.pendingRecords }, true)

/-! ### Batches -/

/-- Apply one graph baseline; the flag says that it returned. -/
def applyGraphState (client : SharedStageClient) (openable : LayerId → Bool) (fault : ApplyFault)
    (state : GraphState) : SharedStageClient × Bool :=
  if fault.during.isSome then (client, false)
  else
    match client.graph.applyState libraries.paths openable state with
    | none => (client, false)
    | some graph => ({ client with graph := graph }, !fault.afterwards)

/-- Apply the graph baselines of a batch; `appliedSeq` follows them. -/
def applyGraphStates (circumstances : Circumstances) :
    List (Nat × GraphState) → SharedStageClient → Nat → SharedStageClient × Nat × Bool
  | [], client, appliedSeq => (client, appliedSeq, true)
  | (seq, state) :: rest, client, appliedSeq =>
      match client.applyGraphState libraries (circumstances.openable seq)
          (circumstances.fault seq) state with
      | (client, false) => (client, appliedSeq, false)
      | (client, true) => applyGraphStates circumstances rest client (max appliedSeq seq)

/-- Apply the records of a batch in order. -/
def applyRecords (circumstances : Circumstances) :
    List SharedRecord → SharedStageClient → Nat → SharedStageClient × Nat × Bool
  | [], client, appliedSeq => (client, appliedSeq, true)
  | record :: rest, client, appliedSeq =>
      match client.applyRecord libraries (circumstances.openable record.seq)
          (circumstances.fault record.seq) record with
      | (client, false) => (client, appliedSeq, false)
      | (client, true) => applyRecords circumstances rest client (max appliedSeq record.seq)

/-- The graph baselines of a decoded batch. -/
def graphStates (received : List (Nat × SharedItem)) : List (Nat × GraphState) :=
  received.filterMap fun entry => entry.2.numberedState entry.1

/-- The records of a decoded batch. -/
def receivedRecords (received : List (Nat × SharedItem)) : List SharedRecord :=
  received.filterMap fun entry => entry.2.numberedRecord entry.1

/-- The body of `_apply_incoming` that an exception leaves: all baselines first, then the records,
then the waiting records. -/
def applyDecoded (client : SharedStageClient) (circumstances : Circumstances)
    (received : List (Nat × SharedItem)) (appliedSeq : Nat) : SharedStageClient × Nat × Bool :=
  match applyGraphStates libraries circumstances (graphStates received) client appliedSeq with
  | (client, appliedSeq, false) => (client, appliedSeq, false)
  | (client, appliedSeq, true) =>
      match applyRecords libraries circumstances (receivedRecords received) client appliedSeq with
      | (client, appliedSeq, false) => (client, appliedSeq, false)
      | (client, appliedSeq, true) =>
          let (client, finished) := client.applyPending libraries circumstances.fault
          (client, appliedSeq, finished)

/-- `_apply_incoming`, with the sequence it asks the receiver to replay from. -/
def applyIncoming (client : SharedStageClient) (circumstances : Circumstances)
    (buffers : List (ReceiverFrame SharedItem)) : SharedStageClient × Option Nat :=
  let result := decodeMessages buffers { lastSeq := client.lastSeq }
  let client := if result.resyncRequested then { client with pendingRecords := [] } else client
  let appliedSeq := if result.resyncRequested then 0 else client.lastSeq
  match client.applyDecoded libraries circumstances result.received appliedSeq with
  | (client, appliedSeq, false) => ({ client with lastSeq := appliedSeq }, some (appliedSeq + 1))
  | (client, appliedSeq, true) =>
      let lastSeq := max appliedSeq result.lastSeq
      ({ client with lastSeq := lastSeq }, if result.failed then some (lastSeq + 1) else none)

/-- `refresh_layer_graph`; the flag says that it returned. -/
def refreshLayerGraph (client : SharedStageClient) (openable : LayerId → Bool)
    (fault : Nat → ApplyFault) : SharedStageClient × Bool :=
  match client.graph.refreshDependencies libraries.paths openable with
  | (graph, false) => ({ client with graph := graph }, false)
  | (graph, true) => { client with graph := graph }.applyPending libraries fault

end SharedStageClient

/-! ### Runs -/

/-- A message of the stream as one connection carries it: the item of a sequence, a message without
a sequence, or one that does not decode. -/
inductive StreamFrame where
  | item (index : Nat)
  | other
  | malformed (kind : ReceiverMessageKind) (sequence : Nat)
deriving DecidableEq, Repr

/-- The message on the wire; `stream index` has sequence `index + 1`. -/
def StreamFrame.carry (stream : Nat → SharedItem) : StreamFrame → ReceiverFrame SharedItem
  | .item index => .event (index + 1) (stream index)
  | .other => .other
  | .malformed kind sequence => .malformed kind sequence

/-- The client drains a batch, or refreshes its graph. -/
inductive SharedStageAction where
  | incoming (frames : List StreamFrame) (circumstances : Circumstances)
  | refresh (openable : LayerId → Bool) (fault : Nat → ApplyFault)

namespace SharedStageClient

/-- One step.  What a replay sends again is up to the frames of later batches. -/
def step (libraries : SharedStageLibraries) (stream : Nat → SharedItem)
    (client : SharedStageClient) : SharedStageAction → Option SharedStageClient
  | .incoming frames circumstances =>
      some (client.applyIncoming libraries circumstances (frames.map (·.carry stream))).1
  | .refresh openable fault => some (client.refreshLayerGraph libraries openable fault).1

end SharedStageClient

end UsdConnect
