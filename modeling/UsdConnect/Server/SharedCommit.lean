/-
Purpose: A shared-stage transaction: canonicalization, application, topology, encoding and one
  append, inside the contexts that take everything back.
Trusted boundary: one append of the store is one SQL transaction; which steps raise for a reason the
  events do not show is part of the environment; the sublayer list of a layer is kept with the graph
  and is applied after the scene events of its transaction
Main exports: SharedStore, SharedJournal, SharedServer, CommitEnvironment
-/
import UsdConnect.SharedStage.Records
import UsdConnect.Server.Journal
import UsdConnect.Server.Scene

namespace UsdConnect

/-! ### The store and its journal -/

/-- Server-local identifier of a layer and its protocol identity. -/
structure LayerIdentity where
  identifier : LayerId
  layerKey : LayerKey
deriving DecidableEq, Repr

/-- The tables of a shared-stage database; `layerIdentities` is `shared_layer_identities`. -/
structure SharedStore extends EventStore SharedItem where
  layerIdentities : List LayerIdentity := []

namespace SharedStore

/-- The upsert of one identity.  The trigger refuses another key for the identifier, and the key
column is unique. -/
def insertIdentity (identities : List LayerIdentity) (identity : LayerIdentity) :
    Option (List LayerIdentity) :=
  match identities.find? fun stored => stored.identifier = identity.identifier with
  | some stored => if stored.layerKey = identity.layerKey then some identities else none
  | none =>
      if identities.any fun stored => stored.layerKey = identity.layerKey then none
      else some (identities ++ [identity])

def insertIdentities : List LayerIdentity → List LayerIdentity → Option (List LayerIdentity)
  | identities, [] => some identities
  | identities, identity :: rest => do
      let identities ← insertIdentity identities identity
      insertIdentities identities rest

/-- `append_batch`; `none` is a violated constraint, and nothing is written. -/
def appendBatch (store : SharedStore) (rows : List (Nat × SharedItem))
    (producerProgress : List ProducerProgress) (layerIdentities : List LayerIdentity) :
    Option SharedStore := do
  let identities ← insertIdentities store.layerIdentities layerIdentities
  some
    { store.toEventStore.appendBatch rows producerProgress with layerIdentities := identities }

end SharedStore

/-- Counters, progress cache and persistence queue in front of the store.  `written` is auxiliary:
what the store held before each write, so a crash finds one of its members or the store. -/
structure SharedJournal where
  store : SharedStore := {}
  nextSeq : Nat := 1
  eventCount : Nat := 0
  producerProgress : Producer → Option Nat := fun _ => none
  realtime : Bool := false
  queue : List (List (Nat × SharedItem)) := []
  written : List SharedStore := []

namespace SharedJournal

def assignSeq (journal : SharedJournal) : Nat × SharedJournal :=
  (journal.nextSeq, { journal with nextSeq := journal.nextSeq + 1 })

/-- The store after a write. -/
def write (journal : SharedJournal) (store : SharedStore) (count : Nat) : SharedJournal :=
  { journal with
    store := store
    eventCount := journal.eventCount + count
    written := journal.written ++ [journal.store] }

/-- Whether `append_batch` may queue: the durability is realtime and nothing needs a synchronous
write. -/
def canQueue (journal : SharedJournal) (producerProgress : List ProducerProgress)
    (layerIdentities : List LayerIdentity) : Bool :=
  journal.realtime && producerProgress.isEmpty && layerIdentities.isEmpty

/-- `append_batch`. -/
def appendBatch (journal : SharedJournal) (appendError : Option EditError)
    (rows : List (Nat × SharedItem)) (producerProgress : List ProducerProgress)
    (layerIdentities : List LayerIdentity) : SharedJournal × Except EditError Unit :=
  if journal.canQueue producerProgress layerIdentities then
    ({ journal with queue := journal.queue ++ [rows] }, .ok ())
  else
    match appendError with
    | some error => (journal, .error error)
    | none =>
        match journal.store.appendBatch rows producerProgress layerIdentities with
        | none => (journal, .error "shared layer identity cannot be remapped")
        | some store => (journal.write store rows.length, .ok ())

/-- One round of `_persist_loop`: a batch whose append raises is logged and dropped. -/
def persistNext (journal : SharedJournal) (appendError : Option EditError) : SharedJournal :=
  match journal.queue with
  | [] => journal
  | rows :: rest =>
      let taken := { journal with queue := rest }
      match appendError with
      | some _ => taken
      | none =>
          match journal.store.appendBatch rows [] [] with
          | none => taken
          | some store => taken.write store rows.length

end SharedJournal

/-! ### The server -/

/-- Live scene, layer graph and journal. -/
structure SharedServer where
  scene : Scene
  graph : LayerGraph LayerId
  journal : SharedJournal

/-- `Transaction`; a network producer has progress, the empty key is zero. -/
structure SharedTransaction where
  events : List SharedEvent
  layerKey : LayerKey
  progress : Option ProducerProgress := none

/-- Number of topology events. -/
def topologyCount (events : List SharedEvent) : Nat :=
  events.countP fun event =>
    match event with
    | .setSublayers _ => true
    | .scene _ => false

/-- Number of events that replace the content of the layer. -/
def replacementCount (events : List SharedEvent) : Nat :=
  events.countP fun event =>
    match event with
    | .scene (.replaceSdfLayerContent _) => true
    | _ => false

/-- `validate_events` without the payloads: there are events, and the ones that replace complete
state occur once. -/
def validateEvents (events : List SharedEvent) : Bool :=
  !events.isEmpty && decide (topologyCount events ≤ 1) && decide (replacementCount events ≤ 1)

/-- What stays the same while a database is served. -/
structure SharedStageSetup where
  usd : Usd
  paths : AssetPaths LayerId
  rootLayer : LayerId

/-- What decides about one operation besides the server's state. -/
structure CommitEnvironment where
  openable : LayerId → Bool
  steps : Nat
  encodeError : Nat → SharedItem → Option EditError := fun _ _ => none
  appendError : Option EditError := none
  /-- The routing maps at an exception of accept or discovery. -/
  interrupted : LayerGraph LayerId

namespace SharedServer

section Commit

variable (setup : SharedStageSetup) (environment : CommitEnvironment)

/-- Canonical events of a transaction, the last prepared topology, and the graph with its key supply
advanced. -/
def canonicalizeAll (layerKey : LayerKey) :
    List SharedEvent → LayerGraph LayerId →
      Option (List SharedEvent × Option (PreparedSublayers LayerId) × LayerGraph LayerId)
  | [], graph => some ([], none, graph)
  | .scene event :: rest, graph => do
      let (canonical, prepared, graph) ← canonicalizeAll layerKey rest graph
      some (.scene event :: canonical, prepared, graph)
  | .setSublayers event :: rest, graph => do
      let (here, graph) ←
        graph.canonicalizeSublayers setup.paths environment.openable layerKey event
      let (canonical, prepared, graph) ← canonicalizeAll layerKey rest graph
      some (.setSublayers here.event :: canonical, prepared.or (some here), graph)

/-- Scene events of a transaction. -/
def sceneEvents (events : List SharedEvent) : List Event :=
  events.filterMap fun event =>
    match event with
    | .setSublayers _ => none
    | .scene event => some event

/-- Replace the scene events by the ones with completed deletion fields. -/
def withCompleted : List SharedEvent → List Event → List SharedEvent
  | .setSublayers event :: rest, completed => .setSublayers event :: withCompleted rest completed
  | .scene _ :: rest, event :: completed => .scene event :: withCompleted rest completed
  | rest, _ => rest

/-- The appliers of the topology events. -/
def applyTopology (target : LayerId) :
    List SharedEvent → LayerGraph LayerId → LayerGraph LayerId × Except EditError Unit
  | [], graph => (graph, .ok ())
  | .scene _ :: rest, graph => applyTopology target rest graph
  | .setSublayers event :: rest, graph =>
      match graph.applySublayerEntries setup.paths target event.sublayers with
      | none => (graph, .error "invalid sublayer entries")
      | some graph => applyTopology target rest graph

/-- `apply_with_deletion_fields` on the canonical events; the result has completed deletions. -/
def applyCanonical (target : LayerId) (canonical : List SharedEvent) (server : SharedServer) :
    SharedServer × Except EditError (List SharedEvent) :=
  let program := applyWithDeletionFields setup.usd target [] (sceneEvents canonical)
  let server' := { server with scene := program.after server.scene }
  match program.result server.scene with
  | .error error => (server', .error error)
  | .ok (_, .error error) => (server', .error error)
  | .ok (completed, .ok ()) =>
      match applyTopology setup target canonical server'.graph with
      | (graph, .error error) => ({ server' with graph := graph }, .error error)
      | (graph, .ok ()) =>
          ({ server' with graph := graph }, .ok (withCompleted canonical completed))

/-- Accept the prepared topology and discover the layers it attaches. -/
def acceptAndDiscover (prepared : Option (PreparedSublayers LayerId)) (server : SharedServer) :
    SharedServer × Except EditError (List (LayerKey × TopologyEvent)) :=
  match prepared with
  | none => (server, .ok [])
  | some prepared =>
      let outcome := do
        let graph ← server.graph.acceptSublayers setup.paths prepared
        graph.discoverSublayerStates setup.paths environment.openable environment.steps
          prepared.mappings
      match outcome with
      | none =>
          ({ server with graph := environment.interrupted.rollback server.graph },
            .error "stale_layer_graph")
      | some (records, graph) => ({ server with graph := graph }, .ok records)

/-- `assign_and_encode_events`: one sequence number per event, in order. -/
def assignAndEncode (journal : SharedJournal) :
    List (LayerKey × SharedEvent) → SharedJournal × Except EditError (List (Nat × SharedItem))
  | [] => (journal, .ok [])
  | (layerKey, event) :: rest =>
      let (seq, journal) := journal.assignSeq
      match environment.encodeError seq (.record layerKey event) with
      | some error => (journal, .error error)
      | none =>
          match assignAndEncode journal rest with
          | (journal, .error error) => (journal, .error error)
          | (journal, .ok rows) => (journal, .ok ((seq, .record layerKey event) :: rows))

/-- Keys that occur in one routed topology event. -/
def topologyKeys : LayerKey × SharedEvent → List LayerKey
  | (_, .scene _) => []
  | (layerKey, .setSublayers event) => layerKey :: event.sublayers.filterMap (·.layerKey)

/-- `_shared_layer_identity_updates`. -/
def layerIdentityUpdates (graph : LayerGraph LayerId) (layerKeys : List LayerKey) :
    List LayerIdentity :=
  (layerKeys.dedup.insertionSort (· ≤ ·)).filterMap fun layerKey =>
    (graph.identityIdentifiersByKey layerKey).map fun identifier => ⟨identifier, layerKey⟩

/-- `persist_shared_events`. -/
def persistSharedEvents (routed : List (LayerKey × SharedEvent))
    (progress : Option ProducerProgress) (server : SharedServer) :
    SharedServer × Except EditError (List (Nat × SharedItem)) :=
  match assignAndEncode environment server.journal routed with
  | (journal, .error error) => ({ server with journal := journal }, .error error)
  | (journal, .ok rows) =>
      let identities := layerIdentityUpdates server.graph (routed.flatMap topologyKeys)
      match journal.appendBatch environment.appendError rows progress.toList identities with
      | (journal, .error error) => ({ server with journal := journal }, .error error)
      | (journal, .ok ()) => ({ server with journal := journal }, .ok rows)

end Commit

/-! ### Contexts that take a failed transaction back -/

section Contexts

variable {Result : Type} (saved : SharedServer)

/-- `atomic_apply`: the full layer is transferred back, its sublayer list included. -/
def atomicApply (target : LayerId) (attempt : SharedServer × Except EditError Result) :
    SharedServer × Except EditError Result :=
  match attempt with
  | (server, .ok result) => (server, .ok result)
  | (server, .error error) =>
      ({ server with
          scene := restoreLayers [(target, .full (saved.scene.layers target))] server.scene
          graph := { server.graph with
            authored := Function.update server.graph.authored target
              (saved.graph.authored target) } },
        .error error)

/-- `graph.transaction()`. -/
def graphTransaction (attempt : SharedServer × Except EditError Result) :
    SharedServer × Except EditError Result :=
  match attempt with
  | (server, .ok result) => (server, .ok result)
  | (server, .error error) =>
      ({ server with graph := saved.graph.rollback server.graph }, .error error)

/-- `reserve_sequences`. -/
def reserveSequences (attempt : SharedServer × Except EditError Result) :
    SharedServer × Except EditError Result :=
  match attempt with
  | (server, .ok result) => (server, .ok result)
  | (server, .error error) =>
      ({ server with
          journal := { server.journal with nextSeq := saved.journal.nextSeq } },
        .error error)

end Contexts

/-! ### Transactions -/

section Transaction

variable (setup : SharedStageSetup) (environment : CommitEnvironment)

/-- The protected region: apply, accept, discover, persist. -/
def applyAndPersist (transaction : SharedTransaction) (target : LayerId)
    (canonical : List SharedEvent) (prepared : Option (PreparedSublayers LayerId))
    (server : SharedServer) : SharedServer × Except EditError (List (Nat × SharedItem)) :=
  match applyCanonical setup target canonical server with
  | (server, .error error) => (server, .error error)
  | (server, .ok completed) =>
      match acceptAndDiscover setup environment prepared server with
      | (server, .error error) => (server, .error error)
      | (server, .ok discovered) =>
          let routed := completed.map (fun event => (transaction.layerKey, event)) ++
            discovered.map fun record => (record.1, SharedEvent.setSublayers record.2)
          persistSharedEvents environment routed transaction.progress server

/-- `_commit_shared`. -/
def commitShared (transaction : SharedTransaction) (server : SharedServer) :
    SharedServer × Except EditError (List (Nat × SharedItem)) :=
  if transaction.layerKey = 0 then (server, .error "shared-stage transactions require layer_key")
  else
    match server.graph.layers transaction.layerKey with
    | none => (server, .error "stale_layer_graph")
    | some target =>
        if transaction.layerKey ∉ server.graph.reachableLayerKeys then
          (server, .error "stale_layer_graph")
        else
          match canonicalizeAll setup environment transaction.layerKey transaction.events
              server.graph with
          | none => (server, .error "stale_layer_graph")
          | some (canonical, prepared, graph) =>
              let saved := { server with graph := graph }
              reserveSequences saved
                (graphTransaction saved
                  (atomicApply saved target
                    (applyAndPersist setup environment transaction target canonical prepared saved)))

/-- Validation precedes the commit; a refused transaction reaches nothing. -/
def submitShared (transaction : SharedTransaction) (server : SharedServer) :
    SharedServer × Except EditError (List (Nat × SharedItem)) :=
  if validateEvents transaction.events then
    commitShared setup environment transaction server
  else (server, .error "invalid shared-stage transaction")

end Transaction

end SharedServer

end UsdConnect
