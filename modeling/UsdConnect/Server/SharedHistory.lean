/-
Purpose: The life of a shared-stage server: the initial baseline, transactions, dependency refreshes,
  compaction, and the restart that rebuilds the graph from the log and the identity registry.
Trusted boundary: a restart finds some layer contents on disk and some replayed scene; fresh keys and
  generations differ from all earlier ones; the root layer is the one the database was made for
Main exports: refreshSharedLayerDependencies, commitCompaction, startSharedStage
-/
import UsdConnect.Server.SharedCommit
import UsdConnect.Server.Compaction

namespace UsdConnect

/-- Text form of a layer key, as records carry it. -/
def LayerKey.text (layerKey : LayerKey) : String :=
  "layer:" ++ toString layerKey

namespace SharedServer

variable (setup : SharedStageSetup)

/-! ### Maintenance of a running server -/

section Running

variable (environment : CommitEnvironment)

/-- `refresh_shared_layer_dependencies`: the graph transaction ends before the records are
persisted. -/
def refreshSharedLayerDependencies (server : SharedServer) :
    SharedServer × Except EditError (List (Nat × SharedItem)) :=
  match server.graph.refreshResolvedSublayers setup.paths environment.openable
      environment.steps with
  | none =>
      graphTransaction server
        ({ server with graph := environment.interrupted.rollback server.graph },
          .error "invalid sublayer entries")
  | some (records, graph) =>
      let server := { server with graph := graph }
      if records = [] then (server, .ok [])
      else
        persistSharedEvents environment
          (records.map fun record => (record.1, SharedEvent.setSublayers record.2)) none server

/-- The records that compaction can reduce: baselines and topology are dropped. -/
def compactedRows (rows : List (Nat × SharedItem)) : List (Nat × StoredRecord) :=
  rows.filterMap fun row =>
    match row.2 with
    | .record layerKey (.scene event) =>
        some (row.1, { event := event, layerKey := layerKey.text })
    | _ => none

/-- Reduced records of the layers that are still reachable. -/
def compactedItems (server : SharedServer) : List SharedItem :=
  let reduction := logReduction setup.usd
  let reachable := server.graph.reachableLayerKeys
  let compacted := reduction.replayRecords
    (reduction.buildCompacted (compactedRows server.journal.store.events))
  compacted.filterMap fun record =>
    (reachable.find? fun layerKey => layerKey.text = record.layerKey).map fun layerKey =>
      .record layerKey (.scene record.event)

/-- `commit_compaction`, which holds the exclusive window. -/
def commitCompaction (server : SharedServer) : SharedServer × Except EditError Unit :=
  let compacted := compactedItems setup server
  graphTransaction server
    (match server.graph.startNewGeneration with
    | none => (server, .error "shared layer graph has not received a baseline")
    | some rotated =>
        let server := { server with graph := rotated }
        match rotated.stateMessage with
        | none => (server, .error "shared layer graph has incomplete state")
        | some state =>
            match environment.appendError with
            | some error => (server, .error error)
            | none =>
                let items := SharedItem.graphState state :: compacted
                let rows := items.zipIdx.map fun item => (item.2 + 1, item.1)
                let store := { server.journal.store with events := rows }
                ({ server with
                    journal := { server.journal.write store 0 with
                      eventCount := rows.length
                      nextSeq := rows.length + 1 } },
                  .ok ()))

end Running

/-! ### Starting -/

/-- `append_graph_baseline`. -/
def appendGraphBaseline (environment : CommitEnvironment) (server : SharedServer) :
    SharedServer × Except EditError Unit :=
  let (seq, journal) := server.journal.assignSeq
  match server.graph.stateMessage with
  | none => ({ server with journal := journal }, .error "shared layer graph has incomplete state")
  | some state =>
      let identities := server.graph.identityRecords.map fun record =>
        (⟨record.1, record.2⟩ : LayerIdentity)
      let (journal, outcome) :=
        journal.appendBatch environment.appendError [(seq, .graphState state)] [] identities
      ({ server with journal := journal }, outcome)

/-- A server whose startup ran through. -/
def running {Result : Type} : SharedServer × Except EditError Result → Option SharedServer
  | (server, .ok _) => some server
  | (_, .error _) => none

/-- `_restore_history` on an empty database up to its refresh, which is the first action of the
server.  Replaying the baseline that was just written changes nothing. -/
def startSharedStage (environment : CommitEnvironment) (scene : Scene)
    (authored : LayerId → List SublayerEntry) (realtime : Bool) : Option SharedServer := do
  let graph ← LayerGraph.createAuthoritative setup.paths environment.openable environment.steps
    setup.rootLayer authored
  running (appendGraphBaseline environment
    { scene := scene, graph := graph, journal := { realtime := realtime } })

/-- `_replay_shared_log`: the graph after the records, which begin with a baseline. -/
def replaySharedLog (openable : LayerId → Bool) :
    Bool → List SharedItem → LayerGraph LayerId → Option (LayerGraph LayerId)
  | baselineSeen, [], graph => if baselineSeen then some graph else none
  | _, .graphState state :: rest, graph => do
      let graph ← graph.applyState setup.paths openable state
      replaySharedLog openable true rest graph
  | baselineSeen, .record layerKey event :: rest, graph =>
      if baselineSeen then
        match event with
        | .setSublayers event => do
            let graph ← graph.applySublayers setup.paths openable layerKey event
            replaySharedLog openable true rest graph
        | .scene _ => do
            require ((graph.layers layerKey).isSome = true)
            replaySharedLog openable true rest graph
      else none

/-- The graph a new process starts with.  Its keys and generations are fresh. -/
def emptyGraph (authored : LayerId → List SublayerEntry) (previous : LayerGraph LayerId) :
    LayerGraph LayerId where
  authoritative := false
  rootLayer := setup.rootLayer
  authored := authored
  nextKey := previous.nextKey
  nextGeneration := previous.nextGeneration

/-- The journal a new process opens on a store. -/
def reopenJournal (journal : SharedJournal) : SharedJournal where
  store := journal.store
  nextSeq := (journal.store.events.map (·.1)).foldl max 0 + 1
  eventCount := journal.store.events.length
  realtime := journal.realtime
  written := journal.written

/-- `_restore_history` on an existing database.  What the old process had in memory is gone. -/
def restartSharedStage (environment : CommitEnvironment) (scene : Scene)
    (authored : LayerId → List SublayerEntry) (server : SharedServer) : Option SharedServer := do
  let replayed ← replaySharedLog setup environment.openable false
    (server.journal.store.events.map (·.2)) (emptyGraph setup authored server.graph)
  require (server.journal.store.layerIdentities ≠ [])
  let graph ← replayed.restoreIdentityRecords
    (server.journal.store.layerIdentities.map fun identity =>
      (identity.identifier, identity.layerKey))
  running (refreshSharedLayerDependencies setup environment
    { scene := scene
      graph := { graph with authoritative := true }
      journal := reopenJournal server.journal })

/-! ### Runs -/

end SharedServer

/-- What happens to a shared-stage server. -/
inductive SharedAction where
  | commit (environment : CommitEnvironment) (transaction : SharedTransaction)
  /-- The persistence thread takes one batch. -/
  | persist (appendError : Option EditError)
  | refresh (environment : CommitEnvironment)
  | compact (environment : CommitEnvironment)
  /-- The process ends at any point and a new one opens the database. -/
  | restart (environment : CommitEnvironment) (scene : Scene)
      (authored : LayerId → List SublayerEntry)

/-- One action; compaction drains the queue first, and a restart may fail. -/
def SharedServer.step (setup : SharedStageSetup) (server : SharedServer) :
    SharedAction → Option SharedServer
  | .commit environment transaction =>
      some (server.submitShared setup environment transaction).1
  | .persist appendError =>
      some { server with journal := server.journal.persistNext appendError }
  | .refresh environment =>
      some (server.refreshSharedLayerDependencies setup environment).1
  | .compact environment =>
      if server.journal.queue = [] then some (server.commitCompaction setup environment).1 else none
  | .restart environment scene authored =>
      server.restartSharedStage setup environment scene authored

end UsdConnect
