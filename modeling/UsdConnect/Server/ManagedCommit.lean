/-
Purpose: Preparation, encoding, atomic application and persistence of managed transactions, for one
  request and for an admitted group.
Trusted boundary: encoding, the store's append and the iteration order of sets are parameters
Main exports: ManagedServer, managedRollbackPaths, applyAndPersistManaged
-/
import UsdConnect.Server.Commit
import UsdConnect.Server.Scene

namespace UsdConnect

/-- The event dictionaries of a queued request, which an attempt to commit it may complete. -/
abbrev EventsRef := Nat

/-- Payload of a managed request. -/
structure ManagedBody where
  events : EventsRef
  layer : Option LayerId := none
  layerKey : String := ""
deriving DecidableEq, Repr

/-- Live scene, dashboard index and the request objects in memory. -/
structure ManagedScene (Tracking : Type) where
  scene : Scene
  tracking : Tracking
  objects : EventsRef → List Event

/-- Services and configuration a commit uses. -/
structure CommitContext (Tracking Record : Type) where
  usd : Usd
  session : LayerId
  editLayer : LayerId
  keyForLayer : LayerId → Option String
  /-- `_track_prim_event` -/
  track : Tracking → Event → Tracking
  /-- Encoding of a sequenced event: sequence, client, layer key. -/
  encode : Nat → String → String → Event → Except EditError Record
  /-- A raising `append_batch`. -/
  appendError : List (Nat × Record) → Option EditError
  /-- Iteration order of a set of paths. -/
  setOrder : List ScenePath → List ScenePath
  /-- Iteration meets every member once. -/
  setOrder_perm : ∀ paths, (setOrder paths).Perm paths

abbrev ManagedServer (Tracking Record : Type) := ServerState (ManagedScene Tracking) Record

abbrev ManagedRequest := TransactionRequest ManagedBody

/-- `_managed_rollback_paths`. -/
def managedRollbackPaths (events : List Event) : List ScenePath :=
  let own := events.filterMap fun event =>
    if event.kind.nonCollaboration then none else event.prim
  let renamed := events.filterMap fun event =>
    match event with
    | .renamePrim prim newName => some (prim.dropLast ++ [newName])
    | _ => none
  (own ++ renamed).dedup

/-- A routed request with its rollback coverage. -/
structure PreparedTransaction where
  request : ManagedRequest
  targetLayer : LayerId
  layerKey : String
  collaborationPaths : List ScenePath
  hasSessionEvents : Bool

section Commit

variable {Tracking Record : Type} (context : CommitContext Tracking Record)

/-- `_prepare_managed_transaction`. -/
def prepareManagedTransaction (objects : EventsRef → List Event) (request : ManagedRequest) :
    Except EditError PreparedTransaction :=
  let events := objects request.body.events
  let targetLayer := request.body.layer.getD context.editLayer
  let layerKey := context.keyForLayer targetLayer
  if request.body.layerKey ≠ "" then
    .error "managed transactions cannot select an arbitrary layer key"
  else if layerKey.isNone ∧ events.any (fun event => !event.kind.nonCollaboration) then
    .error "transaction target is not a managed collaboration layer"
  else
    .ok {
      request := request
      targetLayer := targetLayer
      layerKey := layerKey.getD ""
      collaborationPaths := managedRollbackPaths events
      hasSessionEvents := events.any fun event => event.kind.nonCollaboration }

/-- `assign_and_encode_events`: one sequence number per event, in order. -/
def encodeEvents (clientId layerKey : String) (journal : EventJournal Record) :
    List Event → EventJournal Record × Except EditError (List (Nat × Record))
  | [] => (journal, .ok [])
  | event :: rest =>
      let (seq, journal) := journal.assignSeq
      let key := if event.kind.nonCollaboration then "" else layerKey
      match context.encode seq clientId key event with
      | .error error => (journal, .error error)
      | .ok record =>
          match encodeEvents clientId layerKey journal rest with
          | (journal, .error error) => (journal, .error error)
          | (journal, .ok rows) => (journal, .ok ((seq, record) :: rows))

/-- `_encode_managed`. -/
def encodeManaged (server : ManagedServer Tracking Record) (transaction : PreparedTransaction) :
    ManagedServer Tracking Record × Except EditError (List (Nat × Record)) :=
  let (journal, encoded) := encodeEvents context transaction.request.producer.1
    transaction.layerKey server.journal
    (server.scene.objects transaction.request.body.events)
  ({ server with journal := journal }, encoded)

/-- Encode a group before it is applied. -/
def encodeAll : ManagedServer Tracking Record → List PreparedTransaction →
    ManagedServer Tracking Record × Except EditError (List (List (Nat × Record)))
  | server, [] => (server, .ok [])
  | server, transaction :: rest =>
      match encodeManaged context server transaction with
      | (server, .error error) => (server, .error error)
      | (server, .ok rows) =>
          match encodeAll server rest with
          | (server, .error error) => (server, .error error)
          | (server, .ok later) => (server, .ok (rows :: later))

/-- Touched paths per layer, layers in the order of their first transaction. -/
def pathsByLayer (prepared : List PreparedTransaction) : OrderedDict LayerId (List ScenePath) :=
  prepared.foldl
    (fun paths transaction =>
      if transaction.collaborationPaths = [] then paths
      else paths.set transaction.targetLayer
        (((paths.get? transaction.targetLayer).getD []) ++ transaction.collaborationPaths).dedup)
    .empty

/-- The rollback contexts `atomic_edit` enters. -/
def enterAtomicEdit (scene : Scene) (prepared : List PreparedTransaction) :
    List (LayerId × LayerSnapshot) :=
  ((pathsByLayer prepared).entries.map fun (layer, paths) =>
      (layer, LayerSnapshot.enter (scene.layers layer) (some (context.setOrder paths)))) ++
    if prepared.any (·.hasSessionEvents) then
      [(context.session, LayerSnapshot.enter (scene.layers context.session) none)]
    else []

/-- Deletions take field names from the scene, so they are encoded after they are applied. -/
def needsSceneFields (objects : EventsRef → List Event) (prepared : List PreparedTransaction) :
    Bool :=
  prepared.any fun transaction =>
    (objects transaction.request.body.events).any fun event =>
      match event with
      | .setSdfSpecFields delta => delta.removed
      | _ => false

/-- Apply one transaction of a group.  Its request object keeps the completed deletions also when
the application raises. -/
def applyTransaction (server : ManagedServer Tracking Record) (transaction : PreparedTransaction) :
    ManagedServer Tracking Record × Except EditError Unit :=
  let program := applyValidated context.usd context.session transaction.targetLayer
    (server.scene.objects transaction.request.body.events)
  let scene := program.after server.scene.scene
  match program.result server.scene.scene with
  | .error error => ({ server with scene := { server.scene with scene := scene } }, .error error)
  | .ok (events, outcome) =>
      ({ server with
          scene := { server.scene with
            scene := scene
            objects := Function.update server.scene.objects transaction.request.body.events
              events } },
        outcome)

/-- The body of `atomic_edit`: apply every transaction and encode it when that had to wait. -/
def applyAll (encodeNow : Bool) : ManagedServer Tracking Record → List PreparedTransaction →
    ManagedServer Tracking Record × Except EditError (List (List (Nat × Record)))
  | server, [] => (server, .ok [])
  | server, transaction :: rest =>
      match applyTransaction context server transaction with
      | (server, .error error) => (server, .error error)
      | (server, .ok ()) =>
          match if encodeNow then encodeManaged context server transaction else (server, .ok []) with
          | (server, .error error) => (server, .error error)
          | (server, .ok rows) =>
              match applyAll encodeNow server rest with
              | (server, .error error) => (server, .error error)
              | (server, .ok later) => (server, .ok (rows :: later))

/-- Progress rows of a group: the last id of every producer. -/
def groupProgress (prepared : List PreparedTransaction) : List ProducerProgress :=
  (prepared.foldl
    (fun progress transaction =>
      progress.set transaction.request.producer transaction.request.txnId)
    (OrderedDict.empty : OrderedDict Producer Nat)).entries.map fun (producer, txnId) =>
      ⟨producer, txnId⟩

/-- Leave the rollback contexts with an exception: layers are restored and cached handles dropped. -/
def rollback (snapshots : List (LayerId × LayerSnapshot)) (server : ManagedServer Tracking Record) :
    ManagedServer Tracking Record :=
  { server with
    scene := { server.scene with
      scene := Scene.exec .clearOps (restoreLayers snapshots server.scene.scene) } }

/-- `update_prim_tracking` of the committed events. -/
def trackCommitted (server : ManagedServer Tracking Record)
    (prepared : List PreparedTransaction) : ManagedServer Tracking Record :=
  { server with
    scene := { server.scene with
      tracking := (prepared.flatMap fun transaction =>
        server.scene.objects transaction.request.body.events).foldl context.track
          server.scene.tracking } }

/-- `_apply_and_persist_managed`. -/
def applyAndPersistManaged (server : ManagedServer Tracking Record)
    (prepared : List PreparedTransaction) :
    ManagedServer Tracking Record × Except EditError (List (List (Nat × Record))) :=
  let encodeNow := needsSceneFields server.scene.objects prepared
  match if encodeNow then (server, .ok []) else encodeAll context server prepared with
  | (server, .error error) => (server, .error error)
  | (server, .ok encodedFirst) =>
      let snapshots := enterAtomicEdit context server.scene.scene prepared
      match applyAll context encodeNow server prepared with
      | (server, .error error) => (rollback snapshots server, .error error)
      | (server, .ok encodedLast) =>
          let encoded := if encodeNow then encodedLast else encodedFirst
          match context.appendError encoded.flatten with
          | some error => (rollback snapshots server, .error error)
          | none =>
              let journal := server.journal.appendBatch encoded.flatten (groupProgress prepared)
              (trackCommitted context { server with journal := journal } prepared, .ok encoded)

/-- Leave `reserve_sequences`: an exception gives the reserved sequence numbers back. -/
def reserveSequences (before : EventJournal Record)
    {α : Type} (attempt : ManagedServer Tracking Record × Except EditError α) :
    ManagedServer Tracking Record × Except EditError α :=
  match attempt with
  | (server, .error error) =>
      ({ server with journal := { server.journal with nextSeq := before.nextSeq } }, .error error)
  | (server, .ok value) => (server, .ok value)

/-- Prepare requests in order, stopping at the first that raises. -/
def prepareAll (objects : EventsRef → List Event) (requests : List ManagedRequest) :
    Except EditError (List PreparedTransaction) :=
  requests.mapM (prepareManagedTransaction context objects)

/-- The persistence boundary of `commit_group`: its records per request. -/
def commitManagedGroup (server : ManagedServer Tracking Record)
    (requests : List ManagedRequest) :
    ManagedServer Tracking Record × Except EditError (List (List Record)) :=
  reserveSequences server.journal
    (match prepareAll context server.scene.objects requests with
    | .error error => (server, .error error)
    | .ok prepared =>
        match applyAndPersistManaged context server prepared with
        | (server, .error error) => (server, .error error)
        | (server, .ok encoded) => (server, .ok (encoded.map fun rows => rows.map (·.2))))

/-- `commit_events` of one request in managed mode. -/
def commitManagedEvents (server : ManagedServer Tracking Record) (request : ManagedRequest) :
    ManagedServer Tracking Record × Except EditError (List Record) :=
  match commitManagedGroup context server [request] with
  | (server, .error error) => (server, .error error)
  | (server, .ok encoded) => (server, .ok encoded.flatten)

end Commit

end UsdConnect
