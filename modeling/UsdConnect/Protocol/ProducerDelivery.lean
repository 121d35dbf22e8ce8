/-
Purpose: One producer session against the server: the client session, its connections with what is
  in flight on them, the server's journal, and every step of each.
Trusted boundary: whether an admitted transaction applies, encodes and persists is an input of the
  step that commits it; a store append is atomic.
Main exports: DeliverySystem, DeliveryAction, DeliverySystem.perform, DeliverySystem.run
-/
import UsdConnect.Client.ProducerSession
import UsdConnect.Server.Commit

namespace UsdConnect

/-!
A connection is named by the client's generation.  What the client wrote on it stays in `frames`
until the server takes it, whether the bytes wait in the socket, in the handler or in the
coordinator's queue, and also after the client has moved to a newer generation.  Replies wait in
`replies` until the client reads them.
-/

/-- One encoded transaction on a connection. -/
structure Frame (Payload : Type) where
  txnId : Nat
  payload : Payload
deriving DecidableEq, Repr

/-- Server messages an emitter connection carries. -/
inductive Reply where
  | helloOk (committedThrough : Nat)
  | acknowledged (txnId : Nat)
  | rejected (txnId : Nat) (disposition : ProducerRecoveryDisposition)
deriving DecidableEq, Repr

structure Connection (Payload : Type) where
  frames : List (Frame Payload) := []
  replies : List Reply := []
deriving DecidableEq, Repr

/-- Why the commit of an admitted transaction raises. -/
inductive CommitError where
  | staleLayerGraph
  | invalidTransaction
  | internal
deriving DecidableEq, Repr

/-- A logged transaction: producer, transaction id and the committed payload. -/
structure LoggedTransaction (Payload : Type) where
  producer : Producer
  txnId : Nat
  payload : Payload
deriving DecidableEq, Repr

/-- The server as this protocol sees it: the scene is the list of applied transactions. -/
abbrev DeliveryServer (Payload : Type) :=
  ServerState (List (LoggedTransaction Payload)) (LoggedTransaction Payload)

structure DeliverySystem (Payload : Type) where
  session : OrderedProducerSession Payload
  server : DeliveryServer Payload
  connection : Nat → Connection Payload
  /-- Every entry the client dropped as acknowledged, as the outbox held it at that moment. -/
  acknowledged : List (OrderedOutboxEntry Payload)

/-- What the coordinator holds for one request: the decoded payload, and what applying, encoding or
persisting it will raise, if anything. -/
structure Submission (Payload : Type) where
  payload : Payload
  decision : Option CommitError
deriving DecidableEq, Repr

/-- One member of a commit group: the next frame of a connection of this session, or a request of
another producer. -/
inductive GroupMember (Payload : Type) where
  | next (generation : Nat) (decision : Option CommitError)
  | foreign (request : TransactionRequest (Submission Payload))

inductive DeliveryAction (Payload : Type) where
  /-- `send_events`; with `direct` the synchronous sender writes the bytes at once. -/
  | append (generation id : Nat) (payload : Payload) (events : Nat) (layer : String)
      (direct : Bool)
  | claimAndSend (generation : Nat)
  /-- The writer claims an entry but its socket fails before the bytes leave. -/
  | claimAndLose (generation : Nat)
  | disconnect (generation : Nat)
  | beginConnection
  /-- The client reads the next reply of a connection. -/
  | receive (generation : Nat)
  | repair (payload : Payload) (events : Nat) (layer : String)
  /-- The network delivers only the first `keep` frames of a connection. -/
  | loseFrames (generation keep : Nat)
  | loseReply (generation index : Nat)
  | duplicateReply (generation index : Nat)
  /-- The handler answers the hello of a connection. -/
  | serverHello (generation : Nat)
  /-- The rate limiter drops the next frame of a connection. -/
  | rateLimit (generation : Nat)
  | commitOne (generation : Nat) (decision : Option CommitError)
  /-- The coordinator executes a group; `fault` makes the group itself raise. -/
  | commitGroup (members : List (GroupMember Payload)) (fault : Bool)
  | restartServer

namespace DeliverySystem

variable {Payload : Type}

/-- A fresh session against an empty store. -/
def initial (capacity : Nat) : DeliverySystem Payload where
  session := OrderedProducerSession.create capacity
  server := { scene := [], journal := {} }
  connection := fun _ => {}
  acknowledged := []

/-! ### Connections -/

def withConnection (system : DeliverySystem Payload) (generation : Nat)
    (connection : Connection Payload) : DeliverySystem Payload :=
  { system with connection := Function.update system.connection generation connection }

def pushFrame (system : DeliverySystem Payload) (generation : Nat) (frame : Frame Payload) :
    DeliverySystem Payload :=
  system.withConnection generation
    { system.connection generation with
      frames := (system.connection generation).frames ++ [frame] }

def pushReply (system : DeliverySystem Payload) (generation : Nat) (reply : Reply) :
    DeliverySystem Payload :=
  system.withConnection generation
    { system.connection generation with
      replies := (system.connection generation).replies ++ [reply] }

/-- Take the next frame of a connection off its queue. -/
def popFrame (system : DeliverySystem Payload) (generation : Nat) :
    Option (Frame Payload × DeliverySystem Payload) :=
  match (system.connection generation).frames with
  | [] => none
  | frame :: rest =>
      some (frame, system.withConnection generation
        { system.connection generation with frames := rest })

/-! ### Server -/

/-- The log record of a request. -/
def loggedTransaction (request : TransactionRequest (Submission Payload)) :
    LoggedTransaction Payload :=
  ⟨request.producer, request.txnId, request.body.payload⟩

/-- Apply and log admitted requests in order with one append.  An exception leaves the scene and
the journal as they were, with the reserved sequence numbers given back. -/
def applyAndPersist (server : DeliveryServer Payload)
    (requests : List (TransactionRequest (Submission Payload))) :
    DeliveryServer Payload × Except CommitError (List (List (LoggedTransaction Payload))) :=
  match requests.findSome? (·.body.decision) with
  | some error => (server, .error error)
  | none =>
      let records := requests.map loggedTransaction
      let (rows, journal) := server.journal.assignSeqs records
      ({ scene := server.scene ++ records
         journal := journal.appendBatch rows
            (requests.map fun request => ⟨request.producer, request.txnId⟩) },
        .ok (records.map fun record => [record]))

/-- `commit_events`: the same for a single request. -/
def commitEvents (server : DeliveryServer Payload)
    (request : TransactionRequest (Submission Payload)) :
    DeliveryServer Payload × Except CommitError (List (LoggedTransaction Payload)) :=
  match applyAndPersist server [request] with
  | (server, .error error) => (server, .error error)
  | (server, .ok encoded) => (server, .ok encoded.flatten)

/-- The group callback of the coordinator; `fault` makes the group itself raise. -/
def persistGroup (fault : Bool) (server : DeliveryServer Payload)
    (requests : List (TransactionRequest (Submission Payload))) :
    DeliveryServer Payload × Except CommitError (List (List (LoggedTransaction Payload))) :=
  if fault then (server, .error .internal) else applyAndPersist server requests

/-- The protocol reply for an outcome.  An unexpected exception has none: the handler closes the
socket. -/
def replyFor (txnId : Nat) :
    TransactionOutcome (LoggedTransaction Payload) CommitError → Option Reply
  | .committed txnId _ => some (.acknowledged txnId)
  | .duplicate committedThrough => some (.acknowledged committedThrough)
  | .unexpectedId _ _ => some (.rejected txnId .sessionFatal)
  | .failed .staleLayerGraph => some (.rejected txnId .recoverableConflict)
  | .failed .invalidTransaction => some (.rejected txnId .invalidOperation)
  | .failed .internal => none

/-- Deliver an outcome to the connection its request came from. -/
def answer (system : DeliverySystem Payload) (generation txnId : Nat)
    (outcome : TransactionOutcome (LoggedTransaction Payload) CommitError) :
    DeliverySystem Payload :=
  match replyFor txnId outcome with
  | some reply => system.pushReply generation reply
  | none => system

/-- A request taken from the coordinator's queue, with the connection that waits for its result
(`none` for another producer). -/
structure QueuedRequest (Payload : Type) where
  generation : Option Nat
  request : TransactionRequest (Submission Payload)

/-- The request the handler builds from a frame. -/
def frameRequest (producer : Producer) (frame : Frame Payload) (decision : Option CommitError) :
    TransactionRequest (Submission Payload) :=
  ⟨producer, frame.txnId, ⟨frame.payload, decision⟩⟩

/-- Pull the members of a group from their connections in order.  A connection without a waiting
frame contributes nothing. -/
def takeRequests (producer : Producer) :
    List (GroupMember Payload) → DeliverySystem Payload →
      List (QueuedRequest Payload) × DeliverySystem Payload
  | [], system => ([], system)
  | .next generation decision :: rest, system =>
      match system.popFrame generation with
      | none => takeRequests producer rest system
      | some (frame, system) =>
          let (queued, system) := takeRequests producer rest system
          (⟨some generation, frameRequest producer frame decision⟩ :: queued, system)
  | .foreign request :: rest, system =>
      let (queued, system) := takeRequests producer rest system
      -- a request under this session's own key only arrives on its connections
      if request.producer = producer then (queued, system)
      else (⟨none, request⟩ :: queued, system)

/-- Deliver the outcomes of a group to the connections that wait for them. -/
def answerAll (system : DeliverySystem Payload) :
    List (QueuedRequest Payload) →
      List (TransactionOutcome (LoggedTransaction Payload) CommitError) → DeliverySystem Payload
  | queued :: rest, outcome :: outcomes =>
      let answered := match queued.generation with
        | some generation => system.answer generation queued.request.txnId outcome
        | none => system
      answered.answerAll rest outcomes
  | _, _ => system

/-- `_execute` on a pulled group: as one group unless it raises, else one by one. -/
def executeGroup (system : DeliverySystem Payload) (queued : List (QueuedRequest Payload))
    (fault : Bool) : DeliverySystem Payload :=
  let (server, outcomes) :=
    executeRequests commitEvents (persistGroup fault) system.server (queued.map (·.request))
  ({ system with server := server } : DeliverySystem Payload).answerAll queued outcomes

/-! ### Client -/

/-- Install a session; entries that leave the outbox are recorded as acknowledged. -/
def acknowledgeWith (system : DeliverySystem Payload) (committedThrough : Nat)
    (session : ProducerResult × OrderedProducerSession Payload) : DeliverySystem Payload :=
  match session with
  | (.accepted, session) =>
      { system with
        session := session
        acknowledged := system.acknowledged ++
          system.session.outbox.queue.takeWhile fun entry =>
            decide (entry.transactionId ≤ committedThrough) }
  | (_, session) => { system with session := session }

/-- The reader thread handles one reply of the connection it belongs to. -/
def handleReply (system : DeliverySystem Payload) (generation : Nat) :
    Reply → DeliverySystem Payload
  | .helloOk committedThrough =>
      system.acknowledgeWith committedThrough
        (system.session.acceptHello generation committedThrough)
  | .acknowledged txnId =>
      system.acknowledgeWith txnId (system.session.acknowledgeThrough generation txnId)
  | .rejected txnId disposition =>
      { system with session := (system.session.reject generation txnId disposition).2 }

/-- One step of the whole system.  An action whose precondition fails changes nothing. -/
def perform (producer : Producer) (system : DeliverySystem Payload) :
    DeliveryAction Payload → DeliverySystem Payload
  | .append generation id payload events layer direct =>
      match system.session.append generation id payload events layer with
      | (.accepted, session) =>
          let appended := { system with session := session }
          if direct then appended.pushFrame generation ⟨id, payload⟩ else appended
      | (_, session) => { system with session := session }
  | .claimAndSend generation =>
      match system.session.claimNextUnsent generation with
      | (_, some entry, session) =>
          ({ system with session := session } : DeliverySystem Payload).pushFrame generation
            ⟨entry.transactionId, entry.payload⟩
      | (_, none, session) => { system with session := session }
  | .claimAndLose generation =>
      { system with session := (system.session.claimNextUnsent generation).2.2 }
  | .disconnect generation =>
      { system with session := (system.session.disconnect generation).2 }
  | .beginConnection =>
      match system.session.beginConnection with
      | some session => { system with session := session }
      | none => system
  | .receive generation =>
      match (system.connection generation).replies with
      | [] => system
      | reply :: rest =>
          (system.withConnection generation
            { system.connection generation with replies := rest }).handleReply generation reply
  | .repair payload events layer =>
      { system with session := (system.session.repairRejected payload events layer).2 }
  | .loseFrames generation keep =>
      system.withConnection generation
        { system.connection generation with
          frames := (system.connection generation).frames.take keep }
  | .loseReply generation index =>
      system.withConnection generation
        { system.connection generation with
          replies := (system.connection generation).replies.eraseIdx index }
  | .duplicateReply generation index =>
      match (system.connection generation).replies[index]? with
      | some reply => system.pushReply generation reply
      | none => system
  | .serverHello generation =>
      if generation = 0 ∨ system.session.generation < generation then system
      else
        let (committedThrough, journal) := system.server.journal.committedThrough producer
        ({ system with server := { system.server with journal := journal } } :
          DeliverySystem Payload).pushReply generation (.helloOk committedThrough)
  | .rateLimit generation =>
      match system.popFrame generation with
      | some (_, system) => system
      | none => system
  | .commitOne generation decision =>
      match system.popFrame generation with
      | none => system
      | some (frame, system) =>
          let (server, outcome) :=
            commit commitEvents system.server (frameRequest producer frame decision)
          ({ system with server := server } : DeliverySystem Payload).answer generation
            frame.txnId outcome
  | .commitGroup members fault =>
      let (queued, system) := takeRequests producer members system
      system.executeGroup queued fault
  | .restartServer =>
      { system with
        server := { system.server with journal := system.server.journal.reopen } }

/-- Perform a list of actions in order. -/
def run (producer : Producer) (system : DeliverySystem Payload)
    (actions : List (DeliveryAction Payload)) : DeliverySystem Payload :=
  actions.foldl (perform producer) system

/-- Durable progress of the session. -/
def durable (producer : Producer) (system : DeliverySystem Payload) : Nat :=
  system.server.journal.store.producerSessions producer

/-- Transactions of the session in the durable log. -/
def log (producer : Producer) (system : DeliverySystem Payload) :
    List (LoggedTransaction Payload) :=
  (system.server.journal.store.events.map (·.2)).filter fun record => record.producer = producer

/-- Transactions of the session that were applied to the scene. -/
def applied (producer : Producer) (system : DeliverySystem Payload) :
    List (LoggedTransaction Payload) :=
  system.server.scene.filter fun record => record.producer = producer

end DeliverySystem

end UsdConnect
