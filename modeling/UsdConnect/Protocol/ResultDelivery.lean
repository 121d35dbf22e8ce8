/-
Purpose: The results of one producer connection: submission, decisions in order, result batches and
  reading, in any interleaving.
Trusted boundary: other connections of the session only commit ids the client has submitted; messages
  of a connection arrive in order
Main exports: ResultConnection, ResultConnection.perform
-/
import UsdConnect.Client.EventSender

namespace UsdConnect

variable {Payload : Type}

/-- One live connection of a producer session. -/
structure ResultConnection (Payload : Type) where
  sender : EventSender Payload
  /-- Ids of the transactions written to the socket that the server has not taken. -/
  wire : List Nat := []
  /-- Progress of the session at the server. -/
  committedThrough : Nat
  /-- Results the server has decided and not sent. -/
  queued : List TransactionResult := []
  /-- Messages sent and not read. -/
  inbox : List TransactionResult := []
deriving DecidableEq, Repr

/-- What deciding a transaction leads to when its id is the expected one, or what is raised. -/
abbrev TransactionDecision := Except TransactionRejection (Option TransactionCheckpoint)

inductive ResultAction (Payload : Type) where
  /-- `send_events`; with `direct` the synchronous sender writes the bytes at once. -/
  | submit (id : Nat) (payload : Payload) (events : Nat) (layer : String) (direct : Bool)
  /-- The writer sends the next unsent transaction. -/
  | claim
  /-- The server decides the next transaction of the connection. -/
  | decide (decision : TransactionDecision)
  /-- The rate limiter drops it instead. -/
  | rateLimit
  /-- A transaction of the session that came over an earlier connection is committed. -/
  | commitElsewhere
  /-- The result loop sends what it collected from the next `size` results. -/
  | sendBatch (size : Nat)
  /-- The reader handles the next message. -/
  | receive
  | close

namespace ResultConnection

/-- The outcome of a transaction against the stored progress, and the progress after it. -/
def outcome (committedThrough txnId : Nat) :
    TransactionDecision → TransactionResult × Nat
  | .error rejection => (.rejected txnId rejection, committedThrough)
  | .ok checkpoint =>
      match (checkTransactionId txnId committedThrough :
          Option (TransactionOutcome Unit TransactionRejection)) with
      | some early => (resolveTransactionReply txnId checkpoint early, committedThrough)
      | none =>
          (resolveTransactionReply txnId checkpoint
            (.committed txnId [] : TransactionOutcome Unit TransactionRejection), txnId)

/-- The client reads a message. -/
def read (connection : ResultConnection Payload) (result : TransactionResult) :
    EventSender Payload :=
  connection.sender.acceptResult connection.sender.socketGeneration result

/-- One step; an action that is not possible changes nothing. -/
def perform (txnBatchSize : Nat) (connection : ResultConnection Payload) :
    ResultAction Payload → ResultConnection Payload
  | .submit id payload events layer direct =>
      if connection.sender.connected then
        match connection.sender.session.append connection.sender.socketGeneration id payload events
            layer with
        | (.accepted, session) =>
            { connection with
              sender := { connection.sender with session := session }
              wire := if direct then connection.wire ++ [id] else connection.wire }
        | (_, session) =>
            { connection with sender := { connection.sender with session := session } }
      else connection
  | .claim =>
      match connection.sender.session.claimNextUnsent connection.sender.socketGeneration with
      | (_, some entry, session) =>
          { connection with
            sender := { connection.sender with session := session }
            wire := connection.wire ++ [entry.transactionId] }
      | (_, none, session) =>
          { connection with sender := { connection.sender with session := session } }
  | .decide decision =>
      match connection.wire with
      | [] => connection
      | txnId :: rest =>
          let (result, committedThrough) := outcome connection.committedThrough txnId decision
          { connection with
            wire := rest
            committedThrough := committedThrough
            queued := connection.queued ++ [result] }
  | .rateLimit => { connection with wire := connection.wire.tail }
  | .commitElsewhere =>
      if connection.committedThrough <
          connection.sender.session.outbox.highestSubmittedTransactionId then
        { connection with committedThrough := connection.committedThrough + 1 }
      else connection
  | .sendBatch size =>
      let batch := connection.queued.take (min size (max 1 txnBatchSize))
      { connection with
        queued := connection.queued.drop (min size (max 1 txnBatchSize))
        inbox := connection.inbox ++
          transactionResultLoop txnBatchSize (batch.map fun result => (result, false)) }
  | .receive =>
      match connection.inbox with
      | [] => connection
      | result :: rest =>
          { connection with
            inbox := rest
            sender := connection.read result }
  | .close => { connection with sender := connection.sender.close }

def run (txnBatchSize : Nat) (connection : ResultConnection Payload)
    (actions : List (ResultAction Payload)) : ResultConnection Payload :=
  actions.foldl (perform txnBatchSize) connection

/-! ### What coalescing must not change -/

/-- The client after reading messages one after another. -/
def readAll (connection : ResultConnection Payload) (results : List TransactionResult) :
    EventSender Payload :=
  results.foldl (EventSender.acceptResult connection.sender.socketGeneration) connection.sender

/-- Does the reader hand a result to the session? -/
def HandsOver (connection : ResultConnection Payload) (sender : EventSender Payload) : Prop :=
  sender.connected = true ∧ sender.socketGeneration = connection.sender.socketGeneration

/-- No acknowledgement that the reader hands to the session is refused as ahead or regressed. -/
def NoneRefused (connection : ResultConnection Payload) (results : List TransactionResult) : Prop :=
  ∀ earlier txnId checkpoint later,
    results = earlier ++ .acknowledged txnId checkpoint :: later →
      connection.HandsOver (connection.readAll earlier) →
        ((connection.readAll earlier).session.acknowledgeThrough
            connection.sender.socketGeneration txnId).1 ≠ .highwaterAhead ∧
          ((connection.readAll earlier).session.acknowledgeThrough
            connection.sender.socketGeneration txnId).1 ≠ .highwaterRegressed

/-- However the result loop cuts the waiting results into batches, the client ends up as if it were sent
each of them, and refuses no acknowledgement it is sent. -/
def CoalescingInvisible (txnBatchSize : Nat) (connection : ResultConnection Payload) : Prop :=
  ∀ marked : List (TransactionResult × Bool), marked.map (·.1) = connection.queued →
    connection.readAll (connection.inbox ++ transactionResultLoop txnBatchSize marked) =
        connection.readAll (connection.inbox ++ connection.queued) ∧
      connection.NoneRefused (connection.inbox ++ transactionResultLoop txnBatchSize marked)

end ResultConnection

end UsdConnect
