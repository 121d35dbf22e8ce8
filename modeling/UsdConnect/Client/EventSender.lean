/-
Purpose: What the sender does with a transaction result: the producer session, the checkpoint that makes
  commits visible, the failure with its recovery artifact, and the socket.
Trusted boundary: one reader thread per connection; a result and the close it leads to are one step
Main exports: EventSender, EventSender.connect, EventSender.acceptResult
-/
import UsdConnect.Client.ProducerSession
import UsdConnect.Server.ResultLoop

namespace UsdConnect

/-- A checkpoint with the server process that issued it. -/
structure MirrorCheckpoint where
  serverInstance : String
  epoch : Nat
  headSeq : Nat
deriving DecidableEq, Repr

/-- A rejection as the client keeps it. -/
structure TransactionFailure where
  txnId : Nat
  code : TransactionRejectionCode
  reason : String
  expectedTxnId : Nat := 0
deriving DecidableEq, Repr

/-- `disposition`: unknown codes fail closed. -/
def TransactionFailure.disposition (failure : TransactionFailure) : ProducerRecoveryDisposition :=
  match failure.code with
  | .staleLayerGraph => .recoverableConflict
  | .invalidTransaction => .invalidOperation
  | _ => .sessionFatal

/-- The transactions left in the outbox when a rejection came. -/
structure RecoveryArtifact (Payload : Type) where
  producerSessionId : String
  failure : TransactionFailure
  transactions : List (OrderedOutboxEntry Payload)
deriving DecidableEq, Repr

/-- `EventSender`, as far as results are concerned. -/
structure EventSender (Payload : Type) where
  sessionId : String
  session : OrderedProducerSession Payload
  socketGeneration : Nat := 0
  /-- Is `sock` set? -/
  connected : Bool := false
  serverInstance : String := ""
  acknowledgedCheckpoint : Option MirrorCheckpoint := none
  failure : Option TransactionFailure := none
  recoveryArtifact : Option (RecoveryArtifact Payload) := none
deriving DecidableEq, Repr

/-- Names of the results in messages. -/
def ProducerResult.name : ProducerResult → String
  | .accepted => "ACCEPTED"
  | .staleGeneration => "STALE_GENERATION"
  | .invalidPhase => "INVALID_PHASE"
  | .recoveryRequired => "RECOVERY_REQUIRED"
  | .highwaterAhead => "HIGHWATER_AHEAD"
  | .highwaterRegressed => "HIGHWATER_REGRESSED"
  | .outboxFull => "OUTBOX_FULL"
  | .sequenceMismatch => "SEQUENCE_MISMATCH"
  | .noPendingTransaction => "NO_PENDING_TRANSACTION"
  | .transactionMissing => "TRANSACTION_MISSING"
  | .recoveryNotRecoverable => "RECOVERY_NOT_RECOVERABLE"
  | .invalidArgument => "INVALID_ARGUMENT"

namespace EventSender

variable {Payload : Type}

/-- `_highwater_failure_reason`. -/
def highwaterFailureReason (sender : EventSender Payload) (result : ProducerResult)
    (transactionId : Nat) : String :=
  match result with
  | .highwaterAhead =>
      "server producer highwater " ++ toString transactionId ++ " is ahead of local transaction " ++
        toString (sender.session.outbox.nextTransactionId - 1)
  | .highwaterRegressed =>
      "server producer highwater regressed from " ++
        toString sender.session.outbox.lastAcknowledgedTransactionId ++ " to " ++
        toString transactionId
  | other =>
      "invalid producer result for transaction " ++ toString transactionId ++
        ": ProducerResult." ++ other.name

/-- `_record_session_failure_locked`. -/
def recordSessionFailure (sender : EventSender Payload) (failure : TransactionFailure) :
    EventSender Payload :=
  { sender with
    failure := some failure
    recoveryArtifact := some
      { producerSessionId := sender.sessionId
        failure := failure
        transactions := sender.session.outbox.queue } }

/-- `_close` of the published socket. -/
def close (sender : EventSender Payload) : EventSender Payload :=
  if sender.connected then
    { sender with
      connected := false
      session := (sender.session.disconnect sender.socketGeneration).2 }
  else sender

/-- A connection whose hello was answered with the committed highwater: the session is ready and its
socket published; `none` when it cannot start or refuses the highwater. -/
def connect (sender : EventSender Payload) (serverInstance : String) (committedThrough : Nat) :
    Option (EventSender Payload) :=
  match sender.session.beginConnection with
  | none => none
  | some begun =>
      match begun.acceptHello begun.generation committedThrough with
      | (.accepted, session) =>
          some { sender with
            session := session
            socketGeneration := session.generation
            connected := true
            serverInstance := serverInstance
            acknowledgedCheckpoint := none }
      | _ => none

/-- The checkpoint of an accepted acknowledgement. -/
def mirrorCheckpoint (sender : EventSender Payload) (checkpoint : Option TransactionCheckpoint) :
    Option MirrorCheckpoint :=
  if sender.serverInstance ≠ "" then
    checkpoint.map fun known => ⟨sender.serverInstance, known.epoch, known.headSeq⟩
  else none

/-- `_accept_result` of the reader of a connection. -/
def acceptResult (generation : Nat) (sender : EventSender Payload) (result : TransactionResult) :
    EventSender Payload :=
  if generation ≠ sender.socketGeneration ∨ sender.connected = false then sender
  else
    match result with
    | .acknowledged txnId checkpoint =>
        match sender.session.acknowledgeThrough generation txnId with
        | (.staleGeneration, session) => { sender with session := session }
        | (.accepted, session) =>
            { sender with
              session := session
              acknowledgedCheckpoint := sender.mirrorCheckpoint checkpoint }
        | (refused, session) =>
            let left := { sender with session := session }
            (left.recordSessionFailure
              { txnId := txnId
                code := .unexpectedId
                reason := left.highwaterFailureReason refused txnId }).close
    | .rejected txnId rejection =>
        let failure : TransactionFailure :=
          ⟨txnId, rejection.code, rejection.reason, rejection.expectedTxnId⟩
        match sender.session.reject generation txnId failure.disposition with
        | (.staleGeneration, session) => { sender with session := session }
        | (.transactionMissing, session) =>
            (({ sender with session := session } : EventSender Payload).recordSessionFailure
              { txnId := txnId
                code := .unexpectedId
                reason := "server rejected unknown transaction " ++ toString txnId }).close
        | (_, session) =>
            (({ sender with session := session } : EventSender Payload).recordSessionFailure
              failure).close

end EventSender

end UsdConnect
