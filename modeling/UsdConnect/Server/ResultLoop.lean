/-
Purpose: How the outcomes of one connection's transactions become result messages: the reply for each
  outcome, and the loop that sends them in batches and reduces runs of acknowledgements.
Trusted boundary: sending succeeds and every outcome has a protocol result; otherwise the handler shuts
  the socket down and sends nothing more
Main exports: TransactionResult, resolveTransactionReply, transactionResultLoop
-/
import UsdConnect.Server.Commit
import UsdConnect.Lib.Coalescing

namespace UsdConnect

/-- Persisted history a committed transaction can be seen in. -/
structure TransactionCheckpoint where
  epoch : Nat
  headSeq : Nat
deriving DecidableEq, Repr

/-- Rejection codes on the wire; a newer server may send others. -/
inductive TransactionRejectionCode where
  | none
  | invalidIdentity
  | unexpectedId
  | staleLayerGraph
  | invalidTransaction
  | unknown (code : Nat)
deriving DecidableEq, Repr

/-- What `TransactionRejectedError` and the other rejected exceptions carry. -/
structure TransactionRejection where
  code : TransactionRejectionCode
  reason : String
  expectedTxnId : Nat := 0
deriving DecidableEq, Repr

/-- A result message of `make_transaction_result`. -/
inductive TransactionResult where
  | acknowledged (txnId : Nat) (checkpoint : Option TransactionCheckpoint)
  | rejected (txnId : Nat) (rejection : TransactionRejection)
deriving DecidableEq, Repr

def TransactionResult.isAcknowledged : TransactionResult → Bool
  | .acknowledged .. => true
  | .rejected .. => false

/-- `_resolve_transaction_reply`.  The checkpoint is attached to committed outcomes only; a duplicate
carries the committed highwater as its id. -/
def resolveTransactionReply {Record : Type} (txnId : Nat)
    (checkpoint : Option TransactionCheckpoint) :
    TransactionOutcome Record TransactionRejection → TransactionResult
  | .committed committed _ => .acknowledged committed checkpoint
  | .duplicate committedThrough => .acknowledged committedThrough Option.none
  | .unexpectedId expected received =>
      .rejected txnId
        { code := .unexpectedId
          reason := s!"expected transaction {expected}, received {received}"
          expectedTxnId := expected }
  | .failed rejection => .rejected txnId rejection

/-- An acknowledgement takes the place of the acknowledgement before it. -/
def coalesces (last reply : TransactionResult) : Bool :=
  reply.isAcknowledged && last.isAcknowledged

/-- `_transaction_result_loop`: the messages sent for the replies of a connection.  Each reply comes with
whether `get_nowait` found the queue empty behind it. -/
def transactionResultLoop (txnBatchSize : Nat) (replies : List (TransactionResult × Bool)) :
    List TransactionResult :=
  coalesceLoop coalesces (max 1 txnBatchSize) [] 0 replies

end UsdConnect
