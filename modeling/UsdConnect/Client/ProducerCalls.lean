/-
Purpose: The calls of a producer session as data, what the storage asserts at each of them, and
  runs of calls with the ids that were handed out to each connection generation.
Trusted boundary: calls of several threads take effect one after another, under the session mutex;
  64-bit counters are natural numbers
Main exports: ProducerCall, ProducerCall.AssertsHold, ProducerTrace, ProducerTrace.run
-/
import UsdConnect.Client.ProducerSession

namespace UsdConnect

variable {Payload : Type}

namespace OrderedOutboxStorage

/-- The asserts of `Append`. -/
def appendAsserts (outbox : OrderedOutboxStorage Payload) (transactionId eventCount : Nat) : Bool :=
  transactionId ≠ 0 ∧ eventCount ≠ 0 ∧ outbox.canAppend ∧
    transactionId = outbox.nextTransactionId

/-- The asserts of `Replace`, and that its subtraction does not underflow. -/
def replaceAsserts (outbox : OrderedOutboxStorage Payload) (transactionId eventCount : Nat) :
    Bool :=
  transactionId ≠ 0 ∧ eventCount ≠ 0 ∧ outbox.contains transactionId ∧
    replacedEventCount transactionId outbox.queue ≤ outbox.pendingEvents

/-- No subtraction of the popping loop underflows. -/
def popsCounted (transactionId : Nat) : List (OrderedOutboxEntry Payload) → Nat → Bool
  | [], _ => true
  | front :: rest, pendingEvents =>
      if front.transactionId ≤ transactionId then
        front.eventCount ≤ pendingEvents &&
          popsCounted transactionId rest (pendingEvents - front.eventCount)
      else true

def drainAcknowledgedEventCount (outbox : OrderedOutboxStorage Payload) :
    Nat × OrderedOutboxStorage Payload :=
  (outbox.acknowledgedEventsSinceDrain, { outbox with acknowledgedEventsSinceDrain := 0 })

end OrderedOutboxStorage

namespace OrderedProducerSession

/-- `IsValidConfiguration`, which the bindings check before they construct a session. -/
def isValidConfiguration (capacity : Nat) : Bool :=
  capacity ≠ 0

def drainAcknowledgedEventCount (session : OrderedProducerSession Payload) :
    Nat × OrderedProducerSession Payload :=
  let (count, outbox) := session.outbox.drainAcknowledgedEventCount
  (count, { session with outbox := outbox })

end OrderedProducerSession

/-- A call of one of the operations that change a session. -/
inductive ProducerCall (Payload : Type) where
  | beginConnection
  | acceptHello (generation committedThrough : Nat)
  | disconnect (generation : Nat)
  | append (generation id : Nat) (payload : Payload) (events : Nat) (layer : String)
  | claimNextUnsent (generation : Nat)
  | acknowledgeThrough (generation id : Nat)
  | reject (generation id : Nat) (disposition : ProducerRecoveryDisposition)
  | repairRejected (payload : Payload) (events : Nat) (layer : String)
  | resetSession
  | drainAcknowledgedEventCount
deriving DecidableEq, Repr

namespace ProducerCall

/-- The connection generation a call is made for. -/
def generation : ProducerCall Payload → Option Nat
  | .acceptHello generation _ | .disconnect generation | .append generation _ _ _ _
  | .claimNextUnsent generation | .acknowledgeThrough generation _ | .reject generation _ _ =>
      some generation
  | _ => none

/-- The session after a call. -/
def perform (session : OrderedProducerSession Payload) :
    ProducerCall Payload → OrderedProducerSession Payload
  | .beginConnection => session.beginConnection.getD session
  | .acceptHello generation committedThrough =>
      (session.acceptHello generation committedThrough).2
  | .disconnect generation => (session.disconnect generation).2
  | .append generation id payload events layer =>
      (session.append generation id payload events layer).2
  | .claimNextUnsent generation => (session.claimNextUnsent generation).2.2
  | .acknowledgeThrough generation id => (session.acknowledgeThrough generation id).2
  | .reject generation id disposition => (session.reject generation id disposition).2
  | .repairRejected payload events layer => (session.repairRejected payload events layer).2
  | .resetSession => session.resetSession
  | .drainAcknowledgedEventCount => session.drainAcknowledgedEventCount.2

/-- The entry a call hands out. -/
def claimed (session : OrderedProducerSession Payload) :
    ProducerCall Payload → Option (OrderedOutboxEntry Payload)
  | .claimNextUnsent generation => (session.claimNextUnsent generation).2.1
  | _ => none

/-- The asserts of the storage operation that a call reaches, and that its counters do not
underflow.  A refused call reaches none. -/
def AssertsHold (session : OrderedProducerSession Payload) : ProducerCall Payload → Prop
  | .append generation id payload events layer =>
      (session.append generation id payload events layer).1 = .accepted →
        session.outbox.appendAsserts id events
  | .repairRejected payload events layer =>
      (session.repairRejected payload events layer).1 = .accepted →
        session.outbox.replaceAsserts session.rejectedTransactionId events
  | .acceptHello generation committedThrough =>
      (session.acceptHello generation committedThrough).1 = .accepted →
        OrderedOutboxStorage.popsCounted committedThrough session.outbox.queue
          session.outbox.pendingEvents
  | .acknowledgeThrough generation id =>
      (session.acknowledgeThrough generation id).1 = .accepted →
        OrderedOutboxStorage.popsCounted id session.outbox.queue session.outbox.pendingEvents
  | _ => True

end ProducerCall

/-- A session with the generation and the id of every entry it has handed out, oldest first. -/
structure ProducerTrace (Payload : Type) where
  session : OrderedProducerSession Payload
  claims : List (Nat × Nat) := []
deriving DecidableEq, Repr

namespace ProducerTrace

/-- Ids handed out within one connection generation. -/
def claimedIds (trace : ProducerTrace Payload) (generation : Nat) : List Nat :=
  (trace.claims.filter fun claim => claim.1 = generation).map (·.2)

/-- The last of them, zero before the first. -/
def lastClaimed (trace : ProducerTrace Payload) (generation : Nat) : Nat :=
  (trace.claimedIds generation).getLast?.getD 0

def call (trace : ProducerTrace Payload) (call : ProducerCall Payload) : ProducerTrace Payload where
  session := call.perform trace.session
  claims := trace.claims ++
    ((call.claimed trace.session).map fun entry =>
      (trace.session.generation, entry.transactionId)).toList

/-- Calls on a new session, one after another. -/
def run (capacity : Nat) (calls : List (ProducerCall Payload)) : ProducerTrace Payload :=
  calls.foldl call { session := .create capacity }

end ProducerTrace

end UsdConnect
