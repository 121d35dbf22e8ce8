/-
Purpose: The ordered outbox of the native client core: submitted transactions, a cursor to the first
  one not yet handed to the connection, and the cumulative counters.
Trusted boundary: 64-bit counters are natural numbers; the source asserts are preconditions that
  `UsdConnect.Client.ProducerSession` checks before each call.
Main exports: OrderedOutboxEntry, OrderedOutboxStorage and its operations
-/
import Mathlib.Algebra.GroupWithZero.Nat
import Mathlib.Data.List.TakeDrop
import Mathlib.Data.List.Basic

namespace UsdConnect

/-- One submitted transaction with the bytes the client owns until they are acknowledged. -/
structure OrderedOutboxEntry (Payload : Type) where
  transactionId : Nat
  payload : Payload
  eventCount : Nat
  layerKey : String
deriving DecidableEq, Repr

/-- Queue, cursor and counters of the outbox, under the names of the source's private fields. -/
structure OrderedOutboxStorage (Payload : Type) where
  queue : List (OrderedOutboxEntry Payload) := []
  capacity : Nat
  nextUnsentIndex : Nat := 0
  pendingEvents : Nat := 0
  nextTransactionId : Nat := 1
  submittedTransactions : Nat := 0
  lastAcknowledgedTransactionId : Nat := 0
  acknowledgedTransactions : Nat := 0
  acknowledgedEvents : Nat := 0
  acknowledgedEventsSinceDrain : Nat := 0
deriving DecidableEq, Repr

namespace OrderedOutboxStorage

variable {Payload : Type}

def canAppend (outbox : OrderedOutboxStorage Payload) : Bool :=
  decide (outbox.queue.length < outbox.capacity)

/-- The highest id ever submitted in this session; zero before the first append. -/
def highestSubmittedTransactionId (outbox : OrderedOutboxStorage Payload) : Nat :=
  outbox.nextTransactionId - 1

def contains (outbox : OrderedOutboxStorage Payload) (transactionId : Nat) : Bool :=
  outbox.queue.any fun entry => entry.transactionId == transactionId

def append (outbox : OrderedOutboxStorage Payload) (transactionId : Nat) (payload : Payload)
    (eventCount : Nat) (layerKey : String) : OrderedOutboxStorage Payload :=
  { outbox with
    pendingEvents := outbox.pendingEvents + eventCount
    queue := outbox.queue ++ [⟨transactionId, payload, eventCount, layerKey⟩]
    nextTransactionId := outbox.nextTransactionId + 1
    submittedTransactions := outbox.submittedTransactions + 1 }

/-- Overwrite the first queue entry with the given id, as `std::find_if` selects it. -/
def replaceEntry (transactionId : Nat) (entry : OrderedOutboxEntry Payload) :
    List (OrderedOutboxEntry Payload) → List (OrderedOutboxEntry Payload)
  | [] => []
  | head :: rest =>
      if head.transactionId = transactionId then entry :: rest
      else head :: replaceEntry transactionId entry rest

/-- Events counted by the entry that `replace` overwrites. -/
def replacedEventCount (transactionId : Nat) : List (OrderedOutboxEntry Payload) → Nat
  | [] => 0
  | head :: rest =>
      if head.transactionId = transactionId then head.eventCount
      else replacedEventCount transactionId rest

def replace (outbox : OrderedOutboxStorage Payload) (transactionId : Nat) (payload : Payload)
    (eventCount : Nat) (layerKey : String) : OrderedOutboxStorage Payload :=
  { outbox with
    pendingEvents :=
      outbox.pendingEvents - replacedEventCount transactionId outbox.queue + eventCount
    queue := replaceEntry transactionId ⟨transactionId, payload, eventCount, layerKey⟩ outbox.queue }

/-- Accumulators of the popping loop: what is left of the queue and what was counted. -/
structure AcknowledgeLoop (Payload : Type) where
  queue : List (OrderedOutboxEntry Payload)
  transactionCount : Nat
  eventCount : Nat
  pendingEvents : Nat

/-- Pop every leading entry whose id is at most `transactionId`. -/
def acknowledgeLoop (transactionId : Nat) :
    List (OrderedOutboxEntry Payload) → Nat → Nat → Nat → AcknowledgeLoop Payload
  | [], transactionCount, eventCount, pendingEvents =>
      ⟨[], transactionCount, eventCount, pendingEvents⟩
  | front :: rest, transactionCount, eventCount, pendingEvents =>
      if front.transactionId ≤ transactionId then
        acknowledgeLoop transactionId rest (transactionCount + 1) (eventCount + front.eventCount)
          (pendingEvents - front.eventCount)
      else ⟨front :: rest, transactionCount, eventCount, pendingEvents⟩

def acknowledgeThrough (outbox : OrderedOutboxStorage Payload) (transactionId : Nat) :
    OrderedOutboxStorage Payload :=
  let popped := acknowledgeLoop transactionId outbox.queue 0 0 outbox.pendingEvents
  let removed := popped.transactionCount
  { outbox with
    queue := popped.queue
    pendingEvents := popped.pendingEvents
    nextUnsentIndex :=
      if removed < outbox.nextUnsentIndex then outbox.nextUnsentIndex - removed else 0
    nextTransactionId := max outbox.nextTransactionId (transactionId + 1)
    lastAcknowledgedTransactionId := max outbox.lastAcknowledgedTransactionId transactionId
    acknowledgedTransactions := outbox.acknowledgedTransactions + popped.transactionCount
    acknowledgedEvents := outbox.acknowledgedEvents + popped.eventCount
    acknowledgedEventsSinceDrain := outbox.acknowledgedEventsSinceDrain + popped.eventCount }

def resetSession (outbox : OrderedOutboxStorage Payload) : OrderedOutboxStorage Payload :=
  { outbox with
    queue := []
    nextUnsentIndex := 0
    pendingEvents := 0
    nextTransactionId := 1
    lastAcknowledgedTransactionId := 0 }

/-- Hand out the entry under the cursor; `none` once the cursor reached the end of the queue. -/
def claimNextUnsent (outbox : OrderedOutboxStorage Payload) :
    Option (OrderedOutboxEntry Payload × OrderedOutboxStorage Payload) :=
  match outbox.queue[outbox.nextUnsentIndex]? with
  | none => none
  | some entry => some (entry, { outbox with nextUnsentIndex := outbox.nextUnsentIndex + 1 })

def markAllUnsent (outbox : OrderedOutboxStorage Payload) : OrderedOutboxStorage Payload :=
  { outbox with nextUnsentIndex := 0 }

/-! ### What the popping loop leaves behind -/

/-- The loop drops exactly the leading acknowledged entries. -/
theorem acknowledgeLoop_queue (transactionId : Nat) (queue : List (OrderedOutboxEntry Payload))
    (transactionCount eventCount pendingEvents : Nat) :
    (acknowledgeLoop transactionId queue transactionCount eventCount pendingEvents).queue =
      queue.dropWhile fun entry => decide (entry.transactionId ≤ transactionId) := by
  induction queue generalizing transactionCount eventCount pendingEvents with
  | nil => rfl
  | cons front rest ih =>
      by_cases acknowledged : front.transactionId ≤ transactionId
      · simp only [acknowledgeLoop, acknowledged, if_true, List.dropWhile_cons, decide_true]
        exact ih _ _ _
      · simp [acknowledgeLoop, acknowledged]

@[simp] theorem acknowledgeThrough_queue (outbox : OrderedOutboxStorage Payload)
    (transactionId : Nat) :
    (outbox.acknowledgeThrough transactionId).queue =
      outbox.queue.dropWhile fun entry => decide (entry.transactionId ≤ transactionId) := by
  simp [acknowledgeThrough, acknowledgeLoop_queue]

@[simp] theorem acknowledgeThrough_nextTransactionId (outbox : OrderedOutboxStorage Payload)
    (transactionId : Nat) :
    (outbox.acknowledgeThrough transactionId).nextTransactionId =
      max outbox.nextTransactionId (transactionId + 1) := rfl

@[simp] theorem acknowledgeThrough_lastAcknowledged (outbox : OrderedOutboxStorage Payload)
    (transactionId : Nat) :
    (outbox.acknowledgeThrough transactionId).lastAcknowledgedTransactionId =
      max outbox.lastAcknowledgedTransactionId transactionId := rfl

theorem map_transactionId_replaceEntry (transactionId : Nat) (payload : Payload)
    (eventCount : Nat) (layerKey : String) (queue : List (OrderedOutboxEntry Payload)) :
    (replaceEntry transactionId ⟨transactionId, payload, eventCount, layerKey⟩ queue).map
        (·.transactionId) = queue.map (·.transactionId) := by
  induction queue with
  | nil => rfl
  | cons head rest ih =>
      by_cases found : head.transactionId = transactionId
      · simp [replaceEntry, found]
      · simp [replaceEntry, found, ih]

theorem mem_replaceEntry {transactionId : Nat} {entry other : OrderedOutboxEntry Payload}
    {queue : List (OrderedOutboxEntry Payload)}
    (member : other ∈ replaceEntry transactionId entry queue) :
    other = entry ∨ other ∈ queue := by
  induction queue with
  | nil => simp [replaceEntry] at member
  | cons head rest ih =>
      by_cases found : head.transactionId = transactionId
      · rw [replaceEntry, if_pos found] at member
        rcases List.mem_cons.1 member with rfl | old
        · exact Or.inl rfl
        · exact Or.inr (List.mem_cons_of_mem _ old)
      · rw [replaceEntry, if_neg found] at member
        rcases List.mem_cons.1 member with rfl | old
        · exact Or.inr List.mem_cons_self
        · exact (ih old).imp_right (List.mem_cons_of_mem _)

end OrderedOutboxStorage

end UsdConnect
