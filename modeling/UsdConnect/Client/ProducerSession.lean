/-
Purpose: The phase machine of one ordered producer session. Operations run under the session mutex,
  so each is one step that returns its result code and the new session.
Trusted boundary: none
Main exports: ProducerPhase, ProducerResult, ProducerRecoveryDisposition
-/
import UsdConnect.Client.OrderedOutbox

namespace UsdConnect

inductive ProducerPhase where
  | disconnected
  | awaitingHello
  | ready
  | recoveryRequired
deriving DecidableEq, Repr, Inhabited

inductive ProducerResult where
  | accepted
  | staleGeneration
  | invalidPhase
  | recoveryRequired
  | highwaterAhead
  | highwaterRegressed
  | outboxFull
  | sequenceMismatch
  | noPendingTransaction
  | transactionMissing
  | recoveryNotRecoverable
  | invalidArgument
deriving DecidableEq, Repr, Inhabited

inductive ProducerRecoveryDisposition where
  | none
  | recoverableConflict
  | invalidOperation
  | sessionFatal
deriving DecidableEq, Repr, Inhabited

/-- Outbox, phase and recovery record of one session. -/
structure OrderedProducerSession (Payload : Type) where
  outbox : OrderedOutboxStorage Payload
  phase : ProducerPhase := .disconnected
  recoveryDisposition : ProducerRecoveryDisposition := .none
  generation : Nat := 0
  rejectedTransactionId : Nat := 0
deriving DecidableEq, Repr

namespace OrderedProducerSession

variable {Payload : Type}

/-- The session as its constructor leaves it. -/
def create (capacity : Nat) : OrderedProducerSession Payload :=
  { outbox := { capacity := capacity } }

def requirePhase (session : OrderedProducerSession Payload) (generation : Nat)
    (required : ProducerPhase) : ProducerResult :=
  if generation ≠ session.generation then .staleGeneration
  else if session.phase = .recoveryRequired then .recoveryRequired
  else if session.phase = required then .accepted
  else .invalidPhase

def validateHighwater (session : OrderedProducerSession Payload) (id : Nat) : ProducerResult :=
  if id > session.outbox.highestSubmittedTransactionId then .highwaterAhead
  else if id < session.outbox.lastAcknowledgedTransactionId then .highwaterRegressed
  else .accepted

def enterRecovery (session : OrderedProducerSession Payload) (id : Nat)
    (disposition : ProducerRecoveryDisposition) : OrderedProducerSession Payload :=
  { session with
    outbox := session.outbox.markAllUnsent
    rejectedTransactionId := id
    recoveryDisposition := disposition
    phase := .recoveryRequired }

def clearRecovery (session : OrderedProducerSession Payload) : OrderedProducerSession Payload :=
  { session with rejectedTransactionId := 0, recoveryDisposition := .none }

/-- `none` models the empty optional: a session in recovery starts no connection. -/
def beginConnection (session : OrderedProducerSession Payload) :
    Option (OrderedProducerSession Payload) :=
  if session.phase = .recoveryRequired then none
  else
    some { session with
      generation := session.generation + 1
      outbox := session.outbox.markAllUnsent
      phase := .awaitingHello }

def acceptHello (session : OrderedProducerSession Payload) (generation committedThrough : Nat) :
    ProducerResult × OrderedProducerSession Payload :=
  match session.requirePhase generation .awaitingHello with
  | .accepted =>
      match session.validateHighwater committedThrough with
      | .accepted =>
          (.accepted, { session with
            outbox := session.outbox.acknowledgeThrough committedThrough
            phase := .ready })
      | highwater => (highwater, session.enterRecovery 0 .sessionFatal)
  | active => (active, session)

def disconnect (session : OrderedProducerSession Payload) (generation : Nat) :
    ProducerResult × OrderedProducerSession Payload :=
  if generation ≠ session.generation then (.staleGeneration, session)
  else
    (.accepted, { session with
      outbox := session.outbox.markAllUnsent
      phase := if session.phase = .recoveryRequired then .recoveryRequired else .disconnected })

def append (session : OrderedProducerSession Payload) (generation id : Nat) (payload : Payload)
    (events : Nat) (layer : String) : ProducerResult × OrderedProducerSession Payload :=
  if events = 0 then (.invalidArgument, session)
  else
    match session.requirePhase generation .ready with
    | .accepted =>
        if session.outbox.canAppend = false then (.outboxFull, session)
        else if id ≠ session.outbox.nextTransactionId then (.sequenceMismatch, session)
        else (.accepted, { session with outbox := session.outbox.append id payload events layer })
    | active => (active, session)

def claimNextUnsent (session : OrderedProducerSession Payload) (generation : Nat) :
    ProducerResult × Option (OrderedOutboxEntry Payload) × OrderedProducerSession Payload :=
  match session.requirePhase generation .ready with
  | .accepted =>
      match session.outbox.claimNextUnsent with
      | some (entry, outbox) => (.accepted, some entry, { session with outbox := outbox })
      | none => (.noPendingTransaction, none, session)
  | active => (active, none, session)

def acknowledgeThrough (session : OrderedProducerSession Payload) (generation id : Nat) :
    ProducerResult × OrderedProducerSession Payload :=
  match session.requirePhase generation .ready with
  | .accepted =>
      match session.validateHighwater id with
      | .accepted => (.accepted, { session with outbox := session.outbox.acknowledgeThrough id })
      | highwater => (highwater, session.enterRecovery 0 .sessionFatal)
  | active => (active, session)

def reject (session : OrderedProducerSession Payload) (generation id : Nat)
    (disposition : ProducerRecoveryDisposition) :
    ProducerResult × OrderedProducerSession Payload :=
  match session.requirePhase generation .ready with
  | .accepted =>
      if session.outbox.contains id then (.accepted, session.enterRecovery id disposition)
      else (.transactionMissing, session.enterRecovery id .sessionFatal)
  | active => (active, session)

def repairRejected (session : OrderedProducerSession Payload) (payload : Payload) (events : Nat)
    (layer : String) : ProducerResult × OrderedProducerSession Payload :=
  if events = 0 then (.invalidArgument, session)
  else if session.phase ≠ .recoveryRequired then (.invalidPhase, session)
  else if session.recoveryDisposition ≠ .recoverableConflict then
    (.recoveryNotRecoverable, session)
  else
    (.accepted,
      { ({ session with
            outbox := session.outbox.replace session.rejectedTransactionId payload events layer
          } : OrderedProducerSession Payload).clearRecovery with phase := .disconnected })

def resetSession (session : OrderedProducerSession Payload) : OrderedProducerSession Payload :=
  { ({ session with
        generation := session.generation + 1
        outbox := session.outbox.resetSession
      } : OrderedProducerSession Payload).clearRecovery with phase := .disconnected }

/-! ### What an accepted phase check tells -/

theorem requirePhase_eq_accepted {session : OrderedProducerSession Payload} {generation : Nat}
    {required : ProducerPhase} :
    session.requirePhase generation required = .accepted ↔
      generation = session.generation ∧ session.phase ≠ .recoveryRequired ∧
        session.phase = required := by
  unfold requirePhase
  by_cases current : generation = session.generation
  · by_cases recovering : session.phase = .recoveryRequired
    · simp [current, recovering]
    · by_cases expected : session.phase = required <;> simp [current, recovering, expected]
  · simp [current]

theorem validateHighwater_eq_accepted {session : OrderedProducerSession Payload} {id : Nat} :
    session.validateHighwater id = .accepted ↔
      session.outbox.lastAcknowledgedTransactionId ≤ id ∧
        id ≤ session.outbox.highestSubmittedTransactionId := by
  unfold validateHighwater
  by_cases ahead : id > session.outbox.highestSubmittedTransactionId
  · simp [ahead]
  · by_cases regressed : id < session.outbox.lastAcknowledgedTransactionId
    · simp [ahead, regressed]
    · simp only [ahead, regressed, if_false, true_iff]
      omega

/-! ### What each operation can do

One inversion lemma per operation: either it was accepted, with its guards, or it says what was
left of the session.
-/

theorem append_cases (session : OrderedProducerSession Payload) (generation id : Nat)
    (payload : Payload) (events : Nat) (layer : String) :
    (generation = session.generation ∧ id = session.outbox.nextTransactionId ∧
      session.append generation id payload events layer = (.accepted,
        { session with outbox := session.outbox.append id payload events layer })) ∨
    ∃ result, result ≠ .accepted ∧
      session.append generation id payload events layer = (result, session) := by
  unfold append
  by_cases empty : events = 0
  · exact Or.inr ⟨.invalidArgument, by decide, by simp [empty]⟩
  · rw [if_neg empty]
    cases active : session.requirePhase generation .ready with
    | accepted =>
        obtain ⟨current, _, _⟩ := requirePhase_eq_accepted.1 active
        by_cases full : session.outbox.canAppend = false
        · exact Or.inr ⟨.outboxFull, by decide, by simp [full]⟩
        · by_cases next : id = session.outbox.nextTransactionId
          · exact Or.inl ⟨current, next, by simp [full, next]⟩
          · exact Or.inr ⟨.sequenceMismatch, by decide, by simp [full, next]⟩
    | _ => exact Or.inr ⟨_, by decide, rfl⟩

/-- The session moved without touching its queue and counters; only a new generation waits for a
hello again. -/
structure SameOutbox (before after : OrderedProducerSession Payload) : Prop where
  queue : after.outbox.queue = before.outbox.queue
  nextTransactionId : after.outbox.nextTransactionId = before.outbox.nextTransactionId
  lastAcknowledged :
    after.outbox.lastAcknowledgedTransactionId = before.outbox.lastAcknowledgedTransactionId
  generation : before.generation ≤ after.generation
  waiting : after.phase = .awaitingHello → after.generation = before.generation →
    before.phase = .awaitingHello

theorem SameOutbox.refl (session : OrderedProducerSession Payload) : SameOutbox session session :=
  ⟨rfl, rfl, rfl, Nat.le_refl _, fun waiting _ => waiting⟩

theorem sameOutbox_enterRecovery (session : OrderedProducerSession Payload) (id : Nat)
    (disposition : ProducerRecoveryDisposition) :
    SameOutbox session (session.enterRecovery id disposition) :=
  ⟨rfl, rfl, rfl, Nat.le_refl _, fun waiting => nomatch waiting⟩

theorem claimNextUnsent_cases (session : OrderedProducerSession Payload) (generation : Nat) :
    (∃ entry after, generation = after.generation ∧ SameOutbox session after ∧
      entry ∈ after.outbox.queue ∧
      session.claimNextUnsent generation = (.accepted, some entry, after)) ∨
    ∃ result, session.claimNextUnsent generation = (result, none, session) := by
  unfold claimNextUnsent
  cases active : session.requirePhase generation .ready with
  | accepted =>
      obtain ⟨current, _, _⟩ := requirePhase_eq_accepted.1 active
      unfold OrderedOutboxStorage.claimNextUnsent
      cases found : session.outbox.queue[session.outbox.nextUnsentIndex]? with
      | none => exact Or.inr ⟨_, rfl⟩
      | some entry =>
          refine Or.inl ⟨entry, _, ?_, ?_, ?_, rfl⟩
          · exact current
          · exact ⟨rfl, rfl, rfl, Nat.le_refl _, fun waiting _ => waiting⟩
          · exact List.mem_of_getElem? found
  | _ => exact Or.inr ⟨_, rfl⟩

/-- The result of taking a high-water mark in a phase that allows it. -/
inductive Highwater (session : OrderedProducerSession Payload) (committedThrough : Nat) :
    ProducerResult × OrderedProducerSession Payload → Prop where
  | accepted (after : OrderedProducerSession Payload)
      (above : session.outbox.lastAcknowledgedTransactionId ≤ committedThrough)
      (outbox : after.outbox = session.outbox.acknowledgeThrough committedThrough)
      (generation : after.generation = session.generation)
      (ready : after.phase = .ready) :
      Highwater session committedThrough (.accepted, after)
  | refused (result : ProducerResult) (after : OrderedProducerSession Payload)
      (refused : result ≠ .accepted) (same : SameOutbox session after) :
      Highwater session committedThrough (result, after)

theorem acceptHello_highwater (session : OrderedProducerSession Payload)
    (generation committedThrough : Nat) :
    Highwater session committedThrough (session.acceptHello generation committedThrough) := by
  unfold acceptHello
  cases session.requirePhase generation .awaitingHello with
  | accepted =>
      cases highwater : session.validateHighwater committedThrough with
      | accepted =>
          exact .accepted _ (validateHighwater_eq_accepted.1 highwater).1 rfl rfl rfl
      | _ => exact .refused _ _ (by decide) (sameOutbox_enterRecovery _ _ _)
  | _ => exact .refused _ _ (by decide) (SameOutbox.refl session)

theorem acknowledgeThrough_highwater (session : OrderedProducerSession Payload)
    (generation id : Nat) :
    Highwater session id (session.acknowledgeThrough generation id) := by
  unfold acknowledgeThrough
  cases active : session.requirePhase generation .ready with
  | accepted =>
      obtain ⟨_, _, ready⟩ := requirePhase_eq_accepted.1 active
      cases highwater : session.validateHighwater id with
      | accepted =>
          exact .accepted _ (validateHighwater_eq_accepted.1 highwater).1 rfl rfl ready
      | _ => exact .refused _ _ (by decide) (sameOutbox_enterRecovery _ _ _)
  | _ => exact .refused _ _ (by decide) (SameOutbox.refl session)

theorem reject_sameOutbox (session : OrderedProducerSession Payload) (generation id : Nat)
    (disposition : ProducerRecoveryDisposition) :
    SameOutbox session (session.reject generation id disposition).2 := by
  unfold reject
  cases session.requirePhase generation .ready with
  | accepted =>
      cases session.outbox.contains id with
      | true => exact sameOutbox_enterRecovery _ _ _
      | false => exact sameOutbox_enterRecovery _ _ _
  | _ => exact SameOutbox.refl session

theorem disconnect_sameOutbox (session : OrderedProducerSession Payload) (generation : Nat) :
    SameOutbox session (session.disconnect generation).2 := by
  unfold disconnect
  by_cases stale : generation ≠ session.generation
  · rw [if_pos stale]
    exact SameOutbox.refl session
  · rw [if_neg stale]
    refine ⟨rfl, rfl, rfl, Nat.le_refl _, ?_⟩
    intro waiting
    by_cases recovering : session.phase = .recoveryRequired
    · simp [recovering] at waiting
    · simp [recovering] at waiting

theorem beginConnection_sameOutbox {session after : OrderedProducerSession Payload}
    (begun : session.beginConnection = some after) : SameOutbox session after := by
  unfold beginConnection at begun
  by_cases recovering : session.phase = .recoveryRequired
  · simp [recovering] at begun
  · rw [if_neg recovering] at begun
    obtain rfl := Option.some.inj begun
    exact ⟨rfl, rfl, rfl, Nat.le_succ _, fun _ same => absurd same (Nat.succ_ne_self _)⟩

theorem repairRejected_cases (session : OrderedProducerSession Payload) (payload : Payload)
    (events : Nat) (layer : String) :
    (events ≠ 0 ∧ session.phase = .recoveryRequired ∧
      session.recoveryDisposition = .recoverableConflict ∧
      (session.repairRejected payload events layer).2.outbox =
        session.outbox.replace session.rejectedTransactionId payload events layer ∧
      (session.repairRejected payload events layer).2.generation = session.generation ∧
      (session.repairRejected payload events layer).2.phase = .disconnected) ∨
    (session.repairRejected payload events layer).2 = session := by
  unfold repairRejected
  by_cases empty : events = 0
  · exact Or.inr (by simp [empty])
  · by_cases recovering : session.phase = .recoveryRequired
    · by_cases recoverable : session.recoveryDisposition = .recoverableConflict
      · refine Or.inl ⟨empty, recovering, recoverable, ?_⟩
        simp [empty, recovering, recoverable, clearRecovery]
      · exact Or.inr (by simp [empty, recovering, recoverable])
    · exact Or.inr (by simp [empty, recovering])

end OrderedProducerSession

end UsdConnect
