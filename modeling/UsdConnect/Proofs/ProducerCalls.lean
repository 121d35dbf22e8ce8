/-
Purpose: The representation invariant of a producer session along every run of calls, and the order
  in which a connection generation is handed the queued transactions.
Trusted boundary: none
Main exports: OrderedProducerSession.Represents, ProducerTrace.Sound
-/
import UsdConnect.Client.ProducerCalls
import Mathlib.Algebra.BigOperators.Group.List.Basic

namespace UsdConnect

variable {Payload : Type}

namespace OrderedOutboxStorage

/-- The queue holds consecutive ids. -/
def Consecutive (queue : List (OrderedOutboxEntry Payload)) (first : Nat) : Prop :=
  queue.map (·.transactionId) = List.range' first queue.length

def totalEvents (queue : List (OrderedOutboxEntry Payload)) : Nat :=
  (queue.map (·.eventCount)).sum

theorem Consecutive.tail {front : OrderedOutboxEntry Payload}
    {rest : List (OrderedOutboxEntry Payload)} {first : Nat}
    (consecutive : Consecutive (front :: rest) first) :
    front.transactionId = first ∧ Consecutive rest (first + 1) := by
  unfold Consecutive at consecutive ⊢
  rw [List.map_cons, List.length_cons, List.range'_succ] at consecutive
  exact List.cons_eq_cons.1 consecutive

theorem Consecutive.getElem? {queue : List (OrderedOutboxEntry Payload)} {first index : Nat}
    {entry : OrderedOutboxEntry Payload} (consecutive : Consecutive queue first)
    (found : queue[index]? = some entry) : entry.transactionId = first + index := by
  induction queue generalizing first index with
  | nil => simp at found
  | cons front rest ih =>
      obtain ⟨here, later⟩ := consecutive.tail
      cases index with
      | zero =>
          rw [List.getElem?_cons_zero] at found
          cases found
          exact here
      | succ index =>
          rw [List.getElem?_cons_succ] at found
          have next := ih later found
          omega

theorem Consecutive.concat {queue : List (OrderedOutboxEntry Payload)} {first : Nat}
    (consecutive : Consecutive queue first) {entry : OrderedOutboxEntry Payload}
    (next : entry.transactionId = first + queue.length) :
    Consecutive (queue ++ [entry]) first := by
  unfold Consecutive at consecutive ⊢
  rw [List.map_append, consecutive, List.length_append, List.length_singleton,
    List.range'_concat, List.map_singleton, next, Nat.one_mul]

/-- The popping loop drops the acknowledged ids and takes their events off the count, without
underflow. -/
theorem acknowledgeLoop_consecutive {queue : List (OrderedOutboxEntry Payload)} {first : Nat}
    (consecutive : Consecutive queue first) (transactionId transactionCount eventCount : Nat)
    (within : transactionId < first + queue.length) :
    let popped := acknowledgeLoop transactionId queue transactionCount eventCount
      (totalEvents queue)
    let removed := transactionId + 1 - first
    popped.queue = queue.drop removed ∧
      popped.transactionCount = transactionCount + removed ∧
      popped.pendingEvents = totalEvents popped.queue ∧
      popsCounted transactionId queue (totalEvents queue) = true := by
  induction queue generalizing first transactionCount eventCount with
  | nil =>
      have none : transactionId + 1 - first = 0 := by
        rw [List.length_nil] at within
        omega
      simp [acknowledgeLoop, popsCounted, none]
  | cons front rest ih =>
      obtain ⟨here, later⟩ := consecutive.tail
      have total : totalEvents (front :: rest) - front.eventCount = totalEvents rest := by
        unfold totalEvents
        rw [List.map_cons, List.sum_cons]
        omega
      have counted : front.eventCount ≤ totalEvents (front :: rest) := by
        unfold totalEvents
        rw [List.map_cons, List.sum_cons]
        omega
      rw [List.length_cons] at within
      by_cases acknowledged : front.transactionId ≤ transactionId
      · have more : transactionId + 1 - first = transactionId + 1 - (first + 1) + 1 := by omega
        obtain ⟨left, count, pending, sound⟩ := ih later (transactionCount + 1)
          (eventCount + front.eventCount) (by omega)
        simp only [acknowledgeLoop, popsCounted, acknowledged, if_true, total, more,
          List.drop_succ_cons]
        refine ⟨left, ?_, pending, ?_⟩
        · rw [count]
          omega
        · simp only [counted, decide_true, Bool.true_and]
          exact sound
      · have none : transactionId + 1 - first = 0 := by omega
        simp [acknowledgeLoop, popsCounted, acknowledged, none]

theorem contains_iff (outbox : OrderedOutboxStorage Payload) (transactionId : Nat) :
    outbox.contains transactionId = true ↔
      transactionId ∈ outbox.queue.map (·.transactionId) := by
  unfold contains
  simp only [List.any_eq_true, List.mem_map, beq_iff_eq]

/-- The replaced entry's events are among the counted ones, and the new ones take their place. -/
theorem totalEvents_replaceEntry {transactionId : Nat} (entry : OrderedOutboxEntry Payload)
    {queue : List (OrderedOutboxEntry Payload)}
    (present : transactionId ∈ queue.map (·.transactionId)) :
    replacedEventCount transactionId queue ≤ totalEvents queue ∧
      totalEvents (replaceEntry transactionId entry queue) =
        totalEvents queue - replacedEventCount transactionId queue + entry.eventCount := by
  induction queue with
  | nil => simp at present
  | cons head rest ih =>
      unfold totalEvents at ih ⊢
      by_cases found : head.transactionId = transactionId
      · simp only [replacedEventCount, replaceEntry, found, if_true, List.map_cons, List.sum_cons]
        omega
      · have deeper : transactionId ∈ rest.map (·.transactionId) := by
          rw [List.map_cons, List.mem_cons] at present
          exact present.resolve_left (fun same => found same.symm)
        obtain ⟨counted, replaced⟩ := ih deeper
        simp only [replacedEventCount, replaceEntry, found, if_false, List.map_cons,
          List.sum_cons]
        omega

theorem length_replaceEntry (transactionId : Nat) (entry : OrderedOutboxEntry Payload)
    (queue : List (OrderedOutboxEntry Payload)) :
    (replaceEntry transactionId entry queue).length = queue.length := by
  induction queue with
  | nil => rfl
  | cons head rest ih =>
      by_cases found : head.transactionId = transactionId
      · simp [replaceEntry, found]
      · simp [replaceEntry, found, ih]

end OrderedOutboxStorage

open OrderedOutboxStorage

/-! ### The representation invariant -/

/-- What the fields of a session say about each other. -/
structure OrderedProducerSession.Represents (session : OrderedProducerSession Payload) : Prop where
  ids : session.outbox.queue.map (·.transactionId) =
    List.range' (session.outbox.lastAcknowledgedTransactionId + 1)
      (session.outbox.nextTransactionId - (session.outbox.lastAcknowledgedTransactionId + 1))
  acknowledged : session.outbox.lastAcknowledgedTransactionId < session.outbox.nextTransactionId
  cursor : session.outbox.nextUnsentIndex ≤ session.outbox.queue.length
  pending : session.outbox.pendingEvents = (session.outbox.queue.map (·.eventCount)).sum
  bounded : session.outbox.queue.length ≤ session.outbox.capacity
  recoverable : session.phase = .recoveryRequired →
    session.recoveryDisposition = .recoverableConflict →
    session.outbox.contains session.rejectedTransactionId

/-- The part of the invariant that only the outbox is concerned with. -/
structure OrderedOutboxStorage.Represents (outbox : OrderedOutboxStorage Payload) : Prop where
  consecutive : Consecutive outbox.queue (outbox.lastAcknowledgedTransactionId + 1)
  next : outbox.nextTransactionId = outbox.lastAcknowledgedTransactionId + 1 + outbox.queue.length
  cursor : outbox.nextUnsentIndex ≤ outbox.queue.length
  pending : outbox.pendingEvents = totalEvents outbox.queue
  bounded : outbox.queue.length ≤ outbox.capacity

namespace OrderedOutboxStorage.Represents

variable {outbox : OrderedOutboxStorage Payload}

theorem markAllUnsent (represents : outbox.Represents) : outbox.markAllUnsent.Represents where
  consecutive := represents.consecutive
  next := represents.next
  cursor := Nat.zero_le _
  pending := represents.pending
  bounded := represents.bounded

theorem append (represents : outbox.Represents) {payload : Payload} {eventCount : Nat}
    {layerKey : String} (room : outbox.canAppend = true) :
    (outbox.append outbox.nextTransactionId payload eventCount layerKey).Represents where
  consecutive := represents.consecutive.concat represents.next
  next := by
    have next := represents.next
    simp only [OrderedOutboxStorage.append, List.length_append, List.length_singleton]
    omega
  cursor := by
    have cursor := represents.cursor
    simp only [OrderedOutboxStorage.append, List.length_append, List.length_singleton]
    omega
  pending := by
    simp [OrderedOutboxStorage.append, totalEvents, represents.pending]
  bounded := by
    have short : outbox.queue.length < outbox.capacity := by simpa [canAppend] using room
    simp only [OrderedOutboxStorage.append, List.length_append, List.length_singleton]
    omega

theorem contains_iff_between (represents : outbox.Represents) (transactionId : Nat) :
    outbox.contains transactionId = true ↔
      outbox.lastAcknowledgedTransactionId < transactionId ∧
        transactionId < outbox.nextTransactionId := by
  have next := represents.next
  rw [contains_iff, represents.consecutive, List.mem_range'_1]
  omega

theorem replace (represents : outbox.Represents) {transactionId eventCount : Nat}
    {payload : Payload} {layerKey : String} (present : outbox.contains transactionId = true) :
    (outbox.replace transactionId payload eventCount layerKey).Represents where
  consecutive := by
    unfold Consecutive
    simp only [OrderedOutboxStorage.replace]
    rw [map_transactionId_replaceEntry, length_replaceEntry]
    exact represents.consecutive
  next := by
    simp only [OrderedOutboxStorage.replace, length_replaceEntry]
    exact represents.next
  cursor := by
    simp only [OrderedOutboxStorage.replace, length_replaceEntry]
    exact represents.cursor
  pending := by
    simp only [OrderedOutboxStorage.replace]
    rw [(totalEvents_replaceEntry _ ((contains_iff _ _).1 present)).2, represents.pending]
  bounded := by
    simp only [OrderedOutboxStorage.replace, length_replaceEntry]
    exact represents.bounded

/-- A valid high-water mark drops the ids up to it and moves the cursor along. -/
theorem acknowledgeThrough (represents : outbox.Represents) {id : Nat}
    (above : outbox.lastAcknowledgedTransactionId ≤ id) (below : id < outbox.nextTransactionId) :
    (outbox.acknowledgeThrough id).Represents ∧
      (outbox.acknowledgeThrough id).lastAcknowledgedTransactionId = id ∧
      (outbox.acknowledgeThrough id).nextUnsentIndex =
        outbox.nextUnsentIndex - (id - outbox.lastAcknowledgedTransactionId) ∧
      popsCounted id outbox.queue outbox.pendingEvents = true := by
  have next := represents.next
  have cursor := represents.cursor
  obtain ⟨left, count, pending, sound⟩ := acknowledgeLoop_consecutive represents.consecutive id 0 0
    (by omega)
  rw [← represents.pending] at left count pending sound
  have removed : id + 1 - (outbox.lastAcknowledgedTransactionId + 1) =
      id - outbox.lastAcknowledgedTransactionId := by omega
  rw [removed] at left count
  have last : (outbox.acknowledgeThrough id).lastAcknowledgedTransactionId = id :=
    Nat.max_eq_right above
  have queue : (outbox.acknowledgeThrough id).queue =
      outbox.queue.drop (id - outbox.lastAcknowledgedTransactionId) := left
  have index : (outbox.acknowledgeThrough id).nextUnsentIndex =
      outbox.nextUnsentIndex - (id - outbox.lastAcknowledgedTransactionId) := by
    simp only [OrderedOutboxStorage.acknowledgeThrough, count]
    split <;> omega
  refine ⟨?_, last, index, sound⟩
  constructor
  · unfold Consecutive
    rw [queue, last, List.map_drop, represents.consecutive, List.length_drop, List.drop_range',
      Nat.mul_one]
    congr 1
    omega
  · rw [last, queue, List.length_drop, acknowledgeThrough_nextTransactionId]
    omega
  · rw [index, queue, List.length_drop]
    omega
  · exact pending
  · rw [queue, List.length_drop]
    have bounded := represents.bounded
    simp only [OrderedOutboxStorage.acknowledgeThrough]
    omega

theorem resetSession (outbox : OrderedOutboxStorage Payload) : outbox.resetSession.Represents where
  consecutive := rfl
  next := rfl
  cursor := Nat.zero_le _
  pending := rfl
  bounded := Nat.zero_le _

/-- The entry under the cursor follows the acknowledged ids and those before the cursor. -/
theorem claimNextUnsent (represents : outbox.Represents) {entry : OrderedOutboxEntry Payload}
    {after : OrderedOutboxStorage Payload}
    (found : outbox.claimNextUnsent = some (entry, after)) :
    entry.transactionId = outbox.lastAcknowledgedTransactionId + outbox.nextUnsentIndex + 1 ∧
      after = { outbox with nextUnsentIndex := outbox.nextUnsentIndex + 1 } ∧
      after.Represents := by
  unfold OrderedOutboxStorage.claimNextUnsent at found
  cases here : outbox.queue[outbox.nextUnsentIndex]? with
  | none =>
      rw [here] at found
      cases found
  | some other =>
      rw [here] at found
      cases found
      have id := represents.consecutive.getElem? here
      have short : outbox.nextUnsentIndex < outbox.queue.length :=
        (List.getElem?_eq_some_iff.1 here).1
      refine ⟨by omega, rfl, ?_⟩
      exact ⟨represents.consecutive, represents.next, short, represents.pending,
        represents.bounded⟩

end OrderedOutboxStorage.Represents

/-! ### Runs of calls -/

open OrderedProducerSession

namespace ProducerTrace

/-- What holds of a session and the ids it has handed out.  The cursor of a ready session stands
behind the last id handed out in its generation or the last acknowledged one, whichever is later;
outside of a ready phase it stands at the front. -/
structure Sound (capacity : Nat) (trace : ProducerTrace Payload) : Prop where
  outbox : trace.session.outbox.Represents
  capacity : trace.session.outbox.capacity = capacity
  recoverable : trace.session.phase = .recoveryRequired →
    trace.session.recoveryDisposition = .recoverableConflict →
    trace.session.outbox.contains trace.session.rejectedTransactionId = true
  started : ∀ claim ∈ trace.claims, claim.1 ≤ trace.session.generation
  waiting : trace.session.phase = .awaitingHello →
    ∀ claim ∈ trace.claims, claim.1 < trace.session.generation
  parked : trace.session.phase ≠ .ready → trace.session.outbox.nextUnsentIndex = 0
  ready : trace.session.phase = .ready →
    trace.session.outbox.lastAcknowledgedTransactionId + trace.session.outbox.nextUnsentIndex =
      max trace.session.outbox.lastAcknowledgedTransactionId
        (trace.lastClaimed trace.session.generation)
  increasing : ∀ generation, (trace.claimedIds generation).Pairwise (· < ·)

namespace Sound

variable {capacity : Nat} {trace : ProducerTrace Payload}

/-- The session moves on without handing out an entry. -/
theorem moved (sound : trace.Sound capacity) {after : OrderedProducerSession Payload}
    (outbox : after.outbox.Represents) (sameCapacity : after.outbox.capacity = capacity)
    (recoverable : after.phase = .recoveryRequired →
      after.recoveryDisposition = .recoverableConflict →
      after.outbox.contains after.rejectedTransactionId = true)
    (generation : trace.session.generation ≤ after.generation)
    (waiting : after.phase = .awaitingHello → trace.session.generation < after.generation)
    (parked : after.phase ≠ .ready → after.outbox.nextUnsentIndex = 0)
    (ready : after.phase = .ready →
      after.outbox.lastAcknowledgedTransactionId + after.outbox.nextUnsentIndex =
        max after.outbox.lastAcknowledgedTransactionId (trace.lastClaimed after.generation)) :
    Sound capacity { session := after, claims := trace.claims } where
  outbox := outbox
  capacity := sameCapacity
  recoverable := recoverable
  started := fun claim member => Nat.le_trans (sound.started claim member) generation
  waiting := fun again claim member =>
    Nat.lt_of_le_of_lt (sound.started claim member) (waiting again)
  parked := parked
  ready := ready
  increasing := sound.increasing

theorem enterRecovery (sound : trace.Sound capacity) {id : Nat}
    {disposition : ProducerRecoveryDisposition}
    (present : disposition = .recoverableConflict → trace.session.outbox.contains id = true) :
    Sound capacity
      { session := trace.session.enterRecovery id disposition, claims := trace.claims } :=
  sound.moved sound.outbox.markAllUnsent sound.capacity (fun _ => present) (Nat.le_refl _)
    (fun waiting => nomatch waiting) (fun _ => rfl) (fun ready => nomatch ready)

/-- A session that waits for its hello has handed out nothing in its generation. -/
theorem lastClaimed_waiting (sound : trace.Sound capacity)
    (waiting : trace.session.phase = .awaitingHello) :
    trace.lastClaimed trace.session.generation = 0 := by
  have none : trace.claimedIds trace.session.generation = [] := by
    unfold claimedIds
    rw [List.map_eq_nil_iff, List.filter_eq_nil_iff]
    intro claim member same
    have before := sound.waiting waiting claim member
    exact absurd (of_decide_eq_true same) (Nat.ne_of_lt before)
  unfold lastClaimed
  rw [none]
  rfl

theorem beginConnection (sound : trace.Sound capacity) :
    Sound capacity
      { session := trace.session.beginConnection.getD trace.session, claims := trace.claims } := by
  unfold OrderedProducerSession.beginConnection
  by_cases recovering : trace.session.phase = .recoveryRequired
  · rw [if_pos recovering]
    exact sound
  · rw [if_neg recovering]
    exact sound.moved sound.outbox.markAllUnsent sound.capacity (fun stuck => nomatch stuck)
      (Nat.le_succ _) (fun _ => Nat.lt_succ_self _) (fun _ => rfl) (fun ready => nomatch ready)

theorem acceptHello (sound : trace.Sound capacity) (generation committedThrough : Nat) :
    Sound capacity
        { session := (trace.session.acceptHello generation committedThrough).2
          claims := trace.claims } ∧
      ((trace.session.acceptHello generation committedThrough).1 = .accepted →
        popsCounted committedThrough trace.session.outbox.queue
          trace.session.outbox.pendingEvents = true) := by
  unfold OrderedProducerSession.acceptHello
  cases active : trace.session.requirePhase generation .awaitingHello with
  | accepted =>
      obtain ⟨_, _, waiting⟩ := requirePhase_eq_accepted.1 active
      cases highwater : trace.session.validateHighwater committedThrough with
      | accepted =>
          obtain ⟨above, below⟩ := validateHighwater_eq_accepted.1 highwater
          have next := sound.outbox.next
          unfold highestSubmittedTransactionId at below
          obtain ⟨represents, last, index, counted⟩ :=
            sound.outbox.acknowledgeThrough above (by omega)
          have front : trace.session.outbox.nextUnsentIndex = 0 :=
            sound.parked (by rw [waiting]; decide)
          refine ⟨?_, fun _ => counted⟩
          refine sound.moved represents sound.capacity (fun stuck => nomatch stuck)
            (Nat.le_refl _) (fun again => nomatch again) (fun notReady => absurd rfl notReady) ?_
          intro _
          dsimp only
          rw [sound.lastClaimed_waiting waiting, index, front]
          omega
      | _ => exact ⟨sound.enterRecovery (fun same => by cases same), fun same => by cases same⟩
  | _ => exact ⟨sound, fun same => by cases same⟩

theorem disconnect (sound : trace.Sound capacity) (generation : Nat) :
    Sound capacity
      { session := (trace.session.disconnect generation).2, claims := trace.claims } := by
  unfold OrderedProducerSession.disconnect
  by_cases stale : generation ≠ trace.session.generation
  · rw [if_pos stale]
    exact sound
  · rw [if_neg stale]
    refine sound.moved sound.outbox.markAllUnsent sound.capacity ?_ (Nat.le_refl _) ?_
      (fun _ => rfl) ?_
    · dsimp only
      intro recovering
      apply sound.recoverable
      split at recovering
      · assumption
      · cases recovering
    all_goals
      dsimp only
      intro phase
      split at phase <;> cases phase

theorem append (sound : trace.Sound capacity) (generation id : Nat) (payload : Payload)
    (events : Nat) (layer : String) :
    Sound capacity
        { session := (trace.session.append generation id payload events layer).2
          claims := trace.claims } ∧
      ((trace.session.append generation id payload events layer).1 = .accepted →
        trace.session.outbox.appendAsserts id events = true) := by
  unfold OrderedProducerSession.append
  by_cases empty : events = 0
  · rw [if_pos empty]
    exact ⟨sound, fun same => by cases same⟩
  rw [if_neg empty]
  cases active : trace.session.requirePhase generation .ready with
  | accepted =>
      obtain ⟨_, _, ready⟩ := requirePhase_eq_accepted.1 active
      by_cases full : trace.session.outbox.canAppend = false
      · simp only [full, if_true]
        exact ⟨sound, fun same => by cases same⟩
      by_cases next : id = trace.session.outbox.nextTransactionId
      · have room : trace.session.outbox.canAppend = true := by simpa using full
        have positive := sound.outbox.next
        subst next
        simp only [room, Bool.true_eq_false, if_false, ne_eq, not_true]
        refine ⟨?_, fun _ => ?_⟩
        · exact sound.moved (sound.outbox.append room) sound.capacity
            (fun stuck => by rw [ready] at stuck; cases stuck) (Nat.le_refl _)
            (fun again => by rw [ready] at again; cases again)
            (fun notReady => absurd ready notReady) (fun _ => sound.ready ready)
        · simp only [appendAsserts, room, empty, decide_eq_true_eq, ne_eq, not_false_eq_true,
            and_true]
          omega
      · simp only [full, next, ne_eq, not_false_eq_true, if_true]
        exact ⟨sound, fun same => by cases same⟩
  | _ => exact ⟨sound, fun same => by cases same⟩

theorem acknowledgeThrough (sound : trace.Sound capacity) (generation id : Nat) :
    Sound capacity
        { session := (trace.session.acknowledgeThrough generation id).2
          claims := trace.claims } ∧
      ((trace.session.acknowledgeThrough generation id).1 = .accepted →
        popsCounted id trace.session.outbox.queue trace.session.outbox.pendingEvents = true) := by
  unfold OrderedProducerSession.acknowledgeThrough
  cases active : trace.session.requirePhase generation .ready with
  | accepted =>
      obtain ⟨_, _, ready⟩ := requirePhase_eq_accepted.1 active
      cases highwater : trace.session.validateHighwater id with
      | accepted =>
          obtain ⟨above, below⟩ := validateHighwater_eq_accepted.1 highwater
          have next := sound.outbox.next
          have behind := sound.ready ready
          unfold highestSubmittedTransactionId at below
          obtain ⟨represents, last, index, counted⟩ :=
            sound.outbox.acknowledgeThrough above (by omega)
          refine ⟨?_, fun _ => counted⟩
          refine sound.moved represents sound.capacity
            (fun stuck => by rw [ready] at stuck; cases stuck) (Nat.le_refl _)
            (fun again => by rw [ready] at again; cases again)
            (fun notReady => absurd ready notReady) ?_
          intro _
          dsimp only
          rw [last, index]
          omega
      | _ => exact ⟨sound.enterRecovery (fun same => by cases same), fun same => by cases same⟩
  | _ => exact ⟨sound, fun same => by cases same⟩

theorem reject (sound : trace.Sound capacity) (generation id : Nat)
    (disposition : ProducerRecoveryDisposition) :
    Sound capacity
      { session := (trace.session.reject generation id disposition).2, claims := trace.claims } := by
  unfold OrderedProducerSession.reject
  cases trace.session.requirePhase generation .ready with
  | accepted =>
      cases present : trace.session.outbox.contains id with
      | true => exact sound.enterRecovery (fun _ => present)
      | false => exact sound.enterRecovery (fun same => by cases same)
  | _ => exact sound

theorem repairRejected (sound : trace.Sound capacity) (payload : Payload) (events : Nat)
    (layer : String) :
    Sound capacity
        { session := (trace.session.repairRejected payload events layer).2
          claims := trace.claims } ∧
      ((trace.session.repairRejected payload events layer).1 = .accepted →
        trace.session.outbox.replaceAsserts trace.session.rejectedTransactionId events = true) := by
  unfold OrderedProducerSession.repairRejected
  by_cases empty : events = 0
  · rw [if_pos empty]
    exact ⟨sound, fun same => by cases same⟩
  by_cases recovering : trace.session.phase = .recoveryRequired
  · by_cases recoverable : trace.session.recoveryDisposition = .recoverableConflict
    · have present := sound.recoverable recovering recoverable
      have between := (sound.outbox.contains_iff_between _).1 present
      simp only [empty, recovering, recoverable, if_false, ne_eq, not_true]
      refine ⟨?_, fun _ => ?_⟩
      · exact sound.moved (sound.outbox.replace present) sound.capacity
          (fun stuck => nomatch stuck) (Nat.le_refl _) (fun again => nomatch again)
          (fun _ => sound.parked (by rw [recovering]; decide)) (fun ready => nomatch ready)
      · have counted :=
          (totalEvents_replaceEntry ⟨trace.session.rejectedTransactionId, payload,
            events, layer⟩ ((contains_iff _ _).1 present)).1
        rw [← sound.outbox.pending] at counted
        simp only [replaceAsserts, present, empty, counted, decide_eq_true_eq, ne_eq,
          not_false_eq_true, and_true]
        omega
    · simp only [empty, recovering, recoverable, if_false, ne_eq, not_true, not_false_eq_true,
        if_true]
      exact ⟨sound, fun same => by cases same⟩
  · simp only [empty, recovering, if_false, ne_eq, not_false_eq_true, if_true]
    exact ⟨sound, fun same => by cases same⟩

theorem resetSession (sound : trace.Sound capacity) :
    Sound capacity { session := trace.session.resetSession, claims := trace.claims } :=
  sound.moved (Represents.resetSession _) sound.capacity (fun stuck => nomatch stuck)
    (Nat.le_succ _) (fun again => nomatch again) (fun _ => rfl) (fun ready => nomatch ready)

theorem drainAcknowledgedEventCount (sound : trace.Sound capacity) :
    Sound capacity
      { session := trace.session.drainAcknowledgedEventCount.2, claims := trace.claims } where
  outbox := ⟨sound.outbox.consecutive, sound.outbox.next, sound.outbox.cursor,
    sound.outbox.pending, sound.outbox.bounded⟩
  capacity := sound.capacity
  recoverable := sound.recoverable
  started := sound.started
  waiting := sound.waiting
  parked := sound.parked
  ready := sound.ready
  increasing := sound.increasing

end Sound

/-! ### Handing out entries -/

section Claims

variable {capacity : Nat} {trace : ProducerTrace Payload}

theorem claimedIds_append (claims : List (Nat × Nat)) (session : OrderedProducerSession Payload)
    (claim : Nat × Nat) (generation : Nat) :
    claimedIds ⟨session, claims ++ [claim]⟩ generation =
      claimedIds ⟨session, claims⟩ generation ++
        if claim.1 = generation then [claim.2] else [] := by
  unfold claimedIds
  dsimp only
  rw [List.filter_append, List.map_append, List.filter_singleton]
  by_cases same : claim.1 = generation <;> simp [same]

theorem le_lastClaimed {generation id : Nat}
    (increasing : (trace.claimedIds generation).Pairwise (· < ·))
    (member : id ∈ trace.claimedIds generation) : id ≤ trace.lastClaimed generation := by
  unfold lastClaimed
  rcases List.eq_nil_or_concat (trace.claimedIds generation) with none | ⟨before, last, split⟩
  · rw [none] at member
    cases member
  · rw [List.concat_eq_append] at split
    rw [split] at increasing member ⊢
    rw [List.getLast?_concat, Option.getD_some]
    rcases List.mem_append.1 member with earlier | same
    · have below := (List.pairwise_append.1 increasing).2.2 id earlier last
        (List.mem_singleton_self last)
      exact Nat.le_of_lt below
    · exact Nat.le_of_eq (List.mem_singleton.1 same)

theorem Sound.claimNextUnsent (sound : trace.Sound capacity) (generation : Nat) :
    Sound capacity
        { session := (trace.session.claimNextUnsent generation).2.2
          claims := trace.claims ++ ((trace.session.claimNextUnsent generation).2.1.map
            fun entry => (trace.session.generation, entry.transactionId)).toList } ∧
      ∀ entry, (trace.session.claimNextUnsent generation).2.1 = some entry →
        generation = trace.session.generation ∧
          entry.transactionId = max trace.session.outbox.lastAcknowledgedTransactionId
            (trace.lastClaimed trace.session.generation) + 1 := by
  have same : Sound capacity
      { session := trace.session, claims := trace.claims ++ [] } := by
    rw [List.append_nil]
    exact sound
  unfold OrderedProducerSession.claimNextUnsent
  cases active : trace.session.requirePhase generation .ready with
  | accepted =>
      obtain ⟨current, _, ready⟩ := requirePhase_eq_accepted.1 active
      have behind := sound.ready ready
      cases found : trace.session.outbox.claimNextUnsent with
      | none => exact ⟨same, fun _ impossible => by cases impossible⟩
      | some handed =>
          obtain ⟨entry, outbox⟩ := handed
          obtain ⟨id, moved, represents⟩ := sound.outbox.claimNextUnsent found
          subst moved
          have next : entry.transactionId =
              max trace.session.outbox.lastAcknowledgedTransactionId
                (trace.lastClaimed trace.session.generation) + 1 := by omega
          have later : ∀ earlier ∈ trace.claimedIds trace.session.generation,
              earlier < entry.transactionId := by
            intro earlier member
            have below := le_lastClaimed (sound.increasing _) member
            omega
          refine ⟨?_, fun _ same => by cases same; exact ⟨current, next⟩⟩
          constructor
          · exact represents
          · exact sound.capacity
          · exact sound.recoverable
          · intro claim member
            rcases List.mem_append.1 member with before | here
            · exact sound.started claim before
            · exact Nat.le_of_eq (congrArg Prod.fst (List.mem_singleton.1 here))
          · intro waiting
            rw [ready] at waiting
            cases waiting
          · exact fun notReady => absurd ready notReady
          · intro _
            dsimp only [Option.map_some, Option.toList_some]
            unfold lastClaimed
            rw [claimedIds_append, if_pos rfl, List.getLast?_concat, Option.getD_some]
            omega
          · intro other
            dsimp only [Option.map_some, Option.toList_some]
            rw [claimedIds_append]
            by_cases here : trace.session.generation = other
            · subst here
              rw [if_pos rfl]
              refine List.pairwise_append.2
                ⟨sound.increasing _, List.pairwise_singleton _ _, ?_⟩
              intro earlier member last lastMember
              rw [List.mem_singleton.1 lastMember]
              exact later earlier member
            · rw [if_neg here, List.append_nil]
              exact sound.increasing other
  | _ => exact ⟨same, fun _ impossible => by cases impossible⟩

end Claims

/-! ### Every run -/

/-- A call for another generation leaves the session as it is. -/
theorem perform_stale {session : OrderedProducerSession Payload} {call : ProducerCall Payload}
    {generation : Nat} (carries : call.generation = some generation)
    (stale : generation ≠ session.generation) : call.perform session = session := by
  have refused : ∀ required, session.requirePhase generation required = .staleGeneration := by
    intro required
    unfold requirePhase
    rw [if_pos stale]
  cases call with
  | acceptHello other committedThrough =>
      cases carries
      simp only [ProducerCall.perform, OrderedProducerSession.acceptHello, refused]
  | disconnect other =>
      cases carries
      simp only [ProducerCall.perform, OrderedProducerSession.disconnect, stale, ne_eq,
        not_false_eq_true, if_true]
  | append other id payload events layer =>
      cases carries
      simp only [ProducerCall.perform, OrderedProducerSession.append, refused]
      split <;> rfl
  | claimNextUnsent other =>
      cases carries
      simp only [ProducerCall.perform, OrderedProducerSession.claimNextUnsent, refused]
  | acknowledgeThrough other id =>
      cases carries
      simp only [ProducerCall.perform, OrderedProducerSession.acknowledgeThrough, refused]
  | reject other id disposition =>
      cases carries
      simp only [ProducerCall.perform, OrderedProducerSession.reject, refused]
  | _ => cases carries

theorem sound_create (capacity : Nat) :
    Sound capacity ({ session := .create capacity } : ProducerTrace Payload) where
  outbox := ⟨rfl, rfl, Nat.le_refl _, rfl, Nat.zero_le _⟩
  capacity := rfl
  recoverable := fun stuck => nomatch stuck
  started := fun _ member => nomatch member
  waiting := fun again => nomatch again
  parked := fun _ => rfl
  ready := fun ready => nomatch ready
  increasing := fun _ => List.Pairwise.nil

/-- A call keeps the invariant, trips no assert and hands out the id after the last acknowledged
or handed out one. -/
theorem Sound.call {capacity : Nat} {trace : ProducerTrace Payload} (sound : trace.Sound capacity)
    (call : ProducerCall Payload) :
    (trace.call call).Sound capacity ∧ call.AssertsHold trace.session ∧
      ∀ entry, call.claimed trace.session = some entry →
        entry.transactionId = max trace.session.outbox.lastAcknowledgedTransactionId
          (trace.lastClaimed trace.session.generation) + 1 := by
  have quiet : ∀ {after : OrderedProducerSession Payload},
      Sound capacity { session := after, claims := trace.claims } →
      Sound capacity { session := after, claims := trace.claims ++ [] } := by
    intro after keeps
    rw [List.append_nil]
    exact keeps
  have silent : ∀ entry : OrderedOutboxEntry Payload, none = some entry →
      entry.transactionId = max trace.session.outbox.lastAcknowledgedTransactionId
        (trace.lastClaimed trace.session.generation) + 1 := fun _ impossible => nomatch impossible
  cases call with
  | beginConnection => exact ⟨quiet sound.beginConnection, trivial, silent⟩
  | acceptHello generation committedThrough =>
      obtain ⟨keeps, asserts⟩ := sound.acceptHello generation committedThrough
      exact ⟨quiet keeps, asserts, silent⟩
  | disconnect generation => exact ⟨quiet (sound.disconnect generation), trivial, silent⟩
  | append generation id payload events layer =>
      obtain ⟨keeps, asserts⟩ := sound.append generation id payload events layer
      exact ⟨quiet keeps, asserts, silent⟩
  | claimNextUnsent generation =>
      obtain ⟨keeps, next⟩ := sound.claimNextUnsent generation
      exact ⟨keeps, trivial, fun entry handed => (next entry handed).2⟩
  | acknowledgeThrough generation id =>
      obtain ⟨keeps, asserts⟩ := sound.acknowledgeThrough generation id
      exact ⟨quiet keeps, asserts, silent⟩
  | reject generation id disposition =>
      exact ⟨quiet (sound.reject generation id disposition), trivial, silent⟩
  | repairRejected payload events layer =>
      obtain ⟨keeps, asserts⟩ := sound.repairRejected payload events layer
      exact ⟨quiet keeps, asserts, silent⟩
  | resetSession => exact ⟨quiet sound.resetSession, trivial, silent⟩
  | drainAcknowledgedEventCount =>
      exact ⟨quiet sound.drainAcknowledgedEventCount, trivial, silent⟩

theorem Sound.calls {capacity : Nat} (calls : List (ProducerCall Payload))
    {trace : ProducerTrace Payload} (sound : trace.Sound capacity) :
    (calls.foldl ProducerTrace.call trace).Sound capacity := by
  induction calls generalizing trace with
  | nil => exact sound
  | cons first rest ih => exact ih (sound.call first).1

theorem sound_run (capacity : Nat) (calls : List (ProducerCall Payload)) :
    (run capacity calls).Sound capacity :=
  (sound_create capacity).calls calls

theorem Sound.represents {capacity : Nat} {trace : ProducerTrace Payload}
    (sound : trace.Sound capacity) : trace.session.Represents where
  ids := by
    have next := sound.outbox.next
    have length : trace.session.outbox.nextTransactionId -
        (trace.session.outbox.lastAcknowledgedTransactionId + 1) =
          trace.session.outbox.queue.length := by omega
    rw [length]
    exact sound.outbox.consecutive
  acknowledged := by
    have next := sound.outbox.next
    omega
  cursor := sound.outbox.cursor
  pending := sound.outbox.pending
  bounded := sound.outbox.bounded
  recoverable := sound.recoverable

/-- What a caller can rely on after any calls: the representation invariant, a capacity that the
queue respects, and for every next call that no assert of the storage fails, that nothing changes
when its generation is stale, and that an entry it hands out has the id after the last one that was
acknowledged or handed out in this generation. -/
structure Orderly (capacity : Nat) (trace : ProducerTrace Payload) : Prop where
  represents : trace.session.Represents
  capacity : trace.session.outbox.capacity = capacity ∧ 0 < capacity
  asserts : ∀ call : ProducerCall Payload, call.AssertsHold trace.session
  stale : ∀ (call : ProducerCall Payload) (generation : Nat), call.generation = some generation →
    generation ≠ trace.session.generation → call.perform trace.session = trace.session
  next : ∀ (call : ProducerCall Payload) (entry : OrderedOutboxEntry Payload),
    call.claimed trace.session = some entry →
      entry.transactionId = max trace.session.outbox.lastAcknowledgedTransactionId
        (trace.lastClaimed trace.session.generation) + 1
  increasing : ∀ generation, (trace.claimedIds generation).Pairwise (· < ·)

/-- Every run of calls on a validly configured session is orderly. -/
theorem run_orderly (capacity : Nat)
    (valid : OrderedProducerSession.isValidConfiguration capacity = true)
    (calls : List (ProducerCall Payload)) : (run capacity calls).Orderly capacity where
  represents := (sound_run capacity calls).represents
  capacity := ⟨(sound_run capacity calls).capacity,
    Nat.pos_of_ne_zero (by simpa [isValidConfiguration] using valid)⟩
  asserts := fun call => ((sound_run capacity calls).call call).2.1
  stale := fun _ _ carries stale => perform_stale carries stale
  next := fun call => ((sound_run capacity calls).call call).2.2
  increasing := (sound_run capacity calls).increasing

/-- Four transactions, three of them written on a first connection.  The second connection resends
the first; then the server acknowledges all three, which arrived late on the first. -/
def acknowledgedAhead : List (ProducerCall Nat) :=
  [.beginConnection, .acceptHello 1 0, .append 1 1 10 1 "a", .append 1 2 20 1 "a",
    .append 1 3 30 1 "a", .append 1 4 40 1 "a", .claimNextUnsent 1, .claimNextUnsent 1,
    .claimNextUnsent 1, .disconnect 1, .beginConnection, .acceptHello 2 0, .claimNextUnsent 2,
    .acknowledgeThrough 2 3, .claimNextUnsent 2]

theorem run_orderly_acknowledgedAhead : (run 4 acknowledgedAhead).Orderly 4 :=
  run_orderly 4 rfl acknowledgedAhead

/-- The ids of one generation need not be consecutive. -/
theorem not_consecutive_acknowledgedAhead :
    ¬ ∀ (capacity : Nat) (calls : List (ProducerCall Nat)) (generation : Nat),
      OrderedProducerSession.isValidConfiguration capacity = true →
        ∃ first, (run capacity calls).claimedIds generation =
          List.range' first ((run capacity calls).claimedIds generation).length := by
  intro consecutive
  obtain ⟨first, ids⟩ := consecutive 4 acknowledgedAhead 2 rfl
  have handed : (run 4 acknowledgedAhead).claimedIds 2 = [1, 4] := by decide
  rw [handed] at ids
  simp only [List.length_cons, List.length_nil, List.range'_succ, List.range'_zero,
    List.cons.injEq] at ids
  omega

end ProducerTrace

end UsdConnect
