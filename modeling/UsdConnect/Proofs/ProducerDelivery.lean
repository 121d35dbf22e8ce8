/-
Purpose: Exactly-once delivery of one producer session over every interleaving of client, network
  and server steps, and the repair of a rejected transaction that breaks it.
Trusted boundary: none
Main exports: ExactlyOnce, RepairsSafe, exactlyOnce_of_repairsSafe
-/
import UsdConnect.Proofs.DeliveryServer
import Mathlib.Data.List.Nodup
import Mathlib.Data.List.TakeWhile

namespace UsdConnect

namespace DeliverySystem

variable {Payload : Type}

/-! ### The property -/

/-- Exactly-once delivery in one state. -/
structure ExactlyOnce (producer : Producer) (system : DeliverySystem Payload) : Prop where
  /-- The committed ids are a contiguous prefix. -/
  committedPrefix : (system.log producer).map (·.txnId) = List.range' 1 (system.durable producer)
  /-- What is applied is what is logged, in the same order and number. -/
  appliedOnce : system.applied producer = system.log producer
  /-- The dropped entries are the acknowledged prefix. -/
  acknowledgedPrefix : system.acknowledged.map (·.transactionId) =
    List.range' 1 system.session.outbox.lastAcknowledgedTransactionId
  /-- A dropped entry is logged with the payload the outbox held. -/
  acknowledgedLogged : ∀ entry ∈ system.acknowledged,
    (⟨producer, entry.transactionId, entry.payload⟩ : LoggedTransaction Payload) ∈
      system.log producer
  /-- The client never runs ahead of the store. -/
  acknowledgedDurable :
    system.session.outbox.lastAcknowledgedTransactionId ≤ system.durable producer
  /-- A reconnect is never refused over the high-water mark. -/
  helloAccepted : system.session.phase = .awaitingHello → ∀ committedThrough,
    Reply.helloOk committedThrough ∈ (system.connection system.session.generation).replies →
      (system.session.acceptHello system.session.generation committedThrough).1 = .accepted
  /-- Nothing submitted is lost: the outbox holds every id after the acknowledged ones. -/
  pendingKept : system.session.outbox.queue.map (·.transactionId) =
    List.range' (system.session.outbox.lastAcknowledgedTransactionId + 1)
      (system.session.outbox.highestSubmittedTransactionId -
        system.session.outbox.lastAcknowledgedTransactionId)

/-- A repair is safe when the rejected id is neither waiting on a connection nor committed with
another payload than the repaired one. -/
def RepairSafe (producer : Producer) (system : DeliverySystem Payload) (payload : Payload) : Prop :=
  (∀ generation, ∀ frame ∈ (system.connection generation).frames,
    frame.txnId = system.session.rejectedTransactionId → frame.payload = payload) ∧
  (system.session.rejectedTransactionId ≤ system.durable producer →
    (⟨producer, system.session.rejectedTransactionId, payload⟩ : LoggedTransaction Payload) ∈
      system.log producer)

/-- The condition on one step: only a repair that will be accepted is restricted. -/
def StepSafe (producer : Producer) (system : DeliverySystem Payload) :
    DeliveryAction Payload → Prop
  | .repair payload events _ =>
      events ≠ 0 → system.session.phase = .recoveryRequired →
        system.session.recoveryDisposition = .recoverableConflict →
          system.RepairSafe producer payload
  | _ => True

/-- Every repair of a run is safe in the state in which it happens. -/
def RepairsSafe (producer : Producer) :
    DeliverySystem Payload → List (DeliveryAction Payload) → Prop
  | _, [] => True
  | system, action :: rest =>
      system.StepSafe producer action ∧ RepairsSafe producer (system.perform producer action) rest

/-! ### The invariant -/

/-- A reply acknowledges nothing beyond the given progress. -/
def ReplyWithin (progress : Nat) : Reply → Prop
  | .helloOk committedThrough => committedThrough ≤ progress
  | .acknowledged txnId => txnId ≤ progress
  | .rejected _ _ => True

theorem ReplyWithin.mono {first second : Nat} {reply : Reply} (within : ReplyWithin first reply)
    (le : first ≤ second) : ReplyWithin second reply := by
  cases reply with
  | helloOk committedThrough => exact Nat.le_trans within le
  | acknowledged txnId => exact Nat.le_trans within le
  | rejected txnId disposition => trivial

/-- The part of the invariant that no step can break. -/
structure Consistent (producer : Producer) (system : DeliverySystem Payload) : Prop where
  coherent : system.server.journal.CacheCoherent
  applied : system.server.scene = storedRecords system.server
  logIds : loggedIds producer (storedRecords system.server) =
    List.range' 1 (storedProgress system.server producer)
  acknowledgedIds : system.acknowledged.map (·.transactionId) =
    List.range' 1 system.session.outbox.lastAcknowledgedTransactionId
  queueIds : system.session.outbox.queue.map (·.transactionId) =
    List.range' (system.session.outbox.lastAcknowledgedTransactionId + 1)
      (system.session.outbox.nextTransactionId - 1 -
        system.session.outbox.lastAcknowledgedTransactionId)
  acknowledgedLe : system.session.outbox.lastAcknowledgedTransactionId ≤
    storedProgress system.server producer
  durableLt : storedProgress system.server producer < system.session.outbox.nextTransactionId
  framesSubmitted : ∀ generation, ∀ frame ∈ (system.connection generation).frames,
    frame.txnId < system.session.outbox.nextTransactionId
  repliesWithin : ∀ generation, ∀ reply ∈ (system.connection generation).replies,
    ReplyWithin (storedProgress system.server producer) reply
  helloFresh : system.session.phase = .awaitingHello → ∀ committedThrough,
    Reply.helloOk committedThrough ∈ (system.connection system.session.generation).replies →
      system.session.outbox.lastAcknowledgedTransactionId ≤ committedThrough
  unopened : ∀ generation, system.session.generation < generation →
    system.connection generation = {}

/-- The part that a repair can break: one id never stands for two payloads. -/
structure Agreeing (producer : Producer) (system : DeliverySystem Payload) : Prop where
  queueLogged : ∀ entry ∈ system.session.outbox.queue,
    entry.transactionId ≤ storedProgress system.server producer →
      (⟨producer, entry.transactionId, entry.payload⟩ : LoggedTransaction Payload) ∈
        storedRecords system.server
  framesAgree : ∀ generation, ∀ frame ∈ (system.connection generation).frames,
    ∀ entry ∈ system.session.outbox.queue,
      entry.transactionId = frame.txnId → entry.payload = frame.payload
  acknowledgedLogged : ∀ entry ∈ system.acknowledged,
    (⟨producer, entry.transactionId, entry.payload⟩ : LoggedTransaction Payload) ∈
      storedRecords system.server

/-- Both parts of the invariant. -/
def Sound (producer : Producer) (system : DeliverySystem Payload) : Prop :=
  system.Consistent producer ∧ system.Agreeing producer

theorem sound_initial (producer : Producer) (capacity : Nat) :
    (initial capacity : DeliverySystem Payload).Sound producer := by
  constructor
  · refine
      { coherent := fun _ _ hit => nomatch hit
        applied := rfl
        logIds := rfl
        acknowledgedIds := rfl
        queueIds := rfl
        acknowledgedLe := Nat.le_refl _
        durableLt := Nat.zero_lt_one
        framesSubmitted := fun _ _ member => nomatch member
        repliesWithin := fun _ _ member => nomatch member
        helloFresh := fun waiting => nomatch waiting
        unopened := fun _ _ => rfl }
  · exact ⟨fun _ member => (nomatch member), fun _ _ member => (nomatch member),
      fun _ member => (nomatch member)⟩

/-- The invariant gives the property. -/
theorem Sound.exactlyOnce {producer : Producer} {system : DeliverySystem Payload}
    (sound : system.Sound producer) : system.ExactlyOnce producer := by
  obtain ⟨consistent, agreeing⟩ := sound
  refine
    { committedPrefix := consistent.logIds
      appliedOnce := ?_
      acknowledgedPrefix := consistent.acknowledgedIds
      acknowledgedLogged := ?_
      acknowledgedDurable := consistent.acknowledgedLe
      helloAccepted := ?_
      pendingKept := consistent.queueIds }
  · simp only [DeliverySystem.applied, log, consistent.applied, storedRecords]
  · intro entry member
    have logged := agreeing.acknowledgedLogged entry member
    exact List.mem_filter.2 ⟨logged, by simp⟩
  · intro waiting committedThrough offered
    have fresh := consistent.helloFresh waiting committedThrough offered
    have within : committedThrough ≤ storedProgress system.server producer :=
      consistent.repliesWithin _ _ offered
    have durableLt := consistent.durableLt
    have phase : system.session.requirePhase system.session.generation .awaitingHello =
        .accepted :=
      OrderedProducerSession.requirePhase_eq_accepted.2 ⟨rfl, by rw [waiting]; decide, waiting⟩
    have highwater : system.session.validateHighwater committedThrough = .accepted :=
      OrderedProducerSession.validateHighwater_eq_accepted.2
        ⟨fresh, by unfold OrderedOutboxStorage.highestSubmittedTransactionId; omega⟩
    simp only [OrderedProducerSession.acceptHello, phase, highwater]

/-! ### What single effects preserve

Every action of the system is a chain of the effects below: a connection loses or repeats what it
holds, a frame or a reply is pushed, the session moves without touching its queue, the outbox
grows, shrinks or is repaired, and the server advances.
-/

section Effects

variable {producer : Producer} {system : DeliverySystem Payload}

theorem withConnection_same (generation : Nat) (connection : Connection Payload) :
    (system.withConnection generation connection).connection generation = connection := by
  simp [withConnection]

theorem withConnection_other {generation other : Nat} (connection : Connection Payload)
    (different : other ≠ generation) :
    (system.withConnection generation connection).connection other = system.connection other := by
  simp [withConnection, different]

/-- Two entries of the outbox never share an id. -/
theorem Consistent.entry_unique (consistent : system.Consistent producer)
    {first second : OrderedOutboxEntry Payload}
    (one : first ∈ system.session.outbox.queue) (two : second ∈ system.session.outbox.queue)
    (same : first.transactionId = second.transactionId) : first = second := by
  have distinct : (system.session.outbox.queue.map (·.transactionId)).Nodup := by
    rw [consistent.queueIds]
    exact List.nodup_range'
  exact List.inj_on_of_nodup_map distinct one two same

/-- A reply the server may put on a connection. -/
def ReplyAllowed (producer : Producer) (system : DeliverySystem Payload) (reply : Reply) : Prop :=
  ReplyWithin (storedProgress system.server producer) reply ∧
  ∀ committedThrough, reply = .helloOk committedThrough →
    system.session.outbox.lastAcknowledgedTransactionId ≤ committedThrough

/-- One connection changes: each frame is old or an entry of the outbox, each reply is old or
allowed. -/
theorem Sound.withConnection (sound : system.Sound producer) {generation : Nat}
    {connection : Connection Payload}
    (opened : generation ≤ system.session.generation)
    (frames : ∀ frame ∈ connection.frames, frame ∈ (system.connection generation).frames ∨
      ∃ entry ∈ system.session.outbox.queue, frame = ⟨entry.transactionId, entry.payload⟩)
    (replies : ∀ reply ∈ connection.replies, reply ∈ (system.connection generation).replies ∨
      system.ReplyAllowed producer reply) :
    (system.withConnection generation connection).Sound producer := by
  obtain ⟨consistent, agreeing⟩ := sound
  -- what a frame or a reply of any connection can be afterwards
  have anyFrame : ∀ other, ∀ frame ∈
      ((system.withConnection generation connection).connection other).frames,
      frame ∈ (system.connection other).frames ∨
        ∃ entry ∈ system.session.outbox.queue, frame = ⟨entry.transactionId, entry.payload⟩ := by
    intro other frame member
    by_cases same : other = generation
    · subst same
      rw [withConnection_same] at member
      exact frames frame member
    · rw [withConnection_other connection same] at member
      exact Or.inl member
  have anyReply : ∀ other, ∀ reply ∈
      ((system.withConnection generation connection).connection other).replies,
      reply ∈ (system.connection other).replies ∨ system.ReplyAllowed producer reply := by
    intro other reply member
    by_cases same : other = generation
    · subst same
      rw [withConnection_same] at member
      exact replies reply member
    · rw [withConnection_other connection same] at member
      exact Or.inl member
  constructor
  · refine
      { consistent with
        framesSubmitted := ?_
        repliesWithin := ?_
        helloFresh := ?_
        unopened := ?_ }
    · intro other frame member
      rcases anyFrame other frame member with old | ⟨entry, queued, rfl⟩
      · exact consistent.framesSubmitted other frame old
      · have known : entry.transactionId ∈ system.session.outbox.queue.map (·.transactionId) :=
          List.mem_map.2 ⟨entry, queued, rfl⟩
        rw [consistent.queueIds, List.mem_range'_1] at known
        show entry.transactionId < system.session.outbox.nextTransactionId
        omega
    · intro other reply member
      rcases anyReply other reply member with old | allowed
      · exact consistent.repliesWithin other reply old
      · exact allowed.1
    · intro waiting committedThrough offered
      rcases anyReply _ _ offered with old | allowed
      · exact consistent.helloFresh waiting committedThrough old
      · exact allowed.2 committedThrough rfl
    · intro other later
      have different : other ≠ generation := by
        intro same
        subst same
        exact absurd later (Nat.not_lt.2 opened)
      rw [withConnection_other connection different]
      exact consistent.unopened other later
  · refine { agreeing with framesAgree := ?_ }
    intro other frame member entry queued same
    rcases anyFrame other frame member with old | ⟨sent, sentQueued, rfl⟩
    · exact agreeing.framesAgree other frame old entry queued same
    · rw [consistent.entry_unique queued sentQueued same]

/-- A connection that keeps only frames and replies it already had. -/
theorem Sound.narrow (sound : system.Sound producer) (generation : Nat)
    {connection : Connection Payload}
    (frames : connection.frames ⊆ (system.connection generation).frames)
    (replies : connection.replies ⊆ (system.connection generation).replies) :
    (system.withConnection generation connection).Sound producer := by
  rcases Nat.lt_or_ge system.session.generation generation with later | opened
  · -- an unopened connection is empty and stays so
    have empty := sound.1.unopened generation later
    have unchanged : connection = system.connection generation := by
      rw [empty] at frames replies ⊢
      have frameless : connection.frames = [] := List.subset_nil.1 frames
      have replyless : connection.replies = [] := List.subset_nil.1 replies
      obtain ⟨heldFrames, heldReplies⟩ := connection
      subst frameless replyless
      rfl
    rw [unchanged]
    have same : system.withConnection generation (system.connection generation) = system := by
      simp [DeliverySystem.withConnection]
    rwa [same]
  · exact sound.withConnection opened (fun frame member => Or.inl (frames member))
      (fun reply member => Or.inl (replies member))

theorem Sound.pushFrame (sound : system.Sound producer) {generation : Nat}
    (opened : generation ≤ system.session.generation) {entry : OrderedOutboxEntry Payload}
    (queued : entry ∈ system.session.outbox.queue) :
    (system.pushFrame generation ⟨entry.transactionId, entry.payload⟩).Sound producer := by
  refine sound.withConnection opened ?_ (fun reply member => Or.inl member)
  intro frame member
  rcases List.mem_append.1 member with old | new
  · exact Or.inl old
  · exact Or.inr ⟨entry, queued, List.mem_singleton.1 new⟩

theorem Sound.pushReply (sound : system.Sound producer) {generation : Nat}
    (opened : generation ≤ system.session.generation) {reply : Reply}
    (allowed : system.ReplyAllowed producer reply) :
    (system.pushReply generation reply).Sound producer := by
  refine sound.withConnection opened (fun frame member => Or.inl member) ?_
  intro other member
  rcases List.mem_append.1 member with old | new
  · exact Or.inl old
  · rw [List.mem_singleton.1 new]
    exact Or.inr allowed

/-- The session moves without touching queue and counters; only a new generation may wait for a
hello again. -/
theorem Sound.moveSession (sound : system.Sound producer)
    {session : OrderedProducerSession Payload}
    (same : OrderedProducerSession.SameOutbox system.session session) :
    ({ system with session := session } : DeliverySystem Payload).Sound producer := by
  obtain ⟨queue, nextTransactionId, lastAcknowledged, generation, waiting⟩ := same
  obtain ⟨consistent, agreeing⟩ := sound
  constructor
  · refine
      { coherent := consistent.coherent
        applied := consistent.applied
        logIds := consistent.logIds
        acknowledgedIds := lastAcknowledged ▸ consistent.acknowledgedIds
        queueIds := ?_
        acknowledgedLe := lastAcknowledged ▸ consistent.acknowledgedLe
        durableLt := nextTransactionId ▸ consistent.durableLt
        framesSubmitted := nextTransactionId ▸ consistent.framesSubmitted
        repliesWithin := consistent.repliesWithin
        helloFresh := ?_
        unopened := fun other later =>
          consistent.unopened other (Nat.lt_of_le_of_lt generation later) }
    · simp only [queue, nextTransactionId, lastAcknowledged]
      exact consistent.queueIds
    · intro nowWaiting committedThrough offered
      simp only [lastAcknowledged]
      rcases Nat.lt_or_ge system.session.generation session.generation with newer | older
      · -- a new generation starts on a connection that holds nothing yet
        have empty := consistent.unopened _ newer
        simp only [empty] at offered
        exact absurd offered List.not_mem_nil
      · have current : session.generation = system.session.generation :=
          Nat.le_antisymm older generation
        simp only [current] at offered
        exact consistent.helloFresh (waiting nowWaiting current) committedThrough offered
  · refine
      { queueLogged := ?_
        framesAgree := ?_
        acknowledgedLogged := agreeing.acknowledgedLogged }
    · simp only [queue]
      exact agreeing.queueLogged
    · simp only [queue]
      exact agreeing.framesAgree

/-- The server advances by requests of this session's frames and of other producers. -/
theorem Sound.advance (sound : system.Sound producer)
    {requests : List (TransactionRequest (Submission Payload))} {server : DeliveryServer Payload}
    (advance : Advance requests system.server server) (coherent : server.journal.CacheCoherent)
    (submitted : ∀ request ∈ requests, request.producer = producer →
      request.txnId < system.session.outbox.nextTransactionId)
    (agree : ∀ request ∈ requests, request.producer = producer →
      ∀ entry ∈ system.session.outbox.queue, entry.transactionId = request.txnId →
        entry.payload = request.body.payload) :
    ({ system with server := server } : DeliverySystem Payload).Sound producer := by
  obtain ⟨consistent, agreeing⟩ := sound
  obtain ⟨committed, scene, records, origin, ids⟩ := advance
  obtain ⟨count, range, progress⟩ := ids producer
  have grown : ∀ record ∈ storedRecords system.server, record ∈ storedRecords server := by
    intro record member
    rw [records]
    exact List.mem_append_left _ member
  -- every newly committed id of this session comes from one of its requests
  have requested : ∀ txnId ∈ List.range' (storedProgress system.server producer + 1) count,
      ∃ request ∈ requests, request.producer = producer ∧ request.txnId = txnId ∧
        loggedTransaction request ∈ storedRecords server := by
    intro txnId member
    rw [← range] at member
    obtain ⟨record, logged, own, same⟩ := mem_loggedIds.1 member
    obtain ⟨request, present, rfl⟩ := origin record logged
    refine ⟨request, present, own, same, ?_⟩
    rw [records]
    exact List.mem_append_right _ logged
  constructor
  · refine
      { consistent with
        coherent := coherent
        applied := ?_
        logIds := ?_
        acknowledgedLe := ?_
        durableLt := ?_
        repliesWithin := ?_ }
    · show server.scene = storedRecords server
      rw [scene, records, consistent.applied]
    · show loggedIds producer (storedRecords server) = _
      rw [records, loggedIds_append, consistent.logIds, range, progress,
        Nat.add_comm (storedProgress system.server producer) 1, List.range'_append_1]
    · have before := consistent.acknowledgedLe
      show system.session.outbox.lastAcknowledgedTransactionId ≤ storedProgress server producer
      omega
    · have before := consistent.durableLt
      show storedProgress server producer < system.session.outbox.nextTransactionId
      rcases Nat.eq_zero_or_pos count with none | some
      · omega
      · have last : storedProgress server producer ∈
            List.range' (storedProgress system.server producer + 1) count := by
          rw [List.mem_range'_1]
          omega
        obtain ⟨request, present, own, same, _⟩ := requested _ last
        rw [← same]
        exact submitted request present own
    · intro generation reply member
      refine (consistent.repliesWithin generation reply member).mono ?_
      show _ ≤ storedProgress server producer
      omega
  · refine
      { agreeing with
        queueLogged := ?_
        acknowledgedLogged := fun entry member =>
          grown _ (agreeing.acknowledgedLogged entry member) }
    intro entry queued reached
    replace reached : entry.transactionId ≤ storedProgress server producer := reached
    show _ ∈ storedRecords server
    rcases Nat.lt_or_ge (storedProgress system.server producer) entry.transactionId with new | old
    · have member : entry.transactionId ∈
          List.range' (storedProgress system.server producer + 1) count := by
        rw [List.mem_range'_1]
        omega
      obtain ⟨request, present, own, same, logged⟩ := requested _ member
      have payload := agree request present own entry queued same.symm
      rw [payload, ← same, ← own]
      exact logged
    · exact grown _ (agreeing.queueLogged entry queued old)

/-- An appended entry takes the next id, which no frame and no log record carries yet. -/
theorem Sound.appendEntry (sound : system.Sound producer) (payload : Payload) (events : Nat)
    (layer : String) :
    ({ system with
        session := { system.session with
          outbox := system.session.outbox.append system.session.outbox.nextTransactionId payload
            events layer } } : DeliverySystem Payload).Sound producer := by
  obtain ⟨consistent, agreeing⟩ := sound
  have acknowledgedLe := consistent.acknowledgedLe
  have durableLt := consistent.durableLt
  constructor
  · refine
      { consistent with
        queueIds := ?_
        durableLt := Nat.lt_succ_of_lt durableLt
        framesSubmitted := fun generation frame member =>
          Nat.lt_succ_of_lt (consistent.framesSubmitted generation frame member) }
    have longer : system.session.outbox.nextTransactionId + 1 - 1 -
        system.session.outbox.lastAcknowledgedTransactionId =
        system.session.outbox.nextTransactionId - 1 -
          system.session.outbox.lastAcknowledgedTransactionId + 1 := by omega
    simp only [OrderedOutboxStorage.append, longer, List.range'_concat, List.map_append,
      consistent.queueIds, List.map_cons, List.map_nil]
    congr 2
    omega
  · refine { agreeing with queueLogged := ?_, framesAgree := ?_ }
    · intro entry queued reached
      rcases List.mem_append.1 queued with old | new
      · exact agreeing.queueLogged entry old reached
      · rw [List.mem_singleton.1 new] at reached
        exact absurd durableLt (Nat.not_lt.2 reached)
    · intro generation frame member entry queued same
      rcases List.mem_append.1 queued with old | new
      · exact agreeing.framesAgree generation frame member entry old same
      · have submitted := consistent.framesSubmitted generation frame member
        rw [List.mem_singleton.1 new] at same
        simp only at same
        omega

/-- Popping a queue of consecutive ids through a mark: what leaves and what stays. -/
theorem takeWhile_dropWhile_ids (queue : List (OrderedOutboxEntry Payload))
    {start count : Nat} (mark : Nat) (ids : queue.map (·.transactionId) = List.range' start count)
    (above : start ≤ mark + 1) (below : mark < start + count) :
    (queue.takeWhile fun entry => decide (entry.transactionId ≤ mark)).map (·.transactionId) =
        List.range' start (mark + 1 - start) ∧
      (queue.dropWhile fun entry => decide (entry.transactionId ≤ mark)).map (·.transactionId) =
        List.range' (mark + 1) (start + count - (mark + 1)) := by
  induction queue generalizing start count with
  | nil =>
      have none : count = 0 := by simpa using (congrArg List.length ids).symm
      have reached : mark + 1 - start = 0 := by omega
      have left : start + count - (mark + 1) = 0 := by omega
      simp [reached, left]
  | cons front rest ih =>
      cases count with
      | zero => exact absurd ids (by simp)
      | succ count =>
          rw [List.map_cons, List.range'_succ, List.cons.injEq] at ids
          by_cases leaves : front.transactionId ≤ mark
          · obtain ⟨taken, dropped⟩ := ih ids.2 (by omega) (by omega)
            have more : mark + 1 - start = mark + 1 - (start + 1) + 1 := by omega
            rw [List.takeWhile_cons_of_pos (by simpa using leaves),
              List.dropWhile_cons_of_pos (by simpa using leaves), List.map_cons, taken, dropped,
              ids.1, more, List.range'_succ]
            exact ⟨rfl, by congr 1; omega⟩
          · have last : start = mark + 1 := by omega
            rw [List.takeWhile_cons_of_neg (by simpa using leaves),
              List.dropWhile_cons_of_neg (by simpa using leaves), List.map_cons, ids.1, ids.2,
              last]
            have rest_ : mark + 1 + (count + 1) - (mark + 1) = count + 1 := by omega
            rw [rest_, List.range'_succ]
            simp

/-- A high-water mark between the acknowledged and the durable progress drops logged entries. -/
theorem Sound.acknowledge (sound : system.Sound producer) {committedThrough : Nat}
    (above : system.session.outbox.lastAcknowledgedTransactionId ≤ committedThrough)
    (below : committedThrough ≤ storedProgress system.server producer)
    {session : OrderedProducerSession Payload}
    (outbox : session.outbox = system.session.outbox.acknowledgeThrough committedThrough)
    (generation : session.generation = system.session.generation)
    (ready : session.phase = .ready) :
    ({ system with
        session := session
        acknowledged := system.acknowledged ++
          system.session.outbox.queue.takeWhile fun entry =>
            decide (entry.transactionId ≤ committedThrough) } :
      DeliverySystem Payload).Sound producer := by
  obtain ⟨consistent, agreeing⟩ := sound
  have durableLt := consistent.durableLt
  obtain ⟨taken, dropped⟩ := takeWhile_dropWhile_ids system.session.outbox.queue
    committedThrough consistent.queueIds (by omega) (by omega)
  have lastAcknowledged : session.outbox.lastAcknowledgedTransactionId = committedThrough := by
    rw [outbox, OrderedOutboxStorage.acknowledgeThrough_lastAcknowledged]
    exact Nat.max_eq_right above
  have nextTransactionId : session.outbox.nextTransactionId =
      system.session.outbox.nextTransactionId := by
    rw [outbox, OrderedOutboxStorage.acknowledgeThrough_nextTransactionId]
    omega
  have queue : session.outbox.queue = system.session.outbox.queue.dropWhile fun entry =>
      decide (entry.transactionId ≤ committedThrough) := by
    rw [outbox, OrderedOutboxStorage.acknowledgeThrough_queue]
  have kept : session.outbox.queue ⊆ system.session.outbox.queue := by
    rw [queue]
    exact (List.dropWhile_sublist _).subset
  constructor
  · refine
      { coherent := consistent.coherent
        applied := consistent.applied
        logIds := consistent.logIds
        acknowledgedIds := ?_
        queueIds := ?_
        acknowledgedLe := lastAcknowledged ▸ below
        durableLt := nextTransactionId ▸ durableLt
        framesSubmitted := nextTransactionId ▸ consistent.framesSubmitted
        repliesWithin := consistent.repliesWithin
        helloFresh := fun waiting => nomatch ready.symm.trans waiting
        unopened := generation ▸ consistent.unopened }
    · simp only [List.map_append, consistent.acknowledgedIds, taken, lastAcknowledged,
        Nat.add_comm system.session.outbox.lastAcknowledgedTransactionId 1, List.range'_append_1]
      congr 1
      omega
    · simp only [queue, dropped, lastAcknowledged, nextTransactionId]
      congr 1
      omega
  · refine
      { queueLogged := fun entry queued => agreeing.queueLogged entry (kept queued)
        framesAgree := fun other frame member entry queued =>
          agreeing.framesAgree other frame member entry (kept queued)
        acknowledgedLogged := ?_ }
    intro entry member
    rcases List.mem_append.1 member with old | new
    · exact agreeing.acknowledgedLogged entry old
    · have popped : entry.transactionId ≤ committedThrough := by
        simpa using List.mem_takeWhile_imp new
      exact agreeing.queueLogged entry ((List.takeWhile_sublist _).subset new)
        (Nat.le_trans popped below)

/-- A safe repair exchanges one payload for another that nothing contradicts. -/
theorem Sound.repairEntry (sound : system.Sound producer) {payload : Payload}
    (safe : system.RepairSafe producer payload) {events : Nat} {layer : String}
    {session : OrderedProducerSession Payload}
    (outbox : session.outbox = system.session.outbox.replace system.session.rejectedTransactionId
      payload events layer)
    (generation : session.generation = system.session.generation)
    (disconnected : session.phase = .disconnected) :
    ({ system with session := session } : DeliverySystem Payload).Sound producer := by
  obtain ⟨consistent, agreeing⟩ := sound
  obtain ⟨framesSafe, logSafe⟩ := safe
  have replaced : ∀ entry ∈ session.outbox.queue,
      entry.transactionId = system.session.rejectedTransactionId ∧ entry.payload = payload ∨
        entry ∈ system.session.outbox.queue := by
    intro entry queued
    rw [outbox] at queued
    rcases OrderedOutboxStorage.mem_replaceEntry queued with rfl | old
    · exact Or.inl ⟨rfl, rfl⟩
    · exact Or.inr old
  constructor
  · refine
      { coherent := consistent.coherent
        applied := consistent.applied
        logIds := consistent.logIds
        acknowledgedIds := ?_
        queueIds := ?_
        acknowledgedLe := ?_
        durableLt := ?_
        framesSubmitted := ?_
        repliesWithin := consistent.repliesWithin
        helloFresh := fun waiting => nomatch disconnected.symm.trans waiting
        unopened := generation ▸ consistent.unopened }
    · simp only [outbox]
      exact consistent.acknowledgedIds
    · simp only [outbox, OrderedOutboxStorage.replace,
        OrderedOutboxStorage.map_transactionId_replaceEntry]
      exact consistent.queueIds
    · simp only [outbox]
      exact consistent.acknowledgedLe
    · simp only [outbox]
      exact consistent.durableLt
    · simp only [outbox]
      exact consistent.framesSubmitted
  · refine
      { queueLogged := ?_
        framesAgree := ?_
        acknowledgedLogged := agreeing.acknowledgedLogged }
    · intro entry queued reached
      rcases replaced entry queued with ⟨rejected, repaired⟩ | old
      · rw [rejected] at reached
        have logged := logSafe reached
        rw [rejected, repaired]
        exact (List.mem_filter.1 logged).1
      · exact agreeing.queueLogged entry old reached
    · intro other frame member entry queued same
      rcases replaced entry queued with ⟨rejected, repaired⟩ | old
      · rw [repaired]
        exact (framesSafe other frame member (same.symm.trans rejected)).symm
      · exact agreeing.framesAgree other frame member entry old same

/-! ### Requests and replies -/

/-- What the coordinator knows about a request taken from a connection or another producer. -/
def Queued (producer : Producer) (system : DeliverySystem Payload)
    (queued : QueuedRequest Payload) : Prop :=
  (∀ generation, queued.generation = some generation →
    generation ≤ system.session.generation ∧ queued.request.producer = producer) ∧
  (queued.request.producer = producer →
    queued.request.txnId < system.session.outbox.nextTransactionId ∧
    ∀ entry ∈ system.session.outbox.queue, entry.transactionId = queued.request.txnId →
      entry.payload = queued.request.body.payload)

theorem Sound.popFrame (sound : system.Sound producer) {generation : Nat} {frame : Frame Payload}
    {after : DeliverySystem Payload} (popped : system.popFrame generation = some (frame, after))
    (decision : Option CommitError) :
    after.Sound producer ∧ after.session = system.session ∧ after.server = system.server ∧
      system.Queued producer ⟨some generation, frameRequest producer frame decision⟩ := by
  unfold DeliverySystem.popFrame at popped
  cases waiting : (system.connection generation).frames with
  | nil =>
      rw [waiting] at popped
      exact absurd popped (by simp)
  | cons head rest =>
      rw [waiting] at popped
      obtain ⟨rfl, rfl⟩ := Prod.mk.inj (Option.some.inj popped)
      have member : head ∈ (system.connection generation).frames := by
        rw [waiting]
        exact List.mem_cons_self
      refine ⟨sound.narrow generation ?_ (List.Subset.refl _), rfl, rfl, ?_, ?_⟩
      · rw [waiting]
        exact List.subset_cons_self head rest
      · intro other same
        obtain rfl := Option.some.inj same
        refine ⟨?_, rfl⟩
        by_contra unopened
        have empty := sound.1.unopened generation (Nat.lt_of_not_le unopened)
        rw [empty] at member
        exact List.not_mem_nil member
      · intro _
        exact ⟨sound.1.framesSubmitted generation head member,
          fun entry queued same => sound.2.framesAgree generation head member entry queued same⟩

/-- Pulling the members of a group from their connections. -/
theorem Sound.takeRequests (sound : system.Sound producer) (members : List (GroupMember Payload)) :
    (takeRequests producer members system).2.Sound producer ∧
    (takeRequests producer members system).2.session = system.session ∧
    (takeRequests producer members system).2.server = system.server ∧
    ∀ queued ∈ (takeRequests producer members system).1, system.Queued producer queued := by
  induction members generalizing system with
  | nil => exact ⟨sound, rfl, rfl, fun _ member => nomatch member⟩
  | cons member rest ih =>
      cases member with
      | next generation decision =>
          cases popped : system.popFrame generation with
          | none =>
              simp only [DeliverySystem.takeRequests, popped]
              exact ih sound
          | some result =>
              obtain ⟨frame, after⟩ := result
              obtain ⟨afterSound, session, server, first⟩ := sound.popFrame popped decision
              obtain ⟨restSound, restSession, restServer, later⟩ := ih afterSound
              simp only [DeliverySystem.takeRequests, popped]
              refine ⟨restSound, restSession.trans session, restServer.trans server, ?_⟩
              intro queued present
              rcases List.mem_cons.1 present with rfl | old
              · exact first
              · have kept := later queued old
                unfold Queued at kept ⊢
                rw [session] at kept
                exact kept
      | foreign request =>
          obtain ⟨restSound, restSession, restServer, later⟩ := ih sound
          simp only [DeliverySystem.takeRequests]
          by_cases own : request.producer = producer
          · rw [if_pos own]
            exact ⟨restSound, restSession, restServer, later⟩
          · rw [if_neg own]
            refine ⟨restSound, restSession, restServer, ?_⟩
            intro queued present
            rcases List.mem_cons.1 present with rfl | old
            · exact ⟨fun _ same => (nomatch same), fun same => absurd same own⟩
            · exact later queued old

theorem Sound.answer (sound : system.Sound producer) {generation : Nat}
    (opened : generation ≤ system.session.generation) (txnId : Nat)
    {outcome : TransactionOutcome (LoggedTransaction Payload) CommitError}
    (within : OutcomeWithin (storedProgress system.server producer) outcome) :
    (system.answer generation txnId outcome).Sound producer := by
  unfold DeliverySystem.answer
  cases outcome with
  | committed id records =>
      exact sound.pushReply opened ⟨within, fun _ same => nomatch same⟩
  | duplicate committedThrough =>
      exact sound.pushReply opened ⟨within, fun _ same => nomatch same⟩
  | unexpectedId expected received =>
      exact sound.pushReply opened ⟨trivial, fun _ same => nomatch same⟩
  | failed error =>
      cases error with
      | staleLayerGraph => exact sound.pushReply opened ⟨trivial, fun _ same => nomatch same⟩
      | invalidTransaction => exact sound.pushReply opened ⟨trivial, fun _ same => nomatch same⟩
      | internal => exact sound

theorem answer_unchanged (system : DeliverySystem Payload) (generation txnId : Nat)
    (outcome : TransactionOutcome (LoggedTransaction Payload) CommitError) :
    (system.answer generation txnId outcome).session = system.session ∧
      (system.answer generation txnId outcome).server = system.server := by
  unfold DeliverySystem.answer
  cases replyFor txnId outcome with
  | none => exact ⟨rfl, rfl⟩
  | some reply => exact ⟨rfl, rfl⟩

theorem Sound.answerAll (sound : system.Sound producer) (queued : List (QueuedRequest Payload))
    (outcomes : List (TransactionOutcome (LoggedTransaction Payload) CommitError))
    (opened : ∀ member ∈ queued, ∀ generation, member.generation = some generation →
      generation ≤ system.session.generation ∧ member.request.producer = producer)
    (within : OutcomesWithin system.server (queued.map (·.request)) outcomes) :
    (system.answerAll queued outcomes).Sound producer := by
  induction queued generalizing system outcomes with
  | nil => exact sound
  | cons member rest ih =>
      cases outcomes with
      | nil => exact sound
      | cons outcome outcomes =>
          obtain ⟨first, later⟩ := within
          have openedRest := fun other present => opened other (List.mem_cons_of_mem _ present)
          simp only [DeliverySystem.answerAll]
          cases waits : member.generation with
          | none => exact ih sound outcomes openedRest later
          | some generation =>
              obtain ⟨bound, own⟩ := opened member List.mem_cons_self generation waits
              rw [own] at first
              obtain ⟨session, server⟩ :=
                system.answer_unchanged generation member.request.txnId outcome
              refine ih (sound.answer bound member.request.txnId first) outcomes ?_ ?_
              · rw [session]
                exact openedRest
              · rw [server]
                exact later

end Effects

/-! ### One step, and every run -/

section Steps

variable {producer : Producer} {system : DeliverySystem Payload}

/-- A reply of the current connection moves the session. -/
theorem Sound.acknowledgeWith (sound : system.Sound producer) {committedThrough : Nat}
    (within : committedThrough ≤ storedProgress system.server producer)
    {result : ProducerResult × OrderedProducerSession Payload}
    (highwater : OrderedProducerSession.Highwater system.session committedThrough result) :
    (system.acknowledgeWith committedThrough result).Sound producer := by
  cases highwater with
  | accepted after above outbox generation ready =>
      exact sound.acknowledge above within outbox generation ready
  | refused result after refused same =>
      have moved := sound.moveSession same
      cases result with
      | accepted => exact absurd rfl refused
      | _ => exact moved

theorem Sound.handleReply (sound : system.Sound producer) (generation : Nat) {reply : Reply}
    (within : ReplyWithin (storedProgress system.server producer) reply) :
    (system.handleReply generation reply).Sound producer := by
  cases reply with
  | helloOk committedThrough =>
      exact sound.acknowledgeWith within
        (system.session.acceptHello_highwater generation committedThrough)
  | acknowledged txnId =>
      exact sound.acknowledgeWith within
        (system.session.acknowledgeThrough_highwater generation txnId)
  | rejected txnId disposition =>
      exact sound.moveSession (system.session.reject_sameOutbox generation txnId disposition)

theorem Sound.executeGroup (sound : system.Sound producer) (queued : List (QueuedRequest Payload))
    (known : ∀ member ∈ queued, system.Queued producer member) (fault : Bool) :
    (system.executeGroup queued fault).Sound producer := by
  obtain ⟨advance, coherent, within⟩ :=
    executeRequests_advance fault sound.1.coherent (queued.map (·.request))
  unfold DeliverySystem.executeGroup
  refine Sound.answerAll (sound.advance advance coherent ?_ ?_) queued _ ?_ within
  · intro request present own
    obtain ⟨member, queuedMember, rfl⟩ := List.mem_map.1 present
    exact ((known member queuedMember).2 own).1
  · intro request present own
    obtain ⟨member, queuedMember, rfl⟩ := List.mem_map.1 present
    exact ((known member queuedMember).2 own).2
  · exact fun member present => (known member present).1

/-- Appending to the outbox, with the direct write of the synchronous sender. -/
theorem Sound.performAppend (sound : system.Sound producer) (generation id : Nat)
    (payload : Payload) (events : Nat) (layer : String) (direct : Bool) :
    (system.perform producer (.append generation id payload events layer direct)).Sound
      producer := by
  rcases system.session.append_cases generation id payload events layer with
    ⟨rfl, rfl, accepted⟩ | ⟨result, refused, unchanged⟩
  · simp only [perform, accepted]
    have appended := sound.appendEntry payload events layer
    cases direct with
    | false => exact appended
    | true =>
        exact appended.pushFrame (Nat.le_refl _)
          (List.mem_append_right _ (List.mem_singleton.2 rfl))
  · cases result with
    | accepted => exact absurd rfl refused
    | _ =>
        simp only [perform, unchanged]
        exact sound

theorem Sound.answerHello (sound : system.Sound producer) {generation : Nat}
    (opened : generation ≤ system.session.generation) :
    (({ system with
        server := { system.server with
          journal := (system.server.journal.committedThrough producer).2 } } :
      DeliverySystem Payload).pushReply generation
        (.helloOk (system.server.journal.committedThrough producer).1)).Sound producer := by
  have filled : Advance [] system.server
      { system.server with journal := (system.server.journal.committedThrough producer).2 } :=
    Advance.of_unchanged rfl (by simp)
  have moved := sound.advance filled (sound.1.coherent.committedThrough producer) (by simp) (by simp)
  have progress := EventJournal.committedThrough_fst sound.1.coherent producer
  refine moved.pushReply opened ⟨?_, ?_⟩
  · simp [ReplyWithin, storedProgress, progress]
  · intro committedThrough same
    obtain rfl := Reply.helloOk.inj same
    rw [progress]
    exact sound.1.acknowledgedLe

/-- The handler commits one request of this session and answers it. -/
theorem Sound.commitOne (sound : system.Sound producer) {generation : Nat} {frame : Frame Payload}
    {decision : Option CommitError}
    (known : system.Queued producer ⟨some generation, frameRequest producer frame decision⟩) :
    (({ system with
        server := (commit commitEvents system.server (frameRequest producer frame decision)).1 } :
      DeliverySystem Payload).answer generation frame.txnId
        (commit commitEvents system.server (frameRequest producer frame decision)).2).Sound
      producer := by
  obtain ⟨advance, coherent, within⟩ :=
    commit_advance sound.1.coherent (frameRequest producer frame decision)
  obtain ⟨submitted, agree⟩ := known.2 rfl
  have advanced := sound.advance advance coherent
    (fun request present _ => by rw [List.mem_singleton.1 present]; exact submitted)
    (fun request present _ => by rw [List.mem_singleton.1 present]; exact agree)
  exact advanced.answer (known.1 generation rfl).1 frame.txnId within

/-- Every step keeps the invariant, a repair when it is safe. -/
theorem Sound.perform (sound : system.Sound producer) (action : DeliveryAction Payload)
    (safe : system.StepSafe producer action) : (system.perform producer action).Sound producer := by
  cases action with
  | append generation id payload events layer direct =>
      exact sound.performAppend generation id payload events layer direct
  | claimAndSend generation =>
      rcases system.session.claimNextUnsent_cases generation with
        ⟨entry, session, rfl, same, queued, claimed⟩ | ⟨result, nothing⟩
      · simp only [DeliverySystem.perform, claimed]
        exact (sound.moveSession same).pushFrame (Nat.le_refl _) queued
      · simp only [DeliverySystem.perform, nothing]
        exact sound
  | claimAndLose generation =>
      rcases system.session.claimNextUnsent_cases generation with
        ⟨entry, session, rfl, same, _, claimed⟩ | ⟨result, nothing⟩
      · simp only [DeliverySystem.perform, claimed]
        exact sound.moveSession same
      · simp only [DeliverySystem.perform, nothing]
        exact sound
  | disconnect generation =>
      exact sound.moveSession (system.session.disconnect_sameOutbox generation)
  | beginConnection =>
      cases begun : system.session.beginConnection with
      | none =>
          simp only [DeliverySystem.perform, begun]
          exact sound
      | some session =>
          simp only [DeliverySystem.perform, begun]
          exact sound.moveSession (OrderedProducerSession.beginConnection_sameOutbox begun)
  | receive generation =>
      cases replies : (system.connection generation).replies with
      | nil =>
          simp only [DeliverySystem.perform, replies]
          exact sound
      | cons reply rest =>
          simp only [DeliverySystem.perform, replies]
          have within := sound.1.repliesWithin generation reply
            (by rw [replies]; exact List.mem_cons_self)
          have narrowed : (system.withConnection generation
              { system.connection generation with replies := rest }).Sound producer := by
            refine sound.narrow generation (List.Subset.refl _) ?_
            rw [replies]
            exact List.subset_cons_self reply rest
          exact narrowed.handleReply generation within
  | repair payload events layer =>
      rcases system.session.repairRejected_cases payload events layer with
        ⟨nonempty, recovering, recoverable, outbox, generation, disconnected⟩ | unchanged
      · exact sound.repairEntry (safe nonempty recovering recoverable) outbox generation
          disconnected
      · simp only [DeliverySystem.perform, unchanged]
        exact sound
  | loseFrames generation keep =>
      exact sound.narrow generation (List.take_subset _ _) (List.Subset.refl _)
  | loseReply generation index =>
      exact sound.narrow generation (List.Subset.refl _) (List.eraseIdx_subset)
  | duplicateReply generation index =>
      cases found : (system.connection generation).replies[index]? with
      | none =>
          simp only [DeliverySystem.perform, found]
          exact sound
      | some reply =>
          simp only [DeliverySystem.perform, found]
          have member := List.mem_of_getElem? found
          refine sound.narrow generation (List.Subset.refl _) ?_
          exact List.append_subset.2
            ⟨List.Subset.refl _, List.cons_subset.2 ⟨member, List.nil_subset _⟩⟩
  | serverHello generation =>
      by_cases unopened : generation = 0 ∨ system.session.generation < generation
      · simp only [DeliverySystem.perform, if_pos unopened]
        exact sound
      · simp only [DeliverySystem.perform, if_neg unopened]
        exact sound.answerHello (Nat.le_of_not_lt fun later => unopened (Or.inr later))
  | rateLimit generation =>
      cases popped : system.popFrame generation with
      | none =>
          simp only [DeliverySystem.perform, popped]
          exact sound
      | some result =>
          simp only [DeliverySystem.perform, popped]
          exact (sound.popFrame popped none).1
  | commitOne generation decision =>
      cases popped : system.popFrame generation with
      | none =>
          simp only [DeliverySystem.perform, popped]
          exact sound
      | some result =>
          obtain ⟨frame, after⟩ := result
          obtain ⟨afterSound, session, _, known⟩ := sound.popFrame popped decision
          simp only [DeliverySystem.perform, popped]
          refine afterSound.commitOne ?_
          unfold Queued at known ⊢
          rw [session]
          exact known
  | commitGroup members fault =>
      obtain ⟨taken, session, _, known⟩ := sound.takeRequests members
      refine taken.executeGroup _ ?_ fault
      intro member present
      have kept := known member present
      unfold Queued at kept ⊢
      rw [session]
      exact kept
  | restartServer =>
      have reopened : Advance [] system.server
          { system.server with journal := system.server.journal.reopen } :=
        Advance.of_unchanged rfl rfl
      exact sound.advance reopened (fun _ _ hit => nomatch hit) (by simp) (by simp)

/-- Every run whose repairs are safe keeps the invariant. -/
theorem Sound.run (actions : List (DeliveryAction Payload)) (sound : system.Sound producer)
    (safe : RepairsSafe producer system actions) : (system.run producer actions).Sound producer := by
  induction actions generalizing system with
  | nil => exact sound
  | cons action rest ih => exact ih (sound.perform action safe.1) safe.2

end Steps

/-- A fresh session delivers exactly once in every run whose repairs are safe. -/
theorem exactlyOnce_of_repairsSafe (producer : Producer) (capacity : Nat)
    (actions : List (DeliveryAction Payload))
    (safe : RepairsSafe producer (initial capacity) actions) :
    ((initial capacity : DeliverySystem Payload).run producer actions).ExactlyOnce producer :=
  (Sound.run actions (sound_initial producer capacity) safe).exactlyOnce

/-- A rejected transaction is repaired while nothing of it is left in flight. -/
def quietRepair : List (DeliveryAction Nat) :=
  [.beginConnection, .serverHello 1, .receive 1, .append 1 1 10 1 "layer" true,
    .commitOne 1 (some .staleLayerGraph), .receive 1, .repair 20 1 "layer",
    .beginConnection, .serverHello 2, .receive 2, .claimAndSend 2, .commitOne 2 none, .receive 2]

theorem exactlyOnce_quietRepair :
    ((initial 4).run ("client", "session") quietRepair).ExactlyOnce ("client", "session") ∧
      ((initial 4).run ("client", "session") quietRepair).acknowledged =
        [⟨1, 20, 1, "layer"⟩] := by
  refine ⟨exactlyOnce_of_repairsSafe ("client", "session") 4 quietRepair ?_, by decide⟩
  refine ⟨trivial, trivial, trivial, trivial, trivial, trivial, ?_, trivial, trivial, trivial,
    trivial, trivial, trivial, trivial⟩
  intro _ _ _
  constructor
  · intro generation frame member
    match generation with
    | 0 => exact nomatch member
    | 1 => exact nomatch member
    | other + 2 => exact nomatch member
  · intro reached
    exact absurd reached (by decide)

/-- The bytes of the first connection stay queued on the server while the second connection is
told to repair the same transaction.  The late frame commits the old payload, and the third
hello acknowledges the repaired one on the strength of it. -/
def racedRepair : List (DeliveryAction Nat) :=
  [.beginConnection, .serverHello 1, .receive 1, .append 1 1 10 1 "layer" true, .disconnect 1,
    .beginConnection, .serverHello 2, .receive 2, .claimAndSend 2,
    .commitOne 2 (some .staleLayerGraph), .receive 2, .commitOne 1 none,
    .repair 20 1 "layer", .beginConnection, .serverHello 3, .receive 3]

theorem not_exactlyOnce_racedRepair :
    ¬ ((initial 4).run ("client", "session") racedRepair).ExactlyOnce ("client", "session") := by
  intro once
  have dropped : (⟨1, 20, 1, "layer"⟩ : OrderedOutboxEntry Nat) ∈
      ((initial 4).run ("client", "session") racedRepair).acknowledged := by decide
  exact absurd (once.acknowledgedLogged _ dropped) (by decide)

end DeliverySystem

end UsdConnect
