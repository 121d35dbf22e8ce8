/-
Purpose: The cut between stored and live records: what a receiver's socket has carried and what it
  is still owed read the histories without a gap or a repetition to the end of the log.
Trusted boundary: none
Main exports: BroadcastState.upcoming, BroadcastState.Delivers
-/
import UsdConnect.Server.Broadcast

namespace UsdConnect

namespace BroadcastState

variable {Handler Record : Type} [DecidableEq Handler] [DecidableEq Record]

/-! ### What a receiver is still owed -/

/-- Frames of the broadcast queue that name the receiver as a target. -/
def queuedFor (queue : List (List (ReplayFrame Record) × List Handler)) (handler : Handler) :
    List (ReplayFrame Record) :=
  (queue.filter fun item => handler ∈ item.2).flatMap (·.1)

/-- The resync a receiver waits for. -/
def resyncOwed (resyncing : List Handler) (epoch : Nat) (log : List Record) (handler : Handler) :
    List (ReplayFrame Record) :=
  if handler ∈ resyncing then resyncFrames epoch log else []

/-- Everything the server will put on a receiver's socket, in order: what the lock holder has in
hand, the resync it waits for, the queue, and the rows of the commit in progress. -/
def upcoming (state : BroadcastState Handler Record) (handler : Handler)
    (connection : ReceiverConnection Record) : List (ReplayFrame Record) :=
  connection.pending ++
    resyncOwed state.resyncing state.epoch state.log handler ++
    queuedFor state.queue handler ++ rowFrames state.unpublished

/-- The end of the current log. -/
def head (state : BroadcastState Handler Record) : Position :=
  { epoch := state.epoch, next := state.log.length + 1, replaying := false }

/-- A receiver whose stream, sent and owed, reads the histories up to the end of the log. -/
def Streams (state : BroadcastState Handler Record) (handler : Handler) : Prop :=
  ∃ connection, state.connections handler = some connection ∧
    follow state.histories connection.start
      (connection.socket ++ state.upcoming handler connection) = some state.head

/-- The invariant of every run. -/
structure Delivers (state : BroadcastState Handler Record) : Prop where
  streams : ∀ handler ∈ state.receivers, state.Streams handler
  distinct : state.receivers.Nodup
  targets : ∀ item ∈ state.queue, item.2.Nodup ∧
    ∀ handler ∈ item.2, (state.connections handler).isSome = true
  resyncDistinct : state.resyncing.Nodup
  resyncAlone : state.resyncing ≠ [] → state.queue = [] ∧ state.unpublished = []

omit [DecidableEq Record] in
@[simp] theorem resyncOwed_nil (epoch : Nat) (log : List Record) (handler : Handler) :
    resyncOwed [] epoch log handler = [] :=
  rfl

omit [DecidableEq Record] in
theorem resyncOwed_of_mem {resyncing : List Handler} {handler : Handler}
    (waiting : handler ∈ resyncing) (epoch : Nat) (log : List Record) :
    resyncOwed resyncing epoch log handler = resyncFrames epoch log :=
  if_pos waiting

omit [DecidableEq Record] in
theorem resyncOwed_of_not_mem {resyncing : List Handler} {handler : Handler}
    (served : handler ∉ resyncing) (epoch : Nat) (log : List Record) :
    resyncOwed resyncing epoch log handler = [] :=
  if_neg served

omit [DecidableEq Record] in
theorem resyncOwed_cons_of_ne {handler other : Handler} (different : other ≠ handler)
    (handlers : List Handler) (epoch : Nat) (log : List Record) :
    resyncOwed (handler :: handlers) epoch log other = resyncOwed handlers epoch log other := by
  unfold resyncOwed
  simp [different]

omit [DecidableEq Record] in
theorem queuedFor_cons (item : List (ReplayFrame Record) × List Handler)
    (queue : List (List (ReplayFrame Record) × List Handler)) (handler : Handler) :
    queuedFor (item :: queue) handler =
      (if handler ∈ item.2 then item.1 else []) ++ queuedFor queue handler := by
  unfold queuedFor
  by_cases target : handler ∈ item.2 <;> simp [target]

omit [DecidableEq Record] in
theorem queuedFor_append (first second : List (List (ReplayFrame Record) × List Handler))
    (handler : Handler) :
    queuedFor (first ++ second) handler = queuedFor first handler ++ queuedFor second handler := by
  unfold queuedFor
  rw [List.filter_append, List.flatMap_append]

omit [DecidableEq Record] in
/-- A handler that never joined is owed nothing by the queue. -/
theorem queuedFor_eq_nil {queue : List (List (ReplayFrame Record) × List Handler)}
    {handler : Handler}
    (absent : ∀ item ∈ queue, handler ∉ item.2) : queuedFor queue handler = [] := by
  unfold queuedFor
  have none : (queue.filter fun item => decide (handler ∈ item.2)) = [] := by
    apply List.filter_eq_nil_iff.2
    intro item member
    simp [absent item member]
  rw [none]
  rfl

omit [DecidableEq Handler] [DecidableEq Record] in
theorem exclusive_iff {state : BroadcastState Handler Record} :
    state.exclusive = true ↔ state.unpublished = [] ∧ state.resyncing = [] := by
  unfold exclusive
  simp [List.isEmpty_iff]

omit [DecidableEq Record] in
theorem holdSendLock_eq_some {state next : BroadcastState Handler Record} {handler : Handler}
    {frames : List (ReplayFrame Record)} (held : state.holdSendLock handler frames = some next) :
    ∃ connection, state.connections handler = some connection ∧ connection.pending = [] ∧
      next = state.setConnection handler { connection with pending := frames } := by
  unfold holdSendLock at held
  split at held
  · cases held
  · next connection found =>
      split at held
      · next free =>
          cases held
          exact ⟨connection, found, List.isEmpty_iff.1 free, rfl⟩
      · cases held

/-! ### Steps that move frames -/

/-- Frames that only move between the socket and what is owed leave the stream as it was. -/
theorem Streams.move {state next : BroadcastState Handler Record} {handler : Handler}
    (streams : state.Streams handler) (histories : next.histories = state.histories)
    (head : next.head = state.head)
    (moved : ∀ connection, state.connections handler = some connection →
      ∃ after, next.connections handler = some after ∧ after.start = connection.start ∧
        after.socket ++ next.upcoming handler after =
          connection.socket ++ state.upcoming handler connection) :
    next.Streams handler := by
  obtain ⟨connection, found, followed⟩ := streams
  obtain ⟨after, afterFound, start, frames⟩ := moved connection found
  refine ⟨after, afterFound, ?_⟩
  rw [histories, head, start, frames]
  exact followed

theorem delivers_send {state : BroadcastState Handler Record} (delivers : state.Delivers)
    {handler : Handler} {connection : ReceiverConnection Record} {frame : ReplayFrame Record}
    {frames : List (ReplayFrame Record)} (found : state.connections handler = some connection)
    (waiting : connection.pending = frame :: frames) :
    (state.setConnection handler
      { connection with socket := connection.socket ++ [frame], pending := frames }).Delivers := by
  refine ⟨?_, delivers.distinct, ?_, delivers.resyncDistinct, delivers.resyncAlone⟩
  · intro other member
    refine (delivers.streams other member).move rfl rfl ?_
    intro before beforeFound
    by_cases same : other = handler
    · subst same
      cases found.symm.trans beforeFound
      refine ⟨_, Function.update_self _ _ _, rfl, ?_⟩
      simp [upcoming, waiting, setConnection]
    · exact ⟨before, by simpa [setConnection, same] using beforeFound, rfl, rfl⟩
  · intro item member
    refine ⟨(delivers.targets item member).1, ?_⟩
    intro other target
    by_cases same : other = handler
    · simp [setConnection, same]
    · simpa [setConnection, same] using (delivers.targets item member).2 other target

/-- The broadcast thread hands a queue item to its next target. -/
theorem delivers_deliver {state next : BroadcastState Handler Record} (delivers : state.Delivers)
    {frames : List (ReplayFrame Record)} {handler : Handler} {targets : List Handler}
    {rest : List (List (ReplayFrame Record) × List Handler)}
    (waiting : state.queue = (frames, handler :: targets) :: rest)
    (held : { state with queue := (frames, targets) :: rest }.holdSendLock handler frames =
      some next) : next.Delivers := by
  obtain ⟨connection, found, free, rfl⟩ := holdSendLock_eq_some held
  have first := delivers.targets (frames, handler :: targets) (by rw [waiting]; simp)
  have absent : handler ∉ targets := (List.nodup_cons.1 first.1).1
  have settled : state.resyncing = [] := by
    by_contra busy
    have empty := (delivers.resyncAlone busy).1
    rw [waiting] at empty
    cases empty
  refine ⟨?_, delivers.distinct, ?_, delivers.resyncDistinct, fun busy => absurd settled busy⟩
  · intro other member
    refine (delivers.streams other member).move rfl rfl ?_
    intro before beforeFound
    by_cases same : other = handler
    · subst same
      cases found.symm.trans beforeFound
      refine ⟨_, Function.update_self _ _ _, rfl, ?_⟩
      simp [upcoming, setConnection, waiting, queuedFor_cons, absent, settled, free]
    · refine ⟨before, ?_, rfl, ?_⟩
      · simpa [setConnection, same] using beforeFound
      · simp [upcoming, setConnection, waiting, queuedFor_cons, same]
  · intro item member
    have known : item.2.Nodup ∧ ∀ other ∈ item.2, (state.connections other).isSome = true := by
      rcases List.mem_cons.1 member with rfl | later
      · exact ⟨(List.nodup_cons.1 first.1).2,
          fun other target => first.2 other (List.mem_cons_of_mem _ target)⟩
      · exact delivers.targets item (by rw [waiting]; exact List.mem_cons_of_mem _ later)
    refine ⟨known.1, ?_⟩
    intro other target
    by_cases same : other = handler
    · simp [setConnection, same]
    · simpa [setConnection, same] using known.2 other target

/-- A queue item that has reached all its targets is done. -/
theorem delivers_finishItem {state : BroadcastState Handler Record} (delivers : state.Delivers)
    {frames : List (ReplayFrame Record)} {rest : List (List (ReplayFrame Record) × List Handler)}
    (waiting : state.queue = (frames, []) :: rest) :
    Delivers { state with queue := rest } := by
  refine ⟨?_, delivers.distinct, ?_, delivers.resyncDistinct, ?_⟩
  · intro handler member
    refine (delivers.streams handler member).move rfl rfl ?_
    intro connection found
    exact ⟨connection, found, rfl, by simp [upcoming, waiting, queuedFor_cons]⟩
  · intro item member
    exact delivers.targets item (by rw [waiting]; exact List.mem_cons_of_mem _ member)
  · intro busy
    have empty := (delivers.resyncAlone busy).1
    rw [waiting] at empty
    cases empty

omit [DecidableEq Record] in
/-- Enqueueing frames puts them after everything else the receivers are owed by the queue. -/
theorem queuedFor_enqueueBroadcast (state : BroadcastState Handler Record)
    (frames : List (ReplayFrame Record)) {handler : Handler} (live : handler ∈ state.receivers) :
    queuedFor (state.enqueueBroadcast frames).queue handler =
      queuedFor state.queue handler ++ frames := by
  unfold enqueueBroadcast
  split
  · next none =>
      rw [none] at live
      exact nomatch live
  · rw [queuedFor_append, queuedFor_cons, if_pos live]
    simp [queuedFor]

omit [DecidableEq Handler] [DecidableEq Record] in
theorem enqueueBroadcast_frame (state : BroadcastState Handler Record)
    (frames : List (ReplayFrame Record)) :
    (state.enqueueBroadcast frames).receivers = state.receivers ∧
      (state.enqueueBroadcast frames).resyncing = state.resyncing ∧
      (state.enqueueBroadcast frames).connections = state.connections ∧
      (state.enqueueBroadcast frames).unpublished = state.unpublished ∧
      (state.enqueueBroadcast frames).histories = state.histories ∧
      (state.enqueueBroadcast frames).epoch = state.epoch ∧
      (state.enqueueBroadcast frames).log = state.log := by
  unfold enqueueBroadcast
  split <;> exact ⟨rfl, rfl, rfl, rfl, rfl, rfl, rfl⟩

omit [DecidableEq Handler] [DecidableEq Record] in
/-- Queue items keep naming admitted handlers when the receivers of this moment are added. -/
theorem targets_enqueueBroadcast (state : BroadcastState Handler Record)
    (distinct : state.receivers.Nodup)
    (joined : ∀ handler ∈ state.receivers, (state.connections handler).isSome = true)
    (targets : ∀ item ∈ state.queue, item.2.Nodup ∧
      ∀ handler ∈ item.2, (state.connections handler).isSome = true)
    (frames : List (ReplayFrame Record)) :
    ∀ item ∈ (state.enqueueBroadcast frames).queue, item.2.Nodup ∧
      ∀ handler ∈ item.2, (state.connections handler).isSome = true := by
  unfold enqueueBroadcast
  split
  · exact targets
  · intro item member
    rcases List.mem_append.1 member with old | added
    · exact targets item old
    · rw [List.mem_singleton.1 added]
      exact ⟨distinct, joined⟩

theorem Delivers.joined {state : BroadcastState Handler Record} (delivers : state.Delivers) :
    ∀ handler ∈ state.receivers, (state.connections handler).isSome = true := by
  intro handler live
  obtain ⟨connection, found, _⟩ := delivers.streams handler live
  rw [found]
  rfl

/-- Publishing moves rows of the commit into the queue. -/
theorem delivers_publish {state : BroadcastState Handler Record} (delivers : state.Delivers)
    (count : Nat) (busy : state.unpublished ≠ []) : (state.publish count).Delivers := by
  have settled : state.resyncing = [] := by
    by_contra resyncing
    exact busy (delivers.resyncAlone resyncing).2
  obtain ⟨receivers, resyncing, connections, unpublished, histories, epoch, log⟩ :=
    enqueueBroadcast_frame { state with unpublished := state.unpublished.drop count }
      (rowFrames (state.unpublished.take count))
  refine ⟨?_, ?_, ?_, ?_, ?_⟩
  · intro handler member
    have live : handler ∈ state.receivers := by
      rw [publish, receivers] at member
      exact member
    have head : (state.publish count).head = state.head := by
      rw [BroadcastState.head, BroadcastState.head, publish, epoch, log]
    refine (delivers.streams handler live).move histories head ?_
    intro connection found
    refine ⟨connection, by rw [publish, connections]; exact found, rfl, ?_⟩
    have queued := queuedFor_enqueueBroadcast
      { state with unpublished := state.unpublished.drop count }
      (rowFrames (state.unpublished.take count)) live
    have rows : rowFrames (state.unpublished.take count) ++
        rowFrames (state.unpublished.drop count) = rowFrames state.unpublished := by
      rw [rowFrames, rowFrames, ← List.map_append, List.take_append_drop]
      rfl
    rw [upcoming, upcoming, publish, queued, resyncing, epoch, log, unpublished, ← rows]
    simp only [List.append_assoc]
  · rw [publish, receivers]
    exact delivers.distinct
  · rw [publish, connections]
    exact targets_enqueueBroadcast { state with unpublished := state.unpublished.drop count }
      delivers.distinct delivers.joined delivers.targets _
  · rw [publish, resyncing]
    exact delivers.resyncDistinct
  · rw [publish, resyncing]
    exact fun resyncing => absurd settled resyncing

/-- The maintenance thread hands the next receiver its resync. -/
theorem delivers_resync {state next : BroadcastState Handler Record} (delivers : state.Delivers)
    {handler : Handler} {handlers : List Handler} (waiting : state.resyncing = handler :: handlers)
    (held : { state with resyncing := handlers }.holdSendLock handler
      (resyncFrames state.epoch state.log) = some next) : next.Delivers := by
  obtain ⟨connection, found, free, rfl⟩ := holdSendLock_eq_some held
  have distinct := delivers.resyncDistinct
  rw [waiting] at distinct
  have absent : handler ∉ handlers := (List.nodup_cons.1 distinct).1
  have alone : state.queue = [] ∧ state.unpublished = [] := by
    apply delivers.resyncAlone
    rw [waiting]
    exact List.cons_ne_nil _ _
  refine ⟨?_, delivers.distinct, ?_, (List.nodup_cons.1 distinct).2, fun _ => alone⟩
  · intro other member
    refine (delivers.streams other member).move rfl rfl ?_
    intro before beforeFound
    by_cases same : other = handler
    · subst same
      cases found.symm.trans beforeFound
      refine ⟨_, Function.update_self _ _ _, rfl, ?_⟩
      simp [upcoming, setConnection, waiting, free, resyncOwed_of_mem, resyncOwed_of_not_mem,
        absent]
    · refine ⟨before, ?_, rfl, ?_⟩
      · simpa [setConnection, same] using beforeFound
      · simp [upcoming, setConnection, waiting, resyncOwed_cons_of_ne same]
  · intro item member
    have empty : item ∈ state.queue := member
    rw [alone.1] at empty
    exact nomatch empty

/-! ### Steps that change the log or the receivers -/

omit [DecidableEq Handler] [DecidableEq Record] in
theorem extends_persist (state : BroadcastState Handler Record) (records : List Record) :
    Extends state.histories (state.persist records).histories state.epoch := by
  intro epoch _
  by_cases current : epoch = state.epoch
  · simp [BroadcastState.histories, persist, current]
  · simp [BroadcastState.histories, persist, current]

/-- A commit's rows continue every stream. -/
theorem delivers_persist {state : BroadcastState Handler Record} (delivers : state.Delivers)
    (idle : state.unpublished = []) (settled : state.resyncing = []) (records : List Record) :
    (state.persist records).Delivers := by
  refine ⟨?_, delivers.distinct, delivers.targets, delivers.resyncDistinct,
    fun busy => absurd settled busy⟩
  intro handler live
  obtain ⟨connection, found, followed⟩ := delivers.streams handler live
  refine ⟨connection, found, ?_⟩
  have owed : connection.socket ++ (state.persist records).upcoming handler connection =
      (connection.socket ++ state.upcoming handler connection) ++
        eventFrames (state.log.length + 1) records := by
    simp [upcoming, persist, idle, settled, rowFrames, eventFrames]
  have grown := follow_mono (extends_persist state records) followed
  have whole : (state.persist records).histories state.epoch = state.log ++ records ++ [] := by
    simp [BroadcastState.histories, persist]
  have sent := follow_eventFrames state.log records [] whole false
  rw [owed, follow_append_of grown, BroadcastState.head, sent]
  simp [BroadcastState.head, persist]

/-- A receiver is admitted at the end of the log with nothing else owed. -/
theorem delivers_join {state : BroadcastState Handler Record} (delivers : state.Delivers)
    (idle : state.unpublished = []) (settled : state.resyncing = []) {handler : Handler}
    (fresh : state.connections handler = none) (syncFrom : Int) (claim : Option ReplayClaim) :
    (state.join handler syncFrom claim).Delivers := by
  have absent : handler ∉ state.receivers := by
    intro live
    have joined := delivers.joined handler live
    rw [fresh] at joined
    cases joined
  refine ⟨?_, ?_, ?_, delivers.resyncDistinct, fun busy => absurd settled busy⟩
  · intro other member
    rcases List.mem_append.1 member with old | added
    · have different : other ≠ handler := fun same => absent (same ▸ old)
      refine (delivers.streams other old).move rfl rfl ?_
      intro connection found
      exact ⟨connection, by simpa [join, setConnection, different] using found, rfl, rfl⟩
    · cases List.mem_singleton.1 added
      have unqueued : queuedFor state.queue handler = [] := by
        apply queuedFor_eq_nil
        intro item queued target
        have joined := (delivers.targets item queued).2 handler target
        rw [fresh] at joined
        cases joined
      refine ⟨_, Function.update_self _ _ _, ?_⟩
      have current : (state.join handler syncFrom claim).histories state.epoch = state.log := by
        simp [BroadcastState.histories, join, setConnection]
      have admitted := follow_admissionFrames current state.serverInstance syncFrom claim
      simpa [upcoming, join, setConnection, idle, settled, unqueued, rowFrames,
        BroadcastState.head] using admitted
  · rw [join, setConnection]
    apply List.nodup_append.2
    refine ⟨delivers.distinct, List.nodup_singleton _, ?_⟩
    intro other old added member same
    cases List.mem_singleton.1 member
    exact absent (same ▸ old)
  · intro item member
    refine ⟨(delivers.targets item member).1, ?_⟩
    intro other target
    by_cases same : other = handler
    · simp [join, setConnection, same]
    · simpa [join, setConnection, same] using (delivers.targets item member).2 other target

theorem delivers_discard {state : BroadcastState Handler Record} (delivers : state.Delivers)
    (handler : Handler) : (state.discard handler).Delivers := by
  refine ⟨?_, delivers.distinct.filter _, delivers.targets, delivers.resyncDistinct,
    delivers.resyncAlone⟩
  intro other member
  have live : other ∈ state.receivers := List.mem_of_mem_filter member
  exact (delivers.streams other live).move rfl rfl fun connection found =>
    ⟨connection, found, rfl, rfl⟩

omit [DecidableEq Handler] [DecidableEq Record] in
theorem extends_replaceHistory (state : BroadcastState Handler Record) (records : List Record) :
    Extends state.histories (state.replaceHistory records).histories state.epoch := by
  intro epoch older
  have different : epoch ≠ state.epoch + 1 := by omega
  by_cases current : epoch = state.epoch
  · simp [BroadcastState.histories, replaceHistory, current]
  · simp [BroadcastState.histories, replaceHistory, current, different]

omit [DecidableEq Handler] in
/-- After a rewrite, a resync at the end of what was owed brings a stream to the new log. -/
theorem follow_resync {state : BroadcastState Handler Record} {position : Position}
    {frames : List (ReplayFrame Record)} (records : List Record)
    (followed : follow state.histories position frames = some state.head) :
    follow (state.replaceHistory records).histories position
        (frames ++ resyncFrames (state.epoch + 1) records) =
      some ⟨state.epoch + 1, records.length + 1, false⟩ := by
  have kept := follow_mono (extends_replaceHistory state records) followed
  have current : (state.replaceHistory records).histories (state.epoch + 1) = records := by
    simp [BroadcastState.histories, replaceHistory]
  rw [follow_append_of kept]
  exact follow_resyncFrames current (Nat.lt_succ_self _)

theorem delivers_rewrite {state : BroadcastState Handler Record} (delivers : state.Delivers)
    (idle : state.unpublished = []) (settled : state.resyncing = []) (drained : state.queue = [])
    (records : List Record) :
    Delivers { state.replaceHistory records with resyncing := state.receivers } := by
  refine ⟨?_, delivers.distinct, delivers.targets, delivers.distinct, fun _ => ⟨drained, idle⟩⟩
  intro handler live
  have member : handler ∈ state.receivers := live
  obtain ⟨connection, found, followed⟩ := delivers.streams handler member
  refine ⟨connection, found, ?_⟩
  have resynced := follow_resync records followed
  have owed : connection.socket ++ upcoming
        { state.replaceHistory records with resyncing := state.receivers } handler connection =
      connection.socket ++ state.upcoming handler connection ++
        resyncFrames (state.epoch + 1) records := by
    simp [upcoming, replaceHistory, idle, settled, drained, queuedFor, rowFrames,
      resyncOwed_of_mem member]
  rw [owed]
  exact resynced

theorem delivers_snapshot {state : BroadcastState Handler Record} (delivers : state.Delivers)
    (idle : state.unpublished = []) (settled : state.resyncing = []) (drained : state.queue = [])
    (records : List Record) :
    ((state.replaceHistory records).enqueueBroadcast
      (resyncFrames (state.epoch + 1) records)).Delivers := by
  obtain ⟨receivers, resyncing, connections, unpublished, histories, epoch, log⟩ :=
    enqueueBroadcast_frame (state.replaceHistory records)
      (resyncFrames (state.epoch + 1) records)
  refine ⟨?_, ?_, ?_, ?_, ?_⟩
  · intro handler member
    have live : handler ∈ state.receivers := by
      rw [receivers] at member
      exact member
    obtain ⟨connection, found, followed⟩ := delivers.streams handler live
    refine ⟨connection, by rw [connections]; exact found, ?_⟩
    have resynced := follow_resync records followed
    have queued := queuedFor_enqueueBroadcast (state.replaceHistory records)
      (resyncFrames (state.epoch + 1) records) live
    rw [upcoming, queued, resyncing, epoch, log, unpublished, histories, BroadcastState.head, epoch,
      log]
    simpa [upcoming, replaceHistory, idle, settled, drained, queuedFor, rowFrames] using resynced
  · rw [receivers]
    exact delivers.distinct
  · rw [connections]
    exact targets_enqueueBroadcast (state.replaceHistory records) delivers.distinct
      delivers.joined delivers.targets _
  · rw [resyncing]
    exact delivers.resyncDistinct
  · rw [resyncing]
    exact fun busy => absurd settled busy

/-! ### Runs -/

theorem delivers_step {state next : BroadcastState Handler Record}
    {action : BroadcastAction Handler Record} (delivers : state.Delivers)
    (stepped : state.step? action = some next) : next.Delivers := by
  cases action with
  | persist records =>
      simp only [step?] at stepped
      split at stepped
      · next free =>
          cases stepped
          obtain ⟨idle, settled⟩ := exclusive_iff.1 free
          exact delivers_persist delivers idle settled records
      · cases stepped
  | publish count =>
      simp only [step?] at stepped
      split at stepped
      · cases stepped
      · next busy =>
          cases stepped
          exact delivers_publish delivers count fun empty => busy (List.isEmpty_iff.2 empty)
  | deliver =>
      simp only [step?] at stepped
      split at stepped
      · cases stepped
      · next frames rest waiting =>
          cases stepped
          exact delivers_finishItem delivers waiting
      · next frames handler targets rest waiting =>
          exact delivers_deliver delivers waiting stepped
  | send handler =>
      simp only [step?] at stepped
      split at stepped
      · cases stepped
      · next connection found =>
          split at stepped
          · cases stepped
          · next frame frames waiting =>
              cases stepped
              exact delivers_send delivers found waiting
  | join handler syncFrom claim =>
      simp only [step?] at stepped
      split at stepped
      · next free =>
          cases stepped
          obtain ⟨exclusive, fresh⟩ := Bool.and_eq_true_iff.1 free
          obtain ⟨idle, settled⟩ := exclusive_iff.1 exclusive
          exact delivers_join delivers idle settled (Option.isNone_iff_eq_none.1 fresh) syncFrom
            claim
      · cases stepped
  | leave handler =>
      cases stepped
      exact delivers_discard delivers handler
  | rewrite records =>
      simp only [step?] at stepped
      split at stepped
      · next free =>
          cases stepped
          obtain ⟨exclusive, drained⟩ := Bool.and_eq_true_iff.1 free
          obtain ⟨idle, settled⟩ := exclusive_iff.1 exclusive
          exact delivers_rewrite delivers idle settled (List.isEmpty_iff.1 drained) records
      · cases stepped
  | resync =>
      simp only [step?] at stepped
      split at stepped
      · cases stepped
      · next handler handlers waiting => exact delivers_resync delivers waiting stepped
  | snapshot records =>
      simp only [step?] at stepped
      split at stepped
      · next free =>
          cases stepped
          obtain ⟨exclusive, drained⟩ := Bool.and_eq_true_iff.1 free
          obtain ⟨idle, settled⟩ := exclusive_iff.1 exclusive
          exact delivers_snapshot delivers idle settled (List.isEmpty_iff.1 drained) records
      · cases stepped

/-- A server opened on a log, before any receiver has been admitted. -/
def opened (serverInstance : String) (log : List Record) : BroadcastState Handler Record :=
  { serverInstance := serverInstance, log := log }

theorem delivers_opened (serverInstance : String) (log : List Record) :
    (opened serverInstance log : BroadcastState Handler Record).Delivers where
  streams := fun _ live => nomatch live
  distinct := List.nodup_nil
  targets := fun _ member => nomatch member
  resyncDistinct := List.nodup_nil
  resyncAlone := fun busy => absurd rfl busy

theorem delivers_run {actions : List (BroadcastAction Handler Record)} :
    ∀ {state final : BroadcastState Handler Record}, state.Delivers →
      state.run? actions = some final → final.Delivers := by
  induction actions with
  | nil =>
      intro state final delivers ran
      cases ran
      exact delivers
  | cons action actions ih =>
      intro state final delivers ran
      obtain ⟨next, stepped, rest⟩ := Option.bind_eq_some_iff.1 ran
      exact ih (delivers_step delivers stepped) rest

/-- What a live receiver reads: its socket follows the histories from the sequence it asked for,
and once nothing is owed it stands at the end of the current log. -/
structure ReceiverServed (state : BroadcastState Handler Record)
    (connection : ReceiverConnection Record) (handler : Handler) : Prop where
  sent : ∃ position, follow state.histories connection.start connection.socket = some position
  caughtUp : state.upcoming handler connection = [] →
    follow state.histories connection.start connection.socket = some state.head

/-- In every run, every live receiver's socket carries the records of its history one by one from
its cursor, restarts at one exactly at each reset, and completes each replay with the last
sequence sent and the epoch of that history. -/
theorem receivers_served (serverInstance : String) (log : List Record)
    (actions : List (BroadcastAction Handler Record)) (final : BroadcastState Handler Record)
    (ran : (opened serverInstance log).run? actions = some final) (handler : Handler)
    (live : handler ∈ final.receivers) :
    ∃ connection, final.connections handler = some connection ∧
      final.ReceiverServed connection handler := by
  have delivers := delivers_run (delivers_opened serverInstance log) ran
  obtain ⟨connection, found, followed⟩ := delivers.streams handler live
  refine ⟨connection, found, ?_, ?_⟩
  · obtain ⟨middle, sent, _⟩ := follow_of_append followed
    exact ⟨middle, sent⟩
  · intro nothing
    rw [nothing, List.append_nil] at followed
    exact followed

/-- A receiver admitted at the second of two records, a record committed while its replay is still
being sent, and a compaction. -/
def joinDuringCommit : List (BroadcastAction Nat Nat) :=
  [.join 0 2 none, .persist [9], .publish 1, .send 0, .send 0, .deliver, .deliver, .send 0,
    .rewrite [5], .resync, .send 0, .send 0, .send 0]

theorem receivers_served_joinDuringCommit :
    ∃ final : BroadcastState Nat Nat,
      (opened "server" [7, 8]).run? joinDuringCommit = some final ∧
      (final.connections 0).map (·.socket) =
        some [.event 2 8, .replayComplete 2 0, .event 3 9, .resync 1, .event 1 5,
          .replayComplete 1 1] ∧
      ∃ connection, final.connections 0 = some connection ∧ final.ReceiverServed connection 0 := by
  refine ⟨_, rfl, rfl, ?_⟩
  exact receivers_served "server" [7, 8] joinDuringCommit _ rfl 0 (by decide)

end BroadcastState

end UsdConnect
