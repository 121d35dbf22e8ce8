/-
Purpose: The receiver applies a gap-free prefix exactly once, over every interleaving of messages,
  failures, replay requests, resets and drains.
Trusted boundary: none
Main exports: decodeMessages_spec, Reception.Sound, Reception.ReceptionExact
-/
import UsdConnect.Client.Dispatcher

namespace UsdConnect

variable {Event : Type}

/-! ### Decoding -/

/-- The cursor a batch is decoded from: its own start, or zero after a reset. -/
def DecodeResult.base (result : DecodeResult Event) (lastSeq : Nat) : Nat :=
  if result.resyncRequested then 0 else lastSeq

/-- What a decoded batch holds so far. -/
structure DecodeResult.Contiguous (result : DecodeResult Event) (lastSeq : Nat) : Prop where
  numbered : result.received.map (·.1) =
    List.range' (result.base lastSeq + 1) result.received.length
  cursor : result.lastSeq = result.base lastSeq + result.received.length

/-- The next record in sequence. -/
theorem DecodeResult.Contiguous.push {result : DecodeResult Event} {lastSeq : Nat}
    (contiguous : result.Contiguous lastSeq) (event : Event) :
    DecodeResult.Contiguous
      { result with
        lastSeq := result.lastSeq + 1
        received := result.received ++ [(result.lastSeq + 1, event)] } lastSeq where
  numbered := by
    have range : List.range' (result.base lastSeq + 1) (result.received.length + 1) =
        List.range' (result.base lastSeq + 1) result.received.length ++ [result.lastSeq + 1] := by
      rw [List.range'_concat, contiguous.cursor]
      congr 2
      omega
    simp only [List.map_append, List.map_cons, List.map_nil, List.length_append,
      List.length_singleton, contiguous.numbered]
    exact range.symm
  cursor := by
    have cursor := contiguous.cursor
    simp only [List.length_append, List.length_singleton]
    exact congrArg (· + 1) cursor

/-- The records of a batch continue the cursor without a gap, whatever the batch holds. -/
theorem decodeMessages_spec {lastSeq : Nat} {frames : List (ReceiverFrame Event)}
    (sequenced : ∀ frame ∈ frames, frame.kind.sequenced = true → 1 ≤ frame.sequence) :
    ∀ result : DecodeResult Event, result.Contiguous lastSeq →
      (decodeMessages frames result).Contiguous lastSeq := by
  induction frames with
  | nil => exact fun _ contiguous => contiguous
  | cons frame rest ih =>
      have later := ih fun frame member => sequenced frame (List.mem_cons_of_mem _ member)
      intro result contiguous
      cases frame with
      | resync =>
          apply later
          exact ⟨rfl, rfl⟩
      | other => exact later _ contiguous
      | malformed kind sequence => exact ⟨contiguous.numbered, contiguous.cursor⟩
      | event sequence event =>
          have positive : 1 ≤ sequence := sequenced _ List.mem_cons_self rfl
          have nonzero : sequence ≠ 0 := by omega
          simp only [decodeMessages]
          split
          · exact later _ contiguous
          · split
            · exact ⟨contiguous.numbered, contiguous.cursor⟩
            · next gapless =>
                have next : sequence = result.lastSeq + 1 := by
                  by_contra different
                  exact gapless ⟨nonzero, different⟩
                subst next
                exact later _ (contiguous.push event)

/-! ### What the thread does with a message -/

namespace ReceiverThread

/-- The message is ignored, answered by a replay request, or accepted. -/
inductive MessageEffect (thread : ReceiverThread Event) (frame : ReceiverFrame Event)
    (generation : Nat) : Bool → ReceiverThread Event → Prop where
  | ignored {kept : Bool} {after : ReceiverThread Event} (overflowed : Bool)
      (inbox : after.inbox = { thread.inbox with overflowed := overflowed })
      (event : after.synchronizedEvent = thread.synchronizedEvent)
      (dropsReset : frame.kind = .resync → kept = false) :
      MessageEffect thread frame generation kept after
  | requested {after : ReceiverThread Event} (overflowed : Bool) (seqStart : Nat)
      (positive : 1 ≤ seqStart) (notReset : frame.kind ≠ .resync)
      (inbox : after.inbox =
        (OrderedReceiverSession.requestReplayFrom
          { thread.inbox with overflowed := overflowed } seqStart).2)
      (event : after.synchronizedEvent = false) :
      MessageEffect thread frame generation false after
  | accepted {after : ReceiverThread Event} (current : generation = thread.inbox.generation)
      (sequenced : frame.kind.sequenced = true → 1 ≤ frame.sequence)
      (inbox : after.inbox =
        { thread.inbox.receive frame.kind frame.sequence with
          frames := thread.inbox.frames ++ [frame]
          incomingSerial := thread.inbox.incomingSerial + 1 })
      (event : after.synchronizedEvent =
        if frame.kind = .resync then false else thread.synchronizedEvent) :
      MessageEffect thread frame generation true after

theorem handleDataMessage_effect (thread : ReceiverThread Event) (frame : ReceiverFrame Event)
    (generation : Nat) :
    MessageEffect thread frame generation (thread.handleDataMessage frame generation).1
      (thread.handleDataMessage frame generation).2 := by
  unfold handleDataMessage
  rcases thread.inbox.accept_cases generation frame.kind frame.sequence frame with
    ⟨refused, overflowed, same⟩ | ⟨current, sequenced, _, accepted⟩
  · -- A reset has no sequence, so it is neither a duplicate nor behind a gap.
    have unordered : frame.kind = .resync →
        (thread.inbox.accept generation frame.kind frame.sequence frame).1 ≠ .duplicate ∧
          (thread.inbox.accept generation frame.kind frame.sequence frame).1 ≠ .sequenceGap := by
      intro reset
      simp only [OrderedReceiverSession.accept, reset, ReceiverMessageKind.sequenced,
        Bool.false_eq_true, false_and, and_false, ↓reduceIte]
      split
      · exact ⟨nofun, nofun⟩
      · split
        · exact ⟨nofun, nofun⟩
        · exact ⟨nofun, nofun⟩
    rcases answered : thread.inbox.accept generation frame.kind frame.sequence frame with
      ⟨code, session⟩
    rw [answered] at refused same unordered
    cases same
    cases code with
    | accepted => exact absurd rfl refused
    | staleGeneration => exact .ignored overflowed rfl rfl fun _ => rfl
    | queueFull => exact .ignored overflowed rfl rfl fun _ => rfl
    | invalidSequence => exact .ignored overflowed rfl rfl fun _ => rfl
    | duplicate =>
        exact .ignored overflowed rfl rfl fun reset => absurd rfl (unordered reset).1
    | sequenceGap =>
        exact .requested overflowed (thread.inbox.lastAppliedSequence + 1)
          (Nat.le_add_left 1 _) (fun reset => absurd rfl (unordered reset).2) rfl rfl
  · rw [accepted]
    refine .accepted current sequenced ?_ ?_
    · dsimp only
      split <;> rfl
    · dsimp only
      split <;> rfl

/-- A hello leaves the queue alone, or puts the owed reset into it. -/
theorem handleHelloOk_effect (thread : ReceiverThread Event) (hello : HelloOk)
    (syncFrom generation : Nat) :
    (∃ overflowed,
      (thread.handleHelloOk hello syncFrom generation).2.inbox =
          { thread.inbox with overflowed := overflowed } ∧
        (thread.handleHelloOk hello syncFrom generation).2.synchronizedEvent =
          thread.synchronizedEvent) ∨
    ((thread.handleHelloOk hello syncFrom generation).2.inbox =
        { thread.inbox.receive .resync 0 with
          frames := thread.inbox.frames ++ [.resync]
          incomingSerial := thread.inbox.incomingSerial + 1 } ∧
      (thread.handleHelloOk hello syncFrom generation).2.synchronizedEvent = false) := by
  unfold handleHelloOk
  dsimp only
  split
  · exact Or.inl ⟨thread.inbox.overflowed, rfl, rfl⟩
  · unfold applyResetOnHello
    dsimp only
    by_cases owed : thread.resetOnHello = true
    · rw [if_pos owed]
      generalize greeted : ({ thread with
        connectionServerInstance := hello.serverInstance
        replayIdentitySupported := hello.replayIdentity
        connectionPrefixProven := syncFrom == 1 || thread.prefixValidationRequested
        initialReplayIdentity := _
        receivedReplayIdentity := _ } : ReceiverThread Event) = current
      have sameInbox : current.inbox = thread.inbox := by
        rw [← greeted]
      have sameEvent : current.synchronizedEvent = thread.synchronizedEvent := by
        rw [← greeted]
      have effect := current.handleDataMessage_effect .resync generation
      rcases answered : current.handleDataMessage .resync generation with ⟨kept, after⟩
      rw [answered] at effect
      rw [← sameInbox, ← sameEvent]
      cases effect with
      | ignored overflowed inbox event dropsReset =>
          cases dropsReset rfl
          exact Or.inl ⟨overflowed, inbox, event⟩
      | requested overflowed seqStart positive notReset inbox event =>
          exact absurd rfl notReset
      | accepted current sequenced inbox event => exact Or.inr ⟨inbox, event⟩
    · rw [if_neg owed]
      exact Or.inl ⟨thread.inbox.overflowed, rfl, rfl⟩

end ReceiverThread

namespace Reception

/-! ### The invariant -/

/-- A message the inbox may have accepted. -/
def Sequenced (frame : ReceiverFrame Event) : Prop :=
  frame.kind.sequenced = true → 1 ≤ frame.sequence

/-- Delivered records carry consecutive sequences up to the cursor. -/
structure Delivering (state : Reception Event) : Prop where
  numbered : state.delivered.map (·.1) = List.range' state.start state.delivered.length
  cursor : state.lastSeq + 1 = state.start + state.delivered.length
  batch : ∀ frame ∈ state.batch.getD [], Sequenced frame
  queue : ∀ frame ∈ state.thread.inbox.frames, Sequenced frame

/-- The batch in hand, unless a replay request has overtaken it. -/
def inHand (state : Reception Event) : List (ReceiverFrame Event) :=
  if state.batchCurrent then state.batch.getD [] else []

/-- Where every accepted message is, what a marker stands for, and what has been published. -/
structure Accounting (state : Reception Event) : Prop where
  balanced : state.thread.inbox.SerialsBalanced
  accepted : state.accepted = state.applied ++ state.inHand ++ state.thread.inbox.frames
  marker : ∀ marker, state.thread.inbox.pendingReplay = some marker →
    ∃ count, state.completedAt = some count ∧ count ≤ state.accepted.length ∧
      marker.serial + state.accepted.length = state.thread.inbox.incomingSerial + count
  published : state.thread.synchronizedEvent = true →
    ∃ count, state.completedAt = some count ∧ count ≤ state.applied.length
  current : state.thread.inbox.pendingReplay ≠ none ∨ state.thread.synchronizedEvent = true →
    ∃ connection, state.connection = some connection ∧
      connection.generation = state.thread.inbox.generation ∧ connection.replaying = false

/-- The invariant of every run. -/
structure Sound (state : Reception Event) : Prop where
  delivering : state.Delivering
  accounting : state.Accounting

theorem sound_create {syncFrom : Nat} (positive : 1 ≤ syncFrom) (maxQueue : Nat)
    (requireContiguous : Bool) :
    (create syncFrom maxQueue requireContiguous : Reception Event).Sound where
  delivering :=
    { numbered := rfl
      cursor := Nat.sub_add_cancel positive
      batch := fun _ member => nomatch member
      queue := fun _ member => nomatch member }
  accounting :=
    { balanced := rfl
      accepted := rfl
      marker := fun _ pending => nomatch pending
      published := fun published => nomatch published
      current := by
        rintro (pending | published)
        · exact absurd rfl pending
        · exact nomatch published }

/-! ### Replay requests, completions and drops -/

/-- After a replay request nothing is outstanding: only the delivered records matter. -/
theorem sound_requested {state after : Reception Event} (delivering : state.Delivering)
    (session : OrderedReceiverSession (ReceiverFrame Event))
    {seqStart : Nat} (positive : 1 ≤ seqStart)
    (inbox : after.thread.inbox = (session.requestReplayFrom seqStart).2)
    (event : after.thread.synchronizedEvent = false)
    (kept : after.delivered = state.delivered ∧ after.start = state.start ∧
      after.lastSeq = state.lastSeq ∧ after.batch = state.batch)
    (forgotten : after.accepted = [] ∧ after.applied = [] ∧ after.batchCurrent = false) :
    after.Sound := by
  obtain ⟨delivered, start, lastSeq, batch⟩ := kept
  obtain ⟨accepted, applied, batchCurrent⟩ := forgotten
  have cleared : after.thread.inbox = { session.resetSynchronization with
      generation := session.generation + 1
      requestedReplayFrom := some seqStart
      lastReceivedSequence := seqStart - 1
      lastAppliedSequence := seqStart - 1
      frames := []
      drainedSerial := session.incomingSerial
      overflowed := false } := by
    rw [inbox, OrderedReceiverSession.requestReplayFrom, if_neg (Nat.not_lt.2 positive)]
  constructor
  · refine ⟨?_, ?_, ?_, ?_⟩
    · rw [delivered, start]
      exact delivering.numbered
    · rw [delivered, start, lastSeq]
      exact delivering.cursor
    · rw [batch]
      exact delivering.batch
    · rw [cleared]
      exact fun _ member => nomatch member
  · refine ⟨?_, ?_, ?_, ?_, ?_⟩
    · rw [cleared]
      rfl
    · rw [accepted, applied, inHand, batchCurrent, cleared]
      rfl
    · rw [cleared]
      exact fun _ pending => nomatch pending
    · rw [event]
      exact fun published => nomatch published
    · rw [cleared, event]
      rintro (pending | published)
      · exact absurd rfl pending
      · exact nomatch published

theorem sound_requestReplayFrom {state : Reception Event} (delivering : state.Delivering)
    {seqStart : Nat} (positive : 1 ≤ seqStart) : (state.requestReplayFrom seqStart).Sound :=
  sound_requested delivering state.thread.inbox positive rfl rfl ⟨rfl, rfl, rfl, rfl⟩
    ⟨rfl, rfl, rfl⟩

/-- A dropped connection publishes nothing any more. -/
theorem sound_drop {state : Reception Event} (delivering : state.Delivering)
    (balanced : state.thread.inbox.SerialsBalanced)
    (accepted : state.accepted = state.applied ++ state.inHand ++ state.thread.inbox.frames) :
    state.drop.Sound := by
  have inbox : state.drop.thread.inbox =
      { state.thread.inbox.resetSynchronization with overflowed := false } := by
    unfold drop ReceiverThread.disconnect OrderedReceiverSession.disconnect
    rw [if_pos rfl]
    rfl
  constructor
  · refine ⟨delivering.numbered, delivering.cursor, delivering.batch, ?_⟩
    rw [inbox]
    exact delivering.queue
  · refine ⟨?_, ?_, ?_, fun published => (nomatch published), ?_⟩
    · rw [inbox]
      exact balanced
    · rw [inbox]
      exact accepted
    · rw [inbox]
      exact fun _ pending => nomatch pending
    · rw [inbox]
      rintro (pending | published)
      · exact absurd rfl pending
      · exact nomatch published

theorem Sound.drop {state : Reception Event} (sound : state.Sound) : state.drop.Sound :=
  sound_drop sound.delivering sound.accounting.balanced sound.accounting.accepted

/-- With no batch in hand, a published marker covers only applied messages. -/
theorem sound_markReplayApplied (state : Reception Event) (sound : state.Sound)
    (finished : state.inHand = []) :
    Sound { state with thread := state.thread.markReplayApplied } := by
  unfold ReceiverThread.markReplayApplied OrderedReceiverSession.markReplayApplied
  cases pending : state.thread.inbox.pendingReplay with
  | none => exact sound
  | some marker =>
      dsimp only
      split
      · next refused =>
          split at refused
          · exact sound
          · cases refused
      · next marked =>
          split at marked
          · cases marked
          · next ready =>
              cases marked
              obtain ⟨count, completed, _, serials⟩ := sound.accounting.marker marker pending
              have balanced := sound.accounting.balanced
              have split := congrArg List.length sound.accounting.accepted
              refine ⟨⟨sound.delivering.numbered, sound.delivering.cursor,
                sound.delivering.batch, sound.delivering.queue⟩, ?_⟩
              refine ⟨balanced, sound.accounting.accepted, fun _ pending => (by cases pending),
                fun _ => ⟨count, completed, ?_⟩, fun _ => ?_⟩
              · rw [finished] at split
                simp only [OrderedReceiverSession.SerialsBalanced] at balanced
                simp only [List.append_nil, List.length_append] at split
                simp only [not_or, Nat.not_lt] at ready
                dsimp only
                omega
              · exact sound.accounting.current (Or.inl (by simp [pending]))

/-! ### Messages -/

/-- A thread whose inbox changed nothing but its overflow flag. -/
theorem sound_ignored {state : Reception Event} (sound : state.Sound)
    {after : ReceiverThread Event} (overflowed : Bool)
    (inbox : after.inbox = { state.thread.inbox with overflowed := overflowed })
    (event : after.synchronizedEvent = state.thread.synchronizedEvent) :
    Sound { state with thread := after } := by
  refine ⟨⟨sound.delivering.numbered, sound.delivering.cursor, sound.delivering.batch, ?_⟩, ?_⟩
  · rw [inbox]
    exact sound.delivering.queue
  · refine ⟨?_, ?_, ?_, ?_, ?_⟩
    · rw [inbox]
      exact sound.accounting.balanced
    · rw [inbox]
      exact sound.accounting.accepted
    · rw [inbox]
      exact sound.accounting.marker
    · rw [event]
      exact sound.accounting.published
    · rw [inbox, event]
      exact sound.accounting.current

/-- Only a drop looks past the replay that a message may have re-opened. -/
theorem Sound.drop_receive {state : Reception Event} (sound : state.Sound)
    (connection : Option OpenConnection) :
    (Reception.drop { state with connection := connection }).Sound :=
  sound.drop

theorem receive_of_ne {connection : OpenConnection} {kind : ReceiverMessageKind}
    (notReset : kind ≠ .resync) : connection.receive kind = connection := by
  simp [OpenConnection.receive, notReset]

theorem sound_queued {state : Reception Event} (sound : state.Sound)
    {frame : ReceiverFrame Event} {after : ReceiverThread Event} (sequenced : Sequenced frame)
    (notReset : frame.kind ≠ .resync)
    (inbox : after.inbox =
      { state.thread.inbox.receive frame.kind frame.sequence with
        frames := state.thread.inbox.frames ++ [frame]
        incomingSerial := state.thread.inbox.incomingSerial + 1 })
    (event : after.synchronizedEvent = state.thread.synchronizedEvent) :
    Sound { state with thread := after, accepted := state.accepted ++ [frame] } := by
  obtain ⟨_, _, drained, generation⟩ :=
    state.thread.inbox.receive_frame frame.kind frame.sequence
  have pending : (state.thread.inbox.receive frame.kind frame.sequence).pendingReplay =
      state.thread.inbox.pendingReplay := by
    cases kind : frame.kind with
    | resync => exact absurd kind notReset
    | event | layerGraphState | other => rfl
  have balanced := sound.accounting.balanced
  refine ⟨⟨sound.delivering.numbered, sound.delivering.cursor, sound.delivering.batch, ?_⟩, ?_⟩
  · rw [inbox]
    intro queuedFrame member
    rcases List.mem_append.1 member with old | added
    · exact sound.delivering.queue queuedFrame old
    · rw [List.mem_singleton.1 added]
      exact sequenced
  · refine ⟨?_, ?_, ?_, ?_, ?_⟩
    · rw [inbox]
      simp only [OrderedReceiverSession.SerialsBalanced, drained, List.length_append,
        List.length_singleton] at balanced ⊢
      omega
    · rw [inbox]
      exact (congrArg (· ++ [frame]) sound.accounting.accepted).trans (List.append_assoc _ _ _)
    · rw [inbox]
      intro marker held
      obtain ⟨count, completed, bound, serials⟩ :=
        sound.accounting.marker marker (pending.symm.trans held)
      refine ⟨count, completed, ?_, ?_⟩
      · simp only [List.length_append]
        omega
      · simp only [List.length_append, List.length_singleton]
        omega
    · rw [event]
      exact sound.accounting.published
    · rw [inbox, event]
      dsimp only
      rw [pending, generation]
      exact sound.accounting.current

/-- A queued reset: nothing is published or pending until the next completion. -/
theorem sound_reset {state : Reception Event} (sound : state.Sound)
    {frame : ReceiverFrame Event} {after : ReceiverThread Event} (reset : frame.kind = .resync)
    (inbox : after.inbox =
      { state.thread.inbox.receive frame.kind frame.sequence with
        frames := state.thread.inbox.frames ++ [frame]
        incomingSerial := state.thread.inbox.incomingSerial + 1 })
    (event : after.synchronizedEvent = false) (connection : Option OpenConnection) :
    Sound { state with
      connection := connection
      thread := after
      accepted := state.accepted ++ [frame] } := by
  have balanced := sound.accounting.balanced
  rw [reset] at inbox
  refine ⟨⟨sound.delivering.numbered, sound.delivering.cursor, sound.delivering.batch, ?_⟩, ?_⟩
  · rw [inbox]
    intro queuedFrame member
    rcases List.mem_append.1 member with old | added
    · exact sound.delivering.queue queuedFrame old
    · rw [List.mem_singleton.1 added, Sequenced, reset]
      exact fun sequenced => by cases sequenced
  · refine ⟨?_, ?_, ?_, ?_, ?_⟩
    · rw [inbox]
      simp only [OrderedReceiverSession.SerialsBalanced, OrderedReceiverSession.receive,
        OrderedReceiverSession.resetSynchronization, List.length_append, List.length_singleton]
        at balanced ⊢
      omega
    · rw [inbox]
      exact (congrArg (· ++ [frame]) sound.accounting.accepted).trans (List.append_assoc _ _ _)
    · rw [inbox]
      exact fun _ pending => by cases pending
    · rw [event]
      exact fun published => by cases published
    · rw [inbox, event]
      rintro (pending | published)
      · exact absurd rfl pending
      · cases published

/-- A new generation means that the thread asked for a replay. -/
theorem observe_requested (state : Reception Event) {after : ReceiverThread Event}
    (moved : after.inbox.generation ≠ state.thread.inbox.generation)
    (frame : ReceiverFrame Event) :
    state.observe after frame =
      { state with
        thread := after
        accepted := []
        completedAt := none
        applied := []
        batchCurrent := false } := by
  rw [observe, if_pos moved]

theorem observe_queued (state : Reception Event) {after : ReceiverThread Event}
    (same : after.inbox.generation = state.thread.inbox.generation)
    (queued : after.inbox.incomingSerial ≠ state.thread.inbox.incomingSerial)
    (frame : ReceiverFrame Event) :
    state.observe after frame =
      { state with thread := after, accepted := state.accepted ++ [frame] } := by
  rw [observe, if_neg (not_not_intro same), if_pos queued]

theorem observe_quiet (state : Reception Event) {after : ReceiverThread Event}
    (same : after.inbox.generation = state.thread.inbox.generation)
    (quiet : after.inbox.incomingSerial = state.thread.inbox.incomingSerial)
    (frame : ReceiverFrame Event) :
    state.observe after frame = { state with thread := after } := by
  rw [observe, if_neg (not_not_intro same), if_neg (not_not_intro quiet)]

/-- A message is ignored, answered by a replay request, or queued; a reset re-opens the replay. -/
theorem sound_observe {state : Reception Event} (sound : state.Sound)
    {connection : OpenConnection} (opened : state.connection = some connection)
    {frame : ReceiverFrame Event} {kept : Bool} {after : ReceiverThread Event}
    (effect : ReceiverThread.MessageEffect state.thread frame connection.generation kept after) :
    ((observe { state with connection := some (connection.receive frame.kind) } after
      frame).continueIf kept).Sound := by
  have unchanged : { state with connection := some connection } = state := by
    rw [← opened]
  cases effect with
  | ignored overflowed inbox event dropsReset =>
      rw [observe_quiet _ (by rw [inbox]) (by rw [inbox])]
      cases kept with
      | false => exact (sound_ignored sound overflowed inbox event).drop_receive _
      | true =>
          rw [receive_of_ne fun reset => nomatch dropsReset reset]
          have ignored := sound_ignored sound overflowed inbox event
          rw [← unchanged] at ignored
          exact ignored
  | requested overflowed seqStart positive notReset inbox event =>
      have moved : after.inbox.generation ≠ state.thread.inbox.generation := by
        rw [inbox, OrderedReceiverSession.requestReplayFrom, if_neg (Nat.not_lt.2 positive)]
        exact Nat.succ_ne_self _
      rw [observe_requested { state with connection := some (connection.receive frame.kind) }
        moved]
      apply Sound.drop
      exact sound_requested sound.delivering _ positive inbox event ⟨rfl, rfl, rfl, rfl⟩
        ⟨rfl, rfl, rfl⟩
  | accepted current sequenced inbox event =>
      obtain ⟨_, _, _, generation⟩ :=
        state.thread.inbox.receive_frame frame.kind frame.sequence
      rw [observe_queued _ (by rw [inbox]; exact generation)
        (by rw [inbox]; exact Nat.succ_ne_self _)]
      by_cases reset : frame.kind = .resync
      · rw [if_pos reset] at event
        exact sound_reset sound reset inbox event _
      · rw [if_neg reset] at event
        rw [receive_of_ne reset]
        have queued := sound_queued sound sequenced reset inbox event
        rw [← unchanged] at queued
        exact queued

/-! ### The other steps -/

theorem sound_connect {state : Reception Event} (sound : state.Sound)
    (connection : OpenConnection) :
    Sound { state with
      thread := state.thread.beginConnection.2
      connection := some connection
      completedAt := none } := by
  refine ⟨⟨sound.delivering.numbered, sound.delivering.cursor, sound.delivering.batch,
    sound.delivering.queue⟩, ?_⟩
  refine ⟨sound.accounting.balanced, sound.accounting.accepted, fun _ pending => (nomatch pending),
    fun published => (nomatch published), ?_⟩
  rintro (pending | published)
  · exact absurd rfl pending
  · exact nomatch published

theorem sound_helloOk {state : Reception Event} (sound : state.Sound) (hello : HelloOk)
    (syncFrom generation : Nat) :
    (state.observe (state.thread.handleHelloOk hello syncFrom generation).2 .resync).Sound := by
  rcases state.thread.handleHelloOk_effect hello syncFrom generation with
    ⟨overflowed, inbox, event⟩ | ⟨inbox, event⟩
  · rw [observe_quiet state (by rw [inbox]) (by rw [inbox])]
    exact sound_ignored sound overflowed inbox event
  · rw [observe_queued state (by rw [inbox]; rfl) (by rw [inbox]; exact Nat.succ_ne_self _)]
    exact sound_reset sound rfl inbox event state.connection

/-- A completion marks everything accepted so far.  Nothing is published yet, because the replay
was still open. -/
theorem sound_replayComplete {state : Reception Event} (sound : state.Sound)
    {connection : OpenConnection} (opened : state.connection = some connection)
    (replaying : connection.replaying = true) (headSeq epoch : Nat) :
    (continueIf { state with
        thread := (state.thread.handleReplayComplete connection.generation headSeq epoch).2
        connection := some { connection with replaying := false }
        completedAt :=
          if (state.thread.handleReplayComplete connection.generation headSeq epoch).1 then
            some state.accepted.length
          else state.completedAt }
      (state.thread.handleReplayComplete connection.generation headSeq epoch).1).Sound := by
  have quiet : ¬ (state.thread.inbox.pendingReplay ≠ none ∨
      state.thread.synchronizedEvent = true) := by
    intro published
    obtain ⟨other, same, _, completed⟩ := sound.accounting.current published
    cases opened.symm.trans same
    rw [replaying] at completed
    cases completed
  unfold ReceiverThread.handleReplayComplete OrderedReceiverSession.acceptReplayComplete
  by_cases stale : connection.generation ≠ state.thread.inbox.generation
  · simp only [if_pos stale]
    exact sound.drop_receive _
  · simp only [if_neg stale]
    refine ⟨⟨sound.delivering.numbered, sound.delivering.cursor, sound.delivering.batch,
      sound.delivering.queue⟩, ?_⟩
    refine ⟨sound.accounting.balanced, sound.accounting.accepted, ?_, ?_, ?_⟩
    · intro marker pending
      cases pending
      exact ⟨_, rfl, Nat.le_refl _, rfl⟩
    · intro published
      exact absurd (Or.inr published) quiet
    · intro _
      exact ⟨_, rfl, not_not.1 stale, rfl⟩

theorem sound_drain {state next : Reception Event} (sound : state.Sound)
    {maxMessages : Option Nat} (stepped : state.step? (.drain maxMessages) = some next) :
    next.Sound := by
  simp only [step?] at stepped
  split at stepped
  · cases stepped
  · next idle =>
      have finished : state.inHand = [] := by
        simp [inHand, idle]
      have balanced := sound.accounting.balanced.drain maxMessages
      have accepted := sound.accounting.accepted
      rw [finished, List.append_nil] at accepted
      split at stepped
      · next empty =>
          cases stepped
          have unmoved : (state.thread.inbox.drain maxMessages).2 = state.thread.inbox := by
            have none : min (maxMessages.getD state.thread.inbox.frames.length)
                state.thread.inbox.frames.length = 0 := by
              have length := congrArg List.length empty
              simp only [OrderedReceiverSession.drain, List.length_take, List.length_nil] at length
              omega
            simp only [OrderedReceiverSession.drain, none, List.drop_zero, Nat.add_zero]
          rw [unmoved]
          exact sound_markReplayApplied state sound finished
      · cases stepped
        refine ⟨⟨sound.delivering.numbered, sound.delivering.cursor, ?_, ?_⟩, ?_⟩
        · intro frame member
          exact sound.delivering.queue frame (List.mem_of_mem_take member)
        · intro frame member
          exact sound.delivering.queue frame (List.mem_of_mem_drop member)
        · refine ⟨balanced, ?_, sound.accounting.marker, sound.accounting.published,
            sound.accounting.current⟩
          refine accepted.trans ?_
          simp only [inHand, OrderedReceiverSession.drain, if_true, Option.getD_some,
            List.append_assoc, List.take_append_drop]

theorem delivering_applied {state : Reception Event} (delivering : state.Delivering)
    {batch : List (ReceiverFrame Event)} (held : state.batch = some batch)
    {result : DecodeResult Event}
    (decoded : decodeMessages batch { lastSeq := state.lastSeq } = result) :
    Delivering { state with
      batch := none
      lastSeq := result.lastSeq
      start := if result.resyncRequested then 1 else state.start
      delivered :=
        if result.resyncRequested then result.received
        else state.delivered ++ result.received } := by
  have sequenced : ∀ frame ∈ batch, Sequenced frame := by
    have members := delivering.batch
    rw [held] at members
    exact members
  have contiguous : result.Contiguous state.lastSeq := by
    rw [← decoded]
    exact decodeMessages_spec sequenced _ ⟨rfl, rfl⟩
  have numbered := contiguous.numbered
  have cursor := contiguous.cursor
  refine ⟨?_, ?_, fun _ member => (nomatch member), delivering.queue⟩
  · cases reset : result.resyncRequested with
    | true =>
        simp only [DecodeResult.base, reset, if_true] at numbered
        simpa using numbered
    | false =>
        simp only [DecodeResult.base, reset, Bool.false_eq_true, if_false] at numbered
        simp only [Bool.false_eq_true, if_false, List.map_append, numbered, delivering.numbered,
          List.length_append, delivering.cursor]
        exact List.range'_append_1
  · cases reset : result.resyncRequested with
    | true =>
        simp only [DecodeResult.base, reset, if_true] at cursor
        simp only [if_true, cursor]
        omega
    | false =>
        have before := delivering.cursor
        simp only [DecodeResult.base, reset, Bool.false_eq_true, if_false] at cursor
        simp only [Bool.false_eq_true, if_false, List.length_append, cursor]
        omega

/-- The delivered records when applying a batch raised: those before it, or none after a reset. -/
theorem delivering_failed {state : Reception Event} (delivering : state.Delivering)
    (reset : Bool) :
    Delivering { state with
      batch := none
      lastSeq := if reset then 0 else state.lastSeq
      start := if reset then 1 else state.start
      delivered := if reset then [] else state.delivered } := by
  cases reset with
  | true => exact ⟨rfl, rfl, fun _ member => (nomatch member), delivering.queue⟩
  | false =>
      exact ⟨delivering.numbered, delivering.cursor, fun _ member => (nomatch member),
        delivering.queue⟩

theorem sound_finishBatch {state : Reception Event} (sound : state.Sound)
    {batch : List (ReceiverFrame Event)} (held : state.batch = some batch)
    (applySucceeds : Bool) : (state.finishBatch batch applySucceeds).Sound := by
  unfold finishBatch
  generalize decoded : decodeMessages batch { lastSeq := state.lastSeq } = result
  cases applySucceeds with
  | false =>
      exact sound_requestReplayFrom (delivering_failed sound.delivering result.resyncRequested)
        (Nat.le_add_left 1 _)
  | true =>
      have delivering := delivering_applied sound.delivering held decoded
      simp only [if_true]
      split
      · exact sound_requestReplayFrom delivering (Nat.le_add_left 1 _)
      · refine sound_markReplayApplied { state with
          batch := none
          lastSeq := result.lastSeq
          start := if result.resyncRequested then 1 else state.start
          delivered :=
            if result.resyncRequested then result.received
            else state.delivered ++ result.received
          applied := if state.batchCurrent then state.applied ++ batch else state.applied }
          ⟨⟨delivering.numbered, delivering.cursor, delivering.batch, delivering.queue⟩, ?_⟩ ?_
        · refine ⟨sound.accounting.balanced, ?_, sound.accounting.marker, ?_,
            sound.accounting.current⟩
          · refine sound.accounting.accepted.trans ?_
            cases current : state.batchCurrent with
            | true => simp [inHand, held, current]
            | false => simp [inHand, current]
          · intro published
            obtain ⟨count, completed, bound⟩ := sound.accounting.published published
            refine ⟨count, completed, bound.trans ?_⟩
            cases state.batchCurrent with
            | true => simp
            | false => simp
        · simp [inHand]

/-! ### Runs -/

theorem sound_step {state next : Reception Event} {action : ReceptionAction Event}
    (sound : state.Sound) (stepped : state.step? action = some next) : next.Sound := by
  cases action with
  | connect =>
      simp only [step?] at stepped
      split at stepped
      · cases stepped
      · cases stepped
        exact sound_connect sound _
  | helloOk hello =>
      simp only [step?] at stepped
      split at stepped
      · cases stepped
      · next connection opened =>
          split at stepped
          · cases stepped
          · cases stepped
            have greeted := sound_helloOk sound hello connection.syncFrom connection.generation
            cases kept : (state.thread.handleHelloOk hello connection.syncFrom
                connection.generation).1 with
            | true => exact greeted
            | false => exact greeted.drop
  | message frame =>
      simp only [step?] at stepped
      split at stepped
      · cases stepped
      · next connection opened =>
          split at stepped
          · cases stepped
            exact sound_observe sound opened
              (state.thread.handleDataMessage_effect frame connection.generation)
          · cases stepped
  | replayComplete headSeq epoch =>
      simp only [step?] at stepped
      split at stepped
      · cases stepped
      · next connection opened =>
          split at stepped
          · next ready =>
              cases stepped
              exact sound_replayComplete sound opened (Bool.and_eq_true_iff.1 ready).2 headSeq
                epoch
          · cases stepped
  | drop =>
      simp only [step?] at stepped
      split at stepped
      · cases stepped
        exact sound.drop
      · cases stepped
  | requestReplay seqStart =>
      simp only [step?] at stepped
      split at stepped
      · cases stepped
      · next positive =>
          cases stepped
          exact sound_requestReplayFrom sound.delivering (Nat.not_lt.1 positive)
  | drain maxMessages => exact sound_drain sound stepped
  | finish applySucceeds =>
      simp only [step?] at stepped
      split at stepped
      · cases stepped
      · next batch held =>
          cases stepped
          exact sound_finishBatch sound held applySucceeds

theorem sound_run {actions : List (ReceptionAction Event)} :
    ∀ {state final : Reception Event}, state.Sound → state.run? actions = some final →
      final.Sound := by
  induction actions with
  | nil =>
      intro state final sound ran
      cases ran
      exact sound
  | cons action actions ih =>
      intro state final sound ran
      obtain ⟨next, stepped, rest⟩ := Option.bind_eq_some_iff.1 ran
      exact ih (sound_step sound stepped) rest

/-- What holds of the receiver and its consumer in every state they reach. -/
structure ReceptionExact (state : Reception Event) : Prop where
  /-- Delivered records run from the start without a gap or a repetition up to the cursor. -/
  delivered : state.delivered.map (·.1) =
    List.range' state.start (state.lastSeq + 1 - state.start)
  /-- Whatever is handed to the apply step next, again or for the first time, continues right
  after the committed cursor, or at one after a reset. -/
  attempted : ∀ batch, state.batch = some batch →
    ∀ result, decodeMessages batch { lastSeq := state.lastSeq } = result →
      result.received.map (·.1) =
        List.range' (result.base state.lastSeq + 1) result.received.length
  serials : state.thread.inbox.drainedSerial + state.thread.inbox.frames.length =
    state.thread.inbox.incomingSerial
  /-- Every message accepted before the latest completed replay has been drained and applied. -/
  synchronized : state.thread.synchronized = true →
    ∃ count, state.completedAt = some count ∧ state.accepted.take count <+: state.applied

theorem Sound.exact {state : Reception Event} (sound : state.Sound) : state.ReceptionExact where
  delivered := by
    have length : state.lastSeq + 1 - state.start = state.delivered.length := by
      have cursor := sound.delivering.cursor
      omega
    rw [length]
    exact sound.delivering.numbered
  attempted := by
    intro batch held result decoded
    have sequenced : ∀ frame ∈ batch, Sequenced frame := by
      have members := sound.delivering.batch
      rw [held] at members
      exact members
    rw [← decoded]
    exact (decodeMessages_spec sequenced _ ⟨rfl, rfl⟩).numbered
  serials := sound.accounting.balanced
  synchronized := by
    intro reported
    obtain ⟨count, completed, bound⟩ :=
      sound.accounting.published (Bool.and_eq_true_iff.1 reported).2
    refine ⟨count, completed, ?_⟩
    rw [sound.accounting.accepted, List.append_assoc, List.take_append_of_le_length bound]
    exact List.take_prefix count state.applied

/-- Over every run of the receiver, from any first cursor and queue bound. -/
theorem reception_exact (syncFrom maxQueue : Nat) (requireContiguous : Bool)
    (positive : 1 ≤ syncFrom) (actions : List (ReceptionAction Event)) (final : Reception Event)
    (ran : (create syncFrom maxQueue requireContiguous).run? actions = some final) :
    final.ReceptionExact :=
  (sound_run (sound_create positive maxQueue requireContiguous) ran).exact

/-- A replay of two records whose first batch fails to apply, the replay of everything after it,
and a second batch that succeeds. -/
def retriedBatch : List (ReceptionAction Nat) :=
  [.connect, .helloOk ⟨"server", true, some 0⟩, .message (.event 1 7), .message (.event 2 8),
    .replayComplete 2 0, .drain none, .finish false, .drop, .connect,
    .helloOk ⟨"server", true, some 0⟩, .message (.event 1 7), .message (.event 2 8),
    .replayComplete 2 0, .drain (some 2), .finish true, .drain none, .finish true]

theorem reception_exact_retriedBatch :
    ∃ final, (create 1 8 true).run? retriedBatch = some final ∧
      final.thread.synchronized = true ∧ final.delivered = [(1, 7), (2, 8)] ∧
      final.ReceptionExact := by
  refine ⟨_, rfl, rfl, rfl, ?_⟩
  exact reception_exact 1 8 true (Nat.le_refl 1) retriedBatch _ rfl

end Reception

end UsdConnect
