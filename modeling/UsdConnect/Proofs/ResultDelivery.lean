/-
Purpose: Reducing runs of acknowledgements is invisible to the producer in every run of a connection:
  acknowledgements never decrease and never pass what was submitted, and of two the later one does all.
Trusted boundary: none
Main exports: EventSender.absorption, ResultConnection.coalescingInvisible_run
-/
import UsdConnect.Protocol.ResultDelivery
import UsdConnect.Proofs.ProducerCalls

namespace UsdConnect

variable {Payload : Type}

/-! ### Two acknowledgements in a row -/

namespace OrderedOutboxStorage

theorem acknowledgeLoop_add (transactionId : Nat) (queue : List (OrderedOutboxEntry Payload))
    (transactionCount eventCount pendingEvents : Nat) :
    acknowledgeLoop transactionId queue transactionCount eventCount pendingEvents =
      let popped := acknowledgeLoop transactionId queue 0 0 pendingEvents
      ⟨popped.queue, transactionCount + popped.transactionCount, eventCount + popped.eventCount,
        popped.pendingEvents⟩ := by
  induction queue generalizing transactionCount eventCount pendingEvents with
  | nil => rfl
  | cons front rest ih =>
      by_cases acknowledged : front.transactionId ≤ transactionId
      · simp only [acknowledgeLoop, acknowledged, if_true]
        rw [ih, ih (0 + 1)]
        simp only [Nat.zero_add, Nat.add_assoc]
      · simp [acknowledgeLoop, acknowledged]

/-- Popping up to an id and then up to a later one pops up to the later one. -/
theorem acknowledgeLoop_again {first second : Nat} (le : first ≤ second)
    (queue : List (OrderedOutboxEntry Payload)) (transactionCount eventCount pendingEvents : Nat) :
    let popped := acknowledgeLoop first queue transactionCount eventCount pendingEvents
    acknowledgeLoop second popped.queue popped.transactionCount popped.eventCount
        popped.pendingEvents =
      acknowledgeLoop second queue transactionCount eventCount pendingEvents := by
  induction queue generalizing transactionCount eventCount pendingEvents with
  | nil => rfl
  | cons front rest ih =>
      by_cases acknowledged : front.transactionId ≤ first
      · simp only [acknowledgeLoop, acknowledged, Nat.le_trans acknowledged le, if_true]
        exact ih _ _ _
      · simp only [acknowledgeLoop, acknowledged, if_false]

theorem acknowledgeThrough_acknowledgeThrough {first second : Nat} (le : first ≤ second)
    (outbox : OrderedOutboxStorage Payload) :
    (outbox.acknowledgeThrough first).acknowledgeThrough second =
      outbox.acknowledgeThrough second := by
  have again := acknowledgeLoop_again le outbox.queue 0 0 outbox.pendingEvents
  dsimp only at again
  rw [acknowledgeLoop_add] at again
  unfold acknowledgeThrough
  rw [← again]
  dsimp only
  rw [OrderedOutboxStorage.mk.injEq]
  refine ⟨rfl, rfl, ?_, rfl, ?_, rfl, ?_, ?_, ?_, ?_⟩
  · split <;> split <;> split <;> omega
  · omega
  · omega
  · omega
  · omega
  · omega

theorem highestSubmitted_le_acknowledgeThrough (outbox : OrderedOutboxStorage Payload)
    (transactionId : Nat) :
    outbox.highestSubmittedTransactionId ≤
      (outbox.acknowledgeThrough transactionId).highestSubmittedTransactionId := by
  unfold highestSubmittedTransactionId
  rw [acknowledgeThrough_nextTransactionId]
  omega

end OrderedOutboxStorage

/-! ### Results in order -/

/-- Acknowledgements that never decrease, from a lower bound on and up to an upper one. -/
def ResultsInOrder (high : Nat) : Nat → List TransactionResult → Prop
  | _, [] => True
  | low, .acknowledged txnId _ :: rest =>
      low ≤ txnId ∧ txnId ≤ high ∧ ResultsInOrder high txnId rest
  | low, .rejected .. :: rest => ResultsInOrder high low rest

namespace ResultsInOrder

variable {high low : Nat} {results : List TransactionResult}

theorem mono {higher : Nat} (inOrder : ResultsInOrder high low results) (le : high ≤ higher) :
    ResultsInOrder higher low results := by
  induction results generalizing low with
  | nil => trivial
  | cons result rest ih =>
      cases result with
      | acknowledged txnId checkpoint =>
          exact ⟨inOrder.1, Nat.le_trans inOrder.2.1 le, ih inOrder.2.2⟩
      | rejected txnId rejection => exact ih inOrder

theorem lower {lowest : Nat} (inOrder : ResultsInOrder high low results) (le : lowest ≤ low) :
    ResultsInOrder high lowest results := by
  induction results with
  | nil => trivial
  | cons result rest ih =>
      cases result with
      | acknowledged txnId checkpoint => exact ⟨Nat.le_trans le inOrder.1, inOrder.2⟩
      | rejected txnId rejection => exact ih inOrder

/-- A result at the end: an acknowledgement at or above the upper bound, which then moves there. -/
theorem concat_acknowledged (inOrder : ResultsInOrder high low results) (le : low ≤ high)
    {txnId : Nat} (above : high ≤ txnId) (checkpoint : Option TransactionCheckpoint) :
    ResultsInOrder txnId low (results ++ [.acknowledged txnId checkpoint]) := by
  induction results generalizing low with
  | nil => exact ⟨Nat.le_trans le above, Nat.le_refl _, trivial⟩
  | cons result rest ih =>
      cases result with
      | acknowledged other _ =>
          exact ⟨inOrder.1, Nat.le_trans inOrder.2.1 above, ih inOrder.2.2 inOrder.2.1⟩
      | rejected other rejection => exact ih inOrder le

theorem concat_rejected (inOrder : ResultsInOrder high low results) (txnId : Nat)
    (rejection : TransactionRejection) :
    ResultsInOrder high low (results ++ [.rejected txnId rejection]) := by
  induction results generalizing low with
  | nil => trivial
  | cons result rest ih =>
      cases result with
      | acknowledged other _ => exact ⟨inOrder.1, inOrder.2.1, ih inOrder.2.2⟩
      | rejected other _ => exact ih inOrder

/-- Leaving out an acknowledgement keeps the order of the others. -/
theorem skip {earlier : List TransactionResult} {first second : TransactionResult}
    (coalesced : coalesces first second = true)
    (inOrder : ResultsInOrder high low (earlier ++ first :: second :: results)) :
    ResultsInOrder high low (earlier ++ second :: results) := by
  induction earlier generalizing low with
  | nil =>
      cases first with
      | rejected txnId rejection => simp [coalesces, TransactionResult.isAcknowledged] at coalesced
      | acknowledged txnId checkpoint => exact inOrder.2.2.lower inOrder.1
  | cons result rest ih =>
      cases result with
      | acknowledged txnId checkpoint => exact ⟨inOrder.1, inOrder.2.1, ih inOrder.2.2⟩
      | rejected txnId rejection => exact ih inOrder

end ResultsInOrder

/-! ### Reading results -/

namespace EventSender

/-- While the reader's connection is up, its session is ready and takes the results in order. -/
def Fits (generation : Nat) (sender : EventSender Payload) (results : List TransactionResult) :
    Prop :=
  sender.connected = true → sender.socketGeneration = generation →
    sender.session.generation = generation ∧ sender.session.phase = .ready ∧
      ResultsInOrder sender.session.outbox.highestSubmittedTransactionId
        sender.session.outbox.lastAcknowledgedTransactionId results

section Reading

variable {generation : Nat} {sender : EventSender Payload}

theorem acceptResult_ignored
    (away : ¬ (sender.connected = true ∧ sender.socketGeneration = generation))
    (result : TransactionResult) : sender.acceptResult generation result = sender := by
  unfold acceptResult
  apply if_pos
  by_cases current : generation = sender.socketGeneration
  · right
    cases connected : sender.connected with
    | false => rfl
    | true => exact absurd ⟨connected, current.symm⟩ away
  · exact Or.inl current

theorem Fits.accepts {txnId : Nat} {checkpoint : Option TransactionCheckpoint}
    {rest : List TransactionResult}
    (fits : sender.Fits generation (.acknowledged txnId checkpoint :: rest))
    (connected : sender.connected = true) (published : sender.socketGeneration = generation) :
    sender.session.acknowledgeThrough generation txnId =
      (.accepted, { sender.session with
        outbox := sender.session.outbox.acknowledgeThrough txnId }) := by
  obtain ⟨current, ready, above, below, _⟩ := fits connected published
  have phase : sender.session.requirePhase generation .ready = .accepted :=
    OrderedProducerSession.requirePhase_eq_accepted.2 ⟨current.symm, by rw [ready]; decide, ready⟩
  have highwater : sender.session.validateHighwater txnId = .accepted :=
    OrderedProducerSession.validateHighwater_eq_accepted.2 ⟨above, below⟩
  unfold OrderedProducerSession.acknowledgeThrough
  rw [phase, highwater]

theorem acceptResult_acknowledged {txnId : Nat} {checkpoint : Option TransactionCheckpoint}
    {rest : List TransactionResult}
    (fits : sender.Fits generation (.acknowledged txnId checkpoint :: rest))
    (connected : sender.connected = true) (published : sender.socketGeneration = generation) :
    sender.acceptResult generation (.acknowledged txnId checkpoint) =
      { sender with
        session := { sender.session with
          outbox := sender.session.outbox.acknowledgeThrough txnId }
        acknowledgedCheckpoint := sender.mirrorCheckpoint checkpoint } := by
  unfold acceptResult
  rw [if_neg (by simp [published, connected])]
  dsimp only
  rw [fits.accepts connected published]

theorem acceptResult_rejected (connected : sender.connected = true)
    (published : sender.socketGeneration = generation)
    (current : sender.session.generation = generation) (ready : sender.session.phase = .ready)
    (txnId : Nat) (rejection : TransactionRejection) :
    (sender.acceptResult generation (.rejected txnId rejection)).connected = false := by
  have phase : sender.session.requirePhase generation .ready = .accepted :=
    OrderedProducerSession.requirePhase_eq_accepted.2 ⟨current.symm, by rw [ready]; decide, ready⟩
  have closes : ∀ failed : EventSender Payload, failed.close.connected = false := by
    intro failed
    unfold close
    split
    · rfl
    · next closed => simpa using closed
  unfold acceptResult
  rw [if_neg (by simp [published, connected])]
  dsimp only
  unfold OrderedProducerSession.reject
  rw [phase]
  dsimp only
  by_cases known : sender.session.outbox.contains txnId = true
  · rw [if_pos known]
    exact closes _
  · rw [if_neg known]
    exact closes _

/-- A result read in order leaves the rest in order. -/
theorem Fits.advance {result : TransactionResult} {rest : List TransactionResult}
    (fits : sender.Fits generation (result :: rest)) :
    (sender.acceptResult generation result).Fits generation rest := by
  by_cases live : sender.connected = true ∧ sender.socketGeneration = generation
  · obtain ⟨current, ready, inOrder⟩ := fits live.1 live.2
    cases result with
    | acknowledged txnId checkpoint =>
        rw [acceptResult_acknowledged fits live.1 live.2]
        intro _ _
        refine ⟨current, ready, ?_⟩
        dsimp only
        rw [OrderedOutboxStorage.acknowledgeThrough_lastAcknowledged, Nat.max_eq_right inOrder.1]
        exact inOrder.2.2.mono (OrderedOutboxStorage.highestSubmitted_le_acknowledgeThrough _ _)
    | rejected txnId rejection =>
        intro connected _
        rw [acceptResult_rejected live.1 live.2 current ready] at connected
        cases connected
  · rw [acceptResult_ignored live]
    intro connected published
    exact absurd ⟨connected, published⟩ live

/-- Leaving out an acknowledgement keeps the rest fitting. -/
theorem Fits.skip {earlier rest : List TransactionResult} {first second : TransactionResult}
    (coalesced : coalesces first second = true)
    (fits : sender.Fits generation (earlier ++ first :: second :: rest)) :
    sender.Fits generation (earlier ++ second :: rest) := by
  intro connected published
  obtain ⟨current, ready, inOrder⟩ := fits connected published
  exact ⟨current, ready, inOrder.skip coalesced⟩

/-- Of two acknowledgements the later one does everything. -/
theorem acceptResult_coalesces {first second : TransactionResult} {rest : List TransactionResult}
    (coalesced : coalesces first second = true)
    (fits : sender.Fits generation (first :: second :: rest)) :
    (sender.acceptResult generation first).acceptResult generation second =
      sender.acceptResult generation second := by
  by_cases live : sender.connected = true ∧ sender.socketGeneration = generation
  · cases first with
    | rejected txnId rejection => simp [coalesces, TransactionResult.isAcknowledged] at coalesced
    | acknowledged one early =>
        cases second with
        | rejected txnId rejection =>
            simp [coalesces, TransactionResult.isAcknowledged] at coalesced
        | acknowledged two late =>
            have later := fits.advance
            have alone := @Fits.skip _ _ _ [] _ _ _ coalesced fits
            obtain ⟨_, _, _, _, next, _⟩ := fits live.1 live.2
            rw [acceptResult_acknowledged alone live.1 live.2]
            rw [acceptResult_acknowledged fits live.1 live.2] at later ⊢
            rw [acceptResult_acknowledged later live.1 live.2]
            dsimp only
            rw [OrderedOutboxStorage.acknowledgeThrough_acknowledgeThrough next]
            rfl
  · rw [acceptResult_ignored live, acceptResult_ignored live]

/-- Results that fit can be coalesced. -/
theorem absorption (Payload : Type) (generation : Nat) :
    Absorption (@acceptResult Payload generation) coalesces (Fits generation) where
  advance := fun _ _ _ fits => fits.advance
  absorb := fun _ _ _ _ coalesced fits => acceptResult_coalesces coalesced fits
  skip := fun _ _ _ _ _ coalesced fits => fits.skip coalesced

end Reading

end EventSender

/-! ### Runs of a connection -/

/-- Lower bound after a result. -/
def lowAfter (low : Nat) : TransactionResult → Nat
  | .acknowledged txnId _ => txnId
  | .rejected .. => low

theorem ResultsInOrder.absorption (high : Nat) :
    Absorption lowAfter coalesces (ResultsInOrder high) where
  advance := by
    intro low result rest inOrder
    cases result with
    | acknowledged txnId checkpoint => exact inOrder.2.2
    | rejected txnId rejection => exact inOrder
  absorb := by
    intro low first second rest coalesced _
    cases second with
    | acknowledged txnId checkpoint => rfl
    | rejected txnId rejection => simp [coalesces, TransactionResult.isAcknowledged] at coalesced
  skip := fun _ _ _ _ _ coalesced inOrder => inOrder.skip coalesced

theorem OrderedProducerSession.SameOutbox.trans {first second third : OrderedProducerSession Payload}
    (one : SameOutbox first second) (two : SameOutbox second third) : SameOutbox first third where
  queue := two.queue.trans one.queue
  nextTransactionId := two.nextTransactionId.trans one.nextTransactionId
  lastAcknowledged := two.lastAcknowledged.trans one.lastAcknowledged
  generation := Nat.le_trans one.generation two.generation
  waiting := fun waiting same =>
    have middle : second.generation = first.generation :=
      Nat.le_antisymm (same ▸ two.generation) one.generation
    one.waiting (two.waiting waiting (same.trans middle.symm)) middle

theorem OrderedProducerSession.claimNextUnsent_phase (session : OrderedProducerSession Payload)
    (generation : Nat) :
    (session.claimNextUnsent generation).2.2.phase = session.phase ∧
      (session.claimNextUnsent generation).2.2.generation = session.generation := by
  unfold claimNextUnsent
  cases session.requirePhase generation .ready with
  | accepted =>
      dsimp only
      split
      · exact ⟨rfl, rfl⟩
      · exact ⟨rfl, rfl⟩
  | _ => exact ⟨rfl, rfl⟩

namespace EventSender

variable {generation : Nat} {sender : EventSender Payload}

open OrderedProducerSession

theorem close_sameOutbox {before : OrderedProducerSession Payload}
    (same : SameOutbox before sender.session) : SameOutbox before sender.close.session := by
  unfold close
  split
  · exact same.trans (disconnect_sameOutbox _ _)
  · exact same

/-- A rejection leaves the queue and its counters alone. -/
theorem acceptResult_rejected_sameOutbox (generation : Nat) (sender : EventSender Payload)
    (txnId : Nat) (rejection : TransactionRejection) :
    SameOutbox sender.session (sender.acceptResult generation (.rejected txnId rejection)).session := by
  unfold acceptResult
  split
  · exact SameOutbox.refl _
  · dsimp only
    have rejected := reject_sameOutbox sender.session generation txnId
      (TransactionFailure.disposition ⟨txnId, rejection.code, rejection.reason,
        rejection.expectedTxnId⟩)
    split
    · next known => rwa [known] at rejected
    · next known =>
        rw [known] at rejected
        exact close_sameOutbox rejected
    · next known =>
        rw [known] at rejected
        exact close_sameOutbox rejected

end EventSender

namespace ResultConnection

/-- What holds of a connection at every step. -/
structure Sound (connection : ResultConnection Payload) : Prop where
  started : 0 < connection.sender.session.outbox.nextTransactionId
  outbox : ∀ entry ∈ connection.sender.session.outbox.queue,
    entry.transactionId ≤ connection.sender.session.outbox.highestSubmittedTransactionId
  wire : ∀ id ∈ connection.wire,
    id ≤ connection.sender.session.outbox.highestSubmittedTransactionId
  submitted : connection.committedThrough ≤
    connection.sender.session.outbox.highestSubmittedTransactionId
  live : connection.sender.connected = true →
    connection.sender.session.generation = connection.sender.socketGeneration ∧
      connection.sender.session.phase = .ready ∧
        connection.sender.session.outbox.lastAcknowledgedTransactionId ≤
          connection.committedThrough ∧
        ResultsInOrder connection.committedThrough
          connection.sender.session.outbox.lastAcknowledgedTransactionId
          (connection.inbox ++ connection.queued)

/-- The results a sound connection has decided fit its client. -/
theorem Sound.fits {connection : ResultConnection Payload} (sound : connection.Sound) :
    connection.sender.Fits connection.sender.socketGeneration
      (connection.inbox ++ connection.queued) := by
  intro connected _
  obtain ⟨current, ready, _, inOrder⟩ := sound.live connected
  exact ⟨current, ready, inOrder.mono sound.submitted⟩

/-- Reading results that fit refuses no acknowledgement. -/
theorem noneRefused_of_fits {connection : ResultConnection Payload}
    {results : List TransactionResult}
    (fits : connection.sender.Fits connection.sender.socketGeneration results) :
    connection.NoneRefused results := by
  intro earlier txnId checkpoint later split handed
  rw [split] at fits
  have here : (connection.readAll earlier).Fits connection.sender.socketGeneration
      (.acknowledged txnId checkpoint :: later) :=
    (EventSender.absorption Payload _).advance_all fits
  rw [here.accepts handed.1 handed.2]
  exact ⟨fun refused => (nomatch refused), fun refused => (nomatch refused)⟩

theorem Sound.coalescingInvisible {connection : ResultConnection Payload}
    (sound : connection.Sound) (txnBatchSize : Nat) :
    connection.CoalescingInvisible txnBatchSize := by
  intro marked all
  have fits : connection.sender.Fits connection.sender.socketGeneration
      (connection.inbox ++ ([] ++ (marked.map (·.1) ++ []))) := by
    rw [List.append_nil, List.nil_append, all]
    exact sound.fits
  have absorbed := EventSender.absorption Payload connection.sender.socketGeneration
  obtain ⟨within, same⟩ := @Absorption.foldl_coalesceLoop _ _ _ _ _ absorbed (max 1 txnBatchSize)
    _ _ _ _ 0 _ fits
  rw [List.append_nil] at within same
  rw [List.append_nil, List.nil_append, all] at same
  exact ⟨same, noneRefused_of_fits within⟩

/-! ### One step -/

/-- Deciding a transaction: the progress does not fall and stays within what was submitted, and the
result goes behind the earlier ones. -/
theorem outcome_inOrder (committedThrough txnId : Nat) (decision : TransactionDecision) :
    committedThrough ≤ (outcome committedThrough txnId decision).2 ∧
      (outcome committedThrough txnId decision).2 ≤ max committedThrough txnId ∧
      ∀ low results, ResultsInOrder committedThrough low results → low ≤ committedThrough →
        ResultsInOrder (outcome committedThrough txnId decision).2 low
          (results ++ [(outcome committedThrough txnId decision).1]) := by
  cases decision with
  | error rejection =>
      refine ⟨Nat.le_refl _, Nat.le_max_left _ _, ?_⟩
      intro low results inOrder _
      exact inOrder.concat_rejected txnId rejection
  | ok checkpoint =>
      unfold outcome checkTransactionId
      dsimp only
      by_cases early : txnId ≤ committedThrough
      · rw [if_pos early]
        refine ⟨Nat.le_refl _, Nat.le_max_left _ _, ?_⟩
        intro low results inOrder progress
        exact inOrder.concat_acknowledged progress (Nat.le_refl _) none
      · rw [if_neg early]
        by_cases gap : txnId ≠ committedThrough + 1
        · rw [if_pos gap]
          refine ⟨Nat.le_refl _, Nat.le_max_left _ _, ?_⟩
          intro low results inOrder _
          exact inOrder.concat_rejected txnId _
        · rw [if_neg gap]
          have above : committedThrough ≤ txnId := by omega
          refine ⟨above, Nat.le_max_right _ _, ?_⟩
          intro low results inOrder progress
          exact inOrder.concat_acknowledged progress above checkpoint

section Steps

variable {connection : ResultConnection Payload} (sound : connection.Sound)

include sound

theorem Sound.moveSession {sender : EventSender Payload}
    (same : connection.sender.session.SameOutbox sender.session)
    (live : sender.connected = true → connection.sender.connected = true ∧
      sender.session.generation = sender.socketGeneration ∧ sender.session.phase = .ready) :
    ({ connection with sender := sender } : ResultConnection Payload).Sound := by
  have highest : sender.session.outbox.highestSubmittedTransactionId =
      connection.sender.session.outbox.highestSubmittedTransactionId := by
    unfold OrderedOutboxStorage.highestSubmittedTransactionId
    rw [same.nextTransactionId]
  constructor
  · dsimp only
    rw [same.nextTransactionId]
    exact sound.started
  · dsimp only
    rw [same.queue, highest]
    exact sound.outbox
  · dsimp only
    rw [highest]
    exact sound.wire
  · dsimp only
    rw [highest]
    exact sound.submitted
  · intro connected
    obtain ⟨before, current, ready⟩ := live connected
    obtain ⟨_, _, progress, inOrder⟩ := sound.live before
    dsimp only
    rw [same.lastAcknowledged]
    exact ⟨current, ready, progress, inOrder⟩

theorem Sound.pushWire {id : Nat}
    (submitted : id ≤ connection.sender.session.outbox.highestSubmittedTransactionId) :
    ({ connection with wire := connection.wire ++ [id] } : ResultConnection Payload).Sound where
  started := sound.started
  outbox := sound.outbox
  wire := by
    intro other member
    rcases List.mem_append.1 member with old | new
    · exact sound.wire other old
    · rw [List.mem_singleton.1 new]
      exact submitted
  submitted := sound.submitted
  live := sound.live

theorem Sound.submit (id : Nat) (payload : Payload) (events : Nat) (layer : String) (direct : Bool)
    (txnBatchSize : Nat) :
    (connection.perform txnBatchSize (.submit id payload events layer direct)).Sound := by
  unfold perform
  dsimp only
  by_cases connected : connection.sender.connected = true
  · rw [if_pos connected]
    rcases connection.sender.session.append_cases connection.sender.socketGeneration id payload events
      layer with ⟨_, next, accepted⟩ | ⟨result, refused, unchanged⟩
    · rw [accepted]
      have started := sound.started
      have grown : ({ connection with
          sender := { connection.sender with
            session := { connection.sender.session with
              outbox := connection.sender.session.outbox.append id payload events layer } } } :
          ResultConnection Payload).Sound := by
        have highest : connection.sender.session.outbox.highestSubmittedTransactionId ≤
            (connection.sender.session.outbox.append id payload events
              layer).highestSubmittedTransactionId :=
          Nat.sub_le_sub_right (Nat.le_succ _) 1
        constructor
        · exact Nat.succ_pos _
        · intro entry member
          rcases List.mem_append.1 member with old | new
          · exact Nat.le_trans (sound.outbox entry old) highest
          · rw [List.mem_singleton.1 new, next]
            exact Nat.le_refl _
        · intro other member
          exact Nat.le_trans (sound.wire other member) highest
        · exact Nat.le_trans sound.submitted highest
        · exact sound.live
      cases direct with
      | false => exact grown
      | true =>
          apply grown.pushWire
          rw [next]
          exact Nat.le_refl _
    · rw [unchanged]
      cases result with
      | accepted => exact absurd rfl refused
      | _ => exact sound
  · rw [if_neg connected]
    exact sound

theorem Sound.claim (txnBatchSize : Nat) : (connection.perform txnBatchSize .claim).Sound := by
  unfold perform
  dsimp only
  rcases connection.sender.session.claimNextUnsent_cases connection.sender.socketGeneration with
    ⟨entry, after, _, same, member, taken⟩ | ⟨result, nothing⟩
  · have kept := connection.sender.session.claimNextUnsent_phase connection.sender.socketGeneration
    rw [taken] at kept ⊢
    dsimp only at kept ⊢
    have live : connection.sender.connected = true → connection.sender.connected = true ∧
        after.generation = connection.sender.socketGeneration ∧ after.phase = .ready := by
      intro connected
      obtain ⟨current, ready, _⟩ := sound.live connected
      exact ⟨connected, kept.2.trans current, kept.1.trans ready⟩
    have moved := @Sound.moveSession _ _ sound { connection.sender with session := after } same live
    exact moved.pushWire (moved.outbox entry member)
  · rw [nothing]
    exact sound

/-- The server decides a transaction the client has submitted. -/
theorem Sound.decide (decision : TransactionDecision) (txnBatchSize : Nat) :
    (connection.perform txnBatchSize (.decide decision)).Sound := by
  unfold perform
  dsimp only
  split
  · exact sound
  · next txnId rest waiting =>
      have here : txnId ≤ connection.sender.session.outbox.highestSubmittedTransactionId := by
        apply sound.wire
        rw [waiting]
        exact List.mem_cons_self
      obtain ⟨above, within, keeps⟩ := outcome_inOrder connection.committedThrough txnId decision
      constructor
      · exact sound.started
      · exact sound.outbox
      · intro other member
        apply sound.wire other
        rw [waiting]
        exact List.mem_cons_of_mem txnId member
      · exact Nat.le_trans within (Nat.max_le.2 ⟨sound.submitted, here⟩)
      · intro connected
        obtain ⟨current, ready, progress, inOrder⟩ := sound.live connected
        refine ⟨current, ready, Nat.le_trans progress above, ?_⟩
        dsimp only
        rw [← List.append_assoc]
        exact keeps _ _ inOrder progress

theorem Sound.rateLimit (txnBatchSize : Nat) :
    (connection.perform txnBatchSize .rateLimit).Sound where
  started := sound.started
  outbox := sound.outbox
  wire := fun id member => sound.wire id (List.mem_of_mem_tail member)
  submitted := sound.submitted
  live := sound.live

theorem Sound.commitElsewhere (txnBatchSize : Nat) :
    (connection.perform txnBatchSize .commitElsewhere).Sound := by
  unfold perform
  dsimp only
  split
  · next room =>
      refine ⟨sound.started, sound.outbox, sound.wire, room, fun connected => ?_⟩
      obtain ⟨current, ready, progress, inOrder⟩ := sound.live connected
      exact ⟨current, ready, Nat.le_succ_of_le progress, inOrder.mono (Nat.le_succ _)⟩
  · exact sound

theorem Sound.sendBatch (size txnBatchSize : Nat) :
    (connection.perform txnBatchSize (.sendBatch size)).Sound := by
  refine ⟨sound.started, sound.outbox, sound.wire, sound.submitted, fun connected => ?_⟩
  obtain ⟨current, ready, progress, inOrder⟩ := sound.live connected
  refine ⟨current, ready, progress, ?_⟩
  unfold perform transactionResultLoop
  dsimp only
  rw [List.append_assoc]
  have marked : ∀ results : List TransactionResult,
      (results.map fun result => (result, false)).map (·.1) = results := by
    intro results
    rw [List.map_map]
    exact List.map_id results
  apply ((ResultsInOrder.absorption _).foldl_coalesceLoop (max 1 txnBatchSize) _).1
  rw [marked, List.nil_append, List.take_append_drop]
  exact inOrder

/-- Messages are lost on a connection that is down. -/
theorem Sound.dropInbox (down : connection.sender.connected = false)
    (rest : List TransactionResult) :
    ({ connection with inbox := rest } : ResultConnection Payload).Sound where
  started := sound.started
  outbox := sound.outbox
  wire := sound.wire
  submitted := sound.submitted
  live := by
    intro connected
    rw [down] at connected
    cases connected

theorem Sound.readAcknowledged {txnId : Nat} {checkpoint : Option TransactionCheckpoint}
    {rest : List TransactionResult}
    (waiting : connection.inbox = .acknowledged txnId checkpoint :: rest)
    (connected : connection.sender.connected = true) :
    ({ connection with
        inbox := rest
        sender := connection.read (.acknowledged txnId checkpoint) } :
      ResultConnection Payload).Sound := by
  have fits := sound.fits
  rw [waiting] at fits
  obtain ⟨current, ready, _, inOrder⟩ := sound.live connected
  rw [waiting] at inOrder
  obtain ⟨above, within, later⟩ := inOrder
  have after : connection.read (.acknowledged txnId checkpoint) = _ :=
    EventSender.acceptResult_acknowledged fits connected rfl
  have highest := OrderedOutboxStorage.highestSubmitted_le_acknowledgeThrough
    connection.sender.session.outbox txnId
  rw [after]
  constructor
  · dsimp only
    rw [OrderedOutboxStorage.acknowledgeThrough_nextTransactionId]
    omega
  · intro entry member
    dsimp only at member
    rw [OrderedOutboxStorage.acknowledgeThrough_queue] at member
    exact Nat.le_trans (sound.outbox entry ((List.dropWhile_sublist _).mem member)) highest
  · intro id member
    exact Nat.le_trans (sound.wire id member) highest
  · exact Nat.le_trans sound.submitted highest
  · intro _
    refine ⟨current, ready, ?_⟩
    dsimp only
    rw [OrderedOutboxStorage.acknowledgeThrough_lastAcknowledged, Nat.max_eq_right above]
    exact ⟨within, later⟩

/-- The client reads the next message. -/
theorem Sound.receive (txnBatchSize : Nat) :
    (connection.perform txnBatchSize .receive).Sound := by
  unfold perform
  dsimp only
  split
  · exact sound
  · next result rest waiting =>
      by_cases connected : connection.sender.connected = true
      · cases result with
        | acknowledged txnId checkpoint => exact sound.readAcknowledged waiting connected
        | rejected txnId rejection =>
            obtain ⟨current, ready, _⟩ := sound.live connected
            have down : (connection.read (.rejected txnId rejection)).connected = false :=
              EventSender.acceptResult_rejected connected rfl current ready txnId rejection
            have same : connection.sender.session.SameOutbox
                (connection.read (.rejected txnId rejection)).session :=
              EventSender.acceptResult_rejected_sameOutbox _ _ txnId rejection
            have moved := sound.moveSession same fun up => by
              rw [down] at up
              cases up
            exact moved.dropInbox down rest
      · have ignored : connection.read result = connection.sender :=
          EventSender.acceptResult_ignored (fun both => connected both.1) result
        rw [ignored]
        exact sound.dropInbox (by simpa using connected) rest

theorem Sound.close (txnBatchSize : Nat) : (connection.perform txnBatchSize .close).Sound := by
  apply sound.moveSession (EventSender.close_sameOutbox (OrderedProducerSession.SameOutbox.refl _))
  intro up
  have down : connection.sender.close.connected = false := by
    unfold EventSender.close
    split
    · rfl
    · next closed => simpa using closed
  rw [down] at up
  cases up

/-- Every step keeps the invariant. -/
theorem Sound.perform (txnBatchSize : Nat) (action : ResultAction Payload) :
    (connection.perform txnBatchSize action).Sound := by
  cases action with
  | submit id payload events layer direct =>
      exact sound.submit id payload events layer direct txnBatchSize
  | claim => exact sound.claim txnBatchSize
  | decide decision => exact sound.decide decision txnBatchSize
  | rateLimit => exact sound.rateLimit txnBatchSize
  | commitElsewhere => exact sound.commitElsewhere txnBatchSize
  | sendBatch size => exact sound.sendBatch size txnBatchSize
  | receive => exact sound.receive txnBatchSize
  | close => exact sound.close txnBatchSize

end Steps

theorem Sound.run {connection : ResultConnection Payload} (sound : connection.Sound)
    (txnBatchSize : Nat) (actions : List (ResultAction Payload)) :
    (connection.run txnBatchSize actions).Sound := by
  induction actions generalizing connection with
  | nil => exact sound
  | cons action rest ih => exact ih (sound.perform txnBatchSize action)

/-! ### A new connection -/

/-- Where a connection starts: any calls on the session before, and an accepted hello. -/
theorem sound_connect {capacity : Nat} {calls : List (ProducerCall Payload)}
    {sender opened : EventSender Payload}
    (before : sender.session = (ProducerTrace.run capacity calls).session)
    {serverInstance : String} {committedThrough : Nat}
    (hello : sender.connect serverInstance committedThrough = some opened) :
    ({ sender := opened, committedThrough := committedThrough } : ResultConnection Payload).Sound := by
  unfold EventSender.connect at hello
  cases begins : sender.session.beginConnection with
  | none =>
      rw [begins] at hello
      cases hello
  | some begun =>
      rw [begins] at hello
      dsimp only at hello
      have begunSound := (ProducerTrace.sound_run capacity calls).beginConnection
      rw [← before, begins, Option.getD_some] at begunSound
      have ready := (begunSound.acceptHello begun.generation committedThrough).1
      dsimp only at ready
      have highwater := begun.acceptHello_highwater begun.generation committedThrough
      generalize begun.acceptHello begun.generation committedThrough = answer at hello ready highwater
      cases highwater with
      | refused result after refused same =>
          cases result with
          | accepted => exact absurd rfl refused
          | _ => cases hello
      | accepted after above outbox generation phase =>
          cases hello
          have represents := ready.outbox
          have next := represents.next
          dsimp only at represents next
          have last : after.outbox.lastAcknowledgedTransactionId = committedThrough := by
            rw [outbox, OrderedOutboxStorage.acknowledgeThrough_lastAcknowledged]
            exact Nat.max_eq_right above
          constructor
          · dsimp only
            omega
          · intro entry member
            have known := (OrderedOutboxStorage.contains_iff after.outbox entry.transactionId).2
              (List.mem_map_of_mem member)
            have between := (represents.contains_iff_between entry.transactionId).1 known
            exact Nat.le_sub_one_of_lt between.2
          · intro id member
            cases member
          · dsimp only [OrderedOutboxStorage.highestSubmittedTransactionId]
            omega
          · intro _
            dsimp only
            rw [last]
            exact ⟨rfl, phase, Nat.le_refl _, trivial⟩

/-- In every run of every connection, at every step: reducing the acknowledgements the result loop sends
is invisible to the client. -/
theorem coalescingInvisible_run {capacity : Nat} {calls : List (ProducerCall Payload)}
    {sender opened : EventSender Payload}
    (before : sender.session = (ProducerTrace.run capacity calls).session)
    {serverInstance : String} {committedThrough : Nat}
    (hello : sender.connect serverInstance committedThrough = some opened)
    (txnBatchSize : Nat) (actions : List (ResultAction Payload)) :
    (({ sender := opened, committedThrough := committedThrough } :
      ResultConnection Payload).run txnBatchSize actions).CoalescingInvisible txnBatchSize :=
  ((sound_connect before hello).run txnBatchSize actions).coalescingInvisible txnBatchSize

/-- Three transactions submitted over a connection that went down. -/
def submittedCalls : List (ProducerCall Nat) :=
  [.beginConnection, .acceptHello 1 0, .append 1 1 10 1 "", .append 1 2 20 1 "",
    .append 1 3 30 1 "", .disconnect 1]

/-- A sender with that session. -/
def reconnecting : EventSender Nat where
  sessionId := "session"
  session := (ProducerTrace.run 8 submittedCalls).session

/-- The first transaction was committed over the earlier connection, the second is committed now and
the third is rejected. -/
def mixedResults : List (ResultAction Nat) :=
  [.claim, .claim, .claim, .commitElsewhere, .decide (.ok none), .decide (.ok (some ⟨4, 7⟩)),
    .decide (.error ⟨.staleLayerGraph, "stale", 0⟩)]

theorem coalescingInvisible_mixedResults :
    ∃ opened, reconnecting.connect "server" 0 = some opened ∧
      (({ sender := opened, committedThrough := 0 } : ResultConnection Nat).run 64
        mixedResults).CoalescingInvisible 64 :=
  ⟨_, rfl, @coalescingInvisible_run Nat 8 submittedCalls reconnecting _ rfl "server" 0 rfl 64
    mixedResults⟩

end ResultConnection

end UsdConnect
