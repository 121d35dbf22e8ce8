/-
Purpose: The identity the native receiver claims is genuine.  Over every run, as long as it names
  the server's current history, what has been applied are the first records of the log.
Trusted boundary: none
Main exports: NativeResumption.Genuine, NativeResumption.genuine_step
-/
import UsdConnect.Proofs.ReplayNetwork
import UsdConnect.Protocol.Resumption

namespace UsdConnect

variable {Handler Record : Type} [DecidableEq Handler] [DecidableEq Record]

/-! ### Queued frames -/

/-- A queue that holds no reset. -/
def Resetless (frames : List (ReplayFrame Record)) : Prop :=
  ∀ epoch, ReplayFrame.resync epoch ∉ frames

/-- Without a reset the stream stays in its history. -/
theorem follow_resetless {histories : Nat → List Record} {position final : Position}
    {frames : List (ReplayFrame Record)} (resetless : Resetless frames)
    (followed : follow histories position frames = some final) :
    final.epoch = position.epoch := by
  induction frames generalizing position with
  | nil =>
      cases followed
      rfl
  | cons frame frames ih =>
      obtain ⟨next, advanced, rest⟩ := Option.bind_eq_some_iff.1 followed
      have later := ih (fun epoch member => resetless epoch (List.mem_cons_of_mem _ member)) rest
      rw [later]
      cases frame with
      | event seq record =>
          simp only [advance] at advanced
          split at advanced
          · cases advanced
            rfl
          · cases advanced
      | resync epoch => exact absurd List.mem_cons_self (resetless epoch)
      | replayComplete headSeq epoch =>
          simp only [advance] at advanced
          split at advanced
          · cases advanced
            rfl
          · cases advanced

namespace NativeResumption

/-! ### The invariant -/

/-- Nothing is queued and everything received has been applied. -/
structure Idle (session : OrderedReceiverSession (ReplayFrame Record)) : Prop where
  frames : session.frames = []
  cursor : session.lastReceivedSequence = session.lastAppliedSequence
  unmarked : session.pendingReplay = none

/-- A connection whose hello has not been read. -/
structure Greeting (client : NativeReceiver Record) (held : Nat → Option Record)
    (link : ReplayLink Handler Record) : Prop where
  idle : Idle client.session
  cursor : link.hello.syncFrom = client.session.lastReceivedSequence + 1
  held : link.held = held
  claim : link.hello.claim =
    if client.identity.claimIncluded then
      some (ReplayIdentity.prefixClaim client.identity.claimedIdentity)
    else none
  claimed : client.identity.claimedIdentity = client.identity.appliedIdentity
  unpending : client.identity.pendingIdentity = none

/-- Whether the hello will count the applied prefix as proven. -/
def Trusts (client : NativeReceiver Record) (link : ReplayLink Handler Record)
    (admission : Admission Handler Record) : Prop :=
  link.hello.syncFrom = 1 ∨
    (client.identity.claimIncluded = true ∧ client.identity.claimedIdentity =
      some { serverInstance := link.serverInstance, epoch := admission.start.epoch })

/-- An answered hello of the current server that has not been read. -/
structure Opens (server : BroadcastState Handler Record) (client : NativeReceiver Record)
    (held : Nat → Option Record) (link : ReplayLink Handler Record)
    (admission : Admission Handler Record) : Prop where
  backed : Trusts client link admission → admission.start.next ≠ 0 →
    HoldsPrefix held client.session.lastAppliedSequence (server.histories admission.start.epoch)
  bound : ∀ identity, client.identity.appliedIdentity = some identity →
    identity.serverInstance = link.serverInstance → identity.epoch ≤ admission.start.epoch

/-- A connection whose hello has been read.  Each completed replay that waits to be applied names
the history the connection reads, and no reset has been queued behind it. -/
structure Greeted (client : NativeReceiver Record) (link : ReplayLink Handler Record) : Prop where
  connection : ∀ identity, client.identity.connectionIdentity = some identity →
    identity.serverInstance = link.serverInstance
  pending : ∀ identity, client.identity.pendingIdentity = some identity →
    identity.serverInstance = link.serverInstance ∧
      client.identity.connectionPrefixProven = true ∧
      ∃ marker, client.session.pendingReplay = some marker ∧ marker.epoch = identity.epoch

/-- What stands between the stage and the position of an active connection: the queue. -/
structure Reads (server : BroadcastState Handler Record) (client : NativeReceiver Record)
    (held : Nat → Option Record) (link : ReplayLink Handler Record)
    (applied position : Position) : Prop where
  queue : ∃ last, follow server.histories applied client.session.frames = some last ∧
    last.epoch = position.epoch ∧ last.next = position.next
  start : applied.next ≠ 0 → applied.next = client.session.lastAppliedSequence + 1
  aligned : position.next ≠ 0 → position.next = client.session.lastReceivedSequence + 1
  backed : client.identity.connectionPrefixProven = true → position.next ≠ 0 →
    Resetless client.session.frames →
    HoldsPrefix held client.session.lastAppliedSequence (server.histories position.epoch)
  bound : ∀ identity, client.identity.appliedIdentity = some identity →
    identity.serverInstance = link.serverInstance → identity.epoch ≤ applied.epoch
  marked : ∀ marker, client.session.pendingReplay = some marker →
    marker.epoch = position.epoch ∧ position.next ≠ 0 ∧
      Resetless (client.session.frames.drop (marker.serial - client.session.drainedSerial))

/-- A connection of the session's own generation. -/
structure ActiveLink (state : NativeResumption Handler Record)
    (link : ReplayLink Handler Record) : Prop where
  settled : state.client.session.requestedReplayFrom = none
  greeting : link.answered = false → Greeting state.client state.held link
  greeted : link.answered = true → Greeted state.client link
  foreign : link.serverInstance ≠ state.network.server.serverInstance →
    ∀ identity, state.client.identity.appliedIdentity = some identity →
      identity.serverInstance ≠ state.network.server.serverInstance
  opens : link.serverInstance = state.network.server.serverInstance →
    link.answered = false → ∀ admission, link.admission = some admission →
      Opens state.network.server state.client state.held link admission
  reads : link.serverInstance = state.network.server.serverInstance →
    link.answered = true → ∀ admission, link.admission = some admission →
      ∃ position applied, ReplayNetwork.At state.network.server link admission position ∧
        Reads state.network.server state.client state.held link applied position

/-- What the client keeps with or without a connection. -/
structure ClientSound (state : NativeResumption Handler Record) : Prop where
  contiguous : state.client.session.requireContiguous = true
  balanced : state.client.session.SerialsBalanced
  requested : ∀ sequence, state.client.session.requestedReplayFrom = some sequence →
    state.client.session.lastReceivedSequence + 1 = sequence
  first : state.client.identity.helloSent = false →
    state.client.identity.appliedIdentity = none
  vouched : ∀ identity, state.client.identity.appliedIdentity = some identity →
    state.network.Vouches state.held state.client.session.lastAppliedSequence identity

/-- The invariant of every run. -/
structure Genuine (state : NativeResumption Handler Record) : Prop where
  network : state.network.Sound
  client : state.ClientSound
  sent : ∀ link, state.network.link = some link → state.client.identity.helloSent = true
  generation : ∀ link, state.network.link = some link →
    link.generation ≤ state.client.session.generation
  claimed : ∀ link, state.network.link = some link → link.admission = none →
    ∀ identity : ReplayIdentity,
      link.hello.claim =
        some { serverInstance := identity.serverInstance, epoch := some identity.epoch } →
      state.network.Vouches link.held (link.hello.syncFrom - 1) identity
  idle : (∀ link, state.network.link = some link → link.answered = true →
      link.generation ≠ state.client.session.generation) → Idle state.client.session
  active : ∀ link, state.network.link = some link →
    link.generation = state.client.session.generation → state.ActiveLink link

theorem genuine_create {server : BroadcastState Handler Record} (delivers : server.Delivers)
    (named : server.serverInstance ≠ "") (initialLastSeq maxFrames : Nat)
    (held : Nat → Option Record) :
    (create server initialLastSeq maxFrames held).Genuine where
  network := ⟨delivers, by simpa [create] using named.symm, List.not_mem_nil, nofun⟩
  client := ⟨rfl, rfl, nofun, fun _ => rfl, nofun⟩
  sent := nofun
  generation := nofun
  claimed := nofun
  idle := fun _ => ⟨rfl, rfl, rfl⟩
  active := nofun

/-! ### Steps of the network -/

omit [DecidableEq Handler] in
/-- Longer histories leave what has been read and applied as it was. -/
theorem Reads.grow {server next : BroadcastState Handler Record} {client : NativeReceiver Record}
    {held : Nat → Option Record} {link after : ReplayLink Handler Record}
    {applied position : Position} (reads : Reads server client held link applied position)
    (same : after = { link with admission := after.admission })
    (grown : Extends server.histories next.histories position.epoch) :
    Reads next client held after applied position := by
  rw [same]
  refine ⟨?_, reads.start, reads.aligned, ?_, reads.bound, reads.marked⟩
  · obtain ⟨last, followed, epoch, nextSeq⟩ := reads.queue
    exact ⟨last, follow_mono (epoch ▸ grown) followed, epoch, nextSeq⟩
  · intro proven live resetless
    exact (reads.backed proven live resetless).grow (grown _ (Nat.le_refl _))

omit [DecidableEq Handler] [DecidableEq Record] in
/-- A hello that is answered now: an identity that names the current history vouches for what has
been applied. -/
theorem opens_opened {state : NativeResumption Handler Record} (client : state.ClientSound)
    {link after : ReplayLink Handler Record} {admission : Admission Handler Record}
    {next : BroadcastState Handler Record} (greeting : Greeting state.client state.held link)
    (same : after = { link with admission := after.admission })
    (own : link.serverInstance = state.network.server.serverInstance)
    (epoch : admission.start.epoch = state.network.server.epoch)
    (log : next.histories admission.start.epoch = state.network.server.log) :
    Opens next state.client state.held after admission := by
  rw [same]
  refine ⟨?_, ?_⟩
  · intro trusts _
    rw [log]
    rcases trusts with start | ⟨_, claimed⟩
    · have nothing : state.client.session.lastAppliedSequence = 0 := by
        rw [← greeting.idle.cursor]
        have cursor := greeting.cursor
        have first : link.hello.syncFrom = 1 := start
        omega
      rw [nothing]
      exact HoldsPrefix.zero _ _
    · rw [greeting.claimed] at claimed
      refine (client.vouched _ claimed).2 ?_
      rw [ReplayNetwork.current, ← own, ← epoch]
  · intro identity applied sameInstance
    rw [epoch]
    exact (client.vouched identity applied).1.2 (sameInstance.trans own)

theorem genuine_network {state : NativeResumption Handler Record} (genuine : state.Genuine)
    {network : ReplayNetwork Handler Record} (evolves : state.network.Evolves network) :
    Genuine { state with network } := by
  refine ⟨evolves.sound, ?_, ?_, ?_, ?_, ?_, ?_⟩
  · obtain ⟨contiguous, balanced, requested, first, vouched⟩ := genuine.client
    exact ⟨contiguous, balanced, requested, first,
      fun identity applied => evolves.vouches _ _ _ (vouched identity applied)⟩
  · intro after found
    obtain ⟨link, opened, _⟩ := evolves.link after found
    exact genuine.sent link opened
  · intro after found
    obtain ⟨link, opened, linked⟩ := evolves.link after found
    rw [linked.same]
    exact genuine.generation link opened
  · intro after found absent identity carried
    obtain ⟨link, opened, linked⟩ := evolves.link after found
    rw [linked.same] at carried ⊢
    exact evolves.vouches _ _ _
      (genuine.claimed link opened (linked.waiting absent) identity carried)
  · intro stale
    apply genuine.idle
    intro link opened answered
    obtain ⟨after, found, same⟩ := evolves.stays link opened
    have different := stale after found
    rw [same] at different
    exact different answered
  · intro after found current
    obtain ⟨link, opened, linked⟩ := evolves.link after found
    have active := genuine.active link opened (by rw [linked.same] at current; exact current)
    refine ⟨active.settled, ?_, ?_, ?_, ?_, ?_⟩
    · intro unanswered
      rw [linked.same] at unanswered ⊢
      obtain ⟨idle, cursor, held, claim, claimed, unpending⟩ := active.greeting unanswered
      exact ⟨idle, cursor, held, claim, claimed, unpending⟩
    · intro answered
      rw [linked.same] at answered ⊢
      obtain ⟨connection, pending⟩ := active.greeted answered
      exact ⟨connection, pending⟩
    · intro foreign identity applied
      rcases linked.foreign foreign with ⟨away, named⟩ | gone
      · rw [show ({ state with network } : NativeResumption Handler Record).network.server
          = network.server from rfl, named]
        exact active.foreign away identity applied
      · exact gone identity (genuine.client.vouched identity applied).1
    · intro own unanswered extended admitted
      have before : link.answered = false := by
        rw [linked.same] at unanswered
        exact unanswered
      obtain ⟨linkOwn, extends', admissions⟩ := linked.own own
      cases admissions extended admitted with
      | kept admission found start stands =>
          obtain ⟨backed, bound⟩ := active.opens linkOwn before admission found
          have unread := (genuine.network.link link opened).unread before
          have low := (stands admission.start (by
            simp [ReplayNetwork.At, unread, follow_nil])).1
          rw [linked.same]
          refine ⟨?_, ?_⟩
          · intro trusts live
            rw [Trusts, start] at trusts
            rw [start] at live ⊢
            exact (backed trusts live).grow (extends' _ low)
          · rw [start]
            exact bound
      | opened found epoch log _ =>
          exact opens_opened genuine.client (active.greeting before) linked.same linkOwn epoch log
    · intro own answered extended admitted
      obtain ⟨linkOwn, extends', admissions⟩ := linked.own own
      cases admissions extended admitted with
      | kept admission before _ stands =>
          obtain ⟨position, applied, here, reads⟩ := active.reads linkOwn
            (by rw [linked.same] at answered; exact answered) admission before
          obtain ⟨low, there⟩ := stands position here
          exact ⟨position, applied, there,
            reads.grow linked.same fun epoch below => extends' epoch (below.trans low)⟩
      | opened before epoch log stands =>
          have unanswered := (genuine.network.link link opened).waiting before
          rw [linked.same] at answered
          exact absurd (unanswered.symm.trans answered) (by simp)

/-! ### Replay requests -/

omit [DecidableEq Record] in
theorem requestReplayFromApplied_session (client : NativeReceiver Record) :
    client.requestReplayFromApplied.session =
      { client.session.resetSynchronization with
        generation := client.session.generation + 1
        requestedReplayFrom := some (client.session.lastAppliedSequence + 1)
        lastReceivedSequence := client.session.lastAppliedSequence
        frames := []
        drainedSerial := client.session.incomingSerial
        overflowed := false } := by
  rw [NativeReceiver.requestReplayFromApplied, OrderedReceiverSession.requestReplayFrom,
    if_neg (Nat.not_lt.2 (Nat.le_add_left 1 _))]
  rfl

/-- A request discards the queue and makes the connection stale; what has been applied stays. -/
theorem genuine_requested {state : NativeResumption Handler Record} (genuine : state.Genuine)
    (client : NativeReceiver Record) (held : Nat → Option Record)
    (identity : client.identity = state.client.identity)
    (contiguous : client.session.requireContiguous = true)
    (generation : client.session.generation = state.client.session.generation)
    (cursor : client.session.lastAppliedSequence = state.client.session.lastAppliedSequence)
    (same : ∀ seq ≤ state.client.session.lastAppliedSequence, held seq = state.held seq) :
    Genuine { state with client := client.requestReplayFromApplied, held := held } := by
  have session := requestReplayFromApplied_session client
  have unchanged : client.requestReplayFromApplied.identity = state.client.identity := identity
  have stale : ∀ link, state.network.link = some link →
      link.generation < client.session.generation + 1 := by
    intro link opened
    rw [generation]
    exact Nat.lt_succ_of_le (genuine.generation link opened)
  refine ⟨genuine.network, ⟨?_, ?_, ?_, ?_, ?_⟩, ?_, ?_, genuine.claimed, ?_, ?_⟩ <;>
    simp only [session, unchanged]
  · exact contiguous
  · rfl
  · rintro _ ⟨⟩
    rfl
  · exact genuine.client.first
  · intro applied found
    simp only [OrderedReceiverSession.resetSynchronization, cursor]
    exact (genuine.client.vouched applied found).congr same
  · exact genuine.sent
  · intro link opened
    exact (stale link opened).le
  · exact fun _ => ⟨rfl, rfl, rfl⟩
  · intro link opened current
    exact absurd current (stale link opened).ne

theorem genuine_requestReplay {state : NativeResumption Handler Record}
    (genuine : state.Genuine) :
    Genuine { state with client := state.client.requestReplayFromApplied } :=
  genuine_requested genuine state.client state.held rfl genuine.client.contiguous rfl rfl
    fun _ _ => rfl

/-! ### Connections end and begin -/

/-- Without a connection only the client's own facts are left. -/
theorem genuine_unconnected (state : NativeResumption Handler Record)
    (sound : state.network.Sound) (client : state.ClientSound)
    (idle : Idle state.client.session) :
    Genuine { state with network := { state.network with link := none } } := by
  obtain ⟨contiguous, balanced, requested, first, vouched⟩ := client
  exact ⟨sound.hangUp, ⟨contiguous, balanced, requested, first, vouched⟩, nofun, nofun, nofun,
    fun _ => idle, nofun⟩

/-- The session of a connection that ends with nothing queued. -/
theorem genuine_abandon {state : NativeResumption Handler Record} (genuine : state.Genuine)
    (idle : Idle state.client.session) (generation : Nat) :
    Genuine { state with
      network := { state.network with link := none }
      client := state.client.abandon generation } := by
  have client := genuine.client
  simp only [NativeReceiver.abandon, OrderedReceiverSession.disconnect]
  split
  · exact genuine_unconnected
      { state with
        client := { state.client with session := state.client.session.resetSynchronization } }
      genuine.network
      ⟨client.contiguous, client.balanced, client.requested, client.first, client.vouched⟩
      ⟨idle.frames, idle.cursor, rfl⟩
  · exact genuine_unconnected state genuine.network client idle

theorem genuine_drop {state : NativeResumption Handler Record} (genuine : state.Genuine)
    {link : ReplayLink Handler Record} (opened : state.network.link = some link) :
    (state.drop link).Genuine := by
  unfold drop
  by_cases receiving : link.answered = true ∧
      link.generation = state.client.session.generation
  · -- The receive loop ends while its generation is current: the queue is asked for again.
    have requested : (state.client.disconnect link.generation) =
        (state.client.abandon link.generation).requestReplayFromApplied := by
      simp [NativeReceiver.disconnect, NativeReceiver.abandon,
        OrderedReceiverSession.disconnect, receiving.2,
        OrderedReceiverSession.resetSynchronization]
    rw [if_pos receiving.1, requested]
    have session := requestReplayFromApplied_session (state.client.abandon link.generation)
    have kept : (state.client.abandon link.generation).session =
        state.client.session.resetSynchronization := by
      simp [NativeReceiver.abandon, OrderedReceiverSession.disconnect, receiving.2]
    have after := genuine_requested genuine (state.client.abandon link.generation) state.held rfl
      (by rw [kept]; exact genuine.client.contiguous) (by rw [kept]; rfl) (by rw [kept]; rfl)
      fun _ _ => rfl
    exact genuine_unconnected
      { state with client := (state.client.abandon link.generation).requestReplayFromApplied }
      genuine.network after.client (by rw [session]; exact ⟨rfl, rfl, rfl⟩)
  · have idle : Idle state.client.session := by
      apply genuine.idle
      intro other found answered
      cases opened.symm.trans found
      exact fun current => receiving ⟨answered, current⟩
    have abandoned := genuine_abandon genuine idle link.generation
    split
    · next answered =>
        have stale : state.client.session.generation ≠ link.generation :=
          fun same => receiving ⟨answered, same.symm⟩
        have unchanged : state.client.disconnect link.generation =
            state.client.abandon link.generation := by
          simp [NativeReceiver.disconnect, NativeReceiver.abandon,
            OrderedReceiverSession.disconnect, stale, stale.symm]
        rw [unchanged]
        exact abandoned
    · exact abandoned

omit [DecidableEq Handler] [DecidableEq Record] in
theorem beginConnection_cursor {state : NativeResumption Handler Record}
    (client : state.ClientSound) :
    state.client.session.beginConnection.1 = state.client.session.lastReceivedSequence + 1 := by
  simp only [OrderedReceiverSession.beginConnection]
  cases pending : state.client.session.requestedReplayFrom with
  | none => rfl
  | some sequence => exact (client.requested sequence pending).symm

theorem genuine_failedConnection {state : NativeResumption Handler Record}
    (genuine : state.Genuine) (closed : state.network.link = none) :
    Genuine { state with client := state.client.failedConnection } := by
  have absent : ∀ link, state.network.link ≠ some link := by
    intro link opened
    rw [closed] at opened
    cases opened
  have idle := genuine.idle fun link opened => absurd opened (absent link)
  have client := genuine.client
  refine ⟨genuine.network, ?_, fun link opened => absurd opened (absent link),
    fun link opened => absurd opened (absent link), genuine.claimed, ?_,
    fun link opened => absurd opened (absent link)⟩
  · simp only [NativeReceiver.failedConnection, OrderedReceiverSession.beginConnection,
      OrderedReceiverSession.disconnect, ↓reduceIte]
    exact ⟨client.contiguous, client.balanced, nofun, client.first, client.vouched⟩
  · intro _
    simp only [NativeReceiver.failedConnection, OrderedReceiverSession.beginConnection,
      OrderedReceiverSession.disconnect, ↓reduceIte]
    exact ⟨idle.frames, idle.cursor, rfl⟩

omit [DecidableEq Record] in
/-- A known identity is claimed by its name and epoch. -/
theorem prefixClaim_eq {applied : Option ReplayIdentity} {identity : ReplayIdentity}
    (claimed : ReplayIdentity.prefixClaim applied =
      { serverInstance := identity.serverInstance, epoch := some identity.epoch }) :
    applied = some identity := by
  cases applied with
  | none => cases (ReplayClaim.mk.inj claimed).2
  | some known =>
      simp only [ReplayIdentity.prefixClaim] at claimed
      split at claimed
      · cases (ReplayClaim.mk.inj claimed).2
      · obtain ⟨name, epoch⟩ := ReplayClaim.mk.inj claimed
        exact congrArg some ((ReplayIdentity.mk.injEq _ _ _ _).mpr ⟨name, Option.some.inj epoch⟩)

/-- A hello claims what has been applied. -/
theorem genuine_connect {state : NativeResumption Handler Record} (genuine : state.Genuine)
    (closed : state.network.link = none) : state.connect.Genuine := by
  have client := genuine.client
  have idle := genuine.idle fun link opened => absurd (closed.symm.trans opened) nofun
  have cursor := beginConnection_cursor client
  refine ⟨genuine.network.connect _ _ _, ?_, ?_, ?_, ?_, ?_, ?_⟩
  · exact ⟨client.contiguous, client.balanced, nofun, nofun, client.vouched⟩
  · rintro _ ⟨⟩
    rfl
  · rintro _ ⟨⟩
    exact Nat.le_refl _
  · rintro _ ⟨⟩ _ identity carried
    have claim : state.client.identity.beginConnection.1 =
        some { serverInstance := identity.serverInstance, epoch := some identity.epoch } := carried
    simp only [ReceiverReplayIdentity.beginConnection] at claim
    split at claim
    · have applied := prefixClaim_eq (Option.some.inj claim)
      have vouches := client.vouched identity applied
      rw [← idle.cursor] at vouches
      have asked : state.client.session.beginConnection.1 - 1 =
          state.client.session.lastReceivedSequence := by rw [cursor, Nat.add_sub_cancel]
      rw [← asked] at vouches
      exact vouches
    · cases claim
  · exact fun _ => ⟨idle.frames, idle.cursor, rfl⟩
  · rintro _ ⟨⟩ _
    refine ⟨rfl, ?_, nofun, fun foreign => absurd rfl foreign, nofun, nofun⟩
    intro _
    exact ⟨⟨idle.frames, idle.cursor, rfl⟩, cursor, rfl, rfl, rfl, rfl⟩

/-! ### The hello is read -/

omit [DecidableEq Handler] [DecidableEq Record] in
theorem helloIdentity_helloOk {link : ReplayLink Handler Record} (named : link.serverInstance ≠ "")
    (admission : Admission Handler Record) :
    ReceiverReplayIdentity.helloIdentity (link.helloOk admission) =
      some { serverInstance := link.serverInstance, epoch := admission.start.epoch } := by
  simp [ReceiverReplayIdentity.helloIdentity, ReplayLink.helloOk, named]

theorem genuine_readHello {state : NativeResumption Handler Record} (genuine : state.Genuine)
    {link : ReplayLink Handler Record} {admission : Admission Handler Record}
    (opened : state.network.link = some link) (admitted : link.admission = some admission)
    (unanswered : link.answered = false) : (state.readHello link admission).Genuine := by
  have client := genuine.client
  have linked := genuine.network.link link opened
  have named : link.serverInstance ≠ "" := by
    intro empty
    exact genuine.network.named (empty ▸ linked.known)
  have negotiated := helloIdentity_helloOk named admission
  have idle : Idle state.client.session := by
    apply genuine.idle
    intro other found answered
    cases opened.symm.trans found
    exact absurd (unanswered.symm.trans answered) (by simp)
  refine ⟨genuine.network.answered opened admitted, ?_, ?_, ?_, ?_, fun _ => idle, ?_⟩
  · exact ⟨client.contiguous, client.balanced, client.requested, client.first, client.vouched⟩
  · exact fun _ _ => genuine.sent link opened
  · rintro _ ⟨⟩
    exact genuine.generation link opened
  · rintro _ ⟨⟩ waiting
    exact absurd (admitted.symm.trans waiting) (by simp)
  · rintro _ ⟨⟩ current
    have active := genuine.active link opened current
    have greeting := active.greeting unanswered
    refine ⟨active.settled, by simp, ?_, active.foreign, by simp, ?_⟩
    · intro _
      refine ⟨?_, ?_⟩
      · intro identity connection
        simp only [readHello, NativeReceiver.handleHelloOk, ReceiverReplayIdentity.acceptHello,
          negotiated] at connection
        cases connection
        rfl
      · intro identity pending
        exact absurd (greeting.unpending.symm.trans pending) (by simp)
    · intro own _ other found
      cases admitted.symm.trans found
      have opens := active.opens own unanswered admission admitted
      have answers := linked.answers admission admitted
      have unread := linked.unread unanswered
      have cursor := greeting.cursor
      refine ⟨admission.start, admission.start, ?_, ⟨admission.start, ?_, rfl, rfl⟩, ?_, ?_, ?_,
        opens.bound, ?_⟩
      · simp [ReplayNetwork.At, readHello, unread, follow_nil]
      · simp [readHello, NativeReceiver.handleHelloOk, idle.frames, follow_nil]
      · intro live
        have resumed := answers.resumed live
        have applied := idle.cursor
        simp only [readHello, NativeReceiver.handleHelloOk]
        omega
      · intro live
        have resumed := answers.resumed live
        simp only [readHello, NativeReceiver.handleHelloOk]
        omega
      · intro proven live _
        apply opens.backed ?_ live
        simp only [readHello, NativeReceiver.handleHelloOk, ReceiverReplayIdentity.acceptHello,
          negotiated, Bool.or_eq_true, beq_iff_eq, Bool.and_eq_true] at proven
        rcases proven with first | ⟨⟨included, _⟩, same⟩
        · exact Or.inl first
        · exact Or.inr ⟨included, same⟩
      · intro marker marked
        exact absurd (idle.unmarked.symm.trans marked) (by simp)

/-! ### Frames of the stream -/

/-- The overflow flag matters to nothing here. -/
theorem genuine_overflowed {state : NativeResumption Handler Record} (genuine : state.Genuine)
    (overflowed : Bool) :
    Genuine { state with
      client := { state.client with
        session := { state.client.session with overflowed := overflowed } } } := by
  obtain ⟨contiguous, balanced, requested, first, vouched⟩ := genuine.client
  refine ⟨genuine.network, ⟨contiguous, balanced, requested, first, vouched⟩, genuine.sent,
    genuine.generation, genuine.claimed, ?_, ?_⟩
  · intro stale
    obtain ⟨frames, cursor, unmarked⟩ := genuine.idle stale
    exact ⟨frames, cursor, unmarked⟩
  · intro link opened current
    have active := genuine.active link opened current
    refine ⟨active.settled, ?_, ?_, active.foreign, ?_, ?_⟩
    · intro unanswered
      obtain ⟨⟨frames, applied, unmarked⟩, cursor, held, claim, claimed, unpending⟩ :=
        active.greeting unanswered
      exact ⟨⟨frames, applied, unmarked⟩, cursor, held, claim, claimed, unpending⟩
    · intro answered
      obtain ⟨connection, pending⟩ := active.greeted answered
      exact ⟨connection, pending⟩
    · intro own unanswered admission admitted
      obtain ⟨backed, bound⟩ := active.opens own unanswered admission admitted
      exact ⟨backed, bound⟩
    · intro own answered admission admitted
      obtain ⟨position, applied, stands, queue, start, aligned, backed, bound, marked⟩ :=
        active.reads own answered admission admitted
      exact ⟨position, applied, stands, queue, start, aligned, backed, bound, marked⟩

/-- A frame has been read on an active connection: the parts that do not depend on it. -/
theorem genuine_received {state : NativeResumption Handler Record} (genuine : state.Genuine)
    {link : ReplayLink Handler Record} {admission : Admission Handler Record}
    {frame : ReplayFrame Record} (opened : state.network.link = some link)
    (admitted : link.admission = some admission) (answered : link.answered = true)
    (current : link.generation = state.client.session.generation)
    (waiting : admission.socket[link.read]? = some frame) {client : NativeReceiver Record}
    (contiguous : client.session.requireContiguous = true)
    (balanced : client.session.SerialsBalanced)
    (settled : client.session.requestedReplayFrom =
      state.client.session.requestedReplayFrom)
    (generation : client.session.generation = state.client.session.generation)
    (cursor : client.session.lastAppliedSequence = state.client.session.lastAppliedSequence)
    (sent : client.identity.helloSent = state.client.identity.helloSent)
    (applied : client.identity.appliedIdentity = state.client.identity.appliedIdentity)
    (greeted : Greeted state.client link → Greeted client link)
    (reads : link.serverInstance = state.network.server.serverInstance →
      ∀ position applied, ReplayNetwork.At state.network.server link admission position →
        Reads state.network.server state.client state.held link applied position →
        ∀ after, advance state.network.server.histories position frame = some after →
          ∃ applied, Reads state.network.server client state.held
            { link with read := link.read + 1 } applied after) :
    Genuine { state with
      network := { state.network with link := some { link with read := link.read + 1 } }
      client := client } := by
  have active := genuine.active link opened current
  have linked := genuine.network.link link opened
  refine ⟨genuine.network.read opened answered admitted waiting, ?_, ?_, ?_, ?_, ?_, ?_⟩
  · refine ⟨contiguous, balanced, ?_, ?_, ?_⟩
    · intro sequence pending
      have none := active.settled
      rw [← settled, show client.session.requestedReplayFrom = some sequence from pending] at none
      cases none
    · intro unsent
      have before := genuine.sent link opened
      rw [← sent, show client.identity.helloSent = false from unsent] at before
      cases before
    · simp only [applied, cursor]
      exact genuine.client.vouched
  · rintro _ ⟨⟩
    rw [sent]
    exact genuine.sent link opened
  · rintro _ ⟨⟩
    rw [generation]
    exact genuine.generation link opened
  · rintro _ ⟨⟩ absent
    exact absurd (admitted.symm.trans absent) nofun
  · intro stale
    have different := stale _ rfl answered
    rw [generation] at different
    exact absurd current different
  · rintro _ ⟨⟩ _
    refine ⟨settled.trans active.settled,
      fun unanswered => absurd (answered.symm.trans unanswered) nofun, ?_, ?_,
      fun _ unanswered => absurd (answered.symm.trans unanswered) nofun, ?_⟩
    · intro _
      obtain ⟨connection, pending⟩ := greeted (active.greeted answered)
      exact ⟨connection, pending⟩
    · simp only [applied]
      exact active.foreign
    · intro own _ other found
      cases admitted.symm.trans found
      obtain ⟨position, before, stands, reading⟩ := active.reads own answered admission admitted
      obtain ⟨after, advanced, there, _⟩ :=
        (linked.carries own admission admitted).next stands waiting
      obtain ⟨later, reading'⟩ := reads own position before stands reading after advanced
      exact ⟨after, later, there, reading'⟩

/-- The end of the queue stands where the connection reads, so a frame that advances the one
advances the other. -/
theorem follow_queued {histories : Nat → List Record} {applied last position after : Position}
    {frames : List (ReplayFrame Record)} {frame : ReplayFrame Record}
    (followed : follow histories applied frames = some last)
    (epoch : last.epoch = position.epoch) (nextSeq : last.next = position.next)
    (advanced : advance histories position frame = some after)
    (queued : ∀ headSeq epoch, frame ≠ .replayComplete headSeq epoch) :
    ∃ final, follow histories applied (frames ++ [frame]) = some final ∧
      final.epoch = after.epoch ∧ final.next = after.next := by
  rw [follow_append_of followed, follow_cons]
  cases frame with
  | event seq record =>
      simp only [advance] at advanced ⊢
      rw [epoch, nextSeq]
      split at advanced
      · next matched =>
          cases advanced
          rw [if_pos matched]
          exact ⟨_, rfl, rfl, rfl⟩
      · cases advanced
  | resync resyncEpoch =>
      simp only [advance] at advanced ⊢
      rw [epoch, nextSeq]
      split at advanced
      · next newer =>
          cases advanced
          rw [if_pos newer]
          exact ⟨_, rfl, rfl, rfl⟩
      · cases advanced
  | replayComplete headSeq completeEpoch => exact absurd rfl (queued headSeq completeEpoch)

/-- The record of the next sequence is queued. -/
theorem genuine_event {state : NativeResumption Handler Record} (genuine : state.Genuine)
    {link : ReplayLink Handler Record} {admission : Admission Handler Record} {seq : Nat}
    {record : Record} (opened : state.network.link = some link)
    (admitted : link.admission = some admission) (answered : link.answered = true)
    (current : link.generation = state.client.session.generation)
    (waiting : admission.socket[link.read]? = some (.event seq record)) :
    Genuine { state with
      network := { state.network with link := some { link with read := link.read + 1 } }
      client := { state.client with
        session := { state.client.session.receive .event seq with
          frames := state.client.session.frames ++ [.event seq record]
          incomingSerial := state.client.session.incomingSerial + 1 } } } := by
  have balanced := genuine.client.balanced
  refine genuine_received genuine opened admitted answered current waiting
    genuine.client.contiguous ?_ rfl rfl rfl rfl rfl ?_ ?_
  · simp only [OrderedReceiverSession.SerialsBalanced, List.length_append,
      List.length_singleton, OrderedReceiverSession.receive] at balanced ⊢
    omega
  · intro greeted
    exact ⟨greeted.connection, greeted.pending⟩
  · intro own position applied stands reads after advanced
    obtain ⟨last, followed, epoch, nextSeq⟩ := reads.queue
    have queued := follow_queued followed epoch nextSeq advanced (by simp)
    simp only [advance] at advanced
    split at advanced
    · next matched =>
        cases advanced
        have live : position.next ≠ 0 := by omega
        have aligned := reads.aligned live
        refine ⟨applied, queued, reads.start, ?_, ?_, reads.bound, ?_⟩
        · intro _
          simp only [OrderedReceiverSession.receive]
          omega
        · intro proven _ resetless
          apply reads.backed proven live
          exact fun epoch member => resetless epoch (List.mem_append_left _ member)
        · intro marker marked
          obtain ⟨markerEpoch, _, resetless⟩ := reads.marked marker marked
          refine ⟨markerEpoch, Nat.succ_ne_zero seq, ?_⟩
          intro epoch member
          rw [List.drop_append] at member
          rcases List.mem_append.1 member with old | new
          · exact resetless epoch old
          · cases List.mem_singleton.1 (List.mem_of_mem_drop new)
    · cases advanced

/-- A reset is queued: whatever it finds applied, the history behind it begins at its start. -/
theorem genuine_resync {state : NativeResumption Handler Record} (genuine : state.Genuine)
    {link : ReplayLink Handler Record} {admission : Admission Handler Record} {epoch : Nat}
    (opened : state.network.link = some link)
    (admitted : link.admission = some admission) (answered : link.answered = true)
    (current : link.generation = state.client.session.generation)
    (waiting : admission.socket[link.read]? = some (.resync epoch)) :
    Genuine { state with
      network := { state.network with link := some { link with read := link.read + 1 } }
      client := { state.client with
        session := { state.client.session.receive .resync 0 with
          frames := state.client.session.frames ++ [.resync epoch]
          incomingSerial := state.client.session.incomingSerial + 1 }
        identity := state.client.identity.acceptResync } } := by
  have balanced := genuine.client.balanced
  refine genuine_received genuine opened admitted answered current waiting
    genuine.client.contiguous ?_ rfl rfl rfl rfl rfl ?_ ?_
  · simp only [OrderedReceiverSession.SerialsBalanced, List.length_append,
      List.length_singleton, OrderedReceiverSession.receive,
      OrderedReceiverSession.resetSynchronization] at balanced ⊢
    omega
  · intro greeted
    exact ⟨greeted.connection, by rintro _ ⟨⟩⟩
  · intro own position applied stands reads after advanced
    obtain ⟨last, followed, lastEpoch, nextSeq⟩ := reads.queue
    have queued := follow_queued followed lastEpoch nextSeq advanced (by simp)
    simp only [advance] at advanced
    split at advanced
    · cases advanced
      refine ⟨applied, queued, reads.start, fun _ => rfl, ?_, reads.bound, by rintro _ ⟨⟩⟩
      intro _ _ resetless
      exact absurd (List.mem_append_right _ (List.mem_singleton_self _)) (resetless epoch)
    · cases advanced

/-- A completed replay is noted with everything queued so far before it. -/
theorem genuine_replayComplete {state : NativeResumption Handler Record}
    (genuine : state.Genuine) {link : ReplayLink Handler Record}
    {admission : Admission Handler Record} {headSeq epoch : Nat}
    (opened : state.network.link = some link)
    (admitted : link.admission = some admission) (answered : link.answered = true)
    (current : link.generation = state.client.session.generation)
    (waiting : admission.socket[link.read]? = some (.replayComplete headSeq epoch)) :
    Genuine { state with
      network := { state.network with link := some { link with read := link.read + 1 } }
      client := { state.client with
        session := { state.client.session with
          pendingReplay := some
            { generation := link.generation
              headSeq := headSeq
              epoch := epoch
              serial := state.client.session.incomingSerial } }
        identity := state.client.identity.acceptReplayComplete epoch } } := by
  have balanced := genuine.client.balanced
  refine genuine_received genuine opened admitted answered current waiting
    genuine.client.contiguous balanced rfl rfl rfl rfl rfl ?_ ?_
  · intro greeted
    refine ⟨greeted.connection, ?_⟩
    intro identity pending
    simp only [ReceiverReplayIdentity.acceptReplayComplete] at pending
    split at pending
    · next proven =>
        obtain ⟨connection, negotiated, rfl⟩ := Option.map_eq_some_iff.1 pending
        exact ⟨greeted.connection connection negotiated, proven, _, rfl, rfl⟩
    · cases pending
  · intro own position applied stands reads after advanced
    simp only [advance] at advanced
    split at advanced
    · next matched =>
        cases advanced
        refine ⟨applied, reads.queue, reads.start, reads.aligned, reads.backed, reads.bound, ?_⟩
        rintro _ ⟨⟩
        have all : state.client.session.incomingSerial - state.client.session.drainedSerial =
            state.client.session.frames.length := by
          simp only [OrderedReceiverSession.SerialsBalanced] at balanced
          omega
        have live : position.next ≠ 0 := by omega
        refine ⟨matched.1, live, ?_⟩
        simp only [all, List.drop_length]
        exact fun _ => List.not_mem_nil
    · cases advanced

/-- A record that the session has already is passed over; on the current server there is none. -/
theorem genuine_duplicate {state : NativeResumption Handler Record} (genuine : state.Genuine)
    {link : ReplayLink Handler Record} {admission : Admission Handler Record} {seq : Nat}
    {record : Record} (opened : state.network.link = some link)
    (admitted : link.admission = some admission) (answered : link.answered = true)
    (current : link.generation = state.client.session.generation)
    (waiting : admission.socket[link.read]? = some (.event seq record))
    (received : seq ≤ state.client.session.lastReceivedSequence) :
    Genuine { state with
      network := { state.network with link := some { link with read := link.read + 1 } } } := by
  refine genuine_received genuine opened admitted answered current waiting
    genuine.client.contiguous genuine.client.balanced rfl rfl rfl rfl rfl id ?_
  intro own position applied stands reads after advanced
  simp only [advance] at advanced
  split at advanced
  · next matched =>
      have live : position.next ≠ 0 := by omega
      have aligned := reads.aligned live
      omega
  · cases advanced

/-- A frame that ends the connection leaves the session as it was. -/
theorem genuine_refused {state : NativeResumption Handler Record} (genuine : state.Genuine)
    {link : ReplayLink Handler Record} (opened : state.network.link = some link)
    (overflowed : Bool) :
    (drop { state with
      network := { state.network with link := some { link with read := link.read + 1 } }
      client := { state.client with
        session := { state.client.session with overflowed := overflowed } } }
      { link with read := link.read + 1 }).Genuine := by
  have dropped : (drop { state with
      client := { state.client with
        session := { state.client.session with overflowed := overflowed } } } link).Genuine :=
    genuine_drop (genuine_overflowed genuine overflowed) opened
  exact dropped

omit [DecidableEq Record] in
theorem accept_duplicate {session : OrderedReceiverSession (ReplayFrame Record)}
    {generation sequence : Nat} {kind : ReceiverMessageKind} {payload : ReplayFrame Record}
    (duplicate : (session.accept generation kind sequence payload).1 = .duplicate) :
    generation = session.generation ∧ sequence ≤ session.lastReceivedSequence ∧
      (session.accept generation kind sequence payload).2 = session := by
  unfold OrderedReceiverSession.accept at duplicate ⊢
  split
  · next invalid => rw [if_pos invalid] at duplicate; cases duplicate
  · next valid =>
      rw [if_neg valid] at duplicate
      split
      · next stale => rw [if_pos stale] at duplicate; cases duplicate
      · next current =>
          rw [if_neg current] at duplicate
          split
          · next old => exact ⟨not_not.1 current, old.2.2, rfl⟩
          · next new =>
              rw [if_neg new] at duplicate
              split at duplicate
              · cases duplicate
              · split at duplicate
                · cases duplicate
                · cases duplicate

theorem genuine_readFrame {state : NativeResumption Handler Record} (genuine : state.Genuine)
    {link : ReplayLink Handler Record} {admission : Admission Handler Record}
    {frame : ReplayFrame Record} (opened : state.network.link = some link)
    (admitted : link.admission = some admission) (answered : link.answered = true)
    (waiting : admission.socket[link.read]? = some frame) :
    (state.readFrame link frame).Genuine := by
  cases frame with
  | event seq record =>
      simp only [readFrame, NativeReceiver.handleFrame]
      rcases state.client.session.accept_cases link.generation .event seq (.event seq record) with
        ⟨refused, overflowed, same⟩ | ⟨current, _, _, taken⟩
      · by_cases duplicate : (state.client.session.accept link.generation .event seq
            (.event seq record)).1 = .duplicate
        · obtain ⟨current, received, unchanged⟩ := accept_duplicate duplicate
          simp only [duplicate, unchanged, decide_true, Bool.or_true, ↓reduceIte]
          exact genuine_duplicate genuine opened admitted answered current waiting received
        · simp only [refused, duplicate, same, decide_false, Bool.or_false, Bool.false_eq_true,
            ↓reduceIte]
          exact genuine_refused genuine opened overflowed
      · simp only [taken, decide_true, Bool.true_or, ↓reduceIte]
        exact genuine_event genuine opened admitted answered current waiting
  | resync epoch =>
      simp only [readFrame, NativeReceiver.handleFrame]
      rcases state.client.session.accept_cases link.generation .resync 0 (.resync epoch) with
        ⟨refused, overflowed, same⟩ | ⟨current, _, _, taken⟩
      · simp only [refused, same, ↓reduceIte, Bool.false_eq_true]
        exact genuine_refused genuine opened overflowed
      · simp only [taken, ↓reduceIte]
        exact genuine_resync genuine opened admitted answered current waiting
  | replayComplete headSeq epoch =>
      simp only [readFrame, NativeReceiver.handleFrame,
        OrderedReceiverSession.acceptReplayComplete]
      by_cases current : link.generation = state.client.session.generation
      · simp only [if_neg (not_not.2 current), ↓reduceIte]
        exact genuine_replayComplete genuine opened admitted answered current waiting
      · simp only [current, ne_eq, not_false_eq_true, ↓reduceIte, reduceCtorEq,
          Bool.false_eq_true]
        exact genuine_refused genuine opened state.client.session.overflowed

/-! ### The consumer -/

/-- A queued frame has been taken: the parts that do not depend on what it did. -/
theorem genuine_popped {state : NativeResumption Handler Record} (genuine : state.Genuine)
    {link : ReplayLink Handler Record} (opened : state.network.link = some link)
    (answered : link.answered = true)
    (current : link.generation = state.client.session.generation)
    {frame : ReplayFrame Record} {rest : List (ReplayFrame Record)}
    (queued : state.client.session.frames = frame :: rest) (cursor : Nat) (synchronized : Bool)
    (held : Nat → Option Record)
    (vouched : ∀ identity, state.client.identity.appliedIdentity = some identity →
      state.network.Vouches held cursor identity)
    (moved : link.serverInstance = state.network.server.serverInstance →
      ∀ position applied after last,
        Reads state.network.server state.client state.held link applied position →
        advance state.network.server.histories applied frame = some after →
        follow state.network.server.histories after rest = some last →
        last.epoch = position.epoch →
        (after.next ≠ 0 → after.next = cursor + 1) ∧
        (state.client.identity.connectionPrefixProven = true → position.next ≠ 0 →
          Resetless rest →
          HoldsPrefix held cursor (state.network.server.histories position.epoch))) :
    Genuine { state with
      client := { state.client with
        session := { state.client.session with
          frames := rest
          drainedSerial := state.client.session.drainedSerial + 1
          lastAppliedSequence := cursor
          synchronized := synchronized } }
      held := held } := by
  have client := genuine.client
  have active := genuine.active link opened current
  refine ⟨genuine.network, ⟨client.contiguous, ?_, client.requested, client.first, vouched⟩,
    genuine.sent, genuine.generation, genuine.claimed, ?_, ?_⟩
  · have balanced := client.balanced
    simp only [OrderedReceiverSession.SerialsBalanced, queued, List.length_cons] at balanced ⊢
    omega
  · exact fun stale => absurd current (stale link opened answered)
  · intro other found _
    cases opened.symm.trans found
    refine ⟨active.settled, fun unanswered => absurd (answered.symm.trans unanswered) (by simp), ?_,
      active.foreign, fun _ unanswered => absurd (answered.symm.trans unanswered) (by simp), ?_⟩
    · intro _
      obtain ⟨connection, pending⟩ := active.greeted answered
      exact ⟨connection, pending⟩
    · intro own _ admission admitted
      obtain ⟨position, applied, stands, reads⟩ := active.reads own answered admission admitted
      obtain ⟨last, followed, epoch, nextSeq⟩ := reads.queue
      rw [queued] at followed
      obtain ⟨after, advanced, remaining⟩ := Option.bind_eq_some_iff.1 followed
      obtain ⟨start, backed⟩ :=
        moved own position applied after last reads advanced remaining epoch
      refine ⟨position, after, stands, ⟨last, remaining, epoch, nextSeq⟩, start, reads.aligned,
        backed, ?_, ?_⟩
      · intro identity found same
        exact (reads.bound identity found same).trans (advance_epoch advanced)
      · intro marker marked
        obtain ⟨markerEpoch, live, resetless⟩ := reads.marked marker marked
        refine ⟨markerEpoch, live, ?_⟩
        intro epoch member
        apply resetless epoch
        rw [queued]
        -- The serial of the marker counts the frame that was taken, unless it is already past.
        cases position : marker.serial - state.client.session.drainedSerial with
        | zero => exact List.mem_cons_of_mem _ (List.mem_of_mem_drop member)
        | succ behind =>
            have one : marker.serial - (state.client.session.drainedSerial + 1) = behind := by
              omega
            simp only [one] at member
            exact member

/-- The history that an identity names while the queue still stands in it. -/
theorem applied_epoch {state : NativeResumption Handler Record} (genuine : state.Genuine)
    {link : ReplayLink Handler Record} (opened : state.network.link = some link)
    (answered : link.answered = true)
    (current : link.generation = state.client.session.generation)
    (claims : state.client.identity.appliedIdentity = some state.network.current) :
    link.serverInstance = state.network.server.serverInstance ∧
      ∀ admission, link.admission = some admission →
        ∃ position applied,
          ReplayNetwork.At state.network.server link admission position ∧
          Reads state.network.server state.client state.held link applied position ∧
          applied.epoch = state.network.server.epoch := by
  have active := genuine.active link opened current
  have linked := genuine.network.link link opened
  have own : link.serverInstance = state.network.server.serverInstance := by
    by_contra foreign
    exact active.foreign foreign _ claims rfl
  refine ⟨own, ?_⟩
  intro admission admitted
  obtain ⟨position, applied, stands, reads⟩ := active.reads own answered admission admitted
  obtain ⟨last, followed, epoch, _⟩ := reads.queue
  have bound : applied.epoch ≤ state.network.server.epoch := by
    calc applied.epoch ≤ last.epoch := follow_epoch followed
      _ = position.epoch := epoch
      _ ≤ state.network.server.epoch := (linked.carries own admission admitted).epoch stands
  exact ⟨position, applied, stands, reads,
    Nat.le_antisymm bound (reads.bound _ claims own.symm)⟩

theorem genuine_applied {state : NativeResumption Handler Record} (genuine : state.Genuine)
    {link : ReplayLink Handler Record} (opened : state.network.link = some link)
    (answered : link.answered = true)
    (current : link.generation = state.client.session.generation)
    {seq : Nat} {record : Record} {rest : List (ReplayFrame Record)}
    (queued : state.client.session.frames = .event seq record :: rest)
    (next : seq = state.client.session.lastAppliedSequence + 1) (synchronized : Bool) :
    Genuine { state with
      client := { state.client with
        session := { state.client.session with
          frames := rest
          drainedSerial := state.client.session.drainedSerial + 1
          lastAppliedSequence := seq
          synchronized := synchronized } }
      held := Function.update state.held seq (some record) } := by
  subst next
  -- In the history the queue stands in, the frame is the record behind those applied.
  have found : ∀ {position applied after : Position},
      Reads state.network.server state.client state.held link applied position →
      advance state.network.server.histories applied
        (.event (state.client.session.lastAppliedSequence + 1) record) = some after →
      after.epoch = applied.epoch ∧
        after.next = state.client.session.lastAppliedSequence + 2 ∧
        (state.network.server.histories applied.epoch)[
          state.client.session.lastAppliedSequence]? = some record := by
    intro position applied after _ advanced
    simp only [advance] at advanced
    split at advanced
    · next matched =>
        cases advanced
        exact ⟨rfl, rfl, matched.2.2⟩
    · cases advanced
  refine genuine_popped genuine opened answered current queued _ synchronized _ ?_ ?_
  · intro identity applied
    obtain ⟨known, backed⟩ := genuine.client.vouched identity applied
    refine ⟨known, ?_⟩
    intro now
    obtain ⟨own, reading⟩ := applied_epoch genuine opened answered current
      (by rw [← now]; exact applied)
    cases admitted : link.admission with
    | none =>
        have waiting := (genuine.network.link link opened).waiting admitted
        exact absurd (answered.symm.trans waiting) (by simp)
    | some admission =>
        obtain ⟨position, standing, _, reads, epoch⟩ := reading admission admitted
        obtain ⟨last, followed, _, _⟩ := reads.queue
        rw [queued] at followed
        obtain ⟨after, advanced, _⟩ := Option.bind_eq_some_iff.1 followed
        obtain ⟨_, _, record⟩ := found reads advanced
        rw [epoch, BroadcastState.histories_current] at record
        exact (backed now).push record
  · intro own position applied after last reads advanced remaining epoch
    obtain ⟨sameEpoch, nextSeq, record⟩ := found reads advanced
    refine ⟨fun _ => nextSeq, ?_⟩
    intro proven live resetless
    have stays : position.epoch = applied.epoch := by
      rw [← epoch, follow_resetless resetless remaining, sameEpoch]
    have whole : Resetless state.client.session.frames := by
      rw [queued]
      intro other member
      rcases List.mem_cons.1 member with same | old
      · cases same
      · exact resetless other old
    rw [← stays] at record
    exact (reads.backed proven live whole).push record

theorem genuine_reset {state : NativeResumption Handler Record} (genuine : state.Genuine)
    {link : ReplayLink Handler Record} (opened : state.network.link = some link)
    (answered : link.answered = true)
    (current : link.generation = state.client.session.generation)
    {epoch : Nat} {rest : List (ReplayFrame Record)}
    (queued : state.client.session.frames = .resync epoch :: rest) :
    Genuine { state with
      client := { state.client with
        session := { state.client.session with
          frames := rest
          drainedSerial := state.client.session.drainedSerial + 1
          lastAppliedSequence := 0
          synchronized := false } }
      held := fun _ => none } := by
  refine genuine_popped genuine opened answered current queued 0 false _ ?_ ?_
  · intro identity applied
    exact ⟨(genuine.client.vouched identity applied).1, fun _ => HoldsPrefix.zero _ _⟩
  · intro own position applied after last reads advanced _ _
    simp only [advance] at advanced
    split at advanced
    · cases advanced
      exact ⟨fun _ => rfl, fun _ _ _ => HoldsPrefix.zero _ _⟩
    · cases advanced

/-- A frame that is passed over.  On the current server no record is. -/
theorem genuine_skipped {state : NativeResumption Handler Record} (genuine : state.Genuine)
    {link : ReplayLink Handler Record} (opened : state.network.link = some link)
    (answered : link.answered = true)
    (current : link.generation = state.client.session.generation)
    {frame : ReplayFrame Record} {rest : List (ReplayFrame Record)}
    (queued : state.client.session.frames = frame :: rest)
    (kept : ∀ epoch, frame ≠ .resync epoch)
    (old : ∀ seq record, frame = .event seq record →
      seq ≤ state.client.session.lastAppliedSequence) :
    Genuine { state with
      client := { state.client with
        session := { state.client.session with
          frames := rest
          drainedSerial := state.client.session.drainedSerial + 1 } } } := by
  refine genuine_popped genuine opened answered current queued
    state.client.session.lastAppliedSequence state.client.session.synchronized state.held
    genuine.client.vouched ?_
  intro own position applied after last reads advanced _ _
  cases frame with
  | event seq record =>
      have low := old seq record rfl
      simp only [advance] at advanced
      split at advanced
      · next matched =>
          have live : applied.next ≠ 0 := by omega
          have start := reads.start live
          omega
      · cases advanced
  | resync epoch => exact absurd rfl (kept epoch)
  | replayComplete headSeq epoch =>
      simp only [advance] at advanced
      split at advanced
      · cases advanced
        refine ⟨reads.start, ?_⟩
        intro proven live resetless
        apply reads.backed proven live
        rw [queued]
        intro other member
        rcases List.mem_cons.1 member with same | old
        · cases same
        · exact resetless other old
      · cases advanced

/-- A client with a queued frame has an active connection whose hello has been read. -/
theorem receiving_of_queued {state : NativeResumption Handler Record} (genuine : state.Genuine)
    {frame : ReplayFrame Record} {rest : List (ReplayFrame Record)}
    (queued : state.client.session.frames = frame :: rest) :
    ∃ link, state.network.link = some link ∧ link.answered = true ∧
      link.generation = state.client.session.generation := by
  by_contra none
  have idle := genuine.idle fun link opened answered current =>
    none ⟨link, opened, answered, current⟩
  rw [idle.frames] at queued
  cases queued

theorem genuine_consume {state : NativeResumption Handler Record} (genuine : state.Genuine)
    {applySucceeds : Bool} {outcome : StageChange Record × NativeReceiver Record}
    (consumed : state.client.consume applySucceeds = some outcome) :
    Genuine { state with client := outcome.2, held := change state.held outcome.1 } := by
  unfold NativeReceiver.consume OrderedReceiverSession.tryPop at consumed
  cases queued : state.client.session.frames with
  | nil =>
      rw [queued] at consumed
      cases consumed
  | cons frame rest =>
      obtain ⟨link, opened, answered, current⟩ := receiving_of_queued genuine queued
      rw [queued] at consumed
      -- A request after the frame was taken keeps everything below the applied cursor.
      have requested : ∀ held,
          (∀ seq ≤ state.client.session.lastAppliedSequence, held seq = state.held seq) →
          Genuine { state with
            client := NativeReceiver.requestReplayFromApplied
              { state.client with
                session := { state.client.session with
                  frames := rest
                  drainedSerial := state.client.session.drainedSerial + 1 } }
            held := held } :=
        fun held same => genuine_requested genuine _ held rfl genuine.client.contiguous rfl rfl same
      cases frame with
      | resync epoch =>
          cases consumed
          exact genuine_reset genuine opened answered current queued
      | replayComplete headSeq epoch =>
          cases consumed
          exact genuine_skipped genuine opened answered current queued nofun nofun
      | event seq record =>
          dsimp only at consumed
          split at consumed
          · next low =>
              cases consumed
              refine genuine_skipped genuine opened answered current queued nofun ?_
              rintro _ _ ⟨⟩
              exact low
          · split at consumed
            · cases consumed
              exact requested state.held fun _ _ => rfl
            · next next =>
                have exactly : seq = state.client.session.lastAppliedSequence + 1 :=
                  not_not.1 next
                split at consumed
                · simp only [OrderedReceiverSession.markAppliedThrough] at consumed
                  split at consumed
                  · next marked =>
                      split at marked
                      · cases marked
                      · cases marked
                        cases consumed
                        exact genuine_applied genuine opened answered current queued exactly _
                  · cases consumed
                    apply requested
                    intro other low
                    exact Function.update_of_ne (by omega) _ _
                · cases consumed
                  exact requested state.held fun _ _ => rfl

/-- The applied identity becomes the one of the replay that has been applied in full. -/
theorem genuine_published {state : NativeResumption Handler Record} (genuine : state.Genuine)
    {marker : ReplayState} (marked : state.client.session.pendingReplay = some marker)
    (drained : marker.serial ≤ state.client.session.drainedSerial) :
    Genuine { state with
      client := { state.client with
        session := state.client.session.publishReplay marker
        identity := state.client.identity.markReplayApplied } } := by
  have client := genuine.client
  obtain ⟨link, opened, answered, current⟩ : ∃ link, state.network.link = some link ∧
      link.answered = true ∧ link.generation = state.client.session.generation := by
    by_contra none
    have idle := genuine.idle fun link opened answered current =>
      none ⟨link, opened, answered, current⟩
    rw [idle.unmarked] at marked
    cases marked
  have active := genuine.active link opened current
  have linked := genuine.network.link link opened
  have greeted := active.greeted answered
  -- Everything before the marker has been taken, so what is queued stays in its history.
  have settled : ∀ {position applied : Position},
      Reads state.network.server state.client state.held link applied position →
      Resetless state.client.session.frames ∧ position.next ≠ 0 ∧
        position.epoch = marker.epoch ∧ applied.epoch = marker.epoch := by
    intro position applied reads
    obtain ⟨epoch, live, resetless⟩ := reads.marked marker marked
    rw [Nat.sub_eq_zero_of_le drained, List.drop_zero] at resetless
    obtain ⟨last, followed, lastEpoch, _⟩ := reads.queue
    refine ⟨resetless, live, epoch.symm, ?_⟩
    rw [← follow_resetless resetless followed, lastEpoch, epoch]
  have pending : ∀ identity, state.client.identity.pendingIdentity = some identity →
      identity = { serverInstance := link.serverInstance, epoch := marker.epoch } ∧
        state.client.identity.connectionPrefixProven = true := by
    intro identity found
    obtain ⟨named, proven, other, otherMarked, epoch⟩ := greeted.pending identity found
    cases marked.symm.trans otherMarked
    exact ⟨(ReplayIdentity.mk.injEq _ _ _ _).mpr ⟨named, epoch.symm⟩, proven⟩
  have reading : link.serverInstance = state.network.server.serverInstance →
      ∃ admission position applied, link.admission = some admission ∧
        ReplayNetwork.At state.network.server link admission position ∧
        Reads state.network.server state.client state.held link applied position := by
    intro own
    cases admitted : link.admission with
    | none => exact absurd (answered.symm.trans (linked.waiting admitted)) nofun
    | some admission =>
        obtain ⟨position, applied, stands, reads⟩ := active.reads own answered admission admitted
        exact ⟨admission, position, applied, rfl, stands, reads⟩
  refine ⟨genuine.network, ⟨client.contiguous, client.balanced, client.requested, ?_, ?_⟩,
    genuine.sent, genuine.generation, genuine.claimed, ?_, ?_⟩
  · intro unsent
    exact absurd ((genuine.sent link opened).symm.trans unsent) nofun
  · intro identity found
    obtain ⟨rfl, proven⟩ := pending identity found
    refine ⟨⟨linked.known, ?_⟩, ?_⟩
    · intro own
      obtain ⟨admission, position, applied, admitted, stands, reads⟩ := reading own
      rw [← (settled reads).2.2.1]
      exact (linked.carries own admission admitted).epoch stands
    · intro now
      obtain ⟨own, last⟩ := ReplayIdentity.mk.inj now
      obtain ⟨_, position, applied, _, _, reads⟩ := reading own
      obtain ⟨resetless, live, epoch, _⟩ := settled reads
      have backed := reads.backed proven live resetless
      rw [epoch, last, BroadcastState.histories_current] at backed
      exact backed
  · exact fun stale => absurd current (stale link opened answered)
  · intro other found _
    cases opened.symm.trans found
    refine ⟨active.settled, fun unanswered => absurd (answered.symm.trans unanswered) nofun,
      fun _ => ⟨greeted.connection, nofun⟩, ?_,
      fun _ unanswered => absurd (answered.symm.trans unanswered) nofun, ?_⟩
    · intro foreign identity found
      obtain ⟨rfl, _⟩ := pending identity found
      exact foreign
    · intro own _ admission admitted
      obtain ⟨position, applied, stands, reads⟩ := active.reads own answered admission admitted
      refine ⟨position, applied, stands, reads.queue, reads.start, reads.aligned, reads.backed, ?_,
        nofun⟩
      intro identity found _
      obtain ⟨rfl, _⟩ := pending identity found
      exact (settled reads).2.2.2.ge

theorem genuine_markReplayApplied {state : NativeResumption Handler Record}
    (genuine : state.Genuine) :
    Genuine { state with client := state.client.markReplayApplied } := by
  unfold NativeReceiver.markReplayApplied OrderedReceiverSession.tryMarkReplayApplied
  cases marked : state.client.session.pendingReplay with
  | none => exact genuine
  | some marker =>
      dsimp only
      split
      · next unpublished =>
          split at unpublished
          · exact genuine
          · cases unpublished
      · next published =>
          split at published
          · cases published
          · next complete =>
              cases published
              refine genuine_published genuine marked ?_
              by_contra behind
              exact complete (Or.inr (Or.inl (Nat.lt_of_not_le behind)))

/-! ### Runs -/

theorem genuine_step (state : NativeResumption Handler Record)
    (action : NativeAction Handler Record) (next : NativeResumption Handler Record)
    (genuine : state.Genuine) (stepped : state.step? action = some next) : next.Genuine := by
  cases action with
  | network action =>
      obtain ⟨network, evolved, rfl⟩ := Option.map_eq_some_iff.1 stepped
      exact genuine_network genuine (ReplayNetwork.evolves_step genuine.network evolved)
  | failedConnection =>
      simp only [step?] at stepped
      split at stepped
      · next closed =>
          cases stepped
          exact genuine_failedConnection genuine (Option.isNone_iff_eq_none.1 closed)
      · cases stepped
  | connect =>
      simp only [step?] at stepped
      split at stepped
      · next closed =>
          cases stepped
          exact genuine_connect genuine (Option.isNone_iff_eq_none.1 closed)
      · cases stepped
  | readHello =>
      simp only [step?] at stepped
      split at stepped
      · cases stepped
      · next link opened =>
          split at stepped
          · cases stepped
          · next admission admitted =>
              split at stepped
              · cases stepped
              · next unanswered =>
                  cases stepped
                  exact genuine_readHello genuine opened admitted
                    (Bool.eq_false_iff.2 unanswered)
  | readFrame =>
      simp only [step?] at stepped
      split at stepped
      · cases stepped
      · next link opened =>
          split at stepped
          · cases stepped
          · next admission admitted =>
              split at stepped
              · next answered =>
                  obtain ⟨frame, waiting, rfl⟩ := Option.map_eq_some_iff.1 stepped
                  exact genuine_readFrame genuine opened admitted answered waiting
              · cases stepped
  | drop =>
      obtain ⟨link, opened, rfl⟩ := Option.map_eq_some_iff.1 stepped
      exact genuine_drop genuine opened
  | requestReplay =>
      cases stepped
      exact genuine_requestReplay genuine
  | consume applySucceeds =>
      obtain ⟨outcome, consumed, rfl⟩ := Option.map_eq_some_iff.1 stepped
      exact genuine_consume genuine consumed
  | markReplayApplied =>
      cases stepped
      exact genuine_markReplayApplied genuine

end NativeResumption

end UsdConnect
