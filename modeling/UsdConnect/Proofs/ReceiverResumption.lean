/-
Purpose: The identity the receiver thread claims is genuine: as long as it names the current
  history, what the receiver has are the first records of the log.
Trusted boundary: none
Main exports: ReceiverResumption.Genuine, ReceiverResumption.genuine_run
-/
import UsdConnect.Proofs.ReplayNetwork
import UsdConnect.Protocol.Resumption

namespace UsdConnect

variable {Handler Record : Type} [DecidableEq Handler] [DecidableEq Record]

namespace ReceiverThread

/-- The thread after its inbox took a message. -/
def accepted (thread : ReceiverThread Record) (frame : ReceiverFrame Record) :
    ReceiverThread Record :=
  { thread with
    inbox := { thread.inbox.receive frame.kind frame.sequence with
      frames := thread.inbox.frames ++ [frame]
      incomingSerial := thread.inbox.incomingSerial + 1 } }

omit [DecidableEq Record] in
/-- An inbox that does not check for gaps takes a message of its own generation, or the connection
ends. -/
theorem handleDataMessage_cases {thread : ReceiverThread Record}
    (gapless : thread.inbox.requireContiguous = false) (frame : ReceiverFrame Record)
    (generation : Nat) :
    ((thread.inbox.accept generation frame.kind frame.sequence frame).1 ≠ .accepted ∧
      ∃ overflowed, thread.handleDataMessage frame generation =
        (false, { thread with inbox := { thread.inbox with overflowed := overflowed } })) ∨
    (generation = thread.inbox.generation ∧
      (thread.inbox.accept generation frame.kind frame.sequence frame).1 = .accepted ∧
      thread.handleDataMessage frame generation =
        (true, if frame.kind = .resync then (thread.accepted frame).acceptResync
          else thread.accepted frame)) := by
  unfold handleDataMessage
  rcases thread.inbox.accept_cases generation frame.kind frame.sequence frame with
    ⟨refused, overflowed, same⟩ | ⟨current, _, _, taken⟩
  · refine Or.inl ⟨refused, ?_⟩
    have unordered :
        (thread.inbox.accept generation frame.kind frame.sequence frame).1 ≠ .duplicate ∧
          (thread.inbox.accept generation frame.kind frame.sequence frame).1 ≠ .sequenceGap := by
      simp only [OrderedReceiverSession.accept, gapless, Bool.false_eq_true, false_and,
        ↓reduceIte]
      split
      · exact ⟨nofun, nofun⟩
      · split
        · exact ⟨nofun, nofun⟩
        · split
          · exact ⟨nofun, nofun⟩
          · exact ⟨nofun, nofun⟩
    rcases answered : thread.inbox.accept generation frame.kind frame.sequence frame with
      ⟨code, session⟩
    rw [answered] at refused same unordered
    cases same
    cases code with
    | accepted => exact absurd rfl refused
    | staleGeneration => exact ⟨overflowed, rfl⟩
    | queueFull => exact ⟨overflowed, rfl⟩
    | invalidSequence => exact ⟨overflowed, rfl⟩
    | duplicate => exact absurd rfl unordered.1
    | sequenceGap => exact absurd rfl unordered.2
  · refine Or.inr ⟨current, ?_, ?_⟩
    · rw [taken]
    · rw [taken]
      rfl

omit [DecidableEq Record] in
theorem applyResetOnHello_cases (thread : ReceiverThread Record)
    (gapless : thread.inbox.requireContiguous = false) (generation : Nat) :
    ((thread.inbox.accept generation .resync 0 .resync).1 ≠ .accepted ∧
      ∃ overflowed, thread.applyResetOnHello generation =
        (false, { thread with inbox := { thread.inbox with overflowed := overflowed } })) ∨
    (thread.resetOnHello = false ∧ thread.applyResetOnHello generation = (true, thread)) ∨
    (thread.resetOnHello = true ∧
      (thread.inbox.accept generation .resync 0 .resync).1 = .accepted ∧
      thread.applyResetOnHello generation =
        (true, { (thread.accepted .resync).acceptResync with resetOnHello := false })) := by
  unfold applyResetOnHello
  by_cases owed : thread.resetOnHello = true
  · rw [if_pos owed]
    rcases handleDataMessage_cases gapless .resync generation with
      ⟨full, overflowed, refused⟩ | ⟨_, taken, handled⟩
    · rw [refused]
      exact Or.inl ⟨full, overflowed, rfl⟩
    · rw [handled]
      exact Or.inr (Or.inr ⟨owed, taken, rfl⟩)
  · rw [if_neg owed]
    exact Or.inr (Or.inl ⟨Bool.eq_false_iff.2 owed, rfl⟩)

end ReceiverThread

namespace ReceiverResumption

/-! ### The invariant -/

/-- Whether the connection counts the receiver's prefix as proven, or will once its hello has been
read. -/
def trusted (thread : ReceiverThread Record) (link : ReplayLink Handler Record) : Bool :=
  if link.answered then thread.connectionPrefixProven
  else link.hello.syncFrom == 1 || thread.prefixValidationRequested

/-- What an active connection to the current server has brought, unless a reset comes first. -/
structure Reads (server : BroadcastState Handler Record) (thread : ReceiverThread Record)
    (held : Nat → Option Record) (link : ReplayLink Handler Record) (position : Position) :
    Prop where
  aligned : position.next ≠ 0 → position.next = thread.inbox.lastReceivedSequence + 1
  backed : trusted thread link = true → position.next ≠ 0 →
    HoldsPrefix held thread.inbox.lastReceivedSequence (server.histories position.epoch)
  bound : ∀ identity, thread.receivedReplayIdentity = some identity →
    identity.serverInstance = link.serverInstance → identity.epoch ≤ position.epoch
  initial : link.answered = true → ∀ identity, thread.initialReplayIdentity = some identity →
    identity.epoch ≤ position.epoch

/-- A connection whose hello has not been read. -/
structure Greeting (thread : ReceiverThread Record) (held : Nat → Option Record)
    (link : ReplayLink Handler Record) : Prop where
  cursor : link.hello.syncFrom = thread.inbox.lastReceivedSequence + 1
  held : link.held = held
  claim : link.hello.claim =
    if thread.prefixValidationRequested then
      some
        { serverInstance := (thread.receivedReplayIdentity.map (·.serverInstance)).getD ""
          epoch := thread.receivedReplayIdentity.map (·.epoch) }
    else none
  resetting : thread.resetOnHello = true →
    link.hello.syncFrom = 1 ∨ thread.prefixValidationRequested = true

/-- A connection whose hello has been read. -/
structure Greeted (thread : ReceiverThread Record) (link : ReplayLink Handler Record) : Prop where
  settled : thread.resetOnHello = false
  named : thread.connectionServerInstance = link.serverInstance
  initial : ∀ identity, thread.initialReplayIdentity = some identity →
    identity.serverInstance = link.serverInstance

/-- A connection of the inbox's own generation. -/
structure ActiveLink (state : ReceiverResumption Handler Record)
    (link : ReplayLink Handler Record) : Prop where
  settled : state.thread.inbox.requestedReplayFrom = none
  greeting : link.answered = false → Greeting state.thread state.held link
  greeted : link.answered = true → Greeted state.thread link
  foreign : link.serverInstance ≠ state.network.server.serverInstance →
    ∀ identity, state.thread.receivedReplayIdentity = some identity →
      identity.serverInstance ≠ state.network.server.serverInstance
  reads : link.serverInstance = state.network.server.serverInstance →
    ∀ admission, link.admission = some admission →
      ∃ position, ReplayNetwork.At state.network.server link admission position ∧
        Reads state.network.server state.thread state.held link position

/-- What the thread keeps with or without a connection. -/
structure ThreadSound (state : ReceiverResumption Handler Record) : Prop where
  gapless : state.thread.inbox.requireContiguous = false
  requested : ∀ seqStart, state.thread.inbox.requestedReplayFrom = some seqStart →
    state.thread.inbox.lastReceivedSequence + 1 = seqStart
  resetting : state.thread.resetOnHello = true → state.thread.receivedReplayIdentity = none
  first : state.thread.helloSent = false → state.thread.resetOnHello = true →
    state.thread.inbox.lastReceivedSequence = 0
  vouched : ∀ identity, state.thread.receivedReplayIdentity = some identity →
    state.network.Vouches state.held state.thread.inbox.lastReceivedSequence identity

/-- The invariant of every run. -/
structure Genuine (state : ReceiverResumption Handler Record) : Prop where
  network : state.network.Sound
  thread : state.ThreadSound
  generation : ∀ link, state.network.link = some link →
    link.generation ≤ state.thread.inbox.generation
  claimed : ∀ link, state.network.link = some link → link.admission = none →
    ∀ identity : ReplayIdentity,
      link.hello.claim =
        some { serverInstance := identity.serverInstance, epoch := some identity.epoch } →
      state.network.Vouches link.held (link.hello.syncFrom - 1) identity
  active : ∀ link, state.network.link = some link →
    link.generation = state.thread.inbox.generation → state.ActiveLink link

theorem genuine_create {server : BroadcastState Handler Record} (delivers : server.Delivers)
    (named : server.serverInstance ≠ "") (syncFrom maxQueue : Nat)
    (held : Nat → Option Record) :
    (create server syncFrom maxQueue held).Genuine where
  network := ⟨delivers, by simpa [create] using named.symm, List.not_mem_nil, nofun⟩
  thread := ⟨rfl, nofun, nofun, nofun, nofun⟩
  generation := nofun
  claimed := nofun
  active := nofun

/-! ### Steps of the network -/

omit [DecidableEq Handler] [DecidableEq Record] in
/-- More frames and longer histories leave what has been read as it was. -/
theorem Reads.grow {server next : BroadcastState Handler Record} {thread : ReceiverThread Record}
    {held : Nat → Option Record} {link after : ReplayLink Handler Record} {position : Position}
    (reads : Reads server thread held link position)
    (same : after = { link with admission := after.admission })
    (grown : server.histories position.epoch <+: next.histories position.epoch) :
    Reads next thread held after position := by
  rw [same]
  refine ⟨reads.aligned, ?_, reads.bound, reads.initial⟩
  intro proven read
  exact (reads.backed proven read).grow grown

omit [DecidableEq Handler] [DecidableEq Record] in
/-- A hello that is answered now: the server resumes only behind a claim of its own identity. -/
theorem reads_opened {state : ReceiverResumption Handler Record} (thread : state.ThreadSound)
    {link after : ReplayLink Handler Record} {admission : Admission Handler Record}
    {next : BroadcastState Handler Record} (greeting : Greeting state.thread state.held link)
    (same : after = { link with admission := some admission })
    (unanswered : link.answered = false)
    (own : link.serverInstance = state.network.server.serverInstance)
    (answers : Admission.Answers after admission)
    (epoch : admission.start.epoch = state.network.server.epoch)
    (log : next.histories admission.start.epoch = state.network.server.log) :
    Reads next state.thread state.held after admission.start := by
  have cursor := greeting.cursor
  subst same
  refine ⟨?_, ?_, ?_, ?_⟩
  · intro live
    have resumed := answers.resumed live
    simp only [cursor] at resumed
    omega
  · intro proven live
    rw [log]
    simp only [trusted, unanswered, Bool.false_eq_true, ↓reduceIte, Bool.or_eq_true, beq_iff_eq]
      at proven
    by_cases start : link.hello.syncFrom = 1
    · have nothing : state.thread.inbox.lastReceivedSequence = 0 := by omega
      rw [nothing]
      exact HoldsPrefix.zero _ _
    · have validated : state.thread.prefixValidationRequested = true := proven.resolve_left start
      have carried := greeting.claim
      rw [validated, if_pos rfl] at carried
      have above : 1 < link.hello.syncFrom := by omega
      have claimed := answers.claimed _ carried above live
      obtain ⟨sameInstance, sameEpoch⟩ := ReplayClaim.mk.inj claimed
      obtain ⟨identity, received, identityEpoch⟩ := Option.map_eq_some_iff.1 sameEpoch
      rw [received] at sameInstance
      refine (thread.vouched identity received).2 ?_
      rw [ReplayNetwork.current, ← own, ← epoch, ← identityEpoch]
      exact congrArg (fun name => ReplayIdentity.mk name identity.epoch) sameInstance
  · intro identity received sameInstance
    rw [epoch]
    exact (thread.vouched identity received).1.2 (sameInstance.trans own)
  · intro answered
    exact absurd (unanswered.symm.trans answered) (by simp)

theorem genuine_network {state : ReceiverResumption Handler Record} (genuine : state.Genuine)
    {network : ReplayNetwork Handler Record} (evolves : state.network.Evolves network) :
    Genuine { state with network } := by
  refine ⟨evolves.sound, ?_, ?_, ?_, ?_⟩
  · obtain ⟨gapless, requested, resetting, first, vouched⟩ := genuine.thread
    exact ⟨gapless, requested, resetting, first,
      fun identity received => evolves.vouches _ _ _ (vouched identity received)⟩
  · intro after found
    obtain ⟨link, opened, linked⟩ := evolves.link after found
    rw [linked.same]
    exact genuine.generation link opened
  · intro after found absent identity carried
    obtain ⟨link, opened, linked⟩ := evolves.link after found
    rw [linked.same] at carried ⊢
    exact evolves.vouches _ _ _
      (genuine.claimed link opened (linked.waiting absent) identity carried)
  · intro after found current
    obtain ⟨link, opened, linked⟩ := evolves.link after found
    have active := genuine.active link opened (by rw [linked.same] at current; exact current)
    refine ⟨active.settled, ?_, ?_, ?_, ?_⟩
    · intro unanswered
      rw [linked.same] at unanswered ⊢
      obtain ⟨cursor, held, claim, resetting⟩ := active.greeting unanswered
      exact ⟨cursor, held, claim, resetting⟩
    · intro answered
      rw [linked.same] at answered ⊢
      obtain ⟨settled, named, initial⟩ := active.greeted answered
      exact ⟨settled, named, initial⟩
    · intro foreign identity received
      rcases linked.foreign foreign with ⟨away, named⟩ | gone
      · rw [show ({ state with network } : ReceiverResumption Handler Record).network.server
          = network.server from rfl, named]
        exact active.foreign away identity received
      · exact gone identity (genuine.thread.vouched identity received).1
    · intro own extended admitted
      obtain ⟨linkOwn, extends', admissions⟩ := linked.own own
      cases admissions extended admitted with
      | kept admission before _ stands =>
          obtain ⟨position, here, reads⟩ := active.reads linkOwn admission before
          obtain ⟨low, there⟩ := stands position here
          exact ⟨position, there, reads.grow linked.same (extends' _ low)⟩
      | opened before epoch log stands =>
          have unanswered := (genuine.network.link link opened).waiting before
          have answers := (evolves.sound.link after found).answers extended admitted
          refine ⟨extended.start, stands, ?_⟩
          exact reads_opened genuine.thread (active.greeting unanswered)
            (by rw [← admitted]; exact linked.same) unanswered linkOwn answers epoch log

/-! ### Connections end and begin -/

/-- Without a connection only the thread's own facts are left. -/
theorem genuine_dropped {state : ReceiverResumption Handler Record}
    (sound : state.network.Sound) (thread : state.ThreadSound) : state.drop.Genuine where
  network := sound.hangUp
  thread := by
    have inbox : (state.thread.inbox.disconnect state.thread.inbox.generation).clearOverflow =
        { state.thread.inbox.resetSynchronization with overflowed := false } := by
      rw [OrderedReceiverSession.disconnect, if_pos rfl]
      rfl
    obtain ⟨gapless, requested, resetting, first, vouched⟩ := thread
    refine ⟨?_, ?_, resetting, ?_, ?_⟩ <;>
      simp only [drop, ReceiverThread.disconnect, inbox]
    · exact gapless
    · exact requested
    · exact first
    · exact vouched
  generation := nofun
  claimed := nofun
  active := nofun

/-- A replay request forgets the identity and makes the connection stale. -/
theorem genuine_requestReplay {state : ReceiverResumption Handler Record}
    (genuine : state.Genuine) {seqStart : Nat} (positive : 1 ≤ seqStart)
    (meets : state.thread.helloSent = true ∨ state.thread.resetOnHello = false ∨ seqStart = 1) :
    (state.requestReplay seqStart).Genuine := by
  have inbox : (state.thread.inbox.requestReplayFrom seqStart).2 =
      { state.thread.inbox.resetSynchronization with
        generation := state.thread.inbox.generation + 1
        requestedReplayFrom := some seqStart
        lastReceivedSequence := seqStart - 1
        lastAppliedSequence := seqStart - 1
        frames := []
        drainedSerial := state.thread.inbox.incomingSerial
        overflowed := false } := by
    rw [OrderedReceiverSession.requestReplayFrom, if_neg (Nat.not_lt.2 positive)]
  have stale : ∀ link, state.network.link = some link →
      link.generation < state.thread.inbox.generation + 1 :=
    fun link opened => Nat.lt_succ_of_le (genuine.generation link opened)
  refine ⟨genuine.network, ⟨?_, ?_, fun _ => rfl, ?_, nofun⟩, ?_, genuine.claimed, ?_⟩ <;>
    simp only [requestReplay, ReceiverThread.requestReplayFrom, inbox]
  · exact genuine.thread.gapless
  · rintro _ ⟨⟩
    exact Nat.sub_add_cancel positive
  · intro unsent owed
    rcases meets with sent | clear | first
    · rw [sent] at unsent
      cases unsent
    · rw [clear, Bool.false_or, beq_iff_eq] at owed
      rw [owed]
    · rw [first]
  · intro link opened
    exact (stale link opened).le
  · intro link opened current
    exact absurd current (stale link opened).ne

/-- A hello claims what the receiver has received. -/
theorem genuine_connect {state : ReceiverResumption Handler Record} (genuine : state.Genuine) :
    state.connect.Genuine := by
  have thread := genuine.thread
  have cursor : state.thread.inbox.requestedReplayFrom.getD
      (state.thread.inbox.lastReceivedSequence + 1) =
        state.thread.inbox.lastReceivedSequence + 1 := by
    cases pending : state.thread.inbox.requestedReplayFrom with
    | none => rfl
    | some seqStart => exact (thread.requested seqStart pending).symm
  refine ⟨genuine.network.connect _ _ _, ?_, ?_, ?_, ?_⟩
  · exact ⟨thread.gapless, nofun, thread.resetting, nofun, thread.vouched⟩
  · rintro _ ⟨⟩
    exact Nat.le_refl _
  · rintro _ ⟨⟩ _ identity carried
    have claim : state.thread.replayClaim =
        some { serverInstance := identity.serverInstance, epoch := some identity.epoch } := carried
    unfold ReceiverThread.replayClaim at claim
    split at claim
    · obtain ⟨sameInstance, sameEpoch⟩ := ReplayClaim.mk.inj (Option.some.inj claim)
      obtain ⟨received, found, epoch⟩ := Option.map_eq_some_iff.1 sameEpoch
      rw [found] at sameInstance
      have same : received = identity :=
        (ReplayIdentity.mk.injEq _ _ _ _).mpr ⟨sameInstance, epoch⟩
      have vouches := thread.vouched identity (same ▸ found)
      simp only [connect, ReceiverThread.beginConnection, OrderedReceiverSession.beginConnection,
        ReplayNetwork.connect, cursor, Nat.add_sub_cancel]
      exact vouches
    · cases claim
  · rintro _ ⟨⟩ _
    refine ⟨rfl, ?_, nofun, fun foreign => absurd rfl foreign, nofun⟩
    intro _
    refine ⟨cursor, rfl, rfl, ?_⟩
    intro owed
    cases sent : state.thread.helloSent with
    | true => exact Or.inr sent
    | false =>
        have nothing := thread.first sent owed
        exact Or.inl (cursor.trans (by rw [nothing]))

/-! ### The hello is read -/

/-- The identity of an admission. -/
def admissionIdentity (link : ReplayLink Handler Record)
    (admission : Admission Handler Record) : ReplayIdentity :=
  { serverInstance := link.serverInstance, epoch := admission.start.epoch }

/-- The thread after a hello that owes no reset. -/
def greetedThread (thread : ReceiverThread Record) (link : ReplayLink Handler Record)
    (identity : ReplayIdentity) : ReceiverThread Record :=
  { thread with
    connectionServerInstance := link.serverInstance
    replayIdentitySupported := true
    connectionPrefixProven :=
      link.hello.syncFrom == 1 || thread.prefixValidationRequested
    initialReplayIdentity := some identity
    receivedReplayIdentity :=
      if link.hello.syncFrom == 1 ||
          (thread.prefixValidationRequested && thread.receivedReplayIdentity == some identity)
      then some identity else thread.receivedReplayIdentity
    connected := true }

/-- The thread after a hello whose owed reset was queued. -/
def resetThread (thread : ReceiverThread Record) (link : ReplayLink Handler Record)
    (identity : ReplayIdentity) : ReceiverThread Record :=
  { (thread.accepted .resync).acceptResync with
    connectionServerInstance := link.serverInstance
    replayIdentitySupported := true
    receivedReplayIdentity := some identity
    initialReplayIdentity := none
    resetOnHello := false
    connected := true }

/-- The thread after a hello that ends the connection. -/
def refusedThread (thread : ReceiverThread Record) (link : ReplayLink Handler Record)
    (initial : Option ReplayIdentity) (overflowed : Bool) : ReceiverThread Record :=
  { thread with
    connectionServerInstance := link.serverInstance
    replayIdentitySupported := true
    connectionPrefixProven :=
      link.hello.syncFrom == 1 || thread.prefixValidationRequested
    initialReplayIdentity := initial
    inbox := { thread.inbox with overflowed := overflowed } }

omit [DecidableEq Handler] [DecidableEq Record] in
theorem handleHelloOk_cases {thread : ReceiverThread Record}
    (gapless : thread.inbox.requireContiguous = false) (link : ReplayLink Handler Record)
    (admission : Admission Handler Record) (named : link.serverInstance ≠ "") :
    ((thread.inbox.accept link.generation .resync 0 .resync).1 ≠ .accepted ∧
      ∃ initial overflowed,
      thread.handleHelloOk (link.helloOk admission) link.hello.syncFrom link.generation =
        (false, refusedThread thread link initial overflowed)) ∨
    (link.generation = thread.inbox.generation ∧
      ((thread.resetOnHello = false ∧
        thread.handleHelloOk (link.helloOk admission) link.hello.syncFrom link.generation =
          (true, greetedThread thread link (admissionIdentity link admission))) ∨
      (thread.resetOnHello = true ∧
        (thread.inbox.accept link.generation .resync 0 .resync).1 = .accepted ∧
        thread.handleHelloOk (link.helloOk admission) link.hello.syncFrom link.generation =
          (true, resetThread thread link (admissionIdentity link admission))))) := by
  unfold ReceiverThread.handleHelloOk
  dsimp only [ReplayLink.helloOk]
  by_cases stale : link.generation ≠ thread.inbox.generation
  · rw [if_pos stale]
    refine Or.inl ⟨?_, thread.initialReplayIdentity, thread.inbox.overflowed, rfl⟩
    simp [OrderedReceiverSession.accept, ReceiverMessageKind.sequenced, stale]
  · rw [if_neg stale]
    have identity : ReceiverThread.connectionReplayIdentity
        { thread with
          connectionServerInstance := link.serverInstance
          replayIdentitySupported := true
          connectionPrefixProven := link.hello.syncFrom == 1 || thread.prefixValidationRequested }
        (some admission.start.epoch) = some (admissionIdentity link admission) := by
      simp [ReceiverThread.connectionReplayIdentity, named, admissionIdentity]
    simp only [identity, reduceCtorEq, ↓reduceIte, Option.isSome_some, Bool.true_and]
    rcases ReceiverThread.applyResetOnHello_cases
      { thread with
        connectionServerInstance := link.serverInstance
        replayIdentitySupported := true
        connectionPrefixProven := link.hello.syncFrom == 1 || thread.prefixValidationRequested
        initialReplayIdentity := some (admissionIdentity link admission) }
      gapless link.generation with ⟨full, overflowed, refused⟩ | ⟨clear, kept⟩ |
        ⟨owed, taken, reset⟩
    · rw [refused]
      exact Or.inl ⟨full, some (admissionIdentity link admission), overflowed, rfl⟩
    · rw [kept]
      exact Or.inr ⟨not_not.1 stale, Or.inl ⟨clear, rfl⟩⟩
    · rw [reset]
      refine Or.inr ⟨not_not.1 stale, Or.inr ⟨owed, taken, ?_⟩⟩
      simp [ReceiverThread.acceptResync, ReceiverThread.accepted, resetThread]

/-- The identity of a hello is known, and bounded by what the connection reads. -/
theorem known_admissionIdentity {network : ReplayNetwork Handler Record} (sound : network.Sound)
    {link : ReplayLink Handler Record} {admission : Admission Handler Record}
    (opened : network.link = some link) (admitted : link.admission = some admission) :
    network.Known (admissionIdentity link admission) := by
  have linked := sound.link link opened
  refine ⟨linked.known, ?_⟩
  intro own
  obtain ⟨final, followed, bound⟩ := (linked.carries own admission admitted).followed
  exact (follow_epoch followed).trans bound

/-- A hello that owes no reset adopts the identity of the answer only for a prefix it has proven
or that is empty. -/
theorem genuine_greeted {state : ReceiverResumption Handler Record} (genuine : state.Genuine)
    {link : ReplayLink Handler Record} {admission : Admission Handler Record}
    (opened : state.network.link = some link) (admitted : link.admission = some admission)
    (unanswered : link.answered = false)
    (current : link.generation = state.thread.inbox.generation)
    (clear : state.thread.resetOnHello = false) :
    Genuine { state with
      network := { state.network with link := some { link with answered := true } }
      thread := greetedThread state.thread link (admissionIdentity link admission) } := by
  have active := genuine.active link opened current
  have greeting := active.greeting unanswered
  have known := known_admissionIdentity genuine.network opened admitted
  -- The adopted identity either was claimed already or stands for an empty prefix.
  have adopted : ∀ identity,
      (greetedThread state.thread link
        (admissionIdentity link admission)).receivedReplayIdentity = some identity →
      state.thread.receivedReplayIdentity = some identity ∨
        (identity = admissionIdentity link admission ∧ link.hello.syncFrom = 1) := by
    intro identity received
    simp only [greetedThread, Bool.or_eq_true, beq_iff_eq, Bool.and_eq_true] at received
    split at received
    · next chosen =>
        cases received
        rcases chosen with first | ⟨_, already⟩
        · exact Or.inr ⟨rfl, first⟩
        · exact Or.inl already
    · exact Or.inl received
  have thread := genuine.thread
  refine ⟨genuine.network.answered opened admitted, ?_, ?_, ?_, ?_⟩
  · refine ⟨thread.gapless, thread.requested, fun owed => absurd (clear.symm.trans owed) nofun,
      thread.first, ?_⟩
    intro identity received
    rcases adopted identity received with before | ⟨rfl, first⟩
    · exact thread.vouched identity before
    · have nothing : state.thread.inbox.lastReceivedSequence = 0 := by
        have cursor := greeting.cursor
        omega
      refine ⟨known, fun _ => ?_⟩
      simp only [greetedThread, nothing]
      exact HoldsPrefix.zero _ _
  · rintro _ ⟨⟩
    exact genuine.generation link opened
  · rintro _ ⟨⟩ waiting
    exact absurd (admitted.symm.trans waiting) nofun
  · rintro _ ⟨⟩ _
    refine ⟨active.settled, nofun, fun _ => ⟨clear, rfl, ?_⟩, ?_, ?_⟩
    · rintro _ ⟨⟩
      rfl
    · intro foreign identity received
      rcases adopted identity received with before | ⟨rfl, _⟩
      · exact active.foreign foreign identity before
      · exact foreign
    · intro own other found
      cases admitted.symm.trans found
      obtain ⟨position, stands, reads⟩ := active.reads own admission admitted
      have unread := (genuine.network.link link opened).unread unanswered
      have start := ReplayNetwork.at_start unread stands
      refine ⟨position, stands, reads.aligned, ?_, ?_, ?_⟩
      · intro proven live
        apply reads.backed ?_ live
        simpa [trusted, unanswered, greetedThread] using proven
      · intro identity received same
        rcases adopted identity received with before | ⟨rfl, _⟩
        · exact reads.bound identity before same
        · rw [start]
          exact Nat.le_refl _
      · rintro _ _ ⟨⟩
        rw [start]
        exact Nat.le_refl _

/-- A hello whose owed reset was queued: the receiver holds nothing, and the stream begins at one
or with a reset. -/
theorem genuine_resetOnHello {state : ReceiverResumption Handler Record} (genuine : state.Genuine)
    {link : ReplayLink Handler Record} {admission : Admission Handler Record}
    (opened : state.network.link = some link) (admitted : link.admission = some admission)
    (unanswered : link.answered = false)
    (current : link.generation = state.thread.inbox.generation)
    (owed : state.thread.resetOnHello = true) :
    Genuine { state with
      network := { state.network with link := some { link with answered := true } }
      thread := resetThread state.thread link (admissionIdentity link admission)
      held := fun _ => none } := by
  have active := genuine.active link opened current
  have greeting := active.greeting unanswered
  have known := known_admissionIdentity genuine.network opened admitted
  have linked := genuine.network.link link opened
  have answers := linked.answers admission admitted
  -- An unknown prefix is not resumed, so a stream that is not reset begins at one.
  have first : admission.start.next ≠ 0 → admission.start.next = 1 := by
    intro live
    have resumed := answers.resumed live
    rcases greeting.resetting owed with start | validated
    · rw [start] at resumed
      exact resumed
    · by_contra later
      have claim := greeting.claim
      rw [validated, if_pos rfl, genuine.thread.resetting owed] at claim
      have above : 1 < link.hello.syncFrom := by omega
      have claimed := answers.claimed _ claim above live
      cases (ReplayClaim.mk.inj claimed).2
  refine ⟨genuine.network.answered opened admitted, ?_, ?_, ?_, ?_⟩
  · refine ⟨genuine.thread.gapless, ?_, nofun, nofun, ?_⟩
    · intro seqStart pending
      have none := active.settled
      rw [show state.thread.inbox.requestedReplayFrom = some seqStart from pending] at none
      cases none
    · rintro _ ⟨⟩
      exact ⟨known, fun _ => HoldsPrefix.zero _ _⟩
  · rintro _ ⟨⟩
    exact genuine.generation link opened
  · rintro _ ⟨⟩ waiting
    exact absurd (admitted.symm.trans waiting) nofun
  · rintro _ ⟨⟩ _
    refine ⟨active.settled, nofun, fun _ => ⟨rfl, rfl, nofun⟩, ?_, ?_⟩
    · rintro foreign _ ⟨⟩
      exact foreign
    · intro own other found
      cases admitted.symm.trans found
      obtain ⟨position, stands, _⟩ := active.reads own admission admitted
      have start := ReplayNetwork.at_start (linked.unread unanswered) stands
      refine ⟨position, stands, ?_, fun _ _ => HoldsPrefix.zero _ _, ?_, nofun⟩
      · rw [start]
        exact first
      · rintro _ ⟨⟩ _
        rw [start]
        exact Nat.le_refl _

theorem genuine_refused {state : ReceiverResumption Handler Record} (genuine : state.Genuine)
    {network : ReplayNetwork Handler Record} (sound : network.Sound)
    (server : network.server = state.network.server)
    (retired : network.retired = state.network.retired)
    {thread : ReceiverThread Record} {overflowed : Bool}
    (inbox : thread.inbox = { state.thread.inbox with overflowed := overflowed })
    (owed : thread.resetOnHello = state.thread.resetOnHello)
    (sent : thread.helloSent = state.thread.helloSent)
    (received : thread.receivedReplayIdentity = state.thread.receivedReplayIdentity) :
    (drop { state with network, thread } : ReceiverResumption Handler Record).Genuine := by
  apply genuine_dropped sound
  obtain ⟨gapless, requested, resetting, first, vouched⟩ := genuine.thread
  refine ⟨?_, ?_, ?_, ?_, ?_⟩ <;> simp only [inbox, owed, sent, received]
  · exact gapless
  · exact requested
  · exact resetting
  · exact first
  · intro identity found
    obtain ⟨known, backed⟩ := vouched identity found
    refine ⟨?_, ?_⟩
    · simp only [ReplayNetwork.Known, server, retired]
      exact known
    · simp only [ReplayNetwork.current, server]
      exact backed

theorem genuine_readHello {state : ReceiverResumption Handler Record} (genuine : state.Genuine)
    {link : ReplayLink Handler Record} {admission : Admission Handler Record}
    (opened : state.network.link = some link) (admitted : link.admission = some admission)
    (unanswered : link.answered = false) : (state.readHello link admission).Genuine := by
  have sound := genuine.network.answered opened admitted
  have named : link.serverInstance ≠ "" := by
    intro empty
    exact genuine.network.named (empty ▸ (genuine.network.link link opened).known)
  unfold readHello handled
  rcases handleHelloOk_cases genuine.thread.gapless link admission named with
    ⟨untaken, initial, overflowed, refused⟩ | ⟨current, ⟨clear, greeted⟩ | ⟨owed, taken, reset⟩⟩
  · simp only [refused, Bool.false_eq_true, ↓reduceIte, receive, ReceiverFrame.kind,
      ReceiverFrame.sequence, untaken, ite_self]
    exact genuine_refused genuine sound rfl rfl rfl rfl rfl rfl
  · simp only [clear, greeted, Bool.false_eq_true, ↓reduceIte]
    exact genuine_greeted genuine opened admitted unanswered current clear
  · simp only [owed, reset, ↓reduceIte, receive, ReceiverFrame.kind, ReceiverFrame.sequence,
      taken]
    exact genuine_resetOnHello genuine opened admitted unanswered current owed

/-! ### Frames of the stream -/

/-- The identity of a history the connection is still reading, or behind. -/
theorem Reads.current_epoch {state : ReceiverResumption Handler Record}
    {link : ReplayLink Handler Record} {admission : Admission Handler Record}
    {position : Position} (genuine : state.Genuine) (opened : state.network.link = some link)
    (own : link.serverInstance = state.network.server.serverInstance)
    (admitted : link.admission = some admission)
    (stands : ReplayNetwork.At state.network.server link admission position)
    (reads : Reads state.network.server state.thread state.held link position)
    (received : state.thread.receivedReplayIdentity = some state.network.current) :
    position.epoch = state.network.server.epoch := by
  have linked := genuine.network.link link opened
  exact Nat.le_antisymm ((linked.carries own admission admitted).epoch stands)
    (reads.bound _ received own.symm)

/-- The record of the next sequence is received. -/
theorem genuine_event {state : ReceiverResumption Handler Record} (genuine : state.Genuine)
    {link : ReplayLink Handler Record} {admission : Admission Handler Record} {seq : Nat}
    {record : Record} (opened : state.network.link = some link)
    (admitted : link.admission = some admission) (answered : link.answered = true)
    (current : link.generation = state.thread.inbox.generation)
    (waiting : admission.socket[link.read]? = some (.event seq record)) :
    Genuine { state with
      network := { state.network with link := some { link with read := link.read + 1 } }
      thread := state.thread.accepted (.event seq record)
      held := Function.update state.held seq (some record) } := by
  have active := genuine.active link opened current
  have linked := genuine.network.link link opened
  have thread := genuine.thread
  -- On the current server the frame is the next record of the history being read.
  have next : link.serverInstance = state.network.server.serverInstance →
      ∃ position, ReplayNetwork.At state.network.server link admission position ∧
        Reads state.network.server state.thread state.held link position ∧
        position.next ≠ 0 ∧ seq = state.thread.inbox.lastReceivedSequence + 1 ∧
        (state.network.server.histories position.epoch)[
          state.thread.inbox.lastReceivedSequence]? = some record ∧
        ReplayNetwork.At state.network.server { link with read := link.read + 1 } admission
          { position with next := seq + 1 } := by
    intro own
    obtain ⟨position, stands, reads⟩ := active.reads own admission admitted
    obtain ⟨after, advanced, there, _⟩ :=
      (linked.carries own admission admitted).next stands waiting
    simp only [advance] at advanced
    split at advanced
    · next matched =>
        cases advanced
        have aligned := reads.aligned (by omega)
        have numbered : seq = state.thread.inbox.lastReceivedSequence + 1 := by omega
        refine ⟨position, stands, reads, by omega, numbered, ?_, there⟩
        have found := matched.2.2
        rw [numbered, Nat.add_sub_cancel] at found
        exact found
    · cases advanced
  have cursor : seq = state.thread.inbox.lastReceivedSequence + 1 →
      (state.thread.accepted (.event seq record)).inbox.lastReceivedSequence =
        state.thread.inbox.lastReceivedSequence + 1 := by
    intro numbered
    simp [ReceiverThread.accepted, ReceiverFrame.kind, ReceiverFrame.sequence,
      OrderedReceiverSession.receive, numbered]
  refine ⟨genuine.network.read opened answered admitted waiting, ?_, ?_, ?_, ?_⟩
  · refine ⟨thread.gapless, ?_, thread.resetting, ?_, ?_⟩
    · intro seqStart pending
      have none := active.settled
      rw [show state.thread.inbox.requestedReplayFrom = some seqStart from pending] at none
      cases none
    · intro unsent owed
      have settled := (active.greeted answered).settled
      rw [show state.thread.resetOnHello = true from owed] at settled
      cases settled
    · intro identity received
      obtain ⟨known, backed⟩ := thread.vouched identity received
      refine ⟨known, ?_⟩
      intro now
      have own : link.serverInstance = state.network.server.serverInstance := by
        by_contra foreign
        exact active.foreign foreign identity received (by rw [now]; rfl)
      obtain ⟨position, stands, reads, _, numbered, found, _⟩ := next own
      have epoch := reads.current_epoch genuine opened own admitted stands
        (by rw [← show identity = state.network.current from now]; exact received)
      rw [epoch, BroadcastState.histories_current] at found
      have pushed := (backed now).push found
      rw [← numbered] at pushed
      rw [cursor numbered, ← numbered]
      exact pushed
  · rintro _ ⟨⟩
    exact genuine.generation link opened
  · rintro _ ⟨⟩ absent
    exact absurd (admitted.symm.trans absent) (by simp)
  · rintro _ ⟨⟩ _
    refine ⟨active.settled, fun unanswered => absurd (answered.symm.trans unanswered) (by simp), ?_,
      active.foreign, ?_⟩
    · intro _
      obtain ⟨settled, named, initial⟩ := active.greeted answered
      exact ⟨settled, named, initial⟩
    · intro own other found
      cases admitted.symm.trans found
      obtain ⟨position, _, reads, live, numbered, found, there⟩ := next own
      refine ⟨_, there, ?_, ?_, reads.bound, reads.initial⟩
      · intro _
        rw [cursor numbered, numbered]
      · intro proven _
        have before := reads.backed
          (by simpa [trusted, answered, ReceiverThread.accepted] using proven) live
        have pushed := before.push found
        rw [cursor numbered, numbered]
        exact pushed

/-- A reset is received: nothing is held, and the identity of the hello, if this is its replay,
names a history no newer than the one that follows. -/
theorem genuine_resync {state : ReceiverResumption Handler Record} (genuine : state.Genuine)
    {link : ReplayLink Handler Record} {admission : Admission Handler Record} {epoch : Nat}
    (opened : state.network.link = some link) (admitted : link.admission = some admission)
    (answered : link.answered = true)
    (current : link.generation = state.thread.inbox.generation)
    (waiting : admission.socket[link.read]? = some (.resync epoch)) :
    Genuine { state with
      network := { state.network with link := some { link with read := link.read + 1 } }
      thread := (state.thread.accepted .resync).acceptResync
      held := fun _ => none } := by
  have active := genuine.active link opened current
  have linked := genuine.network.link link opened
  have greeted := active.greeted answered
  refine ⟨genuine.network.read opened answered admitted waiting, ?_, ?_, ?_, ?_⟩
  · refine ⟨genuine.thread.gapless, ?_, ?_, ?_, ?_⟩
    · intro seqStart pending
      have none := active.settled
      rw [show state.thread.inbox.requestedReplayFrom = some seqStart from pending] at none
      cases none
    · intro owed
      exact absurd (greeted.settled.symm.trans owed) (by simp)
    · exact fun _ _ => rfl
    · intro identity initial
      refine ⟨⟨?_, ?_⟩, fun _ => HoldsPrefix.zero _ _⟩
      · rw [greeted.initial identity initial]
        exact linked.known
      · intro same
        have own : link.serverInstance = state.network.server.serverInstance := by
          rw [← greeted.initial identity initial]
          exact same
        obtain ⟨position, stands, reads⟩ := active.reads own admission admitted
        exact (reads.initial answered identity initial).trans
          ((linked.carries own admission admitted).epoch stands)
  · rintro _ ⟨⟩
    exact genuine.generation link opened
  · rintro _ ⟨⟩ absent
    exact absurd (admitted.symm.trans absent) (by simp)
  · rintro _ ⟨⟩ _
    refine ⟨active.settled, fun unanswered => absurd (answered.symm.trans unanswered) (by simp),
      fun _ => ⟨greeted.settled, greeted.named, by rintro _ ⟨⟩⟩, ?_, ?_⟩
    · intro foreign identity initial
      rw [greeted.initial identity initial]
      exact foreign
    · intro own other found
      cases admitted.symm.trans found
      obtain ⟨position, stands, reads⟩ := active.reads own admission admitted
      obtain ⟨after, advanced, there, _⟩ :=
        (linked.carries own admission admitted).next stands waiting
      have later := advance_epoch advanced
      simp only [advance] at advanced
      split at advanced
      · cases advanced
        refine ⟨_, there, fun _ => rfl, fun _ _ => HoldsPrefix.zero _ _, ?_, by rintro _ _ ⟨⟩⟩
        intro identity initial _
        exact (reads.initial answered identity initial).trans later
      · cases advanced

/-- The thread after a completed replay. -/
def completedThread (thread : ReceiverThread Record) (inbox : ReplayState) :
    ReceiverThread Record :=
  { thread with
    inbox := { thread.inbox with pendingReplay := some inbox }
    initialReplayIdentity := none
    receivedReplayIdentity :=
      if thread.connectionPrefixProven then thread.connectionReplayIdentity (some inbox.epoch)
      else none }

/-- A completed replay names the history that has been received, if its beginning was proven. -/
theorem genuine_replayComplete {state : ReceiverResumption Handler Record}
    (genuine : state.Genuine) {link : ReplayLink Handler Record}
    {admission : Admission Handler Record} {headSeq : Nat} {marker : ReplayState}
    (opened : state.network.link = some link) (admitted : link.admission = some admission)
    (answered : link.answered = true)
    (current : link.generation = state.thread.inbox.generation)
    (waiting : admission.socket[link.read]? = some (.replayComplete headSeq marker.epoch)) :
    Genuine { state with
      network := { state.network with link := some { link with read := link.read + 1 } }
      thread := completedThread state.thread marker } := by
  have active := genuine.active link opened current
  have linked := genuine.network.link link opened
  have greeted := active.greeted answered
  have named : ∀ identity,
      (completedThread state.thread marker).receivedReplayIdentity = some identity →
      identity = { serverInstance := link.serverInstance, epoch := marker.epoch } ∧
        state.thread.connectionPrefixProven = true := by
    intro identity received
    simp only [completedThread, ReceiverThread.connectionReplayIdentity, greeted.named] at received
    split at received
    · next proven =>
        split at received
        · cases received
        · cases received
          exact ⟨rfl, proven⟩
    · cases received
  -- On the current server the marker names the history the connection reads.
  have completed : link.serverInstance = state.network.server.serverInstance →
      ∃ position, ReplayNetwork.At state.network.server link admission position ∧
        Reads state.network.server state.thread state.held link position ∧
        position.next ≠ 0 ∧ position.epoch = marker.epoch ∧
        ReplayNetwork.At state.network.server { link with read := link.read + 1 } admission
          { position with replaying := false } := by
    intro own
    obtain ⟨position, stands, reads⟩ := active.reads own admission admitted
    obtain ⟨after, advanced, there, _⟩ :=
      (linked.carries own admission admitted).next stands waiting
    simp only [advance] at advanced
    split at advanced
    · next matched =>
        cases advanced
        exact ⟨position, stands, reads, by omega, matched.1.symm, there⟩
    · cases advanced
  refine ⟨genuine.network.read opened answered admitted waiting, ?_, ?_, ?_, ?_⟩
  · refine ⟨genuine.thread.gapless, genuine.thread.requested, ?_, genuine.thread.first, ?_⟩
    · intro owed
      exact absurd (greeted.settled.symm.trans owed) (by simp)
    · intro identity received
      obtain ⟨rfl, proven⟩ := named identity received
      refine ⟨⟨linked.known, ?_⟩, ?_⟩
      · intro own
        obtain ⟨position, stands, _, _, epoch, _⟩ := completed own
        rw [← epoch]
        exact (linked.carries own admission admitted).epoch stands
      · intro now
        obtain ⟨own, last⟩ := ReplayIdentity.mk.inj now
        obtain ⟨position, _, reads, live, epoch, _⟩ := completed own
        have backed := reads.backed (by simpa [trusted, answered] using proven) live
        rw [epoch, last, BroadcastState.histories_current] at backed
        exact backed
  · rintro _ ⟨⟩
    exact genuine.generation link opened
  · rintro _ ⟨⟩ absent
    exact absurd (admitted.symm.trans absent) (by simp)
  · rintro _ ⟨⟩ _
    refine ⟨active.settled, fun unanswered => absurd (answered.symm.trans unanswered) (by simp),
      fun _ => ⟨greeted.settled, greeted.named, by rintro _ ⟨⟩⟩, ?_, ?_⟩
    · intro foreign identity received
      obtain ⟨rfl, _⟩ := named identity received
      exact foreign
    · intro own other found
      cases admitted.symm.trans found
      obtain ⟨position, _, reads, _, epoch, there⟩ := completed own
      refine ⟨_, there, reads.aligned, ?_, ?_, by rintro _ _ ⟨⟩⟩
      · intro proven live
        exact reads.backed (by simpa [trusted, answered, completedThread] using proven) live
      · intro identity received _
        obtain ⟨rfl, _⟩ := named identity received
        exact epoch.ge

/-- A data message is taken, or the connection ends with the thread as it was. -/
theorem genuine_dataMessage {state : ReceiverResumption Handler Record} (genuine : state.Genuine)
    {link : ReplayLink Handler Record} {frame : ReceiverFrame Record}
    (sound : ReplayNetwork.Sound { state.network with link := some link })
    (taken : link.generation = state.thread.inbox.generation →
      (thread : ReceiverThread Record) → (held : Nat → Option Record) →
      thread = (if frame.kind = .resync then (state.thread.accepted frame).acceptResync
        else state.thread.accepted frame) →
      (state.thread.inbox.accept link.generation frame.kind frame.sequence frame).1 = .accepted →
      held = receive state.held state.thread frame link.generation →
      Genuine { state with
        network := { state.network with link := some link }, thread := thread, held := held }) :
    (state.handled link (receive state.held state.thread frame link.generation)
      (state.thread.handleDataMessage frame link.generation)).Genuine := by
  unfold handled
  rcases ReceiverThread.handleDataMessage_cases genuine.thread.gapless frame link.generation with
    ⟨untaken, overflowed, refused⟩ | ⟨current, accepted, handled⟩
  · simp only [refused, Bool.false_eq_true, ↓reduceIte, receive, untaken]
    exact genuine_refused genuine sound rfl rfl rfl rfl rfl rfl
  · simp only [handled, ↓reduceIte]
    exact taken current _ _ rfl accepted rfl

theorem genuine_readFrame {state : ReceiverResumption Handler Record} (genuine : state.Genuine)
    {link : ReplayLink Handler Record} {admission : Admission Handler Record}
    {frame : ReplayFrame Record} (opened : state.network.link = some link)
    (admitted : link.admission = some admission) (answered : link.answered = true)
    (waiting : admission.socket[link.read]? = some frame) :
    (state.readFrame link frame).Genuine := by
  have sound := genuine.network.read opened answered admitted waiting
  cases frame with
  | event seq record =>
      apply genuine_dataMessage genuine sound
      rintro current _ _ rfl accepted rfl
      have held : receive state.held state.thread (.event seq record) link.generation =
          Function.update state.held seq (some record) := if_pos accepted
      rw [show (ReplayFrame.event seq record).queued = .event seq record from rfl, held]
      exact genuine_event genuine opened admitted answered current waiting
  | resync epoch =>
      apply genuine_dataMessage genuine sound
      rintro current _ _ rfl accepted rfl
      have held : receive state.held state.thread .resync link.generation = fun _ => none :=
        if_pos accepted
      rw [show (ReplayFrame.resync epoch : ReplayFrame Record).queued = .resync from rfl, held]
      exact genuine_resync genuine opened admitted answered current waiting
  | replayComplete headSeq epoch =>
      by_cases current : link.generation = state.thread.inbox.generation
      · let marker : ReplayState :=
          { generation := link.generation
            headSeq := headSeq
            epoch := epoch
            serial := state.thread.inbox.incomingSerial }
        have completed : state.thread.handleReplayComplete link.generation headSeq epoch =
            (true, completedThread state.thread marker) := by
          simp [ReceiverThread.handleReplayComplete,
            OrderedReceiverSession.acceptReplayComplete, current, completedThread, marker,
            ReceiverThread.connectionReplayIdentity]
        simp only [readFrame, handled, completed, ↓reduceIte]
        exact genuine_replayComplete genuine opened admitted answered current waiting
      · have stale : state.thread.handleReplayComplete link.generation headSeq epoch =
            (false, state.thread) := by
          simp [ReceiverThread.handleReplayComplete,
            OrderedReceiverSession.acceptReplayComplete, current]
        simp only [readFrame, handled, stale, Bool.false_eq_true, ↓reduceIte]
        exact genuine_refused genuine sound rfl rfl rfl rfl rfl rfl

/-! ### The consumer -/

/-- Draining and publishing touch neither the cursors of the receiver nor its identity. -/
theorem genuine_consumed {state : ReceiverResumption Handler Record} (genuine : state.Genuine)
    {thread : ReceiverThread Record}
    (inbox : thread.inbox =
      { state.thread.inbox with
        frames := thread.inbox.frames
        drainedSerial := thread.inbox.drainedSerial
        pendingReplay := thread.inbox.pendingReplay
        lastAppliedSequence := thread.inbox.lastAppliedSequence
        replayHeadSequence := thread.inbox.replayHeadSequence
        replayEpoch := thread.inbox.replayEpoch
        synchronized := thread.inbox.synchronized })
    (same : thread =
      { state.thread with
        inbox := thread.inbox
        replayHeadSeq := thread.replayHeadSeq
        replayEpoch := thread.replayEpoch
        serverInstance := thread.serverInstance
        synchronizedEvent := thread.synchronizedEvent }) :
    Genuine { state with thread } := by
  obtain ⟨gapless, requested, resetting, first, vouched⟩ := genuine.thread
  refine ⟨genuine.network, ?_, ?_, genuine.claimed, ?_⟩
  · rw [same, inbox]
    exact ⟨gapless, requested, resetting, first, vouched⟩
  · rw [same, inbox]
    exact genuine.generation
  · intro link opened current
    have active := genuine.active link opened (by rw [same, inbox] at current; exact current)
    rw [same, inbox]
    refine ⟨active.settled, ?_, ?_, active.foreign, ?_⟩
    · intro unanswered
      obtain ⟨cursor, held, claim, resetting⟩ := active.greeting unanswered
      exact ⟨cursor, held, claim, resetting⟩
    · intro answered
      obtain ⟨settled, named, initial⟩ := active.greeted answered
      exact ⟨settled, named, initial⟩
    · intro own admission admitted
      obtain ⟨position, stands, aligned, backed, bound, initial⟩ :=
        active.reads own admission admitted
      exact ⟨position, stands, aligned, backed, bound, initial⟩

theorem genuine_markReplayApplied {state : ReceiverResumption Handler Record}
    (genuine : state.Genuine) :
    Genuine { state with thread := state.thread.markReplayApplied } := by
  unfold ReceiverThread.markReplayApplied OrderedReceiverSession.markReplayApplied
  cases state.thread.inbox.pendingReplay with
  | none => exact genuine
  | some marker =>
      dsimp only
      split
      · next unpublished =>
          split at unpublished
          · exact genuine
          · cases unpublished
      · next published =>
          split at published
          · cases published
          · cases published
            exact genuine_consumed genuine rfl rfl

/-! ### Runs -/

/-- Before the first hello, a receiver that owes itself a reset is not asked for anything but the
whole stream. -/
def RequestsWhole (state : ReceiverResumption Handler Record) :
    ResumptionAction Handler Record → Prop
  | .requestReplay seqStart =>
      state.thread.helloSent = true ∨ state.thread.resetOnHello = false ∨ seqStart = 1
  | _ => True

theorem genuine_step (state : ReceiverResumption Handler Record)
    (action : ResumptionAction Handler Record) (next : ReceiverResumption Handler Record)
    (genuine : state.Genuine) (meets : state.RequestsWhole action)
    (stepped : state.step? action = some next) : next.Genuine := by
  cases action with
  | network action =>
      obtain ⟨network, evolved, rfl⟩ := Option.map_eq_some_iff.1 stepped
      exact genuine_network genuine (ReplayNetwork.evolves_step genuine.network evolved)
  | connect =>
      simp only [step?] at stepped
      split at stepped
      · cases stepped
        exact genuine_connect genuine
      · cases stepped
  | readHello =>
      simp only [step?] at stepped
      split at stepped
      · cases stepped
      · next link opened =>
          split at stepped
          · cases stepped
          · next admission admitted =>
              split at stepped
              · cases stepped
              · next unanswered =>
                  cases stepped
                  exact genuine_readHello genuine opened admitted
                    (Bool.eq_false_iff.2 unanswered)
  | readFrame =>
      simp only [step?] at stepped
      split at stepped
      · cases stepped
      · next link opened =>
          split at stepped
          · cases stepped
          · next admission admitted =>
              split at stepped
              · next answered =>
                  obtain ⟨frame, waiting, rfl⟩ := Option.map_eq_some_iff.1 stepped
                  exact genuine_readFrame genuine opened admitted answered waiting
              · cases stepped
  | drop =>
      cases stepped
      exact genuine_dropped genuine.network genuine.thread
  | requestReplay seqStart =>
      simp only [step?] at stepped
      split at stepped
      · cases stepped
      · next positive =>
          cases stepped
          exact genuine_requestReplay genuine (Nat.not_lt.1 positive) meets
  | drain maxMessages =>
      cases stepped
      exact genuine_consumed genuine rfl rfl
  | markReplayApplied =>
      cases stepped
      exact genuine_markReplayApplied genuine

end ReceiverResumption

end UsdConnect
