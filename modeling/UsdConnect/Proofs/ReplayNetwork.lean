/-
Purpose: What a connection carries while its server takes steps, is replaced, or answers the
  hello, and when a replay identity vouches for the records a receiver holds.
Trusted boundary: none
Main exports: HoldsPrefix, BroadcastState.Grows, ReplayNetwork.Sound, ReplayNetwork.Vouches
-/
import UsdConnect.Proofs.Broadcast
import UsdConnect.Protocol.ReplayNetwork

namespace UsdConnect

variable {Handler Record : Type} [DecidableEq Handler] [DecidableEq Record]

/-! ### Held records -/

/-- The records held at the first sequences are the first records of a log. -/
def HoldsPrefix (held : Nat → Option Record) (count : Nat) (log : List Record) : Prop :=
  count ≤ log.length ∧ ∀ index < count, held (index + 1) = log[index]?

namespace HoldsPrefix

omit [DecidableEq Record] in
theorem zero (held : Nat → Option Record) (log : List Record) : HoldsPrefix held 0 log :=
  ⟨Nat.zero_le _, fun _ below => absurd below (Nat.not_lt_zero _)⟩

omit [DecidableEq Record] in
theorem grow {held : Nat → Option Record} {count : Nat} {log extended : List Record}
    (holds : HoldsPrefix held count log) (grown : log <+: extended) :
    HoldsPrefix held count extended := by
  obtain ⟨later, rfl⟩ := grown
  refine ⟨holds.1.trans (by simp), ?_⟩
  intro index below
  rw [holds.2 index below, List.getElem?_append_left (below.trans_le holds.1)]

omit [DecidableEq Record] in
/-- The next record of the log is received. -/
theorem push {held : Nat → Option Record} {count : Nat} {log : List Record} {record : Record}
    (holds : HoldsPrefix held count log) (next : log[count]? = some record) :
    HoldsPrefix (Function.update held (count + 1) (some record)) (count + 1) log := by
  obtain ⟨inside, _⟩ := List.getElem?_eq_some_iff.1 next
  refine ⟨inside, ?_⟩
  intro index below
  by_cases last : index = count
  · rw [last, Function.update_self, next]
  · rw [Function.update_of_ne (by omega)]
    exact holds.2 index (by omega)

omit [DecidableEq Record] in
theorem congr {held other : Nat → Option Record} {count : Nat} {log : List Record}
    (holds : HoldsPrefix held count log) (same : ∀ seq ≤ count, other seq = held seq) :
    HoldsPrefix other count log := by
  refine ⟨holds.1, ?_⟩
  intro index below
  rw [same (index + 1) below]
  exact holds.2 index below

end HoldsPrefix

/-! ### Servers only grow -/

namespace BroadcastState

/-- What every step of a server keeps: its name, the records of its histories, and what it has
sent. -/
structure Grows (state next : BroadcastState Handler Record) : Prop where
  named : next.serverInstance = state.serverInstance
  epoch : state.epoch ≤ next.epoch
  histories : Extends state.histories next.histories state.epoch
  connections : ∀ handler connection, state.connections handler = some connection →
    ∃ after, next.connections handler = some after ∧ after.start = connection.start ∧
      connection.socket <+: after.socket
  receivers : ∀ handler ∈ next.receivers,
    handler ∈ state.receivers ∨ state.connections handler = none

omit [DecidableEq Handler] [DecidableEq Record] in
theorem grows_queues (state : BroadcastState Handler Record) (unpublished : List (Nat × Record))
    (queue : List (List (ReplayFrame Record) × List Handler)) (resyncing : List Handler) :
    state.Grows
      { state with unpublished := unpublished, queue := queue, resyncing := resyncing } where
  named := rfl
  epoch := Nat.le_refl _
  histories := fun _ _ => List.prefix_refl _
  connections := fun _ connection found => ⟨connection, found, rfl, List.prefix_refl _⟩
  receivers := fun _ live => Or.inl live

omit [DecidableEq Record] in
theorem grows_setConnection {state : BroadcastState Handler Record} {handler : Handler}
    {connection after : ReceiverConnection Record}
    (found : state.connections handler = some connection) (start : after.start = connection.start)
    (sent : connection.socket <+: after.socket) :
    state.Grows (state.setConnection handler after) where
  named := rfl
  epoch := Nat.le_refl _
  histories := fun _ _ => List.prefix_refl _
  connections := by
    intro other before beforeFound
    by_cases same : other = handler
    · subst same
      rw [found] at beforeFound
      cases beforeFound
      exact ⟨after, Function.update_self _ _ _, start, sent⟩
    · exact ⟨before, (Function.update_of_ne same _ _).trans beforeFound, rfl,
        List.prefix_refl _⟩
  receivers := fun _ live => Or.inl live

omit [DecidableEq Record] in
theorem grows_holdSendLock {state next : BroadcastState Handler Record} {handler : Handler}
    {frames : List (ReplayFrame Record)} (held : state.holdSendLock handler frames = some next) :
    state.Grows next := by
  obtain ⟨connection, found, _, rfl⟩ := holdSendLock_eq_some held
  exact grows_setConnection found rfl (List.prefix_refl _)

omit [DecidableEq Handler] [DecidableEq Record] in
theorem grows_enqueueBroadcast (state : BroadcastState Handler Record)
    (frames : List (ReplayFrame Record)) : state.Grows (state.enqueueBroadcast frames) := by
  unfold enqueueBroadcast
  split
  · exact grows_queues state _ _ _
  · exact grows_queues state _ _ _

omit [DecidableEq Record] in
theorem grows_join {state : BroadcastState Handler Record} {handler : Handler}
    (fresh : state.connections handler = none) (syncFrom : Int) (claim : Option ReplayClaim) :
    state.Grows (state.join handler syncFrom claim) where
  named := rfl
  epoch := Nat.le_refl _
  histories := fun _ _ => List.prefix_refl _
  connections := by
    intro other before found
    have different : other ≠ handler := by
      intro same
      rw [same, fresh] at found
      cases found
    exact ⟨before, (Function.update_of_ne different _ _).trans found, rfl, List.prefix_refl _⟩
  receivers := by
    intro other live
    rcases List.mem_append.1 live with old | added
    · exact Or.inl old
    · cases List.mem_singleton.1 added
      exact Or.inr fresh

omit [DecidableEq Handler] [DecidableEq Record] in
theorem grows_replaceHistory (state : BroadcastState Handler Record) (records : List Record) :
    state.Grows (state.replaceHistory records) where
  named := rfl
  epoch := Nat.le_succ _
  histories := extends_replaceHistory state records
  connections := fun _ connection found => ⟨connection, found, rfl, List.prefix_refl _⟩
  receivers := fun _ live => Or.inl live

omit [DecidableEq Handler] [DecidableEq Record] in
theorem Grows.trans {state middle next : BroadcastState Handler Record}
    (first : state.Grows middle) (second : middle.Grows next) : state.Grows next where
  named := second.named.trans first.named
  epoch := first.epoch.trans second.epoch
  histories := fun epoch old =>
    (first.histories epoch old).trans (second.histories epoch (old.trans first.epoch))
  connections := by
    intro handler connection found
    obtain ⟨after, afterFound, start, sent⟩ := first.connections handler connection found
    obtain ⟨later, laterFound, laterStart, laterSent⟩ :=
      second.connections handler after afterFound
    exact ⟨later, laterFound, laterStart.trans start, sent.trans laterSent⟩
  receivers := by
    intro handler live
    rcases second.receivers handler live with still | unknown
    · exact first.receivers handler still
    · cases found : state.connections handler with
      | none => exact Or.inr rfl
      | some connection =>
          obtain ⟨after, afterFound, _⟩ := first.connections handler connection found
          rw [unknown] at afterFound
          cases afterFound

omit [DecidableEq Record] in
theorem grows_step {state next : BroadcastState Handler Record}
    {action : BroadcastAction Handler Record} (stepped : state.step? action = some next) :
    state.Grows next := by
  cases action with
  | persist records =>
      simp only [step?] at stepped
      split at stepped
      · cases stepped
        exact ⟨rfl, Nat.le_refl _, extends_persist state records,
          fun _ connection found => ⟨connection, found, rfl, List.prefix_refl _⟩,
          fun _ live => Or.inl live⟩
      · cases stepped
  | publish count =>
      simp only [step?] at stepped
      split at stepped
      · cases stepped
      · cases stepped
        exact (grows_queues state (state.unpublished.drop count) state.queue
          state.resyncing).trans (grows_enqueueBroadcast _ _)
  | deliver =>
      simp only [step?] at stepped
      split at stepped
      · cases stepped
      · next rest _ =>
          cases stepped
          exact grows_queues state state.unpublished rest state.resyncing
      · next frames handler targets rest _ =>
          exact (grows_queues state state.unpublished ((frames, targets) :: rest)
            state.resyncing).trans (grows_holdSendLock stepped)
  | send handler =>
      simp only [step?] at stepped
      split at stepped
      · cases stepped
      · next connection found =>
          split at stepped
          · cases stepped
          · cases stepped
            exact grows_setConnection found rfl (List.prefix_append _ _)
  | join handler syncFrom claim =>
      simp only [step?] at stepped
      split at stepped
      · next free =>
          cases stepped
          have fresh := Option.isNone_iff_eq_none.1 (Bool.and_eq_true_iff.1 free).2
          exact grows_join fresh syncFrom claim
      · cases stepped
  | leave handler =>
      cases stepped
      exact ⟨rfl, Nat.le_refl _, fun _ _ => List.prefix_refl _,
        fun _ connection found => ⟨connection, found, rfl, List.prefix_refl _⟩,
        fun _ live => Or.inl (List.mem_filter.1 live).1⟩
  | rewrite records =>
      simp only [step?] at stepped
      split at stepped
      · cases stepped
        exact (grows_replaceHistory state records).trans (grows_queues _ _ _ _)
      · cases stepped
  | resync =>
      simp only [step?] at stepped
      split at stepped
      · cases stepped
      · next handler handlers _ =>
          exact (grows_queues state state.unpublished state.queue handlers).trans
            (grows_holdSendLock stepped)
  | snapshot records =>
      simp only [step?] at stepped
      split at stepped
      · cases stepped
        exact (grows_replaceHistory state records).trans
          (grows_enqueueBroadcast (state.replaceHistory records) _)
      · cases stepped

omit [DecidableEq Handler] [DecidableEq Record] in
/-- Within one epoch the log is only appended to. -/
theorem Grows.log {state next : BroadcastState Handler Record} (grows : state.Grows next)
    (same : next.epoch = state.epoch) : state.log <+: next.log := by
  have grown := grows.histories state.epoch (Nat.le_refl _)
  simpa [BroadcastState.histories, same] using grown

end BroadcastState

omit [DecidableEq Handler] [DecidableEq Record] in
theorem BroadcastState.histories_current (server : BroadcastState Handler Record) :
    server.histories server.epoch = server.log :=
  if_pos rfl

/-! ### Admissions -/

/-- Where an admission starts, by what the hello asked for and claimed. -/
structure Admission.Answers (link : ReplayLink Handler Record)
    (admission : Admission Handler Record) : Prop where
  resumed : admission.start.next ≠ 0 → admission.start.next = max 1 link.hello.syncFrom
  reset : admission.start.next = 0 → 1 < link.hello.syncFrom
  claimed : ∀ claim, link.hello.claim = some claim → 1 < link.hello.syncFrom →
    admission.start.next ≠ 0 →
    claim = { serverInstance := link.serverInstance, epoch := some admission.start.epoch }

omit [DecidableEq Handler] [DecidableEq Record] in
theorem admission_answers (link : ReplayLink Handler Record) (handler : Handler)
    (epoch replayEnd : Nat) :
    Admission.Answers link
      { handler := handler
        start := admissionStart link.serverInstance epoch replayEnd link.hello.syncFrom
          link.hello.claim } := by
  rcases admitReplay_cases link.serverInstance epoch replayEnd link.hello.syncFrom
    link.hello.claim with reset | ⟨resumed, _, claimed⟩
  · refine ⟨fun live => absurd ?_ live, ?_, fun _ _ _ live => absurd ?_ live⟩
    · simp [admissionStart, reset]
    · intro _
      by_contra low
      have kept : admitReplay link.serverInstance epoch replayEnd link.hello.syncFrom
          link.hello.claim = (false, (link.hello.syncFrom : Int)) := by
        have small : ¬ (1 : Int) < link.hello.syncFrom := by omega
        have inRange : ¬ (replayEnd : Int) + 1 < link.hello.syncFrom := by omega
        unfold admitReplay resumeIdentityChanged
        cases link.hello.claim <;> simp [small, inRange]
      rw [kept] at reset
      cases reset
    · simp [admissionStart, reset]
  · refine ⟨?_, ?_, ?_⟩
    · intro _
      simp [admissionStart, resumed, firstSelected]
    · intro closed
      simp [admissionStart, resumed, firstSelected] at closed
    · intro claim carried above _
      exact claimed claim carried (by exact_mod_cast above)

namespace ReplayNetwork

/-! ### The connection of the current server -/

/-- The connection has read up to a position. -/
def At (server : BroadcastState Handler Record) (link : ReplayLink Handler Record)
    (admission : Admission Handler Record) (position : Position) : Prop :=
  follow server.histories admission.start (admission.socket.take link.read) = some position

/-- An admission of the current server: its frames are those of the handler's socket, as long as
the handler is live, and read the histories. -/
structure Carries (server : BroadcastState Handler Record) (link : ReplayLink Handler Record)
    (admission : Admission Handler Record) : Prop where
  connected : ∃ connection, server.connections admission.handler = some connection ∧
    connection.start = admission.start ∧
    (admission.handler ∈ server.receivers → connection.socket = admission.socket)
  followed : ∃ final, follow server.histories admission.start admission.socket = some final ∧
    final.epoch ≤ server.epoch
  read : link.read ≤ admission.socket.length

structure SoundLink (network : ReplayNetwork Handler Record) (link : ReplayLink Handler Record) :
    Prop where
  known : link.serverInstance ∈ network.server.serverInstance :: network.retired
  unread : link.answered = false → link.read = 0
  waiting : link.admission = none → link.answered = false
  answers : ∀ admission, link.admission = some admission → Admission.Answers link admission
  carries : link.serverInstance = network.server.serverInstance →
    ∀ admission, link.admission = some admission → Carries network.server link admission

/-- The invariant of the network. -/
structure Sound (network : ReplayNetwork Handler Record) : Prop where
  delivers : network.server.Delivers
  named : "" ∉ network.server.serverInstance :: network.retired
  fresh : network.server.serverInstance ∉ network.retired
  link : ∀ link, network.link = some link → network.SoundLink link

omit [DecidableEq Handler] in
/-- The frames still unread lead from the position to one of the current histories. -/
theorem Carries.position {server : BroadcastState Handler Record}
    {link : ReplayLink Handler Record} {admission : Admission Handler Record}
    (carries : Carries server link admission) {position : Position}
    (stands : At server link admission position) :
    ∃ final, follow server.histories position (admission.socket.drop link.read) = some final ∧
      final.epoch ≤ server.epoch := by
  obtain ⟨final, followed, bound⟩ := carries.followed
  rw [← List.take_append_drop link.read admission.socket, follow_append_of stands] at followed
  exact ⟨final, followed, bound⟩

omit [DecidableEq Handler] in
theorem Carries.epoch {server : BroadcastState Handler Record}
    {link : ReplayLink Handler Record} {admission : Admission Handler Record}
    (carries : Carries server link admission) {position : Position}
    (stands : At server link admission position) : position.epoch ≤ server.epoch := by
  obtain ⟨final, followed, bound⟩ := carries.position stands
  exact (follow_epoch followed).trans bound

omit [DecidableEq Handler] in
theorem Carries.next {server : BroadcastState Handler Record}
    {link : ReplayLink Handler Record} {admission : Admission Handler Record}
    (carries : Carries server link admission) {position : Position}
    (stands : At server link admission position) {frame : ReplayFrame Record}
    (waiting : admission.socket[link.read]? = some frame) :
    ∃ after, advance server.histories position frame = some after ∧
      At server { link with read := link.read + 1 } admission after ∧
      Carries server { link with read := link.read + 1 } admission := by
  obtain ⟨final, followed, _⟩ := carries.position stands
  obtain ⟨inside, here⟩ := List.getElem?_eq_some_iff.1 waiting
  have unread : admission.socket.drop link.read =
      frame :: admission.socket.drop (link.read + 1) := by
    rw [List.drop_eq_getElem_cons inside, here]
  rw [unread] at followed
  obtain ⟨after, advanced, _⟩ := Option.bind_eq_some_iff.1 followed
  refine ⟨after, advanced, ?_, carries.connected, carries.followed, inside⟩
  have taken : admission.socket.take (link.read + 1) =
      admission.socket.take link.read ++ [frame] := by
    rw [List.take_add_one, waiting]
    rfl
  simp only [At]
  rw [taken, follow_append_of stands, follow_cons, advanced]
  rfl

omit [DecidableEq Handler] in
/-- Before anything has been read the connection stands at its start. -/
theorem at_start {server : BroadcastState Handler Record} {link : ReplayLink Handler Record}
    {admission : Admission Handler Record} {position : Position} (unread : link.read = 0)
    (stands : At server link admission position) : position = admission.start := by
  rw [At, unread, List.take_zero, follow_nil] at stands
  exact (Option.some.inj stands).symm

/-! ### Identities -/

/-- An identity that some server has had, no newer than that server's history. -/
def Known (network : ReplayNetwork Handler Record) (identity : ReplayIdentity) : Prop :=
  identity.serverInstance ∈ network.server.serverInstance :: network.retired ∧
    (identity.serverInstance = network.server.serverInstance →
      identity.epoch ≤ network.server.epoch)

/-- A known identity vouches for records: while it names the current history, they are the first
ones of the log. -/
def Vouches (network : ReplayNetwork Handler Record) (held : Nat → Option Record) (count : Nat)
    (identity : ReplayIdentity) : Prop :=
  network.Known identity ∧
    (identity = network.current → HoldsPrefix held count network.server.log)

omit [DecidableEq Handler] [DecidableEq Record] in
/-- A network whose server has only grown keeps what identities vouch for. -/
theorem Vouches.grow {network next : ReplayNetwork Handler Record} {held : Nat → Option Record}
    {count : Nat} {identity : ReplayIdentity} (vouches : network.Vouches held count identity)
    (grows : network.server.Grows next.server) (retired : next.retired = network.retired) :
    next.Vouches held count identity := by
  obtain ⟨⟨known, bound⟩, backed⟩ := vouches
  refine ⟨⟨?_, ?_⟩, ?_⟩
  · rw [grows.named, retired]
    exact known
  · intro own
    exact (bound (own.trans grows.named)).trans grows.epoch
  · intro now
    have own : identity.serverInstance = network.server.serverInstance := by
      rw [now]
      exact grows.named
    have last : identity.epoch = next.server.epoch := by rw [now]; rfl
    -- An identity from before the step names the current history only if the epoch is the same.
    have same : next.server.epoch = network.server.epoch :=
      Nat.le_antisymm (last ▸ bound own) grows.epoch
    refine (backed ?_).grow (grows.log same)
    rw [now, current, current, grows.named, same]

omit [DecidableEq Handler] [DecidableEq Record] in
/-- An identity of the servers so far says nothing about the next one. -/
theorem Vouches.restart {network next : ReplayNetwork Handler Record}
    {held : Nat → Option Record} {count : Nat} {identity : ReplayIdentity}
    (vouches : network.Vouches held count identity)
    (fresh : next.server.serverInstance ∉ network.server.serverInstance :: network.retired)
    (retired : next.retired = network.server.serverInstance :: network.retired) :
    next.Vouches held count identity := by
  have old : identity.serverInstance ≠ next.server.serverInstance := by
    intro same
    exact fresh (same ▸ vouches.1.1)
  refine ⟨⟨?_, fun same => absurd same old⟩, ?_⟩
  · rw [retired]
    exact List.mem_cons_of_mem _ vouches.1.1
  · intro now
    exact absurd (congrArg ReplayIdentity.serverInstance now) old

omit [DecidableEq Handler] [DecidableEq Record] in
theorem Vouches.congr {network : ReplayNetwork Handler Record} {held other : Nat → Option Record}
    {count : Nat} {identity : ReplayIdentity} (vouches : network.Vouches held count identity)
    (same : ∀ seq ≤ count, other seq = held seq) : network.Vouches other count identity :=
  ⟨vouches.1, fun now => (vouches.2 now).congr same⟩

/-! ### The receiver's end -/

theorem Sound.connect {network : ReplayNetwork Handler Record} (sound : network.Sound)
    (generation : Nat) (hello : ReceiverHello) (held : Nat → Option Record) :
    (network.connect generation hello held).Sound := by
  refine ⟨sound.delivers, sound.named, sound.fresh, ?_⟩
  rintro _ ⟨⟩
  exact ⟨List.mem_cons_self, fun _ => rfl, fun _ => rfl, nofun, nofun⟩

theorem Sound.hangUp {network : ReplayNetwork Handler Record} (sound : network.Sound) :
    Sound { network with link := none } :=
  ⟨sound.delivers, sound.named, sound.fresh, nofun⟩

theorem Sound.answered {network : ReplayNetwork Handler Record} (sound : network.Sound)
    {link : ReplayLink Handler Record} {admission : Admission Handler Record}
    (opened : network.link = some link) (admitted : link.admission = some admission) :
    Sound { network with link := some { link with answered := true } } := by
  have linked := sound.link link opened
  refine ⟨sound.delivers, sound.named, sound.fresh, ?_⟩
  rintro _ ⟨⟩
  refine ⟨linked.known, nofun, fun waiting => absurd (admitted.symm.trans waiting) nofun, ?_, ?_⟩
  · intro other found
    obtain ⟨resumed, reset, claimed⟩ := linked.answers other found
    exact ⟨resumed, reset, claimed⟩
  · intro own other found
    obtain ⟨connected, followed, read⟩ := linked.carries own other found
    exact ⟨connected, followed, read⟩

theorem Sound.read {network : ReplayNetwork Handler Record} (sound : network.Sound)
    {link : ReplayLink Handler Record} {admission : Admission Handler Record}
    {frame : ReplayFrame Record} (opened : network.link = some link)
    (answered : link.answered = true) (admitted : link.admission = some admission)
    (waiting : admission.socket[link.read]? = some frame) :
    Sound { network with link := some { link with read := link.read + 1 } } := by
  have linked := sound.link link opened
  refine ⟨sound.delivers, sound.named, sound.fresh, ?_⟩
  rintro _ ⟨⟩
  refine ⟨linked.known, fun unanswered => absurd (answered.symm.trans unanswered) nofun,
    linked.waiting, ?_, ?_⟩
  · intro other found
    obtain ⟨resumed, reset, claimed⟩ := linked.answers other found
    exact ⟨resumed, reset, claimed⟩
  · intro own other found
    cases admitted.symm.trans found
    obtain ⟨connected, followed, _⟩ := linked.carries own admission admitted
    exact ⟨connected, followed, (List.getElem?_eq_some_iff.1 waiting).1⟩

/-! ### Steps of the server -/

omit [DecidableEq Record] in
theorem observe_cases (server : BroadcastState Handler Record)
    (link : ReplayLink Handler Record) :
    (link.observe server = link ∧
      ∀ admission, link.admission = some admission →
        link.serverInstance = server.serverInstance → admission.handler ∈ server.receivers →
        server.connections admission.handler = none) ∨
    ∃ admission connection, link.admission = some admission ∧
      link.serverInstance = server.serverInstance ∧ admission.handler ∈ server.receivers ∧
      server.connections admission.handler = some connection ∧
      link.observe server =
        { link with admission := some { admission with socket := connection.socket } } := by
  unfold ReplayLink.observe
  cases admitted : link.admission with
  | none => exact Or.inl ⟨rfl, nofun⟩
  | some admission =>
      dsimp only
      split
      · next live =>
          cases found : server.connections admission.handler with
          | none =>
              refine Or.inl ⟨rfl, ?_⟩
              rintro other same _ _
              cases same
              exact found
          | some connection =>
              exact Or.inr ⟨admission, connection, rfl, live.1, live.2, found, rfl⟩
      · next gone =>
          refine Or.inl ⟨rfl, ?_⟩
          rintro other same named live
          cases same
          exact absurd ⟨named, live⟩ gone

/-- A connection after a step of its own server. -/
structure Observed (server next : BroadcastState Handler Record)
    (link after : ReplayLink Handler Record) : Prop where
  same : after = { link with admission := after.admission }
  waiting : link.admission = none → after.admission = none
  admitted : ∀ admission, link.admission = some admission →
    ∃ extended, after.admission = some extended ∧ extended.start = admission.start ∧
      (link.serverInstance = server.serverInstance → Carries next after extended ∧
        ∀ position, At server link admission position → At next after extended position)

theorem observed_step {server next : BroadcastState Handler Record}
    {action : BroadcastAction Handler Record} (delivers : server.Delivers)
    (stepped : server.step? action = some next) {link : ReplayLink Handler Record}
    (carries : link.serverInstance = server.serverInstance →
      ∀ admission, link.admission = some admission → Carries server link admission) :
    Observed server next link (link.observe next) := by
  have grows := BroadcastState.grows_step stepped
  have delivered := BroadcastState.delivers_step delivers stepped
  rcases observe_cases next link with ⟨unchanged, gone⟩ | ⟨admission, connection, admitted,
    named, live, found, changed⟩
  · rw [unchanged]
    refine ⟨rfl, id, ?_⟩
    intro admission admitted
    refine ⟨admission, admitted, rfl, ?_⟩
    intro own
    have carried := carries own admission admitted
    obtain ⟨connection, found, start, _⟩ := carried.connected
    obtain ⟨after, afterFound, afterStart, _⟩ := grows.connections _ _ found
    obtain ⟨final, followed, bound⟩ := carried.followed
    refine ⟨⟨⟨after, afterFound, afterStart.trans start, ?_⟩, ⟨final, ?_, ?_⟩,
      carried.read⟩, ?_⟩
    · intro live
      have absent := gone admission admitted (own.trans grows.named.symm) live
      rw [afterFound] at absent
      cases absent
    · exact follow_mono (fun epoch low => grows.histories epoch (low.trans bound)) followed
    · exact bound.trans grows.epoch
    · intro position stands
      have low := carried.epoch stands
      exact follow_mono (fun epoch below => grows.histories epoch (below.trans low)) stands
  · rw [changed]
    refine ⟨rfl, fun absent => absurd (admitted.symm.trans absent) nofun, ?_⟩
    intro other same
    cases admitted.symm.trans same
    refine ⟨_, rfl, rfl, ?_⟩
    intro own
    have carried := carries own admission admitted
    obtain ⟨before, beforeFound, start, socket⟩ := carried.connected
    obtain ⟨after, afterFound, afterStart, sent⟩ := grows.connections _ _ beforeFound
    cases found.symm.trans afterFound
    -- A handler that is live now was live before, so its socket has only been extended.
    have extended : admission.socket <+: connection.socket := by
      rcases grows.receivers _ live with still | unknown
      · rw [← socket still]
        exact sent
      · rw [beforeFound] at unknown
        cases unknown
    obtain ⟨streaming, streamingFound, followed⟩ := delivered.streams _ live
    cases found.symm.trans streamingFound
    obtain ⟨middle, first, rest⟩ := follow_of_append followed
    rw [afterStart, start] at first
    refine ⟨⟨⟨connection, found, afterStart.trans start, fun _ => rfl⟩,
      ⟨middle, first, follow_epoch rest⟩, carried.read.trans extended.length_le⟩, ?_⟩
    intro position stands
    have low := carried.epoch stands
    have kept := follow_mono (fun epoch below => grows.histories epoch (below.trans low)) stands
    obtain ⟨later, whole⟩ := extended
    simp only [At]
    rw [← whole, List.take_append_of_le_length carried.read]
    exact kept

theorem sound_serve {network : ReplayNetwork Handler Record} (sound : network.Sound)
    {action : BroadcastAction Handler Record} {server : BroadcastState Handler Record}
    (stepped : network.server.step? action = some server) :
    Sound { network with server := server, link := network.link.map (·.observe server) } := by
  have grows := BroadcastState.grows_step stepped
  refine ⟨BroadcastState.delivers_step sound.delivers stepped, ?_, ?_, ?_⟩
  · rw [grows.named]
    exact sound.named
  · rw [grows.named]
    exact sound.fresh
  · intro after found
    obtain ⟨link, opened, rfl⟩ := Option.map_eq_some_iff.1 found
    have linked := sound.link link opened
    have observed := observed_step sound.delivers stepped linked.carries
    have admissions : ∀ extended, (link.observe server).admission = some extended →
        ∃ admission, link.admission = some admission ∧ extended.start = admission.start ∧
          (link.serverInstance = network.server.serverInstance →
            Carries server (link.observe server) extended) := by
      intro extended admitted
      cases before : link.admission with
      | none =>
          rw [observed.waiting before] at admitted
          cases admitted
      | some admission =>
          obtain ⟨other, otherAdmitted, start, carried⟩ := observed.admitted admission before
          cases otherAdmitted.symm.trans admitted
          exact ⟨admission, rfl, start, fun own => (carried own).1⟩
    refine ⟨?_, ?_, ?_, ?_, ?_⟩
    · rw [observed.same, grows.named]
      exact linked.known
    · rw [observed.same]
      exact linked.unread
    · intro absent
      rw [observed.same]
      apply linked.waiting
      cases before : link.admission with
      | none => rfl
      | some admission =>
          obtain ⟨other, otherAdmitted, _⟩ := observed.admitted admission before
          rw [absent] at otherAdmitted
          cases otherAdmitted
    · intro extended admitted
      obtain ⟨admission, before, start, _⟩ := admissions extended admitted
      have answers := linked.answers admission before
      rw [observed.same]
      exact ⟨by rw [start]; exact answers.resumed, by rw [start]; exact answers.reset,
        by rw [start]; exact answers.claimed⟩
    · intro own extended admitted
      obtain ⟨_, _, _, carried⟩ := admissions extended admitted
      rw [observed.same] at own
      exact carried (own.trans grows.named)

/-! ### Another server takes over -/

theorem sound_restart {network : ReplayNetwork Handler Record} (sound : network.Sound)
    {serverInstance : String} (named : serverInstance ≠ "")
    (fresh : serverInstance ∉ network.server.serverInstance :: network.retired)
    (log : List Record) :
    Sound { network with
      server := { serverInstance := serverInstance, log := log }
      retired := network.server.serverInstance :: network.retired } := by
  refine ⟨BroadcastState.delivers_opened serverInstance log, ?_, fresh, ?_⟩
  · intro empty
    rcases List.mem_cons.1 empty with new | old
    · exact named new.symm
    · exact sound.named old
  intro link opened
  have linked := sound.link link opened
  refine ⟨List.mem_cons_of_mem _ linked.known, linked.unread, linked.waiting, linked.answers, ?_⟩
  intro own
  have known := linked.known
  rw [show link.serverInstance = serverInstance from own] at known
  exact absurd known fresh

/-! ### The hello is answered -/

theorem sound_admission {network : ReplayNetwork Handler Record} (sound : network.Sound)
    {link : ReplayLink Handler Record} (opened : network.link = some link)
    (waiting : link.admission = none)
    (own : link.serverInstance = network.server.serverInstance) {handler : Handler}
    {server : BroadcastState Handler Record}
    (stepped : network.server.step? (.join handler link.hello.syncFrom link.hello.claim) =
      some server) :
    Sound { network with server := server, link := some (network.admitted link handler) } := by
  have linked := sound.link link opened
  have delivered := BroadcastState.delivers_step sound.delivers stepped
  have grows := BroadcastState.grows_step stepped
  have joined : server = network.server.join handler link.hello.syncFrom link.hello.claim := by
    simp only [BroadcastState.step?] at stepped
    split at stepped
    · exact (Option.some.inj stepped).symm
    · cases stepped
  have live : handler ∈ server.receivers := by
    rw [joined]
    exact List.mem_append_right _ (List.mem_singleton_self _)
  have found : server.connections handler = some
      { start := admissionStart network.server.serverInstance network.server.epoch
          network.server.log.length link.hello.syncFrom link.hello.claim
        pending := admissionFrames network.server.serverInstance network.server.epoch
          network.server.log link.hello.syncFrom link.hello.claim } := by
    rw [joined]
    exact Function.update_self _ _ _
  refine ⟨delivered, grows.named ▸ sound.named, grows.named ▸ sound.fresh, ?_⟩
  rintro _ ⟨⟩
  refine ⟨?_, linked.unread, by rintro ⟨⟩, ?_, ?_⟩
  · rw [grows.named]
    exact linked.known
  · rintro _ ⟨⟩
    rw [← own]
    obtain ⟨resumed, reset, claimed⟩ :=
      admission_answers link handler network.server.epoch network.server.log.length
    exact ⟨resumed, reset, claimed⟩
  · rintro _ _ ⟨⟩
    refine ⟨⟨_, found, rfl, fun _ => rfl⟩, ⟨_, rfl, ?_⟩, ?_⟩
    · exact grows.epoch
    · simp [admitted, linked.unread (linked.waiting waiting)]

/-! ### What a step of the network does -/

/-- The admission of a connection after a step of its server: as before with more frames, or new,
in which case nothing has been read. -/
inductive AdmissionAfter (network next : ReplayNetwork Handler Record)
    (link after : ReplayLink Handler Record) (extended : Admission Handler Record) : Prop
  | kept (admission : Admission Handler Record) (before : link.admission = some admission)
      (start : extended.start = admission.start)
      (stands : ∀ position, At network.server link admission position →
        position.epoch ≤ network.server.epoch ∧ At next.server after extended position)
  | opened (before : link.admission = none)
      (epoch : extended.start.epoch = network.server.epoch)
      (log : next.server.histories extended.start.epoch = network.server.log)
      (stands : At next.server after extended extended.start)

/-- The connection after a step of the network. -/
structure LinkAfter (network next : ReplayNetwork Handler Record)
    (link after : ReplayLink Handler Record) : Prop where
  same : after = { link with admission := after.admission }
  waiting : after.admission = none → link.admission = none
  foreign : after.serverInstance ≠ next.server.serverInstance →
    (link.serverInstance ≠ network.server.serverInstance ∧
      next.server.serverInstance = network.server.serverInstance) ∨
    ∀ identity, network.Known identity → identity.serverInstance ≠ next.server.serverInstance
  own : after.serverInstance = next.server.serverInstance →
    link.serverInstance = network.server.serverInstance ∧
    Extends network.server.histories next.server.histories network.server.epoch ∧
    ∀ extended, after.admission = some extended →
      AdmissionAfter network next link after extended

/-- Everything a step of the network does, as far as the receiver can tell. -/
structure Evolves (network next : ReplayNetwork Handler Record) : Prop where
  sound : next.Sound
  vouches : ∀ held count identity, network.Vouches held count identity →
    next.Vouches held count identity
  link : ∀ after, next.link = some after →
    ∃ link, network.link = some link ∧ network.LinkAfter next link after
  stays : ∀ link, network.link = some link →
    ∃ after, next.link = some after ∧ after = { link with admission := after.admission }

theorem evolves_serve {network : ReplayNetwork Handler Record} (sound : network.Sound)
    {action : BroadcastAction Handler Record} {server : BroadcastState Handler Record}
    (stepped : network.server.step? action = some server) :
    network.Evolves
      { network with server := server, link := network.link.map (·.observe server) } := by
  have grows := BroadcastState.grows_step stepped
  refine ⟨sound_serve sound stepped, fun _ _ _ vouches => vouches.grow grows rfl, ?_, ?_⟩
  swap
  · intro link opened
    have linked := sound.link link opened
    have observed := observed_step sound.delivers stepped linked.carries
    exact ⟨link.observe server, by rw [opened]; rfl, observed.same⟩
  intro after found
  obtain ⟨link, opened, rfl⟩ := Option.map_eq_some_iff.1 found
  have linked := sound.link link opened
  have observed := observed_step sound.delivers stepped linked.carries
  have named : (link.observe server).serverInstance = link.serverInstance := by
    rw [observed.same]
  refine ⟨link, opened, observed.same, ?_, ?_, ?_⟩
  · intro absent
    cases before : link.admission with
    | none => rfl
    | some admission =>
        obtain ⟨extended, admitted, _⟩ := observed.admitted admission before
        rw [absent] at admitted
        cases admitted
  · intro foreign
    rw [named, grows.named] at foreign
    exact Or.inl ⟨foreign, grows.named⟩
  · intro own
    rw [named, grows.named] at own
    refine ⟨own, grows.histories, ?_⟩
    intro extended admitted
    cases before : link.admission with
    | none =>
        rw [observed.waiting before] at admitted
        cases admitted
    | some admission =>
        obtain ⟨other, otherAdmitted, start, carried⟩ := observed.admitted admission before
        cases otherAdmitted.symm.trans admitted
        refine .kept admission before start ?_
        intro position stands
        exact ⟨(linked.carries own admission before).epoch stands,
          (carried own).2 position stands⟩

theorem evolves_restart {network : ReplayNetwork Handler Record} (sound : network.Sound)
    {serverInstance : String} (named : serverInstance ≠ "")
    (fresh : serverInstance ∉ network.server.serverInstance :: network.retired)
    (log : List Record) :
    network.Evolves { network with
      server := { serverInstance := serverInstance, log := log }
      retired := network.server.serverInstance :: network.retired } := by
  refine ⟨sound_restart sound named fresh log,
    fun _ _ _ vouches => vouches.restart fresh rfl, ?_, fun link opened => ⟨link, opened, rfl⟩⟩
  intro link opened
  have linked := sound.link link opened
  refine ⟨link, opened, rfl, id, ?_, ?_⟩
  · intro _
    apply Or.inr
    intro identity known same
    have listed := known.1
    rw [show identity.serverInstance = serverInstance from same] at listed
    exact fresh listed
  · intro own
    have known := linked.known
    rw [show link.serverInstance = serverInstance from own] at known
    exact absurd known fresh

theorem evolves_admission {network : ReplayNetwork Handler Record} (sound : network.Sound)
    {link : ReplayLink Handler Record} (opened : network.link = some link)
    (waiting : link.admission = none)
    (own : link.serverInstance = network.server.serverInstance) {handler : Handler}
    {server : BroadcastState Handler Record}
    (stepped : network.server.step? (.join handler link.hello.syncFrom link.hello.claim) =
      some server) :
    network.Evolves
      { network with server := server, link := some (network.admitted link handler) } := by
  have grows := BroadcastState.grows_step stepped
  have linked := sound.link link opened
  refine ⟨sound_admission sound opened waiting own stepped,
    fun _ _ _ vouches => vouches.grow grows rfl, ?_, ?_⟩
  swap
  · intro other found
    cases opened.symm.trans found
    exact ⟨_, rfl, rfl⟩
  rintro _ ⟨⟩
  refine ⟨link, opened, rfl, nofun, ?_, ?_⟩
  · intro foreign
    exact absurd (own.trans grows.named.symm) foreign
  · intro _
    refine ⟨own, grows.histories, ?_⟩
    rintro _ ⟨⟩
    refine .opened waiting rfl ?_ ?_
    · simp only [BroadcastState.step?] at stepped
      split at stepped
      · cases stepped
        simp [BroadcastState.histories, BroadcastState.join, BroadcastState.setConnection,
          admissionStart]
      · cases stepped
    · simp [At, admitted, linked.unread (linked.waiting waiting), follow_nil]

theorem evolves_step {network next : ReplayNetwork Handler Record} (sound : network.Sound)
    {action : NetworkAction Handler Record} (stepped : network.step? action = some next) :
    network.Evolves next := by
  cases action with
  | serve action =>
      obtain ⟨server, served, rfl⟩ := Option.map_eq_some_iff.1 stepped
      exact evolves_serve sound served
  | restart serverInstance log =>
      simp only [step?] at stepped
      split at stepped
      · cases stepped
      · next fresh =>
          cases stepped
          rw [not_or] at fresh
          exact evolves_restart sound fresh.1 fresh.2 log
  | admission handler =>
      simp only [step?] at stepped
      split at stepped
      · cases stepped
      · next link opened =>
          split at stepped
          · next waiting =>
              obtain ⟨server, served, rfl⟩ := Option.map_eq_some_iff.1 stepped
              exact evolves_admission sound opened (Option.isNone_iff_eq_none.1 waiting.1) waiting.2
                served
          · cases stepped

end ReplayNetwork

end UsdConnect
