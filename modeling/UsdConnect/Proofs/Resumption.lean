/-
Purpose: A resumed prefix is genuine: after a resume without a reset the records the receiver holds
  below the cursor are the first records of the server's log.
Trusted boundary: none
Main exports: ReplayNetwork.GenuineResume, resumed_prefix_genuine
-/
import UsdConnect.Proofs.NativeResumption
import UsdConnect.Proofs.ReceiverResumption

namespace UsdConnect

variable {Handler Record : Type} [DecidableEq Handler] [DecidableEq Record]

/-- If the server resumes the hello that waits on the connection, the records held when it was
sent, and those held now if the connection is the receiver's current one, are the first ones of the
log. -/
def ReplayNetwork.GenuineResume (network : ReplayNetwork Handler Record)
    (held : Nat → Option Record) (generation : Nat) : Prop :=
  ∀ link claim, network.link = some link → link.admission = none →
    link.serverInstance = network.server.serverInstance → link.hello.claim = some claim →
    1 < link.hello.syncFrom →
    (admitReplay network.server.serverInstance network.server.epoch network.server.log.length
      link.hello.syncFrom link.hello.claim).1 = false →
    HoldsPrefix link.held (link.hello.syncFrom - 1) network.server.log ∧
      (link.generation = generation →
        HoldsPrefix held (link.hello.syncFrom - 1) network.server.log)

namespace ReplayNetwork

omit [DecidableEq Handler] [DecidableEq Record] in
/-- The server resumes only a claim of its own identity, which then vouches for the prefix. -/
theorem genuineResume_of_vouches {network : ReplayNetwork Handler Record}
    {held : Nat → Option Record} {generation : Nat}
    (claimed : ∀ link, network.link = some link → link.admission = none →
      ∀ identity : ReplayIdentity,
        link.hello.claim =
          some { serverInstance := identity.serverInstance, epoch := some identity.epoch } →
        network.Vouches link.held (link.hello.syncFrom - 1) identity)
    (same : ∀ link, network.link = some link → link.admission = none →
      link.generation = generation → link.held = held) :
    network.GenuineResume held generation := by
  intro link claim opened waiting own carried above resumed
  have holds : HoldsPrefix link.held (link.hello.syncFrom - 1) network.server.log := by
    rcases admitReplay_cases network.server.serverInstance network.server.epoch
      network.server.log.length link.hello.syncFrom link.hello.claim with
      reset | ⟨_, _, claims⟩
    · rw [reset] at resumed
      cases resumed
    · have now := claims claim carried (by exact_mod_cast above)
      rw [now] at carried
      exact (claimed link opened waiting network.current carried).2 rfl
  refine ⟨holds, ?_⟩
  intro current
  rw [← same link opened waiting current]
  exact holds

end ReplayNetwork

theorem ReceiverResumption.Genuine.resume {state : ReceiverResumption Handler Record}
    (genuine : state.Genuine) :
    state.network.GenuineResume state.held state.thread.inbox.generation := by
  apply ReplayNetwork.genuineResume_of_vouches genuine.claimed
  intro link opened waiting current
  have unanswered := (genuine.network.link link opened).waiting waiting
  exact ((genuine.active link opened current).greeting unanswered).held

theorem NativeResumption.Genuine.resume {state : NativeResumption Handler Record}
    (genuine : state.Genuine) :
    state.network.GenuineResume state.held state.client.session.generation := by
  apply ReplayNetwork.genuineResume_of_vouches genuine.claimed
  intro link opened waiting current
  have unanswered := (genuine.network.link link opened).waiting waiting
  exact ((genuine.active link opened current).greeting unanswered).held

/-- In every run of the receiver thread in which, before the first hello, nothing but the whole
stream is asked for once a reset is owed, and in every run of the native receiver, a resumed prefix
is genuine. -/
theorem resumed_prefix_genuine (serverInstance : String) (named : serverInstance ≠ "")
    (log : List Record) :
    (∀ (syncFrom maxQueue : Nat) (held : Nat → Option Record)
        (actions : List (ResumptionAction Handler Record))
        (final : ReceiverResumption Handler Record),
      Machine.StepsMeet ReceiverResumption.step? ReceiverResumption.RequestsWhole
        (.create (.opened serverInstance log) syncFrom maxQueue held) actions →
      ReceiverResumption.run? (.create (.opened serverInstance log) syncFrom maxQueue held)
        actions = some final →
      final.network.GenuineResume final.held final.thread.inbox.generation) ∧
    (∀ (initialLastSeq maxFrames : Nat) (held : Nat → Option Record)
        (actions : List (NativeAction Handler Record))
        (final : NativeResumption Handler Record),
      NativeResumption.run? (.create (.opened serverInstance log) initialLastSeq maxFrames held)
        actions = some final →
      final.network.GenuineResume final.held final.client.session.generation) := by
  have delivers : (.opened serverInstance log : BroadcastState Handler Record).Delivers :=
    BroadcastState.delivers_opened serverInstance log
  constructor
  · intro syncFrom maxQueue held actions final meets ran
    have start := ReceiverResumption.genuine_create delivers named syncFrom maxQueue held
    exact (Machine.run_preserves ReceiverResumption.genuine_step actions _ _ start meets
      ran).resume
  · intro initialLastSeq maxFrames held actions final ran
    have start := NativeResumption.genuine_create delivers named initialLastSeq maxFrames held
    exact (Machine.run_invariant NativeResumption.genuine_step start ran).resume

/-- A receiver reads the first of two records, is dropped, and asks for the rest. -/
def droppedReplay : List (ResumptionAction Nat Nat) :=
  [.connect, .network (.admission 0), .network (.serve (.send 0)), .readHello, .readFrame, .drop,
    .connect]

/-- A native receiver applies a whole replay of two records and a later one, then reconnects. -/
def droppedNative : List (NativeAction Nat Nat) :=
  [.connect, .network (.admission 0), .network (.serve (.send 0)), .network (.serve (.send 0)),
    .network (.serve (.send 0)), .readHello, .readFrame, .readFrame, .readFrame, .consume true,
    .consume true, .markReplayApplied, .drop, .connect]

theorem resumed_prefix_genuine_dropped :
    (∃ final : ReceiverResumption Nat Nat,
      ReceiverResumption.run? (.create (.opened "server" [7, 8]) 1 10 fun _ => none)
        droppedReplay = some final ∧
      final.network.link.map (·.hello) =
        some { syncFrom := 2, claim := some { serverInstance := "server", epoch := some 0 } } ∧
      final.network.GenuineResume final.held final.thread.inbox.generation) ∧
    ∃ final : NativeResumption Nat Nat,
      NativeResumption.run? (.create (.opened "server" [7, 8]) 0 10 fun _ => none)
        droppedNative = some final ∧
      final.network.link.map (·.hello) =
        some { syncFrom := 3, claim := some { serverInstance := "server", epoch := some 0 } } ∧
      final.network.GenuineResume final.held final.client.session.generation := by
  obtain ⟨receiver, native⟩ := @resumed_prefix_genuine Nat Nat _ _ "server" (by decide) [7, 8]
  refine ⟨⟨_, rfl, rfl, receiver 1 10 (fun _ => none) droppedReplay _ ?_ rfl⟩,
    ⟨_, rfl, rfl, native 0 10 (fun _ => none) droppedNative _ rfl⟩⟩
  apply Machine.stepsMeet_cons trivial rfl
  apply Machine.stepsMeet_cons trivial rfl
  apply Machine.stepsMeet_cons trivial rfl
  apply Machine.stepsMeet_cons trivial rfl
  apply Machine.stepsMeet_cons trivial rfl
  apply Machine.stepsMeet_cons trivial rfl
  apply Machine.stepsMeet_cons trivial rfl
  trivial

/-- Two requests before the thread has sent its first hello: the whole stream, then everything
from the second record on.  The owed reset passes for a proof of the first record. -/
def requestsBeforeHello : List (ResumptionAction Nat Nat) :=
  [.requestReplay 1, .requestReplay 2, .connect, .network (.admission 0),
    .network (.serve (.send 0)), .readHello, .readFrame, .drop, .connect]

theorem not_genuineResume_requestsBeforeHello :
    ∃ final : ReceiverResumption Nat Nat,
      ReceiverResumption.run? (.create (.opened "server" [7, 8]) 1 10 fun _ => none)
        requestsBeforeHello = some final ∧
      final.network.link.map (·.hello) =
        some { syncFrom := 3, claim := some { serverInstance := "server", epoch := some 0 } } ∧
      final.held 1 = none ∧
      ¬ final.network.GenuineResume final.held final.thread.inbox.generation := by
  refine ⟨_, rfl, rfl, rfl, ?_⟩
  intro genuine
  have holds := (genuine _ _ rfl rfl rfl rfl (by decide) (by decide)).1
  exact absurd (holds.2 0 (by decide)) (by decide)

end UsdConnect
