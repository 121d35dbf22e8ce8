/-
Purpose: Leadership over whole runs. It is kept as long as no connection without a client id drives
  the playhead while nobody leads: the empty id of such a connection passes for the vacant role.
Trusted boundary: none
Main exports: leadership_of_namedControls, not_leadership_anonymousControl
-/
import UsdConnect.Server.Playback

namespace UsdConnect

namespace PlaybackState

/-- The leader, when there is one, has an id. -/
def NamedLeader (state : PlaybackState) : Prop :=
  state.leaderClientId ≠ some ""

theorem leader_eq_empty {state : PlaybackState} (named : state.NamedLeader)
    (empty : state.leader = "") : state.leaderClientId = none := by
  cases held : state.leaderClientId with
  | none => rfl
  | some clientId =>
      have isEmpty : clientId = "" := by
        simpa [leader, held] using empty
      exact absurd (held.trans (congrArg some isEmpty)) named

theorem leaderClientId_of_leader {state : PlaybackState} {clientId : String}
    (leads : state.leader = clientId) (present : clientId = "" → state.leaderClientId ≠ none) :
    state.leaderClientId = some clientId := by
  cases held : state.leaderClientId with
  | none =>
      have isEmpty : "" = clientId := by
        simpa [leader, held] using leads
      exact absurd held (present isEmpty.symm)
  | some other =>
      have same : other = clientId := by
        simpa [leader, held] using leads
      rw [same]

theorem claim_cases (state : PlaybackState) (clientId : String) (time : Option FloatValue) :
    state.claim clientId time = ((false, state.leader), state) ∨
    (clientId ≠ "" ∧ (state.leader = "" ∨ state.leader = clientId) ∧
      state.claim clientId time =
        ((true, clientId),
          { state with leaderClientId := some clientId, time := time.getD state.time })) := by
  unfold claim
  by_cases anonymous : clientId = ""
  · exact .inl (if_pos anonymous)
  by_cases taken : state.leader ≠ "" ∧ state.leader ≠ clientId
  · exact .inl ((if_neg anonymous).trans (if_pos taken))
  · refine .inr ⟨anonymous, ?_, (if_neg anonymous).trans (if_neg taken)⟩
    by_cases vacant : state.leader = ""
    · exact .inl vacant
    · exact .inr (by_contra fun other => taken ⟨vacant, other⟩)

theorem drive_leader {state driven : PlaybackState} {action : String} {time rate : FloatValue}
    (drove : state.drive action time rate = some driven) :
    driven.leaderClientId = state.leaderClientId := by
  unfold drive at drove
  split_ifs at drove <;> cases drove <;> rfl

/-- What a control can do: leave everything alone, or drive the playhead for the id that is read as
the leader's. -/
theorem applyControl_cases (state : PlaybackState) (clientId action : String)
    (time rate : FloatValue) :
    (∃ rejection, state.applyControl clientId action time rate =
      ((.error rejection, state.leader), state)) ∨
    ∃ driven, state.leader = clientId ∧ driven.leaderClientId = state.leaderClientId ∧
      state.applyControl clientId action time rate =
        ((.ok driven.snapshot, state.leader), driven) := by
  unfold applyControl
  by_cases other : state.leader ≠ clientId
  · exact .inl ⟨_, if_pos other⟩
  · cases drove : state.drive action time rate with
    | none => exact .inl ⟨_, if_neg other⟩
    | some driven =>
        exact .inr ⟨driven, not_not.1 other, drive_leader drove, if_neg other⟩

theorem release_cases (state : PlaybackState) (clientId : String) :
    state.release clientId = (false, state) ∨
    (state.leaderClientId = some clientId ∧
      state.release clientId = (true, { state with leaderClientId := none })) := by
  unfold release
  by_cases anonymous : clientId = ""
  · exact .inl (if_pos anonymous)
  by_cases leads : state.leaderClientId = some clientId
  · exact .inr ⟨leads, (if_neg anonymous).trans (if_pos leads)⟩
  · exact .inl ((if_neg anonymous).trans (if_neg leads))

end PlaybackState

namespace PlaybackServer

/-! ### The law of leadership -/

/-- What leadership promises about one decision and the playback state around it. -/
def Lawful (before : PlaybackState) : PlaybackOutcome → PlaybackState → Prop
  | .admitted, after => after = before
  | .claimed clientId granted _, after =>
      (granted = true →
        (before.leaderClientId = none ∨ before.leaderClientId = some clientId) ∧
          after.leaderClientId = some clientId) ∧
      (granted = false → after = before)
  | .controlled clientId result _, after =>
      (after ≠ before → before.leaderClientId = some clientId) ∧
      after.leaderClientId = before.leaderClientId ∧
      (∀ rejection, result = .error rejection → after = before)
  | .released clientId wasLeader, after =>
      (wasLeader = true → before.leaderClientId = some clientId) ∧
      (after = if wasLeader then { before with leaderClientId := none } else before)

/-- Every decision of the run is lawful, and at most one client has reason to think that it
leads. -/
def Leadership (start : PlaybackServer) (actions : List PlaybackAction) : Prop :=
  (∀ earlier action later reached outcome next, actions = earlier ++ action :: later →
    Machine.run step start earlier = some reached →
    reached.perform action = some (outcome, next) →
    Lawful reached.playback outcome next.playback) ∧
  (start.leading actions []).length ≤ 1

/-- No control comes from a connection without a client id while nobody leads. -/
def NamedControl (server : PlaybackServer) : PlaybackAction → Prop
  | .control connection _ _ _ =>
      server.clientId connection = some "" → server.playback.leaderClientId ≠ none
  | _ => True

instance (server : PlaybackServer) (action : PlaybackAction) :
    Decidable (server.NamedControl action) :=
  match action with
  | .control .. => inferInstanceAs (Decidable (_ → _))
  | .hello .. | .claim .. | .failedSend .. | .disconnect .. => .isTrue trivial

theorem step_eq_some {server next : PlaybackServer} {action : PlaybackAction}
    (stepped : server.step action = some next) :
    ∃ outcome, server.perform action = some (outcome, next) := by
  obtain ⟨⟨outcome, other⟩, performed, rfl⟩ := Option.map_eq_some_iff.1 stepped
  exact ⟨outcome, performed⟩

theorem release_lawful {state : PlaybackState} (named : state.NamedLeader) (clientId : String) :
    Lawful state (.released clientId (state.release clientId).1) (state.release clientId).2 ∧
      (state.release clientId).2.NamedLeader := by
  rcases state.release_cases clientId with kept | ⟨leads, released⟩
  · rw [kept]
    exact ⟨⟨nofun, rfl⟩, named⟩
  · rw [released]
    exact ⟨⟨fun _ => leads, rfl⟩, nofun⟩

/-- One decision: under the condition it is lawful. Where a leader has an id, that stays so. -/
theorem perform_lawful {server next : PlaybackServer} {action : PlaybackAction}
    {outcome : PlaybackOutcome} (named : server.playback.NamedLeader)
    (condition : server.NamedControl action)
    (performed : server.perform action = some (outcome, next)) :
    Lawful server.playback outcome next.playback ∧ next.playback.NamedLeader := by
  cases action with
  | hello connection role raw =>
      simp only [perform] at performed
      split_ifs at performed
      cases performed
      exact ⟨rfl, named⟩
  | claim connection time =>
      obtain ⟨clientId, -, decided⟩ := Option.map_eq_some_iff.1 performed
      rcases server.playback.claim_cases clientId time with refused | ⟨present, free, granted⟩
      · rw [refused] at decided
        cases decided
        exact ⟨⟨nofun, fun _ => rfl⟩, named⟩
      · rw [granted] at decided
        cases decided
        refine ⟨⟨fun _ => ⟨?_, rfl⟩, nofun⟩, fun same => present (Option.some.inj same)⟩
        rcases free with vacant | own
        · exact .inl (PlaybackState.leader_eq_empty named vacant)
        · exact .inr (PlaybackState.leaderClientId_of_leader own (fun empty => absurd empty present))
  | control connection driving time rate =>
      obtain ⟨clientId, known, decided⟩ := Option.map_eq_some_iff.1 performed
      rcases server.playback.applyControl_cases clientId driving (time.getD (.finite 0))
        (rate.getD (.finite 1)) with ⟨rejection, refused⟩ | ⟨driven, leads, kept, accepted⟩
      · rw [refused] at decided
        cases decided
        exact ⟨⟨fun changed => absurd rfl changed, rfl, fun _ _ => rfl⟩, named⟩
      · rw [accepted] at decided
        cases decided
        refine ⟨⟨fun _ => ?_, kept, nofun⟩, ?_⟩
        · exact PlaybackState.leaderClientId_of_leader leads
            (fun empty => condition (known.trans (congrArg some empty)))
        · exact fun same => named (kept.symm.trans same)
  | failedSend connection =>
      obtain ⟨clientId, -, decided⟩ := Option.map_eq_some_iff.1 performed
      cases decided
      exact release_lawful named clientId
  | disconnect connection =>
      obtain ⟨clientId, -, decided⟩ := Option.map_eq_some_iff.1 performed
      cases decided
      exact release_lawful named clientId

/-! ### Whole runs -/

/-- Those who were told that they lead are the leader that the state names. -/
theorem leading_length_le {actions : List PlaybackAction} :
    ∀ {server : PlaybackServer}, server.playback.NamedLeader →
      Machine.StepsMeet step NamedControl server actions →
      (server.leading actions server.playback.leaderClientId.toList).length ≤ 1 := by
  induction actions with
  | nil =>
      intro server _ _
      exact Option.length_toList_le
  | cons action actions ih =>
      intro server named meets
      unfold leading
      cases performed : server.perform action with
      | none => exact Option.length_toList_le
      | some decision =>
          obtain ⟨outcome, next⟩ := decision
          obtain ⟨lawful, namedNext⟩ := perform_lawful named meets.1 performed
          have stepped : server.step action = some next :=
            congrArg (Option.map Prod.snd) performed
          have later := ih namedNext (meets.2 next stepped)
          cases outcome with
          | admitted =>
              have same : next.playback = server.playback := lawful
              rw [same] at later
              exact later
          | claimed clientId granted leader =>
              cases granted with
              | false =>
                  rw [lawful.2 rfl] at later
                  exact later
              | true =>
                  obtain ⟨free, leads⟩ := lawful.1 rfl
                  rw [leads] at later
                  rcases free with vacant | own
                  · rw [vacant]
                    exact later
                  · rw [own]
                    simpa using later
          | controlled clientId result leader =>
              rw [lawful.2.1] at later
              exact later
          | released clientId wasLeader =>
              cases wasLeader with
              | false =>
                  have same : next.playback = server.playback := lawful.2
                  rw [same] at later
                  exact later
              | true =>
                  have vacant : next.playback = { server.playback with leaderClientId := none } :=
                    lawful.2
                  rw [vacant] at later
                  rw [lawful.1 rfl]
                  simpa using later

theorem step_named {server next : PlaybackServer} {action : PlaybackAction}
    (named : server.playback.NamedLeader) (condition : server.NamedControl action)
    (stepped : server.step action = some next) : next.playback.NamedLeader := by
  obtain ⟨outcome, performed⟩ := step_eq_some stepped
  exact (perform_lawful named condition performed).2

/-- In every run in which no connection without a client id drives the playhead while nobody leads,
every decision is lawful and at most one client leads. -/
theorem leadership_of_namedControls (requireToken : Bool) (actions : List PlaybackAction)
    (meets : Machine.StepsMeet step NamedControl (initial requireToken) actions) :
    Leadership (initial requireToken) actions := by
  have named : (initial requireToken).playback.NamedLeader := nofun
  refine ⟨?_, leading_length_le named meets⟩
  rintro earlier action later reached outcome next rfl ran performed
  have namedReached : reached.playback.NamedLeader :=
    Machine.run_preserves (fun _ _ _ => step_named) earlier _ _ named meets.first ran
  exact (perform_lawful namedReached (meets.rest ran).1 performed).1

/-- An emitter claims the role, drives the playhead and leaves; another takes over. -/
theorem leadership_handover :
    Leadership (initial false)
      [.hello 0 .emitter "first", .claim 0 none, .control 0 "play" none none,
        .hello 1 .emitter "second", .claim 1 none, .disconnect 0, .claim 1 none] :=
  leadership_of_namedControls false _ (by decide)

/-- A receiver that connects without a client id starts the playback that nobody leads. -/
theorem not_leadership_anonymousControl :
    ¬ Leadership (initial false) [.hello 0 .receiver "", .control 0 "play" none none] := by
  intro law
  have lawful := law.1 [.hello 0 .receiver ""] (.control 0 "play" none none) [] _ _ _ rfl rfl rfl
  have playing : true = false := congrArg PlaybackState.playing (not_imp_comm.1 lawful.1 nofun)
  cases playing

end PlaybackServer

end UsdConnect
