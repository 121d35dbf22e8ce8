/-
Purpose: Runs of a machine given by a partial step function, and the induction rule for properties
  that its steps keep, all of them or those that meet a condition.
Trusted boundary: none
Main exports: Machine.run, Machine.StepsMeet, Machine.run_preserves
-/
import Mathlib.Data.Option.Basic

namespace UsdConnect.Machine

variable {State Action : Type} {step : State → Action → Option State}

/-- Take the actions one after another; `none` when one of them cannot happen. -/
def run (step : State → Action → Option State) : State → List Action → Option State
  | state, [] => some state
  | state, action :: actions => (step state action).bind fun next => run step next actions

/-- Every step of the run meets a condition on its action and the state before it. -/
def StepsMeet (step : State → Action → Option State) (condition : State → Action → Prop) :
    State → List Action → Prop
  | _, [] => True
  | state, action :: actions =>
      condition state action ∧
        ∀ next, step state action = some next → StepsMeet step condition next actions

theorem stepsMeet_cons {condition : State → Action → Prop} {state next : State} {action : Action}
    {actions : List Action} (meets : condition state action)
    (stepped : step state action = some next) (rest : StepsMeet step condition next actions) :
    StepsMeet step condition state (action :: actions) := by
  refine ⟨meets, ?_⟩
  intro other otherStepped
  cases stepped.symm.trans otherStepped
  exact rest

/-- Whether the steps of a given run meet a condition can be computed. -/
instance decidableStepsMeet {condition : State → Action → Prop}
    [∀ state action, Decidable (condition state action)] :
    ∀ (actions : List Action) (state : State), Decidable (StepsMeet step condition state actions)
  | [], _ => .isTrue trivial
  | action :: actions, state =>
      match stepped : step state action with
      | none =>
          decidable_of_iff (condition state action)
            ⟨fun meets => ⟨meets, fun next found => by rw [stepped] at found; cases found⟩,
              And.left⟩
      | some next =>
          have : Decidable (StepsMeet step condition next actions) :=
            decidableStepsMeet actions next
          decidable_of_iff (condition state action ∧ StepsMeet step condition next actions)
            ⟨fun both => stepsMeet_cons both.1 stepped both.2,
              fun meets => ⟨meets.1, meets.2 next stepped⟩⟩

theorem StepsMeet.first {condition : State → Action → Prop} {actions rest : List Action} :
    ∀ {state : State}, StepsMeet step condition state (actions ++ rest) →
      StepsMeet step condition state actions := by
  induction actions with
  | nil =>
      intro state _
      exact trivial
  | cons action actions ih =>
      intro state meets
      exact ⟨meets.1, fun next stepped => ih (meets.2 next stepped)⟩

theorem StepsMeet.and {first second : State → Action → Prop} {actions : List Action} :
    ∀ {state : State}, StepsMeet step first state actions → StepsMeet step second state actions →
      StepsMeet step (fun state action => first state action ∧ second state action) state
        actions := by
  induction actions with
  | nil =>
      intro state _ _
      exact trivial
  | cons action actions ih =>
      intro state one two
      exact ⟨⟨one.1, two.1⟩, fun next stepped => ih (one.2 next stepped) (two.2 next stepped)⟩

theorem StepsMeet.rest {condition : State → Action → Prop} {actions rest : List Action} :
    ∀ {state reached : State}, StepsMeet step condition state (actions ++ rest) →
      run step state actions = some reached → StepsMeet step condition reached rest := by
  induction actions with
  | nil =>
      intro state reached meets ran
      cases ran
      exact meets
  | cons action actions ih =>
      intro state reached meets ran
      obtain ⟨next, stepped, later⟩ := Option.bind_eq_some_iff.1 ran
      exact ih (meets.2 next stepped) later

/-- The steps of a run meet what each of them meets in the state that the earlier ones reach. -/
theorem stepsMeet_of_forall {condition : State → Action → Prop} {actions : List Action} :
    ∀ {state : State},
      (∀ earlier action later reached, actions = earlier ++ action :: later →
        run step state earlier = some reached → condition reached action) →
      StepsMeet step condition state actions := by
  induction actions with
  | nil =>
      intro state _
      exact trivial
  | cons action actions ih =>
      intro state each
      refine ⟨each [] action actions state rfl rfl, fun next stepped => ih ?_⟩
      rintro earlier other later reached rfl ran
      exact each (action :: earlier) other later reached rfl
        (Option.bind_eq_some_iff.2 ⟨next, stepped, ran⟩)

theorem run_append (earlier later : List Action) :
    ∀ state : State, run step state (earlier ++ later) =
      (run step state earlier).bind fun reached => run step reached later := by
  induction earlier with
  | nil => exact fun _ => rfl
  | cons action earlier ih =>
      intro state
      simp only [List.cons_append, run, ih, Option.bind_assoc]

/-- A property that every step meeting the condition keeps holds at the end of every run whose
steps meet it. -/
theorem run_preserves {condition : State → Action → Prop} {invariant : State → Prop}
    (preserved : ∀ state action next, invariant state → condition state action →
      step state action = some next → invariant next) :
    ∀ (actions : List Action) (state final : State), invariant state →
      StepsMeet step condition state actions → run step state actions = some final →
      invariant final := by
  intro actions
  induction actions with
  | nil =>
      intro state final holds _ ran
      cases ran
      exact holds
  | cons action actions ih =>
      intro state final holds meets ran
      obtain ⟨next, stepped, rest⟩ := Option.bind_eq_some_iff.1 ran
      exact ih next final (preserved state action next holds meets.1 stepped)
        (meets.2 next stepped) rest

/-- The rule without a condition. -/
theorem run_invariant {invariant : State → Prop}
    (preserved : ∀ state action next, invariant state → step state action = some next →
      invariant next)
    {actions : List Action} {state final : State} (holds : invariant state)
    (ran : run step state actions = some final) : invariant final := by
  induction actions generalizing state with
  | nil =>
      cases ran
      exact holds
  | cons action actions ih =>
      obtain ⟨next, stepped, rest⟩ := Option.bind_eq_some_iff.1 ran
      exact ih (preserved state action next holds stepped) rest

end UsdConnect.Machine
