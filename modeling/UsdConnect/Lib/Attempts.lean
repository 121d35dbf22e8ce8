/-
Purpose: Runs of a step over a list in which nothing is raised, what a change of the state that no step
  notices leaves of them, and what they keep.
Trusted boundary: none
Main exports: Runs, Runs.map, Runs.kept
-/
import Mathlib.Logic.Basic

namespace UsdConnect

variable {State Item Result Error : Type}

/-- A step for each item of a list, none of which raises, and the results in order. -/
inductive Runs (step : State → Item → State × Except Error Result) :
    State → List Item → State → List Result → Prop where
  | nil {state : State} : Runs step state [] state []
  | cons {state middle after : State} {item : Item} {rest : List Item} {result : Result}
      {later : List Result} (head : step state item = (middle, .ok result))
      (tail : Runs step middle rest after later) :
      Runs step state (item :: rest) after (result :: later)

variable {step : State → Item → State × Except Error Result} {state after : State}
  {items : List Item} {results : List Result}

/-- A change of the state that no step notices. -/
theorem Runs.map (change : State → State)
    (unnoticed : ∀ {state item after result}, step state item = (after, .ok result) →
      step (change state) item = (change after, .ok result))
    (runs : Runs step state items after results) :
    Runs step (change state) items (change after) results := by
  induction runs with
  | nil => exact .nil
  | cons head tail ih => exact .cons (unnoticed head) ih

/-- What every step keeps, the run keeps. -/
theorem Runs.kept {View : Type} (view : State → View)
    (keeps : ∀ {state item after result}, item ∈ items → step state item = (after, .ok result) →
      view after = view state) (runs : Runs step state items after results) :
    view after = view state := by
  induction runs with
  | nil => rfl
  | cons head tail ih =>
      rw [ih fun member => keeps (List.mem_cons_of_mem _ member)]
      exact keeps List.mem_cons_self head

end UsdConnect
