/-
Purpose: A sender that collects a stream into batches and lets an item take the place of the one before
  it: when the receiver cannot tell.
Trusted boundary: none
Main exports: addItem, coalesceLoop, Absorption, Absorption.foldl_coalesceLoop
-/
import Mathlib.Data.List.Basic

namespace UsdConnect

variable {Item State : Type}

/-! ### The sender -/

/-- Append an item to a batch; it replaces the last one it absorbs. -/
def addItem (absorbs : Item → Item → Bool) (batch : List Item) (item : Item) : List Item :=
  match batch.getLast? with
  | some last => if absorbs last item then batch.dropLast ++ [item] else batch ++ [item]
  | none => [item]

/-- Everything a batching loop sends for a stream.  Each item comes with whether the queue was found
empty behind it; a batch ends there, at the limit, and with the stream. -/
def coalesceLoop (absorbs : Item → Item → Bool) (limit : Nat) :
    List Item → Nat → List (Item × Bool) → List Item
  | batch, _, [] => batch
  | batch, processed, (item, paused) :: rest =>
      if limit ≤ processed + 1 ∨ paused = true then
        addItem absorbs batch item ++ coalesceLoop absorbs limit [] 0 rest
      else coalesceLoop absorbs limit (addItem absorbs batch item) (processed + 1) rest

/-! ### The receiver -/

/-- Skipping absorbed items is invisible to a receiver on the streams that fit its state. -/
structure Absorption (step : State → Item → State) (absorbs : Item → Item → Bool)
    (Fits : State → List Item → Prop) : Prop where
  advance : ∀ state item rest, Fits state (item :: rest) → Fits (step state item) rest
  absorb : ∀ state first second rest, absorbs first second = true →
    Fits state (first :: second :: rest) → step (step state first) second = step state second
  skip : ∀ state earlier first second rest, absorbs first second = true →
    Fits state (earlier ++ first :: second :: rest) → Fits state (earlier ++ second :: rest)

namespace Absorption

variable {step : State → Item → State} {absorbs : Item → Item → Bool}
  {Fits : State → List Item → Prop}

theorem advance_all (absorption : Absorption step absorbs Fits) {state : State}
    {earlier later : List Item} (fits : Fits state (earlier ++ later)) :
    Fits (earlier.foldl step state) later := by
  induction earlier generalizing state with
  | nil => exact fits
  | cons item rest ih => exact ih (absorption.advance state item _ fits)

/-- One more item in the batch, behind what was sent before. -/
theorem foldl_addItem (absorption : Absorption step absorbs Fits) {state : State}
    {sent batch later : List Item} {item : Item}
    (fits : Fits state (sent ++ (batch ++ item :: later))) :
    Fits state (sent ++ (addItem absorbs batch item ++ later)) ∧
      (sent ++ (addItem absorbs batch item ++ later)).foldl step state =
        (sent ++ (batch ++ item :: later)).foldl step state := by
  cases ends : batch.getLast? with
  | none =>
      rw [List.getLast?_eq_none_iff] at ends
      subst ends
      exact ⟨fits, rfl⟩
  | some last =>
      obtain ⟨earlier, rfl⟩ := List.getLast?_eq_some_iff.1 ends
      cases absorbed : absorbs last item with
      | false =>
          have kept : addItem absorbs (earlier ++ [last]) item = earlier ++ [last] ++ [item] := by
            unfold addItem
            rw [ends]
            exact if_neg (by rw [absorbed]; exact Bool.false_ne_true)
          rw [kept, List.append_assoc _ [item], List.singleton_append]
          exact ⟨fits, rfl⟩
      | true =>
          have replaced : addItem absorbs (earlier ++ [last]) item = earlier ++ [item] := by
            unfold addItem
            rw [ends, List.dropLast_concat]
            exact if_pos absorbed
          rw [List.append_assoc, List.singleton_append, ← List.append_assoc] at fits
          rw [replaced, List.append_assoc, List.singleton_append, List.append_assoc,
            List.singleton_append, ← List.append_assoc, ← List.append_assoc]
          refine ⟨absorption.skip state _ last item later absorbed fits, ?_⟩
          have here := absorption.advance_all fits
          have split : ∀ tail, (sent ++ earlier ++ tail).foldl step state =
              tail.foldl step ((sent ++ earlier).foldl step state) := fun tail => List.foldl_append
          rw [split, split, List.foldl_cons, List.foldl_cons, List.foldl_cons,
            absorption.absorb _ last item later absorbed here]

/-- Whatever the limit and wherever the queue runs empty, the receiver ends up as if it had been sent
every item, and what it is sent fits it. -/
theorem foldl_coalesceLoop (absorption : Absorption step absorbs Fits) (limit : Nat) {state : State}
    {sent batch later : List Item} {processed : Nat} {marked : List (Item × Bool)}
    (fits : Fits state (sent ++ (batch ++ (marked.map (·.1) ++ later)))) :
    Fits state (sent ++ (coalesceLoop absorbs limit batch processed marked ++ later)) ∧
      (sent ++ (coalesceLoop absorbs limit batch processed marked ++ later)).foldl step state =
        (sent ++ (batch ++ (marked.map (·.1) ++ later))).foldl step state := by
  induction marked generalizing sent batch processed with
  | nil => exact ⟨fits, rfl⟩
  | cons entry rest ih =>
      obtain ⟨item, paused⟩ := entry
      rw [List.map_cons, List.cons_append] at fits ⊢
      obtain ⟨added, same⟩ := absorption.foldl_addItem fits
      rw [← same]
      unfold coalesceLoop
      split
      · rw [← List.append_assoc] at added
        have next := @ih _ [] 0 added
        simpa only [List.append_assoc, List.nil_append] using next
      · exact ih added

end Absorption

end UsdConnect
