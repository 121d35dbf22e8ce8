/-
Purpose: Moving the entries of a finite map to other keys, one after another: the order does not
  matter as long as no entry moves to a key that is itself to be moved.
Trusted boundary: none
Main exports: Relocation.move, Relocation.moveAll, Relocation.moveAll_congr
-/
import Mathlib.Logic.Function.Basic

namespace UsdConnect.Relocation

variable {Key Value : Type} [DecidableEq Key]

/-- Take the entry of a key out, and put it under the key that it moves to, if it moves. -/
def move (target : Key → Option Key) (map : Key → Option Value) (key : Key) : Key → Option Value :=
  let rest := Function.update map key none
  match map key, target key with
  | some value, some new => Function.update rest new (some value)
  | _, _ => rest

/-- The keys of a set move out of it, one key each, or stay where they are, or are dropped. -/
inductive Apart (target : Key → Option Key) (within : Key → Prop) : Prop
  | dropped (none : ∀ key, within key → target key = none)
  | kept (same : ∀ key, within key → target key = some key)
  | moved (new : Key → Key) (is : ∀ key, within key → target key = some (new key))
      (out : ∀ key, within key → ¬ within (new key))
      (injective : ∀ key other, within key → within other → new key = new other → key = other)

variable {target : Key → Option Key} {within : Key → Prop}

theorem move_dropped {key : Key} (none : target key = none) (map : Key → Option Value) :
    move target map key = Function.update map key .none := by
  unfold move
  rw [none]
  cases map key <;> rfl

/-- What is under another key after one move. -/
theorem move_moved {key new : Key} (is : target key = some new) (map : Key → Option Value)
    (other : Key) :
    move target map key other =
      if other = new then (map key).or (if other = key then none else map other)
      else if other = key then none else map other := by
  unfold move
  rw [is]
  cases map key with
  | none =>
      rw [Option.none_or, ite_self]
      exact Function.update_apply ..
  | some value =>
      rw [Option.some_or]
      dsimp only
      rw [Function.update_apply, Function.update_apply]

theorem move_kept {key : Key} (same : target key = some key) (map : Key → Option Value) :
    move target map key = map := by
  funext other
  rw [move_moved same]
  by_cases own : other = key
  · rw [if_pos own, if_pos own, Option.or_none, own]
  · rw [if_neg own, if_neg own]

/-- A map after its entries at some keys were moved. -/
def moveAll (target : Key → Option Key) (map : Key → Option Value) (keys : List Key) :
    Key → Option Value :=
  keys.foldl (move target) map

theorem moveAll_dropped {keys : List Key} (none : ∀ key ∈ keys, target key = none) (other : Key) :
    ∀ map : Key → Option Value,
      moveAll target map keys other = if other ∈ keys then .none else map other := by
  induction keys with
  | nil => exact fun _ => rfl
  | cons key keys ih =>
      intro map
      refine (ih (fun later member => none later (List.mem_cons_of_mem _ member)) _).trans ?_
      rw [move_dropped (none key List.mem_cons_self), Function.update_apply]
      by_cases own : other = key
      · simp [own]
      · simp [own]

theorem moveAll_kept {keys : List Key} (same : ∀ key ∈ keys, target key = some key) :
    ∀ map : Key → Option Value, moveAll target map keys = map := by
  induction keys with
  | nil => exact fun _ => rfl
  | cons key keys ih =>
      intro map
      refine (ih (fun later member => same later (List.mem_cons_of_mem _ member)) _).trans ?_
      exact move_kept (same key List.mem_cons_self) map

/-! ### Keys that move out of their set -/

section Moved

variable {new : Key → Key} {keys : List Key}

/-- In the set, what was moved is gone. -/
theorem moveAll_within (is : ∀ key, within key → target key = some (new key))
    (out : ∀ key, within key → ¬ within (new key)) (inside : ∀ key ∈ keys, within key) {other : Key}
    (member : within other) :
    ∀ map : Key → Option Value,
      moveAll target map keys other = if other ∈ keys then none else map other := by
  induction keys with
  | nil => exact fun _ => rfl
  | cons key keys ih =>
      intro map
      refine (ih (fun later after => inside later (List.mem_cons_of_mem _ after)) _).trans ?_
      have keyWithin := inside key List.mem_cons_self
      have apart : other ≠ new key := fun same => out key keyWithin (same ▸ member)
      rw [move_moved (is key keyWithin), if_neg apart]
      by_cases own : other = key
      · simp [own]
      · simp [own]

/-- At the place that a key of the set moves to, its entry replaces what was there. -/
theorem moveAll_new (is : ∀ key, within key → target key = some (new key))
    (out : ∀ key, within key → ¬ within (new key))
    (injective : ∀ key other, within key → within other → new key = new other → key = other)
    (inside : ∀ key ∈ keys, within key) {source : Key} (member : within source) :
    ∀ map : Key → Option Value,
      moveAll target map keys (new source) =
        if source ∈ keys then (map source).or (map (new source)) else map (new source) := by
  induction keys with
  | nil => exact fun _ => rfl
  | cons key keys ih =>
      intro map
      refine (ih (fun later after => inside later (List.mem_cons_of_mem _ after)) _).trans ?_
      have keyWithin := inside key List.mem_cons_self
      have apart : source ≠ new key := fun same => out key keyWithin (same ▸ member)
      have newApart : new source ≠ key := fun same => out source member (same.symm ▸ keyWithin)
      rw [move_moved (is key keyWithin), move_moved (is key keyWithin), if_neg apart,
        if_neg newApart]
      by_cases own : source = key
      · subst own
        simp
      · have elsewhere : new source ≠ new key := fun same =>
          own (injective source key member keyWithin same)
        simp [own, elsewhere]

/-- Elsewhere nothing changes. -/
theorem moveAll_elsewhere (is : ∀ key, within key → target key = some (new key))
    (inside : ∀ key ∈ keys, within key) {other : Key} (outside : ¬ within other)
    (unreached : ∀ key, within key → other ≠ new key) :
    ∀ map : Key → Option Value, moveAll target map keys other = map other := by
  induction keys with
  | nil => exact fun _ => rfl
  | cons key keys ih =>
      intro map
      refine (ih (fun later after => inside later (List.mem_cons_of_mem _ after)) _).trans ?_
      have keyWithin := inside key List.mem_cons_self
      have apart : other ≠ key := fun same => outside (same ▸ keyWithin)
      rw [move_moved (is key keyWithin), if_neg (unreached key keyWithin), if_neg apart]

end Moved

/-- Two lists of keys of the set with the same entries under them move the map to the same one. -/
theorem moveAll_congr (apart : Apart target within) {map : Key → Option Value}
    {keys others : List Key} (inside : ∀ key ∈ keys, within key)
    (othersInside : ∀ key ∈ others, within key)
    (same : ∀ key, map key ≠ none → (key ∈ keys ↔ key ∈ others)) :
    moveAll target map keys = moveAll target map others := by
  have gone : ∀ key, (if key ∈ keys then none else map key) =
      if key ∈ others then none else map key := by
    intro key
    by_cases absent : map key = none
    · rw [absent, ite_self, ite_self]
    · rw [if_congr (same key absent) rfl rfl]
  cases apart with
  | dropped none =>
      funext key
      rw [moveAll_dropped fun key member => none key (inside key member),
        moveAll_dropped fun key member => none key (othersInside key member)]
      exact gone key
  | kept stay =>
      rw [moveAll_kept fun key member => stay key (inside key member),
        moveAll_kept fun key member => stay key (othersInside key member)]
  | moved new is out injective =>
      funext key
      by_cases member : within key
      · rw [moveAll_within is out inside member, moveAll_within is out othersInside member]
        exact gone key
      by_cases reached : ∃ source, within source ∧ key = new source
      · obtain ⟨source, sourceWithin, rfl⟩ := reached
        rw [moveAll_new is out injective inside sourceWithin,
          moveAll_new is out injective othersInside sourceWithin]
        by_cases absent : map source = none
        · rw [absent, Option.none_or, ite_self, ite_self]
        · rw [if_congr (same source absent) rfl rfl]
      · have unreached : ∀ source, within source → key ≠ new source :=
          fun source sourceWithin equal => reached ⟨source, sourceWithin, equal⟩
        rw [moveAll_elsewhere is inside member unreached,
          moveAll_elsewhere is othersInside member unreached]

end UsdConnect.Relocation
