/-
Purpose: A list sorted into buckets by a key, the buckets in a given order and each in the list's own
  order.
Trusted boundary: none
Main exports: bucketed, filter_bucketed, bucketed_bucketed, bucketed_congr, bucketed_perm
-/
import Mathlib.Data.List.Nodup
import Mathlib.Data.List.Perm.Basic

namespace UsdConnect

variable {Item Other Key : Type} [DecidableEq Key]

/-- The items with each of the keys, one key after the other. -/
def bucketed (key : Item → Key) (keys : List Key) (items : List Item) : List Item :=
  keys.flatMap fun wanted => items.filter fun item => key item = wanted

theorem filter_bucketed {key : Item → Key} {keys : List Key} (distinct : keys.Nodup) {wanted : Key}
    (listed : wanted ∈ keys) (items : List Item) :
    (bucketed key keys items).filter (fun item => key item = wanted) =
      items.filter fun item => key item = wanted := by
  have same : ∀ other, (items.filter fun item => key item = other).filter
      (fun item => key item = wanted) =
        if other = wanted then items.filter fun item => key item = wanted else [] := by
    intro other
    rw [List.filter_filter]
    split
    · next here =>
        rw [here]
        apply List.filter_congr
        intro item _
        exact Bool.and_self _
    · next away =>
        rw [List.filter_eq_nil_iff]
        intro item _ both
        have keysOf := Bool.and_eq_true_iff.1 both
        exact away ((of_decide_eq_true keysOf.2).symm.trans (of_decide_eq_true keysOf.1))
  unfold bucketed
  rw [List.filter_flatMap]
  simp only [same]
  induction keys with
  | nil => cases listed
  | cons first rest ih =>
      obtain ⟨fresh, apart⟩ := List.nodup_cons.1 distinct
      rw [List.flatMap_cons]
      rcases List.mem_cons.1 listed with rfl | later
      · have others : (rest.flatMap fun other => if other = wanted then
            items.filter fun item => key item = wanted else []) = [] := by
          rw [List.flatMap_eq_nil_iff]
          intro other member
          apply if_neg
          rintro rfl
          exact fresh member
        rw [if_pos rfl, others, List.append_nil]
      · have away : first ≠ wanted := by
          rintro rfl
          exact fresh later
        rw [if_neg away, List.nil_append, ih apart later]

theorem bucketed_congr {key : Item → Key} {keys : List Key} {items others : List Item}
    (same : ∀ wanted ∈ keys, items.filter (fun item => key item = wanted) =
      others.filter fun item => key item = wanted) :
    bucketed key keys items = bucketed key keys others :=
  List.flatMap_congr same

/-- A sorted list is left as it is. -/
theorem bucketed_bucketed {key : Item → Key} {keys : List Key} (distinct : keys.Nodup)
    (items : List Item) : bucketed key keys (bucketed key keys items) = bucketed key keys items :=
  bucketed_congr fun _ listed => filter_bucketed distinct listed items

/-- Sorting loses nothing whose key is listed. -/
theorem bucketed_perm {key : Item → Key} {keys : List Key} (distinct : keys.Nodup)
    {items : List Item} (listed : ∀ item ∈ items, key item ∈ keys) :
    (bucketed key keys items).Perm items := by
  induction items with
  | nil =>
      unfold bucketed
      simp
  | cons item rest ih =>
      have later := ih fun other member => listed other (List.mem_cons_of_mem item member)
      refine List.Perm.trans ?_ (later.cons item)
      have here := listed item List.mem_cons_self
      clear listed later ih
      unfold bucketed
      induction keys with
      | nil => cases here
      | cons first others ih =>
          obtain ⟨fresh, apart⟩ := List.nodup_cons.1 distinct
          rw [List.flatMap_cons, List.flatMap_cons, List.filter_cons]
          by_cases same : key item = first
          · have kept : others.flatMap (fun wanted =>
                (item :: rest).filter fun other => key other = wanted) =
                others.flatMap fun wanted => rest.filter fun other => key other = wanted := by
              apply List.flatMap_congr
              intro wanted member
              rw [List.filter_cons, if_neg]
              rw [decide_eq_true_iff, same]
              rintro rfl
              exact fresh member
            rw [if_pos (decide_eq_true same), kept]
            rfl
          · rw [if_neg (by rwa [decide_eq_true_iff])]
            have inside := (List.mem_cons.1 here).resolve_left same
            exact ((ih apart inside).append_left _).trans List.perm_middle

/-- Sorting commutes with a map that keeps the keys. -/
theorem map_bucketed {key : Item → Key} {newKey : Other → Key} {change : Item → Other}
    {keys : List Key} {items : List Item} (kept : ∀ item ∈ items, newKey (change item) = key item) :
    (bucketed key keys items).map change = bucketed newKey keys (items.map change) := by
  unfold bucketed
  rw [List.map_flatMap]
  apply List.flatMap_congr
  intro wanted _
  rw [List.filter_map]
  congr 1
  apply List.filter_congr
  intro item member
  dsimp only [Function.comp]
  rw [kept item member]

end UsdConnect
