/-
Purpose: Lists arranged by the rank of their items, stably: the arrangement is unique, insertion
  sort and concatenated classes make it, and when two of them stand one after the other.
Trusted boundary: none
Main exports: Arranged, arranged_insertionSort, arranged_split, inSegments_append_iff
-/
import Mathlib.Data.List.DropRight
import Mathlib.Data.List.Sort

namespace UsdConnect

variable {α β : Type} [LinearOrder β]

/-- The items of a list by rank, those of one rank as they stood. -/
structure Arranged (rank : α → β) (items arranged : List α) : Prop where
  ordered : arranged.Pairwise fun first second => rank first ≤ rank second
  stable : ∀ value, (arranged.filter fun item => rank item = value) =
    items.filter fun item => rank item = value

namespace Arranged

variable {rank : α → β} {items others first second : List α}

/-- An item is in a list when it is among those of its own rank. -/
theorem mem_filter_rank (rank : α → β) {item : α} :
    item ∈ (items.filter fun other => rank other = rank item) ↔ item ∈ items := by
  simp

theorem mem_congr {item : α} (alike : ∀ value, (first.filter fun item => rank item = value) =
    second.filter fun item => rank item = value) : item ∈ first ↔ item ∈ second := by
  rw [← mem_filter_rank rank, alike, mem_filter_rank]

theorem mem_iff (arranged : Arranged rank items first) {item : α} : item ∈ first ↔ item ∈ items :=
  mem_congr arranged.stable

/-- Two ordered lists whose items of each rank stand alike are equal. -/
theorem eq_of_ordered (one : first.Pairwise fun item other => rank item ≤ rank other)
    (two : second.Pairwise fun item other => rank item ≤ rank other)
    (alike : ∀ value, (first.filter fun item => rank item = value) =
      second.filter fun item => rank item = value) : first = second := by
  induction first generalizing second with
  | nil =>
      symm
      rw [List.eq_nil_iff_forall_not_mem]
      intro item member
      exact List.not_mem_nil ((mem_congr alike).2 member)
  | cons head tail ih =>
      cases second with
      | nil => exact absurd ((mem_congr alike).1 List.mem_cons_self) List.not_mem_nil
      | cons other rest =>
          -- both heads have the least rank
          have least : rank head = rank other := by
            apply le_antisymm
            · rcases List.mem_cons.1 ((mem_congr alike).2 List.mem_cons_self) with same | later
              · rw [same]
              · exact List.rel_of_pairwise_cons one later
            · rcases List.mem_cons.1 ((mem_congr alike).1 List.mem_cons_self) with same | later
              · rw [same]
              · exact List.rel_of_pairwise_cons two later
          have heads := alike (rank head)
          rw [List.filter_cons_of_pos (by simp), List.filter_cons_of_pos (by simp [least])] at heads
          obtain ⟨rfl, _⟩ := List.cons.inj heads
          have tails : ∀ value, (tail.filter fun item => rank item = value) =
              rest.filter fun item => rank item = value := by
            intro value
            have whole := alike value
            simp only [List.filter_cons] at whole
            split at whole
            · exact (List.cons.inj whole).2
            · exact whole
          rw [ih one.of_cons two.of_cons tails]

/-- There is one arrangement of a list. -/
theorem unique (one : Arranged rank items first) (two : Arranged rank items second) :
    first = second :=
  eq_of_ordered one.ordered two.ordered fun value => (one.stable value).trans (two.stable value).symm

/-- An arrangement has the items of its list. -/
theorem perm (arranged : Arranged rank items first) : first.Perm items := by
  classical
  rw [List.perm_iff_count]
  intro item
  have own : ∀ list : List α,
      (list.filter fun other => rank other = rank item).count item = list.count item :=
    fun list => List.count_filter (by simp)
  rw [← own first, ← own items, arranged.stable]

theorem self (ordered : items.Pairwise fun item other => rank item ≤ rank other) :
    Arranged rank items items :=
  ⟨ordered, fun _ => rfl⟩

/-- Arrangements of two lists one after the other, where no later item ranks below an earlier one. -/
theorem append (one : Arranged rank items first) (two : Arranged rank others second)
    (after : ∀ item ∈ items, ∀ other ∈ others, rank item ≤ rank other) :
    Arranged rank (items ++ others) (first ++ second) where
  ordered := by
    rw [List.pairwise_append]
    refine ⟨one.ordered, two.ordered, ?_⟩
    intro item member other later
    exact after item (one.mem_iff.1 member) other (two.mem_iff.1 later)
  stable := by
    intro value
    rw [List.filter_append, List.filter_append, one.stable, two.stable]

/-- The arrangement of a list in two parts is that of its parts exactly when the parts are in
order. -/
theorem append_eq_iff {whole : List α} (one : Arranged rank items first)
    (two : Arranged rank others second) (both : Arranged rank (items ++ others) whole) :
    whole = first ++ second ↔ ∀ item ∈ items, ∀ other ∈ others, rank item ≤ rank other := by
  constructor
  · intro same item member other later
    have ordered := both.ordered
    rw [same] at ordered
    exact (List.pairwise_append.1 ordered).2.2 item (one.mem_iff.2 member) other
      (two.mem_iff.2 later)
  · intro after
    exact both.unique (one.append two after)

end Arranged

variable {rank : α → β}

/-- Inserting before the items that rank as high keeps the items of each rank as they stood. -/
theorem filter_orderedInsert (item : α) (items : List α) (value : β) :
    ((items.orderedInsert (fun first second => rank first ≤ rank second) item).filter
      fun other => rank other = value) = (item :: items).filter fun other => rank other = value := by
  induction items with
  | nil => rfl
  | cons head tail ih =>
      rw [List.orderedInsert_cons]
      split
      · rfl
      · next above =>
          -- the head ranks below the item, so at most one of the two has the rank
          simp only [List.filter_cons, ih]
          by_cases here : rank head = value
          · have other : rank item ≠ value := by
              rw [← here]
              exact ne_of_gt (lt_of_not_ge above)
            simp [here, other]
          · simp [here]

theorem arranged_insertionSort (rank : α → β) (items : List α) : Arranged rank items
    (items.insertionSort fun first second => rank first ≤ rank second) where
  ordered := by
    have total : Std.Total fun first second : α => rank first ≤ rank second :=
      ⟨fun first second => le_total (rank first) (rank second)⟩
    have trans : IsTrans α fun first second => rank first ≤ rank second :=
      ⟨fun _ _ _ => le_trans⟩
    exact List.pairwise_insertionSort _ items
  stable := by
    intro value
    induction items with
    | nil => rfl
    | cons item rest ih =>
        rw [List.insertionSort_cons, filter_orderedInsert, List.filter_cons, List.filter_cons, ih]

/-- A list arranged in two classes, the first of which ranks below the second. -/
theorem arranged_split (test : α → Bool) {items first second : List α}
    (below : ∀ item other, test item = true → test other = false → rank item < rank other)
    (one : Arranged rank (items.filter test) first)
    (two : Arranged rank (items.filter fun item => !test item) second) :
    Arranged rank items (first ++ second) where
  ordered := by
    rw [List.pairwise_append]
    refine ⟨one.ordered, two.ordered, ?_⟩
    intro item member other later
    have inside := (List.mem_filter.1 (one.mem_iff.1 member)).2
    have outside := (List.mem_filter.1 (two.mem_iff.1 later)).2
    exact le_of_lt (below item other inside (by simpa using outside))
  stable := by
    intro value
    rw [List.filter_append, one.stable, two.stable, List.filter_filter, List.filter_filter]
    by_cases held : ∃ item, rank item = value ∧ test item = true
    · obtain ⟨witness, here, inside⟩ := held
      have all : ∀ item, rank item = value → test item = true := by
        intro item same
        by_contra away
        have ranks := below witness item inside (by simpa using away)
        rw [here, same] at ranks
        exact lt_irrefl _ ranks
      have none : (items.filter fun item => decide (rank item = value) && !test item) = [] := by
        simp only [List.filter_eq_nil_iff]
        intro item _
        simpa using all item
      rw [none, List.append_nil]
      apply List.filter_congr
      intro item _
      by_cases same : rank item = value
      · simp [same, all item same]
      · simp [same]
    · have none : (items.filter fun item => decide (rank item = value) && test item) = [] := by
        simp only [List.filter_eq_nil_iff]
        intro item _ both
        exact held ⟨item, by simpa using both⟩
      rw [none, List.nil_append]
      apply List.filter_congr
      intro item _
      by_cases same : rank item = value
      · have outside : test item = false := by
          by_contra inside
          exact held ⟨item, same, by simpa using inside⟩
        simp [same, outside]
      · simp [same]

/-- A list arranged tier by tier, where a lower tier ranks below a higher one. -/
theorem arranged_tiers {tier : α → Nat} {items : List α} {lists : Nat → List α}
    (below : ∀ item other, tier item < tier other → rank item < rank other)
    (each : ∀ level, Arranged rank (items.filter fun item => tier item = level) (lists level))
    (count : Nat) : Arranged rank (items.filter fun item => tier item < count)
      ((List.range count).flatMap lists) := by
  induction count with
  | zero =>
      have none : Arranged rank [] [] := .self .nil
      simpa using none
  | succ count ih =>
      rw [List.range_succ, List.flatMap_append, List.flatMap_singleton]
      apply arranged_split fun item => tier item < count
      · intro item other lower higher
        apply below
        simp only [decide_eq_true_eq, decide_eq_false_iff_not] at lower higher
        omega
      · have lower : ((items.filter fun item => tier item < count + 1).filter fun item =>
            tier item < count) = items.filter fun item => tier item < count := by
          rw [List.filter_filter]
          apply List.filter_congr
          intro item _
          rw [← Bool.decide_and]
          exact decide_eq_decide.2 (by omega)
        rwa [lower]
      · have level : ((items.filter fun item => tier item < count + 1).filter fun item =>
            !decide (tier item < count)) = items.filter fun item => tier item = count := by
          rw [List.filter_filter]
          apply List.filter_congr
          intro item _
          rw [← decide_not, ← Bool.decide_and]
          exact decide_eq_decide.2 (by omega)
        rw [level]
        exact each count

/-! ### Segments between barriers -/

section Segments

variable (barrier keep : α → Bool) (order : List α → List α)

/-- What is kept of a list: barriers where they stand and the segments between them in order. -/
def inSegments : List α → List α → List α
  | segment, [] => order segment
  | segment, item :: rest =>
      if barrier item then order segment ++ [item].filter keep ++ inSegments [] rest
      else inSegments (segment ++ [item].filter keep) rest

/-- What is kept after the last barrier. -/
def lastSegment (items : List α) : List α :=
  (items.rtakeWhile fun item => !barrier item).filter keep

/-- What is kept before the first barrier. -/
def firstSegment (items : List α) : List α :=
  (items.takeWhile fun item => !barrier item).filter keep

/-- No item of the segment after the cut ranks below one of the segment before it. -/
def CutFits (rank : α → β) (before after : List α) : Prop :=
  ∀ first ∈ lastSegment barrier keep before, ∀ second ∈ firstSegment barrier keep after,
    rank first ≤ rank second

/-- From a collected segment on: the segment up to the next barrier, and the rest. -/
theorem inSegments_firstSegment (items : List α) : ∃ rest, ∀ segment,
    inSegments barrier keep order segment items =
      order (segment ++ firstSegment barrier keep items) ++ rest := by
  induction items with
  | nil => exact ⟨[], fun segment => by simp [inSegments, firstSegment]⟩
  | cons item items ih =>
      cases stays : barrier item with
      | true =>
          refine ⟨[item].filter keep ++ inSegments barrier keep order [] items, fun segment => ?_⟩
          simp [inSegments, firstSegment, stays]
      | false =>
          obtain ⟨rest, collected⟩ := ih
          refine ⟨rest, fun segment => ?_⟩
          rw [inSegments, if_neg (by simp [stays]), collected, List.append_assoc]
          simp only [firstSegment, List.takeWhile_cons, stays, Bool.not_false, if_true]
          rw [← List.filter_append, List.singleton_append]

/-- What has been collected where the first part of a list ends. -/
theorem inSegments_lastSegment (before : List α) : ∃ sooner, ∀ after,
    inSegments barrier keep order [] (before ++ after) =
      sooner ++ inSegments barrier keep order (lastSegment barrier keep before) after := by
  induction before using List.reverseRecOn with
  | nil => exact ⟨[], fun after => rfl⟩
  | append_singleton before item ih =>
      obtain ⟨sooner, collected⟩ := ih
      cases stays : barrier item with
      | true =>
          refine ⟨sooner ++ (order (lastSegment barrier keep before) ++ [item].filter keep),
            fun after => ?_⟩
          rw [List.append_assoc, collected, List.singleton_append, inSegments, if_pos stays]
          simp [lastSegment, stays]
      | false =>
          refine ⟨sooner, fun after => ?_⟩
          rw [List.append_assoc, collected, List.singleton_append, inSegments,
            if_neg (by simp [stays])]
          simp [lastSegment, stays]

variable {barrier keep order} {rank : α → β} {items before after : List α}

/-- A list cut in two is ordered as its parts exactly when the cut fits. -/
theorem inSegments_append_iff (arranges : ∀ items, Arranged rank items (order items)) :
    inSegments barrier keep order [] (before ++ after) =
        inSegments barrier keep order [] before ++ inSegments barrier keep order [] after ↔
      CutFits barrier keep rank before after := by
  obtain ⟨sooner, whole⟩ := inSegments_lastSegment barrier keep order before
  obtain ⟨later, rest⟩ := inSegments_firstSegment barrier keep order after
  have first := whole []
  rw [List.append_nil, inSegments] at first
  rw [whole, rest, first, rest, List.nil_append, List.append_assoc, List.append_right_inj,
    ← List.append_assoc, List.append_left_inj]
  exact (arranges _).append_eq_iff (arranges _) (arranges _)

/-- A barrier stands between what comes before it and what follows. -/
theorem inSegments_barrier (arranges : ∀ items, Arranged rank items (order items)) {item : α}
    (stays : barrier item = true) :
    inSegments barrier keep order [] (before ++ item :: after) =
      inSegments barrier keep order [] before ++
        ([item].filter keep ++ inSegments barrier keep order [] after) := by
  have fits : CutFits barrier keep rank before (item :: after) := by
    intro first _ second member
    simp [firstSegment, stays] at member
  rw [(inSegments_append_iff arranges).2 fits, inSegments, if_pos stays,
    (arranges []).perm.eq_nil, List.nil_append]

/-- Every item that is kept is there once. -/
theorem inSegments_perm (arranges : ∀ items, Arranged rank items (order items))
    (segment items : List α) :
    (inSegments barrier keep order segment items).Perm (segment ++ items.filter keep) := by
  induction items generalizing segment with
  | nil =>
      rw [List.filter_nil, List.append_nil]
      exact (arranges segment).perm
  | cons item rest ih =>
      have own : (item :: rest).filter keep = [item].filter keep ++ rest.filter keep :=
        List.filter_append [item] rest
      unfold inSegments
      rw [own, ← List.append_assoc]
      split
      · exact ((arranges segment).perm.append_right _).append (ih [])
      · exact ih _

/-- Without barriers there is one segment. -/
theorem inSegments_of_free (free : ∀ item ∈ items, barrier item = false) (segment : List α) :
    inSegments barrier keep order segment items = order (segment ++ items.filter keep) := by
  induction items generalizing segment with
  | nil => rw [inSegments, List.filter_nil, List.append_nil]
  | cons item rest ih =>
      rw [inSegments, if_neg (by simp [free item List.mem_cons_self]),
        ih fun other member => free other (List.mem_cons_of_mem item member), List.append_assoc,
        ← List.filter_append, List.singleton_append]

end Segments

end UsdConnect
