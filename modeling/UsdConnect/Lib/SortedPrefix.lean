/-
Purpose: Binary search in a lexicographically sorted list of words: the words with a prefix stand
  together behind its insertion point; insertion, removal and ranges keep the list sorted.
Trusted boundary: none
Main exports: bisectLeft, prefixRange, between_iff, prefixRange_eq_filter, insort, slice
-/
import Mathlib.Data.List.Lex
import Mathlib.Order.Lattice

namespace UsdConnect.SortedPrefix

variable {α : Type} [LinearOrder α]

/-- Insertion point of a word in a sorted list, before the words that equal it. -/
def bisectLeft (words : List (List α)) (word : List α) : Nat :=
  (words.takeWhile fun other => other < word).length

/-- The words with a prefix from its insertion point on, up to the first word without it. -/
def prefixRange (words : List (List α)) (start : List α) : List (List α) :=
  (words.drop (bisectLeft words start)).takeWhile fun word => start.isPrefixOf word

/-- A word is not before its own prefixes. -/
theorem not_lt_of_prefix {start word : List α} (prefixed : start <+: word) : ¬ word < start := by
  obtain ⟨rest, rfl⟩ := prefixed
  induction start with
  | nil => exact List.not_lt_nil _
  | cons letter start ih =>
      rw [List.cons_append, List.cons_lt_cons_iff]
      rintro (smaller | ⟨-, later⟩)
      · exact lt_irrefl _ smaller
      · exact ih later

/-- Between a prefix and a word that has it, every word has it. -/
theorem prefix_of_between {start word last : List α} (after : ¬ word < start)
    (before : ¬ last < word) (prefixed : start <+: last) : start <+: word := by
  induction start generalizing word last with
  | nil => exact List.nil_prefix
  | cons letter start ih =>
      obtain ⟨rest, rfl⟩ := prefixed
      cases word with
      | nil => exact absurd (List.nil_lt_cons _ _) after
      | cons first word =>
          rw [List.cons_lt_cons_iff] at after
          rw [List.cons_append, List.cons_lt_cons_iff] at before
          have same : first = letter :=
            le_antisymm (not_lt.1 fun smaller => before (.inl smaller))
              (not_lt.1 fun smaller => after (.inl smaller))
          subst same
          exact List.cons_prefix_cons.2 ⟨rfl, ih (fun later => after (.inr ⟨rfl, later⟩))
            (fun later => before (.inr ⟨rfl, later⟩)) (List.prefix_append _ _)⟩

/-- From a prefix up to the prefix with a last letter stand the words with the prefix that go on with
a smaller letter, if at all. -/
theorem between_iff {start word : List α} {last : α} :
    ¬ word < start ∧ word < start ++ [last] ↔
      ∃ rest, word = start ++ rest ∧ ∀ next ∈ rest.head?, next < last := by
  induction start generalizing word with
  | nil =>
      cases word with
      | nil => simp
      | cons letter word => simp [List.cons_lt_cons_iff]
  | cons letter start ih =>
      cases word with
      | nil => simp
      | cons first word =>
          simp only [List.cons_append, List.cons_lt_cons_iff, List.cons.injEq, not_or, not_and,
            not_lt]
          constructor
          · rintro ⟨⟨notBefore, later⟩, before⟩
            have same : first = letter := by
              rcases before with smaller | ⟨same, -⟩
              · exact absurd smaller (not_lt.2 notBefore)
              · exact same
            have inside : word < start ++ [last] := by
              rcases before with smaller | ⟨-, inside⟩
              · exact absurd smaller (not_lt.2 notBefore)
              · exact inside
            obtain ⟨rest, rfl, bounded⟩ := ih.1 ⟨not_lt.2 (later same), inside⟩
            exact ⟨rest, ⟨same, rfl⟩, bounded⟩
          · rintro ⟨rest, ⟨rfl, rfl⟩, bounded⟩
            obtain ⟨after, before⟩ := ih.2 ⟨rest, rfl, bounded⟩
            exact ⟨⟨le_rfl, fun _ => not_lt.1 after⟩, .inr ⟨rfl, before⟩⟩

/-- From the insertion point on, the first word without the prefix ends the ones with it. -/
theorem takeWhile_eq_filter {words : List (List α)} {start : List α}
    (sorted : words.Pairwise fun word later => ¬ later < word)
    (after : ∀ word ∈ words, ¬ word < start) :
    (words.takeWhile fun word => start.isPrefixOf word) =
      words.filter fun word => start.isPrefixOf word := by
  induction words with
  | nil => rfl
  | cons word words ih =>
      obtain ⟨first, rest⟩ := List.pairwise_cons.1 sorted
      by_cases prefixed : start.isPrefixOf word = true
      · rw [List.takeWhile_cons_of_pos prefixed, List.filter_cons_of_pos prefixed,
          ih rest fun other member => after other (List.mem_cons_of_mem _ member)]
      · rw [List.takeWhile_cons_of_neg prefixed, List.filter_cons_of_neg prefixed, eq_comm,
          List.filter_eq_nil_iff]
        intro last member lastPrefixed
        exact prefixed (List.isPrefixOf_iff_prefix.2 (prefix_of_between
          (after word List.mem_cons_self) (first last member)
          (List.isPrefixOf_iff_prefix.1 lastPrefixed)))

/-- In a sorted list the range holds exactly the words with the prefix. -/
theorem prefixRange_eq_filter {words : List (List α)} (start : List α)
    (sorted : words.Pairwise fun word later => ¬ later < word) :
    prefixRange words start = words.filter fun word => start.isPrefixOf word := by
  unfold prefixRange bisectLeft
  induction words with
  | nil => rfl
  | cons word words ih =>
      obtain ⟨first, rest⟩ := List.pairwise_cons.1 sorted
      by_cases early : word < start
      · have unprefixed : ¬ start.isPrefixOf word = true := fun prefixed =>
          not_lt_of_prefix (List.isPrefixOf_iff_prefix.1 prefixed) early
        have counted : (word :: words).takeWhile (fun other => decide (other < start)) =
            word :: words.takeWhile fun other => decide (other < start) :=
          List.takeWhile_cons_of_pos (by simpa using early)
        rw [counted, List.filter_cons_of_neg unprefixed]
        exact ih rest
      · rw [List.takeWhile_cons_of_neg (by simpa using early)]
        refine takeWhile_eq_filter sorted ?_
        intro other member
        rcases List.mem_cons.1 member with rfl | member
        · exact early
        · exact fun smaller => early (lt_of_le_of_lt (not_lt.1 (first other member)) smaller)

/-! ### Strictly sorted lists -/

/-- `insort`: a word goes behind those that are not after it. -/
def insort (words : List (List α)) (word : List α) : List (List α) :=
  words.takeWhile (· ≤ word) ++ word :: words.dropWhile (· ≤ word)

/-- `words[low:high]`. -/
def slice (words : List (List α)) (low high : Nat) : List (List α) :=
  (words.take high).drop low

/-- `del words[low:high]`. -/
def cut (words : List (List α)) (low high : Nat) : List (List α) :=
  words.take low ++ words.drop (max low high)

section Sorted

variable {words : List (List α)} {word other : List α} {test : List α → Bool}

/-- In a sorted list a test that a word passes with every later one is passed by a part in front. -/
theorem takeWhile_eq_filter_of_initial (sorted : words.Pairwise (· < ·))
    (initial : ∀ first second, first < second → test second = true → test first = true) :
    words.takeWhile test = words.filter test ∧
      words.dropWhile test = words.filter fun word => !test word := by
  induction words with
  | nil => exact ⟨rfl, rfl⟩
  | cons word words ih =>
      obtain ⟨first, rest⟩ := List.pairwise_cons.1 sorted
      obtain ⟨taken, dropped⟩ := ih rest
      by_cases passes : test word = true
      · simp [passes, taken, dropped]
      · have fails : ∀ later ∈ words, test later = false := by
          intro later member
          exact Bool.eq_false_iff.2 fun passed => passes (initial _ _ (first later member) passed)
        simp only [passes, Bool.not_eq_true, List.takeWhile_cons_of_neg,
          List.dropWhile_cons_of_neg, List.filter_cons_of_neg]
        constructor
        · exact (List.filter_eq_nil_iff.2 fun later member => by simp [fails later member]).symm
        · rw [List.filter_eq_self.2]
          intro later member
          rcases List.mem_cons.1 member with rfl | member
          · simpa using passes
          · simp [fails later member]

omit [LinearOrder α] in
theorem take_drop_takeWhile (test : List α → Bool) (words : List (List α)) :
    words.take (words.takeWhile test).length = words.takeWhile test ∧
      words.drop (words.takeWhile test).length = words.dropWhile test := by
  induction words with
  | nil => exact ⟨rfl, rfl⟩
  | cons word words ih =>
      by_cases passes : test word = true
      · simp [passes, ih]
      · simp [passes]

/-- Up to the insertion point of a word stand the smaller words, and from it on the others. -/
theorem take_drop_bisectLeft (sorted : words.Pairwise (· < ·)) (word : List α) :
    words.take (bisectLeft words word) = words.filter (fun other => other < word) ∧
      words.drop (bisectLeft words word) = words.filter fun other => !decide (other < word) := by
  have initial : ∀ first second : List α, first < second → decide (second < word) = true →
      decide (first < word) = true := by
    intro first second smaller before
    exact decide_eq_true (smaller.trans (of_decide_eq_true before))
  obtain ⟨taken, dropped⟩ := takeWhile_eq_filter_of_initial sorted initial
  obtain ⟨front, back⟩ := take_drop_takeWhile (fun other => decide (other < word)) words
  exact ⟨front.trans taken, back.trans dropped⟩

theorem mem_take_bisectLeft (sorted : words.Pairwise (· < ·)) :
    other ∈ words.take (bisectLeft words word) ↔ other ∈ words ∧ other < word := by
  rw [(take_drop_bisectLeft sorted word).1]
  simp

theorem mem_drop_bisectLeft (sorted : words.Pairwise (· < ·)) :
    other ∈ words.drop (bisectLeft words word) ↔ other ∈ words ∧ ¬ other < word := by
  rw [(take_drop_bisectLeft sorted word).2]
  simp

theorem bisectLeft_eq_length (sorted : words.Pairwise (· < ·)) (word : List α) :
    bisectLeft words word = (words.filter fun other => other < word).length := by
  have front := congrArg List.length (take_drop_bisectLeft sorted word).1
  rw [List.length_take, min_eq_left] at front
  · exact front
  · exact (List.takeWhile_sublist _).length_le

/-- Insertion points are ordered as the words are. -/
theorem bisectLeft_mono {low high : List α} (sorted : words.Pairwise (· < ·))
    (ordered : low ≤ high) : bisectLeft words low ≤ bisectLeft words high := by
  rw [bisectLeft_eq_length sorted, bisectLeft_eq_length sorted]
  apply List.Sublist.length_le
  apply List.monotone_filter_right
  intro other before
  exact decide_eq_true ((of_decide_eq_true before).trans_le ordered)

/-- The words between two insertion points. -/
theorem mem_slice {low high : List α} (sorted : words.Pairwise (· < ·)) (ordered : low ≤ high) :
    other ∈ slice words (bisectLeft words low) (bisectLeft words high) ↔
      other ∈ words ∧ ¬ other < low ∧ other < high := by
  have front := (take_drop_bisectLeft sorted high).1
  have frontSorted := List.Pairwise.sublist (List.filter_sublist (p := fun other => decide (other < high)))
    sorted
  have same : bisectLeft (words.filter fun other => other < high) low = bisectLeft words low := by
    rw [bisectLeft_eq_length frontSorted, bisectLeft_eq_length sorted, List.filter_filter]
    congr 1
    apply List.filter_congr
    intro other _
    rw [Bool.eq_iff_iff]
    simp only [Bool.and_eq_true, decide_eq_true_eq]
    exact ⟨And.left, fun before => ⟨before, before.trans_le ordered⟩⟩
  unfold slice
  rw [front, ← same, mem_drop_bisectLeft frontSorted, List.mem_filter, decide_eq_true_eq, and_assoc,
    and_comm (a := other < high)]

/-- What is left without them. -/
theorem mem_cut {low high : List α} (sorted : words.Pairwise (· < ·)) (ordered : low ≤ high) :
    other ∈ cut words (bisectLeft words low) (bisectLeft words high) ↔
      other ∈ words ∧ (other < low ∨ ¬ other < high) := by
  unfold cut
  rw [max_eq_right (bisectLeft_mono sorted ordered), List.mem_append, mem_take_bisectLeft sorted,
    mem_drop_bisectLeft sorted]
  exact and_or_left.symm

theorem pairwise_cut {low high : Nat} (sorted : words.Pairwise (· < ·)) :
    (cut words low high).Pairwise (· < ·) := by
  refine List.Pairwise.sublist ?_ sorted
  unfold cut
  conv_rhs => rw [← List.take_append_drop low words]
  exact (List.Sublist.refl _).append (List.drop_sublist_drop_left _ (le_max_left _ _))

/-- At its insertion point stands the word itself, if it is in the list. -/
theorem drop_bisectLeft_of_mem (sorted : words.Pairwise (· < ·)) (member : word ∈ words) :
    ∃ rest, words.drop (bisectLeft words word) = word :: rest := by
  have here : word ∈ words.drop (bisectLeft words word) :=
    (mem_drop_bisectLeft sorted).2 ⟨member, lt_irrefl word⟩
  cases found : words.drop (bisectLeft words word) with
  | nil =>
      rw [found] at here
      cases here
  | cons first rest =>
      have notBefore : ¬ first < word :=
        ((mem_drop_bisectLeft sorted).1 (found ▸ List.mem_cons_self)).2
      have tailSorted := List.Pairwise.sublist (List.drop_sublist (bisectLeft words word) words) sorted
      rw [found] at here tailSorted
      rcases List.mem_cons.1 here with rfl | later
      · exact ⟨rest, rfl⟩
      · exact absurd ((List.pairwise_cons.1 tailSorted).1 word later) notBefore

/-- The word at its insertion point is taken out. -/
theorem mem_eraseIdx_bisectLeft (sorted : words.Pairwise (· < ·)) (member : word ∈ words) :
    other ∈ words.eraseIdx (bisectLeft words word) ↔ other ∈ words ∧ other ≠ word := by
  obtain ⟨rest, found⟩ := drop_bisectLeft_of_mem sorted member
  have tailSorted := List.Pairwise.sublist (List.drop_sublist (bisectLeft words word) words) sorted
  have after : words.drop (bisectLeft words word + 1) = rest := by
    rw [← List.drop_drop, found]
    rfl
  have back : other ∈ rest ↔ (other ∈ words ∧ ¬ other < word) ∧ other ≠ word := by
    rw [← mem_drop_bisectLeft sorted, found, List.mem_cons]
    rw [found] at tailSorted
    have later := (List.pairwise_cons.1 tailSorted).1
    constructor
    · intro inside
      exact ⟨.inr inside, (later other inside).ne'⟩
    · rintro ⟨rfl | inside, away⟩
      · exact absurd rfl away
      · exact inside
  rw [List.eraseIdx_eq_take_drop_succ, List.mem_append, mem_take_bisectLeft sorted, after, back]
  constructor
  · rintro (⟨inside, before⟩ | ⟨⟨inside, -⟩, away⟩)
    · exact ⟨inside, before.ne⟩
    · exact ⟨inside, away⟩
  · rintro ⟨inside, away⟩
    by_cases before : other < word
    · exact .inl ⟨inside, before⟩
    · exact .inr ⟨⟨inside, before⟩, away⟩

theorem pairwise_insort (sorted : words.Pairwise (· < ·)) (fresh : word ∉ words) :
    (insort words word).Pairwise (· < ·) := by
  have initial : ∀ first second : List α, first < second → decide (second ≤ word) = true →
      decide (first ≤ word) = true := by
    intro first second smaller before
    exact decide_eq_true (smaller.le.trans (of_decide_eq_true before))
  obtain ⟨taken, dropped⟩ := takeWhile_eq_filter_of_initial sorted initial
  unfold insort
  rw [taken, dropped, List.pairwise_append, List.pairwise_cons]
  have below : ∀ other ∈ words.filter (fun other => decide (other ≤ word)), other < word := by
    intro other found
    obtain ⟨member, before⟩ := List.mem_filter.1 found
    exact lt_of_le_of_ne (of_decide_eq_true before) fun same => fresh (same ▸ member)
  have above : ∀ other ∈ words.filter (fun other => !decide (other ≤ word)), word < other := by
    intro other found
    obtain ⟨-, after⟩ := List.mem_filter.1 found
    simpa using after
  refine ⟨List.Pairwise.sublist List.filter_sublist sorted,
    ⟨above, List.Pairwise.sublist List.filter_sublist sorted⟩, ?_⟩
  intro first before second found
  rcases List.mem_cons.1 found with rfl | after
  · exact below first before
  · exact (below first before).trans (above second after)

theorem mem_insort : other ∈ insort words word ↔ other = word ∨ other ∈ words := by
  unfold insort
  rw [List.mem_append, List.mem_cons, or_left_comm, ← List.mem_append,
    List.takeWhile_append_dropWhile]

end Sorted
end UsdConnect.SortedPrefix
