/-
Purpose: The range scan returns the records with the prefix exactly when none of them goes on with a
  character from U+FFFF on.
Trusted boundary: none
Main exports: EventStore.getByPrimPrefix_eq_iff, EventStore.getByPrimPrefix_ne_plane
-/
import UsdConnect.Server.EventQueries

namespace UsdConnect

variable {Blob : Type}

namespace StoredEvent

variable {record : StoredEvent Blob} {start : PathText}

/-- The range holds the paths with the prefix that go on below U+FFFF. -/
theorem primInRange_iff :
    record.primInRange start (start ++ [Char.ofNat 0xFFFF]) = true ↔
      record.primStartsWith start = true ∧ ∀ next rest,
        record.prim = some (start ++ next :: rest) → next < Char.ofNat 0xFFFF := by
  unfold primInRange primStartsWith
  cases record.prim with
  | none => simp
  | some prim =>
      simp only [Option.any_some, Bool.and_eq_true, Bool.not_eq_true', decide_eq_false_iff_not,
        decide_eq_true_eq, List.isPrefixOf_iff_prefix, Option.some.injEq]
      rw [utf8_between_iff]
      constructor
      · rintro ⟨rest, rfl, below⟩
        refine ⟨List.prefix_append _ _, ?_⟩
        intro next others same
        exact below next (by rw [List.append_cancel_left same]; rfl)
      · rintro ⟨⟨rest, rfl⟩, below⟩
        refine ⟨rest, rfl, ?_⟩
        intro next first
        obtain ⟨others, rfl⟩ := List.head?_eq_some_iff.1 first
        exact below next others rfl

theorem kindIn_nil : record.kindIn [] = false := by
  unfold kindIn
  cases record.kind <;> simp

end StoredEvent

namespace EventStore

theorem length_sortRows {Record : Type} (rows : List (Nat × Record)) :
    (sortRows rows).length = rows.length :=
  (List.perm_insertionSort _ rows).length_eq

/-- The rows in the range are some of those with the prefix. -/
theorem filter_primInRange (rows : List (Nat × StoredEvent Blob)) (start : PathText)
    (kinds : List String) :
    (rows.filter fun row =>
        row.2.primInRange start (start ++ [Char.ofNat 0xFFFF]) && row.2.kindIn kinds) =
      (rows.filter fun row => row.2.primStartsWith start && row.2.kindIn kinds).filter fun row =>
        row.2.primInRange start (start ++ [Char.ofNat 0xFFFF]) := by
  rw [List.filter_filter]
  apply List.filter_congr
  intro row _
  rw [Bool.eq_iff_iff]
  simp only [Bool.and_eq_true]
  constructor
  · rintro ⟨inRange, wanted⟩
    exact ⟨inRange, (StoredEvent.primInRange_iff.1 inRange).1, wanted⟩
  · rintro ⟨inRange, -, wanted⟩
    exact ⟨inRange, wanted⟩

/-- The range scan returns exactly the records with the prefix as long as all of them stay below
U+FFFF behind it. -/
theorem getByPrimPrefix_eq_iff (store : EventStore (StoredEvent Blob)) (start : PathText)
    (kinds : List String) :
    store.getByPrimPrefix start kinds = store.recordsWithPrefix start kinds ↔
      store.StaysBelow start kinds := by
  cases kinds with
  | nil => simp [getByPrimPrefix, recordsWithPrefix, StaysBelow, StoredEvent.kindIn_nil, sortRows]
  | cons kind kinds =>
      unfold getByPrimPrefix recordsWithPrefix StaysBelow
      simp only [List.isEmpty_cons, Bool.false_eq_true, if_false, filter_primInRange]
      constructor
      · intro same row member wanted next rest prefixed
        -- a row that the scan misses makes its result shorter
        have counted := congrArg List.length same
        simp only [List.length_map, length_sortRows] at counted
        have starts : row.2.primStartsWith start = true := by
          simp [StoredEvent.primStartsWith, prefixed]
        have scanned := List.length_filter_eq_length_iff.1 counted row
          (List.mem_filter.2 ⟨member, by simp [starts, wanted]⟩)
        exact (StoredEvent.primInRange_iff.1 scanned).2 next rest prefixed
      · intro below
        rw [List.filter_eq_self.2]
        intro row found
        obtain ⟨member, both⟩ := List.mem_filter.1 found
        obtain ⟨starts, wanted⟩ := (Bool.and_eq_true _ _).mp both
        exact StoredEvent.primInRange_iff.2 ⟨starts, below row member wanted⟩

/-! ### A character beyond the basic plane -/

/-- Letters of the Latin alphabet and ideographs of the supplementary plane. -/
def someIdentifiers : IdentifierChars where
  start letter := letter.isAlpha || letter == '𠀀'
  continued letter := letter.isAlphanum || letter == '𠀀'

/-- A world and a child with a name beyond the basic plane. -/
def planeStore : EventStore (StoredEvent Nat) where
  events :=
    [(1, ⟨1, some "ensure_prim", some "/World".toList⟩),
      (2, ⟨2, some "ensure_prim", some "/World/𠀀".toList⟩),
      (3, ⟨3, some "ensure_prim", some "/World/Door".toList⟩)]

/-- The child whose name begins beyond the basic plane is missed. -/
theorem getByPrimPrefix_ne_plane :
    ¬ ∀ (chars : IdentifierChars) (store : EventStore (StoredEvent Nat)) (start : PathText)
      (kinds : List String),
      (∀ row ∈ store.events, ∀ prim, row.2.prim = some prim → chars.requirePrimPath prim = true) →
        store.getByPrimPrefix start kinds = store.recordsWithPrefix start kinds := by
  intro claim
  have accepted : ∀ row ∈ planeStore.events, ∀ prim, row.2.prim = some prim →
      someIdentifiers.requirePrimPath prim = true := by
    intro row member prim found
    have all : planeStore.events.all fun row =>
        row.2.prim.all someIdentifiers.requirePrimPath := by decide +kernel
    have here := List.all_eq_true.1 all row member
    rw [found] at here
    exact here
  have same := claim someIdentifiers planeStore "/World/".toList ["ensure_prim"] accepted
  have scanned : planeStore.getByPrimPrefix "/World/".toList ["ensure_prim"] = [3] := by
    decide +kernel
  have wanted : planeStore.recordsWithPrefix "/World/".toList ["ensure_prim"] = [2, 3] := by
    decide +kernel
  rw [scanned, wanted] at same
  cases same

end EventStore

end UsdConnect
