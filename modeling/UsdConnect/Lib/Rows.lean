/-
Purpose: A list read as rows of one width, and readings of all items of a list that may fail.
Trusted boundary: none
Main exports: rowsOf, rowsOf_flatten, mapM_eq_ok_iff
-/
import Mathlib.Data.List.Forall2

namespace UsdConnect

theorem except_map_eq_ok_iff {Failure Value Other : Type} {change : Value → Other}
    {outcome : Except Failure Value} {result : Other} :
    change <$> outcome = .ok result ↔ ∃ value, outcome = .ok value ∧ change value = result := by
  cases outcome with
  | error failure =>
      constructor
      · intro same
        cases same
      · rintro ⟨_, same, _⟩
        cases same
  | ok value =>
      constructor
      · intro same
        exact ⟨value, rfl, Except.ok.inj same⟩
      · rintro ⟨_, same, rfl⟩
        cases same
        rfl

theorem except_bind_eq_ok_iff {Failure Value Other : Type} {next : Value → Except Failure Other}
    {outcome : Except Failure Value} {result : Other} :
    outcome >>= next = .ok result ↔ ∃ value, outcome = .ok value ∧ next value = .ok result := by
  cases outcome with
  | error failure =>
      constructor
      · intro same
        cases same
      · rintro ⟨_, same, _⟩
        cases same
  | ok value =>
      constructor
      · intro same
        exact ⟨value, rfl, same⟩
      · rintro ⟨_, same, later⟩
        cases same
        exact later

theorem except_bind_of_ok {Failure Value Other : Type} {next : Value → Except Failure Other}
    {outcome : Except Failure Value} {value : Value} (known : outcome = .ok value) :
    outcome >>= next = next value := by
  rw [known]
  rfl

/-- Reading the items of a list by their indices. -/
theorem mapM_range_eq {Effect : Type → Type} [Monad Effect] [LawfulMonad Effect]
    {Item Value : Type} {read : Nat → Effect Value} {next : Item → Effect Value}
    {items : List Item}
    (each : ∀ index item, items[index]? = some item → read index = next item) :
    (List.range items.length).mapM read = items.mapM next := by
  induction items generalizing read with
  | nil => rfl
  | cons item rest ih =>
      have later : (List.range rest.length).mapM (fun index => read (index + 1)) =
          rest.mapM next := ih fun index found here => each (index + 1) found here
      rw [List.length_cons, List.range_succ_eq_map, List.mapM_cons, List.mapM_cons,
        each 0 item rfl, List.mapM_map, ← later]
      rfl

/-- A list is read in full exactly when each of its items is. -/
theorem mapM_eq_ok_iff {Failure Item Value : Type} {read : Item → Except Failure Value}
    {items : List Item} {values : List Value} :
    items.mapM read = .ok values ↔
      List.Forall₂ (fun item value => read item = .ok value) items values := by
  induction items generalizing values with
  | nil =>
      rw [List.mapM_nil, List.forall₂_nil_left_iff]
      exact ⟨fun same => (Except.ok.inj same).symm, fun same => by rw [same]; rfl⟩
  | cons item rest ih =>
      rw [List.mapM_cons, List.forall₂_cons_left_iff]
      cases here : read item with
      | error failure =>
          constructor
          · intro same
            cases same
          · rintro ⟨value, others, same, _⟩
            cases same
      | ok value =>
          cases later : rest.mapM read with
          | error failure =>
              constructor
              · intro same
                cases same
              · rintro ⟨_, others, _, all, _⟩
                rw [ih.2 all] at later
                cases later
          | ok others =>
              constructor
              · intro same
                cases same
                exact ⟨value, others, rfl, ih.1 later, rfl⟩
              · rintro ⟨first, tail, same, all, rfl⟩
                cases same
                rw [ih.2 all] at later
                cases later
                rfl

/-- A reading of all items by a function. -/
theorem mapM_eq_ok_map {Failure Item Value : Type} {read : Item → Except Failure Value}
    {value : Item → Value} {items : List Item}
    (each : ∀ item ∈ items, read item = .ok (value item)) :
    items.mapM read = .ok (items.map value) := by
  rw [mapM_eq_ok_iff, List.forall₂_map_right_iff, List.forall₂_same]
  exact each

/-- Lists that are read alike. -/
theorem mapM_congr_forall₂ {Failure Item Other Value : Type} {read : Item → Except Failure Value}
    {readOther : Other → Except Failure Value} {items : List Item} {others : List Other}
    (alike : List.Forall₂ (fun item other => readOther other = read item) items others) :
    others.mapM readOther = items.mapM read := by
  induction alike with
  | nil => rfl
  | cons here _ ih => rw [List.mapM_cons, List.mapM_cons, here, ih]

/-- Related lists, with the membership of the first items. -/
theorem forall₂_mem_left {Item Other : Type} {related : Item → Other → Prop} {items : List Item}
    {others : List Other} (all : List.Forall₂ related items others) :
    List.Forall₂ (fun item other => item ∈ items ∧ related item other) items others := by
  induction all with
  | nil => exact .nil
  | cons here _ ih =>
      exact .cons ⟨List.mem_cons_self, here⟩
        (ih.imp fun item other both => ⟨List.mem_cons_of_mem _ both.1, both.2⟩)

theorem exists_of_mapM_eq_ok {Failure Item Value : Type} {read : Item → Except Failure Value}
    {items : List Item} {values : List Value} (all : items.mapM read = .ok values) {item : Item}
    (member : item ∈ items) : ∃ value, read item = .ok value := by
  have each := mapM_eq_ok_iff.1 all
  induction each with
  | nil => cases member
  | cons here later ih =>
      rcases List.mem_cons.1 member with rfl | inside
      · exact ⟨_, here⟩
      · exact ih (mapM_eq_ok_iff.2 later) inside

theorem exists_item_of_mapM {Failure Item Value : Type} {read : Item → Except Failure Value}
    {items : List Item} {values : List Value} (all : items.mapM read = .ok values) {value : Value}
    (member : value ∈ values) : ∃ item ∈ items, read item = .ok value := by
  have each := mapM_eq_ok_iff.1 all
  induction each with
  | nil => cases member
  | cons here later ih =>
      rcases List.mem_cons.1 member with rfl | inside
      · exact ⟨_, List.mem_cons_self, here⟩
      · obtain ⟨item, found, known⟩ := ih (mapM_eq_ok_iff.2 later) inside
        exact ⟨item, List.mem_cons_of_mem _ found, known⟩

/-- What holds of each reading exactly under a condition on the item holds of all readings exactly
under the condition on all items. -/
theorem forall₂_map_iff {Item Stored Decoded : Type} {read : Item → Stored → Prop}
    {same : Item → Decoded → Prop} {keeps : Item → Prop} {decoded : Stored → Decoded}
    {items : List Item} {stored : List Stored} (elements : List.Forall₂ read items stored)
    (each : ∀ item kept, read item kept → (same item (decoded kept) ↔ keeps item)) :
    List.Forall₂ same items (stored.map decoded) ↔ ∀ item ∈ items, keeps item := by
  induction elements with
  | nil => simp
  | cons here _ ih =>
      rw [List.map_cons, List.forall₂_cons, ih, each _ _ here, List.forall_mem_cons]

/-- Entries are read in full exactly when the value of each is; keys are kept. -/
theorem mapM_entries_eq_ok_iff {Failure Key Value Other : Type}
    (read : Value → Except Failure Other) {entries : List (Key × Value)}
    {results : List (Key × Other)} :
    (entries.mapM fun entry => do
      let value ← read entry.2
      return (entry.1, value)) = .ok results ↔
      List.Forall₂ (fun entry result => entry.1 = result.1 ∧ read entry.2 = .ok result.2)
        entries results := by
  rw [mapM_eq_ok_iff]
  have single : ∀ (entry : Key × Value) (result : Key × Other),
      (do let value ← read entry.2; return (entry.1, value) : Except Failure (Key × Other)) =
        .ok result ↔ entry.1 = result.1 ∧ read entry.2 = .ok result.2 := by
    intro entry result
    rw [except_bind_eq_ok_iff]
    constructor
    · rintro ⟨value, known, same⟩
      cases same
      exact ⟨rfl, known⟩
    · rintro ⟨key, known⟩
      refine ⟨result.2, known, ?_⟩
      rw [key]
      rfl
  simp only [single]

theorem keys_of_forall₂ {Key Value Other : Type} {entries : List (Key × Value)}
    {results : List (Key × Other)}
    (same : List.Forall₂ (fun entry result => entry.1 = result.1) entries results) :
    entries.map (·.1) = results.map (·.1) := by
  induction same with
  | nil => rfl
  | cons here _ ih => rw [List.map_cons, List.map_cons, here, ih]

variable {Item : Type}

/-- The full rows of a list. -/
def rowsOf (width : Nat) (items : List Item) : List (List Item) :=
  (List.range (items.length / width)).map fun row => (items.drop (row * width)).take width

theorem length_of_mem_rowsOf {width : Nat} (items : List Item) {row : List Item}
    (member : row ∈ rowsOf width items) : row.length = width := by
  obtain ⟨index, bound, rfl⟩ := List.mem_map.1 member
  rw [List.mem_range] at bound
  have inside : (index + 1) * width ≤ items.length :=
    Nat.le_trans (Nat.mul_le_mul_right width bound) (Nat.div_mul_le_self _ _)
  rw [Nat.succ_mul] at inside
  rw [List.length_take, List.length_drop]
  omega

theorem rowsOf_flatten {width : Nat} (positive : 0 < width) {rows : List (List Item)}
    (even : ∀ row ∈ rows, row.length = width) : rowsOf width rows.flatten = rows := by
  induction rows with
  | nil => simp [rowsOf]
  | cons row rest ih =>
      have here : row.length = width := even row List.mem_cons_self
      have later := ih fun other member => even other (List.mem_cons_of_mem row member)
      unfold rowsOf at later ⊢
      rw [List.flatten_cons, List.length_append, here, Nat.add_comm,
        Nat.add_div_right _ positive, List.range_succ_eq_map, List.map_cons, List.map_map]
      congr 1
      · rw [Nat.zero_mul, List.drop_zero, ← here, List.take_left]
      · refine Eq.trans (List.map_congr_left ?_) later
        intro index _
        dsimp only [Function.comp, Nat.succ_eq_add_one]
        rw [Nat.succ_mul, Nat.add_comm, ← here, ← List.drop_drop, List.drop_left]

theorem mem_of_mem_rowsOf {width : Nat} {items row : List Item} {item : Item}
    (member : row ∈ rowsOf width items) (inside : item ∈ row) : item ∈ items := by
  obtain ⟨index, _, rfl⟩ := List.mem_map.1 member
  exact List.mem_of_mem_drop (List.mem_of_mem_take inside)

/-- When the rows are full, every item lies in one. -/
theorem exists_mem_rowsOf {width : Nat} (positive : 0 < width) {items : List Item}
    (even : items.length % width = 0) {item : Item} (member : item ∈ items) :
    ∃ row ∈ rowsOf width items, item ∈ row := by
  obtain ⟨index, bound, rfl⟩ := List.getElem_of_mem member
  have full : items.length = items.length / width * width :=
    (Nat.div_mul_cancel (Nat.dvd_of_mod_eq_zero even)).symm
  refine ⟨(items.drop (index / width * width)).take width, List.mem_map.2 ⟨index / width, ?_, rfl⟩,
    ?_⟩
  · rw [List.mem_range, Nat.div_lt_iff_lt_mul positive, ← full]
    exact bound
  · have split : index / width * width + index % width = index := by
      rw [Nat.mul_comm]
      exact Nat.div_add_mod index width
    have inRow : index % width < width := Nat.mod_lt _ positive
    rw [List.mem_iff_getElem]
    refine ⟨index % width, ?_, ?_⟩
    · rw [List.length_take, List.length_drop]
      omega
    · simp [split]

theorem map_rowsOf {Other : Type} (change : Item → Other) (width : Nat) (items : List Item) :
    rowsOf width (items.map change) = (rowsOf width items).map (List.map change) := by
  unfold rowsOf
  rw [List.length_map, List.map_map]
  apply List.map_congr_left
  intro index _
  rw [Function.comp_apply, List.map_take, List.map_drop]

end UsdConnect
