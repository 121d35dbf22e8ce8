/-
Purpose: Insertion-ordered dictionaries: setting a present key keeps its place, a new key is
  appended.
Trusted boundary: none
Main exports: OrderedDict
-/
import Mathlib.Data.List.Nodup
import Mathlib.Logic.Function.Basic

namespace UsdConnect

/-- Entries in insertion order, one per key. -/
structure OrderedDict (κ υ : Type) where
  entries : List (κ × υ) := []
  distinct : (entries.map (·.1)).Nodup := by decide
deriving Repr, DecidableEq

namespace OrderedDict

variable {κ υ : Type} [DecidableEq κ]

def empty : OrderedDict κ υ where
  entries := []
  distinct := List.nodup_nil

def keys (dict : OrderedDict κ υ) : List κ :=
  dict.entries.map (·.1)

def get? (dict : OrderedDict κ υ) (key : κ) : Option υ :=
  (dict.entries.find? fun entry => entry.1 = key).map (·.2)

/-- Entries after setting one key. -/
def setEntries (entries : List (κ × υ)) (key : κ) (value : υ) : List (κ × υ) :=
  if key ∈ entries.map (·.1) then
    entries.map fun entry => if entry.1 = key then (key, value) else entry
  else entries ++ [(key, value)]

theorem keys_setEntries (entries : List (κ × υ)) (key : κ) (value : υ) :
    (setEntries entries key value).map (·.1) =
      if key ∈ entries.map (·.1) then entries.map (·.1) else entries.map (·.1) ++ [key] := by
  unfold setEntries
  split
  · rw [List.map_map]
    apply List.map_congr_left
    intro entry _
    dsimp only [Function.comp]
    split
    · next same => exact same.symm
    · rfl
  · simp

/-- `dict[key] = value`. -/
def set (dict : OrderedDict κ υ) (key : κ) (value : υ) : OrderedDict κ υ where
  entries := setEntries dict.entries key value
  distinct := by
    rw [keys_setEntries]
    split
    · exact dict.distinct
    · next fresh =>
        apply List.Nodup.append dict.distinct (List.nodup_singleton key)
        intro other present last
        rw [List.mem_singleton.1 last] at present
        exact fresh present

theorem mem_of_get? {dict : OrderedDict κ υ} {key : κ} {value : υ}
    (found : dict.get? key = some value) : (key, value) ∈ dict.entries := by
  obtain ⟨entry, first, rfl⟩ := Option.map_eq_some_iff.1 found
  have here : entry.1 = key := by simpa using List.find?_some first
  rw [← here]
  exact List.mem_of_find?_eq_some first

/-- Entries are what lookups return, since keys are distinct. -/
theorem get?_of_mem {dict : OrderedDict κ υ} {key : κ} {value : υ}
    (member : (key, value) ∈ dict.entries) : dict.get? key = some value := by
  have found : ((dict.entries.find? fun entry => entry.1 = key)).isSome := by
    rw [List.find?_isSome]
    exact ⟨(key, value), member, by simp⟩
  obtain ⟨entry, first⟩ := Option.isSome_iff_exists.1 found
  have here : entry.1 = key := by simpa using List.find?_some first
  have same : entry = (key, value) :=
    List.inj_on_of_nodup_map dict.distinct (List.mem_of_find?_eq_some first) member here
  unfold get?
  rw [first, same]
  rfl

theorem mem_setEntries {entries : List (κ × υ)} {key other : κ} {value found : υ} :
    (other, found) ∈ setEntries entries key value ↔
      other = key ∧ found = value ∨ other ≠ key ∧ (other, found) ∈ entries := by
  unfold setEntries
  split
  · next present =>
      rw [List.mem_map]
      constructor
      · rintro ⟨entry, member, same⟩
        split at same
        · cases same
          exact Or.inl ⟨rfl, rfl⟩
        · next away =>
            subst same
            exact Or.inr ⟨away, member⟩
      · rintro (⟨rfl, rfl⟩ | ⟨away, member⟩)
        · obtain ⟨entry, member, here⟩ := List.mem_map.1 present
          exact ⟨entry, member, by rw [if_pos here]⟩
        · exact ⟨(other, found), member, by rw [if_neg away]⟩
  · next fresh =>
      rw [List.mem_append, List.mem_singleton, Prod.mk.injEq]
      constructor
      · rintro (member | same)
        · right
          refine ⟨?_, member⟩
          rintro rfl
          exact fresh (List.mem_map_of_mem member)
        · exact Or.inl same
      · rintro (same | ⟨_, member⟩)
        · exact Or.inr same
        · exact Or.inl member

@[simp] theorem get?_set_self (dict : OrderedDict κ υ) (key : κ) (value : υ) :
    (dict.set key value).get? key = some value :=
  get?_of_mem (mem_setEntries.2 (Or.inl ⟨rfl, rfl⟩))

theorem get?_set_of_ne (dict : OrderedDict κ υ) {key other : κ} (value : υ) (away : other ≠ key) :
    (dict.set key value).get? other = dict.get? other := by
  cases found : dict.get? other with
  | some old => exact get?_of_mem (mem_setEntries.2 (Or.inr ⟨away, mem_of_get? found⟩))
  | none =>
      cases later : (dict.set key value).get? other with
      | none => rfl
      | some new =>
          rcases mem_setEntries.1 (mem_of_get? later) with ⟨same, _⟩ | ⟨_, member⟩
          · exact absurd same away
          · rw [get?_of_mem member] at found
            cases found

/-- Setting a key that is there changes its entry in place. -/
theorem entries_set_of_mem {dict : OrderedDict κ υ} {earlier later : List (κ × υ)} {key : κ}
    {old : υ} (found : dict.entries = earlier ++ (key, old) :: later) (value : υ) :
    (dict.set key value).entries = earlier ++ (key, value) :: later := by
  have distinct := dict.distinct
  rw [found, List.map_append, List.map_cons] at distinct
  have apart := List.nodup_middle.1 distinct
  have others : ∀ entry ∈ earlier ++ later, entry.1 ≠ key := by
    intro entry member same
    apply (List.nodup_cons.1 apart).1
    rw [← List.map_append]
    exact List.mem_map.2 ⟨entry, member, same⟩
  have unchanged : ∀ part : List (κ × υ), (∀ entry ∈ part, entry ∈ earlier ++ later) →
      (part.map fun entry => if entry.1 = key then (key, value) else entry) = part := by
    intro part inside
    calc
      _ = part.map id :=
        List.map_congr_left fun entry member => if_neg (others entry (inside entry member))
      _ = part := List.map_id part
  change setEntries dict.entries key value = _
  unfold setEntries
  rw [found, if_pos (by simp), List.map_append, List.map_cons, if_pos rfl,
    unchanged earlier fun entry member => List.mem_append_left later member,
    unchanged later fun entry member => List.mem_append_right earlier member]

/-- A key that is not there is appended. -/
theorem entries_set_of_not_mem {dict : OrderedDict κ υ} {key : κ} (absent : key ∉ dict.keys)
    (value : υ) : (dict.set key value).entries = dict.entries ++ [(key, value)] :=
  if_neg absent

/-- `dict.update(other)`. -/
def update (dict other : OrderedDict κ υ) : OrderedDict κ υ :=
  other.entries.foldl (fun merged entry => merged.set entry.1 entry.2) dict

/-- A dictionary filled entry by entry. -/
def ofEntries (entries : List (κ × υ)) : OrderedDict κ υ :=
  entries.foldl (fun dict entry => dict.set entry.1 entry.2) empty

theorem entries_foldl_set {entries : List (κ × υ)} {dict : OrderedDict κ υ}
    (fresh : (dict.entries.map (·.1) ++ entries.map (·.1)).Nodup) :
    (entries.foldl (fun filled entry => filled.set entry.1 entry.2) dict).entries =
      dict.entries ++ entries := by
  induction entries generalizing dict with
  | nil => simp
  | cons entry rest ih =>
      have absent : entry.1 ∉ dict.entries.map (·.1) := by
        intro present
        have apart := List.disjoint_of_nodup_append fresh
        exact apart present (by simp)
      have added : (dict.set entry.1 entry.2).entries = dict.entries ++ [entry] := by
        change setEntries dict.entries entry.1 entry.2 = _
        unfold setEntries
        rw [if_neg absent]
      rw [List.foldl_cons, ih, added]
      · simp
      · rw [added]
        simpa using fresh

/-- Filling a dictionary with entries of distinct keys keeps them all in order. -/
theorem entries_ofEntries {entries : List (κ × υ)} (distinct : (entries.map (·.1)).Nodup) :
    (ofEntries entries).entries = entries := by
  unfold ofEntries
  rw [entries_foldl_set]
  · rfl
  · simpa [empty] using distinct

/-- The entries whose key is kept, in order. -/
def filterKeys (dict : OrderedDict κ υ) (keep : κ → Bool) : OrderedDict κ υ where
  entries := dict.entries.filter fun entry => keep entry.1
  distinct := dict.distinct.sublist (List.filter_sublist.map _)

/-- `dict.pop(key, None)`. -/
def pop (dict : OrderedDict κ υ) (key : κ) : OrderedDict κ υ where
  entries := dict.entries.filter fun entry => entry.1 ≠ key
  distinct := dict.distinct.sublist (List.filter_sublist.map _)

/-- Change every value. -/
def mapValues (dict : OrderedDict κ υ) (change : υ → υ) : OrderedDict κ υ where
  entries := dict.entries.map fun entry => (entry.1, change entry.2)
  distinct := by
    rw [List.map_map]
    exact dict.distinct

theorem entries_set_perm (dict : OrderedDict κ υ) (key : κ) (value : υ) :
    (dict.set key value).entries.Perm ((key, value) :: (dict.pop key).entries) := by
  have fresh : (key, value) ∉ (dict.pop key).entries := by simp [pop]
  rw [List.perm_ext_iff_of_nodup (dict.set key value).distinct.of_map
    (List.nodup_cons.2 ⟨fresh, (dict.pop key).distinct.of_map⟩)]
  rintro ⟨other, found⟩
  change (other, found) ∈ setEntries dict.entries key value ↔ _
  rw [mem_setEntries, List.mem_cons, Prod.mk.injEq]
  simp [pop, and_comm]

theorem entries_perm_of_get? {dict : OrderedDict κ υ} {key : κ} {value : υ}
    (found : dict.get? key = some value) :
    dict.entries.Perm ((key, value) :: (dict.pop key).entries) := by
  obtain ⟨earlier, later, split⟩ := List.append_of_mem (mem_of_get? found)
  have same := entries_set_of_mem split value
  rw [← split] at same
  rw [← same]
  exact dict.entries_set_perm key value

theorem get?_isSome_of_mem_keys {dict : OrderedDict κ υ} {key : κ} (present : key ∈ dict.keys) :
    ∃ value, dict.get? key = some value := by
  obtain ⟨entry, member, rfl⟩ := List.mem_map.1 present
  exact ⟨entry.2, get?_of_mem member⟩

theorem get?_eq_none {dict : OrderedDict κ υ} {key : κ} (absent : key ∉ dict.keys) :
    dict.get? key = none := by
  cases found : dict.get? key with
  | none => rfl
  | some value => exact absurd (List.mem_map_of_mem (mem_of_get? found)) absent

theorem mem_keys_of_get? {dict : OrderedDict κ υ} {key : κ} {value : υ}
    (found : dict.get? key = some value) : key ∈ dict.keys :=
  List.mem_map_of_mem (mem_of_get? found)

theorem mem_keys_iff_isSome {dict : OrderedDict κ υ} {key : κ} :
    key ∈ dict.keys ↔ (dict.get? key).isSome := by
  constructor
  · intro present
    obtain ⟨value, found⟩ := get?_isSome_of_mem_keys present
    rw [found]
    rfl
  · intro present
    obtain ⟨value, found⟩ := Option.isSome_iff_exists.1 present
    exact mem_keys_of_get? found

theorem mem_keys_set (dict : OrderedDict κ υ) (key other : κ) (value : υ) :
    other ∈ (dict.set key value).keys ↔ other = key ∨ other ∈ dict.keys := by
  unfold keys set
  dsimp only
  rw [keys_setEntries]
  split
  · next present =>
      constructor
      · exact Or.inr
      · intro either
        rcases either with same | old
        · rw [same]
          exact present
        · exact old
  · rw [List.mem_append, List.mem_singleton, or_comm]

theorem get?_foldl_set (entries : List (κ × υ)) (dict : OrderedDict κ υ) (key : κ)
    (distinct : (entries.map (·.1)).Nodup) :
    (entries.foldl (fun merged entry => merged.set entry.1 entry.2) dict).get? key =
      ((entries.find? fun entry => entry.1 = key).map (·.2)).or (dict.get? key) := by
  induction entries generalizing dict with
  | nil => rfl
  | cons entry rest ih =>
      have apart := List.nodup_cons.1 distinct
      rw [List.foldl_cons, ih _ apart.2, List.find?_cons]
      by_cases same : entry.1 = key
      · have absent : rest.find? (fun other => other.1 = key) = none := by
          rw [List.find?_eq_none]
          intro other member here
          exact apart.1 (List.mem_map.2 ⟨other, member, (of_decide_eq_true here).trans same.symm⟩)
        rw [absent, ← same, get?_set_self]
        simp
      · rw [get?_set_of_ne dict entry.2 (fun here => same here.symm), decide_eq_false same]

/-- A dictionary of the keys that have a value. -/
theorem get?_ofEntries_filterMap (keys : List κ) (value : κ → Option υ) (distinct : keys.Nodup)
    (key : κ) :
    (ofEntries (keys.filterMap fun key => (value key).map fun found => (key, found))).get? key =
      if key ∈ keys then value key else none := by
  have names : (keys.filterMap fun key => (value key).map fun found => (key, found)).map (·.1) =
      keys.filter fun key => (value key).isSome := by
    rw [List.map_filterMap, ← List.filterMap_eq_filter]
    apply List.filterMap_congr
    intro other _
    cases held : value other <;> simp [Option.guard, held]
  have entries := entries_ofEntries (names ▸ distinct.filter _)
  ext found
  constructor
  · intro here
    have member := mem_of_get? here
    rw [entries, List.mem_filterMap] at member
    obtain ⟨other, otherMember, paired⟩ := member
    obtain ⟨content, held, same⟩ := Option.map_eq_some_iff.1 paired
    cases same
    rw [if_pos otherMember]
    exact held
  · intro here
    by_cases member : key ∈ keys
    · rw [if_pos member] at here
      apply get?_of_mem
      rw [entries, List.mem_filterMap]
      exact ⟨key, member, by rw [here]; rfl⟩
    · rw [if_neg member] at here
      cases here

/-- After an update the other dictionary's values come first. -/
theorem get?_update (dict other : OrderedDict κ υ) (key : κ) :
    (dict.update other).get? key = (other.get? key).or (dict.get? key) :=
  get?_foldl_set other.entries dict key other.distinct

/-- Entries moved one after the other to new keys stand last, in the order of the moves. -/
theorem entries_foldl_move (moved : List (κ × κ × υ)) (dict : OrderedDict κ υ)
    (present : ∀ item ∈ moved, item.1 ∈ dict.keys) (sources : (moved.map (·.1)).Nodup)
    (targets : (moved.map (·.2.1)).Nodup)
    (free : ∀ item ∈ moved, item.2.1 ∈ dict.keys → item.2.1 = item.1) :
    (moved.foldl (fun current item => (current.pop item.1).set item.2.1 item.2.2) dict).entries =
      dict.entries.filter (fun entry => entry.1 ∉ moved.map (·.1)) ++ moved.map (·.2) := by
  induction moved generalizing dict with
  | nil => simp
  | cons item rest ih =>
      have first := List.nodup_cons.1 sources
      have second := List.nodup_cons.1 targets
      have popped : ∀ key, key ∈ (dict.pop item.1).keys ↔ key ∈ dict.keys ∧ key ≠ item.1 := by
        intro key
        unfold keys pop
        simp only [List.mem_map, List.mem_filter, decide_eq_true_eq]
        constructor
        · rintro ⟨entry, ⟨member, away⟩, rfl⟩
          exact ⟨⟨entry, member, rfl⟩, away⟩
        · rintro ⟨⟨entry, member, rfl⟩, away⟩
          exact ⟨entry, ⟨member, away⟩, rfl⟩
      have absent : item.2.1 ∉ (dict.pop item.1).keys := by
        intro inside
        obtain ⟨known, away⟩ := (popped _).1 inside
        exact away (free item List.mem_cons_self known)
      have appended := entries_set_of_not_mem absent item.2.2
      have stays : item.2.1 ∉ rest.map (·.1) := by
        intro inside
        obtain ⟨other, member, same⟩ := List.mem_map.1 inside
        have known := present other (List.mem_cons_of_mem item member)
        rw [same] at known
        exact first.1 (List.mem_map.2
          ⟨other, member, same.trans (free item List.mem_cons_self known)⟩)
      rw [List.foldl_cons, ih]
      · rw [appended, List.filter_append, List.filter_cons_of_pos (by simpa using stays),
          List.filter_nil, List.map_cons, List.append_assoc, List.singleton_append]
        congr 1
        unfold pop
        dsimp only
        rw [List.filter_filter]
        apply List.filter_congr
        intro entry _
        simp only [List.mem_cons, not_or, ne_eq, Bool.decide_and]
        exact Bool.and_comm _ _
      · intro other member
        rw [mem_keys_set, popped]
        right
        refine ⟨present other (List.mem_cons_of_mem item member), ?_⟩
        intro same
        exact first.1 (List.mem_map.2 ⟨other, member, same⟩)
      · exact first.2
      · exact second.2
      · intro other member inside
        rcases (mem_keys_set _ _ _ _).1 inside with same | known
        · exact absurd (List.mem_map.2 ⟨other, member, same⟩) second.1
        · exact free other (List.mem_cons_of_mem item member) ((popped _).1 known).1

omit [DecidableEq κ] in
theorem keys_mapValues (dict : OrderedDict κ υ) (change : υ → υ) :
    (dict.mapValues change).keys = dict.keys := by
  unfold keys mapValues
  rw [List.map_map]
  rfl

theorem mem_keys_pop (dict : OrderedDict κ υ) (key other : κ) :
    other ∈ (dict.pop key).keys ↔ other ∈ dict.keys ∧ other ≠ key := by
  unfold keys pop
  simp only [List.mem_map, List.mem_filter, decide_eq_true_iff]
  constructor
  · rintro ⟨entry, ⟨member, away⟩, rfl⟩
    exact ⟨⟨entry, member, rfl⟩, away⟩
  · rintro ⟨⟨entry, member, rfl⟩, away⟩
    exact ⟨entry, ⟨member, away⟩, rfl⟩

theorem get?_pop_self (dict : OrderedDict κ υ) (key : κ) : (dict.pop key).get? key = none := by
  apply get?_eq_none
  intro present
  exact ((mem_keys_pop dict key key).1 present).2 rfl

theorem get?_pop_of_ne (dict : OrderedDict κ υ) {key other : κ} (away : other ≠ key) :
    (dict.pop key).get? other = dict.get? other := by
  cases found : dict.get? other with
  | none =>
      apply get?_eq_none
      intro present
      obtain ⟨value, known⟩ := get?_isSome_of_mem_keys ((mem_keys_pop dict key other).1 present).1
      rw [found] at known
      cases known
  | some value =>
      exact get?_of_mem (List.mem_filter.2 ⟨mem_of_get? found, decide_eq_true away⟩)

/-- Lookups after a change are those before it but for its key. -/
theorem get?_pop (dict : OrderedDict κ υ) (key : κ) :
    (dict.pop key).get? = Function.update dict.get? key none := by
  funext other
  rw [Function.update_apply]
  by_cases same : other = key
  · rw [if_pos same, same, get?_pop_self]
  · rw [if_neg same, get?_pop_of_ne dict same]

theorem get?_set (dict : OrderedDict κ υ) (key : κ) (value : υ) :
    (dict.set key value).get? = Function.update dict.get? key (some value) := by
  funext other
  rw [Function.update_apply]
  by_cases same : other = key
  · rw [if_pos same, same, get?_set_self]
  · rw [if_neg same, get?_set_of_ne dict value same]

theorem get?_filterKeys (dict : OrderedDict κ υ) (keep : κ → Bool) (key : κ) :
    (dict.filterKeys keep).get? key = if keep key then dict.get? key else none := by
  cases found : dict.get? key with
  | none =>
      have absent : key ∉ (dict.filterKeys keep).keys := by
        intro present
        obtain ⟨entry, member, rfl⟩ := List.mem_map.1 present
        rw [get?_of_mem (List.mem_filter.1 member).1] at found
        cases found
      rw [get?_eq_none absent, ite_self]
  | some value =>
      split
      · next kept => exact get?_of_mem (List.mem_filter.2 ⟨mem_of_get? found, kept⟩)
      · next dropped =>
          apply get?_eq_none
          intro present
          obtain ⟨entry, member, rfl⟩ := List.mem_map.1 present
          exact dropped (List.mem_filter.1 member).2

theorem get?_mapValues (dict : OrderedDict κ υ) (change : υ → υ) (key : κ) :
    (dict.mapValues change).get? key = (dict.get? key).map change := by
  cases found : dict.get? key with
  | some value => exact get?_of_mem (List.mem_map_of_mem (mem_of_get? found))
  | none =>
      apply get?_eq_none
      intro present
      obtain ⟨changed, member, same⟩ := List.mem_map.1 present
      obtain ⟨entry, old, rfl⟩ := List.mem_map.1 member
      rw [← same, get?_of_mem old] at found
      cases found

end OrderedDict

end UsdConnect
