/-
Purpose: Two values of one attribute have the same fingerprint exactly when they agree but for
  confused numbers.
Trusted boundary: none
Main exports: valueHash_eq_iff, neverDrops_iff, neverDrops_scale, not_neverDrops_minusOne
-/
import Mathlib.Logic.Encodable.Basic
import Mathlib.Logic.Equiv.List
import UsdConnect.Client.ValueHash

namespace UsdConnect

open NumberHash

variable {py : PythonHash}

/-! ### Fingerprints -/

theorem valueHash_ne (value : TransportValue) : valueHash py value ≠ -1 := by
  cases value with
  | bool value => cases value <;> simp [valueHash]
  | int value => exact hashNumber_ne _
  | real value => exact value.hash_ne
  | text value => exact py.text_ne value
  | list items => exact py.tuple_ne _
  | array value => exact py.tuple_ne _

/-- Fingerprints are lawful items of a tuple. -/
theorem neg_one_not_mem_valueHashes (items : List TransportValue) : -1 ∉ valueHashes py items := by
  rw [valueHashes_eq_map]
  intro member
  obtain ⟨value, -, same⟩ := List.mem_map.1 member
  exact valueHash_ne value same

/-- An array's fingerprint tells its shape, its dtype and its memory. -/
theorem arrayHash_eq_iff (free : py.CollisionFree) {first second : MemoryArray} :
    arrayHash py first = arrayHash py second ↔
      first.shape = second.shape ∧ first.dtype = second.dtype ∧ first.memory = second.memory := by
  have lawful (value : MemoryArray) :
      -1 ∉ [py.tuple (value.shape.map Int.ofNat), py.text value.dtype,
        py.bytes value.memory] := by
    simp [(py.tuple_ne _).symm, (py.text_ne _).symm, (py.bytes_ne _).symm]
  have extents (value : MemoryArray) : -1 ∉ value.shape.map Int.ofNat := by
    simp
  constructor
  · intro same
    have items := free.tuple _ _ (lawful first) (lawful second) same
    simp only [List.cons.injEq, and_true] at items
    obtain ⟨shapes, dtypes, memories⟩ := items
    have shape := free.tuple _ _ (extents first) (extents second) shapes
    exact ⟨List.map_injective_iff.2 Int.ofNat_injective shape, free.text dtypes,
      free.bytes memories⟩
  · rintro ⟨shape, dtype, memory⟩
    unfold arrayHash
    rw [shape, dtype, memory]

/-- Lists of fingerprints are equal item by item. -/
theorem map_valueHash_eq_iff {items others : List TransportValue}
    (each : ∀ first ∈ items, ∀ second ∈ others,
      valueHash py first = valueHash py second ↔ first.Confused second) :
    items.map (valueHash py) = others.map (valueHash py) ↔
      List.Forall₂ TransportValue.Confused items others := by
  induction items generalizing others with
  | nil => cases others <;> simp
  | cons first items ih =>
      cases others with
      | nil => simp
      | cons second others =>
          rw [List.map_cons, List.map_cons, List.cons.injEq, List.forall₂_cons,
            each first List.mem_cons_self second List.mem_cons_self, ih]
          intro first member second otherMember
          exact each first (List.mem_cons_of_mem _ member) second
            (List.mem_cons_of_mem _ otherMember)

theorem exists_list_of_hasType {item : TransportType} {value : TransportValue}
    (typed : value.HasType (.list item)) :
    ∃ items, value = .list items ∧ ∀ inner ∈ items, inner.HasType item := by
  cases value with
  | list items => exact ⟨items, rfl, typed⟩
  | _ => cases typed

/-- Exactly the confused values of one form have one fingerprint. -/
theorem valueHash_eq_iff (free : py.CollisionFree) {type : TransportType}
    {first second : TransportValue} (typed : first.HasType type) (others : second.HasType type) :
    valueHash py first = valueHash py second ↔ first.Confused second := by
  induction type generalizing first second with
  | bool =>
      cases first <;> try cases typed
      cases second <;> try cases others
      rename_i value other
      constructor
      · intro same
        have equal : value = other := by
          cases value <;> cases other <;> first | rfl | cases same
        exact equal ▸ .bool value
      · rintro ⟨⟩
        rfl
  | int =>
      cases first <;> try cases typed
      cases second <;> try cases others
      rw [valueHash, valueHash, hashNumber_eq_iff]
      constructor
      · exact .int
      · rintro ⟨⟩
        assumption
  | real =>
      cases first <;> try cases typed
      cases second <;> try cases others
      rw [valueHash, valueHash, Double.hash_eq_iff]
      constructor
      · exact .real
      · rintro ⟨⟩
        assumption
  | text =>
      cases first <;> try cases typed
      cases second <;> try cases others
      rename_i value other
      constructor
      · intro same
        exact free.text same ▸ .text value
      · rintro ⟨⟩
        rfl
  | list item ih =>
      obtain ⟨items, rfl, each⟩ := exists_list_of_hasType typed
      obtain ⟨itemsAfter, rfl, eachAfter⟩ := exists_list_of_hasType others
      have inner := @map_valueHash_eq_iff py items itemsAfter fun value member other otherMember =>
        ih (each value member) (eachAfter other otherMember)
      rw [← valueHashes_eq_map, ← valueHashes_eq_map] at inner
      rw [valueHash, valueHash]
      constructor
      · intro same
        exact .list (inner.1 (free.tuple _ _ (neg_one_not_mem_valueHashes items)
          (neg_one_not_mem_valueHashes itemsAfter) same))
      · rintro ⟨⟩
        exact congrArg py.tuple (inner.2 (by assumption))
  | array =>
      cases first <;> try cases typed
      cases second <;> try cases others
      rw [valueHash, valueHash, arrayHash_eq_iff free]
      constructor
      · rintro ⟨shape, dtype, memory⟩
        exact .array shape dtype memory
      · rintro ⟨⟩
        exact ⟨by assumption, by assumption, by assumption⟩

/-! ### Senders -/

/-- A turn of the loop leaves the fingerprints of other attributes. -/
theorem get?_visitDefault {delta : GprimDelta} {attr : DefaultAttribute} {name : String}
    (away : name ≠ attr.name) :
    (visitDefault py delta attr).previous.get? name = delta.previous.get? name := by
  unfold visitDefault
  split
  · rfl
  · split
    · exact OrderedDict.get?_pop_of_ne _ away
    · split
      · rfl
      · split
        · exact OrderedDict.get?_pop_of_ne _ away
        · split <;> rfl

/-- What a turn found changed stays in the event. -/
theorem changed_visitDefault {delta : GprimDelta} (attr : DefaultAttribute)
    {entry : String × TransportValue} (member : entry ∈ delta.changed) :
    entry ∈ (visitDefault py delta attr).changed := by
  unfold visitDefault
  split
  · exact member
  · split
    · exact member
    · split
      · exact member
      · split
        · exact member
        · split
          · exact member
          · exact List.mem_append_left _ member

theorem changed_foldl_visitDefault (attributes : List DefaultAttribute) {delta : GprimDelta}
    {entry : String × TransportValue} (member : entry ∈ delta.changed) :
    entry ∈ (attributes.foldl (visitDefault py) delta).changed := by
  induction attributes generalizing delta with
  | nil => exact member
  | cons attr attributes ih => exact ih (changed_visitDefault attr member)

/-- A generic attribute whose value has a new fingerprint is found changed. -/
theorem mem_changed_visitDefault {delta : GprimDelta} {attr : DefaultAttribute}
    {value : TransportValue} (generic : attr.generic = true) (plain : attr.needsSdf = false)
    (authored : attr.default = some (some value))
    (fresh : delta.previous.get? attr.name ≠ some (valueHash py value)) :
    (attr.name, value) ∈ (visitDefault py delta attr).changed := by
  unfold visitDefault
  simp [generic, plain, authored, fresh]

theorem mem_changed_foldl {attributes : List DefaultAttribute} {delta : GprimDelta}
    {attr : DefaultAttribute} {value : TransportValue} (member : attr ∈ attributes)
    (distinct : (attributes.map DefaultAttribute.name).Nodup) (generic : attr.generic = true)
    (plain : attr.needsSdf = false) (authored : attr.default = some (some value))
    (fresh : delta.previous.get? attr.name ≠ some (valueHash py value)) :
    (attr.name, value) ∈ (attributes.foldl (visitDefault py) delta).changed := by
  induction attributes generalizing delta with
  | nil => cases member
  | cons other attributes ih =>
      obtain ⟨absent, distinct⟩ := List.nodup_cons.1 distinct
      rcases List.mem_cons.1 member with rfl | later
      · exact changed_foldl_visitDefault attributes
          (mem_changed_visitDefault generic plain authored fresh)
      · have away : attr.name ≠ other.name := by
          intro same
          exact absent (same ▸ List.mem_map_of_mem later)
        apply ih later distinct
        rw [get?_visitDefault away]
        exact fresh

/-- A value with a new fingerprint is sent by all three. -/
theorem neverDrops_of_ne {sent value : TransportValue}
    (fresh : valueHash py sent ≠ valueHash py value) : NeverDrops py sent value where
  fingerprint := fresh
  gprim := by
    intro previous attributes attr member distinct generic plain authored known
    apply mem_changed_foldl member distinct generic plain authored
    show previous.get? attr.name ≠ _
    rw [known]
    exact fun same => fresh (Option.some.inj same)
  instancer := by
    intro current cached name found known
    have due : (name, value) ∈ current.entries.filter fun entry =>
        cached.get? entry.1 ≠ some (valueHash py entry.2) := by
      apply List.mem_filter.2
      refine ⟨OrderedDict.mem_of_get? found, ?_⟩
      simpa [known] using fresh
    refine ⟨_, ?_, due⟩
    unfold diffAndSnapshot
    exact if_neg fun empty => List.ne_nil_of_mem due (List.isEmpty_iff.1 empty)
  samples := by
    intro Value convert table cached time raw found converted known
    apply mem_diff_dirty.2
    refine ⟨by rw [found]; exact converted, ?_⟩
    rw [known]
    exact fun same => fresh (Option.some.inj same)

/-- A changed value is never dropped exactly when it is not confused with the one before it. -/
theorem neverDrops_iff (free : py.CollisionFree) {type : TransportType}
    {sent value : TransportValue} (typed : sent.HasType type) (others : value.HasType type) :
    (¬ sent.Same value → NeverDrops py sent value) ↔ sent.Same value ∨ ¬ sent.Confused value := by
  rw [← valueHash_eq_iff free typed others]
  constructor
  · intro property
    by_cases same : sent.Same value
    · exact .inl same
    · exact .inr (property same).fingerprint
  · rintro (same | fresh) changed
    · exact absurd same changed
    · exact neverDrops_of_ne fresh

/-! ### A scale and its mirror image -/

/-- Hashes that are numbers of the hashed things. -/
def encodedHash : PythonHash where
  text value := Encodable.encode (value.toList.map Char.toNat)
  bytes value := Encodable.encode (value.map UInt8.toNat)
  tuple items := Encodable.encode items
  text_ne _ := by omega
  bytes_ne _ := by omega
  tuple_ne _ := by omega

theorem collisionFree_encodedHash : encodedHash.CollisionFree where
  text := by
    intro first second same
    have codes := Encodable.encode_injective (Int.ofNat_injective same)
    exact String.toList_injective (List.map_injective_iff.2 (fun _ _ => Char.toNat_inj.1) codes)
  bytes := by
    intro first second same
    have codes := Encodable.encode_injective (Int.ofNat_injective same)
    exact List.map_injective_iff.2 (fun _ _ => UInt8.toNat_inj.1) codes
  tuple := by
    intro items others _ _ same
    exact Encodable.encode_injective (Int.ofNat_injective same)

/-- A scale along the first axis. -/
def scaleOf (factor : Dyadic) : TransportValue :=
  .list [.real (.finite factor), .real (.finite 1), .real (.finite 1)]

theorem hasType_scaleOf (factor : Dyadic) : (scaleOf factor).HasType (.list .real) := by
  intro value member
  simp only [List.mem_cons, List.not_mem_nil, or_false] at member
  rcases member with rfl | rfl | rfl <;> trivial

theorem same_scaleOf {factor other : Dyadic} (same : (scaleOf factor).Same (scaleOf other)) :
    factor = other := by
  rcases same with _ | _ | _ | _ | items
  cases items with
  | cons head _ =>
      rcases head with _ | _ | real
      cases real
      rfl

theorem confused_scaleOf {factor other : Dyadic}
    (confused : (scaleOf factor).Confused (scaleOf other)) : Confused factor other := by
  rcases confused with _ | _ | _ | _ | items
  cases items with
  | cons head _ =>
      rcases head with _ | _ | real
      exact real

theorem neverDrops_scale : NeverDrops encodedHash (scaleOf 2) (scaleOf 3) := by
  apply (neverDrops_iff collisionFree_encodedHash (hasType_scaleOf 2) (hasType_scaleOf 3)).2
  · exact .inr fun confused => absurd (confused_scaleOf confused) (by decide +kernel)
  · exact fun same => absurd (same_scaleOf same) (by decide)

/-- Mirroring a scale by -1 and then by -2 has no effect on the fingerprint. -/
theorem not_neverDrops_minusOne :
    ¬ ∀ (py : PythonHash), py.CollisionFree → ∀ (type : TransportType)
      (sent value : TransportValue), sent.HasType type → value.HasType type →
        ¬ sent.Same value → NeverDrops py sent value := by
  intro claim
  have dropped := claim encodedHash collisionFree_encodedHash (.list .real) (scaleOf (-1))
    (scaleOf (-2)) (hasType_scaleOf _) (hasType_scaleOf _)
    fun same => absurd (same_scaleOf same) (by decide)
  apply dropped.fingerprint
  have alike : hashNumber (-1) = hashNumber (-2) := by decide +kernel
  show encodedHash.tuple [hashNumber (-1), _, _] = encodedHash.tuple [hashNumber (-2), _, _]
  rw [alike]

end UsdConnect
