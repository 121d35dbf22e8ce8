/-
Purpose: Which shader input values survive the wire.  Declared types always do; a value does when
  it has a slot and its sequence fits the slot that the declared type and the elements select.
Trusted boundary: none
Main exports: SameInput, InputSurvives, connectableInputs_survive_iff
-/
import UsdConnect.Codec.ConnectableInputs
import UsdConnect.Proofs.GprimAttrs

namespace UsdConnect

/-- A value and what the decoder returned: reals up to float32, and integers as reals only where the
declared type is a float wire type. -/
inductive SameInput (floatDeclared : Bool) : PyValue → PyValue → Prop
  | bool (value : Bool) : SameInput floatDeclared (.bool value) (.bool value)
  | integer {value : PyValue} {number : Int} :
      value.integer? = some number → SameInput floatDeclared value (.int number)
  | converted {value : PyValue} {number : Int} :
      floatDeclared → value.integer? = some number →
        SameInput floatDeclared value (.float (binary32.convert (binary64.round number)))
  | real {value : PyValue} {real : FloatValue} :
      value.real? = some real → SameInput floatDeclared value (.float (binary32.convert real))
  | throughDouble {value : PyValue} {real : FloatValue} :
      value.real? = some real →
        SameInput floatDeclared value (.float (binary32.convert (binary64.convert real)))
  | text (value : String) : SameInput floatDeclared (.text value) (.text value)
  | list {items decoded : List PyValue} :
      List.Forall₂ (SameInput floatDeclared) items decoded →
        SameInput floatDeclared (.list items) (.list decoded)
  | array {array : NdArray} {decoded : PyValue} :
      SameInput floatDeclared array.toList decoded → SameInput floatDeclared (.array array) decoded

/-- Elements that a float vector may carry: integers only where floats are declared. -/
def FloatInput (floatDeclared : Bool) : PyValue → Prop
  | .int _ => floatDeclared
  | .numpyInt _ => floatDeclared
  | .float _ => True
  | .numpyDouble _ => True
  | .numpyFloat _ => True
  | _ => False

/-- All strings, all undeclared integers, or all for the float vector. -/
def SequenceSurvives (floatDeclared : Bool) (items : List PyValue) : Prop :=
  (∀ item ∈ items, item.string?.isSome) ∨
    (floatDeclared = false ∧ ∀ item ∈ items, item.integer?.isSome) ∨
      ∀ item ∈ items, FloatInput floatDeclared item

/-- The encoder has a slot for the value. -/
def PyValue.HasSlot : PyValue → Prop
  | .numpyInt _ => False
  | .numpyFloat _ => False
  | .bytes _ => False
  | _ => True

def InputSurvives (floatDeclared : Bool) (value : PyValue) : Prop :=
  match value.sequence? with
  | some items => SequenceSurvives floatDeclared items
  | none => value.HasSlot

/-! ### Elements -/

section Elements

variable {floatDeclared : Bool}

theorem SameInput.list_iff {items decoded : List PyValue} :
    SameInput floatDeclared (.list items) (.list decoded) ↔
      List.Forall₂ (SameInput floatDeclared) items decoded := by
  constructor
  · intro same
    cases same with
    | list all => exact all
  · exact SameInput.list

theorem SameInput.array_iff {view : NdArray} {decoded : PyValue} :
    SameInput floatDeclared (.array view) decoded ↔
      SameInput floatDeclared view.toList decoded := by
  constructor
  · intro same
    cases same with
    | integer known => cases known
    | converted _ known => cases known
    | real known => cases known
    | throughDouble known => cases known
    | array inner => exact inner
  · exact SameInput.array

/-- NumPy's scalar of an integer is the same input as the integer, and so for reals. -/
theorem SameInput.element_iff {value element decoded : PyValue}
    (integers : value.integer? = element.integer?) (reals : value.real? = element.real?)
    (counts : value.number?.isSome) (atoms : element.number?.isSome)
    (unbool : ∀ truth, value ≠ .bool truth ∧ element ≠ .bool truth) :
    SameInput floatDeclared value decoded ↔ SameInput floatDeclared element decoded := by
  constructor
  · intro same
    cases same with
    | bool truth => exact absurd rfl (unbool truth).1
    | integer known => exact SameInput.integer (integers ▸ known)
    | converted declared known => exact SameInput.converted declared (integers ▸ known)
    | real known => exact SameInput.real (reals ▸ known)
    | throughDouble known => exact SameInput.throughDouble (reals ▸ known)
    | text _ => cases counts
    | list _ => cases counts
    | array _ => cases counts
  · intro same
    cases same with
    | bool truth => exact absurd rfl (unbool truth).2
    | integer known => exact SameInput.integer (integers.symm ▸ known)
    | converted declared known => exact SameInput.converted declared (integers.symm ▸ known)
    | real known => exact SameInput.real (reals.symm ▸ known)
    | throughDouble known => exact SameInput.throughDouble (reals.symm ▸ known)
    | text _ => cases atoms
    | list _ => cases atoms
    | array _ => cases atoms

theorem SameInput.elements_iff (data : ArrayData) {decoded : List PyValue} :
    List.Forall₂ (SameInput floatDeclared) data.items decoded ↔
      List.Forall₂ (SameInput floatDeclared) data.elements decoded := by
  cases data with
  | bools items => exact Iff.rfl
  | ints items =>
      unfold ArrayData.items ArrayData.elements
      simp only [List.forall₂_map_left_iff]
      have same : ∀ (number : Int) (value : PyValue),
          SameInput floatDeclared (.int number) value ↔
            SameInput floatDeclared (.numpyInt number) value := fun number value =>
        SameInput.element_iff rfl rfl rfl rfl fun _ => ⟨nofun, nofun⟩
      simp only [same]
  | floats items =>
      unfold ArrayData.items ArrayData.elements
      simp only [List.forall₂_map_left_iff]
      have same : ∀ (real : FloatValue) (value : PyValue),
          SameInput floatDeclared (.float real) value ↔
            SameInput floatDeclared (.numpyFloat real) value := fun real value =>
        SameInput.element_iff rfl rfl rfl rfl fun _ => ⟨nofun, nofun⟩
      simp only [same]
  | texts items => exact Iff.rfl
  | bytes items => exact Iff.rfl

/-- A sequence is the same input as a decoded list exactly when its items are; an array with rows
of its own never is encoded. -/
theorem SameInput.sequence_iff {value : PyValue} {items decoded : List PyValue}
    (sequence : value.sequence? = some items) (flat : ∀ view, .array view ∉ items) :
    SameInput floatDeclared value (.list decoded) ↔
      List.Forall₂ (SameInput floatDeclared) items decoded := by
  cases value with
  | list values =>
      cases sequence
      exact SameInput.list_iff
  | array view =>
      unfold PyValue.sequence? at sequence
      dsimp only at sequence
      split at sequence
      · next width shape =>
          cases sequence
          rw [SameInput.array_iff, (NdArray.toList_row shape).1, SameInput.list_iff,
            SameInput.elements_iff]
      · next inner _ shape =>
          cases sequence
          have list : view.toList = .list [] := by
            unfold NdArray.toList
            rw [shape]
            rfl
          rw [SameInput.array_iff, list, SameInput.list_iff]
      · cases sequence
        exact absurd List.mem_cons_self (flat view)
  | bool _ => cases sequence
  | int _ => cases sequence
  | float _ => cases sequence
  | numpyDouble _ => cases sequence
  | numpyInt _ => cases sequence
  | numpyFloat _ => cases sequence
  | text _ => cases sequence
  | bytes _ => cases sequence

/-- Only reals and declared integers are decoded as floats. -/
theorem SameInput.float_cases {value : PyValue} {stored : FloatValue}
    (same : SameInput floatDeclared value (.float stored)) :
    (floatDeclared = true ∧ value.integer?.isSome) ∨ value.real?.isSome ∨
      ∃ view, value = .array view := by
  generalize kept : PyValue.float stored = decoded at same
  cases same with
  | bool _ => cases kept
  | integer _ => cases kept
  | converted declared known => exact Or.inl ⟨declared, by rw [known]; rfl⟩
  | real known => exact Or.inr (Or.inl (by rw [known]; rfl))
  | throughDouble known => exact Or.inr (Or.inl (by rw [known]; rfl))
  | text _ => cases kept
  | list _ => cases kept
  | array _ => exact Or.inr (Or.inr ⟨_, rfl⟩)

theorem SameInput.toFloat_iff {py : Runtime} {value : PyValue} {double : FloatValue}
    (made : value.toFloat py = .ok double) :
    SameInput floatDeclared value (.float (binary32.convert double)) ↔
      FloatInput floatDeclared value := by
  constructor
  · intro same
    rcases same.float_cases with ⟨declared, known⟩ | known | ⟨view, rfl⟩
    · cases value with
      | int _ => exact declared
      | numpyInt _ => exact declared
      | _ => cases known
    · cases value with
      | float _ => trivial
      | numpyDouble _ => trivial
      | numpyFloat _ => trivial
      | _ => cases known
    · cases made
  · intro carried
    cases value with
    | int value =>
        rw [intToDouble_ok made]
        exact SameInput.converted carried rfl
    | numpyInt value =>
        cases made
        exact SameInput.converted carried rfl
    | float value =>
        cases made
        exact SameInput.real rfl
    | numpyDouble value =>
        cases made
        exact SameInput.real rfl
    | numpyFloat value =>
        cases made
        exact SameInput.throughDouble rfl
    | _ => cases carried

theorem SameInput.strings {items : List PyValue} (strings : ∀ item ∈ items, item.string?.isSome) :
    List.Forall₂ (SameInput floatDeclared) items
      ((items.filterMap PyValue.string?).map .text) := by
  induction items with
  | nil => exact List.Forall₂.nil
  | cons item rest ih =>
      rw [List.forall_mem_cons] at strings
      cases item with
      | text value => exact List.Forall₂.cons (SameInput.text value) (ih strings.2)
      | _ => cases strings.1

theorem SameInput.integers {items : List PyValue}
    (integers : ∀ item ∈ items, item.integer?.isSome) :
    List.Forall₂ (SameInput floatDeclared) items
      ((items.filterMap PyValue.integer?).map .int) := by
  induction items with
  | nil => exact List.Forall₂.nil
  | cons item rest ih =>
      rw [List.forall_mem_cons] at integers
      obtain ⟨number, known⟩ := Option.isSome_iff_exists.1 integers.1
      rw [List.filterMap_cons, known, List.map_cons]
      exact List.Forall₂.cons (SameInput.integer known) (ih integers.2)

end Elements

/-! ### Values -/

theorem asInt32_int {py : Runtime} {number stored : Int}
    (narrow : (PyValue.int number).asInt32 py = .ok stored) : stored = number := by
  simp only [PyValue.asInt32] at narrow
  split at narrow
  · cases narrow
    rfl
  · cases narrow

theorem createIntVector_ints {py : Runtime} {numbers vector : List Int}
    (created : createIntVector py (numbers.map .int) = .ok vector) : vector = numbers := by
  have each := mapM_eq_ok_iff.1 created
  rw [List.forall₂_map_left_iff] at each
  exact (List.forall₂_eq_eq_eq ▸ each.imp fun _ _ narrow => (asInt32_int narrow).symm :
    numbers = vector).symm

theorem createFloatVector_floats {py : Runtime} {reals vector : List FloatValue}
    (created : createFloatVector py (reals.map .float) = .ok vector) :
    vector = reals.map binary32.convert := by
  have each := mapM_eq_ok_iff.1 created
  rw [List.forall₂_map_left_iff] at each
  rw [← List.forall₂_eq_eq_eq, List.forall₂_map_right_iff]
  exact each.flip.imp fun _ _ stored => (Except.ok.inj stored).symm

theorem toFloat_no_array {py : Runtime} {items : List PyValue} {doubles : List FloatValue}
    (made : items.mapM (PyValue.toFloat py) = .ok doubles) (view : NdArray) :
    .array view ∉ items := by
  intro member
  obtain ⟨real, same⟩ := exists_of_mapM_eq_ok made member
  cases same

/-- The table an input is encoded to: its name and type, and a value that is the same input exactly
when the input survives. -/
structure EncodedInput (name typeName : String) (value : PyValue)
    (civ : ConnectableInputValue) : Prop where
  named : civ.name = name
  typed : civ.typeName = typeName
  slot : civ.value?.isSome ↔ value.HasSlot
  same : (∃ decoded, civ.value? = some decoded ∧
    SameInput (decide (typeName ∈ floatWireTypes)) value decoded) ↔
      InputSurvives (decide (typeName ∈ floatWireTypes)) value

theorem EncodedInput.ofSame {name typeName : String} {value decoded : PyValue}
    {civ : ConnectableInputValue} (named : civ.name = name) (typed : civ.typeName = typeName)
    (slot : value.HasSlot) (known : civ.value? = some decoded)
    (same : SameInput (decide (typeName ∈ floatWireTypes)) value decoded ↔
      InputSurvives (decide (typeName ∈ floatWireTypes)) value) :
    EncodedInput name typeName value civ where
  named := named
  typed := typed
  slot := by
    rw [known]
    exact iff_of_true rfl slot
  same := by
    rw [← same, known]
    constructor
    · rintro ⟨other, stands, equal⟩
      cases stands
      exact equal
    · intro equal
      exact ⟨decoded, rfl, equal⟩

theorem encodeSequence_encoded {py : Runtime} {name typeName : String} {value : PyValue}
    {items : List PyValue} {civ : ConnectableInputValue}
    (sequence : value.sequence? = some items) (slot : value.HasSlot)
    (encoded : encodeSequence py (decide (typeName ∈ floatWireTypes)) items
      { name := name, typeName := typeName } = .ok civ) :
    EncodedInput name typeName value civ := by
  have survives : InputSurvives (decide (typeName ∈ floatWireTypes)) value ↔
      SequenceSurvives (decide (typeName ∈ floatWireTypes)) items := by
    unfold InputSurvives
    rw [sequence]
  have flat : (∀ item ∈ items, item.string?.isSome ∨ item.integer?.isSome) →
      ∀ view, .array view ∉ items := by
    intro atoms view member
    rcases atoms _ member with known | known <;> cases known
  unfold encodeSequence at encoded
  split at encoded
  · next strings =>
      cases encoded
      refine EncodedInput.ofSame rfl rfl slot rfl ?_
      rw [SameInput.sequence_iff sequence (flat fun item member => Or.inl (strings.2 item member)),
        survives]
      exact iff_of_true (SameInput.strings strings.2) (Or.inl strings.2)
  · next noStrings =>
      split at encoded
      · next integers =>
          obtain ⟨vector, created, rfl⟩ := except_map_eq_ok_iff.1 encoded
          obtain rfl := createIntVector_ints created
          refine EncodedInput.ofSame rfl rfl slot rfl ?_
          rw [SameInput.sequence_iff sequence
            (flat fun item member => Or.inr (integers.2 item member)), survives]
          exact iff_of_true (SameInput.integers integers.2) (Or.inr (Or.inl integers))
      · next noIntegers =>
          obtain ⟨doubles, made, packed⟩ := except_bind_eq_ok_iff.1 encoded
          obtain ⟨vector, created, rfl⟩ := except_map_eq_ok_iff.1 packed
          obtain rfl := createFloatVector_floats created
          refine EncodedInput.ofSame rfl rfl slot rfl ?_
          have each : ∀ (item : PyValue) (double : FloatValue), item.toFloat py = .ok double →
              (SameInput (decide (typeName ∈ floatWireTypes)) item
                ((PyValue.float ∘ binary32.convert) double) ↔
                  FloatInput (decide (typeName ∈ floatWireTypes)) item) :=
            fun _ _ double => SameInput.toFloat_iff double
          rw [SameInput.sequence_iff sequence (toFloat_no_array made), survives, List.map_map,
            forall₂_map_iff (mapM_eq_ok_iff.1 made) each]
          constructor
          · intro floats
            exact Or.inr (Or.inr floats)
          · rintro (strings | integers | floats)
            · have empty : items = [] := by
                by_contra nonempty
                exact noStrings ⟨nonempty, strings⟩
              rw [empty]
              exact fun item member => nomatch member
            · exact absurd integers noIntegers
            · exact floats

theorem encodeConnectableInputValue_encoded {py : Runtime} {name typeName : String}
    {value : PyValue} {civ : ConnectableInputValue}
    (encoded : encodeConnectableInputValue py name typeName value = .ok civ) :
    EncodedInput name typeName value civ := by
  cases value with
  | bool value =>
      cases encoded
      exact EncodedInput.ofSame rfl rfl trivial rfl (iff_of_true (SameInput.bool value) trivial)
  | int value =>
      by_cases declared : typeName ∈ floatWireTypes
      · simp only [encodeConnectableInputValue, decide_eq_true declared, if_true] at encoded
        obtain ⟨double, made, packed⟩ := except_bind_eq_ok_iff.1 encoded
        obtain ⟨real, fits, rfl⟩ := except_map_eq_ok_iff.1 packed
        obtain rfl := packFloat32_ok fits
        obtain rfl := intToDouble_ok made
        refine EncodedInput.ofSame rfl rfl trivial rfl (iff_of_true ?_ trivial)
        exact SameInput.converted (decide_eq_true declared) rfl
      · simp only [encodeConnectableInputValue, decide_eq_false declared] at encoded
        obtain ⟨packed, fits, rfl⟩ := except_map_eq_ok_iff.1 encoded
        obtain rfl := packInt32_ok fits
        exact EncodedInput.ofSame rfl rfl trivial rfl (iff_of_true (SameInput.integer rfl) trivial)
  | float value =>
      obtain ⟨packed, fits, rfl⟩ := except_map_eq_ok_iff.1 encoded
      obtain rfl := packFloat32_ok fits
      exact EncodedInput.ofSame rfl rfl trivial rfl (iff_of_true (SameInput.real rfl) trivial)
  | numpyDouble value =>
      obtain ⟨packed, fits, rfl⟩ := except_map_eq_ok_iff.1 encoded
      obtain rfl := packFloat32_ok fits
      exact EncodedInput.ofSame rfl rfl trivial rfl (iff_of_true (SameInput.real rfl) trivial)
  | numpyInt value =>
      cases encoded
      exact ⟨rfl, rfl, iff_of_false Bool.false_ne_true not_false,
        iff_of_false (by rintro ⟨_, known, _⟩; cases known) not_false⟩
  | numpyFloat value =>
      cases encoded
      exact ⟨rfl, rfl, iff_of_false Bool.false_ne_true not_false,
        iff_of_false (by rintro ⟨_, known, _⟩; cases known) not_false⟩
  | bytes value =>
      cases encoded
      exact ⟨rfl, rfl, iff_of_false Bool.false_ne_true not_false,
        iff_of_false (by rintro ⟨_, known, _⟩; cases known) not_false⟩
  | text value =>
      cases encoded
      exact EncodedInput.ofSame rfl rfl trivial rfl (iff_of_true (SameInput.text value) trivial)
  | list items => exact encodeSequence_encoded rfl trivial encoded
  | array view =>
      obtain ⟨items, sequence⟩ : ∃ items, (PyValue.array view).sequence? = some items := by
        unfold PyValue.sequence?
        dsimp only
        split
        · exact ⟨_, rfl⟩
        · exact ⟨_, rfl⟩
        · exact ⟨_, rfl⟩
      simp only [encodeConnectableInputValue, sequence] at encoded
      exact encodeSequence_encoded sequence trivial encoded

/-! ### Events -/

/-- The decoded event has the inputs of the event, with the same values. -/
def InputsDecodeSame (ev : ConnectableInputEvent) (sci : SetConnectableInput) : Prop :=
  List.Forall₂ (fun input decoded => input.1 = decoded.1 ∧
    SameInput (decide (ev.declared input.1 ∈ floatWireTypes)) input.2 decoded.2)
      ev.inputs.entries (dictSetConnectableInput sci).inputs.entries

/-- The entries the decoder keeps. -/
def decodedInputs (civs : List ConnectableInputValue) : List (String × PyValue) :=
  civs.filterMap fun civ => civ.value?.map fun value => (civ.name, value)

theorem decodedInputs_cons_some {civ : ConnectableInputValue} {value : PyValue}
    {rest : List ConnectableInputValue} (known : civ.value? = some value) :
    decodedInputs (civ :: rest) = (civ.name, value) :: decodedInputs rest := by
  unfold decodedInputs
  rw [List.filterMap_cons, known]
  rfl

theorem decodedInputs_cons_none {civ : ConnectableInputValue} {rest : List ConnectableInputValue}
    (dropped : civ.value? = none) : decodedInputs (civ :: rest) = decodedInputs rest := by
  unfold decodedInputs
  rw [List.filterMap_cons, dropped]
  rfl

theorem names_decodedInputs (civs : List ConnectableInputValue) :
    ((decodedInputs civs).map (·.1)).Sublist (civs.map (·.name)) := by
  induction civs with
  | nil => exact List.Sublist.refl _
  | cons civ rest ih =>
      cases known : civ.value? with
      | some value =>
          rw [decodedInputs_cons_some known]
          exact ih.cons_cons civ.name
      | none =>
          rw [decodedInputs_cons_none known]
          exact ih.cons civ.name

section Entries

variable {declared : String → String} {entries : List (String × PyValue)}
  {civs : List ConnectableInputValue}

theorem names_of_encoded
    (encoded : List.Forall₂ (fun input civ => EncodedInput input.1 (declared input.1) input.2 civ)
      entries civs) : civs.map (·.name) = entries.map (·.1) := by
  induction encoded with
  | nil => rfl
  | cons here _ ih => rw [List.map_cons, List.map_cons, here.named, ih]

theorem types_of_encoded
    (encoded : List.Forall₂ (fun input civ => EncodedInput input.1 (declared input.1) input.2 civ)
      entries civs) : (civs.map fun civ => (civ.name, civ.typeName)) =
        entries.map fun input => (input.1, declared input.1) := by
  induction encoded with
  | nil => rfl
  | cons here _ ih => rw [List.map_cons, List.map_cons, here.named, here.typed, ih]

theorem decodedInputs_same_iff
    (encoded : List.Forall₂ (fun input civ => EncodedInput input.1 (declared input.1) input.2 civ)
      entries civs) :
    List.Forall₂ (fun input decoded => input.1 = decoded.1 ∧
        SameInput (decide (declared input.1 ∈ floatWireTypes)) input.2 decoded.2)
        entries (decodedInputs civs) ↔
      ∀ input ∈ entries,
        InputSurvives (decide (declared input.1 ∈ floatWireTypes)) input.2 := by
  induction encoded with
  | nil => exact iff_of_true List.Forall₂.nil fun _ member => nomatch member
  | @cons input civ rest later here others ih =>
      rw [List.forall_mem_cons, ← ih, ← here.same]
      cases known : civ.value? with
      | some value =>
          rw [decodedInputs_cons_some known, List.forall₂_cons]
          constructor
          · rintro ⟨⟨_, same⟩, tail⟩
            exact ⟨⟨value, rfl, same⟩, tail⟩
          · rintro ⟨⟨decoded, stands, same⟩, tail⟩
            cases stands
            exact ⟨⟨here.named.symm, same⟩, tail⟩
      | none =>
          rw [decodedInputs_cons_none known]
          apply iff_of_false
          · intro same
            have counted := same.length_eq
            have kept : (decodedInputs later).length ≤ later.length :=
              List.length_filterMap_le _ _
            have total := others.length_eq
            rw [List.length_cons] at counted
            omega
          · rintro ⟨⟨_, stands, _⟩, _⟩
            cases stands

/-- An input is in the decoded event exactly when the encoder has a slot for its value. -/
theorem mem_decodedInputs_iff (distinct : (entries.map (·.1)).Nodup)
    (encoded : List.Forall₂ (fun input civ => EncodedInput input.1 (declared input.1) input.2 civ)
      entries civs) :
    ∀ input ∈ entries, input.1 ∈ (decodedInputs civs).map (·.1) ↔ input.2.HasSlot := by
  induction encoded with
  | nil => exact fun _ member => nomatch member
  | @cons input civ rest later here others ih =>
      rw [List.map_cons, List.nodup_cons] at distinct
      have sublist : ∀ name ∈ (decodedInputs later).map (·.1), name ∈ rest.map (·.1) := by
        intro name member
        rw [← names_of_encoded others]
        exact (names_decodedInputs later).subset member
      intro other member
      cases known : civ.value? with
      | some value =>
          rw [decodedInputs_cons_some known, List.map_cons, List.mem_cons, here.named]
          rcases List.mem_cons.1 member with rfl | inside
          · refine iff_of_true (Or.inl rfl) (here.slot.1 ?_)
            rw [known]
            rfl
          · have apart : other.1 ≠ input.1 := by
              intro same
              exact distinct.1 (same ▸ List.mem_map_of_mem inside)
            rw [or_iff_right apart]
            exact ih distinct.2 other inside
      | none =>
          rw [decodedInputs_cons_none known]
          rcases List.mem_cons.1 member with rfl | inside
          · apply iff_of_false
            · exact fun present => distinct.1 (sublist _ present)
            · intro slot
              have present := here.slot.2 slot
              rw [known] at present
              cases present
          · exact ih distinct.2 other inside

end Entries

/-- An encoded event keeps the declared types of its inputs and drops exactly the values without a
slot; all its inputs come back the same exactly when each survives. -/
theorem connectableInputs_survive_iff (py : Runtime) (ev : ConnectableInputEvent)
    (sci : SetConnectableInput) (encoded : encodeSetConnectableInput py ev = .ok sci) :
    (dictSetConnectableInput sci).inputTypes.entries =
        ev.inputs.entries.map (fun input => (input.1, ev.declared input.1)) ∧
      (∀ input ∈ ev.inputs.entries,
        input.1 ∈ (dictSetConnectableInput sci).inputs.keys ↔ input.2.HasSlot) ∧
      (InputsDecodeSame ev sci ↔ ∀ input ∈ ev.inputs.entries,
        InputSurvives (decide (ev.declared input.1 ∈ floatWireTypes)) input.2) := by
  obtain ⟨civs, made, later⟩ := except_bind_eq_ok_iff.1 encoded
  obtain ⟨time, _, packed⟩ := except_bind_eq_ok_iff.1 later
  cases packed
  have tables : List.Forall₂ (fun input civ =>
      EncodedInput input.1 (ev.declared input.1) input.2 civ) ev.inputs.entries civs :=
    (mapM_eq_ok_iff.1 made).imp fun _ _ stored => encodeConnectableInputValue_encoded stored
  have names : (civs.map (·.name)).Nodup := by
    rw [names_of_encoded tables]
    exact ev.inputs.distinct
  have kept : (OrderedDict.ofEntries (decodedInputs civs)).entries = decodedInputs civs := by
    apply OrderedDict.entries_ofEntries
    exact names.sublist (names_decodedInputs civs)
  have typed : (OrderedDict.ofEntries (civs.map fun civ => (civ.name, civ.typeName))).entries =
      civs.map fun civ => (civ.name, civ.typeName) := by
    apply OrderedDict.entries_ofEntries
    rw [List.map_map]
    exact names
  refine ⟨typed.trans (types_of_encoded tables), ?_, ?_⟩
  · intro input member
    change input.1 ∈ (OrderedDict.ofEntries (decodedInputs civs)).entries.map (·.1) ↔ _
    rw [kept]
    exact mem_decodedInputs_iff ev.inputs.distinct tables input member
  · change List.Forall₂ _ _ (OrderedDict.ofEntries (decodedInputs civs)).entries ↔ _
    rw [kept]
    exact decodedInputs_same_iff tables

/-- An event with one input. -/
def inputEvent (value : PyValue) (typeName : String) : ConnectableInputEvent where
  prim := "/Shader"
  infoId := "TestShader"
  inputs := { entries := [("value", value)], distinct := List.nodup_singleton "value" }
  inputTypes := { entries := [("value", typeName)], distinct := List.nodup_singleton "value" }

/-- The table of an event with one input. -/
def inputTable (civ : ConnectableInputValue) : SetConnectableInput where
  prim := "/Shader"
  infoId := "TestShader"
  inputs := [civ]
  time := none

theorem connectableInputs_survive_iff_tokens :
    let ev := inputEvent (.list [.text "one", .text "two"]) "token[]"
    let sci := inputTable { name := "value", typeName := "token[]", valueType := .stringArray,
                            stringArray := ["one", "two"] }
    (dictSetConnectableInput sci).inputTypes.entries =
        ev.inputs.entries.map (fun input => (input.1, ev.declared input.1)) ∧
      (∀ input ∈ ev.inputs.entries,
        input.1 ∈ (dictSetConnectableInput sci).inputs.keys ↔ input.2.HasSlot) ∧
      (InputsDecodeSame ev sci ↔ ∀ input ∈ ev.inputs.entries,
        InputSurvives (decide (ev.declared input.1 ∈ floatWireTypes)) input.2) :=
  connectableInputs_survive_iff plainRuntime _ _ rfl

/-- The scalar `np.int64(3)` is accepted, encoded without a value and dropped by the decoder. -/
theorem not_inputsDecodeSame_numpyScalar :
    ¬ ∀ (py : Runtime) (ev : ConnectableInputEvent) (sci : SetConnectableInput),
      encodeSetConnectableInput py ev = .ok sci → InputsDecodeSame ev sci := by
  intro keeps
  have same := keeps plainRuntime (inputEvent (.numpyInt 3) "float")
    (inputTable { name := "value", typeName := "float" }) rfl
  have dropped : (dictSetConnectableInput
      (inputTable { name := "value", typeName := "float" })).inputs.entries = [] := rfl
  unfold InputsDecodeSame at same
  rw [dropped] at same
  cases same

end UsdConnect
