/-
Purpose: Which numbers stay the same value in a float32 or int32 slot, and that JSON texts keep
  every value they can be made of.
Trusted boundary: none
Main exports: FloatElement, IntElement, RowElement, PyValue.same_asFloat32
-/
import UsdConnect.Codec.PythonValue
import UsdConnect.Lib.Rows

namespace UsdConnect

/-- Values that keep their number when they are stored as float32. -/
def FloatElement : PyValue → Prop
  | .bool _ => True
  | .int value => binary32.convert (binary64.round value) = .finite value
  | .float _ => True
  | .numpyDouble _ => True
  | .numpyInt value => binary32.HoldsInt value
  | .numpyFloat _ => True
  | _ => False

/-- Values that keep their number when they are made a float and then stored as float32. -/
def RowElement : PyValue → Prop
  | .bool _ => True
  | .int value => binary32.convert (binary64.round value) = .finite value
  | .float _ => True
  | .numpyDouble _ => True
  | .numpyInt value => binary32.convert (binary64.round value) = .finite value
  | .numpyFloat value =>
      binary32.convert (binary64.convert value) = value ∨
        binary32.convert (binary64.convert value) = binary32.convert value
  | _ => False

/-- The real is an integer of 32 bits. -/
def FloatValue.IsInt32 (real : FloatValue) : Prop :=
  ∃ number : Int, FitsSigned 32 number ∧ real = .finite number

/-- Values that keep their number when they are stored as int32. -/
def IntElement : PyValue → Prop
  | .bool _ => True
  | .int value => FitsSigned 32 value
  | .float value => value.IsInt32
  | .numpyDouble value => value.IsInt32
  | .numpyInt value => FitsSigned 32 value
  | .numpyFloat value => value.IsInt32
  | _ => False

/-! ### Inversions of equality -/

theorem not_same_list_number {items : List PyValue} {decoded : PyValue} {number : FloatValue}
    (counts : decoded.number? = some number) : ¬ SameValue (.list items) decoded := by
  intro same
  cases same with
  | number known _ => cases known
  | rounded known => cases known
  | list _ => cases counts

theorem same_list_iff {items decoded : List PyValue} :
    SameValue (.list items) (.list decoded) ↔ List.Forall₂ SameValue items decoded := by
  constructor
  · intro same
    cases same with
    | number known _ => cases known
    | list all => exact all
  · exact SameValue.list

theorem same_array_iff {view : NdArray} {decoded : PyValue} :
    SameValue (.array view) decoded ↔ SameValue view.toList decoded := by
  constructor
  · intro same
    cases same with
    | number known _ => cases known
    | rounded known => cases known
    | array inner => exact inner
  · exact SameValue.array

theorem not_same_text_number {text : String} {decoded : PyValue} {number : FloatValue}
    (counts : decoded.number? = some number) : ¬ SameValue (.text text) decoded := by
  intro same
  cases same with
  | number known _ => cases known
  | rounded known => cases known
  | text _ => cases counts

theorem not_same_bytes {bytes : String} {decoded : PyValue} :
    ¬ SameValue (.bytes bytes) decoded := by
  intro same
  cases same with
  | number known _ => cases known
  | rounded known => cases known

theorem not_same_text_list {text : String} {decoded : List PyValue} :
    ¬ SameValue (.text text) (.list decoded) := by
  intro same
  cases same with
  | number known _ => cases known

/-- An integer value equals a decoded number or nothing. -/
theorem same_number_iff {value decoded : PyValue} {number stored : FloatValue}
    (counts : value.number? = some number) (notReal : value.real? = none)
    (known : decoded.number? = some stored) : SameValue value decoded ↔ stored = number := by
  constructor
  · intro same
    cases same with
    | number here there =>
        rw [counts] at here
        rw [known] at there
        cases here
        cases there
        rfl
    | rounded real =>
        rw [notReal] at real
        cases real
    | text _ => cases counts
    | list _ => cases counts
    | array _ => cases counts
  · rintro rfl
    exact SameValue.number counts known

/-- A real equals a decoded float that is it or its rounding. -/
theorem same_real_iff {value : PyValue} {real stored : FloatValue}
    (counts : value.real? = some real) (number : value.number? = some real) :
    SameValue value (.float stored) ↔ stored = real ∨ stored = binary32.convert real := by
  constructor
  · intro same
    cases same with
    | number here there =>
        rw [number] at here
        cases here
        cases there
        exact Or.inl rfl
    | rounded here =>
        rw [counts] at here
        cases here
        exact Or.inr rfl
    | array _ => cases counts
  · rintro (rfl | rfl)
    · exact SameValue.number number rfl
    · exact SameValue.rounded counts

/-- A real equals a decoded integer that is its number. -/
theorem same_real_int_iff {value : PyValue} {real : FloatValue} {stored : Int}
    (number : value.number? = some real) :
    SameValue value (.int stored) ↔ real = .finite stored := by
  constructor
  · intro same
    cases same with
    | number here there =>
        rw [number] at here
        cases here
        cases there
        rfl
    | array _ => cases number
  · rintro rfl
    exact SameValue.number number rfl

/-! ### Float slots -/

theorem binary32_zero : binary32.convert (.finite 0) = .finite 0 := by decide +kernel

theorem binary32_one : binary32.convert (.finite 1) = .finite 1 := by decide +kernel

theorem binary32_bool (value : Bool) :
    binary32.convert (.finite (if value then 1 else 0)) = .finite (if value then 1 else 0) := by
  cases value
  · exact binary32_zero
  · exact binary32_one

theorem intToDouble_ok {number : Int} {double : FloatValue}
    (converted : intToDouble number = .ok double) : double = binary64.round number := by
  unfold intToDouble at converted
  split at converted
  · cases converted
  · cases converted
    rfl

theorem PyValue.same_asFloat32 {py : Runtime} {value : PyValue} {stored : FloatValue}
    (converted : value.asFloat32 py = .ok stored) :
    SameValue value (.float stored) ↔ FloatElement value := by
  cases value with
  | bool value =>
      cases converted
      exact iff_of_true (SameValue.number rfl rfl) trivial
  | int value =>
      obtain ⟨double, known, rfl⟩ := except_map_eq_ok_iff.1 converted
      rw [intToDouble_ok known]
      exact same_number_iff rfl rfl rfl
  | float value =>
      cases converted
      exact iff_of_true (SameValue.rounded rfl) trivial
  | numpyDouble value =>
      cases converted
      exact iff_of_true (SameValue.rounded rfl) trivial
  | numpyInt value =>
      cases converted
      exact same_number_iff rfl rfl rfl
  | numpyFloat value =>
      cases converted
      exact iff_of_true (SameValue.rounded rfl) trivial
  | text value => exact iff_of_false (not_same_text_number rfl) not_false
  | bytes value => exact iff_of_false not_same_bytes not_false
  | list items => cases converted
  | array view => cases converted

theorem PyValue.same_toFloat {py : Runtime} {value : PyValue} {double : FloatValue}
    (converted : value.toFloat py = .ok double) :
    SameValue value (.float (binary32.convert double)) ↔ RowElement value := by
  cases value with
  | bool value =>
      cases converted
      rw [binary32_bool]
      exact iff_of_true (SameValue.number rfl rfl) trivial
  | int value =>
      rw [intToDouble_ok converted]
      exact same_number_iff rfl rfl rfl
  | float value =>
      cases converted
      exact iff_of_true (SameValue.rounded rfl) trivial
  | numpyDouble value =>
      cases converted
      exact iff_of_true (SameValue.rounded rfl) trivial
  | numpyInt value =>
      cases converted
      exact same_number_iff rfl rfl rfl
  | numpyFloat value =>
      cases converted
      exact same_real_iff rfl rfl
  | text value => exact iff_of_false (not_same_text_number rfl) not_false
  | bytes value => exact iff_of_false not_same_bytes not_false
  | list items => cases converted
  | array view => cases converted

/-! ### Integer slots -/

theorem throughLong_ok {py : Runtime} {number stored : Int}
    (converted : throughLong py number = .ok stored) : stored = wrapSigned 32 number := by
  unfold throughLong at converted
  split at converted
  · cases converted
    rfl
  · cases converted

theorem throughLong_truncate {py : Runtime} {real : Rat} {stored : Int}
    (converted : throughLong py (truncate real) = .ok stored) :
    FloatValue.finite real = .finite stored ↔ (FloatValue.finite real).IsInt32 := by
  rw [throughLong_ok converted]
  constructor
  · intro same
    exact ⟨_, fits_wrapSigned (by decide) _, same⟩
  · rintro ⟨number, fits, same⟩
    cases same
    rw [truncate_intCast, wrapSigned_of_fits (by decide) fits]

theorem castToInt32_same {py : Runtime} {real : FloatValue} :
    real = .finite (castToInt32 py real) ↔ real.IsInt32 := by
  constructor
  · intro same
    refine ⟨castToInt32 py real, ?_, same⟩
    unfold castToInt32
    cases real with
    | finite number =>
        dsimp only
        split
        · next fits => exact fits
        · exact fits_wrapSigned (by decide) _
    | infinite _ => exact fits_wrapSigned (by decide) _
    | nan => exact fits_wrapSigned (by decide) _
  · rintro ⟨number, fits, rfl⟩
    unfold castToInt32
    dsimp only
    rw [truncate_intCast, if_pos fits]

/-- Wrapping keeps exactly the integers of 32 bits. -/
theorem wrapSigned_same {number : Int} :
    FloatValue.finite (wrapSigned 32 number) = .finite number ↔ FitsSigned 32 number := by
  rw [FloatValue.finite.injEq, Int.cast_inj]
  constructor
  · intro same
    rw [← same]
    exact fits_wrapSigned (by decide) number
  · exact wrapSigned_of_fits (by decide)

/-- A value stored as int32 is the same exactly when it is an integer element. -/
theorem PyValue.same_asInt32 {py : Runtime} {value : PyValue} {stored : Int}
    (converted : value.asInt32 py = .ok stored) :
    SameValue value (.int stored) ↔ IntElement value := by
  cases value with
  | bool value =>
      cases converted
      cases value
      · exact iff_of_true (SameValue.number rfl rfl) trivial
      · exact iff_of_true (SameValue.number rfl rfl) trivial
  | int value =>
      by_cases fits : FitsSigned 32 value
      · simp only [PyValue.asInt32, if_pos fits] at converted
        cases converted
        exact iff_of_true (SameValue.number rfl rfl) fits
      · simp only [PyValue.asInt32, if_neg fits] at converted
        cases converted
  | float value =>
      cases value with
      | finite real => exact (same_real_int_iff rfl).trans (throughLong_truncate converted)
      | infinite _ => cases converted
      | nan => cases converted
  | numpyDouble value =>
      cases converted
      exact (same_real_int_iff rfl).trans castToInt32_same
  | numpyInt value =>
      cases converted
      exact (same_number_iff rfl rfl rfl).trans wrapSigned_same
  | numpyFloat value =>
      cases converted
      exact (same_real_int_iff rfl).trans castToInt32_same
  | text value => exact iff_of_false (not_same_text_number rfl) not_false
  | bytes value => exact iff_of_false not_same_bytes not_false
  | list items => cases converted
  | array view => cases converted

/-! ### JSON text -/

theorem dumpsInt_ok {number : Int} {text : Json} (dumped : dumpsInt number = .ok text) :
    text = .int number := by
  unfold dumpsInt at dumped
  generalize 10 ^ intMaxStrDigits = limit at dumped
  split at dumped
  · cases dumped
    rfl
  · cases dumped

mutual

theorem PyValue.dumps_same : ∀ {value : PyValue} {text : Json},
    value.dumps = .ok text → SameValue value text.loads
  | .bool _, _, dumped => by
      cases dumped
      exact SameValue.number rfl rfl
  | .int _, _, dumped => by
      rw [PyValue.dumps] at dumped
      rw [dumpsInt_ok dumped]
      exact SameValue.number rfl rfl
  | .float _, _, dumped => by
      cases dumped
      exact SameValue.number rfl rfl
  | .numpyDouble _, _, dumped => by
      cases dumped
      exact SameValue.number rfl rfl
  | .text value, _, dumped => by
      cases dumped
      exact SameValue.text value
  | .list _, _, dumped => by
      obtain ⟨texts, all, rfl⟩ := except_map_eq_ok_iff.1 dumped
      exact SameValue.list (PyValue.dumpsAll_same all)

theorem PyValue.dumpsAll_same : ∀ {values : List PyValue} {texts : List Json},
    PyValue.dumpsAll values = .ok texts → List.Forall₂ SameValue values (Json.loadsAll texts)
  | [], _, dumped => by
      cases dumped
      exact List.Forall₂.nil
  | value :: rest, _, dumped => by
      unfold PyValue.dumpsAll at dumped
      cases here : value.dumps with
      | error failure =>
          rw [here] at dumped
          cases dumped
      | ok text =>
          rw [here] at dumped
          cases later : PyValue.dumpsAll rest with
          | error failure =>
              rw [later] at dumped
              cases dumped
          | ok texts =>
              rw [later] at dumped
              cases dumped
              exact List.Forall₂.cons (PyValue.dumps_same here) (PyValue.dumpsAll_same later)

end

end UsdConnect
