/-
Purpose: Binary floating-point formats over exact rationals: rounding to nearest with ties to even,
  and the C conversions between reals and fixed-width integers.
Trusted boundary: none
Main exports: FloatValue, FloatFormat, FloatFormat.round, FloatFormat.convert, truncate
-/
import Mathlib.Data.Int.Log
import Mathlib.Data.Rat.Floor

namespace UsdConnect

/-- A floating-point value: the two zeros are one number, and all NaNs are one value. -/
inductive FloatValue
  | finite (value : Rat)
  | infinite (negative : Bool)
  | nan
deriving DecidableEq, Repr

/-- A binary format: bits of the significand, exponent of the smallest subnormal, and the largest
exponent of a finite number. -/
structure FloatFormat where
  precision : Nat
  leastUnit : Int
  maxExponent : Int
deriving DecidableEq, Repr

def binary32 : FloatFormat := ⟨24, -149, 127⟩

def binary64 : FloatFormat := ⟨53, -1074, 1023⟩

/-- Nearest integer, ties to even. -/
def roundHalfEven (number : Rat) : Int :=
  let below := ⌊number⌋
  let rest := number - below
  if rest < 1 / 2 ∨ rest = 1 / 2 ∧ below % 2 = 0 then below else below + 1

/-- Nearest integer toward zero. -/
def truncate (number : Rat) : Int :=
  if 0 ≤ number then ⌊number⌋ else -⌊-number⌋

/-- The two's complement number of the given width that agrees with an integer modulo `2^width`. -/
def wrapSigned (width : Nat) (number : Int) : Int :=
  number.bmod (2 ^ width)

/-- Range of two's complement numbers. -/
def FitsSigned (width : Nat) (number : Int) : Prop :=
  -(2 ^ (width - 1)) ≤ number ∧ number < 2 ^ (width - 1)

instance (width : Nat) (number : Int) : Decidable (FitsSigned width number) :=
  inferInstanceAs (Decidable (_ ∧ _))

namespace FloatFormat

/-- Distance between neighbours of a number in the format. -/
def unit (format : FloatFormat) (number : Rat) : Rat :=
  2 ^ max (Int.log 2 |number| + 1 - format.precision) format.leastUnit

/-- A real number stored in the format; too large a number becomes infinite. -/
def round (format : FloatFormat) (number : Rat) : FloatValue :=
  let rounded := roundHalfEven (number / format.unit number) * format.unit number
  if |rounded| < 2 ^ (format.maxExponent + 1) then .finite rounded else .infinite (number < 0)

/-- Conversion of a value of another format. -/
def convert (format : FloatFormat) : FloatValue → FloatValue
  | .finite number => format.round number
  | .infinite negative => .infinite negative
  | .nan => .nan

/-- The integer is a number of the format. -/
def HoldsInt (format : FloatFormat) (number : Int) : Prop :=
  format.round number = .finite number

instance (format : FloatFormat) (number : Int) : Decidable (format.HoldsInt number) :=
  inferInstanceAs (Decidable (_ = _))

end FloatFormat

@[simp] theorem truncate_intCast (number : Int) : truncate number = number := by
  unfold truncate
  split
  · exact Int.floor_intCast number
  · rw [← Int.cast_neg, Int.floor_intCast, neg_neg]

theorem wrapSigned_of_fits {width : Nat} {number : Int} (positive : 0 < width)
    (fits : FitsSigned width number) : wrapSigned width number = number := by
  obtain ⟨low, high⟩ := fits
  obtain ⟨half, rfl⟩ := Nat.exists_eq_succ_of_ne_zero positive.ne'
  rw [Nat.succ_sub_one] at low high
  apply Int.bmod_eq_of_le
  · rw [Nat.succ_eq_add_one, pow_succ]
    push_cast
    omega
  · rw [Nat.succ_eq_add_one, pow_succ]
    push_cast
    omega

theorem fits_wrapSigned {width : Nat} (positive : 0 < width) (number : Int) :
    FitsSigned width (wrapSigned width number) := by
  obtain ⟨half, rfl⟩ := Nat.exists_eq_succ_of_ne_zero positive.ne'
  have nonzero : 0 < 2 ^ half.succ := Nat.two_pow_pos _
  have low := Int.le_bmod (x := number) nonzero
  have high := Int.bmod_lt (x := number) nonzero
  unfold FitsSigned wrapSigned
  rw [Nat.succ_sub_one]
  rw [Nat.succ_eq_add_one, pow_succ] at low high
  push_cast at low high
  constructor
  · rw [Nat.succ_eq_add_one, pow_succ]
    omega
  · rw [Nat.succ_eq_add_one, pow_succ]
    omega

example : binary32.round (1 / 10) = .finite (13421773 / 134217728) := by decide +kernel

end UsdConnect
