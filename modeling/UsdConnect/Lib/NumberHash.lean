/-
Purpose: The hash of Python's numbers: reduction modulo the Mersenne prime 2^61 - 1 with the sign kept
  and -1 replaced by -2, and which numbers hash alike.
Trusted boundary: the hash of an object by its address
Main exports: hashNumber, Confused, hashNumber_eq_iff, Double, Double.hash
-/
import Mathlib.Algebra.Order.Field.Power
import Mathlib.Algebra.Order.Field.Rat
import Mathlib.Data.Int.ModEq
import Mathlib.Data.Nat.ModEq
import Mathlib.Data.Rat.Lemmas
import Mathlib.RingTheory.Coprime.Lemmas
import Mathlib.Tactic.FieldSimp
import Mathlib.Tactic.Positivity
import Mathlib.Tactic.Ring

namespace UsdConnect.NumberHash

/-- `sys.hash_info.modulus`. -/
def modulus : Nat := 2 ^ 61 - 1

/-- What is left of the absolute value: two to the 61 is one, so an exponent only rotates. -/
def residue : Dyadic → Nat
  | .zero => 0
  | .ofOdd odd precision _ => odd.natAbs * 2 ^ ((-precision) % 61).toNat % modulus

/-- A hash of -1 would be an error, so it becomes -2. -/
def settle (hash : Int) : Int :=
  if hash = -1 then -2 else hash

/-- `hash` of a finite number. -/
def hashNumber (number : Dyadic) : Int :=
  settle (if number < 0 then -(residue number : Int) else residue number)

example : hashNumber (.ofIntWithPrec 7205759403792794 56) = 230584300921369408 := by decide +kernel

/-- The difference is a multiple of the modulus. -/
def Congruent (first second : Dyadic) : Prop :=
  (modulus : Int) ∣ (first - second).toRat.num

instance (first second : Dyadic) : Decidable (Congruent first second) :=
  inferInstanceAs (Decidable (_ ∣ _))

/-- Two numbers of one sign that are congruent, two multiples of the modulus, or negative numbers
congruent to -1 and -2. -/
def Confused (first second : Dyadic) : Prop :=
  (first < 0 ↔ second < 0) ∧ Congruent first second ∨
    Congruent first 0 ∧ Congruent second 0 ∨
      first < 0 ∧ second < 0 ∧
        (Congruent first (-1) ∧ Congruent second (-2) ∨
          Congruent first (-2) ∧ Congruent second (-1))

instance (first second : Dyadic) : Decidable (Confused first second) :=
  inferInstanceAs (Decidable (_ ∨ _))

/-! ### Powers of two -/

theorem two_pow_modEq (exponent : Nat) : 2 ^ exponent ≡ 2 ^ (exponent % 61) [MOD modulus] := by
  have cycle : 2 ^ 61 ≡ 1 [MOD modulus] := by decide
  have split : 2 ^ exponent = (2 ^ 61) ^ (exponent / 61) * 2 ^ (exponent % 61) := by
    rw [← pow_mul, ← pow_add, Nat.div_add_mod]
  rw [split]
  simpa using (cycle.pow (exponent / 61)).mul_right (2 ^ (exponent % 61))

theorem two_pow_modEq_of_modEq {first second : Nat} (same : first % 61 = second % 61) :
    2 ^ first ≡ 2 ^ second [MOD modulus] :=
  (two_pow_modEq first).trans (same ▸ (two_pow_modEq second).symm)

theorem coprime_two_pow (exponent : Nat) : Nat.Coprime modulus (2 ^ exponent) :=
  Nat.Coprime.pow_right exponent (by decide)

/-! ### Numerators over one power of two -/

/-- Numerator of a number over a power of two. -/
def scaled (scale : Int) : Dyadic → Int
  | .zero => 0
  | .ofOdd odd precision _ => odd * 2 ^ (scale - precision).toNat

/-- The power is large enough to make the numerator whole. -/
def FitsScale (scale : Int) (number : Dyadic) : Prop :=
  ∀ precision, number.precision = some precision → precision ≤ scale

theorem toRat_eq_scaled {scale : Int} {number : Dyadic} (fits : FitsScale scale number) :
    number.toRat = scaled scale number * 2 ^ (-scale) := by
  cases number with
  | zero => simp [scaled]
  | ofOdd odd precision isOdd =>
      have below := fits precision rfl
      obtain ⟨gap, rest⟩ := Int.eq_ofNat_of_zero_le (Int.sub_nonneg.2 below)
      rw [Dyadic.toRat_ofOdd_eq_mul_two_pow]
      unfold scaled
      have whole : scale = precision + gap := by omega
      subst whole
      have two : (2 : ℚ) ≠ 0 := by norm_num
      simp only [add_sub_cancel_left, Int.toNat_natCast, Int.cast_mul, Int.cast_pow, Int.cast_ofNat]
      rw [mul_assoc, ← zpow_natCast, ← zpow_add₀ two]
      congr 2
      omega

theorem residue_eq_scaled {scale : Int} {number : Dyadic} (fits : FitsScale scale number) :
    residue number ≡ (scaled scale number).natAbs * 2 ^ ((-scale) % 61).toNat [MOD modulus] := by
  cases number with
  | zero => simp [scaled, residue, Nat.ModEq]
  | ofOdd odd precision isOdd =>
      have below := fits precision rfl
      unfold residue scaled
      rw [Int.natAbs_mul, Int.natAbs_pow, mul_assoc, show (2 : Int).natAbs = 2 from rfl, ← pow_add]
      refine (Nat.mod_modEq _ _).trans (Nat.ModEq.mul_left _ (two_pow_modEq_of_modEq ?_))
      omega

theorem residue_lt (number : Dyadic) : residue number < modulus := by
  cases number with
  | zero => exact by decide
  | ofOdd odd precision isOdd => exact Nat.mod_lt _ (by decide)

theorem lt_zero_iff_scaled {scale : Int} {number : Dyadic} (fits : FitsScale scale number) :
    number < 0 ↔ scaled scale number < 0 := by
  rw [← Dyadic.toRat_lt_toRat_iff, toRat_eq_scaled fits, Dyadic.toRat_zero]
  have positive : (0 : ℚ) < 2 ^ (-scale) := by positivity
  rw [mul_neg_iff]
  constructor
  · rintro (⟨-, negative⟩ | ⟨negative, -⟩)
    · exact absurd negative positive.le.not_gt
    · exact Int.cast_lt_zero.1 negative
  · intro negative
    exact .inr ⟨Int.cast_lt_zero.2 negative, positive⟩

/-- A dyadic fraction is a multiple of the modulus when its numerator is, reduced or not. -/
theorem dvd_num_iff {number : ℚ} {scale : Nat} {numerator : Int}
    (shape : number = numerator * 2 ^ (-(scale : Int))) :
    (modulus : Int) ∣ number.num ↔ (modulus : Int) ∣ numerator := by
  have cleared : number * 2 ^ scale = numerator := by
    rw [shape, zpow_neg, zpow_natCast]
    field_simp
  have crossed : number.num * 2 ^ scale = numerator * number.den := by
    have nonzero : (number.den : ℚ) ≠ 0 := Nat.cast_ne_zero.2 number.den_ne_zero
    have fraction : (number.num : ℚ) = number * number.den := (Rat.mul_den_eq_num number).symm
    have rational : (number.num : ℚ) * 2 ^ scale = numerator * number.den := by
      rw [fraction, mul_right_comm, cleared]
    exact_mod_cast rational
  have dividesPower : number.den ∣ 2 ^ scale := by
    have quotient : number = Rat.divInt numerator (2 ^ scale : Int) := by
      rw [Rat.divInt_eq_div, eq_div_iff (by positivity)]
      push_cast
      exact cleared
    rw [quotient]
    exact_mod_cast Rat.den_dvd numerator (2 ^ scale)
  constructor
  · intro divides
    have product : (modulus : Int) ∣ numerator * number.den := crossed ▸ divides.mul_right _
    refine IsCoprime.dvd_of_dvd_mul_right ?_ product
    exact Nat.isCoprime_iff_coprime.2 ((coprime_two_pow scale).coprime_dvd_right dividesPower)
  · intro divides
    have product : (modulus : Int) ∣ number.num * 2 ^ scale := crossed ▸ divides.mul_right _
    refine IsCoprime.dvd_of_dvd_mul_right ?_ product
    exact_mod_cast Nat.isCoprime_iff_coprime.2 (coprime_two_pow scale)

theorem congruent_iff_scaled {scale : Nat} {first second : Dyadic}
    (fits : FitsScale scale first) (others : FitsScale scale second) :
    Congruent first second ↔ (modulus : Int) ∣ scaled scale first - scaled scale second := by
  apply @dvd_num_iff _ scale
  rw [Dyadic.toRat_sub, toRat_eq_scaled fits, toRat_eq_scaled others]
  push_cast
  ring

theorem residue_eq_iff_scaled {scale : Nat} {first second : Dyadic}
    (fits : FitsScale scale first) (others : FitsScale scale second) :
    residue first = residue second ↔
      (scaled scale first).natAbs ≡ (scaled scale second).natAbs [MOD modulus] := by
  have left := residue_eq_scaled fits
  have right := residue_eq_scaled others
  constructor
  · intro same
    have product := left.symm.trans (same ▸ right)
    exact Nat.ModEq.cancel_right_of_coprime (coprime_two_pow _) product
  · intro same
    have product := (left.trans (same.mul_right _)).trans right.symm
    exact Nat.ModEq.eq_of_lt_of_lt product (residue_lt first) (residue_lt second)

/-! ### Hashes -/

theorem exists_scale (first second : Dyadic) :
    ∃ scale : Nat, FitsScale scale first ∧ FitsScale scale second := by
  have one (number : Dyadic) : ∃ scale : Nat, FitsScale scale number := by
    cases number with
    | zero => exact ⟨0, fun _ absent => nomatch absent⟩
    | ofOdd odd precision isOdd =>
        refine ⟨precision.toNat, ?_⟩
        rintro _ ⟨⟩
        exact Int.self_le_toNat precision
  obtain ⟨scale, fits⟩ := one first
  obtain ⟨other, others⟩ := one second
  refine ⟨max scale other, ?_, ?_⟩
  · intro precision found
    exact (fits precision found).trans (by omega)
  · intro precision found
    exact (others precision found).trans (by omega)

/-- Numbers of one sign have the same residue exactly when they are congruent. -/
theorem residue_eq_iff {first second : Dyadic} (signs : first < 0 ↔ second < 0) :
    residue first = residue second ↔ Congruent first second := by
  obtain ⟨scale, fits, others⟩ := exists_scale first second
  rw [residue_eq_iff_scaled fits others, congruent_iff_scaled fits others, Nat.modEq_iff_dvd,
    Int.natCast_natAbs, Int.natCast_natAbs]
  rw [lt_zero_iff_scaled fits, lt_zero_iff_scaled others] at signs
  by_cases negative : scaled scale first < 0
  · rw [abs_of_neg negative, abs_of_neg (signs.1 negative), neg_sub_neg]
  · have nonnegative : ¬ scaled scale second < 0 := mt signs.2 negative
    rw [abs_of_nonneg (not_lt.1 negative), abs_of_nonneg (not_lt.1 nonnegative), dvd_sub_comm]

theorem residue_eq_zero_iff {number : Dyadic} : residue number = 0 ↔ Congruent number 0 := by
  obtain ⟨scale, fits, others⟩ := exists_scale number 0
  have zero : scaled scale 0 = 0 := rfl
  rw [congruent_iff_scaled fits others, zero, sub_zero]
  show residue number = residue 0 ↔ _
  rw [residue_eq_iff_scaled fits others, zero, Int.natAbs_zero,
    Nat.modEq_zero_iff_dvd, Int.natCast_dvd]

theorem residue_eq_one_iff {number : Dyadic} (negative : number < 0) :
    residue number = 1 ↔ Congruent number (-1) := by
  have one : residue (-1) = 1 := by decide
  rw [← one]
  exact residue_eq_iff (iff_of_true negative (by decide))

theorem residue_eq_two_iff {number : Dyadic} (negative : number < 0) :
    residue number = 2 ↔ Congruent number (-2) := by
  have two : residue (-2) = 2 := by decide
  rw [← two]
  exact residue_eq_iff (iff_of_true negative (by decide))

theorem settle_eq_iff {hash other : Int} :
    settle hash = settle other ↔
      hash = other ∨ hash = -1 ∧ other = -2 ∨ hash = -2 ∧ other = -1 := by
  unfold settle
  split_ifs <;> omega

theorem hashNumber_eq_iff {first second : Dyadic} :
    hashNumber first = hashNumber second ↔ Confused first second := by
  unfold hashNumber Confused
  rw [settle_eq_iff]
  by_cases negative : first < 0
  · by_cases others : second < 0
    · simp only [negative, others, if_true, true_and, iff_self,
        ← residue_eq_iff (iff_of_true negative others), ← residue_eq_zero_iff,
        ← residue_eq_one_iff negative, ← residue_eq_one_iff others,
        ← residue_eq_two_iff negative, ← residue_eq_two_iff others]
      omega
    · simp only [negative, others, if_true, if_false, ← residue_eq_zero_iff, iff_false, not_true,
        false_and, and_false, false_or, or_false]
      omega
  · by_cases others : second < 0
    · simp only [negative, others, if_true, if_false, ← residue_eq_zero_iff, false_iff, not_true,
        false_and, false_or, or_false]
      omega
    · simp only [negative, others, if_false, ← residue_eq_iff (iff_of_false negative others),
        ← residue_eq_zero_iff, iff_self, true_and, false_and, or_false]
      omega

theorem settle_ne (hash : Int) : settle hash ≠ -1 := by
  unfold settle
  split_ifs <;> omega

theorem hashNumber_ne (number : Dyadic) : hashNumber number ≠ -1 :=
  settle_ne _

theorem natAbs_hashNumber_lt (number : Dyadic) : (hashNumber number).natAbs < modulus := by
  have below := residue_lt number
  have large : 2 < modulus := by decide
  unfold hashNumber settle
  split_ifs <;> omega

/-- Integers are reduced. -/
theorem residue_intCast (number : Int) : residue (number : Dyadic) = number.natAbs % modulus := by
  have fits : FitsScale (0 : Nat) (number : Dyadic) := by
    intro precision found
    by_cases zero : number = 0
    · subst zero
      cases found
    · have below := Dyadic.precision_ofIntWithPrec_le zero 0
      rw [show Dyadic.ofIntWithPrec number 0 = (number : Dyadic) from rfl, found] at below
      simpa using below
  have whole : scaled (0 : Nat) (number : Dyadic) = number := by
    have shape := toRat_eq_scaled fits
    rw [Dyadic.toRat_intCast] at shape
    simpa [eq_comm] using shape
  have reduced := residue_eq_scaled fits
  rw [whole] at reduced
  have same : residue (number : Dyadic) ≡ number.natAbs [MOD modulus] := by simpa using reduced
  rw [← Nat.mod_eq_of_lt (residue_lt (number : Dyadic))]
  exact same

/-- A small integer is settled as it is. -/
theorem hashNumber_eq_settle {number : Int} (small : number.natAbs < modulus) :
    hashNumber (number : Dyadic) = settle number := by
  have sign : (number : Dyadic) < 0 ↔ number < 0 := by
    rw [← Dyadic.toRat_lt_toRat_iff, Dyadic.toRat_intCast, Dyadic.toRat_zero, Int.cast_lt_zero]
  unfold hashNumber
  rw [residue_intCast, Nat.mod_eq_of_lt small]
  by_cases negative : number < 0
  · rw [if_pos (sign.2 negative)]
    congr 1
    omega
  · rw [if_neg (mt sign.1 negative)]
    congr 1
    omega

/-- A small integer other than -1 is its own hash. -/
theorem hashNumber_intCast {number : Int} (small : number.natAbs < modulus) (proper : number ≠ -1) :
    hashNumber (number : Dyadic) = number :=
  (hashNumber_eq_settle small).trans (if_neg proper)

/-- Among small integers only -1 and -2 are confused. -/
theorem confused_intCast_iff {first second : Int} (small : first.natAbs < modulus)
    (others : second.natAbs < modulus) :
    Confused (first : Dyadic) (second : Dyadic) ↔
      first = second ∨ first = -1 ∧ second = -2 ∨ first = -2 ∧ second = -1 := by
  rw [← hashNumber_eq_iff, hashNumber_eq_settle small, hashNumber_eq_settle others, settle_eq_iff]

/-! ### Floating-point numbers -/

/-- Hash of an object by its address, never -1. -/
structure ObjectHash where
  value : Int
  proper : value ≠ -1
  deriving DecidableEq

/-- A Python float.  A NaN is hashed as an object. -/
inductive Double where
  | finite (value : Dyadic)
  | negativeZero
  | infinite (negative : Bool)
  | nan (object : ObjectHash)
  deriving DecidableEq

namespace Double

/-- `hash` of a float. -/
def hash : Double → Int
  | .finite value => hashNumber value
  | .negativeZero => hashNumber 0
  | .infinite negative => if negative then -314159 else 314159
  | .nan object => object.value

/-- What is hashed: a finite number, which for an infinity is 314159 or its negative, or an object. -/
def hashed : Double → Dyadic ⊕ ObjectHash
  | .finite value => .inl value
  | .negativeZero => .inl 0
  | .infinite negative => .inl (if negative then -314159 else 314159)
  | .nan object => .inr object

/-- One float, or two NaNs. -/
inductive Same : Double → Double → Prop
  | refl (number : Double) : Same number number
  | nan (object other : ObjectHash) : Same (.nan object) (.nan other)

/-- The address of an object hashes as a number does. -/
def ConfusedObject (object : ObjectHash) (number : Dyadic) : Prop :=
  object.value.natAbs < modulus ∧ NumberHash.Confused (object.value : Dyadic) number

/-- Confused numbers, NaNs at one address, or a NaN whose address hashes as the number does. -/
def Confused (first second : Double) : Prop :=
  match first.hashed, second.hashed with
  | .inl number, .inl other => NumberHash.Confused number other
  | .inr object, .inr other => object = other
  | .inr object, .inl number => ConfusedObject object number
  | .inl number, .inr object => ConfusedObject object number

theorem hash_eq_hashed (float : Double) :
    float.hash = float.hashed.elim hashNumber ObjectHash.value := by
  cases float with
  | finite value => rfl
  | negativeZero => rfl
  | infinite negative => cases negative <;> decide
  | nan object => rfl

theorem hash_ne (float : Double) : float.hash ≠ -1 := by
  rw [hash_eq_hashed]
  cases float.hashed with
  | inl number => exact hashNumber_ne number
  | inr object => exact object.proper

/-- An object hashes as a number does only when its hash is that number's residue. -/
theorem object_eq_iff {object : ObjectHash} {number : Dyadic} :
    object.value = hashNumber number ↔ ConfusedObject object number := by
  unfold ConfusedObject
  rw [← hashNumber_eq_iff]
  constructor
  · intro same
    have small := same ▸ natAbs_hashNumber_lt number
    exact ⟨small, (hashNumber_intCast small object.proper).trans same⟩
  · rintro ⟨small, alike⟩
    exact (hashNumber_intCast small object.proper).symm.trans alike

/-- Exactly the confused floats hash alike. -/
theorem hash_eq_iff {first second : Double} : first.hash = second.hash ↔ first.Confused second := by
  unfold Confused
  rw [hash_eq_hashed, hash_eq_hashed]
  cases first.hashed with
  | inl number =>
      cases second.hashed with
      | inl other => exact hashNumber_eq_iff
      | inr object => exact eq_comm.trans object_eq_iff
  | inr object =>
      cases second.hashed with
      | inl number => exact object_eq_iff
      | inr other =>
          cases object
          cases other
          simp

end Double

end UsdConnect.NumberHash
