/-
Purpose: Bit patterns of a binary floating-point format.  A rounded number is a multiple of its own
  unit, so its pattern gives it back.
Trusted boundary: none
Main exports: FloatFormat.toBits, FloatFormat.ofBits, FloatFormat.ofBits_toBits_convert
-/
import UsdConnect.Lib.FloatFormat
import Mathlib.Tactic.Ring

namespace UsdConnect

namespace FloatFormat

/-- Exponent of the distance between neighbours. -/
def unitExponent (format : FloatFormat) (number : Rat) : Int :=
  max (Int.log 2 |number| + 1 - format.precision) format.leastUnit

/-- The number in units of its last place. -/
def significand (format : FloatFormat) (number : Rat) : Nat :=
  ⌊|number| / format.unit number⌋.toNat

/-- Value of the leading bit of a normal significand. -/
def leading (format : FloatFormat) : Nat :=
  2 ^ (format.precision - 1)

/-- Exponent field of infinities and NaNs. -/
def special (format : FloatFormat) : Nat :=
  (format.maxExponent - format.precision - format.leastUnit + 3).toNat

def signBit (format : FloatFormat) : Nat :=
  (format.special + 1) * format.leading

/-- Pattern of a magnitude. -/
def magnitudeBits (format : FloatFormat) (number : Rat) : Nat :=
  if format.significand number < format.leading then format.significand number
  else (format.unitExponent number - format.leastUnit + 1).toNat * format.leading +
    (format.significand number - format.leading)

def toBits (format : FloatFormat) : FloatValue → Nat
  | .finite number =>
      (if number < 0 then format.signBit else 0) + format.magnitudeBits number
  | .infinite negative =>
      (if negative then format.signBit else 0) + format.special * format.leading
  | .nan => format.special * format.leading + format.leading / 2

/-- Value of a pattern without its sign. -/
def ofMagnitudeBits (format : FloatFormat) (negative : Bool) (bits : Nat) : FloatValue :=
  let exponent := bits / format.leading
  let fraction := bits % format.leading
  let signed : Rat → FloatValue := fun magnitude =>
    .finite (if negative then -magnitude else magnitude)
  if exponent = format.special then
    if fraction = 0 then .infinite negative else .nan
  else if exponent = 0 then signed (fraction * 2 ^ format.leastUnit)
  else signed ((format.leading + fraction : Nat) * 2 ^ (format.leastUnit + exponent - 1))

def ofBits (format : FloatFormat) (bits : Nat) : FloatValue :=
  if format.signBit ≤ bits then format.ofMagnitudeBits true (bits - format.signBit)
  else format.ofMagnitudeBits false bits

/-- At least two bits of significand, and room for normal exponents. -/
structure Regular (format : FloatFormat) : Prop where
  precise : 2 ≤ format.precision
  ranged : format.leastUnit + format.precision ≤ format.maxExponent

theorem regular_binary32 : binary32.Regular := ⟨by decide, by decide⟩

/-- A number of the format: a multiple of its own unit in the range of the format. -/
structure Represents (format : FloatFormat) (number : Rat) : Prop where
  multiple : ∃ count : Int, number = count * format.unit number
  bounded : |number| < 2 ^ (format.maxExponent + 1)

variable {format : FloatFormat}

theorem unit_eq (number : Rat) : format.unit number = 2 ^ format.unitExponent number := rfl

theorem unit_pos (number : Rat) : 0 < format.unit number := by
  rw [unit_eq]
  exact zpow_pos (by norm_num) _

theorem abs_lt_precision_units (number : Rat) :
    |number| < 2 ^ format.precision * format.unit number := by
  have below := Int.lt_zpow_succ_log_self (b := 2) Nat.one_lt_two |number|
  have exponent : Int.log 2 |number| + 1 ≤ format.precision + format.unitExponent number := by
    unfold unitExponent
    omega
  rw [unit_eq, ← zpow_natCast, ← zpow_add₀ (by norm_num)]
  calc |number| < ((2 : Nat) : Rat) ^ (Int.log 2 |number| + 1) := below
    _ ≤ 2 ^ ((format.precision : Int) + format.unitExponent number) := by
      push_cast
      exact zpow_le_zpow_right₀ (by norm_num) exponent

theorem roundHalfEven_cases (number : Rat) :
    roundHalfEven number = ⌊number⌋ ∨ roundHalfEven number = ⌊number⌋ + 1 := by
  unfold roundHalfEven
  dsimp only
  split
  · exact Or.inl rfl
  · exact Or.inr rfl

theorem abs_roundHalfEven_le {number : Rat} {bound : Int} (below : |number| < bound) :
    |roundHalfEven number| ≤ bound := by
  rw [abs_lt] at below
  have low : -bound ≤ ⌊number⌋ := by
    rw [Int.le_floor]
    push_cast
    exact below.1.le
  have high : ⌊number⌋ < bound := Int.floor_lt.2 below.2
  rw [abs_le]
  rcases roundHalfEven_cases number with same | next
  · rw [same]
    omega
  · rw [next]
    omega

/-! ### Rounded numbers -/

theorem unitExponent_le {number : Rat} {exponent : Int} (nonzero : number ≠ 0)
    (below : |number| < 2 ^ (format.precision + exponent)) (least : format.leastUnit ≤ exponent) :
    format.unitExponent number ≤ exponent := by
  have positive : 0 < |number| := abs_pos.2 nonzero
  have logarithm : Int.log 2 |number| < format.precision + exponent := by
    rw [← Int.lt_zpow_iff_log_lt Nat.one_lt_two positive]
    exact_mod_cast below
  unfold unitExponent
  omega

theorem leastUnit_le (number : Rat) : format.leastUnit ≤ format.unitExponent number :=
  le_max_right _ _

theorem multiple_of_le {number : Rat} {count exponent : Int}
    (multiple : number = count * 2 ^ exponent) (smaller : format.unitExponent number ≤ exponent) :
    ∃ units : Int, number = units * format.unit number := by
  obtain ⟨extra, difference⟩ := Int.le.dest smaller
  refine ⟨count * 2 ^ extra, ?_⟩
  rw [unit_eq]
  push_cast
  rw [mul_assoc, ← zpow_natCast, ← zpow_add₀ (by norm_num), add_comm, difference]
  exact multiple

/-- A rounded number is a number of the format. -/
theorem represents_round (regular : format.Regular) {number rounded : Rat}
    (rounds : format.round number = .finite rounded) : format.Represents rounded := by
  have least := format.leastUnit_le number
  unfold round at rounds
  dsimp only at rounds
  split at rounds
  case isFalse => cases rounds
  case isTrue bounded =>
    cases rounds
    refine ⟨?_, bounded⟩
    obtain ⟨count, kept⟩ : ∃ count, roundHalfEven (number / format.unit number) = count :=
      ⟨_, rfl⟩
    have limit : |count| ≤ 2 ^ format.precision := by
      rw [← kept]
      apply abs_roundHalfEven_le
      rw [abs_div, abs_of_pos (unit_pos number), div_lt_iff₀ (unit_pos number)]
      push_cast
      exact abs_lt_precision_units number
    rw [kept, unit_eq] at *
    by_cases zero : count = 0
    · exact ⟨0, by rw [zero]; simp⟩
    have power : (0 : Rat) < 2 ^ format.unitExponent number := zpow_pos (by norm_num) _
    have nonzero : (count : Rat) * 2 ^ format.unitExponent number ≠ 0 :=
      mul_ne_zero (by exact_mod_cast zero) power.ne'
    have size : |(count : Rat) * 2 ^ format.unitExponent number| =
        (|count| : Int) * 2 ^ format.unitExponent number := by
      rw [abs_mul, abs_of_pos power, Int.cast_abs]
    rcases limit.lt_or_eq with inside | edge
    · apply multiple_of_le rfl
      apply unitExponent_le nonzero _ least
      rw [size, zpow_add₀ (by norm_num), zpow_natCast]
      have wide : ((|count| : Int) : Rat) < 2 ^ format.precision := by exact_mod_cast inside
      exact mul_lt_mul_of_pos_right wide power
    · -- the significand was rounded up to the next power of two
      have exponent : format.unitExponent ((count : Rat) * 2 ^ format.unitExponent number) =
          format.unitExponent number + 1 := by
        have whole : |(count : Rat) * 2 ^ format.unitExponent number| =
            ((2 : Nat) : Rat) ^ (format.precision + format.unitExponent number) := by
          rw [size, edge]
          push_cast
          rw [zpow_add₀ (by norm_num), zpow_natCast]
        rw [unitExponent, whole, Int.log_zpow Nat.one_lt_two]
        omega
      obtain ⟨less, same⟩ : ∃ less, format.precision = less + 1 :=
        ⟨format.precision - 1, by have := regular.precise; omega⟩
      obtain ⟨half, twice⟩ : ∃ half, count = half * 2 := by
        have divides : (2 : Int) ∣ |count| := by
          rw [edge, same, pow_succ]
          exact Dvd.intro_left _ rfl
        obtain ⟨half, twice⟩ := (dvd_abs 2 count).1 divides
        exact ⟨half, by rw [twice, mul_comm]⟩
      refine ⟨half, ?_⟩
      rw [unit_eq, exponent, twice, zpow_add₀ (by norm_num), zpow_one]
      push_cast
      ring

/-! ### Patterns -/

theorem Represents.significand {number : Rat} (represents : format.Represents number) :
    |number| = format.significand number * format.unit number := by
  obtain ⟨count, multiple⟩ := represents.multiple
  have positive : 0 < format.unit number := unit_pos number
  have quotient : |number| / format.unit number = (|count| : Int) := by
    rw [div_eq_iff positive.ne']
    conv => lhs; rw [multiple]
    rw [abs_mul, abs_of_pos positive, Int.cast_abs]
  unfold FloatFormat.significand
  rw [quotient, Int.floor_intCast]
  have whole : ((|count|.toNat : Nat) : Int) = |count| := Int.toNat_of_nonneg (abs_nonneg count)
  have lifted : ((|count|.toNat : Nat) : Rat) = (|count| : Int) := by exact_mod_cast whole
  rw [lifted, ← quotient, div_mul_cancel₀ _ positive.ne']

theorem Represents.significand_lt {number : Rat} (represents : format.Represents number) :
    format.significand number < 2 ^ format.precision := by
  have below := format.abs_lt_precision_units number
  rw [represents.significand] at below
  have lifted := lt_of_mul_lt_mul_right below (unit_pos number).le
  exact_mod_cast lifted

theorem leading_pos (format : FloatFormat) : 0 < format.leading := Nat.two_pow_pos _

/-- A number with a short significand is subnormal. -/
theorem unitExponent_of_small (regular : format.Regular) {number : Rat}
    (represents : format.Represents number) (nonzero : number ≠ 0)
    (small : format.significand number < format.leading) :
    format.unitExponent number = format.leastUnit := by
  by_contra normal
  have logarithm : format.unitExponent number = Int.log 2 |number| + 1 - format.precision := by
    unfold unitExponent at normal ⊢
    omega
  have high := Int.zpow_log_le_self (b := 2) Nat.one_lt_two (abs_pos.2 nonzero)
  have exponent : Int.log 2 |number| =
      ((format.precision - 1 : Nat) : Int) + format.unitExponent number := by
    have := regular.precise
    omega
  rw [exponent, represents.significand, zpow_add₀ (by norm_num), zpow_natCast, unit_eq] at high
  push_cast at high
  have lifted := le_of_mul_le_mul_right high (unit_pos number)
  have large : format.leading ≤ format.significand number := by
    unfold leading
    exact_mod_cast lifted
  omega

/-- A normal number of the format has an exponent below the special one. -/
theorem exponent_lt_special (regular : format.Regular) {number : Rat}
    (represents : format.Represents number)
    (normal : format.leading ≤ format.significand number) :
    (format.unitExponent number - format.leastUnit + 1).toNat < format.special := by
  have bounded := represents.bounded
  have least := format.leastUnit_le number
  have powers : (2 : Rat) ^ (((format.precision - 1 : Nat) : Int) + format.unitExponent number) <
      2 ^ (format.maxExponent + 1) := by
    refine lt_of_le_of_lt ?_ bounded
    rw [represents.significand, zpow_add₀ (by norm_num), zpow_natCast, unit_eq]
    apply mul_le_mul_of_nonneg_right _ (unit_pos number).le
    unfold leading at normal
    exact_mod_cast normal
  have exponents := (zpow_lt_zpow_iff_right₀ (by norm_num)).1 powers
  have precise := regular.precise
  unfold special
  omega

theorem special_pos (regular : format.Regular) : 0 < format.special := by
  have ranged := regular.ranged
  unfold special
  omega

theorem magnitudeBits_lt (regular : format.Regular) {number : Rat}
    (represents : format.Represents number) :
    format.magnitudeBits number < format.special * format.leading := by
  unfold magnitudeBits
  split
  · next small => exact small.trans_le (Nat.le_mul_of_pos_left _ (special_pos regular))
  · next large =>
      have below := represents.significand_lt
      have doubled : 2 ^ format.precision = format.leading + format.leading := by
        obtain ⟨less, same⟩ : ∃ less, format.precision = less + 1 :=
          ⟨format.precision - 1, by have := regular.precise; omega⟩
        unfold leading
        rw [same, Nat.add_sub_cancel, pow_succ]
        omega
      have exponent := exponent_lt_special regular represents (Nat.le_of_not_lt large)
      have next := Nat.mul_le_mul_right format.leading exponent
      rw [Nat.succ_eq_add_one, Nat.add_mul, Nat.one_mul] at next
      omega

/-- The pattern of a magnitude gives it back. -/
theorem ofMagnitudeBits_magnitudeBits (regular : format.Regular) {number : Rat}
    (represents : format.Represents number) (negative : Bool) :
    format.ofMagnitudeBits negative (format.magnitudeBits number) =
      .finite (if negative then -|number| else |number|) := by
  have below := magnitudeBits_lt regular represents
  have leading := format.leading_pos
  unfold ofMagnitudeBits
  have plain : format.magnitudeBits number / format.leading ≠ format.special := by
    have quotient := (Nat.div_lt_iff_lt_mul leading).2 below
    omega
  dsimp only
  rw [if_neg plain]
  unfold magnitudeBits
  by_cases small : format.significand number < format.leading
  · rw [if_pos small, Nat.div_eq_of_lt small, if_pos rfl, Nat.mod_eq_of_lt small]
    have value : (format.significand number : Rat) * 2 ^ format.leastUnit = |number| := by
      by_cases zero : number = 0
      · have none : (format.significand number : Rat) * format.unit number = 0 := by
          rw [← represents.significand, zero, abs_zero]
        have empty : (format.significand number : Rat) = 0 :=
          (mul_eq_zero.1 none).resolve_right (unit_pos number).ne'
        rw [empty, zero, abs_zero, zero_mul]
      · rw [represents.significand, unit_eq, unitExponent_of_small regular represents zero small]
    rw [value]
  · have least := format.leastUnit_le number
    have large : format.leading ≤ format.significand number := Nat.le_of_not_lt small
    have rest : format.significand number - format.leading < format.leading := by
      have limit := represents.significand_lt
      obtain ⟨less, same⟩ : ∃ less, format.precision = less + 1 :=
        ⟨format.precision - 1, by have := regular.precise; omega⟩
      have doubled : 2 ^ format.precision = format.leading + format.leading := by
        unfold FloatFormat.leading
        rw [same, Nat.add_sub_cancel, pow_succ]
        omega
      omega
    rw [if_neg small, Nat.mul_comm, Nat.mul_add_div leading, Nat.div_eq_of_lt rest,
      Nat.mul_add_mod, Nat.mod_eq_of_lt rest, Nat.add_zero, if_neg (by omega),
      Nat.add_sub_cancel' large]
    have exponent : format.leastUnit +
        ((format.unitExponent number - format.leastUnit + 1).toNat : Nat) - 1 =
          format.unitExponent number := by
      omega
    rw [exponent, represents.significand, unit_eq]

/-- The pattern of a stored value gives it back. -/
theorem ofBits_toBits_convert (regular : format.Regular) (value : FloatValue) :
    format.ofBits (format.toBits (format.convert value)) = format.convert value := by
  have leading := format.leading_pos
  have below_sign : ∀ {bits : Nat}, bits < format.special * format.leading + format.leading →
      bits < format.signBit := by
    intro bits small
    unfold signBit
    rw [Nat.add_mul, Nat.one_mul]
    exact small
  have infinite : ∀ negative : Bool,
      format.ofBits (format.toBits (.infinite negative)) = .infinite negative := by
    intro negative
    have magnitude : format.ofMagnitudeBits negative (format.special * format.leading) =
        .infinite negative := by
      unfold ofMagnitudeBits
      dsimp only
      rw [Nat.mul_div_cancel _ leading, if_pos rfl, Nat.mul_mod_left, if_pos rfl]
    cases negative with
    | false =>
        have pattern : format.toBits (.infinite false) = format.special * format.leading := by
          unfold toBits
          exact Nat.zero_add _
        rw [pattern]
        unfold ofBits
        rw [if_neg (Nat.not_le.2 (below_sign (by omega))), magnitude]
    | true =>
        have pattern : format.toBits (.infinite true) =
            format.signBit + format.special * format.leading := rfl
        rw [pattern]
        unfold ofBits
        rw [if_pos (Nat.le_add_right _ _), Nat.add_sub_cancel_left, magnitude]
  cases value with
  | infinite negative => exact infinite negative
  | nan =>
      change format.ofBits (format.special * format.leading + format.leading / 2) = .nan
      have half : format.leading / 2 < format.leading := Nat.div_lt_self leading Nat.one_lt_two
      have some_bits : format.leading / 2 ≠ 0 := by
        have wide : 2 ≤ format.leading := by
          unfold FloatFormat.leading
          calc 2 = 2 ^ 1 := rfl
            _ ≤ 2 ^ (format.precision - 1) :=
              Nat.pow_le_pow_right (by omega) (by have := regular.precise; omega)
        omega
      unfold ofBits ofMagnitudeBits
      rw [if_neg (Nat.not_le.2 (below_sign (by omega)))]
      dsimp only
      rw [Nat.mul_comm, Nat.mul_add_div leading, Nat.div_eq_of_lt half, Nat.add_zero, if_pos rfl,
        Nat.mul_add_mod, Nat.mod_eq_of_lt half, if_neg some_bits]
  | finite number =>
      change format.ofBits (format.toBits (format.round number)) = format.round number
      cases rounds : format.round number with
      | infinite negative => exact infinite negative
      | nan =>
          unfold round at rounds
          dsimp only at rounds
          split at rounds <;> cases rounds
      | finite rounded =>
          have represents := represents_round regular rounds
          have small := magnitudeBits_lt regular represents
          by_cases negative : rounded < 0
          · have pattern : format.toBits (.finite rounded) =
                format.signBit + format.magnitudeBits rounded := by
              unfold toBits
              dsimp only
              rw [if_pos negative]
            rw [pattern]
            unfold ofBits
            rw [if_pos (Nat.le_add_right _ _), Nat.add_sub_cancel_left,
              ofMagnitudeBits_magnitudeBits regular represents, if_pos rfl, abs_of_neg negative,
              neg_neg]
          · have pattern : format.toBits (.finite rounded) = format.magnitudeBits rounded := by
              unfold toBits
              dsimp only
              rw [if_neg negative, Nat.zero_add]
            rw [pattern]
            unfold ofBits
            rw [if_neg (Nat.not_le.2 (below_sign (by omega))),
              ofMagnitudeBits_magnitudeBits regular represents, if_neg Bool.false_ne_true,
              abs_of_nonneg (not_lt.1 negative)]

/-- A stored value has its sign in the highest bit. -/
theorem toBits_convert_lt (regular : format.Regular) (value : FloatValue) :
    format.toBits (format.convert value) < 2 * format.signBit := by
  have leading := format.leading_pos
  have sign : format.signBit = format.special * format.leading + format.leading := by
    unfold signBit
    rw [Nat.add_mul, Nat.one_mul]
  have infinite : ∀ negative : Bool, format.toBits (.infinite negative) < 2 * format.signBit := by
    intro negative
    have pattern : format.toBits (.infinite negative) =
        (if negative then format.signBit else 0) + format.special * format.leading := rfl
    rw [pattern]
    split <;> omega
  have finite : ∀ number, format.toBits (format.round number) < 2 * format.signBit := by
    intro number
    cases rounds : format.round number with
    | infinite negative => exact infinite negative
    | nan =>
        unfold round at rounds
        dsimp only at rounds
        split at rounds <;> cases rounds
    | finite rounded =>
        have small := magnitudeBits_lt regular (represents_round regular rounds)
        have pattern : format.toBits (.finite rounded) =
            (if rounded < 0 then format.signBit else 0) + format.magnitudeBits rounded := rfl
        rw [pattern]
        split <;> omega
  cases value with
  | finite number => exact finite number
  | infinite negative => exact infinite negative
  | nan =>
      change format.special * format.leading + format.leading / 2 < 2 * format.signBit
      omega

example : binary32.toBits (.finite (-5 / 2)) = 0xC0200000 := by decide +kernel

end FloatFormat

end UsdConnect
