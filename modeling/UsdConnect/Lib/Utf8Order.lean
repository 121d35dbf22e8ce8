/-
Purpose: Byte-wise comparison of UTF-8 texts is comparison by code point, and what lies between a
  prefix and the prefix with one more character.
Trusted boundary: none
Main exports: utf8, utf8_lt_utf8, utf8_between_iff
-/
import UsdConnect.Lib.SortedPrefix
import Mathlib.Data.Char

namespace UsdConnect

/-! ### Encodings that keep the order -/

section Encoding

variable {Letter Byte : Type} [LinearOrder Letter] [LinearOrder Byte]

/-- Whatever follows, the code of a smaller letter comes first. -/
def EncodesInOrder (encode : Letter → List Byte) : Prop :=
  ∀ first second, first < second → ∀ rest others,
    encode first ++ rest < encode second ++ others

variable {encode : Letter → List Byte}

theorem append_lt_append_iff (code : List Byte) {rest others : List Byte} :
    code ++ rest < code ++ others ↔ rest < others := by
  induction code with
  | nil => rfl
  | cons byte code ih => simp [ih]

theorem EncodesInOrder.flatMap_lt (keeps : EncodesInOrder encode) (filled : ∀ letter, encode letter ≠ [])
    {text other : List Letter} (smaller : text < other) :
    text.flatMap encode < other.flatMap encode := by
  induction text generalizing other with
  | nil =>
      cases other with
      | nil => exact absurd smaller (lt_irrefl _)
      | cons letter other =>
          obtain ⟨byte, code, coded⟩ := List.exists_cons_of_ne_nil (filled letter)
          simp [coded]
  | cons letter text ih =>
      cases other with
      | nil => exact absurd smaller (List.not_lt_nil _)
      | cons second other =>
          simp only [List.flatMap_cons]
          rcases List.cons_lt_cons_iff.1 smaller with earlier | ⟨rfl, later⟩
          · exact keeps _ _ earlier _ _
          · exact (append_lt_append_iff _).2 (ih later)

/-- Codes compare as the texts do. -/
theorem EncodesInOrder.flatMap_lt_iff (keeps : EncodesInOrder encode)
    (filled : ∀ letter, encode letter ≠ []) {text other : List Letter} :
    text.flatMap encode < other.flatMap encode ↔ text < other := by
  constructor
  · intro coded
    rcases lt_trichotomy text other with smaller | rfl | larger
    · exact smaller
    · exact absurd coded (lt_irrefl _)
    · exact absurd coded (keeps.flatMap_lt filled larger).asymm
  · exact keeps.flatMap_lt filled

end Encoding

/-! ### UTF-8 -/

instance linearOrderByte : LinearOrder UInt8 where
  le_refl _ := UInt8.le_refl _
  le_trans _ _ _ := UInt8.le_trans
  lt_iff_le_not_ge first second := by
    rw [UInt8.lt_iff_toNat_lt, UInt8.le_iff_toNat_le, UInt8.le_iff_toNat_le]
    omega
  le_antisymm _ _ := UInt8.le_antisymm
  le_total := UInt8.le_total
  toDecidableLE := inferInstance
  toDecidableEq := inferInstance
  toDecidableLT := inferInstance

/-- UTF-8 bytes of a text. -/
def utf8 (text : List Char) : List UInt8 :=
  text.flatMap String.utf8EncodeChar

/-- A byte of a code is a tag over a digit. -/
theorem taggedDigit {base tag : Nat} (positive : 0 < base) (fits : base + tag ≤ 256)
    (number : Nat) : (number % base + tag) % 256 = number % base + tag := by
  have digit := Nat.mod_lt number positive
  exact Nat.mod_eq_of_lt (by omega)

theorem encodesInOrder_utf8EncodeChar : EncodesInOrder String.utf8EncodeChar := by
  intro first second smaller rest others
  have below : first.val.toNat < second.val.toNat := smaller
  have bound : second.val.toNat < 0x110000 := by
    rcases second.valid with small | ⟨_, large⟩ <;> omega
  unfold String.utf8EncodeChar
  generalize first.val.toNat = point at *
  generalize second.val.toNat = other at *
  -- the digits of a code point are those in base 64
  have third (number : Nat) : number / 4096 = number / 64 / 64 :=
    (Nat.div_div_eq_div_mul number 64 64).symm
  have fourth (number : Nat) : number / 262144 = number / 64 / 64 / 64 := by
    rw [Nat.div_div_eq_div_mul, Nat.div_div_eq_div_mul]
  dsimp only
  split_ifs <;>
    simp only [List.cons_append, List.nil_append, List.cons_lt_cons_iff, UInt8.lt_iff_toNat_lt,
      ← UInt8.toNat_inj, UInt8.toNat_ofNat', Nat.reducePow, third, fourth,
      @taggedDigit 64 128 (by decide) (by decide), @taggedDigit 32 192 (by decide) (by decide),
      @taggedDigit 16 224 (by decide) (by decide), @taggedDigit 8 240 (by decide) (by decide)] <;>
    omega

/-- Bytes of UTF-8 compare as code points do. -/
@[simp] theorem utf8_lt_utf8 {text other : List Char} : utf8 text < utf8 other ↔ text < other :=
  encodesInOrder_utf8EncodeChar.flatMap_lt_iff fun _ => String.utf8EncodeChar_ne_nil

/-- The texts from a prefix on that come before the prefix with a last character are those with the
prefix that go on with a smaller character, if at all. -/
theorem utf8_between_iff {start text : List Char} {last : Char} :
    ¬ utf8 text < utf8 start ∧ utf8 text < utf8 (start ++ [last]) ↔
      ∃ rest, text = start ++ rest ∧ ∀ next ∈ rest.head?, next < last := by
  rw [utf8_lt_utf8, utf8_lt_utf8]
  exact SortedPrefix.between_iff

end UsdConnect
