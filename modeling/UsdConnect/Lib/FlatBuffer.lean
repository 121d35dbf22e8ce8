/-
Purpose: The FlatBuffers wire format: tables, strings and vectors as the bytes at positions of an
  image, so that a description of a part survives changes elsewhere.
Trusted boundary: none
Main exports: Buffer, Image, leBytes, leNat, patch, patchAll, TableAt, RefAt, TextAt
-/
import UsdConnect.Lib.FloatBits

namespace UsdConnect

abbrev Buffer := List UInt8

/-! ### Little-endian numbers -/

def leBytes : Nat → Nat → List UInt8
  | 0, _ => []
  | width + 1, number => UInt8.ofNat number :: leBytes width (number / 256)

def leNat : List UInt8 → Nat
  | [] => 0
  | byte :: rest => byte.toNat + 256 * leNat rest

/-- Two's complement bytes. -/
def signedBytes (width : Nat) (number : Int) : List UInt8 :=
  leBytes width (number % 2 ^ (8 * width)).toNat

def leInt (bytes : List UInt8) : Int :=
  wrapSigned (8 * bytes.length) (leNat bytes)

@[simp] theorem length_leBytes (width number : Nat) : (leBytes width number).length = width := by
  induction width generalizing number with
  | zero => rfl
  | succ width ih => rw [leBytes, List.length_cons, ih]

@[simp] theorem length_signedBytes (width : Nat) (number : Int) :
    (signedBytes width number).length = width := length_leBytes _ _

theorem leNat_leBytes (width number : Nat) :
    leNat (leBytes width number) = number % 2 ^ (8 * width) := by
  induction width generalizing number with
  | zero => rw [leBytes, leNat, Nat.mul_zero, pow_zero, Nat.mod_one]
  | succ width ih =>
      have power : 2 ^ (8 * (width + 1)) = 256 * 2 ^ (8 * width) := by
        rw [Nat.mul_add, Nat.mul_one, pow_add, Nat.mul_comm]
        rfl
      rw [leBytes, leNat, ih, power, Nat.mod_mul]
      rfl

theorem leNat_leBytes_of_lt {width number : Nat} (small : number < 2 ^ (8 * width)) :
    leNat (leBytes width number) = number := by
  rw [leNat_leBytes, Nat.mod_eq_of_lt small]

theorem leInt_signedBytes {width : Nat} {number : Int} (positive : 0 < width)
    (fits : FitsSigned (8 * width) number) : leInt (signedBytes width number) = number := by
  have power : (0 : Int) < 2 ^ (8 * width) := by positivity
  have low := Int.emod_nonneg number power.ne'
  have high := Int.emod_lt_of_pos number power
  have pattern : ((leNat (signedBytes width number) : Nat) : Int) = number % 2 ^ (8 * width) := by
    unfold signedBytes
    rw [leNat_leBytes_of_lt, Int.toNat_of_nonneg low]
    zify
    rw [Int.toNat_of_nonneg low]
    exact high
  unfold leInt
  rw [pattern, length_signedBytes]
  calc wrapSigned (8 * width) (number % 2 ^ (8 * width))
      = wrapSigned (8 * width) number := by
        unfold wrapSigned
        exact_mod_cast Int.emod_bmod number (2 ^ (8 * width))
    _ = number := wrapSigned_of_fits (by omega) fits

/-! ### Images -/

/-- What is known of the bytes of a buffer. -/
abbrev Image := Nat → Option UInt8

def Buffer.image (buffer : Buffer) : Image := fun index => buffer[index]?

/-- The image has the bytes at the position. -/
def Image.Holds (image : Image) (position : Nat) (bytes : List UInt8) : Prop :=
  ∀ index byte, bytes[index]? = some byte → image (position + index) = some byte

/-- Everything known of one image is known of the other. -/
def Image.Within (image other : Image) : Prop :=
  ∀ index byte, image index = some byte → other index = some byte

/-- Nothing is known of the bytes of a range. -/
def Image.Free (image : Image) (position count : Nat) : Prop :=
  ∀ index, position ≤ index → index < position + count → image index = none

theorem Image.Holds.mono {image other : Image} {position : Nat} {bytes : List UInt8}
    (holds : image.Holds position bytes) (within : image.Within other) :
    other.Holds position bytes :=
  fun index byte here => within _ _ (holds index byte here)

theorem Image.holds_append {image : Image} {position : Nat} {bytes rest : List UInt8} :
    image.Holds position (bytes ++ rest) ↔
      image.Holds position bytes ∧ image.Holds (position + bytes.length) rest := by
  constructor
  · intro holds
    constructor
    · intro index byte here
      have inside : index < bytes.length := (List.getElem?_eq_some_iff.1 here).1
      exact holds index byte (by rw [List.getElem?_append_left inside, here])
    · intro index byte here
      rw [Nat.add_assoc]
      apply holds
      rw [List.getElem?_append_right (Nat.le_add_right _ _), Nat.add_sub_cancel_left, here]
  · rintro ⟨front, back⟩ index byte here
    rcases Nat.lt_or_ge index bytes.length with inside | outside
    · rw [List.getElem?_append_left inside] at here
      exact front index byte here
    · rw [List.getElem?_append_right outside] at here
      have place : position + bytes.length + (index - bytes.length) = position + index := by omega
      rw [← place]
      exact back _ byte here

/-- An item of a sequence of blocks of one width. -/
theorem Image.Holds.block {Item : Type} {image : Image} {position width : Nat}
    {block : Item → List UInt8} {items : List Item}
    (holds : image.Holds position (items.flatMap block))
    (sized : ∀ item, (block item).length = width) {index : Nat} {item : Item}
    (here : items[index]? = some item) : image.Holds (position + width * index) (block item) := by
  induction items generalizing position index with
  | nil => cases here
  | cons first rest ih =>
      rw [List.flatMap_cons, Image.holds_append, sized] at holds
      cases index with
      | zero =>
          cases here
          exact holds.1
      | succ index =>
          have later := ih holds.2 here
          rw [Nat.mul_succ, Nat.add_comm (width * index), ← Nat.add_assoc]
          exact later

theorem Image.Holds.end_le {buffer : Buffer} {position : Nat} {bytes : List UInt8}
    (holds : buffer.image.Holds position bytes) (some_bytes : bytes ≠ []) :
    position + bytes.length ≤ buffer.length := by
  have last : bytes.length - 1 < bytes.length := by
    have := List.length_pos_of_ne_nil some_bytes
    omega
  have known := holds _ _ (List.getElem?_eq_getElem last)
  have inside := (List.getElem?_eq_some_iff.1 known).1
  omega

/-! ### Reading -/

/-- The bytes of a range that lies in the buffer. -/
def readBytes (buffer : Buffer) (position count : Nat) : Option (List UInt8) :=
  if position + count ≤ buffer.length then some ((buffer.drop position).take count) else none

theorem readBytes_of_holds {buffer : Buffer} {position : Nat} {bytes : List UInt8}
    (holds : buffer.image.Holds position bytes) (inside : position + bytes.length ≤ buffer.length) :
    readBytes buffer position bytes.length = some bytes := by
  unfold readBytes
  rw [if_pos inside]
  congr 1
  apply List.ext_getElem?
  intro index
  rcases Nat.lt_or_ge index bytes.length with here | beyond
  · rw [List.getElem?_take_of_lt here, List.getElem?_drop]
    have known := holds _ _ (List.getElem?_eq_getElem here)
    rw [List.getElem?_eq_getElem here]
    exact known
  · rw [List.getElem?_eq_none beyond, List.getElem?_eq_none]
    rw [List.length_take]
    omega

def readNat (buffer : Buffer) (position width : Nat) : Option Nat :=
  (readBytes buffer position width).map leNat

def readInt (buffer : Buffer) (position width : Nat) : Option Int :=
  (readBytes buffer position width).map leInt

theorem readNat_of_holds {buffer : Buffer} {position width number : Nat} (positive : 0 < width)
    (small : number < 2 ^ (8 * width))
    (holds : buffer.image.Holds position (leBytes width number)) :
    readNat buffer position width = some number := by
  have some_bytes : leBytes width number ≠ [] := by
    intro empty
    have := length_leBytes width number
    rw [empty, List.length_nil] at this
    omega
  have read := readBytes_of_holds holds (holds.end_le some_bytes)
  rw [length_leBytes] at read
  unfold readNat
  rw [read, Option.map_some, leNat_leBytes_of_lt small]

theorem readInt_of_holds {buffer : Buffer} {position width : Nat} {number : Int}
    (positive : 0 < width) (fits : FitsSigned (8 * width) number)
    (holds : buffer.image.Holds position (signedBytes width number)) :
    readInt buffer position width = some number := by
  have some_bytes : signedBytes width number ≠ [] := by
    intro empty
    have := length_signedBytes width number
    rw [empty, List.length_nil] at this
    omega
  have read := readBytes_of_holds holds (holds.end_le some_bytes)
  rw [length_signedBytes] at read
  unfold readInt
  rw [read, Option.map_some, leInt_signedBytes positive fits]

/-! ### Patches -/

/-- The buffer with bytes written over a range. -/
def patch (buffer : Buffer) (position : Nat) (bytes : List UInt8) : Buffer :=
  buffer.take position ++ bytes ++ buffer.drop (position + bytes.length)

theorem length_patch {buffer : Buffer} {position : Nat} {bytes : List UInt8}
    (inside : position + bytes.length ≤ buffer.length) :
    (patch buffer position bytes).length = buffer.length := by
  unfold patch
  rw [List.length_append, List.length_append, List.length_take, List.length_drop]
  omega

theorem patch_holds {buffer : Buffer} {position : Nat} {bytes : List UInt8}
    (inside : position + bytes.length ≤ buffer.length) :
    (patch buffer position bytes).image.Holds position bytes := by
  intro index byte here
  have front : (buffer.take position).length = position := by
    rw [List.length_take]
    omega
  have bound : index < bytes.length := (List.getElem?_eq_some_iff.1 here).1
  unfold Buffer.image patch
  rw [List.append_assoc, List.getElem?_append_right (by omega), front, Nat.add_sub_cancel_left,
    List.getElem?_append_left bound, here]

theorem patch_elsewhere {buffer : Buffer} {position : Nat} {bytes : List UInt8}
    (inside : position + bytes.length ≤ buffer.length) {index : Nat}
    (outside : index < position ∨ position + bytes.length ≤ index) :
    (patch buffer position bytes).image index = buffer.image index := by
  have front : (buffer.take position).length = position := by
    rw [List.length_take]
    omega
  unfold Buffer.image patch
  rcases outside with before | after
  · rw [List.append_assoc, List.getElem?_append_left (by omega), List.getElem?_take_of_lt before]
  · rw [List.getElem?_append_right (by rw [List.length_append]; omega), List.length_append, front,
      List.getElem?_drop]
    congr 1
    omega

/-- A range of a buffer and the bytes in it. -/
structure Chunk where
  position : Nat
  bytes : List UInt8
deriving DecidableEq, Repr

/-- The ranges of two chunks have no byte in common. -/
def Chunk.Apart (chunk other : Chunk) : Prop :=
  chunk.position + chunk.bytes.length ≤ other.position ∨
    other.position + other.bytes.length ≤ chunk.position

instance (chunk other : Chunk) : Decidable (chunk.Apart other) :=
  inferInstanceAs (Decidable (_ ∨ _))

def Chunk.Inside (chunk : Chunk) (buffer : Buffer) : Prop :=
  chunk.position + chunk.bytes.length ≤ buffer.length

instance (chunk : Chunk) (buffer : Buffer) : Decidable (chunk.Inside buffer) :=
  inferInstanceAs (Decidable (_ ≤ _))

/-- Chunks written in order. -/
def patchAll (buffer : Buffer) : List Chunk → Buffer
  | [] => buffer
  | chunk :: rest => patchAll (patch buffer chunk.position chunk.bytes) rest

theorem patchAll_append (buffer : Buffer) (chunks others : List Chunk) :
    patchAll buffer (chunks ++ others) = patchAll (patchAll buffer chunks) others := by
  induction chunks generalizing buffer with
  | nil => rfl
  | cons chunk rest ih => exact ih _

theorem length_patchAll {buffer : Buffer} {chunks : List Chunk}
    (inside : ∀ chunk ∈ chunks, chunk.Inside buffer) :
    (patchAll buffer chunks).length = buffer.length := by
  induction chunks generalizing buffer with
  | nil => rfl
  | cons chunk rest ih =>
      have size := length_patch (inside chunk List.mem_cons_self)
      rw [patchAll, ih, size]
      intro other member
      unfold Chunk.Inside
      rw [size]
      exact inside other (List.mem_cons_of_mem _ member)

theorem within_patch {frame : Image} {buffer : Buffer} {chunk : Chunk}
    (within : frame.Within buffer.image) (inside : chunk.Inside buffer)
    (free : frame.Free chunk.position chunk.bytes.length) :
    frame.Within (patch buffer chunk.position chunk.bytes).image := by
  intro index byte known
  have outside : index < chunk.position ∨ chunk.position + chunk.bytes.length ≤ index := by
    by_contra inner
    have unknown := free index (by omega) (by omega)
    rw [known] at unknown
    cases unknown
  rw [patch_elsewhere inside outside]
  exact within index byte known

theorem holds_patch {buffer : Buffer} {chunk other : Chunk} (inside : chunk.Inside buffer)
    (apart : chunk.Apart other) (holds : buffer.image.Holds other.position other.bytes) :
    (patch buffer chunk.position chunk.bytes).image.Holds other.position other.bytes := by
  intro index byte here
  have bound : index < other.bytes.length := (List.getElem?_eq_some_iff.1 here).1
  rw [patch_elsewhere inside (by unfold Chunk.Apart at apart; omega)]
  exact holds index byte here

/-- Writing to the free ranges of a frame keeps the frame, and each chunk is where it was
written. -/
theorem patchAll_spec {frame : Image} {buffer : Buffer} {chunks : List Chunk}
    (within : frame.Within buffer.image) (inside : ∀ chunk ∈ chunks, chunk.Inside buffer)
    (free : ∀ chunk ∈ chunks, frame.Free chunk.position chunk.bytes.length)
    (apart : chunks.Pairwise Chunk.Apart) :
    frame.Within (patchAll buffer chunks).image ∧
      (∀ other : Chunk, (∀ chunk ∈ chunks, chunk.Apart other) →
        buffer.image.Holds other.position other.bytes →
          (patchAll buffer chunks).image.Holds other.position other.bytes) ∧
      ∀ chunk ∈ chunks, (patchAll buffer chunks).image.Holds chunk.position chunk.bytes := by
  induction chunks generalizing buffer with
  | nil => exact ⟨within, fun _ _ holds => holds, fun _ member => nomatch member⟩
  | cons chunk rest ih =>
      rw [List.pairwise_cons] at apart
      have fits := inside chunk List.mem_cons_self
      have size := length_patch fits
      have kept : ∀ other ∈ rest, other.Inside (patch buffer chunk.position chunk.bytes) := by
        intro other member
        unfold Chunk.Inside
        rw [size]
        exact inside other (List.mem_cons_of_mem _ member)
      have later := ih (within_patch within fits (free chunk List.mem_cons_self)) kept
        (fun other member => free other (List.mem_cons_of_mem _ member)) apart.2
      rw [patchAll]
      refine ⟨later.1, ?_, ?_⟩
      · intro other outside holds
        exact later.2.1 other (fun next member => outside next (List.mem_cons_of_mem _ member))
          (holds_patch fits (outside chunk List.mem_cons_self) holds)
      · intro other member
        rcases List.mem_cons.1 member with rfl | further
        · apply later.2.1 other
          · intro next other_member
            exact (apart.1 next other_member).symm
          · exact patch_holds fits
        · exact later.2.2 other further

/-! ### The format -/

/-- Where a table and its vtable are, and the offsets of its fields, zero for an absent field. -/
structure TableLayout where
  position : Nat
  vtable : Nat
  size : Nat
  slots : List Nat
deriving DecidableEq, Repr

namespace TableLayout

/-- Offset of the field of an index in the schema. -/
def slot (table : TableLayout) (index : Nat) : Nat :=
  table.slots.getD index 0

def field (table : TableLayout) (index : Nat) : Nat :=
  table.position + table.slot index

/-- Signed distance of a table from its vtable. -/
def distance (table : TableLayout) : Int :=
  table.position - table.vtable

/-- The image has the table and its vtable. -/
structure At (table : TableLayout) (image : Image) : Prop where
  near : FitsSigned 32 table.distance
  linked : image.Holds table.position (signedBytes 4 table.distance)
  counted : 4 + 2 * table.slots.length < 2 ^ 16
  sized : table.size < 2 ^ 16
  bounded : ∀ slot ∈ table.slots, slot < table.size
  header : image.Holds table.vtable (leBytes 2 (4 + 2 * table.slots.length) ++
    leBytes 2 table.size ++ table.slots.flatMap (leBytes 2))

/-- A field is absent, or its value is described at its position. -/
def Stores {Value : Type} (table : TableLayout) (index : Nat) (value : Option Value)
    (described : Value → Nat → Prop) : Prop :=
  match value with
  | none => table.slot index = 0
  | some value => table.slot index ≠ 0 ∧ described value (table.field index)

end TableLayout

/-- A reference to a later position. -/
structure RefAt (image : Image) (field target : Nat) : Prop where
  forward : field ≤ target
  near : target - field < 2 ^ 32
  held : image.Holds field (leBytes 4 (target - field))

/-- A vector of items of one width. -/
structure ItemsAt (image : Image) (target width : Nat) (items : List (List UInt8)) : Prop where
  counted : items.length < 2 ^ 32
  sized : ∀ item ∈ items, item.length = width
  count : image.Holds target (leBytes 4 items.length)
  held : image.Holds (target + 4) items.flatten

/-- UTF-8 bytes of a text. -/
def textBytes (text : String) : List UInt8 :=
  text.toByteArray.data.toList

/-- The text of valid UTF-8 bytes. -/
def textOf (bytes : List UInt8) : Option String :=
  String.fromUTF8? ⟨bytes.toArray⟩

theorem textOf_textBytes (text : String) : textOf (textBytes text) = some text := by
  unfold textOf textBytes String.fromUTF8?
  rw [dif_pos text.isValidUTF8]
  rfl

structure TextAt (image : Image) (target : Nat) (text : String) : Prop where
  counted : (textBytes text).length < 2 ^ 32
  held : image.Holds target (leBytes 4 (textBytes text).length ++ textBytes text)

/-- A string field. -/
def TableLayout.StoresText (table : TableLayout) (image : Image) (index : Nat)
    (text : Option String) : Prop :=
  table.Stores index text fun text field =>
    ∃ target, RefAt image field target ∧ TextAt image target text

/-- A field that refers to a table. -/
def TableLayout.StoresTable (table : TableLayout) (image : Image) (index : Nat)
    (target : Option Nat) : Prop :=
  table.Stores index target fun target field => RefAt image field target

/-- An inline number. -/
def TableLayout.StoresBytes (table : TableLayout) (image : Image) (index : Nat)
    (bytes : Option (List UInt8)) : Prop :=
  table.Stores index bytes fun bytes field => image.Holds field bytes

/-! ### Larger images -/

theorem TableLayout.At.mono {table : TableLayout} {image other : Image} (at_table : table.At image)
    (within : image.Within other) : table.At other :=
  { at_table with
    linked := at_table.linked.mono within
    header := at_table.header.mono within }

theorem RefAt.mono {image other : Image} {field target : Nat} (reference : RefAt image field target)
    (within : image.Within other) : RefAt other field target :=
  { reference with held := reference.held.mono within }

theorem TextAt.mono {image other : Image} {target : Nat} {text : String}
    (at_text : TextAt image target text) (within : image.Within other) :
    TextAt other target text :=
  { at_text with held := at_text.held.mono within }

theorem TableLayout.Stores.mono {Value : Type} {table : TableLayout} {index : Nat}
    {value : Option Value} {described other : Value → Nat → Prop}
    (stores : table.Stores index value described)
    (more : ∀ value field, described value field → other value field) :
    table.Stores index value other := by
  cases value with
  | none => exact stores
  | some value => exact ⟨stores.1, more _ _ stores.2⟩

theorem TableLayout.StoresText.mono {table : TableLayout} {image other : Image} {index : Nat}
    {text : Option String} (stores : table.StoresText image index text)
    (within : image.Within other) : table.StoresText other index text := by
  apply Stores.mono stores
  rintro text field ⟨target, reference, at_text⟩
  exact ⟨target, reference.mono within, at_text.mono within⟩

theorem TableLayout.StoresTable.mono {table : TableLayout} {image other : Image} {index : Nat}
    {target : Option Nat} (stores : table.StoresTable image index target)
    (within : image.Within other) : table.StoresTable other index target :=
  Stores.mono stores fun _ _ reference => reference.mono within

theorem TableLayout.StoresBytes.mono {table : TableLayout} {image other : Image} {index : Nat}
    {bytes : Option (List UInt8)} (stores : table.StoresBytes image index bytes)
    (within : image.Within other) : table.StoresBytes other index bytes :=
  Stores.mono stores fun _ _ held => held.mono within

end UsdConnect
