/-
Purpose: Generated accessors of FlatBuffers tables as a parameter with the laws of the format, and a
  reader of the format that satisfies them.
Trusted boundary: none
Main exports: Accessors, Accessors.Lawful, formatAccessors, formatAccessors_lawful
-/
import UsdConnect.Lib.FlatBuffer
import UsdConnect.Lib.Rows

namespace UsdConnect

/-- The accessors of a FlatBuffers runtime.  Fields are named by their vtable offset, four more than
twice their index. -/
structure Accessors where
  /-- Position of the root table. -/
  root : Buffer → Nat
  /-- Offset of a field in a table, zero if absent. -/
  offset : Buffer → (table field : Nat) → Nat
  /-- Position of the first item of the vector at an offset in a table. -/
  vector : Buffer → (table offset : Nat) → Nat
  /-- Bytes of an inline number. -/
  scalar : Buffer → (table field width : Nat) → Option (List UInt8)
  /-- Position of a table or union value. -/
  child : Buffer → (table field : Nat) → Option Nat
  text : Buffer → (table field : Nat) → Option (List UInt8)
  /-- Bytes of each item of a vector. -/
  items : Buffer → (table field width : Nat) → Option (List (List UInt8))
  /-- Positions of the tables of a vector. -/
  children : Buffer → (table field : Nat) → List Nat

/-- A vector field. -/
def TableLayout.StoresItems (table : TableLayout) (image : Image) (index width : Nat)
    (items : Option (List (List UInt8))) : Prop :=
  table.Stores index items fun items field =>
    ∃ target, RefAt image field target ∧ ItemsAt image target width items

/-- References to tables, one after the other. -/
def RefsAt (image : Image) (start : Nat) (targets : List Nat) : Prop :=
  ∀ index target, targets[index]? = some target → RefAt image (start + 4 * index) target

/-- A field that refers to a vector of tables. -/
def TableLayout.StoresTables (table : TableLayout) (image : Image) (index : Nat)
    (targets : Option (List Nat)) : Prop :=
  table.Stores index targets fun targets field =>
    ∃ start, RefAt image field start ∧ targets.length < 2 ^ 32 ∧
      image.Holds start (leBytes 4 targets.length) ∧ RefsAt image (start + 4) targets

/-- The accessors return what a buffer stores. -/
structure Accessors.Lawful (accessors : Accessors) : Prop where
  root : ∀ {buffer : Buffer} {position : Nat}, RefAt buffer.image 0 position →
    accessors.root buffer = position
  offset : ∀ {buffer : Buffer} {table : TableLayout} (index : Nat), table.At buffer.image →
    accessors.offset buffer table.position (4 + 2 * index) = table.slot index
  vector : ∀ {buffer : Buffer} {table offset target : Nat},
    RefAt buffer.image (table + offset) target → accessors.vector buffer table offset = target + 4
  scalar : ∀ {buffer : Buffer} {table : TableLayout} {width : Nat}
    {bytes : Option (List UInt8)} (index : Nat), table.At buffer.image → 0 < width →
    (∀ stored ∈ bytes, stored.length = width) → table.StoresBytes buffer.image index bytes →
    accessors.scalar buffer table.position (4 + 2 * index) width = bytes
  child : ∀ {buffer : Buffer} {table : TableLayout} {target : Option Nat} (index : Nat),
    table.At buffer.image → table.StoresTable buffer.image index target →
    accessors.child buffer table.position (4 + 2 * index) = target
  text : ∀ {buffer : Buffer} {table : TableLayout} {text : Option String} (index : Nat),
    table.At buffer.image → table.StoresText buffer.image index text →
    accessors.text buffer table.position (4 + 2 * index) = text.map textBytes
  items : ∀ {buffer : Buffer} {table : TableLayout} {width : Nat}
    {items : Option (List (List UInt8))} (index : Nat), table.At buffer.image →
    table.StoresItems buffer.image index width items →
    accessors.items buffer table.position (4 + 2 * index) width = items
  children : ∀ {buffer : Buffer} {table : TableLayout} {targets : Option (List Nat)} (index : Nat),
    table.At buffer.image → table.StoresTables buffer.image index targets →
    accessors.children buffer table.position (4 + 2 * index) = targets.getD []

/-! ### What a table tells -/

section Tables

variable {buffer : Buffer} {table : TableLayout}

theorem leBytes_ne_nil {width : Nat} (positive : 0 < width) (number : Nat) :
    leBytes width number ≠ [] := by
  intro empty
  have size := length_leBytes width number
  rw [empty, List.length_nil] at size
  omega

theorem TableLayout.At.slot_lt (at_table : table.At buffer.image) {index : Nat}
    (present : table.slot index ≠ 0) : table.slot index < table.size := by
  apply at_table.bounded
  unfold slot at present ⊢
  rw [List.getD_eq_getElem?_getD] at present ⊢
  cases here : table.slots[index]? with
  | none =>
      rw [here] at present
      exact absurd rfl present
  | some found => exact List.mem_of_getElem? here

theorem TableLayout.At.slot_small (at_table : table.At buffer.image) (index : Nat) :
    table.slot index < 2 ^ 16 := by
  by_cases absent : table.slot index = 0
  · rw [absent]
    exact Nat.two_pow_pos _
  · have below := at_table.slot_lt absent
    have size := at_table.sized
    omega

theorem length_flatMap_leBytes (slots : List Nat) :
    (slots.flatMap (leBytes 2)).length = 2 * slots.length := by
  induction slots with
  | nil => rfl
  | cons slot rest ih =>
      rw [List.flatMap_cons, List.length_append, length_leBytes, ih, List.length_cons]
      omega

/-- The whole vtable lies in the buffer. -/
theorem TableLayout.At.vtable_end (at_table : table.At buffer.image) :
    table.vtable + (4 + 2 * table.slots.length) ≤ buffer.length := by
  have held := at_table.header.end_le (by
    intro empty
    have sizes := congrArg List.length empty
    simp only [List.length_append, length_leBytes, List.length_nil] at sizes
    omega)
  rw [List.length_append, List.length_append, length_leBytes, length_leBytes,
    length_flatMap_leBytes] at held
  omega

theorem TableLayout.At.readDistance (at_table : table.At buffer.image) :
    readInt buffer table.position 4 = some table.distance :=
  readInt_of_holds (by decide) at_table.near at_table.linked

theorem TableLayout.At.readCount (at_table : table.At buffer.image) :
    readNat buffer table.vtable 2 = some (4 + 2 * table.slots.length) := by
  have header := Image.holds_append.1 (Image.holds_append.1 at_table.header).1
  exact readNat_of_holds (by decide) at_table.counted header.1

theorem TableLayout.At.readSize (at_table : table.At buffer.image) :
    readNat buffer (table.vtable + 2) 2 = some table.size := by
  have header := Image.holds_append.1 (Image.holds_append.1 at_table.header).1
  have size := header.2
  rw [length_leBytes] at size
  exact readNat_of_holds (by decide) at_table.sized size

theorem TableLayout.At.readSlot (at_table : table.At buffer.image) {index : Nat}
    (inside : index < table.slots.length) :
    readNat buffer (table.vtable + (4 + 2 * index)) 2 = some (table.slot index) := by
  have entries := (Image.holds_append.1 at_table.header).2
  rw [List.length_append, length_leBytes, length_leBytes] at entries
  have value : table.slots[index]? = some (table.slot index) := by
    unfold TableLayout.slot
    rw [List.getD_eq_getElem?_getD, List.getElem?_eq_getElem inside]
    rfl
  have entry := entries.block (length_leBytes 2) value
  have place : table.vtable + (2 + 2) + 2 * index = table.vtable + (4 + 2 * index) := by omega
  rw [place] at entry
  exact readNat_of_holds (by decide) (at_table.slot_small index) entry

theorem TableLayout.slot_outside {index : Nat} (outside : table.slots.length ≤ index) :
    table.slot index = 0 := by
  unfold slot
  rw [List.getD_eq_getElem?_getD, List.getElem?_eq_none outside]
  rfl

theorem RefAt.read {field target : Nat} (reference : RefAt buffer.image field target) :
    readNat buffer field 4 = some (target - field) :=
  readNat_of_holds (by decide) reference.near reference.held

theorem TextAt.readLength {target : Nat} {text : String}
    (at_text : TextAt buffer.image target text) :
    readNat buffer target 4 = some (textBytes text).length :=
  readNat_of_holds (by decide) at_text.counted (Image.holds_append.1 at_text.held).1

theorem TextAt.end_le {target : Nat} {text : String} (at_text : TextAt buffer.image target text) :
    target + 4 + (textBytes text).length ≤ buffer.length := by
  have inside := at_text.held.end_le (by
    intro empty
    have sizes := congrArg List.length empty
    rw [List.length_append, length_leBytes, List.length_nil] at sizes
    omega)
  rw [List.length_append, length_leBytes] at inside
  omega

theorem TextAt.readText {target : Nat} {text : String}
    (at_text : TextAt buffer.image target text) :
    readBytes buffer (target + 4) (textBytes text).length = some (textBytes text) := by
  have bytes := (Image.holds_append.1 at_text.held).2
  rw [length_leBytes] at bytes
  exact readBytes_of_holds bytes at_text.end_le

/-! ### Vectors -/

/-- Items of a vector, one after the other. -/
def readItems (buffer : Buffer) (start width count : Nat) : Option (List (List UInt8)) :=
  (List.range count).mapM fun index => readBytes buffer (start + width * index) width

theorem ItemsAt.readCount {target width : Nat} {items : List (List UInt8)}
    (at_items : ItemsAt buffer.image target width items) :
    readNat buffer target 4 = some items.length :=
  readNat_of_holds (by decide) at_items.counted at_items.count

theorem length_flatten_of_sized {width : Nat} {items : List (List UInt8)}
    (sized : ∀ item ∈ items, item.length = width) : items.flatten.length = width * items.length := by
  induction items with
  | nil => rfl
  | cons item rest ih =>
      rw [List.flatten_cons, List.length_append, sized item List.mem_cons_self,
        ih fun other member => sized other (List.mem_cons_of_mem _ member), List.length_cons,
        Nat.mul_succ, Nat.add_comm]

theorem ItemsAt.end_le {target width : Nat} {items : List (List UInt8)}
    (at_items : ItemsAt buffer.image target width items) :
    target + 4 + width * items.length ≤ buffer.length := by
  have sizes := length_flatten_of_sized at_items.sized
  have whole := at_items.count.end_le (leBytes_ne_nil (by decide) _)
  rw [length_leBytes] at whole
  by_cases empty : items.flatten = []
  · rw [empty, List.length_nil] at sizes
    omega
  · have inside := at_items.held.end_le empty
    omega

/-- A list is read item by item. -/
theorem option_mapM_range {Value : Type} {read : Nat → Option Value} {values : List Value}
    (each : ∀ index value, values[index]? = some value → read index = some value) :
    (List.range values.length).mapM read = some values :=
  (mapM_range_eq each).trans (List.mapM_pure.trans (congrArg some (List.map_id values)))

theorem ItemsAt.readItems {target width : Nat} {items : List (List UInt8)}
    (at_items : ItemsAt buffer.image target width items) :
    readItems buffer (target + 4) width items.length = some items := by
  apply option_mapM_range
  intro index item here
  have inside : index < items.length := (List.getElem?_eq_some_iff.1 here).1
  have sized := at_items.sized item (List.mem_of_getElem? here)
  have held : buffer.image.Holds (target + 4 + width * index) item := by
    have all := at_items.held
    have front : items.flatten =
        (items.take index).flatten ++ (item ++ (items.drop (index + 1)).flatten) := by
      rw [← List.flatten_cons, ← List.flatten_append]
      congr 1
      have split := List.take_append_drop index items
      rw [List.drop_eq_getElem_cons inside] at split
      rw [← (List.getElem?_eq_some_iff.1 here).2, split]
    have before : ∀ other ∈ items.take index, other.length = width :=
      fun other member => at_items.sized other (List.mem_of_mem_take member)
    rw [front, Image.holds_append, Image.holds_append, length_flatten_of_sized before,
      List.length_take_of_le inside.le] at all
    exact all.2.1
  have room : target + 4 + width * index + item.length ≤ buffer.length := by
    have whole := at_items.end_le
    have next : width * (index + 1) ≤ width * items.length := Nat.mul_le_mul_left _ inside
    rw [Nat.mul_succ] at next
    omega
  rw [← sized] at held room ⊢
  exact readBytes_of_holds held room

end Tables

/-! ### A reader of the format -/

def formatOffset (buffer : Buffer) (table field : Nat) : Nat :=
  (do
    let distance ← readInt buffer table 4
    let vtable := ((table : Int) - distance).toNat
    let length ← readNat buffer vtable 2
    if field < length then readNat buffer (vtable + field) 2 else none).getD 0

/-- Target of a reference. -/
def followed (buffer : Buffer) (position : Nat) : Option Nat :=
  (readNat buffer position 4).map (position + ·)

/-- A field of a table that has it. -/
def formatField {Value : Type} (buffer : Buffer) (table field : Nat) (read : Nat → Option Value) :
    Option Value :=
  if formatOffset buffer table field = 0 then none
  else read (table + formatOffset buffer table field)

def formatItems (buffer : Buffer) (position width : Nat) : Option (List (List UInt8)) := do
  let target ← followed buffer position
  let count ← readNat buffer target 4
  readItems buffer (target + 4) width count

def formatText (buffer : Buffer) (position : Nat) : Option (List UInt8) := do
  let target ← followed buffer position
  let count ← readNat buffer target 4
  readBytes buffer (target + 4) count

def formatChildren (buffer : Buffer) (position : Nat) : Option (List Nat) := do
  let target ← followed buffer position
  let count ← readNat buffer target 4
  (List.range count).mapM fun index => followed buffer (target + 4 + 4 * index)

/-- A reader of the format. -/
def formatAccessors : Accessors where
  root := fun buffer => (followed buffer 0).getD 0
  offset := formatOffset
  vector := fun buffer table offset => (followed buffer (table + offset)).getD 0 + 4
  scalar := fun buffer table field width =>
    formatField buffer table field fun position => readBytes buffer position width
  child := fun buffer table field => formatField buffer table field (followed buffer)
  text := fun buffer table field => formatField buffer table field (formatText buffer)
  items := fun buffer table field width =>
    formatField buffer table field fun position => formatItems buffer position width
  children := fun buffer table field =>
    (formatField buffer table field (formatChildren buffer)).getD []

section Reader

variable {buffer : Buffer} {table : TableLayout}

theorem RefAt.followed {field target : Nat} (reference : RefAt buffer.image field target) :
    followed buffer field = some target := by
  unfold UsdConnect.followed
  rw [reference.read, Option.map_some, Nat.add_sub_cancel' reference.forward]

theorem formatOffset_eq (at_table : table.At buffer.image) (index : Nat) :
    formatOffset buffer table.position (4 + 2 * index) = table.slot index := by
  have place : ((table.position : Int) - table.distance).toNat = table.vtable := by
    unfold TableLayout.distance
    omega
  unfold formatOffset
  rw [at_table.readDistance, Option.bind_eq_bind, Option.bind_some]
  dsimp only
  rw [place, at_table.readCount, Option.bind_eq_bind, Option.bind_some]
  by_cases inside : index < table.slots.length
  · rw [if_pos (by omega), at_table.readSlot inside]
    rfl
  · rw [if_neg (by omega), TableLayout.slot_outside (Nat.le_of_not_lt inside)]
    rfl

/-- What is read of a stored field. -/
theorem formatField_eq {Value Read : Type} {index : Nat} {value : Option Value}
    {described : Value → Nat → Prop} {read : Nat → Option Read} {result : Value → Read}
    (at_table : table.At buffer.image) (stores : table.Stores index value described)
    (reads : ∀ stored position, described stored position →
      stored ∈ value → read position = some (result stored)) :
    formatField buffer table.position (4 + 2 * index) read = value.map result := by
  unfold formatField
  rw [formatOffset_eq at_table]
  cases value with
  | none =>
      have absent : table.slot index = 0 := stores
      rw [if_pos absent, Option.map_none]
  | some stored =>
      rw [if_neg stores.1, Option.map_some]
      exact reads stored _ stores.2 rfl

theorem formatField_same {Value : Type} {index : Nat} {value : Option Value}
    {described : Value → Nat → Prop} {read : Nat → Option Value} (at_table : table.At buffer.image)
    (stores : table.Stores index value described)
    (reads : ∀ stored position, described stored position →
      stored ∈ value → read position = some stored) :
    formatField buffer table.position (4 + 2 * index) read = value := by
  exact (formatField_eq at_table stores reads).trans Option.map_id'

theorem formatAccessors_lawful : formatAccessors.Lawful where
  root := by
    intro buffer position reference
    change (followed buffer 0).getD 0 = position
    rw [reference.followed]
    rfl
  offset := fun index at_table => formatOffset_eq at_table index
  vector := by
    intro buffer table offset target reference
    change (followed buffer (table + offset)).getD 0 + 4 = target + 4
    rw [reference.followed]
    rfl
  scalar := by
    intro buffer table width bytes index at_table positive sized stores
    change formatField buffer table.position (4 + 2 * index)
      (fun position => readBytes buffer position width) = bytes
    apply formatField_same at_table stores
    intro stored position held member
    have size := sized stored member
    have some_bytes : stored ≠ [] := by
      rintro rfl
      rw [List.length_nil] at size
      omega
    rw [← size]
    exact readBytes_of_holds held (held.end_le some_bytes)
  child := by
    intro buffer table target index at_table stores
    apply formatField_same at_table stores
    intro stored position reference _
    exact reference.followed
  text := by
    intro buffer table text index at_table stores
    apply formatField_eq at_table stores
    rintro stored position ⟨target, reference, at_text⟩ _
    unfold formatText
    rw [reference.followed, Option.bind_eq_bind, Option.bind_some, at_text.readLength,
      Option.bind_some, at_text.readText]
  items := by
    intro buffer table width items index at_table stores
    change formatField buffer table.position (4 + 2 * index)
      (fun position => formatItems buffer position width) = items
    apply formatField_same at_table stores
    rintro stored position ⟨target, reference, at_items⟩ _
    unfold formatItems
    rw [reference.followed, Option.bind_eq_bind, Option.bind_some, at_items.readCount,
      Option.bind_some, at_items.readItems]
  children := by
    intro buffer table targets index at_table stores
    change (formatField buffer table.position (4 + 2 * index) (formatChildren buffer)).getD [] = _
    congr 1
    apply formatField_same at_table stores
    rintro stored position ⟨start, reference, counted, held, references⟩ _
    unfold formatChildren
    rw [reference.followed, Option.bind_eq_bind, Option.bind_some,
      readNat_of_holds (by decide) counted held, Option.bind_some]
    apply option_mapM_range
    intro index target here
    exact (references index target here).followed

end Reader

end UsdConnect
