/-
Purpose: On what the builder stores, following vtables and the generated accessors read the same.
Trusted boundary: none
Main exports: tableFieldOffsets_eq, decodeXformTable_eq, decodeTransaction_eq
-/
import UsdConnect.Codec.TransformDecoding
import UsdConnect.Lib.Rows

namespace UsdConnect

/-! ### Masks -/

theorem bit_and_bit_eq_zero (field other : TrsField) :
    field.bit &&& other.bit = 0 ↔ field ≠ other := by
  cases field <;> cases other <;> decide

theorem foldl_mask_eq_zero (fields : List TrsField) (start : Nat) (field : TrsField) :
    fields.foldl (fun mask field => mask ||| field.bit) start &&& field.bit = 0 ↔
      start &&& field.bit = 0 ∧ field ∉ fields := by
  induction fields generalizing start with
  | nil => simp
  | cons first rest ih =>
      rw [List.foldl_cons, ih, Nat.and_or_distrib_right, Nat.or_eq_zero_iff, bit_and_bit_eq_zero,
        List.mem_cons, not_or, and_assoc, ne_comm]

theorem mask_bit_eq_zero (content : XformTable) (field : TrsField) :
    content.mask &&& field.bit = 0 ↔ field ∉ content.fields := by
  unfold XformTable.mask fieldMask
  rw [foldl_mask_eq_zero, Nat.zero_and]
  exact ⟨And.right, fun absent => ⟨rfl, absent⟩⟩

theorem foldl_mask_lt (fields : List TrsField) {start : Nat} (small : start < 8) :
    fields.foldl (fun mask field => mask ||| field.bit) start < 8 := by
  induction fields generalizing start with
  | nil => exact small
  | cons first rest ih =>
      apply ih
      have bit : first.bit < 2 ^ 3 := by cases first <;> decide
      exact Nat.or_lt_two_pow (n := 3) small bit

theorem mask_lt (content : XformTable) : content.mask < 8 := foldl_mask_lt _ (by decide)

/-- What decoders make of a table. -/
def XformTable.decoded (content : XformTable) : DecodedXform where
  prim := some content.prim
  fields := TrsField.all.filter fun field => field ∈ content.fields
  vector := fun field => (content.vector field).map fun values =>
    values.map fun real => floatOfBytes (floatBytes real)
  time := content.time.map fun real => doubleOfBytes (doubleBytes real)

theorem maskFields_eq (content : XformTable) :
    maskFields content.mask = TrsField.all.filter fun field => field ∈ content.fields := by
  unfold maskFields
  congr 1
  funext field
  rw [Bool.eq_iff_iff, decide_eq_true_iff, decide_eq_true_iff, ne_eq, mask_bit_eq_zero, not_not]

section Reads

variable {buf : Buffer} {table : TableLayout}

/-! ### Numbers, vtables and references -/

theorem requireBufferSpan_ok {position size : Nat} (inside : position + size ≤ buf.length) :
    requireBufferSpan buf position size = .ok () := by
  unfold requireBufferSpan
  rw [if_neg]
  omega

theorem unpackNat_of_holds {position width number : Nat} (positive : 0 < width)
    (small : number < 2 ^ (8 * width)) (holds : buf.image.Holds position (leBytes width number)) :
    unpackNat buf position width = .ok number := by
  unfold unpackNat
  rw [readNat_of_holds positive small holds]
  rfl

theorem TableLayout.At.start_le (at_table : table.At buf.image) :
    table.position + 4 ≤ buf.length := by
  have inside := at_table.linked.end_le (leBytes_ne_nil (by decide) _)
  rwa [length_signedBytes] at inside

theorem fieldOffset_eq (at_table : table.At buf.image) (index : Nat) :
    fieldOffset buf table.vtable (4 + 2 * table.slots.length) table.size (4 + 2 * index) =
      .ok (table.slot index) := by
  have bounded : ¬ (table.size ≤ table.slot index ∧ table.slot index ≠ 0) := by
    rintro ⟨beyond, present⟩
    have below := at_table.slot_lt present
    omega
  have entry : vtableEntry buf table.vtable (4 + 2 * table.slots.length) (4 + 2 * index) =
      .ok (table.slot index) := by
    unfold vtableEntry unpackNat
    by_cases inside : index < table.slots.length
    · rw [if_pos (by omega), at_table.readSlot inside]
      rfl
    · rw [if_neg (by omega), TableLayout.slot_outside (Nat.le_of_not_lt inside)]
  unfold fieldOffset
  rw [except_bind_of_ok entry, if_neg bounded]

theorem tableFieldOffsets_eq (at_table : table.At buf.image) (indices : List Nat) :
    tableFieldOffsets buf table.position (indices.map fun index => 4 + 2 * index) =
      .ok (indices.map table.slot) := by
  have place : (table.position : Int) - table.distance = table.vtable := by
    unfold TableLayout.distance
    omega
  have vtable := at_table.vtable_end
  have distance : unpackInt buf table.position 4 = .ok table.distance := by
    unfold unpackInt
    rw [at_table.readDistance]
    rfl
  have count : unpackNat buf table.vtable 2 = .ok (4 + 2 * table.slots.length) := by
    unfold unpackNat
    rw [at_table.readCount]
    rfl
  have size : unpackNat buf (table.vtable + 2) 2 = .ok table.size := by
    unfold unpackNat
    rw [at_table.readSize]
    rfl
  unfold tableFieldOffsets
  rw [except_bind_of_ok (requireBufferSpan_ok at_table.start_le), except_bind_of_ok distance]
  dsimp only
  rw [place, Int.toNat_natCast, except_bind_of_ok (requireBufferSpan_ok (by omega)),
    except_bind_of_ok count, except_bind_of_ok size,
    except_bind_of_ok (requireBufferSpan_ok vtable), mapM_eq_ok_iff, List.forall₂_map_left_iff,
    List.forall₂_map_right_iff, List.forall₂_same]
  intro index _
  exact fieldOffset_eq at_table index

theorem indirectPosition_eq {field target : Nat} (reference : RefAt buf.image field target)
    (room : target + 4 ≤ buf.length) : indirectPosition buf field = .ok target := by
  have inside := reference.held.end_le (leBytes_ne_nil (by decide) _)
  rw [length_leBytes] at inside
  have distance : unpackNat buf field 4 = .ok (target - field) :=
    unpackNat_of_holds (by decide) reference.near reference.held
  unfold indirectPosition
  rw [except_bind_of_ok (requireBufferSpan_ok inside), except_bind_of_ok distance,
    Nat.add_sub_cancel' reference.forward, except_bind_of_ok (requireBufferSpan_ok room)]
  rfl

/-! ### Strings and vectors -/

theorem decodeUtf8_textBytes (text : String) : decodeUtf8 (textBytes text) = .ok text := by
  unfold decodeUtf8
  rw [textOf_textBytes]
  rfl

theorem decodeFbString_eq {field target : Nat} {text : String}
    (reference : RefAt buf.image field target) (at_text : TextAt buf.image target text) :
    decodeFbString buf field = .ok text := by
  have inside := at_text.end_le
  have bytes := at_text.readText
  unfold readBytes at bytes
  rw [if_pos inside, Option.some_inj] at bytes
  have length : unpackNat buf target 4 = .ok (textBytes text).length :=
    unpackNat_of_holds (by decide) at_text.counted (Image.holds_append.1 at_text.held).1
  unfold decodeFbString
  rw [except_bind_of_ok (indirectPosition_eq reference (by omega)), except_bind_of_ok length,
    except_bind_of_ok (requireBufferSpan_ok inside), bytes]
  exact decodeUtf8_textBytes text

theorem decodeOptionalFbString_eq {index : Nat} {text : Option String}
    (stores : table.StoresText buf.image index text) :
    decodeOptionalFbString buf table.position (table.slot index) = .ok (nonEmpty text) := by
  unfold decodeOptionalFbString fieldOr
  cases text with
  | none =>
      have absent : table.slot index = 0 := stores
      rw [if_pos absent]
      rfl
  | some text =>
      obtain ⟨present, target, reference, at_text⟩ := stores
      have string := decodeFbString_eq reference at_text
      unfold TableLayout.field at string
      rw [if_neg present, string]
      rfl

theorem decodeStr_textBytes (text : Option String) :
    decodeStr (text.map textBytes) = .ok text := by
  cases text with
  | none => rfl
  | some text =>
      rw [Option.map_some, decodeStr, decodeUtf8_textBytes]
      rfl

/-- The bytes of the components of a vector. -/
theorem itemsAt_of_numbers {target : Nat} {values : List FloatValue}
    (counted : values.length < 2 ^ 32) (count : buf.image.Holds target (leBytes 4 values.length))
    (held : buf.image.Holds (target + 4) (values.flatMap floatBytes)) :
    ItemsAt buf.image target 4 (values.map floatBytes) where
  counted := by rwa [List.length_map]
  sized := by
    intro item member
    obtain ⟨real, _, rfl⟩ := List.mem_map.1 member
    exact length_leBytes 4 _
  count := by rwa [List.length_map]
  held := held

theorem decodeFloatVector_eq {field target : Nat} {items : List (List UInt8)}
    (reference : RefAt buf.image field target) (at_items : ItemsAt buf.image target 4 items) :
    decodeFloatVector buf field = .ok (items.map floatOfBytes) := by
  have inside := at_items.end_le
  rw [Nat.mul_comm] at inside
  have length : unpackNat buf target 4 = .ok items.length :=
    unpackNat_of_holds (by decide) at_items.counted at_items.count
  unfold decodeFloatVector
  rw [except_bind_of_ok (indirectPosition_eq reference (by omega)), except_bind_of_ok length,
    except_bind_of_ok (requireBufferSpan_ok inside), at_items.readItems]
  rfl

/-! ### Transform tables -/

/-- A vector of a stored table. -/
theorem XformFrame.items {start : TrsField → Nat} {content : XformTable}
    (framed : XformFrame buf.image table start content)
    (numbers : buf.image.HoldsAll (content.numbers table start)) (field : TrsField) :
    table.StoresItems buf.image field.index 4
      ((content.vector field).map fun values => values.map floatBytes) := by
  have stores := framed.vectors field
  cases vector : content.vector field with
  | none =>
      rw [vector] at stores
      exact stores
  | some values =>
      rw [vector] at stores
      obtain ⟨present, target, reference, counted, count, place⟩ := stores
      refine ⟨present, target, reference, itemsAt_of_numbers counted count ?_⟩
      rw [← place]
      apply numbers ⟨start field, values.flatMap floatBytes⟩
      apply List.mem_append_left
      rw [List.mem_filterMap]
      refine ⟨field, by cases field <;> decide, ?_⟩
      rw [vector]
      rfl

theorem XformFrame.timeBytes {start : TrsField → Nat} {content : XformTable}
    (framed : XformFrame buf.image table start content)
    (numbers : buf.image.HoldsAll (content.numbers table start)) :
    table.StoresBytes buf.image 5 (content.time.map doubleBytes) := by
  have stores := framed.time
  cases time : content.time with
  | none =>
      rw [time] at stores
      exact stores
  | some real =>
      rw [time] at stores
      refine ⟨stores.1, ?_⟩
      apply numbers ⟨table.field 5, doubleBytes real⟩
      apply List.mem_append_right
      rw [time]
      exact List.mem_singleton_self _

theorem decodeTrsVector_eq {start : TrsField → Nat} {content : XformTable}
    (framed : XformFrame buf.image table start content)
    (numbers : buf.image.HoldsAll (content.numbers table start)) (field : TrsField) :
    decodeTrsVector buf table.position content.mask (table.slot field.index) field =
      .ok (content.decoded.vector field) := by
  have items := framed.items numbers field
  unfold decodeTrsVector XformTable.decoded
  dsimp only
  by_cases member : field ∈ content.fields
  · have vector : content.vector field = some (content.values field) := if_pos member
    rw [vector] at items ⊢
    obtain ⟨present, target, reference, at_items⟩ := items
    have values := decodeFloatVector_eq reference at_items
    unfold TableLayout.field at values
    rw [if_neg (fun zero => (mask_bit_eq_zero content field).1 zero member), if_neg present,
      values, List.map_map]
    rfl
  · have vector : content.vector field = none := if_neg member
    rw [if_pos ((mask_bit_eq_zero content field).2 member), vector]
    rfl

theorem dictTrsVector_eq {accessors : Accessors} (lawful : accessors.Lawful)
    {start : TrsField → Nat} {content : XformTable}
    (framed : XformFrame buf.image table start content)
    (numbers : buf.image.HoldsAll (content.numbers table start)) (field : TrsField) :
    dictTrsVector accessors buf table.position content.mask field =
      .ok (content.decoded.vector field) := by
  have items := lawful.items field.index framed.held (framed.items numbers field)
  unfold dictTrsVector XformTable.decoded
  dsimp only
  rw [items]
  by_cases member : field ∈ content.fields
  · have vector : content.vector field = some (content.values field) := if_pos member
    rw [if_neg (fun zero => (mask_bit_eq_zero content field).1 zero member), vector]
    change Except.ok (some (((content.values field).map floatBytes).map floatOfBytes)) = _
    rw [List.map_map]
    rfl
  · have vector : content.vector field = none := if_neg member
    rw [if_pos ((mask_bit_eq_zero content field).2 member), vector]
    rfl

/-! ### Inline numbers -/

theorem seqBytes_length {seq : Int} {bytes : List UInt8} (stored : bytes ∈ seqBytes seq) :
    bytes.length = 4 := by
  unfold seqBytes at stored
  split at stored
  · cases stored
  · cases stored
    exact length_signedBytes 4 seq

theorem slotBytes_length {width number : Nat} {bytes : List UInt8}
    (stored : bytes ∈ slotBytes width number) : bytes.length = width := by
  unfold slotBytes at stored
  split at stored
  · cases stored
  · cases stored
    exact length_leBytes width number

theorem slotBytes_value {width number : Nat} (small : number < 2 ^ (8 * width)) :
    (slotBytes width number).elim 0 leNat = number := by
  unfold slotBytes
  split
  · next zero => exact zero.symm
  · exact leNat_leBytes_of_lt small

/-- An unsigned number by its vtable entry. -/
theorem readNat_slot {index width number : Nat} (positive : 0 < width)
    (small : number < 2 ^ (8 * width))
    (stores : table.StoresBytes buf.image index (slotBytes width number)) :
    table.slot index = 0 ∧ number = 0 ∨ table.slot index ≠ 0 ∧
      readNat buf (table.position + table.slot index) width = some number := by
  unfold slotBytes at stores
  split at stores
  · next zero => exact Or.inl ⟨stores, zero⟩
  · exact Or.inr ⟨stores.1, readNat_of_holds positive small stores.2⟩

theorem byteAt_slot {index number : Nat} (small : number < 256)
    (stores : table.StoresBytes buf.image index (slotBytes 1 number)) :
    fieldOr (table.slot index) 0 (byteAt buf (table.position + table.slot index)) =
      .ok number := by
  unfold fieldOr
  rcases readNat_slot (by decide) small stores with ⟨absent, zero⟩ | ⟨present, read⟩
  · rw [if_pos absent, zero]
  · unfold byteAt
    rw [if_neg present, read]
    rfl

theorem unpackNat_slot {index width number : Nat} (positive : 0 < width)
    (small : number < 2 ^ (8 * width))
    (stores : table.StoresBytes buf.image index (slotBytes width number)) :
    fieldOr (table.slot index) 0 (unpackNat buf (table.position + table.slot index) width) =
      .ok number := by
  unfold fieldOr
  rcases readNat_slot positive small stores with ⟨absent, zero⟩ | ⟨present, read⟩
  · rw [if_pos absent, zero]
  · unfold unpackNat
    rw [if_neg present, read]
    rfl

theorem unpackInt_slot {index : Nat} {stored : Option (List UInt8)}
    (sized : ∀ bytes ∈ stored, bytes.length = 4)
    (stores : table.StoresBytes buf.image index stored) :
    fieldOr (table.slot index) 0 (unpackInt buf (table.position + table.slot index) 4) =
      .ok (stored.elim 0 leInt) := by
  unfold fieldOr
  cases stored with
  | none =>
      have absent : table.slot index = 0 := stores
      rw [if_pos absent]
      rfl
  | some bytes =>
      have size := sized bytes rfl
      have held : buf.image.Holds (table.position + table.slot index) bytes := stores.2
      have inside := held.end_le (by
        rintro rfl
        cases size)
      have read := readBytes_of_holds held inside
      rw [size] at read
      unfold unpackInt readInt
      rw [if_neg stores.1, read]
      rfl

theorem decodeTime_eq {time : Option FloatValue}
    (stores : table.StoresBytes buf.image 5 (time.map doubleBytes)) :
    decodeTime buf table.position (table.slot 5) =
      .ok (time.map fun real => doubleOfBytes (doubleBytes real)) := by
  unfold decodeTime fieldOr
  cases time with
  | none =>
      have absent : table.slot 5 = 0 := stores
      rw [if_pos absent]
      rfl
  | some real =>
      obtain ⟨present, held⟩ := stores
      have size : (doubleBytes real).length = 8 := length_leBytes 8 _
      have inside := held.end_le (by
        intro empty
        rw [empty] at size
        cases size)
      have read := readBytes_of_holds held inside
      rw [size] at read inside
      unfold TableLayout.field at read inside
      rw [if_neg present, except_bind_of_ok (requireBufferSpan_ok inside), read]
      rfl

/-! ### Both readings of a transform -/

theorem decodeXformTable_eq {start : TrsField → Nat} {content : XformTable}
    (framed : XformFrame buf.image table start content)
    (numbers : buf.image.HoldsAll (content.numbers table start)) :
    decodeXformTable buf table.position = .ok content.decoded := by
  have offsets : tableFieldOffsets buf table.position [4, 6, 8, 10, 12, 14] =
      .ok [table.slot 0, table.slot 1, table.slot 2, table.slot 3, table.slot 4, table.slot 5] :=
    tableFieldOffsets_eq framed.held [0, 1, 2, 3, 4, 5]
  have prim : fieldOr (table.slot 0) none
      (some <$> decodeFbString buf (table.position + table.slot 0)) =
        .ok (some content.prim) := by
    obtain ⟨present, target, reference, at_text⟩ := framed.prim
    have string := decodeFbString_eq reference at_text
    unfold TableLayout.field at string
    unfold fieldOr
    rw [if_neg present, string]
    rfl
  have mask := byteAt_slot ((mask_lt content).trans (by decide)) framed.mask
  have t : decodeTrsVector buf table.position content.mask (table.slot 2) .t =
      .ok (content.decoded.vector .t) := decodeTrsVector_eq framed numbers .t
  have r : decodeTrsVector buf table.position content.mask (table.slot 3) .r =
      .ok (content.decoded.vector .r) := decodeTrsVector_eq framed numbers .r
  have s : decodeTrsVector buf table.position content.mask (table.slot 4) .s =
      .ok (content.decoded.vector .s) := decodeTrsVector_eq framed numbers .s
  unfold decodeXformTable
  rw [except_bind_of_ok offsets]
  simp only [List.getD_cons_zero, List.getD_cons_succ]
  rw [except_bind_of_ok prim, except_bind_of_ok mask, except_bind_of_ok t, except_bind_of_ok r,
    except_bind_of_ok s, except_bind_of_ok (decodeTime_eq (framed.timeBytes numbers)),
    maskFields_eq, byField_self]
  rfl

theorem dictSetXformTrs_eq {accessors : Accessors} (lawful : accessors.Lawful)
    {start : TrsField → Nat} {content : XformTable}
    (framed : XformFrame buf.image table start content)
    (numbers : buf.image.HoldsAll (content.numbers table start)) :
    dictSetXformTrs accessors buf table.position = .ok content.decoded := by
  have scalar : accessors.scalar buf table.position 6 1 = slotBytes 1 content.mask :=
    lawful.scalar 1 framed.held (by decide) (fun _ => slotBytes_length) framed.mask
  have prim : accessors.text buf table.position 4 = (some content.prim).map textBytes :=
    lawful.text 0 framed.held framed.prim
  have time : accessors.scalar buf table.position 14 8 = content.time.map doubleBytes := by
    apply lawful.scalar 5 framed.held (by decide) _ (framed.timeBytes numbers)
    intro stored member
    obtain ⟨real, _, rfl⟩ := Option.map_eq_some_iff.1 member
    exact length_leBytes 8 _
  have mask : (slotBytes 1 content.mask).elim 0 leNat = content.mask :=
    slotBytes_value ((mask_lt content).trans (by decide))
  unfold dictSetXformTrs
  dsimp only
  rw [scalar, mask, prim, except_bind_of_ok (decodeStr_textBytes _),
    except_bind_of_ok (dictTrsVector_eq lawful framed numbers .t),
    except_bind_of_ok (dictTrsVector_eq lawful framed numbers .r),
    except_bind_of_ok (dictTrsVector_eq lawful framed numbers .s), maskFields_eq, time,
    Option.map_map, byField_self, Function.comp_def]
  rfl

/-! ### Wrappers -/

variable {Other Value Rest : Type} {accessors : Accessors} {others : OtherDecoders Value Rest}

theorem WrapperAt.offsets {wrapper : TableLayout} {tag event : Nat}
    (at_wrapper : WrapperAt buf.image wrapper tag event) :
    tableFieldOffsets buf wrapper.position [4, 6] = .ok [wrapper.slot 0, wrapper.slot 1] :=
  tableFieldOffsets_eq at_wrapper.held [0, 1]

theorem WrapperAt.scalar (lawful : accessors.Lawful) {wrapper : TableLayout} {tag event : Nat}
    (at_wrapper : WrapperAt buf.image wrapper tag event) (small : tag < 256) :
    (accessors.scalar buf wrapper.position 4 1).elim 0 leNat = tag := by
  have bytes : accessors.scalar buf wrapper.position 4 1 = slotBytes 1 tag :=
    lawful.scalar 0 at_wrapper.held (by decide) (fun _ => slotBytes_length)
      at_wrapper.type
  rw [bytes]
  exact slotBytes_value small

theorem eventToDict_xform (lawful : accessors.Lawful) {content : XformTable} {position : Nat}
    (at_event : EventAt buf.image position (.xform content : EventTable Other)) :
    eventToDict accessors others buf position = .ok (.xform content.decoded) := by
  obtain ⟨wrapper, table, start, rfl, at_wrapper, framed, numbers⟩ := at_event
  have child : accessors.child buf wrapper.position 6 = some table.position :=
    lawful.child 1 at_wrapper.held at_wrapper.event
  unfold eventToDict
  rw [if_pos (at_wrapper.scalar lawful (by decide)), child]
  dsimp only
  rw [dictSetXformTrs_eq lawful framed numbers]
  rfl

/-- An event is read alike on both paths. -/
theorem decodeEventWrapper_eq (lawful : accessors.Lawful) {event : EventTable Other}
    {position : Nat} (at_event : EventAt buf.image position event) :
    decodeEventWrapper accessors others buf position =
      eventToDict accessors others buf position := by
  cases event with
  | xform content =>
      rw [eventToDict_xform lawful at_event]
      obtain ⟨wrapper, table, start, rfl, at_wrapper, framed, numbers⟩ := at_event
      have tag := byteAt_slot (by decide) at_wrapper.type
      have indirect : indirectPosition buf (wrapper.position + wrapper.slot 1) =
          .ok table.position := indirectPosition_eq at_wrapper.event.2 framed.held.start_le
      unfold decodeEventWrapper
      rw [except_bind_of_ok at_wrapper.offsets]
      simp only [List.getD_cons_zero, List.getD_cons_succ]
      rw [except_bind_of_ok tag, if_pos rfl, if_neg at_wrapper.event.1,
        except_bind_of_ok indirect, decodeXformTable_eq framed numbers]
      rfl
  | other tag rest =>
      obtain ⟨wrapper, event, rfl, at_wrapper, small, different⟩ := at_event
      have read := byteAt_slot small at_wrapper.type
      unfold decodeEventWrapper
      rw [except_bind_of_ok at_wrapper.offsets]
      simp only [List.getD_cons_zero, List.getD_cons_succ]
      rw [except_bind_of_ok read, if_neg different]

theorem EventAt.start_le {event : EventTable Other} {position : Nat}
    (at_event : EventAt buf.image position event) : position + 4 ≤ buf.length := by
  cases event with
  | xform content =>
      obtain ⟨wrapper, table, start, rfl, at_wrapper, framed, numbers⟩ := at_event
      exact at_wrapper.held.start_le
  | other tag rest =>
      obtain ⟨wrapper, event, rfl, at_wrapper, small, different⟩ := at_event
      exact at_wrapper.held.start_le

/-! ### Transactions -/

theorem RefsAt.end_le {start : Nat} {targets : List Nat}
    (references : RefsAt buf.image start targets) (room : start ≤ buf.length) :
    start + targets.length * 4 ≤ buf.length := by
  rcases Nat.eq_zero_or_pos targets.length with empty | some_targets
  · omega
  · have last : targets.length - 1 < targets.length := by omega
    have reference := references _ _ (List.getElem?_eq_getElem last)
    have inside := reference.held.end_le (leBytes_ne_nil (by decide) _)
    rw [length_leBytes] at inside
    omega

theorem decodeTransaction_eq (lawful : accessors.Lawful) {table : TableLayout}
    {positions : List Nat} {events : List (EventTable Other)} {layerKey : Option String}
    {txnId : Nat} (held : table.At buf.image)
    (tables : table.StoresTables buf.image 0 (some positions))
    (all : List.Forall₂ (EventAt buf.image) positions events)
    (layer : table.StoresText buf.image 1 layerKey)
    (number : table.StoresBytes buf.image 2 (slotBytes 8 txnId)) (small : txnId < 2 ^ 64) :
    decodeTransaction accessors others buf table.position =
      dictTxn accessors others buf table.position := by
  have offsets : tableFieldOffsets buf table.position [4, 6, 8] =
      .ok [table.slot 0, table.slot 1, table.slot 2] := tableFieldOffsets_eq held [0, 1, 2]
  have txn := unpackNat_slot (by decide) small number
  have key : fieldOr (table.slot 1) "" (decodeFbString buf (table.position + table.slot 1)) =
      .ok (layerKey.getD "") := by
    unfold fieldOr
    cases layerKey with
    | none =>
        have absent : table.slot 1 = 0 := layer
        rw [if_pos absent]
        rfl
    | some text =>
        obtain ⟨present, target, reference, at_text⟩ := layer
        rw [if_neg present]
        exact decodeFbString_eq reference at_text
  have children : accessors.children buf table.position 4 = positions :=
    lawful.children 0 held tables
  have text : accessors.text buf table.position 6 = layerKey.map textBytes :=
    lawful.text 1 held layer
  have identity : (accessors.scalar buf table.position 8 8).elim 0 leNat = txnId := by
    have bytes : accessors.scalar buf table.position 8 8 = slotBytes 8 txnId :=
      lawful.scalar 2 held (by decide) (fun _ => slotBytes_length) number
    rw [bytes]
    exact slotBytes_value small
  obtain ⟨present, start, reference, counted, counter, references⟩ := tables
  have counter_end := counter.end_le (leBytes_ne_nil (by decide) _)
  rw [length_leBytes] at counter_end
  have count : unpackNat buf start 4 = .ok positions.length :=
    unpackNat_of_holds (by decide) counted counter
  have indirect : indirectPosition buf (table.position + table.slot 0) = .ok start :=
    indirectPosition_eq reference counter_end
  have read : ((List.range positions.length).mapM fun index => do
      let wrapper ← indirectPosition buf (start + 4 + index * 4)
      decodeEventWrapper accessors others buf wrapper) =
        positions.mapM (eventToDict accessors others buf) := by
    apply mapM_range_eq
    intro index position here
    have inside : index < positions.length := (List.getElem?_eq_some_iff.1 here).1
    have at_event : EventAt buf.image position (events.get ⟨index, all.length_eq ▸ inside⟩) := by
      have found := all.get inside (all.length_eq ▸ inside)
      have item : positions.get ⟨index, inside⟩ = position :=
        (List.getElem?_eq_some_iff.1 here).2
      rwa [item] at found
    have place := references index position here
    rw [Nat.mul_comm] at place
    rw [except_bind_of_ok (indirectPosition_eq place at_event.start_le)]
    exact decodeEventWrapper_eq lawful at_event
  unfold decodeTransaction dictTxn
  rw [except_bind_of_ok offsets]
  simp only [List.getD_cons_zero, List.getD_cons_succ]
  rw [except_bind_of_ok txn, except_bind_of_ok key, if_neg present, except_bind_of_ok indirect,
    except_bind_of_ok count,
    except_bind_of_ok (requireBufferSpan_ok (references.end_le counter_end)), read, children, text,
    identity]
  cases positions.mapM (eventToDict accessors others buf) with
  | error error => rfl
  | ok decoded =>
      rw [except_bind_of_ok rfl, except_bind_of_ok rfl,
        except_bind_of_ok (decodeStr_textBytes layerKey)]

/-! ### Broadcasts -/

theorem nonEmpty_filter (text : Option String) :
    nonEmpty (text.filter (· ≠ "")) = text.filter (· ≠ "") := by
  unfold nonEmpty
  rw [Option.filter_filter]
  congr 1
  funext text
  exact Bool.and_self _

theorem decodeReceivedEvent_xform {table : TableLayout} {seq : Option (List UInt8)}
    {content : XformTable} {position : Nat} {routing : Routing} (lawful : accessors.Lawful)
    (held : table.At buf.image) (sized : ∀ bytes ∈ seq, bytes.length = 4)
    (number : table.StoresBytes buf.image 0 seq)
    (reference : table.StoresTable buf.image 1 (some position))
    (at_event : EventAt buf.image position (.xform content : EventTable Other))
    (routed : RoutingAt buf.image table routing) :
    decodeReceivedEvent accessors others buf table.position =
      .ok ⟨seq.elim 0 leInt, some (.xform content.decoded), routing.written⟩ := by
  have offsets : tableFieldOffsets buf table.position [4, 6, 8, 10, 12, 14] =
      .ok [table.slot 0, table.slot 1, table.slot 2, table.slot 3, table.slot 4, table.slot 5] :=
    tableFieldOffsets_eq held [0, 1, 2, 3, 4, 5]
  have body : decodeBroadcastBody accessors others buf table.position (table.slot 1) =
      .ok (some (.xform content.decoded)) := by
    have indirect : indirectPosition buf (table.position + table.slot 1) = .ok position :=
      indirectPosition_eq reference.2 at_event.start_le
    unfold decodeBroadcastBody fieldOr
    rw [if_neg reference.1, except_bind_of_ok indirect, decodeEventWrapper_eq lawful at_event,
      eventToDict_xform lawful at_event]
    rfl
  unfold decodeReceivedEvent
  rw [except_bind_of_ok offsets]
  simp only [List.getD_cons_zero, List.getD_cons_succ]
  rw [except_bind_of_ok (unpackInt_slot sized number), except_bind_of_ok body,
    except_bind_of_ok (decodeOptionalFbString_eq routed.origin),
    except_bind_of_ok (decodeOptionalFbString_eq routed.clientId),
    except_bind_of_ok (decodeOptionalFbString_eq routed.client),
    except_bind_of_ok (decodeOptionalFbString_eq routed.layerKey), nonEmpty_filter,
    nonEmpty_filter, nonEmpty_filter, nonEmpty_filter]
  rfl

/-- A broadcast is read alike on both paths. -/
theorem decodeReceivedEvent_eq {table : TableLayout} {seq : Option (List UInt8)}
    {event : EventTable Other} {position : Nat} {routing : Routing} (lawful : accessors.Lawful)
    (held : table.At buf.image) (sized : ∀ bytes ∈ seq, bytes.length = 4)
    (number : table.StoresBytes buf.image 0 seq)
    (reference : table.StoresTable buf.image 1 (some position))
    (at_event : EventAt buf.image position event) (routed : RoutingAt buf.image table routing) :
    decodeReceivedEvent accessors others buf table.position =
      dictBroadcastEvent accessors others buf table.position := by
  have offsets : tableFieldOffsets buf table.position [4, 6, 8, 10, 12, 14] =
      .ok [table.slot 0, table.slot 1, table.slot 2, table.slot 3, table.slot 4, table.slot 5] :=
    tableFieldOffsets_eq held [0, 1, 2, 3, 4, 5]
  have body : decodeBroadcastBody accessors others buf table.position (table.slot 1) =
      some <$> eventToDict accessors others buf position := by
    have indirect : indirectPosition buf (table.position + table.slot 1) = .ok position :=
      indirectPosition_eq reference.2 at_event.start_le
    unfold decodeBroadcastBody fieldOr
    rw [if_neg reference.1, except_bind_of_ok indirect, decodeEventWrapper_eq lawful at_event]
  have child : accessors.child buf table.position 6 = some position :=
    lawful.child 1 held reference
  have origin : accessors.text buf table.position 8 =
      (routing.origin.filter (· ≠ "")).map textBytes := lawful.text 2 held routed.origin
  have clientId : accessors.text buf table.position 10 =
      (routing.clientId.filter (· ≠ "")).map textBytes :=
    lawful.text 3 held routed.clientId
  have client : accessors.text buf table.position 12 =
      (routing.client.filter (· ≠ "")).map textBytes := lawful.text 4 held routed.client
  have layerKey : accessors.text buf table.position 14 =
      (routing.layerKey.filter (· ≠ "")).map textBytes :=
    lawful.text 5 held routed.layerKey
  have scalar : accessors.scalar buf table.position 4 4 = seq :=
    lawful.scalar 0 held (by decide) sized number
  unfold decodeReceivedEvent dictBroadcastEvent
  rw [except_bind_of_ok offsets]
  simp only [List.getD_cons_zero, List.getD_cons_succ]
  rw [except_bind_of_ok (unpackInt_slot sized number), body, child, origin, clientId, client, layerKey,
    scalar]
  dsimp only
  cases eventToDict accessors others buf position with
  | error error => rfl
  | ok decoded =>
      have mapped : (some <$> Except.ok decoded : Except WireError (Option (DecodedEvent Value))) =
          .ok (some decoded) := rfl
      rw [mapped, except_bind_of_ok rfl, except_bind_of_ok rfl,
        except_bind_of_ok (decodeOptionalFbString_eq routed.origin),
        except_bind_of_ok (decodeOptionalFbString_eq routed.clientId),
        except_bind_of_ok (decodeOptionalFbString_eq routed.client),
        except_bind_of_ok (decodeOptionalFbString_eq routed.layerKey),
        except_bind_of_ok (decodeStr_textBytes _), except_bind_of_ok (decodeStr_textBytes _),
        except_bind_of_ok (decodeStr_textBytes _), except_bind_of_ok (decodeStr_textBytes _)]

/-! ### Envelopes -/

theorem payloadHeader_eq {envelope : TableLayout} {tag payload : Nat}
    (at_envelope : EnvelopeAt buf.image envelope tag payload) (known : KnownPayload tag)
    (room : payload + 4 ≤ buf.length) : payloadHeader buf = .ok (tag, some payload) := by
  have offsets : tableFieldOffsets buf envelope.position [4, 6, 8] =
      .ok [envelope.slot 0, envelope.slot 1, envelope.slot 2] :=
    tableFieldOffsets_eq at_envelope.held [0, 1, 2]
  have root : unpackNat buf 0 4 = .ok envelope.position :=
    unpackNat_of_holds (by decide) at_envelope.root.near at_envelope.root.held
  have version := unpackNat_slot (by decide) (by decide) at_envelope.version
  have type := byteAt_slot (by unfold KnownPayload at known; omega) at_envelope.type
  have reference : fieldOr (envelope.slot 1) none
      (some <$> indirectPosition buf (envelope.position + envelope.slot 1)) =
        .ok (some payload) := by
    have indirect : indirectPosition buf (envelope.position + envelope.slot 1) = .ok payload :=
      indirectPosition_eq at_envelope.payload.2 room
    unfold fieldOr
    rw [if_neg at_envelope.payload.1, indirect]
    rfl
  have start := at_envelope.root.held.end_le (leBytes_ne_nil (by decide) _)
  rw [length_leBytes] at start
  have span : requireBufferSpan buf 0 4 = .ok () := requireBufferSpan_ok start
  unfold payloadHeader
  rw [except_bind_of_ok span, except_bind_of_ok root,
    except_bind_of_ok offsets]
  simp only [List.getD_cons_zero, List.getD_cons_succ]
  rw [except_bind_of_ok version, if_neg (not_not.2 rfl), except_bind_of_ok type, if_pos known,
    except_bind_of_ok reference]
  rfl

theorem resolvePayload_eq (lawful : accessors.Lawful) {envelope : TableLayout} {tag payload : Nat}
    (at_envelope : EnvelopeAt buf.image envelope tag payload) (known : KnownPayload tag) :
    resolvePayload accessors buf = .ok (tag, payload) := by
  have small : tag < 2 ^ (8 * 1) := by
    unfold KnownPayload at known
    omega
  have root := lawful.root at_envelope.root
  have type : accessors.scalar buf envelope.position 4 1 = slotBytes 1 tag :=
    lawful.scalar 0 at_envelope.held (by decide) (fun _ => slotBytes_length)
      at_envelope.type
  have version : accessors.scalar buf envelope.position 8 2 = slotBytes 2 schemaVersion :=
    lawful.scalar 2 at_envelope.held (by decide) (fun _ => slotBytes_length)
      at_envelope.version
  have child : accessors.child buf envelope.position 6 = some payload :=
    lawful.child 1 at_envelope.held at_envelope.payload
  unfold resolvePayload
  dsimp only
  rw [root, type, version, child, slotBytes_value small, slotBytes_value (by decide),
    if_neg (not_not.2 rfl), if_pos known]

end Reads

end UsdConnect
