/-
Purpose: Which geometry attribute values survive the wire: a value does exactly when its elements
  fit the slot chosen for it and its rows are of one width.
Trusted boundary: none
Main exports: Survives, encodeAttrValue_same_iff, gprimAttrs_survive_iff
-/
import UsdConnect.Codec.GprimAttrs
import UsdConnect.Proofs.PythonValue

namespace UsdConnect

/-! ### What survives -/

/-- A row of the given width whose elements keep their numbers. -/
def RowSurvives (width : Nat) : PyValue → Prop
  | .list items => items.length = width ∧ ∀ item ∈ items, RowElement item
  | .array view => view.shape = [width] ∧ ∀ item ∈ view.data.elements, RowElement item
  | _ => False

/-- A list survives by its first element: floats, integers, rows of numbers, or anything else. -/
def ListSurvives : List PyValue → Prop
  | [] => True
  | first :: rest =>
      if first.isFloat then ∀ item ∈ first :: rest, FloatElement item
      else if first.isInt then ∀ item ∈ first :: rest, IntElement item
      else match first.numberRow? with
        | some row => 2 ≤ row.length ∧ ∀ sub ∈ first :: rest, RowSurvives row.length sub
        | none => True

/-- One dimension, or two with more than one column. -/
def NdArray.KeepsShape (view : NdArray) : Prop :=
  view.shape.length = 1 ∨ view.shape.length = 2 ∧ view.shape.getLast view.dims ≠ 1

/-- An empty array survives when it has no rows. -/
def ArraySurvives (view : NdArray) : Prop :=
  if view.size = 0 then view.shape.head view.dims = 0
  else match view.data with
    | .floats _ => view.KeepsShape
    | .ints flat => view.KeepsShape ∧ ∀ number ∈ flat, FitsSigned 32 number
    | _ => True

def Survives : PyValue → Prop
  | .list items => ListSurvives items
  | .array view => ArraySurvives view
  | _ => True

/-- Both decodings return the value, with the same nested values. -/
def DecodesSame (py : Runtime) (value : PyValue) (av : AttrValue) : Prop :=
  ∃ plain view, attrValueToPython py av false = .ok (some plain) ∧
    attrValueToPython py av true = .ok (some view) ∧ SameValue value plain ∧ view.nested = plain

/-! ### Rows -/

theorem nest_row {width : Nat} {items : List PyValue} (whole : items.length = width) :
    nest [width] items = .list items := by
  subst whole
  unfold nest
  congr 1
  apply List.ext_getElem
  · simp
  · intro index _ bound
    simp [nest, List.headD_eq_head?_getD, List.head?_take, List.head?_drop, bound]

theorem nest_rows {width : Nat} {items : List PyValue} :
    nest [items.length / width, width] items = .list ((rowsOf width items).map .list) := by
  unfold nest rowsOf
  rw [List.map_map]
  congr 1
  apply List.map_congr_left
  intro row bound
  rw [List.prod_cons, List.prod_nil, Nat.mul_one, Function.comp_apply]
  apply nest_row
  apply length_of_mem_rowsOf items
  exact List.mem_map_of_mem bound

theorem vectorRows_flat {Item : Type} {beyond : Nat → Except PyError Item} {item : Item → PyValue}
    {vector : List Item} {stride : Nat} (flat : stride ≤ 1) :
    vectorRows beyond item vector stride = .ok (.list (vector.map item)) := by
  unfold vectorRows
  rw [if_pos flat]
  have read : (List.range vector.length).mapM (vectorGet beyond vector) = .ok vector := by
    rw [mapM_eq_ok_iff, List.forall₂_iff_get]
    refine ⟨List.length_range, ?_⟩
    intro index _ bound
    simp [vectorGet, bound]
  rw [read]
  rfl

theorem vectorRows_rows {Item : Type} {beyond : Nat → Except PyError Item} {item : Item → PyValue}
    {vector : List Item} {stride : Nat} (wide : 2 ≤ stride)
    (even : vector.length % stride = 0) :
    vectorRows beyond item vector stride =
      .ok (.list ((rowsOf stride (vector.map item)).map .list)) := by
  unfold vectorRows
  rw [if_neg (by omega)]
  have count : (vector.length + stride - 1) / stride = vector.length / stride := by
    obtain ⟨rows, total⟩ := Nat.dvd_of_mod_eq_zero even
    rw [total, Nat.mul_div_cancel_left _ (by omega), Nat.add_sub_assoc (by omega),
      Nat.mul_add_div (by omega), Nat.div_eq_of_lt (by omega), Nat.add_zero]
  have read : ((List.range ((vector.length + stride - 1) / stride)).mapM fun row =>
      (List.range stride).mapM fun column => vectorGet beyond vector (row * stride + column)) =
        .ok (rowsOf stride vector) := by
    rw [count, mapM_eq_ok_iff]
    unfold rowsOf
    rw [List.forall₂_map_right_iff, List.forall₂_same]
    intro row bound
    rw [mapM_eq_ok_iff, List.forall₂_iff_get]
    have whole : ((vector.drop (row * stride)).take stride).length = stride :=
      length_of_mem_rowsOf vector (List.mem_map_of_mem bound)
    refine ⟨by rw [List.length_range, whole], ?_⟩
    intro column inRange inRow
    rw [List.length_take, List.length_drop] at inRow
    have inside : row * stride + column < vector.length := by omega
    simp [vectorGet, inside]
  rw [read, map_rowsOf, List.map_map]
  rfl

theorem ArrayData.length_items (data : ArrayData) : data.items.length = data.length := by
  cases data with
  | bools items => exact List.length_map _
  | ints items => exact List.length_map _
  | floats items => exact List.length_map _
  | texts items => exact List.length_map _
  | bytes items => exact List.length_map _

theorem vectorArray_flat (data : ArrayData) {stride : Nat} (flat : stride ≤ 1) :
    ∃ view, vectorArray data stride = .ok view ∧ view.nested = .list data.items := by
  unfold vectorArray
  rw [if_neg (by omega)]
  exact ⟨_, rfl, nest_row data.length_items⟩

theorem vectorArray_rows {data : ArrayData} {stride : Nat} (wide : 2 ≤ stride)
    (even : data.length % stride = 0) :
    ∃ view, vectorArray data stride = .ok view ∧
      view.nested = .list ((rowsOf stride data.items).map .list) := by
  unfold vectorArray
  rw [if_pos (by omega), dif_pos even]
  refine ⟨_, rfl, ?_⟩
  change nest [data.length / stride, stride] data.items = _
  rw [← data.length_items, nest_rows]

theorem vectorArray_ragged {data : ArrayData} {stride : Nat} (wide : 2 ≤ stride)
    (ragged : data.length % stride ≠ 0) : vectorArray data stride = .error .valueError := by
  unfold vectorArray
  rw [if_pos (by omega), dif_neg ragged]

/-- What the decoders make of a vector: a flat list, full rows, or nothing. -/
theorem decodes_vector {Item : Type} {beyond : Nat → Except PyError Item} {item : Item → PyValue}
    {vector : List Item} {data : ArrayData} {stride : Nat} {value : PyValue}
    (items : data.items = vector.map item) :
    (∃ plain view, some <$> vectorRows beyond item vector stride = .ok (some plain) ∧
      some <$> vectorArray data stride = .ok (some view) ∧ SameValue value plain ∧
        view.nested = plain) ↔
      if stride ≤ 1 then SameValue value (.list (vector.map item))
      else vector.length % stride = 0 ∧
        SameValue value (.list ((rowsOf stride (vector.map item)).map .list)) := by
  have length : data.length = vector.length := by
    rw [← data.length_items, items, List.length_map]
  split
  · next flat =>
      obtain ⟨view, read, nested⟩ := vectorArray_flat data flat
      rw [vectorRows_flat flat, read]
      constructor
      · rintro ⟨plain, _, known, _, same, _⟩
        cases known
        exact same
      · intro same
        exact ⟨_, view, rfl, rfl, same, by rw [nested, items]⟩
  · next rows =>
      have wide : 2 ≤ stride := by omega
      by_cases even : vector.length % stride = 0
      · have whole : data.length % stride = 0 := by
          rw [length]
          exact even
        obtain ⟨view, read, nested⟩ := vectorArray_rows wide whole
        rw [vectorRows_rows wide even, read]
        constructor
        · rintro ⟨plain, _, known, _, same, _⟩
          cases known
          exact ⟨even, same⟩
        · rintro ⟨_, same⟩
          exact ⟨_, view, rfl, rfl, same, by rw [nested, items]⟩
      · have ragged : data.length % stride ≠ 0 := by
          rw [length]
          exact even
        rw [vectorArray_ragged wide ragged]
        constructor
        · rintro ⟨_, _, _, known, _⟩
          cases known
        · rintro ⟨whole, _⟩
          exact absurd whole even

theorem decodes_floats {py : Runtime} {value : PyValue} {vector : List FloatValue} {stride : Nat} :
    DecodesSame py value
        { valueType := .floatArray, floatArray := vector, stride := stride } ↔
      if stride ≤ 1 then SameValue value (.list (vector.map .float))
      else vector.length % stride = 0 ∧
        SameValue value (.list ((rowsOf stride (vector.map .float)).map .list)) :=
  decodes_vector rfl

theorem decodes_ints {py : Runtime} {value : PyValue} {vector : List Int} {stride : Nat} :
    DecodesSame py value { valueType := .intArray, intArray := vector, stride := stride } ↔
      if stride ≤ 1 then SameValue value (.list (vector.map .int))
      else vector.length % stride = 0 ∧
        SameValue value (.list ((rowsOf stride (vector.map .int)).map .list)) :=
  decodes_vector rfl

theorem Json.nested_loads (text : Json) : text.loads.nested = text.loads := by
  cases text <;> rfl

theorem decodes_json {py : Runtime} {value : PyValue} {text : Json} :
    DecodesSame py value (encodeJsonAttrValue text) ↔ SameValue value text.loads := by
  constructor
  · rintro ⟨plain, _, known, _, same, _⟩
    cases known
    exact same
  · intro same
    exact ⟨text.loads, text.loads, rfl, rfl, same, text.nested_loads⟩

/-! ### Lists -/

theorem floatList_same_iff {py : Runtime} {values : List PyValue} {vector : List FloatValue}
    (created : createFloatVector py values = .ok vector) :
    SameValue (.list values) (.list (vector.map .float)) ↔
      ∀ item ∈ values, FloatElement item := by
  rw [same_list_iff]
  exact forall₂_map_iff (mapM_eq_ok_iff.1 created) fun _ _ stored =>
    PyValue.same_asFloat32 stored

theorem intList_same_iff {py : Runtime} {values : List PyValue} {vector : List Int}
    (created : createIntVector py values = .ok vector) :
    SameValue (.list values) (.list (vector.map .int)) ↔ ∀ item ∈ values, IntElement item := by
  rw [same_list_iff]
  exact forall₂_map_iff (mapM_eq_ok_iff.1 created) fun _ _ stored =>
    PyValue.same_asInt32 stored

theorem ArrayData.length_elements (data : ArrayData) : data.elements.length = data.length := by
  cases data with
  | bools items => exact List.length_map _
  | ints items => exact List.length_map _
  | floats items => exact List.length_map _
  | texts items => exact List.length_map _
  | bytes items => exact List.length_map _

theorem ArrayData.same_elements (data : ArrayData) {stored : List FloatValue} :
    List.Forall₂ SameValue data.items (stored.map .float) ↔
      List.Forall₂ SameValue data.elements (stored.map .float) := by
  have swap : ∀ {Item : Type} {item element : Item → PyValue} {items : List Item},
      (∀ value real, SameValue (item value) (.float real) ↔
        SameValue (element value) (.float real)) →
      (List.Forall₂ SameValue (items.map item) (stored.map .float) ↔
        List.Forall₂ SameValue (items.map element) (stored.map .float)) := by
    intro Item item element items each
    simp only [List.forall₂_map_left_iff, List.forall₂_map_right_iff, each]
  cases data with
  | bools items => exact Iff.rfl
  | ints items =>
      apply swap
      intro value real
      exact (same_number_iff rfl rfl rfl).trans (same_number_iff rfl rfl rfl).symm
  | floats items =>
      apply swap
      intro value real
      exact (same_real_iff rfl rfl).trans (same_real_iff rfl rfl).symm
  | texts items => exact Iff.rfl
  | bytes items => exact Iff.rfl

theorem NdArray.toList_row {view : NdArray} {width : Nat} (row : view.shape = [width]) :
    view.toList = .list view.data.items ∧ view.data.length = width := by
  have count := view.sized
  rw [row, List.prod_cons, List.prod_nil, Nat.mul_one] at count
  unfold NdArray.toList
  rw [row]
  refine ⟨nest_row ?_, count⟩
  rw [ArrayData.length_items, count]

/-- What rows of a row list are: lists, texts, or arrays that have no rows of their own. -/
theorem rowFloats_cases {py : Runtime} {sub : PyValue} {floats : List FloatValue}
    (read : sub.rowFloats py = .ok floats) :
    (∃ items, sub = .list items ∧
      List.Forall₂ (fun item real => item.toFloat py = .ok real) items floats) ∨
    (∃ text, sub = .text text ∨ sub = .bytes text) ∨
    (∃ view width, sub = .array view ∧ view.shape = [width] ∧
      List.Forall₂ (fun item real => item.toFloat py = .ok real) view.data.elements floats) ∨
    (∃ view inner, sub = .array view ∧ view.shape = 0 :: inner ∧ floats = []) := by
  cases sub with
  | list items => exact Or.inl ⟨items, rfl, mapM_eq_ok_iff.1 read⟩
  | text text => exact Or.inr (Or.inl ⟨text, Or.inl rfl⟩)
  | bytes bytes => exact Or.inr (Or.inl ⟨bytes, Or.inr rfl⟩)
  | array view =>
      right
      right
      unfold PyValue.rowFloats at read
      dsimp only at read
      split at read
      · next width shape => exact Or.inl ⟨view, width, rfl, shape, mapM_eq_ok_iff.1 read⟩
      · next inner _ shape =>
          cases read
          exact Or.inr ⟨view, inner, rfl, shape, rfl⟩
      · cases read
  | bool _ => cases read
  | int _ => cases read
  | float _ => cases read
  | numpyDouble _ => cases read
  | numpyInt _ => cases read
  | numpyFloat _ => cases read

/-- A row that equals a decoded row yields as many floats. -/
theorem length_row_of_same {py : Runtime} {sub : PyValue} {floats stored : List FloatValue}
    (read : sub.rowFloats py = .ok floats) (same : SameValue sub (.list (stored.map .float))) :
    floats.length = stored.length := by
  rcases rowFloats_cases read with
    ⟨items, rfl, all⟩ | ⟨text, rfl | rfl⟩ | ⟨view, width, rfl, shape, all⟩ |
    ⟨view, inner, rfl, shape, rfl⟩
  · have counted := (same_list_iff.1 same).length_eq
    rw [List.length_map] at counted
    rw [← all.length_eq, counted]
  · exact absurd same not_same_text_list
  · exact absurd same not_same_bytes
  · obtain ⟨list, _⟩ := NdArray.toList_row shape
    rw [same_array_iff, list, same_list_iff] at same
    have counted := same.length_eq
    rw [List.length_map, ArrayData.length_items] at counted
    rw [← all.length_eq, ArrayData.length_elements, counted]
  · have list : view.toList = .list [] := by
      unfold NdArray.toList
      rw [shape]
      rfl
    rw [same_array_iff, list, same_list_iff] at same
    have counted := same.length_eq
    rw [List.length_map] at counted
    exact counted

/-- A row of the right width is the same exactly when its elements are. -/
theorem row_same_iff {py : Runtime} {sub : PyValue} {floats : List FloatValue}
    (nonempty : floats ≠ []) (read : sub.rowFloats py = .ok floats) :
    SameValue sub (.list ((floats.map binary32.convert).map .float)) ↔
      RowSurvives floats.length sub := by
  have each : ∀ (value : PyValue) (real : FloatValue), value.toFloat py = .ok real →
      (SameValue value ((PyValue.float ∘ binary32.convert) real) ↔ RowElement value) :=
    fun _ _ made => PyValue.same_toFloat made
  rw [List.map_map]
  rcases rowFloats_cases read with
    ⟨items, rfl, all⟩ | ⟨text, rfl | rfl⟩ | ⟨view, width, rfl, shape, all⟩ |
    ⟨view, inner, rfl, shape, rfl⟩
  · rw [same_list_iff, forall₂_map_iff all each]
    exact ⟨fun elements => ⟨all.length_eq, elements⟩, fun survives => survives.2⟩
  · exact iff_of_false not_same_text_list not_false
  · exact iff_of_false not_same_bytes not_false
  · obtain ⟨list, count⟩ := NdArray.toList_row shape
    rw [same_array_iff, list, same_list_iff, ← List.map_map, ArrayData.same_elements, List.map_map,
      forall₂_map_iff all each]
    have wide : width = floats.length := by
      rw [← all.length_eq, ArrayData.length_elements, count]
    rw [← wide]
    exact ⟨fun elements => ⟨shape, elements⟩, fun survives => survives.2⟩
  · exact absurd rfl nonempty

/-- The list a decoder makes of a row of floats. -/
def floatRow (row : List FloatValue) : PyValue :=
  .list (row.map .float)

theorem length_rows_of_same {py : Runtime} {values : List PyValue}
    {rows stored : List (List FloatValue)} {width : Nat}
    (read : List.Forall₂ (fun sub floats => sub.rowFloats py = .ok floats) values rows)
    (same : List.Forall₂ SameValue values (stored.map floatRow))
    (even : ∀ row ∈ stored, row.length = width) : ∀ floats ∈ rows, floats.length = width := by
  induction read generalizing stored with
  | nil => simp
  | cons here _ ih =>
      cases stored with
      | nil => cases same
      | cons row rest =>
          rw [List.map_cons, List.forall₂_cons] at same
          rw [List.forall_mem_cons] at even ⊢
          exact ⟨(length_row_of_same here same.1).trans even.1, ih same.2 even.2⟩

theorem length_rows_of_survives {py : Runtime} {values : List PyValue}
    {rows : List (List FloatValue)} {width : Nat}
    (read : List.Forall₂ (fun sub floats => sub.rowFloats py = .ok floats) values rows)
    (survive : ∀ sub ∈ values, RowSurvives width sub) :
    ∀ floats ∈ rows, floats.length = width := by
  induction read with
  | nil => simp
  | @cons sub floats _ _ here _ ih =>
      rw [List.forall_mem_cons] at survive ⊢
      refine ⟨?_, ih survive.2⟩
      rcases rowFloats_cases here with
        ⟨items, rfl, all⟩ | ⟨text, rfl | rfl⟩ | ⟨view, _, rfl, shape, all⟩ |
        ⟨view, inner, rfl, shape, rfl⟩
      · exact all.length_eq.symm.trans survive.1.1
      · exact survive.1.elim
      · exact survive.1.elim
      · obtain ⟨_, count⟩ := NdArray.toList_row survive.1.1
        rw [← all.length_eq, ArrayData.length_elements, count]
      · have short : 0 :: inner = [width] := shape.symm.trans survive.1.1
        cases short
        rfl

theorem rows_same_iff {py : Runtime} {values : List PyValue} {rows : List (List FloatValue)}
    {width : Nat} (positive : 0 < width)
    (read : List.Forall₂ (fun sub floats => sub.rowFloats py = .ok floats) values rows)
    (even : ∀ floats ∈ rows, floats.length = width) :
    List.Forall₂ SameValue values ((rows.map (List.map binary32.convert)).map floatRow) ↔
      ∀ sub ∈ values, RowSurvives width sub := by
  induction read with
  | nil => simp
  | @cons sub floats _ _ here _ ih =>
      rw [List.forall_mem_cons] at even
      have nonempty : floats ≠ [] := by
        rintro rfl
        rw [← even.1] at positive
        exact Nat.lt_irrefl 0 positive
      rw [List.map_cons, List.map_cons, List.forall₂_cons, List.forall_mem_cons, ih even.2,
        ← even.1]
      exact and_congr_left fun _ => row_same_iff nonempty here

/-- A list of rows is the same exactly when every row survives at the width. -/
theorem rowList_same_iff {py : Runtime} {values : List PyValue} {rows : List (List FloatValue)}
    {width : Nat} (positive : 0 < width)
    (read : List.Forall₂ (fun sub floats => sub.rowFloats py = .ok floats) values rows) :
    ((rows.flatten.map binary32.convert).length % width = 0 ∧
      SameValue (.list values) (.list
        ((rowsOf width ((rows.flatten.map binary32.convert).map .float)).map .list))) ↔
      ∀ sub ∈ values, RowSurvives width sub := by
  have decoded : (rowsOf width ((rows.flatten.map binary32.convert).map PyValue.float)).map .list =
      (rowsOf width (rows.flatten.map binary32.convert)).map floatRow := by
    rw [map_rowsOf, List.map_map]
    rfl
  have kept : (∀ floats ∈ rows, floats.length = width) →
      rowsOf width (rows.flatten.map binary32.convert) =
        rows.map (List.map binary32.convert) := by
    intro even
    rw [map_rowsOf, rowsOf_flatten positive even]
  rw [decoded, same_list_iff]
  constructor
  · rintro ⟨_, same⟩
    have even := length_rows_of_same read same fun row member => length_of_mem_rowsOf _ member
    rw [kept even] at same
    exact (rows_same_iff positive read even).1 same
  · intro survive
    have even := length_rows_of_survives read survive
    rw [kept even]
    refine ⟨?_, (rows_same_iff positive read even).2 survive⟩
    rw [List.length_map, List.length_flatten, List.map_congr_left even]
    simp

theorem packUint8_ok {number packed : Nat} (fits : packUint8 number = .ok packed) :
    packed = number := by
  unfold packUint8 at fits
  split at fits
  · cases fits
    rfl
  · cases fits

theorem PyValue.numberRow?_some {first : PyValue} {row : List PyValue}
    (known : first.numberRow? = some row) : first = .list row ∧ 0 < row.length := by
  unfold PyValue.numberRow? at known
  split at known
  · split at known
    · cases known
      exact ⟨rfl, Nat.succ_pos _⟩
    · cases known
  · cases known

/-- Rows of one element are flattened; wider rows have to be as wide as the first. -/
theorem numberRows_same_iff {py : Runtime} {first : PyValue} {rest row : List PyValue}
    {rows : List (List FloatValue)} (known : first.numberRow? = some row)
    (read : List.Forall₂ (fun sub floats => sub.rowFloats py = .ok floats) (first :: rest) rows) :
    DecodesSame py (.list (first :: rest))
        { valueType := .floatArray, floatArray := rows.flatten.map binary32.convert,
          stride := row.length } ↔
      2 ≤ row.length ∧ ∀ sub ∈ first :: rest, RowSurvives row.length sub := by
  obtain ⟨rfl, positive⟩ := PyValue.numberRow?_some known
  rw [decodes_floats]
  split
  · next single =>
      apply iff_of_false
      · intro same
        cases decoded : (rows.flatten.map binary32.convert).map PyValue.float with
        | nil =>
            rw [decoded, same_list_iff] at same
            cases same
        | cons head tail =>
            rw [decoded, same_list_iff, List.forall₂_cons] at same
            obtain ⟨real, _, rfl⟩ := List.mem_map.1 (decoded ▸ List.mem_cons_self : head ∈ _)
            exact not_same_list_number rfl same.1
      · rintro ⟨wide, _⟩
        omega
  · next several =>
      rw [rowList_same_iff positive read]
      exact (and_iff_right (by omega)).symm

/-- The value type of a list is found from its first element, and the list survives accordingly. -/
theorem encodeAttrValueList_same_iff {py : Runtime} {values : List PyValue} {av : AttrValue}
    (encoded : encodeAttrValueList py values = .ok av) :
    DecodesSame py (.list values) av ↔ ListSurvives values := by
  cases values with
  | nil =>
      cases encoded
      exact iff_of_true (decodes_json.2 (SameValue.list List.Forall₂.nil)) trivial
  | cons first rest =>
      unfold encodeAttrValueList at encoded
      unfold ListSurvives
      dsimp only at encoded ⊢
      split at encoded
      · next float =>
          rw [if_pos float]
          obtain ⟨vector, created, rfl⟩ := except_map_eq_ok_iff.1 encoded
          rw [decodes_floats, if_pos (Nat.le_refl 1)]
          exact floatList_same_iff created
      · next noFloat =>
          rw [if_neg noFloat]
          split at encoded
          · next int =>
              rw [if_pos int]
              obtain ⟨vector, created, rfl⟩ := except_map_eq_ok_iff.1 encoded
              rw [decodes_ints, if_pos (Nat.le_refl 1)]
              exact intList_same_iff created
          · next noInt =>
              rw [if_neg noInt]
              cases known : first.numberRow? with
              | some row =>
                  rw [known] at encoded
                  obtain ⟨rows, read, packed⟩ := except_bind_eq_ok_iff.1 encoded
                  obtain ⟨stride, narrow, rfl⟩ := except_map_eq_ok_iff.1 packed
                  obtain rfl := packUint8_ok narrow
                  exact numberRows_same_iff known (mapM_eq_ok_iff.1 read)
              | none =>
                  rw [known] at encoded
                  obtain ⟨text, dumped, rfl⟩ := except_map_eq_ok_iff.1 encoded
                  exact iff_of_true (decodes_json.2 (PyValue.dumps_same dumped)) trivial

/-! ### Arrays -/

section Arrays

variable {Item : Type} {original decoded : Item → PyValue}

theorem rows_items_same_iff {rows : List (List Item)} :
    List.Forall₂ SameValue (rows.map fun row => .list (row.map original))
        (rows.map fun row => .list (row.map decoded)) ↔
      ∀ row ∈ rows, ∀ item ∈ row, SameValue (original item) (decoded item) := by
  rw [List.forall₂_map_left_iff, List.forall₂_map_right_iff, List.forall₂_same]
  simp only [same_list_iff, List.forall₂_map_left_iff, List.forall₂_map_right_iff,
    List.forall₂_same]

theorem not_same_rows_flat {rows columns : Nat} {inner : List Nat} {items : List PyValue}
    {vector : List Item} (some_rows : rows ≠ 0)
    (numbers : ∀ item, ∃ number, (decoded item).number? = some number) :
    ¬ SameValue (nest (rows :: columns :: inner) items) (.list (vector.map decoded)) := by
  unfold nest
  rw [same_list_iff]
  obtain ⟨count, rfl⟩ := Nat.exists_eq_succ_of_ne_zero some_rows
  rw [Nat.succ_eq_add_one, List.range_succ_eq_map, List.map_cons]
  intro same
  cases vector with
  | nil => cases same
  | cons item rest =>
      obtain ⟨number, known⟩ := numbers item
      rw [List.map_cons, List.forall₂_cons] at same
      exact not_same_list_number known same.1

theorem not_same_deep_rows {rows columns depth : Nat} {inner : List Nat} {items : List PyValue}
    {vectors : List (List Item)} (some_rows : rows ≠ 0) (some_columns : columns ≠ 0)
    (numbers : ∀ item, ∃ number, (decoded item).number? = some number) :
    ¬ SameValue (nest (rows :: columns :: depth :: inner) items)
      (.list (vectors.map fun row => .list (row.map decoded))) := by
  rw [nest, same_list_iff]
  obtain ⟨count, rfl⟩ := Nat.exists_eq_succ_of_ne_zero some_rows
  rw [Nat.succ_eq_add_one, List.range_succ_eq_map, List.map_cons]
  intro same
  cases vectors with
  | nil => cases same
  | cons row rest =>
      rw [List.map_cons, List.forall₂_cons] at same
      exact not_same_rows_flat some_columns numbers same.1

/-- An array of numbers is the same exactly when it keeps its shape and every element is. -/
theorem array_same_iff {view : NdArray} {vector : List Item} {stride : Nat}
    (items : view.data.items = vector.map original) (nonempty : view.size ≠ 0)
    (width : stride = if view.shape.length = 1 then 1 else view.shape.getLast view.dims)
    (numbers : ∀ item, ∃ number, (decoded item).number? = some number) :
    (if stride ≤ 1 then SameValue (.array view) (.list (vector.map decoded))
      else vector.length % stride = 0 ∧
        SameValue (.array view) (.list ((rowsOf stride (vector.map decoded)).map .list))) ↔
      view.KeepsShape ∧ ∀ item ∈ vector, SameValue (original item) (decoded item) := by
  obtain ⟨shape, data, dims, sized⟩ := view
  dsimp only at items nonempty width
  have count : vector.length = shape.prod := by
    rw [← sized, ← data.length_items, items, List.length_map]
  have full : shape.prod ≠ 0 := by
    rw [← sized]
    exact nonempty
  simp only [same_array_iff, NdArray.toList, NdArray.KeepsShape, items]
  match shape with
  | [] => exact absurd rfl dims
  | [rows] =>
      obtain rfl : stride = 1 := width
      rw [List.prod_cons, List.prod_nil, Nat.mul_one] at count
      rw [if_pos (Nat.le_refl 1), nest_row (by rw [List.length_map, count]), same_list_iff,
        List.forall₂_map_left_iff, List.forall₂_map_right_iff, List.forall₂_same]
      exact (and_iff_right (Or.inl rfl)).symm
  | [rows, columns] =>
      obtain rfl : stride = columns := width
      rw [List.prod_cons, List.prod_cons, List.prod_nil, Nat.mul_one] at count full
      have some_rows : rows ≠ 0 := Nat.ne_zero_of_mul_ne_zero_left full
      have some_columns : stride ≠ 0 := Nat.ne_zero_of_mul_ne_zero_right full
      by_cases single : stride = 1
      · rw [if_pos single.le]
        apply iff_of_false (not_same_rows_flat some_rows numbers)
        rintro ⟨shaped, _⟩
        simp [single] at shaped
      · have even : vector.length % stride = 0 := by
          rw [count]
          exact Nat.mul_mod_left rows stride
        have height : rows = (vector.map original).length / stride := by
          rw [List.length_map, count, Nat.mul_div_cancel _ (by omega)]
        have rowwise : nest [rows, stride] (vector.map original) =
            .list ((rowsOf stride vector).map fun row => .list (row.map original)) := by
          rw [height, nest_rows, map_rowsOf, List.map_map]
          rfl
        rw [if_neg (by omega), rowwise, map_rowsOf, List.map_map, same_list_iff]
        refine Iff.trans (and_iff_right even) (rows_items_same_iff.trans ?_)
        constructor
        · intro same
          refine ⟨Or.inr ⟨rfl, single⟩, ?_⟩
          intro item member
          obtain ⟨row, known, inside⟩ := exists_mem_rowsOf (by omega) even member
          exact same row known item inside
        · rintro ⟨_, same⟩ row known item inside
          exact same item (mem_of_mem_rowsOf known inside)
  | rows :: columns :: depth :: inner =>
      rw [List.prod_cons, List.prod_cons] at full
      have some_rows : rows ≠ 0 := Nat.ne_zero_of_mul_ne_zero_left full
      have some_columns : columns ≠ 0 :=
        Nat.ne_zero_of_mul_ne_zero_left (Nat.ne_zero_of_mul_ne_zero_right full)
      apply iff_of_false
      · split
        · exact not_same_rows_flat some_rows numbers
        · rintro ⟨_, same⟩
          rw [map_rowsOf, List.map_map] at same
          exact not_same_deep_rows some_rows some_columns numbers same
      · rintro ⟨shaped, _⟩
        simp at shaped

end Arrays

theorem toList_empty_iff {view : NdArray} :
    SameValue (.array view) (.list []) ↔ view.shape.head view.dims = 0 := by
  obtain ⟨shape, data, dims, sized⟩ := view
  rw [same_array_iff]
  match shape with
  | [] => exact absurd rfl dims
  | rows :: inner =>
      change SameValue (nest (rows :: inner) data.items) (.list []) ↔ rows = 0
      rw [nest, same_list_iff, List.forall₂_nil_right_iff, List.map_eq_nil_iff, List.range_eq_nil]

/-- An array survives in its slot as `ArraySurvives` says. -/
theorem encodeAttrValueNumpy_same_iff {py : Runtime} {view : NdArray} {av : AttrValue}
    (encoded : encodeAttrValueNumpy view = .ok av) :
    DecodesSame py (.array view) av ↔ ArraySurvives view := by
  unfold encodeAttrValueNumpy at encoded
  unfold ArraySurvives
  split at encoded
  · next empty =>
      rw [if_pos empty]
      cases encoded
      exact decodes_json.trans toList_empty_iff
  · next nonempty =>
      rw [if_neg nonempty]
      have textual : encodeJsonAttrValue <$> view.toList.dumps = .ok av →
          DecodesSame py (.array view) av := by
        intro packed
        obtain ⟨text, dumped, rfl⟩ := except_map_eq_ok_iff.1 packed
        exact decodes_json.2 (SameValue.array (PyValue.dumps_same dumped))
      dsimp only at encoded
      cases kind : view.data with
      | floats flat =>
          rw [kind] at encoded
          obtain ⟨stride, narrow, packed⟩ := except_bind_eq_ok_iff.1 encoded
          cases packed
          rw [decodes_floats, List.length_map, List.map_map]
          refine Iff.trans (array_same_iff (show _ = flat.map PyValue.float from ?_) nonempty
            (packUint8_ok narrow) fun item => ⟨_, rfl⟩) (and_iff_left ?_)
          · rw [kind]
            rfl
          · intro item _
            exact SameValue.rounded rfl
      | ints flat =>
          rw [kind] at encoded
          obtain ⟨stride, narrow, packed⟩ := except_bind_eq_ok_iff.1 encoded
          cases packed
          rw [decodes_ints, List.length_map, List.map_map]
          refine Iff.trans (array_same_iff (show _ = flat.map PyValue.int from ?_) nonempty
            (packUint8_ok narrow) fun item => ⟨_, rfl⟩) (and_congr_right fun _ => ?_)
          · rw [kind]
            rfl
          · apply forall₂_congr
            intro item _
            exact (same_number_iff rfl rfl rfl).trans wrapSigned_same
      | bools flat =>
          rw [kind] at encoded
          exact iff_of_true (textual encoded) trivial
      | texts flat =>
          rw [kind] at encoded
          exact iff_of_true (textual encoded) trivial
      | bytes flat =>
          rw [kind] at encoded
          exact iff_of_true (textual encoded) trivial

/-! ### Values and events -/

theorem packFloat32_ok {real packed : FloatValue} (fits : packFloat32 real = .ok packed) :
    packed = binary32.convert real := by
  unfold packFloat32 at fits
  split at fits
  · cases fits
  · cases fits
    rfl

theorem packInt32_ok {number packed : Int} (fits : packInt32 number = .ok packed) :
    packed = number := by
  unfold packInt32 at fits
  split at fits
  · cases fits
    rfl
  · cases fits

theorem encodeAttrValue_same_iff {py : Runtime} {value : PyValue} {av : AttrValue}
    (encoded : encodeAttrValueInner py value = .ok av) :
    DecodesSame py value av ↔ Survives value := by
  cases value with
  | bool value =>
      cases encoded
      exact iff_of_true ⟨_, _, rfl, rfl, SameValue.number rfl rfl, rfl⟩ trivial
  | int value =>
      obtain ⟨packed, fits, rfl⟩ := except_map_eq_ok_iff.1 encoded
      obtain rfl := packInt32_ok fits
      exact iff_of_true ⟨_, _, rfl, rfl, SameValue.number rfl rfl, rfl⟩ trivial
  | float value =>
      obtain ⟨packed, fits, rfl⟩ := except_map_eq_ok_iff.1 encoded
      obtain rfl := packFloat32_ok fits
      exact iff_of_true ⟨_, _, rfl, rfl, SameValue.rounded rfl, rfl⟩ trivial
  | numpyDouble value =>
      obtain ⟨packed, fits, rfl⟩ := except_map_eq_ok_iff.1 encoded
      obtain rfl := packFloat32_ok fits
      exact iff_of_true ⟨_, _, rfl, rfl, SameValue.rounded rfl, rfl⟩ trivial
  | numpyInt value => cases encoded
  | numpyFloat value => cases encoded
  | bytes value => cases encoded
  | text value =>
      cases encoded
      exact iff_of_true ⟨_, _, rfl, rfl, SameValue.text value, rfl⟩ trivial
  | list items => exact encodeAttrValueList_same_iff encoded
  | array view => exact encodeAttrValueNumpy_same_iff encoded

/-- Both decodings of an event return the names and values of its attributes, with the same nested
values. -/
def EventDecodesSame (py : Runtime) (ev : GprimAttrsEvent) (sg : SetGprimAttrs) : Prop :=
  ∃ plain views, dictSetGprimAttrs py sg false = .ok plain ∧
    dictSetGprimAttrs py sg true = .ok views ∧
    List.Forall₂ (fun attr decoded => attr.1 = decoded.1 ∧
      ∃ value, decoded.2 = some value ∧ SameValue attr.2 value)
        ev.attrs.entries plain.attrs.entries ∧
    views.attrs.entries.map (fun attr => (attr.1, attr.2.map PyValue.nested)) = plain.attrs.entries

/-- Attribute by attribute: all are decoded to the same values exactly when all survive. -/
theorem entries_same_iff {py : Runtime} {entries : List (String × PyValue)}
    {coded : List (String × AttrValue)}
    (encoded : List.Forall₂ (fun attr stored => attr.1 = stored.1 ∧
      encodeAttrValueInner py attr.2 = .ok stored.2) entries coded) :
    (∃ plains views : List (String × Option PyValue),
      List.Forall₂ (fun stored decoded => stored.1 = decoded.1 ∧
        attrValueToPython py stored.2 false = .ok decoded.2) coded plains ∧
      List.Forall₂ (fun stored decoded => stored.1 = decoded.1 ∧
        attrValueToPython py stored.2 true = .ok decoded.2) coded views ∧
      List.Forall₂ (fun attr decoded => attr.1 = decoded.1 ∧
        ∃ value, decoded.2 = some value ∧ SameValue attr.2 value) entries plains ∧
      views.map (fun attr => (attr.1, attr.2.map PyValue.nested)) = plains) ↔
      ∀ attr ∈ entries, Survives attr.2 := by
  induction encoded with
  | nil => exact iff_of_true ⟨[], [], .nil, .nil, .nil, rfl⟩ (by simp)
  | @cons attr stored rest later here _ ih =>
      obtain ⟨name, packed⟩ := here
      rw [List.forall_mem_cons, ← ih, ← encodeAttrValue_same_iff packed]
      constructor
      · rintro ⟨plains, views, readPlain, readViews, same, nested⟩
        cases readPlain with
        | @cons _ plain _ plains readPlain morePlain =>
            cases readViews with
            | @cons _ view _ views readView moreViews =>
                rw [List.map_cons, List.cons.injEq] at nested
                rw [List.forall₂_cons] at same
                obtain ⟨⟨_, value, known, equal⟩, others⟩ := same
                obtain ⟨first, tail⟩ := nested
                refine ⟨?_, plains, views, morePlain, moreViews, others, tail⟩
                have matched : view.2.map PyValue.nested = some value := by
                  rw [← known, ← first]
                obtain ⟨kept, stands, list⟩ := Option.map_eq_some_iff.1 matched
                exact ⟨value, kept, by rw [readPlain.2, known], by rw [readView.2, stands], equal,
                  list⟩
      · rintro ⟨⟨plain, view, readPlain, readView, same, nested⟩, plains, views, morePlains,
          moreViews, others, tail⟩
        refine ⟨(attr.1, some plain) :: plains, (attr.1, some view) :: views,
          .cons ⟨name.symm, readPlain⟩ morePlains, .cons ⟨name.symm, readView⟩ moreViews,
          .cons ⟨rfl, plain, rfl, same⟩ others, ?_⟩
        rw [List.map_cons, tail, Option.map_some, nested]

theorem encodeSetGprimAttrs_attrs {py : Runtime} {ev : GprimAttrsEvent} {sg : SetGprimAttrs}
    (encoded : encodeSetGprimAttrs py ev = .ok sg) :
    List.Forall₂ (fun attr stored => attr.1 = stored.1 ∧
      encodeAttrValueInner py attr.2 = .ok stored.2) ev.attrs.entries sg.attrs := by
  obtain ⟨attrs, stored, later⟩ := except_bind_eq_ok_iff.1 encoded
  obtain ⟨time, _, packed⟩ := except_bind_eq_ok_iff.1 later
  cases packed
  exact (mapM_entries_eq_ok_iff (encodeAttrValueInner py)).1 stored

theorem dictSetGprimAttrs_attrs {py : Runtime} {sg : SetGprimAttrs} {numpyArrays : Bool}
    (distinct : (sg.attrs.map (·.1)).Nodup) {entries : List (String × Option PyValue)} :
    (∃ decoded, dictSetGprimAttrs py sg numpyArrays = .ok decoded ∧
      decoded.attrs.entries = entries) ↔
    List.Forall₂ (fun stored decoded => stored.1 = decoded.1 ∧
      attrValueToPython py stored.2 numpyArrays = .ok decoded.2) sg.attrs entries := by
  have kept : ∀ {results : List (String × Option PyValue)},
      List.Forall₂ (fun stored decoded => stored.1 = decoded.1 ∧
        attrValueToPython py stored.2 numpyArrays = .ok decoded.2) sg.attrs results →
      (OrderedDict.ofEntries results).entries = results := by
    intro results all
    apply OrderedDict.entries_ofEntries
    rw [← keys_of_forall₂ (all.imp fun _ _ both => both.1)]
    exact distinct
  constructor
  · rintro ⟨decoded, read, rfl⟩
    obtain ⟨attrs, all, packed⟩ := except_bind_eq_ok_iff.1 read
    cases packed
    have each := (mapM_entries_eq_ok_iff fun av => attrValueToPython py av numpyArrays).1 all
    change List.Forall₂ _ _ (OrderedDict.ofEntries attrs).entries
    rw [kept each]
    exact each
  · intro each
    have all := (mapM_entries_eq_ok_iff fun av => attrValueToPython py av numpyArrays).2 each
    refine ⟨_, except_bind_eq_ok_iff.2 ⟨entries, all, rfl⟩, ?_⟩
    exact kept each

/-! ### Narrowing to 32 bits -/

/-- What integer slots return: a list whose first element is an integer has every element converted
to int32, and an integer array is reduced modulo 2^32 in its shape. -/
structure NarrowsInts (py : Runtime) (value : PyValue) (av : AttrValue) : Prop where
  list : ∀ first rest, value = .list (first :: rest) → first.isInt →
    ∃ numbers, List.Forall₂ (fun item number => item.asInt32 py = .ok number)
        (first :: rest) numbers ∧
      attrValueToPython py av false = .ok (some (.list (numbers.map .int)))
  array : ∀ view flat, value = .array view → view.data = .ints flat → view.size ≠ 0 →
    view.KeepsShape → attrValueToPython py av false =
      .ok (some (nest view.shape (flat.map fun number => .int (wrapSigned 32 number))))

theorem PyValue.isFloat_of_isInt {value : PyValue} (int : value.isInt) : ¬ value.isFloat := by
  cases value with
  | int _ => exact Bool.false_ne_true
  | _ => cases int

/-- An array that keeps its shape is decoded to its own nesting. -/
theorem vectorRows_shape {Item : Type} {beyond : Nat → Except PyError Item} {item : Item → PyValue}
    {view : NdArray} {vector : List Item} {stride : Nat} (count : vector.length = view.shape.prod)
    (nonempty : vector.length ≠ 0) (keeps : view.KeepsShape)
    (width : stride = if view.shape.length = 1 then 1 else view.shape.getLast view.dims) :
    vectorRows beyond item vector stride = .ok (nest view.shape (vector.map item)) := by
  obtain ⟨shape, data, dims, sized⟩ := view
  dsimp only at count width ⊢
  unfold NdArray.KeepsShape at keeps
  match shape with
  | [] => exact absurd rfl dims
  | [rows] =>
      obtain rfl : stride = 1 := width
      rw [List.prod_cons, List.prod_nil, Nat.mul_one] at count
      rw [vectorRows_flat (Nat.le_refl 1), nest_row (by rw [List.length_map, count])]
  | [rows, columns] =>
      obtain rfl : stride = columns := width
      rw [List.prod_cons, List.prod_cons, List.prod_nil, Nat.mul_one] at count
      have several : stride ≠ 1 := by simpa using keeps
      have some_columns : stride ≠ 0 := by
        rintro rfl
        exact nonempty count
      have even : vector.length % stride = 0 := by
        rw [count]
        exact Nat.mul_mod_left rows stride
      have height : rows = (vector.map item).length / stride := by
        rw [List.length_map, count, Nat.mul_div_cancel _ (by omega)]
      rw [vectorRows_rows (by omega) even, height, nest_rows]
  | rows :: columns :: depth :: inner => simp at keeps

theorem encodeAttrValue_narrows {py : Runtime} {value : PyValue} {av : AttrValue}
    (encoded : encodeAttrValueInner py value = .ok av) : NarrowsInts py value av where
  list := by
    rintro first rest rfl int
    change encodeAttrValueList py (first :: rest) = .ok av at encoded
    unfold encodeAttrValueList at encoded
    dsimp only at encoded
    rw [if_neg (PyValue.isFloat_of_isInt int), if_pos int] at encoded
    obtain ⟨numbers, created, rfl⟩ := except_map_eq_ok_iff.1 encoded
    refine ⟨numbers, mapM_eq_ok_iff.1 created, ?_⟩
    change some <$> vectorRows py.intBeyond .int numbers 1 = _
    rw [vectorRows_flat (Nat.le_refl 1)]
    rfl
  array := by
    rintro view flat rfl kind nonempty keeps
    change encodeAttrValueNumpy view = .ok av at encoded
    unfold encodeAttrValueNumpy at encoded
    rw [if_neg nonempty] at encoded
    dsimp only at encoded
    rw [kind] at encoded
    obtain ⟨stride, narrow, packed⟩ := except_bind_eq_ok_iff.1 encoded
    cases packed
    change some <$> vectorRows py.intBeyond .int (flat.map (wrapSigned 32)) stride = _
    have count : (flat.map (wrapSigned 32)).length = view.shape.prod := by
      rw [← view.sized, kind, List.length_map]
      rfl
    have some_items : (flat.map (wrapSigned 32)).length ≠ 0 := by
      rw [count, ← view.sized]
      exact nonempty
    rw [vectorRows_shape count some_items keeps (packUint8_ok narrow), List.map_map]
    rfl

/-- An encoded event is decoded to the same attributes exactly when each of its values survives, and
its integers are narrowed to 32 bits. -/
theorem gprimAttrs_survive_iff (py : Runtime) (ev : GprimAttrsEvent) (sg : SetGprimAttrs)
    (encoded : encodeSetGprimAttrs py ev = .ok sg) :
    (EventDecodesSame py ev sg ↔ ∀ attr ∈ ev.attrs.entries, Survives attr.2) ∧
      List.Forall₂ (fun attr stored => attr.1 = stored.1 ∧ NarrowsInts py attr.2 stored.2)
        ev.attrs.entries sg.attrs := by
  have stored := encodeSetGprimAttrs_attrs encoded
  refine ⟨?_, stored.imp fun _ _ both => ⟨both.1, encodeAttrValue_narrows both.2⟩⟩
  have distinct : (sg.attrs.map (·.1)).Nodup := by
    rw [← keys_of_forall₂ (stored.imp fun _ _ both => both.1)]
    exact ev.attrs.distinct
  rw [← entries_same_iff stored]
  constructor
  · rintro ⟨plain, views, readPlain, readViews, same, nested⟩
    exact ⟨plain.attrs.entries, views.attrs.entries,
      (dictSetGprimAttrs_attrs distinct).1 ⟨plain, readPlain, rfl⟩,
      (dictSetGprimAttrs_attrs distinct).1 ⟨views, readViews, rfl⟩, same, nested⟩
  · rintro ⟨plains, views, readPlains, readViews, same, nested⟩
    obtain ⟨plain, known, rfl⟩ := (dictSetGprimAttrs_attrs distinct).2 readPlains
    obtain ⟨view, seen, rfl⟩ := (dictSetGprimAttrs_attrs distinct).2 readViews
    exact ⟨plain, view, known, seen, same, nested⟩

/-- An interpreter that reads decimal integers only. -/
def plainRuntime : Runtime where
  floatOfText text := text.toInt?.map fun number => .finite number
  intOfText := String.toInt?
  castBeyond _ := -2147483648
  longBits := 64
  wide := by decide
  floatBeyond _ := .error .structError
  intBeyond _ := .error .structError

/-- An event with one attribute. -/
def attrEvent (value : PyValue) : GprimAttrsEvent where
  prim := "/Mesh"
  attrs := { entries := [("value", value)], distinct := by simp }

/-- The integer array `[[1, 2], [3, 2^31]]`. -/
def wideFaces : NdArray := ⟨[2, 2], .ints [1, 2, 3, 2147483648], by simp, rfl⟩

/-- The table of an event with `wideFaces`. -/
def wideFacesTable : SetGprimAttrs where
  prim := "/Mesh"
  attrs := [("value", { valueType := .intArray, intArray := [1, 2, 3, -2147483648], stride := 2 })]
  primvarMeta := []
  attrInterp := []
  time := none

theorem gprimAttrs_survive_iff_wideFaces :
    (EventDecodesSame plainRuntime (attrEvent (.array wideFaces)) wideFacesTable ↔
        ∀ attr ∈ (attrEvent (.array wideFaces)).attrs.entries, Survives attr.2) ∧
      List.Forall₂ (fun attr stored => attr.1 = stored.1 ∧
          NarrowsInts plainRuntime attr.2 stored.2)
        (attrEvent (.array wideFaces)).attrs.entries wideFacesTable.attrs :=
  gprimAttrs_survive_iff plainRuntime (attrEvent (.array wideFaces)) wideFacesTable rfl

/-- The table of an event with the list `[1, 2.5]`. -/
def mixedListTable : SetGprimAttrs where
  prim := "/Mesh"
  attrs := [("value", { valueType := .intArray, intArray := [1, 2] })]
  primvarMeta := []
  attrInterp := []
  time := none

theorem mixedList_encoded : encodeSetGprimAttrs plainRuntime
    (attrEvent (.list [.int 1, .float (.finite (5 / 2))])) = .ok mixedListTable := by
  have first : (PyValue.int 1).asInt32 plainRuntime = .ok 1 := by decide
  have second : (PyValue.float (.finite (5 / 2))).asInt32 plainRuntime = .ok 2 := by
    decide +kernel
  have created : createIntVector plainRuntime [.int 1, .float (.finite (5 / 2))] = .ok [1, 2] :=
    mapM_eq_ok_iff.2 (.cons first (.cons second .nil))
  have value : encodeAttrValueInner plainRuntime (.list [.int 1, .float (.finite (5 / 2))]) =
      .ok { valueType := .intArray, intArray := [1, 2] } := by
    refine except_bind_eq_ok_iff.2 ⟨[1, 2], created, rfl⟩
  refine except_bind_eq_ok_iff.2 ⟨mixedListTable.attrs, ?_, rfl⟩
  rw [mapM_entries_eq_ok_iff]
  exact .cons ⟨rfl, value⟩ .nil

/-- The list `[1, 2.5]` is encoded and comes back as `[1, 2]`. -/
theorem not_decodesSame_mixedList :
    ¬ ∀ (py : Runtime) (ev : GprimAttrsEvent) (sg : SetGprimAttrs),
      encodeSetGprimAttrs py ev = .ok sg → EventDecodesSame py ev sg := by
  intro keeps
  obtain ⟨plain, _, read, _, same, _⟩ := keeps plainRuntime _ _ mixedList_encoded
  cases read
  change List.Forall₂ _ _ [("value", some (PyValue.list [.int 1, .int 2]))] at same
  obtain ⟨⟨_, value, known, equal⟩, _⟩ := List.forall₂_cons.1 same
  cases known
  rw [same_list_iff, List.forall₂_cons, List.forall₂_cons] at equal
  exact absurd ((same_real_int_iff rfl).1 equal.2.1) (by decide +kernel)

end UsdConnect
