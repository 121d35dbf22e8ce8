/-
Purpose: Encoder and decoder of `set_gprim_attrs` events and of the attribute values in them.
Trusted boundary: tables and vectors return what was stored in them; a scalar slot packs its number
  with the range checks of `struct` and the builder
Main exports: AttrValue, encodeAttrValueInner, attrValueToPython, encodeSetGprimAttrs
-/
import UsdConnect.Codec.PythonValue
import UsdConnect.Lib.OrderedDict

namespace UsdConnect

/-- Which field of an `AttrValue` is populated. -/
inductive AttrValueType
  | none
  | scalarFloat
  | scalarInt
  | scalarBool
  | scalarString
  | floatArray
  | intArray
  | stringVal
  | nestedList
deriving DecidableEq, Repr

/-- The attribute value table with its defaults. -/
structure AttrValue where
  valueType : AttrValueType := .none
  scalarFloat : FloatValue := .finite 0
  scalarInt : Int := 0
  scalarBool : Bool := false
  scalarString : Option String := none
  floatArray : List FloatValue := []
  intArray : List Int := []
  nestedJson : Option Json := none
  stride : Nat := 1

/-! ### Slots -/

/-- `PrependInt32Slot`. -/
def packInt32 (number : Int) : Except PyError Int :=
  if FitsSigned 32 number then .ok number else .error .typeError

/-- `PrependFloat32Slot`: `struct` refuses a finite number that is too large. -/
def packFloat32 (real : FloatValue) : Except PyError FloatValue :=
  match real, binary32.convert real with
  | .finite _, .infinite _ => .error .overflowError
  | _, packed => .ok packed

/-- `PrependUint8Slot`. -/
def packUint8 (number : Nat) : Except PyError Nat :=
  if number < 256 then .ok number else .error .typeError

/-! ### Encoding -/

def createFloatVector (py : Runtime) (values : List PyValue) : Except PyError (List FloatValue) :=
  values.mapM (PyValue.asFloat32 py)

def createIntVector (py : Runtime) (values : List PyValue) : Except PyError (List Int) :=
  values.mapM (PyValue.asInt32 py)

def encodeJsonAttrValue (text : Json) : AttrValue :=
  { valueType := .nestedList, nestedJson := some text }

def encodeAttrValueNumpy (array : NdArray) : Except PyError AttrValue :=
  if array.size = 0 then .ok (encodeJsonAttrValue (.list []))
  else
    let stride := if array.shape.length = 1 then 1 else array.shape.getLast array.dims
    match array.data with
    | .floats flat => do
        let stride ← packUint8 stride
        return { valueType := .floatArray, floatArray := flat.map binary32.convert,
                 stride := stride }
    | .ints flat => do
        let stride ← packUint8 stride
        return { valueType := .intArray, intArray := flat.map (wrapSigned 32), stride := stride }
    | _ => encodeJsonAttrValue <$> array.toList.dumps

/-- `float(v) for v in sub`. -/
def PyValue.rowFloats (py : Runtime) : PyValue → Except PyError (List FloatValue)
  | .list items => items.mapM (PyValue.toFloat py)
  | .text value => value.toList.mapM fun character =>
      (PyValue.text character.toString).toFloat py
  -- iterating bytes yields their codes
  | .bytes value => .ok (value.toList.map fun byte => .finite byte.toNat)
  | .array view =>
      match view.shape with
      | [_] => view.data.elements.mapM (PyValue.toFloat py)
      | 0 :: _ => .ok []
      -- the rows are arrays
      | _ => .error .typeError
  | _ => .error .typeError

/-- A row of numbers, by its first element. -/
def PyValue.numberRow? : PyValue → Option (List PyValue)
  | .list (first :: rest) => if first.isPythonNumber then some (first :: rest) else none
  | _ => none

/-- The value type is detected from the first element. -/
def encodeAttrValueList (py : Runtime) (values : List PyValue) : Except PyError AttrValue :=
  match values with
  | [] => .ok (encodeJsonAttrValue (.list []))
  | first :: _ =>
      if first.isFloat then do
        let vector ← createFloatVector py values
        return { valueType := .floatArray, floatArray := vector, stride := 1 }
      else if first.isInt then do
        let vector ← createIntVector py values
        return { valueType := .intArray, intArray := vector, stride := 1 }
      else
        match first.numberRow? with
        | some row => do
            let rows ← values.mapM (PyValue.rowFloats py)
            let stride ← packUint8 row.length
            return { valueType := .floatArray, floatArray := rows.flatten.map binary32.convert,
                     stride := stride }
        | none => encodeJsonAttrValue <$> (PyValue.list values).dumps

def encodeAttrValueInner (py : Runtime) : PyValue → Except PyError AttrValue
  | .bool value => .ok { valueType := .scalarBool, scalarBool := value }
  | .int value => do
      let packed ← packInt32 value
      return { valueType := .scalarInt, scalarInt := packed }
  | .float value => do
      let packed ← packFloat32 value
      return { valueType := .scalarFloat, scalarFloat := packed }
  | .numpyDouble value => do
      let packed ← packFloat32 value
      return { valueType := .scalarFloat, scalarFloat := packed }
  | .text value => .ok { valueType := .scalarString, scalarString := some value }
  | .array view => encodeAttrValueNumpy view
  | .list values => encodeAttrValueList py values
  | other => encodeJsonAttrValue <$> other.dumps

/-! ### Decoding -/

/-- Element of a vector; behind its end the buffer is read. -/
def vectorGet {α : Type} (beyond : Nat → Except PyError α) (vector : List α) (index : Nat) :
    Except PyError α :=
  vector[index]?.elim (beyond index) .ok

/-- The rows of a vector as lists. -/
def vectorRows {α : Type} (beyond : Nat → Except PyError α) (item : α → PyValue)
    (vector : List α) (stride : Nat) : Except PyError PyValue :=
  if stride ≤ 1 then do
    let items ← (List.range vector.length).mapM (vectorGet beyond vector)
    return .list (items.map item)
  else do
    let rows ← (List.range ((vector.length + stride - 1) / stride)).mapM fun row =>
      (List.range stride).mapM fun column => vectorGet beyond vector (row * stride + column)
    return .list (rows.map fun row => .list (row.map item))

/-- The vector as an array view, `reshape(-1, stride)` for rows. -/
def vectorArray (data : ArrayData) (stride : Nat) : Except PyError PyValue :=
  if 1 < stride then
    if divides : data.length % stride = 0 then
      .ok (.array ⟨[data.length / stride, stride], data, by simp, by
        simp only [List.prod_cons, List.prod_nil, Nat.mul_one]
        exact (Nat.div_mul_cancel (Nat.dvd_of_mod_eq_zero divides)).symm⟩)
    else .error .valueError
  else .ok (.array ⟨[data.length], data, by simp, by simp⟩)

/-- Values without a type decode to `None`. -/
def attrValueToPython (py : Runtime) (av : AttrValue) (numpyArrays : Bool) :
    Except PyError (Option PyValue) :=
  match av.valueType with
  | .scalarFloat => .ok (some (.float av.scalarFloat))
  | .scalarInt => .ok (some (.int av.scalarInt))
  | .scalarBool => .ok (some (.bool av.scalarBool))
  | .scalarString => .ok (av.scalarString.map .text)
  | .floatArray =>
      if numpyArrays then some <$> vectorArray (.floats av.floatArray) av.stride
      else some <$> vectorRows py.floatBeyond .float av.floatArray av.stride
  | .intArray =>
      if numpyArrays then some <$> vectorArray (.ints av.intArray) av.stride
      else some <$> vectorRows py.intBeyond .int av.intArray av.stride
  | .nestedList => .ok (av.nestedJson.map Json.loads)
  | _ => .ok none

/-! ### Events -/

/-- Type and interpolation of a primvar in an event. -/
structure EventPrimvarMeta where
  typeName : String
  interpolation : Option String := none
deriving DecidableEq, Repr

/-- A `set_gprim_attrs` event. -/
structure GprimAttrsEvent where
  prim : String
  attrs : OrderedDict String PyValue
  primvarMeta : OrderedDict String EventPrimvarMeta := {}
  attrInterp : OrderedDict String String := {}
  time : Option PyValue := none

/-- The `SetGprimAttrs` table. -/
structure SetGprimAttrs where
  prim : String
  attrs : List (String × AttrValue)
  primvarMeta : List (String × EventPrimvarMeta)
  attrInterp : List (String × String)
  time : Option FloatValue

/-- The decoded event; its time is a float. -/
structure DecodedGprimAttrs where
  prim : String
  attrs : OrderedDict String (Option PyValue)
  primvarMeta : OrderedDict String EventPrimvarMeta
  attrInterp : OrderedDict String String
  time : Option FloatValue

/-- `float(ev["time"])` where the event has a time. -/
def encodeTime (py : Runtime) (time : Option PyValue) : Except PyError (Option FloatValue) :=
  match time with
  | some value => some <$> value.toFloat py
  | none => .ok none

/-- An empty interpolation is not written. -/
def EventPrimvarMeta.written (metadata : EventPrimvarMeta) : EventPrimvarMeta :=
  { metadata with interpolation := metadata.interpolation.filter (· ≠ "") }

def encodeSetGprimAttrs (py : Runtime) (ev : GprimAttrsEvent) : Except PyError SetGprimAttrs := do
  let attrs ← ev.attrs.entries.mapM fun attr => do
    let value ← encodeAttrValueInner py attr.2
    return (attr.1, value)
  let time ← encodeTime py ev.time
  return {
    prim := ev.prim
    attrs := attrs
    primvarMeta := ev.primvarMeta.entries.map fun entry => (entry.1, entry.2.written)
    attrInterp := ev.attrInterp.entries
    time := time }

def dictSetGprimAttrs (py : Runtime) (sg : SetGprimAttrs) (numpyArrays : Bool) :
    Except PyError DecodedGprimAttrs := do
  let attrs ← sg.attrs.mapM fun attr => do
    let value ← attrValueToPython py attr.2 numpyArrays
    return (attr.1, value)
  return {
    prim := sg.prim
    attrs := OrderedDict.ofEntries attrs
    primvarMeta := OrderedDict.ofEntries sg.primvarMeta
    attrInterp := OrderedDict.ofEntries sg.attrInterp
    time := sg.time }

end UsdConnect
