/-
Purpose: The Python and NumPy values that events carry, with the conversions the codec asks for:
  `float(v)`, `np.asarray(.., dtype)`, `astype`, `tolist` and JSON text.
Trusted boundary: what the interpreter, NumPy and the platform leave open is a `Runtime`; a JSON
  text is represented by the value it denotes
Main exports: PyValue, NdArray, Runtime, PyValue.toFloat, PyValue.asFloat32, PyValue.asInt32
-/
import UsdConnect.Lib.FloatFormat

namespace UsdConnect

/-- Exceptions of an encoder or a decoder. -/
inductive PyError
  | typeError
  | valueError
  | overflowError
  | structError
deriving DecidableEq, Repr

/-- Elements of an array by dtype kind: `b`, `i` or `u`, `f`, `U` and `S`.  Bytes are given by the
Latin-1 text they spell. -/
inductive ArrayData
  | bools (items : List Bool)
  | ints (items : List Int)
  | floats (items : List FloatValue)
  | texts (items : List String)
  | bytes (items : List String)
deriving DecidableEq, Repr

def ArrayData.length : ArrayData → Nat
  | .bools items => items.length
  | .ints items => items.length
  | .floats items => items.length
  | .texts items => items.length
  | .bytes items => items.length

/-- An array with at least one dimension, its elements in C order. -/
structure NdArray where
  shape : List Nat
  data : ArrayData
  dims : shape ≠ []
  sized : data.length = shape.prod
deriving DecidableEq, Repr

/-- `numpyDouble` is `np.float64`, a subclass of `float`; `numpyInt` and `numpyFloat` are the other
NumPy integers and reals. -/
inductive PyValue
  | bool (value : Bool)
  | int (value : Int)
  | float (value : FloatValue)
  | numpyDouble (value : FloatValue)
  | numpyInt (value : Int)
  | numpyFloat (value : FloatValue)
  | text (value : String)
  | bytes (value : String)
  | list (items : List PyValue)
  | array (value : NdArray)

/-- What the interpreter, NumPy and the platform decide. -/
structure Runtime where
  /-- `float(text)`, also of bytes. -/
  floatOfText : String → Option FloatValue
  /-- `int(text)`, also of bytes. -/
  intOfText : String → Option Int
  /-- C conversion to a 32-bit integer of a real that is out of its range. -/
  castBeyond : FloatValue → Int
  /-- Width of a C `long`. -/
  longBits : Nat
  wide : 32 ≤ longBits
  /-- A float vector read behind its end. -/
  floatBeyond : Nat → Except PyError FloatValue
  /-- An integer vector read behind its end. -/
  intBeyond : Nat → Except PyError Int

/-! ### Arrays -/

/-- Python objects of the elements, as `tolist` makes them. -/
def ArrayData.items : ArrayData → List PyValue
  | .bools items => items.map .bool
  | .ints items => items.map .int
  | .floats items => items.map .float
  | .texts items => items.map .text
  | .bytes items => items.map .bytes

/-- NumPy objects of the elements, as iteration yields them. -/
def ArrayData.elements : ArrayData → List PyValue
  | .bools items => items.map .bool
  | .ints items => items.map .numpyInt
  | .floats items => items.map .numpyFloat
  | .texts items => items.map .text
  | .bytes items => items.map .bytes

/-- Nested lists of a shape from items in C order. -/
def nest : List Nat → List PyValue → PyValue
  | [], items => items.headD (.list [])
  | rows :: inner, items =>
      .list ((List.range rows).map fun row =>
        nest inner ((items.drop (row * inner.prod)).take inner.prod))

/-- `arr.tolist()`. -/
def NdArray.toList (array : NdArray) : PyValue :=
  nest array.shape array.data.items

def NdArray.size (array : NdArray) : Nat :=
  array.data.length

/-- A list in the place of an array. -/
def PyValue.nested : PyValue → PyValue
  | .array view => view.toList
  | value => value

/-! ### Numbers -/

/-- The number a value stands for; booleans are integers. -/
def PyValue.number? : PyValue → Option FloatValue
  | .bool value => some (.finite (if value then 1 else 0))
  | .int value => some (.finite value)
  | .numpyInt value => some (.finite value)
  | .float value => some value
  | .numpyDouble value => some value
  | .numpyFloat value => some value
  | _ => none

/-- The number of a value of a real type. -/
def PyValue.real? : PyValue → Option FloatValue
  | .float value => some value
  | .numpyDouble value => some value
  | .numpyFloat value => some value
  | _ => none

/-- `isinstance(value, float)`. -/
def PyValue.isFloat : PyValue → Bool
  | .float _ => true
  | .numpyDouble _ => true
  | _ => false

/-- `isinstance(value, int)` for a value that is no bool. -/
def PyValue.isInt : PyValue → Bool
  | .int _ => true
  | _ => false

/-- `isinstance(value, (int, float))`. -/
def PyValue.isPythonNumber : PyValue → Bool
  | .bool _ => true
  | value => value.isInt || value.isFloat

/-- A Python integer as a float; one too large raises. -/
def intToDouble (number : Int) : Except PyError FloatValue :=
  match binary64.round number with
  | .infinite _ => .error .overflowError
  | rounded => .ok rounded

/-- `float(value)`. -/
def PyValue.toFloat (py : Runtime) : PyValue → Except PyError FloatValue
  | .bool value => .ok (.finite (if value then 1 else 0))
  | .int value => intToDouble value
  | .float value => .ok value
  | .numpyDouble value => .ok value
  | .numpyInt value => .ok (binary64.round value)
  | .numpyFloat value => .ok (binary64.convert value)
  | .text value => (py.floatOfText value).elim (.error .valueError) .ok
  | .bytes value => (py.floatOfText value).elim (.error .valueError) .ok
  | .list _ => .error .typeError
  | .array _ => .error .typeError

/-- One item of `np.asarray(items, dtype=np.float32)`. -/
def PyValue.asFloat32 (py : Runtime) : PyValue → Except PyError FloatValue
  | .bool value => .ok (.finite (if value then 1 else 0))
  | .int value => binary32.convert <$> intToDouble value
  | .float value => .ok (binary32.convert value)
  | .numpyDouble value => .ok (binary32.convert value)
  | .numpyInt value => .ok (binary32.round value)
  | .numpyFloat value => .ok (binary32.convert value)
  | .text value => (py.floatOfText value).elim (.error .valueError) fun number =>
      .ok (binary32.convert number)
  | .bytes value => (py.floatOfText value).elim (.error .valueError) fun number =>
      .ok (binary32.convert number)
  | .list _ => .error .valueError
  | .array _ => .error .valueError

/-- A Python integer read through a C `long` and stored in 32 bits. -/
def throughLong (py : Runtime) (number : Int) : Except PyError Int :=
  if FitsSigned py.longBits number then .ok (wrapSigned 32 number) else .error .overflowError

/-- C conversion of a real to a 32-bit integer. -/
def castToInt32 (py : Runtime) (real : FloatValue) : Int :=
  match real with
  | .finite number =>
      if FitsSigned 32 (truncate number) then truncate number
      else wrapSigned 32 (py.castBeyond real)
  | _ => wrapSigned 32 (py.castBeyond real)

/-- One item of `np.asarray(items, dtype=np.int32)`. -/
def PyValue.asInt32 (py : Runtime) : PyValue → Except PyError Int
  | .bool value => .ok (if value then 1 else 0)
  | .int value => if FitsSigned 32 value then .ok value else .error .overflowError
  | .float (.finite value) => throughLong py (truncate value)
  | .float (.infinite _) => .error .overflowError
  | .float .nan => .error .valueError
  | .numpyDouble value => .ok (castToInt32 py value)
  | .numpyInt value => .ok (wrapSigned 32 value)
  | .numpyFloat value => .ok (castToInt32 py value)
  | .text value => (py.intOfText value).elim (.error .valueError) (throughLong py)
  | .bytes value => (py.intOfText value).elim (.error .valueError) (throughLong py)
  | .list _ => .error .valueError
  | .array _ => .error .valueError

/-! ### JSON text -/

/-- The value a JSON text denotes. -/
inductive Json
  | bool (value : Bool)
  | int (value : Int)
  | float (value : FloatValue)
  | text (value : String)
  | list (items : List Json)

/-- Decimal digits an integer may have in a text. -/
def intMaxStrDigits : Nat := 4300

@[irreducible] def dumpsInt (number : Int) : Except PyError Json :=
  if number.natAbs < 10 ^ intMaxStrDigits then .ok (.int number) else .error .valueError

mutual

/-- `json.dumps(value)`. -/
def PyValue.dumps : PyValue → Except PyError Json
  | .bool value => .ok (.bool value)
  | .int value => dumpsInt value
  | .float value => .ok (.float value)
  | .numpyDouble value => .ok (.float value)
  | .text value => .ok (.text value)
  | .list items => Json.list <$> PyValue.dumpsAll items
  | .numpyInt _ => .error .typeError
  | .numpyFloat _ => .error .typeError
  | .bytes _ => .error .typeError
  | .array _ => .error .typeError

def PyValue.dumpsAll : List PyValue → Except PyError (List Json)
  | [] => .ok []
  | value :: rest => do
      let first ← value.dumps
      let others ← PyValue.dumpsAll rest
      return first :: others

end

mutual

/-- `json.loads(text)`. -/
def Json.loads : Json → PyValue
  | .bool value => .bool value
  | .int value => .int value
  | .float value => .float value
  | .text value => .text value
  | .list items => .list (Json.loadsAll items)

def Json.loadsAll : List Json → List PyValue
  | [] => []
  | value :: rest => value.loads :: Json.loadsAll rest

end

/-! ### Equal values -/

/-- Python's equality of a value and what a decoder returned, up to rounding of reals to float32.
Arrays are compared by their nested lists. -/
inductive SameValue : PyValue → PyValue → Prop
  | number {value decoded : PyValue} {number : FloatValue} :
      value.number? = some number → decoded.number? = some number → SameValue value decoded
  | rounded {value : PyValue} {real : FloatValue} :
      value.real? = some real → SameValue value (.float (binary32.convert real))
  | text (value : String) : SameValue (.text value) (.text value)
  | list {items decoded : List PyValue} :
      List.Forall₂ SameValue items decoded → SameValue (.list items) (.list decoded)
  | array {array : NdArray} {decoded : PyValue} :
      SameValue array.toList decoded → SameValue (.array array) decoded

end UsdConnect
