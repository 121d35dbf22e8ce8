/-
Purpose: Encoder and decoder of `set_connectable_input` events.
Trusted boundary: as in UsdConnect.Codec.GprimAttrs
Main exports: ConnectableInputValue, encodeConnectableInputValue, encodeSetConnectableInput
-/
import UsdConnect.Codec.GprimAttrs

namespace UsdConnect

/-- Which field of a `ConnectableInputValue` is populated. -/
inductive ConnectableInputValueType
  | none
  | scalarFloat
  | scalarInt
  | scalarBool
  | scalarString
  | floatArray
  | intArray
  | stringArray
deriving DecidableEq, Repr

/-- The input value table with its defaults. -/
structure ConnectableInputValue where
  name : String
  typeName : String
  valueType : ConnectableInputValueType := .none
  scalarFloat : FloatValue := .finite 0
  scalarInt : Int := 0
  scalarBool : Bool := false
  scalarString : String := ""
  floatArray : List FloatValue := []
  intArray : List Int := []
  stringArray : List String := []
deriving DecidableEq, Repr

/-- Declared USD types whose numeric payloads travel in the float wire slots. -/
def floatWireTypes : List String :=
  ["float", "double", "color3f", "float3", "normal3f", "point3f", "vector3f", "color3d", "double3",
    "normal3d", "point3d", "vector3d", "float2", "texCoord2f", "double2", "float4", "color4f",
    "double4", "matrix2d", "matrix3d", "matrix4d", "float[]"]

/-- The text of a `str`. -/
def PyValue.string? : PyValue → Option String
  | .text value => some value
  | _ => none

/-- `int(item)` of an `int` or `np.integer` that is no bool. -/
def PyValue.integer? : PyValue → Option Int
  | .int value => some value
  | .numpyInt value => some value
  | _ => none

/-- What iterating over a list or an array yields; a row of an array has no number. -/
def PyValue.sequence? : PyValue → Option (List PyValue)
  | .list items => some items
  | .array view =>
      match view.shape with
      | [_] => some view.data.elements
      | 0 :: _ => some []
      | _ => some [.array view]
  | _ => none

/-! ### Encoding -/

/-- The slot of a sequence: strings, integers that are not declared as floats, or floats. -/
def encodeSequence (py : Runtime) (floatDeclared : Bool) (items : List PyValue)
    (table : ConnectableInputValue) : Except PyError ConnectableInputValue :=
  if items ≠ [] ∧ ∀ item ∈ items, item.string?.isSome then
    .ok { table with valueType := .stringArray, stringArray := items.filterMap PyValue.string? }
  else if floatDeclared = false ∧ ∀ item ∈ items, item.integer?.isSome then do
    let vector ← createIntVector py ((items.filterMap PyValue.integer?).map .int)
    return { table with valueType := .intArray, intArray := vector }
  else do
    -- `astype(np.float64)` makes of an array's elements what `float(item)` does
    let doubles ← items.mapM (PyValue.toFloat py)
    let vector ← createFloatVector py (doubles.map .float)
    return { table with valueType := .floatArray, floatArray := vector }

/-- One wire slot is selected; a value without one leaves the table without a value. -/
def encodeConnectableInputValue (py : Runtime) (name typeName : String) (value : PyValue) :
    Except PyError ConnectableInputValue :=
  let floatDeclared := decide (typeName ∈ floatWireTypes)
  let table : ConnectableInputValue := { name := name, typeName := typeName }
  match value with
  | .bool value => .ok { table with valueType := .scalarBool, scalarBool := value }
  | .int value =>
      if floatDeclared then do
        let double ← intToDouble value
        let packed ← packFloat32 double
        return { table with valueType := .scalarFloat, scalarFloat := packed }
      else do
        let packed ← packInt32 value
        return { table with valueType := .scalarInt, scalarInt := packed }
  | .float value => do
      let packed ← packFloat32 value
      return { table with valueType := .scalarFloat, scalarFloat := packed }
  | .numpyDouble value => do
      let packed ← packFloat32 value
      return { table with valueType := .scalarFloat, scalarFloat := packed }
  | .text value => .ok { table with valueType := .scalarString, scalarString := value }
  | other =>
      match other.sequence? with
      | some items => encodeSequence py floatDeclared items table
      | none => .ok table

/-! ### Decoding -/

/-- The decoded value, if the table has one. -/
def ConnectableInputValue.value? (civ : ConnectableInputValue) : Option PyValue :=
  match civ.valueType with
  | .floatArray => some (.list (civ.floatArray.map .float))
  | .intArray => some (.list (civ.intArray.map .int))
  | .stringArray => some (.list (civ.stringArray.map .text))
  | .scalarString => some (.text civ.scalarString)
  | .scalarBool => some (.bool civ.scalarBool)
  | .scalarInt => some (.int civ.scalarInt)
  | .scalarFloat => some (.float civ.scalarFloat)
  | .none => none

/-! ### Events -/

/-- A `set_connectable_input` event; undeclared inputs have the type `""`. -/
structure ConnectableInputEvent where
  prim : String
  infoId : String
  inputs : OrderedDict String PyValue
  inputTypes : OrderedDict String String := {}
  time : Option PyValue := none

/-- The type an input travels with. -/
def ConnectableInputEvent.declared (ev : ConnectableInputEvent) (name : String) : String :=
  (ev.inputTypes.get? name).getD ""

/-- The `SetConnectableInput` table. -/
structure SetConnectableInput where
  prim : String
  infoId : String
  inputs : List ConnectableInputValue
  time : Option FloatValue

structure DecodedConnectableInput where
  prim : String
  infoId : String
  inputs : OrderedDict String PyValue
  inputTypes : OrderedDict String String
  time : Option FloatValue

def encodeSetConnectableInput (py : Runtime) (ev : ConnectableInputEvent) :
    Except PyError SetConnectableInput := do
  let inputs ← ev.inputs.entries.mapM fun input =>
    encodeConnectableInputValue py input.1 (ev.declared input.1) input.2
  let time ← encodeTime py ev.time
  return { prim := ev.prim, infoId := ev.infoId, inputs := inputs, time := time }

/-- An entry without a value keeps its type name and no value. -/
def dictSetConnectableInput (sci : SetConnectableInput) : DecodedConnectableInput where
  prim := sci.prim
  infoId := sci.infoId
  inputs := OrderedDict.ofEntries (sci.inputs.filterMap fun civ =>
    civ.value?.map fun value => (civ.name, value))
  inputTypes := OrderedDict.ofEntries (sci.inputs.map fun civ => (civ.name, civ.typeName))
  time := sci.time

end UsdConnect
