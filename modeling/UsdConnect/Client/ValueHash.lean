/-
Purpose: Fingerprints of transport values, and the three places where the emitter compares them with
  those of what it sent.
Trusted boundary: the hashes of strings, bytes and tuples; `usd_value_to_python` yields no dictionary
Main exports: TransportValue, valueHash, TransportValue.Confused, buildDefaultGprimEvent
-/
import UsdConnect.Client.TimeSamples
import UsdConnect.Lib.NumberHash

namespace UsdConnect

open NumberHash

/-! ### Transport values -/

/-- A NumPy array with what `tobytes` reads.  The memory of an array of objects holds their addresses,
and the objects are given by their texts. -/
structure MemoryArray where
  shape : List Nat
  dtype : String
  memory : List UInt8
  objects : List String := []
  deriving DecidableEq

/-- What `usd_value_to_python` returns, other than `None`. -/
inductive TransportValue where
  | bool (value : Bool)
  | int (value : Int)
  | real (value : Double)
  | text (value : String)
  | list (items : List TransportValue)
  | array (value : MemoryArray)

/-- Forms of the values of one attribute. -/
inductive TransportType where
  | bool
  | int
  | real
  | text
  | list (item : TransportType)
  | array

namespace TransportValue

/-- The value has the form. -/
def HasType : TransportType → TransportValue → Prop
  | .bool, .bool _ => True
  | .int, .int _ => True
  | .real, .real _ => True
  | .text, .text _ => True
  | .list item, .list items => ∀ value ∈ items, HasType item value
  | .array, .array _ => True
  | _, _ => False

/-- One value; a NaN is the same wherever it lies. -/
inductive Same : TransportValue → TransportValue → Prop
  | bool (value : Bool) : Same (.bool value) (.bool value)
  | int (value : Int) : Same (.int value) (.int value)
  | real {first second : Double} : first.Same second → Same (.real first) (.real second)
  | text (value : String) : Same (.text value) (.text value)
  | list {items others : List TransportValue} :
      List.Forall₂ Same items others → Same (.list items) (.list others)
  | array (value : MemoryArray) : Same (.array value) (.array value)

/-- The values agree but for numbers that are confused modulo 2^61 - 1, and for objects that an array
holds at the same addresses. -/
inductive Confused : TransportValue → TransportValue → Prop
  | bool (value : Bool) : Confused (.bool value) (.bool value)
  | int {first second : Int} : NumberHash.Confused (first : Dyadic) (second : Dyadic) →
      Confused (.int first) (.int second)
  | real {first second : Double} : first.Confused second → Confused (.real first) (.real second)
  | text (value : String) : Confused (.text value) (.text value)
  | list {items others : List TransportValue} :
      List.Forall₂ Confused items others → Confused (.list items) (.list others)
  | array {first second : MemoryArray} : first.shape = second.shape →
      first.dtype = second.dtype → first.memory = second.memory →
        Confused (.array first) (.array second)

end TransportValue

/-! ### Fingerprints -/

/-- The interpreter's hashes of strings, of bytes, and of tuples by the integers they hold or the
hashes of their items.  None is -1. -/
structure PythonHash where
  text : String → Int
  bytes : List UInt8 → Int
  tuple : List Int → Int
  text_ne : ∀ value, text value ≠ -1
  bytes_ne : ∀ value, bytes value ≠ -1
  tuple_ne : ∀ items, tuple items ≠ -1

/-- No two strings, byte strings or tuples of integers collide.  The integer -1 is not looked at: it
hashes as -2 does. -/
structure PythonHash.CollisionFree (py : PythonHash) : Prop where
  text : Function.Injective py.text
  bytes : Function.Injective py.bytes
  tuple : ∀ items others, -1 ∉ items → -1 ∉ others → py.tuple items = py.tuple others →
    items = others

/-- `hash((val.shape, val.dtype.str, val.tobytes()))`. -/
def arrayHash (py : PythonHash) (value : MemoryArray) : Int :=
  py.tuple [py.tuple (value.shape.map Int.ofNat), py.text value.dtype,
    py.bytes value.memory]

mutual

/-- `_value_hash`. -/
def valueHash (py : PythonHash) : TransportValue → Int
  | .bool value => if value then 1 else 0
  | .int value => hashNumber value
  | .real value => value.hash
  | .text value => py.text value
  | .list items => py.tuple (valueHashes py items)
  | .array value => arrayHash py value

def valueHashes (py : PythonHash) : List TransportValue → List Int
  | [] => []
  | value :: rest => valueHash py value :: valueHashes py rest

end

theorem valueHashes_eq_map (py : PythonHash) (items : List TransportValue) :
    valueHashes py items = items.map (valueHash py) := by
  induction items with
  | nil => rfl
  | cons value rest ih => rw [valueHashes, ih, List.map_cons]

/-! ### Default values -/

/-- An attribute that the build looks at: whether the generic reader handles it, whether its value goes
as an exact field, and its local default in transport form, if it has one. -/
structure DefaultAttribute where
  name : String
  generic : Bool
  needsSdf : Bool
  default : Option (Option TransportValue)

/-- The changed values, and the fingerprints that remain of those that were sent. -/
structure GprimDelta where
  changed : List (String × TransportValue) := []
  previous : OrderedDict String Int

/-- One attribute of the loop. -/
def visitDefault (py : PythonHash) (delta : GprimDelta) (attr : DefaultAttribute) :
    GprimDelta :=
  if !attr.generic then delta
  else
    match attr.default with
    -- a clear must forget the fingerprint, so that the value is sent again
    | none => { delta with previous := delta.previous.pop attr.name }
    | some transport =>
        if attr.needsSdf then delta
        else
          match transport with
          | none => { delta with previous := delta.previous.pop attr.name }
          | some value =>
              if delta.previous.get? attr.name = some (valueHash py value) then delta
              else { delta with changed := delta.changed ++ [(attr.name, value)] }

/-- `_build_default_gprim_event`: the changed attributes and the new fingerprints. -/
def buildDefaultGprimEvent (py : PythonHash) (previous : OrderedDict String Int)
    (attributes : List DefaultAttribute) : GprimDelta :=
  let delta := attributes.foldl (visitDefault py) { previous }
  { delta with
    previous := delta.changed.foldl
      (fun cache entry => cache.set entry.1 (valueHash py entry.2)) delta.previous }

/-! ### Instancer channel -/

/-- `PointInstancerChannel.cache_snapshot`. -/
def cacheSnapshot (py : PythonHash) (current : OrderedDict String TransportValue) :
    OrderedDict String Int :=
  .ofEntries (current.entries.map fun entry => (entry.1, valueHash py entry.2))

/-- `PointInstancerChannel.diff_and_snapshot`. -/
def diffAndSnapshot (py : PythonHash) (current : OrderedDict String TransportValue)
    (cached : OrderedDict String Int) :
    Option (List (String × TransportValue)) × OrderedDict String Int :=
  let changed := current.entries.filter fun entry =>
    cached.get? entry.1 ≠ some (valueHash py entry.2)
  (if changed.isEmpty then none else some changed, cacheSnapshot py current)

/-! ### What the claim is about -/

/-- A value after one that was sent has another fingerprint, and the default reader, the instancer
channel and the sample diff send it. -/
structure NeverDrops (py : PythonHash) (sent value : TransportValue) : Prop where
  fingerprint : valueHash py sent ≠ valueHash py value
  gprim : ∀ previous attributes attr, attr ∈ attributes →
    (attributes.map DefaultAttribute.name).Nodup → attr.generic = true →
      attr.needsSdf = false → attr.default = some (some value) →
        previous.get? attr.name = some (valueHash py sent) →
          (attr.name, value) ∈ (buildDefaultGprimEvent py previous attributes).changed
  instancer : ∀ current cached name, current.get? name = some value →
    cached.get? name = some (valueHash py sent) →
      ∃ changed, (diffAndSnapshot py current cached).1 = some changed ∧ (name, value) ∈ changed
  samples : ∀ (Value : Type) (convert : Value → Option TransportValue) (table : SampleTable Value)
    (cached : SampleCache Int) time raw, table.get? time = some raw → convert raw = some value →
      cached.get? time = some (some (valueHash py sent)) →
        (time, value) ∈ (diffTimeSamples convert (valueHash py) table cached).dirty

end UsdConnect
