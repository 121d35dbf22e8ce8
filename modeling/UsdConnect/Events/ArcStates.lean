/-
Purpose: Reference and payload events as dictionaries: their validation, their canonical list-op state,
  its reading from and writing to a prim spec, and their table on the wire.
Trusted boundary: paths and custom data of Sdf are a parameter; a list op stores each bucket, and an
  item its asset path, as given;
  texts of other types than `str` are refused by the validator; offsets are Python or NumPy numbers
Main exports: ArcEvent, validateArcEvent, canonicalArcState, readArcState, applyArcState
-/
import UsdConnect.Codec.PythonValue
import UsdConnect.Events.Apply
import UsdConnect.Lib.Buckets

namespace UsdConnect.SdfArcState

/-- Exceptions: a `ValueError` or `ProtocolError` with its text, one of a number, a `KeyError`. -/
inductive ArcError where
  | refused (message : String)
  | number (error : PyError)
  | missingKey
deriving DecidableEq, Repr

/-- What is used of Sdf: reference custom data with its text form, and paths. -/
structure Sdf where
  CustomData : Type
  empty : CustomData
  isEmpty : CustomData → Bool
  /-- The `customLayerData` of an imported layer text. -/
  importFromString : String → Option CustomData
  exportToString : CustomData → String
  Path : Type
  emptyPath : Path
  path : String → Path
  isEmptyPath : Path → Bool
  pathText : Path → String
  /-- `_require_prim_path(value, "arc prim_path")`. -/
  requirePrimPath : String → Except String Unit

/-- What Sdf documents of them. -/
structure Sdf.Documented (sdf : Sdf) : Prop where
  emptyData : sdf.isEmpty sdf.empty = true
  /-- Custom data that was imported is imported again from its export. -/
  exported : ∀ text data, sdf.importFromString text = some data → sdf.isEmpty data = false →
    sdf.importFromString (sdf.exportToString data) = some data
  exportText : ∀ data, sdf.exportToString data ≠ ""
  /-- A layer text starts with its header. -/
  header : sdf.importFromString "None" = none
  noPath : sdf.isEmptyPath sdf.emptyPath = true
  /-- An absolute prim path is printed as it was written. -/
  primPaths : ∀ text, sdf.requirePrimPath text = .ok () →
    sdf.isEmptyPath (sdf.path text) = false ∧ sdf.pathText (sdf.path text) = text

/-! ### Events -/

/-- What a dictionary has under a text key: nothing, `None`, or a string. -/
inductive TextEntry where
  | absent
  | null
  | text (value : String)
deriving DecidableEq, Repr

namespace TextEntry

/-- `entry.get(key) is None`. -/
def isNone : TextEntry → Bool
  | .text _ => false
  | _ => true

/-- `str(entry.get(key, ""))`. -/
def str : TextEntry → String
  | .absent => ""
  | .null => "None"
  | .text value => value

/-- The string of a key that is there and not empty, as the encoder asks for it. -/
def truthy : TextEntry → Option String
  | .text value => if value = "" then none else some value
  | _ => none

end TextEntry

/-- A key that is only written with a value. -/
def writeText (value : String) : TextEntry :=
  if value = "" then .absent else .text value

/-- One entry of `refs` or `payloads`. -/
structure ArcEntry where
  assetPath : TextEntry := .absent
  primPath : TextEntry := .absent
  listPosition : Option String := none
  layerOffset : Option PyValue := none
  layerScale : Option PyValue := none
  customDataFragment : TextEntry := .absent

/-- The list op of a `set_reference` or `set_payload` event. -/
structure ArcEvent where
  arcs : List ArcEntry
  listOpAuthored : Option Bool := none
  listOpExplicit : Option Bool := none

/-- A canonical or read state. -/
structure ArcStateDict where
  entries : List ArcEntry := []
  listOpAuthored : Bool := false
  listOpExplicit : Bool := false

/-- `entry.get("list_position", ...)`. -/
def ArcEntry.position (entry : ArcEntry) (explicit : Bool) : String :=
  entry.listPosition.getD (if explicit then "explicit" else "prepended")

def ArcEvent.explicit (event : ArcEvent) : Bool := event.listOpExplicit.getD false

def ArcEvent.authored (event : ArcEvent) : Bool :=
  event.listOpAuthored.getD (!event.arcs.isEmpty || event.explicit)

section Functions

variable (sdf : Sdf) (py : Runtime)

/-- `float(entry.get(key, default))`. -/
def floatOr (default : Rat) : Option PyValue → Except ArcError FloatValue
  | none => .ok (.finite default)
  | some value => (value.toFloat py).mapError .number

/-- `deserialize_reference_custom_data`. -/
def deserializeReferenceCustomData (fragment : String) : Except ArcError sdf.CustomData :=
  if fragment = "" then .ok sdf.empty
  else
    match sdf.importFromString fragment with
    | none => .error (.refused "invalid reference custom-data fragment")
    | some data => .ok data

/-- `serialize_reference_custom_data` without a source layer. -/
def serializeReferenceCustomData (data : sdf.CustomData) : String :=
  if sdf.isEmpty data then "" else sdf.exportToString data

/-! ### Validation -/

/-- `_is_finite_number`; an integer that is too large raises. -/
def isFiniteNumber (value : PyValue) : Except ArcError Bool :=
  match value with
  | .bool _ | .text _ | .bytes _ | .list _ | .array _ => .ok false
  | value => do
      let number ← floatOr py 0 (some value)
      match number with
      | .finite _ => return true
      | _ => return false

/-- `_require_finite(entry.get(field, default), field)`. -/
def requireFinite (field : String) : Option PyValue → Except ArcError Unit
  | none => .ok ()
  | some value => do
      if ← isFiniteNumber py value then return ()
      else .error (.refused (field ++ " must be a finite number"))

/-- `_require_prim_path` of a path that is there. -/
def requireArcPrimPath : TextEntry → Except ArcError Unit
  | .text primPath => (sdf.requirePrimPath primPath).mapError .refused
  | _ => .ok ()

/-- The check of a fragment that is there. -/
def requireFragment (references : Bool) : TextEntry → Except ArcError Unit
  | .text fragment =>
      if !references ∨ fragment = "" then
        .error (.refused "only references may carry non-empty custom data")
      else do
        let _ ← deserializeReferenceCustomData sdf fragment
        return ()
  | _ => .ok ()

/-- The checks of one entry. -/
def validateArcEntry (explicit references : Bool) (entry : ArcEntry) : Except ArcError Unit :=
  if entry.assetPath.isNone ∧ entry.primPath.isNone then
    .error (.refused "an arc entry requires an asset_path or prim_path")
  else if entry.assetPath = .text "" ∧ entry.primPath.isNone then
    .error (.refused "an empty arc asset_path requires an internal prim_path")
  else do
    requireArcPrimPath sdf entry.primPath
    if entry.position explicit ∉ arcListPositions ∨
        explicit ≠ decide (entry.position explicit = "explicit") then
      .error (.refused "arc list position does not match the list-op mode")
    else do
      requireFinite py "layer_offset" entry.layerOffset
      requireFinite py "layer_scale" entry.layerScale
      requireFragment sdf references entry.customDataFragment

/-- `_validate_arc_event`. -/
def validateArcEvent (references : Bool) (event : ArcEvent) : Except ArcError Unit :=
  if !event.authored ∧ (event.arcs ≠ [] ∨ event.explicit) then
    .error (.refused "an unauthored list op cannot contain entries or be explicit")
  else do
    let _ ← event.arcs.mapM (validateArcEntry sdf py event.explicit references)
    return ()

/-! ### The canonical state -/

/-- Backslashes written as slashes. -/
def slashes (path : String) : String :=
  String.ofList (path.toList.map fun letter => if letter = Char.ofNat 92 then '/' else letter)

/-- A number that is only written when it is not the default. -/
def writeNumber (default : Rat) (number : FloatValue) : Option PyValue :=
  if number = .finite default then none else some (.float number)

/-- The custom data of `_canonical_entry`. -/
def canonicalCustomData (references : Bool) (fragment : String) : Except ArcError TextEntry :=
  if fragment = "" then .ok .absent
  else if !references then
    .error (.refused "payload entries cannot carry reference custom data")
  else do
    let data ← deserializeReferenceCustomData sdf fragment
    return writeText (serializeReferenceCustomData sdf data)

/-- `_canonical_entry`. -/
def canonicalEntry (explicit references : Bool) (entry : ArcEntry) : Except ArcError ArcEntry :=
  let position := entry.position explicit
  if position ∉ arcListPositions then .error (.refused "invalid arc list position")
  else if explicit ∧ position ≠ "explicit" then
    .error (.refused "explicit list ops cannot contain non-explicit entries")
  else if ¬ explicit ∧ position = "explicit" then
    .error (.refused "non-explicit list ops cannot contain explicit entries")
  else do
    let offset ← floatOr py 0 entry.layerOffset
    let scale ← floatOr py 1 entry.layerScale
    let fragment ← canonicalCustomData sdf references entry.customDataFragment.str
    return {
      assetPath := writeText (slashes entry.assetPath.str)
      primPath := writeText entry.primPath.str
      listPosition := if !explicit && position ≠ "prepended" then some position else none
      layerOffset := writeNumber 0 offset
      layerScale := writeNumber 1 scale
      customDataFragment := fragment }

/-- Entries in the order of the buckets. -/
def sortEntries (entries : List ArcEntry) : List ArcEntry :=
  bucketed (fun entry : ArcEntry => entry.position false) listOpPositions entries

/-- `canonical_arc_state`. -/
def canonicalArcState (entries : List ArcEntry) (authored : Option Bool)
    (explicit references : Bool) : Except ArcError ArcStateDict :=
  let authored := authored.getD (!entries.isEmpty || explicit)
  if !authored ∧ (entries ≠ [] ∨ explicit) then
    .error (.refused "an unauthored list op cannot contain entries or be explicit")
  else do
    let normalized ← entries.mapM (canonicalEntry sdf py explicit references)
    return {
      entries := if explicit then normalized else sortEntries normalized
      listOpAuthored := authored
      listOpExplicit := explicit }

/-- The canonical state of an event, as appliers and dispatchers ask for it. -/
def ArcEvent.canonical (references : Bool) (event : ArcEvent) : Except ArcError ArcStateDict :=
  canonicalArcState sdf py event.arcs event.listOpAuthored event.explicit references

/-! ### List ops -/

/-- `Sdf.Reference` or `Sdf.Payload`. -/
structure SdfArcItem where
  assetPath : String
  primPath : sdf.Path
  layerOffset : FloatValue
  layerScale : FloatValue
  customData : sdf.CustomData

/-- A list op with the items of each position. -/
structure ListOp (Item : Type) where
  isExplicit : Bool := false
  items : String → List Item := fun _ => []

/-- Setting one of its item lists; the lists of the other mode are dropped. -/
def ListOp.set {Item : Type} (listOp : ListOp Item) (position : String) (items : List Item) :
    ListOp Item where
  isExplicit := position = "explicit"
  items := fun other =>
    if other = position then items
    else if listOp.isExplicit = decide (position = "explicit") then listOp.items other
    else []

/-- The two list-op fields of a prim spec. -/
structure ArcSpec where
  references : Option (ListOp (SdfArcItem sdf)) := none
  payload : Option (ListOp (SdfArcItem sdf)) := none

/-- `_arc_field` of a spec. -/
def ArcSpec.field {sdf : Sdf} (spec : ArcSpec sdf) (references : Bool) :
    Option (ListOp (SdfArcItem sdf)) :=
  if references then spec.references else spec.payload

/-- `SetInfo` and `ClearInfo`. -/
def ArcSpec.setField {sdf : Sdf} (spec : ArcSpec sdf) (references : Bool)
    (value : Option (ListOp (SdfArcItem sdf))) : ArcSpec sdf :=
  if references then { spec with references := value } else { spec with payload := value }

/-- One entry of `read_arc_state`. -/
def readEntry (explicit references : Bool) (position : String) (item : SdfArcItem sdf) :
    ArcEntry where
  assetPath := writeText (slashes item.assetPath)
  primPath := if sdf.isEmptyPath item.primPath then .absent else .text (sdf.pathText item.primPath)
  listPosition := if !explicit && position ≠ "prepended" then some position else none
  layerOffset := writeNumber 0 item.layerOffset
  layerScale := writeNumber 1 item.layerScale
  customDataFragment :=
    if references && !sdf.isEmpty item.customData then
      .text (serializeReferenceCustomData sdf item.customData)
    else .absent

/-- `read_arc_state`, without a resolver, of the spec at a path. -/
def readArcState (spec : Option (ArcSpec sdf)) (references : Bool) : ArcStateDict :=
  match spec.bind fun spec => spec.field references with
  | none => {}
  | some listOp =>
      let buckets := if listOp.isExplicit then ["explicit"] else listOpPositions
      { entries := buckets.flatMap fun position =>
          (listOp.items position).map (readEntry sdf listOp.isExplicit references position)
        listOpAuthored := true
        listOpExplicit := listOp.isExplicit }

/-- The custom data of an item; payloads have none. -/
def itemCustomData (references : Bool) (fragment : String) : Except ArcError sdf.CustomData :=
  if references then deserializeReferenceCustomData sdf fragment else .ok sdf.empty

/-- `_sdf_arc_item`. -/
def sdfArcItem (references : Bool) (entry : ArcEntry) : Except ArcError (SdfArcItem sdf) := do
  let offset ← floatOr py 0 entry.layerOffset
  let scale ← floatOr py 1 entry.layerScale
  let customData ← itemCustomData sdf references entry.customDataFragment.str
  return {
    assetPath := entry.assetPath.str
    primPath := if entry.primPath.str = "" then sdf.emptyPath else sdf.path entry.primPath.str
    layerOffset := offset
    layerScale := scale
    customData := customData }

/-- The items of the entries at a position. -/
def itemsAt (entries : List ArcEntry) (items : List (SdfArcItem sdf)) (position : String) :
    List (SdfArcItem sdf) :=
  ((entries.zip items).filter fun pair => pair.1.position false = position).map (·.2)

/-- `apply_arc_state` at the spec its path maps to. -/
def applyArcState (spec : Option (ArcSpec sdf)) (entries : List ArcEntry) (authored : Option Bool)
    (explicit references : Bool) : Except ArcError (Option (ArcSpec sdf)) := do
  let state ← canonicalArcState sdf py entries authored explicit references
  if !state.listOpAuthored then return spec.map fun spec => spec.setField references none
  else
    let spec := spec.getD {}
    let items ← state.entries.mapM (sdfArcItem sdf py references)
    let listOp : ListOp (SdfArcItem sdf) :=
      if state.listOpExplicit then ListOp.set {} "explicit" items
      else listOpPositions.foldl
        (fun listOp position => listOp.set position (itemsAt sdf state.entries items position)) {}
    return some (spec.setField references (some listOp))

/-! ### The wire -/

/-- `ArcListPosition` of the schema. -/
inductive ArcListPositionType where
  | explicit
  | added
  | prepended
  | appended
  | deleted
  | ordered
deriving DecidableEq, Repr

/-- `_FB_TO_ARC_POSITION`. -/
def ArcListPositionType.text : ArcListPositionType → String
  | .explicit => "explicit"
  | .added => "added"
  | .prepended => "prepended"
  | .appended => "appended"
  | .deleted => "deleted"
  | .ordered => "ordered"

/-- `_ARC_POSITION_TO_FB`. -/
def arcPositionToFb (position : String) : Except ArcError ArcListPositionType :=
  if position = "explicit" then .ok .explicit
  else if position = "added" then .ok .added
  else if position = "prepended" then .ok .prepended
  else if position = "appended" then .ok .appended
  else if position = "deleted" then .ok .deleted
  else if position = "ordered" then .ok .ordered
  else .error .missingKey

/-- The `ArcEntry` table. -/
structure ArcEntryTable where
  assetPath : Option String
  primPath : Option String
  listPosition : ArcListPositionType
  layerOffset : FloatValue
  layerScale : FloatValue
  customDataFragment : Option String
deriving DecidableEq, Repr

/-- The list-op fields of a `SetReference` or `SetPayload` table. -/
structure ArcTable where
  arcs : List ArcEntryTable
  listOpAuthored : Bool
  listOpExplicit : Bool
deriving DecidableEq, Repr

/-- One entry of `_encode_arc_entries`. -/
def encodeArcEntry (explicit : Bool) (entry : ArcEntry) : Except ArcError ArcEntryTable := do
  let position ← arcPositionToFb (entry.position explicit)
  let offset ← floatOr py 0 entry.layerOffset
  let scale ← floatOr py 1 entry.layerScale
  return {
    assetPath := entry.assetPath.truthy
    primPath := entry.primPath.truthy
    listPosition := position
    layerOffset := offset
    layerScale := scale
    customDataFragment := entry.customDataFragment.truthy }

/-- `_encode_set_reference` and `_encode_set_payload`. -/
def encodeArcEvent (event : ArcEvent) : Except ArcError ArcTable := do
  let arcs ← event.arcs.mapM (encodeArcEntry py event.explicit)
  return { arcs := arcs, listOpAuthored := event.authored, listOpExplicit := event.explicit }

end Functions

/-- One entry of `_dict_arc_entries`. -/
def decodeArcEntry (explicit : Bool) (table : ArcEntryTable) : ArcEntry where
  assetPath := writeText (table.assetPath.getD "")
  primPath := writeText (table.primPath.getD "")
  listPosition :=
    if table.listPosition.text ≠ (if explicit then "explicit" else "prepended") then
      some table.listPosition.text
    else none
  layerOffset := writeNumber 0 table.layerOffset
  layerScale := writeNumber 1 table.layerScale
  customDataFragment := writeText (table.customDataFragment.getD "")

/-- `_dict_set_reference` and `_dict_set_payload`. -/
def decodeArcEvent (table : ArcTable) : ArcEvent where
  arcs := table.arcs.map (decodeArcEntry table.listOpExplicit)
  listOpAuthored := some table.listOpAuthored
  listOpExplicit := some table.listOpExplicit

/-! ### What makes a state canonical -/

/-- Another entry with some defaults written out. -/
structure ArcEntry.SpellsOut (explicit : Bool) (entry other : ArcEntry) : Prop where
  assetPath : other.assetPath = entry.assetPath ∨
    entry.assetPath = .absent ∧ other.assetPath = .text ""
  primPath : other.primPath = entry.primPath ∨
    entry.primPath = .absent ∧ other.primPath = .text ""
  listPosition : other.listPosition = entry.listPosition ∨ entry.listPosition = none ∧
    other.listPosition = some (if explicit then "explicit" else "prepended")
  layerOffset : other.layerOffset = entry.layerOffset ∨
    entry.layerOffset = none ∧ other.layerOffset = some (.float (.finite 0))
  layerScale : other.layerScale = entry.layerScale ∨
    entry.layerScale = none ∧ other.layerScale = some (.float (.finite 1))
  customDataFragment : other.customDataFragment = entry.customDataFragment ∨
    entry.customDataFragment = .absent ∧ other.customDataFragment = .text ""

/-- Another event with some defaults written out. -/
structure ArcEvent.SpellsOut (event other : ArcEvent) : Prop where
  arcs : List.Forall₂ (ArcEntry.SpellsOut event.explicit) event.arcs other.arcs
  listOpAuthored : other.listOpAuthored = event.listOpAuthored ∨
    event.listOpAuthored = none ∧ other.listOpAuthored = some event.authored
  listOpExplicit : other.listOpExplicit = event.listOpExplicit ∨
    event.listOpExplicit = none ∧ other.listOpExplicit = some false

/-- The same event but for the order of entries at different positions. -/
def ArcEvent.Reorders (event other : ArcEvent) : Prop :=
  other.listOpAuthored = event.listOpAuthored ∧ other.listOpExplicit = event.listOpExplicit ∧
    ∀ position, other.arcs.filter (fun entry => entry.position event.explicit = position) =
      event.arcs.filter fun entry => entry.position event.explicit = position

/-- The event has this canonical state, from whichever side it is looked at. -/
structure HasCanonicalState (sdf : Sdf) (py : Runtime) (references : Bool) (event : ArcEvent)
    (state : ArcStateDict) : Prop where
  canonical : event.canonical sdf py references = .ok state
  idempotent : canonicalArcState sdf py state.entries (some state.listOpAuthored)
    state.listOpExplicit references = .ok state
  reordered : ∀ other, event.Reorders other → other.canonical sdf py references = .ok state
  spelledOut : ∀ other, event.SpellsOut other → other.canonical sdf py references = .ok state
  readBack : ∀ spec, ∃ after, applyArcState sdf py spec event.arcs event.listOpAuthored
    event.explicit references = .ok after ∧ readArcState sdf after references = state
  transported : ∃ table, encodeArcEvent py event = .ok table ∧
    (decodeArcEvent table).canonical sdf py references = .ok state

/-- No text key of an entry is there with the value `None`. -/
def ArcEvent.NullFree (event : ArcEvent) : Prop :=
  ∀ entry ∈ event.arcs, entry.assetPath ≠ .null ∧ entry.primPath ≠ .null ∧
    entry.customDataFragment ≠ .null

end UsdConnect.SdfArcState
