/-
Purpose: `BroadcastEventEncoder`: transform broadcasts rendered from cached wire templates.
Trusted boundary: as in UsdConnect.Codec.TransformTables
Main exports: Template, Template.render, buildTemplate, BroadcastEventEncoder
-/
import UsdConnect.Codec.TransformDecoding
import Mathlib.Data.List.Dedup

namespace UsdConnect

/-! ### Packing -/

/-- `Struct("<i").pack`. -/
def structInt32 (number : Int) : Except WireError (List UInt8) :=
  if FitsSigned 32 number then .ok (signedBytes 4 number) else .error .structError

/-- The float of a number; other values are refused. -/
def structReal (py : Runtime) (value : PyValue) : Except WireError FloatValue :=
  match value.number? with
  | some _ => fromPython (value.toFloat py)
  | none => .error .structError

def structFloat (py : Runtime) (value : PyValue) : Except WireError FloatValue := do
  let real ← structReal py value
  fromPython (packFloat32 real)

/-- `Struct("<nf").pack` of as many values. -/
def structFloats (py : Runtime) (count : Nat) (values : List PyValue) :
    Except WireError (List UInt8) :=
  if values.length = count then do
    let reals ← values.mapM (structFloat py)
    return reals.flatMap floatBytes
  else .error .structError

def structDouble (py : Runtime) (value : Option PyValue) : Except WireError (List UInt8) :=
  match value with
  | some value => doubleBytes <$> structReal py value
  | none => .error .structError

/-- `pack_into` of packed bytes. -/
def packInto (output : Buffer) (position : Nat) (bytes : List UInt8) : Except WireError Buffer :=
  if position + bytes.length ≤ output.length then .ok (patch output position bytes)
  else .error .structError

/-! ### Templates -/

/-- A wire broadcast and the positions of its numbers. -/
structure Template where
  wire : Buffer
  seqPosition : Nat
  vectorPositions : List (TrsField × Nat)
  timePosition : Option Nat

/-- The arguments of `_build_template`. -/
structure TemplateKey where
  prim : String
  fieldMask : Nat
  hasTime : Bool
  origin : Option String
  clientId : Option String
  client : Option String
  layerKey : Option String
deriving DecidableEq, Repr

def renderVector (py : Runtime) (event : XformEvent) (output : Buffer) (entry : TrsField × Nat) :
    Except WireError Buffer :=
  match event.vector entry.1 with
  | some values => do
      let bytes ← structFloats py entry.1.size values
      packInto output entry.2 bytes
  | none => .error .keyError

def renderTime (py : Runtime) (time : Option PyValue) (output : Buffer) (position : Option Nat) :
    Except WireError Buffer :=
  match position with
  | some position => do
      let bytes ← structDouble py time
      packInto output position bytes
  | none => .ok output

def Template.render (py : Runtime) (template : Template) (msg : XformBroadcast) :
    Except WireError Buffer := do
  let seq ← structInt32 msg.seq
  let output ← packInto template.wire template.seqPosition seq
  let output ← template.vectorPositions.foldlM (renderVector py msg.event) output
  renderTime py msg.event.time output template.timePosition

/-- The message a template is made from: every number is one. -/
def templateMessage (key : TemplateKey) : XformBroadcast where
  seq := 1
  event := {
    prim := key.prim
    fields := maskFields key.fieldMask
    vector := fun field =>
      if field ∈ maskFields key.fieldMask then
        some (List.replicate field.size (.float (.finite 1)))
      else none
    time := if key.hasTime then some (.float (.finite 1)) else none }
  routing := {
    origin := key.origin
    clientId := key.clientId
    client := key.client
    layerKey := key.layerKey }

section Encoder

variable {Other : Type} (py : Runtime) (fb : FlatBuffers Other)

/-- `_scalar_position`. -/
def scalarPosition (wire : Buffer) (table field : Nat) : Except WireError Nat :=
  let offset := fb.accessors.offset wire table field
  if offset = 0 then .error .runtimeError else .ok (table + offset)

def vectorPosition (wire : Buffer) (table : Nat) (field : TrsField) :
    Except WireError (TrsField × Nat) :=
  let offset := fb.accessors.offset wire table (4 + 2 * field.index)
  if offset = 0 then .error .runtimeError
  else .ok (field, fb.accessors.vector wire table offset)

def timePosition (wire : Buffer) (table : Nat) (hasTime : Bool) : Except WireError (Option Nat) :=
  if hasTime then some <$> scalarPosition fb wire table 14 else .ok none

/-- The table of a union or of a table field. -/
def childTable (wire : Buffer) (table field : Nat) : Except WireError Nat :=
  (fb.accessors.child wire table field).elim (.error .attributeError) .ok

/-- `_build_template`. -/
def buildTemplate (key : TemplateKey) : Except WireError Template := do
  let wire ← encodeMessage py fb (templateMessage key)
  let payload ← resolvePayload fb.accessors wire
  let wrapper ← childTable fb wire payload.2 6
  let trs ← childTable fb wire wrapper 6
  let seqPosition ← scalarPosition fb wire payload.2 4
  let vectorPositions ← (maskFields key.fieldMask).mapM (vectorPosition fb wire trs)
  let timePosition ← timePosition fb wire trs key.hasTime
  return {
    wire := wire
    seqPosition := seqPosition
    vectorPositions := vectorPositions
    timePosition := timePosition }

/-! ### The cache -/

/-- The encoder with its least recently used cache, the latest template first. -/
structure BroadcastEventEncoder where
  maxTemplates : Nat := 4096
  templates : List (TemplateKey × Template) := []

/-- A message for the encoder; those of other kinds have the payload the general encoder makes. -/
inductive EncoderMessage (Other : Type)
  | xform (message : XformBroadcast)
  | other (payload : PayloadTable Other)

/-- The key of a message's template; `fields` is made a set. -/
def templateKey (msg : XformBroadcast) : TemplateKey where
  prim := msg.event.prim
  fieldMask := (msg.event.fields.dedup.map TrsField.bit).sum
  hasTime := msg.event.time.isSome
  origin := nonEmpty msg.routing.origin
  clientId := nonEmpty msg.routing.clientId
  client := nonEmpty msg.routing.client
  layerKey := nonEmpty msg.routing.layerKey

namespace BroadcastEventEncoder

/-- `_template_for`: a failed build is not cached. -/
def templateFor (encoder : BroadcastEventEncoder) (key : TemplateKey) :
    Except WireError Template × BroadcastEventEncoder :=
  match encoder.templates.find? fun entry => entry.1 = key with
  | some entry =>
      (.ok entry.2, { encoder with
        templates := entry :: encoder.templates.filter fun other => other.1 ≠ key })
  | none =>
      match buildTemplate py fb key with
      | .ok template =>
          (.ok template, { encoder with
            templates := ((key, template) :: encoder.templates).take encoder.maxTemplates })
      | .error error => (.error error, encoder)

def encode (encoder : BroadcastEventEncoder) :
    EncoderMessage Other → Except WireError Buffer × BroadcastEventEncoder
  | .other payload => (fb.finish payload, encoder)
  | .xform msg =>
      if msg.event.fields = [] then (encodeMessage py fb msg, encoder)
      else
        let found := encoder.templateFor py fb (templateKey msg)
        (found.1 >>= fun template => template.render py msg, found.2)

/-- The encoder after some messages. -/
def run (encoder : BroadcastEventEncoder) (messages : List (EncoderMessage Other)) :
    BroadcastEventEncoder :=
  messages.foldl (fun current message => (current.encode py fb message).2) encoder

end BroadcastEventEncoder

end Encoder

/-! ### Accepted events -/

/-- A finite number that is no bool. -/
def FiniteNumber (py : Runtime) (value : PyValue) : Prop :=
  (∀ flag, value ≠ .bool flag) ∧ value.number?.isSome ∧
    ∃ number, value.toFloat py = .ok (.finite number)

/-- `_validate_xform`. -/
structure XformEvent.Accepted (py : Runtime) (event : XformEvent) : Prop where
  nonempty : event.fields ≠ []
  distinct : event.fields.Nodup
  supplied : ∀ field, field ∈ event.fields ↔ (event.vector field).isSome
  sized : ∀ field values, event.vector field = some values → values.length = field.size
  finite : ∀ field values, event.vector field = some values → ∀ value ∈ values,
    FiniteNumber py value
  timed : ∀ time, event.time = some time → FiniteNumber py time

end UsdConnect
