/-
Purpose: `set_xform_trs` events and the messages that carry them: what the encoders hand to the
  FlatBuffers builder, where a buffer holds it, and the two decoders.
Trusted boundary: the FlatBuffers builder and the generated accessors are a `FlatBuffers`; events
  and messages of other kinds go through the decoders of `OtherDecoders` on every path
Main exports: XformEvent, XformBroadcast, PayloadTable, FlatBuffers, encodeMessage
-/
import UsdConnect.Lib.FlatBufferReader
import UsdConnect.Codec.GprimAttrs

namespace UsdConnect

/-- Exceptions on the way to or from wire bytes. -/
inductive WireError
  | python (error : PyError)
  | keyError
  | valueError
  | structError
  | indexError
  | attributeError
  | runtimeError
  | bufferSize
deriving DecidableEq, Repr

def fromPython {Value : Type} : Except PyError Value → Except WireError Value
  | .ok value => .ok value
  | .error error => .error (.python error)

/-! ### Events and messages -/

/-- Parts of a transform. -/
inductive TrsField
  | t
  | r
  | s
deriving DecidableEq, Repr

def TrsField.all : List TrsField := [.t, .r, .s]

/-- `_TRS_BITS`. -/
def TrsField.bit : TrsField → Nat
  | .t => 1
  | .r => 2
  | .s => 4

/-- Components of a part; `r` is a quaternion. -/
def TrsField.size : TrsField → Nat
  | .t => 3
  | .r => 4
  | .s => 3

/-- Index of the vector in the `SetXformTrs` table. -/
def TrsField.index : TrsField → Nat
  | .t => 2
  | .r => 3
  | .s => 4

/-- One value for each part. -/
def byField {Value : Type} (t r s : Value) : TrsField → Value
  | .t => t
  | .r => r
  | .s => s

theorem byField_self {Value : Type} (value : TrsField → Value) :
    byField (value .t) (value .r) (value .s) = value := by
  funext field
  cases field <;> rfl

/-- A `set_xform_trs` event. -/
structure XformEvent where
  prim : String
  fields : List TrsField
  vector : TrsField → Option (List PyValue)
  time : Option PyValue := none

/-- Who sent an event and the layer it belongs to. -/
structure Routing where
  origin : Option String := none
  clientId : Option String := none
  client : Option String := none
  layerKey : Option String := none
deriving DecidableEq, Repr

/-- Empty strings are not written. -/
def Routing.written (routing : Routing) : Routing :=
  { origin := routing.origin.filter (· ≠ "")
    clientId := routing.clientId.filter (· ≠ "")
    client := routing.client.filter (· ≠ "")
    layerKey := routing.layerKey.filter (· ≠ "") }

/-- A broadcast of a transform event. -/
structure XformBroadcast where
  seq : Int
  event : XformEvent
  routing : Routing := {}

/-! ### Tables -/

/-- Fields of a `SetXformTrs` table; the vectors are those of the masked fields. -/
structure XformTable where
  prim : String
  fields : List TrsField
  values : TrsField → List FloatValue
  time : Option FloatValue

def fieldMask (fields : List TrsField) : Nat :=
  fields.foldl (fun mask field => mask ||| field.bit) 0

def XformTable.mask (content : XformTable) : Nat :=
  fieldMask content.fields

def XformTable.vector (content : XformTable) (field : TrsField) : Option (List FloatValue) :=
  if field ∈ content.fields then some (content.values field) else none

/-- The event of an `EventWrapper`. -/
inductive EventTable (Other : Type)
  | xform (table : XformTable)
  | other (tag : Nat) (rest : Other)

/-- The payload of an `Envelope`. -/
inductive PayloadTable (Other : Type)
  | broadcastEvent (seq : Int) (event : EventTable Other) (routing : Routing)
  | layerGraphState (seq : Int) (rest : Other)
  | txn (events : List (EventTable Other)) (layerKey : Option String) (txnId : Nat)
  | other (tag : Nat) (rest : Other)

/-! ### Tags -/

def schemaVersion : Nat := 10

/-- `EventPayloadType.SetXformTrs`. -/
def setXformTrsTag : Nat := 3

/-- Tags of `PayloadType`. -/
def txnTag : Nat := 4

def broadcastEventTag : Nat := 5

def layerGraphStateTag : Nat := 18

/-- Keys of `_PAYLOAD_TO_MSG_TYPE`. -/
def KnownPayload (tag : Nat) : Prop :=
  1 ≤ tag ∧ tag ≤ 20

instance (tag : Nat) : Decidable (KnownPayload tag) :=
  inferInstanceAs (Decidable (_ ∧ _))

def PayloadTable.tag {Other : Type} : PayloadTable Other → Nat
  | .broadcastEvent _ _ _ => broadcastEventTag
  | .layerGraphState _ _ => layerGraphStateTag
  | .txn _ _ _ => txnTag
  | .other tag _ => tag

/-! ### Where a buffer holds a payload -/

/-- A number that is left out when it is the default of its field. -/
def slotBytes (width number : Nat) : Option (List UInt8) :=
  if number = 0 then none else some (leBytes width number)

def floatBytes (real : FloatValue) : List UInt8 :=
  leBytes 4 (binary32.toBits real)

def doubleBytes (real : FloatValue) : List UInt8 :=
  leBytes 8 (binary64.toBits real)

def seqBytes (seq : Int) : Option (List UInt8) :=
  if seq = 0 then none else some (signedBytes 4 seq)

/-- A `SetXformTrs` table without its numbers; `start` is the position of a vector's first
component. -/
structure XformFrame (image : Image) (table : TableLayout) (start : TrsField → Nat)
    (content : XformTable) : Prop where
  held : table.At image
  prim : table.StoresText image 0 (some content.prim)
  mask : table.StoresBytes image 1 (slotBytes 1 content.mask)
  vectors : ∀ field, table.Stores field.index (content.vector field) fun values place =>
    ∃ target, RefAt image place target ∧ values.length < 2 ^ 32 ∧
      image.Holds target (leBytes 4 values.length) ∧ start field = target + 4
  time : table.Stores 5 content.time fun _ _ => True

/-- The numbers of a `SetXformTrs` table, vectors first. -/
def XformTable.numbers (content : XformTable) (table : TableLayout) (start : TrsField → Nat) :
    List Chunk :=
  (TrsField.all.filterMap fun field => (content.vector field).map fun values =>
    ⟨start field, values.flatMap floatBytes⟩) ++
  (content.time.map fun time => ⟨table.field 5, doubleBytes time⟩).toList

def Image.HoldsAll (image : Image) (chunks : List Chunk) : Prop :=
  ∀ chunk ∈ chunks, image.Holds chunk.position chunk.bytes

/-- An `EventWrapper` with the given tag around the table at a position. -/
structure WrapperAt (image : Image) (wrapper : TableLayout) (tag event : Nat) : Prop where
  held : wrapper.At image
  type : wrapper.StoresBytes image 0 (slotBytes 1 tag)
  event : wrapper.StoresTable image 1 (some event)

/-- An event in a buffer. -/
def EventAt {Other : Type} (image : Image) (position : Nat) : EventTable Other → Prop
  | .xform content => ∃ wrapper table start, wrapper.position = position ∧
      WrapperAt image wrapper setXformTrsTag table.position ∧
      XformFrame image table start content ∧ image.HoldsAll (content.numbers table start)
  | .other tag _ => ∃ wrapper event, wrapper.position = position ∧
      WrapperAt image wrapper tag event ∧ tag < 256 ∧ tag ≠ setXformTrsTag

/-- The routing of a `BroadcastEvent` table. -/
structure RoutingAt (image : Image) (table : TableLayout) (routing : Routing) : Prop where
  origin : table.StoresText image 2 (routing.origin.filter (· ≠ ""))
  clientId : table.StoresText image 3 (routing.clientId.filter (· ≠ ""))
  client : table.StoresText image 4 (routing.client.filter (· ≠ ""))
  layerKey : table.StoresText image 5 (routing.layerKey.filter (· ≠ ""))

structure EnvelopeAt (image : Image) (envelope : TableLayout) (tag payload : Nat) : Prop where
  root : RefAt image 0 envelope.position
  held : envelope.At image
  type : envelope.StoresBytes image 0 (slotBytes 1 tag)
  payload : envelope.StoresTable image 1 (some payload)
  version : envelope.StoresBytes image 2 (slotBytes 2 schemaVersion)

/-- Where a buffer has a broadcast of a transform. -/
structure BroadcastLayout where
  envelope : TableLayout
  broadcast : TableLayout
  wrapper : TableLayout
  xform : TableLayout
  start : TrsField → Nat

/-- A broadcast of a transform without its numbers; `seq` is what its field stores. -/
structure BroadcastFrame (image : Image) (layout : BroadcastLayout) (seq : Option (List UInt8))
    (content : XformTable) (routing : Routing) : Prop where
  envelope : EnvelopeAt image layout.envelope broadcastEventTag layout.broadcast.position
  held : layout.broadcast.At image
  seq : layout.broadcast.Stores 0 seq fun _ _ => True
  event : layout.broadcast.StoresTable image 1 (some layout.wrapper.position)
  routing : RoutingAt image layout.broadcast routing
  wrapper : WrapperAt image layout.wrapper setXformTrsTag layout.xform.position
  xform : XformFrame image layout.xform layout.start content

def BroadcastLayout.numbers (layout : BroadcastLayout) (seq : Option (List UInt8))
    (content : XformTable) : List Chunk :=
  (seq.map fun bytes => ⟨layout.broadcast.field 0, bytes⟩).toList ++
    content.numbers layout.xform layout.start

/-- A buffer has a broadcast of a transform, each of its numbers in a range of its own. -/
structure BroadcastAt (buffer : Buffer) (layout : BroadcastLayout) (frame : Image)
    (seq : Option (List UInt8)) (content : XformTable) (routing : Routing) : Prop where
  within : frame.Within buffer.image
  framed : BroadcastFrame frame layout seq content routing
  numbers : buffer.image.HoldsAll (layout.numbers seq content)
  free : ∀ chunk ∈ layout.numbers seq content, frame.Free chunk.position chunk.bytes.length
  apart : (layout.numbers seq content).Pairwise Chunk.Apart

/-- A buffer has a payload. -/
def PayloadAt {Other : Type} (buffer : Buffer) : PayloadTable Other → Prop
  | .broadcastEvent seq (.xform content) routing =>
      ∃ layout frame, BroadcastAt buffer layout frame (seqBytes seq) content routing
  | .broadcastEvent seq (.other tag rest) routing => ∃ envelope table event,
      EnvelopeAt buffer.image envelope broadcastEventTag table.position ∧
      TableLayout.At table buffer.image ∧ table.StoresBytes buffer.image 0 (seqBytes seq) ∧
      table.StoresTable buffer.image 1 (some event) ∧ RoutingAt buffer.image table routing ∧
      EventAt buffer.image event (EventTable.other tag rest)
  | .layerGraphState seq _ => ∃ envelope table,
      EnvelopeAt buffer.image envelope layerGraphStateTag table.position ∧
      TableLayout.At table buffer.image ∧ table.StoresBytes buffer.image 0 (seqBytes seq)
  | .txn events layerKey txnId => ∃ envelope table positions,
      EnvelopeAt buffer.image envelope txnTag table.position ∧ TableLayout.At table buffer.image ∧
      table.StoresTables buffer.image 0 (some positions) ∧
      List.Forall₂ (EventAt buffer.image) positions events ∧
      table.StoresText buffer.image 1 layerKey ∧
      table.StoresBytes buffer.image 2 (slotBytes 8 txnId) ∧ txnId < 2 ^ 64
  | .other tag _ => ∃ envelope table, EnvelopeAt buffer.image envelope tag table.position ∧
      TableLayout.At table buffer.image ∧ KnownPayload tag ∧ tag ≠ broadcastEventTag ∧
      tag ≠ layerGraphStateTag ∧ tag ≠ txnTag

/-! ### FlatBuffers -/

/-- The FlatBuffers builder and the generated accessors. -/
structure FlatBuffers (Other : Type) where
  /-- The bytes of an envelope with a payload. -/
  finish : PayloadTable Other → Except WireError Buffer
  accessors : Accessors

/-- What the builder returns has the payload, and the accessors read it. -/
structure FlatBuffers.Faithful {Other : Type} (fb : FlatBuffers Other) : Prop where
  stores : ∀ {payload : PayloadTable Other} {buffer : Buffer}, fb.finish payload = .ok buffer →
    PayloadAt buffer payload
  accessors : fb.accessors.Lawful

/-! ### Encoding -/

/-- The vector of a field that the event names. -/
def encodeTrsVector (py : Runtime) (ev : XformEvent) (field : TrsField) :
    Except WireError (List FloatValue) :=
  if field ∈ ev.fields then
    match ev.vector field with
    | some values => fromPython (createFloatVector py values)
    | none => .error .keyError
  else .ok []

def encodeSetXformTrs (py : Runtime) (ev : XformEvent) : Except WireError XformTable := do
  let t ← encodeTrsVector py ev .t
  let r ← encodeTrsVector py ev .r
  let s ← encodeTrsVector py ev .s
  let time ← fromPython (encodeTime py ev.time)
  return {
    prim := ev.prim
    fields := ev.fields
    values := byField t r s
    time := time }

def encodeBroadcastEvent {Other : Type} (py : Runtime) (msg : XformBroadcast) :
    Except WireError (PayloadTable Other) := do
  let event ← encodeSetXformTrs py msg.event
  let seq ← fromPython (packInt32 msg.seq)
  return .broadcastEvent seq (.xform event) msg.routing

def encodeMessage {Other : Type} (py : Runtime) (fb : FlatBuffers Other) (msg : XformBroadcast) :
    Except WireError Buffer := do
  let payload ← encodeBroadcastEvent py msg
  fb.finish payload

end UsdConnect
