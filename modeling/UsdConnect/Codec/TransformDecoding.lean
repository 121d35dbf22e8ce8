/-
Purpose: Decoders of transform events, transactions and broadcasts: those over generated accessors
  and those that follow vtables themselves.
Trusted boundary: the accessors are those of a `FlatBuffers`; events and messages of other kinds go
  through `OtherDecoders` on every path
Main exports: decodeXformTable, decodeTransaction, decodeReceivedEvent
-/
import UsdConnect.Codec.TransformTables

namespace UsdConnect

/-! ### Decoded values -/

structure DecodedXform where
  prim : Option String
  fields : List TrsField
  vector : TrsField → Option (List FloatValue)
  time : Option FloatValue

inductive DecodedEvent (Value : Type)
  | xform (event : DecodedXform)
  | other (value : Value)

/-- `ReceivedEvent`; the event is absent where the record has `{}`. -/
structure DecodedReceivedEvent (Value : Type) where
  seq : Int
  event : Option (DecodedEvent Value)
  routing : Routing

structure DecodedTxn (Value : Type) where
  events : List (DecodedEvent Value)
  txnId : Nat
  layerKey : String

/-- Decoders of the other event kinds, by the position of the wrapper, and of the other message
types, by the tag and the position of the payload. -/
structure OtherDecoders (Value Rest : Type) where
  event : Buffer → Nat → Except WireError Value
  message : Buffer → Nat → Nat → Except WireError Rest

inductive DecodedMessage (Value Rest : Type)
  | event (message : DecodedReceivedEvent Value)
  | other (value : Rest)

/-! ### Numbers and texts -/

def floatOfBytes (bytes : List UInt8) : FloatValue :=
  binary32.ofBits (leNat bytes)

def doubleOfBytes (bytes : List UInt8) : FloatValue :=
  binary64.ofBits (leNat bytes)

/-- `bytes.decode("utf-8")`. -/
def decodeUtf8 (bytes : List UInt8) : Except WireError String :=
  (textOf bytes).elim (.error .valueError) .ok

/-- `_str` of what an accessor returns. -/
def decodeStr : Option (List UInt8) → Except WireError (Option String)
  | some bytes => some <$> decodeUtf8 bytes
  | none => .ok none

/-- `value or None`. -/
def nonEmpty (text : Option String) : Option String :=
  text.filter (· ≠ "")

/-! ### Following vtables -/

def requireBufferSpan (buf : Buffer) (position : Int) (size : Nat) : Except WireError Unit :=
  if position < 0 ∨ buf.length < position + size then .error .valueError else .ok ()

/-- `Struct.unpack_from` of an unsigned number. -/
def unpackNat (buf : Buffer) (position width : Nat) : Except WireError Nat :=
  (readNat buf position width).elim (.error .structError) .ok

def unpackInt (buf : Buffer) (position width : Nat) : Except WireError Int :=
  (readInt buf position width).elim (.error .structError) .ok

/-- `buf[position]`. -/
def byteAt (buf : Buffer) (position : Nat) : Except WireError Nat :=
  (readNat buf position 1).elim (.error .indexError) .ok

/-- What a field holds, or a value for an absent field. -/
def fieldOr {Value : Type} (offset : Nat) (absent : Value) (read : Except WireError Value) :
    Except WireError Value :=
  if offset = 0 then .ok absent else read

/-- One entry of a vtable; fields behind its end are absent. -/
def vtableEntry (buf : Buffer) (vtable vtableSize field : Nat) : Except WireError Nat :=
  if field + 2 ≤ vtableSize then unpackNat buf (vtable + field) 2 else .ok 0

def fieldOffset (buf : Buffer) (vtable vtableSize objectSize field : Nat) : Except WireError Nat :=
  do
    let offset ← vtableEntry buf vtable vtableSize field
    if objectSize ≤ offset ∧ offset ≠ 0 then .error .valueError else .ok offset

def tableFieldOffsets (buf : Buffer) (table : Nat) (fields : List Nat) :
    Except WireError (List Nat) := do
  requireBufferSpan buf table 4
  let distance ← unpackInt buf table 4
  let vtable : Int := table - distance
  requireBufferSpan buf vtable 4
  let vtableSize ← unpackNat buf vtable.toNat 2
  let objectSize ← unpackNat buf (vtable.toNat + 2) 2
  requireBufferSpan buf vtable vtableSize
  fields.mapM (fieldOffset buf vtable.toNat vtableSize objectSize)

def indirectPosition (buf : Buffer) (position : Nat) : Except WireError Nat := do
  requireBufferSpan buf position 4
  let distance ← unpackNat buf position 4
  requireBufferSpan buf (position + distance : Nat) 4
  return position + distance

def decodeFbString (buf : Buffer) (position : Nat) : Except WireError String := do
  let stringPosition ← indirectPosition buf position
  let length ← unpackNat buf stringPosition 4
  requireBufferSpan buf (stringPosition + 4 : Nat) length
  decodeUtf8 ((buf.drop (stringPosition + 4)).take length)

def decodeOptionalFbString (buf : Buffer) (table field : Nat) : Except WireError (Option String) :=
  fieldOr field none ((fun text => nonEmpty (some text)) <$> decodeFbString buf (table + field))

/-- The vector is unpacked with the struct of its field or with one of its own length. -/
def decodeFloatVector (buf : Buffer) (position : Nat) : Except WireError (List FloatValue) := do
  let vectorPosition ← indirectPosition buf position
  let length ← unpackNat buf vectorPosition 4
  requireBufferSpan buf (vectorPosition + 4 : Nat) (length * 4)
  let items ← (readItems buf (vectorPosition + 4) 4 length).elim (.error .structError) .ok
  return items.map floatOfBytes

/-- The vector of a field that the mask names. -/
def decodeTrsVector (buf : Buffer) (table mask offset : Nat) (field : TrsField) :
    Except WireError (Option (List FloatValue)) :=
  if mask &&& field.bit = 0 then .ok none
  else if offset = 0 then .ok (some [])
  else some <$> decodeFloatVector buf (table + offset)

/-- Fields in the order of their bits. -/
def maskFields (mask : Nat) : List TrsField :=
  TrsField.all.filter fun field => mask &&& field.bit ≠ 0

def decodeTime (buf : Buffer) (table offset : Nat) : Except WireError (Option FloatValue) :=
  fieldOr offset none do
    requireBufferSpan buf (table + offset : Nat) 8
    let bytes ← (readBytes buf (table + offset) 8).elim (.error .structError) .ok
    return some (doubleOfBytes bytes)

def decodeXformTable (buf : Buffer) (table : Nat) : Except WireError DecodedXform := do
  let offsets ← tableFieldOffsets buf table [4, 6, 8, 10, 12, 14]
  let offset := fun index => offsets.getD index 0
  let prim ← fieldOr (offset 0) none (some <$> decodeFbString buf (table + offset 0))
  let mask ← fieldOr (offset 1) 0 (byteAt buf (table + offset 1))
  let t ← decodeTrsVector buf table mask (offset 2) .t
  let r ← decodeTrsVector buf table mask (offset 3) .r
  let s ← decodeTrsVector buf table mask (offset 4) .s
  let time ← decodeTime buf table (offset 5)
  return {
    prim := prim
    fields := maskFields mask
    vector := byField t r s
    time := time }

/-! ### Generated accessors -/

def dictTrsVector (accessors : Accessors) (buf : Buffer) (table mask : Nat) (field : TrsField) :
    Except WireError (Option (List FloatValue)) :=
  if mask &&& field.bit = 0 then .ok none
  else
    match accessors.items buf table (4 + 2 * field.index) 4 with
    | some items => .ok (some (items.map floatOfBytes))
    -- the accessor returns the number 0, which has no `tolist`
    | none => .error .attributeError

def dictSetXformTrs (accessors : Accessors) (buf : Buffer) (table : Nat) :
    Except WireError DecodedXform := do
  let mask := (accessors.scalar buf table 6 1).elim 0 leNat
  let prim ← decodeStr (accessors.text buf table 4)
  let t ← dictTrsVector accessors buf table mask .t
  let r ← dictTrsVector accessors buf table mask .r
  let s ← dictTrsVector accessors buf table mask .s
  return {
    prim := prim
    fields := maskFields mask
    vector := byField t r s
    time := (accessors.scalar buf table 14 8).map doubleOfBytes }

section Decoders

variable {Value Rest : Type} (accessors : Accessors) (others : OtherDecoders Value Rest)

def eventToDict (buf : Buffer) (wrapper : Nat) : Except WireError (DecodedEvent Value) :=
  if (accessors.scalar buf wrapper 4 1).elim 0 leNat = setXformTrsTag then
    match accessors.child buf wrapper 6 with
    | some table => .xform <$> dictSetXformTrs accessors buf table
    | none => .error .attributeError
  else .other <$> others.event buf wrapper

def dictBroadcastEvent (buf : Buffer) (table : Nat) :
    Except WireError (DecodedReceivedEvent Value) := do
  let event ← match accessors.child buf table 6 with
    | some wrapper => some <$> eventToDict accessors others buf wrapper
    | none => .ok none
  let origin ← decodeStr (accessors.text buf table 8)
  let clientId ← decodeStr (accessors.text buf table 10)
  let client ← decodeStr (accessors.text buf table 12)
  let layerKey ← decodeStr (accessors.text buf table 14)
  return {
    seq := (accessors.scalar buf table 4 4).elim 0 leInt
    event := event
    routing := {
      origin := nonEmpty origin
      clientId := nonEmpty clientId
      client := nonEmpty client
      layerKey := nonEmpty layerKey } }

def dictTxn (buf : Buffer) (table : Nat) : Except WireError (DecodedTxn Value) := do
  let events ← (accessors.children buf table 4).mapM (eventToDict accessors others buf)
  let layerKey ← decodeStr (accessors.text buf table 6)
  return {
    events := events
    txnId := (accessors.scalar buf table 8 8).elim 0 leNat
    layerKey := layerKey.getD "" }

/-! ### Fast paths -/

def decodeEventWrapper (buf : Buffer) (wrapper : Nat) : Except WireError (DecodedEvent Value) := do
  let offsets ← tableFieldOffsets buf wrapper [4, 6]
  let typeOffset := offsets.getD 0 0
  let eventOffset := offsets.getD 1 0
  let tag ← fieldOr typeOffset 0 (byteAt buf (wrapper + typeOffset))
  if tag = setXformTrsTag then
    if eventOffset = 0 then .error .valueError
    else do
      let event ← indirectPosition buf (wrapper + eventOffset)
      DecodedEvent.xform <$> decodeXformTable buf event
  else eventToDict accessors others buf wrapper

def decodeTransaction (buf : Buffer) (table : Nat) : Except WireError (DecodedTxn Value) := do
  let offsets ← tableFieldOffsets buf table [4, 6, 8]
  let eventsOffset := offsets.getD 0 0
  let layerOffset := offsets.getD 1 0
  let txnIdOffset := offsets.getD 2 0
  let txnId ← fieldOr txnIdOffset 0 (unpackNat buf (table + txnIdOffset) 8)
  let layerKey ← fieldOr layerOffset "" (decodeFbString buf (table + layerOffset))
  if eventsOffset = 0 then return { events := [], txnId := txnId, layerKey := layerKey }
  else do
    let vector ← indirectPosition buf (table + eventsOffset)
    let count ← unpackNat buf vector 4
    requireBufferSpan buf (vector + 4 : Nat) (count * 4)
    let events ← (List.range count).mapM fun index => do
      let wrapper ← indirectPosition buf (vector + 4 + index * 4)
      decodeEventWrapper accessors others buf wrapper
    return { events := events, txnId := txnId, layerKey := layerKey }

/-- The event of a broadcast that has one. -/
def decodeBroadcastBody (buf : Buffer) (table offset : Nat) :
    Except WireError (Option (DecodedEvent Value)) :=
  fieldOr offset none do
    let wrapper ← indirectPosition buf (table + offset)
    some <$> decodeEventWrapper accessors others buf wrapper

def decodeReceivedEvent (buf : Buffer) (table : Nat) :
    Except WireError (DecodedReceivedEvent Value) := do
  let offsets ← tableFieldOffsets buf table [4, 6, 8, 10, 12, 14]
  let offset := fun index => offsets.getD index 0
  let seq ← fieldOr (offset 0) 0 (unpackInt buf (table + offset 0) 4)
  let event ← decodeBroadcastBody accessors others buf table (offset 1)
  let origin ← decodeOptionalFbString buf table (offset 2)
  let clientId ← decodeOptionalFbString buf table (offset 3)
  let client ← decodeOptionalFbString buf table (offset 4)
  let layerKey ← decodeOptionalFbString buf table (offset 5)
  return {
    seq := seq
    event := event
    routing := {
      origin := origin
      clientId := clientId
      client := client
      layerKey := layerKey } }

/-! ### Envelopes -/

/-- Tag and payload position of an envelope. -/
def payloadHeader (buf : Buffer) : Except WireError (Nat × Option Nat) := do
  requireBufferSpan buf 0 4
  let envelope ← unpackNat buf 0 4
  let offsets ← tableFieldOffsets buf envelope [4, 6, 8]
  let typeOffset := offsets.getD 0 0
  let payloadOffset := offsets.getD 1 0
  let versionOffset := offsets.getD 2 0
  let version ← fieldOr versionOffset 0 (unpackNat buf (envelope + versionOffset) 2)
  if version ≠ schemaVersion then .error .valueError
  else do
    let tag ← fieldOr typeOffset 0 (byteAt buf (envelope + typeOffset))
    if KnownPayload tag then do
      let payload ← fieldOr payloadOffset none
        (some <$> indirectPosition buf (envelope + payloadOffset))
      return (tag, payload)
    else .error .valueError

def payloadTypeAndSequence (buf : Buffer) : Except WireError (Nat × Int) := do
  let header ← payloadHeader buf
  if header.1 ≠ broadcastEventTag ∧ header.1 ≠ layerGraphStateTag then return (header.1, 0)
  else
    match header.2 with
    | none => .error .valueError
    | some payload => do
        let offsets ← tableFieldOffsets buf payload [4]
        let seqOffset := offsets.getD 0 0
        let seq ← fieldOr seqOffset 0 (unpackInt buf (payload + seqOffset) 4)
        return (header.1, seq)

/-- `decode_envelope` and `resolve_payload`. -/
def resolvePayload (buf : Buffer) : Except WireError (Nat × Nat) :=
  let envelope := accessors.root buf
  let tag := (accessors.scalar buf envelope 4 1).elim 0 leNat
  if (accessors.scalar buf envelope 8 2).elim 0 leNat ≠ schemaVersion then .error .valueError
  else if KnownPayload tag then
    match accessors.child buf envelope 6 with
    | some payload => .ok (tag, payload)
    | none => .error .attributeError
  else .error .valueError

/-- Tag and sequence in full decoding; messages of the other types have no sequence. -/
def decodedTypeAndSequence (buf : Buffer) : Except WireError (Nat × Int) := do
  let payload ← resolvePayload accessors buf
  if payload.1 = broadcastEventTag ∨ payload.1 = layerGraphStateTag then
    return (payload.1, (accessors.scalar buf payload.2 4 4).elim 0 leInt)
  else return (payload.1, 0)

def messageToDict (buf : Buffer) : Except WireError (DecodedMessage Value Rest) := do
  let payload ← resolvePayload accessors buf
  if payload.1 = broadcastEventTag then
    DecodedMessage.event <$> decodeReceivedEvent accessors others buf payload.2
  else DecodedMessage.other <$> others.message buf payload.1 payload.2

end Decoders

end UsdConnect
