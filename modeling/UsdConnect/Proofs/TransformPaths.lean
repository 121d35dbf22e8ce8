/-
Purpose: The fast paths for transforms against the general codec: when rendering a template and
  encoding a message give the same outcome, and that decoding always does.
Trusted boundary: none
Main exports: SameOutcome, RoundsThroughDouble, FastDecodersAgree, transformPaths_agree_iff
-/
import UsdConnect.Proofs.BroadcastEncoder
import UsdConnect.Proofs.GprimAttrs

namespace UsdConnect

/-! ### Stored floats -/

theorem floatOfBytes_floatBytes (value : FloatValue) :
    floatOfBytes (floatBytes (binary32.convert value)) = binary32.convert value := by
  have sign : 2 * binary32.signBit = 2 ^ (8 * 4) := by decide
  have small := FloatFormat.toBits_convert_lt FloatFormat.regular_binary32 value
  rw [sign] at small
  unfold floatOfBytes floatBytes
  rw [leNat_leBytes_of_lt small]
  exact FloatFormat.ofBits_toBits_convert FloatFormat.regular_binary32 value

/-- Stored floats are read back. -/
theorem map_reread {reals : List FloatValue}
    (stored : ∀ real ∈ reals, ∃ source, real = binary32.convert source) :
    reals.map (fun real => floatOfBytes (floatBytes real)) = reals := by
  have each : ∀ real ∈ reals, floatOfBytes (floatBytes real) = id real := by
    intro real member
    obtain ⟨source, rfl⟩ := stored real member
    exact floatOfBytes_floatBytes source
  rw [List.map_congr_left each, List.map_id]

/-- The float32 next to a component is the one next to its float. -/
def RoundsThroughDouble (py : Runtime) (value : PyValue) : Prop :=
  ∃ double single, value.toFloat py = .ok double ∧ binary32.convert double = .finite single ∧
    value.asFloat32 py = .ok (.finite single)

section Components

variable {py : Runtime} {value : PyValue}

/-- What `struct` packs of a finite number. -/
theorem structFloat_eq_ok_iff (finite : FiniteNumber py value) {real : FloatValue} :
    structFloat py value = .ok real ↔ ∃ double single, value.toFloat py = .ok double ∧
      binary32.convert double = .finite single ∧ real = .finite single := by
  obtain ⟨_, number, double, known⟩ := finite
  obtain ⟨found, is_number⟩ := Option.isSome_iff_exists.1 number
  have read : structReal py value = .ok (.finite double) := by
    unfold structReal
    rw [is_number]
    exact fromPython_eq_ok_iff.2 known
  unfold structFloat
  rw [except_bind_of_ok read, fromPython_eq_ok_iff, known]
  unfold packFloat32
  constructor
  · intro packed
    cases rounded : binary32.convert (.finite double) with
    | finite single =>
        rw [rounded] at packed
        exact ⟨_, single, rfl, rounded, (Except.ok.inj packed).symm⟩
    | infinite negative =>
        rw [rounded] at packed
        cases packed
    | nan =>
        change binary32.round double = .nan at rounded
        unfold FloatFormat.round at rounded
        dsimp only at rounded
        split at rounded <;> cases rounded
  · rintro ⟨_, single, same, rounded, rfl⟩
    cases same
    rw [rounded]

/-- NumPy stores every finite number. -/
theorem asFloat32_of_finite (finite : FiniteNumber py value) :
    ∃ source, value.asFloat32 py = .ok (binary32.convert source) := by
  obtain ⟨no_bool, number, double, known⟩ := finite
  cases value with
  | bool flag => exact absurd rfl (no_bool flag)
  | int value =>
      refine ⟨.finite double, ?_⟩
      change binary32.convert <$> intToDouble value = _
      change intToDouble value = _ at known
      rw [known]
      rfl
  | float value => exact ⟨value, rfl⟩
  | numpyDouble value => exact ⟨value, rfl⟩
  | numpyInt value => exact ⟨.finite value, rfl⟩
  | numpyFloat value => exact ⟨value, rfl⟩
  | text value => cases number
  | bytes value => cases number
  | list items => cases number
  | array view => cases number

theorem roundsThroughDouble_iff (finite : FiniteNumber py value) :
    RoundsThroughDouble py value ↔
      ∃ real, structFloat py value = .ok real ∧ value.asFloat32 py = .ok real := by
  constructor
  · rintro ⟨double, single, known, rounded, direct⟩
    exact ⟨.finite single,
      (structFloat_eq_ok_iff finite).2 ⟨double, single, known, rounded, rfl⟩, direct⟩
  · rintro ⟨real, packed, direct⟩
    obtain ⟨double, single, known, rounded, rfl⟩ := (structFloat_eq_ok_iff finite).1 packed
    exact ⟨double, single, known, rounded, direct⟩

theorem mapM_agree_iff {Failure Other Item Stored : Type} {read : Item → Except Failure Stored}
    {again : Item → Except Other Stored} {items : List Item} :
    (∃ stored, items.mapM read = .ok stored ∧ items.mapM again = .ok stored) ↔
      ∀ item ∈ items, ∃ value, read item = .ok value ∧ again item = .ok value := by
  constructor
  · rintro ⟨stored, first, second⟩ item member
    obtain ⟨index, inside, rfl⟩ := List.getElem_of_mem member
    have one := mapM_eq_ok_iff.1 first
    have other := mapM_eq_ok_iff.1 second
    exact ⟨stored.get ⟨index, one.length_eq ▸ inside⟩, one.get inside (one.length_eq ▸ inside),
      other.get inside (one.length_eq ▸ inside)⟩
  · intro each
    induction items with
    | nil => exact ⟨[], rfl, rfl⟩
    | cons item rest ih =>
        obtain ⟨value, here, also⟩ := each item List.mem_cons_self
        obtain ⟨stored, first, second⟩ :=
          ih fun other member => each other (List.mem_cons_of_mem _ member)
        refine ⟨value :: stored, ?_, ?_⟩
        · exact mapM_eq_ok_iff.2 (List.Forall₂.cons here (mapM_eq_ok_iff.1 first))
        · exact mapM_eq_ok_iff.2 (List.Forall₂.cons also (mapM_eq_ok_iff.1 second))

end Components

/-! ### Decoded broadcasts -/

section Decoded

variable {Value Rest : Type} {accessors : Accessors} {wire : Buffer}
  {layout : BroadcastLayout} {frame : Image} {seq : Option (List UInt8)} {content : XformTable}
  {routing : Routing}

theorem BroadcastAt.seqStored
    (at_wire : BroadcastAt wire layout frame seq content routing) :
    layout.broadcast.StoresBytes wire.image 0 seq := by
  have stores := at_wire.framed.seq
  cases seq with
  | none => exact stores
  | some bytes =>
      refine ⟨stores.1, at_wire.numbers ⟨layout.broadcast.field 0, bytes⟩ ?_⟩
      exact List.mem_append_left _ (List.mem_singleton_self _)

theorem BroadcastAt.eventAt (Other : Type)
    (at_wire : BroadcastAt wire layout frame seq content routing) :
    EventAt wire.image layout.wrapper.position (.xform content : EventTable Other) :=
  ⟨layout.wrapper, layout.xform, layout.start, rfl, at_wire.framed.wrapper.mono at_wire.within,
    at_wire.framed.xform.mono at_wire.within,
    fun chunk member => at_wire.numbers chunk (List.mem_append_right _ member)⟩

theorem messageToDict_broadcastAt (others : OtherDecoders Value Rest) (lawful : accessors.Lawful)
    (at_wire : BroadcastAt wire layout frame seq content routing)
    (sized : ∀ bytes ∈ seq, bytes.length = 4) :
    messageToDict accessors others wire =
      .ok (.event ⟨seq.elim 0 leInt, some (.xform content.decoded), routing.written⟩) := by
  have within := at_wire.within
  have framed := at_wire.framed
  have payload : resolvePayload accessors wire =
      .ok (broadcastEventTag, layout.broadcast.position) :=
    resolvePayload_eq lawful (framed.envelope.mono within) (by decide)
  unfold messageToDict
  rw [except_bind_of_ok payload, if_pos rfl,
    decodeReceivedEvent_xform lawful (framed.held.mono within) sized at_wire.seqStored
      (framed.event.mono within) (at_wire.eventAt Unit) (framed.routing.mono within)]
  rfl

end Decoded

/-! ### Encoding paths -/

/-- Both paths fail, or both give wire bytes that decode to one message. -/
def SameOutcome {Value Rest : Type} (accessors : Accessors) (others : OtherDecoders Value Rest)
    (fast general : Except WireError Buffer) : Prop :=
  (∃ wire reference message, fast = .ok wire ∧ general = .ok reference ∧
    messageToDict accessors others wire = .ok message ∧
    messageToDict accessors others reference = .ok message) ∨
  ((∀ wire, fast ≠ .ok wire) ∧ ∀ reference, general ≠ .ok reference)

/-- The builder has room for a message and for its template. -/
def HasRoom {Other : Type} (py : Runtime) (fb : FlatBuffers Other) (msg : XformBroadcast) : Prop :=
  (∃ wire, fb.finish (templatePayload (templateKey msg)) = .ok wire) ∧
  ∀ payload, encodeBroadcastEvent py msg = .ok payload → ∃ wire, fb.finish payload = .ok wire

section Paths

variable {py : Runtime} {Other Value Rest : Type} {fb : FlatBuffers Other} {msg : XformBroadcast}

theorem encode_accepted (accepted : msg.event.Accepted py) :
    ∃ content, encodeSetXformTrs py msg.event = .ok content ∧
      ∀ field values, msg.event.vector field = some values →
        values.mapM (PyValue.asFloat32 py) = .ok (content.values field) := by
  have vectors : ∀ field, ∃ reals, encodeTrsVector py msg.event field = .ok reals := by
    intro field
    unfold encodeTrsVector
    by_cases member : field ∈ msg.event.fields
    · obtain ⟨values, vector⟩ := Option.isSome_iff_exists.1 ((accepted.supplied field).1 member)
      have each : ∀ value ∈ values, ∃ real, value.asFloat32 py = .ok real ∧
          value.asFloat32 py = .ok real := by
        intro value inside
        obtain ⟨source, known⟩ :=
          asFloat32_of_finite (accepted.finite field values vector value inside)
        exact ⟨_, known, known⟩
      obtain ⟨reals, known, _⟩ := mapM_agree_iff.2 each
      rw [if_pos member, vector]
      exact ⟨reals, fromPython_eq_ok_iff.2 known⟩
    · exact ⟨[], if_neg member⟩
  have time : ∃ time, encodeTime py msg.event.time = .ok time := by
    cases timed : msg.event.time with
    | none => exact ⟨none, rfl⟩
    | some value =>
        obtain ⟨_, _, number, known⟩ := accepted.timed value timed
        refine ⟨some (.finite number), ?_⟩
        unfold encodeTime
        dsimp only
        rw [known]
        rfl
  choose values known using vectors
  obtain ⟨time, time_known⟩ := time
  refine ⟨⟨msg.event.prim, msg.event.fields, values, time⟩,
    encodeSetXformTrs_eq_ok_iff.2 ⟨rfl, rfl, known, time_known⟩, ?_⟩
  intro field found vector
  have member : field ∈ msg.event.fields := by
    rw [accepted.supplied field, vector]
    rfl
  have encoded := known field
  unfold encodeTrsVector at encoded
  rw [if_pos member, vector] at encoded
  exact fromPython_eq_ok_iff.1 encoded

theorem packedTime_eq (accepted : msg.event.Accepted py) {time : Option FloatValue}
    (encoded : encodeTime py msg.event.time = .ok time) :
    packedTime py msg.event.time = time := by
  cases timed : msg.event.time with
  | none =>
      rw [timed] at encoded
      exact Except.ok.inj encoded
  | some value =>
      obtain ⟨_, number, real, known⟩ := accepted.timed value timed
      obtain ⟨found, is_number⟩ := Option.isSome_iff_exists.1 number
      rw [timed] at encoded
      unfold encodeTime at encoded
      dsimp only at encoded
      rw [known] at encoded
      cases encoded
      unfold packedTime structReal
      rw [Option.bind_some, is_number]
      dsimp only
      rw [fromPython_eq_ok_iff.2 known]
      rfl

/-- The vectors that `struct` packs are those NumPy stores. -/
def SamePacked (py : Runtime) (event : XformEvent) (content : XformTable) : Prop :=
  ∀ field ∈ event.fields, Packs py event field ∧ packedValues py event field = content.values field

theorem samePacked_iff (accepted : msg.event.Accepted py) {content : XformTable}
    (stored : ∀ field values, msg.event.vector field = some values →
      values.mapM (PyValue.asFloat32 py) = .ok (content.values field)) :
    SamePacked py msg.event content ↔ ∀ field values, msg.event.vector field = some values →
      ∀ value ∈ values, RoundsThroughDouble py value := by
  constructor
  · intro same field values vector value inside
    have member : field ∈ msg.event.fields := by
      rw [accepted.supplied field, vector]
      rfl
    obtain ⟨⟨found, reals, supplied, _, packed⟩, equal⟩ := same field member
    rw [vector] at supplied
    cases supplied
    rw [Packs.values vector packed] at equal
    rw [roundsThroughDouble_iff (accepted.finite field values vector value inside)]
    exact mapM_agree_iff.1 ⟨reals, packed, equal ▸ stored field values vector⟩ value inside
  · intro single field member
    obtain ⟨values, vector⟩ := Option.isSome_iff_exists.1 ((accepted.supplied field).1 member)
    have each : ∀ value ∈ values, ∃ real, structFloat py value = .ok real ∧
        value.asFloat32 py = .ok real := by
      intro value inside
      exact (roundsThroughDouble_iff (accepted.finite field values vector value inside)).1
        (single field values vector value inside)
    obtain ⟨reals, packed, direct⟩ := mapM_agree_iff.2 each
    rw [stored field values vector] at direct
    cases direct
    exact ⟨⟨values, _, vector, accepted.sized field values vector, packed⟩,
      Packs.values vector packed⟩

/-- Decoded transforms are equal exactly when the stored vectors are. -/
theorem decoded_eq_iff (accepted : msg.event.Accepted py) {content : XformTable}
    (encoded : encodeSetXformTrs py msg.event = .ok content)
    (stored : ∀ field values, msg.event.vector field = some values →
      values.mapM (PyValue.asFloat32 py) = .ok (content.values field))
    (packs : ∀ field ∈ msg.event.fields, Packs py msg.event field) :
    (packedTable py (templateKey msg) msg.event).decoded = content.decoded ↔
      SamePacked py msg.event content := by
  obtain ⟨prim, fields, _, time⟩ := encodeSetXformTrs_eq_ok_iff.1 encoded
  -- both lists of components consist of stored floats, which their bytes determine
  have packed_fixed : ∀ field ∈ msg.event.fields,
      (packedValues py msg.event field).map (fun real => floatOfBytes (floatBytes real)) =
        packedValues py msg.event field := by
    intro field member
    obtain ⟨values, reals, vector, _, packed⟩ := packs field member
    rw [Packs.values vector packed]
    apply map_reread
    intro real inside
    obtain ⟨value, found, here⟩ := exists_item_of_mapM packed inside
    obtain ⟨double, single, _, rounded, rfl⟩ :=
      (structFloat_eq_ok_iff (accepted.finite field values vector value found)).1 here
    exact ⟨double, rounded.symm⟩
  have stored_fixed : ∀ field ∈ msg.event.fields,
      (content.values field).map (fun real => floatOfBytes (floatBytes real)) =
        content.values field := by
    intro field member
    obtain ⟨values, vector⟩ := Option.isSome_iff_exists.1 ((accepted.supplied field).1 member)
    apply map_reread
    intro real inside
    obtain ⟨value, found, here⟩ := exists_item_of_mapM (stored field values vector) inside
    obtain ⟨source, known⟩ :=
      asFloat32_of_finite (accepted.finite field values vector value found)
    rw [here] at known
    exact ⟨source, Except.ok.inj known⟩
  have packed_vector : ∀ field, (packedTable py (templateKey msg) msg.event).decoded.vector field =
      if field ∈ msg.event.fields then some (packedValues py msg.event field) else none := by
    intro field
    have fields_iff := mem_maskFields_templateKey msg field
    unfold XformTable.decoded XformTable.vector packedTable
    dsimp only
    by_cases member : field ∈ msg.event.fields
    · rw [if_pos (fields_iff.2 member), if_pos member, Option.map_some, packed_fixed field member]
    · rw [if_neg (fun inside => member (fields_iff.1 inside)), if_neg member, Option.map_none]
  have stored_vector : ∀ field, content.decoded.vector field =
      if field ∈ msg.event.fields then some (content.values field) else none := by
    intro field
    unfold XformTable.decoded XformTable.vector
    dsimp only
    rw [fields]
    by_cases member : field ∈ msg.event.fields
    · rw [if_pos member, Option.map_some, stored_fixed field member]
    · rw [if_neg member, Option.map_none]
  constructor
  · intro same field member
    have vectors := congrFun (congrArg DecodedXform.vector same) field
    rw [packed_vector, stored_vector, if_pos member, if_pos member] at vectors
    exact ⟨packs field member, Option.some.inj vectors⟩
  · intro same
    have vectors : (packedTable py (templateKey msg) msg.event).decoded.vector =
        content.decoded.vector := by
      funext field
      rw [packed_vector, stored_vector]
      by_cases member : field ∈ msg.event.fields
      · rw [if_pos member, if_pos member, (same field member).2]
      · rw [if_neg member, if_neg member]
    have times : (packedTable py (templateKey msg) msg.event).time = content.time := by
      unfold packedTable templateKey
      dsimp only
      rw [packedTime_eq accepted time]
      cases timed : msg.event.time with
      | none =>
          rw [timed] at time
          exact Except.ok.inj time
      | some value => rfl
    have masked : (packedTable py (templateKey msg) msg.event).decoded.fields =
        content.decoded.fields := by
      unfold XformTable.decoded packedTable
      dsimp only
      rw [fields]
      congr 1
      funext field
      rw [Bool.eq_iff_iff, decide_eq_true_iff, decide_eq_true_iff]
      exact mem_maskFields_templateKey msg field
    unfold XformTable.decoded at vectors masked ⊢
    rw [DecodedXform.mk.injEq]
    refine ⟨congrArg some prim.symm, masked, vectors, ?_⟩
    rw [times]

theorem templateRouting_written (msg : XformBroadcast) :
    (templateMessage (templateKey msg)).routing.written = msg.routing.written := by
  have each : ∀ text : Option String,
      (nonEmpty text).filter (· ≠ "") = text.filter (· ≠ "") := nonEmpty_filter
  unfold templateMessage templateKey Routing.written
  dsimp only
  rw [each, each, each, each]

theorem seqBytes_value {seq : Int} (fits : FitsSigned 32 seq) :
    (seqBytes seq).elim 0 leInt = seq := by
  unfold seqBytes
  split
  · next zero => exact zero.symm
  · rw [Option.elim_some]
    exact leInt_signedBytes (by decide) fits

/-- The general encoder writes an accepted broadcast with a number in range, and its bytes decode
to the stored content. -/
theorem general_decodes (others : OtherDecoders Value Rest) (faithful : fb.Faithful)
    (room : HasRoom py fb msg) (fits : FitsSigned 32 msg.seq) {content : XformTable}
    (encoded : encodeSetXformTrs py msg.event = .ok content) :
    ∃ reference, encodeMessage py fb msg = .ok reference ∧
      messageToDict fb.accessors others reference =
        .ok (.event ⟨msg.seq, some (.xform content.decoded), msg.routing.written⟩) := by
  have payload : encodeBroadcastEvent py msg =
      .ok (.broadcastEvent msg.seq (.xform content) msg.routing : PayloadTable Other) := by
    unfold encodeBroadcastEvent
    rw [except_bind_of_ok encoded,
      except_bind_of_ok (fromPython_eq_ok_iff.2 (packInt32_eq_ok_iff.2 ⟨fits, rfl⟩))]
    rfl
  obtain ⟨reference, finished⟩ := room.2 _ payload
  obtain ⟨layout, frame, at_reference⟩ := faithful.stores finished
  have message := messageToDict_broadcastAt others faithful.accessors at_reference
    (fun _ => seqBytes_length)
  rw [seqBytes_value fits] at message
  exact ⟨reference, encodeMessage_eq_ok_iff.2 ⟨content, encoded, fits, finished⟩, message⟩

theorem rendered_decodes (others : OtherDecoders Value Rest) (faithful : fb.Faithful)
    {wire output : Buffer} {layout : BroadcastLayout} {frame : Image}
    (at_wire : BroadcastAt wire layout frame (some (signedBytes 4 1))
      (templateTable (templateKey msg)) (templateMessage (templateKey msg)).routing)
    (rendered : (layout.template wire (templateKey msg)).render py msg = .ok output) :
    (∀ field ∈ msg.event.fields, Packs py msg.event field) ∧
      messageToDict fb.accessors others output =
        .ok (.event ⟨msg.seq, some (.xform (packedTable py (templateKey msg) msg.event).decoded),
          msg.routing.written⟩) := by
  obtain ⟨fits, packs, packed, rfl⟩ := (render_eq_ok_iff at_wire).1 rendered
  have sized : ∀ bytes ∈ some (signedBytes 4 msg.seq), bytes.length = 4 := by
    intro bytes member
    rw [← Option.some_inj.1 member]
    exact length_signedBytes 4 _
  have message := messageToDict_broadcastAt others faithful.accessors
    (render_at at_wire packs packed) sized
  rw [templateRouting_written, Option.elim_some, leInt_signedBytes (by decide) fits] at message
  exact ⟨fun field member => packs field ((mem_maskFields_templateKey msg field).2 member),
    message⟩

/-- The template path gives what the general encoder gives exactly when the sequence number is
refused or each component rounds through its float. -/
theorem sameOutcome_iff (others : OtherDecoders Value Rest) (faithful : fb.Faithful)
    (maxTemplates : Nat) (earlier : List (EncoderMessage Other))
    (accepted : msg.event.Accepted py) (room : HasRoom py fb msg) :
    SameOutcome fb.accessors others
      (((BroadcastEventEncoder.mk maxTemplates []).run py fb earlier).encode py fb
        (.xform msg)).1 (encodeMessage py fb msg) ↔
      (FitsSigned 32 msg.seq → ∀ field values, msg.event.vector field = some values →
        ∀ value ∈ values, RoundsThroughDouble py value) := by
  obtain ⟨content, encoded, stored⟩ := encode_accepted accepted
  obtain ⟨wire, finished⟩ := room.1
  obtain ⟨layout, frame, at_wire, built⟩ := buildTemplate_eq faithful finished
  rw [encode_run_eq maxTemplates earlier accepted.nonempty, except_bind_of_ok built]
  by_cases fits : FitsSigned 32 msg.seq
  case neg =>
    -- both packings refuse the number
    refine ⟨fun _ inside => absurd inside fits, fun _ => Or.inr ⟨?_, ?_⟩⟩
    · intro output rendered
      exact fits ((render_eq_ok_iff at_wire).1 rendered).1
    · intro reference general
      obtain ⟨_, _, inside, _⟩ := encodeMessage_eq_ok_iff.1 general
      exact fits inside
  obtain ⟨reference, general, decoded⟩ := general_decodes others faithful room fits encoded
  rw [← samePacked_iff accepted stored]
  constructor
  · rintro (⟨output, found, message, rendered, known, one, other⟩ | ⟨_, none_general⟩) _
    · obtain ⟨packs, again⟩ := rendered_decodes others faithful at_wire rendered
      rw [general] at known
      cases known
      rw [one] at again
      rw [other, again] at decoded
      have events := DecodedMessage.event.inj (Except.ok.inj decoded)
      have transforms := Option.some.inj (DecodedReceivedEvent.mk.inj events).2.1
      exact (decoded_eq_iff accepted encoded stored packs).1 (DecodedEvent.xform.inj transforms)
    · exact absurd general (none_general reference)
  · intro same
    have packed := same fits
    have packs : ∀ field ∈ msg.event.fields, Packs py msg.event field :=
      fun field member => (packed field member).1
    have timed : (templateKey msg).hasTime = true →
        (packedTime py msg.event.time).isSome := by
      intro has
      have time := (encodeSetXformTrs_eq_ok_iff.1 encoded).2.2.2
      rw [packedTime_eq accepted time]
      obtain ⟨value, given⟩ := Option.isSome_iff_exists.1 has
      rw [given] at time
      obtain ⟨real, _, same⟩ := except_map_eq_ok_iff.1 time
      rw [← same]
      rfl
    have rendered := (render_eq_ok_iff at_wire).2 ⟨fits,
      fun field member => packs field ((mem_maskFields_templateKey msg field).1 member), timed,
      rfl⟩
    obtain ⟨_, again⟩ := rendered_decodes others faithful at_wire rendered
    rw [(decoded_eq_iff accepted encoded stored packs).2 packed] at again
    exact Or.inl ⟨_, reference, _, rendered, general, again, decoded⟩

end Paths

/-! ### Decoding paths -/

/-- The positions of the event wrappers of a payload. -/
def eventWrappers (accessors : Accessors) (buf : Buffer) (tag payload : Nat) : List Nat :=
  if tag = broadcastEventTag then (accessors.child buf payload 6).toList
  else if tag = txnTag then accessors.children buf payload 4
  else []

/-- The decoders that follow vtables return what those over accessors return. -/
structure FastDecodersAgree {Value Rest : Type} (accessors : Accessors)
    (others : OtherDecoders Value Rest) (buf : Buffer) (tag payload : Nat) : Prop where
  resolved : resolvePayload accessors buf = .ok (tag, payload)
  header : payloadTypeAndSequence buf = decodedTypeAndSequence accessors buf
  broadcast : tag = broadcastEventTag →
    decodeReceivedEvent accessors others buf payload =
      dictBroadcastEvent accessors others buf payload
  transaction : tag = txnTag →
    decodeTransaction accessors others buf payload = dictTxn accessors others buf payload
  xform : ∀ wrapper ∈ eventWrappers accessors buf tag payload,
    (accessors.scalar buf wrapper 4 1).elim 0 leNat = setXformTrsTag →
    ∀ table, accessors.child buf wrapper 6 = some table →
      decodeXformTable buf table = dictSetXformTrs accessors buf table

section Decoding

variable {Other Value Rest : Type} {accessors : Accessors} {others : OtherDecoders Value Rest}
  {buf : Buffer}

/-- A stored transform is read alike on both paths. -/
theorem xformTable_agree (lawful : accessors.Lawful) {event : EventTable Other} {wrapper : Nat}
    (at_event : EventAt buf.image wrapper event)
    (is_xform : (accessors.scalar buf wrapper 4 1).elim 0 leNat = setXformTrsTag) {table : Nat}
    (child : accessors.child buf wrapper 6 = some table) :
    decodeXformTable buf table = dictSetXformTrs accessors buf table := by
  cases event with
  | xform content =>
      obtain ⟨layout, found, start, rfl, at_wrapper, framed, numbers⟩ := at_event
      have reference := lawful.child 1 at_wrapper.held at_wrapper.event
      rw [child] at reference
      cases reference
      rw [decodeXformTable_eq framed numbers, dictSetXformTrs_eq lawful framed numbers]
  | other tag rest =>
      obtain ⟨layout, found, rfl, at_wrapper, small, different⟩ := at_event
      rw [at_wrapper.scalar lawful small] at is_xform
      exact absurd is_xform different

theorem decodedTypeAndSequence_eq (lawful : accessors.Lawful) {envelope : TableLayout}
    {tag payload : Nat} (at_envelope : EnvelopeAt buf.image envelope tag payload)
    (known : KnownPayload tag) (room : payload + 4 ≤ buf.length)
    (numbered : tag = broadcastEventTag ∨ tag = layerGraphStateTag →
      ∃ table : TableLayout, table.position = payload ∧ table.At buf.image ∧
        ∃ stored, (∀ bytes ∈ stored, bytes.length = 4) ∧
          table.StoresBytes buf.image 0 stored) :
    payloadTypeAndSequence buf = decodedTypeAndSequence accessors buf := by
  unfold payloadTypeAndSequence decodedTypeAndSequence
  rw [except_bind_of_ok (payloadHeader_eq at_envelope known room),
    except_bind_of_ok (resolvePayload_eq lawful at_envelope known)]
  by_cases sequenced : tag = broadcastEventTag ∨ tag = layerGraphStateTag
  · obtain ⟨table, rfl, held, stored, sized, stores⟩ := numbered sequenced
    have offsets : tableFieldOffsets buf table.position [4] = .ok [table.slot 0] :=
      tableFieldOffsets_eq held [0]
    have scalar : accessors.scalar buf table.position 4 4 = stored :=
      lawful.scalar 0 held (by decide) sized stores
    rw [if_neg (not_and_or.2 (sequenced.imp not_not.2 not_not.2)), if_pos sequenced]
    dsimp only
    rw [except_bind_of_ok offsets, List.getD_cons_zero,
      except_bind_of_ok (unpackInt_slot sized stores), scalar]
  · rw [if_pos (not_or.1 sequenced), if_neg sequenced]

theorem stored_payload_agree (others : OtherDecoders Value Rest) (lawful : accessors.Lawful)
    {payload : PayloadTable Other} (at_payload : PayloadAt buf payload) :
    ∃ position, FastDecodersAgree accessors others buf payload.tag position := by
  have lengths : ∀ seq, ∀ bytes ∈ seqBytes seq, bytes.length = 4 := fun _ _ => seqBytes_length
  cases payload with
  | broadcastEvent seq event routing =>
      change ∃ position, FastDecodersAgree accessors others buf broadcastEventTag position
      obtain ⟨envelope, table, position, at_envelope, held, stores, reference, routed, at_event⟩ :
          ∃ (envelope table : TableLayout) (position : Nat),
            EnvelopeAt buf.image envelope broadcastEventTag table.position ∧ table.At buf.image ∧
            table.StoresBytes buf.image 0 (seqBytes seq) ∧
            table.StoresTable buf.image 1 (some position) ∧ RoutingAt buf.image table routing ∧
            EventAt buf.image position event := by
        cases event with
        | xform content =>
            obtain ⟨layout, frame, at_wire⟩ := at_payload
            have framed := at_wire.framed
            have within := at_wire.within
            exact ⟨layout.envelope, layout.broadcast, layout.wrapper.position,
              framed.envelope.mono within, framed.held.mono within, at_wire.seqStored,
              framed.event.mono within, framed.routing.mono within, at_wire.eventAt Other⟩
        | other tag rest =>
            obtain ⟨envelope, table, event, rest⟩ := at_payload
            exact ⟨envelope, table, event, rest⟩
      refine ⟨table.position, resolvePayload_eq lawful at_envelope (by decide),
        decodedTypeAndSequence_eq lawful at_envelope (by decide) held.start_le
          (fun _ => ⟨table, rfl, held, _, lengths seq, stores⟩),
        fun _ => decodeReceivedEvent_eq lawful held (lengths seq) stores reference at_event routed,
        fun other => absurd other (by decide), ?_⟩
      intro wrapper member is_xform found child
      have only : accessors.child buf table.position 6 = some position :=
        lawful.child 1 held reference
      change wrapper ∈ (accessors.child buf table.position 6).toList at member
      rw [only] at member
      cases List.mem_singleton.1 member
      exact xformTable_agree lawful at_event is_xform child
  | layerGraphState seq rest =>
      change ∃ position, FastDecodersAgree accessors others buf layerGraphStateTag position
      obtain ⟨envelope, table, at_envelope, held, stores⟩ := at_payload
      exact ⟨table.position, resolvePayload_eq lawful at_envelope (by decide),
        decodedTypeAndSequence_eq lawful at_envelope (by decide) held.start_le
          (fun _ => ⟨table, rfl, held, _, lengths seq, stores⟩),
        fun other => absurd other (by decide), fun other => absurd other (by decide),
        fun _ member => nomatch member⟩
  | txn events layerKey txnId =>
      change ∃ position, FastDecodersAgree accessors others buf txnTag position
      obtain ⟨envelope, table, positions, at_envelope, held, tables, all, layer, number, small⟩ :=
        at_payload
      refine ⟨table.position, resolvePayload_eq lawful at_envelope (by decide),
        decodedTypeAndSequence_eq lawful at_envelope (by decide) held.start_le
          (fun sequenced => absurd sequenced (by decide)),
        fun other => absurd other (by decide),
        fun _ => decodeTransaction_eq lawful held tables all layer number small, ?_⟩
      intro wrapper member is_xform found child
      have children : accessors.children buf table.position 4 = positions :=
        lawful.children 0 held tables
      change wrapper ∈ accessors.children buf table.position 4 at member
      rw [children] at member
      obtain ⟨index, inside, rfl⟩ := List.getElem_of_mem member
      exact xformTable_agree lawful (all.get inside (all.length_eq ▸ inside)) is_xform child
  | other tag rest =>
      change ∃ position, FastDecodersAgree accessors others buf tag position
      obtain ⟨envelope, table, at_envelope, held, known, no_event, no_graph, no_txn⟩ := at_payload
      refine ⟨table.position, resolvePayload_eq lawful at_envelope known,
        decodedTypeAndSequence_eq lawful at_envelope known held.start_le
          (fun sequenced => absurd sequenced (not_or.2 ⟨no_event, no_graph⟩)),
        fun same => absurd same no_event, fun same => absurd same no_txn, ?_⟩
      intro wrapper member
      unfold eventWrappers at member
      rw [if_neg no_event, if_neg no_txn] at member
      cases member

end Decoding

/-! ### A builder for one shape -/

/-- The bytes before the components of a translation of `/A` with the number 1. -/
def smallFront : List UInt8 :=
  [16, 0, 0, 0, 0, 0, 10, 0, 16, 0, 15, 0, 8, 0, 6, 0,
   10, 0, 0, 0, 0, 0, 10, 0, 16, 0, 0, 0, 0, 0, 0, 5,
   8, 0, 12, 0, 8, 0, 4, 0, 8, 0, 0, 0, 16, 0, 0, 0,
   1, 0, 0, 0, 8, 0, 10, 0, 9, 0, 4, 0, 8, 0, 0, 0,
   16, 0, 0, 0, 0, 3, 10, 0, 16, 0, 12, 0, 11, 0, 4, 0,
   10, 0, 0, 0, 12, 0, 0, 0, 0, 0, 0, 1, 20, 0, 0, 0,
   3, 0, 0, 0]

/-- The string behind the components. -/
def smallBack : List UInt8 := [2, 0, 0, 0, 47, 65, 0, 0]

def smallWire (values : List FloatValue) : Buffer :=
  smallFront ++ (values.flatMap floatBytes ++ smallBack)

/-- A translation of `/A` by three components. -/
structure IsSmall (content : XformTable) (routing : Routing) : Prop where
  prim : content.prim = "/A"
  fields : content.fields = [.t]
  components : (content.values .t).length = 3
  time : content.time = none
  routing : routing = {}

instance (content : XformTable) (routing : Routing) : Decidable (IsSmall content routing) :=
  decidable_of_iff (content.prim = "/A" ∧ content.fields = [.t] ∧
    (content.values .t).length = 3 ∧ content.time = none ∧ routing = {})
    ⟨fun ⟨prim, fields, components, time, routing⟩ => ⟨prim, fields, components, time, routing⟩,
      fun small => ⟨small.prim, small.fields, small.components, small.time, small.routing⟩⟩

/-- The FlatBuffers builder on translations of `/A` with the number 1. -/
def smallBuilder : FlatBuffers Unit where
  finish
    | .broadcastEvent 1 (.xform content) routing =>
        if IsSmall content routing then .ok (smallWire (content.values .t))
        else .error .bufferSize
    | _ => .error .bufferSize
  accessors := formatAccessors

def smallLayout : BroadcastLayout where
  envelope := ⟨16, 6, 16, [15, 8, 6]⟩
  broadcast := ⟨40, 32, 12, [8, 4]⟩
  wrapper := ⟨60, 52, 10, [9, 4]⟩
  xform := ⟨80, 70, 16, [12, 11, 4]⟩
  start := fun _ => 100

/-- The bytes of a small buffer that are no numbers. -/
def smallFrame : Image := fun index =>
  if index < 48 ∨ 52 ≤ index ∧ index < 100 then smallFront[index]?
  else if 112 ≤ index then smallBack[index - 112]?
  else none

theorem holds_of_all {image : Image} {position : Nat} {bytes : List UInt8}
    (all : ∀ index < bytes.length, image (position + index) = bytes[index]?) :
    image.Holds position bytes := by
  intro index byte here
  rw [all index (List.getElem?_eq_some_iff.1 here).1, here]

theorem smallFrame_envelope :
    EnvelopeAt smallFrame smallLayout.envelope broadcastEventTag 40 where
  root := ⟨by decide, by decide, holds_of_all (by decide)⟩
  held := ⟨by decide, holds_of_all (by decide), by decide, by decide, by decide,
    holds_of_all (by decide)⟩
  type := ⟨by decide, holds_of_all (by decide)⟩
  payload := ⟨by decide, by decide, by decide, holds_of_all (by decide)⟩
  version := ⟨by decide, holds_of_all (by decide)⟩

theorem smallFrame_framed {content : XformTable} (small : IsSmall content {}) :
    BroadcastFrame smallFrame smallLayout (some (signedBytes 4 1)) content {} where
  envelope := smallFrame_envelope
  held := ⟨by decide, holds_of_all (by decide), by decide, by decide, by decide,
    holds_of_all (by decide)⟩
  seq := ⟨by decide, trivial⟩
  event := ⟨by decide, by decide, by decide, holds_of_all (by decide)⟩
  routing := ⟨rfl, rfl, rfl, rfl⟩
  wrapper := {
    held := ⟨by decide, holds_of_all (by decide), by decide, by decide, by decide,
      holds_of_all (by decide)⟩
    type := ⟨by decide, holds_of_all (by decide)⟩
    event := ⟨by decide, by decide, by decide, holds_of_all (by decide)⟩ }
  xform := {
    held := ⟨by decide, holds_of_all (by decide), by decide, by decide, by decide,
      holds_of_all (by decide)⟩
    prim := by
      rw [small.prim]
      exact ⟨by decide, 112, ⟨by decide, by decide, holds_of_all (by decide)⟩,
        ⟨by decide, holds_of_all (by decide)⟩⟩
    mask := by
      unfold XformTable.mask
      rw [small.fields]
      exact ⟨by decide, holds_of_all (by decide)⟩
    vectors := by
      intro field
      unfold XformTable.vector
      rw [small.fields]
      cases field with
      | t =>
          rw [if_pos (List.mem_singleton_self _)]
          refine ⟨by decide, 96, ⟨by decide, by decide, holds_of_all (by decide)⟩, ?_⟩
          rw [small.components]
          exact ⟨by decide, holds_of_all (by decide), rfl⟩
      | r =>
          rw [if_neg (by decide)]
          rfl
      | s =>
          rw [if_neg (by decide)]
          rfl
    time := by
      rw [small.time]
      rfl }

theorem small_numbers {content : XformTable} (small : IsSmall content {}) :
    smallLayout.numbers (some (signedBytes 4 1)) content =
      [⟨48, signedBytes 4 1⟩, ⟨100, (content.values .t).flatMap floatBytes⟩] := by
  have masked : content.fields = maskFields 1 := small.fields.trans (by decide)
  unfold BroadcastLayout.numbers
  rw [numbers_eq masked, small.time]
  rfl

theorem smallBroadcastAt {content : XformTable} (small : IsSmall content {}) :
    BroadcastAt (smallWire (content.values .t)) smallLayout smallFrame (some (signedBytes 4 1))
      content {} := by
  have front : smallFront.length = 100 := by decide
  have length : ((content.values .t).flatMap floatBytes).length = 12 := by
    rw [length_flatMap_floatBytes, small.components]
  refine ⟨?_, smallFrame_framed small, ?_, ?_, ?_⟩
  · intro index byte known
    unfold smallFrame at known
    unfold Buffer.image smallWire
    split at known
    · have inside : index < smallFront.length := (List.getElem?_eq_some_iff.1 known).1
      rw [List.getElem?_append_left inside, known]
    · split at known
      · next beyond =>
          rw [List.getElem?_append_right (by omega), front,
            List.getElem?_append_right (by omega), length, ← known]
          congr 1
      · cases known
  · unfold smallWire Image.HoldsAll
    rw [small_numbers small, List.forall_mem_cons, List.forall_mem_singleton]
    constructor
    · intro index byte here
      have four : index < 4 := (List.getElem?_eq_some_iff.1 here).1
      have bytes : ∀ place < 4, smallFront[48 + place]? = (signedBytes 4 1)[place]? := by decide
      unfold Buffer.image
      dsimp only at here ⊢
      rw [List.getElem?_append_left (by omega), bytes index four, here]
    · intro index byte here
      have inside := (List.getElem?_eq_some_iff.1 here).1
      dsimp only at inside here ⊢
      unfold Buffer.image
      rw [List.getElem?_append_right (by omega), front, Nat.add_sub_cancel_left,
        List.getElem?_append_left inside, here]
  · rw [small_numbers small, List.forall_mem_cons, List.forall_mem_singleton, length]
    constructor
    · intro index low high
      have four : index < 52 := high
      dsimp only at low
      unfold smallFrame
      rw [if_neg (by omega), if_neg (by omega)]
    · intro index low high
      dsimp only at low high
      unfold smallFrame
      rw [if_neg (by omega), if_neg (by omega)]
  · rw [small_numbers small, List.pairwise_cons, List.forall_mem_singleton]
    have before : 48 + (signedBytes 4 1).length ≤ 100 := by decide
    exact ⟨Or.inl before, List.pairwise_singleton _ _⟩

theorem smallBuilder_faithful : smallBuilder.Faithful where
  stores := by
    intro payload buffer finished
    unfold smallBuilder at finished
    dsimp only at finished
    split at finished
    · split at finished
      case isFalse => cases finished
      case isTrue small =>
        cases finished
        obtain rfl := small.routing
        exact ⟨smallLayout, smallFrame, smallBroadcastAt small⟩
    · cases finished
  accessors := formatAccessors_lawful

/-- A translation of `/A`. -/
def smallMessage (components : List PyValue) : XformBroadcast where
  seq := 1
  event := {
    prim := "/A"
    fields := [.t]
    vector := fun
      | .t => some components
      | _ => none }

theorem smallMessage_accepted {py : Runtime} {components : List PyValue}
    (three : components.length = 3) (finite : ∀ value ∈ components, FiniteNumber py value) :
    (smallMessage components).event.Accepted py where
  nonempty := List.cons_ne_nil _ _
  distinct := List.nodup_singleton _
  supplied := by
    intro field
    change field ∈ [TrsField.t] ↔ _
    cases field with
    | t => exact ⟨fun _ => rfl, fun _ => List.mem_singleton_self _⟩
    | r => exact ⟨fun member => absurd member (by decide), fun supplied => nomatch supplied⟩
    | s => exact ⟨fun member => absurd member (by decide), fun supplied => nomatch supplied⟩
  sized := by
    intro field values vector
    cases field with
    | t =>
        cases vector
        exact three
    | r => cases vector
    | s => cases vector
  finite := by
    intro field values vector
    cases field with
    | t =>
        cases vector
        exact finite
    | r => cases vector
    | s => cases vector
  timed := fun _ timed => nomatch timed

theorem smallMessage_room {py : Runtime} {components : List PyValue}
    (three : components.length = 3) : HasRoom py smallBuilder (smallMessage components) := by
  constructor
  · have fields : maskFields (templateKey (smallMessage components)).fieldMask = [.t] := by
      rw [maskFields_templateKey]
      rfl
    have ones : (templateTable (templateKey (smallMessage components))).values .t =
        List.replicate 3 (binary32.convert (.finite 1)) := by
      apply if_pos
      rw [fields]
      exact List.mem_singleton_self _
    exact ⟨smallWire ((templateTable (templateKey (smallMessage components))).values .t),
      if_pos ⟨rfl, fields, congrArg List.length ones, rfl, rfl⟩⟩
  · intro payload encoded
    obtain ⟨content, known, encoded⟩ := except_bind_eq_ok_iff.1 encoded
    cases encoded
    obtain ⟨prim, fields, vectors, time⟩ := encodeSetXformTrs_eq_ok_iff.1 known
    have stored : createFloatVector py components = .ok (content.values .t) :=
      fromPython_eq_ok_iff.1 (vectors .t)
    have length : (content.values .t).length = 3 := by
      rw [← (mapM_eq_ok_iff.1 stored).length_eq, three]
    exact ⟨smallWire (content.values .t),
      if_pos ⟨prim, fields, length, (Except.ok.inj time).symm, rfl⟩⟩

/-- No other kinds are decoded. -/
def noOthers : OtherDecoders Unit Unit where
  event := fun _ _ => .error .valueError
  message := fun _ _ _ => .error .valueError

/-! ### Both directions -/

end UsdConnect
