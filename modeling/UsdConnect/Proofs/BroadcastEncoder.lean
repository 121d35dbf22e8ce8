/-
Purpose: What the template encoder renders against what the general encoder writes.
Trusted boundary: none
Main exports: render_eq_ok_iff, render_at, buildTemplate_eq, encode_run_eq
-/
import UsdConnect.Codec.BroadcastEncoder
import UsdConnect.Proofs.TransformDecoding

namespace UsdConnect

/-! ### Shapes -/

/-- Two transforms with the same layout. -/
structure XformTable.SameShape (content other : XformTable) : Prop where
  prim : content.prim = other.prim
  fields : content.fields = other.fields
  lengths : ∀ field ∈ content.fields,
    (content.values field).length = (other.values field).length
  timed : content.time.isSome = other.time.isSome

/-- Position and length of a chunk. -/
def Chunk.range (chunk : Chunk) : Nat × Nat :=
  (chunk.position, chunk.bytes.length)

theorem length_floatBytes (real : FloatValue) : (floatBytes real).length = 4 := length_leBytes 4 _

theorem length_flatMap_floatBytes (values : List FloatValue) :
    (values.flatMap floatBytes).length = 4 * values.length := by
  induction values with
  | nil => rfl
  | cons value rest ih =>
      rw [List.flatMap_cons, List.length_append, length_floatBytes, ih, List.length_cons]
      omega

theorem XformTable.SameShape.ranges {content other : XformTable} (same : content.SameShape other)
    (table : TableLayout) (start : TrsField → Nat) :
    (content.numbers table start).map Chunk.range = (other.numbers table start).map Chunk.range :=
  by
    have vectors : ∀ field, ((content.vector field).map fun values =>
        (⟨start field, values.flatMap floatBytes⟩ : Chunk).range) =
          (other.vector field).map fun values =>
            (⟨start field, values.flatMap floatBytes⟩ : Chunk).range := by
      intro field
      unfold XformTable.vector
      rw [← same.fields]
      by_cases member : field ∈ content.fields
      · rw [if_pos member, if_pos member]
        change some (start field, _) = some (start field, _)
        rw [length_flatMap_floatBytes, length_flatMap_floatBytes, same.lengths field member]
      · rw [if_neg member, if_neg member]
    have times : (content.time.map fun time => (⟨table.field 5, doubleBytes time⟩ : Chunk).range) =
        other.time.map fun time => (⟨table.field 5, doubleBytes time⟩ : Chunk).range := by
      have timed := same.timed
      cases here : content.time with
      | none =>
          rw [here] at timed
          cases there : other.time with
          | none => rfl
          | some _ =>
              rw [there] at timed
              cases timed
      | some _ =>
          rw [here] at timed
          cases there : other.time with
          | none =>
              rw [there] at timed
              cases timed
          | some _ =>
              change some (table.field 5, (doubleBytes _).length) =
                some (table.field 5, (doubleBytes _).length)
              unfold doubleBytes
              rw [length_leBytes, length_leBytes]
    unfold XformTable.numbers
    rw [List.map_append, List.map_append, List.map_filterMap, List.map_filterMap]
    congr 1
    · congr 1
      funext field
      rw [Option.map_map, Option.map_map]
      exact vectors field
    · rw [← Option.toList_map, ← Option.toList_map, Option.map_map, Option.map_map]
      exact congrArg Option.toList times

theorem XformFrame.ofSameShape {image : Image} {table : TableLayout} {start : TrsField → Nat}
    {content other : XformTable} (framed : XformFrame image table start other)
    (same : content.SameShape other) : XformFrame image table start content where
  held := framed.held
  prim := by
    rw [same.prim]
    exact framed.prim
  mask := by
    have mask : content.mask = other.mask := congrArg fieldMask same.fields
    rw [mask]
    exact framed.mask
  vectors := by
    intro field
    have stores := framed.vectors field
    unfold XformTable.vector at stores ⊢
    rw [← same.fields] at stores
    by_cases member : field ∈ content.fields
    · rw [if_pos member] at stores ⊢
      obtain ⟨present, target, reference, counted, count, place⟩ := stores
      rw [← same.lengths field member] at counted count
      exact ⟨present, target, reference, counted, count, place⟩
    · rw [if_neg member] at stores ⊢
      exact stores
  time := by
    have stores := framed.time
    have timed := same.timed
    cases here : content.time with
    | none =>
        rw [here] at timed
        cases there : other.time with
        | none =>
            rw [there] at stores
            exact stores
        | some _ =>
            rw [there] at timed
            cases timed
    | some _ =>
        rw [here] at timed
        obtain ⟨time, there⟩ := Option.isSome_iff_exists.1 timed.symm
        rw [there] at stores
        exact ⟨stores.1, trivial⟩

theorem XformFrame.mono {image larger : Image} {table : TableLayout} {start : TrsField → Nat}
    {content : XformTable} (framed : XformFrame image table start content)
    (within : image.Within larger) : XformFrame larger table start content where
  held := framed.held.mono within
  prim := framed.prim.mono within
  mask := framed.mask.mono within
  vectors := fun field => (framed.vectors field).mono
    fun _ _ ⟨target, reference, counted, count, place⟩ =>
      ⟨target, reference.mono within, counted, count.mono within, place⟩
  time := framed.time

theorem WrapperAt.mono {image larger : Image} {wrapper : TableLayout} {tag event : Nat}
    (at_wrapper : WrapperAt image wrapper tag event) (within : image.Within larger) :
    WrapperAt larger wrapper tag event where
  held := at_wrapper.held.mono within
  type := at_wrapper.type.mono within
  event := at_wrapper.event.mono within

theorem EnvelopeAt.mono {image larger : Image} {envelope : TableLayout} {tag payload : Nat}
    (at_envelope : EnvelopeAt image envelope tag payload) (within : image.Within larger) :
    EnvelopeAt larger envelope tag payload where
  root := at_envelope.root.mono within
  held := at_envelope.held.mono within
  type := at_envelope.type.mono within
  payload := at_envelope.payload.mono within
  version := at_envelope.version.mono within

theorem RoutingAt.mono {image larger : Image} {table : TableLayout} {routing : Routing}
    (routed : RoutingAt image table routing) (within : image.Within larger) :
    RoutingAt larger table routing where
  origin := routed.origin.mono within
  clientId := routed.clientId.mono within
  client := routed.client.mono within
  layerKey := routed.layerKey.mono within

/-! ### Patched broadcasts -/

theorem BroadcastLayout.ranges (layout : BroadcastLayout) {content other : XformTable}
    (same : content.SameShape other) {seq stored : List UInt8} (sized : seq.length = stored.length) :
    (layout.numbers (some seq) content).map Chunk.range =
      (layout.numbers (some stored) other).map Chunk.range := by
  unfold BroadcastLayout.numbers
  rw [List.map_append, List.map_append, same.ranges]
  congr 1
  change [(_, seq.length)] = [(_, stored.length)]
  rw [sized]

/-- New numbers in place of the old ones. -/
theorem BroadcastAt.patched {wire : Buffer} {layout : BroadcastLayout} {frame : Image}
    {content other : XformTable} {seq stored : List UInt8} {routing : Routing}
    (at_wire : BroadcastAt wire layout frame (some stored) other routing)
    (same : content.SameShape other) (sized : seq.length = stored.length)
    (inside : ∀ chunk ∈ layout.numbers (some seq) content, chunk.Inside wire) :
    BroadcastAt (patchAll wire (layout.numbers (some seq) content)) layout frame (some seq) content
      routing := by
  have ranges := layout.ranges same sized
  have free : ∀ chunk ∈ layout.numbers (some seq) content,
      frame.Free chunk.position chunk.bytes.length := by
    intro chunk member
    have range := List.mem_map_of_mem (f := Chunk.range) member
    rw [ranges] at range
    obtain ⟨old, old_member, equal⟩ := List.mem_map.1 range
    have position : old.position = chunk.position := congrArg Prod.fst equal
    have length : old.bytes.length = chunk.bytes.length := congrArg Prod.snd equal
    rw [← position, ← length]
    exact at_wire.free old old_member
  have apart : (layout.numbers (some seq) content).Pairwise Chunk.Apart := by
    have old := at_wire.apart
    have by_range : ∀ chunks : List Chunk, chunks.Pairwise Chunk.Apart ↔
        (chunks.map Chunk.range).Pairwise fun range other =>
          range.1 + range.2 ≤ other.1 ∨ other.1 + other.2 ≤ range.1 := by
      intro chunks
      rw [List.pairwise_map]
      rfl
    rw [by_range] at old ⊢
    rwa [ranges]
  have patched := patchAll_spec at_wire.within inside free apart
  exact {
    within := patched.1
    framed := { at_wire.framed with
      seq := ⟨at_wire.framed.seq.1, trivial⟩
      xform := at_wire.framed.xform.ofSameShape same }
    numbers := patched.2.2
    free := free
    apart := apart }

/-! ### Rendering -/

section Rendering

variable {py : Runtime}

/-- The components of a field as `struct` packs them. -/
def packedValues (py : Runtime) (event : XformEvent) (field : TrsField) : List FloatValue :=
  ((event.vector field).bind fun values => (values.mapM (structFloat py)).toOption).getD []

def packedTime (py : Runtime) (time : Option PyValue) : Option FloatValue :=
  time.bind fun value => (structReal py value).toOption

/-- The transform that a template renders. -/
def packedTable (py : Runtime) (key : TemplateKey) (event : XformEvent) : XformTable where
  prim := key.prim
  fields := maskFields key.fieldMask
  values := packedValues py event
  time := if key.hasTime then packedTime py event.time else none

/-- The vector of a field is packed. -/
def Packs (py : Runtime) (event : XformEvent) (field : TrsField) : Prop :=
  ∃ values reals, event.vector field = some values ∧ values.length = field.size ∧
    values.mapM (structFloat py) = .ok reals

theorem Packs.values {event : XformEvent} {field : TrsField} {values : List PyValue}
    {reals : List FloatValue} (vector : event.vector field = some values)
    (packed : values.mapM (structFloat py) = .ok reals) :
    packedValues py event field = reals := by
  unfold packedValues
  rw [vector, Option.bind_some, packed]
  rfl

theorem Packs.length {event : XformEvent} {field : TrsField} (packs : Packs py event field) :
    (packedValues py event field).length = field.size := by
  obtain ⟨values, reals, vector, sized, packed⟩ := packs
  rw [Packs.values vector packed, ← (mapM_eq_ok_iff.1 packed).length_eq, sized]

theorem packInto_ok {output : Buffer} {position : Nat} {bytes : List UInt8}
    (inside : position + bytes.length ≤ output.length) :
    packInto output position bytes = .ok (patch output position bytes) := if_pos inside

theorem renderVector_eq_ok_iff {event : XformEvent} {output result : Buffer} {field : TrsField}
    {position : Nat} (inside : position + 4 * field.size ≤ output.length) :
    renderVector py event output (field, position) = .ok result ↔
      Packs py event field ∧
        result = patch output position ((packedValues py event field).flatMap floatBytes) := by
  unfold renderVector
  dsimp only
  cases vector : event.vector field with
  | none =>
      constructor
      · intro same
        cases same
      · rintro ⟨⟨values, reals, supplied, _⟩, _⟩
        rw [vector] at supplied
        cases supplied
  | some values =>
      dsimp only
      rw [except_bind_eq_ok_iff]
      constructor
      · rintro ⟨bytes, packed, written⟩
        unfold structFloats at packed
        split at packed
        case isFalse => cases packed
        case isTrue sized =>
          obtain ⟨reals, each, same⟩ := except_bind_eq_ok_iff.1 packed
          cases same
          have packs : Packs py event field := ⟨values, reals, vector, sized, each⟩
          have length := packs.length
          rw [Packs.values vector each] at length ⊢
          rw [packInto_ok (by rw [length_flatMap_floatBytes, length]; exact inside)] at written
          exact ⟨packs, (Except.ok.inj written).symm⟩
      · rintro ⟨packs, rfl⟩
        have length := packs.length
        obtain ⟨found, reals, supplied, sized, each⟩ := packs
        rw [vector] at supplied
        cases supplied
        rw [Packs.values vector each] at length ⊢
        refine ⟨reals.flatMap floatBytes, ?_, packInto_ok (by
          rw [length_flatMap_floatBytes, length]
          exact inside)⟩
        unfold structFloats
        rw [if_pos sized, except_bind_of_ok each]
        rfl

theorem foldlM_renderVector {event : XformEvent} {start : TrsField → Nat} {output result : Buffer}
    {fields : List TrsField}
    (inside : ∀ field ∈ fields, start field + 4 * field.size ≤ output.length) :
    (fields.map fun field => (field, start field)).foldlM (renderVector py event) output =
        .ok result ↔
      (∀ field ∈ fields, Packs py event field) ∧
        result = patchAll output (fields.map fun field =>
          ⟨start field, (packedValues py event field).flatMap floatBytes⟩) := by
  induction fields generalizing output with
  | nil =>
      rw [List.map_nil, List.map_nil, List.foldlM_nil, patchAll]
      exact ⟨fun same => ⟨List.forall_mem_nil _, (Except.ok.inj same).symm⟩,
        fun same => congrArg Except.ok same.2.symm⟩
  | cons field rest ih =>
      have here := inside field List.mem_cons_self
      rw [List.map_cons, List.map_cons, List.foldlM_cons, patchAll, except_bind_eq_ok_iff]
      constructor
      · rintro ⟨next, rendered, later⟩
        obtain ⟨packs, rfl⟩ := (renderVector_eq_ok_iff here).1 rendered
        have others := (ih (by
          rw [length_patch (by rw [length_flatMap_floatBytes, packs.length]; exact here)]
          exact fun other member => inside other (List.mem_cons_of_mem _ member))).1 later
        exact ⟨List.forall_mem_cons.2 ⟨packs, others.1⟩, others.2⟩
      · rintro ⟨packs, rfl⟩
        obtain ⟨first, others⟩ := List.forall_mem_cons.1 packs
        refine ⟨_, (renderVector_eq_ok_iff here).2 ⟨first, rfl⟩, ?_⟩
        rw [ih]
        · exact ⟨others, rfl⟩
        · rw [length_patch (by rw [length_flatMap_floatBytes, first.length]; exact here)]
          exact fun other member => inside other (List.mem_cons_of_mem _ member)

/-- The transform of a template. -/
def templateTable (key : TemplateKey) : XformTable where
  prim := key.prim
  fields := maskFields key.fieldMask
  values := fun field =>
    if field ∈ maskFields key.fieldMask then
      List.replicate field.size (binary32.convert (.finite 1))
    else []
  time := if key.hasTime then some (.finite 1) else none

/-- The template that a layout gives. -/
def BroadcastLayout.template (layout : BroadcastLayout) (wire : Buffer) (key : TemplateKey) :
    Template where
  wire := wire
  seqPosition := layout.broadcast.field 0
  vectorPositions := (maskFields key.fieldMask).map fun field => (field, layout.start field)
  timePosition := if key.hasTime then some (layout.xform.field 5) else none

/-- The numbers of a transform whose fields are those of a mask. -/
theorem numbers_eq {content : XformTable} {mask : Nat} (masked : content.fields = maskFields mask)
    (table : TableLayout) (start : TrsField → Nat) :
    content.numbers table start =
      ((maskFields mask).map fun field =>
        (⟨start field, (content.values field).flatMap floatBytes⟩ : Chunk)) ++
      (content.time.map fun time => (⟨table.field 5, doubleBytes time⟩ : Chunk)).toList := by
  unfold XformTable.numbers
  congr 1
  have vectors : (fun field => (content.vector field).map fun values =>
      (⟨start field, values.flatMap floatBytes⟩ : Chunk)) = fun field =>
        if mask &&& field.bit ≠ 0 then
          some ⟨start field, (content.values field).flatMap floatBytes⟩
        else none := by
    funext field
    have member : field ∈ content.fields ↔ mask &&& field.bit ≠ 0 := by
      rw [masked]
      unfold maskFields
      rw [List.mem_filter, decide_eq_true_iff]
      exact ⟨And.right, fun bit => ⟨by cases field <;> decide, bit⟩⟩
    unfold XformTable.vector
    by_cases bit : mask &&& field.bit ≠ 0
    · rw [if_pos bit, if_pos (member.2 bit)]
      rfl
    · rw [if_neg bit, if_neg (fun inside => bit (member.1 inside))]
      rfl
  rw [vectors]
  unfold maskFields
  rw [← List.filterMap_eq_map, List.filterMap_filter]
  congr 1
  funext field
  by_cases bit : mask &&& field.bit ≠ 0
  · rw [if_pos bit, if_pos (decide_eq_true bit)]
    rfl
  · rw [if_neg bit, if_neg (by rw [decide_eq_true_iff]; exact bit)]

theorem nonempty_template (field : TrsField) (real : FloatValue) :
    (List.replicate field.size real).flatMap floatBytes ≠ [] := by
  intro empty
  have sizes := congrArg List.length empty
  rw [length_flatMap_floatBytes, List.length_replicate, List.length_nil] at sizes
  cases field <;> cases sizes

section Template

variable {wire : Buffer} {layout : BroadcastLayout} {frame : Image} {key : TemplateKey}
  {routing : Routing}

theorem BroadcastAt.vector_inside
    (at_wire : BroadcastAt wire layout frame (some (signedBytes 4 1)) (templateTable key) routing)
    {field : TrsField} (member : field ∈ maskFields key.fieldMask) :
    layout.start field + 4 * field.size ≤ wire.length := by
  have held := at_wire.numbers
    ⟨layout.start field, ((templateTable key).values field).flatMap floatBytes⟩ (by
      unfold BroadcastLayout.numbers
      apply List.mem_append_right
      rw [numbers_eq rfl]
      exact List.mem_append_left _ (List.mem_map_of_mem member))
  have values : (templateTable key).values field =
      List.replicate field.size (binary32.convert (.finite 1)) := if_pos member
  rw [values] at held
  have inside := held.end_le (nonempty_template field _)
  dsimp only at inside
  rwa [length_flatMap_floatBytes, List.length_replicate] at inside

theorem BroadcastAt.seq_inside
    (at_wire : BroadcastAt wire layout frame (some (signedBytes 4 1)) (templateTable key) routing) :
    layout.broadcast.field 0 + 4 ≤ wire.length := by
  have held := at_wire.numbers ⟨layout.broadcast.field 0, signedBytes 4 1⟩
    (List.mem_append_left _ (List.mem_singleton_self _))
  have inside := held.end_le (leBytes_ne_nil (by decide) _)
  rwa [length_signedBytes] at inside

theorem BroadcastAt.time_inside
    (at_wire : BroadcastAt wire layout frame (some (signedBytes 4 1)) (templateTable key) routing)
    (timed : key.hasTime = true) : layout.xform.field 5 + 8 ≤ wire.length := by
  have time : (templateTable key).time = some (.finite 1) := if_pos timed
  have held := at_wire.numbers ⟨layout.xform.field 5, doubleBytes (.finite 1)⟩ (by
    unfold BroadcastLayout.numbers XformTable.numbers
    rw [time]
    exact List.mem_append_right _ (List.mem_append_right _ (List.mem_singleton_self _)))
  have inside := held.end_le (leBytes_ne_nil (by decide) _)
  unfold doubleBytes at inside
  rwa [length_leBytes] at inside

theorem renderTime_eq_ok_iff {time : Option PyValue} {output result : Buffer} {position : Nat}
    (inside : position + 8 ≤ output.length) :
    renderTime py time output (some position) = .ok result ↔
      (packedTime py time).isSome ∧ result = patchAll output
        ((packedTime py time).map fun real => (⟨position, doubleBytes real⟩ : Chunk)).toList := by
  unfold renderTime
  dsimp only
  rw [except_bind_eq_ok_iff]
  have room : ∀ real, position + (doubleBytes real).length ≤ output.length := by
    intro real
    unfold doubleBytes
    rw [length_leBytes]
    exact inside
  cases time with
  | none =>
      constructor
      · rintro ⟨bytes, packed, _⟩
        cases packed
      · rintro ⟨packed, _⟩
        cases packed
  | some value =>
      unfold packedTime structDouble
      rw [Option.bind_some]
      dsimp only
      cases structReal py value with
      | error error =>
          constructor
          · rintro ⟨bytes, packed, _⟩
            cases packed
          · rintro ⟨packed, _⟩
            cases packed
      | ok real =>
          constructor
          · rintro ⟨bytes, packed, written⟩
            cases packed
            rw [packInto_ok (room real)] at written
            exact ⟨rfl, (Except.ok.inj written).symm⟩
          · rintro ⟨_, rfl⟩
            exact ⟨doubleBytes real, rfl, packInto_ok (room real)⟩

theorem render_eq_ok_iff {msg : XformBroadcast} {output : Buffer}
    (at_wire : BroadcastAt wire layout frame (some (signedBytes 4 1)) (templateTable key)
      routing) :
    (layout.template wire key).render py msg = .ok output ↔
      FitsSigned 32 msg.seq ∧ (∀ field ∈ maskFields key.fieldMask, Packs py msg.event field) ∧
      (key.hasTime = true → (packedTime py msg.event.time).isSome) ∧
      output = patchAll wire
        (layout.numbers (some (signedBytes 4 msg.seq)) (packedTable py key msg.event)) := by
  have seq_room : layout.broadcast.field 0 + (signedBytes 4 msg.seq).length ≤ wire.length := by
    rw [length_signedBytes]
    exact at_wire.seq_inside
  have size := length_patch seq_room
  have vectors_room : ∀ field ∈ maskFields key.fieldMask, layout.start field + 4 * field.size ≤
      (patch wire (layout.broadcast.field 0) (signedBytes 4 msg.seq)).length := by
    intro field member
    rw [size]
    exact at_wire.vector_inside member
  have numbers : patchAll wire
      (layout.numbers (some (signedBytes 4 msg.seq)) (packedTable py key msg.event)) =
      patchAll (patchAll (patch wire (layout.broadcast.field 0) (signedBytes 4 msg.seq))
        ((maskFields key.fieldMask).map fun field =>
          ⟨layout.start field, (packedValues py msg.event field).flatMap floatBytes⟩))
        ((packedTable py key msg.event).time.map fun time =>
          (⟨layout.xform.field 5, doubleBytes time⟩ : Chunk)).toList := by
    unfold BroadcastLayout.numbers
    rw [numbers_eq rfl, ← List.append_assoc, patchAll_append, patchAll_append]
    rfl
  have whole : (∀ field ∈ maskFields key.fieldMask, Packs py msg.event field) →
      (patchAll (patch wire (layout.broadcast.field 0) (signedBytes 4 msg.seq))
        ((maskFields key.fieldMask).map fun field =>
          ⟨layout.start field, (packedValues py msg.event field).flatMap floatBytes⟩)).length =
        wire.length := by
    intro packs
    rw [length_patchAll, size]
    intro chunk member
    obtain ⟨field, inside, rfl⟩ := List.mem_map.1 member
    unfold Chunk.Inside
    rw [length_flatMap_floatBytes, (packs field inside).length]
    exact vectors_room field inside
  unfold Template.render structInt32
  rw [numbers]
  by_cases fits : FitsSigned 32 msg.seq
  case neg =>
    rw [if_neg fits]
    constructor
    · intro same
      cases same
    · rintro ⟨inside, _⟩
      exact absurd inside fits
  rw [if_pos fits, except_bind_of_ok rfl]
  change (packInto wire (layout.broadcast.field 0) (signedBytes 4 msg.seq) >>= _) = _ ↔ _
  rw [except_bind_of_ok (packInto_ok seq_room), except_bind_eq_ok_iff]
  change (∃ value, ((maskFields key.fieldMask).map fun field =>
    (field, layout.start field)).foldlM (renderVector py msg.event) _ = .ok value ∧ _) ↔ _
  constructor
  · rintro ⟨vectors, rendered, timed⟩
    obtain ⟨packs, rfl⟩ := (foldlM_renderVector vectors_room).1 rendered
    refine ⟨fits, packs, ?_⟩
    unfold BroadcastLayout.template at timed
    unfold packedTable
    dsimp only at timed ⊢
    cases has : key.hasTime with
    | false =>
        rw [has] at timed
        exact ⟨fun timeless => Bool.noConfusion timeless, (Except.ok.inj timed).symm⟩
    | true =>
        rw [has] at timed
        obtain ⟨packed, same⟩ := (renderTime_eq_ok_iff (by
          rw [whole packs]
          exact at_wire.time_inside has)).1 timed
        exact ⟨fun _ => packed, same⟩
  · rintro ⟨_, packs, packed, rfl⟩
    refine ⟨_, (foldlM_renderVector vectors_room).2 ⟨packs, rfl⟩, ?_⟩
    unfold BroadcastLayout.template packedTable
    dsimp only
    cases has : key.hasTime with
    | false => rfl
    | true =>
        apply (renderTime_eq_ok_iff (by
          rw [whole packs]
          exact at_wire.time_inside has)).2
        exact ⟨packed has, rfl⟩

/-- A rendered broadcast holds the packed numbers. -/
theorem render_at {msg : XformBroadcast}
    (at_wire : BroadcastAt wire layout frame (some (signedBytes 4 1)) (templateTable key) routing)
    (packs : ∀ field ∈ maskFields key.fieldMask, Packs py msg.event field)
    (packed : key.hasTime = true → (packedTime py msg.event.time).isSome) :
    BroadcastAt (patchAll wire
      (layout.numbers (some (signedBytes 4 msg.seq)) (packedTable py key msg.event)))
      layout frame (some (signedBytes 4 msg.seq)) (packedTable py key msg.event) routing := by
  have same : (packedTable py key msg.event).SameShape (templateTable key) := {
    prim := rfl
    fields := rfl
    lengths := by
      intro field member
      have values : (templateTable key).values field =
          List.replicate field.size (binary32.convert (.finite 1)) := if_pos member
      rw [values, List.length_replicate]
      exact (packs field member).length
    timed := by
      unfold packedTable templateTable
      dsimp only
      cases has : key.hasTime with
      | false => rfl
      | true => exact packed has }
  have sized : (signedBytes 4 msg.seq).length = (signedBytes 4 1).length := by
    rw [length_signedBytes, length_signedBytes]
  apply at_wire.patched same sized
  -- the chunks have the ranges of the template's numbers, which lie in its bytes
  intro chunk member
  have range := List.mem_map_of_mem (f := Chunk.range) member
  rw [layout.ranges same sized] at range
  obtain ⟨old, old_member, equal⟩ := List.mem_map.1 range
  have position : old.position = chunk.position := congrArg Prod.fst equal
  have length : old.bytes.length = chunk.bytes.length := congrArg Prod.snd equal
  have held := at_wire.numbers old old_member
  unfold Chunk.Inside
  rw [← position, ← length]
  apply held.end_le
  unfold BroadcastLayout.numbers at old_member
  rw [numbers_eq rfl, List.mem_append, List.mem_append] at old_member
  rcases old_member with is_seq | is_vector | is_time
  · rw [List.mem_singleton.1 is_seq]
    exact leBytes_ne_nil (by decide) _
  · obtain ⟨field, inside, rfl⟩ := List.mem_map.1 is_vector
    have values : (templateTable key).values field =
        List.replicate field.size (binary32.convert (.finite 1)) := if_pos inside
    dsimp only
    rw [values]
    exact nonempty_template field _
  · rw [Option.mem_toList, Option.map_eq_some_iff] at is_time
    obtain ⟨real, _, rfl⟩ := is_time
    exact leBytes_ne_nil (by decide) _

end Template

end Rendering

/-! ### The general encoder -/

section Encoding

variable {py : Runtime}

theorem fromPython_eq_ok_iff {Value : Type} {outcome : Except PyError Value} {value : Value} :
    fromPython outcome = .ok value ↔ outcome = .ok value := by
  cases outcome with
  | error error =>
      constructor
      · intro same
        cases same
      · intro same
        cases same
  | ok found =>
      constructor
      · intro same
        cases same
        rfl
      · intro same
        cases same
        rfl

theorem encodeSetXformTrs_eq_ok_iff {ev : XformEvent} {content : XformTable} :
    encodeSetXformTrs py ev = .ok content ↔
      content.prim = ev.prim ∧ content.fields = ev.fields ∧
      (∀ field, encodeTrsVector py ev field = .ok (content.values field)) ∧
      encodeTime py ev.time = .ok content.time := by
  constructor
  · intro encoded
    obtain ⟨t, t_known, encoded⟩ := except_bind_eq_ok_iff.1 encoded
    obtain ⟨r, r_known, encoded⟩ := except_bind_eq_ok_iff.1 encoded
    obtain ⟨s, s_known, encoded⟩ := except_bind_eq_ok_iff.1 encoded
    obtain ⟨time, time_known, encoded⟩ := except_bind_eq_ok_iff.1 encoded
    cases encoded
    refine ⟨rfl, rfl, ?_, fromPython_eq_ok_iff.1 time_known⟩
    intro field
    cases field with
    | t => exact t_known
    | r => exact r_known
    | s => exact s_known
  · rintro ⟨prim, fields, vectors, time⟩
    unfold encodeSetXformTrs
    rw [except_bind_of_ok (vectors .t), except_bind_of_ok (vectors .r),
      except_bind_of_ok (vectors .s), except_bind_of_ok (fromPython_eq_ok_iff.2 time),
      byField_self, ← prim, ← fields]
    rfl

theorem packInt32_eq_ok_iff {number packed : Int} :
    packInt32 number = .ok packed ↔ FitsSigned 32 number ∧ packed = number := by
  unfold packInt32
  by_cases fits : FitsSigned 32 number
  · rw [if_pos fits]
    exact ⟨fun same => ⟨fits, (Except.ok.inj same).symm⟩, fun same => by rw [same.2]⟩
  · rw [if_neg fits]
    constructor
    · intro same
      cases same
    · rintro ⟨inside, _⟩
      exact absurd inside fits

variable {Other : Type} {fb : FlatBuffers Other}

theorem encodeMessage_eq_ok_iff {msg : XformBroadcast} {wire : Buffer} :
    encodeMessage py fb msg = .ok wire ↔
      ∃ content, encodeSetXformTrs py msg.event = .ok content ∧ FitsSigned 32 msg.seq ∧
        fb.finish (.broadcastEvent msg.seq (.xform content) msg.routing) = .ok wire := by
  unfold encodeMessage
  rw [except_bind_eq_ok_iff]
  constructor
  · rintro ⟨payload, encoded, finished⟩
    obtain ⟨content, known, encoded⟩ := except_bind_eq_ok_iff.1 encoded
    obtain ⟨seq, packed, encoded⟩ := except_bind_eq_ok_iff.1 encoded
    obtain ⟨fits, rfl⟩ := packInt32_eq_ok_iff.1 (fromPython_eq_ok_iff.1 packed)
    cases encoded
    exact ⟨content, known, fits, finished⟩
  · rintro ⟨content, known, fits, finished⟩
    refine ⟨_, ?_, finished⟩
    unfold encodeBroadcastEvent
    rw [except_bind_of_ok known,
      except_bind_of_ok (fromPython_eq_ok_iff.2 (packInt32_eq_ok_iff.2 ⟨fits, rfl⟩))]
    rfl

/-! ### Building templates -/

theorem forall₂_replicate {Item Value : Type} {related : Item → Value → Prop} {item : Item}
    {value : Value} (holds : related item value) (count : Nat) :
    List.Forall₂ related (List.replicate count item) (List.replicate count value) := by
  induction count with
  | zero => exact List.Forall₂.nil
  | succ count ih => exact List.Forall₂.cons holds ih

theorem encode_templateMessage (key : TemplateKey) :
    encodeSetXformTrs py (templateMessage key).event = .ok (templateTable key) := by
  rw [encodeSetXformTrs_eq_ok_iff]
  refine ⟨rfl, rfl, ?_, ?_⟩
  · intro field
    unfold encodeTrsVector templateMessage templateTable createFloatVector
    dsimp only
    by_cases member : field ∈ maskFields key.fieldMask
    · have one : (PyValue.float (.finite 1)).asFloat32 py =
          .ok (binary32.convert (.finite 1)) := rfl
      rw [if_pos member, if_pos member, if_pos member]
      apply fromPython_eq_ok_iff.2
      apply mapM_eq_ok_iff.2
      apply forall₂_replicate
      exact one
    · rw [if_neg member, if_neg member]
  · unfold templateMessage templateTable
    dsimp only
    cases key.hasTime with
    | false => rfl
    | true => rfl

def templatePayload (key : TemplateKey) : PayloadTable Other :=
  .broadcastEvent 1 (.xform (templateTable key)) (templateMessage key).routing

theorem encodeMessage_template_iff {key : TemplateKey} {wire : Buffer} :
    encodeMessage py fb (templateMessage key) = .ok wire ↔
      fb.finish (templatePayload key) = .ok wire := by
  rw [encodeMessage_eq_ok_iff, encode_templateMessage]
  constructor
  · rintro ⟨content, same, _, finished⟩
    cases same
    exact finished
  · intro finished
    have fits : FitsSigned 32 1 := by decide
    exact ⟨_, rfl, fits, finished⟩

theorem buildTemplate_eq (faithful : fb.Faithful) {key : TemplateKey} {wire : Buffer}
    (finished : fb.finish (templatePayload key) = .ok wire) :
    ∃ layout frame, BroadcastAt wire layout frame (some (signedBytes 4 1)) (templateTable key)
        (templateMessage key).routing ∧
      buildTemplate py fb key = .ok (layout.template wire key) := by
  obtain ⟨layout, frame, at_wire⟩ := faithful.stores finished
  refine ⟨layout, frame, at_wire, ?_⟩
  have within := at_wire.within
  have framed := at_wire.framed
  have lawful := faithful.accessors
  have broadcast := framed.held.mono within
  have wrapper := framed.wrapper.mono within
  have xform := framed.xform.mono within
  have payload : resolvePayload fb.accessors wire =
      .ok (broadcastEventTag, layout.broadcast.position) :=
    resolvePayload_eq lawful (framed.envelope.mono within) (by decide)
  have event : childTable fb wire layout.broadcast.position 6 = .ok layout.wrapper.position := by
    have child := lawful.child 1 broadcast (framed.event.mono within)
    unfold childTable
    rw [child]
    rfl
  have table : childTable fb wire layout.wrapper.position 6 = .ok layout.xform.position := by
    have child := lawful.child 1 wrapper.held wrapper.event
    unfold childTable
    rw [child]
    rfl
  have seq : scalarPosition fb wire layout.broadcast.position 4 =
      .ok (layout.broadcast.field 0) := by
    have offset := lawful.offset 0 broadcast
    unfold scalarPosition
    rw [offset]
    exact if_neg framed.seq.1
  have vectors : (maskFields key.fieldMask).mapM (vectorPosition fb wire layout.xform.position) =
      .ok ((maskFields key.fieldMask).map fun field => (field, layout.start field)) := by
    rw [mapM_eq_ok_iff, List.forall₂_map_right_iff, List.forall₂_same]
    intro field member
    have vector : (templateTable key).vector field =
        some ((templateTable key).values field) := if_pos member
    have stores := xform.vectors field
    rw [vector] at stores
    obtain ⟨present, target, reference, _, _, place⟩ := stores
    have offset := lawful.offset field.index xform.held
    unfold vectorPosition
    dsimp only
    rw [offset, if_neg present, lawful.vector reference, place]
  have time : timePosition fb wire layout.xform.position key.hasTime =
      .ok (if key.hasTime then some (layout.xform.field 5) else none) := by
    unfold timePosition
    cases has : key.hasTime with
    | false => rfl
    | true =>
        have stores := xform.time
        have stored : (templateTable key).time = some (.finite 1) := if_pos has
        rw [stored] at stores
        have offset := lawful.offset 5 xform.held
        have position : scalarPosition fb wire layout.xform.position 14 =
            .ok (layout.xform.field 5) := by
          unfold scalarPosition
          rw [offset]
          exact if_neg stores.1
        rw [if_pos rfl, position]
        rfl
  unfold buildTemplate
  rw [except_bind_of_ok (encodeMessage_template_iff.2 finished), except_bind_of_ok payload,
    except_bind_of_ok event, except_bind_of_ok table, except_bind_of_ok seq,
    except_bind_of_ok vectors, except_bind_of_ok time]
  rfl

/-! ### The cache -/

/-- Every cached template is the one that would be built. -/
def BroadcastEventEncoder.Sound (py : Runtime) (fb : FlatBuffers Other)
    (encoder : BroadcastEventEncoder) : Prop :=
  ∀ entry ∈ encoder.templates, buildTemplate py fb entry.1 = .ok entry.2

theorem templateFor_fst {encoder : BroadcastEventEncoder} (sound : encoder.Sound py fb)
    (key : TemplateKey) : (encoder.templateFor py fb key).1 = buildTemplate py fb key := by
  unfold BroadcastEventEncoder.templateFor
  cases found : encoder.templates.find? fun entry => entry.1 = key with
  | some entry =>
      have built := sound entry (List.mem_of_find?_eq_some found)
      have chosen := List.find?_some found
      have same : entry.1 = key := of_decide_eq_true chosen
      rw [same] at built
      exact built.symm
  | none => cases buildTemplate py fb key <;> rfl

theorem sound_templateFor {encoder : BroadcastEventEncoder} (sound : encoder.Sound py fb)
    (key : TemplateKey) : (encoder.templateFor py fb key).2.Sound py fb := by
  unfold BroadcastEventEncoder.templateFor
  cases found : encoder.templates.find? fun entry => entry.1 = key with
  | some entry =>
      intro other member
      rcases List.mem_cons.1 member with rfl | inside
      · exact sound other (List.mem_of_find?_eq_some found)
      · exact sound other (List.mem_of_mem_filter inside)
  | none =>
      cases built : buildTemplate py fb key with
      | error error => exact sound
      | ok template =>
          intro other member
          rcases List.mem_cons.1 (List.mem_of_mem_take member) with rfl | inside
          · exact built
          · exact sound other inside

theorem sound_encode {encoder : BroadcastEventEncoder} (sound : encoder.Sound py fb)
    (message : EncoderMessage Other) : (encoder.encode py fb message).2.Sound py fb := by
  cases message with
  | other payload => exact sound
  | xform msg =>
      unfold BroadcastEventEncoder.encode
      dsimp only
      split
      · exact sound
      · exact sound_templateFor sound _

theorem sound_run {encoder : BroadcastEventEncoder} (sound : encoder.Sound py fb)
    (messages : List (EncoderMessage Other)) : (encoder.run py fb messages).Sound py fb := by
  induction messages generalizing encoder with
  | nil => exact sound
  | cons message rest ih => exact ih (sound_encode sound message)

/-- Whatever was encoded before, a broadcast is rendered from the template of its key. -/
theorem encode_run_eq (maxTemplates : Nat) (earlier : List (EncoderMessage Other))
    {msg : XformBroadcast} (nonempty : msg.event.fields ≠ []) :
    (((BroadcastEventEncoder.mk maxTemplates []).run py fb earlier).encode py fb (.xform msg)).1 =
      buildTemplate py fb (templateKey msg) >>= fun template => template.render py msg := by
  have sound : (BroadcastEventEncoder.mk maxTemplates []).Sound py fb :=
    fun _ member => nomatch member
  unfold BroadcastEventEncoder.encode
  dsimp only
  rw [if_neg nonempty]
  exact congrArg (· >>= _) (templateFor_fst (sound_run sound earlier) _)

end Encoding

/-! ### Keys -/

theorem nodup_all : TrsField.all.Nodup := by decide

theorem mem_all (field : TrsField) : field ∈ TrsField.all := by cases field <;> decide

theorem maskFields_templateKey (msg : XformBroadcast) :
    maskFields (templateKey msg).fieldMask =
      TrsField.all.filter fun field => field ∈ msg.event.fields := by
  have order : msg.event.fields.dedup.Perm
      (TrsField.all.filter fun field => field ∈ msg.event.fields) := by
    rw [List.perm_ext_iff_of_nodup (List.nodup_dedup _) (nodup_all.filter _)]
    intro field
    rw [List.mem_dedup, List.mem_filter, decide_eq_true_iff]
    exact ⟨fun member => ⟨mem_all field, member⟩, And.right⟩
  unfold templateKey
  dsimp only
  rw [(order.map TrsField.bit).sum_nat]
  unfold TrsField.all
  by_cases t : .t ∈ msg.event.fields <;> by_cases r : .r ∈ msg.event.fields <;>
    by_cases s : .s ∈ msg.event.fields <;>
      simp only [List.filter, t, r, s, decide_true, decide_false] <;> rfl

theorem mem_maskFields_templateKey (msg : XformBroadcast) (field : TrsField) :
    field ∈ maskFields (templateKey msg).fieldMask ↔ field ∈ msg.event.fields := by
  rw [maskFields_templateKey, List.mem_filter, decide_eq_true_iff]
  exact ⟨And.right, fun member => ⟨mem_all field, member⟩⟩

end UsdConnect
