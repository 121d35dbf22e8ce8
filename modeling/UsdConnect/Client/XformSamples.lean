/-
Purpose: Sampled transforms of one prim: which samples a build sends, as they are or decomposed,
  what the filter for local opinions leaves of them, and the mirror's tables.
Trusted boundary: matrices, interpolation and decomposition are an `XformAlgebra`; the stack's ops
  are the prim's only transform attributes
Main exports: XformAlgebra, xformOpSampleEvents, XformEmitter.build, XformSession.step
-/
import Mathlib.Algebra.Group.Defs
import UsdConnect.Client.TimeSamples
import UsdConnect.Codec.TransformTables
import UsdConnect.Lib.Machine

namespace UsdConnect

/-! ### Ops -/

inductive XformOpType where
  | translate
  | orient
  | scale
  | transform
  | other
  deriving DecidableEq, Repr

/-- `_XFORM_OP_TYPE_TO_TRS_FIELD`. -/
def XformOpType.trsField : XformOpType → Option TrsField
  | .translate => some .t
  | .orient => some .r
  | .scale => some .s
  | .transform | .other => none

/-- `_TRS_FIELD_TO_OP_NAME`. -/
def TrsField.opName : TrsField → String
  | .t => "xformOp:translate"
  | .r => "xformOp:orient"
  | .s => "xformOp:scale"

/-- An op of the stack with the name of its attribute. -/
structure XformOp where
  attr : String
  opType : XformOpType
  inverse : Bool := false
  deriving DecidableEq, Repr

/-- `_canonical_trs_field`: the wire field of an unsuffixed, non-inverted canonical op. -/
def XformOp.canonicalTrsField (op : XformOp) : Option TrsField :=
  op.opType.trsField.filter fun field => !op.inverse && decide (op.attr = field.opName)

/-- Authored opinions of an op's attribute. -/
structure OpAttribute (Value : Type) where
  default : Option Value := none
  samples : SampleTable Value := .empty

/-- Matrices of ops and their decomposition. -/
structure XformAlgebra (Value Matrix Component : Type) [Monoid Matrix] where
  interpolate : TimeCode × Value → TimeCode × Value → TimeCode → Value
  /-- `GetOpTransform` from the op's value; an op without one is the identity. -/
  opTransform : XformOp → Option Value → Matrix
  /-- A value of a matrix op. -/
  matrixValue : Value → Matrix
  /-- Transport form of a canonical op's value. -/
  transport : Value → Component
  decompose : Matrix → TrsField → Component
  opTransform_matrix : ∀ (op : XformOp) (value : Value), op.opType = .transform →
    op.inverse = false → opTransform op (some value) = matrixValue value

section Evaluation

variable {Value Matrix Component : Type} [Monoid Matrix]

/-- The latest sample before a time. -/
def SampleTable.before (table : SampleTable Value) (time : TimeCode) : Option (TimeCode × Value) :=
  (table.entries.filter (·.1 < time)).foldl
    (fun best sample => if best.any (sample.1 < ·.1) then best else some sample) none

/-- The earliest sample after a time. -/
def SampleTable.after (table : SampleTable Value) (time : TimeCode) : Option (TimeCode × Value) :=
  (table.entries.filter (time < ·.1)).foldl
    (fun best sample => if best.any (·.1 < sample.1) then best else some sample) none

namespace XformAlgebra

variable (algebra : XformAlgebra Value Matrix Component)

/-- An attribute's value at a time, or its default value at the default time. -/
def valueAt (attr : OpAttribute Value) : Option TimeCode → Option Value
  | none => attr.default
  | some time =>
      (attr.samples.get? time).or <|
        match attr.samples.before time, attr.samples.after time with
        | some lower, some upper => some (algebra.interpolate lower upper time)
        | some held, none | none, some held => some held.2
        | none, none => attr.default

/-- Product of the ops' matrices, the first op rightmost. -/
def stackTransform (ops : List XformOp) (source : String → OpAttribute Value)
    (time : Option TimeCode) : Matrix :=
  ops.foldl
    (fun product op => algebra.opTransform op (algebra.valueAt (source op.attr) time) * product) 1

/-- The part of a decomposed sample that a receiver gets. -/
def componentAt (ops : List XformOp) (source : String → OpAttribute Value) (time : TimeCode) :
    TrsField → Component :=
  algebra.decompose (algebra.stackTransform ops source (some time))

end XformAlgebra

end Evaluation

/-! ### Sample events -/

/-- Events about sampled transforms.  `clearTable` is an exact field delta that clears the samples of
an attribute. -/
inductive XformSampleEvent (Component : Type) where
  | eraseTimeSamples (name : String) (times : List TimeCode)
  | setXformTrs (fields : List TrsField) (values : TrsField → Component) (time : TimeCode)
  | clearTable (name : String)

/-- What the loop over the ops collects. -/
structure StackScan (Value Fingerprint Component : Type) where
  cache : String → SampleCache Fingerprint
  dirtyTimes : List TimeCode
  sampledIndices : List Nat
  matrixDirty : String → Option (List (TimeCode × Value))
  removedSamples : Bool
  events : List (XformSampleEvent Component)

section Emission

variable {Value Matrix Component Fingerprint : Type} [Monoid Matrix] [DecidableEq Fingerprint]
  (algebra : XformAlgebra Value Matrix Component) (fingerprint : Value → Fingerprint)
  (ops : List XformOp)

/-- A scan that has seen no op. -/
def StackScan.start (cache : String → SampleCache Fingerprint) :
    StackScan Value Fingerprint Component where
  cache
  dirtyTimes := []
  sampledIndices := []
  matrixDirty _ := none
  removedSamples := false
  events := []

/-- An op with samples is a sampled one. -/
def StackScan.noteSampled (scan : StackScan Value Fingerprint Component) (index : Nat)
    (hasSamples : Bool) : StackScan Value Fingerprint Component :=
  { scan with
    sampledIndices :=
      if hasSamples then scan.sampledIndices ++ [index] else scan.sampledIndices }

/-- What the difference of an op's table adds. -/
def StackScan.record (scan : StackScan Value Fingerprint Component) (op : XformOp)
    (diff : SampleDiff Value Fingerprint) : StackScan Value Fingerprint Component :=
  { scan with
    cache := Function.update scan.cache op.attr diff.cache
    dirtyTimes := scan.dirtyTimes ++ diff.dirty.map (·.1)
    matrixDirty :=
      if op.opType = .transform then Function.update scan.matrixDirty op.attr (some diff.dirty)
      else scan.matrixDirty
    removedSamples := scan.removedSamples || !diff.removed.isEmpty
    events :=
      if !diff.removed.isEmpty && op.canonicalTrsField.isNone then
        scan.events ++ [.eraseTimeSamples op.attr diff.removed]
      else scan.events }

/-- One op of the loop. -/
def scanOp (source : String → OpAttribute Value) (dirtyAttrNames : List String)
    (scan : StackScan Value Fingerprint Component) (index : Nat) (op : XformOp) :
    StackScan Value Fingerprint Component :=
  let table := (source op.attr).samples
  let hasSamples := !table.keys.isEmpty
  if !hasSamples && (scan.cache op.attr).keys.isEmpty then scan
  else if op.attr ∉ dirtyAttrNames then scan.noteSampled index hasSamples
  else
    (scan.noteSampled index hasSamples).record op
      (diffTimeSamples some fingerprint table (scan.cache op.attr))

/-- The loop over the ops, the first of them with the given index. -/
def scanOps (source : String → OpAttribute Value) (dirtyAttrNames : List String) :
    Nat → List XformOp → StackScan Value Fingerprint Component →
      StackScan Value Fingerprint Component
  | _, [], scan => scan
  | index, op :: rest, scan =>
      scanOps source dirtyAttrNames (index + 1) rest
        (scanOp fingerprint source dirtyAttrNames scan index op)

/-- The keys of all ops' caches. -/
def cachedTimes (cache : String → SampleCache Fingerprint) : List TimeCode :=
  (ops.flatMap fun op => (cache op.attr).keys).dedup

/-- The times to send and the changed matrices after the loop: where samples were removed, the union
of the stack's sample times is rebuilt. -/
def StackScan.rebuilt (scan : StackScan Value Fingerprint Component) (previousTimes : List TimeCode) :
    StackScan Value Fingerprint Component :=
  if scan.removedSamples then
    let dirtyTimes := cachedTimes ops scan.cache
    let removedTimes := previousTimes.filter (· ∉ dirtyTimes)
    { scan with
      dirtyTimes
      matrixDirty := fun _ => none
      events :=
        if removedTimes.isEmpty then scan.events
        else
          scan.events ++
            TrsField.all.map fun field => .eraseTimeSamples field.opName removedTimes }
  else scan

/-- `sampled_vals`: the changed samples of the only sampled op, when it is a matrix op that is not
inverted, with its index. -/
def StackScan.singleMatrix (scan : StackScan Value Fingerprint Component) :
    Option (Nat × List (TimeCode × Value)) :=
  match scan.sampledIndices with
  | [single] =>
      (ops[single]?).bind fun op =>
        if op.inverse then none else (scan.matrixDirty op.attr).map fun samples => (single, samples)
  | _ => none

/-- The local matrix at one of the times: a single sampled matrix between two products over the
static ops, or the whole stack.  `none` is a missing sample. -/
def StackScan.localMatrix (scan : StackScan Value Fingerprint Component)
    (source : String → OpAttribute Value) (time : TimeCode) : Option Matrix :=
  match scan.singleMatrix ops with
  | some (single, samples) =>
      (samples.lookup time).map fun value =>
        algebra.stackTransform (ops.drop (single + 1)) source none * algebra.matrixValue value *
          algebra.stackTransform (ops.take single) source none
  | none => some (algebra.stackTransform ops source (some time))

/-- `_decomposed_xform_sample_events`, with the new cache. -/
def decomposedXformSampleEvents (source : String → OpAttribute Value)
    (cache : String → SampleCache Fingerprint) (dirtyAttrNames : List String) :
    Option (List (XformSampleEvent Component) × (String → SampleCache Fingerprint)) := do
  let scan := (scanOps fingerprint source dirtyAttrNames 0 ops (.start cache)).rebuilt ops
    (cachedTimes ops cache)
  let samples ← (sortedTimes scan.dirtyTimes.dedup).mapM fun time =>
    (scan.localMatrix algebra ops source time).map fun matrix =>
      XformSampleEvent.setXformTrs TrsField.all (algebra.decompose matrix) time
  return (scan.events ++ samples, scan.cache)

/-- The canonical part of `_xform_op_sample_events`: every op's changed samples in its own field. -/
def canonicalXformSampleEvents (source : String → OpAttribute Value)
    (cache : String → SampleCache Fingerprint) (dirtyAttrNames : List String) :
    List (XformSampleEvent Component) × (String → SampleCache Fingerprint) :=
  ops.foldl (fun built op =>
    match op.canonicalTrsField with
    | none => built
    | some field =>
        if op.attr ∉ dirtyAttrNames then built
        else
          let diff := diffTimeSamples some fingerprint (source op.attr).samples (built.2 op.attr)
          let erased :=
            if diff.removed.isEmpty then [] else [.eraseTimeSamples op.attr diff.removed]
          (built.1 ++ erased ++ diff.dirty.map fun sample =>
              .setXformTrs [field] (fun _ => algebra.transport sample.2) sample.1,
            Function.update built.2 op.attr diff.cache)) ([], cache)

/-- `_xform_op_sample_events`: even a static matrix or pivot affects sampled ops elsewhere in the
stack, so one op that is not canonical decides for all. -/
def xformOpSampleEvents (source : String → OpAttribute Value)
    (cache : String → SampleCache Fingerprint) (dirtyAttrNames : List String) :
    Option (List (XformSampleEvent Component) × (String → SampleCache Fingerprint)) :=
  if ops.any (·.canonicalTrsField.isNone) then
    decomposedXformSampleEvents algebra fingerprint ops source cache dirtyAttrNames
  else some (canonicalXformSampleEvents algebra fingerprint ops source cache dirtyAttrNames)

end Emission

/-! ### Builds -/

/-- The value fields that a local property authors. -/
structure LocalProperty where
  name : String
  default : Bool
  timeSamples : Bool
  deriving DecidableEq, Repr

/-- `_local_xform_event_fields` for a sample, with no blocked values. -/
def localXformEventFields (properties : List LocalProperty) (eventFields : List TrsField) :
    List TrsField :=
  let result := eventFields.filter fun field =>
    properties.any fun property => property.name = field.opName && property.timeSamples
  if result.length = eventFields.length then result
  else if properties.any fun property =>
      !(TrsField.all.any fun field => property.name = field.opName) &&
        (property.timeSamples || property.default) then eventFields
  else result

/-- `_filter_events_to_local_opinions` on one event. -/
def filterToLocalOpinions {Component : Type} (properties : List LocalProperty) :
    XformSampleEvent Component → Option (XformSampleEvent Component)
  | .setXformTrs fields values time =>
      match localXformEventFields properties fields with
      | [] => none
      | kept => some (.setXformTrs kept values time)
  | event => some event

/-- What the emitter keeps for the prim.  `clearedTables` are the attributes with a pending exact
delta that names their samples. -/
structure XformEmitter (Fingerprint : Type) where
  cache : String → SampleCache Fingerprint := fun _ => .empty
  known : Bool := false
  resynced : Bool := false
  dirtyAttrs : List String := []
  sampleDirtyAttrs : List String := []
  clearedTables : List String := []

namespace XformEmitter

variable {Value Matrix Component Fingerprint : Type} [Monoid Matrix] [DecidableEq Fingerprint]
  (algebra : XformAlgebra Value Matrix Component) (fingerprint : Value → Fingerprint)
  (ops : List XformOp)

/-- `has_attribute_notices`: the notices say what to read. -/
def hasAttributeNotices (emitter : XformEmitter Fingerprint) : Bool :=
  !emitter.dirtyAttrs.isEmpty && (emitter.known && !emitter.resynced)

/-- The prim has to be built. -/
def isDirty (emitter : XformEmitter Fingerprint) : Bool :=
  !emitter.dirtyAttrs.isEmpty || !emitter.known || emitter.resynced

/-- The op attributes that the build reads: the noticed ones, unless specs other than properties are
marked too (`property_notice_only`). -/
def readAttrs (emitter : XformEmitter Fingerprint) (otherMarks : Bool) : List String :=
  if emitter.hasAttributeNotices && !otherMarks then emitter.dirtyAttrs else ops.map (·.attr)

/-- `property_sources` with the fields that the filter asks for. -/
def localProperties (emitter : XformEmitter Fingerprint) (source : String → OpAttribute Value)
    (otherMarks : Bool) : List LocalProperty :=
  (emitter.readAttrs ops otherMarks).map fun name =>
    ⟨name, (source name).default.isSome, !(source name).samples.keys.isEmpty⟩

/-- `sample_attributes`: the noticed tables, or every authored or cached one. -/
def sampleAttributes (emitter : XformEmitter Fingerprint) (source : String → OpAttribute Value) :
    List String :=
  if emitter.hasAttributeNotices then emitter.sampleDirtyAttrs
  else
    (ops.map (·.attr)).filter fun name =>
      !(source name).samples.keys.isEmpty || !(emitter.cache name).keys.isEmpty

/-- A notice about an op's attribute. An emptied table is also marked for an exact delta. -/
def notice (emitter : XformEmitter Fingerprint) (source : String → OpAttribute Value) (name : String)
    (sampled : Bool) : XformEmitter Fingerprint :=
  { emitter with
    dirtyAttrs := emitter.dirtyAttrs ++ [name]
    sampleDirtyAttrs :=
      if sampled then emitter.sampleDirtyAttrs ++ [name] else emitter.sampleDirtyAttrs
    clearedTables :=
      if sampled && (source name).samples.keys.isEmpty then emitter.clearedTables ++ [name]
      else emitter.clearedTables }

/-- The sample part of a build, and the exact deltas for emptied tables behind it. -/
def build (emitter : XformEmitter Fingerprint) (source : String → OpAttribute Value)
    (otherMarks : Bool) :
    Option (List (XformSampleEvent Component) × XformEmitter Fingerprint) :=
  if !emitter.isDirty then some ([], emitter)
  else
    (xformOpSampleEvents algebra fingerprint ops source emitter.cache
      (emitter.sampleAttributes ops source)).map fun built =>
      (built.1.filterMap (filterToLocalOpinions (emitter.localProperties ops source otherMarks)) ++
        (emitter.clearedTables.filter fun name => (source name).samples.keys.isEmpty).map .clearTable,
        { cache := built.2, known := true })

end XformEmitter

/-! ### The mirror -/

/-- The mirror's sample tables of the three canonical ops. -/
abbrev SampleMirror (Component : Type) :=
  TrsField → TimeCode → Option Component

/-- A receiver applies one event. -/
def SampleMirror.apply {Component : Type} (mirror : SampleMirror Component) :
    XformSampleEvent Component → SampleMirror Component
  | .eraseTimeSamples name times => fun field time =>
      if field.opName = name ∧ time ∈ times then none else mirror field time
  | .setXformTrs fields values sampled => fun field time =>
      if field ∈ fields ∧ time = sampled then some (values field) else mirror field time
  | .clearTable name => fun field time =>
      if field.opName = name then none else mirror field time

/-- A prim's source, its emitter and its mirror. `sent` is a specification variable: the source at the
last build. -/
structure XformSession (Value Component Fingerprint : Type) where
  source : String → OpAttribute Value
  emitter : XformEmitter Fingerprint
  mirror : SampleMirror Component
  sent : String → OpAttribute Value

/-- Edits of the ops' opinions, resyncs and builds; `build` says whether specs other than properties
are marked. -/
inductive XformAction (Value : Type) where
  | setSample (name : String) (time : TimeCode) (value : Value)
  | eraseSample (name : String) (time : TimeCode)
  | setDefault (name : String) (value : Option Value)
  | resync
  | build (otherMarks : Bool)

namespace XformSession

variable {Value Matrix Component Fingerprint : Type} [Monoid Matrix] [DecidableEq Fingerprint]
  (algebra : XformAlgebra Value Matrix Component) (fingerprint : Value → Fingerprint)
  (ops : List XformOp)

/-- A stack with its opinions, nothing of which was sent. -/
def initial (source : String → OpAttribute Value) : XformSession Value Component Fingerprint where
  source
  emitter := {}
  mirror _ _ := none
  sent _ := {}

/-- An edit of one attribute, with its notice. -/
def edit (session : XformSession Value Component Fingerprint) (name : String) (sampled : Bool)
    (attr : OpAttribute Value) : XformSession Value Component Fingerprint :=
  let source := Function.update session.source name attr
  { session with source, emitter := session.emitter.notice source name sampled }

/-- One step; `none` when it cannot happen or raises. -/
def step (session : XformSession Value Component Fingerprint) :
    XformAction Value → Option (XformSession Value Component Fingerprint)
  | .setSample name time value =>
      if name ∈ ops.map (·.attr) then
        let attr := session.source name
        some (session.edit name true { attr with samples := attr.samples.set time value })
      else none
  | .eraseSample name time =>
      let attr := session.source name
      if name ∈ ops.map (·.attr) ∧ time ∈ attr.samples.keys then
        some (session.edit name true { attr with samples := attr.samples.pop time })
      else none
  | .setDefault name value =>
      if name ∈ ops.map (·.attr) then
        some (session.edit name false { session.source name with default := value })
      else none
  | .resync => some { session with emitter := { session.emitter with resynced := true } }
  | .build otherMarks =>
      (session.emitter.build algebra fingerprint ops session.source otherMarks).map fun built =>
        { session with
          emitter := built.2
          mirror := built.1.foldl SampleMirror.apply session.mirror
          sent := session.source }

end XformSession

end UsdConnect
