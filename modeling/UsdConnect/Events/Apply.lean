/-
Purpose: The event appliers, the application of one event, and the batched application that
  reorders barrier-free segments.
Trusted boundary: composed queries and authoring calls of `Usd`
Main exports: applyEvent, applySegment, applyEvents
-/
import Mathlib.Data.List.Sort
import UsdConnect.Events.SpecDelta

namespace UsdConnect

section Appliers

variable (usd : Usd) (target : LayerId)

/-- A prim of the stage at this point of a program. -/
def primAt (prim : ScenePath) : SceneEdit Bool :=
  Edit.look fun scene => usd.primAt (scene.stage target) prim

def attributeType (prim : ScenePath) (name : String) : SceneEdit (Option String) :=
  Edit.look fun scene => usd.attributeType (scene.stage target) prim name

/-- `get_or_define_prim`. -/
def getOrDefinePrim (prim : ScenePath) (typeName : String) (ensureLocalDefinition : Bool) :
    SceneEdit Unit := do
  if !(← primAt usd target prim) then definePrim usd target prim typeName
  else if ensureLocalDefinition then
    let layer ← Edit.look fun scene => scene.layers target
    let path : SpecPath := ⟨prim.specPath, none⟩
    let needsDefinition := layer.info path "specifier" ≠ some (.text "def")
    let needsType := typeName ≠ "" ∧ layer.info path "typeName" ≠ some (.text typeName)
    if needsDefinition ∨ needsType then
      authorPrimInfo target prim "specifier" (.text "def")
      if needsType then authorPrimInfo target prim "typeName" (.text typeName)

/-! ### Transform ops -/

def XformField.attribute : XformField → String
  | .t => "xformOp:translate"
  | .r => "xformOp:orient"
  | .s => "xformOp:scale"

def XformField.attributeType : XformField → String
  | .t => "double3"
  | .r => "quatf"
  | .s => "float3"

def xformFields : List XformField := [.t, .r, .s]

def canonicalXformOpOrder : Datum :=
  .texts (xformFields.map XformField.attribute)

def CachedOps.handle (ops : CachedOps) : XformField → OpHandle
  | .t => ops.translate
  | .r => ops.orient
  | .s => ops.scale

/-- `find_op` for the three canonical ops. -/
def findOps (stage : Stage) (prim : ScenePath) : CachedOps :=
  let find (field : XformField) : OpHandle :=
    if (usd.attributeType stage prim field.attribute).isSome then .live else .missing
  ⟨find .t, find .r, find .s⟩

/-- `_author_canonical_ops`. -/
def authorCanonicalOps (prim : ScenePath) : SceneEdit Unit := do
  xformFields.forM fun field => declareAttribute target prim field.attribute field.attributeType
  let stage ← stageNow target
  let order : SpecPath := ⟨prim.specPath, some "xformOpOrder"⟩
  if !stage.layer.hasSpec order then
    editLayer target (.author order .attribute (.info "typeName") (.text "token[]"))
    editLayer target (.author order .attribute (.info "variability") (.text "uniform"))
  editLayer target (.author order .attribute (.info "default") canonicalXformOpOrder)

/-- `has_local_stack` of `ensure_canonical_ops`. -/
def hasLocalStack (layer : Layer) (prim : ScenePath) : Bool :=
  xformFields.all (fun field => layer.hasSpec ⟨prim.specPath, some field.attribute⟩) &&
    layer.info ⟨prim.specPath, some "xformOpOrder"⟩ "default" = some canonicalXformOpOrder

/-- The op stack of an existing prim: authored locally when it is not, and the handles to use.
Cached handles are kept when none of them is missing. -/
def localOps (prim : ScenePath) (cached : Option CachedOps) : SceneEdit CachedOps := do
  let stage ← stageNow target
  let found : SceneEdit CachedOps := Edit.look fun scene => findOps usd (scene.stage target) prim
  if hasLocalStack stage.layer prim then
    match cached with
    | some ops => if xformFields.all fun field => ops.handle field ≠ .missing then pure ops else found
    | none => found
  else do
    authorCanonicalOps target prim
    found

/-- `ensure_canonical_ops`; `cached` is what the op cache holds for the prim. -/
def ensureCanonicalOps (prim : ScenePath) (cached : Option CachedOps) : SceneEdit CachedOps := do
  if !(← primAt usd target prim) then definePrim usd target prim "Xform"
  localOps usd target prim cached

/-- The value writes of `_apply_set_xform_trs` through given handles. -/
def setXformValues (prim : ScenePath) (values : OrderedDict XformField Datum)
    (time : Option TimeCode) (ops : CachedOps) : SceneEdit Unit :=
  xformFields.forM fun field => do
    match values.get? field, ← attributeType usd target prim field.attribute with
    | some value, some typeName =>
        if ops.handle field = .live then
          setValue usd target prim field.attribute typeName time value
    | _, _ => pure ()

/-- `_apply_set_xform_trs` without an op cache. -/
def applySetXformTrs (prim : ScenePath) (values : OrderedDict XformField Datum)
    (time : Option TimeCode) : SceneEdit Unit := do
  if ← primAt usd target prim then
    let stage ← stageNow target
    setXformValues usd target prim values time (findOps usd stage prim)

/-! ### Values -/

def applySetVisibility (prim : ScenePath) (visible : Bool) (time : Option TimeCode) :
    SceneEdit Unit := do
  if ← primAt usd target prim then
    match ← attributeType usd target prim "visibility" with
    | some typeName =>
        setValue usd target prim "visibility" typeName time
          (.text (if visible then "inherited" else "invisible"))
    | none => Edit.raise "invalid visibility attribute"

/-- `_set_gprim_attr`: only attributes that exist. -/
def setGprimAttr (prim : ScenePath) (name : String) (value : Datum) (time : Option TimeCode) :
    SceneEdit Unit := do
  match ← attributeType usd target prim name with
  | none => pure ()
  | some typeName =>
      let value ← converted usd typeName value
      setValue usd target prim name typeName time value

/-- `_ensure_primvar_attr`. -/
def ensurePrimvarAttr (prim : ScenePath) (name : String) (info : PrimvarMeta) :
    SceneEdit Unit := do
  if usd.valueType info.typeName then
    guardAuthoring usd target prim
    declareAttribute target prim name info.typeName
    match info.interpolation with
    | some interpolation =>
        if interpolation ≠ "" then
          setAttributeInfo usd target prim name info.typeName "interpolation" (.text interpolation)
    | none => pure ()

def setInterpolation (prim : ScenePath) (name interpolation : String) : SceneEdit Unit := do
  match ← attributeType usd target prim name with
  | some typeName =>
      setAttributeInfo usd target prim name typeName "interpolation" (.text interpolation)
  | none => pure ()

/-- `_apply_set_gprim_attrs`. -/
def applySetGprimAttrs (prim : ScenePath) (attrs : OrderedDict String Datum)
    (primvarMeta : OrderedDict String PrimvarMeta) (attrInterp : OrderedDict String String)
    (time : Option TimeCode) : SceneEdit Unit := do
  if ← primAt usd target prim then
    attrs.entries.forM fun (name, value) => do
      match primvarMeta.get? name, ← attributeType usd target prim name with
      | some info, none => ensurePrimvarAttr usd target prim name info
      | _, _ => pure ()
      setGprimAttr usd target prim name value time
    primvarMeta.entries.forM fun (name, info) => do
      match info.interpolation with
      | some interpolation =>
          if interpolation ≠ "" then setInterpolation usd target prim name interpolation
      | none => pure ()
    attrInterp.entries.forM fun (name, interpolation) =>
      setInterpolation usd target prim name interpolation

def applySetInstanceable (prim : ScenePath) (instanceable : Bool) : SceneEdit Unit := do
  getOrDefinePrim usd target prim "Xform" false
  guardAuthoring usd target prim
  authorPrimInfo target prim "instanceable" (.flag instanceable)

/-- Attribute name and type a point-instancer array is authored to. -/
def InstancerField.attribute : InstancerField → Option (String × String)
  | .prototypes | .inactiveIds => none
  | .protoIndices => some ("protoIndices", "int[]")
  | .positions => some ("positions", "point3f[]")
  | .orientations => some ("orientationsf", "quatf[]")
  | .scales => some ("scales", "float3[]")
  | .velocities => some ("velocities", "vector3f[]")
  | .accelerations => some ("accelerations", "vector3f[]")
  | .angularVelocities => some ("angularVelocities", "vector3f[]")
  | .ids => some ("ids", "int64[]")
  | .invisibleIds => some ("invisibleIds", "int64[]")

def instancerFields : List InstancerField :=
  [.prototypes, .protoIndices, .positions, .orientations, .scales, .velocities, .accelerations,
    .angularVelocities, .ids, .invisibleIds, .inactiveIds]

/-- Author relationship targets in the edit target. -/
def setTargets (prim : ScenePath) (name : String) (targets : Datum) : SceneEdit Unit := do
  guardAuthoring usd target prim
  editLayer target
    (.author ⟨prim.specPath, some name⟩ .relationship (.info "targetPaths") targets)

/-- One field of a point instancer. -/
def setInstancerField (prim : ScenePath) (field : InstancerField) (value : Datum)
    (time : Option TimeCode) : SceneEdit Unit :=
  match field.attribute with
  | some (name, typeName) => do
      let value ← converted usd typeName value
      setValue usd target prim name typeName time value
  | none =>
      if field = .prototypes then setTargets usd target prim "prototypes" value
      else do
        guardAuthoring usd target prim
        authorPrimInfo target prim "inactiveIds" value

/-- `_apply_set_point_instancer`. -/
def applySetPointInstancer (prim : ScenePath) (values : OrderedDict InstancerField Datum)
    (time : Option TimeCode) : SceneEdit Unit := do
  let stage ← stageNow target
  if usd.primAt stage prim ∧ usd.isA stage prim "PointInstancer" then
    instancerFields.forM fun field =>
      match values.get? field with
      | some value => setInstancerField usd target prim field value time
      | none => pure ()

/-! ### Stage metadata, arcs and payload state -/

def StageMetadataKey.field : StageMetadataKey → String
  | .timeCodesPerSecond => "timeCodesPerSecond"
  | .framesPerSecond => "framesPerSecond"
  | .startTimeCode => "startTimeCode"
  | .endTimeCode => "endTimeCode"
  | .metersPerUnit => "metersPerUnit"
  | .upAxis => "upAxis"

def stageMetadataKeys : List StageMetadataKey :=
  [.timeCodesPerSecond, .framesPerSecond, .startTimeCode, .endTimeCode, .metersPerUnit, .upAxis]

/-- `_apply_set_stage_metadata`: only the keys present are written. -/
def applySetStageMetadata (values : OrderedDict StageMetadataKey Datum) : SceneEdit Unit :=
  stageMetadataKeys.forM fun key =>
    match values.get? key with
    | some value =>
        if key = .upAxis ∧ value = .text "" then pure ()
        else editLayer target (.author .root .layer (.info key.field) value)
    | none => pure ()

/-- `_apply_set_variant_selections`: one info field per variant set. -/
def applySetVariantSelections (prim : ScenePath) (selections : OrderedDict String String) :
    SceneEdit Unit := do
  getOrDefinePrim usd target prim "Xform" false
  selections.entries.forM fun (setName, variantName) => do
    guardAuthoring usd target prim
    if variantName ≠ "" then
      authorPrimInfo target prim ("variantSelection:" ++ setName) (.text variantName)
    else
      editLayer target (.clear ⟨prim.specPath, none⟩ (.info ("variantSelection:" ++ setName)))

/-- `ARC_LIST_POSITIONS`. -/
def arcListPositions : List String :=
  ["explicit", "added", "prepended", "appended", "deleted", "ordered"]

/-- `_LIST_OP_FIELDS`: the buckets of a list op in authored order. -/
def listOpPositions : List String := ["added", "prepended", "appended", "deleted", "ordered"]

/-- Entries of a list op grouped by bucket. -/
def ArcState.items (state : ArcState) : List ArcItem :=
  if state.explicit then state.entries
  else listOpPositions.flatMap fun position =>
    state.entries.filter fun entry => entry.listPosition = position

/-- `apply_arc_state` on one list-op field. -/
def applyArcState (prim : ScenePath) (state : ArcState) (field : String) : SceneEdit Unit := do
  let authored := state.authored.getD (!state.entries.isEmpty || state.explicit)
  if !authored then
    if !state.entries.isEmpty || state.explicit then
      Edit.raise "an unauthored list op cannot contain entries or be explicit"
    else editLayer target (.clear ⟨prim.specPath, none⟩ (.info field))
  else authorPrimInfo target prim field (.arcs state.explicit state.items)

/-! ### Materials and shading networks -/

/-- API schemas applied to a prim in one layer. -/
def Layer.apiSchemas (layer : Layer) (prim : ScenePath) : List String :=
  match layer.info ⟨prim.specPath, none⟩ "apiSchemas" with
  | some (.texts names) => names
  | _ => []

/-- Append an applied API schema once. -/
def applyApi (prim : ScenePath) (name : String) : SceneEdit Unit := do
  guardAuthoring usd target prim
  let layer ← Edit.look fun scene => scene.layers target
  if name ∈ layer.apiSchemas prim then editLayer target (.create ⟨prim.specPath, none⟩ .prim)
  else authorPrimInfo target prim "apiSchemas" (.texts (layer.apiSchemas prim ++ [name]))

/-- Relationship that holds the binding for a purpose. -/
def bindingRelationship (purpose : String) : String :=
  if purpose = "" then "material:binding" else "material:binding:" ++ purpose

/-- `_apply_set_material_binding`. -/
def applySetMaterialBinding (prim : ScenePath) (materialPath : Option ScenePath)
    (purpose : String) : SceneEdit Unit := do
  getOrDefinePrim usd target prim "Xform" false
  applyApi usd target prim "MaterialBindingAPI"
  let stage ← stageNow target
  if !usd.hasRelationship stage prim (bindingRelationship purpose) then
    editLayer target
      (.author ⟨prim.specPath, some (bindingRelationship purpose)⟩ .relationship (.info "custom")
        (.flag true))
  setTargets usd target prim (bindingRelationship purpose)
    (.paths (materialPath.toList.map fun path => ⟨path.specPath, none⟩))

/-- `set_connectable_input_value`: unknown types are ignored, existing inputs keep their type. -/
def setConnectableInputValue (prim : ScenePath) (name : String) (value : Datum)
    (typeName : String) (time : Option TimeCode) : SceneEdit Unit := do
  if usd.valueType typeName then
    let input := (ConnectableAttr.mk true name).qualifiedName
    let declared ← attributeType usd target prim input
    if declared.isNone then
      guardAuthoring usd target prim
      declareAttribute target prim input typeName
    let value ← converted usd typeName value
    setValue usd target prim input (declared.getD typeName) time value

/-- The value writes of `_apply_set_connectable_input`. -/
def setConnectableInputs (prim : ScenePath) (inputs : OrderedDict String Datum)
    (inputTypes : OrderedDict String String) (time : Option TimeCode) : SceneEdit Unit :=
  inputs.entries.forM fun (name, value) =>
    setConnectableInputValue usd target prim name value
      ((inputTypes.get? name).getD "float") time

/-- The shader of an `info:id`, defined when missing. -/
def setShaderId (prim : ScenePath) (infoId : String) : SceneEdit Unit := do
  if !(← primAt usd target prim) then getOrDefinePrim usd target prim "Shader" false
  let stage ← stageNow target
  if usd.isA stage prim "Shader" ∧
      usd.attributeValue stage prim "info:id" ≠ some (.text infoId) then
    setValue usd target prim "info:id" "token" none (.text infoId)

/-- `_apply_set_connectable_input`.  Without an id a missing prim is only overridden, and only
when there is something to write. -/
def applySetConnectableInput (prim : ScenePath) (infoId : String)
    (inputs : OrderedDict String Datum) (inputTypes : OrderedDict String String)
    (time : Option TimeCode) : SceneEdit Unit := do
  if infoId ≠ "" then
    setShaderId usd target prim infoId
    setConnectableInputs usd target prim inputs inputTypes time
  else if ← primAt usd target prim then
    setConnectableInputs usd target prim inputs inputTypes time
  else if inputs.entries.isEmpty then pure ()
  else
    overridePrim usd target prim
    setConnectableInputs usd target prim inputs inputTypes time

/-- `resolve_shader_port_type`. -/
def resolveShaderPortType (stage : Stage) (prim : ScenePath) (attr : ConnectableAttr) :
    Option String :=
  match usd.attributeValue stage prim "info:id" with
  | some (.text shaderId) =>
      if shaderId = "" then none else usd.shaderPortType shaderId attr.isInput attr.baseName
  | _ => none

/-- `_get_or_create_connectable_port`: the type of the port afterwards. -/
def getOrCreateConnectablePort (prim : ScenePath) (attr : ConnectableAttr)
    (fallbackType : Option String) : SceneEdit String := do
  let stage ← stageNow target
  match usd.attributeType stage prim attr.qualifiedName with
  | some typeName => return typeName
  | none =>
      let typeName := (resolveShaderPortType usd stage prim attr).getD (fallbackType.getD "token")
      guardAuthoring usd target prim
      declareAttribute target prim attr.qualifiedName typeName
      return typeName

/-- One connection of `_apply_set_connectable_connection`: the source prim and port are made when
missing, then the local port, then the edge. -/
def applyConnection (prim : ScenePath) (localAttr : ConnectableAttr) (source : ConnSource) :
    SceneEdit Unit := do
  if !(← primAt usd target source.sourcePrim) then
    getOrDefinePrim usd target source.sourcePrim "Shader" false
  let sourceType ← getOrCreateConnectablePort usd target source.sourcePrim source.sourceAttr none
  let localType ← getOrCreateConnectablePort usd target prim localAttr (some sourceType)
  setAttributeInfo usd target prim localAttr.qualifiedName localType "connectionPaths"
    (.paths [⟨source.sourcePrim.specPath, some source.sourceAttr.qualifiedName⟩])

/-- `_apply_set_connectable_connection`. -/
def applySetConnectableConnection (prim : ScenePath)
    (connections : OrderedDict ConnectableAttr ConnSource)
    (disconnections : List ConnectableAttr) : SceneEdit Unit := do
  if ← primAt usd target prim then
    connections.entries.forM fun (localAttr, source) =>
      applyConnection usd target prim localAttr source
    disconnections.forM fun localAttr => do
      match ← attributeType usd target prim localAttr.qualifiedName with
      | some typeName =>
          setAttributeInfo usd target prim localAttr.qualifiedName typeName "connectionPaths"
            (.paths [])
      | none => pure ()

/-! ### Prims -/

/-- `_apply_api_schemas`: unknown names are skipped. -/
def applyApiSchemas (prim : ScenePath) (names : List String) : SceneEdit Unit :=
  names.forM fun name =>
    if usd.apiSchema name then applyApi usd target prim name else pure ()

/-- `_apply_ensure_prim`. -/
def applyEnsurePrim (prim : ScenePath) (typeName : String) (apiSchemas : List String) :
    SceneEdit Unit := do
  let ensureDefinition := typeName ≠ "" ∨ apiSchemas = []
  if ensureDefinition ∨ !(← primAt usd target prim) then
    getOrDefinePrim usd target prim typeName ensureDefinition
  applyApiSchemas usd target prim apiSchemas

/-- `_apply_delete_prim`: the spec in the edit target and everything below it. -/
def applyDeletePrim (prim : ScenePath) : SceneEdit Unit :=
  editLayer target (.remove ⟨prim.specPath, none⟩)

def applyDeactivatePrim (prim : ScenePath) (active : Bool) : SceneEdit Unit := do
  if ← primAt usd target prim then
    guardAuthoring usd target prim
    authorPrimInfo target prim "active" (.flag active)

/-- `_apply_rename_prim`: a namespace edit that moves the subtree, refused when the new name is
taken. -/
def applyRenamePrim (prim : ScenePath) (newName : String) : SceneEdit Unit := do
  let layer ← Edit.look fun scene => scene.layers target
  let source := prim.specPath
  let renamed := source.dropLast ++ [.child newName]
  if layer.hasPrim source then
    if renamed = source then pure ()
    else if layer.hasPrim renamed then Edit.raise "failed to rename Sdf prim spec"
    else
      editLayer target (.graft renamed layer source)
      editLayer target (.remove ⟨source, none⟩)

/-! ### One event -/

/-- The registered applier of an event. -/
def Event.applier : Event → SceneEdit Unit
  | .ensurePrim prim typeName apiSchemas => applyEnsurePrim usd target prim typeName apiSchemas
  | .ensureXformOps prim => do let _ ← ensureCanonicalOps usd target prim none
  | .setXformTrs prim values time => applySetXformTrs usd target prim values time
  | .deletePrim prim => applyDeletePrim target prim
  | .deactivatePrim prim active => applyDeactivatePrim usd target prim active
  | .renamePrim prim newName => applyRenamePrim target prim newName
  | .setVisibility prim visible time => applySetVisibility usd target prim visible time
  | .setGprimAttrs prim attrs primvarMeta attrInterp time =>
      applySetGprimAttrs usd target prim attrs primvarMeta attrInterp time
  | .setReference prim state => applyArcState target prim state "references"
  | .setPayload prim state => applyArcState target prim state "payload"
  | .loadPayload prim => Edit.act (.load prim true)
  | .unloadPayload prim => Edit.act (.load prim false)
  | .setVariantSelections prim selections => applySetVariantSelections usd target prim selections
  | .setMaterialBinding prim materialPath purpose =>
      applySetMaterialBinding usd target prim materialPath purpose
  | .setConnectableInput prim infoId inputs inputTypes time =>
      applySetConnectableInput usd target prim infoId inputs inputTypes time
  | .setConnectableConnection prim connections disconnections =>
      applySetConnectableConnection usd target prim connections disconnections
  | .setStageMetadata values => applySetStageMetadata target values
  | .setInstanceable prim instanceable => applySetInstanceable usd target prim instanceable
  | .setPointInstancer prim values time => applySetPointInstancer usd target prim values time
  | .setSdfSpecFields delta => onLayer target (applySpecDeltaToLayer usd delta)
  | .eraseTimeSamples specPath times => onLayer target (UsdConnect.eraseTimeSamples specPath times)
  | .replaceSdfLayerContent fragment =>
      onLayer target (applyLayerContentReplacement usd fragment)

/-- `_is_instance_proxy_target`: beneath an instance nothing can be authored. -/
def isInstanceProxyTarget (stage : Stage) (event : Event) : Bool :=
  match event.prim with
  | none | some [] => false
  | some prim =>
      if !usd.hasPrototypes stage then false
      else if usd.primAt stage prim then usd.isInstanceProxy stage prim
      else
        -- nothing composes here: the nearest existing ancestor decides
        match prim.ancestors.reverse.find? (usd.primAt stage) with
        | some outer => usd.isInstance stage outer || usd.isInstanceProxy stage outer
        | none => false

/-- `apply_event`. -/
def applyEvent (event : Event) : SceneEdit Unit := do
  let stage ← stageNow target
  if isInstanceProxyTarget usd stage event then pure ()
  else applyingEvent target event (event.applier usd target)

/-! ### Batches -/

/-- Cached handles of prims that have left the stage are expired from then on. -/
def expireHandles : SceneEdit Unit := do
  let stage ← stageNow target
  Edit.act (.expireOps fun prim => !usd.primAt stage prim)

/-- Handles the op cache holds for a prim. -/
def cachedOps (prim : ScenePath) : SceneEdit (Option CachedOps) :=
  Edit.look fun scene => scene.opCache prim

/-- `ensure_xform_ops` of a segment: the handles it returns replace the cached ones. -/
def applyEnsureXformOpsCached (event : Event) (prim : ScenePath) : SceneEdit Unit := do
  let stage ← stageNow target
  if isInstanceProxyTarget usd stage event then pure ()
  else applyingEvent target event do
    let ops ← ensureCanonicalOps usd target prim (← cachedOps prim)
    Edit.act (.cacheOps prim ops)

/-- `set_xform_trs` of a segment: cached handles are used as they are. -/
def applySetXformTrsCached (event : Event) (prim : ScenePath)
    (values : OrderedDict XformField Datum) (time : Option TimeCode) : SceneEdit Unit := do
  let stage ← stageNow target
  if isInstanceProxyTarget usd stage event then pure ()
  else applyingEvent target event do
    match ← cachedOps prim with
    | some ops => setXformValues usd target prim values time ops
    | none =>
        if usd.primAt stage prim then
          Edit.act (.cacheOps prim (findOps usd stage prim))
          setXformValues usd target prim values time (findOps usd stage prim)

/-- One event of a segment. -/
def applySegmentEvent (event : Event) : SceneEdit Unit := do
  match event with
  | .ensureXformOps prim => applyEnsureXformOpsCached usd target event prim
  | .setXformTrs prim values time => applySetXformTrsCached usd target event prim values time
  | _ => applyEvent usd target event
  expireHandles usd target

end Appliers

namespace Event

def isApiSchemaOver : Event → Bool
  | .ensurePrim _ typeName apiSchemas => typeName = "" && !apiSchemas.isEmpty
  | _ => false

def createsPrim (event : Event) : Bool :=
  event.kind.create && !event.isApiSchemaOver

/-- `prim.count("/")`. -/
def depth (event : Event) : Nat :=
  (event.prim.map fun prim => max 1 prim.length).getD 0

/-- `is_sample_history_barrier`. -/
def isSampleHistoryBarrier : Event → Bool
  | .eraseTimeSamples .. => true
  | .setSdfSpecFields delta => delta.removed || "timeSamples" ∈ delta.fields
  | _ => false

/-- Events that keep their position in a batch. -/
def isBarrier (event : Event) : Bool :=
  match event.kind with
  | .deletePrim | .renamePrim => true
  | _ => event.isSampleHistoryBarrier

end Event

/-- Dependency order of a barrier-free segment. -/
def segmentOrder (events : List Event) : List Event :=
  let structural := events.filter fun event => event.kind.structural
  let create := (structural.filter Event.createsPrim).insertionSort fun first second =>
    first.depth ≤ second.depth
  let modify := structural.filter fun event => !event.createsPrim && !event.isApiSchemaOver
  let apiSchemaOvers := structural.filter Event.isApiSchemaOver
  let values := events.filter fun event => !event.kind.structural
  create ++ modify ++ apiSchemaOvers ++ values

section Batches

variable (usd : Usd) (target : LayerId)

/-- `_apply_segment`. -/
def applySegment (events : List Event) : SceneEdit Unit :=
  (segmentOrder events).forM (applySegmentEvent usd target)

/-- A barrier drops the cached handles of its own prim and is applied in place. -/
def applyBarrier (event : Event) : SceneEdit Unit := do
  Edit.act (.forgetOps fun prim => some prim = event.prim)
  applyEvent usd target event
  expireHandles usd target

/-- The loop of `apply_events`; `segment` is what has been collected since the last barrier. -/
def applyEventsLoop : List Event → List Event → SceneEdit Unit
  | segment, [] => applySegment usd target segment
  | segment, event :: rest =>
      if event.isBarrier then do
        applySegment usd target segment
        applyBarrier usd target event
        applyEventsLoop [] rest
      else applyEventsLoop (segment ++ [event]) rest

/-- `apply_events`. -/
def applyEvents (events : List Event) (prevalidated : Bool) : SceneEdit Unit := do
  if !prevalidated then
    events.forM fun event =>
      match event with
      | .setSdfSpecFields delta =>
          match validateSpecDelta usd delta with
          | some error => Edit.raise error
          | none => pure ()
      | _ => pure ()
  applyEventsLoop usd target [] events

end Batches

end UsdConnect
