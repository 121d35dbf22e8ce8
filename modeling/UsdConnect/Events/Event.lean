/-
Purpose: The event kinds of the protocol with their classification table, and validated event
  payloads.
Trusted boundary: payloads are the ones that passed validation; sublayer events are modelled with
  the layer graph
Main exports: EventKind, Event, Event.kind, Event.prim
-/
import UsdConnect.Lib.OrderedDict
import UsdConnect.Usd.Layer

namespace UsdConnect

/-- Wire discriminator `k`. -/
inductive EventKind where
  | ensurePrim
  | ensureXformOps
  | setXformTrs
  | deletePrim
  | deactivatePrim
  | renamePrim
  | setVisibility
  | setGprimAttrs
  | setReference
  | setPayload
  | loadPayload
  | unloadPayload
  | setVariantSelections
  | setMaterialBinding
  | setConnectableInput
  | setConnectableConnection
  | setStageMetadata
  | setInstanceable
  | setPointInstancer
  | setSdfSpecFields
  | eraseTimeSamples
  | replaceSdfLayerContent
deriving DecidableEq, Repr

namespace EventKind

/-- `STRUCTURAL_EVENT_KINDS`. -/
def structural : EventKind → Bool
  | .setXformTrs | .deletePrim | .deactivatePrim | .renamePrim | .setVisibility | .setGprimAttrs
  | .setPointInstancer => false
  | _ => true

/-- `CREATE_KINDS`. -/
def create : EventKind → Bool
  | .ensurePrim | .setStageMetadata => true
  | _ => false

/-- `NON_COLLABORATION_KINDS`: the session layer's metadata and the payload load rules. -/
def nonCollaboration : EventKind → Bool
  | .setStageMetadata | .loadPayload | .unloadPayload => true
  | _ => false

end EventKind

/-- A translate, rotate or scale component. -/
inductive XformField where
  | t
  | r
  | s
deriving DecidableEq, Repr

/-- `POINT_INSTANCER_FIELDS`. -/
inductive InstancerField where
  | prototypes
  | protoIndices
  | positions
  | orientations
  | scales
  | velocities
  | accelerations
  | angularVelocities
  | ids
  | invisibleIds
  | inactiveIds
deriving DecidableEq, Repr

/-- `STAGE_METADATA_KEYS`. -/
inductive StageMetadataKey where
  | timeCodesPerSecond
  | framesPerSecond
  | startTimeCode
  | endTimeCode
  | metersPerUnit
  | upAxis
deriving DecidableEq, Repr

/-- Declared type and optional interpolation of a primvar. -/
structure PrimvarMeta where
  typeName : String
  interpolation : Option String := none
deriving DecidableEq, Repr

/-- A qualified `inputs:` or `outputs:` attribute name. -/
structure ConnectableAttr where
  isInput : Bool
  baseName : String
deriving DecidableEq, Repr

def ConnectableAttr.qualifiedName (attr : ConnectableAttr) : String :=
  (if attr.isInput then "inputs:" else "outputs:") ++ attr.baseName

/-- Upstream end of a connection. -/
structure ConnSource where
  sourcePrim : ScenePath
  sourceAttr : ConnectableAttr
deriving DecidableEq, Repr

/-- `spec_kind` of an exact delta; `property` is valid only for removal. -/
inductive SdfSpecKind where
  | layer
  | prim
  | attribute
  | relationship
  | variantSet
  | variant
  | property
deriving DecidableEq, Repr

/-- Delta for selected fields of one exact spec. -/
structure SpecDelta where
  specPath : SpecPath
  specKind : SdfSpecKind
  fields : List String
  fragment : String := ""
  removed : Bool := false
deriving DecidableEq, Repr

/-- Authored list op of a reference or payload event. -/
structure ArcState where
  entries : List ArcItem
  authored : Option Bool := none
  explicit : Bool := false
deriving DecidableEq, Repr

/-- One protocol event. -/
inductive Event where
  | ensurePrim (prim : ScenePath) (typeName : String) (apiSchemas : List String)
  | ensureXformOps (prim : ScenePath)
  | setXformTrs (prim : ScenePath) (values : OrderedDict XformField Datum)
      (time : Option TimeCode)
  | deletePrim (prim : ScenePath)
  | deactivatePrim (prim : ScenePath) (active : Bool)
  | renamePrim (prim : ScenePath) (newName : String)
  | setVisibility (prim : ScenePath) (visible : Bool) (time : Option TimeCode)
  | setGprimAttrs (prim : ScenePath) (attrs : OrderedDict String Datum)
      (primvarMeta : OrderedDict String PrimvarMeta) (attrInterp : OrderedDict String String)
      (time : Option TimeCode)
  | setReference (prim : ScenePath) (state : ArcState)
  | setPayload (prim : ScenePath) (state : ArcState)
  | loadPayload (prim : ScenePath)
  | unloadPayload (prim : ScenePath)
  | setVariantSelections (prim : ScenePath) (selections : OrderedDict String String)
  | setMaterialBinding (prim : ScenePath) (materialPath : Option ScenePath) (purpose : String)
  | setConnectableInput (prim : ScenePath) (infoId : String) (inputs : OrderedDict String Datum)
      (inputTypes : OrderedDict String String) (time : Option TimeCode)
  | setConnectableConnection (prim : ScenePath)
      (connections : OrderedDict ConnectableAttr ConnSource)
      (disconnections : List ConnectableAttr)
  | setStageMetadata (values : OrderedDict StageMetadataKey Datum)
  | setInstanceable (prim : ScenePath) (instanceable : Bool)
  | setPointInstancer (prim : ScenePath) (values : OrderedDict InstancerField Datum)
      (time : Option TimeCode)
  | setSdfSpecFields (delta : SpecDelta)
  | eraseTimeSamples (specPath : SpecPath) (times : List TimeCode)
  | replaceSdfLayerContent (fragment : String)
deriving DecidableEq, Repr

namespace Event

def kind : Event → EventKind
  | .ensurePrim .. => .ensurePrim
  | .ensureXformOps .. => .ensureXformOps
  | .setXformTrs .. => .setXformTrs
  | .deletePrim .. => .deletePrim
  | .deactivatePrim .. => .deactivatePrim
  | .renamePrim .. => .renamePrim
  | .setVisibility .. => .setVisibility
  | .setGprimAttrs .. => .setGprimAttrs
  | .setReference .. => .setReference
  | .setPayload .. => .setPayload
  | .loadPayload .. => .loadPayload
  | .unloadPayload .. => .unloadPayload
  | .setVariantSelections .. => .setVariantSelections
  | .setMaterialBinding .. => .setMaterialBinding
  | .setConnectableInput .. => .setConnectableInput
  | .setConnectableConnection .. => .setConnectableConnection
  | .setStageMetadata .. => .setStageMetadata
  | .setInstanceable .. => .setInstanceable
  | .setPointInstancer .. => .setPointInstancer
  | .setSdfSpecFields .. => .setSdfSpecFields
  | .eraseTimeSamples .. => .eraseTimeSamples
  | .replaceSdfLayerContent .. => .replaceSdfLayerContent

/-- The `prim` key of an event.  Exact events carry the scene prim that owns their spec path, the
pseudo-root for layer-wide ones; stage metadata has none. -/
def prim : Event → Option ScenePath
  | .ensurePrim prim .. | .ensureXformOps prim | .setXformTrs prim .. | .deletePrim prim
  | .deactivatePrim prim .. | .renamePrim prim .. | .setVisibility prim .. | .setGprimAttrs prim ..
  | .setReference prim .. | .setPayload prim .. | .loadPayload prim | .unloadPayload prim
  | .setVariantSelections prim .. | .setMaterialBinding prim .. | .setConnectableInput prim ..
  | .setConnectableConnection prim .. | .setInstanceable prim .. | .setPointInstancer prim .. =>
      some prim
  | .setSdfSpecFields delta => some delta.specPath.routedPrim
  | .eraseTimeSamples specPath _ => some specPath.routedPrim
  | .replaceSdfLayerContent _ => some []
  | .setStageMetadata _ => none

/-- `time` of an event; `none` is the default time. -/
def time : Event → Option TimeCode
  | .setXformTrs _ _ time | .setVisibility _ _ time | .setGprimAttrs _ _ _ _ time
  | .setConnectableInput _ _ _ _ time | .setPointInstancer _ _ time => time
  | _ => none

end Event

end UsdConnect
