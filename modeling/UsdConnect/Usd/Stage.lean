/-
Purpose: What the USD libraries compose: the layers of a stage with muting, payload load rules and
  an edit target; the libraries themselves are a parameter.
Trusted boundary: `Usd` stands for composition, schema registries and value conversion of the
  USD libraries
Main exports: Stage, Usd, ScenePath.ancestors
-/
import UsdConnect.Usd.Layer

namespace UsdConnect

abbrev LayerId := String

abbrev EditError := String

/-- A stage seen through its current edit target. -/
structure Stage where
  layers : LayerId → Layer
  muted : LayerId → Bool := fun _ => false
  loadRules : ScenePath → Option Bool := fun _ => none
  target : LayerId

namespace Stage

def layer (stage : Stage) : Layer :=
  stage.layers stage.target

end Stage

/-- The USD libraries: composed queries on a stage, schema and type registries, value conversion
and layer text. -/
structure Usd where
  /-- `GetPrimAtPath` returns a valid prim. -/
  primAt : Stage → ScenePath → Bool
  isDefined : Stage → ScenePath → Bool
  isA : Stage → ScenePath → String → Bool
  /-- Type name of a valid attribute of a prim. -/
  attributeType : Stage → ScenePath → String → Option String
  hasRelationship : Stage → ScenePath → String → Bool
  /-- `attr.Get()` at default time. -/
  attributeValue : Stage → ScenePath → String → Option Datum
  hasPrototypes : Stage → Bool
  isInstance : Stage → ScenePath → Bool
  isInstanceProxy : Stage → ScenePath → Bool
  /-- An authoring call on this prim raises. -/
  refuses : Stage → ScenePath → Option EditError
  /-- `Sdf.ValueTypeNames.Find`. -/
  valueType : String → Bool
  /-- `Usd.SchemaRegistry.GetTypeFromSchemaTypeName`. -/
  apiSchema : String → Bool
  /-- Port type of a registered shader node: identifier, input or output, base name. -/
  shaderPortType : String → Bool → String → Option String
  /-- Conversion of a transported value to a declared type. -/
  coerce : String → Datum → Except EditError Datum
  importFromString : String → Option Layer
  exportToString : Layer → String
  /-- `spec.ListInfoKeys()`. -/
  listInfoKeys : Layer → SpecPath → List String

/-- Proper ancestors of a scene path, outermost first, without the pseudo-root. -/
def ScenePath.ancestors (prim : ScenePath) : List ScenePath :=
  prim.inits.filter fun outer => outer ≠ [] ∧ outer ≠ prim

end UsdConnect
