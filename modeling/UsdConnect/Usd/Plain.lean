/-
Purpose: The composition of a stage whose only layer is the edit target: a prim exists where the
  layer has its spec, an attribute where it is declared or built into the prim's type.
Trusted boundary: built-in attributes and the layer text are given by a `Schema`
Main exports: Schema, Usd.plain
-/
import UsdConnect.Usd.Stage

namespace UsdConnect

/-- Type registry and layer text of the libraries. -/
structure Schema where
  /-- Type of an attribute that is built into a prim type. -/
  builtinType : String → String → Option String := fun _ _ => none
  importFromString : String → Option Layer := fun _ => none
  exportToString : Layer → String := fun _ => ""
  /-- Field names of a spec. -/
  listInfoKeys : Layer → SpecPath → List String := fun _ _ => []

/-- Type name authored on a prim; none reads as the empty name. -/
def Layer.typeName (layer : Layer) (prim : ScenePath) : String :=
  match layer.info ⟨prim.specPath, none⟩ "typeName" with
  | some (.text name) => name
  | _ => ""

/-- The libraries over a single layer. -/
def Usd.plain (schema : Schema) : Usd where
  primAt stage prim := stage.layer.hasPrim prim.specPath
  isDefined stage prim :=
    stage.layer.info ⟨prim.specPath, none⟩ "specifier" = some (.text "def")
  isA stage prim typeName := stage.layer.typeName prim = typeName
  attributeType stage prim name :=
    match stage.layer.info ⟨prim.specPath, some name⟩ "typeName" with
    | some (.text typeName) => some typeName
    | _ =>
        if stage.layer.hasPrim prim.specPath then
          schema.builtinType (stage.layer.typeName prim) name
        else none
  hasRelationship stage prim name := stage.layer.hasSpec ⟨prim.specPath, some name⟩
  attributeValue stage prim name := stage.layer.info ⟨prim.specPath, some name⟩ "default"
  hasPrototypes _ := false
  isInstance _ _ := false
  isInstanceProxy _ _ := false
  refuses _ _ := none
  valueType _ := true
  apiSchema _ := true
  shaderPortType _ _ _ := none
  coerce _ value := .ok value
  importFromString := schema.importFromString
  exportToString := schema.exportToString
  listInfoKeys := schema.listInfoKeys

end UsdConnect
