/-
Purpose: Exact authored field deltas of single specs: validation, application to a layer, merging
  of two deltas for one spec, sample erasure and replacement of a whole layer's content.
Trusted boundary: `Sdf.CopySpec` with field selection, and the layer text round trip inside `Usd`
Main exports: applySpecDeltaToLayer, mergeSpecEvents, eraseTimeSamples
-/
import UsdConnect.Events.Scene

namespace UsdConnect

/-- Authoring programs over a single layer. -/
abbrev LayerProgram := Edit LayerEdit.apply EditError

/-- Run a layer program in one layer of a scene. -/
def onLayer {α : Type} (target : LayerId) (program : LayerProgram α) : SceneEdit α :=
  fun scene =>
    let (edits, result) := program (scene.layers target)
    (edits.map (.layer target), result)

theorem execute_map_layer (target : LayerId) (edits : List LayerEdit) (scene : Scene) :
    Edit.execute Scene.exec (edits.map (.layer target)) scene =
      scene.withLayer target (Edit.execute LayerEdit.apply edits (scene.layers target)) := by
  induction edits generalizing scene with
  | nil => exact (scene.withLayer_self target).symm
  | cons edit rest ih =>
      rw [List.map_cons, Edit.execute_cons, ih]
      simp only [Scene.exec, Scene.withLayer_layers, Scene.withLayer_withLayer, Edit.execute_cons]

theorem onLayer_after {α : Type} (target : LayerId) (program : LayerProgram α) (scene : Scene) :
    (onLayer target program).after scene =
      scene.withLayer target (program.after (scene.layers target)) :=
  execute_map_layer target (program.edits (scene.layers target)) scene

def layerTopologyFields : List String := ["subLayers", "subLayerOffsets"]

namespace SdfSpecKind

/-- Concrete spec kind of a delta; `property` has none. -/
def concrete : SdfSpecKind → Option SpecKind
  | .layer => some .layer
  | .prim => some .prim
  | .attribute => some .attribute
  | .relationship => some .relationship
  | .variantSet => some .variantSet
  | .variant => some .variant
  | .property => none

/-- `_REQUIRED_FIELDS`. -/
def requiredFields : SdfSpecKind → List String
  | .layer | .variantSet | .property => []
  | .prim | .variant => ["specifier"]
  | .attribute => ["custom", "typeName", "variability"]
  | .relationship => ["custom", "variability"]

/-- The check of `_spec_path`. -/
def accepts (kind : SdfSpecKind) (path : SpecPath) : Bool :=
  match kind, path.property, path.prim.getLast? with
  | .layer, none, none => true
  | .prim, none, some (.child _) => true
  | .attribute, some _, some _ | .relationship, some _, some _ | .property, some _, some _ => true
  | .variantSet, none, some (.variantSet _) => true
  | .variant, none, some (.variant _) => true
  | _, _, _ => false

end SdfSpecKind

/-- `_get_spec`: the spec at a path when it has the delta's kind. -/
def Layer.hasSpecOfKind (layer : Layer) (path : SpecPath) (kind : SdfSpecKind) : Bool :=
  match layer.specKind path, kind with
  | none, _ => false
  | some found, .property => found = .attribute ∨ found = .relationship
  | some found, kind => kind.concrete = some found

/-- The checks of `_spec_delta_info`. -/
def checkSpecDelta (delta : SpecDelta) : Option EditError :=
  if !delta.specKind.accepts delta.specPath then some "path is not valid for Sdf spec kind"
  else if delta.fields.any (· = "") then some "Sdf spec field names must be non-empty strings"
  else if delta.specKind = .layer ∧ delta.fields.any (· ∈ layerTopologyFields) then
    some "sublayer topology is not a field-delta operation"
  else if delta.removed ∧ delta.specKind = .layer then
    some "the pseudo-root spec cannot be removed"
  else if delta.specKind = .property ∧ !delta.removed then
    some "the generic property kind is valid only for removal"
  else none

/-- `_remove_spec`.  A missing variant set still loses its name in the owner's list. -/
def removeSpec (path : SpecPath) (kind : SdfSpecKind) : LayerProgram Unit := do
  let layer ← Edit.look id
  if layer.hasSpecOfKind path kind then Edit.act (.remove path)
  else
    match kind, path.prim.getLast? with
    | .variantSet, some (.variantSet name) =>
        let owner : SpecPath := ⟨path.prim.owningPrim, none⟩
        match layer.info owner "variantSetNames" with
        | some (.texts names) =>
            Edit.act (.author owner .prim (.info "variantSetNames")
              (.texts (names.filter (· ≠ name))))
        | _ => pure ()
    | _, _ => pure ()

def reservedLayerDataKey : String := "openusdconnect"

/-- `dict(layer.customLayerData)`. -/
def Layer.layerData (layer : Layer) : List (String × String) :=
  match layer.info .root "customLayerData" with
  | some (.dictionary entries) => entries
  | _ => []

/-- The entry that belongs to the collaboration, if there is one. -/
def Layer.reservedData (layer : Layer) : List (String × String) :=
  layer.layerData.filter (·.1 = reservedLayerDataKey)

/-- Everything else in the layer data. -/
def Layer.ownData (layer : Layer) : List (String × String) :=
  layer.layerData.filter (·.1 ≠ reservedLayerDataKey)

/-- The value `_should_copy_value` selects for `customLayerData`: the source's own entries, and the
reserved entry of the target when it is preserved.  An empty dictionary that the source does not
author clears the field. -/
def copiedLayerData (source target : Layer) (preserve : Bool) : Option Datum :=
  let value := source.ownData ++ if preserve then target.reservedData else []
  if value ≠ [] ∨ (source.info .root "customLayerData").isSome then some (.dictionary value)
  else none

/-- The value copied for one selected field. -/
def copiedInfo (source target : Layer) (path : SpecPath) (kind : SpecKind) (preserve : Bool)
    (field : String) : Option Datum :=
  if kind = .layer ∧ field = "customLayerData" then copiedLayerData source target preserve
  else source.info path field

/-- Copy one selected field: a field the source lacks is cleared. -/
def copyField (source : Layer) (path : SpecPath) (kind : SpecKind) (preserve : Bool)
    (field : String) : LayerProgram Unit := do
  if field = "timeSamples" then
    if kind = .attribute then Edit.act (.samples path fun time => source.value path (.sample time))
    else pure ()
  else
    let target ← Edit.look id
    match copiedInfo source target path kind preserve field with
    | some value => Edit.act (.author path kind (.info field) value)
    | none => Edit.act (.clear path (.info field))

/-- `_copy_spec_fields`. -/
def copySpecFields (source : Layer) (path : SpecPath) (kind : SdfSpecKind) (fields : List String)
    (includeRequired preserve : Bool) : LayerProgram Unit := do
  match kind.concrete with
  | none => Edit.raise "unsupported Sdf spec kind"
  | some concrete =>
      Edit.act (.create path concrete)
      (fields ++ if includeRequired then kind.requiredFields else []).forM fun field =>
        copyField source path concrete preserve field

/-- `dict.fromkeys` on a list of names. -/
def firstOccurrences (names : List String) : List String :=
  names.reverse.dedup.reverse

def fragmentVariantName : String := "__openusdconnect_fragment__"

section Text

variable (usd : Usd)

/-- `validate_spec_delta`. -/
def validateSpecDelta (delta : SpecDelta) : Option EditError :=
  match checkSpecDelta delta with
  | some error => some error
  | none =>
      if delta.removed then none
      else
        match usd.importFromString delta.fragment with
        | none => some "invalid Sdf spec fragment"
        | some fragment =>
            if fragment.hasSpecOfKind delta.specPath delta.specKind then none
            else some "fragment has no spec of the kind at the path"

/-- `apply_spec_delta_to_layer`. -/
def applySpecDeltaToLayer (delta : SpecDelta) : LayerProgram Unit := do
  match checkSpecDelta delta with
  | some error => Edit.raise error
  | none =>
      if delta.removed then removeSpec delta.specPath delta.specKind
      else
        match usd.importFromString delta.fragment with
        | none => Edit.raise "set_sdf_spec_fields requires a valid Sdf fragment"
        | some fragment =>
            if !fragment.hasSpecOfKind delta.specPath delta.specKind then
              Edit.raise "fragment has no spec of the kind at the path"
            else
              let layer ← Edit.look id
              if layer.hasSpecOfKind delta.specPath delta.specKind then
                copySpecFields fragment delta.specPath delta.specKind delta.fields false true
              else
                -- a spec of another kind makes way for the fragment's
                if layer.hasSpec delta.specPath then Edit.act (.remove delta.specPath)
                copySpecFields fragment delta.specPath delta.specKind delta.fields true true

/-- The scratch layer of `serialize_spec_fields`: the selected fields and the required declaration
data of one spec.  Layer text omits empty variant sets, so a variant set gets a child that is never
applied. -/
def serializedLayer (source : Layer) (path : SpecPath) (kind : SdfSpecKind)
    (fields : List String) : Layer :=
  let program : LayerProgram Unit := do
    copySpecFields source path kind (firstOccurrences fields) true false
    if kind = .variantSet then
      Edit.act (.create ⟨path.prim ++ [.variant fragmentVariantName], none⟩ .variant)
  program.after .empty

/-- `serialize_spec_fields` without asset stabilisation. -/
def serializeSpecFields (source : Layer) (path : SpecPath) (kind : SdfSpecKind)
    (fields : List String) : String :=
  usd.exportToString (serializedLayer source path kind fields)

/-- The scratch layer of a merge, with both deltas applied. -/
def mergeOutput (previous current : SpecDelta) : Layer :=
  (applySpecDeltaToLayer usd current).after ((applySpecDeltaToLayer usd previous).after .empty)

def mergedFields (previous current : SpecDelta) : List String :=
  firstOccurrences (previous.fields ++ current.fields)

/-- `merge_spec_events`: apply both to a scratch layer and serialize the union of their fields. -/
def mergeSpecEvents (previous current : SpecDelta) : SpecDelta :=
  if current.removed ∨ previous.removed then current
  else
    { current with
      fields := mergedFields previous current
      fragment := serializeSpecFields usd (mergeOutput usd previous current) current.specPath
        current.specKind (mergedFields previous current)
      removed := false }

/-- `apply_layer_content_replacement`: authored content is replaced, sublayers and the reserved
layer data stay. -/
def applyLayerContentReplacement (fragment : String) : LayerProgram Unit := do
  match usd.importFromString fragment with
  | none => Edit.raise "replace_sdf_layer_content requires a valid Sdf fragment"
  | some incoming =>
      if (incoming.info .root "subLayers").isSome then
        Edit.raise "layer content replacement cannot author sublayer topology"
      else
        let layer ← Edit.look id
        Edit.act (.replace incoming)
        ["subLayers", "subLayerOffsets"].forM fun field => copyField layer .root .layer false field
        match incoming.ownData ++ layer.reservedData with
        | [] => Edit.act (.clear .root (.info "customLayerData"))
        | data => Edit.act (.author .root .layer (.info "customLayerData") (.dictionary data))

end Text

/-- `erase_time_samples`. -/
def eraseTimeSamples (path : SpecPath) (times : List TimeCode) : LayerProgram Unit := do
  let layer ← Edit.look id
  if layer.hasSpecOfKind path .attribute then
    times.forM fun time => Edit.act (.clear path (.sample time))

end UsdConnect
