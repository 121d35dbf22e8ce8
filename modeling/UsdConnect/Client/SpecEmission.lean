/-
Purpose: The emitter's exact transport of spec fields in one edit target: what notices mark, what a
  build selects, what it remembers as sent, and the mirror layer.
Trusted boundary: the split of fields between channels, the text form of paths and the composed
  properties of the stage are given; sets are listed in one of their orders
Main exports: SourceLayer, SpecEmitter.record, SpecEmitter.build, SpecSession.step
-/
import Mathlib.Data.List.Sort
import Mathlib.Data.Prod.Lex
import Mathlib.Data.String.Basic
import UsdConnect.Events.SpecDelta
import UsdConnect.Lib.Machine
import UsdConnect.Lib.OrderedDict

namespace UsdConnect

/-! ### Specs and their fields -/

/-- Kind of the events about specs of a kind. -/
def SpecKind.delta : SpecKind → SdfSpecKind
  | .layer => .layer
  | .prim => .prim
  | .variantSet => .variantSet
  | .variant => .variant
  | .attribute => .attribute
  | .relationship => .relationship

/-- `_SDF_PROPERTY_KINDS`. -/
def SpecKind.isProperty : SpecKind → Bool
  | .attribute | .relationship => true
  | _ => false

/-- Kind and path of a spec. -/
structure SpecKey where
  kind : SpecKind
  path : SpecPath
  deriving DecidableEq, Repr

def PathElement.isVariantSet : PathElement → Bool
  | .variantSet _ => true
  | _ => false

def PathElement.isVariant : PathElement → Bool
  | .variant _ => true
  | _ => false

/-- A variant follows its set, and inside a path nothing else does. -/
def PrimPath.Selecting (path : PrimPath) : Prop :=
  path.IsChain fun outer inner => outer.isVariantSet = inner.isVariant

/-- `ContainsPrimVariantSelection`. -/
def PrimPath.containsVariant (path : PrimPath) : Bool :=
  path.any fun element => element.isVariantSet || element.isVariant

/-- Length of `GetPrefixes`: a set and its selection are one step. -/
def SpecPath.depth (path : SpecPath) : Nat :=
  (path.prim.filter (!·.isVariantSet)).length +
    (if path.prim.kind = .variantSet then 1 else 0) + if path.property.isSome then 1 else 0

/-- `_sdf_path_is_under`: the path of a variant set is a prefix of itself alone. -/
def SpecPath.IsUnder (path : SpecPath) (root : PrimPath) : Prop :=
  root <+: path.prim ∧ (root.kind = .variantSet → path = ⟨root, none⟩)

instance (path : SpecPath) (root : PrimPath) : Decidable (path.IsUnder root) :=
  inferInstanceAs (Decidable (_ ∧ _))

/-- A field of a spec of some kind: the sample table for `timeSamples`, else the same value at all
times.  Of the layer data only the layer's own entries count. -/
def Layer.fieldAs (layer : Layer) (key : SpecKey) (name : String) (time : TimeCode) :
    Option Datum :=
  if layer.specKind key.path = some key.kind then
    if name = "timeSamples" then
      if key.kind = .attribute then layer.value key.path (.sample time) else none
    else if key.kind = .layer ∧ name = "customLayerData" then
      if layer.ownData = [] then none else some (.dictionary layer.ownData)
    else layer.info key.path name
  else none

/-- `ListInfoKeys` lists the field. -/
def Layer.Authors (layer : Layer) (path : SpecPath) (name : String) : Prop :=
  if name = "timeSamples" then
    layer.specKind path = some .attribute ∧ ∃ time, (layer.value path (.sample time)).isSome
  else (layer.info path name).isSome

/-- An authored layer with its traversal.  Its specs stand at paths of their kinds. -/
structure SourceLayer where
  content : Layer
  paths : List SpecPath
  infoKeys : SpecPath → List String
  mem_paths : ∀ path, path ∈ paths ↔ content.hasSpec path = true
  mem_infoKeys : ∀ path name, name ∈ infoKeys path ↔ content.Authors path name
  named : ∀ path, "" ∉ infoKeys path
  standing : ∀ path kind, content.specKind path = some kind → kind.delta.accepts path = true
  selecting : ∀ path ∈ paths, path.prim.Selecting

/-- What the emitter is given: its fields among those of each spec, the text form of paths, and an
iteration order of `_SDF_PROPERTY_KINDS`. -/
structure SpecRules where
  generic : SpecKey → String → Bool
  text : SpecPath → String
  attributesFirst : Bool := true

namespace SpecRules

def propertyKinds (rules : SpecRules) : List SpecKind :=
  if rules.attributesFirst then [.attribute, .relationship] else [.relationship, .attribute]

/-- Fields that exact events carry: sublayer topology is never one of them. -/
def covers (rules : SpecRules) (key : SpecKey) (name : String) : Bool :=
  rules.generic key name && !(key.kind = .layer ∧ name ∈ layerTopologyFields)

end SpecRules

namespace SourceLayer

/-- `_generic_sdf_fields`. -/
def genericSdfFields (rules : SpecRules) (source : SourceLayer) (key : SpecKey) : List String :=
  (source.infoKeys key.path).filter fun name =>
    rules.covers key name &&
      !(key.kind = .layer ∧ name = "customLayerData" ∧ source.content.ownData = [])

/-- `spec.specifier`. -/
def specifier (source : SourceLayer) (path : SpecPath) : String :=
  match source.content.info path "specifier" with
  | some (.text specifier) => specifier
  | _ => "over"

/-- `bool(spec.typeName)`. -/
def isTyped (source : SourceLayer) (path : SpecPath) : Bool :=
  match source.content.info path "typeName" with
  | some (.text typeName) => typeName ≠ ""
  | _ => false

/-- `_sdf_spec_requires_identity`. -/
def sdfSpecRequiresIdentity (source : SourceLayer) (key : SpecKey) : Bool :=
  match key.kind with
  | .variant | .variantSet => true
  | .prim =>
      key.path.prim.containsVariant || source.specifier key.path = "class" ||
        (source.specifier key.path = "over" && source.isTyped key.path)
  | _ => false

/-- Key of the spec at a path. -/
def keyAt (source : SourceLayer) (path : SpecPath) : Option SpecKey :=
  (source.content.specKind path).map fun kind => ⟨kind, path⟩

end SourceLayer

/-! ### Marks -/

/-- Pending specs and subtrees, and the fields of each spec that were sent. -/
structure SpecEmitter where
  sdfSpecFields : OrderedDict SpecKey (List String) := .empty
  dirtySdfSpecs : OrderedDict SpecKey (Option (List String)) := .empty
  dirtySdfSubtrees : OrderedDict PrimPath Bool := .empty
  fullSdfSpecScan : Bool := false

/-- What a notice tells the emitter about an edit. -/
inductive SpecReport where
  /-- A spec with its changed fields, or with none named. -/
  | spec (key : SpecKey) (fields : Option (List String))
  /-- A property: its kind is looked up, on the composed stage when no layer tells. -/
  | property (path : SpecPath) (fields : Option (List String)) (composed : Option SpecKind)
      (localFields : List String)
  | subtree (root : PrimPath)
  /-- A snapshot of the whole layer is due. -/
  | everything

/-- The changed fields of two notices about one spec. -/
def mergeChangedFields : Option (List String) → Option (List String) → Option (List String)
  | some current, some fields => some (current ++ fields)
  | _, _ => none

namespace SpecEmitter

/-- `_mark_exact_sdf_spec`. -/
def markExactSdfSpec (emitter : SpecEmitter) (key : SpecKey) (fields : Option (List String)) :
    SpecEmitter :=
  { emitter with
    dirtySdfSpecs := emitter.dirtySdfSpecs.set key <|
      match emitter.dirtySdfSpecs.get? key with
      | some current => mergeChangedFields current fields
      | none => fields }

/-- `_mark_sdf_subtree`. -/
def markSdfSubtree (emitter : SpecEmitter) (root : PrimPath) (resync : Bool) : SpecEmitter :=
  { emitter with
    dirtySdfSubtrees := emitter.dirtySdfSubtrees.set root
      ((emitter.dirtySdfSubtrees.get? root).getD false || resync) }

/-- The key whose spec a property notice is about. -/
def propertyKey (rules : SpecRules) (emitter : SpecEmitter) (layer : Layer) (path : SpecPath)
    (composed : Option SpecKind) : Option SpecKey :=
  match (layer.specKind path).filter SpecKind.isProperty with
  | some kind => some ⟨kind, path⟩
  | none =>
      match rules.propertyKinds.find? fun kind =>
        (emitter.sdfSpecFields.get? ⟨kind, path⟩).isSome with
      | some kind => some ⟨kind, path⟩
      | none =>
          (emitter.sdfSpecFields.keys.find? fun key => key.kind.isProperty ∧
            key.path.prim.scenePath = path.prim.scenePath ∧
              key.path.property = path.property).or <|
            (composed.filter SpecKind.isProperty).map fun kind => ⟨kind, path⟩

/-- A key that only the composed stage knows. -/
def isComposedOnly (rules : SpecRules) (emitter : SpecEmitter) (layer : Layer) (path : SpecPath) :
    Bool :=
  (propertyKey rules emitter layer path none).isNone

/-- `_mark_sdf_property_spec`. -/
def markSdfPropertySpec (rules : SpecRules) (emitter : SpecEmitter) (layer : Layer)
    (path : SpecPath) (fields : Option (List String)) (composed : Option SpecKind)
    (localFields : List String) : SpecEmitter :=
  match emitter.propertyKey rules layer path composed with
  | some key =>
      emitter.markExactSdfSpec key <|
        if emitter.isComposedOnly rules layer path then some (fields.getD localFields) else fields
  | none => emitter

/-- The emitter after a notice, given the edited layer. -/
def record (rules : SpecRules) (emitter : SpecEmitter) (layer : Layer) :
    SpecReport → SpecEmitter
  | .spec key fields => emitter.markExactSdfSpec key fields
  | .property path fields composed localFields =>
      emitter.markSdfPropertySpec rules layer path fields composed localFields
  | .subtree root => emitter.markSdfSubtree root (layer.hasPrim root)
  | .everything => { emitter with fullSdfSpecScan := true }

/-! ### Selection -/

/-- A path under a marked subtree. -/
def underSubtree (emitter : SpecEmitter) (path : SpecPath) : Bool :=
  emitter.dirtySdfSubtrees.entries.any fun entry => path.IsUnder entry.1

/-- A path under a subtree that is read again. -/
def underResync (emitter : SpecEmitter) (path : SpecPath) : Bool :=
  emitter.dirtySdfSubtrees.entries.any fun entry => entry.2 && decide (path.IsUnder entry.1)

/-- `_collect_sdf_specs`. -/
def collectSdfSpecs (emitter : SpecEmitter) (source : SourceLayer) : List SpecKey :=
  let roots := if emitter.fullSdfSpecScan then [[]] else emitter.dirtySdfSubtrees.keys
  (source.paths.filter fun path => roots.any fun root => root <+: path.prim).filterMap
      source.keyAt ++
    emitter.dirtySdfSpecs.keys.filterMap fun key => source.keyAt key.path

def candidates (emitter : SpecEmitter) (source : SourceLayer) : List SpecKey :=
  (emitter.dirtySdfSpecs.keys ++ emitter.collectSdfSpecs source ++
    emitter.sdfSpecFields.keys.filter fun key =>
      emitter.fullSdfSpecScan || emitter.underSubtree key.path).dedup

/-- Every field of the spec is due. -/
def resynced (emitter : SpecEmitter) (key : SpecKey) : Bool :=
  emitter.fullSdfSpecScan || emitter.dirtySdfSpecs.get? key = some none ||
    emitter.underResync key.path

/-- Fields of a spec that the build sends. -/
def selectedFields (rules : SpecRules) (emitter : SpecEmitter) (source : SourceLayer)
    (key : SpecKey) (sent : Option (List String)) : List String :=
  let sdfFields := source.genericSdfFields rules key
  let previous := sent.getD []
  let selected :=
    if emitter.resynced key || (sent.isNone && emitter.underSubtree key.path) then
      sdfFields ++ previous
    else
      match emitter.dirtySdfSpecs.get? key with
      -- no names mean that no named fields changed, not a resync
      | some (some changed) => changed.filter (· ∈ sdfFields ++ previous)
      | _ => sdfFields.filter (· ∉ previous) ++ previous.filter (· ∉ sdfFields)
  let cleared :=
    match emitter.dirtySdfSpecs.get? key with
    | some (some changed) => changed.filter (· ∉ source.infoKeys key.path)
    | _ => []
  (selected ++ cleared).filter fun name => !(key.kind = .layer ∧ name ∈ layerTopologyFields)

end SpecEmitter

/-! ### Events -/

def sortedFields (fields : List String) : List String :=
  fields.dedup.insertionSort (· ≤ ·)

/-- `_SDF_REMOVE_KIND_ORDER`. -/
def SdfSpecKind.removeOrder : SdfSpecKind → Nat
  | .attribute | .relationship | .property => 0
  | .prim => 1
  | .variant => 2
  | .variantSet => 3
  | .layer => 4

/-- `_SDF_CREATE_KIND_ORDER`. -/
def SdfSpecKind.createOrder : SdfSpecKind → Nat
  | .layer => 0
  | .prim => 1
  | .variantSet => 2
  | .variant => 3
  | .attribute | .relationship | .property => 4

/-- `_sdf_event_sort_key`. -/
def sdfEventSortKey (rules : SpecRules) (delta : SpecDelta) : Nat ×ₗ Int ×ₗ Nat ×ₗ String :=
  if delta.removed then
    toLex (0, toLex (-(delta.specPath.depth : Int),
      toLex (delta.specKind.removeOrder, rules.text delta.specPath)))
  else
    toLex (1, toLex ((delta.specPath.depth : Int),
      toLex (delta.specKind.createOrder, rules.text delta.specPath)))

/-- A variant set inside a variant of its own prim: the copy of such a spec finds no parent, since
`_prepare_copy_destination` asks for the owning prim. -/
def SpecKey.nested (key : SpecKey) : Bool :=
  match key.kind with
  | .variantSet => PrimPath.kind key.path.prim.dropLast = .variant
  | .variant => PrimPath.kind key.path.prim.dropLast.dropLast = .variant
  | _ => false

/-- The loop over the candidates. -/
structure SpecBuild where
  events : List SpecDelta := []
  sdfSpecFields : OrderedDict SpecKey (List String)
  raised : Option EditError := none

def removalEvent (key : SpecKey) (fields : List String) : SpecDelta where
  specPath := key.path
  specKind := key.kind.delta
  fields := sortedFields fields
  removed := true

def fieldsEvent (usd : Usd) (source : SourceLayer) (key : SpecKey) (fields : List String) :
    SpecDelta where
  specPath := key.path
  specKind := key.kind.delta
  fields := sortedFields fields
  fragment := serializeSpecFields usd source.content key.path key.kind.delta (sortedFields fields)

namespace SpecEmitter

/-- A candidate that the source lacks. -/
def visitMissing (emitter : SpecEmitter) (build : SpecBuild) (key : SpecKey) : SpecBuild :=
  let previous := build.sdfSpecFields.get? key
  let changed := emitter.dirtySdfSpecs.get? key
  if previous.isSome || (changed.isSome && key.kind.isProperty) then
    { build with
      events := build.events ++
        [removalEvent key (previous.getD [] ++ (changed.bind id).getD [])]
      sdfSpecFields := build.sdfSpecFields.pop key }
  else build

/-- A candidate that the source has. -/
def visitPresent (rules : SpecRules) (usd : Usd) (emitter : SpecEmitter) (source : SourceLayer)
    (build : SpecBuild) (key : SpecKey) : SpecBuild :=
  let previous := build.sdfSpecFields.get? key
  let selected := emitter.selectedFields rules source key previous
  let identity := source.sdfSpecRequiresIdentity key
  let due := !selected.isEmpty || (identity && previous.isNone)
  if due && key.nested then { build with raised := some "failed to copy Sdf spec" }
  else
    let tracked := (previous.getD [] ++ selected).filter (· ∈ source.genericSdfFields rules key)
    { build with
      events := build.events ++ if due then [fieldsEvent usd source key selected] else []
      sdfSpecFields :=
        if !tracked.isEmpty || identity then build.sdfSpecFields.set key tracked
        else build.sdfSpecFields.pop key }

def visit (rules : SpecRules) (usd : Usd) (emitter : SpecEmitter) (source : SourceLayer)
    (build : SpecBuild) (key : SpecKey) : SpecBuild :=
  if build.raised.isSome then build
  else if source.content.specKind key.path = some key.kind then
    emitter.visitPresent rules usd source build key
  else emitter.visitMissing build key

/-- `_build_sdf_spec_events`: the emitter it leaves and the sorted events.  The marks are gone also
when it raises; a pending scan is then still pending. -/
def build (rules : SpecRules) (usd : Usd) (emitter : SpecEmitter) (source : SourceLayer) :
    SpecEmitter × Except EditError (List SpecDelta) :=
  let done := (emitter.candidates source).foldl (emitter.visit rules usd source)
    { sdfSpecFields := emitter.sdfSpecFields }
  match done.raised with
  | some error =>
      ({ sdfSpecFields := done.sdfSpecFields, fullSdfSpecScan := emitter.fullSdfSpecScan },
        .error error)
  | none =>
      ({ sdfSpecFields := done.sdfSpecFields },
        .ok (done.events.insertionSort fun first second =>
          sdfEventSortKey rules first ≤ sdfEventSortKey rules second))

end SpecEmitter

/-! ### Sessions -/

/-- A source layer, its emitter, and the mirror that applies what the builds send. -/
structure SpecSession where
  source : SourceLayer
  emitter : SpecEmitter := {}
  mirror : Layer := .empty
  /-- Specs whose fields were ever sent. -/
  everSent : List SpecKey := []
  /-- A build or the application of its events raised. -/
  raised : Bool := false

inductive SpecSessionAction where
  /-- The source becomes `next`, and the emitter is told so. -/
  | edit (next : SourceLayer) (report : SpecReport)
  | build

/-- Apply the events of a build in order. -/
def applySpecDeltas (usd : Usd) (events : List SpecDelta) : LayerProgram Unit :=
  events.forM (applySpecDeltaToLayer usd)

/-- Specs whose fields a batch sends. -/
def sentKeys (source : SourceLayer) (events : List SpecDelta) : List SpecKey :=
  (events.filter (!·.removed)).filterMap fun event => source.keyAt event.specPath

namespace SpecSession

/-- The layer that nothing was authored in. -/
def emptySource : SourceLayer where
  content := .empty
  paths := [.root]
  infoKeys _ := []
  mem_paths := by
    intro path
    by_cases top : path = .root <;> simp [Layer.hasSpec, Layer.empty, top]
  mem_infoKeys := by
    intro path name
    simp [Layer.Authors, Layer.info, Layer.empty]
  named := by simp
  standing := by
    intro path kind found
    by_cases top : path = .root
    · subst top
      have here : kind = .layer := by
        simpa [Layer.specKind, Layer.empty, SpecPath.root, PrimPath.kind, eq_comm] using found
      subst here
      rfl
    · simp [Layer.specKind, Layer.empty, top] at found
  selecting := by
    intro path top
    rw [List.mem_singleton.1 top]
    exact .nil

def start : SpecSession where
  source := emptySource

def step (rules : SpecRules) (usd : Usd) (session : SpecSession) :
    SpecSessionAction → Option SpecSession
  | .edit next report =>
      some { session with
        source := next
        emitter := session.emitter.record rules next.content report }
  | .build =>
      match session.emitter.build rules usd session.source with
      | (emitter, .error _) => some { session with emitter, raised := true }
      | (emitter, .ok events) =>
          let program := applySpecDeltas usd events
          some { session with
            emitter
            mirror := program.after session.mirror
            everSent := session.everSent ++ sentKeys session.source events
            raised := session.raised || !(program.result session.mirror matches .ok _) }

/-! ### What the claim is about -/

/-- Every spec ever sent is on the mirror as it is at the source, and the emitter lists those that
are there with their fields. -/
structure InStep (rules : SpecRules) (session : SpecSession) : Prop where
  finished : session.raised = false
  present : ∀ key ∈ session.everSent, session.source.content.specKind key.path = some key.kind →
    session.mirror.specKind key.path = some key.kind ∧ ∀ name, rules.covers key name = true →
      session.mirror.fieldAs key name = session.source.content.fieldAs key name
  absent : ∀ key ∈ session.everSent, session.source.content.specKind key.path ≠ some key.kind →
    session.mirror.specKind key.path ≠ some key.kind
  listed : ∀ key, (session.emitter.sdfSpecFields.get? key).isSome ↔
    key ∈ session.everSent ∧ session.source.content.specKind key.path = some key.kind
  fields : ∀ key names, session.emitter.sdfSpecFields.get? key = some names →
    ∀ name, name ∈ names ↔ name ∈ session.source.genericSdfFields rules key

/-- Outside the named fields the spec at a path is as it was, whatever its kind. -/
def OnlyFields (source next : Layer) (path : SpecPath) (fields : Option (List String)) : Prop :=
  (∀ other, other ≠ path → ∀ field, next.value other field = source.value other field) ∧
    ∀ names, fields = some names → ∀ kind, ∀ name ∉ names,
      next.fieldAs ⟨kind, path⟩ name = source.fieldAs ⟨kind, path⟩ name

/-- The named fields exist. -/
def NamedFields (fields : Option (List String)) : Prop :=
  ∀ names, fields = some names → "" ∉ names

/-- The report tells what the edit changed: a spec of its new kind, or of its old one when it is
removed, with its changed fields, or the subtree that holds the changes. -/
def Reports (source next : Layer) : SpecReport → Prop
  | .spec key fields =>
      OnlyFields source next key.path fields ∧ NamedFields fields ∧
        (next.specKind key.path = some key.kind ∨
          next.specKind key.path = none ∧ source.specKind key.path = some key.kind)
  | .property path fields _ localFields =>
      OnlyFields source next path fields ∧ NamedFields fields ∧ "" ∉ localFields ∧
        path.property.isSome ∧ (next.hasSpec path = true ∨ source.hasSpec path = true)
  | .subtree root => ∀ path, ¬ path.Inside ⟨root, none⟩ →
      ∀ field, next.value path field = source.value path field
  | .everything => True

/-- Edits are reported. -/
def Reported (session : SpecSession) : SpecSessionAction → Prop
  | .edit next report => Reports session.source.content next.content report
  | .build => True

/-- Layer text keeps the fragments of the specs that a build visits. -/
def TextsReadBack (rules : SpecRules) (usd : Usd) (session : SpecSession) :
    SpecSessionAction → Prop
  | .edit _ _ => True
  | .build => ∀ key ∈ session.emitter.candidates session.source,
      session.source.content.specKind key.path = some key.kind →
        let fields := sortedFields (session.emitter.selectedFields rules session.source key
          (session.emitter.sdfSpecFields.get? key))
        usd.importFromString
            (serializeSpecFields usd session.source.content key.path key.kind.delta fields) =
          some (serializedLayer session.source.content key.path key.kind.delta fields)

/-- What keeps a build traceable: every sent spec that is gone is marked, or lies under a marked
subtree; fields a spec has lost are named, unless the whole spec is due; a sent spec keeps a field or
an identity; and no variant set stands inside a variant of its own prim. -/
structure Traceable (rules : SpecRules) (session : SpecSession) : Prop where
  gone : ∀ entry ∈ session.emitter.sdfSpecFields.entries,
    session.source.content.specKind entry.1.path = some entry.1.kind ∨
      (session.emitter.dirtySdfSpecs.get? entry.1).isSome = true ∨
        session.emitter.fullSdfSpecScan = true ∨
          session.emitter.underSubtree entry.1.path = true
  lost : ∀ entry ∈ session.emitter.sdfSpecFields.entries,
    session.source.content.specKind entry.1.path = some entry.1.kind →
    session.emitter.resynced entry.1 = true ∨
      ∀ names ∈ (session.emitter.dirtySdfSpecs.get? entry.1).join, ∀ name ∈ entry.2,
        name ∉ session.source.genericSdfFields rules entry.1 → name ∈ names
  kept : ∀ key ∈ session.everSent ++ session.emitter.dirtySdfSpecs.keys,
    session.source.content.specKind key.path = some key.kind →
      session.source.genericSdfFields rules key ≠ [] ∨
        session.source.sdfSpecRequiresIdentity key = true ∨
        key ∉ session.everSent ∧
          ∀ names ∈ (session.emitter.dirtySdfSpecs.get? key).join, ∀ name ∈ names,
            name ∈ session.source.infoKeys key.path ∨
              key.kind = .layer ∧ name ∈ layerTopologyFields
  flat : ∀ key ∈ session.emitter.candidates session.source,
    session.source.content.specKind key.path = some key.kind → key.nested = false

/-- A subtree is reported by a path that is a prefix of what it holds, and builds are traceable. -/
def KeepsTrack (rules : SpecRules) (session : SpecSession) : SpecSessionAction → Prop
  | .edit _ (.subtree root) => root.kind ≠ .variantSet
  | .edit _ _ => True
  | .build => session.Traceable rules

end SpecSession

end UsdConnect
