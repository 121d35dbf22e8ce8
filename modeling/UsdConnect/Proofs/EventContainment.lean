/-
Purpose: Where the appliers write: at or below the event's prim, apart from the ancestors it
  defines, the sources its connections make and the owner of an exact spec.
Trusted boundary: none
Main exports: Permits, Admits, Event.Contained, Event.Reaches, preserves_applyEvents
-/
import UsdConnect.Proofs.RollbackScope

namespace UsdConnect

open ScopedSnapshot (AuthorsAt)

/-- An invariant of scenes under edits of one layer: authoring at the permitted places, removing
the removable prims, and anything that is not a layer edit. -/
structure Permits (invariant : Scene → Prop) (target : LayerId)
    (place removable : PrimPath → Prop) : Prop where
  below : ∀ {outer prim : PrimPath}, place outer → outer <+: prim → place prim
  missing : ∀ {scene : Scene} {outer prim : PrimPath}, invariant scene → place prim →
    outer <+: prim → ¬ (scene.layers target).hasPrim outer → place outer
  runtime : ∀ {scene later : Scene}, invariant scene → later.layers = scene.layers →
    later.applying = scene.applying → invariant later
  author : ∀ {scene : Scene} {path : SpecPath} {edit : LayerEdit}, invariant scene →
    place path.prim → AuthorsAt path edit → invariant (Scene.exec (.layer target edit) scene)
  remove : ∀ {scene : Scene} {prim : PrimPath}, invariant scene → removable prim →
    invariant (Scene.exec (.layer target (.remove ⟨prim, none⟩)) scene)
  removeProperty : ∀ {scene : Scene} {prim : PrimPath} {name : String}, invariant scene →
    place prim → invariant (Scene.exec (.layer target (.remove ⟨prim, some name⟩)) scene)
  graft : ∀ {scene : Scene} {prim origin : PrimPath} {source : Layer}, invariant scene →
    place prim → ¬ (scene.layers target).hasPrim prim →
    invariant (Scene.exec (.layer target (.graft prim source origin)) scene)
  replace : ∀ {scene : Scene} {content : Layer}, invariant scene → place [] →
    invariant (Scene.exec (.layer target (.replace content)) scene)

/-- The same for an invariant that tells the prims an edit may author from the ancestors that a
definition may only turn into definitions: `reach` holds of the latter. -/
structure Admits (invariant : Scene → Prop) (target : LayerId)
    (place reach removable : PrimPath → Prop) : Prop where
  below : ∀ {outer prim : PrimPath}, place outer → outer <+: prim → place prim
  missing : ∀ {scene : Scene} {outer prim : PrimPath}, invariant scene → place prim →
    outer <+: prim → ¬ (scene.layers target).hasPrim outer → reach outer
  runtime : ∀ {scene later : Scene}, invariant scene → later.layers = scene.layers →
    later.applying = scene.applying → invariant later
  author : ∀ {scene : Scene} {path : SpecPath} {edit : LayerEdit}, invariant scene →
    place path.prim → AuthorsAt path edit → invariant (Scene.exec (.layer target edit) scene)
  define : ∀ {scene : Scene} {prim : PrimPath}, invariant scene → reach prim →
    invariant (Scene.exec
      (.layer target (.author ⟨prim, none⟩ .prim (.info "specifier") (.text "def"))) scene)
  remove : ∀ {scene : Scene} {prim : PrimPath}, invariant scene → removable prim →
    invariant (Scene.exec (.layer target (.remove ⟨prim, none⟩)) scene)
  removeProperty : ∀ {scene : Scene} {prim : PrimPath} {name : String}, invariant scene →
    place prim → invariant (Scene.exec (.layer target (.remove ⟨prim, some name⟩)) scene)
  graft : ∀ {scene : Scene} {prim origin : PrimPath} {source : Layer}, invariant scene →
    place prim → ¬ (scene.layers target).hasPrim prim →
    invariant (Scene.exec (.layer target (.graft prim source origin)) scene)
  replace : ∀ {scene : Scene} {content : Layer}, invariant scene → place [] →
    invariant (Scene.exec (.layer target (.replace content)) scene)

/-- Where every permitted place may be authored, it may be defined as well. -/
theorem Permits.admits {invariant : Scene → Prop} {target : LayerId}
    {place removable : PrimPath → Prop} (permits : Permits invariant target place removable) :
    Admits invariant target place place removable where
  below := permits.below
  missing := permits.missing
  runtime := permits.runtime
  author := permits.author
  define := by
    intro scene prim holds own
    have inside : place (⟨prim, none⟩ : SpecPath).prim := own
    exact permits.author holds inside (.author ..)
  remove := permits.remove
  removeProperty := permits.removeProperty
  graft := permits.graft
  replace := permits.replace

section Containment

variable (usd : Usd) (place removable : PrimPath → Prop)

/-- Defining a missing prim only turns permitted ancestors into definitions. -/
def DefinesInside (stage : Stage) (prim : ScenePath) : Prop :=
  usd.primAt stage prim = false → ∀ outer ∈ prim.ancestors, usd.isDefined stage outer = false →
    stage.layer.hasPrim outer.specPath → place outer.specPath

/-- A connection finds its source port, or makes it at a permitted place. -/
def SourceInside (stage : Stage) (source : ConnSource) : Prop :=
  (usd.primAt stage source.sourcePrim = true ∧
      (usd.attributeType stage source.sourcePrim source.sourceAttr.qualifiedName).isSome) ∨
    place source.sourcePrim.specPath ∧ DefinesInside usd place stage source.sourcePrim

/-- The paths an event is routed and rolled back by are permitted. -/
def Event.Placed : Event → Prop
  | .setStageMetadata _ => place []
  | .renamePrim prim newName =>
      place prim.specPath ∧ place (prim.specPath.dropLast ++ [.child newName])
  | event => ∀ prim, event.prim = some prim → place prim.specPath

/-- The writes of an event beyond its own prim are permitted. -/
def Event.Contained (stage : Stage) : Event → Prop
  | .ensurePrim prim .. | .ensureXformOps prim | .setInstanceable prim _
  | .setVariantSelections prim _ | .setMaterialBinding prim .. | .setConnectableInput prim .. =>
      DefinesInside usd place stage prim
  | .setConnectableConnection _ connections _ =>
      ∀ entry ∈ connections.entries, SourceInside usd place stage entry.2
  | .deletePrim prim | .renamePrim prim _ => removable prim.specPath
  | .setSdfSpecFields delta =>
      place delta.specPath.prim.owningPrim ∧
        (delta.removed = true → delta.specPath.property = none → removable delta.specPath.prim)
  | .eraseTimeSamples path _ => place path.prim.owningPrim
  | _ => True

end Containment

section Reach

variable (usd : Usd) (place reach removable : PrimPath → Prop)

/-- Defining a missing prim turns an existing ancestor into a definition only within reach.  An
ancestor whose spec already is one stays as it is. -/
def TurnsInside (stage : Stage) (prim : ScenePath) : Prop :=
  usd.primAt stage prim = false → usd.refuses stage prim = none →
    ∀ outer ∈ prim.ancestors, usd.isDefined stage outer = false →
      stage.layer.hasPrim outer.specPath →
      stage.layer.info ⟨outer.specPath, none⟩ "specifier" ≠ some (.text "def") →
      reach outer.specPath

/-- The ancestors that are not defined and out of reach are definitions in the layer. -/
def AncestorsSettled (target : LayerId) (stage : Stage) (prim : ScenePath) (current : Scene) :
    Prop :=
  ∀ outer ∈ prim.ancestors, usd.isDefined stage outer = false → ¬ reach outer.specPath →
    (current.layers target).info ⟨outer.specPath, none⟩ "specifier" = some (.text "def")

/-- A connection finds its source port, or makes it at a place of its own. -/
def SourceReaches (stage : Stage) (source : ConnSource) : Prop :=
  (usd.primAt stage source.sourcePrim = true ∧
      (usd.attributeType stage source.sourcePrim source.sourceAttr.qualifiedName).isSome) ∨
    place source.sourcePrim.specPath ∧ TurnsInside usd reach stage source.sourcePrim

/-- The writes of an event beyond its own prim, with the definitions within reach. -/
def Event.Reaches (stage : Stage) : Event → Prop
  | .ensurePrim prim .. | .ensureXformOps prim | .setInstanceable prim _
  | .setVariantSelections prim _ | .setMaterialBinding prim .. =>
      TurnsInside usd reach stage prim
  | .setConnectableInput prim infoId .. => infoId ≠ "" → TurnsInside usd reach stage prim
  | .setConnectableConnection _ connections _ =>
      ∀ entry ∈ connections.entries, SourceReaches usd place reach stage entry.2
  | .deletePrim prim | .renamePrim prim _ => removable prim.specPath
  | .setSdfSpecFields delta =>
      place delta.specPath.prim.owningPrim ∧
        (delta.removed = true → delta.specPath.property = none → removable delta.specPath.prim)
  | .eraseTimeSamples path _ => place path.prim.owningPrim
  | _ => True

end Reach

section Containment

variable {usd : Usd} {place removable : PrimPath → Prop} {stage : Stage}

theorem DefinesInside.turns {prim : ScenePath} (defines : DefinesInside usd place stage prim) :
    TurnsInside usd place stage prim :=
  fun absent _ outer above undefined present _ => defines absent outer above undefined present

theorem Event.Contained.reaches {event : Event}
    (contained : event.Contained usd place removable stage) :
    event.Reaches usd place place removable stage := by
  cases event with
  | ensurePrim => exact contained.turns
  | ensureXformOps => exact contained.turns
  | setInstanceable => exact contained.turns
  | setVariantSelections => exact contained.turns
  | setMaterialBinding => exact contained.turns
  | setConnectableInput => exact fun _ => contained.turns
  | setConnectableConnection =>
      intro entry member
      exact (contained entry member).imp_right fun inside => ⟨inside.1, inside.2.turns⟩
  | _ => exact contained

end Containment

section Appliers

variable {usd : Usd} {target : LayerId} {place reach removable : PrimPath → Prop}
  {condition invariant : Scene → Prop} {scene : Scene} {prim : ScenePath}

theorem specPath_ancestor {outer : ScenePath} (member : outer ∈ prim.ancestors) :
    outer.specPath <+: prim.specPath := by
  unfold ScenePath.ancestors at member
  obtain ⟨tail, joined⟩ := (List.mem_inits _ _).1 (List.mem_filter.1 member).1
  unfold ScenePath.specPath
  rw [← joined, List.map_append]
  exact List.prefix_append _ _

theorem preserves_guardAuthoring :
    Edit.Preserves condition invariant (guardAuthoring usd target prim) scene := by
  unfold guardAuthoring
  apply Edit.preserves_look_bind
  split
  · exact Edit.preserves_raise _
  · exact Edit.preserves_pure _

theorem after_guardAuthoring : (guardAuthoring usd target prim).after scene = scene := by
  unfold guardAuthoring stageNow
  rw [Edit.after_look_bind]
  cases usd.refuses (scene.stage target) prim with
  | none => rfl
  | some error => rfl

theorem refuses_of_guardAuthoring
    (passed : (guardAuthoring usd target prim).result scene = .ok ()) :
    usd.refuses (scene.stage target) prim = none := by
  unfold guardAuthoring stageNow at passed
  rw [Edit.result_look_bind] at passed
  cases refused : usd.refuses (scene.stage target) prim with
  | none => rfl
  | some error =>
      rw [refused] at passed
      cases passed

theorem preserves_converted {typeName : String} {value : Datum} :
    Edit.Preserves condition invariant (converted usd typeName value) scene := by
  unfold converted
  split
  · exact Edit.preserves_pure _
  · exact Edit.preserves_raise _

variable (permits : Admits invariant target place reach removable)

include permits

theorem preserves_editLayer (path : SpecPath) {edit : LayerEdit} (own : place path.prim)
    (authors : AuthorsAt path edit) :
    Edit.Preserves condition invariant (editLayer target edit) scene :=
  Edit.preserves_act fun _ holds => permits.author holds own authors

theorem preserves_authorPrimInfo (own : place prim.specPath) {name : String} {value : Datum} :
    Edit.Preserves condition invariant (authorPrimInfo target prim name value) scene :=
  preserves_editLayer permits ⟨prim.specPath, none⟩ own (.author ..)

theorem preserves_declareAttribute (own : place prim.specPath) {name typeName : String} :
    Edit.Preserves condition invariant (declareAttribute target prim name typeName) scene := by
  unfold declareAttribute
  apply Edit.preserves_look_bind
  split
  · exact preserves_editLayer permits ⟨prim.specPath, some name⟩ own (.author ..)
  · exact Edit.preserves_pure _

theorem preserves_setAttributeField (own : place prim.specPath) {name typeName : String}
    {field : Field} {value : Datum} :
    Edit.Preserves condition invariant (do
      guardAuthoring usd target prim
      declareAttribute target prim name typeName
      editLayer target (.author ⟨prim.specPath, some name⟩ .attribute field value)) scene := by
  apply Edit.preserves_bind preserves_guardAuthoring
  intro _ _
  apply Edit.preserves_bind (preserves_declareAttribute permits own)
  intro _ _
  exact preserves_editLayer permits ⟨prim.specPath, some name⟩ own (.author ..)

theorem preserves_setValue (own : place prim.specPath) {name typeName : String}
    {time : Option TimeCode} {value : Datum} :
    Edit.Preserves condition invariant (setValue usd target prim name typeName time value) scene :=
  preserves_setAttributeField permits own

theorem preserves_setAttributeInfo (own : place prim.specPath) {name typeName key : String}
    {value : Datum} :
    Edit.Preserves condition invariant (setAttributeInfo usd target prim name typeName key value)
      scene :=
  preserves_setAttributeField permits own

omit permits in
/-- Authoring the value that a prim already has changes nothing. -/
theorem author_authored {layer : Layer} {path : PrimPath} {kind : SpecKind} {name : String}
    {value : Datum} (authored : layer.info ⟨path, none⟩ name = some value) :
    (LayerEdit.author ⟨path, none⟩ kind (.info name) value).apply layer = layer := by
  apply Layer.ext
  funext other field
  change LayerEdit.edited _ layer other field = _
  unfold LayerEdit.edited LayerEdit.changes
  split
  · rfl
  · simp only [LayerEdit.written]
    split
    · next here =>
        obtain ⟨rfl, rfl, _⟩ := here
        exact authored.symm
    · unfold LayerEdit.createdBy
      split
      · next above =>
          obtain ⟨rfl, inside⟩ := above
          rcases other with ⟨prim, property⟩
          cases property with
          | some other => cases congrArg SpecPath.property inside
          | none =>
              have present : layer.hasPrim path := layer.tidy _ (.info name) (by
                rw [show layer.value ⟨path, none⟩ (.info name) = some value from authored]
                rfl)
              rw [Layer.spec_of_hasPrim (Layer.hasPrim_of_prefix inside.prim present)]
              rfl
      · rfl

omit permits in
/-- Authoring a prim field leaves the prims that hold this value already. -/
theorem info_author {layer : Layer} {path other : PrimPath} {kind : SpecKind} {name : String}
    {value : Datum} (authored : layer.info ⟨other, none⟩ name = some value) :
    ((LayerEdit.author ⟨path, none⟩ kind (.info name) value).apply layer).info ⟨other, none⟩ name =
      some value := by
  change LayerEdit.edited _ layer ⟨other, none⟩ (.info name) = _
  have data : Field.info name ≠ .spec := by
    intro same
    cases same
  unfold LayerEdit.edited LayerEdit.changes
  rw [if_neg (fun top => data top.2)]
  simp only [LayerEdit.written]
  split
  · rfl
  · rw [LayerEdit.createdBy_field data]
    exact authored

/-- A definition reaches the ancestors that are not defined: those without a spec lie above a
permitted place, those that are definitions in the layer stay as they are, the others are within
reach by assumption. -/
theorem preserves_definePrim (own : place prim.specPath) {typeName : String}
    (absent : usd.primAt (scene.stage target) prim = false)
    (turns : TurnsInside usd reach (scene.stage target) prim) :
    Edit.Preserves condition invariant (definePrim usd target prim typeName) scene := by
  apply Edit.preserves_from
  intro _ holds
  unfold definePrim
  apply Edit.preserves_bind preserves_guardAuthoring
  intro _ passed
  have accepted := refuses_of_guardAuthoring passed
  rw [after_guardAuthoring]
  apply Edit.preserves_look_bind
  have start : AncestorsSettled usd reach target (scene.stage target) prim scene := by
    intro outer above undefined beyond
    by_contra other
    by_cases present : (scene.layers target).hasPrim outer.specPath
    · exact beyond (turns absent accepted outer above undefined present other)
    · exact beyond (permits.missing holds own (specPath_ancestor above) present)
  have defined : Edit.Preserves condition
      (fun current => invariant current ∧
        AncestorsSettled usd reach target (scene.stage target) prim current)
      ((prim.ancestors.filter fun outer => !usd.isDefined (scene.stage target) outer).forM
        fun outer => authorPrimInfo target outer "specifier" (.text "def")) scene := by
    apply Edit.preserves_forM
    intro outer member current
    obtain ⟨above, undefined⟩ := List.mem_filter.1 member
    apply Edit.preserves_act
    rintro _ ⟨kept, settled⟩
    constructor
    · by_cases near : reach outer.specPath
      · exact permits.define kept near
      · dsimp only [Scene.exec]
        rw [author_authored (settled outer above (by simpa using undefined) near),
          Scene.withLayer_self]
        exact kept
    · intro other higher undefined' beyond
      dsimp only [Scene.exec]
      rw [Scene.withLayer_layers]
      exact info_author (settled other higher undefined' beyond)
  apply Edit.preserves_bind
  · exact ⟨fun passes kept => (defined.kept passes ⟨kept, start⟩).1⟩
  · intro _ _
    apply Edit.preserves_bind (preserves_authorPrimInfo permits own)
    intro _ _
    split
    · exact preserves_authorPrimInfo permits own
    · exact Edit.preserves_pure _

theorem preserves_getOrDefinePrim (own : place prim.specPath) {typeName : String}
    {ensureLocalDefinition : Bool}
    (defines : condition scene → invariant scene → TurnsInside usd reach (scene.stage target) prim) :
    Edit.Preserves condition invariant
      (getOrDefinePrim usd target prim typeName ensureLocalDefinition) scene := by
  apply Edit.preserves_from
  intro good holds
  unfold getOrDefinePrim primAt
  apply Edit.preserves_look_bind
  split
  · next absent =>
      exact preserves_definePrim permits own (by simpa using absent) (defines good holds)
  · split
    · apply Edit.preserves_look_bind
      dsimp only
      split
      · apply Edit.preserves_bind (preserves_authorPrimInfo permits own)
        intro _ _
        split
        · exact preserves_authorPrimInfo permits own
        · exact Edit.preserves_pure _
      · exact Edit.preserves_pure _
    · exact Edit.preserves_pure _

/-! ### Transform ops and values -/

theorem preserves_authorCanonicalOps (own : place prim.specPath) :
    Edit.Preserves condition invariant (authorCanonicalOps target prim) scene := by
  have order : ∀ {field : Field} {value : Datum} {current : Scene},
      Edit.Preserves condition invariant (editLayer target
        (.author ⟨prim.specPath, some "xformOpOrder"⟩ .attribute field value)) current :=
    preserves_editLayer permits ⟨prim.specPath, some "xformOpOrder"⟩ own (.author ..)
  unfold authorCanonicalOps
  apply Edit.preserves_bind
  · apply Edit.preserves_forM
    intro field _ current
    exact preserves_declareAttribute permits own
  · intro _ _
    apply Edit.preserves_look_bind
    dsimp only
    split
    · apply Edit.preserves_bind order
      intro _ _
      apply Edit.preserves_bind order
      intro _ _
      exact order
    · exact order

theorem preserves_localOps (own : place prim.specPath) {cached : Option CachedOps} :
    Edit.Preserves condition invariant (localOps usd target prim cached) scene := by
  unfold localOps
  apply Edit.preserves_look_bind
  dsimp only
  split
  · split
    · split
      · exact Edit.preserves_pure _
      · exact Edit.preserves_look _
    · exact Edit.preserves_look _
  · apply Edit.preserves_bind (preserves_authorCanonicalOps permits own)
    intro _ _
    exact Edit.preserves_look _

theorem preserves_ensureCanonicalOps (own : place prim.specPath) {cached : Option CachedOps}
    (defines : condition scene → invariant scene → TurnsInside usd reach (scene.stage target) prim) :
    Edit.Preserves condition invariant (ensureCanonicalOps usd target prim cached) scene := by
  apply Edit.preserves_from
  intro good holds
  unfold ensureCanonicalOps primAt
  apply Edit.preserves_look_bind
  dsimp only
  split
  · next absent =>
      apply Edit.preserves_bind
      · exact preserves_definePrim permits own (by simpa using absent) (defines good holds)
      · intro _ _
        exact preserves_localOps permits own
  · exact preserves_localOps permits own

theorem preserves_setXformValues (own : place prim.specPath)
    {values : OrderedDict XformField Datum} {time : Option TimeCode} {ops : CachedOps} :
    Edit.Preserves condition invariant (setXformValues usd target prim values time ops) scene := by
  unfold setXformValues attributeType
  apply Edit.preserves_forM
  intro field _ current
  apply Edit.preserves_look_bind
  split
  · split
    · exact preserves_setValue permits own
    · exact Edit.preserves_pure _
  · exact Edit.preserves_pure _

theorem preserves_applySetXformTrs (own : place prim.specPath)
    {values : OrderedDict XformField Datum} {time : Option TimeCode} :
    Edit.Preserves condition invariant (applySetXformTrs usd target prim values time) scene := by
  unfold applySetXformTrs primAt
  apply Edit.preserves_look_bind
  split
  · apply Edit.preserves_look_bind
    exact preserves_setXformValues permits own
  · exact Edit.preserves_pure _

theorem preserves_applySetVisibility (own : place prim.specPath) {visible : Bool}
    {time : Option TimeCode} :
    Edit.Preserves condition invariant (applySetVisibility usd target prim visible time)
      scene := by
  unfold applySetVisibility primAt attributeType
  apply Edit.preserves_look_bind
  split
  · apply Edit.preserves_look_bind
    split
    · exact preserves_setValue permits own
    · exact Edit.preserves_raise _
  · exact Edit.preserves_pure _

theorem preserves_setGprimAttr (own : place prim.specPath) {name : String} {value : Datum}
    {time : Option TimeCode} :
    Edit.Preserves condition invariant (setGprimAttr usd target prim name value time) scene := by
  unfold setGprimAttr attributeType
  apply Edit.preserves_look_bind
  split
  · exact Edit.preserves_pure _
  · apply Edit.preserves_bind preserves_converted
    intro _ _
    exact preserves_setValue permits own

theorem preserves_ensurePrimvarAttr (own : place prim.specPath) {name : String}
    {info : PrimvarMeta} :
    Edit.Preserves condition invariant (ensurePrimvarAttr usd target prim name info) scene := by
  unfold ensurePrimvarAttr
  split
  · apply Edit.preserves_bind preserves_guardAuthoring
    intro _ _
    apply Edit.preserves_bind (preserves_declareAttribute permits own)
    intro _ _
    split
    · split
      · exact preserves_setAttributeInfo permits own
      · exact Edit.preserves_pure _
    · exact Edit.preserves_pure _
  · exact Edit.preserves_pure _

theorem preserves_setInterpolation (own : place prim.specPath) {name interpolation : String} :
    Edit.Preserves condition invariant (setInterpolation usd target prim name interpolation)
      scene := by
  unfold setInterpolation attributeType
  apply Edit.preserves_look_bind
  split
  · exact preserves_setAttributeInfo permits own
  · exact Edit.preserves_pure _

theorem preserves_applySetGprimAttrs (own : place prim.specPath)
    {attrs : OrderedDict String Datum} {primvarMeta : OrderedDict String PrimvarMeta}
    {attrInterp : OrderedDict String String} {time : Option TimeCode} :
    Edit.Preserves condition invariant
      (applySetGprimAttrs usd target prim attrs primvarMeta attrInterp time) scene := by
  unfold applySetGprimAttrs primAt attributeType
  apply Edit.preserves_look_bind
  split
  · apply Edit.preserves_bind
    · apply Edit.preserves_forM
      intro entry _ current
      apply Edit.preserves_look_bind
      split
      · apply Edit.preserves_bind (preserves_ensurePrimvarAttr permits own)
        intro _ _
        exact preserves_setGprimAttr permits own
      · exact preserves_setGprimAttr permits own
    · intro _ _
      apply Edit.preserves_bind
      · apply Edit.preserves_forM
        rintro ⟨name, info⟩ _ current
        dsimp only
        split
        · split
          · exact preserves_setInterpolation permits own
          · exact Edit.preserves_pure _
        · exact Edit.preserves_pure _
      · intro _ _
        apply Edit.preserves_forM
        intro entry _ current
        exact preserves_setInterpolation permits own
  · exact Edit.preserves_pure _

theorem preserves_setTargets (own : place prim.specPath) {name : String} {targets : Datum} :
    Edit.Preserves condition invariant (setTargets usd target prim name targets) scene := by
  unfold setTargets
  apply Edit.preserves_bind preserves_guardAuthoring
  intro _ _
  exact preserves_editLayer permits ⟨prim.specPath, some name⟩ own (.author ..)

theorem preserves_guardedPrimInfo (own : place prim.specPath) {name : String} {value : Datum} :
    Edit.Preserves condition invariant (do
      guardAuthoring usd target prim
      authorPrimInfo target prim name value) scene := by
  apply Edit.preserves_bind preserves_guardAuthoring
  intro _ _
  exact preserves_authorPrimInfo permits own

theorem preserves_setInstancerField (own : place prim.specPath) {field : InstancerField}
    {value : Datum} {time : Option TimeCode} :
    Edit.Preserves condition invariant (setInstancerField usd target prim field value time)
      scene := by
  unfold setInstancerField
  split
  · apply Edit.preserves_bind preserves_converted
    intro _ _
    exact preserves_setValue permits own
  · split
    · exact preserves_setTargets permits own
    · exact preserves_guardedPrimInfo permits own

theorem preserves_applySetPointInstancer (own : place prim.specPath)
    {values : OrderedDict InstancerField Datum} {time : Option TimeCode} :
    Edit.Preserves condition invariant (applySetPointInstancer usd target prim values time)
      scene := by
  unfold applySetPointInstancer
  apply Edit.preserves_look_bind
  split
  · apply Edit.preserves_forM
    intro field _ current
    split
    · exact preserves_setInstancerField permits own
    · exact Edit.preserves_pure _
  · exact Edit.preserves_pure _

/-! ### Prim data that defines a missing prim -/

theorem preserves_applySetInstanceable (own : place prim.specPath) {instanceable : Bool}
    (defines : condition scene → invariant scene → TurnsInside usd reach (scene.stage target) prim) :
    Edit.Preserves condition invariant (applySetInstanceable usd target prim instanceable)
      scene := by
  unfold applySetInstanceable
  apply Edit.preserves_bind (preserves_getOrDefinePrim permits own defines)
  intro _ _
  exact preserves_guardedPrimInfo permits own

theorem preserves_applySetVariantSelections (own : place prim.specPath)
    {selections : OrderedDict String String}
    (defines : condition scene → invariant scene → TurnsInside usd reach (scene.stage target) prim) :
    Edit.Preserves condition invariant (applySetVariantSelections usd target prim selections)
      scene := by
  unfold applySetVariantSelections
  apply Edit.preserves_bind (preserves_getOrDefinePrim permits own defines)
  intro _ _
  apply Edit.preserves_forM
  intro entry _ current
  apply Edit.preserves_bind preserves_guardAuthoring
  intro _ _
  split
  · exact preserves_authorPrimInfo permits own
  · exact preserves_editLayer permits ⟨prim.specPath, none⟩ own (.clear ..)

theorem preserves_applyArcState (own : place prim.specPath) {state : ArcState} {field : String} :
    Edit.Preserves condition invariant (applyArcState target prim state field) scene := by
  unfold applyArcState
  dsimp only
  split
  · split
    · exact Edit.preserves_raise _
    · exact preserves_editLayer permits ⟨prim.specPath, none⟩ own (.clear ..)
  · exact preserves_authorPrimInfo permits own

theorem preserves_applyApi (own : place prim.specPath) {name : String} :
    Edit.Preserves condition invariant (applyApi usd target prim name) scene := by
  unfold applyApi
  apply Edit.preserves_bind preserves_guardAuthoring
  intro _ _
  apply Edit.preserves_look_bind
  split
  · exact preserves_editLayer permits ⟨prim.specPath, none⟩ own (.create _)
  · exact preserves_authorPrimInfo permits own

theorem preserves_applySetMaterialBinding (own : place prim.specPath)
    {materialPath : Option ScenePath} {purpose : String}
    (defines : condition scene → invariant scene → TurnsInside usd reach (scene.stage target) prim) :
    Edit.Preserves condition invariant
      (applySetMaterialBinding usd target prim materialPath purpose) scene := by
  unfold applySetMaterialBinding
  apply Edit.preserves_bind (preserves_getOrDefinePrim permits own defines)
  intro _ _
  apply Edit.preserves_bind (preserves_applyApi permits own)
  intro _ _
  apply Edit.preserves_look_bind
  dsimp only
  split
  · apply Edit.preserves_bind
      (preserves_editLayer permits ⟨prim.specPath, some _⟩ own (.author ..))
    intro _ _
    exact preserves_setTargets permits own
  · exact preserves_setTargets permits own

/-! ### Shading networks -/

theorem preserves_setConnectableInputValue (own : place prim.specPath) {name typeName : String}
    {value : Datum} {time : Option TimeCode} :
    Edit.Preserves condition invariant
      (setConnectableInputValue usd target prim name value typeName time) scene := by
  have write : ∀ {input declared : String} {current : Scene},
      Edit.Preserves condition invariant (do
        let value ← converted usd typeName value
        setValue usd target prim input declared time value) current := by
    intro input declared current
    apply Edit.preserves_bind preserves_converted
    intro _ _
    exact preserves_setValue permits own
  unfold setConnectableInputValue attributeType
  split
  · apply Edit.preserves_look_bind
    dsimp only
    split
    · apply Edit.preserves_bind preserves_guardAuthoring
      intro _ _
      apply Edit.preserves_bind (preserves_declareAttribute permits own)
      intro _ _
      exact write
    · exact write
  · exact Edit.preserves_pure _

theorem preserves_setConnectableInputs (own : place prim.specPath)
    {inputs : OrderedDict String Datum} {inputTypes : OrderedDict String String}
    {time : Option TimeCode} :
    Edit.Preserves condition invariant
      (setConnectableInputs usd target prim inputs inputTypes time) scene := by
  unfold setConnectableInputs
  apply Edit.preserves_forM
  intro entry _ current
  exact preserves_setConnectableInputValue permits own

theorem preserves_setShaderId (own : place prim.specPath) {infoId : String}
    (defines : condition scene → invariant scene → TurnsInside usd reach (scene.stage target) prim) :
    Edit.Preserves condition invariant (setShaderId usd target prim infoId) scene := by
  have write : ∀ {current : Scene}, Edit.Preserves condition invariant (do
      let stage ← stageNow target
      if usd.isA stage prim "Shader" ∧
          usd.attributeValue stage prim "info:id" ≠ some (.text infoId) then
        setValue usd target prim "info:id" "token" none (.text infoId)) current := by
    intro current
    apply Edit.preserves_look_bind
    split
    · exact preserves_setValue permits own
    · exact Edit.preserves_pure _
  unfold setShaderId primAt
  apply Edit.preserves_look_bind
  dsimp only
  split
  · apply Edit.preserves_bind (preserves_getOrDefinePrim permits own defines)
    intro _ _
    exact write
  · exact write

theorem preserves_applySetConnectableInput (own : place prim.specPath) {infoId : String}
    {inputs : OrderedDict String Datum} {inputTypes : OrderedDict String String}
    {time : Option TimeCode}
    (defines : condition scene → invariant scene → infoId ≠ "" →
      TurnsInside usd reach (scene.stage target) prim) :
    Edit.Preserves condition invariant
      (applySetConnectableInput usd target prim infoId inputs inputTypes time) scene := by
  unfold applySetConnectableInput primAt overridePrim
  split
  · next named =>
    apply Edit.preserves_bind
      (preserves_setShaderId permits own fun good holds => defines good holds named)
    intro _ _
    exact preserves_setConnectableInputs permits own
  · apply Edit.preserves_look_bind
    split
    · exact preserves_setConnectableInputs permits own
    · split
      · exact Edit.preserves_pure _
      · apply Edit.preserves_bind
        · apply Edit.preserves_bind preserves_guardAuthoring
          intro _ _
          exact preserves_editLayer permits ⟨prim.specPath, none⟩ own (.create _)
        · intro _ _
          exact preserves_setConnectableInputs permits own

/-- A port that exists is only looked up. -/
theorem preserves_getOrCreateConnectablePort {attr : ConnectableAttr}
    {fallbackType : Option String}
    (inside : (usd.attributeType (scene.stage target) prim attr.qualifiedName).isSome ∨
      place prim.specPath) :
    Edit.Preserves condition invariant
      (getOrCreateConnectablePort usd target prim attr fallbackType) scene := by
  unfold getOrCreateConnectablePort
  apply Edit.preserves_look_bind
  split
  · exact Edit.preserves_pure _
  · next none =>
      rw [none] at inside
      rcases inside with found | own
      · cases found
      · apply Edit.preserves_bind preserves_guardAuthoring
        intro _ _
        apply Edit.preserves_bind (preserves_declareAttribute permits own)
        intro _ _
        exact Edit.preserves_pure _

theorem preserves_applyConnection (own : place prim.specPath) {localAttr : ConnectableAttr}
    {source : ConnSource}
    (inside : condition scene → invariant scene →
      SourceReaches usd place reach (scene.stage target) source) :
    Edit.Preserves condition invariant (applyConnection usd target prim localAttr source)
      scene := by
  have connect : ∀ {current : Scene},
      (usd.attributeType (current.stage target) source.sourcePrim source.sourceAttr.qualifiedName).isSome ∨
        place source.sourcePrim.specPath →
      Edit.Preserves condition invariant (do
        let sourceType ← getOrCreateConnectablePort usd target source.sourcePrim source.sourceAttr
          none
        let localType ← getOrCreateConnectablePort usd target prim localAttr (some sourceType)
        setAttributeInfo usd target prim localAttr.qualifiedName localType "connectionPaths"
          (.paths [⟨source.sourcePrim.specPath, some source.sourceAttr.qualifiedName⟩]))
        current := by
    intro current port
    apply Edit.preserves_bind (preserves_getOrCreateConnectablePort permits port)
    intro _ _
    apply Edit.preserves_bind (preserves_getOrCreateConnectablePort permits (Or.inr own))
    intro _ _
    exact preserves_setAttributeInfo permits own
  apply Edit.preserves_from
  intro good holds
  unfold applyConnection primAt
  apply Edit.preserves_look_bind
  dsimp only
  rcases inside good holds with ⟨present, port⟩ | ⟨within, defines⟩
  · rw [if_neg (by simp [present])]
    exact connect (Or.inl port)
  · split
    · apply Edit.preserves_bind (preserves_getOrDefinePrim permits within (fun _ _ => defines))
      intro _ _
      exact connect (Or.inr within)
    · exact connect (Or.inr within)

theorem preserves_applySetConnectableConnection (own : place prim.specPath)
    {connections : OrderedDict ConnectableAttr ConnSource}
    {disconnections : List ConnectableAttr}
    (inside : ∀ current, condition current → invariant current → ∀ entry ∈ connections.entries,
      SourceReaches usd place reach (current.stage target) entry.2) :
    Edit.Preserves condition invariant
      (applySetConnectableConnection usd target prim connections disconnections) scene := by
  unfold applySetConnectableConnection primAt attributeType
  apply Edit.preserves_look_bind
  split
  · apply Edit.preserves_bind
    · apply Edit.preserves_forM
      intro entry member current
      apply preserves_applyConnection permits own
      intro good holds
      exact inside current good holds entry member
    · intro _ _
      apply Edit.preserves_forM
      intro localAttr _ current
      apply Edit.preserves_look_bind
      split
      · exact preserves_setAttributeInfo permits own
      · exact Edit.preserves_pure _
  · exact Edit.preserves_pure _

/-! ### Prims -/

theorem preserves_applyApiSchemas (own : place prim.specPath) {names : List String} :
    Edit.Preserves condition invariant (applyApiSchemas usd target prim names) scene := by
  unfold applyApiSchemas
  apply Edit.preserves_forM
  intro name _ current
  split
  · exact preserves_applyApi permits own
  · exact Edit.preserves_pure _

theorem preserves_applyEnsurePrim (own : place prim.specPath) {typeName : String}
    {apiSchemas : List String}
    (defines : condition scene → invariant scene → TurnsInside usd reach (scene.stage target) prim) :
    Edit.Preserves condition invariant (applyEnsurePrim usd target prim typeName apiSchemas)
      scene := by
  unfold applyEnsurePrim primAt
  apply Edit.preserves_look_bind
  dsimp only
  split
  · apply Edit.preserves_bind (preserves_getOrDefinePrim permits own defines)
    intro _ _
    exact preserves_applyApiSchemas permits own
  · exact preserves_applyApiSchemas permits own

theorem preserves_applyDeactivatePrim (own : place prim.specPath) {active : Bool} :
    Edit.Preserves condition invariant (applyDeactivatePrim usd target prim active) scene := by
  unfold applyDeactivatePrim primAt
  apply Edit.preserves_look_bind
  split
  · exact preserves_guardedPrimInfo permits own
  · exact Edit.preserves_pure _

/-- A rename moves the subtree to a permitted free place and removes it where it was. -/
theorem preserves_applyRenamePrim {newName : String}
    (renamed : place (prim.specPath.dropLast ++ [.child newName]))
    (old : removable prim.specPath) :
    Edit.Preserves condition invariant (applyRenamePrim target prim newName) scene := by
  unfold applyRenamePrim
  apply Edit.preserves_look_bind
  dsimp only
  split
  · split
    · exact Edit.preserves_pure _
    · split
      · exact Edit.preserves_raise _
      · next free =>
          apply Edit.preserves_bind
          · apply Edit.preserves_act
            intro _ holds
            exact permits.graft holds renamed free
          · intro _ _
            apply Edit.preserves_act
            intro _ holds
            exact permits.remove holds old
  · exact Edit.preserves_pure _

theorem preserves_applySetStageMetadata (own : place [])
    {values : OrderedDict StageMetadataKey Datum} :
    Edit.Preserves condition invariant (applySetStageMetadata target values) scene := by
  unfold applySetStageMetadata
  apply Edit.preserves_forM
  intro key _ current
  split
  · split
    · exact Edit.preserves_pure _
    · exact preserves_editLayer permits .root own (.author ..)
  · exact Edit.preserves_pure _

/-! ### Exact edits -/

omit permits in
/-- A layer program keeps a scene invariant when it keeps it as an invariant of its layer. -/
theorem preserves_onLayer {α : Type} {program : LayerProgram α}
    (rest : Edit.Preserves (fun _ => True) (fun layer => invariant (scene.withLayer target layer))
      program (scene.layers target)) :
    Edit.Preserves condition invariant (onLayer target program) scene := by
  constructor
  intro _ holds
  rw [onLayer_after]
  apply rest.kept
  · exact fun _ _ => trivial
  · rw [Scene.withLayer_self]
    exact holds

omit permits in
/-- A layer edit that the scene invariant permits. -/
theorem preserves_layerAct {layer : Layer} {edit : LayerEdit}
    (kept : ∀ {current : Scene}, invariant current →
      invariant (Scene.exec (.layer target edit) current)) :
    Edit.Preserves (fun _ => True) (fun layer => invariant (scene.withLayer target layer))
      (Edit.act edit : LayerProgram Unit) layer := by
  apply Edit.preserves_act
  intro _ holds
  have next := kept holds
  simp only [Scene.exec, Scene.withLayer_layers, Scene.withLayer_withLayer] at next
  exact next

theorem preserves_layerAuthor {layer : Layer} (path : SpecPath) {edit : LayerEdit}
    (own : place path.prim) (authors : AuthorsAt path edit) :
    Edit.Preserves (fun _ => True) (fun layer => invariant (scene.withLayer target layer))
      (Edit.act edit : LayerProgram Unit) layer :=
  preserves_layerAct fun holds => permits.author holds own authors

theorem preserves_copyField {layer source : Layer} {path : SpecPath} {kind : SpecKind}
    {preserve : Bool} {field : String} (own : place path.prim) :
    Edit.Preserves (fun _ => True) (fun layer => invariant (scene.withLayer target layer))
      (copyField source path kind preserve field) layer := by
  unfold copyField
  split
  · split
    · exact preserves_layerAuthor permits path own (.samples _)
    · exact Edit.preserves_pure _
  · apply Edit.preserves_look_bind
    split
    · exact preserves_layerAuthor permits path own (.author ..)
    · exact preserves_layerAuthor permits path own (.clear _)

theorem preserves_copySpecFields {layer source : Layer} {path : SpecPath} {kind : SdfSpecKind}
    {fields : List String} {includeRequired preserve : Bool} (own : place path.prim) :
    Edit.Preserves (fun _ => True) (fun layer => invariant (scene.withLayer target layer))
      (copySpecFields source path kind fields includeRequired preserve) layer := by
  unfold copySpecFields
  split
  · exact Edit.preserves_raise _
  · apply Edit.preserves_bind (preserves_layerAuthor permits path own (.create _))
    intro _ _
    apply Edit.preserves_forM
    intro field _ current
    exact preserves_copyField permits own

theorem preserves_layerRemove {layer : Layer} {path : SpecPath} (own : place path.prim)
    (whole : path.property = none → removable path.prim) :
    Edit.Preserves (fun _ => True) (fun layer => invariant (scene.withLayer target layer))
      (Edit.act (.remove path) : LayerProgram Unit) layer := by
  rcases path with ⟨prim, property⟩
  cases property with
  | none => exact preserves_layerAct fun holds => permits.remove holds (whole rfl)
  | some name => exact preserves_layerAct fun holds => permits.removeProperty holds own

theorem preserves_removeSpec {layer : Layer} {path : SpecPath} {kind : SdfSpecKind}
    (owner : place path.prim.owningPrim) (whole : path.property = none → removable path.prim) :
    Edit.Preserves (fun _ => True) (fun layer => invariant (scene.withLayer target layer))
      (removeSpec path kind) layer := by
  unfold removeSpec
  apply Edit.preserves_look_bind
  split
  · exact preserves_layerRemove permits
      (permits.below owner path.prim.owningPrim_prefix) whole
  · split
    · dsimp only
      split
      · exact preserves_layerAuthor permits ⟨path.prim.owningPrim, none⟩ owner (.author ..)
      · exact Edit.preserves_pure _
    · exact Edit.preserves_pure _

omit permits in
/-- At a prim path there is only one kind of spec, the one the delta's check asks for. -/
theorem hasSpecOfKind_of_accepts {layer : Layer} {path : SpecPath} {kind : SdfSpecKind}
    (accepted : kind.accepts path) (prim : path.property = none) (present : layer.hasSpec path) :
    layer.hasSpecOfKind path kind := by
  rcases path with ⟨elements, property⟩
  dsimp only at prim
  subst prim
  have plain := Layer.spec_of_hasPrim present
  have found : layer.specKind ⟨elements, none⟩ = some elements.kind := by
    unfold Layer.specKind
    rw [plain]
  unfold SdfSpecKind.accepts at accepted
  unfold Layer.hasSpecOfKind
  rw [found]
  unfold PrimPath.kind
  cases kind <;> rcases last : elements.getLast? with _ | ⟨name⟩ | ⟨name⟩ | ⟨name⟩ <;>
    simp_all [SdfSpecKind.concrete]

/-- Only a property can stand in the way of an exact delta. -/
theorem preserves_applySpecDeltaToLayer {layer : Layer} {delta : SpecDelta}
    (owner : place delta.specPath.prim.owningPrim)
    (whole : delta.removed = true → delta.specPath.property = none →
      removable delta.specPath.prim) :
    Edit.Preserves (fun _ => True) (fun layer => invariant (scene.withLayer target layer))
      (applySpecDeltaToLayer usd delta) layer := by
  have own := permits.below owner delta.specPath.prim.owningPrim_prefix
  unfold applySpecDeltaToLayer
  split
  · exact Edit.preserves_raise _
  · next checked =>
      split
      · next removed => exact preserves_removeSpec permits owner (whole removed)
      · split
        · exact Edit.preserves_raise _
        · split
          · exact Edit.preserves_raise _
          · apply Edit.preserves_look_bind
            split
            · exact preserves_copySpecFields permits own
            · next other =>
                dsimp only
                split
                · next present =>
                    have property : delta.specPath.property ≠ none := by
                      intro prim
                      apply other
                      apply hasSpecOfKind_of_accepts _ prim present
                      by_contra refused
                      unfold checkSpecDelta at checked
                      rw [if_pos (by simpa using refused)] at checked
                      cases checked
                    apply Edit.preserves_bind
                    · apply preserves_layerRemove permits own
                      exact fun prim => absurd prim property
                    · intro _ _
                      exact preserves_copySpecFields permits own
                · exact preserves_copySpecFields permits own

theorem preserves_eraseTimeSamples {layer : Layer} {path : SpecPath} {times : List TimeCode}
    (own : place path.prim) :
    Edit.Preserves (fun _ => True) (fun layer => invariant (scene.withLayer target layer))
      (eraseTimeSamples path times) layer := by
  unfold eraseTimeSamples
  apply Edit.preserves_look_bind
  split
  · apply Edit.preserves_forM
    intro time _ current
    exact preserves_layerAuthor permits path own (.clear _)
  · exact Edit.preserves_pure _

theorem preserves_applyLayerContentReplacement {layer : Layer} {fragment : String}
    (own : place []) :
    Edit.Preserves (fun _ => True) (fun layer => invariant (scene.withLayer target layer))
      (applyLayerContentReplacement usd fragment) layer := by
  unfold applyLayerContentReplacement
  split
  · exact Edit.preserves_raise _
  · split
    · exact Edit.preserves_raise _
    · apply Edit.preserves_look_bind
      apply Edit.preserves_bind
      · exact preserves_layerAct fun holds => permits.replace holds own
      · intro _ _
        apply Edit.preserves_bind
        · apply Edit.preserves_forM
          intro field _ current
          exact preserves_copyField permits own
        · intro _ _
          split
          · exact preserves_layerAuthor permits .root own (.clear _)
          · exact preserves_layerAuthor permits .root own (.author ..)

/-! ### The applier of an event -/

theorem preserves_runtime {op : SceneOp}
    (away : ∀ current : Scene, (Scene.exec op current).layers = current.layers)
    (same : ∀ current : Scene, (Scene.exec op current).applying = current.applying) :
    Edit.Preserves condition invariant (Edit.act op : SceneEdit Unit) scene :=
  Edit.preserves_act fun _ holds => permits.runtime holds (away scene) (same scene)

/-- The applier of an event whose writes are permitted wherever the run comes to. -/
theorem preserves_applier {event : Event} (placed : event.Placed place)
    (inside : ∀ current, condition current → invariant current →
      event.Reaches usd place reach removable (current.stage target)) :
    Edit.Preserves condition invariant (event.applier usd target) scene := by
  cases event with
  | ensurePrim prim typeName apiSchemas =>
      exact preserves_applyEnsurePrim permits (placed prim rfl) (inside scene)
  | ensureXformOps prim =>
      apply Edit.preserves_bind
        (preserves_ensureCanonicalOps permits (placed prim rfl) (inside scene))
      intro _ _
      exact Edit.preserves_pure _
  | setXformTrs prim values time => exact preserves_applySetXformTrs permits (placed prim rfl)
  | deletePrim prim =>
      apply Edit.preserves_act
      intro good holds
      exact permits.remove holds (inside scene good holds)
  | deactivatePrim prim active => exact preserves_applyDeactivatePrim permits (placed prim rfl)
  | renamePrim prim newName =>
      apply Edit.preserves_from
      intro good holds
      exact preserves_applyRenamePrim permits placed.2 (inside scene good holds)
  | setVisibility prim visible time => exact preserves_applySetVisibility permits (placed prim rfl)
  | setGprimAttrs prim attrs primvarMeta attrInterp time =>
      exact preserves_applySetGprimAttrs permits (placed prim rfl)
  | setReference prim state => exact preserves_applyArcState permits (placed prim rfl)
  | setPayload prim state => exact preserves_applyArcState permits (placed prim rfl)
  | loadPayload prim => exact preserves_runtime permits (fun _ => rfl) (fun _ => rfl)
  | unloadPayload prim => exact preserves_runtime permits (fun _ => rfl) (fun _ => rfl)
  | setVariantSelections prim selections =>
      exact preserves_applySetVariantSelections permits (placed prim rfl) (inside scene)
  | setMaterialBinding prim materialPath purpose =>
      exact preserves_applySetMaterialBinding permits (placed prim rfl) (inside scene)
  | setConnectableInput prim infoId inputs inputTypes time =>
      exact preserves_applySetConnectableInput permits (placed prim rfl) (inside scene)
  | setConnectableConnection prim connections disconnections =>
      exact preserves_applySetConnectableConnection permits (placed prim rfl) inside
  | setStageMetadata values => exact preserves_applySetStageMetadata permits placed
  | setInstanceable prim instanceable =>
      exact preserves_applySetInstanceable permits (placed prim rfl) (inside scene)
  | setPointInstancer prim values time =>
      exact preserves_applySetPointInstancer permits (placed prim rfl)
  | setSdfSpecFields delta =>
      apply Edit.preserves_from
      intro good holds
      have exact := inside scene good holds
      apply preserves_onLayer
      exact preserves_applySpecDeltaToLayer permits exact.1 exact.2
  | eraseTimeSamples path times =>
      apply Edit.preserves_from
      intro good holds
      unfold Event.applier
      apply preserves_onLayer
      apply preserves_eraseTimeSamples permits
      exact permits.below (inside scene good holds) path.prim.owningPrim_prefix
  | replaceSdfLayerContent fragment =>
      apply preserves_onLayer
      exact preserves_applyLayerContentReplacement permits (placed [] rfl)

end Appliers

/-! ### Batches -/

/-- An invariant of layer contents that permits edits at the places of every layer. -/
structure Shielded (base : Scene → Prop) (place removable : LayerId → PrimPath → Prop) :
    Prop where
  permits : ∀ target, Permits base target (place target) (removable target)
  ignores : ∀ {scene later : Scene}, base scene → later.layers = scene.layers → base later

/-- The same for one layer and an invariant that tells authoring from defining. -/
structure Sheltered (base : Scene → Prop) (target : LayerId)
    (place reach removable : PrimPath → Prop) : Prop where
  admits : Admits base target place reach removable
  ignores : ∀ {scene later : Scene}, base scene → later.layers = scene.layers → base later

/-- The event being applied writes at permitted places. -/
def Scene.Contained (usd : Usd) (place removable : LayerId → PrimPath → Prop) (scene : Scene) :
    Prop :=
  ∀ target event, scene.applying = some (target, event) →
    event.Contained usd (place target) (removable target) (scene.stage target)

/-- An event of one layer that authors its own places and defines within reach wherever a run under
the condition applies it. -/
structure Event.Granted (usd : Usd) (target : LayerId) (place reach removable : PrimPath → Prop)
    (condition : Scene → Prop) (event : Event) : Prop where
  placed : event.Placed place
  reaches : ∀ scene : Scene, condition scene → scene.applying = some (target, event) →
    event.Reaches usd place reach removable (scene.stage target)

theorem mem_of_mem_segmentOrder {events : List Event} {event : Event}
    (member : event ∈ segmentOrder events) : event ∈ events := by
  unfold segmentOrder at member
  simp only [List.mem_append, List.mem_filter, List.mem_insertionSort] at member
  tauto

section Batches

variable {usd : Usd} {place reach removable : PrimPath → Prop} {base : Scene → Prop}
  {condition : Scene → Prop} {scene : Scene} {target : LayerId} {event : Event}

/-- While one event is applied the auxiliary record names it. -/
theorem Sheltered.during (sheltered : Sheltered base target place reach removable)
    (event : Event) :
    Admits (fun scene => base scene ∧ scene.applying = some (target, event)) target
      place reach removable where
  below := sheltered.admits.below
  missing holds := sheltered.admits.missing holds.1
  runtime holds same applying := ⟨sheltered.ignores holds.1 same, applying.trans holds.2⟩
  author holds own authors := ⟨sheltered.admits.author holds.1 own authors, holds.2⟩
  define holds near := ⟨sheltered.admits.define holds.1 near, holds.2⟩
  remove holds own := ⟨sheltered.admits.remove holds.1 own, holds.2⟩
  removeProperty holds own := ⟨sheltered.admits.removeProperty holds.1 own, holds.2⟩
  graft holds own free := ⟨sheltered.admits.graft holds.1 own free, holds.2⟩
  replace holds own := ⟨sheltered.admits.replace holds.1 own, holds.2⟩

theorem Sheltered.preserves_act (sheltered : Sheltered base target place reach removable)
    {op : SceneOp}
    (away : ∀ current : Scene, (Scene.exec op current).layers = current.layers) :
    Edit.Preserves condition base (Edit.act op : SceneEdit Unit) scene :=
  Edit.preserves_act fun _ holds => sheltered.ignores holds (away scene)

/-- A marked applier may rely on being the one that runs. -/
theorem Sheltered.preserves_applyingEvent (sheltered : Sheltered base target place reach removable)
    {program : SceneEdit Unit}
    (rest : ∀ current, Edit.Preserves condition
      (fun scene => base scene ∧ scene.applying = some (target, event)) program current) :
    Edit.Preserves condition base (applyingEvent target event program) scene := by
  unfold applyingEvent
  apply Edit.preserves_bind (sheltered.preserves_act fun _ => rfl)
  intro _ _
  apply Edit.preserves_bind
  · constructor
    intro passes holds
    exact ((Edit.preserves_attempt (rest _)).kept passes ⟨holds, rfl⟩).1
  · intro outcome _
    apply Edit.preserves_bind (sheltered.preserves_act fun _ => rfl)
    intro _ _
    split
    · exact Edit.preserves_raise _
    · exact Edit.preserves_pure _

theorem Sheltered.preserves_applyEvent (sheltered : Sheltered base target place reach removable)
    (granted : event.Granted usd target place reach removable condition) :
    Edit.Preserves condition base (applyEvent usd target event)
      scene := by
  unfold applyEvent
  apply Edit.preserves_look_bind
  split
  · exact Edit.preserves_pure _
  · apply sheltered.preserves_applyingEvent
    intro current
    apply preserves_applier (sheltered.during event) granted.placed
    exact fun _ good holds => granted.reaches _ good holds.2

theorem Sheltered.preserves_expireHandles
    (sheltered : Sheltered base target place reach removable) :
    Edit.Preserves condition base (expireHandles usd target) scene := by
  unfold expireHandles
  apply Edit.preserves_look_bind
  exact sheltered.preserves_act fun _ => rfl

theorem Sheltered.preserves_ensureXformOpsCached
    (sheltered : Sheltered base target place reach removable)
    {prim : ScenePath}
    (granted : (Event.ensureXformOps prim).Granted usd target place reach removable condition) :
    Edit.Preserves condition base
      (applyEnsureXformOpsCached usd target (.ensureXformOps prim) prim) scene := by
  unfold applyEnsureXformOpsCached cachedOps
  apply Edit.preserves_look_bind
  split
  · exact Edit.preserves_pure _
  · apply sheltered.preserves_applyingEvent
    intro current
    have during := sheltered.during (.ensureXformOps prim)
    apply Edit.preserves_look_bind
    apply Edit.preserves_bind
    · apply preserves_ensureCanonicalOps during (granted.placed prim rfl)
      exact fun good holds => granted.reaches _ good holds.2
    · intro _ _
      exact preserves_runtime during (fun _ => rfl) (fun _ => rfl)

theorem Sheltered.preserves_setXformTrsCached
    (sheltered : Sheltered base target place reach removable)
    {prim : ScenePath} {values : OrderedDict XformField Datum} {time : Option TimeCode}
    (granted : (Event.setXformTrs prim values time).Granted usd target place reach removable
      condition) :
    Edit.Preserves condition base
      (applySetXformTrsCached usd target (.setXformTrs prim values time) prim values time)
      scene := by
  unfold applySetXformTrsCached cachedOps
  apply Edit.preserves_look_bind
  split
  · exact Edit.preserves_pure _
  · apply sheltered.preserves_applyingEvent
    intro current
    have during := sheltered.during (.setXformTrs prim values time)
    apply Edit.preserves_look_bind
    split
    · exact preserves_setXformValues during (granted.placed prim rfl)
    · split
      · apply Edit.preserves_bind
        · exact preserves_runtime during (fun _ => rfl) (fun _ => rfl)
        · intro _ _
          exact preserves_setXformValues during (granted.placed prim rfl)
      · exact Edit.preserves_pure _

theorem Sheltered.preserves_applySegmentEvent
    (sheltered : Sheltered base target place reach removable)
    (granted : event.Granted usd target place reach removable condition) :
    Edit.Preserves condition base
      (applySegmentEvent usd target event) scene := by
  unfold applySegmentEvent
  split
  · apply Edit.preserves_bind (sheltered.preserves_ensureXformOpsCached granted)
    intro _ _
    exact sheltered.preserves_expireHandles
  · apply Edit.preserves_bind (sheltered.preserves_setXformTrsCached granted)
    intro _ _
    exact sheltered.preserves_expireHandles
  · apply Edit.preserves_bind (sheltered.preserves_applyEvent granted)
    intro _ _
    exact sheltered.preserves_expireHandles

theorem Sheltered.preserves_applySegment (sheltered : Sheltered base target place reach removable)
    {events : List Event}
    (granted : ∀ event ∈ events, event.Granted usd target place reach removable condition) :
    Edit.Preserves condition base (applySegment usd target events)
      scene := by
  unfold applySegment
  apply Edit.preserves_forM
  intro event member current
  exact sheltered.preserves_applySegmentEvent (granted event (mem_of_mem_segmentOrder member))

theorem Sheltered.preserves_applyBarrier (sheltered : Sheltered base target place reach removable)
    (granted : event.Granted usd target place reach removable condition) :
    Edit.Preserves condition base (applyBarrier usd target event)
      scene := by
  unfold applyBarrier
  apply Edit.preserves_bind (sheltered.preserves_act fun _ => rfl)
  intro _ _
  apply Edit.preserves_bind (sheltered.preserves_applyEvent granted)
  intro _ _
  exact sheltered.preserves_expireHandles

theorem Sheltered.preserves_applyEventsLoop
    (sheltered : Sheltered base target place reach removable)
    {segment events : List Event} (collected : ∀ event ∈ segment,
      event.Granted usd target place reach removable condition)
    (granted : ∀ event ∈ events, event.Granted usd target place reach removable condition) :
    Edit.Preserves condition base
      (applyEventsLoop usd target segment events) scene := by
  induction events generalizing segment scene with
  | nil => exact sheltered.preserves_applySegment collected
  | cons event rest ih =>
      have first := granted event List.mem_cons_self
      have later : ∀ other ∈ rest,
          other.Granted usd target place reach removable condition :=
        fun other member => granted other (List.mem_cons_of_mem event member)
      unfold applyEventsLoop
      split
      · apply Edit.preserves_bind (sheltered.preserves_applySegment collected)
        intro _ _
        apply Edit.preserves_bind (sheltered.preserves_applyBarrier first)
        intro _ _
        apply ih
        · intro other member
          exact absurd member List.not_mem_nil
        · exact later
      · apply ih
        · intro other member
          rcases List.mem_append.1 member with old | new
          · exact collected other old
          · rw [List.mem_singleton.1 new]
            exact first
        · exact later

theorem Sheltered.preserves_applyEvents (sheltered : Sheltered base target place reach removable)
    {events : List Event} {prevalidated : Bool}
    (granted : ∀ event ∈ events, event.Granted usd target place reach removable condition) :
    Edit.Preserves condition base (applyEvents usd target events prevalidated) scene := by
  have loop : ∀ {current : Scene},
      Edit.Preserves condition base (applyEventsLoop usd target [] events) current := by
    intro current
    apply sheltered.preserves_applyEventsLoop _ granted
    intro other member
    exact absurd member List.not_mem_nil
  unfold applyEvents
  dsimp only
  split
  · apply Edit.preserves_bind
    · apply Edit.preserves_forM
      intro event _ current
      split
      · split
        · exact Edit.preserves_raise _
        · exact Edit.preserves_pure _
      · exact Edit.preserves_pure _
    · intro _ _
      exact loop
  · exact loop

end Batches

section Layers

variable {usd : Usd} {place removable : LayerId → PrimPath → Prop} {base : Scene → Prop}
  {scene : Scene} {target : LayerId}

theorem Shielded.sheltered (shielded : Shielded base place removable) (target : LayerId) :
    Sheltered base target (place target) (place target) (removable target) :=
  ⟨(shielded.permits target).admits, shielded.ignores⟩

theorem Shielded.preserves_act (shielded : Shielded base place removable)
    {condition : Scene → Prop} {op : SceneOp}
    (away : ∀ current : Scene, (Scene.exec op current).layers = current.layers) :
    Edit.Preserves condition base (Edit.act op : SceneEdit Unit) scene :=
  (shielded.sheltered "").preserves_act away

theorem Shielded.preserves_applyEvents (shielded : Shielded base place removable)
    {events : List Event} (placed : ∀ event ∈ events, event.Placed (place target)) :
    Edit.Preserves (Scene.Contained usd place removable) base
      (applyEvents usd target events true) scene := by
  apply (shielded.sheltered target).preserves_applyEvents
  intro event member
  exact ⟨placed event member, fun _ contained running => (contained target event running).reaches⟩

end Layers

end UsdConnect
