/-
Purpose: Merging two deltas of one spec and applying the result is applying one after the other, on
  every target layer.
Trusted boundary: none
Main exports: value_copySpecFields, value_applySpecDelta, mergeAgrees
-/
import UsdConnect.Events.SpecDelta
import UsdConnect.Usd.Plain
import Mathlib.Data.List.Dedup

namespace UsdConnect

/-! ### Layer data -/

namespace Layer

variable {layer other : Layer}

/-- Two layers whose `customLayerData` is read alike by a copy. -/
structure SameData (first second : Layer) : Prop where
  own : first.ownData = second.ownData
  authored : (first.ownData ≠ [] ∨ (first.info .root "customLayerData").isSome) ↔
    (second.ownData ≠ [] ∨ (second.info .root "customLayerData").isSome)

theorem layerData_congr
    (same : layer.info .root "customLayerData" = other.info .root "customLayerData") :
    layer.layerData = other.layerData := by
  unfold layerData
  rw [same]

theorem reservedData_congr
    (same : layer.info .root "customLayerData" = other.info .root "customLayerData") :
    layer.reservedData = other.reservedData := by
  unfold reservedData
  rw [layerData_congr same]

theorem filter_own_ownData (layer : Layer) :
    layer.ownData.filter (·.1 ≠ reservedLayerDataKey) = layer.ownData := by
  unfold ownData
  rw [List.filter_filter]
  simp

theorem filter_reserved_ownData (layer : Layer) :
    layer.ownData.filter (·.1 = reservedLayerDataKey) = [] := by
  unfold ownData
  rw [List.filter_filter]
  simp

theorem filter_own_reservedData (layer : Layer) :
    layer.reservedData.filter (·.1 ≠ reservedLayerDataKey) = [] := by
  unfold reservedData
  rw [List.filter_filter]
  simp

theorem filter_reserved_reservedData (layer : Layer) :
    layer.reservedData.filter (·.1 = reservedLayerDataKey) = layer.reservedData := by
  unfold reservedData
  rw [List.filter_filter]
  simp

end Layer

theorem copiedLayerData_congr {first second : Layer} (same : first.SameData second) {target other : Layer}
    {preserve : Bool} (reserved : preserve = true → target.reservedData = other.reservedData) :
    copiedLayerData first target preserve = copiedLayerData second other preserve := by
  have kept : (if preserve then target.reservedData else []) =
      if preserve then other.reservedData else [] := by
    cases preserve with
    | false => rfl
    | true => exact reserved rfl
  unfold copiedLayerData
  simp only [same.own, kept]
  have authored := same.authored
  rw [same.own] at authored
  by_cases own : second.ownData = []
  · have present : (first.info .root "customLayerData").isSome ↔
        (second.info .root "customLayerData").isSome := by simpa [own] using authored
    simp only [present]
  · simp [own]

/-- The copied dictionary, or nothing where both the dictionary is empty and the source has none. -/
theorem copiedLayerData_cases (source target : Layer) (preserve : Bool) :
    copiedLayerData source target preserve =
        some (.dictionary (source.ownData ++ if preserve then target.reservedData else [])) ∨
      copiedLayerData source target preserve = none ∧
        (source.ownData ++ if preserve then target.reservedData else []) = [] := by
  by_cases authored : (source.ownData ++ if preserve then target.reservedData else []) ≠ [] ∨
      (source.info .root "customLayerData").isSome
  · left
    exact if_pos authored
  · right
    exact ⟨if_neg authored, not_not.1 (not_or.1 authored).1⟩

/-- A layer that holds copied layer data reads like its source, and keeps what was to be kept. -/
theorem data_of_copied {source target after : Layer} {preserve : Bool}
    (copied : after.info .root "customLayerData" = copiedLayerData source target preserve) :
    after.ownData = source.ownData ∧
      after.reservedData = if preserve then target.reservedData else [] := by
  have read : after.layerData = source.ownData ++ if preserve then target.reservedData else [] := by
    unfold Layer.layerData
    rcases copiedLayerData_cases source target preserve with found | ⟨missing, empty⟩
    · rw [copied, found]
    · rw [copied, missing, empty]
  constructor
  · show after.layerData.filter _ = _
    rw [read, List.filter_append, source.filter_own_ownData]
    cases preserve with
    | false => simp
    | true => simp only [if_true, target.filter_own_reservedData, List.append_nil]
  · show after.layerData.filter _ = _
    rw [read, List.filter_append, source.filter_reserved_ownData, List.nil_append]
    cases preserve with
    | false => rfl
    | true => exact target.filter_reserved_reservedData

/-- Where nothing is kept the copy reads like its source. -/
theorem sameData_of_copied {source target after : Layer} {preserve : Bool}
    (copied : after.info .root "customLayerData" = copiedLayerData source target preserve)
    (nothing : preserve = true → target.reservedData = []) : after.SameData source := by
  have own := (data_of_copied copied).1
  refine ⟨own, ?_⟩
  have empty : (if preserve then target.reservedData else []) = [] := by
    cases preserve with
    | false => rfl
    | true => exact nothing rfl
  rw [copied, own]
  unfold copiedLayerData
  simp only [empty, List.append_nil]
  split
  · next authored => simp [authored]
  · next missing =>
      rw [not_or, not_not] at missing
      simp [missing]

/-! ### Edits of a spec that is there -/

/-- The layer has the spec that creating one of this kind would leave. -/
def Layer.Holds (layer : Layer) (path : SpecPath) (kind : SpecKind) : Prop :=
  layer.value path .spec = some (LayerEdit.specDatum path kind)

theorem Layer.Holds.above {layer : Layer} {path other : SpecPath} {kind : SpecKind}
    (holds : layer.Holds path kind) (inside : path.Inside other) :
    layer.value other .spec = some (LayerEdit.specDatum other kind) := by
  by_cases here : other = path
  · rw [here]
    exact holds
  · rcases other with ⟨prim, property⟩
    cases property with
    | some name => exact absurd (show path = _ from inside).symm here
    | none =>
        have present : (layer.value ⟨prim, none⟩ .spec).isSome := by
          apply layer.rooted path _ inside
          rw [holds]
          rfl
        rcases layer.plain prim with missing | plain
        · rw [missing] at present
          cases present
        · exact plain

/-- Creating a spec that is there changes nothing. -/
theorem createdBy_getD {layer : Layer} {path : SpecPath} {kind : SpecKind}
    (holds : layer.Holds path kind) (other : SpecPath) (field : Field) :
    (LayerEdit.createdBy path kind other field).getD (layer.value other field) =
      layer.value other field := by
  unfold LayerEdit.createdBy
  split
  · next created =>
      obtain ⟨rfl, inside⟩ := created
      exact (holds.above inside).symm
  · rfl

theorem create_of_holds {layer : Layer} {path : SpecPath} {kind : SpecKind}
    (holds : layer.Holds path kind) : (LayerEdit.create path kind).apply layer = layer := by
  ext1
  funext other field
  show (if other = .root ∧ field = .spec then none
    else LayerEdit.createdBy path kind other field).getD _ = _
  split
  · rfl
  · exact createdBy_getD holds other field

theorem holds_create (layer : Layer) (path : SpecPath) (kind : SpecKind) :
    ((LayerEdit.create path kind).apply layer).Holds path kind := by
  show (if path = .root ∧ Field.spec = .spec then none
    else LayerEdit.createdBy path kind path .spec).getD _ = _
  split
  · next top =>
      rw [top.1]
      exact layer.pseudoRoot
  · rw [LayerEdit.createdBy_spec (SpecPath.Inside.refl path)]
    rfl

theorem value_author {layer : Layer} {path : SpecPath} {kind : SpecKind}
    (holds : layer.Holds path kind) (name : String) (value : Datum) (other : SpecPath)
    (field : Field) : ((LayerEdit.author path kind (.info name) value).apply layer).value other field =
      if other = path ∧ field = .info name then some value else layer.value other field := by
  show (if other = .root ∧ field = .spec then none
    else if other = path ∧ field = .info name ∧ field ≠ .spec then some (some value)
    else LayerEdit.createdBy path kind other field).getD _ = _
  by_cases top : other = .root ∧ field = .spec
  · rw [if_pos top, if_neg (fun here => by simp [top.2] at here)]
    rfl
  · rw [if_neg top]
    by_cases here : other = path ∧ field = .info name
    · rw [if_pos ⟨here.1, here.2, by simp [here.2]⟩, if_pos here]
      rfl
    · rw [if_neg (fun there => here ⟨there.1, there.2.1⟩), if_neg here]
      exact createdBy_getD holds other field

theorem value_clear (layer : Layer) (path : SpecPath) (name : String) (other : SpecPath)
    (field : Field) : ((LayerEdit.clear path (.info name)).apply layer).value other field =
      if other = path ∧ field = .info name then none else layer.value other field := by
  show (if other = .root ∧ field = .spec then none
    else if other = path ∧ field = .info name ∧ field ≠ .spec then some none else none).getD _ = _
  by_cases here : other = path ∧ field = .info name
  · rw [if_neg (fun top => by simp [here.2] at top), if_pos ⟨here.1, here.2, by simp [here.2]⟩,
      if_pos here]
    rfl
  · have apart : ¬ (other = path ∧ field = .info name ∧ field ≠ .spec) :=
      fun there => here ⟨there.1, there.2.1⟩
    rw [if_neg here, if_neg apart, ite_self]
    rfl

theorem value_samples {layer : Layer} {path : SpecPath} (holds : layer.Holds path .attribute)
    (table : TimeCode → Option Datum) (other : SpecPath) (field : Field) :
    ((LayerEdit.samples path table).apply layer).value other field =
      match field with
      | .sample time => if other = path then table time else layer.value other (.sample time)
      | field => layer.value other field := by
  cases field with
  | sample time =>
      show (if other = .root ∧ Field.sample time = .spec then none
        else if other = path then some (table time) else none).getD _ = _
      rw [if_neg (by simp)]
      by_cases here : other = path
      · simp [here]
      · simp [here]
  | spec =>
      show (if other = .root ∧ Field.spec = .spec then none
        else LayerEdit.createdBy path .attribute other .spec).getD _ = _
      split
      · rfl
      · exact createdBy_getD holds other .spec
  | info name =>
      show (if other = .root ∧ Field.info name = .spec then none
        else LayerEdit.createdBy path .attribute other (.info name)).getD _ = _
      rw [if_neg (by simp)]
      exact createdBy_getD holds other (.info name)

/-! ### Copying selected fields -/

/-- Value of a field once selected fields of one spec were copied. -/
def copiedValue (source : Layer) (path : SpecPath) (kind : SpecKind) (preserve : Bool)
    (names : List String) (target : Layer) (other : SpecPath) (field : Field) : Option Datum :=
  match field with
  | .spec => target.value other .spec
  | .info name =>
      if other = path ∧ name ∈ names ∧ name ≠ "timeSamples" then
        copiedInfo source target path kind preserve name
      else target.value other (.info name)
  | .sample time =>
      if other = path ∧ kind = .attribute ∧ "timeSamples" ∈ names then
        source.value path (.sample time)
      else target.value other (.sample time)

theorem value_copyField (source : Layer) {target : Layer} {path : SpecPath} {kind : SpecKind}
    (holds : target.Holds path kind) (preserve : Bool) (name : String) :
    (copyField source path kind preserve name).result target = .ok () ∧
      ((copyField source path kind preserve name).after target).value =
        copiedValue source path kind preserve [name] target := by
  unfold copyField
  by_cases samples : name = "timeSamples"
  · subst samples
    rw [if_pos rfl]
    by_cases animated : kind = .attribute
    · subst animated
      rw [if_pos rfl]
      refine ⟨rfl, ?_⟩
      funext other field
      refine (value_samples holds _ other field).trans ?_
      cases field with
      | spec => rfl
      | info name =>
          show target.value other (.info name) = if _ then _ else _
          rw [if_neg (by simp)]
      | sample time =>
          show (if other = path then source.value path (.sample time) else _) = if _ then _ else _
          simp
    · rw [if_neg animated]
      refine ⟨rfl, ?_⟩
      funext other field
      cases field with
      | spec => rfl
      | info name =>
          show target.value other (.info name) = if _ then _ else _
          rw [if_neg (by simp)]
      | sample time =>
          show target.value other (.sample time) = if _ then _ else _
          rw [if_neg (by simp [animated])]
  · rw [if_neg samples, Edit.after_look_bind, Edit.result_look_bind]
    have others : ∀ other field, (¬ (other = path ∧ field = .info name)) →
        copiedValue source path kind preserve [name] target other field =
          target.value other field := by
      intro other field apart
      cases field with
      | spec => rfl
      | info different =>
          refine if_neg fun selected => apart ⟨selected.1, ?_⟩
          rw [List.mem_singleton.1 selected.2.1]
      | sample time =>
          refine if_neg fun selected => samples ?_
          exact (List.mem_singleton.1 selected.2.2).symm
    have here : copiedValue source path kind preserve [name] target path (.info name) =
        copiedInfo source target path kind preserve name :=
      if_pos ⟨rfl, List.mem_singleton_self name, samples⟩
    rw [id_eq]
    split
    · next value found =>
        refine ⟨rfl, ?_⟩
        funext other field
        refine (value_author holds name value other field).trans ?_
        split
        · next selected =>
            obtain ⟨rfl, rfl⟩ := selected
            rw [here, found]
        · next apart => exact (others other field apart).symm
    · next missing =>
        refine ⟨rfl, ?_⟩
        funext other field
        refine (value_clear target path name other field).trans ?_
        split
        · next selected =>
            obtain ⟨rfl, rfl⟩ := selected
            rw [here, missing]
        · next apart => exact (others other field apart).symm

theorem copiedInfo_congr {source target other : Layer} {path : SpecPath} {kind : SpecKind}
    {preserve : Bool} {name : String}
    (reserved : kind = .layer → preserve = true → target.reservedData = other.reservedData) :
    copiedInfo source target path kind preserve name =
      copiedInfo source other path kind preserve name := by
  unfold copiedInfo
  split
  · next layerData => exact copiedLayerData_congr ⟨rfl, Iff.rfl⟩ (reserved layerData.1)
  · rfl

/-- A copy that preserves the reserved entry keeps it. -/
theorem reservedData_copied {source target after : Layer} {path : SpecPath} {kind : SpecKind}
    {names : List String} (own : path = .root → kind = .layer)
    (copied : after.value = copiedValue source path kind true names target) :
    after.reservedData = target.reservedData := by
  have read : after.info .root "customLayerData" =
      copiedValue source path kind true names target .root (.info "customLayerData") := by
    unfold Layer.info
    rw [copied]
  by_cases selected : SpecPath.root = path ∧ "customLayerData" ∈ names ∧
      "customLayerData" ≠ "timeSamples"
  · have layered := own selected.1.symm
    have value : after.info .root "customLayerData" = copiedLayerData source target true := by
      rw [read]
      refine (if_pos selected).trans ?_
      exact if_pos ⟨layered, rfl⟩
    exact (data_of_copied value).2
  · exact Layer.reservedData_congr (read.trans (if_neg selected))

/-- Copying one field and then others is copying all of them. -/
theorem copiedValue_cons {source target middle : Layer} {path : SpecPath} {kind : SpecKind}
    {preserve : Bool} (own : path = .root → kind = .layer) {name : String} (rest : List String)
    (copied : middle.value = copiedValue source path kind preserve [name] target) :
    copiedValue source path kind preserve rest middle =
      copiedValue source path kind preserve (name :: rest) target := by
  have reserved : kind = .layer → preserve = true → middle.reservedData = target.reservedData := by
    rintro - rfl
    exact reservedData_copied own copied
  funext other field
  cases field with
  | spec =>
      show middle.value other .spec = _
      rw [copied]
      rfl
  | info field =>
      show (if _ then _ else middle.value other (.info field)) = if _ then _ else _
      rw [copied, copiedInfo_congr reserved]
      by_cases later : other = path ∧ field ∈ rest ∧ field ≠ "timeSamples"
      · rw [if_pos later, if_pos ⟨later.1, List.mem_cons_of_mem _ later.2.1, later.2.2⟩]
      · rw [if_neg later]
        show (if _ then _ else _) = _
        by_cases now : other = path ∧ field ∈ [name] ∧ field ≠ "timeSamples"
        · rw [if_pos now, if_pos ⟨now.1, List.mem_cons.2 (Or.inl (List.mem_singleton.1 now.2.1)),
            now.2.2⟩]
        · rw [if_neg now, if_neg]
          rintro ⟨here, member, plain⟩
          rcases List.mem_cons.1 member with rfl | old
          · exact now ⟨here, List.mem_singleton_self _, plain⟩
          · exact later ⟨here, old, plain⟩
  | sample time =>
      show (if _ then _ else middle.value other (.sample time)) = if _ then _ else _
      rw [copied]
      by_cases later : other = path ∧ kind = .attribute ∧ "timeSamples" ∈ rest
      · rw [if_pos later, if_pos ⟨later.1, later.2.1, List.mem_cons_of_mem _ later.2.2⟩]
      · rw [if_neg later]
        show (if _ then _ else _) = _
        by_cases now : other = path ∧ kind = .attribute ∧ "timeSamples" ∈ [name]
        · rw [if_pos now, if_pos ⟨now.1, now.2.1,
            List.mem_cons.2 (Or.inl (List.mem_singleton.1 now.2.2))⟩]
        · rw [if_neg now, if_neg]
          rintro ⟨here, animated, member⟩
          rcases List.mem_cons.1 member with rfl | old
          · exact now ⟨here, animated, List.mem_singleton_self _⟩
          · exact later ⟨here, animated, old⟩

theorem value_copyFields (source : Layer) {path : SpecPath} {kind : SpecKind}
    (own : path = .root → kind = .layer) (preserve : Bool) (names : List String) {target : Layer}
    (holds : target.Holds path kind) :
    (names.forM (copyField source path kind preserve)).result target = .ok () ∧
      ((names.forM (copyField source path kind preserve)).after target).value =
        copiedValue source path kind preserve names target := by
  induction names generalizing target with
  | nil =>
      refine ⟨rfl, ?_⟩
      funext other field
      cases field with
      | spec => rfl
      | info name => exact (if_neg (by simp)).symm
      | sample time => exact (if_neg (by simp)).symm
  | cons name rest ih =>
      obtain ⟨finished, copied⟩ := value_copyField source holds preserve name
      have still : ((copyField source path kind preserve name).after target).Holds path kind := by
        unfold Layer.Holds
        rw [copied]
        exact holds
      obtain ⟨returned, value⟩ := ih still
      refine ⟨(Edit.result_bind_of_ok finished).trans returned, ?_⟩
      rw [Edit.after_forM_cons finished, value]
      exact copiedValue_cons own rest copied

theorem value_copySpecFields (source : Layer) {path : SpecPath} {kind : SdfSpecKind}
    {concrete : SpecKind} (known : kind.concrete = some concrete)
    (own : path = .root → concrete = .layer) (fields : List String)
    (includeRequired preserve : Bool) (target : Layer) :
    (copySpecFields source path kind fields includeRequired preserve).result target = .ok () ∧
      ((copySpecFields source path kind fields includeRequired preserve).after target).value =
        copiedValue source path concrete preserve
          (fields ++ if includeRequired then kind.requiredFields else [])
          ((LayerEdit.create path concrete).apply target) := by
  unfold copySpecFields
  simp only [known]
  obtain ⟨returned, value⟩ := value_copyFields source own preserve
    (fields ++ if includeRequired then kind.requiredFields else [])
    (holds_create target path concrete)
  have created : (Edit.act (.create path concrete) : LayerProgram Unit).result target = .ok () := rfl
  constructor
  · rw [Edit.result_bind_of_ok created]
    exact returned
  · rw [Edit.after_bind_of_ok created]
    exact value

/-! ### One delta -/

variable {usd : Usd}

/-- A delta with content that can be applied: it passes its checks and its text has the spec. -/
structure SpecDelta.Reads (usd : Usd) (delta : SpecDelta) (fragment : Layer) : Prop where
  checked : checkSpecDelta delta = none
  kept : delta.removed = false
  imported : usd.importFromString delta.fragment = some fragment
  found : fragment.hasSpecOfKind delta.specPath delta.specKind = true

theorem SpecDelta.reads_of_valid {delta : SpecDelta} (kept : delta.removed = false)
    (valid : validateSpecDelta usd delta = none) : ∃ fragment, delta.Reads usd fragment := by
  unfold validateSpecDelta at valid
  split at valid
  · cases valid
  · next checked =>
      simp only [kept, Bool.false_eq_true, if_false] at valid
      split at valid
      · cases valid
      · next fragment imported =>
          split at valid
          · next found => exact ⟨fragment, checked, kept, imported, found⟩
          · cases valid

/-- Checked deltas stand at a path of their kind, and the kind is a concrete one. -/
theorem accepts_of_checked {delta : SpecDelta} (checked : checkSpecDelta delta = none)
    (kept : delta.removed = false) :
    delta.specKind.accepts delta.specPath = true ∧
      ∃ concrete, delta.specKind.concrete = some concrete := by
  unfold checkSpecDelta at checked
  split at checked
  · cases checked
  · next accepted =>
      refine ⟨by simpa using accepted, ?_⟩
      split at checked
      · cases checked
      · split at checked
        · cases checked
        · split at checked
          · cases checked
          · split at checked
            · cases checked
            · next generic =>
                cases kind : delta.specKind with
                | property => exact absurd ⟨kind, by simp [kept]⟩ generic
                | _ => exact ⟨_, rfl⟩

theorem layer_of_root {kind : SdfSpecKind} {path : SpecPath} {concrete : SpecKind}
    (accepted : kind.accepts path = true) (known : kind.concrete = some concrete)
    (root : path = .root) : concrete = .layer := by
  subst root
  cases kind with
  | layer => exact (Option.some.inj known).symm
  | _ => simp [SdfSpecKind.accepts, SpecPath.root] at accepted

theorem PrimPath.kind_of_accepts {kind : SdfSpecKind} {prim : PrimPath} {concrete : SpecKind}
    (accepted : kind.accepts ⟨prim, none⟩ = true) (known : kind.concrete = some concrete) :
    concrete = prim.kind := by
  unfold SdfSpecKind.accepts at accepted
  unfold PrimPath.kind
  dsimp only at accepted
  split at accepted
  all_goals simp_all [SdfSpecKind.concrete]

theorem PrimPath.kind_ne_property (prim : PrimPath) :
    prim.kind ≠ .attribute ∧ prim.kind ≠ .relationship := by
  unfold PrimPath.kind
  split <;> simp

theorem property_of_accepts {kind : SdfSpecKind} {prim : PrimPath} {name : String}
    {concrete : SpecKind} (accepted : kind.accepts ⟨prim, some name⟩ = true)
    (known : kind.concrete = some concrete) : concrete = .attribute ∨ concrete = .relationship := by
  match kind, known, accepted with
  | .attribute, known, _ => exact Or.inl (Option.some.inj known).symm
  | .relationship, known, _ => exact Or.inr (Option.some.inj known).symm
  | .property, known, _ => exact nomatch known

theorem hasSpecOfKind_concrete {layer : Layer} {path : SpecPath} {kind : SdfSpecKind}
    {concrete : SpecKind} (known : kind.concrete = some concrete) :
    layer.hasSpecOfKind path kind = true ↔ layer.specKind path = some concrete := by
  unfold Layer.hasSpecOfKind
  cases found : layer.specKind path with
  | none => simp
  | some other =>
      cases kind with
      | property => cases known
      | _ =>
          obtain rfl := Option.some.inj known
          simp [SdfSpecKind.concrete, eq_comm]

/-- A layer has a spec of the kind exactly when it has what creating one would leave. -/
theorem hasSpecOfKind_iff_holds {layer : Layer} {path : SpecPath} {kind : SdfSpecKind}
    {concrete : SpecKind} (accepted : kind.accepts path = true)
    (known : kind.concrete = some concrete) :
    layer.hasSpecOfKind path kind = true ↔ layer.Holds path concrete := by
  rw [hasSpecOfKind_concrete known]
  unfold Layer.specKind Layer.Holds LayerEdit.specDatum
  rcases path with ⟨prim, property⟩
  cases property with
  | none =>
      have same := PrimPath.kind_of_accepts accepted known
      rcases layer.plain prim with missing | present
      · simp [missing]
      · simp [present, same]
  | some name =>
      have property := property_of_accepts accepted known
      have apart := prim.kind_ne_property
      split
      · next kind found =>
          rw [found]
          simp
      · next datum plain found =>
          rw [found]
          constructor
          · intro same
            rcases property with rfl | rfl
            · exact absurd (Option.some.inj same) apart.1
            · exact absurd (Option.some.inj same) apart.2
          · intro same
            exact absurd found (by rw [Option.some.inj same] at plain; exact fun _ => plain _ rfl)
      · next missing =>
          rw [missing]
          simp

/-- The layer without a spec of another kind at the path of a delta. -/
def Layer.madeWay (layer : Layer) (path : SpecPath) (kind : SdfSpecKind) : Layer :=
  if layer.hasSpecOfKind path kind then layer
  else if layer.hasSpec path then (LayerEdit.remove path).apply layer
  else layer

/-- What a delta leaves: the selected fields, and the required ones where the spec was missing. -/
theorem value_applySpecDelta {delta : SpecDelta} {fragment : Layer} (reads : delta.Reads usd fragment)
    {concrete : SpecKind} (known : delta.specKind.concrete = some concrete) (target : Layer) :
    (applySpecDeltaToLayer usd delta).result target = .ok () ∧
      ((applySpecDeltaToLayer usd delta).after target).value =
        copiedValue fragment delta.specPath concrete true
          (delta.fields ++ if target.hasSpecOfKind delta.specPath delta.specKind then []
            else delta.specKind.requiredFields)
          ((LayerEdit.create delta.specPath concrete).apply
            (target.madeWay delta.specPath delta.specKind)) := by
  have own := layer_of_root (accepts_of_checked reads.checked reads.kept).1 known
  unfold applySpecDeltaToLayer Layer.madeWay
  simp only [reads.checked, reads.kept, reads.imported, reads.found, Bool.false_eq_true, if_false,
    Bool.not_true, Edit.after_look_bind, Edit.result_look_bind, id_eq]
  by_cases there : target.hasSpecOfKind delta.specPath delta.specKind = true
  · simp only [there, if_true]
    exact value_copySpecFields fragment known own delta.fields false true target
  · simp only [there]
    by_cases other : target.hasSpec delta.specPath = true
    · simp only [other, if_true]
      exact value_copySpecFields fragment known own delta.fields true true _
    · simp only [other]
      exact value_copySpecFields fragment known own delta.fields true true target

/-! ### Two deltas in order -/

theorem value_create_field (layer : Layer) (path : SpecPath) (kind : SpecKind) (other : SpecPath)
    {field : Field} (data : field ≠ .spec) :
    ((LayerEdit.create path kind).apply layer).value other field = layer.value other field := by
  show (if other = .root ∧ field = .spec then none
    else LayerEdit.createdBy path kind other field).getD _ = _
  rw [LayerEdit.createdBy_field data, ite_self]
  rfl

/-- The layer a delta copies into. -/
def Layer.base (target : Layer) (path : SpecPath) (kind : SdfSpecKind) (concrete : SpecKind) :
    Layer :=
  (LayerEdit.create path concrete).apply (target.madeWay path kind)

theorem Layer.base_of_found {target : Layer} {path : SpecPath} {kind : SdfSpecKind}
    {concrete : SpecKind} (accepted : kind.accepts path = true)
    (known : kind.concrete = some concrete) (found : target.hasSpecOfKind path kind = true) :
    target.base path kind concrete = target := by
  unfold base madeWay
  rw [if_pos found]
  exact create_of_holds ((hasSpecOfKind_iff_holds accepted known).1 found)

/-- Data of a spec of another kind, or of none, is gone. -/
theorem Layer.value_base_of_missing {target : Layer} {path : SpecPath} {kind : SdfSpecKind}
    {concrete : SpecKind} (accepted : kind.accepts path = true)
    (known : kind.concrete = some concrete) (missing : ¬ target.hasSpecOfKind path kind = true)
    {field : Field} (data : field ≠ .spec) :
    (target.base path kind concrete).value path field = none := by
  unfold base madeWay
  rw [value_create_field _ _ _ _ data, if_neg missing]
  by_cases present : target.hasSpec path = true
  · rw [if_pos present]
    have below : path ≠ .root := by
      rintro rfl
      have layered := layer_of_root accepted known rfl
      subst layered
      exact missing ((hasSpecOfKind_iff_holds accepted known).2 target.pseudoRoot)
    refine (LayerEdit.edited_of_ne_root below).trans ?_
    simp [LayerEdit.written, SpecPath.Inside.refl]
  · rw [if_neg present]
    cases found : target.value path field with
    | none => rfl
    | some value =>
        have spec := target.tidy path field (by rw [found]; rfl)
        exact absurd spec present

/-- The pseudo-root's fields are not touched by making room for a spec below it. -/
theorem Layer.reservedData_base (target : Layer) {path : SpecPath} {kind : SdfSpecKind}
    {concrete : SpecKind} (accepted : kind.accepts path = true)
    (known : kind.concrete = some concrete) :
    (target.base path kind concrete).reservedData = target.reservedData := by
  apply reservedData_congr
  unfold base madeWay Layer.info
  rw [value_create_field _ _ _ _ (by simp)]
  split
  · rfl
  · next missing =>
      split
      · have below : ¬ SpecPath.root.Inside path := by
          intro inside
          have root := SpecPath.eq_root_of_inside inside
          subst root
          have layered := layer_of_root accepted known rfl
          subst layered
          exact missing ((hasSpecOfKind_iff_holds accepted known).2 target.pseudoRoot)
        show (if SpecPath.root = .root ∧ Field.info "customLayerData" = .spec then none
          else if SpecPath.root.Inside path then some none else none).getD _ = _
        rw [if_neg (by simp), if_neg below]
        rfl
      · rfl

/-- Fields that a delta selects on a target. -/
def SpecDelta.selected (delta : SpecDelta) (target : Layer) : List String :=
  delta.fields ++ if target.hasSpecOfKind delta.specPath delta.specKind then []
    else delta.specKind.requiredFields

/-- What two deltas of one spec leave when they are applied in order. -/
structure InOrder (usd : Usd) (previous current : SpecDelta) (earlier later target : Layer)
    (concrete : SpecKind) (middle last : Layer) : Prop where
  returned : (applySpecDeltaToLayer usd previous >>= fun _ =>
    applySpecDeltaToLayer usd current).result target = .ok ()
  reached : (applySpecDeltaToLayer usd previous >>= fun _ =>
    applySpecDeltaToLayer usd current).after target = last
  output : (applySpecDeltaToLayer usd current).after
    ((applySpecDeltaToLayer usd previous).after target) = last
  first : middle.value = copiedValue earlier current.specPath concrete true
    (previous.selected target) (target.base current.specPath current.specKind concrete)
  second : last.value = copiedValue later current.specPath concrete true current.fields middle

theorem exists_inOrder {previous current : SpecDelta} {earlier later : Layer}
    (samePath : previous.specPath = current.specPath)
    (sameKind : previous.specKind = current.specKind) (first : previous.Reads usd earlier)
    (second : current.Reads usd later) {concrete : SpecKind}
    (known : current.specKind.concrete = some concrete) (target : Layer) :
    ∃ middle last, InOrder usd previous current earlier later target concrete middle last := by
  have accepted := (accepts_of_checked second.checked second.kept).1
  obtain ⟨firstDone, firstValue⟩ := value_applySpecDelta first (sameKind ▸ known) target
  obtain ⟨secondDone, secondValue⟩ := value_applySpecDelta second known
    ((applySpecDeltaToLayer usd previous).after target)
  rw [samePath, sameKind] at firstValue
  have holds : ((applySpecDeltaToLayer usd previous).after target).Holds current.specPath
      concrete := by
    unfold Layer.Holds
    rw [firstValue]
    exact holds_create _ _ _
  have found := (hasSpecOfKind_iff_holds accepted known).2 holds
  refine ⟨(applySpecDeltaToLayer usd previous).after target, _, ?_,
    Edit.after_bind_of_ok firstDone, rfl, ?_, ?_⟩
  · rw [Edit.result_bind_of_ok firstDone]
    exact secondDone
  · unfold SpecDelta.selected
    rw [samePath, sameKind]
    exact firstValue
  · have base := Layer.base_of_found accepted known found
    unfold Layer.base at base
    rw [secondValue, found, if_pos rfl, List.append_nil, base]

theorem copiedValue_info {source target : Layer} {path : SpecPath} {kind : SpecKind}
    {preserve : Bool} {names : List String} {name : String} (plain : name ≠ "timeSamples") :
    copiedValue source path kind preserve names target path (.info name) =
      if name ∈ names then copiedInfo source target path kind preserve name
      else target.value path (.info name) := by
  show (if _ then _ else _) = _
  simp [plain]

theorem copiedValue_sample {source target : Layer} {path : SpecPath} {kind : SpecKind}
    {preserve : Bool} {names : List String} {time : TimeCode} :
    copiedValue source path kind preserve names target path (.sample time) =
      if kind = .attribute ∧ "timeSamples" ∈ names then source.value path (.sample time)
      else target.value path (.sample time) := by
  show (if _ then _ else _) = _
  simp

section Steps

variable {previous current : SpecDelta} {earlier later target middle last : Layer}
  {concrete : SpecKind}

/-- The later delta decides, then the earlier one, then the target. -/
theorem InOrder.info (order : InOrder usd previous current earlier later target concrete middle last)
    {name : String} (plain : name ≠ "timeSamples") :
    last.info current.specPath name =
      if name ∈ current.fields then copiedInfo later middle current.specPath concrete true name
      else if name ∈ previous.selected target then
        copiedInfo earlier (target.base current.specPath current.specKind concrete)
          current.specPath concrete true name
      else (target.base current.specPath current.specKind concrete).info current.specPath name := by
  unfold Layer.info
  rw [order.second, copiedValue_info plain, order.first, copiedValue_info plain]

theorem InOrder.sample
    (order : InOrder usd previous current earlier later target concrete middle last)
    (time : TimeCode) : last.value current.specPath (.sample time) =
      if concrete = .attribute ∧ "timeSamples" ∈ current.fields then
        later.value current.specPath (.sample time)
      else if concrete = .attribute ∧ "timeSamples" ∈ previous.selected target then
        earlier.value current.specPath (.sample time)
      else (target.base current.specPath current.specKind concrete).value current.specPath
        (.sample time) := by
  rw [order.second, copiedValue_sample, order.first, copiedValue_sample]

theorem InOrder.reserved
    (order : InOrder usd previous current earlier later target concrete middle last)
    (accepted : current.specKind.accepts current.specPath = true)
    (known : current.specKind.concrete = some concrete) :
    middle.reservedData = target.reservedData ∧ last.reservedData = target.reservedData := by
  have own := layer_of_root accepted known
  have first := (reservedData_copied own order.first).trans (target.reservedData_base accepted known)
  exact ⟨first, (reservedData_copied own order.second).trans first⟩

end Steps

/-! ### The scratch layers of a merge -/

theorem mem_firstOccurrences {names : List String} {name : String} :
    name ∈ firstOccurrences names ↔ name ∈ names := by
  unfold firstOccurrences
  rw [List.mem_reverse, List.mem_dedup, List.mem_reverse]

theorem Layer.info_empty (path : SpecPath) (name : String) : Layer.empty.info path name = none :=
  if_neg (by simp)

theorem reservedData_empty : Layer.empty.reservedData = [] := by
  unfold Layer.reservedData Layer.layerData
  rw [Layer.info_empty]
  rfl

/-- An empty layer lacks every spec with required fields. -/
theorem selected_empty (delta : SpecDelta) {concrete : SpecKind}
    (accepted : delta.specKind.accepts delta.specPath = true)
    (known : delta.specKind.concrete = some concrete) :
    delta.selected .empty = delta.fields ++ delta.specKind.requiredFields := by
  unfold SpecDelta.selected
  split
  · next found =>
      have root : delta.specPath = .root := by
        by_contra below
        have holds := (hasSpecOfKind_iff_holds accepted known).1 found
        have missing : Layer.empty.value delta.specPath .spec = none := if_neg (fun top => below top.1)
        rw [Layer.Holds, missing] at holds
        cases holds
      have layered := layer_of_root accepted known root
      cases kind : delta.specKind with
      | layer => rfl
      | _ =>
          rw [kind] at known
          subst layered
          cases known
  · rfl

/-- The serialized scratch layer: the spec with the selected and the required fields of the source. -/
theorem serializedLayer_facts (source : Layer) {path : SpecPath} {kind : SdfSpecKind}
    {concrete : SpecKind} (accepted : kind.accepts path = true)
    (known : kind.concrete = some concrete) (fields : List String) :
    (serializedLayer source path kind fields).Holds path concrete ∧
      ∀ field, field ≠ .spec → (serializedLayer source path kind fields).value path field =
        copiedValue source path concrete false (firstOccurrences fields ++ kind.requiredFields)
          ((LayerEdit.create path concrete).apply .empty) path field := by
  have own := layer_of_root accepted known
  obtain ⟨done, value⟩ := value_copySpecFields source known own (firstOccurrences fields) true false
    .empty
  have holds : ((copySpecFields source path kind (firstOccurrences fields) true false).after
      .empty).Holds path concrete := by
    unfold Layer.Holds
    rw [value]
    exact holds_create _ _ _
  unfold serializedLayer
  dsimp only
  rw [Edit.after_bind_of_ok done]
  split
  · next variantSet =>
      subst variantSet
      obtain rfl := Option.some.inj known
      constructor
      · rcases path with ⟨prim, property⟩
        cases property with
        | none =>
            have inside : (⟨prim ++ [.variant fragmentVariantName], none⟩ : SpecPath).Inside
                ⟨prim, none⟩ := List.prefix_append _ _
            exact (holds_create _ _ .variant).above inside
        | some name => cases accepted
      · intro field data
        refine (value_create_field _ _ _ _ data).trans ?_
        rw [value]
        rfl
  · refine ⟨holds, fun field data => ?_⟩
    show ((copySpecFields source path kind (firstOccurrences fields) true false).after
      .empty).value path field = _
    rw [value]
    rfl

section Scratch

variable {previous current : SpecDelta} {earlier later middle last : Layer} {concrete : SpecKind}

/-- What the scratch layer of a serialized merge says of a selected field. -/
theorem info_mergedLayer (accepted : current.specKind.accepts current.specPath = true)
    (known : current.specKind.concrete = some concrete) (output : Layer) {name : String}
    (plain : name ≠ "timeSamples")
    (selected : name ∈ mergedFields previous current ++ current.specKind.requiredFields) :
    (serializedLayer output current.specPath current.specKind
      (mergedFields previous current)).info current.specPath name =
        copiedInfo output .empty current.specPath concrete false name := by
  refine ((serializedLayer_facts output accepted known _).2 (.info name) (by simp)).trans ?_
  rw [copiedValue_info plain, if_pos]
  · exact copiedInfo_congr fun _ preserved => nomatch preserved
  · rcases List.mem_append.1 selected with listed | required
    · exact List.mem_append_left _ (mem_firstOccurrences.2 listed)
    · exact List.mem_append_right _ required

theorem mem_mergedFields {name : String} :
    name ∈ mergedFields previous current ↔ name ∈ previous.fields ∨ name ∈ current.fields := by
  unfold mergedFields
  rw [mem_firstOccurrences, List.mem_append]

theorem Layer.SameData.trans {first second third : Layer} (one : first.SameData second)
    (two : second.SameData third) : first.SameData third :=
  ⟨one.own.trans two.own, one.authored.trans two.authored⟩

theorem root_of_layer {kind : SdfSpecKind} {path : SpecPath}
    (accepted : kind.accepts path = true) (known : kind.concrete = some .layer) :
    path = .root := by
  rcases path with ⟨prim, property⟩
  cases property with
  | some name => exact absurd (property_of_accepts accepted known) (by simp)
  | none =>
      have same := PrimPath.kind_of_accepts accepted known
      unfold PrimPath.kind at same
      split at same
      · next top =>
          rw [List.getLast?_eq_none_iff.1 top]
          rfl
      · cases same
      · cases same
      · cases same

/-- The merged text says of a field what the later delta's text says, or else the earlier one's. -/
theorem copiedInfo_merged (samePath : previous.specPath = current.specPath)
    (sameKind : previous.specKind = current.specKind)
    (accepted : current.specKind.accepts current.specPath = true)
    (known : current.specKind.concrete = some concrete)
    (order : InOrder usd previous current earlier later .empty concrete middle last)
    (target : Layer) {name : String} (plain : name ≠ "timeSamples")
    (selected : name ∈ mergedFields previous current ++ current.specKind.requiredFields) :
    copiedInfo (serializedLayer last current.specPath current.specKind
        (mergedFields previous current)) target current.specPath concrete true name =
      if name ∈ current.fields then copiedInfo later target current.specPath concrete true name
      else copiedInfo earlier target current.specPath concrete true name := by
  have written := info_mergedLayer accepted known last plain selected
  have read := order.info plain
  have chosen : name ∉ current.fields → name ∈ previous.selected .empty := by
    intro other
    rw [selected_empty previous (by rw [samePath, sameKind]; exact accepted)
      (by rw [sameKind]; exact known), sameKind]
    rcases List.mem_append.1 selected with listed | required
    · exact List.mem_append_left _ ((mem_mergedFields.1 listed).resolve_right other)
    · exact List.mem_append_right _ required
  by_cases layerData : concrete = .layer ∧ name = "customLayerData"
  · obtain ⟨rfl, rfl⟩ := layerData
    have root := root_of_layer accepted known
    have scratch : (serializedLayer last current.specPath current.specKind
        (mergedFields previous current)).SameData last := by
      refine @sameData_of_copied last .empty _ false ?_ (fun preserved => nomatch preserved)
      rw [root] at written ⊢
      exact written.trans (if_pos ⟨rfl, rfl⟩)
    have nothing := (order.reserved accepted known).1.trans reservedData_empty
    have bare := (Layer.reservedData_base .empty accepted known).trans
      reservedData_empty
    by_cases now : "customLayerData" ∈ current.fields
    · rw [if_pos now] at read ⊢
      rw [root] at read
      have latest : last.SameData later :=
        sameData_of_copied (read.trans (if_pos ⟨rfl, rfl⟩)) fun _ => nothing
      unfold copiedInfo
      rw [if_pos ⟨rfl, rfl⟩, if_pos ⟨rfl, rfl⟩]
      exact copiedLayerData_congr (scratch.trans latest) fun _ => rfl
    · rw [if_neg now] at read ⊢
      rw [if_pos (chosen now), root] at read
      rw [root] at bare
      have latest : last.SameData earlier :=
        sameData_of_copied (read.trans (if_pos ⟨rfl, rfl⟩)) fun _ => bare
      unfold copiedInfo
      rw [if_pos ⟨rfl, rfl⟩, if_pos ⟨rfl, rfl⟩]
      exact copiedLayerData_congr (scratch.trans latest) fun _ => rfl
  · have direct : ∀ (source other : Layer) (preserve : Bool),
        copiedInfo source other current.specPath concrete preserve name =
          source.info current.specPath name := fun source other preserve => if_neg layerData
    simp only [direct] at written read ⊢
    rw [written, read]
    by_cases now : name ∈ current.fields
    · rw [if_pos now, if_pos now]
    · rw [if_neg now, if_neg now, if_pos (chosen now)]

theorem sample_mergedLayer (samePath : previous.specPath = current.specPath)
    (sameKind : previous.specKind = current.specKind)
    (accepted : current.specKind.accepts current.specPath = true)
    (known : current.specKind.concrete = some concrete)
    (order : InOrder usd previous current earlier later .empty concrete middle last)
    (animated : concrete = .attribute)
    (selected : "timeSamples" ∈ mergedFields previous current ++ current.specKind.requiredFields)
    (time : TimeCode) :
    (serializedLayer last current.specPath current.specKind
        (mergedFields previous current)).value current.specPath (.sample time) =
      if "timeSamples" ∈ current.fields then later.value current.specPath (.sample time)
      else earlier.value current.specPath (.sample time) := by
  have written := (serializedLayer_facts last accepted known
    (mergedFields previous current)).2 (.sample time) (by simp)
  have listed : "timeSamples" ∈ firstOccurrences (mergedFields previous current) ++
      current.specKind.requiredFields := by
    rcases List.mem_append.1 selected with listed | required
    · exact List.mem_append_left _ (mem_firstOccurrences.2 listed)
    · exact List.mem_append_right _ required
  rw [written, copiedValue_sample, if_pos ⟨animated, listed⟩, order.sample]
  by_cases now : "timeSamples" ∈ current.fields
  · rw [if_pos ⟨animated, now⟩, if_pos now]
  · have chosen : "timeSamples" ∈ previous.selected .empty := by
      rw [selected_empty previous (by rw [samePath, sameKind]; exact accepted)
        (by rw [sameKind]; exact known), sameKind]
      rcases List.mem_append.1 selected with listed | required
      · exact List.mem_append_left _ ((mem_mergedFields.1 listed).resolve_right now)
      · exact List.mem_append_right _ required
    rw [if_neg (fun both => now both.2), if_pos ⟨animated, chosen⟩, if_neg now]

end Scratch

/-! ### The merge -/

/-- Layer text reads back as the layer it was written from. -/
def Usd.ReadsBack (usd : Usd) (layer : Layer) : Prop :=
  usd.importFromString (usd.exportToString layer) = some layer

/-- What the text of a delta authors for one field of its spec. -/
def SpecDelta.authored (usd : Usd) (delta : SpecDelta) (field : String) : Option Datum :=
  (usd.importFromString delta.fragment).bind fun fragment => fragment.info delta.specPath field

/-- The merge applied to a target is both deltas applied in order, and what the fields of the spec
hold then. -/
structure MergeAgrees (usd : Usd) (previous current : SpecDelta) (target : Layer) : Prop where
  inOrder : (applySpecDeltaToLayer usd previous >>= fun _ =>
    applySpecDeltaToLayer usd current).result target = .ok ()
  merged : (applySpecDeltaToLayer usd (mergeSpecEvents usd previous current)).result target = .ok ()
  same : (applySpecDeltaToLayer usd (mergeSpecEvents usd previous current)).after target =
    (applySpecDeltaToLayer usd previous >>= fun _ =>
      applySpecDeltaToLayer usd current).after target
  /-- A listed field is what the last delta that lists it authors, so it is cleared where that one
  does not author it; a required one counts as listed by the delta that creates the spec. -/
  fields : ∀ field, field ≠ "timeSamples" →
    ¬ (current.specKind = .layer ∧ field = "customLayerData") →
      ((applySpecDeltaToLayer usd (mergeSpecEvents usd previous current)).after target).info
          current.specPath field =
        if field ∈ current.fields then current.authored usd field
        else if field ∈ previous.selected target then previous.authored usd field
        else if target.hasSpecOfKind current.specPath current.specKind then
          target.info current.specPath field
        else none
  reserved : ((applySpecDeltaToLayer usd (mergeSpecEvents usd previous current)).after
    target).reservedData = target.reservedData

theorem mergeSpecEvents_of_kept {previous current : SpecDelta} (first : previous.removed = false)
    (second : current.removed = false) : mergeSpecEvents usd previous current =
      { current with
        fields := mergedFields previous current
        fragment := usd.exportToString (serializedLayer (mergeOutput usd previous current)
          current.specPath current.specKind (mergedFields previous current))
        removed := false } := by
  unfold mergeSpecEvents serializeSpecFields
  rw [if_neg (by simp [first, second])]

theorem checkSpecDelta_eq_none {delta : SpecDelta} : checkSpecDelta delta = none ↔
    delta.specKind.accepts delta.specPath = true ∧ (∀ field ∈ delta.fields, field ≠ "") ∧
      ¬ (delta.specKind = .layer ∧ ∃ field ∈ delta.fields, field ∈ layerTopologyFields) ∧
      ¬ (delta.removed = true ∧ delta.specKind = .layer) ∧
      ¬ (delta.specKind = .property ∧ delta.removed = false) := by
  unfold checkSpecDelta
  split
  · next refused => simp_all
  · next accepted =>
      split
      · next unnamed =>
          simp only [reduceCtorEq, false_iff]
          rintro ⟨_, named, _⟩
          obtain ⟨field, member, empty⟩ := List.any_eq_true.1 unnamed
          exact named field member (of_decide_eq_true empty)
      · next named =>
          split
          · next topology =>
              simp only [reduceCtorEq, false_iff]
              rintro ⟨_, _, plain, _⟩
              obtain ⟨field, member, fixed⟩ := List.any_eq_true.1 topology.2
              exact plain ⟨topology.1, field, member, of_decide_eq_true fixed⟩
          · next plain =>
              split
              · next root => simp [root]
              · next below =>
                  split
                  · next generic => simp_all
                  · next specific =>
                      have nonempty : ∀ field ∈ delta.fields, field ≠ "" := by
                        rintro field member rfl
                        exact named (List.any_eq_true.2 ⟨_, member, decide_eq_true rfl⟩)
                      simp_all

theorem checkSpecDelta_merged {previous current : SpecDelta} (fragment : String)
    (sameKind : previous.specKind = current.specKind) (kept : current.removed = false)
    (first : checkSpecDelta previous = none) (second : checkSpecDelta current = none) :
    checkSpecDelta { current with
      fields := mergedFields previous current
      fragment := fragment
      removed := false } = none := by
  rw [checkSpecDelta_eq_none] at first second ⊢
  obtain ⟨_, firstNamed, firstPlain, _⟩ := first
  obtain ⟨accepted, secondNamed, secondPlain, _, specific⟩ := second
  refine ⟨accepted, ?_, ?_, by simp, ?_⟩
  · intro field member
    rcases mem_mergedFields.1 member with earlier | later
    · exact firstNamed field earlier
    · exact secondNamed field later
  · rintro ⟨layered, field, member, fixed⟩
    rcases mem_mergedFields.1 member with earlier | later
    · exact firstPlain ⟨sameKind.trans layered, field, earlier, fixed⟩
    · exact secondPlain ⟨layered, field, later, fixed⟩
  · exact fun generic => specific ⟨generic.1, kept⟩

/-- The merge of two readable deltas is readable, and its text is its scratch layer. -/
theorem reads_merged {previous current : SpecDelta} {earlier later middle last : Layer}
    {concrete : SpecKind} (sameKind : previous.specKind = current.specKind)
    (first : previous.Reads usd earlier) (second : current.Reads usd later)
    (known : current.specKind.concrete = some concrete)
    (order : InOrder usd previous current earlier later .empty concrete middle last)
    (text : usd.ReadsBack (serializedLayer (mergeOutput usd previous current) current.specPath
      current.specKind (mergedFields previous current))) :
    (mergeSpecEvents usd previous current).Reads usd
      (serializedLayer last current.specPath current.specKind (mergedFields previous current)) := by
  have accepted := (accepts_of_checked second.checked second.kept).1
  have output : mergeOutput usd previous current = last := order.output
  rw [mergeSpecEvents_of_kept first.kept second.kept, output]
  rw [output] at text
  constructor
  · exact checkSpecDelta_merged _ sameKind second.kept first.checked second.checked
  · rfl
  · exact text
  · exact (hasSpecOfKind_iff_holds accepted known).2 (serializedLayer_facts last accepted known _).1

/-- Fields away from the spec's own path, and those no copy selects, are the target's. -/
theorem copiedValue_elsewhere {source target : Layer} {path other : SpecPath} {kind : SpecKind}
    {preserve : Bool} {names : List String} (away : other ≠ path) (field : Field) :
    copiedValue source path kind preserve names target other field = target.value other field := by
  cases field with
  | spec => rfl
  | info name => exact if_neg fun here => away here.1
  | sample time => exact if_neg fun here => away here.1

/-- Applying the merge leaves every field as applying both deltas in order does. -/
theorem value_merged {previous current : SpecDelta}
    {earlier later target middle last first second scratch : Layer} {concrete : SpecKind}
    (samePath : previous.specPath = current.specPath)
    (sameKind : previous.specKind = current.specKind)
    (accepted : current.specKind.accepts current.specPath = true)
    (known : current.specKind.concrete = some concrete)
    (order : InOrder usd previous current earlier later target concrete middle last)
    (empty : InOrder usd previous current earlier later .empty concrete first second)
    (written : scratch = serializedLayer second current.specPath current.specKind
      (mergedFields previous current)) :
    copiedValue scratch current.specPath concrete true
        (mergedFields previous current ++
          if target.hasSpecOfKind current.specPath current.specKind then []
          else current.specKind.requiredFields)
        (target.base current.specPath current.specKind concrete) = last.value := by
  subst written
  have reserved : middle.reservedData =
      (target.base current.specPath current.specKind concrete).reservedData :=
    (order.reserved accepted known).1.trans (target.reservedData_base accepted known).symm
  -- what the merge selects on the target, and that its text has it
  have selected : ∀ name, name ∈ mergedFields previous current ++
      (if target.hasSpecOfKind current.specPath current.specKind then []
        else current.specKind.requiredFields) ↔
      name ∈ current.fields ∨ name ∈ previous.selected target := by
    intro name
    unfold SpecDelta.selected
    rw [samePath, sameKind, List.mem_append, List.mem_append, mem_mergedFields]
    tauto
  have contained : ∀ name, name ∈ mergedFields previous current ++
      (if target.hasSpecOfKind current.specPath current.specKind then []
        else current.specKind.requiredFields) →
      name ∈ mergedFields previous current ++ current.specKind.requiredFields := by
    intro name member
    rcases List.mem_append.1 member with listed | required
    · exact List.mem_append_left _ listed
    · split at required
      · cases required
      · exact List.mem_append_right _ required
  funext other field
  by_cases away : other ≠ current.specPath
  · rw [copiedValue_elsewhere away, order.second, copiedValue_elsewhere away, order.first,
      copiedValue_elsewhere away]
  · obtain rfl := not_not.1 away
    cases field with
    | spec =>
        rw [order.second]
        show _ = middle.value _ .spec
        rw [order.first]
        rfl
    | info name =>
        by_cases plain : name = "timeSamples"
        · subst plain
          have untouched : ∀ (source onto : Layer) (names : List String),
              copiedValue source current.specPath concrete true names onto current.specPath
                (.info "timeSamples") = onto.value current.specPath (.info "timeSamples") :=
            fun source onto names => if_neg fun here => here.2.2 rfl
          rw [untouched, order.second, untouched, order.first, untouched]
        · have final := order.info plain
          unfold Layer.info at final
          rw [final, copiedValue_info plain]
          by_cases now : name ∈ current.fields
          · have chosen := (selected name).2 (Or.inl now)
            rw [if_pos chosen, if_pos now, copiedInfo_merged samePath sameKind accepted known empty _
              plain (contained name chosen), if_pos now]
            exact (copiedInfo_congr fun _ _ => reserved).symm
          · rw [if_neg now]
            by_cases before : name ∈ previous.selected target
            · have chosen := (selected name).2 (Or.inr before)
              rw [if_pos chosen, if_pos before, copiedInfo_merged samePath sameKind accepted known
                empty _ plain (contained name chosen), if_neg now]
            · rw [if_neg (fun chosen => ((selected name).1 chosen).elim now before),
                if_neg before]
    | sample time =>
        rw [order.sample, copiedValue_sample]
        by_cases animated : concrete = .attribute
        · by_cases now : "timeSamples" ∈ current.fields
          · have chosen := (selected _).2 (Or.inl now)
            rw [if_pos ⟨animated, chosen⟩, if_pos ⟨animated, now⟩, sample_mergedLayer samePath
              sameKind accepted known empty animated (contained _ chosen), if_pos now]
          · by_cases before : "timeSamples" ∈ previous.selected target
            · have chosen := (selected _).2 (Or.inr before)
              rw [if_pos ⟨animated, chosen⟩, if_neg (fun both => now both.2),
                if_pos ⟨animated, before⟩, sample_mergedLayer samePath sameKind accepted known empty
                  animated (contained _ chosen), if_neg now]
            · rw [if_neg (fun both => ((selected _).1 both.2).elim now before),
                if_neg (fun both => now both.2), if_neg (fun both => before both.2)]
        · rw [if_neg (fun both => animated both.1), if_neg (fun both => animated both.1),
            if_neg (fun both => animated both.1)]

/-- A prim with one authored field. -/
def primWith (field text : String) : Layer :=
  (LayerEdit.author ⟨[.child "Set"], none⟩ .prim (.info field) (.text text)).apply .empty

def setDelta (fields : List String) (fragment : String) : SpecDelta :=
  { specPath := ⟨[.child "Set"], none⟩
    specKind := .prim
    fields := fields
    fragment := fragment }

/-- The texts of the two edits. -/
def editTexts : Schema :=
  { importFromString := fun text =>
      if text = "documented" then some (primWith "documentation" "chairs")
      else if text = "hidden" then some (primWith "hidden" "true")
      else none }

/-- The scratch layer of their merge. -/
def editScratch : Layer :=
  serializedLayer
    (mergeOutput (.plain editTexts) (setDelta ["documentation", "kind"] "documented")
      (setDelta ["hidden"] "hidden"))
    ⟨[.child "Set"], none⟩ .prim ["documentation", "kind", "hidden"]

/-- The same texts, and the text of the scratch layer. -/
def mergeTexts : Schema :=
  { importFromString := fun text =>
      if text = "merged" then some editScratch else editTexts.importFromString text
    exportToString := fun _ => "merged" }

end UsdConnect
