/-
Purpose: What a sorted batch of exact spec events does to a mirror layer: removals take their specs
  with all that is inside, and every field that is sent afterwards is the source's.
Trusted boundary: none
Main exports: value_removals, Copies, copies_batch
-/
import UsdConnect.Client.SpecEmission
import UsdConnect.Proofs.SpecMerge

namespace UsdConnect

variable {usd : Usd}

/-! ### Kinds and fields -/

@[simp] theorem SpecKind.concrete_delta (kind : SpecKind) : kind.delta.concrete = some kind := by
  cases kind <;> rfl

@[simp] theorem SpecKind.delta_inj {first second : SpecKind} :
    first.delta = second.delta ↔ first = second := by
  constructor
  · intro same
    have concrete := congrArg SdfSpecKind.concrete same
    simpa using concrete
  · exact congrArg SpecKind.delta

theorem hasSpecOfKind_delta {layer : Layer} {path : SpecPath} {kind : SpecKind} :
    layer.hasSpecOfKind path kind.delta = true ↔ layer.specKind path = some kind :=
  hasSpecOfKind_concrete kind.concrete_delta

theorem specKind_iff_holds {layer : Layer} {path : SpecPath} {kind : SpecKind}
    (accepted : kind.delta.accepts path = true) :
    layer.specKind path = some kind ↔ layer.Holds path kind :=
  hasSpecOfKind_delta.symm.trans (hasSpecOfKind_iff_holds accepted kind.concrete_delta)

/-- A path that is accepted for the layer is the pseudo-root, and only that one. -/
theorem SpecKind.eq_root_iff {path : SpecPath} {kind : SpecKind}
    (accepted : kind.delta.accepts path = true) : path = .root ↔ kind = .layer := by
  constructor
  · exact layer_of_root accepted kind.concrete_delta
  · rintro rfl
    exact root_of_layer accepted rfl

namespace Layer

variable {first second : Layer} {key : SpecKey}

theorem specKind_congr {path : SpecPath} (same : first.value path .spec = second.value path .spec) :
    first.specKind path = second.specKind path := by
  unfold specKind
  rw [same]

theorem specKind_isSome {layer : Layer} {path : SpecPath} :
    (layer.specKind path).isSome = layer.hasSpec path := by
  unfold specKind hasSpec
  split <;> simp_all

/-- A path without a property has the one kind that it names. -/
theorem specKind_of_prim {layer : Layer} {prim : PrimPath}
    (there : (layer.value ⟨prim, none⟩ .spec).isSome = true) :
    layer.specKind ⟨prim, none⟩ = some prim.kind := by
  rcases layer.plain prim with missing | plain
  · rw [missing] at there
    cases there
  · unfold specKind
    rw [plain]

@[simp] theorem specKind_root (layer : Layer) : layer.specKind .root = some .layer := by
  unfold specKind
  rw [layer.pseudoRoot]
  rfl

theorem value_eq_none_of_hasSpec {layer : Layer} {path : SpecPath} (missing : layer.hasSpec path = false)
    (field : Field) : layer.value path field = none := by
  cases found : layer.value path field with
  | none => rfl
  | some datum =>
      have present := layer.tidy path field (by rw [found]; rfl)
      rw [hasSpec, present] at missing
      cases missing

theorem fieldAs_of_ne {layer : Layer} (other : layer.specKind key.path ≠ some key.kind)
    (name : String) : layer.fieldAs key name = fun _ => none := by
  funext time
  exact if_neg other

theorem ownData_congr
    (same : first.info .root "customLayerData" = second.info .root "customLayerData") :
    first.ownData = second.ownData := by
  unfold ownData
  rw [layerData_congr same]

theorem fieldAs_congr (accepted : key.kind.delta.accepts key.path = true)
    (same : ∀ field, first.value key.path field = second.value key.path field) (name : String) :
    first.fieldAs key name = second.fieldAs key name := by
  funext time
  have own : key.kind = .layer → first.ownData = second.ownData := by
    intro layered
    apply ownData_congr
    unfold info
    rw [← (SpecKind.eq_root_iff accepted).2 layered]
    exact same _
  unfold fieldAs info
  rw [specKind_congr (same .spec), same, same]
  by_cases layered : key.kind = .layer
  · rw [own layered]
  · simp only [layered, false_and, if_false]

/-- A spec that was not there with its kind and has no fields reads like none. -/
theorem fieldAs_of_bare {layer : Layer} (accepted : key.kind.delta.accepts key.path = true)
    (below : key.path ≠ .root) (bare : ∀ field, field ≠ .spec → layer.value key.path field = none)
    (name : String) : layer.fieldAs key name = fun _ => none := by
  funext time
  have inside : key.kind ≠ .layer := fun layered => below ((SpecKind.eq_root_iff accepted).2 layered)
  unfold fieldAs info
  rw [bare (.sample time) (by simp), bare (.info name) (by simp)]
  simp [inside]

end Layer

/-! ### Removals -/

/-- A removal that can be applied to a layer: where it names a variant set, the layer has it. -/
structure SpecDelta.Removes (delta : SpecDelta) (target : Layer) : Prop where
  checked : checkSpecDelta delta = none
  removed : delta.removed = true
  known : delta.specKind = .variantSet → target.hasSpecOfKind delta.specPath delta.specKind = true

/-- The layer has the spec of a removal, and the path is that spec's or lies inside it. -/
def SpecDelta.Hits (delta : SpecDelta) (target : Layer) (path : SpecPath) : Prop :=
  target.hasSpecOfKind delta.specPath delta.specKind = true ∧ path.Inside delta.specPath

instance (delta : SpecDelta) (target : Layer) (path : SpecPath) :
    Decidable (delta.Hits target path) :=
  inferInstanceAs (Decidable (_ ∧ _))

/-- What the source has does not lie in a spec that the source lacks. -/
theorem SpecDelta.not_hits_of_present {source target : Layer} {key outer : SpecKey}
    {delta : SpecDelta} (accepted : outer.kind.delta.accepts outer.path = true)
    (path : delta.specPath = outer.path) (kind : delta.specKind = outer.kind.delta)
    (gone : source.specKind outer.path ≠ some outer.kind)
    (present : source.specKind key.path = some key.kind)
    (there : target.specKind key.path = some key.kind) : ¬ delta.Hits target key.path := by
  rintro ⟨found, inside⟩
  rw [path, kind, hasSpecOfKind_delta] at found
  rw [path] at inside
  rcases outerPath : outer.path with ⟨prim, property⟩
  rw [outerPath] at accepted gone found inside
  cases property with
  | some name =>
      have here : key.path = ⟨prim, some name⟩ := inside
      rw [here] at present there
      rw [there, Option.some.injEq] at found
      exact gone (found ▸ present)
  | none =>
      have above : (source.value ⟨prim, none⟩ .spec).isSome = true := by
        apply source.rooted key.path _ inside
        rw [← Layer.hasSpec, ← Layer.specKind_isSome, present]
        rfl
      apply gone
      rw [PrimPath.kind_of_accepts accepted outer.kind.concrete_delta]
      exact Layer.specKind_of_prim above

theorem SpecDelta.Removes.below {delta : SpecDelta} {target : Layer} (removes : delta.Removes target) :
    delta.specPath ≠ .root := by
  intro top
  obtain ⟨accepted, _, _, notLayer, _⟩ := checkSpecDelta_eq_none.1 removes.checked
  apply notLayer
  refine ⟨removes.removed, ?_⟩
  rw [top] at accepted
  cases kind : delta.specKind <;> simp_all [SdfSpecKind.accepts, SpecPath.root]

theorem applyRemoval {delta : SpecDelta} {target : Layer} (removes : delta.Removes target) :
    (applySpecDeltaToLayer usd delta).result target = .ok () ∧
      (applySpecDeltaToLayer usd delta).after target =
        if target.hasSpecOfKind delta.specPath delta.specKind then
          (LayerEdit.remove delta.specPath).apply target
        else target := by
  unfold applySpecDeltaToLayer removeSpec
  simp only [removes.checked, removes.removed, if_true, Edit.after_look_bind, Edit.result_look_bind,
    id_eq]
  by_cases found : target.hasSpecOfKind delta.specPath delta.specKind = true
  · simp only [found, if_true]
    exact ⟨rfl, rfl⟩
  · have other : delta.specKind ≠ .variantSet := fun set => found (removes.known set)
    simp only [found, Bool.false_eq_true, if_false]
    cases kind : delta.specKind with
    | variantSet => exact absurd kind other
    | _ => exact ⟨rfl, rfl⟩

theorem value_remove {target : Layer} {gone : SpecPath} (below : gone ≠ .root) (path : SpecPath)
    (field : Field) : ((LayerEdit.remove gone).apply target).value path field =
      if path.Inside gone then none else target.value path field := by
  by_cases top : path = .root
  · subst top
    have outside : ¬ SpecPath.root.Inside gone := fun inside => below (SpecPath.eq_root_of_inside inside)
    rw [if_neg outside]
    show (LayerEdit.edited _ target .root field) = _
    unfold LayerEdit.edited LayerEdit.changes LayerEdit.written
    simp [outside]
  · refine (LayerEdit.edited_of_ne_root top).trans ?_
    show (if path.Inside gone then some none else none).getD _ = _
    split <;> rfl

/-- One removal takes its spec with all that is inside. -/
theorem value_removal {delta : SpecDelta} {target : Layer} (removes : delta.Removes target)
    (path : SpecPath) (field : Field) :
    ((applySpecDeltaToLayer usd delta).after target).value path field =
      if delta.Hits target path then none else target.value path field := by
  rw [(applyRemoval removes).2]
  unfold SpecDelta.Hits
  by_cases found : target.hasSpecOfKind delta.specPath delta.specKind = true
  · rw [if_pos found, value_remove removes.below]
    simp [found]
  · rw [if_neg found]
    simp [found]

theorem hasSpecOfKind_congr {first second : Layer} {path : SpecPath} {kind : SdfSpecKind}
    (same : first.value path .spec = second.value path .spec) :
    first.hasSpecOfKind path kind = second.hasSpecOfKind path kind := by
  unfold Layer.hasSpecOfKind
  rw [Layer.specKind_congr same]

/-- Removals in an order in which no variant set follows what it lies in. -/
structure RemovalBatch (target : Layer) (deltas : List SpecDelta) : Prop where
  each : ∀ delta ∈ deltas, delta.Removes target
  ordered : deltas.Pairwise fun earlier later =>
    later.specKind = .variantSet → ¬ later.specPath.Inside earlier.specPath

theorem RemovalBatch.tail {target : Layer} {delta : SpecDelta} {rest : List SpecDelta}
    (batch : RemovalBatch target (delta :: rest)) :
    RemovalBatch ((applySpecDeltaToLayer usd delta).after target) rest := by
  obtain ⟨first, later⟩ := List.pairwise_cons.1 batch.ordered
  refine ⟨fun other member => ?_, later⟩
  obtain ⟨checked, removed, known⟩ := batch.each other (List.mem_cons_of_mem _ member)
  refine ⟨checked, removed, fun set => ?_⟩
  rw [← known set]
  apply hasSpecOfKind_congr
  rw [value_removal (batch.each delta List.mem_cons_self)]
  exact if_neg fun hits => first other member set hits.2

theorem value_removals {deltas : List SpecDelta} {target : Layer}
    (batch : RemovalBatch target deltas) :
    (applySpecDeltas usd deltas).result target = .ok () ∧
      ∀ path field, ((applySpecDeltas usd deltas).after target).value path field =
        if ∃ delta ∈ deltas, delta.Hits target path then none else target.value path field := by
  unfold applySpecDeltas
  induction deltas generalizing target with
  | nil =>
      refine ⟨rfl, fun path field => ?_⟩
      rw [if_neg (by simp)]
      rfl
  | cons delta rest ih =>
      have removes := batch.each delta List.mem_cons_self
      obtain ⟨finished, _⟩ := @applyRemoval usd _ _ removes
      obtain ⟨returned, values⟩ := ih (@RemovalBatch.tail usd _ _ _ batch)
      refine ⟨(Edit.result_bind_of_ok finished).trans returned, fun path field => ?_⟩
      rw [Edit.after_forM_cons finished, values, value_removal removes]
      by_cases hit : delta.Hits target path
      · rw [if_pos hit, ite_self, if_pos ⟨delta, List.mem_cons_self, hit⟩]
      · -- what does not lie in the first spec is hit later as it was before
        have same : ∀ other : SpecDelta, path.Inside other.specPath →
            (other.Hits ((applySpecDeltaToLayer usd delta).after target) path ↔
              other.Hits target path) := by
          intro other inside
          have kept : ¬ delta.Hits target other.specPath :=
            fun outer => hit ⟨outer.1, inside.trans outer.2⟩
          unfold SpecDelta.Hits
          rw [hasSpecOfKind_congr]
          rw [value_removal removes, if_neg kept]
        have later : (∃ other ∈ rest,
              other.Hits ((applySpecDeltaToLayer usd delta).after target) path) ↔
            ∃ other ∈ delta :: rest, other.Hits target path := by
          constructor
          · rintro ⟨other, member, hits⟩
            exact ⟨other, List.mem_cons_of_mem _ member, (same other hits.2).1 hits⟩
          · rintro ⟨other, member, hits⟩
            rcases List.mem_cons.1 member with rfl | inRest
            · exact absurd hits hit
            · exact ⟨other, inRest, (same other hits.2).2 hits⟩
        rw [if_neg hit]
        simp only [later]

/-! ### Fields that are sent -/

theorem Layer.value_base_elsewhere {target : Layer} {key : SpecKey} {path : SpecPath}
    (accepted : key.kind.delta.accepts key.path = true) (away : path ≠ key.path) :
    (∀ field, field ≠ .spec → (target.base key.path key.kind.delta key.kind).value path field =
      target.value path field) ∧
      ((target.base key.path key.kind.delta key.kind).value path .spec = target.value path .spec ∨
        key.path.Inside path ∧
          (target.base key.path key.kind.delta key.kind).value path .spec = some .present) := by
  have room : ∀ field, (target.madeWay key.path key.kind.delta).value path field =
      target.value path field := by
    intro field
    unfold madeWay
    by_cases found : target.hasSpecOfKind key.path key.kind.delta = true
    · rw [if_pos found]
    · rw [if_neg found]
      by_cases there : target.hasSpec key.path = true
      · rw [if_pos there]
        -- a spec of another kind is a property, so nothing else lies in it
        have property : key.path.property ≠ none := by
          intro plain
          rcases keyPath : key.path with ⟨prim, property⟩
          rw [keyPath] at plain there accepted found
          obtain rfl : property = none := plain
          apply found
          rw [hasSpecOfKind_iff_holds accepted key.kind.concrete_delta]
          rcases target.plain prim with missing | present
          · rw [hasSpec, missing] at there
            cases there
          · exact present
        have below : key.path ≠ .root := fun top => property (by rw [top]; rfl)
        have outside : ¬ path.Inside key.path := by
          intro inside
          unfold SpecPath.Inside at inside
          split at inside
          · next plain => exact property plain
          · exact away inside
        rw [value_remove below, if_neg outside]
      · rw [if_neg there]
  constructor
  · intro field data
    unfold base
    rw [value_create_field _ _ _ _ data, room]
  · by_cases above : key.path.Inside path
    · right
      refine ⟨above, ?_⟩
      have holds := (holds_create (target.madeWay key.path key.kind.delta) key.path key.kind).above
        above
      unfold base
      rw [holds]
      unfold SpecPath.Inside at above
      unfold LayerEdit.specDatum
      split at above
      · next plain => rw [plain]
      · exact absurd above.symm away
    · left
      unfold base
      show (if path = .root ∧ Field.spec = .spec then none
        else LayerEdit.createdBy key.path key.kind path .spec).getD _ = _
      rw [LayerEdit.createdBy_none above, ite_self, room]
      rfl

/-- A batch of events about specs of the source: what is on the target stays or becomes the
source's.  The sublayer list and the reserved layer data stay. -/
structure Copied (source target after : Layer) : Prop where
  kept : ∀ path kind, target.specKind path = some kind → source.specKind path = some kind →
    after.specKind path = some kind
  new : ∀ path kind, after.specKind path = some kind →
    target.specKind path = some kind ∨ source.specKind path = some kind
  either : ∀ key : SpecKey, key.kind.delta.accepts key.path = true → ∀ name,
    after.fieldAs key name = target.fieldAs key name ∨
      after.fieldAs key name = source.fieldAs key name
  topology : ∀ name ∈ layerTopologyFields, after.info .root name = target.info .root name
  reserved : after.reservedData = target.reservedData

theorem Copied.refl (source target : Layer) : Copied source target target :=
  ⟨fun _ _ here _ => here, fun _ _ here => .inl here, fun _ _ _ => .inl rfl, fun _ _ => rfl, rfl⟩

theorem Copied.trans {source target middle after : Layer} (first : Copied source target middle)
    (second : Copied source middle after) : Copied source target after := by
  constructor
  · intro path kind here there
    exact second.kept path kind (first.kept path kind here there) there
  · intro path kind found
    rcases second.new path kind found with here | there
    · exact first.new path kind here
    · exact .inr there
  · intro key accepted name
    rcases second.either key accepted name with same | sent
    · rw [same]
      exact first.either key accepted name
    · exact .inr sent
  · intro name member
    rw [second.topology name member, first.topology name member]
  · rw [second.reserved, first.reserved]

theorem Copied.agrees {source target after : Layer} (copied : Copied source target after)
    {key : SpecKey} (accepted : key.kind.delta.accepts key.path = true) {name : String}
    (agrees : target.fieldAs key name = source.fieldAs key name) :
    after.fieldAs key name = source.fieldAs key name := by
  rcases copied.either key accepted name with same | sent
  · exact same.trans agrees
  · exact sent

/-- An event with fields of a spec of the source. -/
structure SpecDelta.Sends (usd : Usd) (source : Layer) (key : SpecKey) (delta : SpecDelta) :
    Prop where
  path : delta.specPath = key.path
  kind : delta.specKind = key.kind.delta
  reads : delta.Reads usd (serializedLayer source key.path key.kind.delta delta.fields)
  present : source.specKind key.path = some key.kind

namespace SpecDelta.Sends

variable {source target : Layer} {key : SpecKey} {delta : SpecDelta}

theorem accepted (sends : delta.Sends usd source key) :
    key.kind.delta.accepts key.path = true := by
  have accepted := (accepts_of_checked sends.reads.checked sends.reads.kept).1
  rw [sends.path, sends.kind] at accepted
  exact accepted

theorem value (sends : delta.Sends usd source key) (target : Layer) :
    (applySpecDeltaToLayer usd delta).result target = .ok () ∧
      ((applySpecDeltaToLayer usd delta).after target).value =
        copiedValue (serializedLayer source key.path key.kind.delta delta.fields) key.path key.kind
          true (delta.fields ++ if target.hasSpecOfKind key.path key.kind.delta then []
            else key.kind.delta.requiredFields)
          (target.base key.path key.kind.delta key.kind) := by
  have applied := value_applySpecDelta sends.reads (by rw [sends.kind]; exact key.kind.concrete_delta)
    target
  rw [sends.path, sends.kind] at applied
  exact applied

theorem specKind_after (sends : delta.Sends usd source key) :
    ((applySpecDeltaToLayer usd delta).after target).specKind key.path = some key.kind := by
  rw [specKind_iff_holds sends.accepted]
  unfold Layer.Holds
  rw [(sends.value target).2]
  exact holds_create _ _ _

/-- What the fragment says of a field that it carries. -/
theorem fragment_value (sends : delta.Sends usd source key) {field : Field} (data : field ≠ .spec) :
    (serializedLayer source key.path key.kind.delta delta.fields).value key.path field =
      copiedValue source key.path key.kind false
        (firstOccurrences delta.fields ++ key.kind.delta.requiredFields)
        ((LayerEdit.create key.path key.kind).apply .empty) key.path field :=
  (serializedLayer_facts source sends.accepted key.kind.concrete_delta _).2 field data

theorem fieldAs_after (sends : delta.Sends usd source key) {name : String}
    (carried : name ∈ delta.fields ++ if target.hasSpecOfKind key.path key.kind.delta then []
      else key.kind.delta.requiredFields) :
    ((applySpecDeltaToLayer usd delta).after target).fieldAs key name =
      source.fieldAs key name := by
  have value := (sends.value target).2
  have written : name ∈ firstOccurrences delta.fields ++ key.kind.delta.requiredFields := by
    rcases List.mem_append.1 carried with listed | required
    · exact List.mem_append_left _ (mem_firstOccurrences.2 listed)
    · refine List.mem_append_right _ ?_
      split at required
      · cases required
      · exact required
  funext time
  unfold Layer.fieldAs
  rw [if_pos sends.specKind_after, if_pos sends.present]
  by_cases samples : name = "timeSamples"
  · subst samples
    rw [if_pos rfl, if_pos rfl]
    by_cases animated : key.kind = .attribute
    · rw [if_pos animated, if_pos animated, value, copiedValue_sample, if_pos ⟨animated, carried⟩,
        sends.fragment_value (by simp), copiedValue_sample, if_pos ⟨animated, written⟩]
    · rw [if_neg animated, if_neg animated]
  · rw [if_neg samples, if_neg samples]
    have copied : ((applySpecDeltaToLayer usd delta).after target).info key.path name =
        copiedInfo (serializedLayer source key.path key.kind.delta delta.fields)
          (target.base key.path key.kind.delta key.kind) key.path key.kind true name := by
      unfold Layer.info
      rw [value, copiedValue_info samples, if_pos carried]
    have serialized : (serializedLayer source key.path key.kind.delta delta.fields).info key.path
        name = copiedInfo source ((LayerEdit.create key.path key.kind).apply .empty) key.path
          key.kind false name := by
      unfold Layer.info
      rw [sends.fragment_value (by simp), copiedValue_info samples, if_pos written]
    by_cases layerData : key.kind = .layer ∧ name = "customLayerData"
    · rw [if_pos layerData, if_pos layerData]
      have top := (SpecKind.eq_root_iff sends.accepted).2 layerData.1
      rw [copiedInfo, if_pos layerData, layerData.2, top] at copied serialized
      have own := (data_of_copied copied).1.trans (data_of_copied serialized).1
      rw [own]
    · rw [if_neg layerData, if_neg layerData, copied, copiedInfo, if_neg layerData, serialized,
        copiedInfo, if_neg layerData]

theorem either_after (sends : delta.Sends usd source key) (name : String) :
    ((applySpecDeltaToLayer usd delta).after target).fieldAs key name = target.fieldAs key name ∨
      ((applySpecDeltaToLayer usd delta).after target).fieldAs key name =
        source.fieldAs key name := by
  have value := (sends.value target).2
  by_cases carried : name ∈ delta.fields ++ if target.hasSpecOfKind key.path key.kind.delta then []
      else key.kind.delta.requiredFields
  · exact .inr (sends.fieldAs_after carried)
  · left
    have base : ((applySpecDeltaToLayer usd delta).after target).fieldAs key name =
        (target.base key.path key.kind.delta key.kind).fieldAs key name := by
      have there : (target.base key.path key.kind.delta key.kind).specKind key.path =
          some key.kind := (specKind_iff_holds sends.accepted).2 (holds_create _ _ _)
      funext time
      unfold Layer.fieldAs
      rw [if_pos sends.specKind_after, if_pos there]
      by_cases samples : name = "timeSamples"
      · subst samples
        have untouched : ¬ (key.kind = .attribute ∧ "timeSamples" ∈ delta.fields ++
            if target.hasSpecOfKind key.path key.kind.delta then []
              else key.kind.delta.requiredFields) := fun both => carried both.2
        rw [if_pos rfl, if_pos rfl, value, copiedValue_sample, if_neg untouched]
      · rw [if_neg samples, if_neg samples]
        have untouched : ((applySpecDeltaToLayer usd delta).after target).info key.path name =
            (target.base key.path key.kind.delta key.kind).info key.path name := by
          unfold Layer.info
          rw [value, copiedValue_info samples, if_neg carried]
        by_cases layerData : key.kind = .layer ∧ name = "customLayerData"
        · have top := (SpecKind.eq_root_iff sends.accepted).2 layerData.1
          rw [top, layerData.2] at untouched
          rw [if_pos layerData, if_pos layerData, Layer.ownData_congr untouched, top]
        · rw [if_neg layerData, if_neg layerData, untouched]
    rw [base]
    by_cases found : target.hasSpecOfKind key.path key.kind.delta = true
    · rw [Layer.base_of_found sends.accepted key.kind.concrete_delta found]
    · have below : key.path ≠ .root := by
        intro top
        apply found
        rw [hasSpecOfKind_iff_holds sends.accepted key.kind.concrete_delta]
        rw [top]
        exact target.pseudoRoot
      rw [Layer.fieldAs_of_ne (fun here => found (hasSpecOfKind_delta.2 here))]
      exact Layer.fieldAs_of_bare sends.accepted below (fun field data =>
        Layer.value_base_of_missing sends.accepted key.kind.concrete_delta found data) name

/-- The sublayer list is never sent. -/
theorem topology_after (sends : delta.Sends usd source key) {name : String}
    (member : name ∈ layerTopologyFields) :
    ((applySpecDeltaToLayer usd delta).after target).info .root name = target.info .root name := by
  unfold Layer.info
  rw [(sends.value target).2]
  by_cases here : SpecPath.root = key.path
  · have layered := (SpecKind.eq_root_iff sends.accepted).1 here.symm
    have found : target.hasSpecOfKind key.path key.kind.delta = true := by
      rw [hasSpecOfKind_delta, specKind_iff_holds sends.accepted, ← here, layered]
      exact target.pseudoRoot
    have unnamed : name ∉ delta.fields := by
      intro named
      obtain ⟨_, _, plain, _⟩ := checkSpecDelta_eq_none.1 sends.reads.checked
      apply plain
      rw [sends.kind, layered]
      exact ⟨rfl, name, named, member⟩
    have untimed : name ≠ "timeSamples" := by
      rintro rfl
      simp [layerTopologyFields] at member
    rw [here, copiedValue_info untimed, found, if_pos rfl, List.append_nil, if_neg unnamed,
      Layer.base_of_found sends.accepted key.kind.concrete_delta found]
  · rw [copiedValue_elsewhere here]
    exact (@Layer.value_base_elsewhere target _ _ sends.accepted here).1 _ (by simp)

theorem reserved_after (sends : delta.Sends usd source key) :
    ((applySpecDeltaToLayer usd delta).after target).reservedData = target.reservedData := by
  have own := layer_of_root sends.accepted key.kind.concrete_delta
  rw [reservedData_copied own (sends.value target).2]
  exact target.reservedData_base sends.accepted key.kind.concrete_delta

/-- One event. -/
theorem copied (sends : delta.Sends usd source key) :
    Copied source target ((applySpecDeltaToLayer usd delta).after target) := by
  have value := (sends.value target).2
  have elsewhere : ∀ path, path ≠ key.path →
      (∀ field, field ≠ .spec → ((applySpecDeltaToLayer usd delta).after target).value path field =
        target.value path field) ∧
      (((applySpecDeltaToLayer usd delta).after target).value path .spec =
          target.value path .spec ∨
        ((applySpecDeltaToLayer usd delta).after target).value path .spec =
          source.value path .spec) := by
    intro path away
    obtain ⟨fields, spec⟩ := @Layer.value_base_elsewhere target _ _ sends.accepted away
    refine ⟨fun field data => ?_, ?_⟩
    · rw [value, copiedValue_elsewhere away, fields field data]
    · rw [value, copiedValue_elsewhere away]
      refine spec.imp_right fun ⟨inside, created⟩ => created.trans ?_
      have holds := ((specKind_iff_holds sends.accepted).1 sends.present).above inside
      rw [holds]
      unfold SpecPath.Inside at inside
      unfold LayerEdit.specDatum
      split at inside
      · next plain => rw [plain]
      · exact absurd inside.symm away
  constructor
  · intro path kind here there
    by_cases away : path ≠ key.path
    · rcases (elsewhere path away).2 with same | same
      · exact (Layer.specKind_congr same).trans here
      · exact (Layer.specKind_congr same).trans there
    · rw [not_not.1 away] at there ⊢
      rw [sends.present] at there
      rw [sends.specKind_after, there]
  · intro path kind found
    by_cases away : path ≠ key.path
    · rcases (elsewhere path away).2 with same | same
      · exact .inl ((Layer.specKind_congr same).symm.trans found)
      · exact .inr ((Layer.specKind_congr same).symm.trans found)
    · right
      rw [not_not.1 away] at found ⊢
      rw [sends.specKind_after] at found
      rw [sends.present, found]
  · intro other accepted name
    by_cases away : other.path ≠ key.path
    · left
      obtain ⟨fields, _⟩ := elsewhere other.path away
      by_cases same : ((applySpecDeltaToLayer usd delta).after target).value other.path .spec =
          target.value other.path .spec
      · apply Layer.fieldAs_congr accepted
        intro field
        by_cases data : field = .spec
        · rw [data, same]
        · exact fields field data
      · -- the spec was missing and is created without fields
        have missing : target.hasSpec other.path = false := by
          rw [Bool.eq_false_iff]
          intro there
          apply same
          obtain ⟨_, created⟩ := @Layer.value_base_elsewhere target _ _ sends.accepted away
          rw [value, copiedValue_elsewhere away] at same ⊢
          rcases created with unchanged | ⟨inside, plain⟩
          · exact unchanged
          · rw [plain]
            unfold SpecPath.Inside at inside
            rcases otherPath : other.path with ⟨prim, property⟩
            rw [otherPath] at inside there away
            cases property with
            | some _ => exact absurd inside.symm away
            | none =>
                rcases target.plain prim with nothing | present
                · rw [Layer.hasSpec, nothing] at there
                  cases there
                · exact present.symm
        have below : other.path ≠ .root := by
          intro top
          rw [top, Layer.hasSpec, target.pseudoRoot] at missing
          cases missing
        rw [@Layer.fieldAs_of_ne other target]
        · exact Layer.fieldAs_of_bare accepted below (fun field data =>
            (fields field data).trans (Layer.value_eq_none_of_hasSpec missing field)) name
        · intro here
          rw [← Layer.specKind_isSome, here] at missing
          cases missing
    · have here : other.path = key.path := not_not.1 away
      by_cases sameKind : other.kind = key.kind
      · have same : other = key := by
          rcases other with ⟨kind, path⟩
          obtain rfl : kind = key.kind := sameKind
          obtain rfl : path = key.path := here
          rfl
        rw [same]
        exact sends.either_after name
      · right
        rw [Layer.fieldAs_of_ne, Layer.fieldAs_of_ne]
        · rw [here, sends.present]
          exact fun wrong => sameKind (Option.some.inj wrong).symm
        · rw [here, sends.specKind_after]
          exact fun wrong => sameKind (Option.some.inj wrong).symm
  · exact fun name member => sends.topology_after member
  · exact sends.reserved_after

end SpecDelta.Sends

/-- A batch of events with fields: it is applied, every spec it is about is there with its kind, and
every field it names is the source's. -/
theorem copies_batch {source : Layer} {deltas : List SpecDelta}
    (each : ∀ delta ∈ deltas, ∃ key, delta.Sends usd source key) (target : Layer) :
    (applySpecDeltas usd deltas).result target = .ok () ∧
      Copied source target ((applySpecDeltas usd deltas).after target) ∧
      ∀ delta ∈ deltas, ∀ key : SpecKey, delta.Sends usd source key →
        ((applySpecDeltas usd deltas).after target).specKind key.path = some key.kind ∧
          ∀ name ∈ delta.fields,
            ((applySpecDeltas usd deltas).after target).fieldAs key name =
              source.fieldAs key name := by
  unfold applySpecDeltas
  induction deltas generalizing target with
  | nil => exact ⟨rfl, Copied.refl source target, by simp⟩
  | cons delta rest ih =>
      obtain ⟨key, sends⟩ := each delta List.mem_cons_self
      obtain ⟨finished, _⟩ := sends.value target
      obtain ⟨returned, copied, reached⟩ := ih
        (fun other member => each other (List.mem_cons_of_mem _ member))
        ((applySpecDeltaToLayer usd delta).after target)
      rw [Edit.after_forM_cons finished]
      refine ⟨(Edit.result_bind_of_ok finished).trans returned, sends.copied.trans copied, ?_⟩
      intro other member otherKey otherSends
      rcases List.mem_cons.1 member with rfl | inRest
      · constructor
        · exact copied.kept _ _ otherSends.specKind_after otherSends.present
        · intro name named
          exact copied.agrees otherSends.accepted
            (otherSends.fieldAs_after (List.mem_append_left _ named))
      · exact reached other inRest otherKey otherSends

end UsdConnect
