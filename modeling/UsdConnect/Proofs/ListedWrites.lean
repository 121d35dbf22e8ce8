/-
Purpose: A batch writes at or under the prims listed for it or creates their ancestors, as long as
  it turns no other ancestor into a `def`; a rollback then undoes it.
Trusted boundary: none
Main exports: Scene.DefinesListed, listed_writes_restored
-/
import UsdConnect.Proofs.AtomicApply
import UsdConnect.Proofs.EventContainment
import UsdConnect.Proofs.SharedStageContent
import UsdConnect.Usd.Plain

namespace UsdConnect

open ScopedSnapshot (AuthorsAt)

/-- Prims that an event defines when the stage has none: its own, or the sources of its
connections. -/
def Event.definedPrims : Event → List ScenePath
  | .ensurePrim prim .. | .ensureXformOps prim | .setInstanceable prim _
  | .setVariantSelections prim _ | .setMaterialBinding prim .. => [prim]
  | .setConnectableInput prim infoId .. => if infoId = "" then [] else [prim]
  | .setConnectableConnection _ connections _ =>
      connections.entries.map fun entry => entry.2.sourcePrim
  | _ => []

section Listed

variable (prims : List ScenePath) (entry : Layer)

/-- At or under a listed prim. -/
def Listed (path : PrimPath) : Prop :=
  ∃ prim ∈ prims, prim.specPath <+: path

/-- At or under a listed prim, or an ancestor of one that the layer did not have at entry. -/
def ListedReach (path : PrimPath) : Prop :=
  Listed prims path ∨ ¬ entry.hasPrim path ∧ ∃ prim ∈ prims, path <+: prim.specPath

/-- The event being applied to a layer defines no prim below an `over` that the layer had at entry
outside the listed prims. -/
def Scene.DefinesListed (usd : Usd) (target : LayerId) (scene : Scene) : Prop :=
  ∀ event, scene.applying = some (target, event) → ∀ prim ∈ event.definedPrims,
    TurnsInside usd (ListedReach prims entry) (scene.stage target) prim

end Listed

section Writes

variable {prims : List ScenePath} {entry layer : Layer}

theorem Listed.below {outer path : PrimPath} (listed : Listed prims outer)
    (above : outer <+: path) : Listed prims path := by
  obtain ⟨prim, member, under⟩ := listed
  exact ⟨prim, member, under.trans above⟩

theorem WritesWithin.edit (within : WritesWithin prims entry layer) {edit : LayerEdit}
    (allowed : ∀ (path : SpecPath) (field : Field),
      edit.edited layer path field ≠ layer.value path field →
        Listed prims path.prim ∨ path.property = none ∧ ListedReach prims entry path.prim) :
    WritesWithin prims entry (edit.apply layer) := by
  intro path field written
  by_cases same : edit.edited layer path field = layer.value path field
  · apply within path field
    rw [← same]
    exact written
  · rcases allowed path field same with under | ⟨plain, under | missing⟩
    · exact Or.inl under
    · exact Or.inl under
    · exact Or.inr ⟨plain, missing⟩

/-- What a listed prim or a missing ancestor stands below and the layer lacks was missing at
entry. -/
theorem WritesWithin.missing (within : WritesWithin prims entry layer) {outer path : PrimPath}
    (reached : ListedReach prims entry path) (above : outer <+: path)
    (absent : ¬ layer.hasPrim outer) : ListedReach prims entry outer := by
  have related : Listed prims outer ∨ ∃ prim ∈ prims, outer <+: prim.specPath := by
    rcases reached with ⟨prim, member, under⟩ | ⟨_, prim, member, ahead⟩
    · rcases List.prefix_or_prefix_of_prefix above under with higher | lower
      · exact Or.inr ⟨prim, member, higher⟩
      · exact Or.inl ⟨prim, member, lower⟩
    · exact Or.inr ⟨prim, member, above.trans ahead⟩
  rcases related with under | ahead
  · exact Or.inl under
  · by_cases present : entry.hasPrim outer
    · -- the spec has gone since, which only happens under a listed prim
      have removed : layer.value ⟨outer, none⟩ .spec ≠ entry.value ⟨outer, none⟩ .spec := by
        intro same
        unfold Layer.hasPrim Layer.hasSpec at absent present
        rw [same] at absent
        exact absent present
      rcases within ⟨outer, none⟩ .spec removed with under | ⟨_, missing, _⟩
      · exact Or.inl under
      · exact absurd present missing
    · exact Or.inr ⟨present, ahead⟩

/-- An ancestor that an edit creates was missing. -/
theorem WritesWithin.created (within : WritesWithin prims entry layer) {target path : SpecPath}
    (reached : ListedReach prims entry target.prim) (away : path ≠ target) {kind : SpecKind}
    {field : Field}
    (changed : (LayerEdit.createdBy target kind path field).getD (layer.value path field) ≠
      layer.value path field) :
    path.property = none ∧ ListedReach prims entry path.prim := by
  unfold LayerEdit.createdBy at changed
  split at changed
  · next above =>
      obtain ⟨rfl, inside⟩ := above
      rcases path with ⟨outer, property⟩
      cases property with
      | some name => exact absurd (show target = ⟨outer, some name⟩ from inside).symm away
      | none =>
          refine ⟨rfl, within.missing reached inside.prim ?_⟩
          intro present
          apply changed
          rw [Layer.spec_of_hasPrim present]
          rfl
  · exact absurd rfl changed

/-- Authoring a listed spec, or a prim within reach, stays within the listed prims. -/
theorem WritesWithin.author (within : WritesWithin prims entry layer) {target : SpecPath}
    {edit : LayerEdit} (authors : AuthorsAt target edit)
    (own : Listed prims target.prim ∨
      target.property = none ∧ ListedReach prims entry target.prim) :
    WritesWithin prims entry (edit.apply layer) := by
  have reached : ListedReach prims entry target.prim := own.elim Or.inl fun near => near.2
  apply within.edit
  intro path field changed
  by_cases here : path = target
  · rw [here]
    exact own
  · right
    unfold LayerEdit.edited LayerEdit.changes at changed
    split at changed
    · exact absurd rfl changed
    · rcases authors.written here field with untouched | ⟨kind, creates⟩
      · rw [untouched] at changed
        exact absurd rfl changed
      · rw [creates] at changed
        exact within.created reached here changed

theorem WritesWithin.remove (within : WritesWithin prims entry layer) {target : SpecPath}
    (own : Listed prims target.prim) :
    WritesWithin prims entry ((LayerEdit.remove target).apply layer) := by
  apply within.edit
  intro path field changed
  left
  unfold LayerEdit.edited LayerEdit.changes at changed
  split at changed
  · exact absurd rfl changed
  · simp only [LayerEdit.written] at changed
    split at changed
    · next inside => exact own.below inside.prim
    · exact absurd rfl changed

theorem WritesWithin.graft (within : WritesWithin prims entry layer) {target : PrimPath}
    (own : Listed prims target) (source : Layer) (origin : PrimPath) :
    WritesWithin prims entry ((LayerEdit.graft target source origin).apply layer) := by
  apply within.edit
  intro path field changed
  unfold LayerEdit.edited LayerEdit.changes at changed
  split at changed
  · exact absurd rfl changed
  · simp only [LayerEdit.written] at changed
    split at changed
    · next under => exact Or.inl (own.below under)
    · next outside =>
        right
        apply within.created (Or.inl own) _ changed
        rintro rfl
        exact outside List.prefix_rfl

/-- Writing at listed prims, with definitions within reach, keeps a layer within the listed prims. -/
theorem sheltered_writesWithin (prims : List ScenePath) (entry : Layer) (target : LayerId) :
    Sheltered (fun scene => WritesWithin prims entry (scene.layers target)) target
      (Listed prims) (ListedReach prims entry) (Listed prims) := by
  constructor
  · constructor
    · exact fun listed above => listed.below above
    · exact fun within listed above absent => within.missing (Or.inl listed) above absent
    · intro scene later within same _
      rw [same]
      exact within
    · intro scene path edit within own authors
      dsimp only [Scene.exec]
      rw [Scene.withLayer_layers]
      exact within.author authors (Or.inl own)
    · intro scene prim within near
      dsimp only [Scene.exec]
      rw [Scene.withLayer_layers]
      have authors : AuthorsAt ⟨prim, none⟩
          (.author ⟨prim, none⟩ .prim (.info "specifier") (.text "def")) := .author ..
      exact within.author authors (Or.inr ⟨rfl, near⟩)
    · intro scene prim within own
      dsimp only [Scene.exec]
      rw [Scene.withLayer_layers]
      exact within.remove own
    · intro scene prim name within own
      dsimp only [Scene.exec]
      rw [Scene.withLayer_layers]
      exact within.remove own
    · intro scene prim origin source within own _
      dsimp only [Scene.exec]
      rw [Scene.withLayer_layers]
      exact within.graft own source origin
    · intro scene content _ whole path field _
      exact Or.inl (whole.below List.nil_prefix)
  · intro scene later within same
    rw [same]
    exact within

end Writes

/-! ### What a batch lists -/

section Batch

variable {usd : Usd} {target : LayerId} {events : List Event} {prims : List ScenePath}
  {entry : Layer} {event : Event}

theorem listed_of_paths (listed : atomicApplyPrimPaths events = some prims)
    (member : event ∈ events) :
    ∃ paths, event.atomicApplyPaths = some paths ∧ ∀ prim ∈ paths, Listed prims prim.specPath := by
  unfold atomicApplyPrimPaths at listed
  obtain ⟨scopes, mapped, rfl⟩ := Option.map_eq_some_iff.1 listed
  obtain ⟨paths, present, own⟩ := exists_of_mapM mapped member
  refine ⟨paths, own, ?_⟩
  intro prim inside
  exact ⟨prim, List.mem_flatten.2 ⟨paths, present, inside⟩, List.prefix_rfl⟩

theorem scenePath_specPath (prim : ScenePath) : PrimPath.scenePath prim.specPath = prim := by
  unfold PrimPath.scenePath ScenePath.specPath
  rw [List.filterMap_map]
  exact List.filterMap_some

/-- The prim that owns an exact spec lies under the prim its scope lists, and so does the scene prim
that routes it. -/
theorem listed_owningPrim {specPath : SpecPath} {paths : List ScenePath}
    (scope : (Event.contentScope specPath).map (fun prim => [prim]) = some paths)
    (known : ∀ prim ∈ paths, Listed prims prim.specPath) :
    Listed prims specPath.prim.owningPrim ∧ Listed prims specPath.routedPrim.specPath := by
  have leading : paths = [Event.leadingPrims specPath.prim] := by
    unfold Event.contentScope at scope
    split at scope
    · cases scope
    · exact (Option.some.inj scope).symm
  have listed := known (Event.leadingPrims specPath.prim) (by
    rw [leading]
    exact List.mem_singleton_self _)
  have above := leadingPrims_above specPath.prim
  refine ⟨listed.below above, listed.below (ScenePath.specPath_prefix.2 ?_)⟩
  have names : PrimPath.scenePath (Event.leadingPrims specPath.prim).specPath <+:
      PrimPath.scenePath specPath.prim.owningPrim := by
    unfold PrimPath.scenePath
    exact above.filterMap _
  rw [scenePath_specPath] at names
  exact names

theorem listed_prim {paths : List ScenePath} (own : event.atomicApplyPaths = some paths)
    (known : ∀ prim ∈ paths, Listed prims prim.specPath) :
    ∀ prim, event.prim = some prim → Listed prims prim.specPath := by
  intro prim routed
  cases event with
  | setStageMetadata => cases routed
  | replaceSdfLayerContent => cases own
  | setSdfSpecFields delta =>
      cases routed
      dsimp only [Event.atomicApplyPaths] at own
      split at own
      · cases own
      · exact (listed_owningPrim own known).2
  | eraseTimeSamples specPath times =>
      cases routed
      exact (listed_owningPrim own known).2
  | renamePrim named newName =>
      cases routed
      dsimp only [Event.atomicApplyPaths] at own
      split at own
      · cases own
      · cases own
        exact known _ List.mem_cons_self
  | setConnectableConnection named connections disconnections =>
      cases routed
      dsimp only [Event.atomicApplyPaths] at own
      split at own
      · cases own
      · cases own
        exact known _ List.mem_cons_self
  | _ =>
      cases routed
      dsimp only [Event.atomicApplyPaths, Event.prim] at own
      split at own
      · cases own
      · cases own
      · next same =>
          cases own
          cases same
          exact known _ List.mem_cons_self

/-- A batch with listed prims is granted its writes when its definitions stay within reach. -/
theorem granted_of_listed (listed : atomicApplyPrimPaths events = some prims)
    (member : event ∈ events) :
    event.Granted usd target (Listed prims) (ListedReach prims entry) (Listed prims)
      (Scene.DefinesListed prims entry usd target) := by
  obtain ⟨paths, own, known⟩ := listed_of_paths listed member
  have routed := listed_prim own known
  constructor
  · cases event with
    | setStageMetadata => cases own
    | renamePrim prim newName =>
        refine ⟨routed prim rfl, ?_⟩
        dsimp only [Event.atomicApplyPaths] at own
        split at own
        · cases own
        · cases own
          have renamed := known (prim.dropLast ++ [newName])
            (List.mem_cons_of_mem _ (List.mem_singleton_self _))
          unfold ScenePath.specPath at renamed ⊢
          rw [List.map_append, List.map_dropLast] at renamed
          exact renamed
    | _ => exact routed
  · intro scene defines running
    have turns := defines event running
    cases event with
    | deletePrim prim => exact routed prim rfl
    | renamePrim prim newName => exact routed prim rfl
    | setSdfSpecFields delta =>
        dsimp only [Event.atomicApplyPaths] at own
        split at own
        · cases own
        · have owner := (listed_owningPrim own known).1
          exact ⟨owner, fun _ _ => owner.below delta.specPath.prim.owningPrim_prefix⟩
    | eraseTimeSamples specPath times => exact (listed_owningPrim own known).1
    | setConnectableConnection prim connections disconnections =>
        intro connection present
        right
        dsimp only [Event.atomicApplyPaths] at own
        split at own
        · cases own
        · cases own
          have source : connection.2.sourcePrim ∈
              connections.entries.map fun entry => entry.2.sourcePrim :=
            List.mem_map.2 ⟨connection, present, rfl⟩
          exact ⟨known _ (List.mem_cons_of_mem prim source), turns _ source⟩
    | setConnectableInput prim infoId inputs inputTypes time =>
        intro named
        apply turns
        dsimp only [Event.definedPrims]
        rw [if_neg named]
        exact List.mem_singleton_self prim
    | ensurePrim prim typeName apiSchemas => exact turns prim (List.mem_singleton_self prim)
    | ensureXformOps prim => exact turns prim (List.mem_singleton_self prim)
    | setInstanceable prim instanceable => exact turns prim (List.mem_singleton_self prim)
    | setVariantSelections prim selections => exact turns prim (List.mem_singleton_self prim)
    | setMaterialBinding prim materialPath purpose =>
        exact turns prim (List.mem_singleton_self prim)
    | _ => trivial

/-- After a batch with listed prims, only they and their missing ancestors differ from the entry. -/
theorem writesWithin_applyEvents {scene : Scene} {prevalidated : Bool}
    (listed : atomicApplyPrimPaths events = some prims)
    (defines : (applyEvents usd target events prevalidated).Passes
      (Scene.DefinesListed prims (scene.layers target) usd target) scene) :
    WritesWithin prims (scene.layers target)
      (((applyEvents usd target events prevalidated).after scene).layers target) := by
  have sheltered := sheltered_writesWithin prims (scene.layers target) target
  have kept : Edit.Preserves (Scene.DefinesListed prims (scene.layers target) usd target)
      (fun current => WritesWithin prims (scene.layers target) (current.layers target))
      (applyEvents usd target events prevalidated) scene :=
    sheltered.preserves_applyEvents fun event member => granted_of_listed listed member
  apply kept.kept defines
  exact fun path field changed => absurd rfl changed

end Batch

/-! ### The rollback of a batch -/

theorem exit_full (missingParent : Option EditError) (entry raised : Layer) :
    ((LayerSnapshot.full entry).exit missingParent).after raised = entry := by
  apply Layer.ext
  funext path field
  change LayerEdit.edited (.replace entry) raised path field = _
  unfold LayerEdit.edited LayerEdit.changes
  split
  · next top =>
      rw [top.1, top.2, entry.pseudoRoot]
      exact raised.pseudoRoot
  · rfl

/-- Every batch whose definitions stay within reach writes only the prims listed for it and their
missing ancestors, and the rollback context over these prims gives the layer back when the batch
raises, unless a missing parent makes a copy raise. -/
theorem listed_writes_restored (usd : Usd) (target : LayerId) (scene : Scene) (events : List Event)
    (prevalidated : Bool)
    (defines : ∀ prims, atomicApplyPrimPaths events = some prims →
      (applyEvents usd target events prevalidated).Passes
        (Scene.DefinesListed prims (scene.layers target) usd target) scene) :
    let raised := ((applyEvents usd target events prevalidated).after scene).layers target
    (∀ prims, atomicApplyPrimPaths events = some prims →
      WritesWithin prims (scene.layers target) raised) ∧
    ∀ missingParent : Option EditError,
      ((LayerSnapshot.enter (scene.layers target) (atomicApplyPrimPaths events)).exit
          missingParent).after raised = scene.layers target ↔
        missingParent = none ∨ ∀ prims, atomicApplyPrimPaths events = some prims → [] ∉ prims →
          ParentsKept prims (scene.layers target) raised := by
  intro raised
  have within : ∀ prims, atomicApplyPrimPaths events = some prims →
      WritesWithin prims (scene.layers target) raised :=
    fun prims listed => writesWithin_applyEvents listed (defines prims listed)
  refine ⟨within, ?_⟩
  intro missingParent
  cases listed : atomicApplyPrimPaths events with
  | none =>
      refine iff_of_true (exit_full missingParent _ raised) (Or.inr ?_)
      intro prims impossible
      cases impossible
  | some prims =>
      dsimp only [LayerSnapshot.enter]
      split
      · next root =>
          refine iff_of_true (exit_full missingParent _ raised) (Or.inr ?_)
          intro others same rootless
          cases same
          exact absurd root rootless
      · next rootless =>
          have below : ∀ prim ∈ prims, prim ≠ [] := by
            rintro prim member rfl
            exact rootless member
          constructor
          · intro restored
            cases missingParent with
            | none => exact Or.inl rfl
            | some error =>
                right
                intro others same _
                cases same
                exact parentsKept_of_restored below restored
          · intro passes
            apply (within prims listed).exit_restores below
            exact passes.imp_right fun kept => kept prims rfl rootless

/-- A scene with one prim `/A`, an `over`. -/
def overScene : Scene where
  layers := fun _ => (LayerEdit.create ⟨[.child "A"], none⟩ .prim).apply .empty

/-- While `/B` is ensured, no other event is being applied. -/
theorem applying_ensurePrim :
    ∀ made ∈ ((applyEvents (.plain {}) "edits" [.ensurePrim ["B"] "Xform" []] true).edits
        overScene).inits,
      (Edit.execute Scene.exec made overScene).applying ∈
        [none, some ("edits", .ensurePrim ["B"] "Xform" [])] := by
  decide +kernel

theorem defines_ensurePrim (prims : List ScenePath) :
    (applyEvents (.plain {}) "edits" [.ensurePrim ["B"] "Xform" []] true).Passes
      (Scene.DefinesListed prims (overScene.layers "edits") (.plain {}) "edits") overScene := by
  intro made early event running prim defined
  have marked := applying_ensurePrim made ((List.mem_inits _ _).2 early)
  rw [running] at marked
  rcases List.mem_cons.1 marked with none | some
  · cases none
  · cases List.mem_singleton.1 some
    cases List.mem_singleton.1 defined
    intro _ _ outer above
    have top : ScenePath.ancestors ["B"] = [] := by decide
    rw [top] at above
    exact absurd above List.not_mem_nil

theorem listed_writes_restored_ensurePrim :
    let raised := ((applyEvents (.plain {}) "edits" [.ensurePrim ["B"] "Xform" []] true).after
      overScene).layers "edits"
    (∀ prims, atomicApplyPrimPaths [.ensurePrim ["B"] "Xform" []] = some prims →
      WritesWithin prims (overScene.layers "edits") raised) ∧
    ∀ missingParent : Option EditError,
      ((LayerSnapshot.enter (overScene.layers "edits")
          (atomicApplyPrimPaths [.ensurePrim ["B"] "Xform" []])).exit missingParent).after raised =
          overScene.layers "edits" ↔
        missingParent = none ∨ ∀ prims,
          atomicApplyPrimPaths [.ensurePrim ["B"] "Xform" []] = some prims → [] ∉ prims →
            ParentsKept prims (overScene.layers "edits") raised :=
  listed_writes_restored (.plain {}) "edits" overScene [.ensurePrim ["B"] "Xform" []] true
    fun prims _ => defines_ensurePrim prims

/-- Ensuring `/A/B` lists only that path, but turns `/A` into a `def`. -/
theorem not_writesWithin_ensureChild :
    ¬ ∀ (usd : Usd) (target : LayerId) (scene : Scene) (events : List Event)
      (prims : List ScenePath), atomicApplyPrimPaths events = some prims →
        WritesWithin prims (scene.layers target)
          (((applyEvents usd target events true).after scene).layers target) := by
  intro covered
  have within := covered (.plain {}) "edits" overScene [.ensurePrim ["A", "B"] "Xform" []]
    [["A", "B"]] rfl ⟨[.child "A"], none⟩ (.info "specifier") (by decide +kernel)
  rcases within with ⟨prim, member, under⟩ | ⟨_, missing, _⟩
  · cases List.mem_singleton.1 member
    exact absurd under (by decide)
  · exact missing (by decide)

end UsdConnect
