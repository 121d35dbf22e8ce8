/-
Purpose: What applying content events to a layer does: it replays them in order, and when it raises
  the rollback context leaves the layer as it was if it can put every prim back.
Trusted boundary: none
Main exports: replayContent, applyContentEvents_spec, applyContentEvents_restored
-/
import Mathlib.Data.List.TakeWhile
import UsdConnect.Client.SharedStage
import UsdConnect.Proofs.GroupRollback
import UsdConnect.Usd.Plain

namespace UsdConnect

/-! ### Replaying applied records -/

/-- What an applied record did to its layer. -/
def ContentApplication.replay (usd : Usd) (content : Layer) (application : ContentApplication) :
    Layer :=
  match application.record.sceneEvent with
  | none => content
  | some event =>
      if application.dropped then content else (event.contentProgram usd).after content

/-- The content that a layer gets from records applied to it in order. -/
def replayContent (usd : Usd) (applications : List ContentApplication) (content : Layer) : Layer :=
  applications.foldl (ContentApplication.replay usd) content

theorem replayContent_append (usd : Usd) (first second : List ContentApplication)
    (content : Layer) :
    replayContent usd (first ++ second) content =
      replayContent usd second (replayContent usd first content) :=
  List.foldl_append

/-- Applied records of a call: each with its own flag. -/
def applicationsOf (layer : LayerId) (records : List SharedRecord) (flags : List Bool) :
    List ContentApplication :=
  (records.zip flags).map fun entry => ⟨layer, entry.1, entry.2⟩

theorem applicationsOf_records {layer : LayerId} {records : List SharedRecord}
    {flags : List Bool} (same : flags.length = records.length) :
    (applicationsOf layer records flags).map (·.record) = records := by
  unfold applicationsOf
  rw [List.map_map]
  have firsts : (fun application : ContentApplication => application.record) ∘
      (fun entry : SharedRecord × Bool => (⟨layer, entry.1, entry.2⟩ : ContentApplication)) =
      Prod.fst := rfl
  rw [firsts]
  exact List.map_fst_zip same.ge

theorem applicationsOf_layer {layer : LayerId} {records : List SharedRecord} {flags : List Bool}
    {application : ContentApplication} (member : application ∈ applicationsOf layer records flags) :
    application.layer = layer := by
  obtain ⟨entry, _, rfl⟩ := List.mem_map.1 member
  rfl

section Loop

variable {usd : Usd} {dropped : Layer → Event → Bool}

theorem applyContentEvent_spec {event : Event} {start : Layer} {skipped : Bool}
    (returned : (applyContentEvent usd dropped event).result start = .ok skipped) :
    (applyContentEvent usd dropped event).after start =
      if skipped then start else (event.contentProgram usd).after start := by
  unfold applyContentEvent at returned ⊢
  rw [Edit.result_look_bind] at returned
  rw [Edit.after_look_bind]
  cases decision : dropped start event with
  | true =>
      rw [decision] at returned
      cases returned
      rfl
  | false =>
      rw [decision] at returned
      obtain ⟨_, _, finished, whole⟩ := Edit.bind_returned returned
      cases finished
      exact whole

/-- An application that returns has replayed every event in its turn. -/
theorem applyContentLoop_spec {layer : LayerId} {records : List SharedRecord}
    (content : ∀ record ∈ records, record.isContent = true) :
    ∀ {during : Option Nat} {start : Layer} {flags : List Bool},
      (applyContentLoop usd dropped during (records.filterMap SharedRecord.sceneEvent)).result start =
        .ok flags →
      flags.length = records.length ∧
      (applyContentLoop usd dropped during (records.filterMap SharedRecord.sceneEvent)).after start =
        replayContent usd (applicationsOf layer records flags) start := by
  induction records with
  | nil =>
      intro during start flags returned
      rw [List.filterMap_nil] at returned ⊢
      unfold applyContentLoop at returned ⊢
      cases returned
      exact ⟨rfl, rfl⟩
  | cons record rest ih =>
      intro during start flags returned
      obtain ⟨event, found⟩ : ∃ event, record.sceneEvent = some event := by
        have known := content record List.mem_cons_self
        unfold SharedRecord.isContent at known
        exact Option.isSome_iff_exists.1 (Option.isSome_of_any known)
      rw [List.filterMap_cons_some found] at returned ⊢
      unfold applyContentLoop at returned ⊢
      split at returned
      · cases returned
      · next running =>
          rw [if_neg running]
          obtain ⟨skipped, applied, remaining, whole⟩ := Edit.bind_returned returned
          obtain ⟨later, looped, finished, reached⟩ := Edit.bind_returned remaining
          cases finished
          obtain ⟨same, replayed⟩ :=
            ih (fun other member => content other (List.mem_cons_of_mem record member)) looped
          refine ⟨congrArg (· + 1) same, ?_⟩
          have first : (applyContentEvent usd dropped event).after start =
              ContentApplication.replay usd start ⟨layer, record, skipped⟩ := by
            unfold ContentApplication.replay
            rw [found]
            exact applyContentEvent_spec applied
          rw [whole, reached, first] 
          rw [first] at replayed
          exact replayed

theorem preserves_validateSpecEvents {condition invariant : Layer → Prop} {events : List Event}
    {start : Layer} :
    Edit.Preserves condition invariant (validateSpecEvents usd events) start := by
  apply Edit.preserves_forM
  intro event _ current
  split
  · split
    · exact Edit.preserves_raise _
    · exact Edit.preserves_pure _
  · exact Edit.preserves_pure _

theorem validateSpecEvents_after {events : List Event} {start : Layer} :
    (validateSpecEvents usd events).after start = start := by
  have same : Edit.Preserves (fun _ => True) (fun layer => layer = start)
      (validateSpecEvents usd events) start := preserves_validateSpecEvents
  exact same.kept (fun _ _ => trivial) rfl

/-- A batch that returns has replayed its events. -/
theorem applyContentEvents_spec (layer : LayerId) {records : List SharedRecord}
    (content : ∀ record ∈ records, record.isContent = true) {during : Option Nat} {start : Layer}
    {flags : List Bool}
    (returned : (applyContentEvents usd dropped during
      (records.filterMap SharedRecord.sceneEvent)).result start = .ok flags) :
    flags.length = records.length ∧
      (applyContentEvents usd dropped during
        (records.filterMap SharedRecord.sceneEvent)).after start =
        replayContent usd (applicationsOf layer records flags) start := by
  unfold applyContentEvents at returned ⊢
  obtain ⟨_, _, looped, whole⟩ := Edit.bind_returned returned
  rw [validateSpecEvents_after] at looped whole
  rw [whole]
  exact applyContentLoop_spec content looped

end Loop

/-! ### Rollback of an exception -/

/-- Every prim that the events remove can be put back: no other prim saved by the snapshot lies
strictly below it. -/
def Restorable (content : Layer) (events : List Event) : Prop :=
  ∀ delta, .setSdfSpecFields delta ∈ events → delta.removed = true →
    delta.specPath.property = none →
    (LayerSnapshot.enter content (atomicApplyPrimPaths events)).Removable delta.specPath.prim

/-- Nothing below the first variant selection is stripped from the leading prims of a path. -/
theorem leadingPrims_above (path : PrimPath) :
    (Event.leadingPrims path).specPath <+: path.owningPrim := by
  have children : ∀ element ∈ (Event.leadingPrims path).specPath, ∃ name, element = .child name := by
    intro element member
    obtain ⟨name, _, rfl⟩ := List.mem_map.1 member
    exact ⟨name, rfl⟩
  have first : (Event.leadingPrims path).specPath <+: path := by
    clear children
    induction path with
    | nil => exact List.prefix_rfl
    | cons element rest ih =>
        cases element with
        | child name => exact (List.prefix_cons_inj _).2 ih
        | variantSet name => exact List.nil_prefix
        | variant name => exact List.nil_prefix
  -- what `owningPrim` strips is no child, so it lies behind the prefix
  obtain ⟨rest, whole⟩ := first
  unfold PrimPath.owningPrim
  generalize (Event.leadingPrims path).specPath = leading at children whole ⊢
  rw [← whole, List.reverse_append, List.dropWhile_append]
  split
  · rw [List.dropWhile_eq_self_iff.2]
    · rw [List.reverse_reverse]
    · intro nonempty
      obtain ⟨name, last⟩ := children _ (List.mem_reverse.1 (List.getElem_mem nonempty))
      rw [last]
      exact Bool.false_ne_true
  · rw [List.reverse_append, List.reverse_reverse]
    exact List.prefix_append _ _

theorem exists_of_mapM {Item Value : Type} {find : Item → Option Value} {items : List Item}
    {values : List Value} {item : Item} (mapped : items.mapM find = some values)
    (member : item ∈ items) : ∃ value ∈ values, find item = some value := by
  induction items generalizing values with
  | nil => cases member
  | cons first rest ih =>
      simp only [List.mapM_cons, Option.bind_eq_bind, Option.bind_eq_some_iff] at mapped
      obtain ⟨value, found, later, remaining, same⟩ := mapped
      cases same
      rcases List.mem_cons.1 member with rfl | behind
      · exact ⟨value, List.mem_cons_self, found⟩
      · obtain ⟨other, present, known⟩ := ih remaining behind
        exact ⟨other, List.mem_cons_of_mem value present, known⟩

section Rollback

variable {content : Layer} {events : List Event} {event : Event}

/-- The snapshot of a batch restores the prims its events are scoped to. -/
theorem place_atomicApplyPaths (member : event ∈ events) {prim : ScenePath}
    (known : ∀ paths, event.atomicApplyPaths = some paths → prim ∈ paths) :
    (LayerSnapshot.enter content (atomicApplyPrimPaths events)).Place prim.specPath := by
  unfold atomicApplyPrimPaths
  cases listed : events.mapM Event.atomicApplyPaths with
  | none => trivial
  | some scopes =>
      obtain ⟨paths, present, own⟩ := exists_of_mapM listed member
      apply LayerSnapshot.place_enter
      exact List.mem_flatten.2 ⟨paths, present, known paths own⟩

/-- The snapshot of a batch, at the only layer of a scene. -/
theorem permits_enter (content : Layer) (events : List Event) :
    Permits (fun scene => (LayerSnapshot.enter content (atomicApplyPrimPaths events)).Guards
        (scene.layers "")) ""
      (LayerSnapshot.enter content (atomicApplyPrimPaths events)).Place
      (LayerSnapshot.enter content (atomicApplyPrimPaths events)).Removable :=
  LayerSnapshot.permits (LayerSnapshot.takenOf_enter content (atomicApplyPrimPaths events))

/-- An exact event writes inside the subtree it is scoped to. -/
theorem place_contentScope (member : event ∈ events) {specPath : SpecPath}
    (known : ∀ paths, event.atomicApplyPaths = some paths →
      (Event.contentScope specPath).map (fun prim => [prim]) = some paths) :
    (LayerSnapshot.enter content (atomicApplyPrimPaths events)).Place
      specPath.prim.owningPrim := by
  have leading := leadingPrims_above specPath.prim
  apply (permits_enter content events).below _ leading
  apply place_atomicApplyPaths member
  intro paths own
  have same := known paths own
  unfold Event.contentScope at same
  split at same
  · cases same
  · cases same
    exact List.mem_singleton_self _

/-- A guarding snapshot stays one while a content event of the batch is applied. -/
theorem preserves_contentProgram {usd : Usd} (restorable : Restorable content events)
    (member : event ∈ events) {layer : Layer} :
    Edit.Preserves (fun _ => True)
      (LayerSnapshot.enter content (atomicApplyPrimPaths events)).Guards
      (event.contentProgram usd) layer := by
  have permits := permits_enter content events
  let scene : Scene := { layers := fun _ => content }
  -- the scene lemmas, read at the one layer
  have guards : (fun layer => (LayerSnapshot.enter content (atomicApplyPrimPaths events)).Guards
      ((scene.withLayer "" layer).layers "")) =
      (LayerSnapshot.enter content (atomicApplyPrimPaths events)).Guards := by
    funext layer
    rw [Scene.withLayer_layers]
  rw [← guards]
  cases event with
  | setSdfSpecFields delta =>
      apply preserves_applySpecDeltaToLayer permits.admits
      · apply place_contentScope member
        intro paths own
        simp only [Event.atomicApplyPaths] at own
        split at own
        · cases own
        · exact own
      · exact restorable delta member
  | eraseTimeSamples specPath times =>
      apply preserves_eraseTimeSamples permits.admits
      apply permits.below _ specPath.prim.owningPrim_prefix
      exact place_contentScope member fun paths own => own
  | replaceSdfLayerContent fragment =>
      apply preserves_applyLayerContentReplacement permits.admits
      have root : ScenePath.specPath [] = [] := rfl
      rw [← root]
      exact place_atomicApplyPaths member fun paths own => nomatch own
  | _ => exact Edit.preserves_raise _

theorem preserves_applyContentLoop {usd : Usd} {dropped : Layer → Event → Bool}
    (restorable : Restorable content events) :
    ∀ {rest : List Event}, (∀ event ∈ rest, event ∈ events) →
      ∀ {during : Option Nat} {layer : Layer}, Edit.Preserves (fun _ => True)
        (LayerSnapshot.enter content (atomicApplyPrimPaths events)).Guards
        (applyContentLoop usd dropped during rest) layer := by
  intro rest
  induction rest with
  | nil =>
      intro _ during layer
      unfold applyContentLoop
      exact Edit.preserves_pure _
  | cons event rest ih =>
      intro known during layer
      unfold applyContentLoop
      split
      · exact Edit.preserves_raise _
      · apply Edit.preserves_bind
        · apply Edit.preserves_look_bind
          split
          · apply Edit.preserves_bind
            · exact preserves_contentProgram restorable (known event List.mem_cons_self)
            · intro _ _
              exact Edit.preserves_pure _
          · exact Edit.preserves_pure _
        · intro _ _
          apply Edit.preserves_bind
          · exact ih fun other member => known other (List.mem_cons_of_mem event member)
          · intro _ _
            exact Edit.preserves_pure _

/-- A batch that raises inside its rollback context leaves the layer as it was. -/
theorem applyContentEvents_restored {usd : Usd} {dropped : Layer → Event → Bool}
    (restorable : Restorable content events) {during : Option Nat} :
    (LayerSnapshot.enter content (atomicApplyPrimPaths events)).restore.after
      ((applyContentEvents usd dropped during events).after content) = content := by
  have taken := LayerSnapshot.takenOf_enter content (atomicApplyPrimPaths events)
  apply taken.restore
  have kept : Edit.Preserves (fun _ => True)
      (LayerSnapshot.enter content (atomicApplyPrimPaths events)).Guards
      (applyContentEvents usd dropped during events) content := by
    apply Edit.preserves_bind preserves_validateSpecEvents
    intro _ _
    exact preserves_applyContentLoop restorable fun event member => member
  exact kept.kept (fun _ _ => trivial) taken.guards

/-- The snapshot of one prim saves at most that prim. -/
theorem saved_enter_singleton {layer : Layer} {path other : PrimPath}
    (member : other ∈ (ScopedSnapshot.enter layer [path]).saved) : other = path := by
  unfold ScopedSnapshot.enter at member
  rw [List.foldl_cons, List.foldl_nil] at member
  unfold ScopedSnapshot.add at member
  split at member
  · cases member
  · split at member
    · exact List.mem_singleton.1 member
    · cases member

/-- One event alone can always be put back: nothing is saved below the prim it removes. -/
theorem restorable_singleton : Restorable content [event] := by
  intro delta member _ _
  cases List.mem_singleton.1 member
  have place : (LayerSnapshot.enter content
      (atomicApplyPrimPaths [.setSdfSpecFields delta])).Place delta.specPath.prim := by
    apply (permits_enter content [.setSdfSpecFields delta]).below _
      delta.specPath.prim.owningPrim_prefix
    apply place_contentScope member
    intro paths own
    simp only [Event.atomicApplyPaths] at own
    split at own
    · cases own
    · exact own
  revert place
  cases scope : Event.atomicApplyPaths (.setSdfSpecFields delta) with
  | none =>
      have full : atomicApplyPrimPaths [.setSdfSpecFields delta] = none := by
        simp [atomicApplyPrimPaths, scope]
      rw [full]
      exact fun _ => trivial
  | some paths =>
      have known : (Event.contentScope delta.specPath).map (fun prim => [prim]) = some paths := by
        simp only [Event.atomicApplyPaths] at scope
        split at scope
        · cases scope
        · exact scope
      obtain ⟨prim, found, rfl⟩ := Option.map_eq_some_iff.1 known
      have leading : prim = Event.leadingPrims delta.specPath.prim ∧ prim ≠ [] := by
        unfold Event.contentScope at found
        split at found
        · cases found
        · next nonempty =>
            cases found
            exact ⟨rfl, nonempty⟩
      have listed : atomicApplyPrimPaths [.setSdfSpecFields delta] = some [prim] := by
        simp [atomicApplyPrimPaths, scope]
      rw [listed]
      have inner : LayerSnapshot.enter content (some [prim]) =
          .subtrees (ScopedSnapshot.enter content [prim.specPath]) :=
        if_neg fun root => leading.2 (List.mem_singleton.1 root).symm
      rw [inner]
      intro place
      refine ⟨place, ?_⟩
      intro path saved below
      cases saved_enter_singleton saved
      have above := (leadingPrims_above delta.specPath.prim).trans
        delta.specPath.prim.owningPrim_prefix
      rw [← leading.1] at above
      have short := below.length_le
      have long := above.length_le
      have nonempty : 0 < prim.specPath.length := by
        rw [ScenePath.specPath, List.length_map]
        exact List.length_pos_iff.2 leading.2
      rw [List.length_dropLast] at short
      omega

end Rollback

/-! ### The batched application

On content events the general `apply_events` has nothing to reorder.  What it does to the scene is
what `applyContentEvents` does to the layer.
-/

section Batched

variable {usd : Usd} {target : LayerId} {base : Scene}

/-- Scenes that differ at most in one layer and in what is cached. -/
structure Alike (target : LayerId) (base scene : Scene) : Prop where
  layers : scene.layers = (base.withLayer target (scene.layers target)).layers
  muted : scene.muted = base.muted
  loadRules : scene.loadRules = base.loadRules

/-- A scene program does to the target what a layer program does, and raises when it raises. -/
def Mirrors {α β : Type} (target : LayerId) (base : Scene) (program : SceneEdit α)
    (mirrored : LayerProgram β) : Prop :=
  ∀ scene, Alike target base scene →
    Alike target base (program.after scene) ∧
      (program.after scene).layers target = mirrored.after (scene.layers target) ∧
      ((program.result scene).isOk = (mirrored.result (scene.layers target)).isOk)

theorem Alike.stage {scene : Scene} (alike : Alike target base scene) :
    scene.stage target = (base.withLayer target (scene.layers target)).stage target := by
  unfold Scene.stage
  rw [alike.muted, alike.loadRules, ← alike.layers]
  rfl

theorem isOk_cases {Error Value : Type} (result : Except Error Value) :
    (∃ value, result = .ok value) ∧ result.isOk = true ∨
      (∃ error, result = .error error) ∧ result.isOk = false := by
  cases result with
  | ok value => exact Or.inl ⟨⟨value, rfl⟩, rfl⟩
  | error error => exact Or.inr ⟨⟨error, rfl⟩, rfl⟩

theorem Mirrors.bind {α β γ δ : Type} {program : SceneEdit α} {mirrored : LayerProgram β}
    {next : α → SceneEdit γ} {later : β → LayerProgram δ}
    (first : Mirrors target base program mirrored)
    (rest : ∀ value other, Mirrors target base (next value) (later other)) :
    Mirrors target base (program >>= next) (mirrored >>= later) := by
  intro scene alike
  obtain ⟨still, content, outcome⟩ := first scene alike
  rcases isOk_cases (program.result scene) with
    ⟨⟨value, returned⟩, ok⟩ | ⟨⟨error, raised⟩, failed⟩
  · rcases isOk_cases (mirrored.result (scene.layers target)) with
      ⟨⟨other, finished⟩, _⟩ | ⟨_, failed⟩
    · have further := rest value other _ still
      rw [content] at further
      rw [Edit.after_bind_of_ok returned, Edit.after_bind_of_ok finished,
        Edit.result_bind_of_ok returned, Edit.result_bind_of_ok finished]
      exact further
    · rw [ok, failed] at outcome
      cases outcome
  · rcases isOk_cases (mirrored.result (scene.layers target)) with
      ⟨_, ok⟩ | ⟨⟨other, stopped⟩, _⟩
    · rw [failed, ok] at outcome
      cases outcome
    · rw [Edit.after_bind_of_error raised, Edit.after_bind_of_error stopped,
        Edit.result_bind_of_error raised, Edit.result_bind_of_error stopped]
      exact ⟨still, content, rfl⟩

theorem Mirrors.pure {α β : Type} (value : α) (other : β) :
    Mirrors target base (Pure.pure value : SceneEdit α) (Pure.pure other : LayerProgram β) :=
  fun _ alike => ⟨alike, rfl, rfl⟩

theorem Mirrors.raise {α β : Type} (first second : EditError) :
    Mirrors target base (Edit.raise first : SceneEdit α) (Edit.raise second : LayerProgram β) :=
  fun _ alike => ⟨alike, rfl, rfl⟩

/-- A program that only changes what is cached mirrors nothing. -/
theorem Mirrors.aside {program : SceneEdit Unit}
    (layers : ∀ scene, (program.after scene).layers = scene.layers)
    (muted : ∀ scene, (program.after scene).muted = scene.muted)
    (loadRules : ∀ scene, (program.after scene).loadRules = scene.loadRules)
    (returns : ∀ scene, program.result scene = .ok ()) :
    Mirrors target base program (Pure.pure () : LayerProgram Unit) := by
  intro scene alike
  refine ⟨⟨?_, ?_, ?_⟩, congrFun (layers scene) target, ?_⟩
  · rw [layers]
    exact alike.layers
  · rw [muted]
    exact alike.muted
  · rw [loadRules]
    exact alike.loadRules
  · rw [returns]
    rfl

theorem Mirrors.onLayer {α : Type} (program : LayerProgram α) :
    Mirrors target base (onLayer target program) program := by
  intro scene alike
  rw [onLayer_after]
  refine ⟨⟨?_, alike.muted, alike.loadRules⟩, Scene.withLayer_layers .., rfl⟩
  rw [Scene.withLayer_layers]
  funext other
  rcases eq_or_ne other target with rfl | away
  · rw [Scene.withLayer_layers, Scene.withLayer_layers]
  · rw [Scene.withLayer_other _ _ away, Scene.withLayer_other _ _ away, alike.layers,
      Scene.withLayer_other _ _ away]

/-- The marks around an applier leave its effect as it is. -/
theorem Mirrors.applyingEvent {program : SceneEdit Unit} {mirrored : LayerProgram Unit}
    (event : Event) (applier : Mirrors target base program mirrored) :
    Mirrors target base (applyingEvent target event program) mirrored := by
  intro scene alike
  have marked : Alike target base (Scene.exec (.mark (some (target, event))) scene) :=
    ⟨alike.layers, alike.muted, alike.loadRules⟩
  obtain ⟨still, content, outcome⟩ := applier _ marked
  have start : (Edit.act (.mark (some (target, event))) : SceneEdit Unit).result scene = .ok () :=
    rfl
  have tried : program.attempt.result (Scene.exec (.mark (some (target, event))) scene) =
      .ok (program.result (Scene.exec (.mark (some (target, event))) scene)) := rfl
  have finish : (Edit.act (.mark none) : SceneEdit Unit).result
      (program.after (Scene.exec (.mark (some (target, event))) scene)) = .ok () := rfl
  unfold UsdConnect.applyingEvent
  rw [Edit.after_bind_of_ok start, Edit.result_bind_of_ok start, Edit.after_act,
    Edit.after_bind_of_ok tried, Edit.result_bind_of_ok tried, Edit.after_attempt,
    Edit.after_bind_of_ok finish, Edit.result_bind_of_ok finish, Edit.after_act]
  cases result : program.result (Scene.exec (.mark (some (target, event))) scene) with
  | ok value =>
      rw [result] at outcome
      exact ⟨⟨still.layers, still.muted, still.loadRules⟩, content, outcome⟩
  | error error =>
      rw [result] at outcome
      exact ⟨⟨still.layers, still.muted, still.loadRules⟩, content, outcome⟩

theorem Mirrors.returning {α β γ : Type} {program : SceneEdit α} {mirrored : LayerProgram β}
    (mirrors : Mirrors target base program mirrored) (other : β → γ) :
    Mirrors target base program (mirrored >>= fun value => Pure.pure (other value)) := by
  intro scene alike
  obtain ⟨still, content, outcome⟩ := mirrors scene alike
  refine ⟨still, ?_⟩
  rcases isOk_cases (mirrored.result (scene.layers target)) with
    ⟨⟨value, finished⟩, _⟩ | ⟨⟨error, stopped⟩, _⟩
  · rw [Edit.after_bind_of_ok finished, Edit.result_bind_of_ok finished]
    rw [finished] at outcome
    exact ⟨content, outcome⟩
  · rw [Edit.after_bind_of_error stopped, Edit.result_bind_of_error stopped]
    rw [stopped] at outcome
    exact ⟨content, outcome⟩

theorem applier_content {event : Event} (content : event.isLayerContent = true) :
    event.applier usd target = onLayer target (event.contentProgram usd) := by
  cases event with
  | setSdfSpecFields delta => rfl
  | eraseTimeSamples specPath times => rfl
  | replaceSdfLayerContent fragment => rfl
  | _ => cases content

/-- What the composed stage says of an event, from the one layer that changes. -/
def droppedAt (usd : Usd) (target : LayerId) (base : Scene) (content : Layer) (event : Event) :
    Bool :=
  isInstanceProxyTarget usd ((base.withLayer target content).stage target) event

theorem mirrors_applyEvent {event : Event} (content : event.isLayerContent = true) :
    Mirrors target base (applyEvent usd target event)
      (applyContentEvent usd (droppedAt usd target base) event) := by
  intro scene alike
  unfold applyEvent applyContentEvent stageNow
  rw [Edit.after_look_bind, Edit.after_look_bind, Edit.result_look_bind, Edit.result_look_bind]
  have same : isInstanceProxyTarget usd (scene.stage target) event =
      droppedAt usd target base (scene.layers target) event := by
    unfold droppedAt
    rw [alike.stage]
  rw [same]
  cases droppedAt usd target base (scene.layers target) event with
  | true => exact ⟨alike, rfl, rfl⟩
  | false =>
      rw [applier_content content]
      have applied : Mirrors target base
          (UsdConnect.applyingEvent target event (onLayer target (event.contentProgram usd)))
          (event.contentProgram usd) :=
        Mirrors.applyingEvent event (Mirrors.onLayer (event.contentProgram usd))
      exact applied.returning (fun _ => false) scene alike

theorem mirrors_expireHandles :
    Mirrors target base (expireHandles usd target) (Pure.pure () : LayerProgram Unit) :=
  Mirrors.aside (fun _ => rfl) (fun _ => rfl) (fun _ => rfl) fun _ => rfl

/-- Something aside after a program. -/
theorem Mirrors.followed {β : Type} {aside program : SceneEdit Unit} {mirrored : LayerProgram β}
    (first : Mirrors target base program mirrored)
    (rest : Mirrors target base aside (Pure.pure () : LayerProgram Unit)) :
    Mirrors target base (program >>= fun _ => aside) mirrored := by
  have both := Mirrors.bind first fun (_ : Unit) (value : β) => rest.returning fun _ => value
  simp only [pure_bind, bind_pure] at both
  exact both

theorem mirrors_applySegmentEvent {event : Event} (content : event.isLayerContent = true) :
    Mirrors target base (applySegmentEvent usd target event)
      (applyContentEvent usd (droppedAt usd target base) event) := by
  have whole : applySegmentEvent usd target event =
      (applyEvent usd target event >>= fun _ => expireHandles usd target) := by
    cases event with
    | setSdfSpecFields delta => rfl
    | eraseTimeSamples specPath times => rfl
    | replaceSdfLayerContent fragment => rfl
    | _ => cases content
  rw [whole]
  exact (mirrors_applyEvent content).followed mirrors_expireHandles

theorem mirrors_applyBarrier {event : Event} (content : event.isLayerContent = true) :
    Mirrors target base (applyBarrier usd target event)
      (applyContentEvent usd (droppedAt usd target base) event) := by
  have forget : Mirrors target base
      (Edit.act (.forgetOps fun prim => some prim = event.prim) : SceneEdit Unit)
      (Pure.pure () : LayerProgram Unit) :=
    Mirrors.aside (fun _ => rfl) (fun _ => rfl) (fun _ => rfl) fun _ => rfl
  have behind : Mirrors target base
      (applyEvent usd target event >>= fun _ => expireHandles usd target)
      (applyContentEvent usd (droppedAt usd target base) event) :=
    (mirrors_applyEvent content).followed mirrors_expireHandles
  have all := Mirrors.bind forget fun (_ : Unit) (_ : Unit) => behind
  rw [pure_bind] at all
  exact all

theorem segmentOrder_content {events : List Event}
    (content : ∀ event ∈ events, event.isLayerContent = true) : segmentOrder events = events := by
  have shape : ∀ event ∈ events, event.kind.structural = true ∧ event.createsPrim = false ∧
      event.isApiSchemaOver = false := by
    intro event member
    have known := content event member
    cases event with
    | setSdfSpecFields delta => exact ⟨rfl, rfl, rfl⟩
    | eraseTimeSamples specPath times => exact ⟨rfl, rfl, rfl⟩
    | replaceSdfLayerContent fragment => exact ⟨rfl, rfl, rfl⟩
    | _ => cases known
  have structural : events.filter (fun event => event.kind.structural) = events :=
    List.filter_eq_self.2 fun event member => (shape event member).1
  have create : events.filter Event.createsPrim = [] :=
    List.filter_eq_nil_iff.2 fun event member => by simp [(shape event member).2.1]
  have modify : events.filter (fun event => !event.createsPrim && !event.isApiSchemaOver) =
      events :=
    List.filter_eq_self.2 fun event member => by
      simp [(shape event member).2.1, (shape event member).2.2]
  have overs : events.filter Event.isApiSchemaOver = [] :=
    List.filter_eq_nil_iff.2 fun event member => by simp [(shape event member).2.2]
  have values : events.filter (fun event => !event.kind.structural) = [] :=
    List.filter_eq_nil_iff.2 fun event member => by simp [(shape event member).1]
  unfold segmentOrder
  dsimp only
  rw [structural, create, modify, overs, values]
  simp

theorem applyContentLoop_none_cons (dropped : Layer → Event → Bool) (event : Event)
    (rest : List Event) :
    applyContentLoop usd dropped none (event :: rest) =
      (applyContentEvent usd dropped event >>= fun skipped =>
        applyContentLoop usd dropped none rest >>= fun later =>
          Pure.pure (skipped :: later)) :=
  rfl

theorem applyContentLoop_append (dropped : Layer → Event → Bool) (first second : List Event) :
    applyContentLoop usd dropped none (first ++ second) =
      (applyContentLoop usd dropped none first >>= fun early =>
        applyContentLoop usd dropped none second >>= fun later =>
          Pure.pure (early ++ later)) := by
  induction first with
  | nil =>
      have nothing : applyContentLoop usd dropped none [] = Pure.pure [] := rfl
      rw [nothing, pure_bind]
      exact (bind_pure _).symm
  | cons event rest ih =>
      rw [List.cons_append, applyContentLoop_none_cons, ih, applyContentLoop_none_cons]
      simp only [bind_assoc, pure_bind, List.cons_append]

theorem mirrors_applySegment {events : List Event}
    (content : ∀ event ∈ events, event.isLayerContent = true) :
    Mirrors target base (applySegment usd target events)
      (applyContentLoop usd (droppedAt usd target base) none events) := by
  unfold applySegment
  rw [segmentOrder_content content]
  induction events with
  | nil => exact Mirrors.pure () []
  | cons event rest ih =>
      rw [applyContentLoop_none_cons]
      apply Mirrors.bind (mirrors_applySegmentEvent (content event List.mem_cons_self))
      intro _ skipped
      have remaining := ih fun other member => content other (List.mem_cons_of_mem event member)
      exact remaining.returning fun later => skipped :: later

theorem mirrors_applyEventsLoop {events segment : List Event}
    (collected : ∀ event ∈ segment, event.isLayerContent = true)
    (content : ∀ event ∈ events, event.isLayerContent = true) :
    Mirrors target base (applyEventsLoop usd target segment events)
      (applyContentLoop usd (droppedAt usd target base) none (segment ++ events)) := by
  induction events generalizing segment with
  | nil =>
      rw [List.append_nil]
      exact mirrors_applySegment collected
  | cons event rest ih =>
      have own := content event List.mem_cons_self
      have others : ∀ other ∈ rest, other.isLayerContent = true :=
        fun other member => content other (List.mem_cons_of_mem event member)
      unfold applyEventsLoop
      split
      · rw [applyContentLoop_append]
        apply Mirrors.bind (mirrors_applySegment collected)
        intro _ early
        have behind : Mirrors target base
            (applyBarrier usd target event >>= fun _ => applyEventsLoop usd target [] rest)
            (applyContentLoop usd (droppedAt usd target base) none (event :: rest)) := by
          rw [applyContentLoop_none_cons]
          apply Mirrors.bind (mirrors_applyBarrier own)
          intro _ skipped
          have remaining := ih (fun other member => absurd member List.not_mem_nil) others
          exact remaining.returning fun later => skipped :: later
        exact behind.returning fun later => early ++ later
      · rw [show segment ++ event :: rest = segment ++ [event] ++ rest by simp]
        apply ih _ others
        intro other member
        rcases List.mem_append.1 member with old | new
        · exact collected other old
        · rw [List.mem_singleton.1 new]
          exact own

end Batched

end UsdConnect
