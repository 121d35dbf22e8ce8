/-
Purpose: Leaving arc events out of the mirror commit is sound when each of them finds at its turn what
  it would author, and is not when an earlier event of the batch has changed the arc.
Trusted boundary: none
Main exports: skipsSoundly_of_undisturbed, not_skipsSoundly_arcRestored
-/
import UsdConnect.Client.ArcSkip
import UsdConnect.Lib.Rows
import UsdConnect.Usd.Plain
import UsdConnect.Proofs.ApplicationOrder

namespace UsdConnect

/-! ### Edits that write what is there -/

namespace LayerEdit

theorem apply_author_of_present {layer : Layer} {prim : PrimPath} {kind : SpecKind} {name : String}
    {value : Datum} (present : layer.info ⟨prim, none⟩ name = some value) :
    (LayerEdit.author ⟨prim, none⟩ kind (.info name) value).apply layer = layer := by
  have spec : (layer.value ⟨prim, none⟩ .spec).isSome := by
    apply layer.tidy ⟨prim, none⟩ (.info name)
    change (layer.info ⟨prim, none⟩ name).isSome = true
    rw [present]
    rfl
  apply Layer.ext
  funext path field
  change LayerEdit.edited _ layer path field = _
  unfold LayerEdit.edited LayerEdit.changes
  split
  · rfl
  · simp only [LayerEdit.written]
    split
    · next here =>
        obtain ⟨rfl, rfl, _⟩ := here
        exact present.symm
    · unfold LayerEdit.createdBy
      split
      · next creates =>
          obtain ⟨rfl, above⟩ := creates
          rcases path with ⟨outer, property⟩
          cases property with
          | none =>
              have existing := layer.rooted _ _ above spec
              rcases layer.plain outer with missing | plain
              · rw [missing] at existing
                cases existing
              · rw [plain]
                rfl
          | some other => cases congrArg SpecPath.property above
      · rfl

theorem apply_clear_of_absent {layer : Layer} {path : SpecPath} {name : String}
    (absent : layer.info path name = none) :
    (LayerEdit.clear path (.info name)).apply layer = layer := by
  apply Layer.ext
  funext other field
  change LayerEdit.edited _ layer other field = _
  unfold LayerEdit.edited LayerEdit.changes
  split
  · rfl
  · simp only [LayerEdit.written]
    split
    · next here =>
        obtain ⟨rfl, rfl, _⟩ := here
        exact absent.symm
    · rfl

end LayerEdit

/-! ### Canonical states -/

theorem canonicalEntry_same {explicit references : Bool} {entry other : ArcItem}
    (accepted : canonicalEntry explicit references entry = .ok other) : other = entry := by
  unfold canonicalEntry at accepted
  split at accepted
  · cases accepted
  · split at accepted
    · cases accepted
    · split at accepted
      · cases accepted
      · split at accepted
        · cases accepted
        · cases accepted
          rfl

namespace ArcState

variable {state : ArcState} {references : Bool}

/-- An accepted state is its own entries by bucket with the two flags. -/
theorem canonical_eq_ok {incoming : CanonicalArcState}
    (accepted : state.canonical references = .ok incoming) :
    incoming = ⟨state.items, state.isAuthored, state.explicit⟩ ∧
      (state.isAuthored = false → state.entries = [] ∧ state.explicit = false) := by
  unfold canonical at accepted
  split at accepted
  · cases accepted
  · next consistent =>
      obtain ⟨normalized, checked, known⟩ := except_bind_eq_ok_iff.1 accepted
      cases known
      have unchanged : normalized = state.entries := by
        clear consistent accepted
        generalize state.entries = entries at checked
        have related := mapM_eq_ok_iff.1 checked
        clear checked
        induction related with
        | nil => rfl
        | cons first _ ih => rw [canonicalEntry_same first, ih]
      constructor
      · rw [unchanged]
      · intro unauthored
        rw [unauthored] at consistent
        simpa using consistent

theorem Valid.canonical_ok (valid : state.Valid references) :
    state.canonical references = .ok ⟨state.items, state.isAuthored, state.explicit⟩ := by
  have entries : state.entries.mapM (canonicalEntry state.explicit references) =
      .ok state.entries := by
    apply mapM_eq_ok_iff.2
    apply List.forall₂_same.2
    intro entry member
    obtain ⟨listed, mode⟩ := valid.position entry member
    have known := valid.customData entry member
    unfold canonicalEntry
    rw [if_neg (not_not.2 listed), if_neg, if_neg, if_neg]
    · rintro ⟨authored, other⟩
      exact other (known authored)
    · rintro ⟨implicit, position⟩
      exact implicit (mode.2 position)
    · rintro ⟨explicit, position⟩
      exact position (mode.1 explicit)
  unfold canonical
  rw [if_neg]
  · rw [entries]
    rfl
  · rw [Bool.and_eq_true]
    rintro ⟨unauthored, some⟩
    obtain ⟨empty, implicit⟩ := valid.unauthored (by simpa using unauthored)
    rw [empty, implicit] at some
    cases some

end ArcState

section Idle

variable {usd : Usd} {target : LayerId} {scene : Scene} {prim : ScenePath}

theorem idle_editLayer {edit : LayerEdit}
    (same : edit.apply (scene.layers target) = scene.layers target) :
    (editLayer target edit).Idle scene := by
  constructor
  · rfl
  · change scene.withLayer target (edit.apply (scene.layers target)) = scene
    rw [same, Scene.withLayer_self]

theorem idle_authorPrimInfo {name : String} {value : Datum}
    (present : (scene.layers target).info ⟨prim.specPath, none⟩ name = some value) :
    (authorPrimInfo target prim name value).Idle scene :=
  idle_editLayer (LayerEdit.apply_author_of_present present)

/-- Authoring a list op that reads as the event's changes nothing. -/
theorem idle_applyArcState {state : ArcState} {references : Bool} {field : String}
    {incoming : CanonicalArcState} (canonical : state.canonical references = .ok incoming)
    (present : (scene.layers target).readArcState prim field = some incoming) :
    (applyArcState target prim state field).Idle scene := by
  obtain ⟨rfl, consistent⟩ := ArcState.canonical_eq_ok canonical
  unfold Layer.readArcState at present
  unfold applyArcState
  change (if !state.isAuthored then _ else _ : SceneEdit Unit).Idle scene
  cases authored : state.isAuthored with
  | false =>
      obtain ⟨empty, implicit⟩ := consistent authored
      rw [if_pos (by rfl), empty, implicit, if_neg (by simp)]
      apply idle_editLayer
      apply LayerEdit.apply_clear_of_absent
      split at present
      · next absent => exact absent
      · have same := congrArg CanonicalArcState.authored (Option.some.inj present)
        rw [authored] at same
        cases same
      · cases present
  | true =>
      rw [if_neg (by simp)]
      apply idle_authorPrimInfo
      split at present
      · have same := congrArg CanonicalArcState.authored (Option.some.inj present)
        rw [authored] at same
        cases same
      · next explicit items found =>
          have known := Option.some.inj present
          have listed : items = state.items := congrArg CanonicalArcState.entries known
          have mode : explicit = state.explicit := congrArg CanonicalArcState.explicit known
          rw [found, listed, mode]
      · cases present

theorem idle_applySetVariantSelections {selections : OrderedDict String String}
    (composes : usd.primAt (scene.stage target) prim = true)
    (authored : ∀ entry ∈ selections.entries,
      usd.refuses (scene.stage target) prim = none ∧ entry.2 ≠ "" ∧
        (scene.layers target).info ⟨prim.specPath, none⟩ ("variantSelection:" ++ entry.1) =
          some (.text entry.2)) :
    (applySetVariantSelections usd target prim selections).Idle scene := by
  unfold applySetVariantSelections
  apply Edit.Idle.bind
  · unfold getOrDefinePrim primAt
    constructor
    · rw [Edit.result_look_bind, composes]
      rfl
    · rw [Edit.after_look_bind, composes]
      rfl
  · apply Edit.Idle.forM
    intro entry member
    obtain ⟨allowed, named, present⟩ := authored entry member
    apply Edit.Idle.bind
    · unfold guardAuthoring stageNow
      constructor
      · rw [Edit.result_look_bind, allowed]
        rfl
      · rw [Edit.after_look_bind, allowed]
        rfl
    · rw [if_pos named]
      exact idle_authorPrimInfo present

end Idle

/-! ### One event at its turn -/

/-- Between two events no applier runs and the handles of absent prims are expired. -/
structure Scene.AtRest (usd : Usd) (target : LayerId) (scene : Scene) : Prop where
  applying : scene.applying = none
  expired : Scene.exec (.expireOps fun prim => !usd.primAt (scene.stage target) prim) scene = scene

section Turn

variable {usd : Usd} {target : LayerId} {scene : Scene} {event : Event}

theorem expire_expire (handle : OpHandle) : handle.expire.expire = handle.expire := by
  cases handle <;> rfl

theorem after_expireHandles :
    (expireHandles usd target).after scene =
      Scene.exec (.expireOps fun prim => !usd.primAt (scene.stage target) prim) scene := rfl

theorem atRest_expireHandles (quiet : scene.applying = none) :
    ((expireHandles usd target).after scene).AtRest usd target := by
  constructor
  · exact quiet
  · rw [after_expireHandles]
    change Scene.exec (.expireOps fun prim => !usd.primAt (scene.stage target) prim) _ = _
    simp only [Scene.exec]
    congr 1
    funext prim
    split
    · cases scene.opCache prim with
      | none => rfl
      | some ops =>
          dsimp only [Option.map_some]
          rw [expire_expire, expire_expire, expire_expire]
    · rfl

theorem after_applyingEvent_applying {program : SceneEdit Unit} :
    ((applyingEvent target event program).after scene).applying = none := by
  unfold applyingEvent
  have marked : (Edit.act (.mark (some (target, event))) : SceneEdit Unit).result scene = .ok () :=
    rfl
  rw [Edit.after_bind_of_ok marked, Edit.after_bind_of_ok (rfl : (program.attempt).result _ = _)]
  cases (program ((Edit.act (.mark (some (target, event))) : SceneEdit Unit).after scene)).2 with
  | error error => rfl
  | ok value => rfl

theorem applyEvent_applying (quiet : scene.applying = none) :
    ((applyEvent usd target event).after scene).applying = none := by
  unfold applyEvent stageNow
  rw [Edit.after_look_bind]
  split
  · exact quiet
  · exact after_applyingEvent_applying

theorem atRest_bind_expireHandles {program : SceneEdit Unit}
    (quiet : (program.after scene).applying = none)
    (returned : (program >>= fun _ => expireHandles usd target).result scene = .ok ()) :
    ((program >>= fun _ => expireHandles usd target).after scene).AtRest usd target := by
  obtain ⟨_, _, _, ends⟩ := Edit.bind_returned returned
  rw [ends]
  exact atRest_expireHandles quiet

theorem atRest_applySegmentEvent (quiet : scene.applying = none)
    (returned : (applySegmentEvent usd target event).result scene = .ok ()) :
    ((applySegmentEvent usd target event).after scene).AtRest usd target := by
  unfold applySegmentEvent at returned ⊢
  split at returned
  · apply atRest_bind_expireHandles _ returned
    unfold applyEnsureXformOpsCached stageNow
    rw [Edit.after_look_bind]
    split
    · exact quiet
    · exact after_applyingEvent_applying
  · apply atRest_bind_expireHandles _ returned
    unfold applySetXformTrsCached stageNow
    rw [Edit.after_look_bind]
    split
    · exact quiet
    · exact after_applyingEvent_applying
  · exact atRest_bind_expireHandles (applyEvent_applying quiet) returned

theorem atRest_applyAtTurn (quiet : scene.applying = none)
    (returned : (applyAtTurn usd target event).result scene = .ok ()) :
    ((applyAtTurn usd target event).after scene).AtRest usd target := by
  cases barrier : event.isBarrier with
  | true =>
      have own : applyAtTurn usd target event = applyBarrier usd target event := by
        unfold applyAtTurn
        rw [if_pos barrier]
      rw [own] at returned ⊢
      unfold applyBarrier at returned ⊢
      obtain ⟨_, _, later, ends⟩ := Edit.bind_returned returned
      rw [ends]
      exact atRest_bind_expireHandles (applyEvent_applying quiet) later
  | false =>
      have own : applyAtTurn usd target event = applySegmentEvent usd target event := by
        unfold applyAtTurn
        rw [barrier]
        rfl
      rw [own] at returned ⊢
      exact atRest_applySegmentEvent quiet returned

theorem atRest_forM {events : List Event} (rest : scene.AtRest usd target)
    (returned : (events.forM (applyAtTurn usd target)).result scene = .ok ()) :
    ((events.forM (applyAtTurn usd target)).after scene).AtRest usd target := by
  induction events generalizing scene with
  | nil => exact rest
  | cons event others ih =>
      obtain ⟨value, finished, later, ends⟩ := Edit.bind_returned returned
      rw [Edit.forM_cons, ends]
      exact ih (atRest_applyAtTurn rest.applying finished) later

/-- An applier that does nothing while it is marked as running. -/
theorem idle_applyingEvent {program : SceneEdit Unit} (quiet : scene.applying = none)
    (idle : program.Idle { scene with applying := some (target, event) }) :
    (applyingEvent target event program).Idle scene := by
  have marked : (Edit.act (.mark (some (target, event))) : SceneEdit Unit).result scene = .ok () :=
    rfl
  have attempted : program.attempt.result { scene with applying := some (target, event) } =
      .ok (.ok ()) := congrArg Except.ok idle.returns
  unfold applyingEvent
  constructor
  · rw [Edit.result_bind_of_ok marked, Edit.after_act]
    change Edit.result (program.attempt >>= _) { scene with applying := some (target, event) } = _
    rw [Edit.result_bind_of_ok attempted]
    rfl
  · rw [Edit.after_bind_of_ok marked, Edit.after_act]
    change Edit.after (program.attempt >>= _) { scene with applying := some (target, event) } = _
    rw [Edit.after_bind_of_ok attempted, Edit.after_attempt, idle.unchanged]
    change { scene with applying := none } = scene
    rw [← quiet]

end Turn

/-! ### What is left out -/

namespace FlatDispatcher

variable {dispatcher : FlatDispatcher} {scene : Scene} {events : List Event} {event : Event}

/-- A skipped event whose arc is authored already writes nothing at its turn. -/
theorem idle_applyAtTurn (rest : scene.AtRest dispatcher.usd dispatcher.target)
    (arc : event.kind.arc = true)
    (found : isInstanceProxyTarget dispatcher.usd (scene.stage dispatcher.target) event = true ∨
      dispatcher.AlreadyAuthored scene event) :
    (applyAtTurn dispatcher.usd dispatcher.target event).Idle scene := by
  have expires : (expireHandles dispatcher.usd dispatcher.target).Idle scene :=
    ⟨rfl, rest.expired⟩
  have turn : applyAtTurn dispatcher.usd dispatcher.target event =
      (applyEvent dispatcher.usd dispatcher.target event >>= fun _ =>
        expireHandles dispatcher.usd dispatcher.target) := by
    cases event with
    | setReference prim state => rfl
    | setPayload prim state => rfl
    | setVariantSelections prim selections => rfl
    | _ => cases arc
  rw [turn]
  apply Edit.Idle.bind _ expires
  have looks : applyEvent dispatcher.usd dispatcher.target event scene =
      (if isInstanceProxyTarget dispatcher.usd (scene.stage dispatcher.target) event then pure ()
        else applyingEvent dispatcher.target event
          (event.applier dispatcher.usd dispatcher.target) : SceneEdit Unit) scene := rfl
  suffices idle : (if isInstanceProxyTarget dispatcher.usd (scene.stage dispatcher.target) event
      then pure () else applyingEvent dispatcher.target event
        (event.applier dispatcher.usd dispatcher.target) : SceneEdit Unit).Idle scene by
    constructor
    · unfold Edit.result
      rw [looks]
      exact idle.returns
    · unfold Edit.after Edit.edits
      rw [looks]
      exact idle.unchanged
  rcases found with proxy | authored
  · rw [if_pos proxy]
    exact ⟨rfl, rfl⟩
  · split
    · exact ⟨rfl, rfl⟩
    · apply idle_applyingEvent rest.applying
      cases event with
      | setReference prim state =>
          obtain ⟨incoming, canonical, same⟩ := except_bind_eq_ok_iff.1 authored
          apply idle_applyArcState canonical
          simpa using Except.ok.inj same
      | setPayload prim state =>
          obtain ⟨incoming, canonical, same⟩ := except_bind_eq_ok_iff.1 authored
          apply idle_applyArcState canonical
          simpa using Except.ok.inj same
      | setVariantSelections prim selections =>
          exact idle_applySetVariantSelections authored.1 authored.2
      | _ => cases arc

/-- Whether `_compute_stage_skip` lists an event that passes its checks. -/
def stageSkips (dispatcher : FlatDispatcher) (scene : Scene) (event : Event) : Bool :=
  event.kind.arc && !((dispatcher.arcChanged scene event).toOption.getD true)

/-- Whether the mirror takes an event. -/
def takes (dispatcher : FlatDispatcher) (scene : Scene) (event : Event) : Bool :=
  !(dispatcher.stageSkips scene event && (!dispatcher.adapterHandlesMirror ||
    event.kind != .setVariantSelections &&
      dispatcher.hasImportedChildren (event.prim.getD [])))

theorem skipped_of_not_takes (left : dispatcher.takes scene event = false) :
    dispatcher.Skipped scene event := by
  unfold takes stageSkips at left
  rw [Bool.not_eq_false', Bool.and_eq_true, Bool.and_eq_true, Bool.or_eq_true] at left
  obtain ⟨⟨arc, same⟩, imported⟩ := left
  refine ⟨arc, ?_, ?_⟩
  · cases changed : dispatcher.arcChanged scene event with
    | error error =>
        rw [changed] at same
        cases same
    | ok flag =>
        rw [changed] at same
        cases flag with
        | true => cases same
        | false => rfl
  · intro handles
    rw [handles] at imported
    rcases imported with none | both
    · cases none
    · rw [Bool.and_eq_true] at both
      exact ⟨by simpa using both.1, both.2⟩

theorem arcChanged_ok (valid : event.ValidArcs) :
    ∃ changed, dispatcher.arcChanged scene event = .ok changed := by
  cases event with
  | setReference prim state =>
      have accepted : state.canonical true =
          .ok ⟨state.items, state.isAuthored, state.explicit⟩ := valid.canonical_ok
      exact ⟨_, except_bind_eq_ok_iff.2 ⟨_, accepted, rfl⟩⟩
  | setPayload prim state =>
      have accepted : state.canonical false =
          .ok ⟨state.items, state.isAuthored, state.explicit⟩ := valid.canonical_ok
      exact ⟨_, except_bind_eq_ok_iff.2 ⟨_, accepted, rfl⟩⟩
  | _ => exact ⟨_, rfl⟩

theorem computeStageSkip_eq (valid : ∀ event ∈ events, event.ValidArcs) :
    dispatcher.computeStageSkip scene events = .ok (events.map (dispatcher.stageSkips scene)) := by
  unfold computeStageSkip
  apply mapM_eq_ok_iff.2
  rw [List.forall₂_map_right_iff]
  apply List.forall₂_same.2
  intro event member
  unfold stageSkips
  cases event.kind.arc with
  | false => rfl
  | true =>
      obtain ⟨changed, known⟩ : ∃ changed, dispatcher.arcChanged scene event = .ok changed :=
        arcChanged_ok (valid event member)
      rw [known]
      rfl

theorem unskipped_map (flag : Event → Bool) (events : List Event) :
    unskipped events (events.map flag) = events.filter fun event => !flag event := by
  unfold unskipped
  induction events with
  | nil => rfl
  | cons event rest ih =>
      rw [List.map_cons, List.zip_cons_cons, List.filter_cons, List.filter_cons]
      cases flag event with
      | true => exact ih
      | false =>
          simp only [Bool.not_false, if_true, List.map_cons]
          rw [ih]

/-- The mirror takes the events that concern it and are not skipped. -/
theorem taken_eq (events : List Event) :
    (if dispatcher.adapterHandlesMirror then
      unskipped events (dispatcher.computeAdapterSkip events
        (events.map (dispatcher.stageSkips scene)))
    else (unskipped events (events.map (dispatcher.stageSkips scene))).filter
      fun event => event.kind.stageSync) =
      (dispatcher.mirrorEvents events).filter (dispatcher.takes scene) := by
  unfold mirrorEvents takes
  cases dispatcher.adapterHandlesMirror with
  | true =>
      have flags : dispatcher.computeAdapterSkip events
          (events.map (dispatcher.stageSkips scene)) =
          events.map fun event => dispatcher.stageSkips scene event &&
            event.kind != .setVariantSelections &&
              dispatcher.hasImportedChildren (event.prim.getD []) := by
        unfold computeAdapterSkip
        rw [List.zipWith_map_right, List.zipWith_self]
      rw [if_pos rfl, if_pos rfl, flags, unskipped_map]
      apply List.filter_congr
      intro event _
      rw [Bool.not_true, Bool.false_or, Bool.and_assoc]
  | false =>
      rw [if_neg Bool.false_ne_true, if_neg Bool.false_ne_true, unskipped_map,
        List.filter_filter, List.filter_filter]
      apply List.filter_congr
      intro event _
      rw [Bool.not_false, Bool.true_or, Bool.and_true, Bool.and_comm]

/-! ### The whole batch -/

/-- The scene in which the first event has its turn. -/
def start (scene : Scene) : Scene :=
  Scene.exec .clearOps (Scene.exec (.mark none) scene)

theorem exec_expireOps_of_empty {destroyed : ScenePath → Bool}
    (empty : scene.opCache = fun _ => none) :
    Scene.exec (.expireOps destroyed) scene = scene := by
  apply Scene.ext
  · rfl
  · rfl
  · rfl
  · funext prim
    simp only [Scene.exec]
    rw [empty]
    simp
  · rfl
  · rfl

theorem atRest_start : (start scene).AtRest dispatcher.usd dispatcher.target :=
  ⟨rfl, exec_expireOps_of_empty rfl⟩

/-- In the application of all events, every skipped event finds at its turn what it would author, or
targets an instance proxy. -/
def Undisturbed (dispatcher : FlatDispatcher) (scene : Scene) (events : List Event) : Prop :=
  ∀ sooner event later,
    applicationOrder [] (dispatcher.mirrorEvents events) = sooner ++ event :: later →
    dispatcher.Skipped scene event →
    (sooner.forM (applyAtTurn dispatcher.usd dispatcher.target)).result (start scene) = .ok () →
    let now := (sooner.forM (applyAtTurn dispatcher.usd dispatcher.target)).after (start scene)
    isInstanceProxyTarget dispatcher.usd (now.stage dispatcher.target) event = true ∨
      dispatcher.AlreadyAuthored now event

/-- `_validate_spec_events` on one event. -/
def validateEvent (usd : Usd) (event : Event) : SceneEdit Unit :=
  match event with
  | .setSdfSpecFields delta =>
      match validateSpecDelta usd delta with
      | some error => Edit.raise error
      | none => pure ()
  | _ => pure ()

theorem after_forM_validateEvent {usd : Usd} :
    (events.forM (validateEvent usd)).after scene = scene := by
  induction events with
  | nil => rfl
  | cons event rest ih =>
      have own : (validateEvent usd event).after scene = scene := by
        unfold validateEvent
        split
        · split <;> rfl
        · rfl
      cases outcome : (validateEvent usd event).result scene with
      | error error => exact (Edit.after_bind_of_error outcome).trans own
      | ok value =>
          rw [Edit.after_forM_cons outcome, own]
          exact ih

theorem applyEventsAfresh_eq (events : List Event) :
    dispatcher.applyEventsAfresh events scene =
      (.mark none :: .clearOps :: (events.forM (validateEvent dispatcher.usd) >>= fun _ =>
          (applicationOrder [] events).forM
            (applyAtTurn dispatcher.usd dispatcher.target)).edits (start scene),
        (events.forM (validateEvent dispatcher.usd) >>= fun _ =>
          (applicationOrder [] events).forM
            (applyAtTurn dispatcher.usd dispatcher.target)).result (start scene)) := by
  have free : ∀ event ∈ ([] : List Event), event.isBarrier = false :=
    fun event member => absurd member List.not_mem_nil
  have program : applyEvents dispatcher.usd dispatcher.target events false =
      (events.forM (validateEvent dispatcher.usd) >>= fun _ =>
        (applicationOrder [] events).forM (applyAtTurn dispatcher.usd dispatcher.target)) := by
    rw [← applyEventsLoop_eq_forM events free]
    rfl
  rw [← program]
  rfl

theorem result_applyEventsAfresh (events : List Event) :
    (dispatcher.applyEventsAfresh events).result scene =
      (events.forM (validateEvent dispatcher.usd) >>= fun _ =>
        (applicationOrder [] events).forM
          (applyAtTurn dispatcher.usd dispatcher.target)).result (start scene) := by
  unfold Edit.result
  rw [applyEventsAfresh_eq events]
  rfl

theorem after_applyEventsAfresh (events : List Event) :
    (dispatcher.applyEventsAfresh events).after scene =
      (events.forM (validateEvent dispatcher.usd) >>= fun _ =>
        (applicationOrder [] events).forM
          (applyAtTurn dispatcher.usd dispatcher.target)).after (start scene) := by
  unfold Edit.after Edit.edits
  rw [applyEventsAfresh_eq events]
  rfl

/-- Leaving out the skipped events changes neither the result nor the scene. -/
theorem applyEventsAfresh_taken (undisturbed : dispatcher.Undisturbed scene events) :
    (dispatcher.applyEventsAfresh
        ((dispatcher.mirrorEvents events).filter (dispatcher.takes scene))).result scene =
        (dispatcher.applyAll events).result scene ∧
      (dispatcher.applyEventsAfresh
        ((dispatcher.mirrorEvents events).filter (dispatcher.takes scene))).after scene =
        (dispatcher.applyAll events).after scene := by
  unfold applyAll
  unfold Undisturbed at undisturbed
  generalize dispatcher.mirrorEvents events = mirrored at undisturbed ⊢
  have arcs : ∀ event, dispatcher.takes scene event = false → event.kind.arc = true :=
    fun event left => (skipped_of_not_takes left).1
  have order : applicationOrder [] (mirrored.filter (dispatcher.takes scene)) =
      (applicationOrder [] mirrored).filter (dispatcher.takes scene) := by
    apply @applicationOrder_filter _ []
    · intro event _ barrier
      by_contra left
      have arc := arcs event (by simpa using left)
      cases event with
      | setReference prim state => cases barrier
      | setPayload prim state => cases barrier
      | setVariantSelections prim selections => cases barrier
      | _ => cases arc
    · intro event _ creates
      by_contra left
      have arc := arcs event (by simpa using left)
      cases event with
      | setReference prim state => cases creates
      | setPayload prim state => cases creates
      | setVariantSelections prim selections => cases creates
      | _ => cases arc
  have validation : ((mirrored.filter (dispatcher.takes scene)).forM
        (validateEvent dispatcher.usd)).result (start scene) =
        (mirrored.forM (validateEvent dispatcher.usd)).result (start scene) ∧
      ((mirrored.filter (dispatcher.takes scene)).forM
        (validateEvent dispatcher.usd)).after (start scene) =
        (mirrored.forM (validateEvent dispatcher.usd)).after (start scene) := by
    apply Edit.forM_filter_of_idle
    intro sooner event later _ left _
    have arc := arcs event left
    cases event with
    | setReference prim state => exact ⟨rfl, rfl⟩
    | setPayload prim state => exact ⟨rfl, rfl⟩
    | setVariantSelections prim selections => exact ⟨rfl, rfl⟩
    | _ => cases arc
  have turns : (((applicationOrder [] mirrored).filter (dispatcher.takes scene)).forM
        (applyAtTurn dispatcher.usd dispatcher.target)).result (start scene) =
        ((applicationOrder [] mirrored).forM
          (applyAtTurn dispatcher.usd dispatcher.target)).result (start scene) ∧
      (((applicationOrder [] mirrored).filter (dispatcher.takes scene)).forM
        (applyAtTurn dispatcher.usd dispatcher.target)).after (start scene) =
        ((applicationOrder [] mirrored).forM
          (applyAtTurn dispatcher.usd dispatcher.target)).after (start scene) := by
    apply Edit.forM_filter_of_idle
    intro sooner event later split left returned
    have skipped := skipped_of_not_takes left
    exact idle_applyAtTurn (atRest_forM atRest_start returned) skipped.1
      (undisturbed sooner event later split skipped returned)
  rw [result_applyEventsAfresh, result_applyEventsAfresh, after_applyEventsAfresh,
    after_applyEventsAfresh, order]
  cases outcome : (mirrored.forM (validateEvent dispatcher.usd)).result (start scene) with
  | error error =>
      have same := validation.1.trans outcome
      rw [Edit.result_bind_of_error outcome, Edit.result_bind_of_error same,
        Edit.after_bind_of_error outcome, Edit.after_bind_of_error same]
      exact ⟨rfl, validation.2⟩
  | ok value =>
      have same := validation.1.trans outcome
      rw [Edit.result_bind_of_ok outcome, Edit.result_bind_of_ok same,
        Edit.after_bind_of_ok outcome, Edit.after_bind_of_ok same, after_forM_validateEvent,
        after_forM_validateEvent]
      exact turns

theorem sameArcs_of_stage {first second : Scene} (layers : first.layers = second.layers)
    (stage : first.stage dispatcher.target = second.stage dispatcher.target) :
    dispatcher.SameArcs first second := by
  constructor
  · intro prim
    rw [layers]
  · intro prim
    rw [layers]
  · intro prim
    rw [stage]

/-- What `_apply` does to the mirror, with the events it keeps. -/
theorem applyBatch_eq (valid : ∀ event ∈ events, event.ValidArcs) :
    dispatcher.applyBatch events scene =
      (if (dispatcher.mirrorEvents events).filter (dispatcher.takes scene) = [] then pure ()
        else if dispatcher.adapterHandlesMirror then
          dispatcher.applyEventsAfresh
            ((dispatcher.mirrorEvents events).filter (dispatcher.takes scene))
        else
          dispatcher.atomicApply
            (atomicApplyPrimPaths ((dispatcher.mirrorEvents events).filter
              (dispatcher.takes scene)))
            (dispatcher.applyEventsAfresh
              ((dispatcher.mirrorEvents events).filter (dispatcher.takes scene))) :
          SceneEdit Unit) scene := by
  unfold applyBatch
  rw [Edit.look_bind, computeStageSkip_eq valid, ← taken_eq events]
  dsimp only
  cases dispatcher.adapterHandlesMirror with
  | true => rfl
  | false => rfl

/-- A mirror over a single layer, with a native adapter. -/
def plainDispatcher : FlatDispatcher where
  usd := .plain {}
  variantSets := fun _ _ => .empty
  target := "mirror"
  adapterHandlesMirror := false
  hasImportedChildren := fun _ => false

/-- One reference to an asset. -/
def referenceTo (asset : String) : ArcState :=
  { entries := [{ assetPath := asset }] }

/-- The prim `/X` references `a.usd`. -/
def referencingScene : Scene where
  layers := fun _ =>
    (LayerEdit.author ⟨[.child "X"], none⟩ .prim (.info "references")
      (.arcs false (referenceTo "a.usd").items)).apply .empty

/-- The reference is replaced and then set back. -/
def restoringBatch : List Event :=
  [.setReference ["X"] (referenceTo "b.usd"), .setReference ["X"] (referenceTo "a.usd")]

end FlatDispatcher

end UsdConnect
