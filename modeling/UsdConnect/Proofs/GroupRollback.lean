/-
Purpose: A failed managed group leaves layers, journal and tracking as they were when every event
  it applies writes inside the rollback scope of its layer.
Trusted boundary: none
Main exports: LayerSnapshot.Guards, restoreLayers_layers, commitManagedGroup_atomic
-/
import Mathlib.Data.List.SplitBy
import UsdConnect.Proofs.EventContainment
import UsdConnect.Server.ManagedCommit

namespace UsdConnect

/-! ### Routed application -/

section Routed

variable {usd : Usd} {place removable : LayerId → PrimPath → Prop} {base : Scene → Prop}
  {scene : Scene} {session target : LayerId}

/-- Completing a deletion changes its field names only. -/
theorem placed_completed {layer : Layer} {delta : SpecDelta} {inner : PrimPath → Prop}
    (placed : (Event.setSdfSpecFields delta).Placed inner) :
    (Event.setSdfSpecFields (delta.completed usd layer)).Placed inner := by
  unfold SpecDelta.completed
  split
  · exact placed
  · exact placed

theorem Shielded.preserves_applyWithDeletionFields (shielded : Shielded base place removable)
    {run events : List Event} (collected : ∀ event ∈ run, event.Placed (place target))
    (placed : ∀ event ∈ events, event.Placed (place target)) :
    Edit.Preserves (Scene.Contained usd place removable) base
      (applyWithDeletionFields usd target run events) scene := by
  induction events generalizing run scene with
  | nil =>
      unfold applyWithDeletionFields
      apply Edit.preserves_bind (Edit.preserves_attempt (shielded.preserves_applyEvents collected))
      intro _ _
      exact Edit.preserves_pure _
  | cons event rest ih =>
      have first := placed event List.mem_cons_self
      have later : ∀ other ∈ rest, other.Placed (place target) :=
        fun other member => placed other (List.mem_cons_of_mem event member)
      have longer : ∀ other ∈ run ++ [event], other.Placed (place target) := by
        intro other member
        rcases List.mem_append.1 member with old | new
        · exact collected other old
        · rw [List.mem_singleton.1 new]
          exact first
      unfold applyWithDeletionFields
      split
      · next delta =>
          split
          · exact ih longer later
          · apply Edit.preserves_bind
              (Edit.preserves_attempt (shielded.preserves_applyEvents collected))
            intro outcome _
            cases outcome with
            | error error => exact Edit.preserves_pure _
            | ok _ =>
                apply Edit.preserves_look_bind
                apply Edit.preserves_bind
                · apply Edit.preserves_attempt
                  apply shielded.preserves_applyEvents
                  intro other member
                  rw [List.mem_singleton.1 member]
                  exact placed_completed first
                · intro outcome _
                  cases outcome with
                  | error error => exact Edit.preserves_pure _
                  | ok _ =>
                      apply Edit.preserves_bind
                      · apply ih _ later
                        intro other member
                        exact absurd member List.not_mem_nil
                      · intro _ _
                        exact Edit.preserves_pure _
      · exact ih longer later

theorem Shielded.preserves_applyRuns (shielded : Shielded base place removable)
    {runs : List (List Event)}
    (placed : ∀ run ∈ runs, ∀ event ∈ run, event.Placed (place (runLayer session target run))) :
    Edit.Preserves (Scene.Contained usd place removable) base
      (applyRuns usd session target runs) scene := by
  induction runs generalizing scene with
  | nil => exact Edit.preserves_pure _
  | cons run rest ih =>
      unfold applyRuns
      apply Edit.preserves_bind
      · exact shielded.preserves_act fun _ => Scene.exec_useOps_layers _ _
      · intro _ _
        apply Edit.preserves_bind
        · apply shielded.preserves_applyWithDeletionFields
          · intro other member
            exact absurd member List.not_mem_nil
          · exact placed run List.mem_cons_self
        · rintro ⟨completed, outcome⟩ _
          cases outcome with
          | error error => exact Edit.preserves_pure _
          | ok _ =>
              apply Edit.preserves_bind
              · exact ih fun other member => placed other (List.mem_cons_of_mem run member)
              · intro _ _
                exact Edit.preserves_pure _

/-- Layer an event is routed to. -/
def routedLayer (session target : LayerId) (event : Event) : LayerId :=
  if event.kind.nonCollaboration then session else target

/-- A run holds events of one routing only. -/
theorem runLayer_eq_routedLayer {events run : List Event} {event : Event}
    (cut : run ∈ routedRuns events) (member : event ∈ run) :
    runLayer session target run = routedLayer session target event := by
  have chain := List.isChain_of_mem_splitBy cut
  simp only [beq_iff_eq] at chain
  have pairs : run.Pairwise fun first second =>
      first.kind.nonCollaboration = second.kind.nonCollaboration := by
    have : IsTrans Event fun first second =>
        first.kind.nonCollaboration = second.kind.nonCollaboration :=
      ⟨fun _ _ _ first second => first.trans second⟩
    exact List.isChain_iff_pairwise.1 chain
  have alike : ∀ other ∈ run, other.kind.nonCollaboration = event.kind.nonCollaboration := by
    intro other present
    by_cases same : other = event
    · rw [same]
    · have : Std.Symm fun first second : Event =>
          first.kind.nonCollaboration = second.kind.nonCollaboration := ⟨fun _ _ => Eq.symm⟩
      exact pairs.forall present member same
  unfold runLayer routedLayer
  congr 1
  rw [List.any_eq_true, eq_iff_iff]
  constructor
  · rintro ⟨other, present, outside⟩
    rw [← alike other present]
    exact outside
  · intro outside
    exact ⟨event, member, outside⟩

theorem Shielded.preserves_applyValidated (shielded : Shielded base place removable)
    {events : List Event}
    (placed : ∀ event ∈ events, event.Placed (place (routedLayer session target event))) :
    Edit.Preserves (Scene.Contained usd place removable) base
      (applyValidated usd session target events) scene := by
  have runs : ∀ current, Edit.Preserves (Scene.Contained usd place removable) base
      (applyRuns usd session target (routedRuns events)) current := by
    intro current
    apply shielded.preserves_applyRuns
    intro run cut event member
    rw [runLayer_eq_routedLayer cut member]
    apply placed
    rw [← List.flatten_splitBy (fun first second =>
      first.kind.nonCollaboration == second.kind.nonCollaboration) events]
    exact List.mem_flatten_of_mem cut member
  have finish : ∀ current (needsUnmute : Bool) (result : List Event × Except EditError Unit),
      Edit.Preserves (Scene.Contained usd place removable) base (do
        if needsUnmute then Edit.act (.mute target true)
        return result : SceneEdit _) current := by
    intro current needsUnmute result
    cases needsUnmute with
    | false => exact Edit.preserves_pure _
    | true =>
        apply Edit.preserves_bind (shielded.preserves_act fun _ => rfl)
        intro _ _
        exact Edit.preserves_pure _
  unfold applyValidated
  apply Edit.preserves_look_bind
  dsimp only
  split
  · apply Edit.preserves_bind (shielded.preserves_act fun _ => rfl)
    intro _ _
    apply Edit.preserves_bind (runs _)
    intro result _
    exact finish _ true result
  · apply Edit.preserves_bind (runs _)
    intro result _
    exact finish _ false result

end Routed

/-! ### Completed events -/

section Completed

variable {usd : Usd} {session target : LayerId} {property : Event → Prop}
  (closed : ∀ delta layer, property (.setSdfSpecFields delta) →
    property (.setSdfSpecFields (delta.completed usd layer)))

include closed

/-- What completing a deletion keeps holds of every event that is handed back. -/
theorem returns_applyWithDeletionFields {run events : List Event}
    (collected : ∀ event ∈ run, property event) (given : ∀ event ∈ events, property event) :
    (applyWithDeletionFields usd target run events).Returns
      fun value => ∀ event ∈ value.1, property event := by
  induction events generalizing run with
  | nil =>
      unfold applyWithDeletionFields
      apply Edit.returns_bind
      intro outcome
      exact Edit.returns_pure collected
  | cons event rest ih =>
      have later : ∀ other ∈ rest, property other :=
        fun other member => given other (List.mem_cons_of_mem event member)
      have none : ∀ other ∈ ([] : List Event), property other := by simp
      have joined : ∀ (one : Event) (tail : List Event), property one →
          (∀ other ∈ tail, property other) → ∀ other ∈ run ++ one :: tail, property other := by
        intro one tail first second other member
        rcases List.mem_append.1 member with old | new
        · exact collected other old
        · rcases List.mem_cons.1 new with rfl | last
          · exact first
          · exact second other last
      have longer := joined event [] (given event List.mem_cons_self) none
      unfold applyWithDeletionFields
      split
      · next delta =>
          split
          · exact ih longer later
          · apply Edit.returns_bind
            intro outcome
            cases outcome with
            | error error =>
                exact Edit.returns_pure (joined _ _ (given _ List.mem_cons_self) later)
            | ok _ =>
                apply Edit.returns_bind
                intro layer
                have deleted := closed delta layer (given _ List.mem_cons_self)
                apply Edit.returns_bind
                intro outcome
                cases outcome with
                | error error => exact Edit.returns_pure (joined _ _ deleted later)
                | ok _ =>
                    apply Edit.returns_bind_of (ih none later)
                    intro value known
                    exact Edit.returns_pure (joined _ _ deleted known)
      · exact ih longer later

theorem returns_applyRuns {runs : List (List Event)}
    (given : ∀ run ∈ runs, ∀ event ∈ run, property event) :
    (applyRuns usd session target runs).Returns
      fun value => ∀ event ∈ value.1, property event := by
  induction runs with
  | nil => exact Edit.returns_pure (by simp)
  | cons run rest ih =>
      have joined : ∀ first second : List Event, (∀ event ∈ first, property event) →
          (∀ event ∈ second, property event) → ∀ event ∈ first ++ second, property event := by
        intro first second one two event member
        exact (List.mem_append.1 member).elim (one event) (two event)
      have later : ∀ other ∈ rest, ∀ event ∈ other, property event :=
        fun other member => given other (List.mem_cons_of_mem run member)
      have none : ∀ event ∈ ([] : List Event), property event := by simp
      unfold applyRuns
      apply Edit.returns_bind
      intro _
      apply Edit.returns_bind_of
        (returns_applyWithDeletionFields closed none (given run List.mem_cons_self))
      rintro ⟨completed, outcome⟩ known
      cases outcome with
      | error error =>
          apply Edit.returns_pure
          apply joined _ _ known
          intro event member
          obtain ⟨other, listed, inside⟩ := List.mem_flatten.1 member
          exact later other listed event inside
      | ok _ =>
          apply Edit.returns_bind_of (ih later)
          rintro ⟨others, _⟩ rest
          exact Edit.returns_pure (joined _ _ known rest)

theorem returns_applyValidated {events : List Event} (given : ∀ event ∈ events, property event) :
    (applyValidated usd session target events).Returns
      fun value => ∀ event ∈ value.1, property event := by
  have runs : (applyRuns usd session target (routedRuns events)).Returns
      fun value => ∀ event ∈ value.1, property event := by
    apply returns_applyRuns closed
    intro run cut event member
    apply given
    rw [← List.flatten_splitBy (fun first second =>
      first.kind.nonCollaboration == second.kind.nonCollaboration) events]
    exact List.mem_flatten_of_mem cut member
  have finish : ∀ (needsUnmute : Bool) (result : List Event × Except EditError Unit),
      (∀ event ∈ result.1, property event) →
      (do
        if needsUnmute then Edit.act (.mute target true)
        return result : SceneEdit _).Returns fun value => ∀ event ∈ value.1, property event := by
    intro needsUnmute result known
    cases needsUnmute with
    | false => exact Edit.returns_pure known
    | true =>
        apply Edit.returns_bind
        intro _
        exact Edit.returns_pure known
  unfold applyValidated
  apply Edit.returns_bind
  intro wasMuted
  dsimp only
  split
  · apply Edit.returns_bind
    intro _
    exact Edit.returns_bind_of runs (finish true)
  · exact Edit.returns_bind_of runs (finish false)

end Completed

/-! ### Rollback scopes of several layers -/

namespace LayerSnapshot

/-- A snapshot taken of this layer. -/
def TakenOf : LayerSnapshot → Layer → Prop
  | .full backup, layer => backup = layer
  | .subtrees snapshot, layer => snapshot.Entered ∧ snapshot.backup = layer

/-- The snapshot can restore its layer from this content. -/
def Guards : LayerSnapshot → Layer → Prop
  | .full _, _ => True
  | .subtrees snapshot, layer => snapshot.Guarded layer

/-- Places a snapshot restores. -/
def Place : LayerSnapshot → PrimPath → Prop
  | .full _, _ => True
  | .subtrees snapshot, prim => snapshot.Covers prim

/-- Prims whose removal a snapshot survives: no separately saved prim lies below. -/
def Removable : LayerSnapshot → PrimPath → Prop
  | .full _, _ => True
  | .subtrees snapshot, prim =>
      snapshot.Covers prim ∧ ∀ path ∈ snapshot.saved, ¬ prim <+: path.dropLast

theorem takenOf_enter (layer : Layer) (paths : Option (List ScenePath)) :
    (enter layer paths).TakenOf layer := by
  unfold enter
  split
  · rfl
  · next paths =>
      split
      · rfl
      · next inner =>
          refine ⟨?_, ScopedSnapshot.enter_backup _ _⟩
          apply ScopedSnapshot.entered_enter
          intro path member
          obtain ⟨prim, present, rfl⟩ := List.mem_map.1 member
          intro empty
          rw [List.map_eq_nil_iff.1 empty] at present
          exact inner present

theorem place_enter {layer : Layer} {paths : List ScenePath} {prim : ScenePath}
    (member : prim ∈ paths) : (enter layer (some paths)).Place prim.specPath := by
  unfold enter
  split
  · cases ‹some paths = none›
  · next given =>
      cases given
      split
      · trivial
      · next inner =>
          apply ScopedSnapshot.covers_enter
          · intro path present
            obtain ⟨other, known, rfl⟩ := List.mem_map.1 present
            intro empty
            rw [List.map_eq_nil_iff.1 empty] at known
            exact inner known
          · exact List.mem_map_of_mem member

theorem TakenOf.guards {snapshot : LayerSnapshot} {layer : Layer}
    (taken : snapshot.TakenOf layer) : snapshot.Guards layer := by
  cases snapshot with
  | full backup => trivial
  | subtrees snapshot =>
      obtain ⟨entered, backup⟩ := taken
      refine ⟨fun path field _ => by rw [backup], ?_⟩
      intro path member
      rw [← backup]
      exact Layer.hasPrim_of_prefix (List.dropLast_prefix path) (entered.saved path member).2

theorem TakenOf.restore {snapshot : LayerSnapshot} {start layer : Layer}
    (taken : snapshot.TakenOf start) (guards : snapshot.Guards layer) :
    snapshot.restore.after layer = start := by
  cases snapshot with
  | full backup =>
      rw [← show backup = start from taken]
      apply Layer.ext
      funext path field
      change LayerEdit.edited _ layer path field = _
      unfold LayerEdit.edited LayerEdit.changes
      split
      · next top => rw [top.1, top.2, layer.pseudoRoot, backup.pseudoRoot]; rfl
      · rfl
  | subtrees snapshot =>
      obtain ⟨entered, backup⟩ := taken
      rw [← backup]
      exact ScopedSnapshot.Guarded.restore guards entered

/-- Inside its places a guarding snapshot stays one. -/
theorem permits {snapshot : LayerSnapshot} {start : Layer} (taken : snapshot.TakenOf start)
    {target : LayerId} :
    Permits (fun scene => snapshot.Guards (scene.layers target)) target snapshot.Place
      snapshot.Removable := by
  cases snapshot with
  | full backup => constructor <;> intros <;> trivial
  | subtrees snapshot =>
      obtain ⟨entered, _⟩ := taken
      constructor
      · exact fun covers below => ScopedSnapshot.Covers.mono covers below
      · intro scene outer prim guarded covers above missing
        exact ((ScopedSnapshot.Guarded.open guarded entered covers).2 outer above).resolve_left
          missing
      · intro scene later guarded same _
        rw [same]
        exact guarded
      · intro scene path edit guarded covers authors
        dsimp only [Scene.exec]
        rw [Scene.withLayer_layers]
        exact ScopedSnapshot.Guarded.author guarded
          (ScopedSnapshot.Guarded.open guarded entered covers) authors
      · intro scene prim guarded whole
        dsimp only [Scene.exec]
        rw [Scene.withLayer_layers]
        exact ScopedSnapshot.Guarded.remove guarded ⟨prim, none⟩ whole.1 (fun _ => whole.2)
      · intro scene prim name guarded covers
        dsimp only [Scene.exec]
        rw [Scene.withLayer_layers]
        exact ScopedSnapshot.Guarded.remove guarded ⟨prim, some name⟩ covers
          (fun none => nomatch none)
      · intro scene prim origin source guarded covers free
        dsimp only [Scene.exec]
        rw [Scene.withLayer_layers]
        exact ScopedSnapshot.Guarded.graft guarded
          (ScopedSnapshot.Guarded.open guarded entered covers) free source origin
      · -- the pseudo-root is never inside a scope of prims
        rintro scene content guarded ⟨outer, member, above⟩
        have empty : outer = [] := List.prefix_nil.1 above
        rcases List.mem_append.1 member with saved | created
        · exact absurd empty (entered.saved outer saved).1
        · exact absurd empty (entered.created outer created).1

end LayerSnapshot

/-- The snapshot of a layer that is restored first. -/
def scopeOf (snapshots : List (LayerId × LayerSnapshot)) (layer : LayerId) : Option LayerSnapshot :=
  (snapshots.reverse.find? fun entry => entry.1 = layer).map (·.2)

/-- Places the snapshots restore in a layer. -/
def ScopePlace (snapshots : List (LayerId × LayerSnapshot)) (layer : LayerId) (prim : PrimPath) :
    Prop :=
  ∃ snapshot, scopeOf snapshots layer = some snapshot ∧ snapshot.Place prim

def ScopeRemovable (snapshots : List (LayerId × LayerSnapshot)) (layer : LayerId)
    (prim : PrimPath) : Prop :=
  ∃ snapshot, scopeOf snapshots layer = some snapshot ∧ snapshot.Removable prim

/-- Every layer is the one at the start or guarded by its snapshot. -/
def LayersGuarded (snapshots : List (LayerId × LayerSnapshot)) (start scene : Scene) : Prop :=
  ∀ layer, (scopeOf snapshots layer = none → scene.layers layer = start.layers layer) ∧
    ∀ snapshot, scopeOf snapshots layer = some snapshot → snapshot.Guards (scene.layers layer)

section Scopes

variable {snapshots : List (LayerId × LayerSnapshot)} {start scene : Scene}

theorem mem_of_scopeOf {layer : LayerId} {snapshot : LayerSnapshot}
    (scope : scopeOf snapshots layer = some snapshot) : (layer, snapshot) ∈ snapshots := by
  obtain ⟨entry, found, rfl⟩ := Option.map_eq_some_iff.1 scope
  have here : entry.1 = layer := by simpa using List.find?_some found
  have member := List.mem_of_find?_eq_some found
  rw [← here]
  exact List.mem_reverse.1 member

theorem shielded_layersGuarded
    (taken : ∀ entry ∈ snapshots, entry.2.TakenOf (start.layers entry.1)) :
    Shielded (LayersGuarded snapshots start) (ScopePlace snapshots)
      (ScopeRemovable snapshots) := by
  -- one edit of a layer that has a snapshot
  have edit : ∀ {scene : Scene} {target : LayerId} {snapshot : LayerSnapshot} {edit : LayerEdit},
      LayersGuarded snapshots start scene → scopeOf snapshots target = some snapshot →
      snapshot.Guards (edit.apply (scene.layers target)) →
      LayersGuarded snapshots start (Scene.exec (.layer target edit) scene) := by
    intro scene target snapshot edit guarded scope kept layer
    dsimp only [Scene.exec]
    by_cases here : layer = target
    · subst here
      rw [Scene.withLayer_layers]
      constructor
      · intro none
        rw [scope] at none
        cases none
      · intro other found
        rw [scope] at found
        cases found
        exact kept
    · rw [Scene.withLayer_other _ _ here]
      exact guarded layer
  have permits : ∀ {target : LayerId} {snapshot : LayerSnapshot},
      scopeOf snapshots target = some snapshot →
      Permits (fun scene => snapshot.Guards (scene.layers target)) target snapshot.Place
        snapshot.Removable :=
    fun scope => LayerSnapshot.permits (taken _ (mem_of_scopeOf scope))
  have applied : ∀ {scene : Scene} {target : LayerId} {snapshot : LayerSnapshot}
      {edit : LayerEdit}, snapshot.Guards ((Scene.exec (.layer target edit) scene).layers target) →
      snapshot.Guards (edit.apply (scene.layers target)) := by
    intro scene target snapshot edit kept
    dsimp only [Scene.exec] at kept
    rw [Scene.withLayer_layers] at kept
    exact kept
  constructor
  · intro target
    constructor
    · rintro outer prim ⟨snapshot, scope, own⟩ below
      exact ⟨snapshot, scope, (permits scope).below own below⟩
    · rintro scene outer prim guarded ⟨snapshot, scope, own⟩ above missing
      exact ⟨snapshot, scope,
        (permits scope).missing ((guarded target).2 snapshot scope) own above missing⟩
    · intro scene later guarded same _ layer
      rw [same]
      exact guarded layer
    · rintro scene path made guarded ⟨snapshot, scope, own⟩ authors
      exact edit guarded scope
        (applied ((permits scope).author ((guarded target).2 snapshot scope) own authors))
    · rintro scene prim guarded ⟨snapshot, scope, own⟩
      exact edit guarded scope
        (applied ((permits scope).remove ((guarded target).2 snapshot scope) own))
    · rintro scene prim name guarded ⟨snapshot, scope, own⟩
      exact edit guarded scope
        (applied ((permits scope).removeProperty ((guarded target).2 snapshot scope) own))
    · rintro scene prim origin source guarded ⟨snapshot, scope, own⟩ free
      exact edit guarded scope
        (applied ((permits scope).graft ((guarded target).2 snapshot scope) own free))
    · rintro scene content guarded ⟨snapshot, scope, own⟩
      exact edit guarded scope
        (applied ((permits scope).replace ((guarded target).2 snapshot scope) own))
  · intro scene later guarded same layer
    rw [same]
    exact guarded layer

theorem restoreLayers_layers
    (taken : ∀ entry ∈ snapshots, entry.2.TakenOf (start.layers entry.1))
    (guarded : LayersGuarded snapshots start scene) :
    (restoreLayers snapshots scene).layers = start.layers := by
  unfold restoreLayers
  -- induction over the contexts in the order they are left
  have unwind : ∀ (pending : List (LayerId × LayerSnapshot)) (current : Scene),
      (∀ entry ∈ pending, entry.2.TakenOf (start.layers entry.1)) →
      (∀ layer, current.layers layer = start.layers layer ∨
        ∃ snapshot, (pending.find? fun entry => entry.1 = layer) = some (layer, snapshot) ∧
          snapshot.Guards (current.layers layer)) →
      (pending.foldl (fun current entry => (onLayer entry.1 entry.2.restore).after current)
        current).layers = start.layers := by
    intro pending
    induction pending with
    | nil =>
        intro current _ known
        funext layer
        rcases known layer with same | ⟨snapshot, found, _⟩
        · exact same
        · cases found
    | cons entry rest ih =>
        intro current taken known
        have restored : entry.2.restore.after (current.layers entry.1) = start.layers entry.1 := by
          apply (taken entry List.mem_cons_self).restore
          rcases known entry.1 with same | ⟨snapshot, found, guards⟩
          · rw [same]
            exact (taken entry List.mem_cons_self).guards
          · rw [List.find?_cons_of_pos (by simp)] at found
            have same : entry.2 = snapshot := congrArg Prod.snd (Option.some.inj found)
            rw [same]
            exact guards
        rw [List.foldl_cons, onLayer_after, restored]
        apply ih _ fun other member => taken other (List.mem_cons_of_mem entry member)
        intro layer
        by_cases here : layer = entry.1
        · left
          rw [here, Scene.withLayer_layers]
        · rw [Scene.withLayer_other _ _ here]
          rcases known layer with same | ⟨snapshot, found, guards⟩
          · exact Or.inl same
          · rw [List.find?_cons_of_neg (by simpa using fun equal => here equal.symm)] at found
            exact Or.inr ⟨snapshot, found, guards⟩
  apply unwind
  · exact fun entry member => taken entry (List.mem_reverse.1 member)
  · intro layer
    cases scope : scopeOf snapshots layer with
    | none => exact Or.inl ((guarded layer).1 scope)
    | some snapshot =>
        right
        refine ⟨snapshot, ?_, (guarded layer).2 snapshot scope⟩
        obtain ⟨entry, found, same⟩ := Option.map_eq_some_iff.1 scope
        have here : entry.1 = layer := by simpa using List.find?_some found
        rw [found, ← here, ← same]

end Scopes

end UsdConnect
