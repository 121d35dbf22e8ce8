/-
Purpose: Exact spec transport over whole runs.  As long as the builds are traceable, every spec that
  was ever sent is on the mirror as it is at the source, and the emitter lists exactly these specs.
Trusted boundary: none
Main exports: SpecSession.tracks_build, SpecSession.inStep_of_traceable
-/
import UsdConnect.Proofs.SpecBuilds

namespace UsdConnect

variable {rules : SpecRules} {usd : Usd}

namespace SpecSession

variable {session : SpecSession}

/-! ### What a build remembers -/

section Build

variable {key : SpecKey} {name : String}

/-- What a build remembers of a spec. -/
def builtEntry (rules : SpecRules) (session : SpecSession) (key : SpecKey) :
    Option (List String) :=
  if key ∈ session.emitter.candidates session.source then
    session.emitter.visitEntry rules session.source key
  else session.emitter.sdfSpecFields.get? key

/-- Only specs of the source are remembered. -/
theorem present_of_builtEntry (traceable : session.Traceable rules)
    (entry : (builtEntry rules session key).isSome = true) :
    session.source.content.specKind key.path = some key.kind := by
  unfold builtEntry at entry
  by_contra gone
  split at entry
  · unfold SpecEmitter.visitEntry at entry
    rw [if_neg gone] at entry
    cases entry
  · next missed =>
      exact missed (SpecEmitter.candidate_of_sent (traceable.goneNoticed entry gone) entry)

/-- And exactly with their generic fields. -/
theorem mem_builtEntry (tracks : session.Tracks rules) (traceable : session.Traceable rules)
    {names : List String} (entry : builtEntry rules session key = some names) :
    name ∈ names ↔ name ∈ session.source.genericSdfFields rules key := by
  have present := present_of_builtEntry traceable (by rw [entry]; rfl)
  have accepted := session.source.standing _ _ present
  have generic := @SourceLayer.mem_genericSdfFields rules session.source key present name
  unfold builtEntry at entry
  split at entry
  · unfold SpecEmitter.visitEntry at entry
    rw [if_pos present] at entry
    dsimp only at entry
    split at entry
    · obtain rfl := Option.some.inj entry
      rw [List.mem_filter, decide_eq_true_iff]
      refine and_iff_right_of_imp fun member => ?_
      obtain ⟨covered, authored⟩ := generic.1 member
      rw [List.mem_append]
      by_cases same : session.mirror.fieldAs key name = session.source.content.fieldAs key name
      · left
        rw [tracks.mem_previous covered accepted, same]
        exact authored
      · exact .inr (mem_selectedFields tracks traceable present covered same)
    · cases entry
  · next missed =>
      rw [tracks.fields key names entry, generic]
      refine and_congr_right fun covered => ?_
      rw [agrees_of_not_candidate tracks present covered missed]

theorem genericSdfFields_of_builtEntry (tracks : session.Tracks rules)
    (traceable : session.Traceable rules)
    (present : session.source.content.specKind key.path = some key.kind)
    (entry : builtEntry rules session key = none) :
    session.source.genericSdfFields rules key = [] := by
  rw [List.eq_nil_iff_forall_not_mem]
  intro name member
  have accepted := session.source.standing _ _ present
  obtain ⟨covered, authored⟩ := (SourceLayer.mem_genericSdfFields present).1 member
  unfold builtEntry at entry
  split at entry
  · unfold SpecEmitter.visitEntry at entry
    rw [if_pos present] at entry
    dsimp only at entry
    split at entry
    · cases entry
    · next untracked =>
        rw [Bool.or_eq_true, not_or, Bool.not_eq_true, Bool.not_eq_false', List.isEmpty_iff]
          at untracked
        have none := List.filter_eq_nil_iff.1 untracked.1 name
        by_cases same : session.mirror.fieldAs key name = session.source.content.fieldAs key name
        · refine none (List.mem_append_left _ ?_) (decide_eq_true member)
          rw [tracks.mem_previous covered accepted, same]
          exact authored
        · exact none (List.mem_append_right _
            (mem_selectedFields tracks traceable present covered same)) (decide_eq_true member)
  · next missed =>
      apply authored
      rw [← agrees_of_not_candidate tracks present covered missed]
      exact tracks.unlisted key entry accepted name covered

theorem keyAt_eq_some {source : SourceLayer} {path : SpecPath} :
    source.keyAt path = some key ↔
      key.path = path ∧ source.content.specKind path = some key.kind := by
  unfold SourceLayer.keyAt
  rw [Option.map_eq_some_iff]
  constructor
  · rintro ⟨kind, found, rfl⟩
    exact ⟨rfl, found⟩
  · rintro ⟨rfl, found⟩
    exact ⟨key.kind, found, rfl⟩

/-- A visited spec of the source is sent when a field is selected, or its identity is due. -/
theorem mem_sentEvents (candidate : key ∈ session.emitter.candidates session.source)
    (present : session.source.content.specKind key.path = some key.kind)
    (due : SendsSpec rules session key) :
    fieldsEvent usd session.source key (session.emitter.selectedFields rules session.source key
        (session.emitter.sdfSpecFields.get? key)) ∈
      session.emitter.sentEvents rules usd session.source := by
  refine List.mem_flatMap.2 ⟨key, candidate, ?_⟩
  unfold SpecEmitter.visitEvents
  dsimp only
  rw [if_pos present, if_pos]
  · exact List.mem_singleton_self _
  · rcases due with selected | ⟨identity, fresh⟩
    · simp [selected]
    · simp [identity, fresh]

/-- The specs that a build sends. -/
theorem mem_sentKeys : key ∈ sentKeys session.source
      (session.emitter.batch rules usd session.source) ↔
    key ∈ session.emitter.candidates session.source ∧
      session.source.content.specKind key.path = some key.kind ∧
        SendsSpec rules session key := by
  unfold sentKeys
  rw [List.mem_filterMap]
  constructor
  · rintro ⟨delta, member, found⟩
    obtain ⟨listed, kept⟩ := List.mem_filter.1 member
    obtain ⟨other, candidate, present, due, rfl⟩ :=
      kept_of_mem (SpecEmitter.mem_sortEvents.1 listed) (by simpa using kept)
    obtain ⟨path, here⟩ := keyAt_eq_some.1 found
    have path : key.path = other.path := path
    have same : key = other := by
      have here : session.source.content.specKind other.path = some key.kind := here
      rw [present] at here
      rcases key with ⟨kind, keyPath⟩
      rcases other with ⟨otherKind, otherPath⟩
      dsimp only at path here
      rw [path, Option.some.inj here]
    rw [same]
    exact ⟨candidate, present, due⟩
  · rintro ⟨candidate, present, due⟩
    refine ⟨_, List.mem_filter.2 ⟨SpecEmitter.mem_sortEvents.2
      (mem_sentEvents candidate present due), rfl⟩, ?_⟩
    exact keyAt_eq_some.2 ⟨rfl, present⟩

theorem visitEntry_eq_none (present : session.source.content.specKind key.path = some key.kind)
    (candidate : key ∈ session.emitter.candidates session.source)
    (entry : builtEntry rules session key = none) :
    session.source.sdfSpecRequiresIdentity key = false := by
  unfold builtEntry SpecEmitter.visitEntry at entry
  rw [if_pos candidate, if_pos present] at entry
  dsimp only at entry
  split at entry
  · cases entry
  · next untracked =>
      rw [Bool.or_eq_true, not_or] at untracked
      simpa using untracked.2

theorem builtEntry_of_sent (tracks : session.Tracks rules) (traceable : session.Traceable rules)
    (present : session.source.content.specKind key.path = some key.kind)
    (sent : key ∈ session.everSent ∨ key ∈ sentKeys session.source
      (session.emitter.batch rules usd session.source)) :
    (builtEntry rules session key).isSome = true := by
  by_contra missing
  have entry := Option.not_isSome_iff_eq_none.1 missing
  have bare := genericSdfFields_of_builtEntry tracks traceable present entry
  have candidate : key ∈ session.emitter.candidates session.source := by
    rcases sent with before | now
    · by_contra missed
      unfold builtEntry at entry
      rw [if_neg missed] at entry
      exact missed (SpecEmitter.candidate_of_noticed
        (tracks.returned key before present entry) present)
    · exact (mem_sentKeys.1 now).1
  have plain := visitEntry_eq_none present candidate entry
  have kept := fun member => traceable.kept key member present
  rw [bare, plain] at kept
  by_cases before : key ∈ session.everSent
  · rcases kept (List.mem_append_left _ before) with nonempty | identity | fresh
    · exact nonempty rfl
    · cases identity
    · exact fresh.1 before
  · have unsent : session.emitter.sdfSpecFields.get? key = none := by
      by_contra listed
      exact before (tracks.listed key (Option.isSome_iff_ne_none.2 listed)).2
    have due := (mem_sentKeys.1 (sent.resolve_left before)).2.2
    unfold SendsSpec at due
    rw [plain, unsent] at due
    obtain ⟨name, selected⟩ := List.exists_mem_of_ne_nil _ (due.resolve_right (by simp))
    obtain ⟨origin, notTopology⟩ := SpecEmitter.of_mem_selectedFields selected
    -- the only reason left to send the spec is a cleared field that it never had
    rcases origin with generic | previous | ⟨names, marked, listed, cleared⟩
    · rw [bare] at generic
      cases generic
    · cases previous
    · have dirty : key ∈ session.emitter.dirtySdfSpecs.keys := by
        rw [OrderedDict.mem_keys_iff_isSome, marked]
        rfl
      rcases kept (List.mem_append_right _ dirty) with nonempty | identity | ⟨_, named⟩
      · exact nonempty rfl
      · cases identity
      · have either := named names (by rw [marked]; rfl) name listed
        exact either.elim cleared notTopology

theorem sent_of_builtEntry (traceable : session.Traceable rules)
    (entry : (builtEntry rules session key).isSome = true)
    (unsent : session.emitter.sdfSpecFields.get? key = none) :
    key ∈ session.emitter.candidates session.source ∧ SendsSpec rules session key := by
  have present := present_of_builtEntry traceable entry
  unfold builtEntry at entry
  split at entry
  · next candidate =>
      refine ⟨candidate, ?_⟩
      unfold SpecEmitter.visitEntry at entry
      rw [if_pos present, unsent] at entry
      dsimp only at entry
      unfold SendsSpec
      rw [unsent]
      split at entry
      · next tracked =>
          rcases Bool.or_eq_true_iff.1 tracked with nonempty | identity
          · left
            intro empty
            rw [empty] at nonempty
            simp at nonempty
          · exact .inr ⟨identity, rfl⟩
      · cases entry
  · rw [unsent] at entry
    cases entry

/-- The mirror after a build. -/
structure Built (rules : SpecRules) (usd : Usd) (session : SpecSession) : Prop where
  applied : (applySpecDeltas usd (session.emitter.batch rules usd session.source)).result
    session.mirror = .ok ()
  agrees : ∀ key : SpecKey, session.source.content.specKind key.path = some key.kind →
    ∀ name, rules.covers key name = true →
      (builtMirror rules usd session).fieldAs key name = session.source.content.fieldAs key name
  there : ∀ key, (builtEntry rules session key).isSome = true →
    (builtMirror rules usd session).specKind key.path = some key.kind
  gone : ∀ key ∈ session.everSent,
    session.source.content.specKind key.path ≠ some key.kind →
      (builtMirror rules usd session).specKind key.path ≠ some key.kind
  bare : ∀ key : SpecKey, key.kind.delta.accepts key.path = true →
    builtEntry rules session key = none → ∀ name, rules.covers key name = true →
      (builtMirror rules usd session).fieldAs key name = fun _ => none

theorem built_of_traceable (tracks : session.Tracks rules) (traceable : session.Traceable rules)
    (texts : TextsReadBack rules usd session .build) : Built rules usd session := by
  obtain ⟨middle, cleared, applied, copied, reached⟩ := exists_cleared tracks traceable texts
  have sends : ∀ key, key ∈ session.emitter.candidates session.source →
      session.source.content.specKind key.path = some key.kind →
        SendsSpec rules session key →
          (builtMirror rules usd session).specKind key.path = some key.kind ∧
            ∀ name ∈ session.emitter.selectedFields rules session.source key
              (session.emitter.sdfSpecFields.get? key),
              (builtMirror rules usd session).fieldAs key name =
                session.source.content.fieldAs key name := by
    intro key candidate present due
    have member := @mem_sentEvents rules usd _ _ candidate present due
    obtain ⟨other, sends⟩ := sends_of_mem tracks texts member rfl
    have same : other = key := by
      have kind : key.kind.delta = other.kind.delta := sends.kind
      have path : key.path = other.path := sends.path
      rcases key with ⟨keyKind, keyPath⟩
      rcases other with ⟨otherKind, otherPath⟩
      dsimp only at kind path
      rw [path, SpecKind.delta_inj.1 kind]
    subst same
    obtain ⟨here, fields⟩ := reached _ member other sends
    exact ⟨here, fun name selected => fields name (SpecEmitter.mem_sortedFields.2 selected)⟩
  -- what agreed before goes on agreeing
  have still : ∀ key : SpecKey, session.source.content.specKind key.path = some key.kind →
      ∀ name, rules.covers key name = true →
        session.mirror.fieldAs key name = session.source.content.fieldAs key name →
          (builtMirror rules usd session).fieldAs key name =
            session.source.content.fieldAs key name := by
    intro key present name covered same
    have accepted := session.source.standing _ _ present
    by_cases listed : (session.emitter.sdfSpecFields.get? key).isSome = true
    · apply copied.agrees accepted
      rw [(cleared.stays key present (tracks.listed key listed).1).2]
      exact same
    · have empty := tracks.unlisted key (Option.not_isSome_iff_eq_none.1 listed) accepted name covered
      apply copied.agrees accepted
      rcases cleared.either key accepted name with unchanged | removed
      · rw [unchanged]
        exact same
      · rw [removed, ← same, empty]
  have agrees : ∀ key : SpecKey, session.source.content.specKind key.path = some key.kind →
      ∀ name, rules.covers key name = true →
        (builtMirror rules usd session).fieldAs key name =
          session.source.content.fieldAs key name := by
    intro key present name covered
    by_cases same : session.mirror.fieldAs key name = session.source.content.fieldAs key name
    · exact still key present name covered same
    · have selected := mem_selectedFields tracks traceable present covered same
      have candidate : key ∈ session.emitter.candidates session.source := by
        by_contra missed
        exact same (agrees_of_not_candidate tracks present covered missed)
      exact (sends key candidate present (.inl (List.ne_nil_of_mem selected))).2 name selected
  constructor
  · exact applied
  · exact agrees
  · intro key entry
    have present := present_of_builtEntry traceable entry
    by_cases listed : (session.emitter.sdfSpecFields.get? key).isSome = true
    · exact copied.kept _ _ (cleared.stays key present (tracks.listed key listed).1).1 present
    · obtain ⟨candidate, due⟩ := sent_of_builtEntry traceable entry
        (Option.not_isSome_iff_eq_none.1 listed)
      exact (sends key candidate present due).1
  · intro key sent gone found
    rcases copied.new _ _ found with middleKind | there
    · by_cases listed : (session.emitter.sdfSpecFields.get? key).isSome = true
      · exact cleared.removed key listed gone middleKind
      · exact tracks.gone key sent (Option.not_isSome_iff_eq_none.1 listed)
          (cleared.only _ _ middleKind)
    · exact gone there
  · intro key accepted entry name covered
    by_cases present : session.source.content.specKind key.path = some key.kind
    · rw [agrees key present name covered]
      by_contra authored
      have member := (SourceLayer.mem_genericSdfFields present).2 ⟨covered, authored⟩
      rw [genericSdfFields_of_builtEntry tracks traceable present entry] at member
      cases member
    · have none := Layer.fieldAs_of_ne present name
      rcases copied.either key accepted name with unchanged | taken
      · rw [unchanged]
        by_cases listed : (session.emitter.sdfSpecFields.get? key).isSome = true
        · exact Layer.fieldAs_of_ne (cleared.removed key listed present) name
        · have empty := tracks.unlisted key (Option.not_isSome_iff_eq_none.1 listed) accepted name
            covered
          rcases cleared.either key accepted name with same | removed
          · rw [same, empty]
          · exact removed
      · rw [taken, none]

end Build

/-- The session after a build without nested variant sets. -/
theorem step_build {session next : SpecSession} (flat : ∀ key ∈
      session.emitter.candidates session.source,
    session.source.content.specKind key.path = some key.kind → key.nested = false)
    (applied : (applySpecDeltas usd (session.emitter.batch rules usd session.source)).result
      session.mirror = .ok ())
    (stepped : step rules usd session .build = some next) :
    next.source = session.source ∧ next.mirror = builtMirror rules usd session ∧
      next.everSent = session.everSent ++ sentKeys session.source
        (session.emitter.batch rules usd session.source) ∧
      next.raised = session.raised ∧
      next.emitter = { sdfSpecFields := next.emitter.sdfSpecFields } ∧
      ∀ key, next.emitter.sdfSpecFields.get? key = builtEntry rules session key := by
  obtain ⟨sent, built, entries⟩ := @SpecEmitter.build_of_flat rules usd session.emitter
    session.source flat
  unfold step at stepped
  dsimp only at stepped
  rw [built] at stepped
  dsimp only at stepped
  obtain rfl := Option.some.inj stepped
  refine ⟨rfl, rfl, rfl, ?_, rfl, entries⟩
  show (session.raised || !_) = _
  rw [applied]
  exact Bool.or_false _

/-- A traceable build keeps the invariant, and leaves the mirror in step. -/
theorem tracks_build {session next : SpecSession} (tracks : session.Tracks rules)
    (traceable : session.Traceable rules) (texts : TextsReadBack rules usd session .build)
    (stepped : step rules usd session .build = some next) :
    next.Tracks rules ∧ next.InStep rules := by
  have built := built_of_traceable tracks traceable texts
  obtain ⟨source, mirror, sent, raised, emitter, entries⟩ :=
    step_build traceable.flat built.applied stepped
  have dirty : next.emitter.dirtySdfSpecs = .empty := by rw [emitter]
  have mem_sent : ∀ key, key ∈ next.everSent ↔ key ∈ session.everSent ∨
      key ∈ sentKeys session.source (session.emitter.batch rules usd session.source) := by
    intro key
    rw [sent, List.mem_append]
  have entry_of_sent : ∀ key ∈ next.everSent,
      session.source.content.specKind key.path = some key.kind →
        (builtEntry rules session key).isSome = true := by
    intro key member present
    exact builtEntry_of_sent tracks traceable present ((mem_sent key).1 member)
  have sent_of_entry : ∀ key, (builtEntry rules session key).isSome = true →
      key ∈ next.everSent := by
    intro key entry
    rw [mem_sent]
    by_cases listed : (session.emitter.sdfSpecFields.get? key).isSome = true
    · exact .inl (tracks.listed key listed).2
    · obtain ⟨candidate, due⟩ := sent_of_builtEntry traceable entry
        (Option.not_isSome_iff_eq_none.1 listed)
      exact .inr (mem_sentKeys.2 ⟨candidate, present_of_builtEntry traceable entry, due⟩)
  have absent : ∀ key ∈ next.everSent,
      session.source.content.specKind key.path ≠ some key.kind →
        (builtMirror rules usd session).specKind key.path ≠ some key.kind := by
    intro key member gone
    rcases (mem_sent key).1 member with before | now
    · exact built.gone key before gone
    · exact absurd (mem_sentKeys.1 now).2.1 gone
  have generic : ∀ key names, builtEntry rules session key = some names → ∀ name,
      name ∈ names ↔ name ∈ session.source.genericSdfFields rules key :=
    fun key names entry name => mem_builtEntry tracks traceable entry
  constructor
  · constructor
    · rw [raised]
      exact tracks.finished
    · constructor
      · intro key marked
        rw [dirty] at marked
        cases marked
      · intro key names found
        rw [dirty] at found
        cases found
    · intro key entry
      rw [entries] at entry
      have present := present_of_builtEntry traceable entry
      refine ⟨session.source.standing _ _ present, session.source.selecting _ ?_⟩
      rw [session.source.mem_paths, ← Layer.specKind_isSome, present]
      rfl
    · intro key entry
      rw [entries] at entry
      rw [mirror]
      exact ⟨built.there key entry, sent_of_entry key entry⟩
    · intro key names entry name
      rw [entries] at entry
      have present := present_of_builtEntry traceable (by rw [entry]; rfl)
      rw [generic key names entry name, SourceLayer.mem_genericSdfFields present, mirror]
      refine and_congr_right fun covered => ?_
      rw [built.agrees key present name covered]
    · intro key names entry listed
      rw [entries] at entry
      exact session.source.named _ (List.mem_filter.1 ((generic key names entry "").1 listed)).1
    · intro key entry accepted name covered
      rw [entries] at entry
      rw [mirror]
      exact built.bare key accepted entry name covered
    · intro key member entry
      rw [entries] at entry
      rw [mirror]
      apply absent key member
      intro present
      have some := entry_of_sent key member present
      rw [entry] at some
      cases some
    · intro key present name covered _ differs
      rw [source] at present differs
      rw [mirror] at differs
      exact absurd (built.agrees key present name covered) differs
    · intro key _ present name covered differs
      rw [source] at present differs
      rw [mirror] at differs
      exact absurd (built.agrees key present name covered) differs
    · intro key member present entry
      rw [entries] at entry
      rw [source] at present
      have some := entry_of_sent key member present
      rw [entry] at some
      cases some
  · constructor
    · rw [raised]
      exact tracks.finished
    · intro key member present
      rw [source] at present ⊢
      rw [mirror]
      exact ⟨built.there key (entry_of_sent key member present), built.agrees key present⟩
    · intro key member gone
      rw [source] at gone
      rw [mirror]
      exact absent key member gone
    · intro key
      rw [entries, source]
      constructor
      · exact fun entry => ⟨sent_of_entry key entry, present_of_builtEntry traceable entry⟩
      · exact fun both => entry_of_sent key both.1 both.2
    · intro key names entry name
      rw [entries] at entry
      rw [source]
      exact generic key names entry name

/-! ### Whole runs -/

/-- Reported edits and traceable builds keep the invariant. -/
theorem tracks_step {session next : SpecSession} {action : SpecSessionAction}
    (tracks : session.Tracks rules) (reported : Reported session action)
    (texts : TextsReadBack rules usd session action) (kept : KeepsTrack rules session action)
    (stepped : step rules usd session action = some next) : next.Tracks rules := by
  cases action with
  | edit source report =>
      obtain rfl := Option.some.inj stepped
      refine tracks_edit tracks reported ?_
      rintro root rfl
      exact kept
  | build => exact (tracks_build tracks kept texts stepped).1

/-- In every run of reported edits whose builds are traceable, each build leaves the mirror in step
with the source: it succeeds, its events apply, and every spec ever sent has its fields on the
mirror. -/
theorem inStep_of_traceable (rules : SpecRules) (usd : Usd) (actions : List SpecSessionAction)
    (final : SpecSession)
    (ran : Machine.run (step rules usd) start (actions ++ [.build]) = some final)
    (reported : Machine.StepsMeet (step rules usd) Reported start (actions ++ [.build]))
    (texts : Machine.StepsMeet (step rules usd) (TextsReadBack rules usd) start
      (actions ++ [.build]))
    (kept : Machine.StepsMeet (step rules usd) (KeepsTrack rules) start (actions ++ [.build])) :
    final.InStep rules := by
  rw [Machine.run_append] at ran
  obtain ⟨reached, ranActions, last⟩ := Option.bind_eq_some_iff.1 ran
  have tracks : reached.Tracks rules := by
    have all : Machine.StepsMeet (step rules usd) (fun session action =>
        Reported session action ∧ TextsReadBack rules usd session action ∧
          KeepsTrack rules session action) start actions :=
      Machine.StepsMeet.and reported.first (texts.first.and kept.first)
    exact Machine.run_preserves
      (fun session action next holds meets stepped =>
        tracks_step holds meets.1 meets.2.1 meets.2.2 stepped)
      actions start reached tracks_start all ranActions
  obtain ⟨next, stepped, done⟩ := Option.bind_eq_some_iff.1 last
  obtain rfl := Option.some.inj done
  exact (tracks_build tracks (kept.rest ranActions).1 (texts.rest ranActions).1 stepped).2

/-! ### A replaced attribute -/

def handlePath : SpecPath := ⟨[.child "Door"], some "handle"⟩

/-- A door whose handle is a documented property. -/
def doorLayer (kind : SpecKind) : Layer :=
  (LayerEdit.author handlePath kind (.info "documentation") (.text "brass")).apply .empty

theorem inside_handle {path : SpecPath} : handlePath.Inside path ↔
    path ∈ ([.root, ⟨[.child "Door"], none⟩, handlePath] : List SpecPath) := by
  rcases path with ⟨prim, property⟩
  cases property with
  | some name =>
      unfold SpecPath.Inside
      simp [handlePath, SpecPath.root, eq_comm]
  | none =>
      unfold SpecPath.Inside
      simp only [handlePath, SpecPath.root, List.mem_cons, SpecPath.mk.injEq, List.not_mem_nil]
      rw [List.prefix_cons_iff]
      simp

theorem value_doorLayer (kind : SpecKind) (path : SpecPath) (field : Field) :
    (doorLayer kind).value path field =
      if path = .root ∧ field = .spec then some .present
      else if path = handlePath ∧ field = .info "documentation" then some (.text "brass")
      else if field = .spec ∧ handlePath.Inside path then some (LayerEdit.specDatum path kind)
      else none := by
  by_cases top : path = .root ∧ field = .spec
  · rw [if_pos top, top.1, top.2]
    exact (doorLayer kind).pseudoRoot
  · rw [if_neg top]
    show (if path = .root ∧ field = .spec then none
      else if path = handlePath ∧ field = .info "documentation" ∧ field ≠ .spec then
        some (some (.text "brass"))
      else LayerEdit.createdBy handlePath kind path field).getD
        (if path = .root ∧ field = .spec then some .present else none) = _
    rw [if_neg top, if_neg top]
    by_cases documented : path = handlePath ∧ field = .info "documentation"
    · rw [if_pos documented, if_pos ⟨documented.1, documented.2, by simp [documented.2]⟩]
      rfl
    · rw [if_neg documented, if_neg (fun both => documented ⟨both.1, both.2.1⟩)]
      unfold LayerEdit.createdBy
      split <;> rfl

theorem specKind_doorLayer {kind : SpecKind} (path : SpecPath) :
    (doorLayer kind).specKind path =
      if path = .root then some .layer
      else if path = ⟨[.child "Door"], none⟩ then some .prim
      else if path = handlePath then some kind else none := by
  unfold Layer.specKind
  rw [value_doorLayer]
  by_cases top : path = .root
  · rw [top]
    rfl
  · rw [if_neg top, if_neg (fun both => top both.1), if_neg (by simp)]
    by_cases door : path = ⟨[.child "Door"], none⟩
    · rw [if_pos door, if_pos ⟨rfl, inside_handle.2 (by simp [door])⟩, door]
      rfl
    · rw [if_neg door]
      by_cases handle : path = handlePath
      · rw [if_pos handle, if_pos ⟨rfl, inside_handle.2 (by simp [handle])⟩, handle]
        rfl
      · rw [if_neg handle, if_neg]
        rintro ⟨_, inside⟩
        have listed := inside_handle.1 inside
        simp [top, door, handle] at listed

def doorSource (kind : SpecKind) (property : kind.isProperty = true) : SourceLayer where
  content := doorLayer kind
  paths := [.root, ⟨[.child "Door"], none⟩, handlePath]
  infoKeys path := if path = handlePath then ["documentation"] else []
  mem_paths := by
    intro path
    rw [← Layer.specKind_isSome, specKind_doorLayer]
    simp only [List.mem_cons, List.not_mem_nil, or_false]
    split
    · next top => simp [top]
    · next below =>
        split
        · next door => simp [door]
        · next inside =>
            split
            · next handle => simp [handle]
            · next other => simp [below, inside, other]
  mem_infoKeys := by
    intro path name
    unfold Layer.Authors Layer.info
    rw [value_doorLayer]
    have unsampled : ∀ other time, (doorLayer kind).value other (.sample time) = none := by
      intro other time
      rw [value_doorLayer]
      simp
    by_cases samples : name = "timeSamples"
    · subst samples
      by_cases handle : path = handlePath <;> simp [handle, unsampled]
    · by_cases handle : path = handlePath
      · by_cases documented : name = "documentation" <;> simp [handle, documented, samples]
      · simp [handle, samples]
  named := by
    intro path
    by_cases handle : path = handlePath <;> simp [handle]
  standing := by
    intro path found here
    rw [specKind_doorLayer] at here
    split at here
    · next top =>
        obtain rfl := Option.some.inj here
        rw [top]
        rfl
    · split at here
      · next door =>
          obtain rfl := Option.some.inj here
          rw [door]
          rfl
      · split at here
        · next handle =>
            obtain rfl := Option.some.inj here
            rw [handle]
            cases kind <;> first | rfl | cases property
        · cases here
  selecting := by
    intro path member
    simp only [List.mem_cons, List.not_mem_nil, or_false] at member
    rcases member with rfl | rfl | rfl <;> simp [PrimPath.Selecting, SpecPath.root, handlePath]

def doorRules : SpecRules where
  generic _ _ := true
  text _ := ""

/-- The layer text of the fragments about the door. -/
def doorTexts : Schema :=
  { exportToString := fun layer =>
      match layer.specKind handlePath with
      | some .attribute => "attribute"
      | some .relationship => "relationship"
      | _ => "prim"
    importFromString := fun text =>
      some <|
        if text = "attribute" then
          serializedLayer (doorLayer .attribute) handlePath .attribute ["documentation"]
        else if text = "relationship" then
          serializedLayer (doorLayer .relationship) handlePath .relationship ["documentation"]
        else serializedLayer (doorLayer .attribute) ⟨[.child "Door"], none⟩ .prim [] }

/-- The door with a handle attribute, and its first build. -/
def doorActions : List SpecSessionAction :=
  [.edit (doorSource .attribute rfl) (.subtree [.child "Door"]), .build]

/-- A relationship takes the attribute's place. -/
def replaceHandle : SpecSessionAction :=
  .edit (doorSource .relationship rfl) (.property handlePath none none [])

/-- The fragments of a build are those that the texts are about. -/
def DoorBuild (kind : SpecKind) (session : SpecSession) : Prop :=
  ∀ key ∈ session.emitter.candidates session.source,
    (key = ⟨kind, handlePath⟩ ∨ kind = .attribute ∧ key = ⟨.prim, ⟨[.child "Door"], none⟩⟩) ∧
      sortedFields (session.emitter.selectedFields doorRules session.source key
        (session.emitter.sdfSpecFields.get? key)) =
          if key.path = handlePath then ["documentation"] else []

instance (kind : SpecKind) (session : SpecSession) : Decidable (DoorBuild kind session) :=
  inferInstanceAs (Decidable (∀ _ ∈ _, _))

theorem textsReadBack_door {kind : SpecKind} {session : SpecSession}
    (property : kind.isProperty = true) (content : session.source.content = doorLayer kind)
    (door : DoorBuild kind session) :
    TextsReadBack doorRules (.plain doorTexts) session .build := by
  intro key candidate _
  obtain ⟨known, fields⟩ := door key candidate
  dsimp only
  rw [fields, content]
  rcases known with rfl | ⟨rfl, rfl⟩
  · cases kind <;> first | rfl | cases property
  · rfl

theorem source_of_build {session next : SpecSession}
    (stepped : step rules usd session .build = some next) : next.source = session.source := by
  unfold step at stepped
  dsimp only at stepped
  split at stepped <;> rw [← Option.some.inj stepped]

theorem reports_newDoor : Reports emptySource.content (doorLayer .attribute)
    (.subtree [.child "Door"]) := by
  intro path outside field
  rw [value_doorLayer]
  show _ = if path = .root ∧ field = .spec then some Datum.present else none
  have away : path ≠ handlePath := by
    rintro rfl
    exact outside ⟨[], rfl⟩
  by_cases top : path = .root ∧ field = .spec
  · rw [if_pos top, if_pos top]
  · rw [if_neg top, if_neg top, if_neg (fun both => away both.1), if_neg]
    rintro ⟨rfl, inside⟩
    have listed := inside_handle.1 inside
    simp only [List.mem_cons, List.not_mem_nil, or_false] at listed
    rcases listed with rfl | rfl | rfl
    · exact top ⟨rfl, rfl⟩
    · exact outside (SpecPath.Inside.refl _)
    · exact away rfl

theorem reports_replacedHandle : Reports (doorLayer .attribute) (doorLayer .relationship)
    (.property handlePath none none []) := by
  refine ⟨⟨fun path away field => ?_, fun _ named => (nomatch named)⟩,
    fun _ named => (nomatch named), List.not_mem_nil, rfl, .inl ?_⟩
  · rw [value_doorLayer, value_doorLayer]
    have same : handlePath.Inside path → LayerEdit.specDatum path .relationship =
        LayerEdit.specDatum path .attribute := by
      intro inside
      have listed := inside_handle.1 inside
      simp only [List.mem_cons, List.not_mem_nil, or_false] at listed
      rcases listed with rfl | rfl | rfl
      · rfl
      · rfl
      · exact absurd rfl away
    by_cases inside : handlePath.Inside path
    · rw [same inside]
    · simp [inside]
  · rw [← Layer.specKind_isSome, specKind_doorLayer]
    rfl

theorem keepsTrack_newDoor :
    Machine.StepsMeet (step doorRules (.plain doorTexts)) (KeepsTrack doorRules) start
      doorActions := by
  refine ⟨show PrimPath.kind [.child "Door"] ≠ .variantSet by decide, ?_⟩
  rintro _ ⟨⟩
  refine ⟨⟨?_, ?_, ?_, ?_⟩, fun _ _ => trivial⟩
  · decide +kernel
  · decide +kernel
  · decide +kernel
  · decide +kernel

theorem reported_newDoor :
    Machine.StepsMeet (step doorRules (.plain doorTexts)) Reported start doorActions :=
  ⟨reports_newDoor, fun _ _ => ⟨trivial, fun _ _ => trivial⟩⟩

theorem textsReadBack_newDoor :
    Machine.StepsMeet (step doorRules (.plain doorTexts))
      (TextsReadBack doorRules (.plain doorTexts)) start doorActions := by
  refine ⟨trivial, ?_⟩
  rintro _ ⟨⟩
  exact ⟨@textsReadBack_door .attribute _ rfl rfl (by decide +kernel), fun _ _ => trivial⟩

theorem inStep_newDoor : ∃ final,
    Machine.run (step doorRules (.plain doorTexts)) start doorActions = some final ∧
      ⟨.attribute, handlePath⟩ ∈ final.everSent ∧ final.InStep doorRules := by
  have sent : (Machine.run (step doorRules (.plain doorTexts)) start doorActions).map
      (fun final => decide (⟨.attribute, handlePath⟩ ∈ final.everSent)) = some true := by
    decide +kernel
  obtain ⟨final, ran, member⟩ := Option.map_eq_some_iff.1 sent
  exact ⟨final, ran, of_decide_eq_true member,
    inStep_of_traceable doorRules (.plain doorTexts)
      [.edit (doorSource .attribute rfl) (.subtree [.child "Door"])] final ran reported_newDoor
      textsReadBack_newDoor keepsTrack_newDoor⟩

/-- The emitter goes on listing an attribute whose place a relationship has taken: the notice of the
property marks the relationship only. -/
theorem not_inStep_replacedAttribute :
    ¬ ∀ (rules : SpecRules) (usd : Usd) (actions : List SpecSessionAction) (final : SpecSession),
      Machine.run (step rules usd) start (actions ++ [.build]) = some final →
        Machine.StepsMeet (step rules usd) Reported start (actions ++ [.build]) →
          Machine.StepsMeet (step rules usd) (TextsReadBack rules usd) start
            (actions ++ [.build]) →
            final.InStep rules := by
  intro claim
  have outcome : (Machine.run (step doorRules (.plain doorTexts)) start
      (doorActions ++ [replaceHandle] ++ [.build])).map
      (fun final => ((final.emitter.sdfSpecFields.get? ⟨.attribute, handlePath⟩).isSome,
        final.source.content.specKind handlePath)) = some (true, some .relationship) := by
    decide +kernel
  obtain ⟨final, ran, seen⟩ := Option.map_eq_some_iff.1 outcome
  obtain ⟨listed, kind⟩ := Prod.mk.inj seen
  have inStep := claim doorRules (.plain doorTexts)
    (doorActions ++ [replaceHandle]) final ran ?_ ?_
  · have present := ((inStep.listed _).1 listed).2
    rw [kind] at present
    cases present
  · refine ⟨reports_newDoor, ?_⟩
    rintro _ ⟨⟩
    refine ⟨trivial, fun built stepped => ⟨?_, fun _ _ => ⟨trivial, fun _ _ => trivial⟩⟩⟩
    have same := source_of_build stepped
    show Reports built.source.content (doorLayer .relationship) (.property handlePath none none [])
    rw [same]
    exact reports_replacedHandle
  · refine ⟨trivial, ?_⟩
    rintro _ ⟨⟩
    refine ⟨@textsReadBack_door .attribute _ rfl rfl (by decide +kernel), fun built stepped => ?_⟩
    refine ⟨trivial, ?_⟩
    rintro _ ⟨⟩
    refine ⟨@textsReadBack_door .relationship _ rfl rfl ?_, fun _ _ => trivial⟩
    have door : (step doorRules (.plain doorTexts) { start with
        source := doorSource .attribute rfl
        emitter := start.emitter.record doorRules (doorLayer .attribute)
          (.subtree [.child "Door"]) } .build).map (fun built => decide (DoorBuild .relationship
            { built with
              source := doorSource .relationship rfl
              emitter := built.emitter.record doorRules (doorLayer .relationship)
                (.property handlePath none none []) })) = some true := by
      decide +kernel
    have stepped : step doorRules (.plain doorTexts) { start with
        source := doorSource .attribute rfl
        emitter := start.emitter.record doorRules (doorLayer .attribute)
          (.subtree [.child "Door"]) } .build = some built := stepped
    rw [stepped] at door
    exact of_decide_eq_true (Option.some.inj door)

end SpecSession

end UsdConnect
