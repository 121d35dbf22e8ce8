/-
Purpose: A build of exact spec events: what the loop over its candidates sends and remembers, the
  order of its events, and what the sorted batch leaves on the mirror.
Trusted boundary: none
Main exports: SpecEmitter.build_of_flat, SpecSession.mem_selectedFields
-/
import Mathlib.Data.List.Chain
import UsdConnect.Proofs.SpecEmission

namespace UsdConnect

variable {rules : SpecRules} {usd : Usd}

/-! ### The loop over the candidates -/

namespace SpecEmitter

/-- The events of one candidate. -/
def visitEvents (rules : SpecRules) (usd : Usd) (emitter : SpecEmitter) (source : SourceLayer)
    (key : SpecKey) : List SpecDelta :=
  let previous := emitter.sdfSpecFields.get? key
  let changed := emitter.dirtySdfSpecs.get? key
  if source.content.specKind key.path = some key.kind then
    let selected := emitter.selectedFields rules source key previous
    if !selected.isEmpty || (source.sdfSpecRequiresIdentity key && previous.isNone) then
      [fieldsEvent usd source key selected]
    else []
  else if previous.isSome || (changed.isSome && key.kind.isProperty) then
    [removalEvent key (previous.getD [] ++ (changed.bind id).getD [])]
  else []

/-- The fields that are remembered of one candidate. -/
def visitEntry (rules : SpecRules) (emitter : SpecEmitter) (source : SourceLayer)
    (key : SpecKey) : Option (List String) :=
  let previous := emitter.sdfSpecFields.get? key
  if source.content.specKind key.path = some key.kind then
    let tracked := (previous.getD [] ++ emitter.selectedFields rules source key previous).filter
      (· ∈ source.genericSdfFields rules key)
    if !tracked.isEmpty || source.sdfSpecRequiresIdentity key then some tracked else none
  else none

theorem get?_if_set_pop {dict : OrderedDict SpecKey (List String)} (key other : SpecKey)
    (keep : Bool) (names : List String) :
    (if keep then dict.set key names else dict.pop key).get? other =
      if other = key then (if keep then some names else none) else dict.get? other := by
  by_cases here : other = key
  · subst here
    cases keep <;> simp [OrderedDict.get?_pop_self]
  · cases keep <;>
      simp [here, OrderedDict.get?_set_of_ne _ _ here, OrderedDict.get?_pop_of_ne _ here]

variable {emitter : SpecEmitter} {source : SourceLayer}

/-- One candidate, as long as nothing raised. -/
theorem visit_spec {build : SpecBuild} {key : SpecKey} (running : build.raised = none)
    (untouched : build.sdfSpecFields.get? key = emitter.sdfSpecFields.get? key)
    (flat : source.content.specKind key.path = some key.kind → key.nested = false) :
    (emitter.visit rules usd source build key).raised = none ∧
      (emitter.visit rules usd source build key).events =
        build.events ++ emitter.visitEvents rules usd source key ∧
      ∀ other, (emitter.visit rules usd source build key).sdfSpecFields.get? other =
        if other = key then emitter.visitEntry rules source key
        else build.sdfSpecFields.get? other := by
  unfold visit visitEvents visitEntry
  rw [running]
  by_cases present : source.content.specKind key.path = some key.kind
  · simp only [present, if_true, Option.isSome_none, Bool.false_eq_true, if_false, visitPresent,
      flat present, Bool.and_false, untouched, running]
    exact ⟨trivial, trivial, fun other => get?_if_set_pop key other _ _⟩
  · simp only [present, if_false, Option.isSome_none, Bool.false_eq_true, visitMissing, untouched]
    split
    · refine ⟨running, rfl, fun other => ?_⟩
      exact get?_if_set_pop key other false []
    · next quiet =>
        refine ⟨running, (List.append_nil _).symm, fun other => ?_⟩
        split
        · next here =>
            rw [here, untouched]
            simp only [Bool.or_eq_true, not_or, Bool.not_eq_true, Option.isSome_eq_false_iff,
              Option.isNone_iff_eq_none] at quiet
            exact quiet.1
        · rfl

theorem visits_spec {keys : List SpecKey} (distinct : keys.Nodup) {build : SpecBuild}
    (running : build.raised = none)
    (untouched : ∀ key ∈ keys, build.sdfSpecFields.get? key = emitter.sdfSpecFields.get? key)
    (flat : ∀ key ∈ keys, source.content.specKind key.path = some key.kind → key.nested = false) :
    (keys.foldl (emitter.visit rules usd source) build).raised = none ∧
      (keys.foldl (emitter.visit rules usd source) build).events =
        build.events ++ keys.flatMap (emitter.visitEvents rules usd source) ∧
      ∀ other, (keys.foldl (emitter.visit rules usd source) build).sdfSpecFields.get? other =
        if other ∈ keys then emitter.visitEntry rules source other
        else build.sdfSpecFields.get? other := by
  induction keys generalizing build with
  | nil => simp [running]
  | cons key rest ih =>
      obtain ⟨fresh, later⟩ := List.nodup_cons.1 distinct
      obtain ⟨stillRunning, events, entries⟩ := @visit_spec rules usd emitter source build key running
        (untouched key List.mem_cons_self) (flat key List.mem_cons_self)
      have others : ∀ other ∈ rest,
          (emitter.visit rules usd source build key).sdfSpecFields.get? other =
            emitter.sdfSpecFields.get? other := by
        intro other member
        have away : other ≠ key := fun same => fresh (same ▸ member)
        rw [entries, if_neg away, untouched other (List.mem_cons_of_mem _ member)]
      obtain ⟨finished, allEvents, allEntries⟩ := ih later stillRunning others
        fun other member => flat other (List.mem_cons_of_mem _ member)
      refine ⟨finished, ?_, fun other => ?_⟩
      · rw [List.foldl_cons, allEvents, events, List.append_assoc, List.flatMap_cons]
      · rw [List.foldl_cons, allEntries, entries]
        by_cases here : other = key
        · subst here
          simp [fresh]
        · simp [here]

/-- The events of a build before they are sorted. -/
def sentEvents (rules : SpecRules) (usd : Usd) (emitter : SpecEmitter) (source : SourceLayer) :
    List SpecDelta :=
  (emitter.candidates source).flatMap (emitter.visitEvents rules usd source)

/-- `sort(key=_sdf_event_sort_key)`. -/
def sortEvents (rules : SpecRules) (events : List SpecDelta) : List SpecDelta :=
  events.insertionSort fun first second =>
    sdfEventSortKey rules first ≤ sdfEventSortKey rules second

/-- The events of a build. -/
def batch (rules : SpecRules) (usd : Usd) (emitter : SpecEmitter) (source : SourceLayer) :
    List SpecDelta :=
  sortEvents rules (emitter.sentEvents rules usd source)

def removals (rules : SpecRules) (usd : Usd) (emitter : SpecEmitter) (source : SourceLayer) :
    List SpecDelta :=
  (emitter.batch rules usd source).filter (·.removed)

/-- A build without nested variant sets succeeds, and marks are gone. -/
theorem build_of_flat (flat : ∀ key ∈ emitter.candidates source,
    source.content.specKind key.path = some key.kind → key.nested = false) :
    ∃ sent, emitter.build rules usd source =
        ({ sdfSpecFields := sent }, .ok (emitter.batch rules usd source)) ∧
      ∀ key, sent.get? key = if key ∈ emitter.candidates source then
        emitter.visitEntry rules source key else emitter.sdfSpecFields.get? key := by
  have distinct : (emitter.candidates source).Nodup := List.nodup_dedup _
  obtain ⟨running, events, entries⟩ := @visits_spec rules usd emitter source _ distinct
    { sdfSpecFields := emitter.sdfSpecFields } rfl (fun _ _ => rfl) flat
  refine ⟨_, ?_, entries⟩
  unfold build
  dsimp only
  rw [running]
  dsimp only
  rw [events]
  rfl

theorem mem_sortEvents {events : List SpecDelta} {delta : SpecDelta} :
    delta ∈ sortEvents rules events ↔ delta ∈ events :=
  List.mem_insertionSort _

theorem mem_candidates {key : SpecKey} : key ∈ emitter.candidates source ↔
    (emitter.dirtySdfSpecs.get? key).isSome = true ∨ key ∈ emitter.collectSdfSpecs source ∨
      (emitter.sdfSpecFields.get? key).isSome = true ∧
        (emitter.fullSdfSpecScan = true ∨ emitter.underSubtree key.path = true) := by
  unfold candidates
  rw [List.mem_dedup, List.mem_append, List.mem_append, List.mem_filter,
    OrderedDict.mem_keys_iff_isSome, OrderedDict.mem_keys_iff_isSome, Bool.or_eq_true, or_assoc]

theorem candidate_of_noticed {key : SpecKey} (noticed : emitter.Noticed key)
    (present : source.content.specKind key.path = some key.kind) :
    key ∈ emitter.candidates source := by
  rw [mem_candidates]
  rcases noticed with marked | scan
  · exact .inl marked
  · right
    left
    unfold collectSdfSpecs
    refine List.mem_append_left _ (List.mem_filterMap.2 ⟨key.path, ?_, ?_⟩)
    · rw [List.mem_filter, source.mem_paths, ← Layer.specKind_isSome, present]
      refine ⟨rfl, ?_⟩
      split
      · simp
      · next full =>
          rcases scan with whole | under
          · exact absurd whole full
          · obtain ⟨root, flag, found, inside⟩ := underSubtree_iff.1 under
            refine List.any_eq_true.2 ⟨root, ?_, decide_eq_true inside.1⟩
            rw [OrderedDict.mem_keys_iff_isSome, found]
            rfl
    · unfold SourceLayer.keyAt
      rw [present]
      rfl

theorem candidate_of_sent {key : SpecKey} (noticed : emitter.Noticed key)
    (sent : (emitter.sdfSpecFields.get? key).isSome = true) : key ∈ emitter.candidates source := by
  rw [mem_candidates]
  rcases noticed with marked | scan
  · exact .inl marked
  · exact .inr (.inr ⟨sent, scan⟩)

end SpecEmitter

/-! ### The order of the events -/

/-- Removals first, the deepest first. -/
theorem order_of_sortKey {first second : SpecDelta}
    (ordered : sdfEventSortKey rules first ≤ sdfEventSortKey rules second) :
    (second.removed = true → first.removed = true) ∧
      (first.removed = true → second.removed = true →
        second.specPath.depth ≤ first.specPath.depth) := by
  unfold sdfEventSortKey at ordered
  cases firstRemoved : first.removed <;> cases secondRemoved : second.removed <;>
    simp only [firstRemoved, secondRemoved, Bool.false_eq_true, if_true, if_false,
      Prod.Lex.toLex_le_toLex] at ordered
  · simp
  · omega
  · simp
  · simp only [forall_true_left, true_and]
    omega

theorem pairwise_sortEvents (events : List SpecDelta) :
    (SpecEmitter.sortEvents rules events).Pairwise fun first second =>
      sdfEventSortKey rules first ≤ sdfEventSortKey rules second := by
  have : Std.Total fun first second : SpecDelta =>
      sdfEventSortKey rules first ≤ sdfEventSortKey rules second :=
    ⟨fun first second => le_total _ _⟩
  have : IsTrans SpecDelta fun first second =>
      sdfEventSortKey rules first ≤ sdfEventSortKey rules second :=
    ⟨fun _ _ _ => le_trans⟩
  exact List.pairwise_insertionSort _ events

theorem removals_append_rest {events : List SpecDelta}
    (ordered : events.Pairwise fun first second => second.removed = true → first.removed = true) :
    events = events.filter (·.removed) ++ events.filter (!·.removed) := by
  induction events with
  | nil => rfl
  | cons delta rest ih =>
      obtain ⟨first, later⟩ := List.pairwise_cons.1 ordered
      by_cases removed : delta.removed = true
      · simpa [removed] using ih later
      · have none : rest.filter (·.removed) = [] :=
          List.filter_eq_nil_iff.2 fun other member gone => removed (first other member gone)
        have all : rest.filter (!·.removed) = rest := by
          rw [List.filter_eq_self]
          intro other member
          have kept := fun gone => removed (first other member gone)
          simpa using kept
        simp [removed, none, all]

/-- Below a path there is one more step that counts, or a set that ends the path. -/
theorem PrimPath.counts_of_ne_nil (root : PrimPath) {rest : PrimPath} (below : rest ≠ []) :
    0 < (rest.filter (!·.isVariantSet)).length +
      if PrimPath.kind (root ++ rest) = .variantSet then 1 else 0 := by
  obtain ⟨start, last, rfl⟩ := (List.eq_nil_or_concat rest).resolve_left below
  rw [List.concat_eq_append]
  cases last with
  | variantSet name =>
      have ends : PrimPath.kind (root ++ (start ++ [.variantSet name])) = .variantSet := by
        simp [PrimPath.kind, ← List.append_assoc]
      rw [if_pos ends]
      omega
  | child name => simp [PathElement.isVariantSet]
  | variant name => simp [PathElement.isVariantSet]

/-- What lies in a spec is deeper, but for the variants of a set. -/
theorem SpecPath.depth_of_inside {inner outer : SpecPath} (selecting : inner.prim.Selecting)
    (inside : inner.Inside outer) (apart : inner ≠ outer) :
    outer.depth < inner.depth ∨
      outer.depth = inner.depth ∧ outer.property = none ∧ outer.prim.kind = .variantSet ∧
        inner.property = none ∧ inner.prim.kind = .variant := by
  rcases inner with ⟨path, property⟩
  rcases outer with ⟨root, outerProperty⟩
  cases outerProperty with
  | some name => exact absurd inside apart
  | none =>
      obtain ⟨rest, rfl⟩ : root <+: path := inside
      unfold depth
      dsimp only at selecting ⊢
      cases rest with
      | nil =>
          cases property with
          | none => exact absurd (by rw [List.append_nil]) apart
          | some name =>
              left
              simp
      | cons next rest =>
          rw [List.filter_append, List.length_append]
          by_cases ends : root.kind = .variantSet
          · -- the element after a set is its selection
            have selected : next.isVariant = true := by
              unfold PrimPath.Selecting at selecting
              obtain ⟨_, _, chained⟩ := List.isChain_append.1 selecting
              unfold PrimPath.kind at ends
              split at ends
              · cases ends
              · cases ends
              · next name last => exact (chained _ last next rfl).symm
              · cases ends
            cases next with
            | child name => cases selected
            | variantSet name => cases selected
            | variant name =>
                cases rest with
                | nil =>
                    cases property with
                    | none =>
                        right
                        have kind : PrimPath.kind (root ++ [.variant name]) = .variant := by
                          simp [PrimPath.kind]
                        simp [ends, kind, PathElement.isVariantSet]
                    | some name =>
                        left
                        rw [if_pos ends, List.filter_cons_of_pos (by rfl), List.length_cons]
                        simp only [Option.isSome_none, Option.isSome_some, Bool.false_eq_true,
                          if_false, if_true]
                        omega
                | cons step rest =>
                    left
                    have counts := PrimPath.counts_of_ne_nil (root ++ [.variant name])
                      (List.cons_ne_nil step rest)
                    rw [List.append_assoc, List.singleton_append] at counts
                    rw [if_pos ends, List.filter_cons_of_pos (by rfl), List.length_cons]
                    simp only [Option.isSome_none, Bool.false_eq_true, if_false]
                    omega
          · left
            have counts := PrimPath.counts_of_ne_nil root (List.cons_ne_nil next rest)
            rw [if_neg ends]
            simp only [Option.isSome_none, Bool.false_eq_true, if_false]
            omega

/-- A variant set is at least as deep as what it lies in only where both are the same. -/
theorem SpecPath.not_inside_of_depth {inner outer : SpecPath} (set : inner.prim.kind = .variantSet)
    (selecting : inner.prim.Selecting) (apart : inner ≠ outer)
    (deeper : inner.depth ≤ outer.depth) : ¬ inner.Inside outer := by
  intro inside
  rcases SpecPath.depth_of_inside selecting inside apart with below | ⟨_, _, _, _, selection⟩
  · omega
  · rw [set] at selection
    cases selection

/-! ### Selected fields -/

namespace SpecEmitter

variable {emitter : SpecEmitter} {source : SourceLayer} {key : SpecKey}
  {sent : Option (List String)} {name : String}

theorem mem_sortedFields {fields : List String} : name ∈ sortedFields fields ↔ name ∈ fields := by
  unfold sortedFields
  rw [List.mem_insertionSort, List.mem_dedup]

theorem of_mem_selectedFields
    (selected : name ∈ emitter.selectedFields rules source key sent) :
    (name ∈ source.genericSdfFields rules key ∨ name ∈ sent.getD [] ∨
      ∃ names, emitter.dirtySdfSpecs.get? key = some (some names) ∧ name ∈ names ∧
        name ∉ source.infoKeys key.path) ∧
      ¬ (key.kind = .layer ∧ name ∈ layerTopologyFields) := by
  unfold selectedFields at selected
  dsimp only at selected
  obtain ⟨member, plain⟩ := List.mem_filter.1 selected
  refine ⟨?_, by simpa only [Bool.not_eq_true', decide_eq_false_iff_not] using plain⟩
  rcases List.mem_append.1 member with chosen | cleared
  · have either : name ∈ source.genericSdfFields rules key ++ sent.getD [] := by
      split at chosen
      · exact chosen
      · split at chosen
        · exact of_decide_eq_true (List.mem_filter.1 chosen).2
        · rcases List.mem_append.1 chosen with new | old
          · exact List.mem_append_left _ (List.mem_filter.1 new).1
          · exact List.mem_append_right _ (List.mem_filter.1 old).1
    rcases List.mem_append.1 either with generic | previous
    · exact .inl generic
    · exact .inr (.inl previous)
  · split at cleared
    · next names found =>
        obtain ⟨listed, missing⟩ := List.mem_filter.1 cleared
        exact .inr (.inr ⟨names, found, listed, of_decide_eq_true missing⟩)
    · cases cleared

theorem passes_of_covers (covered : rules.covers key name = true) :
    (!decide (key.kind = .layer ∧ name ∈ layerTopologyFields)) = true :=
  (Bool.and_eq_true_iff.1 covered).2

theorem mem_selectedFields_of_due (covered : rules.covers key name = true)
    (due : emitter.Due key name)
    (known : name ∈ source.genericSdfFields rules key ∨ name ∈ sent.getD []) :
    name ∈ emitter.selectedFields rules source key sent := by
  have either := List.mem_append.2 known
  unfold selectedFields
  dsimp only
  refine List.mem_filter.2 ⟨List.mem_append_left _ ?_, passes_of_covers covered⟩
  split
  · exact either
  · next notAll =>
      rcases due with resynced | ⟨names, found, member⟩
      · simp [resynced] at notAll
      · rw [found]
        exact List.mem_filter.2 ⟨member, decide_eq_true either⟩

theorem mem_selectedFields_of_differs (covered : rules.covers key name = true)
    (unnamed : ∀ names, emitter.dirtySdfSpecs.get? key ≠ some (some names))
    (differs : name ∈ source.genericSdfFields rules key ∧ name ∉ sent.getD [] ∨
      name ∈ sent.getD [] ∧ name ∉ source.genericSdfFields rules key) :
    name ∈ emitter.selectedFields rules source key sent := by
  unfold selectedFields
  dsimp only
  refine List.mem_filter.2 ⟨List.mem_append_left _ ?_, passes_of_covers covered⟩
  split
  · rcases differs with new | old
    · exact List.mem_append_left _ new.1
    · exact List.mem_append_right _ old.1
  · split
    · next names found => exact absurd found (unnamed names)
    · rcases differs with ⟨new, fresh⟩ | ⟨old, lost⟩
      · exact List.mem_append_left _ (List.mem_filter.2 ⟨new, decide_eq_true fresh⟩)
      · exact List.mem_append_right _ (List.mem_filter.2 ⟨old, decide_eq_true lost⟩)

end SpecEmitter

/-! ### A traceable build -/

namespace SpecSession

variable {session : SpecSession}

theorem Traceable.goneNoticed (traceable : session.Traceable rules) {key : SpecKey}
    (sent : (session.emitter.sdfSpecFields.get? key).isSome = true)
    (gone : session.source.content.specKind key.path ≠ some key.kind) :
    session.emitter.Noticed key := by
  obtain ⟨names, found⟩ := Option.isSome_iff_exists.1 sent
  rcases traceable.gone (key, names) (OrderedDict.mem_of_get? found) with present | noticed
  · exact absurd present gone
  · exact noticed

section Build

variable {key : SpecKey} {name : String}

theorem Tracks.mem_previous (tracks : session.Tracks rules)
    (covered : rules.covers key name = true) (accepted : key.kind.delta.accepts key.path = true) :
    name ∈ (session.emitter.sdfSpecFields.get? key).getD [] ↔
      session.mirror.fieldAs key name ≠ fun _ => none := by
  cases found : session.emitter.sdfSpecFields.get? key with
  | none => simp [tracks.unlisted key found accepted name covered]
  | some names =>
      rw [Option.getD_some, tracks.fields key names found]
      exact and_iff_right covered

theorem mem_selectedFields (tracks : session.Tracks rules) (traceable : session.Traceable rules)
    (present : session.source.content.specKind key.path = some key.kind)
    (covered : rules.covers key name = true)
    (differs : session.mirror.fieldAs key name ≠ session.source.content.fieldAs key name) :
    name ∈ session.emitter.selectedFields rules session.source key
      (session.emitter.sdfSpecFields.get? key) := by
  have accepted := session.source.standing _ _ present
  have generic := @SourceLayer.mem_genericSdfFields rules session.source key present name
  have previous := tracks.mem_previous covered accepted
  by_cases authored : session.source.content.fieldAs key name = fun _ => none
  · -- the mirror still has what the source has lost
    have onMirror : session.mirror.fieldAs key name ≠ fun _ => none :=
      fun none => differs (none.trans authored.symm)
    have before := previous.2 onMirror
    have lost : name ∉ session.source.genericSdfFields rules key :=
      fun member => (generic.1 member).2 authored
    by_cases resynced : session.emitter.resynced key = true
    · exact SpecEmitter.mem_selectedFields_of_due covered (.inl resynced) (.inr before)
    · cases found : session.emitter.sdfSpecFields.get? key with
      | none =>
          rw [found] at before
          cases before
      | some names =>
          rw [found, Option.getD_some] at before
          have named := (traceable.lost (key, names) (OrderedDict.mem_of_get? found)
            present).resolve_left resynced
          by_cases notice : ∃ changed, session.emitter.dirtySdfSpecs.get? key = some (some changed)
          · obtain ⟨changed, marked⟩ := notice
            refine SpecEmitter.mem_selectedFields_of_due covered (.inr ⟨changed, marked, ?_⟩)
              (.inr before)
            apply named changed _ name before lost
            rw [marked]
            rfl
          · refine SpecEmitter.mem_selectedFields_of_differs covered ?_ (.inr ⟨before, lost⟩)
            exact fun changed marked => notice ⟨changed, marked⟩
  · have due := tracks.changed key present name covered authored differs
    exact SpecEmitter.mem_selectedFields_of_due covered due (.inl (generic.2 ⟨covered, authored⟩))

/-- What no build visits is on the mirror as it is at the source. -/
theorem agrees_of_not_candidate (tracks : session.Tracks rules)
    (present : session.source.content.specKind key.path = some key.kind)
    (covered : rules.covers key name = true)
    (missed : key ∉ session.emitter.candidates session.source) :
    session.mirror.fieldAs key name = session.source.content.fieldAs key name := by
  by_contra differs
  apply missed
  refine SpecEmitter.candidate_of_noticed ?_ present
  by_cases sent : (session.emitter.sdfSpecFields.get? key).isSome = true
  · exact tracks.noticed key sent present name covered differs
  · have unlisted := tracks.unlisted key (Option.not_isSome_iff_eq_none.1 sent)
      (session.source.standing _ _ present) name covered
    refine (tracks.changed key present name covered (fun none => ?_) differs).noticed
    exact differs (unlisted.trans none.symm)

theorem named_selectedFields (tracks : session.Tracks rules) :
    "" ∉ session.emitter.selectedFields rules session.source key
      (session.emitter.sdfSpecFields.get? key) := by
  intro selected
  obtain ⟨origin, _⟩ := SpecEmitter.of_mem_selectedFields selected
  rcases origin with generic | previous | ⟨names, found, member, _⟩
  · exact session.source.named _ (List.mem_filter.1 generic).1
  · cases found : session.emitter.sdfSpecFields.get? key with
    | none =>
        rw [found] at previous
        cases previous
    | some names =>
        rw [found] at previous
        exact tracks.named key names found previous
  · exact tracks.marks.named key names found member

/-! ### The batch on the mirror -/

/-- A removal among the events is about a sent or marked spec that is gone. -/
theorem removed_of_mem (tracks : session.Tracks rules) {delta : SpecDelta}
    (member : delta ∈ session.emitter.sentEvents rules usd session.source)
    (removed : delta.removed = true) :
    ∃ key : SpecKey, key.kind.delta.accepts key.path = true ∧
      session.source.content.specKind key.path ≠ some key.kind ∧ delta.specPath = key.path ∧
        delta.specKind = key.kind.delta ∧ "" ∉ delta.fields ∧
          ((session.emitter.sdfSpecFields.get? key).isSome = true ∨ key.kind.isProperty = true) := by
  obtain ⟨key, _, visited⟩ := List.mem_flatMap.1 member
  unfold SpecEmitter.visitEvents at visited
  dsimp only at visited
  split at visited
  · split at visited
    · rw [List.mem_singleton.1 visited] at removed
      cases removed
    · cases visited
  · next gone =>
      split at visited
      · next due =>
          obtain rfl := List.mem_singleton.1 visited
          have origin := Bool.or_eq_true_iff.1 due
          refine ⟨key, ?_, gone, rfl, rfl, ?_, origin.imp_right fun both =>
            (Bool.and_eq_true_iff.1 both).2⟩
          · rcases origin with sent | both
            · exact (tracks.standing key sent).1
            · exact tracks.marks.accepted key (Bool.and_eq_true_iff.1 both).1
          · show "" ∉ sortedFields _
            rw [SpecEmitter.mem_sortedFields, List.mem_append, not_or]
            constructor
            · cases found : session.emitter.sdfSpecFields.get? key with
              | none => exact List.not_mem_nil
              | some names => exact tracks.named key names found
            · cases found : session.emitter.dirtySdfSpecs.get? key with
              | none => exact List.not_mem_nil
              | some changed =>
                  cases changed with
                  | none => exact List.not_mem_nil
                  | some names => exact tracks.marks.named key names found
      · cases visited

/-- The build sends fields of the spec, or its identity. -/
def SendsSpec (rules : SpecRules) (session : SpecSession) (key : SpecKey) : Prop :=
  session.emitter.selectedFields rules session.source key
      (session.emitter.sdfSpecFields.get? key) ≠ [] ∨
    session.source.sdfSpecRequiresIdentity key = true ∧
      session.emitter.sdfSpecFields.get? key = none

/-- The other events carry the selected fields of a spec that is there. -/
theorem kept_of_mem {delta : SpecDelta}
    (member : delta ∈ session.emitter.sentEvents rules usd session.source)
    (kept : delta.removed = false) :
    ∃ key ∈ session.emitter.candidates session.source,
      session.source.content.specKind key.path = some key.kind ∧ SendsSpec rules session key ∧
        delta = fieldsEvent usd session.source key
          (session.emitter.selectedFields rules session.source key
            (session.emitter.sdfSpecFields.get? key)) := by
  obtain ⟨key, candidate, visited⟩ := List.mem_flatMap.1 member
  unfold SpecEmitter.visitEvents at visited
  dsimp only at visited
  split at visited
  · next present =>
      split at visited
      · next due =>
          refine ⟨key, candidate, present, ?_, List.mem_singleton.1 visited⟩
          unfold SendsSpec
          rw [Bool.or_eq_true, Bool.and_eq_true, Option.isNone_iff_eq_none, Bool.not_eq_true',
            List.isEmpty_eq_false_iff] at due
          exact due
      · cases visited
  · split at visited
    · rw [List.mem_singleton.1 visited] at kept
      cases kept
    · cases visited

theorem sends_of_mem (tracks : session.Tracks rules)
    (texts : TextsReadBack rules usd session .build) {delta : SpecDelta}
    (member : delta ∈ session.emitter.sentEvents rules usd session.source)
    (kept : delta.removed = false) : ∃ key, delta.Sends usd session.source.content key := by
  obtain ⟨key, candidate, present, _, rfl⟩ := kept_of_mem member kept
  have accepted := session.source.standing _ _ present
  refine ⟨key, rfl, rfl, ⟨?_, rfl, texts key candidate present, ?_⟩, present⟩
  · rw [checkSpecDelta_eq_none]
    refine ⟨accepted, ?_, ?_, by simp [fieldsEvent], ?_⟩
    · rintro field listed rfl
      exact named_selectedFields tracks (SpecEmitter.mem_sortedFields.1 listed)
    · rintro ⟨layered, field, listed, topology⟩
      apply (SpecEmitter.of_mem_selectedFields (SpecEmitter.mem_sortedFields.1 listed)).2
      refine ⟨?_, topology⟩
      have same : key.kind.delta = SpecKind.layer.delta := layered
      exact SpecKind.delta_inj.1 same
    · rintro ⟨generic, _⟩
      have concrete := key.kind.concrete_delta
      rw [show key.kind.delta = .property from generic] at concrete
      cases concrete
  · exact (hasSpecOfKind_iff_holds accepted key.kind.concrete_delta).2
      (serializedLayer_facts _ accepted key.kind.concrete_delta _).1

theorem pairwise_sentEvents : (session.emitter.sentEvents rules usd session.source).Pairwise
    fun first second =>
      ¬ (first.specKind = second.specKind ∧ first.specPath = second.specPath) := by
  have own : ∀ (key : SpecKey) delta,
      delta ∈ session.emitter.visitEvents rules usd session.source key →
        delta.specKind = key.kind.delta ∧ delta.specPath = key.path := by
    intro key delta visited
    unfold SpecEmitter.visitEvents at visited
    dsimp only at visited
    split at visited <;> split at visited
    · rw [List.mem_singleton.1 visited]
      exact ⟨rfl, rfl⟩
    · cases visited
    · rw [List.mem_singleton.1 visited]
      exact ⟨rfl, rfl⟩
    · cases visited
  unfold SpecEmitter.sentEvents
  rw [List.pairwise_flatMap]
  constructor
  · intro key _
    unfold SpecEmitter.visitEvents
    dsimp only
    split <;> split <;> simp
  · have distinct : (session.emitter.candidates session.source).Nodup := List.nodup_dedup _
    refine distinct.imp fun {first second} apart => ?_
    rintro delta visited other otherVisited ⟨sameKind, samePath⟩
    obtain ⟨kind, path⟩ := own first delta visited
    obtain ⟨otherKind, otherPath⟩ := own second other otherVisited
    rw [kind, otherKind, SpecKind.delta_inj] at sameKind
    rw [path, otherPath] at samePath
    apply apart
    rcases first with ⟨firstKind, firstPath⟩
    rcases second with ⟨secondKind, secondPath⟩
    dsimp only at sameKind samePath
    rw [sameKind, samePath]

theorem removalBatch (tracks : session.Tracks rules) :
    RemovalBatch session.mirror (session.emitter.removals rules usd session.source) := by
  constructor
  · intro delta member
    obtain ⟨listed, removed⟩ := List.mem_filter.1 member
    obtain ⟨key, accepted, gone, path, kind, named, origin⟩ :=
      removed_of_mem tracks (SpecEmitter.mem_sortEvents.1 listed) removed
    refine ⟨?_, removed, fun variantSet => ?_⟩
    · rw [checkSpecDelta_eq_none, path, kind]
      have notLayer : key.kind ≠ .layer := by
        intro layered
        apply gone
        have top := (SpecKind.eq_root_iff accepted).2 layered
        rw [specKind_iff_holds accepted, top]
        exact session.source.content.pseudoRoot
      have below : key.kind.delta ≠ .layer := fun layered => notLayer (SpecKind.delta_inj.1 layered)
      refine ⟨accepted, ?_, fun both => below both.1, fun both => below both.2, ?_⟩
      · rintro field listed rfl
        exact named listed
      · rintro ⟨_, keptBack⟩
        rw [removed] at keptBack
        cases keptBack
    · rw [kind] at variantSet
      have set : key.kind = .variantSet := SpecKind.delta_inj.1 variantSet
      have sent := origin.resolve_right (by simp [set, SpecKind.isProperty])
      rw [path, kind, hasSpecOfKind_delta]
      exact (tracks.listed key sent).1
  · have ordered := @pairwise_sortEvents rules
      (session.emitter.sentEvents rules usd session.source)
    have distinct : (session.emitter.batch rules usd session.source).Pairwise fun first second =>
          ¬ (first.specKind = second.specKind ∧ first.specPath = second.specPath) := by
      refine ((List.perm_insertionSort _ _).pairwise_iff ?_).2 pairwise_sentEvents
      exact fun {first second} apart same => apart ⟨same.1.symm, same.2.symm⟩
    refine ((ordered.and distinct).filter _).imp_of_mem ?_
    rintro first second firstMember secondMember ⟨sorted, apart⟩ variantSet
    obtain ⟨firstListed, firstRemoved⟩ := List.mem_filter.1 firstMember
    obtain ⟨secondListed, secondRemoved⟩ := List.mem_filter.1 secondMember
    obtain ⟨key, accepted, _, path, kind, _, origin⟩ :=
      removed_of_mem tracks (SpecEmitter.mem_sortEvents.1 secondListed) secondRemoved
    obtain ⟨outer, outerAccepted, _, outerPath, outerKind, _⟩ :=
      removed_of_mem tracks (SpecEmitter.mem_sortEvents.1 firstListed) firstRemoved
    have set : key.kind = .variantSet := SpecKind.delta_inj.1 (kind ▸ variantSet)
    have sent := origin.resolve_right (by simp [set, SpecKind.isProperty])
    have plain : key.path.property = none := by
      have noProperty : ¬ key.kind.isProperty = true := by simp [set, SpecKind.isProperty]
      rw [isProperty_of_accepts accepted, Option.not_isSome_iff_eq_none] at noProperty
      exact noProperty
    have prim : key.path = ⟨key.path.prim, none⟩ := by
      rcases key with ⟨_, prim, property⟩
      obtain rfl : property = none := plain
      rfl
    have primKind : key.path.prim.kind = .variantSet := by
      rw [prim] at accepted
      rw [← set]
      exact (PrimPath.kind_of_accepts accepted key.kind.concrete_delta).symm
    have deeper := (order_of_sortKey sorted).2 firstRemoved secondRemoved
    rw [path] at deeper ⊢
    rw [outerPath] at deeper ⊢
    refine SpecPath.not_inside_of_depth primKind (tracks.standing key sent).2 ?_ deeper
    -- one path, so one kind
    intro same
    apply apart
    rw [path, outerPath, kind, outerKind, ← same, SpecKind.delta_inj]
    refine ⟨?_, rfl⟩
    rw [← same, prim] at outerAccepted
    rw [prim] at accepted
    rw [PrimPath.kind_of_accepts accepted key.kind.concrete_delta,
      PrimPath.kind_of_accepts outerAccepted outer.kind.concrete_delta]

/-- The mirror once the removals of a build are applied. -/
structure Cleared (session : SpecSession) (middle : Layer) : Prop where
  stays : ∀ key : SpecKey, session.source.content.specKind key.path = some key.kind →
    session.mirror.specKind key.path = some key.kind →
      middle.specKind key.path = some key.kind ∧
        ∀ name, middle.fieldAs key name = session.mirror.fieldAs key name
  either : ∀ key : SpecKey, key.kind.delta.accepts key.path = true → ∀ name,
    middle.fieldAs key name = session.mirror.fieldAs key name ∨
      middle.fieldAs key name = fun _ => none
  only : ∀ path kind, middle.specKind path = some kind →
    session.mirror.specKind path = some kind
  removed : ∀ key, (session.emitter.sdfSpecFields.get? key).isSome = true →
    session.source.content.specKind key.path ≠ some key.kind →
      middle.specKind key.path ≠ some key.kind

theorem cleared_of_values (tracks : session.Tracks rules) (traceable : session.Traceable rules)
    {middle : Layer}
    (values : ∀ path field, middle.value path field =
      if ∃ delta ∈ session.emitter.removals rules usd session.source,
        delta.Hits session.mirror path then none else session.mirror.value path field) :
    Cleared session middle := by
  have same : ∀ key : SpecKey, session.source.content.specKind key.path = some key.kind →
      session.mirror.specKind key.path = some key.kind → ∀ field,
        middle.value key.path field = session.mirror.value key.path field := by
    intro key present onMirror field
    refine (values key.path field).trans (if_neg ?_)
    rintro ⟨delta, member, hits⟩
    obtain ⟨listed, removed⟩ := List.mem_filter.1 member
    obtain ⟨outer, accepted, gone, path, kind, _⟩ :=
      removed_of_mem tracks (SpecEmitter.mem_sortEvents.1 listed) removed
    exact SpecDelta.not_hits_of_present accepted path kind gone present onMirror hits
  constructor
  · intro key present onMirror
    have fields := same key present onMirror
    exact ⟨(Layer.specKind_congr (fields .spec)).trans onMirror,
      Layer.fieldAs_congr (session.source.standing _ _ present) fields⟩
  · intro key accepted name
    by_cases hit : ∃ delta ∈ session.emitter.removals rules usd session.source,
      delta.Hits session.mirror key.path
    · right
      apply Layer.fieldAs_of_ne
      unfold Layer.specKind
      rw [values, if_pos hit]
      exact fun impossible => nomatch impossible
    · left
      exact Layer.fieldAs_congr accepted (fun field => (values _ _).trans (if_neg hit)) name
  · intro path kind found
    have value := values path .spec
    split at value
    · unfold Layer.specKind at found
      rw [value] at found
      cases found
    · rwa [Layer.specKind_congr value] at found
  · intro key sent gone
    have candidate := @SpecEmitter.candidate_of_sent _ session.source key
      (traceable.goneNoticed sent gone) sent
    have hit : ∃ delta ∈ session.emitter.removals rules usd session.source,
        delta.Hits session.mirror key.path := by
      refine ⟨removalEvent key ((session.emitter.sdfSpecFields.get? key).getD [] ++
        ((session.emitter.dirtySdfSpecs.get? key).bind id).getD []), ?_, ?_, SpecPath.Inside.refl _⟩
      · refine List.mem_filter.2 ⟨SpecEmitter.mem_sortEvents.2
          (List.mem_flatMap.2 ⟨key, candidate, ?_⟩), rfl⟩
        unfold SpecEmitter.visitEvents
        dsimp only
        rw [if_neg gone, if_pos (by simp [sent])]
        exact List.mem_singleton_self _
      · exact hasSpecOfKind_delta.2 (tracks.listed key sent).1
    unfold Layer.specKind
    rw [values, if_pos hit]
    exact fun impossible => nomatch impossible

/-- The mirror once all events of a build are applied. -/
def builtMirror (rules : SpecRules) (usd : Usd) (session : SpecSession) : Layer :=
  (applySpecDeltas usd (session.emitter.batch rules usd session.source)).after session.mirror

/-- The mirror after a build: it went through the removals, and then took every field that was
sent. -/
theorem exists_cleared (tracks : session.Tracks rules) (traceable : session.Traceable rules)
    (texts : TextsReadBack rules usd session .build) :
    ∃ middle, Cleared session middle ∧
      (applySpecDeltas usd (session.emitter.batch rules usd session.source)).result
        session.mirror = .ok () ∧
      Copied session.source.content middle (builtMirror rules usd session) ∧
      ∀ delta ∈ session.emitter.sentEvents rules usd session.source, ∀ key : SpecKey,
        delta.Sends usd session.source.content key →
          (builtMirror rules usd session).specKind key.path = some key.kind ∧
            ∀ name ∈ delta.fields, (builtMirror rules usd session).fieldAs key name =
              session.source.content.fieldAs key name := by
  let rest := (session.emitter.batch rules usd session.source).filter (!·.removed)
  have sends : ∀ delta ∈ rest, ∃ key, delta.Sends usd session.source.content key := by
    intro delta member
    obtain ⟨listed, kept⟩ := List.mem_filter.1 member
    exact sends_of_mem tracks texts (SpecEmitter.mem_sortEvents.1 listed) (by simpa using kept)
  obtain ⟨returned, values⟩ := @value_removals usd _ _ (@removalBatch rules usd session tracks)
  obtain ⟨finished, copied, reached⟩ := copies_batch sends
    ((applySpecDeltas usd (session.emitter.removals rules usd session.source)).after
      session.mirror)
  have split : session.emitter.batch rules usd session.source =
      session.emitter.removals rules usd session.source ++ rest :=
    removals_append_rest ((@pairwise_sortEvents rules _).imp
      fun ordered => (order_of_sortKey ordered).1)
  have whole : applySpecDeltas usd (session.emitter.batch rules usd session.source) =
      applySpecDeltas usd (session.emitter.removals rules usd session.source) >>= fun _ =>
        applySpecDeltas usd rest := by
    rw [split]
    exact List.forM_append
  unfold builtMirror
  refine ⟨_, cleared_of_values tracks traceable values, ?_, ?_, ?_⟩
  · rw [whole, Edit.result_bind_of_ok returned]
    exact finished
  · rw [whole, Edit.after_bind_of_ok returned]
    exact copied
  · rw [whole, Edit.after_bind_of_ok returned]
    intro delta member key sends
    refine reached delta (List.mem_filter.2 ⟨SpecEmitter.mem_sortEvents.2 member, ?_⟩) key sends
    simp [sends.reads.kept]

end Build

end SpecSession

end UsdConnect
