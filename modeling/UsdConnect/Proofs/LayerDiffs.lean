/-
Purpose: The difference of two layers: which fields its events carry, in which order they come, and
  what the batch leaves when it is applied to the earlier layer.
Trusted boundary: none
Main exports: diffSpecs_of_flat, after_prefix, findsPlace_of_split, reproduces
-/
import UsdConnect.Client.LayerTracker
import UsdConnect.Proofs.SpecBuilds

namespace UsdConnect.LayerTracker

variable {rules : TrackerRules} {usd : Usd} {previous current : CapturedLayer usd}

/-! ### Fields -/

theorem mem_indexedFields (captured : CapturedLayer usd) {key : SpecKey} {name : String} :
    name ∈ indexedFields usd captured.content key ↔
      captured.content.Authors key.path name ∧
        ¬ (key.kind = .layer ∧ name ∈ layerTopologyFields) := by
  unfold indexedFields
  rw [SpecEmitter.mem_sortedFields, List.mem_filter, ← captured.listed, captured.mem_infoKeys]
  simp only [Bool.not_eq_true', decide_eq_false_iff_not]

/-- What `ListInfoKeys` does not list reads as unauthored. -/
theorem fieldAs_of_not_authors {layer : Layer} {key : SpecKey} {name : String}
    (accepted : key.kind.delta.accepts key.path = true)
    (missing : ¬ layer.Authors key.path name) : layer.fieldAs key name = fun _ => none := by
  by_cases present : layer.specKind key.path = some key.kind
  · funext time
    unfold Layer.Authors at missing
    unfold Layer.fieldAs
    rw [if_pos present]
    by_cases samples : name = "timeSamples"
    · rw [if_pos samples] at missing ⊢
      split
      · next animated =>
          rw [present, animated] at missing
          by_contra some
          exact missing ⟨rfl, time, Option.isSome_iff_ne_none.2 some⟩
      · rfl
    · rw [if_neg samples, Option.not_isSome_iff_eq_none] at missing
      rw [if_neg samples]
      split
      · next layerData =>
          have top := (SpecKind.eq_root_iff accepted).2 layerData.1
          rw [top, layerData.2] at missing
          have empty : layer.ownData = [] := by
            unfold Layer.ownData Layer.layerData
            rw [missing]
            rfl
          exact if_pos empty
      · exact missing
  · exact Layer.fieldAs_of_ne present name

theorem CapturedLayer.sample_eq_none {captured : CapturedLayer usd} {path : SpecPath}
    {time : TimeCode} (missing : time ∉ captured.sampleTimes path) :
    captured.content.value path (.sample time) = none := by
  rw [captured.mem_sampleTimes] at missing
  exact Option.not_isSome_iff_eq_none.1 missing

/-- Fields that `GetInfo` returns alike read alike. -/
theorem CapturedLayer.SameInfo.fieldAs {key : SpecKey} {name : String}
    (same : previous.SameInfo current key.path name)
    (accepted : key.kind.delta.accepts key.path = true)
    (before : previous.content.specKind key.path = some key.kind)
    (after : current.content.specKind key.path = some key.kind) :
    previous.content.fieldAs key name = current.content.fieldAs key name := by
  funext time
  unfold SameInfo at same
  unfold Layer.fieldAs
  rw [if_pos before, if_pos after]
  by_cases samples : name = "timeSamples"
  · rw [if_pos samples] at same ⊢
    rw [if_pos samples]
    have sampled : previous.content.value key.path (.sample time) =
        current.content.value key.path (.sample time) := by
      by_cases listed : time ∈ previous.sampleTimes key.path ++ current.sampleTimes key.path
      · exact same time listed
      · rw [List.mem_append, not_or] at listed
        rw [sample_eq_none listed.1, sample_eq_none listed.2]
    rw [sampled]
  · rw [if_neg samples] at same ⊢
    rw [if_neg samples, same]
    by_cases layerData : key.kind = .layer ∧ name = "customLayerData"
    · have top := (SpecKind.eq_root_iff accepted).2 layerData.1
      rw [top, layerData.2] at same
      rw [if_pos layerData, if_pos layerData, Layer.ownData_congr same]
    · rw [if_neg layerData, if_neg layerData]

theorem fieldAs_of_not_changed {key : SpecKey} {name : String}
    (before : previous.content.specKind key.path = some key.kind)
    (after : current.content.specKind key.path = some key.kind)
    (plain : ¬ (key.kind = .layer ∧ name ∈ layerTopologyFields))
    (unchanged : name ∉ changedFields previous current key) :
    previous.content.fieldAs key name = current.content.fieldAs key name := by
  have accepted := current.standing _ _ after
  have old := @mem_indexedFields usd previous key name
  have new := @mem_indexedFields usd current key name
  unfold changedFields at unchanged
  dsimp only at unchanged
  rw [List.mem_filter, SpecEmitter.mem_sortedFields, List.mem_append, not_and, Bool.not_eq_true,
    Bool.or_eq_false_iff, bne_eq_false_iff_eq, decide_eq_decide, Bool.not_eq_false',
    decide_eq_true_iff] at unchanged
  by_cases listed : name ∈ indexedFields usd previous.content key ∨
      name ∈ indexedFields usd current.content key
  · exact (unchanged listed).2.fieldAs accepted before after
  · rw [not_or, old, new] at listed
    rw [fieldAs_of_not_authors accepted fun authored => listed.1 ⟨authored, plain⟩,
      fieldAs_of_not_authors accepted fun authored => listed.2 ⟨authored, plain⟩]

/-! ### The event about one spec -/

theorem indexSpecs_isSome {layer : Layer} {key : SpecKey} :
    (indexSpecs usd layer key).isSome = true ↔ layer.specKind key.path = some key.kind := by
  unfold indexSpecs
  split <;> simp_all

theorem indexSpecs_of_present {layer : Layer} {key : SpecKey}
    (present : layer.specKind key.path = some key.kind) :
    indexSpecs usd layer key = some (indexedFields usd layer key) :=
  if_pos present

theorem indexSpecs_of_missing {layer : Layer} {key : SpecKey}
    (missing : layer.specKind key.path ≠ some key.kind) : indexSpecs usd layer key = none :=
  if_neg missing

/-- The events about one spec: it is gone, it is new, or some of its fields differ. -/
inductive EventOf (previous current : CapturedLayer usd) (key : SpecKey) : SpecDelta → Prop where
  | gone (before : previous.content.specKind key.path = some key.kind)
      (after : current.content.specKind key.path ≠ some key.kind) :
      EventOf previous current key
        (removalEvent key (indexedFields usd previous.content key))
  | new (before : previous.content.specKind key.path ≠ some key.kind)
      (after : current.content.specKind key.path = some key.kind) :
      EventOf previous current key
        (fieldsEvent usd current.toSourceLayer key (indexedFields usd current.content key))
  | changed (before : previous.content.specKind key.path = some key.kind)
      (after : current.content.specKind key.path = some key.kind)
      (differs : changedFields previous current key ≠ []) :
      EventOf previous current key
        (fieldsEvent usd current.toSourceLayer key (changedFields previous current key))

theorem specEvent_eq_some_iff {key : SpecKey} {delta : SpecDelta} :
    specEvent previous current key = some delta ↔ EventOf previous current key delta := by
  unfold specEvent
  by_cases before : previous.content.specKind key.path = some key.kind
  · by_cases after : current.content.specKind key.path = some key.kind
    · rw [indexSpecs_of_present before, indexSpecs_of_present after]
      dsimp only
      constructor
      · intro found
        split at found
        · cases found
        · next fields differs =>
            rw [← Option.some.inj found]
            exact .changed before after differs
      · intro event
        cases event with
        | gone _ missing => exact absurd after missing
        | new missing _ => exact absurd before missing
        | changed _ _ differs =>
            split
            · next none => exact absurd none differs
            · rfl
    · rw [indexSpecs_of_present before, indexSpecs_of_missing after]
      constructor
      · intro found
        rw [← Option.some.inj found]
        exact .gone before after
      · intro event
        cases event with
        | gone _ _ => rfl
        | new missing _ => exact absurd before missing
        | changed _ present _ => exact absurd present after
  · by_cases after : current.content.specKind key.path = some key.kind
    · rw [indexSpecs_of_missing before, indexSpecs_of_present after]
      constructor
      · intro found
        rw [← Option.some.inj found]
        exact .new before after
      · intro event
        cases event with
        | gone present _ => exact absurd present before
        | new _ _ => rfl
        | changed present _ _ => exact absurd present before
    · rw [indexSpecs_of_missing before, indexSpecs_of_missing after]
      constructor
      · intro found
        cases found
      · intro event
        cases event with
        | gone present _ => exact absurd present before
        | new _ present => exact absurd present after
        | changed present _ _ => exact absurd present before

namespace EventOf

variable {key : SpecKey} {delta : SpecDelta}

theorem specPath (event : EventOf previous current key delta) : delta.specPath = key.path := by
  cases event <;> rfl

theorem specKind (event : EventOf previous current key delta) :
    delta.specKind = key.kind.delta := by
  cases event <;> rfl

/-- Events are about specs that one of the layers has. -/
theorem there (event : EventOf previous current key delta) :
    previous.content.specKind key.path = some key.kind ∨
      current.content.specKind key.path = some key.kind := by
  cases event with
  | gone before _ => exact .inl before
  | new _ after => exact .inr after
  | changed before _ _ => exact .inl before

theorem accepted (event : EventOf previous current key delta) :
    key.kind.delta.accepts key.path = true := by
  rcases event.there with before | after
  · exact previous.standing _ _ before
  · exact current.standing _ _ after

theorem selecting (event : EventOf previous current key delta) : key.path.prim.Selecting := by
  rcases event.there with before | after
  · apply previous.selecting
    rw [previous.mem_paths, ← Layer.specKind_isSome, before]
    rfl
  · apply current.selecting
    rw [current.mem_paths, ← Layer.specKind_isSome, after]
    rfl

theorem of_removed (event : EventOf previous current key delta) (removed : delta.removed = true) :
    previous.content.specKind key.path = some key.kind ∧
      current.content.specKind key.path ≠ some key.kind := by
  cases event with
  | gone before after => exact ⟨before, after⟩
  | new _ _ => cases removed
  | changed _ _ _ => cases removed

/-- Any other event is about a spec of the current layer. -/
theorem of_kept (event : EventOf previous current key delta) (kept : delta.removed = false) :
    current.content.specKind key.path = some key.kind := by
  cases event with
  | gone _ _ => cases kept
  | new _ after => exact after
  | changed _ after _ => exact after

/-- Events name fields that one of the layers lists. -/
theorem of_mem_fields (event : EventOf previous current key delta) {name : String}
    (member : name ∈ delta.fields) :
    (name ∈ previous.infoKeys key.path ∨ name ∈ current.infoKeys key.path) ∧
      ¬ (key.kind = .layer ∧ name ∈ layerTopologyFields) := by
  have old := @mem_indexedFields usd previous key name
  have new := @mem_indexedFields usd current key name
  rw [← SourceLayer.mem_infoKeys] at old new
  have listed : name ∈ indexedFields usd previous.content key ∨
      name ∈ indexedFields usd current.content key := by
    cases event with
    | gone _ _ => exact .inl (SpecEmitter.mem_sortedFields.1 member)
    | new _ _ => exact .inr (SpecEmitter.mem_sortedFields.1 member)
    | changed _ _ _ =>
        have changed : name ∈ changedFields previous current key :=
          SpecEmitter.mem_sortedFields.1 member
        exact List.mem_append.1 (SpecEmitter.mem_sortedFields.1 (List.mem_filter.1 changed).1)
  rw [old, new, ← or_and_right] at listed
  exact listed

theorem checked (event : EventOf previous current key delta) : checkSpecDelta delta = none := by
  have accepted := event.accepted
  rw [checkSpecDelta_eq_none, event.specPath, event.specKind]
  refine ⟨accepted, ?_, ?_, ?_, ?_⟩
  · rintro field member rfl
    rcases (event.of_mem_fields member).1 with old | new
    · exact previous.named _ old
    · exact current.named _ new
  · rintro ⟨layered, field, member, topology⟩
    have kind : key.kind.delta = SpecKind.layer.delta := layered
    exact (event.of_mem_fields member).2 ⟨SpecKind.delta_inj.1 kind, topology⟩
  · rintro ⟨removed, layered⟩
    have kind : key.kind.delta = SpecKind.layer.delta := layered
    have top := (SpecKind.eq_root_iff accepted).2 (SpecKind.delta_inj.1 kind)
    apply (event.of_removed removed).2
    rw [specKind_iff_holds accepted, top, SpecKind.delta_inj.1 kind]
    exact current.content.pseudoRoot
  · rintro ⟨generic, _⟩
    have concrete := key.kind.concrete_delta
    rw [generic] at concrete
    cases concrete

theorem removes (event : EventOf previous current key delta) (removed : delta.removed = true) :
    delta.Removes previous.content := by
  refine ⟨event.checked, removed, fun _ => ?_⟩
  rw [event.specPath, event.specKind, hasSpecOfKind_delta]
  exact (event.of_removed removed).1

theorem sends (event : EventOf previous current key delta) (kept : delta.removed = false)
    (texts : FragmentsReadBack previous current) : delta.Sends usd current.content key := by
  have read := texts key delta (specEvent_eq_some_iff.2 event) kept
  refine ⟨event.specPath, event.specKind, ⟨event.checked, kept, read, ?_⟩, event.of_kept kept⟩
  rw [event.specPath, event.specKind]
  exact (hasSpecOfKind_iff_holds event.accepted key.kind.concrete_delta).2
    (serializedLayer_facts _ event.accepted key.kind.concrete_delta _).1

end EventOf

/-- There is one event about a spec at most. -/
theorem EventOf.unique {key : SpecKey} {first second : SpecDelta}
    (one : EventOf previous current key first) (two : EventOf previous current key second) :
    first = second := by
  have found := specEvent_eq_some_iff.2 one
  rw [specEvent_eq_some_iff.2 two] at found
  exact (Option.some.inj found).symm

/-! ### The order of the events -/

/-- The spec of one event is created before, and removed after, that of the other. -/
def Above (outer inner : SpecDelta) : Prop :=
  outer.specPath.depth < inner.specPath.depth ∨
    outer.specPath.depth = inner.specPath.depth ∧
      outer.specKind.createOrder < inner.specKind.createOrder

/-- So it is where one spec lies in the other. -/
theorem above_of_inside {innerKey outerKey : SpecKey} {inner outer : SpecDelta}
    (innerEvent : EventOf previous current innerKey inner)
    (outerEvent : EventOf previous current outerKey outer)
    (inside : innerKey.path.Inside outerKey.path) (apart : innerKey.path ≠ outerKey.path) :
    Above outer inner := by
  have innerAccepted := innerEvent.accepted
  have outerAccepted := outerEvent.accepted
  unfold Above
  rw [innerEvent.specPath, outerEvent.specPath, innerEvent.specKind, outerEvent.specKind]
  rcases SpecPath.depth_of_inside innerEvent.selecting inside apart with deeper |
    ⟨same, outerPlain, outerSet, innerPlain, innerSelection⟩
  · exact .inl deeper
  · refine .inr ⟨same, ?_⟩
    rcases innerKey with ⟨innerKind, innerPrim, innerProperty⟩
    rcases outerKey with ⟨outerKind, outerPrim, outerProperty⟩
    dsimp only at outerPlain outerSet innerPlain innerSelection innerAccepted outerAccepted ⊢
    rw [innerPlain] at innerAccepted
    rw [outerPlain] at outerAccepted
    rw [PrimPath.kind_of_accepts innerAccepted innerKind.concrete_delta, innerSelection,
      PrimPath.kind_of_accepts outerAccepted outerKind.concrete_delta, outerSet]
    decide

/-- Removals come first, the inner specs before the outer ones; the others come the other way
round. -/
theorem order_of_trackerSortKey {first second : SpecDelta}
    (sorted : trackerSortKey rules first ≤ trackerSortKey rules second) :
    (second.removed = true → first.removed = true) ∧
      (first.removed = true → second.removed = true → ¬ Above first second) ∧
      (first.removed = false → second.removed = false → ¬ Above second first) := by
  unfold trackerSortKey trackerRemoveOrder at sorted
  unfold Above
  cases firstRemoved : first.removed <;> cases secondRemoved : second.removed <;>
    simp only [firstRemoved, secondRemoved, Bool.false_eq_true, if_true, if_false,
      Prod.Lex.toLex_le_toLex] at sorted
  · simp only [Bool.false_eq_true, forall_true_left, false_implies, true_and]
    omega
  · omega
  · simp
  · simp only [forall_true_left, true_and]
    refine ⟨?_, by simp⟩
    omega

/-- A sorted batch with the event of every spec that differs. -/
structure DiffBatch (rules : TrackerRules) (previous current : CapturedLayer usd)
    (events : List SpecDelta) : Prop where
  each : ∀ delta ∈ events, ∃ key, EventOf previous current key delta
  all : ∀ key delta, EventOf previous current key delta → delta ∈ events
  sorted : events.Pairwise fun first second =>
    trackerSortKey rules first ≤ trackerSortKey rules second
  distinct : events.Nodup

theorem mem_specKeys {captured : CapturedLayer usd} {key : SpecKey} :
    key ∈ captured.specKeys ↔ captured.content.specKind key.path = some key.kind := by
  unfold CapturedLayer.specKeys SourceLayer.keyAt
  rw [List.mem_filterMap]
  constructor
  · rintro ⟨path, _, found⟩
    obtain ⟨kind, present, rfl⟩ := Option.map_eq_some_iff.1 found
    exact present
  · intro present
    refine ⟨key.path, ?_, ?_⟩
    · rw [captured.mem_paths, ← Layer.specKind_isSome, present]
      rfl
    · rw [present]
      rfl

/-- Where no nested variant set has to be copied, the layers have a difference. -/
theorem diffSpecs_of_flat (rules : TrackerRules)
    (flat : ∀ key, ¬ CopiesNested previous current key) :
    ∃ events, diffSpecs rules previous current = .ok events ∧
      DiffBatch rules previous current events := by
  have calm : ((previous.specKeys ++ current.specKeys).dedup.any fun key =>
      decide (CopiesNested previous current key)) = false := by
    rw [List.any_eq_false]
    intro key _
    rw [decide_eq_true_iff]
    exact flat key
  unfold diffSpecs
  dsimp only
  rw [calm, if_neg (by decide)]
  refine ⟨_, rfl, ?_, ?_, ?_, ?_⟩
  · intro delta member
    obtain ⟨key, _, found⟩ := List.mem_filterMap.1 ((List.mem_insertionSort _).1 member)
    exact ⟨key, specEvent_eq_some_iff.1 found⟩
  · intro key delta event
    refine (List.mem_insertionSort _).2 (List.mem_filterMap.2 ⟨key, ?_,
      specEvent_eq_some_iff.2 event⟩)
    rw [List.mem_dedup, List.mem_append, mem_specKeys, mem_specKeys]
    exact event.there
  · have : Std.Total fun first second : SpecDelta =>
        trackerSortKey rules first ≤ trackerSortKey rules second :=
      ⟨fun first second => le_total _ _⟩
    have : IsTrans SpecDelta fun first second =>
        trackerSortKey rules first ≤ trackerSortKey rules second :=
      ⟨fun _ _ _ => le_trans⟩
    exact List.pairwise_insertionSort _ _
  · rw [(List.perm_insertionSort _ _).nodup_iff]
    refine List.Nodup.filterMap ?_ (List.nodup_dedup _)
    intro first second delta one two
    have firstEvent := specEvent_eq_some_iff.1 one
    have secondEvent := specEvent_eq_some_iff.1 two
    have kind : first.kind.delta = second.kind.delta :=
      firstEvent.specKind.symm.trans secondEvent.specKind
    have path : first.path = second.path := firstEvent.specPath.symm.trans secondEvent.specPath
    rcases first with ⟨firstKind, firstPath⟩
    rcases second with ⟨secondKind, secondPath⟩
    rw [SpecKind.delta_inj] at kind
    dsimp only at kind path
    rw [kind, path]

def removalsOf (events : List SpecDelta) : List SpecDelta :=
  events.filter (·.removed)

namespace DiffBatch

variable {events before rest : List SpecDelta}

/-- A removal lies in no spec that was removed before it. -/
theorem not_inside (batch : DiffBatch rules previous current events) {first second : SpecDelta}
    (firstMember : first ∈ events) (secondMember : second ∈ events)
    (sorted : trackerSortKey rules first ≤ trackerSortKey rules second) (apart : first ≠ second)
    (firstRemoved : first.removed = true) (secondRemoved : second.removed = true) :
    ¬ second.specPath.Inside first.specPath := by
  intro inside
  obtain ⟨outerKey, outer⟩ := batch.each first firstMember
  obtain ⟨innerKey, inner⟩ := batch.each second secondMember
  rw [inner.specPath, outer.specPath] at inside
  by_cases here : innerKey.path = outerKey.path
  · -- one path has one kind, and one event
    have innerKind := (inner.of_removed secondRemoved).1
    have outerKind := (outer.of_removed firstRemoved).1
    rw [here, outerKind, Option.some.injEq] at innerKind
    have same : outerKey = innerKey := by
      rcases outerKey with ⟨kind, path⟩
      rcases innerKey with ⟨otherKind, otherPath⟩
      dsimp only at innerKind here
      rw [innerKind, here]
    rw [same] at outer
    exact apart (outer.unique inner)
  · exact (order_of_trackerSortKey sorted).2.1 firstRemoved secondRemoved
      (above_of_inside inner outer inside here)

theorem pairwise_first (batch : DiffBatch rules previous current events)
    (split : events = before ++ rest) :
    before.Pairwise fun first second =>
      trackerSortKey rules first ≤ trackerSortKey rules second ∧ first ≠ second := by
  have both := batch.sorted.and batch.distinct
  rw [split] at both
  exact (List.pairwise_append.1 both).1

theorem removalBatch (batch : DiffBatch rules previous current events)
    (split : events = before ++ rest) :
    RemovalBatch previous.content (removalsOf before) := by
  have inEvents : ∀ delta ∈ before, delta ∈ events := by
    intro delta member
    rw [split]
    exact List.mem_append_left _ member
  constructor
  · intro delta member
    obtain ⟨listed, removed⟩ := List.mem_filter.1 member
    obtain ⟨key, event⟩ := batch.each delta (inEvents delta listed)
    exact event.removes removed
  · refine ((batch.pairwise_first split).filter _).imp_of_mem ?_
    rintro first second firstMember secondMember ⟨sorted, apart⟩ _
    obtain ⟨firstListed, firstRemoved⟩ := List.mem_filter.1 firstMember
    obtain ⟨secondListed, secondRemoved⟩ := List.mem_filter.1 secondMember
    exact batch.not_inside (inEvents _ firstListed) (inEvents _ secondListed) sorted apart
      firstRemoved secondRemoved

/-- The earlier layer once the first events are applied: it went through the removals among them,
and then took the fields of the others. -/
theorem after_prefix (batch : DiffBatch rules previous current events)
    (texts : FragmentsReadBack previous current) (split : events = before ++ rest) :
    ∃ middle : Layer,
      (∀ path field, middle.value path field =
        if ∃ delta ∈ removalsOf before, delta.Hits previous.content path then none
        else previous.content.value path field) ∧
      (applySpecDeltas usd before).result previous.content = .ok () ∧
      Copied current.content middle ((applySpecDeltas usd before).after previous.content) ∧
      ∀ delta ∈ before, ∀ key : SpecKey, delta.Sends usd current.content key →
        ((applySpecDeltas usd before).after previous.content).specKind key.path = some key.kind ∧
          ∀ name ∈ delta.fields,
            ((applySpecDeltas usd before).after previous.content).fieldAs key name =
              current.content.fieldAs key name := by
  have sends : ∀ delta ∈ before.filter (!·.removed), ∃ key, delta.Sends usd current.content key := by
    intro delta member
    obtain ⟨listed, kept⟩ := List.mem_filter.1 member
    obtain ⟨key, event⟩ := batch.each delta (by
      rw [split]
      exact List.mem_append_left _ listed)
    exact ⟨key, event.sends (by simpa using kept) texts⟩
  obtain ⟨returned, values⟩ := @value_removals usd _ _ (batch.removalBatch split)
  obtain ⟨finished, copied, reached⟩ := copies_batch sends
    ((applySpecDeltas usd (removalsOf before)).after previous.content)
  have whole : applySpecDeltas usd before =
      applySpecDeltas usd (removalsOf before) >>= fun _ =>
        applySpecDeltas usd (before.filter (!·.removed)) := by
    have parts := removals_append_rest ((batch.pairwise_first split).imp
      fun both => (order_of_trackerSortKey both.1).1)
    conv_lhs => rw [parts]
    exact List.forM_append
  rw [whole, Edit.result_bind_of_ok returned, Edit.after_bind_of_ok returned]
  refine ⟨_, values, finished, copied, fun delta member key sent => ?_⟩
  refine reached delta (List.mem_filter.2 ⟨member, ?_⟩) key sent
  simp [sent.reads.kept]

/-- What both layers have is not touched by removals. -/
theorem stays (batch : DiffBatch rules previous current events) (split : events = before ++ rest)
    (key : SpecKey) (there : previous.content.specKind key.path = some key.kind)
    (here : current.content.specKind key.path = some key.kind) :
    ¬ ∃ delta ∈ removalsOf before, delta.Hits previous.content key.path := by
  rintro ⟨delta, member, hits⟩
  obtain ⟨listed, removed⟩ := List.mem_filter.1 member
  obtain ⟨outer, event⟩ := batch.each delta (by
    rw [split]
    exact List.mem_append_left _ listed)
  exact SpecDelta.not_hits_of_present event.accepted event.specPath event.specKind
    (event.of_removed removed).2 here there hits

theorem value_before_removal (batch : DiffBatch rules previous current events) {delta : SpecDelta}
    (split : events = before ++ delta :: rest) (removed : delta.removed = true) {outer : SpecPath}
    (inside : delta.specPath.Inside outer) (field : Field) :
    ((applySpecDeltas usd before).after previous.content).value outer field =
      previous.content.value outer field := by
  have earlier := batch.sorted.and batch.distinct
  rw [split] at earlier
  have each := (List.pairwise_append.1 earlier).2.2
  have all : removalsOf before = before := by
    unfold removalsOf
    rw [List.filter_eq_self]
    intro other member
    exact (order_of_trackerSortKey (each other member delta List.mem_cons_self).1).1 removed
  obtain ⟨_, values⟩ := @value_removals usd _ _ (batch.removalBatch split)
  rw [all] at values
  rw [values, if_neg]
  rintro ⟨other, member, hits⟩
  obtain ⟨sorted, apart⟩ := each other member delta List.mem_cons_self
  refine batch.not_inside ?_ ?_ sorted apart
    ((order_of_trackerSortKey sorted).1 removed) removed (inside.trans hits.2)
  · rw [split]
    exact List.mem_append_left _ member
  · rw [split]
    exact List.mem_append_right _ List.mem_cons_self

/-- A spec is created before what lies in it. -/
theorem mem_before (batch : DiffBatch rules previous current events)
    {delta outerDelta : SpecDelta} {key outer : SpecKey}
    (split : events = before ++ delta :: rest) (event : EventOf previous current key delta)
    (outerEvent : EventOf previous current outer outerDelta) (kept : delta.removed = false)
    (outerKept : outerDelta.removed = false) (inside : key.path.Inside outer.path)
    (apart : key.path ≠ outer.path) : outerDelta ∈ before := by
  have created := batch.all _ _ outerEvent
  have sorted := batch.sorted
  rw [split] at created sorted
  rcases List.mem_append.1 created with early | late
  · exact early
  · rcases List.mem_cons.1 late with same | later
    · rw [same] at outerEvent
      exact absurd (event.specPath.symm.trans outerEvent.specPath) apart
    · have order := List.rel_of_pairwise_cons (List.pairwise_append.1 sorted).2.1 later
      exact absurd (above_of_inside event outerEvent inside apart)
        ((order_of_trackerSortKey order).2.2 kept outerKept)

/-- Every event finds its place: parents are created before and removed after what they hold. -/
theorem findsPlace (batch : DiffBatch rules previous current events)
    (texts : FragmentsReadBack previous current) {delta : SpecDelta}
    (split : events = before ++ delta :: rest) :
    FindsPlace ((applySpecDeltas usd before).after previous.content) delta := by
  have member : delta ∈ events := by
    rw [split]
    exact List.mem_append_right _ List.mem_cons_self
  obtain ⟨key, event⟩ := batch.each delta member
  by_cases removed : delta.removed = true
  · have values := fun {outer} => @value_before_removal _ _ _ _ _ _ _ batch delta split removed outer
    have there := (event.of_removed removed).1
    constructor
    · intro outer inside _
      unfold Layer.hasSpec
      rw [values inside]
      rw [event.specPath] at inside
      apply previous.content.rooted key.path outer inside
      rw [← Layer.hasSpec, ← Layer.specKind_isSome, there]
      rfl
    · intro _
      rw [hasSpecOfKind_congr (values (SpecPath.Inside.refl _) .spec), event.specPath,
        event.specKind, hasSpecOfKind_delta]
      exact there
  · have here := event.of_kept (Bool.eq_false_iff.2 removed)
    refine ⟨fun outer inside apart => ?_, fun gone => absurd gone removed⟩
    obtain ⟨middle, values, _, copied, reached⟩ := batch.after_prefix texts split
    rcases outer with ⟨prim, property⟩
    cases property with
    | some name => exact absurd inside.symm apart
    | none =>
        have above : current.content.specKind ⟨prim, none⟩ = some prim.kind := by
          apply Layer.specKind_of_prim
          rw [event.specPath] at inside
          apply current.content.rooted key.path _ inside
          rw [← Layer.hasSpec, ← Layer.specKind_isSome, here]
          rfl
        have found : ((applySpecDeltas usd before).after previous.content).specKind ⟨prim, none⟩ =
            some prim.kind := by
          by_cases there : previous.content.specKind ⟨prim, none⟩ = some prim.kind
          · refine copied.kept _ _ ?_ above
            rw [Layer.specKind_congr ((values ⟨prim, none⟩ .spec).trans (if_neg ?_))]
            · exact there
            · exact batch.stays split ⟨prim.kind, ⟨prim, none⟩⟩ there above
          · -- the parent is new as well, and created first
            have outerEvent : EventOf previous current ⟨prim.kind, ⟨prim, none⟩⟩ _ :=
              .new there above
            rw [event.specPath] at inside apart
            have earlier := batch.mem_before split event outerEvent (Bool.eq_false_iff.2 removed)
              rfl inside (Ne.symm apart)
            exact (reached _ earlier _ (outerEvent.sends rfl texts)).1
        rw [← Layer.specKind_isSome, found]
        rfl

/-- Applying the difference of two layers to the earlier one reproduces the later one. -/
theorem reproduces (batch : DiffBatch rules previous current events)
    (texts : FragmentsReadBack previous current) :
    (applySpecDeltas usd events).result previous.content = .ok () ∧
      Reproduces previous.content current.content
        ((applySpecDeltas usd events).after previous.content) := by
  have split : events = events ++ [] := (List.append_nil events).symm
  obtain ⟨middle, values, returned, copied, reached⟩ := batch.after_prefix texts split
  have kept : ∀ key : SpecKey, previous.content.specKind key.path = some key.kind →
      current.content.specKind key.path = some key.kind → ∀ field,
        middle.value key.path field = previous.content.value key.path field :=
    fun key there here field => (values _ field).trans (if_neg (batch.stays split key there here))
  have cleared : ∀ key : SpecKey, middle.specKind key.path = some key.kind →
      previous.content.specKind key.path = some key.kind ∧
        current.content.specKind key.path = some key.kind := by
    intro key found
    have value := values key.path .spec
    split at value
    · unfold Layer.specKind at found
      rw [value] at found
      cases found
    · next missed =>
        rw [Layer.specKind_congr value] at found
        refine ⟨found, ?_⟩
        by_contra gone
        have event := EventOf.gone found gone
        refine missed ⟨_, List.mem_filter.2 ⟨batch.all _ _ event, rfl⟩, ?_,
          SpecPath.Inside.refl _⟩
        exact hasSpecOfKind_delta.2 found
  have specs : ∀ path, ((applySpecDeltas usd events).after previous.content).specKind path =
      current.content.specKind path := by
    intro path
    apply Option.ext
    intro kind
    constructor
    · intro found
      rcases copied.new path kind found with still | here
      · exact (cleared ⟨kind, path⟩ still).2
      · exact here
    · intro here
      by_cases there : previous.content.specKind path = some kind
      · refine copied.kept path kind ?_ here
        rw [Layer.specKind_congr (kept ⟨kind, path⟩ there here .spec)]
        exact there
      · have event := @EventOf.new usd previous current ⟨kind, path⟩ there here
        exact (reached _ (batch.all _ _ event) _ (event.sends rfl texts)).1
  refine ⟨returned, specs, fun key name plain => ?_, fun name member => ?_, ?_⟩
  · by_cases here : current.content.specKind key.path = some key.kind
    · have accepted := current.standing _ _ here
      by_cases there : previous.content.specKind key.path = some key.kind
      · by_cases changed : name ∈ changedFields previous current key
        · have event := EventOf.changed there here (List.ne_nil_of_mem changed)
          exact (reached _ (batch.all _ _ event) _ (event.sends rfl texts)).2 name
            (SpecEmitter.mem_sortedFields.2 changed)
        · apply copied.agrees accepted
          rw [Layer.fieldAs_congr accepted (kept key there here) name]
          exact fieldAs_of_not_changed there here plain changed
      · have event := EventOf.new there here
        by_cases listed : name ∈ indexedFields usd current.content key
        · exact (reached _ (batch.all _ _ event) _ (event.sends rfl texts)).2 name
            (SpecEmitter.mem_sortedFields.2 listed)
        · -- the field is authored nowhere
          apply copied.agrees accepted
          rw [Layer.fieldAs_of_ne fun still => there (cleared key still).1,
            fieldAs_of_not_authors accepted]
          exact fun authored => listed ((mem_indexedFields current).2 ⟨authored, plain⟩)
    · rw [Layer.fieldAs_of_ne here, Layer.fieldAs_of_ne (specs key.path ▸ here)]
  · rw [copied.topology name member]
    exact kept ⟨.layer, .root⟩ previous.content.specKind_root current.content.specKind_root _
  · rw [copied.reserved]
    exact Layer.reservedData_congr
      (kept ⟨.layer, .root⟩ previous.content.specKind_root current.content.specKind_root _)

end DiffBatch

end UsdConnect.LayerTracker
