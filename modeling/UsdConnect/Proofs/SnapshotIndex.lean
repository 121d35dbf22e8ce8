/-
Purpose: Events applied to a snapshot leave the index that would be read off the resulting layer,
  whether it was updated spec by spec or read again.
Trusted boundary: none
Main exports: UpToDate, upToDate_step, indexed_applySnapshotEvents
-/
import UsdConnect.Proofs.LayerDiffs

namespace UsdConnect.LayerTracker

variable {rules : TrackerRules} {usd : Usd}

/-! ### What the index reads -/

theorem sortedFields_congr {first second : List String}
    (same : ∀ name, name ∈ first ↔ name ∈ second) : sortedFields first = sortedFields second := by
  unfold sortedFields
  have perm : first.dedup.Perm second.dedup := by
    rw [List.perm_ext_iff_of_nodup (List.nodup_dedup _) (List.nodup_dedup _)]
    intro name
    rw [List.mem_dedup, List.mem_dedup, same]
  refine List.Perm.eq_of_pairwise' (r := (· ≤ ·)) ?_ ?_ (((List.perm_insertionSort _ _).trans perm).trans
    (List.perm_insertionSort _ _).symm)
  · exact List.pairwise_insertionSort _ _
  · exact List.pairwise_insertionSort _ _

theorem authors_congr {first second : Layer} {path : SpecPath} {name : String}
    (spec : first.specKind path = second.specKind path)
    (samples : ∀ time, first.value path (.sample time) = second.value path (.sample time))
    (same : first.info path name = second.info path name) :
    first.Authors path name ↔ second.Authors path name := by
  unfold Layer.Authors
  simp only [spec, samples, same]

theorem indexedFields_congr (lists : ListsOwnFields usd) {first second : Layer} {key : SpecKey}
    (same : ∀ name, ¬ (key.kind = .layer ∧ name ∈ layerTopologyFields) →
      (first.Authors key.path name ↔ second.Authors key.path name)) :
    indexedFields usd first key = indexedFields usd second key := by
  unfold indexedFields
  apply sortedFields_congr
  intro name
  rw [List.mem_filter, List.mem_filter]
  refine and_congr_left fun plain => lists _ _ _ _ (same name ?_)
  simpa only [Bool.not_eq_true', decide_eq_false_iff_not] using plain

/-- Two layers with the same authored fields outside the sublayer list have the same index. -/
theorem indexSpecs_congr (lists : ListsOwnFields usd) {first second : Layer} {key : SpecKey}
    (spec : first.specKind key.path = second.specKind key.path)
    (same : ∀ name, ¬ (key.kind = .layer ∧ name ∈ layerTopologyFields) →
      (first.Authors key.path name ↔ second.Authors key.path name)) :
    indexSpecs usd first key = indexSpecs usd second key := by
  unfold indexSpecs
  rw [spec, indexedFields_congr lists same]

theorem indexSpecs_congr_of_value (lists : ListsOwnFields usd) {first second : Layer}
    {key : SpecKey}
    (same : ∀ field, first.value key.path field = second.value key.path field) :
    indexSpecs usd first key = indexSpecs usd second key := by
  have spec := Layer.specKind_congr (same .spec)
  refine indexSpecs_congr lists spec fun name _ => authors_congr spec (fun time => same _) ?_
  exact same (.info name)

/-! ### What the events write -/

theorem perform_eq_ok {program : LayerProgram Unit} {layer after : Layer}
    (performed : perform program layer = .ok after) :
    program.result layer = .ok () ∧ program.after layer = after := by
  unfold perform at performed
  split at performed
  · cases performed
  · next returned => exact ⟨returned, Except.ok.inj performed⟩

theorem perform_of_ok {program : LayerProgram Unit} {layer : Layer}
    (returned : program.result layer = .ok ()) :
    perform program layer = .ok (program.after layer) := by
  unfold perform
  rw [returned]

/-- A delta that was applied and is no removal could be read. -/
theorem reads_of_returned {delta : SpecDelta} {layer : Layer} (kept : delta.removed = false)
    (returned : (applySpecDeltaToLayer usd delta).result layer = .ok ()) :
    ∃ fragment, delta.Reads usd fragment := by
  unfold applySpecDeltaToLayer at returned
  split at returned
  · cases returned
  · next checked =>
      simp only [kept, Bool.false_eq_true, if_false] at returned
      split at returned
      · cases returned
      · next fragment imported =>
          by_cases found : fragment.hasSpecOfKind delta.specPath delta.specKind = true
          · exact ⟨fragment, checked, kept, imported, found⟩
          · simp only [found, Bool.not_false, if_true] at returned
            cases returned

/-- Fields of a spec that is there are copied without touching any other spec. -/
theorem value_of_existing {delta : SpecDelta} {layer : Layer} {key : SpecKey}
    (keyed : specKeyOf delta = some key) (kept : delta.removed = false)
    (there : layer.specKind key.path = some key.kind)
    (returned : (applySpecDeltaToLayer usd delta).result layer = .ok ()) :
    (∀ path field, path ≠ key.path → ((applySpecDeltaToLayer usd delta).after layer).value path
      field = layer.value path field) ∧
      ((applySpecDeltaToLayer usd delta).after layer).specKind key.path = some key.kind ∧
      ∀ name ∈ layerTopologyFields, ((applySpecDeltaToLayer usd delta).after layer).info .root name =
        layer.info .root name := by
  obtain ⟨fragment, reads⟩ := reads_of_returned kept returned
  obtain ⟨kind, known, rfl⟩ := Option.map_eq_some_iff.1 keyed
  have accepted := (accepts_of_checked reads.checked reads.kept).1
  have found := (hasSpecOfKind_concrete known).2 there
  have base := Layer.base_of_found accepted known found
  unfold Layer.base at base
  obtain ⟨_, value⟩ := value_applySpecDelta reads known layer
  rw [base, if_pos found, List.append_nil] at value
  refine ⟨fun path field away => ?_, ?_, fun name member => ?_⟩
  · rw [value, copiedValue_elsewhere away]
  · refine Eq.trans (Layer.specKind_congr ?_) there
    rw [value]
    rfl
  · unfold Layer.info
    rw [value]
    by_cases here : SpecPath.root = delta.specPath
    · have untimed : name ≠ "timeSamples" := by
        rintro rfl
        simp [layerTopologyFields] at member
      rw [here, copiedValue_info untimed, if_neg]
      intro named
      obtain ⟨_, _, plain, _⟩ := checkSpecDelta_eq_none.1 reads.checked
      have layered := layer_of_root accepted known here.symm
      refine plain ⟨?_, name, named, member⟩
      rw [layered] at known
      cases kind : delta.specKind with
      | layer => rfl
      | _ =>
          rw [kind] at known
          cases known
    · exact copiedValue_elsewhere here _

theorem value_clear_sample {layer : Layer} {specPath path : SpecPath} {field : Field}
    {cleared : TimeCode} (other : path = specPath → ∀ time, field ≠ .sample time) :
    ((LayerEdit.clear specPath (.sample cleared)).apply layer).value path field =
      layer.value path field := by
  show (if path = .root ∧ field = .spec then none
    else if path = specPath ∧ field = .sample cleared ∧ field ≠ .spec then some none
    else none).getD _ = _
  have apart : ¬ (path = specPath ∧ field = .sample cleared ∧ field ≠ .spec) :=
    fun here => other here.1 cleared here.2.1
  rw [if_neg apart, ite_self]
  rfl

theorem value_eraseTimeSamples {specPath : SpecPath} (times : List TimeCode) (layer : Layer)
    {path : SpecPath} {field : Field} (other : path = specPath → ∀ time, field ≠ .sample time) :
    ((eraseTimeSamples specPath times).after layer).value path field =
      layer.value path field := by
  unfold eraseTimeSamples
  rw [Edit.after_look_bind]
  split
  · next animated =>
      clear animated
      induction times generalizing layer with
      | nil => rfl
      | cons time rest ih =>
          have cleared := ih ((LayerEdit.clear specPath (.sample time)).apply layer)
          rw [value_clear_sample other] at cleared
          exact cleared
  · rfl

theorem after_eraseTimeSamples {specPath : SpecPath} (times : List TimeCode) {layer : Layer}
    (other : layer.specKind specPath ≠ some .attribute) :
    (eraseTimeSamples specPath times).after layer = layer := by
  unfold eraseTimeSamples
  rw [Edit.after_look_bind]
  split
  · next animated =>
      exact absurd ((@hasSpecOfKind_delta layer specPath .attribute).1 animated) other
  · rfl

theorem value_writeTopologyField (name : String) (value : Option Datum) (layer : Layer)
    (path : SpecPath) (field : Field) :
    (writeTopologyField name value).result layer = .ok () ∧
      ((writeTopologyField name value).after layer).value path field =
        if path = .root ∧ field = .info name then value else layer.value path field := by
  unfold writeTopologyField
  cases value with
  | some datum =>
      have top : layer.Holds .root .layer := (specKind_iff_holds rfl).1 layer.specKind_root
      exact ⟨rfl, value_author top name datum path field⟩
  | none => exact ⟨rfl, value_clear layer .root name path field⟩

/-- Writing the sublayer list touches its two fields. -/
theorem value_applySublayerEntries (entries : List SublayerEntry) (layer : Layer)
    {path : SpecPath} {field : Field}
    (other : path = .root → field ≠ .info "subLayers" ∧ field ≠ .info "subLayerOffsets") :
    ((applySublayerEntries rules entries).after layer).value path field =
      layer.value path field := by
  unfold applySublayerEntries
  split
  · rfl
  · next normalized _ =>
      rcases written : rules.writeSublayers normalized with ⟨paths, offsets⟩
      dsimp only
      have first := value_writeTopologyField "subLayers" paths layer path field
      rw [Edit.after_bind_of_ok first.1,
        (value_writeTopologyField "subLayerOffsets" offsets _ path field).2, first.2,
        if_neg fun here => (other here.1).2 here.2, if_neg fun here => (other here.1).1 here.2]

/-! ### The loop -/

/-- Unless the layer is going to be read again, index and sublayer list are those of the working
layer. -/
def UpToDate (rules : TrackerRules) (usd : Usd) (build : SnapshotBuild) : Prop :=
  build.requiresReindex = false →
    build.sublayers = topologySnapshot rules build.working ∧
      build.specs = indexSpecs usd build.working

theorem topologySnapshot_congr {first second : Layer}
    (same : ∀ name ∈ layerTopologyFields, first.info .root name = second.info .root name) :
    topologySnapshot rules first = topologySnapshot rules second := by
  unfold topologySnapshot
  rw [same _ (by decide), same _ (by decide)]

theorem indexSpecs_update (lists : ListsOwnFields usd) {before after : Layer} {key : SpecKey}
    (there : after.specKind key.path = some key.kind)
    (spec : before.specKind key.path = some key.kind)
    (others : ∀ path field, path ≠ key.path → after.value path field = before.value path field) :
    Function.update (indexSpecs usd before) key (some (indexedFields usd after key)) =
      indexSpecs usd after := by
  funext other
  by_cases here : other = key
  · rw [here, Function.update_self, indexSpecs_of_present there]
  · rw [Function.update_of_ne here]
    by_cases samePath : other.path = key.path
    · -- one path has one kind
      have away : other.kind ≠ key.kind := by
        intro sameKind
        apply here
        rcases other with ⟨kind, path⟩
        rcases key with ⟨otherKind, otherPath⟩
        dsimp only at samePath sameKind
        rw [samePath, sameKind]
      rw [indexSpecs_of_missing, indexSpecs_of_missing]
      · rw [samePath, there]
        exact fun same => away (Option.some.inj same).symm
      · rw [samePath, spec]
        exact fun same => away (Option.some.inj same).symm
    · exact indexSpecs_congr_of_value lists fun field => (others _ field samePath).symm

theorem perform_bind_eq_ok {α : Type} {program : LayerProgram Unit} {layer : Layer}
    {next : Layer → Except EditError α} {value : α}
    (finished : (perform program layer >>= next) = .ok value) :
    program.result layer = .ok () ∧ next (program.after layer) = .ok value := by
  cases performed : perform program layer with
  | error error =>
      rw [performed] at finished
      cases finished
  | ok after =>
      obtain ⟨returned, rfl⟩ := perform_eq_ok performed
      rw [performed] at finished
      exact ⟨returned, finished⟩

theorem indexSpecs_applySublayerEntries (lists : ListsOwnFields usd) (entries : List SublayerEntry)
    (layer : Layer) :
    indexSpecs usd layer = indexSpecs usd ((applySublayerEntries rules entries).after layer) := by
  have written : ∀ {path field},
      (path = .root → field ≠ .info "subLayers" ∧ field ≠ .info "subLayerOffsets") →
        layer.value path field =
          ((applySublayerEntries rules entries).after layer).value path field :=
    fun other => (value_applySublayerEntries entries layer other).symm
  funext key
  have spec := Layer.specKind_congr (@written key.path .spec fun _ => by simp)
  by_cases layered : key.kind = .layer
  · refine indexSpecs_congr lists spec fun name plain => authors_congr spec
      (fun time => written fun _ => by simp) (written fun _ => ?_)
    simpa [layered, layerTopologyFields] using plain
  · by_cases present : layer.specKind key.path = some key.kind
    · -- only the pseudo-root has the two fields
      have below : key.path ≠ .root := by
        intro top
        rw [top, Layer.specKind_root] at present
        exact layered (Option.some.inj present).symm
      exact indexSpecs_congr_of_value lists fun field => written fun top => absurd top below
    · rw [indexSpecs_of_missing present, indexSpecs_of_missing (spec ▸ present)]

theorem topologySnapshot_eraseTimeSamples (specPath : SpecPath) (times : List TimeCode)
    (layer : Layer) :
    topologySnapshot rules ((eraseTimeSamples specPath times).after layer) =
      topologySnapshot rules layer :=
  topologySnapshot_congr fun _ _ => value_eraseTimeSamples times layer fun _ _ => by simp

theorem upToDate_step (lists : ListsOwnFields usd) {build next : SnapshotBuild}
    {event : SharedEvent} (current : UpToDate rules usd build)
    (applied : applySnapshotEvent rules usd build event = .ok next) : UpToDate rules usd next := by
  cases event with
  | setSublayers topology =>
      obtain ⟨_, finished⟩ := perform_bind_eq_ok applied
      obtain rfl := Except.ok.inj finished
      intro fresh
      exact ⟨rfl, (current fresh).2.trans (indexSpecs_applySublayerEntries lists _ _)⟩
  | scene event =>
      cases event with
      | replaceSdfLayerContent fragment =>
          obtain ⟨_, finished⟩ := perform_bind_eq_ok applied
          obtain rfl := Except.ok.inj finished
          intro fresh
          cases fresh
      | eraseTimeSamples specPath times =>
          obtain ⟨_, finished⟩ := perform_bind_eq_ok applied
          obtain rfl := Except.ok.inj finished
          have others : ∀ path field, path ≠ specPath →
              ((eraseTimeSamples specPath times).after build.working).value path field =
                build.working.value path field :=
            fun path field away => value_eraseTimeSamples times _ fun here => absurd here away
          have spec := Layer.specKind_congr
            (@value_eraseTimeSamples specPath times build.working specPath .spec fun _ _ => by simp)
          intro fresh
          split at fresh
          · next animated =>
              obtain ⟨sublayers, specs⟩ := current fresh
              rw [if_pos animated]
              refine ⟨sublayers.trans (topologySnapshot_eraseTimeSamples ..).symm, ?_⟩
              unfold SnapshotBuild.refresh
              dsimp only
              rw [specs]
              exact indexSpecs_update lists animated (spec ▸ animated) others
          · next still =>
              obtain ⟨sublayers, specs⟩ := current fresh
              rw [spec] at still
              rw [if_neg (spec ▸ still)]
              dsimp only
              rw [after_eraseTimeSamples times still]
              exact ⟨sublayers, specs⟩
      | setSdfSpecFields delta =>
          obtain ⟨returned, finished⟩ := perform_bind_eq_ok applied
          split at finished
          · next key existed =>
              obtain rfl := Except.ok.inj finished
              obtain ⟨keyed, indexed⟩ := Option.filter_eq_some_iff.1 existed
              intro fresh
              split at fresh
              · cases fresh
              · next refreshed =>
                  obtain ⟨sublayers, specs⟩ := current fresh
                  rw [Bool.or_eq_true, not_or, Bool.not_eq_true] at refreshed
                  rw [specs, indexSpecs_isSome] at indexed
                  obtain ⟨others, there, topology⟩ :=
                    value_of_existing keyed refreshed.1 indexed returned
                  rw [if_neg (by simp [refreshed])]
                  refine ⟨sublayers.trans (topologySnapshot_congr topology).symm, ?_⟩
                  unfold SnapshotBuild.refresh
                  dsimp only
                  rw [specs]
                  exact indexSpecs_update lists there indexed others
          · obtain rfl := Except.ok.inj finished
            intro fresh
            cases fresh
      | _ => cases applied

/-- So do all events of a list. -/
theorem upToDate_run (lists : ListsOwnFields usd) {events : List SharedEvent}
    {build done : SnapshotBuild} (current : UpToDate rules usd build)
    (applied : events.foldlM (applySnapshotEvent rules usd) build = .ok done) :
    UpToDate rules usd done := by
  induction events generalizing build with
  | nil =>
      obtain rfl := Except.ok.inj applied
      exact current
  | cons event rest ih =>
      rw [List.foldlM_cons] at applied
      cases first : applySnapshotEvent rules usd build event with
      | error error =>
          rw [first] at applied
          cases applied
      | ok next =>
          rw [first] at applied
          exact ih (upToDate_step lists current first) applied

/-- Events that can be applied keep the index of a snapshot equal to that of its layer. -/
theorem indexed_applySnapshotEvents (lists : ListsOwnFields usd) {snapshot result : TrackedSnapshot}
    {events : List SharedEvent} (indexed : Indexed rules usd snapshot)
    (applied : applySnapshotEvents rules usd snapshot events = .ok result) :
    Indexed rules usd result := by
  unfold applySnapshotEvents at applied
  cases ran : events.foldlM (applySnapshotEvent rules usd) (.start snapshot) with
  | error error =>
      rw [ran] at applied
      cases applied
  | ok done =>
      rw [ran] at applied
      obtain rfl := Except.ok.inj applied
      have start : UpToDate rules usd (.start snapshot) := by
        intro _
        rw [indexed]
        exact ⟨rfl, rfl⟩
      have current := upToDate_run lists start ran
      unfold Indexed
      split
      · rfl
      · next kept =>
          obtain ⟨sublayers, specs⟩ := current (Bool.eq_false_iff.2 kept)
          unfold indexSnapshot
          rw [sublayers, specs]

/-- Deltas that apply to a layer apply to its snapshot. -/
theorem foldlM_specRecords {events : List SpecDelta} {build : SnapshotBuild}
    (returned : (applySpecDeltas usd events).result build.working = .ok ()) :
    ∃ done, (specRecords events).foldlM (applySnapshotEvent rules usd) build = .ok done ∧
      done.working = (applySpecDeltas usd events).after build.working := by
  unfold applySpecDeltas at returned ⊢
  unfold specRecords
  induction events generalizing build with
  | nil => exact ⟨build, rfl, rfl⟩
  | cons delta rest ih =>
      obtain ⟨_, first, later, after⟩ := Edit.bind_returned returned
      have step : ∃ next,
          applySnapshotEvent rules usd build (.scene (.setSdfSpecFields delta)) = .ok next ∧
            next.working = (applySpecDeltaToLayer usd delta).after build.working := by
        unfold applySnapshotEvent
        dsimp only
        rw [perform_of_ok first]
        split
        · refine ⟨_, rfl, ?_⟩
          split <;> rfl
        · exact ⟨_, rfl, rfl⟩
      obtain ⟨next, applied, working⟩ := step
      rw [← working] at later after
      obtain ⟨done, ran, reached⟩ := ih later
      refine ⟨done, ?_, reached.trans after.symm⟩
      rw [List.map_cons, List.foldlM_cons, applied]
      exact ran

theorem applySnapshotEvents_specRecords {events : List SpecDelta} {snapshot : TrackedSnapshot}
    (returned : (applySpecDeltas usd events).result snapshot.layer = .ok ()) :
    ∃ result, applySnapshotEvents rules usd snapshot (specRecords events) = .ok result ∧
      result.layer = (applySpecDeltas usd events).after snapshot.layer := by
  obtain ⟨done, ran, working⟩ := @foldlM_specRecords rules usd events (.start snapshot)
    returned
  unfold applySnapshotEvents
  rw [ran]
  refine ⟨_, rfl, ?_⟩
  split <;> exact working

end UsdConnect.LayerTracker
