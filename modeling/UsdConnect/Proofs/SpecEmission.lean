/-
Purpose: The marks of exact spec transport: what a report tells the emitter, and the invariant that what
  differs between source and mirror is marked and what the mirror has is listed.
Trusted boundary: none
Main exports: SpecSession.Tracks, told_of_reports, tracks_edit
-/
import UsdConnect.Proofs.SpecEvents

namespace UsdConnect

variable {rules : SpecRules} {usd : Usd}

/-! ### Generic fields -/

theorem SourceLayer.mem_genericSdfFields {source : SourceLayer} {key : SpecKey}
    (present : source.content.specKind key.path = some key.kind) {name : String} :
    name ∈ source.genericSdfFields rules key ↔
      rules.covers key name = true ∧ source.content.fieldAs key name ≠ fun _ => none := by
  have authored : name ∈ source.genericSdfFields rules key ↔
      source.content.Authors key.path name ∧ rules.covers key name = true ∧
        ¬ (key.kind = .layer ∧ name = "customLayerData" ∧ source.content.ownData = []) := by
    unfold genericSdfFields
    rw [List.mem_filter, source.mem_infoKeys]
    simp only [Bool.and_eq_true, Bool.not_eq_true', decide_eq_false_iff_not]
  have read : source.content.fieldAs key name ≠ (fun _ => none) ↔
      ∃ time, (source.content.fieldAs key name time).isSome := by
    rw [Ne, funext_iff, not_forall]
    exact exists_congr fun time => Option.isSome_iff_ne_none.symm
  rw [authored, read]
  have kept : (source.content.Authors key.path name ∧
      ¬ (key.kind = .layer ∧ name = "customLayerData" ∧ source.content.ownData = [])) ↔
      ∃ time, (source.content.fieldAs key name time).isSome := by
    unfold Layer.Authors Layer.fieldAs
    simp only [if_pos present]
    by_cases samples : name = "timeSamples"
    · subst samples
      rw [present]
      by_cases animated : key.kind = .attribute <;> simp [animated]
    · simp only [samples, if_false]
      by_cases layerData : key.kind = .layer ∧ name = "customLayerData"
      · obtain ⟨layered, rfl⟩ := layerData
        have top := (SpecKind.eq_root_iff (source.standing _ _ present)).2 layered
        simp only [layered, true_and, if_true]
        by_cases own : source.content.ownData = []
        · simp [own]
        · have some : (source.content.info key.path "customLayerData").isSome := by
            rw [top]
            by_contra missing
            apply own
            unfold Layer.ownData Layer.layerData
            rw [Option.not_isSome_iff_eq_none.1 missing]
            rfl
          simp [own, some]
      · rw [if_neg layerData]
        have apart : ¬ (key.kind = .layer ∧ name = "customLayerData" ∧
            source.content.ownData = []) := fun both => layerData ⟨both.1, both.2.1⟩
        simp [apart]
  rw [← kept]
  tauto

/-! ### Marks -/

namespace SpecEmitter

variable {emitter : SpecEmitter} {key : SpecKey} {path : SpecPath}

theorem underSubtree_iff : emitter.underSubtree path = true ↔
    ∃ root flag, emitter.dirtySdfSubtrees.get? root = some flag ∧ path.IsUnder root := by
  unfold underSubtree
  rw [List.any_eq_true]
  constructor
  · rintro ⟨⟨root, flag⟩, member, under⟩
    exact ⟨root, flag, OrderedDict.get?_of_mem member, of_decide_eq_true under⟩
  · rintro ⟨root, flag, found, under⟩
    exact ⟨(root, flag), OrderedDict.mem_of_get? found, decide_eq_true under⟩

theorem underResync_iff : emitter.underResync path = true ↔
    ∃ root, emitter.dirtySdfSubtrees.get? root = some true ∧ path.IsUnder root := by
  unfold underResync
  rw [List.any_eq_true]
  constructor
  · rintro ⟨⟨root, flag⟩, member, under⟩
    obtain ⟨resync, inside⟩ := Bool.and_eq_true_iff.1 under
    obtain rfl : flag = true := resync
    exact ⟨root, OrderedDict.get?_of_mem member, of_decide_eq_true inside⟩
  · rintro ⟨root, found, under⟩
    exact ⟨(root, true), OrderedDict.mem_of_get? found, by simpa using under⟩

/-- A build will visit the spec because of a notice. -/
def Noticed (emitter : SpecEmitter) (key : SpecKey) : Prop :=
  (emitter.dirtySdfSpecs.get? key).isSome = true ∨ emitter.fullSdfSpecScan = true ∨
    emitter.underSubtree key.path = true

/-- A build will send this field of the spec because of a notice. -/
def Due (emitter : SpecEmitter) (key : SpecKey) (name : String) : Prop :=
  emitter.resynced key = true ∨
    ∃ names, emitter.dirtySdfSpecs.get? key = some (some names) ∧ name ∈ names

theorem resynced_iff : emitter.resynced key = true ↔ emitter.fullSdfSpecScan = true ∨
    emitter.dirtySdfSpecs.get? key = some none ∨ emitter.underResync key.path = true := by
  unfold resynced
  rw [Bool.or_eq_true, Bool.or_eq_true, decide_eq_true_iff, or_assoc]

theorem Due.noticed {name : String} (due : emitter.Due key name) : emitter.Noticed key := by
  rcases due with resynced | ⟨names, found, _⟩
  · rcases resynced_iff.1 resynced with full | named | under
    · exact .inr (.inl full)
    · left
      rw [named]
      rfl
    · obtain ⟨root, found, inside⟩ := underResync_iff.1 under
      exact .inr (.inr (underSubtree_iff.2 ⟨root, true, found, inside⟩))
  · left
    rw [found]
    rfl

/-- Marks only grow. -/
structure Marks (before after : SpecEmitter) : Prop where
  sent : after.sdfSpecFields = before.sdfSpecFields
  noticed : ∀ key, before.Noticed key → after.Noticed key
  due : ∀ key name, before.Due key name → after.Due key name

theorem Marks.refl (emitter : SpecEmitter) : Marks emitter emitter :=
  ⟨rfl, fun _ noticed => noticed, fun _ _ due => due⟩

theorem get?_markExactSdfSpec (fields : Option (List String)) :
    (emitter.markExactSdfSpec key fields).dirtySdfSpecs.get? key =
      some (match emitter.dirtySdfSpecs.get? key with
        | some current => mergeChangedFields current fields
        | none => fields) :=
  OrderedDict.get?_set_self ..

theorem due_markExactSdfSpec (fields : Option (List String)) {name : String}
    (named : ∀ names, fields = some names → name ∈ names) :
    (emitter.markExactSdfSpec key fields).Due key name := by
  have found := @get?_markExactSdfSpec emitter key fields
  cases result : (emitter.markExactSdfSpec key fields).dirtySdfSpecs.get? key with
  | none =>
      rw [result] at found
      cases found
  | some merged =>
      cases merged with
      | none => exact .inl (resynced_iff.2 (.inr (.inl result)))
      | some names =>
          refine .inr ⟨names, result, ?_⟩
          rw [result, Option.some.injEq] at found
          cases fields with
          | none =>
              split at found
              · next current _ => cases current <;> cases found
              · cases found
          | some changed =>
              have member := named changed rfl
              split at found
              · next current _ =>
                  cases current with
                  | none => cases found
                  | some earlier =>
                      rw [Option.some.inj found]
                      exact List.mem_append_right _ member
              · rw [Option.some.inj found]
                exact member

theorem noticed_markExactSdfSpec (fields : Option (List String)) :
    (emitter.markExactSdfSpec key fields).Noticed key := by
  left
  rw [get?_markExactSdfSpec]
  rfl

theorem marks_markExactSdfSpec (fields : Option (List String)) :
    Marks emitter (emitter.markExactSdfSpec key fields) := by
  have others : ∀ other, other ≠ key →
      (emitter.markExactSdfSpec key fields).dirtySdfSpecs.get? other =
        emitter.dirtySdfSpecs.get? other :=
    fun other away => OrderedDict.get?_set_of_ne _ _ away
  refine ⟨rfl, fun other noticed => ?_, fun other name due => ?_⟩
  · by_cases away : other ≠ key
    · unfold Noticed at noticed ⊢
      rw [others other away]
      exact noticed
    · rw [not_not.1 away]
      exact noticed_markExactSdfSpec fields
  · by_cases away : other ≠ key
    · unfold Due at due ⊢
      rw [resynced_iff] at due ⊢
      rw [others other away]
      exact due
    · obtain rfl := not_not.1 away
      rcases due with resynced | ⟨names, found, member⟩
      · left
        rw [resynced_iff] at resynced ⊢
        rcases resynced with full | unnamed | under
        · exact .inl full
        · right
          left
          rw [get?_markExactSdfSpec, unnamed]
          rfl
        · exact .inr (.inr under)
      · cases fields with
        | none =>
            left
            rw [resynced_iff, get?_markExactSdfSpec, found]
            exact .inr (.inl rfl)
        | some changed =>
            right
            refine ⟨names ++ changed, ?_, List.mem_append_left _ member⟩
            rw [get?_markExactSdfSpec, found]
            rfl

theorem marks_markSdfSubtree (root : PrimPath) (resync : Bool) :
    Marks emitter (emitter.markSdfSubtree root resync) := by
  have grown : ∀ other flag, emitter.dirtySdfSubtrees.get? other = some flag →
      ∃ later, (emitter.markSdfSubtree root resync).dirtySdfSubtrees.get? other = some later ∧
        (flag = true → later = true) := by
    intro other flag found
    by_cases away : other ≠ root
    · exact ⟨flag, (OrderedDict.get?_set_of_ne _ _ away).trans found, id⟩
    · obtain rfl := not_not.1 away
      refine ⟨_, OrderedDict.get?_set_self .., ?_⟩
      rintro rfl
      rw [found]
      rfl
  refine ⟨rfl, fun other noticed => ?_, fun other name due => ?_⟩
  · rcases noticed with marked | full | under
    · exact .inl marked
    · exact .inr (.inl full)
    · obtain ⟨outer, flag, found, inside⟩ := underSubtree_iff.1 under
      obtain ⟨later, still, _⟩ := grown outer flag found
      exact .inr (.inr (underSubtree_iff.2 ⟨outer, later, still, inside⟩))
  · rcases due with resynced | named
    · left
      rw [resynced_iff] at resynced ⊢
      rcases resynced with full | unnamed | under
      · exact .inl full
      · exact .inr (.inl unnamed)
      · obtain ⟨outer, found, inside⟩ := underResync_iff.1 under
        obtain ⟨later, still, kept⟩ := grown outer true found
        obtain rfl := kept rfl
        exact .inr (.inr (underResync_iff.2 ⟨outer, still, inside⟩))
    · exact .inr named

theorem marks_record (layer : Layer) (report : SpecReport) :
    Marks emitter (emitter.record rules layer report) := by
  cases report with
  | spec key fields => exact marks_markExactSdfSpec fields
  | property path fields composed localFields =>
      unfold record markSdfPropertySpec
      dsimp only
      split
      · exact marks_markExactSdfSpec _
      · exact Marks.refl emitter
  | subtree root => exact marks_markSdfSubtree root _
  | everything =>
      refine ⟨rfl, fun key _ => .inr (.inl rfl), fun key name _ => ?_⟩
      exact .inl (resynced_iff.2 (.inl rfl))

end SpecEmitter

/-! ### What a report tells -/

/-- What is known of a spec of the edited layer: it was there before or is noticed, and each field
is as it was or due. -/
structure Told (source next : Layer) (emitter : SpecEmitter) (key : SpecKey) : Prop where
  there : source.specKind key.path = some key.kind ∨ emitter.Noticed key
  field : ∀ name, next.fieldAs key name = source.fieldAs key name ∨ emitter.Due key name

theorem Told.of_due {source next : Layer} {emitter : SpecEmitter} {key : SpecKey}
    (due : ∀ name, emitter.Due key name) : Told source next emitter key :=
  ⟨.inr (due "").noticed, fun name => .inr (due name)⟩

theorem Told.of_same {source next : Layer} {emitter : SpecEmitter} {key : SpecKey}
    (accepted : key.kind.delta.accepts key.path = true)
    (present : next.specKind key.path = some key.kind)
    (same : ∀ field, next.value key.path field = source.value key.path field) :
    Told source next emitter key :=
  ⟨.inl ((Layer.specKind_congr (same .spec)).symm.trans present),
    fun name => .inl (Layer.fieldAs_congr accepted same name)⟩

/-- A spec that is marked with its changed fields. -/
theorem Told.of_marked {source next : Layer} {emitter : SpecEmitter} {key : SpecKey}
    {fields : Option (List String)} (only : SpecSession.OnlyFields source next key.path fields) :
    Told source next (emitter.markExactSdfSpec key fields) key := by
  refine ⟨.inr (SpecEmitter.noticed_markExactSdfSpec fields), fun name => ?_⟩
  by_cases named : ∀ names, fields = some names → name ∈ names
  · exact .inr (SpecEmitter.due_markExactSdfSpec fields named)
  · left
    push Not at named
    obtain ⟨names, rfl, outside⟩ := named
    exact only.2 names rfl key.kind name outside

theorem isProperty_of_accepts {kind : SpecKind} {path : SpecPath}
    (accepted : kind.delta.accepts path = true) :
    kind.isProperty = true ↔ path.property.isSome = true := by
  rcases path with ⟨prim, property⟩
  cases property with
  | none =>
      have same := PrimPath.kind_of_accepts accepted kind.concrete_delta
      have apart := prim.kind_ne_property
      rw [← same] at apart
      cases kind <;> simp_all [SpecKind.isProperty]
  | some name =>
      rcases property_of_accepts accepted kind.concrete_delta with rfl | rfl <;> rfl

theorem SpecEmitter.markSdfPropertySpec_of_present {emitter : SpecEmitter} {layer : Layer}
    {key : SpecKey} (present : layer.specKind key.path = some key.kind)
    (property : key.kind.isProperty = true) (fields : Option (List String))
    (composed : Option SpecKind) (localFields : List String) :
    emitter.markSdfPropertySpec rules layer key.path fields composed localFields =
      emitter.markExactSdfSpec key fields := by
  have found : ∀ stage, emitter.propertyKey rules layer key.path stage = some key := by
    intro stage
    unfold propertyKey
    rw [present, Option.filter_some, if_pos property]
  unfold markSdfPropertySpec isComposedOnly
  rw [found, found]
  rfl

theorem told_of_reports {source : Layer} {next : SourceLayer} {emitter : SpecEmitter}
    {report : SpecReport} (reports : SpecSession.Reports source next.content report)
    (prefixes : ∀ root, report = .subtree root → root.kind ≠ .variantSet) {key : SpecKey}
    (present : next.content.specKind key.path = some key.kind) :
    Told source next.content (emitter.record rules next.content report) key := by
  have accepted := next.standing _ _ present
  cases report with
  | spec marked fields =>
      obtain ⟨only, _, kinds⟩ := reports
      by_cases here : key.path = marked.path
      · have same : marked = key := by
          rw [here] at present
          rcases kinds with now | ⟨gone, _⟩
          · rw [present, Option.some.injEq] at now
            rcases marked with ⟨markedKind, markedPath⟩
            rcases key with ⟨kind, path⟩
            dsimp only at here now
            rw [here, now]
          · rw [gone] at present
            cases present
        subst same
        exact Told.of_marked only
      · exact Told.of_same accepted present (only.1 key.path here)
  | property path fields composed localFields =>
      obtain ⟨only, _, _, property, _⟩ := reports
      by_cases here : key.path = path
      · subst here
        show Told source next.content (emitter.markSdfPropertySpec rules next.content key.path fields
          composed localFields) key
        rw [SpecEmitter.markSdfPropertySpec_of_present present
          ((isProperty_of_accepts accepted).2 property)]
        exact Told.of_marked only
      · exact Told.of_same accepted present (only.1 key.path here)
  | subtree root =>
      by_cases inside : key.path.Inside ⟨root, none⟩
      · apply Told.of_due
        intro name
        have there : next.content.hasPrim root = true := by
          apply next.content.rooted key.path _ inside
          rw [← Layer.hasSpec, ← Layer.specKind_isSome, present]
          rfl
        refine .inl (SpecEmitter.resynced_iff.2 (.inr (.inr (SpecEmitter.underResync_iff.2 ?_))))
        refine ⟨root, ?_, inside, fun wrong => absurd wrong (prefixes root rfl)⟩
        show (emitter.dirtySdfSubtrees.set root _).get? root = _
        rw [OrderedDict.get?_set_self, there, Bool.or_true]
      · exact Told.of_same accepted present (reports key.path inside)
  | everything => exact Told.of_due fun name => .inl (SpecEmitter.resynced_iff.2 (.inl rfl))

/-! ### Marked keys -/

namespace SpecEmitter

variable {emitter : SpecEmitter}

/-- Marks stand at paths of their kinds, and the fields they name have names. -/
structure Standing (emitter : SpecEmitter) : Prop where
  accepted : ∀ key, (emitter.dirtySdfSpecs.get? key).isSome = true →
    key.kind.delta.accepts key.path = true
  named : ∀ key names, emitter.dirtySdfSpecs.get? key = some (some names) → "" ∉ names

theorem Standing.mark (standing : emitter.Standing) {key : SpecKey} {fields : Option (List String)}
    (accepted : key.kind.delta.accepts key.path = true)
    (named : SpecSession.NamedFields fields) : (emitter.markExactSdfSpec key fields).Standing := by
  have others : ∀ other, other ≠ key →
      (emitter.markExactSdfSpec key fields).dirtySdfSpecs.get? other =
        emitter.dirtySdfSpecs.get? other :=
    fun other away => OrderedDict.get?_set_of_ne _ _ away
  constructor
  · intro other marked
    by_cases away : other ≠ key
    · rw [others other away] at marked
      exact standing.accepted other marked
    · rw [not_not.1 away]
      exact accepted
  · intro other names found
    by_cases away : other ≠ key
    · rw [others other away] at found
      exact standing.named other names found
    · obtain rfl := not_not.1 away
      rw [get?_markExactSdfSpec, Option.some.injEq] at found
      split at found
      · next current before =>
          cases current with
          | none => cases found
          | some earlier =>
              cases fields with
              | none => cases found
              | some changed =>
                  rw [← Option.some.inj found, List.mem_append, not_or]
                  exact ⟨standing.named _ earlier before, named changed rfl⟩
      · exact named names found

theorem propertyKey_cases {layer : Layer} {path : SpecPath} {composed : Option SpecKind}
    {key : SpecKey} (found : emitter.propertyKey rules layer path composed = some key) :
    (emitter.sdfSpecFields.get? key).isSome = true ∨
      key.path = path ∧ key.kind.isProperty = true := by
  unfold propertyKey at found
  split at found
  · next kind here =>
      right
      obtain rfl := Option.some.inj found
      exact ⟨rfl, (Option.filter_eq_some_iff.1 here).2⟩
  · split at found
    · next kind here =>
        left
        obtain rfl := Option.some.inj found
        simpa using List.find?_some here
    · rcases Option.or_eq_some_iff.1 found with listed | ⟨_, stage⟩
      · left
        exact OrderedDict.mem_keys_iff_isSome.1 (List.mem_of_find?_eq_some listed)
      · right
        obtain ⟨kind, here, rfl⟩ := Option.map_eq_some_iff.1 stage
        exact ⟨rfl, (Option.filter_eq_some_iff.1 here).2⟩

end SpecEmitter

theorem accepts_property {kind other : SpecKind} {path : SpecPath}
    (accepted : other.delta.accepts path = true) (property : path.property.isSome = true)
    (isProperty : kind.isProperty = true) : kind.delta.accepts path = true := by
  rcases path with ⟨prim, name⟩
  cases name with
  | none => cases property
  | some name =>
      cases last : prim.getLast? with
      | none => cases other <;> simp [SpecKind.delta, SdfSpecKind.accepts, last] at accepted
      | some element =>
          cases kind <;> simp_all [SpecKind.delta, SdfSpecKind.accepts, SpecKind.isProperty]

theorem standing_record {source next : SourceLayer} {emitter : SpecEmitter} {report : SpecReport}
    (standing : emitter.Standing)
    (tracked : ∀ key, (emitter.sdfSpecFields.get? key).isSome = true →
      key.kind.delta.accepts key.path = true)
    (reports : SpecSession.Reports source.content next.content report) :
    (emitter.record rules next.content report).Standing := by
  cases report with
  | spec key fields =>
      obtain ⟨_, named, kinds⟩ := reports
      refine standing.mark ?_ named
      rcases kinds with now | ⟨_, before⟩
      · exact next.standing _ _ now
      · exact source.standing _ _ before
  | property path fields composed localFields =>
      obtain ⟨_, named, localNamed, property, there⟩ := reports
      show (emitter.markSdfPropertySpec rules next.content path fields composed localFields).Standing
      have stands : ∃ kind : SpecKind, kind.delta.accepts path = true := by
        rcases there with now | before
        · rw [← Layer.specKind_isSome] at now
          obtain ⟨kind, found⟩ := Option.isSome_iff_exists.1 now
          exact ⟨kind, next.standing _ _ found⟩
        · rw [← Layer.specKind_isSome] at before
          obtain ⟨kind, found⟩ := Option.isSome_iff_exists.1 before
          exact ⟨kind, source.standing _ _ found⟩
      obtain ⟨other, accepted⟩ := stands
      unfold SpecEmitter.markSdfPropertySpec
      split
      · next key found =>
          refine standing.mark ?_ ?_
          · rcases SpecEmitter.propertyKey_cases found with sent | ⟨rfl, isProperty⟩
            · exact tracked key sent
            · exact accepts_property accepted property isProperty
          · split
            · intro names chosen
              rw [← Option.some.inj chosen]
              cases fields with
              | none => exact localNamed
              | some changed => exact named changed rfl
            · exact named
      · exact standing
  | subtree root => exact ⟨standing.accepted, standing.named⟩
  | everything => exact ⟨standing.accepted, standing.named⟩

/-! ### The invariant -/

namespace SpecSession

/-- The emitter lists what the mirror has, and what differs from the source is marked. -/
structure Tracks (rules : SpecRules) (session : SpecSession) : Prop where
  finished : session.raised = false
  marks : session.emitter.Standing
  standing : ∀ key, (session.emitter.sdfSpecFields.get? key).isSome = true →
    key.kind.delta.accepts key.path = true ∧ key.path.prim.Selecting
  listed : ∀ key, (session.emitter.sdfSpecFields.get? key).isSome = true →
    session.mirror.specKind key.path = some key.kind ∧ key ∈ session.everSent
  fields : ∀ key names, session.emitter.sdfSpecFields.get? key = some names →
    ∀ name, name ∈ names ↔
      rules.covers key name = true ∧ session.mirror.fieldAs key name ≠ fun _ => none
  named : ∀ key names, session.emitter.sdfSpecFields.get? key = some names → "" ∉ names
  unlisted : ∀ key, session.emitter.sdfSpecFields.get? key = none →
    key.kind.delta.accepts key.path = true → ∀ name, rules.covers key name = true →
      session.mirror.fieldAs key name = fun _ => none
  gone : ∀ key ∈ session.everSent, session.emitter.sdfSpecFields.get? key = none →
    session.mirror.specKind key.path ≠ some key.kind
  changed : ∀ key, session.source.content.specKind key.path = some key.kind →
    ∀ name, rules.covers key name = true →
      session.source.content.fieldAs key name ≠ (fun _ => none) →
        session.mirror.fieldAs key name ≠ session.source.content.fieldAs key name →
          session.emitter.Due key name
  noticed : ∀ key, (session.emitter.sdfSpecFields.get? key).isSome = true →
    session.source.content.specKind key.path = some key.kind →
      ∀ name, rules.covers key name = true →
        session.mirror.fieldAs key name ≠ session.source.content.fieldAs key name →
          session.emitter.Noticed key
  returned : ∀ key ∈ session.everSent,
    session.source.content.specKind key.path = some key.kind →
      session.emitter.sdfSpecFields.get? key = none → session.emitter.Noticed key

theorem tracks_start : Tracks rules .start := by
  have bare : ∀ key : SpecKey, Layer.empty.fieldAs key = fun _ _ => none := by
    intro key
    funext name time
    unfold Layer.fieldAs Layer.info
    have samples : Layer.empty.value key.path (.sample time) = none := if_neg (by simp)
    have info : Layer.empty.value key.path (.info name) = none := if_neg (by simp)
    rw [samples, info]
    have own : Layer.empty.ownData = [] := by
      unfold Layer.ownData Layer.layerData
      rw [Layer.info_empty]
      rfl
    simp [own]
  constructor
  · rfl
  · exact ⟨fun _ marked => (nomatch marked), fun _ _ found => nomatch found⟩
  · exact fun _ sent => nomatch sent
  · exact fun _ sent => nomatch sent
  · exact fun _ _ found => nomatch found
  · exact fun _ _ found => nomatch found
  · exact fun key _ _ name _ => congrFun (bare key) name
  · exact fun _ sent => nomatch sent
  · exact fun key _ name _ authored _ => absurd (congrFun (bare key) name) authored
  · exact fun _ sent => nomatch sent
  · exact fun _ sent => nomatch sent

theorem tracks_edit {session : SpecSession} (tracks : session.Tracks rules) {next : SourceLayer}
    {report : SpecReport} (reports : Reports session.source.content next.content report)
    (prefixes : ∀ root, report = .subtree root → root.kind ≠ .variantSet) :
    Tracks rules { session with
      source := next
      emitter := session.emitter.record rules next.content report } := by
  have grown := @SpecEmitter.marks_record rules session.emitter next.content report
  have told : ∀ key : SpecKey, next.content.specKind key.path = some key.kind →
      Told session.source.content next.content
        (session.emitter.record rules next.content report) key :=
    fun key present => told_of_reports reports prefixes present
  -- a field that differs from the mirror's was so before, or is due
  have different : ∀ key : SpecKey, next.content.specKind key.path = some key.kind → ∀ name,
      session.mirror.fieldAs key name ≠ next.content.fieldAs key name →
        (session.mirror.fieldAs key name ≠ session.source.content.fieldAs key name ∧
          next.content.fieldAs key name = session.source.content.fieldAs key name) ∨
        (session.emitter.record rules next.content report).Due key name := by
    intro key present name differs
    rcases (told key present).field name with same | due
    · exact .inl ⟨same ▸ differs, same⟩
    · exact .inr due
  constructor
  · exact tracks.finished
  · exact standing_record tracks.marks (fun key sent => (tracks.standing key sent).1) reports
  · rw [grown.sent]
    exact tracks.standing
  · rw [grown.sent]
    exact tracks.listed
  · rw [grown.sent]
    exact tracks.fields
  · rw [grown.sent]
    exact tracks.named
  · rw [grown.sent]
    exact tracks.unlisted
  · rw [grown.sent]
    exact tracks.gone
  · intro key present name covered authored differs
    rcases different key present name differs with ⟨before, same⟩ | due
    · apply grown.due
      refine tracks.changed key ?_ name covered (fun none => authored (same.trans none)) before
      by_contra other
      exact authored (same.trans (Layer.fieldAs_of_ne other name))
    · exact due
  · rw [grown.sent]
    intro key sent present name covered differs
    rcases different key present name differs with ⟨before, _⟩ | due
    · rcases (told key present).there with there | noticed
      · exact grown.noticed key (tracks.noticed key sent there name covered before)
      · exact noticed
    · exact due.noticed
  · rw [grown.sent]
    intro key sent present unlisted
    rcases (told key present).there with there | noticed
    · exact grown.noticed key (tracks.returned key sent there unlisted)
    · exact noticed

end SpecSession

end UsdConnect
