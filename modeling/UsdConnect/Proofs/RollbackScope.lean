/-
Purpose: A scoped rollback restores the layer exactly when the block wrote only inside the covered
  subtrees and left the parent of every saved prim in place.
Trusted boundary: none
Main exports: ScopedSnapshot.Entered, ScopedSnapshot.Guarded, Guarded.restore
-/
import UsdConnect.Server.Scene

namespace UsdConnect

/-- A proper ancestor is an ancestor of the parent. -/
theorem prefix_dropLast {outer prim : PrimPath} (above : outer <+: prim) (proper : outer ≠ prim) :
    outer <+: prim.dropLast := by
  obtain ⟨rest, joined⟩ := above
  have more : rest ≠ [] := by
    intro none
    rw [none, List.append_nil] at joined
    exact proper joined
  rw [← joined, List.dropLast_append_of_ne_nil more]
  exact List.prefix_append _ _

namespace Layer

/-- Below a missing prim nothing is authored. -/
theorem value_none_of_missing {layer : Layer} {prim : PrimPath} (missing : ¬ layer.hasPrim prim)
    {path : SpecPath} (below : prim <+: path.prim) (field : Field) :
    layer.value path field = none := by
  by_contra authored
  apply missing
  have present : (layer.value path field).isSome := Option.isSome_iff_ne_none.2 authored
  exact layer.rooted path ⟨prim, none⟩ below (layer.tidy path field present)

theorem spec_of_hasPrim {layer : Layer} {prim : PrimPath} (present : layer.hasPrim prim) :
    layer.value ⟨prim, none⟩ .spec = some .present := by
  rcases layer.plain prim with missing | plain
  · unfold hasPrim hasSpec at present
    rw [missing] at present
    cases present
  · exact plain

theorem hasPrim_of_prefix {layer : Layer} {prim outer : PrimPath} (above : outer <+: prim)
    (present : layer.hasPrim prim) : layer.hasPrim outer :=
  layer.rooted ⟨prim, none⟩ ⟨outer, none⟩ above present

theorem hasPrim_root (layer : Layer) : layer.hasPrim [] := by
  unfold hasPrim hasSpec
  rw [show (⟨[], none⟩ : SpecPath) = .root from rfl, layer.pseudoRoot]
  rfl

end Layer

namespace ScopedSnapshot

/-- Spec paths a snapshot restores. -/
def Covers (snapshot : ScopedSnapshot) (prim : PrimPath) : Prop :=
  ∃ outer ∈ snapshot.saved ++ snapshot.createdRoots, outer <+: prim

theorem covered_iff (snapshot : ScopedSnapshot) (prim : PrimPath) :
    snapshot.covered prim = true ↔ snapshot.Covers prim := by
  unfold covered Covers
  rw [List.any_eq_true]
  simp only [decide_eq_true_eq]

theorem Covers.mono {snapshot : ScopedSnapshot} {outer prim : PrimPath}
    (covers : snapshot.Covers outer) (below : outer <+: prim) : snapshot.Covers prim := by
  obtain ⟨scope, member, above⟩ := covers
  exact ⟨scope, member, above.trans below⟩

/-- What `__enter__` guarantees: saved prims existed, created roots were the topmost missing prims
of their branch. -/
structure Entered (snapshot : ScopedSnapshot) : Prop where
  saved : ∀ path ∈ snapshot.saved, path ≠ [] ∧ snapshot.backup.hasPrim path
  created : ∀ root ∈ snapshot.createdRoots,
    root ≠ [] ∧ ¬ snapshot.backup.hasPrim root ∧ snapshot.backup.hasPrim root.dropLast

/-- The climb ends at a missing prim with an existing parent. -/
theorem climb_spec (layer : Layer) (reversed : List PathElement) (nonempty : reversed ≠ [])
    (missing : ¬ layer.hasPrim reversed.reverse) :
    climb layer reversed ≠ [] ∧ ¬ layer.hasPrim (climb layer reversed).reverse ∧
      layer.hasPrim (climb layer reversed).tail.reverse ∧
      climb layer reversed <:+ reversed := by
  induction reversed with
  | nil => exact absurd rfl nonempty
  | cons last above ih =>
      unfold climb
      split
      · next stop =>
          refine ⟨List.cons_ne_nil _ _, missing, ?_, List.suffix_rfl⟩
          rcases stop with top | exist
          · rw [List.tail_cons, top]
            exact layer.hasPrim_root
          · exact exist
      · next go =>
          rw [not_or] at go
          obtain ⟨found, absent, parent, below⟩ := ih go.1 go.2
          exact ⟨found, absent, parent, below.trans (List.suffix_cons last above)⟩

theorem createdRoot_spec {layer : Layer} {path : PrimPath} (below : path ≠ [])
    (missing : ¬ layer.hasPrim path) :
    createdRoot layer path ≠ [] ∧ ¬ layer.hasPrim (createdRoot layer path) ∧
      layer.hasPrim (createdRoot layer path).dropLast ∧ createdRoot layer path <+: path := by
  have reversed : path.reverse ≠ [] := by simpa using below
  obtain ⟨found, absent, parent, suffix⟩ := climb_spec layer path.reverse reversed (by
    rw [List.reverse_reverse]
    exact missing)
  refine ⟨by simpa [createdRoot] using found, absent, ?_, ?_⟩
  · unfold createdRoot
    rw [List.dropLast_reverse]
    exact parent
  · unfold createdRoot
    rw [← List.reverse_suffix, List.reverse_reverse]
    exact suffix

theorem Entered.add {snapshot : ScopedSnapshot} (entered : snapshot.Entered) {path : PrimPath}
    (below : path ≠ []) : (snapshot.add path).Entered := by
  unfold ScopedSnapshot.add
  split
  · exact entered
  · split
    · next existing =>
        refine ⟨?_, entered.created⟩
        intro other member
        rcases List.mem_append.1 member with old | new
        · exact entered.saved other old
        · rw [List.mem_singleton.1 new]
          exact ⟨below, existing⟩
    · next absent =>
        refine ⟨entered.saved, ?_⟩
        intro root member
        rcases List.mem_append.1 member with old | new
        · exact entered.created root old
        · rw [List.mem_singleton.1 new]
          obtain ⟨found, missing, parent, _⟩ := createdRoot_spec below absent
          exact ⟨found, missing, parent⟩

@[simp] theorem add_backup (snapshot : ScopedSnapshot) (path : PrimPath) :
    (snapshot.add path).backup = snapshot.backup := by
  unfold add
  split
  · rfl
  · split <;> rfl

theorem Covers.add {snapshot : ScopedSnapshot} {prim : PrimPath} (covers : snapshot.Covers prim)
    (path : PrimPath) : (snapshot.add path).Covers prim := by
  obtain ⟨outer, member, above⟩ := covers
  refine ⟨outer, ?_, above⟩
  unfold ScopedSnapshot.add
  split
  · exact member
  · split
    · rcases List.mem_append.1 member with saved | created
      · exact List.mem_append_left _ (List.mem_append_left _ saved)
      · exact List.mem_append_right _ created
    · rcases List.mem_append.1 member with saved | created
      · exact List.mem_append_left _ saved
      · exact List.mem_append_right _ (List.mem_append_left _ created)

theorem covers_add (snapshot : ScopedSnapshot) {path : PrimPath} (below : path ≠ []) :
    (snapshot.add path).Covers path := by
  unfold add
  split
  · next already => exact (covered_iff snapshot path).1 already
  · split
    · exact ⟨path, by simp, List.prefix_rfl⟩
    · next absent =>
        obtain ⟨_, _, _, above⟩ := createdRoot_spec below absent
        exact ⟨createdRoot snapshot.backup path, by simp, above⟩

@[simp] theorem enter_backup (layer : Layer) (paths : List PrimPath) :
    (enter layer paths).backup = layer := by
  unfold enter
  generalize start : ({ backup := layer } : ScopedSnapshot) = snapshot
  have same : snapshot.backup = layer := by rw [← start]
  clear start
  induction paths generalizing snapshot with
  | nil => exact same
  | cons path rest ih => exact ih (snapshot.add path) (by rw [add_backup, same])

/-- Entering keeps the guarantee and covers every path. -/
theorem foldl_add {paths : List PrimPath} (below : ∀ path ∈ paths, path ≠ [])
    {snapshot : ScopedSnapshot} (entered : snapshot.Entered) :
    (paths.foldl add snapshot).Entered ∧
      (∀ prim, snapshot.Covers prim → (paths.foldl add snapshot).Covers prim) ∧
      ∀ path ∈ paths, (paths.foldl add snapshot).Covers path := by
  induction paths generalizing snapshot with
  | nil =>
      refine ⟨entered, fun _ covers => covers, ?_⟩
      intro path member
      exact absurd member List.not_mem_nil
  | cons path rest ih =>
      have nonempty := below path List.mem_cons_self
      obtain ⟨final, kept, all⟩ := ih
        (fun other member => below other (List.mem_cons_of_mem path member))
        (entered.add nonempty)
      refine ⟨final, fun prim covers => kept prim (covers.add path), ?_⟩
      intro other member
      rcases List.mem_cons.1 member with rfl | later
      · exact kept other (covers_add snapshot nonempty)
      · exact all other later

theorem entered_enter {layer : Layer} {paths : List PrimPath}
    (below : ∀ path ∈ paths, path ≠ []) : (enter layer paths).Entered :=
  (foldl_add below ⟨by simp, by simp⟩).1

theorem covers_enter {layer : Layer} {paths : List PrimPath}
    (below : ∀ path ∈ paths, path ≠ []) {path : PrimPath} (member : path ∈ paths) :
    (enter layer paths).Covers path :=
  (foldl_add below ⟨by simp, by simp⟩).2.2 path member

/-- Ancestors of a covered prim that were missing at entry are covered too. -/
theorem Entered.covers_missing {snapshot : ScopedSnapshot} (entered : snapshot.Entered)
    {prim outer : PrimPath} (covers : snapshot.Covers prim) (above : outer <+: prim)
    (missing : ¬ snapshot.backup.hasPrim outer) : snapshot.Covers outer := by
  obtain ⟨scope, member, inside⟩ := covers
  refine ⟨scope, member, ?_⟩
  rcases List.prefix_or_prefix_of_prefix inside above with done | higher
  · exact done
  · rcases List.mem_append.1 member with saved | created
    · exact absurd (Layer.hasPrim_of_prefix higher (entered.saved scope saved).2) missing
    · obtain ⟨nonempty, _, parent⟩ := entered.created scope created
      by_cases same : outer = scope
      · rw [same]
      · -- a proper ancestor of a created root exists
        exact absurd (Layer.hasPrim_of_prefix (prefix_dropLast higher same) parent) missing

/-! ### What the block may do -/

/-- Nothing outside the covered subtrees has changed and every saved prim still has its parent. -/
structure Guarded (snapshot : ScopedSnapshot) (layer : Layer) : Prop where
  outside : ∀ (path : SpecPath) (field : Field), ¬ snapshot.Covers path.prim →
    layer.value path field = snapshot.backup.value path field
  parents : ∀ path ∈ snapshot.saved, layer.hasPrim path.dropLast

/-- A place the block may author at: covered, and reached through existing or covered prims. -/
def Open (snapshot : ScopedSnapshot) (layer : Layer) (prim : PrimPath) : Prop :=
  snapshot.Covers prim ∧ ∀ outer, outer <+: prim → layer.hasPrim outer ∨ snapshot.Covers outer

theorem Guarded.open {snapshot : ScopedSnapshot} {layer : Layer} (guarded : snapshot.Guarded layer)
    (entered : snapshot.Entered) {prim : PrimPath} (covers : snapshot.Covers prim) :
    snapshot.Open layer prim := by
  refine ⟨covers, ?_⟩
  intro outer above
  by_cases inside : snapshot.Covers outer
  · exact Or.inr inside
  · left
    by_contra missing
    apply inside
    apply entered.covers_missing covers above
    unfold Layer.hasPrim Layer.hasSpec at missing ⊢
    rw [guarded.outside ⟨outer, none⟩ .spec inside] at missing
    exact missing

theorem Open.createdBy {snapshot : ScopedSnapshot} {layer : Layer} (target : SpecPath)
    (isOpen : snapshot.Open layer target.prim) {kind : SpecKind} {path : SpecPath}
    (outside : ¬ snapshot.Covers path.prim) (field : Field) :
    (LayerEdit.createdBy target kind path field).getD (layer.value path field) =
      layer.value path field := by
  unfold LayerEdit.createdBy
  split
  · next creates =>
      obtain ⟨rfl, above⟩ := creates
      have ancestor := above.prim
      rcases path with ⟨prim, property⟩
      cases property with
      | none =>
          rcases isOpen.2 prim ancestor with exist | covered
          · rw [Layer.spec_of_hasPrim exist]
            rfl
          · exact absurd covered outside
      | some name =>
          have same : target = ⟨prim, some name⟩ := above
          rw [same] at isOpen
          exact absurd isOpen.1 outside
  · rfl

/-- Edits that create specs and write fields at one place. -/
inductive AuthorsAt (path : SpecPath) : LayerEdit → Prop
  | create (kind : SpecKind) : AuthorsAt path (.create path kind)
  | author (kind : SpecKind) (field : Field) (value : Datum) :
      AuthorsAt path (.author path kind field value)
  | clear (field : Field) : AuthorsAt path (.clear path field)
  | samples (table : TimeCode → Option Datum) : AuthorsAt path (.samples path table)

/-- Away from its place such an edit only creates ancestors. -/
theorem AuthorsAt.written {target : SpecPath} {edit : LayerEdit} (authors : AuthorsAt target edit)
    {path : SpecPath} (away : path ≠ target) (field : Field) :
    edit.written path field = none ∨
      ∃ kind, edit.written path field = LayerEdit.createdBy target kind path field := by
  cases authors with
  | create kind => exact Or.inr ⟨kind, rfl⟩
  | author kind authored value =>
      right
      refine ⟨kind, ?_⟩
      simp only [LayerEdit.written]
      rw [if_neg (fun here => away here.1)]
  | clear cleared =>
      left
      simp only [LayerEdit.written]
      rw [if_neg (fun here => away here.1)]
  | samples table =>
      cases field with
      | sample time =>
          left
          simp only [LayerEdit.written]
          rw [if_neg away]
      | spec => exact Or.inr ⟨.attribute, rfl⟩
      | info name => exact Or.inr ⟨.attribute, rfl⟩

theorem AuthorsAt.hasPrim {target : SpecPath} {edit : LayerEdit} (authors : AuthorsAt target edit)
    {layer : Layer} {prim : PrimPath} (present : layer.hasPrim prim) :
    (edit.apply layer).hasPrim prim := by
  have created : ∀ kind, ((LayerEdit.createdBy target kind ⟨prim, none⟩ .spec).getD
      (layer.value ⟨prim, none⟩ .spec)).isSome := by
    intro kind
    unfold LayerEdit.createdBy
    split
    · rfl
    · exact present
  change (edit.edited layer ⟨prim, none⟩ .spec).isSome
  by_cases top : (⟨prim, none⟩ : SpecPath) = .root
  · rw [top, LayerEdit.edited_pseudoRoot]
    rfl
  rw [LayerEdit.edited_of_ne_root top]
  cases authors with
  | create kind => exact created kind
  | author kind field value =>
      have plain : LayerEdit.written (.author target kind field value) ⟨prim, none⟩ .spec =
          LayerEdit.createdBy target kind ⟨prim, none⟩ .spec := by simp [LayerEdit.written]
      rw [plain]
      exact created kind
  | clear field =>
      have plain : LayerEdit.written (.clear target field) ⟨prim, none⟩ .spec = none := by
        simp [LayerEdit.written]
      rw [plain]
      exact present
  | samples table => exact created .attribute

theorem Guarded.author {snapshot : ScopedSnapshot} {layer : Layer}
    (guarded : snapshot.Guarded layer) {target : SpecPath}
    (isOpen : snapshot.Open layer target.prim) {edit : LayerEdit}
    (authors : AuthorsAt target edit) : snapshot.Guarded (edit.apply layer) := by
  refine ⟨?_, fun path member => authors.hasPrim (guarded.parents path member)⟩
  intro path field outside
  rw [← guarded.outside path field outside]
  change edit.edited layer path field = _
  by_cases top : path = .root ∧ field = .spec
  · rw [top.1, top.2, LayerEdit.edited_pseudoRoot, layer.pseudoRoot]
  · unfold LayerEdit.edited LayerEdit.changes
    rw [if_neg top]
    have away : path ≠ target := by
      rintro rfl
      exact outside isOpen.1
    rcases authors.written away field with untouched | ⟨kind, creates⟩
    · rw [untouched]
      rfl
    · rw [creates]
      exact ScopedSnapshot.Open.createdBy target isOpen outside field

/-- Removing a covered subtree that holds no saved prim's parent. -/
theorem Guarded.remove {snapshot : ScopedSnapshot} {layer : Layer}
    (guarded : snapshot.Guarded layer) (target : SpecPath) (covers : snapshot.Covers target.prim)
    (keeps : target.property = none → ∀ path ∈ snapshot.saved, ¬ target.prim <+: path.dropLast) :
    snapshot.Guarded ((LayerEdit.remove target).apply layer) := by
  have untouched : ∀ (path : SpecPath) (field : Field), ¬ path.Inside target →
      ((LayerEdit.remove target).apply layer).value path field = layer.value path field := by
    intro path field away
    change LayerEdit.edited _ layer path field = _
    unfold LayerEdit.edited LayerEdit.changes
    split
    · rfl
    · simp only [LayerEdit.written]
      rw [if_neg away]
      rfl
  constructor
  · intro path field outside
    rw [untouched path field (fun inside => outside (covers.mono inside.prim))]
    exact guarded.outside path field outside
  · intro path member
    unfold Layer.hasPrim Layer.hasSpec
    rw [untouched]
    · exact guarded.parents path member
    · intro inside
      unfold SpecPath.Inside at inside
      split at inside
      · next none => exact keeps none path member inside
      · next name some =>
          have same := congrArg SpecPath.property inside
          rw [some] at same
          cases same

/-- Moving a subtree to a covered free place. -/
theorem Guarded.graft {snapshot : ScopedSnapshot} {layer : Layer}
    (guarded : snapshot.Guarded layer) {target : PrimPath} (isOpen : snapshot.Open layer target)
    (free : ¬ layer.hasPrim target) (source : Layer) (origin : PrimPath) :
    snapshot.Guarded ((LayerEdit.graft target source origin).apply layer) := by
  have beside : ∀ (path : SpecPath) (field : Field), ¬ target <+: path.prim →
      ((LayerEdit.graft target source origin).apply layer).value path field =
        (if path = .root ∧ field = .spec then none
          else LayerEdit.createdBy ⟨target, none⟩ .prim path field).getD
            (layer.value path field) := by
    intro path field away
    change LayerEdit.edited _ layer path field = _
    unfold LayerEdit.edited LayerEdit.changes
    simp only [LayerEdit.written]
    rw [if_neg away]
  constructor
  · intro path field outside
    rw [beside path field (fun inside => outside (isOpen.1.mono inside)),
      ← guarded.outside path field outside]
    split
    · rfl
    · exact ScopedSnapshot.Open.createdBy ⟨target, none⟩ isOpen outside field
  · intro path member
    have present := guarded.parents path member
    unfold Layer.hasPrim Layer.hasSpec
    rw [beside]
    · split
      · exact present
      · unfold LayerEdit.createdBy
        split
        · rfl
        · exact present
    · intro inside
      exact free (Layer.hasPrim_of_prefix inside present)

/-! ### Leaving with an exception -/

/-- Away from the paths still to be restored the layer is the saved one. -/
structure Restoring (backup : Layer) (pending : List PrimPath) (layer : Layer) : Prop where
  restored : ∀ (path : SpecPath) (field : Field), (¬ ∃ outer ∈ pending, outer <+: path.prim) →
    layer.value path field = backup.value path field
  parents : ∀ path ∈ pending, layer.hasPrim path.dropLast

theorem Guarded.removeCreated {snapshot : ScopedSnapshot} {layer : Layer}
    (guarded : snapshot.Guarded layer) (entered : snapshot.Entered)
    (roots : List PrimPath) (known : ∀ root ∈ roots, root ∈ snapshot.createdRoots) :
    let program : LayerProgram Unit := roots.forM fun root => Edit.act (.remove ⟨root, none⟩)
    program.result layer = .ok () ∧ snapshot.Guarded (program.after layer) ∧
      ∀ (path : SpecPath) (field : Field),
        (∃ root ∈ roots, root <+: path.prim) ∨ layer.value path field = none →
          (program.after layer).value path field = none := by
  induction roots generalizing layer with
  | nil =>
      refine ⟨rfl, guarded, ?_⟩
      intro path field gone
      rcases gone with ⟨root, member, _⟩ | none
      · exact absurd member List.not_mem_nil
      · exact none
  | cons root rest ih =>
      obtain ⟨nonempty, absent, parent⟩ := entered.created root (known root List.mem_cons_self)
      have covers : snapshot.Covers root :=
        ⟨root, List.mem_append_right _ (known root List.mem_cons_self), List.prefix_rfl⟩
      have step := guarded.remove ⟨root, none⟩ covers (by
        intro _ path member above
        apply absent
        apply Layer.hasPrim_of_prefix (above.trans (List.dropLast_prefix path))
        exact (entered.saved path member).2)
      obtain ⟨finished, final, cleared⟩ := ih step
        (fun other member => known other (List.mem_cons_of_mem root member))
      refine ⟨finished, final, ?_⟩
      intro path field gone
      apply cleared path field
      by_cases later : ∃ other ∈ rest, other <+: path.prim
      · exact Or.inl later
      · right
        change LayerEdit.edited _ layer path field = none
        have notTop : ¬ (path = .root ∧ field = .spec) := by
          rintro ⟨rfl, rfl⟩
          rcases gone with ⟨other, member, above⟩ | none
          · rcases List.mem_cons.1 member with rfl | tail
            · exact nonempty (List.prefix_nil.1 above)
            · exact later ⟨other, tail, above⟩
          · rw [layer.pseudoRoot] at none
            cases none
        unfold LayerEdit.edited LayerEdit.changes
        rw [if_neg notTop]
        simp only [LayerEdit.written]
        split
        · rfl
        · next away =>
            rcases gone with ⟨other, member, above⟩ | none
            · rcases List.mem_cons.1 member with rfl | tail
              · exact absurd above away
              · exact absurd ⟨other, tail, above⟩ later
            · exact none

/-- One copied subtree is restored, and the parents of the others stay. -/
theorem Restoring.copy {backup layer : Layer} {path : PrimPath} {rest : List PrimPath}
    (restoring : Restoring backup (path :: rest) layer)
    (existed : ∀ other ∈ rest, backup.hasPrim other) :
    (restorePath backup path).result layer = .ok () ∧
      Restoring backup rest ((restorePath backup path).after layer) := by
  have parent := restoring.parents path List.mem_cons_self
  have runs : restorePath backup path layer = ([.graft path backup path], .ok ()) := by
    unfold restorePath
    rw [Edit.look_bind, id_eq, if_neg]
    · rfl
    · rintro ⟨_, missing⟩
      rw [parent] at missing
      cases missing
  have finished : (restorePath backup path).result layer = .ok () := by
    unfold Edit.result
    rw [runs]
  have ends : (restorePath backup path).after layer =
      (LayerEdit.graft path backup path).apply layer := by
    unfold Edit.after Edit.edits
    rw [runs]
    rfl
  refine ⟨finished, ?_⟩
  rw [ends]
  -- below the path the backup's values stand, elsewhere nothing changes
  have inside : ∀ (other : SpecPath) (field : Field), path <+: other.prim →
      ((LayerEdit.graft path backup path).apply layer).value other field =
        backup.value other field := by
    intro other field below
    change LayerEdit.edited _ layer other field = _
    by_cases top : other = .root ∧ field = .spec
    · rw [top.1, top.2, LayerEdit.edited_pseudoRoot, backup.pseudoRoot]
    · unfold LayerEdit.edited LayerEdit.changes
      rw [if_neg top]
      simp only [LayerEdit.written]
      rw [if_pos below, Option.getD_some]
      obtain ⟨tail, joined⟩ := below
      rcases other with ⟨prim, property⟩
      dsimp only at joined ⊢
      rw [← joined, List.drop_left' rfl]
  have outside : ∀ (other : SpecPath) (field : Field), ¬ path <+: other.prim →
      ((LayerEdit.graft path backup path).apply layer).value other field =
        layer.value other field := by
    intro other field away
    change LayerEdit.edited _ layer other field = _
    unfold LayerEdit.edited LayerEdit.changes
    simp only [LayerEdit.written]
    rw [if_neg away]
    split
    · rfl
    · unfold LayerEdit.createdBy
      split
      · next creates =>
          obtain ⟨rfl, above⟩ := creates
          rcases other with ⟨prim, property⟩
          cases property with
          | none =>
              have proper : prim ≠ path := by
                rintro rfl
                exact away List.prefix_rfl
              have present := Layer.hasPrim_of_prefix (prefix_dropLast above proper) parent
              rw [Layer.spec_of_hasPrim present]
              rfl
          | some name => cases congrArg SpecPath.property above
      · rfl
  constructor
  · intro other field away
    by_cases below : path <+: other.prim
    · exact inside other field below
    · rw [outside other field below]
      apply restoring.restored
      rintro ⟨outer, member, above⟩
      rcases List.mem_cons.1 member with rfl | tail
      · exact below above
      · exact away ⟨outer, tail, above⟩
  · intro other member
    unfold Layer.hasPrim Layer.hasSpec
    by_cases below : path <+: other.dropLast
    · rw [inside ⟨other.dropLast, none⟩ .spec below]
      exact Layer.hasPrim_of_prefix (List.dropLast_prefix other) (existed other member)
    · rw [outside ⟨other.dropLast, none⟩ .spec below]
      exact restoring.parents other (List.mem_cons_of_mem path member)

/-- Copying all pending subtrees gives the saved layer back. -/
theorem Restoring.copyAll {backup layer : Layer} {pending : List PrimPath}
    (restoring : Restoring backup pending layer)
    (existed : ∀ other ∈ pending, backup.hasPrim other) :
    (pending.forM fun path => restorePath backup path).after layer = backup := by
  induction pending generalizing layer with
  | nil =>
      apply Layer.ext
      funext path field
      apply restoring.restored path field
      rintro ⟨outer, member, _⟩
      exact absurd member List.not_mem_nil
  | cons path rest ih =>
      obtain ⟨finished, next⟩ := restoring.copy
        (fun other member => existed other (List.mem_cons_of_mem path member))
      rw [Edit.after_forM_cons finished]
      exact ih next (fun other member => existed other (List.mem_cons_of_mem path member))

theorem Guarded.restore {snapshot : ScopedSnapshot} {layer : Layer}
    (guarded : snapshot.Guarded layer) (entered : snapshot.Entered) :
    snapshot.restore.after layer = snapshot.backup := by
  obtain ⟨finished, guardedNow, cleared⟩ :=
    guarded.removeCreated entered snapshot.createdRoots (fun _ member => member)
  unfold ScopedSnapshot.restore
  rw [Edit.after_bind_of_ok finished]
  apply Restoring.copyAll
  · refine ⟨?_, guardedNow.parents⟩
    intro path field away
    by_cases created : ∃ root ∈ snapshot.createdRoots, root <+: path.prim
    · rw [cleared path field (Or.inl created)]
      obtain ⟨root, member, above⟩ := created
      obtain ⟨_, absent, _⟩ := entered.created root member
      exact (Layer.value_none_of_missing absent above field).symm
    · apply guardedNow.outside path field
      rintro ⟨outer, member, above⟩
      rcases List.mem_append.1 member with saved | root
      · exact away ⟨outer, saved, above⟩
      · exact created ⟨outer, root, above⟩
  · exact fun other member => (entered.saved other member).2

end ScopedSnapshot

end UsdConnect
