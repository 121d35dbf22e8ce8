/-
Purpose: A scoped rollback gives back the layer of its entry exactly when a missing parent does not
  raise or no saved prim has lost its parent.
Trusted boundary: none
Main exports: exit_restores_iff
-/
import UsdConnect.Events.AtomicApply
import UsdConnect.Proofs.RollbackScope

namespace UsdConnect

theorem ScenePath.specPath_prefix {outer prim : ScenePath} :
    outer.specPath <+: prim.specPath ↔ outer <+: prim := by
  unfold ScenePath.specPath
  constructor
  · rintro ⟨rest, joined⟩
    obtain ⟨first, second, split, left, _⟩ := List.append_eq_map_iff.1 joined
    rw [split]
    have same : first = outer := List.map_injective_iff.2 (fun _ _ same => by cases same; rfl) left
    rw [same]
    exact List.prefix_append _ _
  · intro above
    exact above.map _

namespace ScopedSnapshot

variable {layer : Layer}

/-! ### What is saved -/

/-- Adding paths only appends to what is saved. -/
theorem saved_foldl (paths : List PrimPath) (snapshot : ScopedSnapshot) :
    ∃ later, (paths.foldl add snapshot).saved = snapshot.saved ++ later ∧
      ∀ path ∈ later, path ∈ paths := by
  induction paths generalizing snapshot with
  | nil => exact ⟨[], (List.append_nil _).symm, fun _ member => member⟩
  | cons path rest ih =>
      obtain ⟨later, longer, known⟩ := ih (snapshot.add path)
      have deeper : ∀ other ∈ later, other ∈ path :: rest :=
        fun other member => List.mem_cons_of_mem path (known other member)
      rw [List.foldl_cons, longer]
      unfold add
      split
      · exact ⟨later, rfl, deeper⟩
      · split
        · refine ⟨path :: later, by rw [List.append_assoc]; rfl, ?_⟩
          intro other member
          rcases List.mem_cons.1 member with rfl | tail
          · exact List.mem_cons_self
          · exact deeper other tail
        · exact ⟨later, rfl, deeper⟩

/-- A listed prim that exists is saved in its place unless it or an ancestor is listed before. -/
theorem saved_of_uncovered {before : List PrimPath} (after : List PrimPath) {path : PrimPath}
    (below : ∀ other ∈ before, other ≠ []) (existing : layer.hasPrim path)
    (first : ∀ earlier ∈ before, ¬ earlier <+: path) :
    ∃ sooner later, (enter layer (before ++ path :: after)).saved = sooner ++ path :: later ∧
      ∀ earlier ∈ sooner, earlier ∈ before := by
  obtain ⟨sooner, start, known⟩ := saved_foldl before { backup := layer }
  rw [List.nil_append] at start
  have backup : (before.foldl add { backup := layer }).backup = layer := enter_backup layer before
  have entered : (before.foldl add { backup := layer }).Entered := entered_enter below
  unfold enter
  rw [List.foldl_append, List.foldl_cons]
  generalize before.foldl add { backup := layer } = snapshot at start backup entered
  have uncovered : snapshot.covered path = false := by
    rw [Bool.eq_false_iff]
    intro covered
    obtain ⟨outer, member, above⟩ := (covered_iff _ _).1 covered
    rcases List.mem_append.1 member with saved | created
    · rw [start] at saved
      exact first outer (known outer saved) above
    · obtain ⟨_, absent, _⟩ := entered.created outer created
      rw [backup] at absent
      exact absent (Layer.hasPrim_of_prefix above existing)
  have placed : (snapshot.add path).saved = sooner ++ [path] := by
    unfold add
    rw [uncovered, backup, existing, start]
    rfl
  obtain ⟨later, longer, _⟩ := saved_foldl after (snapshot.add path)
  refine ⟨sooner, later, ?_, known⟩
  rw [longer, placed, List.append_assoc]
  rfl

/-- A prim is saved where it is listed, when it exists and nothing before covers it. -/
theorem uncovered_of_saved {paths : List PrimPath} {snapshot : ScopedSnapshot} {path : PrimPath}
    (member : path ∈ (paths.foldl add snapshot).saved) :
    path ∈ snapshot.saved ∨ ∃ before after, paths = before ++ path :: after ∧
      snapshot.backup.hasPrim path ∧ ¬ (before.foldl add snapshot).Covers path := by
  induction paths generalizing snapshot with
  | nil => exact Or.inl member
  | cons first rest ih =>
      rcases ih member with already | ⟨before, after, split, existing, uncovered⟩
      · by_cases old : path ∈ snapshot.saved
        · exact Or.inl old
        · right
          unfold add at already
          split at already
          · exact absurd already old
          · next uncovered =>
              split at already
              · next existing =>
                  rcases List.mem_append.1 already with saved | here
                  · exact absurd saved old
                  · obtain rfl := List.mem_singleton.1 here
                    refine ⟨[], rest, rfl, existing, ?_⟩
                    intro covers
                    exact uncovered ((covered_iff _ _).2 covers)
              · exact absurd already old
      · right
        rw [add_backup] at existing
        exact ⟨first :: before, after, by rw [split]; rfl, existing, uncovered⟩

/-! ### Copying back when a missing parent is passed over -/

/-- Away from the subtrees still to be copied the layer is the saved one. -/
def Restored (backup : Layer) (pending : List PrimPath) (current : Layer) : Prop :=
  ∀ (path : SpecPath) (field : Field), (¬ ∃ outer ∈ pending, outer <+: path.prim) →
    current.value path field = backup.value path field

theorem copySpecBack_of_parent (missingParent : Option EditError) (backup : Layer)
    {current : Layer} {path : PrimPath} (parent : current.hasPrim path.dropLast) :
    copySpecBack missingParent backup path current = ([.graft path backup path], .ok ()) := by
  unfold copySpecBack
  rw [Edit.look_bind, id_eq, if_neg]
  · rfl
  · rintro ⟨_, missing⟩
    rw [parent] at missing
    cases missing

theorem copySpecBack_of_missing (missingParent : Option EditError) (backup : Layer)
    {current : Layer} {path : PrimPath} (missing : ¬ current.hasPrim path.dropLast) :
    copySpecBack missingParent backup path current =
      (match missingParent with
        | some error => Edit.raise error
        | none => pure () : LayerProgram Unit) current := by
  have deep : path.dropLast ≠ [] := by
    intro top
    rw [top] at missing
    exact missing current.hasPrim_root
  unfold copySpecBack
  rw [Edit.look_bind, id_eq]
  exact congrFun (if_pos ⟨deep, by simpa using missing⟩) current

/-- What a graft below an existing prim leaves: the subtree of the backup in its place. -/
theorem value_graft {backup current : Layer} {path : PrimPath}
    (parent : current.hasPrim path.dropLast) (other : SpecPath) (field : Field) :
    ((LayerEdit.graft path backup path).apply current).value other field =
      if path <+: other.prim then backup.value other field else current.value other field := by
  change LayerEdit.edited _ current other field = _
  by_cases top : other = .root ∧ field = .spec
  · rw [top.1, top.2, LayerEdit.edited_pseudoRoot, backup.pseudoRoot, current.pseudoRoot, ite_self]
  · unfold LayerEdit.edited LayerEdit.changes
    rw [if_neg top]
    simp only [LayerEdit.written]
    by_cases below : path <+: other.prim
    · rw [if_pos below, if_pos below, Option.getD_some]
      obtain ⟨tail, joined⟩ := below
      rcases other with ⟨prim, property⟩
      dsimp only at joined ⊢
      rw [← joined, List.drop_left' rfl]
    · rw [if_neg below, if_neg below]
      -- the ancestors of the destination exist, so nothing is created
      unfold LayerEdit.createdBy
      split
      · next creates =>
          obtain ⟨rfl, above⟩ := creates
          rcases other with ⟨prim, property⟩
          cases property with
          | none =>
              have proper : prim ≠ path := by
                rintro rfl
                exact below List.prefix_rfl
              have present := Layer.hasPrim_of_prefix (prefix_dropLast above proper) parent
              rw [Layer.spec_of_hasPrim present]
              rfl
          | some name => cases congrArg SpecPath.property above
      · rfl

/-- All subtrees are copied back when a missing parent is passed over or no parent is missing.  A
prim whose parent is gone lies below another subtree that is still to be copied. -/
theorem Restored.copyAll {missingParent : Option EditError} {backup current : Layer}
    {pending : List PrimPath} (restored : Restored backup pending current)
    (existed : ∀ path ∈ pending, path ≠ [] ∧ backup.hasPrim path)
    (passes : missingParent = none ∨ ∀ path ∈ pending, current.hasPrim path.dropLast) :
    (pending.forM fun path => copySpecBack missingParent backup path).after current = backup := by
  induction pending generalizing current with
  | nil =>
      apply Layer.ext
      funext path field
      apply restored path field
      rintro ⟨outer, member, _⟩
      cases member
  | cons path rest ih =>
      obtain ⟨below, existing⟩ := existed path List.mem_cons_self
      have later : ∀ other ∈ rest, other ≠ [] ∧ backup.hasPrim other :=
        fun other member => existed other (List.mem_cons_of_mem path member)
      by_cases parent : current.hasPrim path.dropLast
      · have runs := copySpecBack_of_parent missingParent backup parent
        have finished : (copySpecBack missingParent backup path).result current = .ok () := by
          unfold Edit.result
          rw [runs]
        have ends : (copySpecBack missingParent backup path).after current =
            (LayerEdit.graft path backup path).apply current := by
          unfold Edit.after Edit.edits
          rw [runs]
          rfl
        rw [Edit.after_forM_cons finished, ends]
        apply ih
        · intro other field away
          rw [value_graft parent]
          split
          · rfl
          · next beside =>
              apply restored
              rintro ⟨outer, member, above⟩
              rcases List.mem_cons.1 member with rfl | tail
              · exact beside above
              · exact away ⟨outer, tail, above⟩
        · exact later
        · apply passes.imp_right
          intro parents other member
          unfold Layer.hasPrim Layer.hasSpec
          rw [value_graft parent]
          split
          · exact Layer.hasPrim_of_prefix (List.dropLast_prefix other) (later other member).2
          · exact parents other (List.mem_cons_of_mem path member)
      · have silent : missingParent = none :=
          passes.resolve_right fun parents => parent (parents path List.mem_cons_self)
        subst silent
        have runs := copySpecBack_of_missing none backup parent
        have finished : (copySpecBack none backup path).result current = .ok () := by
          unfold Edit.result
          rw [runs]
          rfl
        have ends : (copySpecBack none backup path).after current = current := by
          unfold Edit.after Edit.edits
          rw [runs]
          rfl
        rw [Edit.after_forM_cons finished, ends]
        -- the parent has gone with a subtree that comes later in the list
        have covered : ∃ outer ∈ rest, outer <+: path.dropLast := by
          by_contra uncovered
          apply parent
          have same := restored ⟨path.dropLast, none⟩ .spec (by
            rintro ⟨outer, member, above⟩
            rcases List.mem_cons.1 member with rfl | tail
            · have short := above.length_le
              rw [List.length_dropLast] at short
              have long := List.length_pos_of_ne_nil below
              omega
            · exact uncovered ⟨outer, tail, above⟩)
          unfold Layer.hasPrim Layer.hasSpec
          rw [same]
          exact Layer.hasPrim_of_prefix (List.dropLast_prefix path) existing
        obtain ⟨scope, member, above⟩ := covered
        apply ih _ later (Or.inl rfl)
        intro other field away
        apply restored
        rintro ⟨outer, outerMember, inside⟩
        rcases List.mem_cons.1 outerMember with rfl | tail
        · exact away ⟨scope, member, above.trans ((List.dropLast_prefix _).trans inside)⟩
        · exact away ⟨outer, tail, inside⟩

/-! ### Copying back when a missing parent raises -/

/-- A prim that a snapshot saved and whose parent has gone keeps the rollback from restoring it. -/
theorem parent_missing_copyAll {error : EditError} {backup : Layer} {sooner : List PrimPath}
    {path : PrimPath} {later : List PrimPath} (first : ∀ earlier ∈ sooner, ¬ earlier <+: path)
    {current : Layer} (missing : ¬ current.hasPrim path.dropLast) :
    ¬ (((sooner ++ path :: later).forM fun other =>
      copySpecBack (some error) backup other).after current).hasPrim path.dropLast := by
  have stop : ∀ {other : PrimPath} {rest : List PrimPath} {now : Layer},
      ¬ now.hasPrim other.dropLast →
        ((other :: rest).forM fun next => copySpecBack (some error) backup next).after now =
          now := by
    intro other rest now gone
    have runs := copySpecBack_of_missing (some error) backup gone
    have failed : (copySpecBack (some error) backup other).result now = .error error := by
      unfold Edit.result
      rw [runs]
      rfl
    change (copySpecBack (some error) backup other >>= fun _ =>
      rest.forM fun next => copySpecBack (some error) backup next).after now = now
    rw [Edit.after_bind_of_error failed]
    unfold Edit.after Edit.edits
    rw [runs]
    rfl
  induction sooner generalizing current with
  | nil =>
      rw [List.nil_append, stop missing]
      exact missing
  | cons other rest ih =>
      rw [List.cons_append]
      by_cases parent : current.hasPrim other.dropLast
      · have runs := copySpecBack_of_parent (some error) backup parent
        have finished : (copySpecBack (some error) backup other).result current = .ok () := by
          unfold Edit.result
          rw [runs]
        rw [Edit.after_forM_cons finished]
        have ends : (copySpecBack (some error) backup other).after current =
            (LayerEdit.graft other backup other).apply current := by
          unfold Edit.after Edit.edits
          rw [runs]
          rfl
        rw [ends]
        apply ih (fun earlier member => first earlier (List.mem_cons_of_mem other member))
        unfold Layer.hasPrim Layer.hasSpec
        rw [value_graft parent, if_neg]
        · exact missing
        · intro above
          exact first other List.mem_cons_self (above.trans (List.dropLast_prefix path))
      · rw [stop parent]
        exact missing

/-- Removing subtrees clears what lies in them and nothing else. -/
theorem value_removeAll {roots : List PrimPath} (nonempty : ∀ root ∈ roots, root ≠ [])
    (current : Layer) :
    let program : LayerProgram Unit := roots.forM fun root => Edit.act (.remove ⟨root, none⟩)
    program.result current = .ok () ∧ ∀ (path : SpecPath) (field : Field),
      (program.after current).value path field =
        if ∃ root ∈ roots, root <+: path.prim then none else current.value path field := by
  induction roots generalizing current with
  | nil => exact ⟨rfl, fun path field => by simp; rfl⟩
  | cons root rest ih =>
      obtain ⟨finished, values⟩ := ih
        (fun other member => nonempty other (List.mem_cons_of_mem root member))
        ((LayerEdit.remove ⟨root, none⟩).apply current)
      refine ⟨finished, ?_⟩
      intro path field
      refine (values path field).trans ?_
      by_cases later : ∃ other ∈ rest, other <+: path.prim
      · have deeper : ∃ other ∈ root :: rest, other <+: path.prim :=
          later.imp fun _ found => ⟨List.mem_cons_of_mem root found.1, found.2⟩
        rw [if_pos later, if_pos deeper]
      · rw [if_neg later]
        by_cases here : root <+: path.prim
        · rw [if_pos ⟨root, List.mem_cons_self, here⟩]
          have top : path ≠ .root := by
            rintro rfl
            exact nonempty root List.mem_cons_self (List.prefix_nil.1 here)
          change LayerEdit.edited _ current path field = none
          rw [LayerEdit.edited_of_ne_root top]
          simp only [LayerEdit.written]
          rw [if_pos (show path.Inside ⟨root, none⟩ from here)]
          rfl
        · rw [if_neg]
          · change LayerEdit.edited _ current path field = _
            unfold LayerEdit.edited LayerEdit.changes
            split
            · rfl
            · simp only [LayerEdit.written]
              rw [if_neg (show ¬ path.Inside ⟨root, none⟩ from here)]
              rfl
          · rintro ⟨other, member, above⟩
            rcases List.mem_cons.1 member with rfl | tail
            · exact here above
            · exact later ⟨other, tail, above⟩

end ScopedSnapshot

/-! ### The rollback as a whole -/

section Exit

variable {prims : List ScenePath} {entry raised : Layer}

theorem specPaths_ne_nil (below : ∀ prim ∈ prims, prim ≠ []) :
    ∀ path ∈ prims.map ScenePath.specPath, path ≠ [] := by
  intro path member top
  obtain ⟨prim, known, rfl⟩ := List.mem_map.1 member
  exact below prim known (List.map_eq_nil_iff.1 top)

/-- What a block writes within its prims lies in the subtrees the snapshot covers. -/
theorem WritesWithin.outside (within : WritesWithin prims entry raised)
    (below : ∀ prim ∈ prims, prim ≠ []) (path : SpecPath) (field : Field)
    (outside : ¬ (ScopedSnapshot.enter entry (prims.map ScenePath.specPath)).Covers path.prim) :
    raised.value path field = entry.value path field := by
  by_contra written
  apply outside
  have covers : ∀ prim ∈ prims,
      (ScopedSnapshot.enter entry (prims.map ScenePath.specPath)).Covers prim.specPath :=
    fun prim member => ScopedSnapshot.covers_enter (specPaths_ne_nil below)
      (List.mem_map_of_mem member)
  rcases within path field written with ⟨prim, member, inside⟩ | ⟨_, absent, prim, member, above⟩
  · exact (covers prim member).mono inside
  · apply (ScopedSnapshot.entered_enter (specPaths_ne_nil below)).covers_missing
      (covers prim member) above
    rw [ScopedSnapshot.enter_backup]
    exact absent

/-- A saved prim is listed with neither itself nor an ancestor before it. -/
theorem ParentsKept.saved (kept : ParentsKept prims entry raised)
    (below : ∀ prim ∈ prims, prim ≠ []) :
    ∀ path ∈ (ScopedSnapshot.enter entry (prims.map ScenePath.specPath)).saved,
      raised.hasPrim path.dropLast := by
  intro path member
  rcases ScopedSnapshot.uncovered_of_saved member with
    impossible | ⟨before, after, split, existing, first⟩
  · cases impossible
  obtain ⟨sooner, rest, joined, left, right⟩ := List.map_eq_append_iff.1 split
  obtain ⟨prim, later, rfl, here, _⟩ := List.map_eq_cons_iff.1 right
  rw [← here] at existing first ⊢
  rcases kept sooner prim later joined existing with parent | ⟨earlier, known, above⟩
  · exact parent
  · exfalso
    apply first
    have listed : earlier.specPath ∈ before := by
      rw [← left]
      exact List.mem_map_of_mem known
    have start : ∀ other ∈ before, other ≠ [] := fun other found =>
      specPaths_ne_nil below other (by
        rw [split]
        exact List.mem_append_left _ found)
    exact (ScopedSnapshot.covers_enter start listed).mono (ScenePath.specPath_prefix.2 above)

/-- Once the created roots are removed, only the saved subtrees differ from the backup. -/
theorem WritesWithin.restored (within : WritesWithin prims entry raised)
    (below : ∀ prim ∈ prims, prim ≠ []) {cleared : Layer}
    (values : ∀ (path : SpecPath) (field : Field), cleared.value path field =
      if ∃ root ∈ (ScopedSnapshot.enter entry (prims.map ScenePath.specPath)).createdRoots,
          root <+: path.prim then none else raised.value path field) :
    ScopedSnapshot.Restored entry
      (ScopedSnapshot.enter entry (prims.map ScenePath.specPath)).saved cleared := by
  have entered : (ScopedSnapshot.enter entry (prims.map ScenePath.specPath)).Entered :=
    ScopedSnapshot.entered_enter (specPaths_ne_nil below)
  intro path field away
  rw [values path field]
  split
  · next created =>
      obtain ⟨root, member, above⟩ := created
      obtain ⟨_, absent, _⟩ := entered.created root member
      rw [ScopedSnapshot.enter_backup] at absent
      exact (Layer.value_none_of_missing absent above field).symm
  · next uncreated =>
      apply within.outside below
      rintro ⟨outer, member, above⟩
      rcases List.mem_append.1 member with saved | created
      · exact away ⟨outer, saved, above⟩
      · exact uncreated ⟨outer, created, above⟩

/-- When a missing parent raises, a saved prim without one is never reached by a copy. -/
theorem exit_of_lostParent (error : EditError) {before : List ScenePath} {prim : ScenePath}
    {after : List ScenePath} (below : ∀ other ∈ before ++ prim :: after, other ≠ [])
    (existing : entry.hasPrim prim.specPath) (lost : ¬ raised.hasPrim prim.specPath.dropLast)
    (first : ∀ earlier ∈ before, ¬ earlier <+: prim) :
    ¬ (((ScopedSnapshot.enter entry ((before ++ prim :: after).map ScenePath.specPath)).exit
      (some error)).after raised).hasPrim prim.specPath.dropLast := by
  have nonempty := specPaths_ne_nil below
  have entered : (ScopedSnapshot.enter entry
      ((before ++ prim :: after).map ScenePath.specPath)).Entered :=
    ScopedSnapshot.entered_enter nonempty
  rw [List.map_append, List.map_cons] at nonempty entered ⊢
  obtain ⟨sooner, later, saved, known⟩ := ScopedSnapshot.saved_of_uncovered
    (after.map ScenePath.specPath)
    (fun other member => nonempty other (List.mem_append_left _ member)) existing (by
      intro earlier member above
      obtain ⟨name, listed, rfl⟩ := List.mem_map.1 member
      exact first name listed (ScenePath.specPath_prefix.1 above))
  obtain ⟨finished, values⟩ := ScopedSnapshot.value_removeAll
    (fun root member => (entered.created root member).1) raised
  unfold ScopedSnapshot.exit
  rw [Edit.after_bind_of_ok finished, saved]
  apply ScopedSnapshot.parent_missing_copyAll
  · intro earlier member above
    obtain ⟨name, listed, rfl⟩ := List.mem_map.1 (known earlier member)
    exact first name listed (ScenePath.specPath_prefix.1 above)
  · unfold Layer.hasPrim Layer.hasSpec
    rw [values]
    split
    · exact Bool.false_ne_true
    · exact lost

/-- What was written within the listed prims is undone when a missing parent is passed over or no
saved prim has lost its parent. -/
theorem WritesWithin.exit_restores (within : WritesWithin prims entry raised)
    (below : ∀ prim ∈ prims, prim ≠ []) {missingParent : Option EditError}
    (passes : missingParent = none ∨ ParentsKept prims entry raised) :
    ((ScopedSnapshot.enter entry (prims.map ScenePath.specPath)).exit missingParent).after raised =
      entry := by
  have entered : (ScopedSnapshot.enter entry (prims.map ScenePath.specPath)).Entered :=
    ScopedSnapshot.entered_enter (specPaths_ne_nil below)
  obtain ⟨finished, values⟩ := ScopedSnapshot.value_removeAll
    (fun root member => (entered.created root member).1) raised
  unfold ScopedSnapshot.exit
  rw [Edit.after_bind_of_ok finished, ScopedSnapshot.enter_backup]
  apply (within.restored below values).copyAll
  · intro path member
    have saved := entered.saved path member
    rw [ScopedSnapshot.enter_backup] at saved
    exact saved
  · apply passes.imp_right
    intro kept path member
    -- the parent existed at entry, so it lies in no created root
    have existed := (entered.saved path member).2
    unfold Layer.hasPrim Layer.hasSpec
    rw [values, if_neg]
    · exact kept.saved below path member
    · rintro ⟨root, created, above⟩
      apply (entered.created root created).2.1
      exact Layer.hasPrim_of_prefix (above.trans (List.dropLast_prefix path)) existed

/-- Where a missing parent raises, a layer that is given back kept the parents. -/
theorem parentsKept_of_restored (below : ∀ prim ∈ prims, prim ≠ []) {error : EditError}
    (restored : ((ScopedSnapshot.enter entry (prims.map ScenePath.specPath)).exit
      (some error)).after raised = entry) : ParentsKept prims entry raised := by
  intro before prim after split existing
  by_contra neither
  rw [not_or] at neither
  subst split
  apply exit_of_lostParent error below existing neither.1
    (fun earlier member above => neither.2 ⟨earlier, member, above⟩)
  rw [restored]
  exact Layer.hasPrim_of_prefix (List.dropLast_prefix _) existing

/-- Leaving with an exception gives back the layer of the entry exactly when a missing parent is
passed over or no prim to be copied has lost its parent. -/
theorem scopedExit_restores_iff (missingParent : Option EditError) (prims : List ScenePath)
    (entry raised : Layer) (below : ∀ prim ∈ prims, prim ≠ [])
    (within : WritesWithin prims entry raised) :
    ((ScopedSnapshot.enter entry (prims.map ScenePath.specPath)).exit missingParent).after raised =
        entry ↔
      missingParent = none ∨ ParentsKept prims entry raised := by
  constructor
  · intro restored
    cases missingParent with
    | none => exact Or.inl rfl
    | some error => exact Or.inr (parentsKept_of_restored below restored)
  · exact within.exit_restores below

/-- A layer with the prims `/A` and `/A/B`. -/
def nestedPrims : Layer :=
  (LayerEdit.create ⟨[.child "A", .child "B"], none⟩ .prim).apply .empty

/-- The block deletes `/A`. -/
def parentDeleted : Layer :=
  (LayerEdit.remove ⟨[.child "A"], none⟩).apply nestedPrims

theorem parentDeleted_within : WritesWithin [["A", "B"], ["A"]] nestedPrims parentDeleted := by
  intro path field written
  refine Or.inl ⟨["A"], by decide, ?_⟩
  by_contra outside
  apply written
  change LayerEdit.edited _ nestedPrims path field = _
  unfold LayerEdit.edited LayerEdit.changes
  split
  · rfl
  · simp only [LayerEdit.written]
    rw [if_neg (show ¬ path.Inside ⟨[.child "A"], none⟩ from outside)]
    rfl

theorem scopedExit_restores_parentDeleted :
    (((ScopedSnapshot.enter nestedPrims ([["A", "B"], ["A"]].map ScenePath.specPath)).exit
        (some "parent")).after parentDeleted = nestedPrims ↔
      some "parent" = (none : Option EditError) ∨
        ParentsKept [["A", "B"], ["A"]] nestedPrims parentDeleted) :=
  scopedExit_restores_iff (some "parent") [["A", "B"], ["A"]] nestedPrims parentDeleted
    (by decide) parentDeleted_within

/-- Deleting `/A` after both it and `/A/B` were saved, the child first, cannot be undone. -/
theorem not_restores_parentDeleted :
    ¬ ∀ (missingParent : Option EditError) (prims : List ScenePath) (entry raised : Layer),
      (∀ prim ∈ prims, prim ≠ []) → WritesWithin prims entry raised →
        ((ScopedSnapshot.enter entry (prims.map ScenePath.specPath)).exit missingParent).after
          raised = entry := by
  intro restores
  have restored := restores (some "parent") [["A", "B"], ["A"]] nestedPrims parentDeleted
    (by decide) parentDeleted_within
  have listed : ∀ other ∈ [] ++ ["A", "B"] :: [["A"]], other ≠ ([] : ScenePath) := by decide
  have existing : nestedPrims.hasPrim (ScenePath.specPath ["A", "B"]) := by decide
  apply exit_of_lostParent "parent" listed existing (by decide : ¬ parentDeleted.hasPrim _)
    (by decide)
  rw [List.nil_append, restored]
  decide

end Exit

end UsdConnect
