/-
Purpose: What a merge into the root layer leaves at every prim, and from it exactly when the merge keeps
  all opinions of the department layer.
Trusted boundary: none
Main exports: mergedPrim, prim_mergeLayerIntoRoot, MergeCovered, mergeKeeps_iff_mergeCovered
-/
import UsdConnect.Server.LayerMerge

namespace UsdConnect

/-- The prim that is at a path after the merge. -/
def mergedPrim (department : ListedLayer) (root : PrimLayer) (path : ScenePath) :
    Option PrimContent :=
  match department.layer.prim path, root.prim path with
  | none, there => there
  | some spec, none => if department.nameChildren path ≠ [] then some .created else some spec
  | some spec, some there =>
      if department.nameChildren path ≠ [] then some there
      else some { there with properties := there.properties.update spec.properties }

/-! ### Edits of the root layer -/

namespace PrimLayer

theorem prim_createPrim (layer : PrimLayer) (path other : ScenePath) :
    (layer.createPrim path).prim other =
      if layer.prim other = none ∧ other ≠ [] ∧ other <+: path then some .created
      else layer.prim other := rfl

theorem prim_copyProperties (layer : PrimLayer) (path : ScenePath)
    (properties : OrderedDict String PropertySpec) (other : ScenePath) :
    (layer.copyProperties path properties).prim other =
      if other = path then
        (layer.prim path).map fun content =>
          { content with properties := content.properties.update properties }
      else layer.prim other := rfl

theorem prim_copyPrim {layer : PrimLayer} {path : ScenePath} (inside : path ≠ [])
    (parent : path.dropLast = [] ∨ (layer.prim path.dropLast).isSome) (content : PrimContent)
    (other : ScenePath) :
    (layer.copyPrim path content).prim other =
      if other = path then some content else if path <+: other then none else layer.prim other := by
  unfold copyPrim
  rw [dif_pos ⟨inside, parent⟩]

end PrimLayer

/-! ### Leaves -/

section Leaf

variable {department : ListedLayer} {root : PrimLayer} {path : ScenePath}

theorem PrimLayer.prim_ne_nil {layer : PrimLayer} {path : ScenePath} {content : PrimContent}
    (found : layer.prim path = some content) : path ≠ [] := by
  rintro rfl
  rw [layer.top] at found
  cases found

theorem PrimLayer.isSome_of_prefix {layer : PrimLayer} {outer path : ScenePath}
    (present : (layer.prim path).isSome) (inside : outer <+: path) (proper : outer ≠ []) :
    (layer.prim outer).isSome := by
  obtain ⟨tail, rfl⟩ := inside
  induction tail using List.reverseRecOn with
  | nil => rwa [List.append_nil] at present
  | append_singleton tail name ih =>
      apply ih
      rw [← List.append_assoc] at present
      have up := layer.rooted _ present
      rw [List.dropLast_concat] at up
      apply up
      intro empty
      exact proper (List.append_eq_nil_iff.1 empty).1

theorem PrimLayer.prim_below_none {layer : PrimLayer} {path other : ScenePath}
    (missing : layer.prim path = none) (proper : path ≠ []) (below : path <+: other) :
    layer.prim other = none := by
  cases found : layer.prim other with
  | none => rfl
  | some content =>
      have present := layer.isSome_of_prefix (by rw [found]; rfl) below proper
      rw [missing] at present
      cases present

/-- A leaf the root has: only its properties change. -/
theorem prim_mergeLeaf_of_some {spec there : PrimContent}
    (leaf : department.layer.prim path = some spec) (found : root.prim path = some there)
    (other : ScenePath) :
    (mergeLeaf department root path).prim other =
      if other = path then some { there with
        properties := there.properties.update spec.properties }
      else root.prim other := by
  have above : ¬ (path.dropLast ≠ [] ∧ root.prim path.dropLast = none) := by
    rintro ⟨below, missing⟩
    have up := root.rooted path (by rw [found]; rfl) below
    rw [missing] at up
    cases up
  unfold mergeLeaf
  dsimp only
  rw [if_neg above, leaf]
  dsimp only
  rw [found]
  rw [Option.isSome_some, if_pos rfl, PrimLayer.prim_copyProperties, found]
  rfl

/-- A leaf the root does not have: it is copied below its ancestors, which are made when missing. -/
theorem prim_mergeLeaf_of_none {spec : PrimContent}
    (leaf : department.layer.prim path = some spec) (missing : root.prim path = none)
    (other : ScenePath) :
    (mergeLeaf department root path).prim other =
      if other = path then some spec
      else if root.prim other = none ∧ other ≠ [] ∧ other <+: path then some .created
      else root.prim other := by
  have inside := PrimLayer.prim_ne_nil leaf
  have up : ∀ {outer : ScenePath}, outer <+: path → outer ≠ path → outer <+: path.dropLast := by
    intro outer above different
    rw [← List.dropLast_append_getLast inside] at above
    rcases List.prefix_concat_iff.1 above with same | higher
    · rw [List.dropLast_append_getLast inside] at same
      exact absurd same different
    · exact higher
  have notAbove : ¬ path <+: path.dropLast := by
    intro above
    have long := above.length_le
    rw [List.length_dropLast] at long
    have some' : 0 < path.length := List.length_pos_iff.2 inside
    omega
  -- the root with the parent in place
  have prepared : ∀ base : PrimLayer,
      (base.prim path = none) →
      (path.dropLast = [] ∨ (base.prim path.dropLast).isSome) →
      (∀ outer, outer ≠ path → ¬ path <+: outer → base.prim outer =
        if root.prim outer = none ∧ outer ≠ [] ∧ outer <+: path then some .created
        else root.prim outer) →
      (if (base.prim path).isSome then base.copyProperties path spec.properties
        else base.copyPrim path spec).prim other =
      if other = path then some spec
      else if root.prim other = none ∧ other ≠ [] ∧ other <+: path then some .created
      else root.prim other := by
    intro base absent parent rest
    rw [absent, Option.isSome_none, if_neg Bool.false_ne_true,
      PrimLayer.prim_copyPrim inside parent]
    by_cases here : other = path
    · rw [if_pos here, if_pos here]
    · rw [if_neg here, if_neg here]
      by_cases below : path <+: other
      · have lower := root.prim_below_none missing inside below
        have apart : ¬ other <+: path := by
          intro above
          exact here (above.eq_of_length (Nat.le_antisymm above.length_le below.length_le))
        rw [if_pos below, if_neg fun made => apart made.2.2, lower]
      · rw [if_neg below, rest other here below]
  unfold mergeLeaf
  dsimp only
  rw [leaf]
  dsimp only
  by_cases gap : path.dropLast ≠ [] ∧ root.prim path.dropLast = none
  · rw [if_pos gap]
    apply prepared
    · rw [PrimLayer.prim_createPrim, if_neg fun made => notAbove made.2.2]
      exact missing
    · right
      rw [PrimLayer.prim_createPrim, if_pos ⟨gap.2, gap.1, List.prefix_rfl⟩]
      rfl
    · intro outer different _
      rw [PrimLayer.prim_createPrim]
      by_cases above : outer <+: path
      · have higher := up above different
        simp only [above, higher]
      · have lower : ¬ outer <+: path.dropLast :=
          fun higher => above (higher.trans (List.dropLast_prefix path))
        simp only [above, lower]
  · rw [if_neg gap]
    have parent : path.dropLast = [] ∨ (root.prim path.dropLast).isSome := by
      by_cases top : path.dropLast = []
      · exact Or.inl top
      · right
        cases found : root.prim path.dropLast with
        | none => exact absurd ⟨top, found⟩ gap
        | some content => rfl
    apply prepared root missing parent
    intro outer different _
    rw [if_neg]
    rintro ⟨absent, proper, above⟩
    -- all ancestors of a present parent are present
    rcases parent with top | present
    · have higher := up above different
      rw [top] at higher
      exact proper (List.prefix_nil.1 higher)
    · have there := root.isSome_of_prefix present (up above different) proper
      rw [absent] at there
      cases there

end Leaf

/-! ### The walk -/

namespace ListedLayer

variable {department : ListedLayer}

/-- A prim strictly below a path is at or below one of its children. -/
theorem exists_child {path other : ScenePath} (present : (department.layer.prim other).isSome)
    (below : path <+: other) (different : other ≠ path) :
    ∃ child ∈ department.nameChildren path, child <+: other := by
  obtain ⟨tail, rfl⟩ := below
  cases tail with
  | nil => exact absurd (List.append_nil path) different
  | cons name rest =>
      have inside : path ++ [name] <+: path ++ name :: rest := ⟨rest, by simp⟩
      refine ⟨path ++ [name], mem_nameChildren.2 ⟨name, rfl, ?_⟩, inside⟩
      exact department.layer.isSome_of_prefix present inside (by simp)

theorem prefix_of_child {path child : ScenePath} (member : child ∈ department.nameChildren path) :
    path <+: child ∧ child ≠ path := by
  obtain ⟨name, rfl, _⟩ := mem_nameChildren.1 member
  exact ⟨List.prefix_append _ _, by simp⟩

/-- The children of one prim are not below each other. -/
theorem children_apart (department : ListedLayer) (path : ScenePath) :
    (department.nameChildren path).Pairwise fun first second =>
      ¬ first <+: second ∧ ¬ second <+: first := by
  apply (department.distinct.filter _).imp_of_mem
  intro first second one two different
  obtain ⟨name, rfl, _⟩ := mem_nameChildren.1 one
  obtain ⟨newName, rfl, _⟩ := mem_nameChildren.1 two
  constructor
  · intro inside
    exact different (inside.eq_of_length (by simp))
  · intro inside
    exact different (inside.eq_of_length (by simp)).symm

end ListedLayer

open ListedLayer

section Walk

variable {department : ListedLayer} {original : PrimLayer}

theorem mergedPrim_of_none {path : ScenePath} (absent : department.layer.prim path = none) :
    mergedPrim department original path = original.prim path := by
  unfold mergedPrim
  rw [absent]

theorem mergedPrim_of_children {path : ScenePath} (present : (department.layer.prim path).isSome)
    (children : department.nameChildren path ≠ []) :
    mergedPrim department original path = some ((original.prim path).getD .created) := by
  obtain ⟨spec, known⟩ := Option.isSome_iff_exists.1 present
  unfold mergedPrim
  rw [known]
  cases found : original.prim path with
  | none => exact if_pos children
  | some there => exact if_pos children

/-- How far the walk has come: what is at or below a pending prim is as it was, everything else is
merged, except that an ancestor of a pending prim may still be missing. -/
structure Walked (department : ListedLayer) (original : PrimLayer) (pending : List ScenePath)
    (root : PrimLayer) : Prop where
  known : ∀ path ∈ pending, (department.layer.prim path).isSome
  apart : pending.Pairwise fun first second => ¬ first <+: second ∧ ¬ second <+: first
  waiting : ∀ path ∈ pending, ∀ other, path <+: other → root.prim other = original.prim other
  done : ∀ other, (∀ path ∈ pending, ¬ path <+: other) →
    root.prim other = mergedPrim department original other ∨
      (root.prim other = none ∧ original.prim other = none ∧ other ≠ [] ∧
        ∃ path ∈ pending, other <+: path)

theorem walked_start (department : ListedLayer) (original : PrimLayer) :
    Walked department original (department.nameChildren []) original where
  known := fun path member => (mem_nameChildren.1 member).choose_spec.2
  apart := department.children_apart []
  waiting := fun _ _ _ _ => rfl
  done := by
    intro other outside
    left
    cases found : department.layer.prim other with
    | none => exact (mergedPrim_of_none found).symm
    | some spec =>
        have inside := PrimLayer.prim_ne_nil found
        obtain ⟨child, member, below⟩ := exists_child (by rw [found]; rfl)
          (List.nil_prefix (l := other)) inside
        exact absurd below (outside child member)

variable {path : ScenePath} {pending : List ScenePath} {root : PrimLayer}

/-- A prim with children is replaced by them. -/
theorem Walked.expand (walked : Walked department original (path :: pending) root)
    (children : department.nameChildren path ≠ []) :
    Walked department original (department.nameChildren path ++ pending) root := by
  have here := walked.known path List.mem_cons_self
  have aside := List.pairwise_cons.1 walked.apart
  constructor
  · intro other member
    rcases List.mem_append.1 member with child | later
    · exact (mem_nameChildren.1 child).choose_spec.2
    · exact walked.known other (List.mem_cons_of_mem path later)
  · rw [List.pairwise_append]
    refine ⟨department.children_apart path, aside.2, ?_⟩
    intro child member other later
    obtain ⟨above, _⟩ := prefix_of_child member
    obtain ⟨name, same, _⟩ := mem_nameChildren.1 member
    obtain ⟨notBelow, notAbove⟩ := aside.1 other later
    constructor
    · intro inside
      exact notBelow (above.trans inside)
    · intro inside
      rw [same] at inside
      rcases List.prefix_concat_iff.1 inside with equal | higher
      · exact notBelow (equal ▸ List.prefix_append path [name])
      · exact notAbove higher
  · intro start member other below
    rcases List.mem_append.1 member with child | later
    · exact walked.waiting path List.mem_cons_self other ((prefix_of_child child).1.trans below)
    · exact walked.waiting start (List.mem_cons_of_mem path later) other below
  · intro other outside
    by_cases below : path <+: other
    · have same := walked.waiting path List.mem_cons_self other below
      by_cases equal : other = path
      · subst equal
        rw [same, mergedPrim_of_children here children]
        cases found : original.prim other with
        | some there => exact Or.inl rfl
        | none =>
            obtain ⟨child, member⟩ := List.exists_mem_of_ne_nil _ children
            obtain ⟨spec, known⟩ := Option.isSome_iff_exists.1 here
            exact Or.inr ⟨rfl, rfl, PrimLayer.prim_ne_nil known, child,
              List.mem_append_left pending member, (prefix_of_child member).1⟩
      · cases found : department.layer.prim other with
        | none =>
            left
            rw [mergedPrim_of_none found, same]
        | some spec =>
            obtain ⟨child, member, inside⟩ := exists_child (by rw [found]; rfl) below equal
            exact absurd inside (outside child (List.mem_append_left pending member))
    · have before : ∀ start ∈ path :: pending, ¬ start <+: other := by
        intro start member
        rcases List.mem_cons.1 member with rfl | later
        · exact below
        · exact outside start (List.mem_append_right _ later)
      rcases walked.done other before with merged | ⟨gone, missing, proper, start, member, above⟩
      · exact Or.inl merged
      · refine Or.inr ⟨gone, missing, proper, ?_⟩
        rcases List.mem_cons.1 member with rfl | later
        · obtain ⟨child, member⟩ := List.exists_mem_of_ne_nil _ children
          exact ⟨child, List.mem_append_left pending member,
            above.trans (prefix_of_child member).1⟩
        · exact ⟨start, List.mem_append_right _ later, above⟩

theorem mergedPrim_of_above {outer : ScenePath} (present : (department.layer.prim path).isSome)
    (above : outer <+: path) (proper : outer ≠ []) (different : path ≠ outer) :
    mergedPrim department original outer = some ((original.prim outer).getD .created) := by
  obtain ⟨child, member, _⟩ := exists_child present above different
  apply mergedPrim_of_children
  · exact department.layer.isSome_of_prefix present above proper
  · exact List.ne_nil_of_mem member

theorem prim_below_leaf {other : ScenePath} (leaf : department.nameChildren path = [])
    (below : path <+: other) (different : other ≠ path) : department.layer.prim other = none := by
  cases found : department.layer.prim other with
  | none => rfl
  | some spec =>
      obtain ⟨child, member, _⟩ := exists_child (by rw [found]; rfl) below different
      rw [leaf] at member
      cases member

theorem Walked.leaf_of_some {there : PrimContent}
    (walked : Walked department original (path :: pending) root)
    (leaf : department.nameChildren path = []) (found : root.prim path = some there) :
    Walked department original pending (mergeLeaf department root path) := by
  obtain ⟨spec, known⟩ := Option.isSome_iff_exists.1 (walked.known path List.mem_cons_self)
  have aside := List.pairwise_cons.1 walked.apart
  have same := walked.waiting path List.mem_cons_self
  constructor
  · exact fun other member => walked.known other (List.mem_cons_of_mem path member)
  · exact aside.2
  · intro start member other below
    have away : other ≠ path := by
      rintro rfl
      exact (aside.1 start member).2 below
    rw [prim_mergeLeaf_of_some known found, if_neg away]
    exact walked.waiting start (List.mem_cons_of_mem path member) other below
  · intro other outside
    rw [prim_mergeLeaf_of_some known found]
    by_cases here : other = path
    · subst here
      left
      rw [if_pos rfl]
      unfold mergedPrim
      rw [known, ← same other List.prefix_rfl, found]
      exact (if_neg (not_not_intro leaf)).symm
    · rw [if_neg here]
      by_cases below : path <+: other
      · left
        rw [same other below, mergedPrim_of_none (prim_below_leaf leaf below here)]
      · rcases walked.done other (List.forall_mem_cons.2 ⟨below, outside⟩) with
          merged | ⟨gone, missing, proper, start, member, above⟩
        · exact Or.inl merged
        · rcases List.mem_cons.1 member with rfl | later
          · -- the root has the leaf, so it has all its ancestors
            have there := root.isSome_of_prefix (by rw [found]; rfl) above proper
            rw [gone] at there
            cases there
          · exact Or.inr ⟨gone, missing, proper, start, later, above⟩

theorem Walked.leaf_of_none (walked : Walked department original (path :: pending) root)
    (leaf : department.nameChildren path = []) (absent : root.prim path = none) :
    Walked department original pending (mergeLeaf department root path) := by
  have present := walked.known path List.mem_cons_self
  obtain ⟨spec, known⟩ := Option.isSome_iff_exists.1 present
  have aside := List.pairwise_cons.1 walked.apart
  have same := walked.waiting path List.mem_cons_self
  constructor
  · exact fun other member => walked.known other (List.mem_cons_of_mem path member)
  · exact aside.2
  · intro start member other below
    have away : ¬ other <+: path := fun above => (aside.1 start member).2 (below.trans above)
    have different : other ≠ path := by
      rintro rfl
      exact away List.prefix_rfl
    rw [prim_mergeLeaf_of_none known absent, if_neg different, if_neg fun made => away made.2.2]
    exact walked.waiting start (List.mem_cons_of_mem path member) other below
  · intro other outside
    rw [prim_mergeLeaf_of_none known absent]
    by_cases here : other = path
    · subst here
      left
      rw [if_pos rfl]
      unfold mergedPrim
      rw [known, ← same other List.prefix_rfl, absent]
      exact (if_neg (not_not_intro leaf)).symm
    · rw [if_neg here]
      by_cases below : path <+: other
      · left
        have notAbove : ¬ other <+: path := by
          intro above
          exact here (above.eq_of_length (Nat.le_antisymm above.length_le below.length_le))
        rw [if_neg fun made => notAbove made.2.2, same other below,
          mergedPrim_of_none (prim_below_leaf leaf below here)]
      · have reached := walked.done other (List.forall_mem_cons.2 ⟨below, outside⟩)
        by_cases made : root.prim other = none ∧ other ≠ [] ∧ other <+: path
        · left
          have bare : mergedPrim department original other =
              some ((original.prim other).getD .created) :=
            mergedPrim_of_above present made.2.2 made.2.1 (Ne.symm here)
          rw [if_pos made]
          rcases reached with merged | ⟨_, missing, _⟩
          · rw [made.1, bare] at merged
            cases merged
          · rw [bare, missing]
            rfl
        · rw [if_neg made]
          rcases reached with merged | ⟨gone, missing, proper, start, member, above⟩
          · exact Or.inl merged
          · rcases List.mem_cons.1 member with rfl | later
            · exact absurd ⟨gone, proper, above⟩ made
            · exact Or.inr ⟨gone, missing, proper, start, later, above⟩

theorem prim_mergeWalk (pending : List ScenePath) (root : PrimLayer)
    (walked : Walked department original pending root) (path : ScenePath) :
    (mergeWalk department pending root).prim path = mergedPrim department original path := by
  induction pending, root using mergeWalk.induct department with
  | case1 root =>
      rw [mergeWalk]
      rcases walked.done path (List.forall_mem_nil _) with merged | ⟨_, _, _, start, member, _⟩
      · exact merged
      · cases member
  | case2 root path pending children ih =>
      rw [mergeWalk, if_pos children]
      exact ih (walked.expand children)
  | case3 root path pending children ih =>
      have leaf := not_not.1 children
      rw [mergeWalk, if_neg children]
      apply ih
      cases found : root.prim path with
      | some there => exact walked.leaf_of_some leaf found
      | none => exact walked.leaf_of_none leaf found

end Walk

/-- What the merge leaves at every path. -/
theorem prim_mergeLayerIntoRoot (department : ListedLayer) (root : PrimLayer) (path : ScenePath) :
    (mergeLayerIntoRoot department root).prim path = mergedPrim department root path :=
  prim_mergeWalk _ _ (walked_start department root) path

/-! ### What is kept -/

section Kept

variable {department : ListedLayer} {root : PrimLayer} {path : ScenePath} {spec : PrimContent}

theorem mergedPrim_of_new_leaf (known : department.layer.prim path = some spec)
    (leaf : department.nameChildren path = []) (missing : root.prim path = none) :
    mergedPrim department root path = some spec := by
  unfold mergedPrim
  rw [known, missing]
  exact if_neg (not_not_intro leaf)

/-- A leaf the root has keeps the root's fields. -/
theorem mergedPrim_of_old_leaf {there : PrimContent}
    (known : department.layer.prim path = some spec)
    (leaf : department.nameChildren path = []) (found : root.prim path = some there) :
    mergedPrim department root path =
      some { there with properties := there.properties.update spec.properties } := by
  unfold mergedPrim
  rw [known, found]
  exact if_neg (not_not_intro leaf)

theorem field_of_prim {layer : PrimLayer} (found : layer.prim path = some spec) (name : String) :
    layer.field path name = spec.fields.get? name := by
  unfold PrimLayer.field
  rw [found]
  rfl

theorem property_of_prim {layer : PrimLayer} (found : layer.prim path = some spec)
    (name : String) : layer.property path name = spec.properties.get? name := by
  unfold PrimLayer.property
  rw [found]
  rfl

theorem prim_of_field {layer : PrimLayer} {name : String} {value : Datum}
    (authored : layer.field path name = some value) :
    ∃ spec, layer.prim path = some spec ∧ spec.fields.get? name = some value :=
  Option.bind_eq_some_iff.1 authored

theorem prim_of_property {layer : PrimLayer} {name : String} {property : PropertySpec}
    (authored : layer.property path name = some property) :
    ∃ spec, layer.prim path = some spec ∧ spec.properties.get? name = some property :=
  Option.bind_eq_some_iff.1 authored

/-- Properties the department does not author are what they were. -/
theorem property_mergeLayerIntoRoot_of_none (department : ListedLayer) (root : PrimLayer)
    {path : ScenePath} {name : String} (absent : department.layer.property path name = none) :
    (mergeLayerIntoRoot department root).property path name = root.property path name := by
  have merged := prim_mergeLayerIntoRoot department root path
  cases known : department.layer.prim path with
  | none =>
      unfold PrimLayer.property
      rw [merged, mergedPrim_of_none known]
  | some spec =>
      rw [property_of_prim known] at absent
      by_cases leaf : department.nameChildren path = []
      · cases found : root.prim path with
        | none =>
            rw [mergedPrim_of_new_leaf known leaf found] at merged
            rw [property_of_prim merged, absent]
            unfold PrimLayer.property
            rw [found]
            rfl
        | some there =>
            rw [mergedPrim_of_old_leaf known leaf found] at merged
            rw [property_of_prim merged, property_of_prim found, OrderedDict.get?_update, absent]
            rfl
      · rw [mergedPrim_of_children (by rw [known]; rfl) leaf] at merged
        rw [property_of_prim merged]
        unfold PrimLayer.property
        cases found : root.prim path with
        | none => rfl
        | some there => rfl

end Kept

/-- What the walk does not copy is in the root already: all that the department authors on prims with
children, and the fields of the leaves the root has. -/
structure MergeCovered (department : ListedLayer) (root : PrimLayer) : Prop where
  innerFields : ∀ path spec, department.layer.prim path = some spec →
    department.nameChildren path ≠ [] → ∀ name value, spec.fields.get? name = some value →
      ((root.prim path).getD .created).fields.get? name = some value
  innerProperties : ∀ path spec, department.layer.prim path = some spec →
    department.nameChildren path ≠ [] → ∀ name property,
      spec.properties.get? name = some property →
      ((root.prim path).getD .created).properties.get? name = some property
  leafFields : ∀ path spec there, department.layer.prim path = some spec →
    department.nameChildren path = [] → root.prim path = some there →
      ∀ name value, spec.fields.get? name = some value → there.fields.get? name = some value

/-- The merge keeps everything of the department layer exactly when the root layer already holds what
the walk leaves out. -/
theorem mergeKeeps_iff_mergeCovered (department : ListedLayer) (root : PrimLayer) :
    MergeKeeps department.layer root (mergeLayerIntoRoot department root) ↔
      MergeCovered department root := by
  have merged := prim_mergeLayerIntoRoot department root
  constructor
  · intro keeps
    have inner : ∀ path spec, department.layer.prim path = some spec →
        department.nameChildren path ≠ [] →
        (mergeLayerIntoRoot department root).prim path =
          some ((root.prim path).getD .created) := by
      intro path spec known children
      rw [merged, mergedPrim_of_children (by rw [known]; rfl) children]
    constructor
    · intro path spec known children name value authored
      rw [← field_of_prim (inner path spec known children)]
      apply keeps.fields
      rw [field_of_prim known]
      exact authored
    · intro path spec known children name property authored
      rw [← property_of_prim (inner path spec known children)]
      apply keeps.properties
      rw [property_of_prim known]
      exact authored
    · intro path spec there known leaf found name value authored
      have after := (merged path).trans (mergedPrim_of_old_leaf known leaf found)
      have kept := keeps.fields path name value ((field_of_prim known name).trans authored)
      rw [field_of_prim after] at kept
      exact kept
  · intro covered
    constructor
    · intro path name value authored
      obtain ⟨spec, known, here⟩ := prim_of_field authored
      by_cases leaf : department.nameChildren path = []
      · cases found : root.prim path with
        | none =>
            have after := (merged path).trans (mergedPrim_of_new_leaf known leaf found)
            rw [field_of_prim after]
            exact here
        | some there =>
            have after := (merged path).trans (mergedPrim_of_old_leaf known leaf found)
            rw [field_of_prim after]
            exact covered.leafFields path spec there known leaf found name value here
      · have after := (merged path).trans
          (mergedPrim_of_children (by rw [known]; rfl) leaf)
        rw [field_of_prim after]
        exact covered.innerFields path spec known leaf name value here
    · intro path name property authored
      obtain ⟨spec, known, here⟩ := prim_of_property authored
      by_cases leaf : department.nameChildren path = []
      · cases found : root.prim path with
        | none =>
            have after := (merged path).trans (mergedPrim_of_new_leaf known leaf found)
            rw [property_of_prim after]
            exact here
        | some there =>
            have after := (merged path).trans (mergedPrim_of_old_leaf known leaf found)
            rw [property_of_prim after, OrderedDict.get?_update, here]
            rfl
      · have after := (merged path).trans
          (mergedPrim_of_children (by rw [known]; rfl) leaf)
        rw [property_of_prim after]
        exact covered.innerProperties path spec known leaf name property here
    · intro path absent
      rw [merged, mergedPrim_of_none absent]
    · intro path name absent
      exact property_mergeLayerIntoRoot_of_none department root absent

/-! ### An opinion that is lost -/

/-- A hidden group with one leaf. -/
def hiddenGroupPrim (path : ScenePath) : Option PrimContent :=
  if path = ["Set"] then some {
    fields := OrderedDict.empty.set "specifier" (.text "def")
    properties := OrderedDict.empty.set "visibility"
      ⟨.attribute, [(.info "default", .text "invisible")]⟩ }
  else if path = ["Set", "Chair"] then some {
    fields := OrderedDict.empty.set "specifier" (.text "def")
    properties := .empty }
  else none

theorem hiddenGroupPrim_isSome (path : ScenePath) :
    (hiddenGroupPrim path).isSome ↔ path = ["Set"] ∨ path = ["Set", "Chair"] := by
  unfold hiddenGroupPrim
  split
  · next same => simp [same]
  · next other =>
      split
      · next same => simp [same]
      · next away => simp [other, away]

def hiddenGroup : ListedLayer where
  layer := {
    prim := hiddenGroupPrim
    top := rfl
    rooted := by
      intro path present below
      rcases (hiddenGroupPrim_isSome path).1 present with rfl | rfl
      · exact absurd rfl below
      · rfl }
  listing := [["Set"], ["Set", "Chair"]]
  listed := by
    intro path
    rw [hiddenGroupPrim_isSome, List.mem_cons, List.mem_singleton]
  distinct := by decide

/-- A root layer without prims. -/
def bareRoot : PrimLayer where
  prim := fun _ => none
  top := rfl
  rooted := fun _ present => by cases present

/-- The group's `visibility` is lost: the root gets a bare prim in its place. -/
theorem not_mergeKeeps_hiddenGroup :
    ¬ MergeKeeps hiddenGroup.layer bareRoot (mergeLayerIntoRoot hiddenGroup bareRoot) := by
  intro keeps
  have kept := keeps.properties ["Set"] "visibility"
    ⟨.attribute, [(.info "default", .text "invisible")]⟩ rfl
  have after : (mergeLayerIntoRoot hiddenGroup bareRoot).prim ["Set"] = some .created := by
    rw [prim_mergeLayerIntoRoot]
    exact mergedPrim_of_children rfl (List.cons_ne_nil ["Set", "Chair"] [])
  rw [property_of_prim after] at kept
  cases kept

end UsdConnect
