/-
Purpose: Merging a department layer into the root layer before the department layer is removed: the walk
  down the department's prims and what it copies of each leaf.
Trusted boundary: `Sdf.CopySpec` replaces the destination spec and its descendants and fails without a
  parent; variant sets count as content of their prim
Main exports: PrimLayer, ListedLayer, mergeLayerIntoRoot, MergeKeeps
-/
import Mathlib.Algebra.GroupWithZero.Nat
import Mathlib.Data.List.Nodup
import Mathlib.Data.List.Perm.Subperm
import UsdConnect.Lib.OrderedDict
import UsdConnect.Usd.Layer

namespace UsdConnect

/-- A property spec with everything it carries. -/
structure PropertySpec where
  kind : SpecKind
  values : List (Field × Datum)
deriving DecidableEq, Repr

/-- A prim spec without its children. -/
structure PrimContent where
  fields : OrderedDict String Datum
  properties : OrderedDict String PropertySpec
deriving DecidableEq, Repr

/-- The prim that `CreatePrimInLayer` leaves behind. -/
def PrimContent.created : PrimContent where
  fields := OrderedDict.empty.set "specifier" (.text "over")
  properties := .empty

/-- The prims of a layer.  Every prim stands below existing prims. -/
@[ext] structure PrimLayer where
  prim : ScenePath → Option PrimContent
  top : prim [] = none
  rooted : ∀ path, (prim path).isSome → path.dropLast ≠ [] → (prim path.dropLast).isSome

namespace PrimLayer

/-- `Sdf.CreatePrimInLayer`: the prim and its missing ancestors. -/
def createPrim (layer : PrimLayer) (path : ScenePath) : PrimLayer where
  prim := fun other =>
    if layer.prim other = none ∧ other ≠ [] ∧ other <+: path then some .created
    else layer.prim other
  top := by
    rw [if_neg fun made => made.2.1 rfl]
    exact layer.top
  rooted := by
    intro other present below
    split
    · rfl
    · next kept =>
        by_cases inside : other <+: path
        · -- an ancestor of a created prim is created or was there
          have above : other.dropLast <+: path := (List.dropLast_prefix other).trans inside
          cases found : layer.prim other.dropLast with
          | none => exact absurd ⟨found, below, above⟩ kept
          | some content => rfl
        · rw [if_neg fun made => inside made.2.2] at present
          exact layer.rooted other present below

/-- `Sdf.CopySpec` of properties to a prim that is there. -/
def copyProperties (layer : PrimLayer) (path : ScenePath)
    (properties : OrderedDict String PropertySpec) : PrimLayer where
  prim := fun other =>
    if other = path then
      (layer.prim path).map fun content =>
        { content with properties := content.properties.update properties }
    else layer.prim other
  top := by
    split
    · next here =>
        rw [← here, layer.top]
        rfl
    · exact layer.top
  rooted := by
    have same : ∀ other, (if other = path then
        (layer.prim path).map fun content =>
          { content with properties := content.properties.update properties }
        else layer.prim other).isSome = (layer.prim other).isSome := by
      intro other
      split
      · next here => rw [here, Option.isSome_map]
      · rfl
    intro other present below
    rw [same] at present ⊢
    exact layer.rooted other present below

/-- `Sdf.CopySpec` of a prim without children. -/
def copyPrim (layer : PrimLayer) (path : ScenePath) (content : PrimContent) : PrimLayer :=
  if placed : path ≠ [] ∧ (path.dropLast = [] ∨ (layer.prim path.dropLast).isSome) then
    { prim := fun other =>
        if other = path then some content else if path <+: other then none else layer.prim other
      top := by
        rw [if_neg placed.1.symm, if_neg (fun inside => placed.1 (List.prefix_nil.1 inside))]
        exact layer.top
      rooted := by
        intro other present below
        have shorter : path <+: other.dropLast → path <+: other ∧ other ≠ path := by
          intro inside
          refine ⟨inside.trans (List.dropLast_prefix other), ?_⟩
          rintro rfl
          have short := inside.length_le
          rw [List.length_dropLast] at short
          have long : 0 < other.length := List.length_pos_iff.2 placed.1
          omega
        by_cases inside : path <+: other.dropLast
        · obtain ⟨deeper, different⟩ := shorter inside
          rw [if_neg different, if_pos deeper] at present
          cases present
        · have aside : other.dropLast ≠ path := by
            rintro rfl
            exact inside List.prefix_rfl
          rw [if_neg aside, if_neg inside]
          by_cases here : other = path
          · rw [here] at below ⊢
            exact placed.2.resolve_left below
          · rw [if_neg here] at present
            by_cases under : path <+: other
            · rw [if_pos under] at present
              cases present
            · rw [if_neg under] at present
              exact layer.rooted other present below }
  else layer

end PrimLayer

/-- A layer with its prims listed in namespace order. -/
structure ListedLayer where
  layer : PrimLayer
  listing : List ScenePath
  listed : ∀ path, path ∈ listing ↔ (layer.prim path).isSome
  distinct : listing.Nodup

namespace ListedLayer

/-- `nameChildren` of a prim; those of the pseudo-root are the `rootPrims`. -/
def nameChildren (department : ListedLayer) (path : ScenePath) : List ScenePath :=
  department.listing.filter fun child => child.dropLast = path

/-- The prims below a path. -/
def descendants (department : ListedLayer) (path : ScenePath) : List ScenePath :=
  department.listing.filter fun other => path <+: other ∧ other ≠ path

theorem mem_nameChildren {department : ListedLayer} {path child : ScenePath} :
    child ∈ department.nameChildren path ↔
      ∃ name, child = path ++ [name] ∧ (department.layer.prim child).isSome := by
  unfold nameChildren
  rw [List.mem_filter, department.listed, decide_eq_true_iff]
  constructor
  · rintro ⟨present, rfl⟩
    have inside : child ≠ [] := by
      rintro rfl
      rw [department.layer.top] at present
      cases present
    exact ⟨child.getLast inside, (List.dropLast_append_getLast inside).symm, present⟩
  · rintro ⟨name, rfl, present⟩
    exact ⟨present, List.dropLast_concat⟩

/-- Expanding a prim leaves less to walk. -/
theorem sum_nameChildren_le (department : ListedLayer) (path : ScenePath) :
    ((department.nameChildren path).map fun child =>
      (department.descendants child).length + 1).sum ≤ (department.descendants path).length := by
  have counted : ∀ child ∈ department.nameChildren path,
      (department.descendants child).length + 1 = (child :: department.descendants child).length :=
    fun child _ => rfl
  rw [List.map_congr_left counted, ← List.length_flatMap]
  apply List.Subperm.length_le
  apply List.Nodup.subperm
  · rw [List.nodup_flatMap]
    constructor
    · intro child member
      rw [List.nodup_cons]
      constructor
      · intro again
        simp [descendants] at again
      · exact department.distinct.filter _
    · apply (department.distinct.filter _).imp_of_mem
      intro first second one two different other below above
      obtain ⟨name, rfl, _⟩ := mem_nameChildren.1 one
      obtain ⟨newName, rfl, _⟩ := mem_nameChildren.1 two
      have inside : ∀ last : String, other ∈ (path ++ [last]) :: department.descendants (path ++ [last]) →
          path ++ [last] <+: other := by
        intro last member
        rcases List.mem_cons.1 member with rfl | deeper
        · exact List.prefix_rfl
        · exact (of_decide_eq_true (List.mem_filter.1 deeper).2).1
      have same := List.prefix_of_prefix_length_le (inside name below) (inside newName above)
        (by simp)
      exact different (same.eq_of_length (by simp))
  · intro other member
    obtain ⟨child, known, below⟩ := List.mem_flatMap.1 member
    obtain ⟨name, rfl, present⟩ := mem_nameChildren.1 known
    have proper : ∀ deep : ScenePath, path ++ [name] <+: deep → path <+: deep ∧ deep ≠ path := by
      intro deep inside
      refine ⟨(List.prefix_append path [name]).trans inside, ?_⟩
      rintro rfl
      have long := inside.length_le
      rw [List.length_append, List.length_singleton] at long
      omega
    rcases List.mem_cons.1 below with rfl | deeper
    · exact List.mem_filter.2 ⟨(department.listed _).2 present,
        decide_eq_true (proper _ List.prefix_rfl)⟩
    · obtain ⟨inside, reached⟩ := List.mem_filter.1 deeper
      exact List.mem_filter.2 ⟨inside, decide_eq_true (proper _ (of_decide_eq_true reached).1)⟩

end ListedLayer

/-! ### The merge -/

/-- What the walk does with a prim without children. -/
def mergeLeaf (department : ListedLayer) (root : PrimLayer) (path : ScenePath) : PrimLayer :=
  let parent := path.dropLast
  let root := if parent ≠ [] ∧ root.prim parent = none then root.createPrim parent else root
  match department.layer.prim path with
  | none => root
  | some spec =>
      if (root.prim path).isSome then root.copyProperties path spec.properties
      else root.copyPrim path spec

/-- The `pending` loop; the next prim stands first. -/
def mergeWalk (department : ListedLayer) (pending : List ScenePath) (root : PrimLayer) : PrimLayer :=
  match pending with
  | [] => root
  | path :: pending =>
      if department.nameChildren path ≠ [] then
        mergeWalk department (department.nameChildren path ++ pending) root
      else mergeWalk department pending (mergeLeaf department root path)
termination_by (pending.map fun path => (department.descendants path).length + 1).sum
decreasing_by
  · have bound := department.sum_nameChildren_le path
    rw [List.map_append, List.sum_append, List.map_cons, List.sum_cons]
    omega
  · rw [List.map_cons, List.sum_cons]
    omega

/-- `merge_layer_into_root`. -/
def mergeLayerIntoRoot (department : ListedLayer) (root : PrimLayer) : PrimLayer :=
  mergeWalk department (department.nameChildren []) root

/-! ### What a merge has to keep -/

namespace PrimLayer

/-- A field of a prim. -/
def field (layer : PrimLayer) (path : ScenePath) (name : String) : Option Datum :=
  (layer.prim path).bind fun content => content.fields.get? name

/-- A property of a prim. -/
def property (layer : PrimLayer) (path : ScenePath) (name : String) : Option PropertySpec :=
  (layer.prim path).bind fun content => content.properties.get? name

end PrimLayer

/-- Nothing of the department layer is lost, and nothing else of the root layer is changed. -/
structure MergeKeeps (department before after : PrimLayer) : Prop where
  fields : ∀ path name value, department.field path name = some value →
    after.field path name = some value
  properties : ∀ path name spec, department.property path name = some spec →
    after.property path name = some spec
  otherPrims : ∀ path, department.prim path = none → after.prim path = before.prim path
  otherProperties : ∀ path name, department.property path name = none →
    after.property path name = before.property path name

end UsdConnect
