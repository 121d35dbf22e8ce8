/-
Purpose: Scene paths, Sdf spec paths with variant selections, and the containment order of the
  namespace.
Trusted boundary: paths are valid absolute Sdf paths; the text form is left out
Main exports: ScenePath, PathElement, PrimPath, SpecPath
-/
import Mathlib.Data.List.Infix

namespace UsdConnect

/-- Absolute prim path without variant selections, outermost name first.  The pseudo-root is the
empty list. -/
abbrev ScenePath := List String

/-- One step below the pseudo-root of a layer: `/name`, the set and the selection part of
`{set=selection}`. -/
inductive PathElement where
  | child (name : String)
  | variantSet (name : String)
  | variant (name : String)
deriving DecidableEq, Repr

/-- Path of a prim, variant set or variant spec inside a layer. -/
abbrev PrimPath := List PathElement

/-- Spec path of a scene prim under an identity edit target. -/
def ScenePath.specPath (path : ScenePath) : PrimPath :=
  path.map .child

/-- `StripAllVariantSelections`. -/
def PrimPath.scenePath (path : PrimPath) : ScenePath :=
  path.filterMap fun
    | .child name => some name
    | _ => none

/-- `GetPrimPath`: the nearest enclosing prim, with the trailing variant selections stripped. -/
def PrimPath.owningPrim (path : PrimPath) : PrimPath :=
  (path.reverse.dropWhile fun
    | .child _ => false
    | _ => true).reverse

theorem PrimPath.owningPrim_prefix (path : PrimPath) : path.owningPrim <+: path := by
  unfold owningPrim
  rw [← List.reverse_suffix, List.reverse_reverse]
  exact List.dropWhile_suffix _

/-- Path of a spec: a prim, variant set or variant, or a property of one. -/
structure SpecPath where
  prim : PrimPath
  property : Option String := none
deriving DecidableEq, Repr

namespace SpecPath

def root : SpecPath := ⟨[], none⟩

/-- Scene prim that routes an exact event for this path. -/
def routedPrim (path : SpecPath) : ScenePath :=
  path.prim.owningPrim.scenePath

/-- `outer` is this path or one of its namespace ancestors. -/
def Inside (path outer : SpecPath) : Prop :=
  match outer.property with
  | none => outer.prim <+: path.prim
  | some _ => path = outer

instance (path outer : SpecPath) : Decidable (path.Inside outer) :=
  match property : outer.property with
  | none => decidable_of_iff (outer.prim <+: path.prim) (by rw [Inside, property])
  | some _ => decidable_of_iff (path = outer) (by rw [Inside, property])

theorem Inside.refl (path : SpecPath) : path.Inside path := by
  unfold Inside
  split
  · exact List.prefix_rfl
  · rfl

theorem Inside.prim {path outer : SpecPath} (inside : path.Inside outer) :
    outer.prim <+: path.prim := by
  unfold Inside at inside
  split at inside
  · exact inside
  · rw [inside]

theorem Inside.trans {path middle outer : SpecPath} (inner : path.Inside middle)
    (next : middle.Inside outer) : path.Inside outer := by
  unfold Inside at next ⊢
  split at next
  · exact next.trans inner.prim
  · rw [next] at inner
    unfold Inside at inner
    split at inner
    · next property none => simp_all
    · exact inner

/-- Only the pseudo-root contains itself. -/
theorem eq_root_of_inside {outer : SpecPath} (inside : SpecPath.root.Inside outer) : outer = .root := by
  rcases outer with ⟨prim, property⟩
  cases property with
  | none =>
      have outerPrim : prim = [] := List.prefix_nil.1 inside.prim
      rw [outerPrim]
      rfl
  | some name => exact inside.symm

end SpecPath

end UsdConnect
