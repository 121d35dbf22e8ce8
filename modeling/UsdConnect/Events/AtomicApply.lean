/-
Purpose: Leaving a scoped rollback context with an exception, for either way `Sdf.CopySpec` can treat
  a destination without a parent, and what a block that respects its scope may have written.
Trusted boundary: `Sdf.CopySpec` replaces the destination subtree; without a parent prim it raises or
  leaves the layer as it is
Main exports: ScopedSnapshot.exit, LayerSnapshot.exit, WritesWithin, ParentsKept
-/
import UsdConnect.Server.Scene

namespace UsdConnect

/-- `Sdf.CopySpec` from the backup.  A destination without a parent raises the given error, or does
nothing when there is none. -/
def copySpecBack (missingParent : Option EditError) (backup : Layer) (path : PrimPath) :
    LayerProgram Unit := do
  let layer ← Edit.look id
  if path.dropLast ≠ [] ∧ !layer.hasPrim path.dropLast then
    match missingParent with
    | some error => Edit.raise error
    | none => pure ()
  else Edit.act (.graft path backup path)

/-- `__exit__` with an exception: created roots are deleted, then saved subtrees are copied back. -/
def ScopedSnapshot.exit (missingParent : Option EditError) (snapshot : ScopedSnapshot) :
    LayerProgram Unit := do
  snapshot.createdRoots.forM fun root => Edit.act (.remove ⟨root, none⟩)
  snapshot.saved.forM fun path => copySpecBack missingParent snapshot.backup path

/-- `__exit__` of either rollback context with an exception. -/
def LayerSnapshot.exit (missingParent : Option EditError) : LayerSnapshot → LayerProgram Unit
  | .full backup => Edit.act (.replace backup)
  | .subtrees snapshot => snapshot.exit missingParent

/-- A block turned one layer into another by writing at or under the listed prims; missing ancestors
of missing prims may have been created. -/
def WritesWithin (prims : List ScenePath) (entry raised : Layer) : Prop :=
  ∀ (path : SpecPath) (field : Field), raised.value path field ≠ entry.value path field →
    (∃ prim ∈ prims, prim.specPath <+: path.prim) ∨
      path.property = none ∧ ¬ entry.hasPrim path.prim ∧
        ∃ prim ∈ prims, path.prim <+: prim.specPath

/-- Every listed prim that existed at entry has its parent when the block raises, unless the prim or
an ancestor of it is listed before. -/
def ParentsKept (prims : List ScenePath) (entry raised : Layer) : Prop :=
  ∀ (before : List ScenePath) (prim : ScenePath) (after : List ScenePath),
    prims = before ++ prim :: after → entry.hasPrim prim.specPath →
      raised.hasPrim prim.specPath.dropLast ∨ ∃ earlier ∈ before, earlier <+: prim

end UsdConnect
