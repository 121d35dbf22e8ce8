/-
Purpose: The incremental prim trackers of the scene, with the sorted path index that deletions leave
  stale, and the model that scans every tracked path.
Trusted boundary: event validation admits absolute prim paths and identifiers
Main exports: PrimTracker.trackPrimEvent, PrimTracker.rebuildCaches
-/
import UsdConnect.Lib.OrderedDict
import UsdConnect.Lib.SortedPrefix
import Mathlib.Data.Char
import Mathlib.Data.Finset.Sort

namespace UsdConnect

abbrev PathText := List Char

/-- Text of an absolute prim path. -/
structure PrimText where
  text : PathText
  absolute : text.head? = some '/'
  deriving DecidableEq

/-- Text of a prim name. -/
structure PrimName where
  text : PathText
  plain : '/' ∉ text
  deriving DecidableEq

/-- The events that the trackers look at, and all others. -/
inductive PrimEvent where
  | ensurePrim (prim : PrimText) (typeName : String)
  | deletePrim (prim : PrimText)
  | renamePrim (prim : PrimText) (newName : PrimName)
  | setInstanceable (prim : PrimText) (instanceable : Option Bool)
  | other
  deriving DecidableEq

/-- `text.rsplit('/', 1)[0]`: what is before the last slash, everything where there is none. -/
def beforeLastSlash (text : PathText) : PathText :=
  if '/' ∈ text then ((text.reverse.dropWhile (· ≠ '/')).drop 1).reverse else text

/-- The path that a rename gives its root. -/
def renamedRoot (prim : PrimText) (newName : PrimName) : PathText :=
  beforeLastSlash prim.text ++ '/' :: newName.text

/-! ### The tracked prims -/

/-- Type names by path, and the paths of instanceable prims. -/
structure TrackedPrims where
  primPaths : OrderedDict PathText String
  instanceablePaths : Finset PathText

namespace TrackedPrims

def empty : TrackedPrims where
  primPaths := .empty
  instanceablePaths := ∅

/-- Every path that is tracked. -/
def paths (prims : TrackedPrims) : Finset PathText :=
  prims.primPaths.keys.toFinset ∪ prims.instanceablePaths

/-- One turn of the loop over a subtree: drop a path, or move it below the new root. -/
def relocate (prim : PathText) (newRoot : Option PathText) (prims : TrackedPrims)
    (path : PathText) : TrackedPrims :=
  let typeName := prims.primPaths.get? path
  let primPaths := prims.primPaths.pop path
  let wasInstanceable := path ∈ prims.instanceablePaths
  let instanceablePaths := prims.instanceablePaths.erase path
  match newRoot with
  | none => { primPaths, instanceablePaths }
  | some newRoot =>
      let target := newRoot ++ path.drop prim.length
      { primPaths :=
          match typeName with
          | some typeName => primPaths.set target typeName
          | none => primPaths
        instanceablePaths :=
          if wasInstanceable then insert target instanceablePaths else instanceablePaths }

/-- `_prim_paths.setdefault(path, type_name)`. -/
def setDefault (prims : TrackedPrims) (path : PathText) (typeName : String) : TrackedPrims :=
  match prims.primPaths.get? path with
  | some _ => prims
  | none => { prims with primPaths := prims.primPaths.set path typeName }

def ensure (prims : TrackedPrims) (path : PathText) (typeName : String) : TrackedPrims :=
  { prims with primPaths := prims.primPaths.set path typeName }

def mark (prims : TrackedPrims) (path : PathText) (instanceable : Bool) : TrackedPrims :=
  { prims with
    instanceablePaths :=
      if instanceable then insert path prims.instanceablePaths
      else prims.instanceablePaths.erase path }

/-- The path is that of a prim or below it. -/
def InSubtree (prim path : PathText) : Prop :=
  path = prim ∨ (prim ++ ['/']) <+: path

instance (prim path : PathText) : Decidable (InSubtree prim path) :=
  inferInstanceAs (Decidable (_ ∨ _))

/-- Every tracked path is looked at to find a subtree. -/
def scannedSubtree (prims : TrackedPrims) (prim : PathText) : List PathText :=
  (prims.primPaths.keys ++ prims.instanceablePaths.sort).filter fun path => InSubtree prim path

/-- The trackers without an index: each deletion and rename scans all tracked paths. -/
def scanPrimEvent (prims : TrackedPrims) : PrimEvent → TrackedPrims
  | .ensurePrim prim typeName => prims.ensure prim.text typeName
  | .deletePrim prim =>
      (prims.scannedSubtree prim.text).foldl (relocate prim.text none) prims
  | .renamePrim prim newName =>
      let newRoot := renamedRoot prim newName
      ((prims.scannedSubtree prim.text).foldl (relocate prim.text (some newRoot)) prims).setDefault
        newRoot "Xform"
  | .setInstanceable prim instanceable => prims.mark prim.text (instanceable.getD true)
  | .other => prims

end TrackedPrims

/-! ### The index -/

/-- The trackers of the scene, with the sorted paths of some earlier time. -/
structure PrimTracker where
  prims : TrackedPrims
  namespacePaths : Option (List PathText)

namespace PrimTracker

def initial : PrimTracker where
  prims := .empty
  namespacePaths := none

/-- The sorted paths, built when there are none. -/
def index (tracker : PrimTracker) : List PathText :=
  tracker.namespacePaths.getD tracker.prims.paths.sort

/-- Find tracked descendants without scanning the whole tree per deletion. The paths are read off
the index as it is when the first one is asked for, whatever the loop does to the trackers. -/
def trackedSubtree (tracker : PrimTracker) (prim : PathText) : List PathText :=
  prim :: SortedPrefix.prefixRange tracker.index (prim ++ ['/'])

/-- Update incremental prim trackers from a single event. Deleted entries stay in the index until
the next insertion. -/
def trackPrimEvent (tracker : PrimTracker) : PrimEvent → PrimTracker
  | .ensurePrim prim typeName =>
      { prims := tracker.prims.ensure prim.text typeName
        namespacePaths := none }
  | .deletePrim prim =>
      { prims :=
          (tracker.trackedSubtree prim.text).foldl (TrackedPrims.relocate prim.text none)
            tracker.prims
        namespacePaths := some tracker.index }
  | .renamePrim prim newName =>
      let newRoot := renamedRoot prim newName
      { prims :=
          ((tracker.trackedSubtree prim.text).foldl
            (TrackedPrims.relocate prim.text (some newRoot)) tracker.prims).setDefault
              newRoot "Xform"
        namespacePaths := none }
  | .setInstanceable prim instanceable =>
      { prims := tracker.prims.mark prim.text (instanceable.getD true)
        namespacePaths := if instanceable.getD true then none else tracker.namespacePaths }
  | .other => tracker

/-- Publish the trackers for successfully applied events. -/
def updatePrimTracking (tracker : PrimTracker) (events : List PrimEvent) : PrimTracker :=
  (events.filter (· ≠ .other)).foldl trackPrimEvent tracker

/-- Rebuild the trackers from replacement history. -/
def rebuildCaches (_tracker : PrimTracker) (events : List PrimEvent) : PrimTracker :=
  events.foldl trackPrimEvent { prims := .empty, namespacePaths := none }

end PrimTracker

end UsdConnect
