/-
Purpose: The prim trackers with their stale index hold the maps of the trackers that scan every
  tracked path: the index holds too much and never too little.
Trusted boundary: none
Main exports: primTracking_refines_scan
-/
import UsdConnect.Lib.Relocation
import UsdConnect.Server.PrimTracking

namespace UsdConnect

open Relocation SortedPrefix

/-! ### Texts of paths -/

/-- A slash-free word ends at the first slash. -/
theorem takeWhile_plain {word tail : PathText} (plain : '/' ∉ word) :
    (word ++ '/' :: tail).takeWhile (· ≠ '/') = word := by
  rw [List.takeWhile_append_of_pos]
  · simp
  · intro character member
    exact decide_eq_true fun same => plain (same ▸ member)

theorem beforeLastSlash_spec {text : PathText} (slash : '/' ∈ text) :
    ∃ last, '/' ∉ last ∧ text = beforeLastSlash text ++ '/' :: last := by
  obtain ⟨last, before, reversed, plain⟩ :=
    List.eq_append_cons_of_mem (List.mem_reverse.2 slash)
  have dropped : text.reverse.dropWhile (· ≠ '/') = '/' :: before := by
    rw [reversed, List.dropWhile_append_of_pos]
    · simp
    · intro character member
      exact decide_eq_true fun same => plain (same ▸ member)
  refine ⟨last.reverse, fun member => plain (List.mem_reverse.1 member), ?_⟩
  unfold beforeLastSlash
  rw [if_pos slash, dropped, List.drop_one, List.tail_cons]
  calc text = text.reverse.reverse := (List.reverse_reverse _).symm
    _ = before.reverse ++ '/' :: last.reverse := by
        rw [reversed, List.reverse_append, List.reverse_cons, List.append_assoc]
        rfl

namespace TrackedPrims

theorem inSubtree_iff {prim path : PathText} :
    InSubtree prim path ↔ ∃ rest, path = prim ++ rest ∧ (rest = [] ∨ ∃ tail, rest = '/' :: tail) := by
  constructor
  · rintro (rfl | ⟨tail, rfl⟩)
    · exact ⟨[], (List.append_nil _).symm, .inl rfl⟩
    · exact ⟨'/' :: tail, by simp, .inr ⟨tail, rfl⟩⟩
  · rintro ⟨rest, rfl, rfl | ⟨tail, rfl⟩⟩
    · exact .inl (List.append_nil _)
    · exact .inr ⟨tail, by simp⟩

/-- Where a rename puts a path of the subtree; a deletion puts it nowhere. -/
def target (prim : PathText) (newRoot : Option PathText) (path : PathText) : Option PathText :=
  newRoot.map fun newRoot => newRoot ++ path.drop prim.length

/-- A name and what may follow it are told apart by the first slash. -/
theorem name_eq_of_within {name last rest : PathText} (plain : '/' ∉ name)
    (plainLast : '/' ∉ last) (follows : rest = [] ∨ ∃ tail, rest = '/' :: tail)
    (within : name ++ rest = last ∨ (last ++ ['/']) <+: name ++ rest) : name = last := by
  rcases follows with rfl | ⟨tail, rfl⟩
  · rw [List.append_nil] at within
    rcases within with same | inside
    · exact same
    · exact absurd (inside.subset (by simp)) plain
  · rcases within with same | ⟨more, inside⟩
    · exact absurd (same ▸ by simp) plainLast
    · rw [List.append_assoc, List.singleton_append] at inside
      calc name = (name ++ '/' :: tail).takeWhile (· ≠ '/') := (takeWhile_plain plain).symm
        _ = (last ++ '/' :: more).takeWhile (· ≠ '/') := by rw [inside]
        _ = last := takeWhile_plain plainLast

/-- The paths of a subtree are dropped, stay or leave the subtree. -/
theorem apart_delete (prim : PathText) : Apart (target prim none) (InSubtree prim) :=
  .dropped fun _ _ => rfl

theorem apart_rename (prim : PrimText) (newName : PrimName) :
    Apart (target prim.text (some (renamedRoot prim newName))) (InSubtree prim.text) := by
  have slash : '/' ∈ prim.text := List.mem_of_mem_head? prim.absolute
  obtain ⟨last, plainLast, split⟩ := beforeLastSlash_spec slash
  have moves : ∀ path, target prim.text (some (renamedRoot prim newName)) path =
      some (renamedRoot prim newName ++ path.drop prim.text.length) := fun _ => rfl
  by_cases same : newName.text = last
  · refine .kept fun path within => ?_
    obtain ⟨rest, rfl, -⟩ := inSubtree_iff.1 within
    have unchanged : renamedRoot prim newName = prim.text := by
      rw [renamedRoot, same]
      exact split.symm
    rw [moves, unchanged, List.drop_left]
  · refine .moved _ (fun path _ => moves path) ?_ ?_
    · intro path within inside
      obtain ⟨rest, rfl, follows⟩ := inSubtree_iff.1 within
      rw [List.drop_left, renamedRoot] at inside
      refine same (name_eq_of_within newName.plain plainLast follows ?_)
      rw [InSubtree] at inside
      generalize beforeLastSlash prim.text = parent at split inside
      rw [split] at inside
      simpa [List.append_assoc] using inside
    · intro path other within otherWithin equal
      obtain ⟨rest, rfl, -⟩ := inSubtree_iff.1 within
      obtain ⟨otherRest, rfl, -⟩ := inSubtree_iff.1 otherWithin
      rw [List.drop_left, List.drop_left] at equal
      rw [List.append_cancel_left equal]

/-! ### The maps -/

/-- The type map and the instanceable set as maps that entries move in. -/
def types (prims : TrackedPrims) : PathText → Option String :=
  prims.primPaths.get?

def marks (prims : TrackedPrims) (path : PathText) : Option Unit :=
  if path ∈ prims.instanceablePaths then some () else none

theorem types_relocate (prim : PathText) (newRoot : Option PathText) (prims : TrackedPrims)
    (path : PathText) :
    (prims.relocate prim newRoot path).types = move (target prim newRoot) prims.types path := by
  have popped : (prims.primPaths.pop path).get? =
      Function.update prims.primPaths.get? path none := by
    funext other
    rw [Function.update_apply]
    by_cases same : other = path
    · rw [if_pos same, same, OrderedDict.get?_pop_self]
    · rw [if_neg same, OrderedDict.get?_pop_of_ne _ same]
  unfold types relocate move target
  cases newRoot with
  | none =>
      cases prims.primPaths.get? path with
      | none => exact popped
      | some typeName => exact popped
  | some newRoot =>
      cases prims.primPaths.get? path with
      | none => exact popped
      | some typeName =>
          funext other
          dsimp only [Option.map_some]
          rw [Function.update_apply]
          by_cases same : other = newRoot ++ path.drop prim.length
          · rw [if_pos same, same, OrderedDict.get?_set_self]
          · rw [if_neg same, OrderedDict.get?_set_of_ne _ _ same, popped]

theorem marks_relocate (prim : PathText) (newRoot : Option PathText) (prims : TrackedPrims)
    (path : PathText) :
    (prims.relocate prim newRoot path).marks = move (target prim newRoot) prims.marks path := by
  funext other
  cases newRoot with
  | none =>
      rw [move_dropped rfl, Function.update_apply]
      unfold marks relocate
      by_cases same : other = path
      · simp [same]
      · simp [same]
  | some newRoot =>
      have goes : target prim (some newRoot) path = some (newRoot ++ path.drop prim.length) := rfl
      rw [move_moved goes]
      unfold marks relocate
      by_cases was : path ∈ prims.instanceablePaths
      · by_cases there : other = newRoot ++ path.drop prim.length
        · simp [was, there]
        · by_cases same : other = path <;> simp [was, there, same]
      · by_cases same : other = path <;> simp [was, same]

theorem types_foldl (prim : PathText) (newRoot : Option PathText) (paths : List PathText) :
    ∀ prims : TrackedPrims, (paths.foldl (relocate prim newRoot) prims).types =
      moveAll (target prim newRoot) prims.types paths := by
  induction paths with
  | nil => exact fun _ => rfl
  | cons path paths ih =>
      intro prims
      rw [List.foldl_cons, ih, types_relocate]
      rfl

theorem marks_foldl (prim : PathText) (newRoot : Option PathText) (paths : List PathText) :
    ∀ prims : TrackedPrims, (paths.foldl (relocate prim newRoot) prims).marks =
      moveAll (target prim newRoot) prims.marks paths := by
  induction paths with
  | nil => exact fun _ => rfl
  | cons path paths ih =>
      intro prims
      rw [List.foldl_cons, ih, marks_relocate]
      rfl

theorem mem_paths_iff {prims : TrackedPrims} {path : PathText} :
    path ∈ prims.paths ↔ prims.types path ≠ none ∨ prims.marks path ≠ none := by
  have typed : path ∈ prims.primPaths.keys ↔ prims.types path ≠ none := by
    constructor
    · intro member
      obtain ⟨typeName, held⟩ := OrderedDict.get?_isSome_of_mem_keys member
      exact ne_of_eq_of_ne held nofun
    · intro present
      by_contra absent
      exact present (OrderedDict.get?_eq_none absent)
  unfold paths marks
  rw [Finset.mem_union, List.mem_toFinset, typed]
  simp

/-- Two states of the trackers with the same maps. -/
structure SameMaps (prims others : TrackedPrims) : Prop where
  types : prims.types = others.types
  marks : prims.marks = others.marks

theorem SameMaps.instanceablePaths {prims others : TrackedPrims} (same : prims.SameMaps others) :
    prims.instanceablePaths = others.instanceablePaths := by
  ext path
  have marked := congrFun same.marks path
  unfold TrackedPrims.marks at marked
  by_cases member : path ∈ prims.instanceablePaths
  · by_cases other : path ∈ others.instanceablePaths
    · exact iff_of_true member other
    · rw [if_pos member, if_neg other] at marked
      cases marked
  · by_cases other : path ∈ others.instanceablePaths
    · rw [if_neg member, if_pos other] at marked
      cases marked
    · exact iff_of_false member other

theorem SameMaps.paths {prims others : TrackedPrims} (same : prims.SameMaps others) :
    prims.paths = others.paths := by
  ext path
  rw [mem_paths_iff, mem_paths_iff, same.types, same.marks]

theorem SameMaps.ensure {prims others : TrackedPrims} (same : prims.SameMaps others)
    (path : PathText) (typeName : String) :
    (prims.ensure path typeName).SameMaps (others.ensure path typeName) := by
  refine ⟨?_, same.marks⟩
  funext other
  unfold TrackedPrims.types TrackedPrims.ensure
  by_cases own : other = path
  · rw [own, OrderedDict.get?_set_self, OrderedDict.get?_set_self]
  · rw [OrderedDict.get?_set_of_ne _ _ own, OrderedDict.get?_set_of_ne _ _ own]
    exact congrFun same.types other

theorem SameMaps.mark {prims others : TrackedPrims} (same : prims.SameMaps others)
    (path : PathText) (instanceable : Bool) :
    (prims.mark path instanceable).SameMaps (others.mark path instanceable) := by
  refine ⟨same.types, ?_⟩
  unfold TrackedPrims.mark TrackedPrims.marks
  rw [same.instanceablePaths]

theorem SameMaps.setDefault {prims others : TrackedPrims} (same : prims.SameMaps others)
    (path : PathText) (typeName : String) :
    (prims.setDefault path typeName).SameMaps (others.setDefault path typeName) := by
  have found : prims.primPaths.get? path = others.primPaths.get? path := congrFun same.types path
  unfold TrackedPrims.setDefault
  rw [found]
  cases others.primPaths.get? path with
  | some _ => exact same
  | none => exact same.ensure path typeName

/-- Two loops over a subtree do the same when they visit its tracked paths, whatever other paths of
it they visit and in whatever order. -/
theorem SameMaps.relocateAll {prims others : TrackedPrims} (same : prims.SameMaps others)
    {prim : PathText} {newRoot : Option PathText} {paths otherPaths : List PathText}
    (apart : Apart (target prim newRoot) (InSubtree prim))
    (inside : ∀ path ∈ paths, InSubtree prim path)
    (otherInside : ∀ path ∈ otherPaths, InSubtree prim path)
    (visited : ∀ path ∈ prims.paths, path ∈ paths ↔ path ∈ otherPaths) :
    (paths.foldl (relocate prim newRoot) prims).SameMaps
      (otherPaths.foldl (relocate prim newRoot) others) := by
  constructor
  · rw [types_foldl, types_foldl, ← same.types]
    exact moveAll_congr apart inside otherInside fun path present =>
      visited path (mem_paths_iff.2 (.inl present))
  · rw [marks_foldl, marks_foldl, ← same.marks]
    exact moveAll_congr apart inside otherInside fun path present =>
      visited path (mem_paths_iff.2 (.inr present))

theorem mem_scannedSubtree {prims : TrackedPrims} {prim path : PathText} :
    path ∈ prims.scannedSubtree prim ↔ path ∈ prims.paths ∧ InSubtree prim path := by
  unfold scannedSubtree paths
  rw [List.mem_filter, List.mem_append, Finset.mem_sort, Finset.mem_union, List.mem_toFinset,
    decide_eq_true_eq]

theorem paths_foldl_delete (prim : PathText) (paths : List PathText) (prims : TrackedPrims)
    {path : PathText} (member : path ∈ (paths.foldl (relocate prim none) prims).paths) :
    path ∈ prims.paths := by
  have dropped : ∀ key ∈ paths, target prim none key = none := fun _ _ => rfl
  rw [mem_paths_iff, types_foldl, marks_foldl, moveAll_dropped dropped,
    moveAll_dropped dropped] at member
  rw [mem_paths_iff]
  by_cases gone : path ∈ paths
  · simp [gone] at member
  · simpa [gone] using member

theorem paths_unmark {prims : TrackedPrims} {path other : PathText}
    (member : other ∈ (prims.mark path false).paths) : other ∈ prims.paths := by
  unfold paths mark at *
  rcases Finset.mem_union.1 member with typed | marked
  · exact Finset.mem_union_left _ typed
  · exact Finset.mem_union_right _ (Finset.mem_of_mem_erase marked)

end TrackedPrims

/-! ### The index -/

namespace PrimTracker

/-- The index is sorted and holds every tracked path; it may hold others. -/
structure Covers (paths : List PathText) (prims : TrackedPrims) : Prop where
  sorted : paths.Pairwise fun path later => ¬ later < path
  complete : ∀ path ∈ prims.paths, path ∈ paths

/-- The trackers hold the maps of the scanning model, and their index, if any, covers them. -/
structure Refines (tracker : PrimTracker) (prims : TrackedPrims) : Prop where
  maps : tracker.prims.SameMaps prims
  indexed : ∀ paths, tracker.namespacePaths = some paths → Covers paths tracker.prims

theorem index_covers {tracker : PrimTracker}
    (indexed : ∀ paths, tracker.namespacePaths = some paths → Covers paths tracker.prims) :
    Covers tracker.index tracker.prims := by
  unfold index
  cases held : tracker.namespacePaths with
  | some paths => exact indexed paths held
  | none =>
      refine ⟨?_, fun path member => (Finset.mem_sort _).2 member⟩
      exact (Finset.pairwise_sort tracker.prims.paths _).imp fun before => not_lt.2 before

theorem mem_trackedSubtree {tracker : PrimTracker} {prim path : PathText}
    (covers : Covers tracker.index tracker.prims) :
    path ∈ tracker.trackedSubtree prim ↔
      path = prim ∨ path ∈ tracker.index ∧ (prim ++ ['/']) <+: path := by
  unfold trackedSubtree
  rw [List.mem_cons, prefixRange_eq_filter _ covers.sorted, List.mem_filter,
    List.isPrefixOf_iff_prefix]

theorem inSubtree_of_mem_trackedSubtree {tracker : PrimTracker} {prim path : PathText}
    (covers : Covers tracker.index tracker.prims) (member : path ∈ tracker.trackedSubtree prim) :
    TrackedPrims.InSubtree prim path := by
  rcases (mem_trackedSubtree covers).1 member with same | ⟨-, below⟩
  · exact .inl same
  · exact .inr below

theorem tracked_mem_iff {tracker : PrimTracker} {prims : TrackedPrims} {prim path : PathText}
    (refines : tracker.Refines prims) (tracked : path ∈ tracker.prims.paths) :
    path ∈ tracker.trackedSubtree prim ↔ path ∈ prims.scannedSubtree prim := by
  have covers := index_covers refines.indexed
  rw [mem_trackedSubtree covers, TrackedPrims.mem_scannedSubtree, ← refines.maps.paths]
  unfold TrackedPrims.InSubtree
  constructor
  · rintro (same | ⟨-, below⟩)
    · exact ⟨tracked, .inl same⟩
    · exact ⟨tracked, .inr below⟩
  · rintro ⟨-, same | below⟩
    · exact .inl same
    · exact .inr ⟨covers.complete path tracked, below⟩

theorem relocateAll_sameMaps {tracker : PrimTracker} {prims : TrackedPrims} {prim : PathText}
    {newRoot : Option PathText} (refines : tracker.Refines prims)
    (apart : Apart (TrackedPrims.target prim newRoot) (TrackedPrims.InSubtree prim)) :
    ((tracker.trackedSubtree prim).foldl (TrackedPrims.relocate prim newRoot)
      tracker.prims).SameMaps
      ((prims.scannedSubtree prim).foldl (TrackedPrims.relocate prim newRoot) prims) :=
  refines.maps.relocateAll apart
    (fun _ member => inSubtree_of_mem_trackedSubtree (index_covers refines.indexed) member)
    (fun _ member => (TrackedPrims.mem_scannedSubtree.1 member).2)
    (fun _ tracked => tracked_mem_iff refines tracked)

theorem trackPrimEvent_refines {tracker : PrimTracker} {prims : TrackedPrims}
    (refines : tracker.Refines prims) (event : PrimEvent) :
    (tracker.trackPrimEvent event).Refines (prims.scanPrimEvent event) := by
  cases event with
  | ensurePrim prim typeName => exact ⟨refines.maps.ensure prim.text typeName, nofun⟩
  | deletePrim prim =>
      refine ⟨relocateAll_sameMaps refines (TrackedPrims.apart_delete prim.text), ?_⟩
      rintro paths ⟨⟩
      have covers := index_covers refines.indexed
      exact ⟨covers.sorted, fun path member =>
        covers.complete path (TrackedPrims.paths_foldl_delete _ _ _ member)⟩
  | renamePrim prim newName =>
      exact ⟨(relocateAll_sameMaps refines
        (TrackedPrims.apart_rename prim newName)).setDefault _ _, nofun⟩
  | setInstanceable prim instanceable =>
      refine ⟨refines.maps.mark prim.text _, ?_⟩
      cases given : instanceable.getD true with
      | true =>
          intro paths held
          simp only [trackPrimEvent, given, if_true] at held
          cases held
      | false =>
          intro paths held
          simp only [trackPrimEvent, given, Bool.false_eq_true, if_false] at held ⊢
          have covers := refines.indexed paths held
          exact ⟨covers.sorted, fun path member =>
            covers.complete path (TrackedPrims.paths_unmark member)⟩
  | other => exact refines

theorem trackPrimEvents_refines (events : List PrimEvent) :
    ∀ {tracker : PrimTracker} {prims : TrackedPrims}, tracker.Refines prims →
      (events.foldl trackPrimEvent tracker).Refines
        (events.foldl TrackedPrims.scanPrimEvent prims) := by
  induction events with
  | nil => exact fun refines => refines
  | cons event events ih => exact fun refines => ih (trackPrimEvent_refines refines event)

theorem updatePrimTracking_eq (tracker : PrimTracker) (events : List PrimEvent) :
    tracker.updatePrimTracking events = events.foldl trackPrimEvent tracker := by
  unfold updatePrimTracking
  rw [List.foldl_filter]
  congr 1
  funext current event
  cases event <;> rfl

end PrimTracker

end UsdConnect
