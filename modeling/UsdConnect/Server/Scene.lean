/-
Purpose: Application of admitted events to the live scene, the completion of deletion fields, the
  replay of a log, and the rollback scopes around a mutation.
Trusted boundary: the dashboard index is a parameter; `Sdf.CopySpec` needs the destination's parent
Main exports: applyWithDeletionFields, applyValidated, replayEvents, LayerSnapshot
-/
import UsdConnect.Events.Apply

namespace UsdConnect

section Apply

variable (usd : Usd) (session target : LayerId)

/-- Field names of a deletion completed with the ones authored on its spec. -/
def SpecDelta.completed (delta : SpecDelta) (layer : Layer) : SpecDelta :=
  if layer.hasSpec delta.specPath then
    { delta with
      fields := (delta.fields ++ usd.listInfoKeys layer delta.specPath).dedup.insertionSort (· ≤ ·) }
  else delta

/-- The loop of `apply_with_deletion_fields`.  `run` holds the events since the last deletion; the
result is the event list with the deletions reached so far completed, and the exception that ended
the loop. -/
def applyWithDeletionFields (run : List Event) :
    List Event → SceneEdit (List Event × Except EditError Unit)
  | [] => do
      let outcome ← (applyEvents usd target run true).attempt
      return (run, outcome)
  | event :: rest =>
      match event with
      | .setSdfSpecFields delta =>
          if !delta.removed then applyWithDeletionFields (run ++ [event]) rest
          else do
            match ← (applyEvents usd target run true).attempt with
            | .error error => return (run ++ event :: rest, .error error)
            | .ok () =>
                let layer ← Edit.look fun scene => scene.layers target
                let deletion := Event.setSdfSpecFields (delta.completed usd layer)
                match ← (applyEvents usd target [deletion] true).attempt with
                | .error error => return (run ++ deletion :: rest, .error error)
                | .ok () =>
                    let (later, outcome) ← applyWithDeletionFields [] rest
                    return (run ++ deletion :: later, outcome)
      | _ => applyWithDeletionFields (run ++ [event]) rest

/-- Consecutive runs of session and collaboration events, as `groupby` cuts them. -/
def routedRuns (events : List Event) : List (List Event) :=
  events.splitBy fun first second => first.kind.nonCollaboration == second.kind.nonCollaboration

/-- Layer a run is applied to. -/
def runLayer (run : List Event) : LayerId :=
  if run.any fun event => event.kind.nonCollaboration then session else target

/-- `_apply_routed_runs`. -/
def applyRuns : List (List Event) → SceneEdit (List Event × Except EditError Unit)
  | [] => return ([], .ok ())
  | run :: rest => do
      Edit.act (.useOps (runLayer session target run))
      let (completed, outcome) ← applyWithDeletionFields usd (runLayer session target run) [] run
      match outcome with
      | .error error => return (completed ++ rest.flatten, .error error)
      | .ok () =>
          let (later, outcome) ← applyRuns rest
          return (completed ++ later, outcome)

/-- `apply_validated` without tracking.  A muted target is unmuted while collaboration events are
applied. -/
def applyValidated (events : List Event) : SceneEdit (List Event × Except EditError Unit) := do
  let wasMuted ← Edit.look fun scene => scene.muted target
  let needsUnmute := wasMuted && events.any fun event => !event.kind.nonCollaboration
  if needsUnmute then Edit.act (.mute target false)
  let result ← applyRuns usd session target (routedRuns events)
  if needsUnmute then Edit.act (.mute target true)
  return result

/-- `replay_events`: adjacent events of one layer are one batch. -/
def replayEvents (routed : List (LayerId × Event)) : SceneEdit Unit :=
  (routed.splitBy fun first second => first.1 == second.1).forM fun run =>
    match run with
    | [] => pure ()
    | (layer, _) :: _ => do
        Edit.act (.useOps layer)
        applyEvents usd layer (run.map (·.2)) false

end Apply

theorem applyWithDeletionFields_collect {usd : Usd} {target : LayerId} {run rest : List Event}
    {event : Event}
    (kept : ∀ delta, event = .setSdfSpecFields delta → delta.removed = false) :
    applyWithDeletionFields usd target run (event :: rest) =
      applyWithDeletionFields usd target (run ++ [event]) rest := by
  cases event with
  | setSdfSpecFields delta =>
      conv_lhs => unfold applyWithDeletionFields
      dsimp only
      rw [kept delta rfl]
      rfl
  | _ => rfl

/-! ### Rollback scopes -/

/-- `_ScopedAtomicApply` after entry: the layer as it was, the paths that had a prim, and the
topmost missing ancestors of those that had none. -/
structure ScopedSnapshot where
  backup : Layer
  saved : List PrimPath := []
  createdRoots : List PrimPath := []

namespace ScopedSnapshot

def covered (snapshot : ScopedSnapshot) (path : PrimPath) : Bool :=
  (snapshot.saved ++ snapshot.createdRoots).any fun outer => outer <+: path

/-- Climb from a missing path, given innermost element first, to its topmost missing ancestor. -/
def climb (layer : Layer) : List PathElement → List PathElement
  | [] => []
  | last :: above =>
      if above = [] ∨ layer.hasPrim above.reverse then last :: above else climb layer above

def createdRoot (layer : Layer) (path : PrimPath) : PrimPath :=
  (climb layer path.reverse).reverse

/-- One path of `__enter__`. -/
def add (snapshot : ScopedSnapshot) (path : PrimPath) : ScopedSnapshot :=
  if snapshot.covered path then snapshot
  else if snapshot.backup.hasPrim path then
    { snapshot with saved := snapshot.saved ++ [path] }
  else
    { snapshot with
      createdRoots := snapshot.createdRoots ++ [createdRoot snapshot.backup path] }

/-- `__enter__`. -/
def enter (layer : Layer) (paths : List PrimPath) : ScopedSnapshot :=
  paths.foldl add { backup := layer }

/-- `Sdf.CopySpec` back from the backup; a missing parent is an error. -/
def restorePath (backup : Layer) (path : PrimPath) : LayerProgram Unit := do
  let layer ← Edit.look id
  if path.dropLast ≠ [] ∧ !layer.hasPrim path.dropLast then
    Edit.raise "parent of the copied spec does not exist"
  else Edit.act (.graft path backup path)

/-- `__exit__` with an exception. -/
def restore (snapshot : ScopedSnapshot) : LayerProgram Unit := do
  snapshot.createdRoots.forM fun root => Edit.act (.remove ⟨root, none⟩)
  snapshot.saved.forM fun path => restorePath snapshot.backup path

end ScopedSnapshot

/-- A rollback context of one layer. -/
inductive LayerSnapshot where
  /-- `_AtomicApply` -/
  | full (backup : Layer)
  | subtrees (snapshot : ScopedSnapshot)

namespace LayerSnapshot

/-- `atomic_apply_layer`: no paths, or the pseudo-root among them, snapshot the full layer. -/
def enter (layer : Layer) : Option (List ScenePath) → LayerSnapshot
  | none => .full layer
  | some paths =>
      if [] ∈ paths then .full layer
      else .subtrees (ScopedSnapshot.enter layer (paths.map ScenePath.specPath))

def restore : LayerSnapshot → LayerProgram Unit
  | .full backup => Edit.act (.replace backup)
  | .subtrees snapshot => snapshot.restore

end LayerSnapshot

/-- Unwind the rollback contexts, last entered first.  One that raises does not keep the others
from restoring. -/
def restoreLayers (snapshots : List (LayerId × LayerSnapshot)) (scene : Scene) : Scene :=
  snapshots.reverse.foldl
    (fun current entry => (onLayer entry.1 entry.2.restore).after current) scene

end UsdConnect
