/-
Purpose: Snapshot tokens: the epoch and the sequence head they are read from, the steps of exporting
  a virtual file, and the commits, rewrites, stack changes, uploads and restarts around them.
Trusted boundary: a commit's edits and its append are one step for readers, who need the scene lock;
  the flattened state after an edit is given by the action, and the state after a restart by the
  restart
Main exports: SnapshotToken, Snapshot, VirtualFile, SnapshotServer, SnapshotAction
-/
import Mathlib.Data.List.Basic

namespace UsdConnect

variable {Scene : Type}

/-- `snapshot_token`. -/
structure SnapshotToken where
  epoch : Nat
  seq : Nat
deriving DecidableEq, Repr

/-- Tuples compare by their first difference. -/
def SnapshotToken.before (token other : SnapshotToken) : Bool :=
  token.epoch < other.epoch || token.epoch = other.epoch && token.seq < other.seq

/-- A flattened stage under its token. -/
structure Snapshot (Scene : Type) where
  token : SnapshotToken
  content : Scene
deriving DecidableEq, Repr

/-- Where `_ensure_current` of a virtual file is. -/
inductive ExportPhase (Scene : Type) where
  | idle
  | opening
  | reading (token : SnapshotToken)
  | flattened (snapshot : Snapshot Scene)
deriving DecidableEq, Repr

/-- `_CachedVirtualFile`. -/
structure VirtualFile (Scene : Type) where
  cached : Option (Snapshot Scene) := none
  phase : ExportPhase Scene := .idle
deriving DecidableEq, Repr

/-- What a server keeps for its tokens.  `storedSeq` is the largest stored sequence, `commit` the
first sequence reserved by the commit in progress and `bumps` counts the stack changes whose epoch
bump is still to come.  The last three fields are specification variables: the snapshots handed out
so far, over restarts; whether the scene has changed since the token advanced; and for every upload
accepted as current the snapshot it was made from and the scene it was accepted over. -/
structure SnapshotServer (Scene : Type) where
  scene : Scene
  storedSeq : Nat := 0
  nextSeq : Nat := 1
  snapshotEpoch : Nat := 0
  commit : Option Nat := none
  bumps : Nat := 0
  files : List (VirtualFile Scene)
  exported : List (Snapshot Scene) := []
  unannounced : Bool := false
  uploads : List (Scene × Scene) := []
deriving Repr

/-- Commits, stack changes, rewrites in the exclusive window, restarts, and the steps of a virtual
file.  `reactivate` is the activation of inactive children
after a payload load. -/
inductive SnapshotAction (Scene : Type) where
  | begin
  | encode
  | finish (after : Scene)
  | fail
  | changeStack (after : Scene)
  | bump
  | reactivate (after : Scene)
  | compact (count : Nat)
  | purge (after : Scene)
  | upload (index : Nat) (replacement : Option (Scene × Nat))
  | restart (restored : Scene)
  | read (file : Nat)
  | openToken (file : Nat)
  | flatten (file : Nat)
  | store (file : Nat)
deriving DecidableEq, Repr

namespace SnapshotServer

/-- `snapshot_token`. -/
def token (server : SnapshotServer Scene) : SnapshotToken :=
  { epoch := server.snapshotEpoch, seq := server.nextSeq - 1 }

/-- No commit and no export holds the barrier. -/
def windowOpen (server : SnapshotServer Scene) : Bool :=
  server.commit.isNone &&
    server.files.all fun file =>
      match file.phase with
      | .reading _ => false
      | _ => true

/-- `append_batch` of the rows of a commit, with the edits in the scene. -/
def finishCommit (server : SnapshotServer Scene) (first : Nat) (after : Scene) :
    SnapshotServer Scene :=
  if server.nextSeq = first then { server with commit := none }
  else
    { server with
      commit := none
      storedSeq := server.nextSeq - 1
      scene := after
      unannounced := false }

/-- `reserve_sequences` takes the reservations back. -/
def failCommit (server : SnapshotServer Scene) (first : Nat) : SnapshotServer Scene :=
  { server with commit := none, nextSeq := first }

/-- `clear_and_rewrite` followed by `reset_history`. -/
def rewrite (server : SnapshotServer Scene) (count : Nat) (after : Scene) :
    SnapshotServer Scene :=
  { server with
    storedSeq := count
    nextSeq := count + 1
    snapshotEpoch := server.snapshotEpoch + 1
    scene := after
    unannounced := false }

/-- `replace_from_stage_snapshot` of a file made from an exported snapshot.  A token that is not the
server's is rejected; an unchanged file replaces nothing. -/
def upload (server : SnapshotServer Scene) (snapshot : Snapshot Scene)
    (replacement : Option (Scene × Nat)) : SnapshotServer Scene :=
  if snapshot.token ≠ server.token then server
  else
    let accepted :=
      { server with uploads := server.uploads ++ [(snapshot.content, server.scene)] }
    match replacement with
    | none => accepted
    | some (after, count) => accepted.rewrite count after

/-- A new process on the same store: counters start from the stored head, caches are gone. -/
def restart (server : SnapshotServer Scene) (restored : Scene) : SnapshotServer Scene :=
  { scene := restored
    storedSeq := server.storedSeq
    nextSeq := server.storedSeq + 1
    files := server.files.map fun _ => {}
    exported := server.exported
    uploads := server.uploads }

def setFile (server : SnapshotServer Scene) (index : Nat) (file : VirtualFile Scene) :
    SnapshotServer Scene :=
  { server with files := server.files.set index file }

/-- The cache serves the current token; otherwise the file is generated. -/
def readFile (server : SnapshotServer Scene) (index : Nat) (file : VirtualFile Scene) :
    SnapshotServer Scene :=
  match file.cached with
  | some snapshot =>
      if snapshot.token = server.token then
        { server with exported := server.exported ++ [snapshot] }
      else server.setFile index { file with phase := .opening }
  | none => server.setFile index { file with phase := .opening }

def exportStep (server : SnapshotServer Scene) (index : Nat) (file : VirtualFile Scene) :
    SnapshotAction Scene → Option (SnapshotServer Scene)
  | .read _ =>
      match file.phase with
      | .idle => some (server.readFile index file)
      | _ => none
  | .openToken _ =>
      match file.phase with
      | .opening => some (server.setFile index { file with phase := .reading server.token })
      | _ => none
  | .flatten _ =>
      match file.phase with
      | .reading token =>
          some (server.setFile index { file with phase := .flattened ⟨token, server.scene⟩ })
      | _ => none
  | .store _ =>
      match file.phase with
      | .flattened snapshot =>
          some
            { server.setFile index { cached := some snapshot } with
              exported := server.exported ++ [snapshot] }
      | _ => none
  | _ => none

def step (server : SnapshotServer Scene) :
    SnapshotAction Scene → Option (SnapshotServer Scene)
  | .begin =>
      match server.commit with
      | none => some { server with commit := some server.nextSeq }
      | some _ => none
  | .encode =>
      server.commit.map fun _ => { server with nextSeq := server.nextSeq + 1 }
  | .finish after => server.commit.map fun first => server.finishCommit first after
  | .fail => server.commit.map fun first => server.failCommit first
  | .changeStack after =>
      some { server with scene := after, bumps := server.bumps + 1, unannounced := true }
  | .bump =>
      if server.bumps = 0 then none
      else
        some
          { server with
            bumps := server.bumps - 1
            snapshotEpoch := server.snapshotEpoch + 1
            unannounced := false }
  | .reactivate after => some { server with scene := after, unannounced := true }
  | .compact count => if server.windowOpen then some (server.rewrite count server.scene) else none
  | .purge after => if server.windowOpen then some (server.rewrite 0 after) else none
  | .upload index replacement =>
      if server.windowOpen then
        server.exported[index]?.map fun snapshot => server.upload snapshot replacement
      else none
  | .restart restored => some (server.restart restored)
  | .read index => server.files[index]?.bind fun file => server.exportStep index file (.read index)
  | .openToken index =>
      server.files[index]?.bind fun file => server.exportStep index file (.openToken index)
  | .flatten index =>
      server.files[index]?.bind fun file => server.exportStep index file (.flatten index)
  | .store index =>
      server.files[index]?.bind fun file => server.exportStep index file (.store index)

end SnapshotServer

end UsdConnect
