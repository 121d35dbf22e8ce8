/-
Purpose: The server's history: commits that append rows at once or through the queue, the
  persistence thread, and the rewrites in the exclusive window.
Trusted boundary: an append or a rewrite of the store either happens as a whole or raises and
  leaves the table as it was (one SQL transaction).  What a compaction makes of the rows it is
  given is a parameter.
Main exports: CommitKind, HistoryState, HistoryAction, HistoryState.step?, HistoryState.run?
-/
import UsdConnect.Server.Journal
import Mathlib.Data.List.Sort

namespace UsdConnect

variable {Record : Type}

/-! ### Reading the event table -/

namespace EventStore

/-- `ORDER BY seq`. -/
def sortRows (rows : List (Nat × Record)) : List (Nat × Record) :=
  rows.insertionSort fun row other => row.1 ≤ other.1

/-- The largest sequence number of some rows, zero when there are none. -/
def maxSeq (rows : List (Nat × Record)) : Nat :=
  (rows.map (·.1)).foldr max 0

def getMaxSeq (store : EventStore Record) : Nat :=
  maxSeq store.events

def getCount (store : EventStore Record) : Nat :=
  store.events.length

def getAllAsc (store : EventStore Record) : List (Nat × Record) :=
  sortRows store.events

def getFromSeqAsc (store : EventStore Record) (seqStart : Nat) : List (Nat × Record) :=
  sortRows (store.events.filter fun row => seqStart ≤ row.1)

/-- Whether the primary key admits the rows: no sequence number is taken or inserted twice. -/
def admits (store : EventStore Record) (rows : List (Nat × Record)) : Bool :=
  decide ((store.events ++ rows).map (·.1)).Nodup

/-- `clear_and_rewrite`; producer rows survive. -/
def clearAndRewrite (store : EventStore Record) (rows : List (Nat × Record)) :
    EventStore Record :=
  { store with events := rows }

end EventStore

/-! ### Commits -/

/-- The call sites that write records.  Grouped and single managed commits share one path. -/
inductive CommitKind where
  | managed
  | childReplay
  | shared
  | refresh
deriving DecidableEq, Repr

namespace CommitKind

/-- Whether the call site runs inside `reserve_sequences`.  The dependency refresh calls
`persist_shared_events` without it. -/
def reservesSequences : CommitKind → Bool
  | .managed => true
  | .childReplay => true
  | .shared => true
  | .refresh => false

/-- Whether the call site passes `synchronous=True` to `append_batch`. -/
def synchronous : CommitKind → Bool
  | .managed => true
  | .childReplay => true
  | .shared => false
  | .refresh => false

end CommitKind

/-- A commit between its first reservation and the end of its append.  `durableMetadata` says
whether producer progress or layer identities are appended with the rows. -/
structure CommitInProgress (Record : Type) where
  kind : CommitKind
  durableMetadata : Bool
  firstSequence : Nat
  rows : List (Nat × Record) := []
deriving DecidableEq, Repr

/-- What `compact_log` captured under the shared barrier. -/
structure CompactionCapture (Record : Type) where
  replayEpoch : Nat
  rows : List (Nat × Record)
deriving DecidableEq, Repr

/-- The reduction of `LogCompaction`: stored records are added one by one and the surviving
records are read off at the end. -/
structure LogReduction (Record : Type) where
  State : Type
  empty : State
  addStoredRecord : State → Nat → Record → State
  replayRecords : State → List Record

namespace LogReduction

/-- Add rows in order to a compaction. -/
def addRows (reduction : LogReduction Record) (compaction : reduction.State)
    (rows : List (Nat × Record)) : reduction.State :=
  rows.foldl (fun state row => reduction.addStoredRecord state row.1 row.2) compaction

def buildCompacted (reduction : LogReduction Record) (rows : List (Nat × Record)) :
    reduction.State :=
  reduction.addRows reduction.empty rows

end LogReduction

/-- What the shared-stage graph contributes to a rewrite: the baseline record of the new
generation and which records route to a reachable layer. -/
structure GraphGeneration (Record : Type) where
  stateMessage : Record
  reachable : Record → Bool

/-- Number records upwards from a first sequence. -/
def numberFrom (first : Nat) (records : List Record) : List (Nat × Record) :=
  (List.range' first records.length).zip records

/-- The rows that `commit_compaction` writes. -/
def compactedRows (graph : Option (GraphGeneration Record)) (compacted : List Record) :
    List (Nat × Record) :=
  match graph with
  | none => numberFrom 1 compacted
  | some graph => (1, graph.stateMessage) :: numberFrom 2 (compacted.filter graph.reachable)

/-! ### States -/

/-- `realtime` durability runs the persistence thread. -/
inductive Durability where
  | sync
  | realtime
deriving DecidableEq, Repr

/-- Journal, realtime queue, the one commit that holds the commit scope and the compactions that
have captured rows and not yet rewritten.  `reported` is a specification variable: the rows of the
operations that reported success since the last rewrite, in order.  No operation reads it. -/
structure HistoryState (Record : Type) where
  journal : EventJournal Record := {}
  replayEpoch : Nat := 0
  queue : List (List (Nat × Record)) := []
  commit : Option (CommitInProgress Record) := none
  captures : List (CompactionCapture Record) := []
  reported : List (Nat × Record) := []

namespace HistoryState

/-- A journal opened on stored rows. -/
def openStore (rows : List (Nat × Record)) : HistoryState Record :=
  let store : EventStore Record := { events := rows }
  { journal := { store := store, nextSeq := store.getMaxSeq + 1, eventCount := store.getCount }
    reported := store.getAllAsc }

/-- `replay_token`: epoch and head. -/
def replayToken (state : HistoryState Record) : Nat × Nat :=
  (state.replayEpoch, state.journal.nextSeq - 1)

/-- `durable_checkpoint`: epoch and persisted head. -/
def durableCheckpoint (state : HistoryState Record) : Nat × Nat :=
  (state.replayEpoch, state.journal.store.getMaxSeq)

/-- Every row that is persisted or waits in the realtime queue, ascending. -/
def currentHistory (state : HistoryState Record) : List (Nat × Record) :=
  EventStore.sortRows (state.journal.store.events ++ state.queue.flatten)

/-! ### Operations of a commit -/

/-- Enter the commit scope; `reserve_sequences` remembers the next sequence. -/
def begin (state : HistoryState Record) (kind : CommitKind) (durableMetadata : Bool) :
    HistoryState Record :=
  { state with
    commit := some
      { kind := kind
        durableMetadata := durableMetadata
        firstSequence := state.journal.nextSeq } }

/-- `assign_and_encode_event`: the sequence is assigned before the record is encoded. -/
def encode (state : HistoryState Record) (commit : CommitInProgress Record) (record : Record) :
    HistoryState Record :=
  let (seq, journal) := state.journal.assignSeq
  { state with
    journal := journal
    commit := some { commit with rows := commit.rows ++ [(seq, record)] } }

/-- An exception leaves the commit.  Only `reserve_sequences` takes the reservations back. -/
def raise (state : HistoryState Record) (commit : CommitInProgress Record) :
    HistoryState Record :=
  { state with
    journal :=
      if commit.kind.reservesSequences then
        { state.journal with nextSeq := commit.firstSequence }
      else state.journal
    commit := none }

/-- The encoder raises after `assign_seq` has run. -/
def encodeFail (state : HistoryState Record) (commit : CommitInProgress Record) :
    HistoryState Record :=
  { state with journal := (state.journal.assignSeq).2 }.raise commit

/-- `can_queue` of `append_batch`. -/
def canQueue (durability : Durability) (commit : CommitInProgress Record) : Bool :=
  durability = .realtime && !(commit.kind.synchronous || commit.durableMetadata)

/-- `append_batch` returns: the rows are queued, or persisted and counted. -/
def append (durability : Durability) (state : HistoryState Record)
    (commit : CommitInProgress Record) : HistoryState Record :=
  let state := { state with commit := none, reported := state.reported ++ commit.rows }
  if canQueue durability commit then { state with queue := state.queue ++ [commit.rows] }
  else { state with journal := state.journal.appendBatch commit.rows [] }

/-! ### The persistence thread -/

/-- `_persist_loop` stores one queue item. -/
def persist (state : HistoryState Record) (rows : List (Nat × Record))
    (rest : List (List (Nat × Record))) : HistoryState Record :=
  { state with journal := state.journal.appendBatch rows [], queue := rest }

/-- `_persist_loop` logs the exception and drops the item. -/
def persistFail (state : HistoryState Record) (rest : List (List (Nat × Record))) :
    HistoryState Record :=
  { state with queue := rest }

/-! ### Rewrites -/

/-- A durable replacement followed by `reset_history`. -/
def rewrite (state : HistoryState Record) (rows : List (Nat × Record)) : HistoryState Record :=
  { state with
    journal := { state.journal with
      store := state.journal.store.clearAndRewrite rows
      eventCount := rows.length
      nextSeq := rows.length + 1 }
    replayEpoch := state.replayEpoch + 1
    reported := rows }

/-- First half of `compact_log`.  An empty log is not compacted. -/
def capture (state : HistoryState Record) : HistoryState Record :=
  match state.journal.store.getAllAsc with
  | [] => state
  | rows =>
      { state with
        captures := state.captures ++ [{ replayEpoch := state.replayEpoch, rows := rows }] }

/-- The records a compaction keeps: those captured, then those stored after the captured
maximum. -/
def compactionRecords (reduction : LogReduction Record) (state : HistoryState Record)
    (captured : CompactionCapture Record) : List Record :=
  let maxSeq := (captured.rows.getLast?.map (·.1)).getD 0
  let compaction := reduction.buildCompacted captured.rows
  let delta := state.journal.store.getFromSeqAsc (maxSeq + 1)
  reduction.replayRecords (reduction.addRows compaction delta)

/-- Second half of `compact_log`, in the exclusive window. -/
def finishCompaction (reduction : LogReduction Record) (state : HistoryState Record)
    (captured : CompactionCapture Record) (graph : Option (GraphGeneration Record)) :
    HistoryState Record :=
  if state.replayEpoch ≠ captured.replayEpoch then state
  else state.rewrite (compactedRows graph (compactionRecords reduction state captured))

end HistoryState

/-! ### Steps -/

/-- What the server's threads do next.  `abort` is an exception of a commit after its last
encoded record: applying the edits or appending the rows raised.  `compact`, `purge` and
`snapshot` run in the exclusive window; `rewriteFail` is a rewrite whose encoding or replacement
raised. -/
inductive HistoryAction (Record : Type) where
  | begin (kind : CommitKind) (durableMetadata : Bool)
  | encode (record : Record)
  | encodeFail
  | abort
  | append
  | persist
  | persistFail
  | capture
  | compact (index : Nat) (graph : Option (GraphGeneration Record))
  | purge
  | snapshot (records : List Record)
  | rewriteFail

namespace HistoryState

/-- The exclusive barrier is held and the queue is drained. -/
def windowOpen (state : HistoryState Record) : Bool :=
  state.commit.isNone && state.queue.isEmpty

/-- One step; `none` when the action cannot happen in this state. -/
def step? (durability : Durability) (reduction : LogReduction Record)
    (state : HistoryState Record) : HistoryAction Record → Option (HistoryState Record)
  | .begin kind durableMetadata =>
      match state.commit with
      | none => some (state.begin kind durableMetadata)
      | some _ => none
  | .encode record => state.commit.map fun commit => state.encode commit record
  | .encodeFail => state.commit.map fun commit => state.encodeFail commit
  | .abort => state.commit.map fun commit => state.raise commit
  | .append =>
      match state.commit with
      | none => none
      | some commit =>
          if canQueue durability commit || state.journal.store.admits commit.rows then
            some (state.append durability commit)
          else none
  | .persist =>
      match state.queue with
      | [] => none
      | rows :: rest =>
          if state.journal.store.admits rows then some (state.persist rows rest) else none
  | .persistFail =>
      match state.queue with
      | [] => none
      | _ :: rest => some (state.persistFail rest)
  | .capture => some state.capture
  | .compact index graph =>
      if state.windowOpen then
        state.captures[index]?.map fun captured =>
          { state.finishCompaction reduction captured graph with
            captures := state.captures.eraseIdx index }
      else none
  | .purge => if state.windowOpen then some (state.rewrite []) else none
  | .snapshot records =>
      if state.windowOpen then some (state.rewrite (numberFrom 1 records)) else none
  | .rewriteFail => if state.windowOpen then some state else none

/-- Take the actions one after another; `none` when one of them cannot happen. -/
def run? (durability : Durability) (reduction : LogReduction Record) :
    HistoryState Record → List (HistoryAction Record) → Option (HistoryState Record)
  | state, [] => some state
  | state, action :: actions =>
      (state.step? durability reduction action).bind fun next =>
        run? durability reduction next actions

end HistoryState

end UsdConnect
