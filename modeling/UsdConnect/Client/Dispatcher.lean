/-
Purpose: The consumer of the receiver thread: decoding a drained batch with deduplication, contiguity
  and resets, and the drain-and-apply cycle with its recovery, together with the connection it runs
  beside.
Trusted boundary: applying a batch either succeeds or raises.  Messages of one connection arrive as
  the server sends them: it completes a replay once, after the hello or after a reset.
Main exports: DecodeResult, decodeMessages, Reception, ReceptionAction, Reception.step?
-/
import UsdConnect.Client.Receiver

namespace UsdConnect

variable {Event : Type}

/-! ### Decoding a batch -/

/-- Outcome of decoding one batch.  `failed` says that decoding stopped at an error. -/
structure DecodeResult (Event : Type) where
  received : List (Nat × Event) := []
  lastSeq : Nat
  resyncRequested : Bool := false
  failed : Bool := false
deriving DecidableEq, Repr

/-- `decode_messages` with `clear_on_resync` and `require_contiguous`. -/
def decodeMessages : List (ReceiverFrame Event) → DecodeResult Event → DecodeResult Event
  | [], result => result
  | .resync :: rest, result =>
      decodeMessages rest { result with lastSeq := 0, resyncRequested := true, received := [] }
  | .other :: rest, result => decodeMessages rest result
  | .malformed _ _ :: _, result => { result with failed := true }
  | .event sequence event :: rest, result =>
      if sequence ≠ 0 ∧ sequence ≤ result.lastSeq then decodeMessages rest result
      else if sequence ≠ 0 ∧ sequence ≠ result.lastSeq + 1 then { result with failed := true }
      else
        decodeMessages rest { result with
          lastSeq := if sequence ≠ 0 then sequence else result.lastSeq
          received := result.received ++ [(sequence, event)] }

/-! ### The receiver and its consumer -/

/-- The socket the thread reads: its generation, the cursor it asked for, and whether the server
has still to complete a replay on it. -/
structure OpenConnection where
  generation : Nat
  syncFrom : Nat
  replaying : Bool := true
deriving DecidableEq, Repr

/-- A reset on the wire starts another replay. -/
def OpenConnection.receive (connection : OpenConnection) (kind : ReceiverMessageKind) :
    OpenConnection :=
  { connection with replaying := connection.replaying || decide (kind = .resync) }

/-- Receiver thread, dispatcher and open connection.  The last five fields are specification
variables: the first sequence expected since the last applied reset and the records delivered since
then; the messages accepted since the last replay request, how many of them preceded the latest
completed replay of this generation, and those applied without error. -/
structure Reception (Event : Type) where
  thread : ReceiverThread Event
  lastSeq : Nat
  batch : Option (List (ReceiverFrame Event)) := none
  connection : Option OpenConnection := none
  start : Nat
  delivered : List (Nat × Event) := []
  accepted : List (ReceiverFrame Event) := []
  completedAt : Option Nat := none
  applied : List (ReceiverFrame Event) := []
  /-- Whether the batch in hand was drained after the last replay request. -/
  batchCurrent : Bool := true

namespace Reception

def create (syncFrom maxQueue : Nat) (requireContiguous : Bool) : Reception Event :=
  { thread := .create syncFrom maxQueue requireContiguous
    lastSeq := syncFrom - 1
    start := syncFrom }

/-- A replay request forgets everything accepted before it. -/
def requestReplayFrom (state : Reception Event) (seqStart : Nat) : Reception Event :=
  { state with
    thread := state.thread.requestReplayFrom seqStart
    accepted := []
    completedAt := none
    applied := []
    batchCurrent := false }

/-- Record what the thread did with a message: it asked for a replay, or accepted the message, or
neither. -/
def observe (state : Reception Event) (thread : ReceiverThread Event)
    (frame : ReceiverFrame Event) : Reception Event :=
  if thread.inbox.generation ≠ state.thread.inbox.generation then
    { state with
      thread := thread
      accepted := []
      completedAt := none
      applied := []
      batchCurrent := false }
  else if thread.inbox.incomingSerial ≠ state.thread.inbox.incomingSerial then
    { state with thread := thread, accepted := state.accepted ++ [frame] }
  else { state with thread := thread }

/-- The connection ends. -/
def drop (state : Reception Event) : Reception Event :=
  { state with thread := state.thread.disconnect, connection := none }

/-- Stay connected or leave, as a handler said. -/
def continueIf (state : Reception Event) (kept : Bool) : Reception Event :=
  if kept then state else state.drop

/-- `drain_and_apply` once the batch has been decoded and applied, or applying it raised. -/
def finishBatch (state : Reception Event) (batch : List (ReceiverFrame Event))
    (applySucceeds : Bool) : Reception Event :=
  let result := decodeMessages batch { lastSeq := state.lastSeq }
  let state := { state with batch := none }
  if applySucceeds then
    let state := { state with
      lastSeq := result.lastSeq
      start := if result.resyncRequested then 1 else state.start
      delivered :=
        if result.resyncRequested then result.received else state.delivered ++ result.received }
    if result.failed then state.requestReplayFrom (result.lastSeq + 1)
    else { state with
      thread := state.thread.markReplayApplied
      applied := if state.batchCurrent then state.applied ++ batch else state.applied }
  else
    let recoverySeq := if result.resyncRequested then 0 else state.lastSeq
    { state with
      lastSeq := recoverySeq
      start := if result.resyncRequested then 1 else state.start
      delivered := if result.resyncRequested then [] else state.delivered }.requestReplayFrom
      (recoverySeq + 1)

end Reception

/-- What the two threads and the network do next. -/
inductive ReceptionAction (Event : Type) where
  | connect
  | helloOk (hello : HelloOk)
  | message (frame : ReceiverFrame Event)
  | replayComplete (headSeq epoch : Nat)
  | drop
  | requestReplay (seqStart : Nat)
  | drain (maxMessages : Option Nat)
  | finish (applySucceeds : Bool)

namespace Reception

/-- One step; `none` when the action cannot happen in this state. -/
def step? (state : Reception Event) : ReceptionAction Event → Option (Reception Event)
  | .connect =>
      match state.connection with
      | some _ => none
      | none =>
          let (hello, thread) := state.thread.beginConnection
          some { state with
            thread := thread
            connection := some
              { generation := thread.inbox.generation, syncFrom := hello.syncFrom }
            completedAt := none }
  | .helloOk hello =>
      match state.connection with
      | none => none
      | some connection =>
          if state.thread.connected then none
          else
            let (kept, thread) := state.thread.handleHelloOk hello connection.syncFrom
              connection.generation
            some ((state.observe thread .resync).continueIf kept)
  | .message frame =>
      match state.connection with
      | none => none
      | some connection =>
          if state.thread.connected then
            let (kept, thread) := state.thread.handleDataMessage frame connection.generation
            let state := { state with connection := some (connection.receive frame.kind) }
            some ((state.observe thread frame).continueIf kept)
          else none
  | .replayComplete headSeq epoch =>
      match state.connection with
      | none => none
      | some connection =>
          if state.thread.connected && connection.replaying then
            let (kept, thread) :=
              state.thread.handleReplayComplete connection.generation headSeq epoch
            some ({ state with
              thread := thread
              connection := some { connection with replaying := false }
              completedAt :=
                if kept then some state.accepted.length else state.completedAt }.continueIf kept)
          else none
  | .drop => if state.connection.isSome then some state.drop else none
  | .requestReplay seqStart =>
      if seqStart < 1 then none else some (state.requestReplayFrom seqStart)
  | .drain maxMessages =>
      match state.batch with
      | some _ => none
      | none =>
          let (batch, inbox) := state.thread.inbox.drain maxMessages
          let state := { state with thread := { state.thread with inbox := inbox } }
          match batch with
          | [] => some { state with thread := state.thread.markReplayApplied }
          | batch => some { state with batch := some batch, batchCurrent := true }
  | .finish applySucceeds =>
      match state.batch with
      | none => none
      | some batch => some (state.finishBatch batch applySucceeds)

/-- Take the actions one after another; `none` when one of them cannot happen. -/
def run? : Reception Event → List (ReceptionAction Event) → Option (Reception Event)
  | state, [] => some state
  | state, action :: actions => (state.step? action).bind fun next => run? next actions

end Reception

end UsdConnect
