/-
Purpose: How records reach receivers: commits, the broadcast thread, the replay of an admitted
  receiver and the resync after a rewrite.
Trusted boundary: a record is part of the log when its commit returns; the realtime queue is
  drained before the log is read or replaced, so its delay is not visible here.
Main exports: ReceiverConnection, BroadcastState, BroadcastAction, BroadcastState.step?
-/
import UsdConnect.Protocol.ReplayStream

namespace UsdConnect

variable {Handler Record : Type} [DecidableEq Handler]

/-- One receiver's socket.  `pending` are the frames the holder of the send lock has still to put
on it; the lock is free when there are none.  `start` is a specification variable: the history at
admission and the first sequence the receiver asked for, or zero when it is reset. -/
structure ReceiverConnection (Record : Type) where
  start : Position
  socket : List (ReplayFrame Record) := []
  pending : List (ReplayFrame Record) := []

/-- Log, transaction barrier, broadcast queue and receivers.  `unpublished` are the rows of the
commit that holds the commit scope: persisted and not yet enqueued, while its requests hold the
shared barrier.  `resyncing` are the receivers a rewrite in the exclusive window has still to
resync.  `past` is a specification variable: the final log of every replaced history. -/
structure BroadcastState (Handler Record : Type) where
  serverInstance : String
  epoch : Nat := 0
  log : List Record := []
  unpublished : List (Nat × Record) := []
  queue : List (List (ReplayFrame Record) × List Handler) := []
  receivers : List Handler := []
  resyncing : List Handler := []
  connections : Handler → Option (ReceiverConnection Record) := fun _ => none
  past : Nat → List Record := fun _ => []

namespace BroadcastState

/-- The records of every history so far. -/
def histories (state : BroadcastState Handler Record) (epoch : Nat) : List Record :=
  if epoch = state.epoch then state.log else state.past epoch

/-- Neither a commit nor a rewrite is under way: the exclusive barrier can be taken. -/
def exclusive (state : BroadcastState Handler Record) : Bool :=
  state.unpublished.isEmpty && state.resyncing.isEmpty

/-- `_enqueue_broadcast`: the targets are the receivers of this moment. -/
def enqueueBroadcast (state : BroadcastState Handler Record) (frames : List (ReplayFrame Record)) :
    BroadcastState Handler Record :=
  match state.receivers with
  | [] => state
  | targets => { state with queue := state.queue ++ [(frames, targets)] }

def setConnection (state : BroadcastState Handler Record) (handler : Handler)
    (connection : ReceiverConnection Record) : BroadcastState Handler Record :=
  { state with connections := Function.update state.connections handler (some connection) }

/-- Give a receiver whose send lock is free these frames to put on its socket. -/
def holdSendLock (state : BroadcastState Handler Record) (handler : Handler)
    (frames : List (ReplayFrame Record)) : Option (BroadcastState Handler Record) :=
  match state.connections handler with
  | none => none
  | some connection =>
      if connection.pending.isEmpty then
        some (state.setConnection handler { connection with pending := frames })
      else none

/-- Persist the records of a commit inside the commit scope. -/
def persist (state : BroadcastState Handler Record) (records : List Record) :
    BroadcastState Handler Record :=
  { state with
    log := state.log ++ records
    unpublished := numberFrom (state.log.length + 1) records }

/-- Enqueue the first rows of the commit that are not yet published. -/
def publish (state : BroadcastState Handler Record) (count : Nat) : BroadcastState Handler Record :=
  { state with unpublished := state.unpublished.drop count }.enqueueBroadcast
    (rowFrames (state.unpublished.take count))

/-- `receiver_replay_window` and the replay that holds the receiver's send lock afterwards. -/
def join (state : BroadcastState Handler Record) (handler : Handler) (syncFrom : Int)
    (claim : Option ReplayClaim) : BroadcastState Handler Record :=
  { state with receivers := state.receivers ++ [handler] }.setConnection handler
    { start :=
        admissionStart state.serverInstance state.epoch state.log.length syncFrom claim
      pending :=
        admissionFrames state.serverInstance state.epoch state.log syncFrom claim }

/-- A receiver that disconnected or failed a send is discarded; its handler does not come back. -/
def discard (state : BroadcastState Handler Record) (handler : Handler) :
    BroadcastState Handler Record :=
  { state with receivers := state.receivers.filter (· ≠ handler) }

/-- The durable replacement of the history. -/
def replaceHistory (state : BroadcastState Handler Record) (records : List Record) :
    BroadcastState Handler Record :=
  { state with
    epoch := state.epoch + 1
    log := records
    past := Function.update state.past state.epoch state.log }

end BroadcastState

/-- What the server's threads do next.  `rewrite` is a compaction or a purge, whose resync the
`resync` steps perform one receiver at a time; `snapshot` enqueues its resync instead.  `deliver`
is the broadcast thread taking the next target of the first queue item, `send` one frame of the
lock holder reaching the socket. -/
inductive BroadcastAction (Handler Record : Type) where
  | persist (records : List Record)
  | publish (count : Nat)
  | deliver
  | send (handler : Handler)
  | join (handler : Handler) (syncFrom : Int) (claim : Option ReplayClaim)
  | leave (handler : Handler)
  | rewrite (records : List Record)
  | resync
  | snapshot (records : List Record)

namespace BroadcastState

/-- One step; `none` when the action cannot happen in this state. -/
def step? (state : BroadcastState Handler Record) :
    BroadcastAction Handler Record → Option (BroadcastState Handler Record)
  | .persist records =>
      if state.exclusive then some (state.persist records) else none
  | .publish count =>
      if state.unpublished.isEmpty then none else some (state.publish count)
  | .deliver =>
      match state.queue with
      | [] => none
      | (_, []) :: rest => some { state with queue := rest }
      | (frames, handler :: targets) :: rest =>
          { state with queue := (frames, targets) :: rest }.holdSendLock handler frames
  | .send handler =>
      match state.connections handler with
      | none => none
      | some connection =>
          match connection.pending with
          | [] => none
          | frame :: frames =>
              some (state.setConnection handler
                { connection with socket := connection.socket ++ [frame], pending := frames })
  | .join handler syncFrom claim =>
      if state.exclusive && (state.connections handler).isNone then
        some (state.join handler syncFrom claim)
      else none
  | .leave handler => some (state.discard handler)
  | .rewrite records =>
      if state.exclusive && state.queue.isEmpty then
        some { state.replaceHistory records with resyncing := state.receivers }
      else none
  | .resync =>
      match state.resyncing with
      | [] => none
      | handler :: handlers =>
          { state with resyncing := handlers }.holdSendLock handler
            (resyncFrames state.epoch state.log)
  | .snapshot records =>
      if state.exclusive && state.queue.isEmpty then
        some ((state.replaceHistory records).enqueueBroadcast
          (resyncFrames (state.epoch + 1) records))
      else none

/-- Take the actions one after another; `none` when one of them cannot happen. -/
def run? : BroadcastState Handler Record → List (BroadcastAction Handler Record) →
    Option (BroadcastState Handler Record)
  | state, [] => some state
  | state, action :: actions => (state.step? action).bind fun next => run? next actions

end BroadcastState

end UsdConnect
