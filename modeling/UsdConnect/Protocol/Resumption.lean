/-
Purpose: The two receiver implementations at the end of a replay connection, with every connect,
  disconnect, replay request, queue state and server step in between.
Trusted boundary: see the imported modules.
Main exports: ReceiverResumption, ResumptionAction, NativeResumption, NativeAction
-/
import UsdConnect.Client.NativeReceiver
import UsdConnect.Lib.Machine
import UsdConnect.Protocol.ReplayNetwork

namespace UsdConnect

variable {Handler Record : Type} [DecidableEq Handler]

/-! ### The receiver thread -/

/-- `held` is a specification variable: the record received at each sequence since the last reset,
less what replay requests discarded. -/
structure ReceiverResumption (Handler Record : Type) where
  network : ReplayNetwork Handler Record
  thread : ReceiverThread Record
  held : Nat → Option Record

inductive ResumptionAction (Handler Record : Type) where
  | network (action : NetworkAction Handler Record)
  | connect
  | readHello
  | readFrame
  | drop
  | requestReplay (seqStart : Nat)
  | drain (maxMessages : Option Nat)
  | markReplayApplied

/-- The inbox message of a frame of the stream. -/
def ReplayFrame.queued : ReplayFrame Record → ReceiverFrame Record
  | .event seq record => .event seq record
  | .resync _ => .resync
  | .replayComplete _ _ => .other

namespace ReceiverResumption

/-- A thread created for a cursor, with whatever records stand before it. -/
def create (server : BroadcastState Handler Record) (syncFrom maxQueue : Nat)
    (held : Nat → Option Record) : ReceiverResumption Handler Record :=
  { network := { server := server }
    thread := .create syncFrom maxQueue false
    held := held }

/-- What the receiver holds after the inbox has been offered a message. -/
def receive (held : Nat → Option Record) (thread : ReceiverThread Record)
    (frame : ReceiverFrame Record) (generation : Nat) : Nat → Option Record :=
  if (thread.inbox.accept generation frame.kind frame.sequence frame).1 = .accepted then
    match frame with
    | .event seq record => Function.update held seq (some record)
    | .resync => fun _ => none
    | _ => held
  else held

/-- The end of the current connection. -/
def drop (state : ReceiverResumption Handler Record) : ReceiverResumption Handler Record :=
  { state with
    network := { state.network with link := none }
    thread := state.thread.disconnect }

/-- `request_replay_from`: what was queued behind the cursor is discarded. -/
def requestReplay (state : ReceiverResumption Handler Record) (seqStart : Nat) :
    ReceiverResumption Handler Record :=
  { state with
    thread := state.thread.requestReplayFrom seqStart
    held := fun seq => if seq < seqStart then state.held seq else none }

/-- Open a connection and send the hello. -/
def connect (state : ReceiverResumption Handler Record) : ReceiverResumption Handler Record :=
  let (hello, thread) := state.thread.beginConnection
  { state with
    network := state.network.connect thread.inbox.generation hello state.held
    thread := thread }

/-- The handler of a message has run; `false` ends the connection. -/
def handled (state : ReceiverResumption Handler Record) (link : ReplayLink Handler Record)
    (held : Nat → Option Record) (outcome : Bool × ReceiverThread Record) :
    ReceiverResumption Handler Record :=
  let state :=
    { state with
      network := { state.network with link := some link }
      thread := outcome.2
      held := held }
  if outcome.1 then state else state.drop

/-- Read the answer to the hello. -/
def readHello (state : ReceiverResumption Handler Record) (link : ReplayLink Handler Record)
    (admission : Admission Handler Record) : ReceiverResumption Handler Record :=
  let held :=
    if state.thread.resetOnHello then receive state.held state.thread .resync link.generation
    else state.held
  state.handled { link with answered := true } held
    (state.thread.handleHelloOk (link.helloOk admission) link.hello.syncFrom link.generation)

/-- Read the next frame of the stream. -/
def readFrame (state : ReceiverResumption Handler Record) (link : ReplayLink Handler Record)
    (frame : ReplayFrame Record) : ReceiverResumption Handler Record :=
  let link := { link with read := link.read + 1 }
  match frame with
  | .replayComplete headSeq epoch =>
      state.handled link state.held
        (state.thread.handleReplayComplete link.generation headSeq epoch)
  | frame =>
      state.handled link (receive state.held state.thread frame.queued link.generation)
        (state.thread.handleDataMessage frame.queued link.generation)

/-- One step; `none` when the action cannot happen in this state. -/
def step? (state : ReceiverResumption Handler Record) :
    ResumptionAction Handler Record → Option (ReceiverResumption Handler Record)
  | .network action => (state.network.step? action).map fun network => { state with network }
  | .connect => if state.network.link.isNone then some state.connect else none
  | .readHello =>
      match state.network.link with
      | none => none
      | some link =>
          match link.admission with
          | none => none
          | some admission =>
              if link.answered then none else some (state.readHello link admission)
  | .readFrame =>
      match state.network.link with
      | none => none
      | some link =>
          match link.admission with
          | none => none
          | some admission =>
              if link.answered then
                (admission.socket[link.read]?).map fun frame => state.readFrame link frame
              else none
  | .drop => some state.drop
  | .requestReplay seqStart =>
      if seqStart < 1 then none else some (state.requestReplay seqStart)
  | .drain maxMessages =>
      some { state with
        thread := { state.thread with inbox := (state.thread.inbox.drain maxMessages).2 } }
  | .markReplayApplied => some { state with thread := state.thread.markReplayApplied }

def run? (state : ReceiverResumption Handler Record)
    (actions : List (ResumptionAction Handler Record)) :
    Option (ReceiverResumption Handler Record) :=
  Machine.run step? state actions

end ReceiverResumption

/-! ### The native receiver -/

/-- `held` is a specification variable: the record applied at each sequence since the last
reset. -/
structure NativeResumption (Handler Record : Type) where
  network : ReplayNetwork Handler Record
  client : NativeReceiver Record
  held : Nat → Option Record

inductive NativeAction (Handler Record : Type) where
  | network (action : NetworkAction Handler Record)
  | failedConnection
  | connect
  | readHello
  | readFrame
  | drop
  | requestReplay
  | consume (applySucceeds : Bool)
  | markReplayApplied

namespace NativeResumption

/-- A receiver created behind a cursor, with whatever records stand before it. -/
def create (server : BroadcastState Handler Record) (initialLastSeq maxFrames : Nat)
    (held : Nat → Option Record) : NativeResumption Handler Record :=
  { network := { server := server }
    client := .create initialLastSeq maxFrames
    held := held }

/-- What the stage holds after a frame has been taken. -/
def change (held : Nat → Option Record) : StageChange Record → Nat → Option Record
  | .unchanged => held
  | .reset => fun _ => none
  | .applied seq record => Function.update held seq (some record)

/-- The end of a connection, in the handshake or in the receive loop. -/
def drop (state : NativeResumption Handler Record) (link : ReplayLink Handler Record) :
    NativeResumption Handler Record :=
  { state with
    network := { state.network with link := none }
    client :=
      if link.answered then state.client.disconnect link.generation
      else state.client.abandon link.generation }

def connect (state : NativeResumption Handler Record) : NativeResumption Handler Record :=
  let (hello, client) := state.client.beginConnection
  { state with
    network := state.network.connect client.session.generation hello state.held
    client := client }

def readHello (state : NativeResumption Handler Record) (link : ReplayLink Handler Record)
    (admission : Admission Handler Record) : NativeResumption Handler Record :=
  { state with
    network := { state.network with link := some { link with answered := true } }
    client :=
      state.client.handleHelloOk (link.helloOk admission) link.hello.syncFrom link.generation }

def readFrame (state : NativeResumption Handler Record) (link : ReplayLink Handler Record)
    (frame : ReplayFrame Record) : NativeResumption Handler Record :=
  let link := { link with read := link.read + 1 }
  let (kept, client) := state.client.handleFrame link.generation frame
  let state :=
    { state with network := { state.network with link := some link }, client := client }
  if kept then state else state.drop link

/-- One step; `none` when the action cannot happen in this state. -/
def step? (state : NativeResumption Handler Record) :
    NativeAction Handler Record → Option (NativeResumption Handler Record)
  | .network action => (state.network.step? action).map fun network => { state with network }
  | .failedConnection =>
      if state.network.link.isNone then
        some { state with client := state.client.failedConnection }
      else none
  | .connect => if state.network.link.isNone then some state.connect else none
  | .readHello =>
      match state.network.link with
      | none => none
      | some link =>
          match link.admission with
          | none => none
          | some admission =>
              if link.answered then none else some (state.readHello link admission)
  | .readFrame =>
      match state.network.link with
      | none => none
      | some link =>
          match link.admission with
          | none => none
          | some admission =>
              if link.answered then
                (admission.socket[link.read]?).map fun frame => state.readFrame link frame
              else none
  | .drop => state.network.link.map fun link => state.drop link
  | .requestReplay => some { state with client := state.client.requestReplayFromApplied }
  | .consume applySucceeds =>
      (state.client.consume applySucceeds).map fun outcome =>
        { state with client := outcome.2, held := change state.held outcome.1 }
  | .markReplayApplied => some { state with client := state.client.markReplayApplied }

def run? (state : NativeResumption Handler Record)
    (actions : List (NativeAction Handler Record)) : Option (NativeResumption Handler Record) :=
  Machine.run step? state actions

end NativeResumption

end UsdConnect
