/-
Purpose: The receiver thread in front of the inbox: the hello it sends, the handshake answer, the
  messages of the replay stream, and the replay identity it assembles from them.
Trusted boundary: what runs under the thread's replay lock is one atomic step.  Token, metadata and
  playback callbacks and the negotiation of layer modes do not touch the replay state and are left
  out; a rejected hello ends the connection.
Main exports: ReplayIdentity, ReceiverFrame, ReceiverThread, ReceiverHello, HelloOk
-/
import UsdConnect.Client.ReceiverSession
import UsdConnect.Protocol.ReplayStream

namespace UsdConnect

/-- The server instance and the epoch of one append-only history. -/
structure ReplayIdentity where
  serverInstance : String
  epoch : Nat
deriving DecidableEq, Repr

/-- A queued message.  The connection thread reads only its kind and sequence; `malformed` is one
whose body does not decode. -/
inductive ReceiverFrame (Event : Type) where
  | event (sequence : Nat) (event : Event)
  | resync
  | other
  | malformed (kind : ReceiverMessageKind) (sequence : Nat)
deriving DecidableEq, Repr

namespace ReceiverFrame

variable {Event : Type}

def kind : ReceiverFrame Event → ReceiverMessageKind
  | .event _ _ => .event
  | .resync => .resync
  | .other => .other
  | .malformed kind _ => kind

def sequence : ReceiverFrame Event → Nat
  | .event sequence _ => sequence
  | .resync => 0
  | .other => 0
  | .malformed _ sequence => sequence

end ReceiverFrame

/-- What the receiver asks the server for. -/
structure ReceiverHello where
  syncFrom : Nat
  claim : Option ReplayClaim
deriving DecidableEq, Repr

/-- The replay fields of the server's answer. -/
structure HelloOk where
  serverInstance : String
  replayIdentity : Bool
  replayEpoch : Option Nat
deriving DecidableEq, Repr

structure ReceiverThread (Event : Type) where
  inbox : OrderedReceiverSession (ReceiverFrame Event)
  connected : Bool := false
  synchronizedEvent : Bool := false
  receivedReplayIdentity : Option ReplayIdentity := none
  initialReplayIdentity : Option ReplayIdentity := none
  connectionServerInstance : String := ""
  replayIdentitySupported : Bool := false
  helloSent : Bool := false
  prefixValidationRequested : Bool := false
  connectionPrefixProven : Bool := false
  resetOnHello : Bool := false
  replayHeadSeq : Nat := 0
  replayEpoch : Nat := 0
  serverInstance : String := ""

namespace ReceiverThread

variable {Event : Type}

def create (syncFrom maxQueue : Nat) (requireContiguous : Bool) : ReceiverThread Event :=
  { inbox := .create syncFrom maxQueue requireContiguous }

/-- The `synchronized` property. -/
def synchronized (thread : ReceiverThread Event) : Bool :=
  thread.connected && thread.synchronizedEvent

/-- The hello carries a claim from the second one on; an unknown prefix is claimed as an empty
instance. -/
def replayClaim (thread : ReceiverThread Event) : Option ReplayClaim :=
  if thread.helloSent then
    some
      { serverInstance := (thread.receivedReplayIdentity.map (·.serverInstance)).getD ""
        epoch := thread.receivedReplayIdentity.map (·.epoch) }
  else none

/-- `_connect_and_recv` up to the hello. -/
def beginConnection (thread : ReceiverThread Event) : ReceiverHello × ReceiverThread Event :=
  let (syncFrom, inbox) := thread.inbox.beginConnection
  ({ syncFrom := syncFrom, claim := thread.replayClaim },
    { thread with
      inbox := inbox
      synchronizedEvent := false
      prefixValidationRequested := thread.helloSent
      helloSent := true })

/-- An identity only when the peer supplied all negotiated fields. -/
def connectionReplayIdentity (thread : ReceiverThread Event) (epoch : Option Nat) :
    Option ReplayIdentity :=
  if !thread.replayIdentitySupported || thread.connectionServerInstance == "" then none
  else epoch.map fun epoch =>
    { serverInstance := thread.connectionServerInstance, epoch := epoch }

/-- Discard what is queued and reconnect; a replay of everything resets the consumer first. -/
def requestReplayFrom (thread : ReceiverThread Event) (seqStart : Nat) : ReceiverThread Event :=
  { thread with
    inbox := (thread.inbox.requestReplayFrom seqStart).2
    synchronizedEvent := false
    receivedReplayIdentity := none
    initialReplayIdentity := none
    resetOnHello := thread.resetOnHello || seqStart == 1 }

/-- What an accepted reset does to the identities. -/
def acceptResync (thread : ReceiverThread Event) : ReceiverThread Event :=
  { thread with
    synchronizedEvent := false
    receivedReplayIdentity := thread.initialReplayIdentity
    initialReplayIdentity := none
    connectionPrefixProven := true }

/-- `_handle_data_message`; `false` leaves the connection. -/
def handleDataMessage (thread : ReceiverThread Event) (frame : ReceiverFrame Event)
    (connectionGeneration : Nat) : Bool × ReceiverThread Event :=
  let (result, inbox) :=
    thread.inbox.accept connectionGeneration frame.kind frame.sequence frame
  let thread := { thread with inbox := inbox }
  match result with
  | .accepted => (true, if frame.kind = .resync then thread.acceptResync else thread)
  | .duplicate => (true, thread)
  | .sequenceGap =>
      (false, thread.requestReplayFrom (thread.inbox.lastAppliedSequence + 1))
  | .staleGeneration => (false, thread)
  | .queueFull => (false, thread)
  | .invalidSequence => (false, thread)

/-- The `ReplayComplete` branch of `_handle_control_message`. -/
def handleReplayComplete (thread : ReceiverThread Event) (connectionGeneration headSeq epoch : Nat) :
    Bool × ReceiverThread Event :=
  let (result, inbox) := thread.inbox.acceptReplayComplete connectionGeneration headSeq epoch
  let thread := { thread with inbox := inbox }
  match result with
  | .accepted =>
      (true, { thread with
        initialReplayIdentity := none
        receivedReplayIdentity :=
          if thread.connectionPrefixProven then thread.connectionReplayIdentity (some epoch)
          else none })
  | _ => (false, thread)

/-- A reset that the consumer still owes itself is queued before anything of the new stream. -/
def applyResetOnHello (thread : ReceiverThread Event) (connectionGeneration : Nat) :
    Bool × ReceiverThread Event :=
  if thread.resetOnHello then
    let (kept, thread) := thread.handleDataMessage .resync connectionGeneration
    if kept then (true, { thread with resetOnHello := false }) else (false, thread)
  else (true, thread)

/-- `_handle_handshake_message` for an accepted hello. -/
def handleHelloOk (thread : ReceiverThread Event) (hello : HelloOk)
    (syncFrom connectionGeneration : Nat) : Bool × ReceiverThread Event :=
  let thread := { thread with
    connectionServerInstance := hello.serverInstance
    replayIdentitySupported := hello.replayIdentity
    connectionPrefixProven := syncFrom == 1 || thread.prefixValidationRequested }
  if connectionGeneration ≠ thread.inbox.generation then (false, thread)
  else
    let identity := thread.connectionReplayIdentity hello.replayEpoch
    let thread := { thread with
      initialReplayIdentity := identity
      receivedReplayIdentity :=
        if identity = none then none else thread.receivedReplayIdentity }
    match thread.applyResetOnHello connectionGeneration with
    | (false, thread) => (false, thread)
    | (true, thread) =>
        let prefixMatches :=
          thread.prefixValidationRequested && thread.receivedReplayIdentity == identity
        (true, { thread with
          receivedReplayIdentity :=
            if identity.isSome && (syncFrom == 1 || prefixMatches) then identity
            else thread.receivedReplayIdentity
          connected := true })

/-- `connected = False` at the end of every connection. -/
def disconnect (thread : ReceiverThread Event) : ReceiverThread Event :=
  { thread with
    connected := false
    synchronizedEvent := false
    inbox := (thread.inbox.disconnect thread.inbox.generation).clearOverflow }

/-- Publish that the replay has been applied. -/
def markReplayApplied (thread : ReceiverThread Event) : ReceiverThread Event :=
  match thread.inbox.markReplayApplied with
  | (false, _) => thread
  | (true, inbox) =>
      { thread with
        inbox := inbox
        replayHeadSeq := inbox.replayHeadSequence
        replayEpoch := inbox.replayEpoch
        serverInstance := (thread.receivedReplayIdentity.map (·.serverInstance)).getD ""
        synchronizedEvent := true }

end ReceiverThread

end UsdConnect
