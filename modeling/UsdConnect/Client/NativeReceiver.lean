/-
Purpose: The native receiver: `ReceiverReplayIdentity`, the history whose replay has been applied,
  beside a contiguous `OrderedReceiverSession`.
Trusted boundary: callers synchronize the connection thread and the consumer, as the header asks of
  them: each function below is one atomic step, and taking a frame, applying it and advancing the
  applied cursor is one of them.
Main exports: ReceiverReplayIdentity, NativeReceiver
-/
import UsdConnect.Client.Receiver

namespace UsdConnect

/-- Which replay history has actually been applied by a receiver. -/
structure ReceiverReplayIdentity where
  helloSent : Bool := false
  claimIncluded : Bool := false
  connectionPrefixProven : Bool := false
  claimedIdentity : Option ReplayIdentity := none
  connectionIdentity : Option ReplayIdentity := none
  pendingIdentity : Option ReplayIdentity := none
  appliedIdentity : Option ReplayIdentity := none
deriving DecidableEq, Repr

/-- `ReplayPrefixIdentity`: an empty instance stands for an unknown prefix. -/
def ReplayIdentity.prefixClaim : Option ReplayIdentity → ReplayClaim
  | some identity =>
      if identity.serverInstance = "" then { serverInstance := "", epoch := none }
      else { serverInstance := identity.serverInstance, epoch := some identity.epoch }
  | none => { serverInstance := "", epoch := none }

namespace ReceiverReplayIdentity

/-- The claim of a hello; the first hello carries none. -/
def beginConnection (identity : ReceiverReplayIdentity) :
    Option ReplayClaim × ReceiverReplayIdentity :=
  (if identity.helloSent then some (ReplayIdentity.prefixClaim identity.appliedIdentity) else none,
    { identity with
      pendingIdentity := none
      claimedIdentity := identity.appliedIdentity
      helloSent := true
      claimIncluded := identity.helloSent })

/-- The identity a hello negotiated, when it has every field. -/
def helloIdentity (hello : HelloOk) : Option ReplayIdentity :=
  if hello.replayIdentity && hello.serverInstance != "" then
    hello.replayEpoch.map fun epoch => { serverInstance := hello.serverInstance, epoch := epoch }
  else none

def acceptHello (identity : ReceiverReplayIdentity) (syncFrom : Nat) (hello : HelloOk) :
    ReceiverReplayIdentity :=
  { identity with
    connectionIdentity := helloIdentity hello
    connectionPrefixProven := syncFrom == 1 ||
      (identity.claimIncluded && identity.claimedIdentity.isSome &&
        identity.claimedIdentity == helloIdentity hello) }

def acceptResync (identity : ReceiverReplayIdentity) : ReceiverReplayIdentity :=
  { identity with connectionPrefixProven := true, pendingIdentity := none }

def acceptReplayComplete (identity : ReceiverReplayIdentity) (epoch : Nat) :
    ReceiverReplayIdentity :=
  { identity with
    pendingIdentity :=
      if identity.connectionPrefixProven then
        identity.connectionIdentity.map fun connection => { connection with epoch := epoch }
      else none }

def markReplayApplied (identity : ReceiverReplayIdentity) : ReceiverReplayIdentity :=
  { identity with appliedIdentity := identity.pendingIdentity, pendingIdentity := none }

end ReceiverReplayIdentity

/-- Session, identity and the generation whose hello was accepted last. -/
structure NativeReceiver (Record : Type) where
  session : OrderedReceiverSession (ReplayFrame Record)
  identity : ReceiverReplayIdentity := {}
  activeGeneration : Nat := 0

/-- What taking one frame did to the stage: nothing, a reset, or a record that was applied. -/
inductive StageChange (Record : Type) where
  | unchanged
  | reset
  | applied (seq : Nat) (record : Record)

namespace NativeReceiver

variable {Record : Type}

def create (initialLastSeq maxFrames : Nat) : NativeReceiver Record :=
  { session := .create (initialLastSeq + 1) maxFrames true }

/-- A connection attempt up to the hello. -/
def beginConnection (client : NativeReceiver Record) : ReceiverHello × NativeReceiver Record :=
  let (syncFrom, session) := client.session.beginConnection
  let (claim, identity) := client.identity.beginConnection
  ({ syncFrom := syncFrom, claim := claim },
    { client with session := session, identity := identity })

/-- A connection attempt that ends before the hello. -/
def failedConnection (client : NativeReceiver Record) : NativeReceiver Record :=
  let (_, session) := client.session.beginConnection
  { client with session := session.disconnect session.generation }

def handleHelloOk (client : NativeReceiver Record) (hello : HelloOk) (syncFrom generation : Nat) :
    NativeReceiver Record :=
  { client with
    identity := client.identity.acceptHello syncFrom hello
    activeGeneration := generation }

/-- `HandleFrame`; `false` leaves the receive loop. -/
def handleFrame (client : NativeReceiver Record) (generation : Nat) (frame : ReplayFrame Record) :
    Bool × NativeReceiver Record :=
  match frame with
  | .event seq _ =>
      let (result, session) := client.session.accept generation .event seq frame
      (result = .accepted || result = .duplicate, { client with session := session })
  | .resync _ =>
      let (result, session) := client.session.accept generation .resync 0 frame
      if result = .accepted then
        (true, { client with session := session, identity := client.identity.acceptResync })
      else (false, { client with session := session })
  | .replayComplete headSeq epoch =>
      let (result, session) := client.session.acceptReplayComplete generation headSeq epoch
      if result = .accepted then
        (true,
          { client with
            session := session
            identity := client.identity.acceptReplayComplete epoch })
      else (false, { client with session := session })

def requestReplayFromApplied (client : NativeReceiver Record) : NativeReceiver Record :=
  { client with
    session := (client.session.requestReplayFrom (client.session.lastAppliedSequence + 1)).2 }

/-- A connection that ends before its hello is answered. -/
def abandon (client : NativeReceiver Record) (generation : Nat) : NativeReceiver Record :=
  { client with session := client.session.disconnect generation }

/-- The end of the receive loop: what is queued is asked for again. -/
def disconnect (client : NativeReceiver Record) (generation : Nat) : NativeReceiver Record :=
  let client := client.abandon generation
  if client.session.generation = generation then client.requestReplayFromApplied else client

/-- One turn of `DrainAndApply`.  `none` when no frame is queued. -/
def consume (client : NativeReceiver Record) (applySucceeds : Bool) :
    Option (StageChange Record × NativeReceiver Record) :=
  match client.session.tryPop with
  | none => none
  | some (.resync _, session) =>
      some (.reset, { client with session := session.resetAppliedProgress })
  | some (.replayComplete _ _, session) => some (.unchanged, { client with session := session })
  | some (.event seq record, session) =>
      let client := { client with session := session }
      if seq ≤ session.lastAppliedSequence then some (.unchanged, client)
      else if seq ≠ session.lastAppliedSequence + 1 then
        some (.unchanged, client.requestReplayFromApplied)
      else if applySucceeds then
        match session.markAppliedThrough client.activeGeneration seq with
        | (true, session) => some (.applied seq record, { client with session := session })
        | (false, _) => some (.applied seq record, client.requestReplayFromApplied)
      else some (.unchanged, client.requestReplayFromApplied)

/-- `MarkReplayApplied`. -/
def markReplayApplied (client : NativeReceiver Record) : NativeReceiver Record :=
  match client.session.tryMarkReplayApplied with
  | (false, _) => client
  | (true, session) =>
      { client with session := session, identity := client.identity.markReplayApplied }

end NativeReceiver

end UsdConnect
