/-
Purpose: Playback leadership and playhead state, and the connections whose messages claim, drive
  and release it. Every operation runs under the playback lock, so an interleaving of the handlers
  is a sequence of them.
Trusted boundary: token verification at the handshake, beyond the refusal of a missing id
Main exports: PlaybackState.claim, PlaybackState.applyControl, PlaybackState.release
-/
import UsdConnect.Lib.FloatFormat
import UsdConnect.Lib.Machine

namespace UsdConnect

/-- The shared playback state. -/
structure PlaybackState where
  time : FloatValue
  playing : Bool
  rate : FloatValue
  leaderClientId : Option String
  deriving DecidableEq, Repr

/-- A snapshot in the protocol's shape: a vacant role is the empty id. -/
structure PlaybackSnapshot where
  time : FloatValue
  playing : Bool
  rate : FloatValue
  leaderClientId : String
  deriving DecidableEq, Repr

/-- Why a control was refused. -/
inductive ControlRejection where
  | notLeader (leader : String)
  | unknownAction (action : String)
  deriving DecidableEq, Repr

/-- The text of a refusal; `repr` is Python's representation of a string. -/
def ControlRejection.text (repr : String → String) : ControlRejection → String
  | .notLeader leader => "not the playback leader (current: " ++ leader ++ ")"
  | .unknownAction action => "unknown playback action " ++ repr action

namespace PlaybackState

def initial : PlaybackState where
  time := .finite 0
  playing := false
  rate := .finite 1
  leaderClientId := none

/-- `leader_client_id or ""`. -/
def leader (state : PlaybackState) : String :=
  state.leaderClientId.getD ""

def snapshot (state : PlaybackState) : PlaybackSnapshot where
  time := state.time
  playing := state.playing
  rate := state.rate
  leaderClientId := state.leader

/-- Grant a vacant role or renew the current leader's claim. The returned leader also describes a
rejected claim. -/
def claim (state : PlaybackState) (clientId : String) (initialTime : Option FloatValue) :
    (Bool × String) × PlaybackState :=
  let current := state.leader
  if clientId = "" then
    ((false, current), state)
  else if current ≠ "" ∧ current ≠ clientId then
    ((false, current), state)
  else
    ((true, clientId),
      { state with leaderClientId := some clientId, time := initialTime.getD state.time })

/-- What a known action makes of the playhead. -/
def drive (state : PlaybackState) (action : String) (time rate : FloatValue) :
    Option PlaybackState :=
  if action = "play" then some { state with playing := true }
  else if action = "pause" then some { state with playing := false }
  else if action = "stop" then some { state with playing := false, time := .finite 0 }
  else if action = "set_time" then some { state with time }
  else if action = "set_rate" then some { state with rate }
  else none

/-- Apply a leader's command and return its resulting state or rejection. Both come with the leader
observed under the same lock. -/
def applyControl (state : PlaybackState) (clientId action : String) (time rate : FloatValue) :
    (Except ControlRejection PlaybackSnapshot × String) × PlaybackState :=
  let leader := state.leader
  if leader ≠ clientId then
    ((.error (.notLeader leader), leader), state)
  else
    match state.drive action time rate with
    | none => ((.error (.unknownAction action), leader), state)
    | some driven => ((.ok driven.snapshot, leader), driven)

/-- Release leadership on disconnect, retaining the current playhead. -/
def release (state : PlaybackState) (clientId : String) : Bool × PlaybackState :=
  if clientId = "" then (false, state)
  else if state.leaderClientId = some clientId then (true, { state with leaderClientId := none })
  else (false, state)

end PlaybackState

/-! ### Connections -/

inductive Role where
  | emitter
  | receiver
  deriving DecidableEq, Repr

/-- A client id as the hello carries it: an empty one is left out. -/
def decodedClientId (raw : String) : Option String :=
  if raw = "" then none else some raw

/-- The ids that the handshake admits. An emitter needs one, and so does everyone when tokens are
required. -/
def admitsClientId (requireToken : Bool) (role : Role) (clientId : Option String) : Bool :=
  match clientId with
  | some _ => true
  | none => role == .receiver && !requireToken

abbrev ConnectionId := Nat

/-- The playback state and the client ids of the open connections. -/
structure PlaybackServer where
  requireToken : Bool
  playback : PlaybackState
  connections : ConnectionId → Option (Option String)

/-- What reaches the server, in the order of the playback lock. A failed send releases the role and
leaves the handler to notice the end of its connection by itself. -/
inductive PlaybackAction where
  | hello (connection : ConnectionId) (role : Role) (clientId : String)
  | claim (connection : ConnectionId) (time : Option FloatValue)
  | control (connection : ConnectionId) (action : String) (time rate : Option FloatValue)
  | failedSend (connection : ConnectionId)
  | disconnect (connection : ConnectionId)
  deriving DecidableEq, Repr

/-- What the server decided, beside the id it decided about. -/
inductive PlaybackOutcome where
  | admitted
  | claimed (clientId : String) (granted : Bool) (leader : String)
  | controlled (clientId : String) (result : Except ControlRejection PlaybackSnapshot)
      (leader : String)
  | released (clientId : String) (wasLeader : Bool)

namespace PlaybackServer

def initial (requireToken : Bool) : PlaybackServer where
  requireToken
  playback := .initial
  connections _ := none

/-- The id a handler passes on: `self._client_id or ""`. -/
def clientId (server : PlaybackServer) (connection : ConnectionId) : Option String :=
  (server.connections connection).map fun id => id.getD ""

/-- One message or event, with its outcome; `none` when it cannot happen. -/
def perform (server : PlaybackServer) : PlaybackAction → Option (PlaybackOutcome × PlaybackServer)
  | .hello connection role raw =>
      let clientId := decodedClientId raw
      if server.connections connection = none ∧
          admitsClientId server.requireToken role clientId = true then
        some (.admitted,
          { server with connections := Function.update server.connections connection (some clientId) })
      else none
  | .claim connection time =>
      (server.clientId connection).map fun clientId =>
        let (reply, playback) := server.playback.claim clientId time
        (.claimed clientId reply.1 reply.2, { server with playback })
  | .control connection action time rate =>
      (server.clientId connection).map fun clientId =>
        let (reply, playback) := server.playback.applyControl clientId action
          (time.getD (.finite 0)) (rate.getD (.finite 1))
        (.controlled clientId reply.1 reply.2, { server with playback })
  | .failedSend connection =>
      (server.clientId connection).map fun clientId =>
        let (wasLeader, playback) := server.playback.release clientId
        (.released clientId wasLeader, { server with playback })
  | .disconnect connection =>
      (server.clientId connection).map fun clientId =>
        let (wasLeader, playback) := server.playback.release clientId
        (.released clientId wasLeader,
          { server with
            playback
            connections := Function.update server.connections connection none })

def step (server : PlaybackServer) (action : PlaybackAction) : Option PlaybackServer :=
  (server.perform action).map Prod.snd

/-- The clients who were told that they lead and have not been released since, latest first. -/
def leading (server : PlaybackServer) : List PlaybackAction → List String → List String
  | [], leaders => leaders
  | action :: actions, leaders =>
      match server.perform action with
      | none => leaders
      | some (.claimed clientId true _, next) =>
          next.leading actions (if clientId ∈ leaders then leaders else clientId :: leaders)
      | some (.released clientId true, next) =>
          next.leading actions (leaders.filter (· ≠ clientId))
      | some (_, next) => next.leading actions leaders

end PlaybackServer

end UsdConnect
