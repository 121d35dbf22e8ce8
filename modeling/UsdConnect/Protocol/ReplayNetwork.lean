/-
Purpose: One receiver's connection to a server that may be replaced: the hello on its way, the
  admission that answers it, and what has arrived since.
Trusted boundary: a restarted server draws an instance name that no earlier server had
  (`uuid.uuid4().hex`).  Frames that were sent before a server stopped may still be read
  afterwards; a receiver whose handler was discarded reads nothing new.
Main exports: Admission, ReplayLink, ReplayNetwork, NetworkAction, ReplayNetwork.step?
-/
import UsdConnect.Client.Receiver
import UsdConnect.Server.Broadcast

namespace UsdConnect

variable {Handler Record : Type} [DecidableEq Handler]

/-- The server's answer to a hello: the handler that serves it, where the replay starts, and the
frames that have arrived. -/
structure Admission (Handler Record : Type) where
  handler : Handler
  start : Position
  socket : List (ReplayFrame Record) := []

/-- A receiver's connection.  `read` counts the frames it has taken.  `held` is a specification
variable: the record the receiver held at each sequence when it sent the hello. -/
structure ReplayLink (Handler Record : Type) where
  serverInstance : String
  generation : Nat
  hello : ReceiverHello
  held : Nat → Option Record
  admission : Option (Admission Handler Record) := none
  answered : Bool := false
  read : Nat := 0

namespace ReplayLink

/-- The `HelloOk` of an admission carries the identity of the window that admitted it. -/
def helloOk (link : ReplayLink Handler Record) (admission : Admission Handler Record) : HelloOk :=
  { serverInstance := link.serverInstance
    replayIdentity := true
    replayEpoch := some admission.start.epoch }

/-- What the server of this connection has put on the socket by now. -/
def observe (server : BroadcastState Handler Record) (link : ReplayLink Handler Record) :
    ReplayLink Handler Record :=
  match link.admission with
  | none => link
  | some admission =>
      if link.serverInstance = server.serverInstance ∧ admission.handler ∈ server.receivers then
        match server.connections admission.handler with
        | none => link
        | some connection =>
            { link with admission := some { admission with socket := connection.socket } }
      else link

end ReplayLink

/-- The current server, the names of the servers before it, and the receiver's connection. -/
structure ReplayNetwork (Handler Record : Type) where
  server : BroadcastState Handler Record
  retired : List String := []
  link : Option (ReplayLink Handler Record) := none

/-- What happens away from the receiver: the server's threads take a step, another server takes
over with whatever log it recovered, or the hello on the connection is answered. -/
inductive NetworkAction (Handler Record : Type) where
  | serve (action : BroadcastAction Handler Record)
  | restart (serverInstance : String) (log : List Record)
  | admission (handler : Handler)

namespace ReplayNetwork

/-- The identity of the server's current history. -/
def current (network : ReplayNetwork Handler Record) : ReplayIdentity :=
  { serverInstance := network.server.serverInstance, epoch := network.server.epoch }

/-- Put a hello on a new connection. -/
def connect (network : ReplayNetwork Handler Record) (generation : Nat) (hello : ReceiverHello)
    (held : Nat → Option Record) : ReplayNetwork Handler Record :=
  { network with
    link := some
      { serverInstance := network.server.serverInstance
        generation := generation
        hello := hello
        held := held } }

/-- The connection with its hello answered. -/
def admitted (network : ReplayNetwork Handler Record) (link : ReplayLink Handler Record)
    (handler : Handler) : ReplayLink Handler Record :=
  { link with
    admission := some
      { handler := handler
        start := admissionStart network.server.serverInstance network.server.epoch
          network.server.log.length link.hello.syncFrom link.hello.claim } }

/-- One step; `none` when the action cannot happen in this state. -/
def step? (network : ReplayNetwork Handler Record) :
    NetworkAction Handler Record → Option (ReplayNetwork Handler Record)
  | .serve action =>
      (network.server.step? action).map fun server =>
        { network with server := server, link := network.link.map (·.observe server) }
  | .restart serverInstance log =>
      if serverInstance = "" ∨ serverInstance ∈ network.server.serverInstance :: network.retired
      then none
      else some { network with
        server := { serverInstance := serverInstance, log := log }
        retired := network.server.serverInstance :: network.retired }
  | .admission handler =>
      match network.link with
      | none => none
      | some link =>
          if link.admission.isNone ∧ link.serverInstance = network.server.serverInstance then
            (network.server.step? (.join handler link.hello.syncFrom link.hello.claim)).map
              fun server =>
                { network with server := server, link := some (network.admitted link handler) }
          else none

end ReplayNetwork

end UsdConnect
