/-
Purpose: The server's collaboration stack with the states it broadcasts and the records it streams,
  and the logical layers of one receiver, which may get any of the states at any time.
Trusted boundary: records and resets arrive once and in order; a stack of one process keeps its
  generation; opinions are cleared on the server together with its history, and a reset announces it
Main exports: StackFrame, contentsOf, LayerStackSync, LayerStackAction, LayerStackSync.step
-/
import UsdConnect.Client.LogicalLayers

namespace UsdConnect

variable {Event : Type}

/-- One frame of the record stream.  The identifier of the layer that a record was authored in is a
specification variable; the wire has its key. -/
inductive StackFrame (Event : Type) where
  | record (identifier : Nat) (layerKey : String) (event : Event)
  | reset
deriving DecidableEq, Repr

/-- Content of a layer after some frames. -/
def contentsOf (frames : List (StackFrame Event)) (identifier : Nat) : List Event :=
  frames.foldl
    (fun content frame =>
      match frame with
      | .record owner _ event => if owner = identifier then content ++ [event] else content
      | .reset => [])
    []

/-- A server and a receiver.  `broadcasts` has the stack as it was at each state message, `delivered`
counts the frames of the stream that the receiver has applied, and `standsFor` is a specification
variable: the server layer for which the receiver created its layer of a key. -/
structure LayerStackSync (Event : Type) where
  generation : String
  stack : CollaborationLayerStack := .initial
  contents : Nat → List Event := fun _ => []
  broadcasts : List CollaborationLayerStack := [.initial]
  stream : List (StackFrame Event) := []
  router : LogicalLayerRouter Event := {}
  delivered : Nat := 0
  standsFor : String → Nat := fun _ => 0

/-- Operations on the server's stack, records authored in it, and deliveries to the receiver. -/
inductive LayerStackAction (Event : Type) where
  | ensure (layerKey label : String)
  | remove (layerKey : String)
  | reorder (order : List String)
  | mute (layerKey : String) (muted : Bool)
  | clear
  | author (layerKey : String) (event : Event)
  | state (index : Nat)
  | frame
deriving DecidableEq, Repr

namespace LayerStackSync

/-- The stack after an operation, and its state broadcast when it changed; an operation that raises
changes nothing. -/
def publish (sync : LayerStackSync Event) :
    Except String (CollaborationLayerStack × Bool) → LayerStackSync Event
  | .ok (after, true) => { sync with stack := after, broadcasts := sync.broadcasts ++ [after] }
  | .ok (_, false) | .error _ => sync

/-- A record is committed in a layer of the stack. -/
def author (sync : LayerStackSync Event) (layerKey : String) (event : Event) :
    Option (LayerStackSync Event) :=
  (sync.stack.layerFor layerKey).map fun layer =>
    { sync with
      contents := fun identifier =>
        if identifier = layer.identifier then sync.contents identifier ++ [event]
        else sync.contents identifier
      stream := sync.stream ++ [.record layer.identifier layerKey event] }

/-- Opinions and history are dropped, and receivers are told to start again. -/
def clear (sync : LayerStackSync Event) : LayerStackSync Event :=
  { sync with contents := fun _ => [], stream := sync.stream ++ [.reset] }

/-- The receiver's new layers stand for the layers of the state that named them. -/
def standsForAfter (sync : LayerStackSync Event) (snapshot : CollaborationLayerStack) :
    String → Nat :=
  fun layerKey =>
    if layerKey ∈ sync.router.layers.keys then sync.standsFor layerKey
    else ((snapshot.layerFor layerKey).map (·.identifier)).getD 0

/-- The receiver applies a state; one that it rejects changes nothing. -/
def applyState (sync : LayerStackSync Event) (snapshot : CollaborationLayerStack) :
    LayerStackSync Event :=
  match sync.router.applyState (snapshot.state sync.generation) with
  | .ok (router, true) =>
      { sync with router := router, standsFor := sync.standsForAfter snapshot }
  | .ok (_, false) | .error _ => sync

/-- The receiver applies a frame of the stream; a record that it cannot route stays undelivered. -/
def applyFrame (sync : LayerStackSync Event) : StackFrame Event → LayerStackSync Event
  | .record _ layerKey event =>
      match sync.router.applyRecord layerKey event with
      | .ok router => { sync with router := router, delivered := sync.delivered + 1 }
      | .error _ => sync
  | .reset => { sync with router := sync.router.clear, delivered := sync.delivered + 1 }

def step (sync : LayerStackSync Event) :
    LayerStackAction Event → Option (LayerStackSync Event)
  | .ensure layerKey label => some (sync.publish (sync.stack.ensureLayer layerKey label))
  | .remove layerKey =>
      some (sync.publish ((sync.stack.removeLayer layerKey).map fun after => (after, true)))
  | .reorder order => some (sync.publish (sync.stack.setOrder order))
  | .mute layerKey muted => some (sync.publish (sync.stack.setMuted layerKey muted))
  | .clear => some sync.clear
  | .author layerKey event => sync.author layerKey event
  | .state index => sync.broadcasts[index]?.map sync.applyState
  | .frame => sync.stream[sync.delivered]?.map sync.applyFrame

end LayerStackSync

end UsdConnect
