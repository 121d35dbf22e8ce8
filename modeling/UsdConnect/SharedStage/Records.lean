/-
Purpose: What a shared-stage server numbers, stores and sends: graph baselines, and the events of one
  layer key each.
Trusted boundary: client and origin of a record are copied along and left out
Main exports: SharedEvent, SharedRecord, SharedItem
-/
import UsdConnect.SharedStage.LayerGraph
import UsdConnect.Events.Event

namespace UsdConnect

/-- Event of a shared-stage record: the sublayers of a parent, or a scene event. -/
inductive SharedEvent where
  | setSublayers (event : TopologyEvent)
  | scene (event : Event)
deriving DecidableEq, Repr

/-- `ReceivedEvent`. -/
structure SharedRecord where
  seq : Nat
  layerKey : LayerKey
  event : SharedEvent
deriving DecidableEq, Repr

/-- What the server numbers: graph baselines and records share one sequence. -/
inductive SharedItem where
  | graphState (state : GraphState)
  | record (layerKey : LayerKey) (event : SharedEvent)
deriving DecidableEq, Repr

/-- A baseline under its sequence. -/
def SharedItem.numberedState (seq : Nat) : SharedItem → Option (Nat × GraphState)
  | .graphState state => some (seq, state)
  | .record .. => none

/-- A record under its sequence. -/
def SharedItem.numberedRecord (seq : Nat) : SharedItem → Option SharedRecord
  | .graphState _ => none
  | .record layerKey event => some ⟨seq, layerKey, event⟩

end UsdConnect
