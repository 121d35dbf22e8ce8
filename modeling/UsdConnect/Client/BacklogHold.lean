/-
Purpose: How a shared-stage client holds its local edits behind the messages that were queued before
  them, update by update, between arrivals and replay requests.
Trusted boundary: which layers differ from their baseline, and which batches have a routed layer key
Main exports: BacklogHold, LayerTracker.prepareLocalChanges, HoldingClient.step
-/
import UsdConnect.Lib.Machine
import UsdConnect.Lib.OrderedDict
import UsdConnect.Usd.Stage

namespace UsdConnect

/-! ### The hold -/

/-- Hold a local batch until the messages queued before it have been drained. -/
structure BacklogHold where
  ahead : Nat := 0
  deriving DecidableEq, Repr

namespace BacklogHold

def holding (hold : BacklogHold) : Bool :=
  0 < hold.ahead

/-- Record the queue depth when a new local batch is frozen. -/
def freeze (_hold : BacklogHold) (queued : Nat) : BacklogHold where
  ahead := queued

/-- The messages ahead of the batch are at the front of the queue, so a replay request that discards
the queue also bounds them. -/
def drained (hold : BacklogHold) (count queued : Nat) : BacklogHold where
  ahead := min (hold.ahead - count) queued

end BacklogHold

/-! ### Freezing edits -/

/-- A frozen batch of one layer: the edits in it and the layer's change serial when it was frozen. -/
structure FrozenBatch where
  edits : List Nat
  changeSerial : Nat
  deriving DecidableEq, Repr

/-- The tracked layers with their changes.  `unsent` is a specification variable: the local edits
of a layer since its baseline, by number. -/
structure LayerTracker where
  tracked : List LayerId
  dirty : LayerId → Bool
  changeSerials : LayerId → Nat
  prepared : OrderedDict LayerId FrozenBatch
  unsent : LayerId → List Nat

namespace LayerTracker

def initial (tracked : List LayerId) : LayerTracker where
  tracked
  dirty _ := false
  changeSerials _ := 0
  prepared := .empty
  unsent _ := []

/-- A local edit of a tracked layer. -/
def edit (tracker : LayerTracker) (layer : LayerId) (number : Nat) : LayerTracker :=
  { tracker with
    dirty := Function.update tracker.dirty layer true
    changeSerials :=
      Function.update tracker.changeSerials layer (tracker.changeSerials layer + 1)
    unsent := Function.update tracker.unsent layer (tracker.unsent layer ++ [number]) }

/-- A change of a layer while changes are suppressed: it counts as a change and makes nothing
dirty. -/
def suppressedChange (tracker : LayerTracker) (layer : LayerId) : LayerTracker :=
  { tracker with
    changeSerials :=
      Function.update tracker.changeSerials layer (tracker.changeSerials layer + 1) }

/-- `sync_graph`: forget the layers that are no longer tracked. -/
def syncGraph (tracker : LayerTracker) (tracked : List LayerId) : LayerTracker :=
  { tracker with
    tracked
    dirty := fun layer => tracker.dirty layer && decide (layer ∈ tracked)
    changeSerials := fun layer => if layer ∈ tracked then tracker.changeSerials layer else 0
    prepared := tracker.prepared.filterKeys fun layer => decide (layer ∈ tracked)
    unsent := fun layer => if layer ∈ tracked then tracker.unsent layer else [] }

/-- One layer in the loop of `prepare_local_changes`: an unchanged batch stays, a layer that equals
its baseline has no batch, and any other gets one with all its edits, in the place of its old one. -/
def prepareLayer (differs : LayerId → Bool) (tracker : LayerTracker) (layer : LayerId) :
    LayerTracker :=
  if !tracker.dirty layer then tracker
  else if (tracker.prepared.get? layer).any
      (fun batch => batch.changeSerial == tracker.changeSerials layer) then tracker
  else if differs layer then
    { tracker with
      prepared := tracker.prepared.set layer
        { edits := tracker.unsent layer
          changeSerial := tracker.changeSerials layer } }
  else
    { tracker with
      dirty := Function.update tracker.dirty layer false
      prepared := tracker.prepared.pop layer
      unsent := Function.update tracker.unsent layer [] }

/-- Freeze all current local edits before authoritative replay is applied. -/
def prepareLocalChanges (tracker : LayerTracker) (tracked : List LayerId)
    (differs : LayerId → Bool) : LayerTracker :=
  tracked.foldl (prepareLayer differs) (tracker.syncGraph tracked)

/-- Commit the baseline represented by a successfully sent batch. -/
def markPreparedSent (tracker : LayerTracker) (layer : LayerId) : Option LayerTracker :=
  (tracker.prepared.get? layer).map fun batch =>
    { tracker with
      prepared := tracker.prepared.pop layer
      unsent := Function.update tracker.unsent layer
        ((tracker.unsent layer).filter (· ∉ batch.edits))
      dirty :=
        if tracker.changeSerials layer = batch.changeSerial then
          Function.update tracker.dirty layer false
        else tracker.dirty }

/-- Send the batches of some layers, one after another. -/
def sendBatches : List LayerId → LayerTracker → Option LayerTracker
  | [], tracker => some tracker
  | layer :: layers, tracker => (tracker.markPreparedSent layer).bind (sendBatches layers)

/-- The edits that are frozen. -/
def isFrozen (tracker : LayerTracker) (layer : LayerId) (edit : Nat) : Bool :=
  (tracker.prepared.get? layer).any fun batch => decide (edit ∈ batch.edits)

end LayerTracker

/-! ### Updates -/

/-- Where an update stands: not running, edits frozen, messages drained but not yet counted, or
counted and applied. -/
inductive UpdatePhase where
  | idle
  | frozen
  | drained (count : Nat)
  | applied
  deriving DecidableEq, Repr

/-- The queue when an edit was first frozen, and how many messages had been drained by then. -/
structure FreezeRecord where
  queue : List Nat
  drained : Nat
  deriving DecidableEq, Repr

/-- The client between its receiver queue and its sender.  Messages are numbered as they arrive.
`drained`, `edits` and `freezes` are specification variables. -/
structure HoldingClient where
  queue : List Nat
  arrived : Nat
  drained : Nat
  hold : BacklogHold
  tracker : LayerTracker
  phase : UpdatePhase
  edits : Nat
  freezes : LayerId → Nat → Option FreezeRecord

/-- The steps of updates, and what comes between them. `prepare` carries the layers that are tracked
and those of them that differ from their baseline; `submit` the layers whose batches are sent. -/
inductive HoldingAction where
  | arrive
  | requestReplay
  | edit (layer : LayerId)
  | suppressedChange (layer : LayerId)
  | syncGraph (tracked : List LayerId)
  | prepare (tracked changed : List LayerId)
  | drain (maxMessages : Option Nat)
  | count
  | submit (layers : List LayerId)
  | finish
  deriving DecidableEq, Repr

namespace HoldingClient

def initial (tracked : List LayerId) : HoldingClient where
  queue := []
  arrived := 0
  drained := 0
  hold := {}
  tracker := .initial tracked
  phase := .idle
  edits := 0
  freezes _ _ := none

/-- The messages of one drain. -/
def drainCount (client : HoldingClient) : Option Nat → Nat
  | none => client.queue.length
  | some maxMessages => min maxMessages client.queue.length

/-- Note the queue for the edits that are frozen for the first time. -/
def noteFreezes (client : HoldingClient) (tracker : LayerTracker) :
    LayerId → Nat → Option FreezeRecord :=
  fun layer edit =>
    (client.freezes layer edit).or <|
      if tracker.isFrozen layer edit then some ⟨client.queue, client.drained⟩ else none

/-- The first part of `_apply_queued`: freeze the edits, and start a hold when nothing was held. -/
def prepare (client : HoldingClient) (tracked changed : List LayerId) : HoldingClient :=
  let hadBatch := !client.tracker.prepared.entries.isEmpty
  let tracker := client.tracker.prepareLocalChanges tracked fun layer => decide (layer ∈ changed)
  { client with
    tracker
    hold :=
      if !hadBatch && !tracker.prepared.entries.isEmpty then client.hold.freeze client.queue.length
      else client.hold
    freezes := client.noteFreezes tracker
    phase := .frozen }

/-- One step; `none` when it cannot happen. -/
def step (client : HoldingClient) : HoldingAction → Option HoldingClient
  | .arrive =>
      some { client with queue := client.queue ++ [client.arrived], arrived := client.arrived + 1 }
  | .requestReplay => some { client with queue := [] }
  | .edit layer =>
      if client.phase = .idle ∧ layer ∈ client.tracker.tracked then
        some { client with
          tracker := client.tracker.edit layer client.edits
          edits := client.edits + 1 }
      else none
  | .suppressedChange layer => some { client with tracker := client.tracker.suppressedChange layer }
  | .syncGraph tracked => some { client with tracker := client.tracker.syncGraph tracked }
  | .prepare tracked changed =>
      if client.phase = .idle then some (client.prepare tracked changed) else none
  | .drain maxMessages =>
      if client.phase = .frozen ∧ maxMessages ≠ some 0 then
        let count := client.drainCount maxMessages
        some { client with
          queue := client.queue.drop count
          drained := client.drained + count
          phase := .drained count }
      else none
  | .count =>
      match client.phase with
      | .drained count =>
          some { client with
            hold := client.hold.drained count client.queue.length
            phase := .applied }
      | _ => none
  | .submit layers =>
      if client.phase = .applied ∧ client.hold.holding = false then
        (LayerTracker.sendBatches layers client.tracker).map fun tracker =>
          { client with tracker, phase := .idle }
      else none
  | .finish =>
      match client.phase with
      | .frozen | .applied => some { client with phase := .idle }
      | _ => none

end HoldingClient

end UsdConnect
