/-
Purpose: Where every request object is: in hand of a thread or in the queue, with what has been stored
  on it, or closed; and how many of them hold the barrier.
Trusted boundary: none
Main exports: Ledger, Ledger.move, Ledger.close, Coordinator.slots, Coordinator.Accounted
-/
import UsdConnect.Server.Transactions
import Mathlib.Data.List.Nodup
import Mathlib.Data.List.ReduceOption

namespace UsdConnect

/-! ### Slots

A slot is a request object that a thread or the queue has in hand.
-/

/-- How far a request in hand has come. -/
inductive SlotStage where
  | entered
  | waiting
  | assigned
  | released
deriving DecidableEq, Repr

namespace SlotStage

/-- The barrier is held for the request. -/
def holds : SlotStage → Bool
  | .waiting | .assigned => true
  | .entered | .released => false

/-- What the request object has to look like. -/
def Matches : SlotStage → RequestCell → Prop
  | .entered, cell | .waiting, cell =>
      cell.outcome = none ∧ cell.done = false ∧ cell.outcomes = 0 ∧ cell.releases = 0
  | .assigned, cell =>
      cell.outcome.isSome ∧ cell.done = false ∧ cell.outcomes = 1 ∧ cell.releases = 0
  | .released, cell =>
      cell.outcome.isSome ∧ cell.done = false ∧ cell.outcomes = 1 ∧ cell.releases = 1

end SlotStage

/-- A request object that nobody has in hand any more: completed, or refused before `submit` could
return it. -/
def RequestCell.Closed (cell : RequestCell) : Prop :=
  (cell.done = true ∧ cell.outcome.isSome ∧ cell.outcomes = 1 ∧ cell.releases = 1) ∨
    (cell.returned = false ∧ cell.done = false ∧ cell.outcome = none ∧ cell.outcomes = 0 ∧
      cell.releases = 1)

abbrev Slot := Nat × SlotStage

/-- Every request object is in one slot and looks like it, or is closed, and `held` counts the slots
that hold the barrier. -/
structure Ledger (slots : List Slot) (cells : Nat → RequestCell) (nextId : Nat) (held : Int) :
    Prop where
  nodup : (slots.map (·.1)).Nodup
  bounded : ∀ slot ∈ slots, slot.1 < nextId
  matched : ∀ slot ∈ slots, slot.2.Matches (cells slot.1)
  closed : ∀ id, id < nextId → id ∉ slots.map (·.1) → (cells id).Closed
  unused : ∀ id, nextId ≤ id → cells id = {}
  counted : held = slots.countP fun slot => slot.2.holds

/-- Cells after a change of one of them. -/
def updated (cells : Nat → RequestCell) (id : Nat) (change : RequestCell → RequestCell) :
    Nat → RequestCell :=
  fun other => if other = id then change (cells id) else cells other

namespace Ledger

variable {slots rest : List Slot} {cells : Nat → RequestCell} {nextId : Nat} {held : Int}

theorem perm {others : List Slot} (ledger : Ledger slots cells nextId held)
    (same : slots.Perm others) : Ledger others cells nextId held where
  nodup := (same.map _).nodup_iff.1 ledger.nodup
  bounded := fun slot member => ledger.bounded slot (same.mem_iff.2 member)
  matched := fun slot member => ledger.matched slot (same.mem_iff.2 member)
  closed := fun id below away =>
    ledger.closed id below fun member => away ((same.map _).mem_iff.1 member)
  unused := ledger.unused
  counted := ledger.counted.trans (congrArg Int.ofNat (same.countP_eq _))

/-- A new request object. -/
theorem enter (ledger : Ledger slots cells nextId held) :
    Ledger ((nextId, .entered) :: slots) cells (nextId + 1) held where
  nodup := by
    apply List.nodup_cons.2
    refine ⟨fun member => ?_, ledger.nodup⟩
    obtain ⟨slot, present, same⟩ := List.mem_map.1 member
    exact Nat.lt_irrefl _ (same ▸ ledger.bounded slot present)
  bounded := by
    intro slot member
    rcases List.mem_cons.1 member with rfl | old
    · exact Nat.lt_succ_self _
    · exact Nat.lt_succ_of_lt (ledger.bounded slot old)
  matched := by
    intro slot member
    rcases List.mem_cons.1 member with rfl | old
    · dsimp only
      rw [ledger.unused nextId (Nat.le_refl _)]
      exact ⟨rfl, rfl, rfl, rfl⟩
    · exact ledger.matched slot old
  closed := by
    intro id below away
    rw [List.map_cons, List.mem_cons, not_or] at away
    exact ledger.closed id (Nat.lt_of_le_of_ne (Nat.le_of_lt_succ below) away.1) away.2
  unused := fun id above => ledger.unused id (Nat.le_of_succ_le above)
  counted := by
    rw [List.countP_cons_of_neg (by simp [SlotStage.holds])]
    exact ledger.counted

theorem updated_other {id other : Nat} (change : RequestCell → RequestCell) (away : other ≠ id) :
    updated cells id change other = cells other :=
  if_neg away

@[simp] theorem updated_self (id : Nat) (change : RequestCell → RequestCell) :
    updated cells id change id = change (cells id) :=
  if_pos rfl

/-- One more or one less barrier. -/
def weight (stage : SlotStage) : Int := if stage.holds then 1 else 0

/-- A request in hand comes one stage further. -/
theorem move {id : Nat} {stage : SlotStage}
    (ledger : Ledger ((id, stage) :: rest) cells nextId held) (next : SlotStage)
    (change : RequestCell → RequestCell)
    (fits : next.Matches (change (cells id))) :
    Ledger ((id, next) :: rest) (updated cells id change) nextId
      (held - weight stage + weight next) := by
  have fresh : id ∉ rest.map (·.1) := (List.nodup_cons.1 ledger.nodup).1
  constructor
  · exact ledger.nodup
  · intro slot member
    rcases List.mem_cons.1 member with rfl | old
    · exact ledger.bounded (id, stage) List.mem_cons_self
    · exact ledger.bounded slot (List.mem_cons_of_mem _ old)
  · intro slot member
    rcases List.mem_cons.1 member with rfl | old
    · dsimp only
      rw [updated_self]
      exact fits
    · have away : slot.1 ≠ id := fun same => fresh (same ▸ List.mem_map_of_mem old)
      rw [updated_other change away]
      exact ledger.matched slot (List.mem_cons_of_mem _ old)
  · intro other below away
    have apart : other ≠ id := fun same => away (same ▸ List.mem_cons_self)
    rw [updated_other change apart]
    exact ledger.closed other below away
  · intro other above
    have apart : other ≠ id := fun same =>
      Nat.not_lt.2 above (same ▸ ledger.bounded (id, stage) List.mem_cons_self)
    rw [updated_other change apart]
    exact ledger.unused other above
  · have counted := ledger.counted
    rw [List.countP_cons] at counted ⊢
    unfold weight
    push_cast at counted ⊢
    rw [counted]
    cases stage.holds <;> cases next.holds <;> simp

/-- A request leaves the hands of its thread. -/
theorem close {id : Nat} {stage : SlotStage}
    (ledger : Ledger ((id, stage) :: rest) cells nextId held) (change : RequestCell → RequestCell)
    (closed : (change (cells id)).Closed) :
    Ledger rest (updated cells id change) nextId (held - weight stage) := by
  have fresh : id ∉ rest.map (·.1) := (List.nodup_cons.1 ledger.nodup).1
  constructor
  · exact (List.nodup_cons.1 ledger.nodup).2
  · exact fun slot member => ledger.bounded slot (List.mem_cons_of_mem _ member)
  · intro slot member
    have away : slot.1 ≠ id := fun same => fresh (same ▸ List.mem_map_of_mem member)
    rw [updated_other change away]
    exact ledger.matched slot (List.mem_cons_of_mem _ member)
  · intro other below away
    by_cases same : other = id
    · rw [same, updated_self]
      exact closed
    · rw [updated_other change same]
      apply ledger.closed other below
      rw [List.map_cons, List.mem_cons, not_or]
      exact ⟨same, away⟩
  · intro other above
    have apart : other ≠ id := fun same =>
      Nat.not_lt.2 above (same ▸ ledger.bounded (id, stage) List.mem_cons_self)
    rw [updated_other change apart]
    exact ledger.unused other above
  · have counted := ledger.counted
    rw [List.countP_cons] at counted
    unfold weight
    push_cast at counted
    rw [counted]
    cases stage.holds <;> simp

/-- `submit` returns a request that is in hand or completed. -/
theorem markReturned {id : Nat} (ledger : Ledger slots cells nextId held) (below : id < nextId)
    (known : id ∈ slots.map (·.1) ∨ (cells id).done = true) :
    Ledger slots (updated cells id fun cell => { cell with returned := true }) nextId held := by
  constructor
  · exact ledger.nodup
  · exact ledger.bounded
  · intro slot member
    have fits := ledger.matched slot member
    by_cases same : slot.1 = id
    · rw [same] at fits ⊢
      rw [updated_self]
      rcases slot with ⟨_, stage⟩
      cases stage <;> exact fits
    · rw [updated_other _ same]
      exact fits
  · intro other otherBelow away
    by_cases same : other = id
    · rw [same, updated_self]
      rcases known with member | done
      · exact absurd (same ▸ member) away
      · rcases ledger.closed id below (same ▸ away) with completed | ⟨_, open', _⟩
        · exact Or.inl completed
        · rw [done] at open'
          cases open'
    · rw [updated_other _ same]
      exact ledger.closed other otherBelow away
  · intro other above
    have apart : other ≠ id := fun same => Nat.not_lt.2 above (same ▸ below)
    rw [updated_other _ apart]
    exact ledger.unused other above
  · exact ledger.counted

/-- What the ledger says about any request object. -/
theorem cell_bounds (ledger : Ledger slots cells nextId held) (id : Nat) :
    (cells id).outcomes ≤ 1 ∧ (cells id).releases ≤ 1 ∧
      ((cells id).done = true →
        (cells id).outcome.isSome ∧ (cells id).outcomes = 1 ∧ (cells id).releases = 1) := by
  by_cases below : id < nextId
  · by_cases present : id ∈ slots.map (·.1)
    · obtain ⟨⟨_, stage⟩, member, rfl⟩ := List.mem_map.1 present
      have fits := ledger.matched _ member
      cases stage with
      | entered =>
          obtain ⟨_, open', outcomes, releases⟩ := fits
          dsimp only at open' outcomes releases ⊢
          simp [open', outcomes, releases]
      | waiting =>
          obtain ⟨_, open', outcomes, releases⟩ := fits
          dsimp only at open' outcomes releases ⊢
          simp [open', outcomes, releases]
      | assigned =>
          obtain ⟨_, open', outcomes, releases⟩ := fits
          dsimp only at open' outcomes releases ⊢
          simp [open', outcomes, releases]
      | released =>
          obtain ⟨_, open', outcomes, releases⟩ := fits
          dsimp only at open' outcomes releases ⊢
          simp [open', outcomes, releases]
    · rcases ledger.closed id below present with ⟨_, some, outcomes, releases⟩ |
        ⟨_, open', _, outcomes, releases⟩
      · simp [some, outcomes, releases]
      · simp [open', outcomes, releases]
  · rw [ledger.unused id (Nat.not_lt.1 below)]
    simp

end Ledger

/-! ### Requests in hand -/

/-- Requests of a batch, all with the barrier held. -/
def waitingSlots (batch : List TxnRequest) : List Slot :=
  batch.map fun request => (request.id, .waiting)

/-- The first request that is left is as far as the stage says. -/
def CompletionStage.head : CompletionStage → SlotStage
  | .checkpoint | .assign => .waiting
  | .release => .assigned
  | .finish => .released

def Completion.slots (completion : Completion) : List Slot :=
  match completion.rest with
  | [] => []
  | (request, _) :: rest =>
      (request.id, completion.stage.head) :: waitingSlots (rest.map (·.1))

def SubmissionLock.slots : SubmissionLock → List Slot
  | .submitting request => [(request.id, .entered)]
  | .admitted request => [(request.id, .waiting)]
  | .completing completion => completion.slots
  | .free | .stopping => []

def WorkerPhase.slots : WorkerPhase → List Slot
  | .collecting batch | .committing batch _ => waitingSlots batch
  | .retrying settled pending _ => waitingSlots (settled.map (·.1) ++ pending)
  | .completing completion _ => completion.slots
  | .absent | .idle | .finished | .dead => []

namespace Coordinator

variable {state next : Coordinator}

/-- Requests in the queue. -/
def queued (state : Coordinator) : List TxnRequest := state.queue.reduceOption

/-- Every request in hand: of the submitting thread, in the queue, of the worker. -/
def slots (state : Coordinator) : List Slot :=
  state.lock.slots ++ (state.worker.slots ++ waitingSlots state.queued)

/-- The accounts of the requests agree with the barrier. -/
def Accounted (state : Coordinator) : Prop :=
  Ledger state.slots state.cells state.nextId (state.barrier.readers - state.scopes)

theorem waitingSlots_append (first second : List TxnRequest) :
    waitingSlots (first ++ second) = waitingSlots first ++ waitingSlots second :=
  List.map_append

theorem start_slots (rest : List (TxnRequest × CommitResult)) (raising : Bool) :
    (Completion.start rest raising).slots = waitingSlots (rest.map (·.1)) := by
  cases rest with
  | nil => rfl
  | cons entry rest => rfl

theorem interrupted_slots (batch : List TxnRequest) :
    (Completion.interrupted batch).slots = waitingSlots batch := by
  unfold Completion.interrupted
  rw [start_slots, List.map_map]
  congr 1
  exact List.map_id batch

/-- The checkpoint moves no request. -/
theorem capture_slots {completion : Completion} (result : CheckpointResult)
    (before : completion.stage = .checkpoint) :
    (completion.capture result).slots = completion.slots := by
  rcases completion with ⟨rest, stage, checkpoint, raising⟩
  cases before
  unfold Completion.capture
  split
  · rfl
  · rfl

theorem capture_rest (completion : Completion) (result : CheckpointResult) :
    (completion.capture result).rest = completion.rest := by
  unfold Completion.capture
  split
  · rfl
  · rfl

end Coordinator

end UsdConnect
