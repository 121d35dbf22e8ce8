/-
Purpose: What the submitting threads and the commit worker can do in one step, and that every step
  keeps the accounts of the requests.
Trusted boundary: none
Main exports: WorkerMove, SubmitMove, Settles, submitStep_accounted, workerStep_accounted
-/
import UsdConnect.Proofs.RequestLedger

namespace UsdConnect.Coordinator

variable {state next : Coordinator}

/-! ### What the worker does -/

/-- A step of the worker other than the completion of a request: its phase and the queue before and
after. -/
inductive WorkerMove :
    WorkerPhase → List (Option TxnRequest) → WorkerPhase → List (Option TxnRequest) → Prop
  | take (request : TxnRequest) (rest : List (Option TxnRequest)) :
      WorkerMove .idle (some request :: rest) (.collecting [request]) rest
  | marker (rest : List (Option TxnRequest)) : WorkerMove .idle (none :: rest) .finished rest
  | collect (batch : List TxnRequest) (request : TxnRequest) (rest : List (Option TxnRequest)) :
      WorkerMove (.collecting batch) (some request :: rest) (.collecting (batch ++ [request])) rest
  | cutByMarker (batch : List TxnRequest) (rest : List (Option TxnRequest)) :
      WorkerMove (.collecting batch) (none :: rest) (.committing batch true) rest
  | cut (batch : List TxnRequest) (queue : List (Option TxnRequest)) :
      WorkerMove (.collecting batch) queue (.committing batch false) queue
  | commit (batch : List TxnRequest) (stop : Bool) (results : List CommitResult)
      (queue : List (Option TxnRequest)) (one : results.length = batch.length) :
      WorkerMove (.committing batch stop) queue
        (.completing (.start (batch.zip results) false) stop) queue
  | fail (batch : List TxnRequest) (stop : Bool) (queue : List (Option TxnRequest)) :
      WorkerMove (.committing batch stop) queue (.retrying [] batch stop) queue
  | interrupt (batch : List TxnRequest) (stop : Bool) (queue : List (Option TxnRequest)) :
      WorkerMove (.committing batch stop) queue (.completing (.interrupted batch) stop) queue
  | retry (settled : List (TxnRequest × CommitResult)) (request : TxnRequest)
      (pending : List TxnRequest) (stop : Bool) (result : CommitResult)
      (queue : List (Option TxnRequest)) (more : pending ≠ []) :
      WorkerMove (.retrying settled (request :: pending) stop) queue
        (.retrying (settled ++ [(request, result)]) pending stop) queue
  | lastRetry (settled : List (TxnRequest × CommitResult)) (request : TxnRequest) (stop : Bool)
      (result : CommitResult) (queue : List (Option TxnRequest)) :
      WorkerMove (.retrying settled [request] stop) queue
        (.completing (.start (settled ++ [(request, result)]) false) stop) queue
  | retryInterrupt (settled : List (TxnRequest × CommitResult)) (pending : List TxnRequest)
      (stop : Bool) (queue : List (Option TxnRequest)) (more : pending ≠ []) :
      WorkerMove (.retrying settled pending stop) queue
        (.completing (.interrupted (settled.map (·.1) ++ pending)) stop) queue
  | checkpoint (completion : Completion) (stop : Bool) (result : CheckpointResult)
      (queue : List (Option TxnRequest)) (before : completion.stage = .checkpoint) :
      WorkerMove (.completing completion stop) queue
        (.completing (completion.capture result) stop) queue

theorem workerStep_move {action : CoordinatorAction} (other : action ≠ .complete)
    (stepped : state.workerStep action = some next) :
    WorkerMove state.worker state.queue next.worker next.queue ∧
      next = { state with queue := next.queue, worker := next.worker } := by
  cases action with
  | take =>
      dsimp only [workerStep] at stepped
      split at stepped
      · next request rest idle queue =>
          cases stepped
          rw [idle, queue]
          exact ⟨.take request rest, rfl⟩
      · next rest idle queue =>
          cases stepped
          rw [idle, queue]
          exact ⟨.marker rest, rfl⟩
      · cases stepped
  | collect =>
      dsimp only [workerStep] at stepped
      split at stepped
      · next batch request rest collecting queue =>
          obtain ⟨_, same⟩ := Option.ite_none_left_eq_some.1 stepped
          cases same
          rw [collecting, queue]
          exact ⟨.collect batch request rest, rfl⟩
      · next batch rest collecting queue =>
          obtain ⟨_, same⟩ := Option.ite_none_left_eq_some.1 stepped
          cases same
          rw [collecting, queue]
          exact ⟨.cutByMarker batch rest, rfl⟩
      · cases stepped
  | cut =>
      dsimp only [workerStep] at stepped
      split at stepped
      · next batch collecting =>
          obtain ⟨_, same⟩ := Option.ite_none_right_eq_some.1 stepped
          cases same
          rw [collecting]
          exact ⟨.cut batch state.queue, rfl⟩
      · cases stepped
  | groupCommit results =>
      dsimp only [workerStep] at stepped
      split at stepped
      · next batch stop committing =>
          obtain ⟨one, same⟩ := Option.ite_none_right_eq_some.1 stepped
          cases same
          rw [committing]
          exact ⟨.commit batch stop results state.queue one, rfl⟩
      · cases stepped
  | groupFails =>
      dsimp only [workerStep] at stepped
      split at stepped
      · next batch stop committing =>
          cases stepped
          rw [committing]
          exact ⟨.fail batch stop state.queue, rfl⟩
      · cases stepped
  | groupInterrupt =>
      dsimp only [workerStep] at stepped
      split at stepped
      · next batch stop committing =>
          cases stepped
          rw [committing]
          exact ⟨.interrupt batch stop state.queue, rfl⟩
      · cases stepped
  | retry result =>
      dsimp only [workerStep] at stepped
      split at stepped
      · next settled request pending stop retrying =>
          cases stepped
          rw [retrying]
          split
          · next last =>
              rw [last]
              exact ⟨.lastRetry settled request stop result state.queue, rfl⟩
          · next more => exact ⟨.retry settled request pending stop result state.queue more, rfl⟩
      · cases stepped
  | retryInterrupt =>
      dsimp only [workerStep] at stepped
      split at stepped
      · next settled pending stop retrying =>
          obtain ⟨more, same⟩ := Option.ite_none_left_eq_some.1 stepped
          cases same
          rw [retrying]
          exact ⟨.retryInterrupt settled pending stop state.queue more, rfl⟩
      · cases stepped
  | checkpoint result =>
      dsimp only [workerStep] at stepped
      split at stepped
      · next completion stop completing =>
          obtain ⟨before, same⟩ := Option.ite_none_right_eq_some.1 stepped
          cases same
          rw [completing]
          exact ⟨.checkpoint completion stop result state.queue before, rfl⟩
      · cases stepped
  | complete => exact absurd rfl other
  | _ => cases stepped

theorem complete_inv (stepped : state.workerStep .complete = some next) :
    ∃ completion stop settled after, state.worker = .completing completion stop ∧
      state.completeStep completion = some (settled, after) ∧
      next = { settled with worker := workerAfter after stop } := by
  dsimp only [workerStep] at stepped
  split at stepped
  · next completion stop completing =>
      obtain ⟨⟨settled, after⟩, completed, same⟩ := Option.map_eq_some_iff.1 stepped
      exact ⟨completion, stop, settled, after, completing, completed, same.symm⟩
  · cases stepped

/-- The worker moves requests between the queue and its phases, and keeps all of them. -/
theorem WorkerMove.slots_perm {worker after : WorkerPhase} {queue rest : List (Option TxnRequest)}
    (move : WorkerMove worker queue after rest) :
    (worker.slots ++ waitingSlots queue.reduceOption).Perm
      (after.slots ++ waitingSlots rest.reduceOption) := by
  cases move with
  | take request rest =>
      rw [List.reduceOption_cons_of_some]
      exact List.Perm.refl _
  | marker rest =>
      rw [List.reduceOption_cons_of_none]
      exact List.Perm.refl _
  | collect batch request rest =>
      rw [List.reduceOption_cons_of_some]
      dsimp only [WorkerPhase.slots]
      rw [waitingSlots_append, List.append_assoc]
      exact List.Perm.refl _
  | cutByMarker batch rest =>
      rw [List.reduceOption_cons_of_none]
      exact List.Perm.refl _
  | cut batch queue => exact List.Perm.refl _
  | commit batch stop results queue one =>
      dsimp only [WorkerPhase.slots]
      rw [start_slots, List.map_fst_zip (Nat.le_of_eq one.symm)]
  | fail batch stop queue => exact List.Perm.refl _
  | interrupt batch stop queue =>
      dsimp only [WorkerPhase.slots]
      rw [interrupted_slots]
  | retry settled request pending stop result queue more =>
      dsimp only [WorkerPhase.slots]
      rw [List.map_append, List.append_assoc]
      exact List.Perm.refl _
  | lastRetry settled request stop result queue =>
      dsimp only [WorkerPhase.slots]
      rw [start_slots, List.map_append]
      exact List.Perm.refl _
  | retryInterrupt settled pending stop queue more =>
      dsimp only [WorkerPhase.slots]
      rw [interrupted_slots]
  | checkpoint completion stop result queue before =>
      dsimp only [WorkerPhase.slots]
      rw [capture_slots result before]

/-! ### What a submitting thread does -/

/-- A step of a thread inside `submit` or `shutdown`. -/
inductive SubmitMove (state : Coordinator) : CoordinatorAction → Coordinator → Prop
  | refuse (loadsPayload : Bool) (free : state.lock = .free) (stopping : state.isStopping = true) :
      SubmitMove state (.submit loadsPayload) state
  | enter (loadsPayload : Bool) (free : state.lock = .free) (running : state.isStopping = false) :
      SubmitMove state (.submit loadsPayload)
        { state with
          lock := .submitting { id := state.nextId, loadsPayload := loadsPayload }
          nextId := state.nextId + 1 }
  | share (request : TxnRequest) (entered : state.lock = .submitting request)
      (shared : state.barrier.exclusive = false) :
      SubmitMove state .admission
        { state with
          barrier := { state.barrier with readers := state.barrier.readers + 1 }
          lock := .admitted request }
  | enqueue (request : TxnRequest) (admitted : state.lock = .admitted request)
      (threaded : state.worker ≠ .absent) :
      SubmitMove state .enqueue
        (({ state with queue := state.queue ++ [some request] } : Coordinator).returnRequest
          request)
  | enqueueFails (request : TxnRequest) (admitted : state.lock = .admitted request) :
      SubmitMove state .enqueueFails
        { (state.updateCell request.id fun cell =>
            { cell with releases := cell.releases + 1 }).releaseShared with
          lock := .free }
  | inline (action : CoordinatorAction) (request : TxnRequest) (result : CommitResult)
      (raising : Bool) (admitted : state.lock = .admitted request)
      (threadless : state.worker = .absent) :
      SubmitMove state action
        { state with lock := .completing (.start [(request, result)] raising) }
  | checkpoint (completion : Completion) (result : CheckpointResult)
      (running : state.lock = .completing completion) (before : completion.stage = .checkpoint) :
      SubmitMove state (.inlineCheckpoint result)
        { state with lock := .completing (completion.capture result) }
  | complete (completion after : Completion) (settled : Coordinator)
      (running : state.lock = .completing completion)
      (completed : state.completeStep completion = some (settled, after))
      (more : after.rest ≠ []) :
      SubmitMove state .inlineComplete { settled with lock := .completing after }
  | raise (completion after : Completion) (settled : Coordinator)
      (running : state.lock = .completing completion)
      (completed : state.completeStep completion = some (settled, after))
      (last : after.rest = []) :
      SubmitMove state .inlineComplete { settled with lock := .free }
  | finish (completion after : Completion) (settled : Coordinator) (request : TxnRequest)
      (result : CommitResult) (rest : List (TxnRequest × CommitResult))
      (running : state.lock = .completing completion)
      (first : completion.rest = (request, result) :: rest)
      (completed : state.completeStep completion = some (settled, after))
      (last : after.rest = []) :
      SubmitMove state .inlineComplete (settled.returnRequest request)
  | stopAgain (free : state.lock = .free) (stopping : state.isStopping = true) :
      SubmitMove state .shutdown state
  | stop (free : state.lock = .free) (running : state.isStopping = false) :
      SubmitMove state .shutdown
        { state with
          isStopping := true
          lock := if state.worker = .absent then .free else .stopping }
  | putMarker (stopping : state.lock = .stopping) :
      SubmitMove state .putMarker { state with queue := state.queue ++ [none], lock := .free }

theorem submitStep_move {action : CoordinatorAction}
    (stepped : state.submitStep action = some next) : SubmitMove state action next := by
  cases action with
  | submit loadsPayload =>
      dsimp only [submitStep, beginSubmit] at stepped
      split at stepped
      · next free =>
          cases stepped
          split
          · next stopping => exact .refuse loadsPayload free stopping
          · next running => exact .enter loadsPayload free (Bool.eq_false_iff.2 running)
      · cases stepped
  | admission =>
      dsimp only [submitStep] at stepped
      split at stepped
      · next request entered =>
          obtain ⟨after, acquired, same⟩ := Option.map_eq_some_iff.1 stepped
          obtain ⟨shared, more⟩ := Option.ite_none_left_eq_some.1 acquired
          cases more
          cases same
          exact .share request entered (Bool.eq_false_iff.2 shared)
      · cases stepped
  | enqueue =>
      dsimp only [submitStep] at stepped
      split at stepped
      · next request admitted =>
          obtain ⟨threaded, stepped⟩ := Option.ite_none_left_eq_some.1 stepped
          obtain ⟨after, placed, same⟩ := Option.map_eq_some_iff.1 stepped
          obtain ⟨_, put⟩ := Option.ite_none_right_eq_some.1 placed
          cases put
          cases same
          exact .enqueue request admitted threaded
      · cases stepped
  | enqueueFails =>
      dsimp only [submitStep] at stepped
      split at stepped
      · next request admitted =>
          obtain ⟨_, same⟩ := Option.ite_none_left_eq_some.1 stepped
          cases same
          exact .enqueueFails request admitted
      · cases stepped
  | inlineCommit result =>
      dsimp only [submitStep] at stepped
      split at stepped
      · next request admitted =>
          obtain ⟨threadless, same⟩ := Option.ite_none_right_eq_some.1 stepped
          cases same
          exact .inline _ request result false admitted threadless
      · cases stepped
  | inlineInterrupt =>
      dsimp only [submitStep] at stepped
      split at stepped
      · next request admitted =>
          obtain ⟨threadless, same⟩ := Option.ite_none_right_eq_some.1 stepped
          cases same
          exact .inline _ request .error true admitted threadless
      · cases stepped
  | inlineCheckpoint result =>
      dsimp only [submitStep] at stepped
      split at stepped
      · next completion running =>
          obtain ⟨before, same⟩ := Option.ite_none_right_eq_some.1 stepped
          cases same
          exact .checkpoint completion result running before
      · cases stepped
  | inlineComplete =>
      dsimp only [submitStep] at stepped
      split at stepped
      · next completion running =>
          obtain ⟨⟨settled, after⟩, completed, same⟩ := Option.map_eq_some_iff.1 stepped
          dsimp only at same
          split at same
          · next request result rest last first =>
              split at same
              · cases same
                exact .raise completion after settled running completed last
              · cases same
                exact .finish completion after settled request result rest running first completed
                  last
          · next more =>
              cases same
              have left : after.rest ≠ [] := by
                intro last
                cases first : completion.rest with
                | nil =>
                    unfold completeStep at completed
                    rw [first] at completed
                    cases completed
                | cons entry rest => exact more entry.1 entry.2 rest last first
              exact .complete completion after settled running completed left
      · cases stepped
  | shutdown =>
      dsimp only [submitStep] at stepped
      split at stepped
      · next free =>
          split at stepped
          · next stopping =>
              cases stepped
              exact .stopAgain free stopping
          · next running =>
              cases stepped
              exact .stop free (Bool.eq_false_iff.2 running)
      · cases stepped
  | putMarker =>
      dsimp only [submitStep] at stepped
      split at stepped
      · next stopping =>
          obtain ⟨after, placed, same⟩ := Option.map_eq_some_iff.1 stepped
          obtain ⟨_, put⟩ := Option.ite_none_right_eq_some.1 placed
          cases put
          cases same
          exact .putMarker stopping
      · cases stepped
  | _ => cases stepped

/-! ### Completing a request -/

/-- A step of `_complete` settles one request in hand and changes nothing but its object and the
barrier. -/
structure Settles (state next : Coordinator) (completion after : Completion) : Prop where
  accounts : ∀ {others : List Slot},
    Ledger (completion.slots ++ others) state.cells state.nextId
      (state.barrier.readers - state.scopes) →
    Ledger (after.slots ++ others) next.cells next.nextId (next.barrier.readers - next.scopes)
  frame : next = { state with
    cells := next.cells
    barrier := { state.barrier with readers := next.barrier.readers } }
  released : next.barrier.readers ≤ state.barrier.readers
  returned : ∀ id, (next.cells id).returned = (state.cells id).returned
  raising : after.raising = completion.raising
  same : ∀ slot ∈ after.slots, ∃ before ∈ completion.slots, before.1 = slot.1

/-- Only the first request that is left changes its stage. -/
theorem head_slots {request : TxnRequest} {stage next : SlotStage} {rest : List Slot} :
    ∀ slot ∈ (((request.id, next) : Slot) :: rest),
      ∃ before ∈ ((request.id, stage) : Slot) :: rest, before.1 = slot.1 := by
  intro slot member
  rcases List.mem_cons.1 member with rfl | other
  · exact ⟨(request.id, stage), List.mem_cons_self, rfl⟩
  · exact ⟨slot, List.mem_cons_of_mem _ other, rfl⟩

theorem updateCell_returned {id : Nat} (change : RequestCell → RequestCell)
    (same : ∀ cell, (change cell).returned = cell.returned) (other : Nat) :
    ((state.updateCell id change).cells other).returned = (state.cells other).returned := by
  unfold updateCell
  dsimp only
  split
  · next here => rw [same, here]
  · rfl

theorem finish_slots (rest : List (TxnRequest × CommitResult))
    (checkpoint raising : Bool) :
    ({ rest := rest, stage := .assign, checkpoint := checkpoint, raising := raising } :
      Completion).slots = waitingSlots (rest.map (·.1)) := by
  cases rest with
  | nil => rfl
  | cons entry rest => rfl

theorem completeStep_settles {completion after : Completion}
    (stepped : state.completeStep completion = some (next, after)) :
    Settles state next completion after := by
  rcases completion with ⟨rest, stage, checkpoint, raising⟩
  cases rest with
  | nil => cases stepped
  | cons entry rest =>
      rcases entry with ⟨request, result⟩
      cases stage with
      | checkpoint => cases stepped
      | assign =>
          cases stepped
          constructor
          · intro others ledger
            have fits := ledger.matched (request.id, .waiting) List.mem_cons_self
            obtain ⟨none', open', outcomes, releases⟩ := fits
            have moved := ledger.move .assigned
              (fun cell =>
                { cell with
                  outcome := some (storedOutcome checkpoint result)
                  outcomes := cell.outcomes + 1 })
              ⟨rfl, open', congrArg (· + 1) outcomes, releases⟩
            have same : ∀ held : Int, held - Ledger.weight .waiting + Ledger.weight .assigned =
                held := by
              intro held
              exact Int.sub_add_cancel held 1
            rw [show CompletionStage.assign.head = .waiting from rfl, same] at moved
            exact moved
          · rfl
          · exact Int.le_refl _
          · exact updateCell_returned _ fun _ => rfl
          · rfl
          · exact head_slots
      | release =>
          cases stepped
          constructor
          · intro others ledger
            have fits := ledger.matched (request.id, .assigned) List.mem_cons_self
            obtain ⟨some', open', outcomes, releases⟩ := fits
            have moved := ledger.move .released
              (fun cell => { cell with releases := cell.releases + 1 })
              ⟨some', open', outcomes, congrArg (· + 1) releases⟩
            have less : state.barrier.readers - state.scopes - Ledger.weight .assigned +
                Ledger.weight .released = state.barrier.readers - 1 - state.scopes := by
              change state.barrier.readers - state.scopes - 1 + 0 = _
              omega
            rw [show CompletionStage.release.head = .assigned from rfl, less] at moved
            exact moved
          · rfl
          · exact Int.sub_le_self _ (by decide)
          · exact updateCell_returned (fun cell => { cell with releases := cell.releases + 1 })
              fun _ => rfl
          · rfl
          · exact head_slots
      | finish =>
          cases stepped
          constructor
          · intro others ledger
            have fits := ledger.matched (request.id, .released) List.mem_cons_self
            obtain ⟨some', _, outcomes, releases⟩ := fits
            have closed := ledger.close (fun cell => { cell with done := true })
              (Or.inl ⟨rfl, some', outcomes, releases⟩)
            rw [finish_slots rest checkpoint raising]
            rw [show CompletionStage.finish.head = .released from rfl] at closed
            have same : state.barrier.readers - state.scopes - Ledger.weight .released =
                state.barrier.readers - state.scopes := Int.sub_zero _
            rw [same] at closed
            exact closed
          · rfl
          · exact Int.le_refl _
          · exact updateCell_returned _ fun _ => rfl
          · rfl
          · intro slot member
            rw [finish_slots rest checkpoint raising] at member
            exact ⟨slot, List.mem_cons_of_mem _ member, rfl⟩

/-! ### The accounts over a step -/

theorem Accounted.worker_moves {queue : List (Option TxnRequest)} {worker : WorkerPhase}
    (accounted : state.Accounted)
    (same : (state.worker.slots ++ waitingSlots state.queued).Perm
      (worker.slots ++ waitingSlots queue.reduceOption)) :
    ({ state with queue := queue, worker := worker } : Coordinator).Accounted :=
  Ledger.perm accounted (same.append_left _)

/-- The submitting thread goes on with the requests it has. -/
theorem Accounted.lock_moves {lock : SubmissionLock} (accounted : state.Accounted)
    (same : state.lock.slots = lock.slots) :
    ({ state with lock := lock } : Coordinator).Accounted := by
  unfold Accounted slots at accounted ⊢
  rw [same] at accounted
  exact accounted

theorem admitted_accounted {request : TxnRequest} (accounted : state.Accounted)
    (entered : state.lock = .submitting request) :
    ({ state with
      barrier := { state.barrier with readers := state.barrier.readers + 1 }
      lock := .admitted request } : Coordinator).Accounted := by
  unfold Accounted slots at accounted
  rw [entered] at accounted
  have fits := Ledger.matched accounted (request.id, .entered) List.mem_cons_self
  have moved := Ledger.move accounted .waiting id fits
  have more : state.barrier.readers - state.scopes - Ledger.weight .entered +
      Ledger.weight .waiting = state.barrier.readers + 1 - state.scopes := by
    change state.barrier.readers - state.scopes - 0 + 1 = _
    omega
  have same : updated state.cells request.id id = state.cells := by
    funext other
    unfold updated
    split
    · next here => rw [here]; rfl
    · rfl
  rw [more, same] at moved
  exact moved

theorem enqueued_accounted {request : TxnRequest} (accounted : state.Accounted)
    (admitted : state.lock = .admitted request) :
    (({ state with queue := state.queue ++ [some request] } : Coordinator).returnRequest
      request).Accounted := by
  unfold Accounted slots at accounted
  rw [admitted] at accounted
  have below := Ledger.bounded accounted (request.id, .waiting) List.mem_cons_self
  have marked := Ledger.markReturned accounted below (Or.inl List.mem_cons_self)
  have moved : (((request.id, SlotStage.waiting) : Slot) ::
      (state.worker.slots ++ waitingSlots state.queue.reduceOption)).Perm
        (state.worker.slots ++ waitingSlots (state.queue ++ [some request]).reduceOption) := by
    rw [List.reduceOption_append, waitingSlots_append, ← List.append_assoc]
    exact (List.perm_append_singleton _ _).symm
  exact Ledger.perm marked moved

theorem unqueued_accounted {request : TxnRequest} (accounted : state.Accounted)
    (unreturned : (state.cells request.id).returned = false)
    (admitted : state.lock = .admitted request) :
    ({ (state.updateCell request.id fun cell =>
        { cell with releases := cell.releases + 1 }).releaseShared with
      lock := .free } : Coordinator).Accounted := by
  unfold Accounted slots at accounted
  rw [admitted] at accounted
  have fits := Ledger.matched accounted (request.id, .waiting) List.mem_cons_self
  obtain ⟨none', open', outcomes, releases⟩ := fits
  have closed := Ledger.close accounted (fun cell => { cell with releases := cell.releases + 1 })
    (Or.inr ⟨unreturned, open', none', outcomes, congrArg (· + 1) releases⟩)
  have less : state.barrier.readers - state.scopes - Ledger.weight .waiting =
      state.barrier.readers - 1 - state.scopes := by
    change state.barrier.readers - state.scopes - 1 = _
    omega
  rw [less] at closed
  exact closed

theorem completeStep_last {completion after : Completion}
    (completed : state.completeStep completion = some (next, after)) (last : after.rest = []) :
    completion.stage = .finish ∧
      ∃ request result, completion.rest = [(request, result)] ∧
        (next.cells request.id).done = true := by
  rcases completion with ⟨rest, stage, checkpoint, raising⟩
  cases rest with
  | nil => cases completed
  | cons entry rest =>
      rcases entry with ⟨request, result⟩
      cases stage with
      | checkpoint => cases completed
      | assign =>
          cases completed
          cases last
      | release =>
          cases completed
          cases last
      | finish =>
          cases completed
          cases last
          refine ⟨rfl, request, result, rfl, ?_⟩
          simp [updateCell]

theorem Completion.slots_nil {completion : Completion} (finished : completion.rest = []) :
    completion.slots = [] := by
  unfold Completion.slots
  rw [finished]

theorem inlineComplete_accounted {settled : Coordinator} {completion after : Completion}
    {lock : SubmissionLock} (accounted : state.Accounted)
    (running : state.lock = .completing completion)
    (completed : state.completeStep completion = some (settled, after))
    (rest : lock.slots = after.slots) :
    ({ settled with lock := lock } : Coordinator).Accounted := by
  have settles := completeStep_settles completed
  unfold Accounted slots at accounted ⊢
  rw [running] at accounted
  change Ledger (completion.slots ++ _) _ _ _ at accounted
  have ledger := settles.accounts accounted
  have worker : settled.worker = state.worker := by rw [settles.frame]
  have queue : settled.queue = state.queue := by rw [settles.frame]
  unfold queued at ledger ⊢
  rw [rest, worker, queue]
  exact ledger

theorem submitStep_accounted {action : CoordinatorAction} (accounted : state.Accounted)
    (unreturned : ∀ slot ∈ state.lock.slots, (state.cells slot.1).returned = false)
    (stepped : state.submitStep action = some next) : next.Accounted := by
  cases submitStep_move stepped with
  | refuse loadsPayload free stopping => exact accounted
  | enter loadsPayload free running =>
      unfold Accounted slots at accounted
      rw [free] at accounted
      exact Ledger.enter accounted
  | share request entered shared => exact admitted_accounted accounted entered
  | enqueue request admitted threaded => exact enqueued_accounted accounted admitted
  | enqueueFails request admitted =>
      have own := unreturned (request.id, .waiting) (by rw [admitted]; exact List.mem_cons_self)
      exact unqueued_accounted accounted own admitted
  | inline _ request result raising admitted threadless =>
      exact accounted.lock_moves (by rw [admitted]; rfl)
  | checkpoint completion result running before =>
      apply accounted.lock_moves
      rw [running]
      exact (capture_slots result before).symm
  | complete completion after settled running completed more =>
      exact inlineComplete_accounted accounted running completed rfl
  | raise completion after settled running completed last =>
      exact inlineComplete_accounted accounted running completed
        (Completion.slots_nil last).symm
  | finish completion after settled request result rest running first completed last =>
      have freed : ({ settled with lock := .free } : Coordinator).Accounted :=
        inlineComplete_accounted accounted running completed (Completion.slots_nil last).symm
      obtain ⟨_, _, _, only, done⟩ := completeStep_last completed last
      cases first.symm.trans only
      have below : request.id < settled.nextId := by
        have settles := completeStep_settles completed
        have same : settled.nextId = state.nextId := by rw [settles.frame]
        rw [same]
        apply Ledger.bounded accounted (request.id, completion.stage.head)
        unfold slots
        rw [running]
        apply List.mem_append_left
        dsimp only [SubmissionLock.slots]
        unfold Completion.slots
        rw [first]
        exact List.mem_cons_self
      exact Ledger.markReturned freed below (Or.inr done)
  | stopAgain free stopping => exact accounted
  | stop free running =>
      apply accounted.lock_moves
      rw [free]
      split
      · rfl
      · rfl
  | putMarker stopping =>
      unfold Accounted slots queued at accounted ⊢
      rw [List.reduceOption_append, List.reduceOption_cons_of_none, List.reduceOption_nil,
        List.append_nil]
      rw [stopping] at accounted
      exact accounted

theorem workerAfter_slots (completion : Completion) (stop : Bool) :
    (workerAfter completion stop).slots = completion.slots := by
  unfold workerAfter
  split
  · next finished =>
      unfold Completion.slots
      rw [finished]
      split
      · rfl
      · split
        · rfl
        · rfl
  · rfl

theorem complete_accounted {settled : Coordinator} {completion after : Completion} {stop : Bool}
    (accounted : state.Accounted) (completing : state.worker = .completing completion stop)
    (completed : state.completeStep completion = some (settled, after)) :
    ({ settled with worker := workerAfter after stop } : Coordinator).Accounted := by
  have settles := completeStep_settles completed
  unfold Accounted slots at accounted ⊢
  rw [completing] at accounted
  have first : Ledger (completion.slots ++ (state.lock.slots ++ waitingSlots state.queued))
      state.cells state.nextId (state.barrier.readers - state.scopes) :=
    accounted.perm (List.perm_append_comm_assoc _ _ _)
  have ledger := settles.accounts first
  rw [workerAfter_slots]
  have lock : settled.lock = state.lock := by rw [settles.frame]
  have queue : settled.queue = state.queue := by rw [settles.frame]
  unfold queued at ledger ⊢
  rw [lock, queue]
  exact ledger.perm (List.perm_append_comm_assoc _ _ _)

theorem workerStep_accounted {action : CoordinatorAction} (accounted : state.Accounted)
    (stepped : state.workerStep action = some next) : next.Accounted := by
  by_cases completes : action = .complete
  · cases completes
    obtain ⟨completion, stop, settled, after, completing, completed, same⟩ := complete_inv stepped
    rw [same]
    exact complete_accounted accounted completing completed
  · obtain ⟨move, frame⟩ := workerStep_move completes stepped
    rw [frame]
    exact accounted.worker_moves move.slots_perm

theorem scopeStep_accounted {action : CoordinatorAction} (accounted : state.Accounted)
    (stepped : state.scopeStep action = some next) : next.Accounted := by
  cases action with
  | openScope =>
      obtain ⟨after, acquired, same⟩ := Option.map_eq_some_iff.1 stepped
      obtain ⟨_, more⟩ := Option.ite_none_left_eq_some.1 acquired
      cases more
      cases same
      have balance : state.barrier.readers + 1 - ((state.scopes + 1 : Nat) : Int) =
          state.barrier.readers - state.scopes := by omega
      unfold Accounted
      dsimp only
      rw [balance]
      exact accounted
  | closeScope =>
      obtain ⟨some, same⟩ := Option.ite_none_left_eq_some.1 stepped
      cases same
      have balance : state.barrier.readers - 1 - ((state.scopes - 1 : Nat) : Int) =
          state.barrier.readers - state.scopes := by omega
      unfold Accounted releaseShared
      dsimp only
      rw [balance]
      exact accounted
  | enterExclusive =>
      obtain ⟨_, same⟩ := Option.ite_none_left_eq_some.1 stepped
      cases same
      exact accounted
  | grantExclusive =>
      obtain ⟨_, same⟩ := Option.ite_none_left_eq_some.1 stepped
      cases same
      exact accounted
  | leaveExclusive =>
      obtain ⟨_, same⟩ := Option.ite_none_left_eq_some.1 stepped
      cases same
      exact accounted
  | _ => cases stepped

end UsdConnect.Coordinator
