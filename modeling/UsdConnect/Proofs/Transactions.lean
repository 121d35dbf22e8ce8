/-
Purpose: Every request that was returned reaches one outcome and releases the barrier once, and
  maintenance is alone, as long as the worker lives for what is queued.
Trusted boundary: none
Main exports: Coordinator.WorkerServes, Coordinator.Balanced
-/
import UsdConnect.Proofs.TransactionSteps
import UsdConnect.Lib.Machine

namespace UsdConnect

/-- The worker has taken the stop marker. -/
def WorkerPhase.stopped : WorkerPhase → Bool
  | .committing _ stop | .retrying _ _ stop | .completing _ stop => stop
  | .finished => true
  | .absent | .idle | .collecting _ | .dead => false

/-- A worker at work has a request in hand. -/
def WorkerPhase.Busy : WorkerPhase → Prop
  | .collecting batch | .committing batch _ => batch ≠ []
  | .retrying _ pending _ => pending ≠ []
  | .completing completion _ => completion.rest ≠ []
  | .absent | .idle | .finished | .dead => True

/-- Steps that a completion still takes. -/
def Completion.left (completion : Completion) : Nat :=
  match completion.stage with
  | .checkpoint => 4 * completion.rest.length + 1
  | .assign => 4 * completion.rest.length
  | .release => 4 * completion.rest.length - 1
  | .finish => 4 * completion.rest.length - 2

/-- Bound on the steps of the worker for the requests it has in hand. -/
def WorkerPhase.left : WorkerPhase → Nat
  | .collecting batch => 15 * batch.length + 4
  | .committing batch _ => 15 * batch.length + 3
  | .retrying settled pending _ => 10 * pending.length + 5 * settled.length + 2
  | .completing completion _ => completion.left
  | .absent | .idle | .finished | .dead => 0

namespace Coordinator

variable {state next : Coordinator}

/-! ### The barrier over a step -/

/-- One thread at most is inside the exclusive part, and alone when it has been granted. -/
structure Excludes (state : Coordinator) : Prop where
  single : state.draining + state.holding = if state.barrier.exclusive then 1 else 0
  apart : 0 < state.holding → state.barrier.readers ≤ 0

/-- A step that takes the barrier shared or releases it. -/
structure KeepsBarrier (state next : Coordinator) : Prop where
  draining : next.draining = state.draining
  holding : next.holding = state.holding
  exclusive : next.barrier.exclusive = state.barrier.exclusive
  readers : next.barrier.readers ≤ state.barrier.readers ∨ state.barrier.exclusive = false

theorem Excludes.of_keeps (excludes : state.Excludes) (keeps : KeepsBarrier state next) :
    next.Excludes := by
  constructor
  · rw [keeps.draining, keeps.holding, keeps.exclusive]
    exact excludes.single
  · intro holding
    rw [keeps.holding] at holding
    rcases keeps.readers with fewer | shared
    · exact Int.le_trans fewer (excludes.apart holding)
    · have single := excludes.single
      rw [shared] at single
      simp only [Bool.false_eq_true, if_false] at single
      omega

theorem KeepsBarrier.of_eq (draining : next.draining = state.draining)
    (holding : next.holding = state.holding) (barrier : next.barrier = state.barrier) :
    KeepsBarrier state next where
  draining := draining
  holding := holding
  exclusive := congrArg TxnBarrier.exclusive barrier
  readers := Or.inl (Int.le_of_eq (congrArg TxnBarrier.readers barrier))

theorem acquireShared_keeps (acquired : state.acquireShared = some next) :
    KeepsBarrier state next := by
  obtain ⟨shared, same⟩ := Option.ite_none_left_eq_some.1 acquired
  cases same
  exact ⟨rfl, rfl, rfl, Or.inr (Bool.eq_false_iff.2 shared)⟩

theorem completeStep_keeps {completion after : Completion}
    (completed : state.completeStep completion = some (next, after)) :
    KeepsBarrier state next := by
  have settles := completeStep_settles completed
  constructor
  · rw [settles.frame]
  · rw [settles.frame]
  · rw [settles.frame]
  · exact Or.inl settles.released

theorem submitStep_keeps {action : CoordinatorAction}
    (stepped : state.submitStep action = some next) : KeepsBarrier state next := by
  cases submitStep_move stepped with
  | share request entered shared => exact ⟨rfl, rfl, rfl, Or.inr shared⟩
  | enqueueFails request admitted =>
      exact ⟨rfl, rfl, rfl, Or.inl (Int.sub_le_self _ (by decide))⟩
  | complete completion after settled running completed more =>
      have keeps := completeStep_keeps completed
      exact ⟨keeps.draining, keeps.holding, keeps.exclusive, keeps.readers⟩
  | raise completion after settled running completed last =>
      have keeps := completeStep_keeps completed
      exact ⟨keeps.draining, keeps.holding, keeps.exclusive, keeps.readers⟩
  | finish completion after settled request result rest running first completed last =>
      have keeps := completeStep_keeps completed
      exact ⟨keeps.draining, keeps.holding, keeps.exclusive, keeps.readers⟩
  | _ => exact .of_eq rfl rfl rfl

theorem workerStep_keeps {action : CoordinatorAction}
    (stepped : state.workerStep action = some next) : KeepsBarrier state next := by
  by_cases completes : action = .complete
  · cases completes
    obtain ⟨completion, stop, settled, after, _, completed, same⟩ := complete_inv stepped
    have keeps := completeStep_keeps completed
    rw [same]
    exact ⟨keeps.draining, keeps.holding, keeps.exclusive, keeps.readers⟩
  · obtain ⟨_, frame⟩ := workerStep_move completes stepped
    rw [frame]
    exact .of_eq rfl rfl rfl

theorem scopeStep_excludes {action : CoordinatorAction} (excludes : state.Excludes)
    (stepped : state.scopeStep action = some next) : next.Excludes := by
  have single := excludes.single
  cases action with
  | openScope =>
      obtain ⟨after, acquired, same⟩ := Option.map_eq_some_iff.1 stepped
      have keeps := acquireShared_keeps acquired
      cases same
      exact excludes.of_keeps ⟨keeps.draining, keeps.holding, keeps.exclusive, keeps.readers⟩
  | closeScope =>
      obtain ⟨_, same⟩ := Option.ite_none_left_eq_some.1 stepped
      cases same
      exact excludes.of_keeps ⟨rfl, rfl, rfl, Or.inl (Int.sub_le_self _ (by decide))⟩
  | enterExclusive =>
      obtain ⟨free, same⟩ := Option.ite_none_left_eq_some.1 stepped
      cases same
      rw [if_neg free] at single
      constructor
      · dsimp only
        rw [if_pos rfl]
        omega
      · intro holding
        dsimp only at holding
        omega
  | grantExclusive =>
      obtain ⟨waits, same⟩ := Option.ite_none_left_eq_some.1 stepped
      cases same
      rw [not_or] at waits
      constructor
      · dsimp only
        rw [← single]
        omega
      · intro _
        exact Int.not_lt.1 waits.2
  | leaveExclusive =>
      obtain ⟨holds, same⟩ := Option.ite_none_left_eq_some.1 stepped
      cases same
      have bound : state.draining + state.holding ≤ 1 := by
        rw [single]
        split
        · exact Nat.le_refl _
        · exact Nat.zero_le _
      constructor
      · dsimp only
        rw [if_neg Bool.false_ne_true]
        omega
      · intro holding
        dsimp only at holding
        omega
  | _ => cases stepped

/-! ### The stop marker -/

/-- What the queue, the worker and the submission lock know about the stop marker. -/
structure Ordered (state : Coordinator) : Prop where
  lastMarker : none ∉ state.queue.dropLast
  taken : state.worker.stopped = true → state.queue = []
  stopped : none ∈ state.queue ∨ state.worker.stopped = true →
    state.isStopping = true ∧ state.lock = .free
  stopping : state.lock = .stopping → state.isStopping = true ∧ state.worker ≠ .absent
  admitting : state.lock ≠ .free → state.lock ≠ .stopping → state.isStopping = false
  threadless : state.worker = .absent → state.queue = []
  busy : state.worker.Busy
  dead : state.worker = .dead → state.queued = []

/-- A request is queued only for a worker that lives, and an exception ends the worker only when no
request is queued. -/
def WorkerServes (state : Coordinator) : CoordinatorAction → Prop
  | .enqueue => state.worker ≠ .dead
  | .complete =>
      match state.worker with
      | .completing completion _ =>
          completion.raising = true → completion.stage = .finish → completion.rest.tail = [] →
            state.queued = []
      | _ => True
  | _ => True

/-- While a thread other than the one that stops is inside, there is no marker. -/
theorem Ordered.unmarked (ordered : state.Ordered) (locked : state.lock ≠ .free) :
    none ∉ state.queue ∧ state.worker.stopped = false := by
  constructor
  · intro marked
    exact locked (ordered.stopped (Or.inl marked)).2
  · apply Bool.eq_false_iff.2
    intro stopped
    exact locked (ordered.stopped (Or.inr stopped)).2

theorem Ordered.unmarked_of_running (ordered : state.Ordered) (running : state.isStopping = false) :
    none ∉ state.queue ∧ state.worker.stopped = false := by
  constructor
  · intro marked
    exact Bool.false_ne_true (running.symm.trans (ordered.stopped (Or.inl marked)).1)
  · apply Bool.eq_false_iff.2
    intro stopped
    exact Bool.false_ne_true (running.symm.trans (ordered.stopped (Or.inr stopped)).1)

/-- Without a marker the lock may be taken and given back by a thread that submits. -/
theorem Ordered.of_lock (ordered : state.Ordered) (marker : none ∉ next.queue)
    (worker : next.worker = state.worker) (unstopped : state.worker.stopped = false)
    (running : next.isStopping = false) (away : next.lock ≠ .stopping)
    (threadless : state.worker = .absent → next.queue = [])
    (dead : state.worker = .dead → next.queued = []) : next.Ordered where
  lastMarker := fun member => marker (List.dropLast_subset _ member)
  taken := by
    rw [worker, unstopped]
    exact fun impossible => absurd impossible Bool.false_ne_true
  stopped := by
    rw [worker, unstopped]
    intro either
    rcases either with marked | impossible
    · exact absurd marked marker
    · exact absurd impossible Bool.false_ne_true
  stopping := fun impossible => absurd impossible away
  admitting := fun _ _ => running
  threadless := by
    rw [worker]
    exact threadless
  busy := by
    rw [worker]
    exact ordered.busy
  dead := by
    rw [worker]
    exact dead

/-- The same for a step that leaves the queue alone. -/
theorem Ordered.of_lock_only (ordered : state.Ordered) (unmarked : none ∉ state.queue)
    (unstopped : state.worker.stopped = false) (queue : next.queue = state.queue)
    (worker : next.worker = state.worker) (running : next.isStopping = false)
    (away : next.lock ≠ .stopping) : next.Ordered := by
  apply ordered.of_lock (queue ▸ unmarked) worker unstopped running away
  · rw [queue]
    exact ordered.threadless
  · unfold queued
    rw [queue]
    exact ordered.dead

theorem Ordered.of_completed {settled : Coordinator} {completion after : Completion}
    {lock : SubmissionLock} (ordered : state.Ordered)
    (completing : state.lock = .completing completion)
    (completed : state.completeStep completion = some (settled, after))
    (away : lock ≠ .stopping) : ({ settled with lock := lock } : Coordinator).Ordered := by
  obtain ⟨marker, unstopped⟩ := ordered.unmarked (by simp [completing])
  have running := ordered.admitting (by simp [completing]) (by simp [completing])
  have frame := (completeStep_settles completed).frame
  apply ordered.of_lock_only marker unstopped
  · change settled.queue = state.queue
    rw [frame]
  · change settled.worker = state.worker
    rw [frame]
  · change settled.isStopping = false
    rw [frame]
    exact running
  · exact away

theorem submitStep_ordered {action : CoordinatorAction} (ordered : state.Ordered)
    (serves : state.WorkerServes action) (stepped : state.submitStep action = some next) :
    next.Ordered := by
  cases submitStep_move stepped with
  | refuse loadsPayload free stopping => exact ordered
  | enter loadsPayload free running =>
      obtain ⟨marker, unstopped⟩ := ordered.unmarked_of_running running
      exact ordered.of_lock_only marker unstopped rfl rfl running nofun
  | share request entered shared =>
      obtain ⟨marker, unstopped⟩ := ordered.unmarked (by simp [entered])
      have running := ordered.admitting (by simp [entered]) (by simp [entered])
      exact ordered.of_lock_only marker unstopped rfl rfl running nofun
  | enqueue request admitted threaded =>
      obtain ⟨marker, unstopped⟩ := ordered.unmarked (by simp [admitted])
      have running := ordered.admitting (by simp [admitted]) (by simp [admitted])
      have still : none ∉ state.queue ++ [some request] := by simp [marker]
      refine ordered.of_lock still rfl unstopped running nofun ?_ ?_
      · exact fun absent => absurd absent threaded
      · exact fun dead => absurd dead serves
  | enqueueFails request admitted =>
      obtain ⟨marker, unstopped⟩ := ordered.unmarked (by simp [admitted])
      have running := ordered.admitting (by simp [admitted]) (by simp [admitted])
      exact ordered.of_lock_only marker unstopped rfl rfl running nofun
  | inline _ request result raising admitted threadless =>
      obtain ⟨marker, unstopped⟩ := ordered.unmarked (by simp [admitted])
      have running := ordered.admitting (by simp [admitted]) (by simp [admitted])
      exact ordered.of_lock_only marker unstopped rfl rfl running nofun
  | checkpoint completion result completing before =>
      obtain ⟨marker, unstopped⟩ := ordered.unmarked (by simp [completing])
      have running := ordered.admitting (by simp [completing]) (by simp [completing])
      exact ordered.of_lock_only marker unstopped rfl rfl running nofun
  | complete completion after settled completing completed more =>
      exact ordered.of_completed completing completed nofun
  | raise completion after settled completing completed last =>
      exact ordered.of_completed completing completed nofun
  | finish completion after settled request result rest completing first completed last =>
      have freed : ({ settled with lock := .free } : Coordinator).Ordered :=
        ordered.of_completed completing completed nofun
      exact ⟨freed.lastMarker, freed.taken, freed.stopped, freed.stopping, freed.admitting,
        freed.threadless, freed.busy, freed.dead⟩
  | stopAgain free stopping => exact ordered
  | stop free running =>
      obtain ⟨marker, unstopped⟩ := ordered.unmarked_of_running running
      constructor
      · exact ordered.lastMarker
      · exact ordered.taken
      · intro either
        rcases either with marked | stopped
        · exact absurd marked marker
        · exact absurd (unstopped.symm.trans stopped) Bool.false_ne_true
      · intro locked
        refine ⟨rfl, fun absent => ?_⟩
        change (if state.worker = .absent then SubmissionLock.free else .stopping) = _ at locked
        rw [if_pos absent] at locked
        cases locked
      · intro held away
        dsimp only at held away
        split at held
        · exact absurd rfl held
        · next present => exact absurd (if_neg present) away
      · exact ordered.threadless
      · exact ordered.busy
      · exact ordered.dead
  | putMarker stopping =>
      obtain ⟨marker, unstopped⟩ := ordered.unmarked (by simp [stopping])
      obtain ⟨isStopping, present⟩ := ordered.stopping stopping
      constructor
      · dsimp only
        rw [List.dropLast_concat]
        exact marker
      · exact fun stopped => absurd (unstopped.symm.trans stopped) Bool.false_ne_true
      · exact fun _ => ⟨isStopping, rfl⟩
      · nofun
      · exact fun held => absurd rfl held
      · exact fun absent => absurd absent present
      · exact ordered.busy
      · intro dead
        unfold queued
        dsimp only
        rw [List.reduceOption_append]
        have empty := ordered.dead dead
        unfold queued at empty
        rw [empty]
        rfl

/-- The marker is the last entry of the queue that the worker takes it from. -/
theorem rest_unmarked {item : Option TxnRequest} {rest : List (Option TxnRequest)}
    (last : none ∉ (item :: rest).dropLast) :
    none ∉ rest.dropLast ∧ (item = none → rest = []) := by
  cases rest with
  | nil => exact ⟨List.not_mem_nil, fun _ => rfl⟩
  | cons second rest =>
      rw [List.dropLast_cons_cons, List.mem_cons, not_or] at last
      exact ⟨last.2, fun marker => absurd marker.symm last.1⟩

/-- What a worker step leaves of the facts about the marker, when the lock is untouched. -/
theorem Ordered.of_worker {queue : List (Option TxnRequest)} {worker : WorkerPhase}
    (ordered : state.Ordered) (lastMarker : none ∉ queue.dropLast)
    (taken : worker.stopped = true → queue = [])
    (known : none ∈ queue ∨ worker.stopped = true →
      none ∈ state.queue ∨ state.worker.stopped = true)
    (still : worker ≠ .absent) (busy : worker.Busy)
    (dead : worker = .dead → queue.reduceOption = []) :
    ({ state with queue := queue, worker := worker } : Coordinator).Ordered where
  lastMarker := lastMarker
  taken := taken
  stopped := fun either => ordered.stopped (known either)
  stopping := fun locked => ⟨(ordered.stopping locked).1, still⟩
  admitting := ordered.admitting
  threadless := fun absent => absurd absent still
  busy := busy
  dead := dead

theorem WorkerMove.ordered {worker after : WorkerPhase} {queue rest : List (Option TxnRequest)}
    (ordered : state.Ordered) (working : state.worker = worker) (queued : state.queue = queue)
    (move : WorkerMove worker queue after rest) :
    ({ state with queue := rest, worker := after } : Coordinator).Ordered := by
  have last := ordered.lastMarker
  have taken := ordered.taken
  have busy := ordered.busy
  rw [queued] at last taken
  rw [working] at taken busy
  apply ordered.of_worker
  · cases move with
    | take request rest => exact (rest_unmarked last).1
    | marker rest => exact (rest_unmarked last).1
    | collect batch request rest => exact (rest_unmarked last).1
    | cutByMarker batch rest => exact (rest_unmarked last).1
    | _ => exact last
  · cases move with
    | take request rest => nofun
    | marker rest => exact fun _ => (rest_unmarked last).2 rfl
    | collect batch request rest => nofun
    | cutByMarker batch rest => exact fun _ => (rest_unmarked last).2 rfl
    | cut batch queue => nofun
    | _ => exact taken
  · rw [queued, working]
    cases move with
    | take request rest =>
        intro either
        rcases either with marked | stopped
        · exact Or.inl (List.mem_cons_of_mem _ marked)
        · cases stopped
    | marker rest => exact fun _ => Or.inl List.mem_cons_self
    | collect batch request rest =>
        intro either
        rcases either with marked | stopped
        · exact Or.inl (List.mem_cons_of_mem _ marked)
        · cases stopped
    | cutByMarker batch rest => exact fun _ => Or.inl List.mem_cons_self
    | _ => exact id
  · cases move <;> nofun
  · cases move with
    | take request rest => exact List.cons_ne_nil _ _
    | marker rest => trivial
    | collect batch request rest => exact List.append_ne_nil_of_right_ne_nil _ (List.cons_ne_nil _ _)
    | cutByMarker batch rest => exact busy
    | cut batch queue => exact busy
    | commit batch stop results queue one =>
        intro empty
        rcases List.zip_eq_nil_iff.1 empty with none | none
        · exact busy none
        · rw [none] at one
          exact busy (List.eq_nil_of_length_eq_zero one.symm)
    | fail batch stop queue => exact busy
    | interrupt batch stop queue => exact fun empty => busy (List.map_eq_nil_iff.1 empty)
    | retry settled request pending stop result queue more => exact more
    | lastRetry settled request stop result queue =>
        exact List.append_ne_nil_of_right_ne_nil _ (List.cons_ne_nil _ _)
    | retryInterrupt settled pending stop queue more =>
        exact fun empty => more (List.append_eq_nil_iff.1 (List.map_eq_nil_iff.1 empty)).2
    | checkpoint completion stop result queue before =>
        dsimp only [WorkerPhase.Busy]
        rw [capture_rest]
        exact busy
  · cases move <;> nofun

theorem workerAfter_ordered {settled : Coordinator} {completion after : Completion} {stop : Bool}
    (ordered : state.Ordered) (serves : state.WorkerServes .complete)
    (completing : state.worker = .completing completion stop)
    (completed : state.completeStep completion = some (settled, after)) :
    ({ state with worker := workerAfter after stop } : Coordinator).Ordered := by
  have taken := ordered.taken
  rw [completing] at taken
  have stopped : (workerAfter after stop).stopped = true → stop = true := by
    unfold workerAfter
    split
    · split
      · nofun
      · split
        · next stopping => exact fun _ => stopping
        · nofun
    · exact id
  apply ordered.of_worker ordered.lastMarker
  · exact fun finished => taken (stopped finished)
  · rw [completing]
    exact Or.imp_right stopped
  · unfold workerAfter
    split
    · split
      · nofun
      · split <;> nofun
    · nofun
  · unfold workerAfter
    split
    · split
      · trivial
      · split <;> trivial
    · next more => exact more
  · intro dead
    unfold workerAfter at dead
    split at dead
    · next last =>
        split at dead
        · next raising =>
            obtain ⟨finishing, request, result, only, _⟩ := completeStep_last completed last
            unfold WorkerServes at serves
            rw [completing] at serves
            apply serves _ finishing
            · rw [only]
              rfl
            · rw [← (completeStep_settles completed).raising]
              exact raising
        · split at dead <;> cases dead
    · cases dead

theorem Ordered.congr (ordered : state.Ordered) (queue : next.queue = state.queue)
    (worker : next.worker = state.worker) (isStopping : next.isStopping = state.isStopping)
    (lock : next.lock = state.lock) : next.Ordered := by
  constructor
  · rw [queue]
    exact ordered.lastMarker
  · rw [worker, queue]
    exact ordered.taken
  · rw [queue, worker, isStopping, lock]
    exact ordered.stopped
  · rw [lock, isStopping, worker]
    exact ordered.stopping
  · rw [lock, isStopping]
    exact ordered.admitting
  · rw [worker, queue]
    exact ordered.threadless
  · rw [worker]
    exact ordered.busy
  · unfold queued
    rw [worker, queue]
    exact ordered.dead

theorem workerStep_ordered {action : CoordinatorAction} (ordered : state.Ordered)
    (serves : state.WorkerServes action) (stepped : state.workerStep action = some next) :
    next.Ordered := by
  by_cases completes : action = .complete
  · cases completes
    obtain ⟨completion, stop, settled, after, completing, completed, same⟩ := complete_inv stepped
    have frame := (completeStep_settles completed).frame
    rw [same]
    apply (workerAfter_ordered ordered serves completing completed).congr
    · change settled.queue = state.queue
      rw [frame]
    · rfl
    · change settled.isStopping = state.isStopping
      rw [frame]
    · change settled.lock = state.lock
      rw [frame]
  · obtain ⟨move, frame⟩ := workerStep_move completes stepped
    rw [frame]
    exact move.ordered ordered rfl rfl

theorem scopeStep_ordered {action : CoordinatorAction} (ordered : state.Ordered)
    (stepped : state.scopeStep action = some next) : next.Ordered := by
  cases action with
  | openScope =>
      obtain ⟨after, acquired, same⟩ := Option.map_eq_some_iff.1 stepped
      obtain ⟨_, more⟩ := Option.ite_none_left_eq_some.1 acquired
      cases more
      cases same
      exact ordered.congr rfl rfl rfl rfl
  | closeScope =>
      obtain ⟨_, same⟩ := Option.ite_none_left_eq_some.1 stepped
      cases same
      exact ordered.congr rfl rfl rfl rfl
  | enterExclusive =>
      obtain ⟨_, same⟩ := Option.ite_none_left_eq_some.1 stepped
      cases same
      exact ordered.congr rfl rfl rfl rfl
  | grantExclusive =>
      obtain ⟨_, same⟩ := Option.ite_none_left_eq_some.1 stepped
      cases same
      exact ordered.congr rfl rfl rfl rfl
  | leaveExclusive =>
      obtain ⟨_, same⟩ := Option.ite_none_left_eq_some.1 stepped
      cases same
      exact ordered.congr rfl rfl rfl rfl
  | _ => cases stepped

/-! ### Requests that `submit` has not returned -/

/-- The submitting thread has not returned the request it has in hand. -/
def Unreturned (state : Coordinator) : Prop :=
  ∀ slot ∈ state.lock.slots, (state.cells slot.1).returned = false

theorem submitStep_unreturned {action : CoordinatorAction} (accounted : state.Accounted)
    (unreturned : state.Unreturned) (stepped : state.submitStep action = some next) :
    next.Unreturned := by
  cases submitStep_move stepped with
  | refuse loadsPayload free stopping => exact unreturned
  | enter loadsPayload free running =>
      intro slot member
      cases List.mem_singleton.1 member
      dsimp only
      rw [Ledger.unused accounted state.nextId (Nat.le_refl _)]
  | share request entered shared =>
      intro slot member
      cases List.mem_singleton.1 member
      apply unreturned (request.id, .entered)
      rw [entered]
      exact List.mem_cons_self
  | enqueue request admitted threaded => nofun
  | enqueueFails request admitted => nofun
  | inline _ request result raising admitted threadless =>
      intro slot member
      cases List.mem_singleton.1 member
      apply unreturned (request.id, .waiting)
      rw [admitted]
      exact List.mem_cons_self
  | checkpoint completion result running before =>
      unfold Unreturned at unreturned ⊢
      rw [running] at unreturned
      dsimp only [SubmissionLock.slots] at unreturned ⊢
      rw [capture_slots result before]
      exact unreturned
  | complete completion after settled running completed more =>
      have settles := completeStep_settles completed
      intro slot member
      obtain ⟨before, present, same⟩ := settles.same slot member
      dsimp only
      rw [settles.returned, ← same]
      apply unreturned before
      rw [running]
      exact present
  | raise completion after settled running completed last => nofun
  | finish completion after settled request result rest running first completed last => nofun
  | stopAgain free stopping => exact unreturned
  | stop free running =>
      unfold Unreturned
      dsimp only
      split
      · nofun
      · nofun
  | putMarker stopping => nofun

theorem workerStep_unreturned {action : CoordinatorAction} (unreturned : state.Unreturned)
    (stepped : state.workerStep action = some next) : next.Unreturned := by
  by_cases completes : action = .complete
  · cases completes
    obtain ⟨completion, stop, settled, after, _, completed, same⟩ := complete_inv stepped
    have settles := completeStep_settles completed
    have lock : settled.lock = state.lock := by rw [settles.frame]
    rw [same]
    intro slot member
    dsimp only at member ⊢
    rw [lock] at member
    rw [settles.returned]
    exact unreturned slot member
  · obtain ⟨_, frame⟩ := workerStep_move completes stepped
    rw [frame]
    exact unreturned

theorem scopeStep_unreturned {action : CoordinatorAction} (unreturned : state.Unreturned)
    (stepped : state.scopeStep action = some next) : next.Unreturned := by
  cases action with
  | openScope =>
      obtain ⟨after, acquired, same⟩ := Option.map_eq_some_iff.1 stepped
      obtain ⟨_, more⟩ := Option.ite_none_left_eq_some.1 acquired
      cases more
      cases same
      exact unreturned
  | closeScope =>
      obtain ⟨_, same⟩ := Option.ite_none_left_eq_some.1 stepped
      cases same
      exact unreturned
  | enterExclusive =>
      obtain ⟨_, same⟩ := Option.ite_none_left_eq_some.1 stepped
      cases same
      exact unreturned
  | grantExclusive =>
      obtain ⟨_, same⟩ := Option.ite_none_left_eq_some.1 stepped
      cases same
      exact unreturned
  | leaveExclusive =>
      obtain ⟨_, same⟩ := Option.ite_none_left_eq_some.1 stepped
      cases same
      exact unreturned
  | _ => cases stepped

/-! ### The worker comes to an end of its work -/

/-- Bound on the steps of the worker for everything queued. -/
def backlog (state : Coordinator) : Nat :=
  20 * state.queue.length + state.worker.left

theorem start_left (rest : List (TxnRequest × CommitResult)) (raising : Bool) :
    (Completion.start rest raising).left = 4 * rest.length + 1 := rfl

theorem interrupted_left (batch : List TxnRequest) :
    (Completion.interrupted batch).left = 4 * batch.length + 1 := by
  unfold Completion.interrupted
  rw [start_left, List.length_map]

theorem capture_left {completion : Completion} (result : CheckpointResult)
    (before : completion.stage = .checkpoint) :
    (completion.capture result).left + 1 = completion.left := by
  rcases completion with ⟨rest, stage, checkpoint, raising⟩
  cases before
  unfold Completion.capture
  split
  · rfl
  · rfl

theorem completeStep_left {completion after : Completion}
    (completed : state.completeStep completion = some (next, after)) :
    after.left < completion.left := by
  rcases completion with ⟨rest, stage, checkpoint, raising⟩
  cases rest with
  | nil => cases completed
  | cons entry rest =>
      rcases entry with ⟨request, result⟩
      cases stage with
      | checkpoint => cases completed
      | assign =>
          cases completed
          change 4 * (rest.length + 1) - 1 < 4 * (rest.length + 1)
          omega
      | release =>
          cases completed
          change 4 * (rest.length + 1) - 2 < 4 * (rest.length + 1) - 1
          omega
      | finish =>
          cases completed
          change 4 * rest.length < 4 * (rest.length + 1) - 2
          omega

theorem WorkerMove.left {worker after : WorkerPhase} {queue rest : List (Option TxnRequest)}
    (move : WorkerMove worker queue after rest) :
    20 * rest.length + after.left < 20 * queue.length + worker.left := by
  cases move with
  | take request rest =>
      simp only [WorkerPhase.left, List.length_cons, List.length_nil]
      omega
  | marker rest =>
      simp only [WorkerPhase.left, List.length_cons]
      omega
  | collect batch request rest =>
      simp only [WorkerPhase.left, List.length_cons, List.length_append, List.length_nil]
      omega
  | cutByMarker batch rest =>
      simp only [WorkerPhase.left, List.length_cons]
      omega
  | cut batch queue =>
      simp only [WorkerPhase.left]
      omega
  | commit batch stop results queue one =>
      simp only [WorkerPhase.left, start_left, List.length_zip, one]
      omega
  | fail batch stop queue =>
      simp only [WorkerPhase.left, List.length_nil]
      omega
  | interrupt batch stop queue =>
      simp only [WorkerPhase.left, interrupted_left]
      omega
  | retry settled request pending stop result queue more =>
      simp only [WorkerPhase.left, List.length_cons, List.length_append, List.length_nil]
      omega
  | lastRetry settled request stop result queue =>
      simp only [WorkerPhase.left, start_left, List.length_cons, List.length_append,
        List.length_nil]
      omega
  | retryInterrupt settled pending stop queue more =>
      simp only [WorkerPhase.left, interrupted_left, List.length_append, List.length_map]
      omega
  | checkpoint completion stop result queue before =>
      have less := capture_left result before
      simp only [WorkerPhase.left]
      omega

theorem workerStep_backlog {action : CoordinatorAction}
    (stepped : state.workerStep action = some next) : next.backlog < state.backlog := by
  by_cases completes : action = .complete
  · cases completes
    obtain ⟨completion, stop, settled, after, completing, completed, same⟩ := complete_inv stepped
    have queue : settled.queue = state.queue := by rw [(completeStep_settles completed).frame]
    have less := completeStep_left completed
    have bound : (workerAfter after stop).left ≤ after.left := by
      unfold workerAfter
      split
      · split
        · exact Nat.zero_le _
        · split
          · exact Nat.zero_le _
          · exact Nat.zero_le _
      · exact Nat.le_refl _
    unfold backlog
    rw [same, completing]
    dsimp only [WorkerPhase.left] at bound ⊢
    rw [queue]
    omega
  · exact (workerStep_move completes stepped).1.left

/-- A worker with a request in hand or in the queue has a step to take. -/
theorem worker_enabled (ordered : state.Ordered)
    (pending : state.worker.slots ++ waitingSlots state.queued ≠ []) :
    ∃ action after, state.workerStep action = some after := by
  have busy := ordered.busy
  have empties : state.queue = [] → waitingSlots state.queued = [] := by
    intro empty
    unfold queued
    rw [empty]
    rfl
  cases working : state.worker with
  | absent =>
      rw [working] at pending
      exact absurd (empties (ordered.threadless working)) pending
  | idle =>
      rw [working] at pending
      cases queue : state.queue with
      | nil => exact absurd (empties queue) pending
      | cons item rest =>
          refine ⟨.take, ?_⟩
          dsimp only [workerStep]
          rw [working, queue]
          cases item with
          | none => exact ⟨_, rfl⟩
          | some request => exact ⟨_, rfl⟩
  | collecting batch =>
      by_cases cuts : (state.batchFull batch || state.queue.isEmpty) = true
      · refine ⟨.cut, ?_⟩
        dsimp only [workerStep]
        rw [working]
        dsimp only
        rw [if_pos cuts]
        exact ⟨_, rfl⟩
      · rw [Bool.or_eq_true, not_or] at cuts
        refine ⟨.collect, ?_⟩
        dsimp only [workerStep]
        cases queue : state.queue with
        | nil =>
            rw [queue] at cuts
            exact absurd rfl cuts.2
        | cons item rest =>
            rw [working]
            cases item with
            | none =>
                dsimp only
                rw [if_neg cuts.1]
                exact ⟨_, rfl⟩
            | some request =>
                dsimp only
                rw [if_neg cuts.1]
                exact ⟨_, rfl⟩
  | committing batch stop =>
      refine ⟨.groupFails, ?_⟩
      dsimp only [workerStep]
      rw [working]
      exact ⟨_, rfl⟩
  | retrying settled pending stop =>
      rw [working] at busy
      cases pending with
      | nil => exact absurd rfl busy
      | cons request pending =>
          refine ⟨.retry .error, ?_⟩
          dsimp only [workerStep]
          rw [working]
          exact ⟨_, rfl⟩
  | completing completion stop =>
      rw [working] at busy
      rcases completion with ⟨rest, stage, checkpoint, raising⟩
      cases rest with
      | nil => exact absurd rfl busy
      | cons entry rest =>
          cases stage with
          | checkpoint =>
              refine ⟨.checkpoint .failed, ?_⟩
              dsimp only [workerStep]
              rw [working]
              exact ⟨_, rfl⟩
          | assign =>
              refine ⟨.complete, ?_⟩
              dsimp only [workerStep]
              rw [working]
              exact ⟨_, rfl⟩
          | release =>
              refine ⟨.complete, ?_⟩
              dsimp only [workerStep]
              rw [working]
              exact ⟨_, rfl⟩
          | finish =>
              refine ⟨.complete, ?_⟩
              dsimp only [workerStep]
              rw [working]
              exact ⟨_, rfl⟩
  | finished =>
      rw [working] at pending
      exact absurd (empties (ordered.taken (by rw [working]; rfl))) pending
  | dead =>
      rw [working, ordered.dead working] at pending
      exact absurd rfl pending

/-! ### The balance of the coordinator -/

/-- The coordinator is in balance.  No request is completed or released twice, and it is done only
with its outcome and its barrier released; the worker can go on as long as a returned request is not
done, and comes to the end of its work; nothing is behind the stop marker; the barrier counts the
admitted requests in hand and the open scopes, and its exclusive holder is alone. -/
structure Balanced (state : Coordinator) : Prop where
  once : ∀ id, (state.cells id).outcomes ≤ 1 ∧ (state.cells id).releases ≤ 1
  settled : ∀ id, (state.cells id).done = true →
    (state.cells id).outcome.isSome ∧ (state.cells id).outcomes = 1 ∧ (state.cells id).releases = 1
  progress : ∀ id, (state.cells id).returned = true → (state.cells id).done = false →
    ∃ action after, state.workerStep action = some after
  descent : ∀ action after, state.workerStep action = some after → after.backlog < state.backlog
  lastMarker : none ∉ state.queue.dropLast
  afterMarker : state.worker.stopped = true → state.queue = []
  admitted : (state.slots.map (·.1)).Nodup ∧
    ∀ slot ∈ state.slots, slot.2.Matches (state.cells slot.1)
  counted : state.barrier.readers =
    (state.slots.countP fun slot => slot.2.holds : Nat) + (state.scopes : Int)
  single : state.holding ≤ 1
  alone : 0 < state.holding → state.barrier.readers = 0

/-- The invariant of the coordinator. -/
structure Sound (state : Coordinator) : Prop where
  accounted : state.Accounted
  excludes : state.Excludes
  ordered : state.Ordered
  unreturned : state.Unreturned

theorem Sound.progress (sound : state.Sound) {id : Nat}
    (returned : (state.cells id).returned = true) (open' : (state.cells id).done = false) :
    ∃ action after, state.workerStep action = some after := by
  apply worker_enabled sound.ordered
  intro empty
  have known : id < state.nextId := by
    by_contra above
    rw [Ledger.unused sound.accounted id (Nat.not_lt.1 above)] at returned
    cases returned
  by_cases inHand : id ∈ state.slots.map (·.1)
  · obtain ⟨slot, member, same⟩ := List.mem_map.1 inHand
    unfold slots at member
    rw [empty, List.append_nil] at member
    have unreturned := sound.unreturned slot member
    rw [same, returned] at unreturned
    cases unreturned
  · rcases Ledger.closed sound.accounted id known inHand with ⟨done, _⟩ | ⟨unreturned, _⟩
    · exact Bool.false_ne_true (open'.symm.trans done)
    · exact Bool.false_ne_true (unreturned.symm.trans returned)

theorem Sound.balanced (sound : state.Sound) : state.Balanced where
  once := fun id => by
    obtain ⟨outcomes, releases, _⟩ := Ledger.cell_bounds sound.accounted id
    exact ⟨outcomes, releases⟩
  settled := fun id => (Ledger.cell_bounds sound.accounted id).2.2
  progress := fun _ => sound.progress
  descent := fun _ _ => workerStep_backlog
  lastMarker := sound.ordered.lastMarker
  afterMarker := sound.ordered.taken
  admitted := ⟨Ledger.nodup sound.accounted, Ledger.matched sound.accounted⟩
  counted := by
    have counted := Ledger.counted sound.accounted
    omega
  single := by
    have single := sound.excludes.single
    split at single
    · omega
    · omega
  alone := fun holding => by
    have counted := Ledger.counted sound.accounted
    have none' := sound.excludes.apart holding
    omega

theorem create_sound (batchSize : Nat) (hasGroup : Bool) : (create batchSize hasGroup).Sound where
  accounted := by
    unfold create Accounted slots
    split
    · exact ⟨List.nodup_nil, nofun, nofun, nofun, fun _ _ => rfl, rfl⟩
    · exact ⟨List.nodup_nil, nofun, nofun, nofun, fun _ _ => rfl, rfl⟩
  excludes := ⟨rfl, fun impossible => absurd impossible (Nat.lt_irrefl 0)⟩
  ordered := by
    unfold create
    split
    · exact ⟨List.not_mem_nil, fun _ => rfl, by simp [WorkerPhase.stopped], nofun, by simp,
        fun _ => rfl, trivial, fun _ => rfl⟩
    · exact ⟨List.not_mem_nil, fun _ => rfl, by simp [WorkerPhase.stopped], nofun, by simp,
        fun _ => rfl, trivial, fun _ => rfl⟩
  unreturned := nofun

theorem step_cases {action : CoordinatorAction} (stepped : state.step action = some next) :
    state.submitStep action = some next ∨ state.workerStep action = some next ∨
      state.scopeStep action = some next := by
  unfold step at stepped
  split at stepped
  all_goals first
    | exact Or.inl stepped
    | exact Or.inr (Or.inl stepped)
    | exact Or.inr (Or.inr stepped)

theorem Sound.step {action : CoordinatorAction} (sound : state.Sound)
    (serves : state.WorkerServes action) (stepped : state.step action = some next) :
    next.Sound := by
  rcases step_cases stepped with submits | works | scopes
  · constructor
    · exact submitStep_accounted sound.accounted sound.unreturned submits
    · exact sound.excludes.of_keeps (submitStep_keeps submits)
    · exact submitStep_ordered sound.ordered serves submits
    · exact submitStep_unreturned sound.accounted sound.unreturned submits
  · constructor
    · exact workerStep_accounted sound.accounted works
    · exact sound.excludes.of_keeps (workerStep_keeps works)
    · exact workerStep_ordered sound.ordered serves works
    · exact workerStep_unreturned sound.unreturned works
  · constructor
    · exact scopeStep_accounted sound.accounted scopes
    · exact scopeStep_excludes sound.excludes scopes
    · exact scopeStep_ordered sound.ordered scopes
    · exact scopeStep_unreturned sound.unreturned scopes

/-- In every run in which the worker serves, the coordinator is in balance. -/
theorem balanced_of_workerServes (batchSize : Nat) (hasGroup : Bool)
    (actions : List CoordinatorAction) (final : Coordinator)
    (serves : Machine.StepsMeet step WorkerServes (create batchSize hasGroup) actions)
    (ran : Machine.run step (create batchSize hasGroup) actions = some final) :
    final.Balanced := by
  have preserved : ∀ (state : Coordinator) (action : CoordinatorAction) (next : Coordinator),
      state.Sound → state.WorkerServes action → state.step action = some next → next.Sound :=
    fun _ _ _ sound serves stepped => sound.step serves stepped
  exact (Machine.run_preserves preserved actions _ final (create_sound batchSize hasGroup) serves
    ran).balanced

/-- A request is queued, committed and completed. -/
theorem balanced_of_workerServes_commit :
    ∃ final, Machine.run step (create 8 true)
        [.submit false, .admission, .enqueue, .take, .cut, .groupCommit [.committed],
          .checkpoint .captured, .complete, .complete, .complete] = some final ∧
      final.Balanced := by
  refine ⟨_, rfl, balanced_of_workerServes 8 true
    [.submit false, .admission, .enqueue, .take, .cut, .groupCommit [.committed],
      .checkpoint .captured, .complete, .complete, .complete] _ ?_ rfl⟩
  refine Machine.stepsMeet_cons trivial rfl ?_
  refine Machine.stepsMeet_cons trivial rfl ?_
  refine Machine.stepsMeet_cons nofun rfl ?_
  refine Machine.stepsMeet_cons trivial rfl ?_
  refine Machine.stepsMeet_cons trivial rfl ?_
  refine Machine.stepsMeet_cons trivial rfl ?_
  refine Machine.stepsMeet_cons trivial rfl ?_
  refine Machine.stepsMeet_cons nofun rfl ?_
  refine Machine.stepsMeet_cons nofun rfl ?_
  exact Machine.stepsMeet_cons nofun rfl trivial

/-- The exception of a group commit ends the worker while a second request is queued. -/
theorem not_balanced_interrupted :
    ∃ final, Machine.run step (create 8 true)
        [.submit false, .admission, .enqueue, .take, .cut, .submit false, .admission, .enqueue,
          .groupInterrupt, .checkpoint .failed, .complete, .complete, .complete] = some final ∧
      ¬ final.Balanced := by
  refine ⟨_, rfl, ?_⟩
  intro balanced
  obtain ⟨action, after, stepped⟩ := balanced.progress 1 rfl rfl
  cases action <;> cases stepped

end Coordinator

end UsdConnect
