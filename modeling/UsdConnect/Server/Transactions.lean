/-
Purpose: The transaction coordinator with the maintenance barrier: submission, the commit worker and
  its batches, retries, shutdown, and the scopes of other threads.
Trusted boundary: a queue operation, a barrier operation under its condition variable and an
  assignment are atomic; requests are submitted after the worker has been started and every request
  object once
Main exports: TxnRequest, CommitResult, Completion, WorkerPhase, Coordinator
-/
import Mathlib.Data.List.Basic

namespace UsdConnect

/-- A submitted request object. -/
structure TxnRequest where
  id : Nat
  loadsPayload : Bool := false
deriving DecidableEq, Repr

/-- What a commit callback gives for a request: a commit, new or a duplicate, or an exception. -/
inductive CommitResult where
  | committed
  | duplicate
  | error
deriving DecidableEq, Repr

/-- Outcome stored on a request. -/
inductive RequestOutcome where
  | commit (committed : Bool) (checkpoint : Bool)
  | error
deriving DecidableEq, Repr

/-- A request object.  The last three fields are specification variables: how often an outcome was
stored and the barrier released for it, and whether `submit` returned it. -/
structure RequestCell where
  outcome : Option RequestOutcome := none
  done : Bool := false
  outcomes : Nat := 0
  releases : Nat := 0
  returned : Bool := false
deriving DecidableEq, Repr

/-- Where `_complete` is: before the checkpoint, or at the first request that is left. -/
inductive CompletionStage where
  | checkpoint
  | assign
  | release
  | finish
deriving DecidableEq, Repr

/-- A running `_complete`.  `raising` says that an exception leaves it, or its caller after it. -/
structure Completion where
  rest : List (TxnRequest × CommitResult)
  stage : CompletionStage := .checkpoint
  checkpoint : Bool := false
  raising : Bool := false
deriving DecidableEq, Repr

/-- What capturing the checkpoint does. -/
inductive CheckpointResult where
  | captured
  | failed
  | interrupted
deriving DecidableEq, Repr

namespace Completion

/-- `_complete` of a batch. -/
def start (rest : List (TxnRequest × CommitResult)) (raising : Bool) : Completion :=
  { rest := rest, raising := raising }

/-- The checkpoint of `_complete`: captured only when something was committed. -/
def capture (completion : Completion) (result : CheckpointResult) : Completion :=
  if completion.rest.any fun entry => entry.2 = .committed then
    { completion with
      stage := .assign
      checkpoint := result = .captured
      raising := completion.raising || result = .interrupted }
  else { completion with stage := .assign }

/-- An exception that is no `Exception` fails every request of a batch. -/
def interrupted (batch : List TxnRequest) : Completion :=
  .start (batch.map fun request => (request, .error)) true

end Completion

/-- Outcome stored for a request. -/
def storedOutcome (checkpoint : Bool) : CommitResult → RequestOutcome
  | .committed => .commit true checkpoint
  | .duplicate => .commit false false
  | .error => .error

/-- The commit worker.  `stop` remembers that the stop marker was taken with the batch. -/
inductive WorkerPhase where
  | absent
  | idle
  | collecting (batch : List TxnRequest)
  | committing (batch : List TxnRequest) (stop : Bool)
  | retrying (settled : List (TxnRequest × CommitResult)) (pending : List TxnRequest) (stop : Bool)
  | completing (completion : Completion) (stop : Bool)
  | finished
  | dead
deriving DecidableEq, Repr

/-- The thread that holds the submission lock. -/
inductive SubmissionLock where
  | free
  | submitting (request : TxnRequest)
  | admitted (request : TxnRequest)
  | completing (completion : Completion)
  | stopping
deriving DecidableEq, Repr

/-- `_TxnBarrier`. -/
structure TxnBarrier where
  readers : Int := 0
  exclusive : Bool := false
deriving DecidableEq, Repr

/-- The coordinator, the barrier and the threads around them.  `scopes` counts open shared scopes of
other threads, `draining` and `holding` the threads inside `acquire_exclusive` after the flag was
set and inside an exclusive scope. -/
structure Coordinator where
  batchSize : Nat
  queueMax : Nat := 10000
  barrier : TxnBarrier := {}
  scopes : Nat := 0
  draining : Nat := 0
  holding : Nat := 0
  isStopping : Bool := false
  lock : SubmissionLock := .free
  /-- Requests and the stop marker. -/
  queue : List (Option TxnRequest) := []
  worker : WorkerPhase
  cells : Nat → RequestCell := fun _ => {}
  nextId : Nat := 0

/-- Steps of the threads.  The worker takes, collects and cuts a batch, commits it, retries its
requests one by one after a failed group, and completes them; `inline` steps belong to a `submit`
without a worker. -/
inductive CoordinatorAction where
  | submit (loadsPayload : Bool)
  | admission
  | enqueue
  | enqueueFails
  | inlineCommit (result : CommitResult)
  | inlineInterrupt
  | inlineCheckpoint (result : CheckpointResult)
  | inlineComplete
  | shutdown
  | putMarker
  | take
  | collect
  | cut
  | groupCommit (results : List CommitResult)
  | groupFails
  | groupInterrupt
  | retry (result : CommitResult)
  | retryInterrupt
  | checkpoint (result : CheckpointResult)
  | complete
  | openScope
  | closeScope
  | enterExclusive
  | grantExclusive
  | leaveExclusive
deriving DecidableEq, Repr

namespace Coordinator

/-- A coordinator after `start`; the worker exists only for batches of more than one. -/
def create (batchSize : Nat) (hasGroup : Bool) : Coordinator where
  batchSize := batchSize
  worker := if 1 < batchSize ∧ hasGroup then .idle else .absent

def updateCell (state : Coordinator) (id : Nat) (change : RequestCell → RequestCell) :
    Coordinator :=
  { state with
    cells := fun other => if other = id then change (state.cells id) else state.cells other }

/-! ### The barrier -/

def acquireShared (state : Coordinator) : Option Coordinator :=
  if state.barrier.exclusive then none
  else some { state with barrier := { state.barrier with readers := state.barrier.readers + 1 } }

def releaseShared (state : Coordinator) : Coordinator :=
  { state with barrier := { state.barrier with readers := state.barrier.readers - 1 } }

/-! ### Completion -/

/-- One step of the loop of `_complete`: store the outcome of the first request that is left,
release its barrier, wake its waiters. -/
def completeStep (state : Coordinator) (completion : Completion) :
    Option (Coordinator × Completion) :=
  match completion.rest, completion.stage with
  | (request, result) :: _, .assign =>
      some
        (state.updateCell request.id fun cell =>
          { cell with
            outcome := some (storedOutcome completion.checkpoint result)
            outcomes := cell.outcomes + 1 },
          { completion with stage := .release })
  | (request, _) :: _, .release =>
      some
        ((state.updateCell request.id fun cell =>
            { cell with releases := cell.releases + 1 }).releaseShared,
          { completion with stage := .finish })
  | (request, _) :: rest, .finish =>
      some
        (state.updateCell request.id fun cell => { cell with done := true },
          { completion with rest := rest, stage := .assign })
  | _, _ => none

/-! ### Submission -/

/-- `submit` has taken the submission lock. -/
def beginSubmit (state : Coordinator) (loadsPayload : Bool) : Coordinator :=
  if state.isStopping then state
  else
    { state with
      lock := .submitting { id := state.nextId, loadsPayload := loadsPayload }
      nextId := state.nextId + 1 }

/-- `submit` returns its request. -/
def returnRequest (state : Coordinator) (request : TxnRequest) : Coordinator :=
  { state.updateCell request.id fun cell => { cell with returned := true } with lock := .free }

/-- `_queue.put`; it blocks while the queue is full. -/
def put (state : Coordinator) (item : Option TxnRequest) : Option Coordinator :=
  if state.queue.length < state.queueMax then some { state with queue := state.queue ++ [item] }
  else none

def submitStep (state : Coordinator) : CoordinatorAction → Option Coordinator
  | .submit loadsPayload =>
      match state.lock with
      | .free => some (state.beginSubmit loadsPayload)
      | _ => none
  | .admission =>
      match state.lock with
      | .submitting request =>
          state.acquireShared.map fun state => { state with lock := .admitted request }
      | _ => none
  | .enqueue =>
      match state.lock with
      | .admitted request =>
          if state.worker = .absent then none
          else (state.put (some request)).map fun state => state.returnRequest request
      | _ => none
  | .enqueueFails =>
      match state.lock with
      | .admitted request =>
          if state.worker = .absent then none
          else
            some
              { (state.updateCell request.id fun cell =>
                  { cell with releases := cell.releases + 1 }).releaseShared with
                lock := .free }
      | _ => none
  | .inlineCommit result =>
      match state.lock with
      | .admitted request =>
          if state.worker = .absent then
            some { state with lock := .completing (.start [(request, result)] false) }
          else none
      | _ => none
  | .inlineInterrupt =>
      match state.lock with
      | .admitted request =>
          if state.worker = .absent then
            some { state with lock := .completing (.interrupted [request]) }
          else none
      | _ => none
  | .inlineCheckpoint result =>
      match state.lock with
      | .completing completion =>
          if completion.stage = .checkpoint then
            some { state with lock := .completing (completion.capture result) }
          else none
      | _ => none
  | .inlineComplete =>
      match state.lock with
      | .completing completion =>
          (state.completeStep completion).map fun (state, next) =>
            match next.rest, completion.rest with
            | [], (request, _) :: _ =>
                if next.raising then { state with lock := .free } else state.returnRequest request
            | _, _ => { state with lock := .completing next }
      | _ => none
  | .shutdown =>
      match state.lock with
      | .free =>
          if state.isStopping then some state
          else
            some
              { state with
                isStopping := true
                lock := if state.worker = .absent then .free else .stopping }
      | _ => none
  | .putMarker =>
      match state.lock with
      | .stopping => (state.put none).map fun state => { state with lock := .free }
      | _ => none
  | _ => none

/-! ### The worker -/

/-- A batch takes no more requests. -/
def batchFull (state : Coordinator) (batch : List TxnRequest) : Bool :=
  state.batchSize ≤ batch.length || (batch.getLast?.map (·.loadsPayload)).getD false

/-- The worker after a completion: it ends with the exception, at the stop marker, or waits. -/
def workerAfter (completion : Completion) (stop : Bool) : WorkerPhase :=
  if completion.rest = [] then
    if completion.raising then .dead else if stop then .finished else .idle
  else .completing completion stop

def workerStep (state : Coordinator) : CoordinatorAction → Option Coordinator
  | .take =>
      match state.worker, state.queue with
      | .idle, some request :: rest =>
          some { state with queue := rest, worker := .collecting [request] }
      | .idle, none :: rest => some { state with queue := rest, worker := .finished }
      | _, _ => none
  | .collect =>
      match state.worker, state.queue with
      | .collecting batch, some request :: rest =>
          if state.batchFull batch then none
          else some { state with queue := rest, worker := .collecting (batch ++ [request]) }
      | .collecting batch, none :: rest =>
          if state.batchFull batch then none
          else some { state with queue := rest, worker := .committing batch true }
      | _, _ => none
  | .cut =>
      match state.worker with
      | .collecting batch =>
          if state.batchFull batch || state.queue.isEmpty then
            some { state with worker := .committing batch false }
          else none
      | _ => none
  | .groupCommit results =>
      match state.worker with
      | .committing batch stop =>
          if results.length = batch.length then
            some { state with worker := .completing (.start (batch.zip results) false) stop }
          else none
      | _ => none
  | .groupFails =>
      match state.worker with
      | .committing batch stop => some { state with worker := .retrying [] batch stop }
      | _ => none
  | .groupInterrupt =>
      match state.worker with
      | .committing batch stop =>
          some { state with worker := .completing (.interrupted batch) stop }
      | _ => none
  | .retry result =>
      match state.worker with
      | .retrying settled (request :: pending) stop =>
          let settled := settled ++ [(request, result)]
          some
            { state with
              worker :=
                if pending = [] then .completing (.start settled false) stop
                else .retrying settled pending stop }
      | _ => none
  | .retryInterrupt =>
      match state.worker with
      | .retrying settled pending stop =>
          if pending = [] then none
          else
            some
              { state with
                worker := .completing (.interrupted (settled.map (·.1) ++ pending)) stop }
      | _ => none
  | .checkpoint result =>
      match state.worker with
      | .completing completion stop =>
          if completion.stage = .checkpoint then
            some { state with worker := .completing (completion.capture result) stop }
          else none
      | _ => none
  | .complete =>
      match state.worker with
      | .completing completion stop =>
          (state.completeStep completion).map fun (state, next) =>
            { state with worker := workerAfter next stop }
      | _ => none
  | _ => none

/-! ### Other threads -/

def scopeStep (state : Coordinator) : CoordinatorAction → Option Coordinator
  | .openScope => state.acquireShared.map fun state => { state with scopes := state.scopes + 1 }
  | .closeScope =>
      if state.scopes = 0 then none
      else some { state.releaseShared with scopes := state.scopes - 1 }
  | .enterExclusive =>
      if state.barrier.exclusive then none
      else
        some
          { state with
            barrier := { state.barrier with exclusive := true }
            draining := state.draining + 1 }
  | .grantExclusive =>
      if state.draining = 0 ∨ 0 < state.barrier.readers then none
      else some { state with draining := state.draining - 1, holding := state.holding + 1 }
  | .leaveExclusive =>
      if state.holding = 0 then none
      else
        some
          { state with
            barrier := { state.barrier with exclusive := false }
            holding := state.holding - 1 }
  | _ => none

/-- One step of one of the threads. -/
def step (state : Coordinator) (action : CoordinatorAction) : Option Coordinator :=
  match action with
  | .submit _ | .admission | .enqueue | .enqueueFails | .inlineCommit _ | .inlineInterrupt
  | .inlineCheckpoint _ | .inlineComplete | .shutdown | .putMarker => state.submitStep action
  | .take | .collect | .cut | .groupCommit _ | .groupFails | .groupInterrupt | .retry _
  | .retryInterrupt | .checkpoint _ | .complete => state.workerStep action
  | .openScope | .closeScope | .enterExclusive | .grantExclusive | .leaveExclusive =>
      state.scopeStep action

end Coordinator

end UsdConnect
