/-
Purpose: Coalescing of the transform values of a waiting batch, and what executing a batch does:
  transforms set cached ops, other events are arbitrary changes.
Trusted boundary: the ops of a prim depend on the rest of the scene, not on transform values; the
  cache of ops drops nothing on its own
Main exports: mergeLatestTransformEvents, isTransformOnly, BatchRunner.exec
-/
import UsdConnect.Events.Event
import Mathlib.Logic.Function.Basic

namespace UsdConnect

/-! ### Merging -/

/-- `(event["prim"], event.get("time"))`. -/
abbrev TransformKey := ScenePath × Option TimeCode

/-- Key of a transform event; every other event is an ordering barrier. -/
def Event.transformKey : Event → Option TransformKey
  | .setXformTrs prim _ time => some (prim, time)
  | _ => none

/-- `_TRS_FIELDS`. -/
def trsFields : List XformField :=
  [.t, .r, .s]

/-- The fields of both events in the order of `_TRS_FIELDS`, with the incoming values. -/
def mergedTransform (previous incoming : OrderedDict XformField Datum) :
    OrderedDict XformField Datum :=
  .ofEntries (trsFields.filterMap fun field =>
    ((incoming.get? field).or (previous.get? field)).map fun value => (field, value))

/-- Replace redundant values of a pending event. -/
def Event.absorb (incoming : OrderedDict XformField Datum) : Event → Event
  | .setXformTrs prim previous time => .setXformTrs prim (mergedTransform previous incoming) time
  | event => event

/-- Where the latest event of each key stands, since the last barrier. -/
abbrev Candidates := TransformKey → Option Nat

def Candidates.note (candidates : Candidates) (event : Event) (position : Nat) : Candidates :=
  match event.transformKey with
  | none => fun _ => none
  | some key => Function.update candidates key (some position)

/-- The first loop: the candidates of the pending events. -/
def pendingCandidates (pending : List Event) : Candidates :=
  pending.zipIdx.foldl (fun candidates entry => candidates.note entry.1 entry.2) fun _ => none

/-- One turn of the second loop. -/
def mergeIncoming (state : List Event × Candidates) (event : Event) : List Event × Candidates :=
  let (pending, candidates) := state
  match event with
  | .setXformTrs prim values time =>
      match candidates (prim, time) with
      | none => (pending ++ [event], candidates.note event pending.length)
      | some position => (pending.modify position (Event.absorb values), candidates)
  | _ => (pending ++ [event], candidates.note event pending.length)

/-- Append the incoming events, replacing redundant transform opinions in the pending ones. -/
def mergeLatestTransformEvents (pending incoming : List Event) : List Event :=
  (incoming.foldl mergeIncoming (pending, pendingCandidates pending)).1

/-- Whether a non-empty batch contains only transform value events. -/
def isTransformOnly (events : List Event) : Bool :=
  !events.isEmpty && events.all fun event => event.kind == .setXformTrs

/-! ### Executing a batch -/

/-- A transform value's place. -/
structure TransformPlace where
  prim : ScenePath
  time : Option TimeCode
  field : XformField
  deriving DecidableEq

/-- The transform values, the cached ops of prims and the rest of the scene. -/
structure BatchState (Rest Value : Type) where
  rest : Rest
  values : TransformPlace → Option Value
  opCache : ScenePath → Option (XformField → Bool)

/-- How events are executed: the ops that a prim has, none where there is no prim; the value that
setting an op authors; whether there is a cache of ops; and any meaning of the other events. -/
structure BatchRunner (Rest Value : Type) where
  findOps : Rest → ScenePath → Option (XformField → Bool)
  author : XformField → Datum → Value
  caching : Bool
  interpret : Event → BatchState Rest Value → BatchState Rest Value

namespace BatchRunner

variable {Rest Value : Type} (runner : BatchRunner Rest Value)

/-- The cached ops of a prim, else the ones it has. -/
def opsOf (state : BatchState Rest Value) (prim : ScenePath) : Option (XformField → Bool) :=
  ((if runner.caching then state.opCache prim else none)).or (runner.findOps state.rest prim)

/-- Set the fields of an event for which the prim has an op. -/
def write (prim : ScenePath) (time : Option TimeCode) (ops : XformField → Bool)
    (fields : OrderedDict XformField Datum) (values : TransformPlace → Option Value) :
    TransformPlace → Option Value :=
  fun place =>
    if place.prim = prim ∧ place.time = time ∧ ops place.field then
      ((fields.get? place.field).map (runner.author place.field)).or (values place)
    else values place

/-- `_apply_set_xform_trs`. -/
def applySetXformTrs (prim : ScenePath) (fields : OrderedDict XformField Datum)
    (time : Option TimeCode) (state : BatchState Rest Value) : BatchState Rest Value :=
  match runner.opsOf state prim with
  | none => state
  | some ops =>
      { state with
        values := runner.write prim time ops fields state.values
        opCache :=
          if runner.caching then Function.update state.opCache prim (some ops)
          else state.opCache }

def apply : Event → BatchState Rest Value → BatchState Rest Value
  | .setXformTrs prim fields time => runner.applySetXformTrs prim fields time
  | event => runner.interpret event

/-- Execute the events in order. -/
def exec (events : List Event) (state : BatchState Rest Value) : BatchState Rest Value :=
  events.foldl (fun state event => runner.apply event state) state

end BatchRunner

/-! ### What a batch says -/

/-- Between two barriers every prim has every op, and a barrier closes what was said before it. -/
def recorder : BatchRunner (List ((TransformPlace → Option Datum) × Event)) Datum where
  findOps _ _ := some fun _ => true
  author _ value := value
  caching := false
  interpret event state :=
    { state with
      rest := state.rest ++ [(state.values, event)]
      values := fun _ => none }

/-- The barriers of a batch in order, each with the transform values said since the one before, and
the values said after the last. -/
def sayings (events : List Event) :
    List ((TransformPlace → Option Datum) × Event) × (TransformPlace → Option Datum) :=
  let final := recorder.exec events { rest := [], values := fun _ => none, opCache := fun _ => none }
  (final.rest, final.values)

end UsdConnect
