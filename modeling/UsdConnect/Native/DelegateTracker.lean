/-
Purpose: The queue of the Sdf state-delegate tracker: mutations recorded from any thread, the byte
  cap that collapses them into layer markers, and the batch lent to the Python bridge.
Trusted boundary: the tracker's mutex makes every operation atomic, the views of a batch are built
  together with its acquisition, and one consumer drains; no authored field has the marker's name
Main exports: DelegateRecord, DelegateMutation, DelegateBatch, DelegateTracker
-/
import Mathlib.Algebra.GroupWithZero.Nat
import Mathlib.Data.List.Sort
import Mathlib.Data.List.Dedup

namespace UsdConnect

/-- Field name that tells the bridge to resend a whole layer. -/
def replaceLayerContentField : String := "_replaceLayerContent"

/-- `Record`. -/
structure DelegateRecord where
  layerId : String
  path : String
  field : String
  oldJson : String := ""
  newJson : String := ""
  hasOld : Bool := false
  sampleTime : Rat := 0
  sampleErased : Bool := false
deriving DecidableEq, Repr

namespace DelegateRecord

/-- Bytes a record is counted with. -/
def bytes (record : DelegateRecord) : Nat :=
  record.layerId.utf8ByteSize + record.path.utf8ByteSize + record.field.utf8ByteSize +
    record.oldJson.utf8ByteSize + record.newJson.utf8ByteSize

/-- The record that stands for all content of a layer. -/
def marker (layerId : String) : DelegateRecord where
  layerId := layerId
  path := "/"
  field := replaceLayerContentField
  newJson := "null"

def isMarker (record : DelegateRecord) : Bool :=
  record.field = replaceLayerContentField

@[simp] theorem marker_isMarker (layerId : String) : (marker layerId).isMarker = true :=
  decide_eq_true rfl

end DelegateRecord

/-- A record of an intercepted mutation. -/
structure DelegateMutation where
  record : DelegateRecord
  authored : record.isMarker = false
deriving DecidableEq, Repr

/-- Bytes of a list of records. -/
def totalBytes (records : List DelegateRecord) : Nat :=
  (records.map DelegateRecord.bytes).sum

/-- `Batch`: the records with their counted size. -/
structure DelegateBatch where
  items : List DelegateRecord := []
  byteSize : Nat := 0
  counted : byteSize = totalBytes items := by rfl
deriving DecidableEq, Repr

/-- `Batch::push`. -/
def DelegateBatch.push (batch : DelegateBatch) (record : DelegateRecord) : DelegateBatch where
  items := batch.items ++ [record]
  byteSize := batch.byteSize + record.bytes
  counted := by simp [totalBytes, batch.counted]

/-- The queue.  `lent` is what the bridge reads between acquire and release.  `owed` is a
specification variable: the mutations of a layer that the bridge has neither received nor been told
to resend, `none` once it has received one out of order.  No operation reads it. -/
structure DelegateTracker where
  batches : List DelegateBatch := []
  overflowLayers : List String := []
  maxBytes : Nat
  queuedBytes : Nat := 0
  coalesced : Nat := 0
  suppressed : Bool := false
  lent : Option (List DelegateRecord) := none
  owed : Option (String → List DelegateRecord) := some fun _ => []

namespace DelegateTracker

/-- Append to the last batch, starting one when there is none. -/
def pushBack (tracker : DelegateTracker) (record : DelegateRecord) : DelegateTracker :=
  { tracker with
    batches :=
      match tracker.batches.getLast? with
      | none => [({} : DelegateBatch).push record]
      | some last => tracker.batches.dropLast ++ [last.push record]
    queuedBytes := tracker.queuedBytes + record.bytes }

/-- `addOverflowMarker`. -/
def addOverflowMarker (tracker : DelegateTracker) (layerId : String) : DelegateTracker :=
  if layerId ∈ tracker.overflowLayers then tracker
  else
    { tracker with overflowLayers := tracker.overflowLayers ++ [layerId] }.pushBack
      (.marker layerId)

/-- Every queued record, in order. -/
def queued (tracker : DelegateTracker) : List DelegateRecord :=
  tracker.batches.flatMap (·.items)

/-- The branch of `enqueue` for a record beyond the cap: the queue is replaced by markers. -/
def overflow (tracker : DelegateTracker) (record : DelegateRecord) : DelegateTracker :=
  let affected := (tracker.queued.map (·.layerId) ++ [record.layerId]).dedup
  let ordered := affected.insertionSort (· ≤ ·)
  ordered.foldl addOverflowMarker
    { tracker with
      batches := []
      queuedBytes := 0
      overflowLayers := []
      coalesced := tracker.coalesced + 1 }

/-- `enqueue`. -/
def enqueue (tracker : DelegateTracker) (record : DelegateRecord) : DelegateTracker :=
  if tracker.overflowLayers ≠ [] then tracker.addOverflowMarker record.layerId
  else if tracker.maxBytes ≠ 0 ∧ tracker.queuedBytes + record.bytes > tracker.maxBytes then
    tracker.overflow record
  else tracker.pushBack record

/-! ### What the bridge is owed -/

/-- A recorded mutation is owed to the bridge. -/
def owe (owed : String → List DelegateRecord) (record : DelegateRecord) :
    String → List DelegateRecord :=
  fun layerId => if layerId = record.layerId then owed layerId ++ [record] else owed layerId

/-- Receive one record: a marker settles its layer, a mutation has to be the next one owed. -/
def receive (owed : String → List DelegateRecord) (record : DelegateRecord) :
    Option (String → List DelegateRecord) :=
  if record.isMarker then
    some fun layerId => if layerId = record.layerId then [] else owed layerId
  else
    match owed record.layerId with
    | [] => none
    | next :: rest =>
        if next = record then
          some fun layerId => if layerId = record.layerId then rest else owed layerId
        else none

/-- Receive records in order. -/
def receiveAll (owed : String → List DelegateRecord) (records : List DelegateRecord) :
    Option (String → List DelegateRecord) :=
  records.foldlM receive owed

end DelegateTracker

/-- What the threads do with a tracker. -/
inductive DelegateAction where
  | setSuppressed (suppressed : Bool)
  | mutate (mutation : DelegateMutation)
  | acquire
  | release
deriving DecidableEq, Repr

namespace DelegateTracker

/-- A delegate callback of a tracked layer. -/
def mutate (tracker : DelegateTracker) (mutation : DelegateMutation) : DelegateTracker :=
  if tracker.suppressed then tracker
  else
    { tracker.enqueue mutation.record with
      owed := tracker.owed.map fun owed => owe owed mutation.record }

/-- `acquire` with its views, which the bridge reads. -/
def acquire (tracker : DelegateTracker) : DelegateTracker :=
  match tracker.batches with
  | [] => tracker
  | front :: _ =>
      { tracker with
        lent := some front.items
        owed := tracker.owed.bind fun owed => receiveAll owed front.items }

/-- `release`. -/
def release (tracker : DelegateTracker) : DelegateTracker :=
  match tracker.batches with
  | [] => { tracker with lent := none }
  | front :: rest =>
      { tracker with
        batches := rest
        queuedBytes := tracker.queuedBytes - front.byteSize
        overflowLayers := if rest = [] then [] else tracker.overflowLayers
        lent := none }

/-- One step.  `drain` acquires and releases in turns. -/
def step (tracker : DelegateTracker) : DelegateAction → Option DelegateTracker
  | .setSuppressed suppressed => some { tracker with suppressed := suppressed }
  | .mutate mutation => some (tracker.mutate mutation)
  | .acquire => if tracker.lent.isNone then some tracker.acquire else none
  | .release => if tracker.lent.isSome then some tracker.release else none

end DelegateTracker

end UsdConnect
