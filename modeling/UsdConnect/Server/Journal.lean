/-
Purpose: The durable event store and the journal in front of it: sequence numbers, the cached
  producer progress and the atomic append of records together with producer progress.
Trusted boundary: one `append_batch` of the store is atomic (one SQL transaction); a failing append
  is decided by the caller of this module.
Main exports: Producer, ProducerProgress, EventStore, EventJournal
-/
import Mathlib.Logic.Function.Basic
import Mathlib.Data.List.Basic

namespace UsdConnect

/-- `(client_id, session_id)`, the key of one ordered producer session. -/
abbrev Producer := String × String

/-- Cumulative acknowledgement persisted together with the records it covers. -/
structure ProducerProgress where
  producer : Producer
  committedThrough : Nat
deriving DecidableEq, Repr

/-- Rows of the `events` table in the order they were inserted and the `producer_sessions` table.
A missing producer row reads as zero. -/
structure EventStore (Record : Type) where
  events : List (Nat × Record) := []
  producerSessions : Producer → Nat := fun _ => 0

namespace EventStore

variable {Record : Type}

/-- The upsert of one progress row keeps the larger of the stored and the new value. -/
def upsertProgress (sessions : Producer → Nat) (progress : ProducerProgress) : Producer → Nat :=
  Function.update sessions progress.producer
    (max (sessions progress.producer) progress.committedThrough)

def appendBatch (store : EventStore Record) (rows : List (Nat × Record))
    (producerProgress : List ProducerProgress) : EventStore Record :=
  { events := store.events ++ rows
    producerSessions := producerProgress.foldl upsertProgress store.producerSessions }

def getProducerProgress (store : EventStore Record) (producer : Producer) : Nat :=
  store.producerSessions producer

end EventStore

/-- Counters and the progress cache in front of the store. -/
structure EventJournal (Record : Type) where
  store : EventStore Record := {}
  nextSeq : Nat := 1
  eventCount : Nat := 0
  producerProgress : Producer → Option Nat := fun _ => none

namespace EventJournal

variable {Record : Type}

/-- A journal opened on an existing store: nothing is cached yet. -/
def reopen (journal : EventJournal Record) : EventJournal Record :=
  { journal with producerProgress := fun _ => none }

/-- Progress of one producer, read from the store once and cached afterwards. -/
def committedThrough (journal : EventJournal Record) (producer : Producer) :
    Nat × EventJournal Record :=
  match journal.producerProgress producer with
  | some cached => (cached, journal)
  | none =>
      let stored := journal.store.getProducerProgress producer
      (stored, { journal with
        producerProgress := Function.update journal.producerProgress producer (some stored) })

def rememberProgress (journal : EventJournal Record) (updates : List (Producer × Nat)) :
    EventJournal Record :=
  { journal with
    producerProgress := updates.foldl
      (fun cache update => Function.update cache update.1 (some update.2))
      journal.producerProgress }

def assignSeq (journal : EventJournal Record) : Nat × EventJournal Record :=
  (journal.nextSeq, { journal with nextSeq := journal.nextSeq + 1 })

/-- Reserve one sequence number per record, in order. -/
def assignSeqs : EventJournal Record → List Record → List (Nat × Record) × EventJournal Record
  | journal, [] => ([], journal)
  | journal, record :: records =>
      let (seq, journal) := journal.assignSeq
      let (rows, journal) := journal.assignSeqs records
      ((seq, record) :: rows, journal)

def appendBatch (journal : EventJournal Record) (rows : List (Nat × Record))
    (producerProgress : List ProducerProgress) : EventJournal Record :=
  { journal with
    store := journal.store.appendBatch rows producerProgress
    eventCount := journal.eventCount + rows.length }

/-- Reserving sequence numbers touches neither the store nor the cache. -/
theorem assignSeqs_unchanged (journal : EventJournal Record) (records : List Record) :
    (journal.assignSeqs records).2.store = journal.store ∧
      (journal.assignSeqs records).2.producerProgress = journal.producerProgress := by
  induction records generalizing journal with
  | nil => exact ⟨rfl, rfl⟩
  | cons record records ih => exact ih (journal.assignSeq).2

/-- The reserved rows carry the records in order. -/
theorem assignSeqs_records (journal : EventJournal Record) (records : List Record) :
    (journal.assignSeqs records).1.map (·.2) = records := by
  induction records generalizing journal with
  | nil => rfl
  | cons record records ih =>
      simp only [assignSeqs, List.map_cons]
      rw [ih (journal.assignSeq).2]

/-- Every cached progress value is the stored one. -/
def CacheCoherent (journal : EventJournal Record) : Prop :=
  ∀ producer cached, journal.producerProgress producer = some cached →
    cached = journal.store.producerSessions producer

@[simp] theorem committedThrough_store (journal : EventJournal Record) (producer : Producer) :
    (journal.committedThrough producer).2.store = journal.store := by
  unfold committedThrough
  split <;> rfl

/-- A coherent cache answers with the stored progress. -/
theorem committedThrough_fst {journal : EventJournal Record} (coherent : journal.CacheCoherent)
    (producer : Producer) :
    (journal.committedThrough producer).1 = journal.store.producerSessions producer := by
  unfold committedThrough
  split
  · next cached hit => exact coherent producer cached hit
  · rfl

/-- Filling the cache from the store keeps it coherent. -/
theorem CacheCoherent.committedThrough {journal : EventJournal Record}
    (coherent : journal.CacheCoherent) (producer : Producer) :
    (journal.committedThrough producer).2.CacheCoherent := by
  intro other cached hit
  rw [committedThrough_store]
  unfold EventJournal.committedThrough at hit
  split at hit
  · exact coherent other cached hit
  · by_cases same : other = producer
    · subst same
      simp only [Function.update_self, Option.some.injEq] at hit
      exact hit.symm
    · simp only [ne_eq, same, not_false_eq_true, Function.update_of_ne] at hit
      exact coherent other cached hit

end EventJournal

end UsdConnect
