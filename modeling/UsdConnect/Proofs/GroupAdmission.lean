/-
Purpose: Admission of a group answers each request as a commit of its own would, so a group commits
  what its members do as soon as it can be stored in parts.
Trusted boundary: none
Main exports: Cacheless, commitEach_of_admitted, commitGroup_eq_commitEach
-/
import UsdConnect.Lib.Attempts
import UsdConnect.Server.Commit

namespace UsdConnect

variable {Body Scene Record Error : Type}

/-- The server with another progress cache. -/
def ServerState.cached (server : ServerState Scene Record) (cache : Producer → Option Nat) :
    ServerState Scene Record :=
  { server with journal := { server.journal with producerProgress := cache } }

/-- What the cache answers once the overlay is remembered. -/
def AdmissionState.cache (state : AdmissionState Record) (producer : Producer) : Option Nat :=
  (overlayProgress state.nextBySession producer).or (state.journal.producerProgress producer)

/-- A commit stores the progress of its request and does not look at the cache. -/
structure Cacheless
    (commitEvents : ServerState Scene Record → TransactionRequest Body →
      ServerState Scene Record × Except Error (List Record)) : Prop where
  cached : ∀ {server request after records}, commitEvents server request = (after, .ok records) →
    ∀ cache, commitEvents (server.cached cache) request = (after.cached cache, .ok records)
  progress : ∀ {server request after records}, commitEvents server request = (after, .ok records) →
    after.journal.store.producerSessions = EventStore.upsertProgress
      server.journal.store.producerSessions ⟨request.producer, request.txnId⟩

variable {commitEvents : ServerState Scene Record → TransactionRequest Body →
  ServerState Scene Record × Except Error (List Record)}

theorem Cacheless.runs (cacheless : Cacheless commitEvents) {server after : ServerState Scene Record}
    {requests : List (TransactionRequest Body)} {encoded : List (List Record)}
    (runs : Runs commitEvents server requests after encoded) (cache : Producer → Option Nat) :
    Runs commitEvents (server.cached cache) requests (after.cached cache) encoded :=
  runs.map (·.cached cache) fun committed => cacheless.cached committed cache

theorem Cacheless.kept (cacheless : Cacheless commitEvents) {server after : ServerState Scene Record}
    {requests : List (TransactionRequest Body)} {encoded : List (List Record)}
    (runs : Runs commitEvents server requests after encoded) :
    after.journal.producerProgress = server.journal.producerProgress := by
  refine runs.kept (fun server => server.journal.producerProgress) ?_
  intro server request after records _ committed
  have own := cacheless.cached committed server.journal.producerProgress
  have same : server.cached server.journal.producerProgress = server := rfl
  rw [same, committed] at own
  exact congrArg (fun result => result.1.journal.producerProgress) own

/-- The overlay is asked first, then the cache, then the store, as a commit of its own does. -/
theorem lookupProgress_agrees {state : AdmissionState Record} {server : ServerState Scene Record}
    (cache : server.journal.producerProgress = state.cache) {producer : Producer}
    (stored : overlayProgress state.nextBySession producer = none →
      server.journal.store.producerSessions producer =
        state.journal.store.producerSessions producer) :
    ∃ progress journal, lookupProgress state producer = (progress, journal) ∧
      journal.store = state.journal.store ∧
      server.journal.committedThrough producer =
        (progress, (server.cached (AdmissionState.cache ⟨state.nextBySession, journal⟩)).journal) := by
  have cached : server.journal.producerProgress producer = state.cache producer := by rw [cache]
  have own : server.journal = { server.journal with producerProgress := state.cache } := by
    rw [← cache]
  unfold lookupProgress EventJournal.committedThrough
  unfold AdmissionState.cache at cached
  cases overlay : overlayProgress state.nextBySession producer with
  | some progress =>
      rw [overlay, Option.some_or] at cached
      rw [cached]
      exact ⟨progress, state.journal, rfl, rfl, congrArg (Prod.mk progress) own⟩
  | none =>
      rw [overlay, Option.none_or] at cached
      rw [cached]
      cases held : state.journal.producerProgress producer with
      | some progress =>
          exact ⟨progress, state.journal, rfl, rfl, congrArg (Prod.mk progress) own⟩
      | none =>
          refine ⟨state.journal.store.producerSessions producer, _, rfl, rfl, ?_⟩
          dsimp only [EventStore.getProducerProgress, ServerState.cached]
          rw [stored overlay, cache]
          congr 2
          funext other
          unfold AdmissionState.cache
          by_cases same : other = producer
          · subst same
            simp [overlay]
          · simp [same]

theorem checkTransactionId_next {txnId progress : Nat}
    (check : (checkTransactionId txnId progress : Option (TransactionOutcome Record Error)) = none) :
    txnId = progress + 1 := by
  unfold checkTransactionId at check
  split at check
  · cases check
  · split at check
    · cases check
    · next same => simpa using same

/-- A lookup fills the cache and nothing else, and the overlay's value is the answer. -/
theorem lookupProgress_fills {state : AdmissionState Record} {producer : Producer} {progress : Nat}
    {journal : EventJournal Record} (lookup : lookupProgress state producer = (progress, journal)) :
    journal = { state.journal with producerProgress := journal.producerProgress } ∧
      ∀ found, overlayProgress state.nextBySession producer = some found → progress = found := by
  unfold lookupProgress at lookup
  cases overlay : overlayProgress state.nextBySession producer with
  | some found =>
      rw [overlay] at lookup
      obtain ⟨rfl, rfl⟩ := Prod.mk.inj lookup
      exact ⟨rfl, fun other same => Option.some.inj same⟩
  | none =>
      rw [overlay] at lookup
      refine ⟨?_, fun other same => absurd same (Option.some_ne_none other).symm⟩
      have filled := congrArg Prod.snd lookup
      dsimp only at filled
      rw [← filled]
      unfold EventJournal.committedThrough
      split <;> rfl

/-- Ids of a producer in order. -/
def Ascending (requests : List (TransactionRequest Body)) : Prop :=
  requests.Pairwise fun first second =>
    first.producer = second.producer → first.txnId < second.txnId

/-- What admission decides: it fills the cache and nothing else, lists the accepted requests in the
overlay, and accepts ids of a producer in order. -/
structure AdmissionSteps (state final : AdmissionState Record)
    (requests accepted : List (TransactionRequest Body)) : Prop where
  inside : accepted.Sublist requests
  journal : final.journal =
    { state.journal with producerProgress := final.journal.producerProgress }
  overlay : final.nextBySession =
    (accepted.map fun request => (request.producer, request.txnId)).reverse ++ state.nextBySession
  above : ∀ request ∈ accepted, ∀ progress,
    overlayProgress state.nextBySession request.producer = some progress →
      progress < request.txnId
  ascending : Ascending accepted

theorem admitRequests_steps {requests : List (TransactionRequest Body)}
    {state final : AdmissionState Record}
    {admitted : List (TransactionRequest Body × Option (TransactionOutcome Record Error))}
    (ran : admitRequests requests state = (admitted, final)) :
    AdmissionSteps state final requests (acceptedRequests admitted) := by
  induction requests generalizing state admitted final with
  | nil =>
      obtain ⟨rfl, rfl⟩ := Prod.mk.inj ran
      exact ⟨.slnil, rfl, rfl, fun _ member => absurd member List.not_mem_nil, .nil⟩
  | cons request rest ih =>
      cases lookup : lookupProgress state request.producer with
      | mk progress journal =>
          obtain ⟨fills, answers⟩ := lookupProgress_fills lookup
          rw [admitRequests, lookup] at ran
          dsimp only at ran
          cases check : (checkTransactionId request.txnId progress :
              Option (TransactionOutcome Record Error)) with
          | some outcome =>
              rw [check] at ran
              dsimp only at ran
              generalize inner : admitRequests rest _ = result at ran
              obtain ⟨others, last⟩ := result
              obtain ⟨rfl, rfl⟩ := Prod.mk.inj ran
              have steps := ih inner
              exact ⟨steps.inside.cons request, steps.journal.trans (by rw [fills]), steps.overlay,
                steps.above, steps.ascending⟩
          | none =>
              rw [check] at ran
              dsimp only at ran
              generalize inner : admitRequests rest _ = result at ran
              obtain ⟨others, last⟩ := result
              obtain ⟨rfl, rfl⟩ := Prod.mk.inj ran
              have steps := ih inner
              have accepts : acceptedRequests ((request, none) :: others) =
                  request :: acceptedRequests others := rfl
              have next := checkTransactionId_next check
              have later : ∀ other ∈ acceptedRequests others,
                  request.producer = other.producer → request.txnId < other.txnId := by
                intro other member same
                exact steps.above other member request.txnId (by simp [overlayProgress, same])
              refine ⟨steps.inside.cons_cons request, steps.journal.trans (by rw [fills]), ?_, ?_, ?_⟩
              · rw [accepts, steps.overlay]
                simp
              · intro other member found overlay
                rw [accepts] at member
                rcases List.mem_cons.1 member with rfl | inside
                · rw [next, answers found overlay]
                  exact Nat.lt_succ_self _
                · by_cases same : request.producer = other.producer
                  · have above := later other inside same
                    rw [next, answers found (by rw [same]; exact overlay)] at above
                    exact Nat.lt_trans (Nat.lt_succ_self _) above
                  · exact steps.above other inside found (by simpa [overlayProgress, same] using overlay)
              · rw [accepts]
                exact .cons later steps.ascending

theorem rememberProgress_cache (state : AdmissionState Record) (journal : EventJournal Record)
    (same : journal.producerProgress = state.journal.producerProgress) :
    journal.rememberProgress state.nextBySession.reverse =
      { journal with producerProgress := state.cache } := by
  unfold EventJournal.rememberProgress
  congr 1
  rw [List.foldl_reverse, same]
  funext producer
  unfold AdmissionState.cache
  induction state.nextBySession with
  | nil => rfl
  | cons update rest ih =>
      by_cases own : update.1 = producer
      · simp [overlayProgress, own]
      · rw [List.foldr_cons, Function.update_of_ne (Ne.symm own), ih]
        simp [overlayProgress, own]

/-- An accepted request moves what the cache will answer for its producer. -/
theorem cache_cons (producer : Producer) (txnId : Nat) (nextBySession : List (Producer × Nat))
    (journal : EventJournal Record) :
    Function.update (AdmissionState.cache ⟨nextBySession, journal⟩) producer (some txnId) =
      AdmissionState.cache ⟨(producer, txnId) :: nextBySession, journal⟩ := by
  funext other
  unfold AdmissionState.cache
  by_cases same : producer = other
  · subst same
    simp [overlayProgress]
  · rw [Function.update_of_ne (Ne.symm same)]
    simp [overlayProgress, same]

/-- Where the accepted requests commit one after the other, the whole queue does, with the outcomes
that admission gives. -/
theorem commitEach_of_admitted (cacheless : Cacheless commitEvents)
    {requests : List (TransactionRequest Body)} {state final : AdmissionState Record}
    {admitted : List (TransactionRequest Body × Option (TransactionOutcome Record Error))}
    (ran : admitRequests requests state = (admitted, final))
    {server after : ServerState Scene Record} {encoded : List (List Record)}
    (cache : server.journal.producerProgress = state.cache)
    (stored : ∀ producer, overlayProgress state.nextBySession producer = none →
      server.journal.store.producerSessions producer =
        state.journal.store.producerSessions producer)
    (runs : Runs commitEvents server (acceptedRequests admitted) after encoded) :
    commitEach commitEvents server requests =
      (after.cached final.cache, fillOutcomes admitted encoded) := by
  induction requests generalizing state admitted server after encoded with
  | nil =>
      obtain ⟨rfl, rfl⟩ := Prod.mk.inj ran
      cases runs
      rw [← cache]
      rfl
  | cons request rest ih =>
      obtain ⟨progress, journal, lookup, same, own⟩ :=
        lookupProgress_agrees cache (stored request.producer)
      rw [admitRequests, lookup] at ran
      unfold commitEach commit
      rw [own]
      dsimp only at ran ⊢
      generalize reached : AdmissionState.cache ⟨state.nextBySession, journal⟩ = known
      have start : ({ scene := server.scene, journal := (server.cached known).journal } :
          ServerState Scene Record) = server.cached known := rfl
      rw [start]
      cases check : (checkTransactionId request.txnId progress :
          Option (TransactionOutcome Record Error)) with
      | some outcome =>
          rw [check] at ran
          dsimp only at ran ⊢
          generalize inner : admitRequests rest _ = result at ran
          obtain ⟨others, last⟩ := result
          obtain ⟨rfl, rfl⟩ := Prod.mk.inj ran
          have skipped : acceptedRequests ((request, some outcome) :: others) =
              acceptedRequests others := rfl
          rw [skipped] at runs
          rw [ih inner reached.symm (fun producer absent => by rw [same]; exact stored producer absent)
            (cacheless.runs runs known)]
          rfl
      | none =>
          rw [check] at ran
          dsimp only at ran ⊢
          generalize inner : admitRequests rest _ = result at ran
          obtain ⟨others, last⟩ := result
          obtain ⟨rfl, rfl⟩ := Prod.mk.inj ran
          have accepts : acceptedRequests
              ((request, (none : Option (TransactionOutcome Record Error))) :: others) =
                request :: acceptedRequests others := rfl
          rw [accepts] at runs
          cases runs with
          | @cons _ middle _ _ _ records encoded head tail =>
              have progressed := cacheless.progress head
              rw [cacheless.cached head]
              dsimp only
              have remembered : ({ scene := (middle.cached known).scene
                                   journal := (middle.cached known).journal.rememberProgress
                                     [(request.producer, request.txnId)] } :
                  ServerState Scene Record) = middle.cached (AdmissionState.cache
                    ⟨(request.producer, request.txnId) :: state.nextBySession, journal⟩) := by
                rw [← reached]
                exact congrArg middle.cached (cache_cons _ _ _ _)
              rw [remembered]
              generalize moved : AdmissionState.cache
                ⟨(request.producer, request.txnId) :: state.nextBySession, journal⟩ = later
              rw [ih inner moved.symm ?_ (cacheless.runs tail later)]
              · rfl
              · intro producer absent
                by_cases away : request.producer = producer
                · simp [overlayProgress, away] at absent
                · have before : overlayProgress state.nextBySession producer = none := by
                    simpa [overlayProgress, away] using absent
                  show middle.journal.store.producerSessions producer = _
                  rw [progressed, same, ← stored producer before]
                  exact Function.update_of_ne (Ne.symm away) _ _

variable {applyAndPersist : ServerState Scene Record → List (TransactionRequest Body) →
  ServerState Scene Record × Except Error (List (List Record))}

/-- A group that commits does what its members do one by one, if what it applies and persists in one
go can be done in parts. -/
theorem commitGroup_eq_commitEach (cacheless : Cacheless commitEvents)
    {requests : List (TransactionRequest Body)}
    (splits : ∀ server accepted after encoded, accepted.Sublist requests → Ascending accepted →
      applyAndPersist server accepted = (after, .ok encoded) →
      Runs commitEvents server accepted after encoded)
    {server after : ServerState Scene Record} {outcomes : List (TransactionOutcome Record Error)}
    (grouped : commitGroup applyAndPersist server requests = (after, .ok outcomes)) :
    commitEach commitEvents server requests = (after, outcomes) := by
  unfold commitGroup at grouped
  dsimp only at grouped
  generalize ran : admitRequests requests ⟨[], server.journal⟩ = result at grouped
  obtain ⟨admitted, state⟩ := result
  have steps := admitRequests_steps ran
  have filled : ({ scene := server.scene, journal := state.journal } : ServerState Scene Record) =
      server.cached state.journal.producerProgress := by
    rw [steps.journal]
    rfl
  have each : ∀ reached encoded, Runs commitEvents server (acceptedRequests admitted) reached
      encoded → commitEach commitEvents server requests =
        (reached.cached state.cache, fillOutcomes admitted encoded) := by
    intro reached encoded runs
    exact commitEach_of_admitted cacheless ran rfl (fun _ _ => rfl) runs
  dsimp only at grouped
  rw [filled] at grouped
  cases decided : acceptedRequests admitted with
  | nil =>
      rw [decided] at grouped steps each
      obtain ⟨rfl, same⟩ := Prod.mk.inj grouped
      rw [each server [] .nil, ← Except.ok.inj same]
      have still : state.cache = state.journal.producerProgress := by
        funext producer
        unfold AdmissionState.cache
        rw [steps.overlay]
        rfl
      rw [still]
  | cons first others =>
      rw [decided] at grouped
      dsimp only at grouped
      cases applied : applyAndPersist (server.cached state.journal.producerProgress)
          (first :: others) with
      | mk reached outcome =>
          rw [applied] at grouped
          cases outcome with
          | error error => cases (Prod.mk.inj grouped).2
          | ok encoded =>
              obtain ⟨rfl, same⟩ := Prod.mk.inj grouped
              have runs := splits _ _ _ _ (decided ▸ steps.inside) (decided ▸ steps.ascending) applied
              have cache := cacheless.kept runs
              have own := cacheless.runs runs server.journal.producerProgress
              rw [each _ encoded (decided ▸ own), ← Except.ok.inj same]
              congr 1
              rw [rememberProgress_cache state reached.journal cache]
              rfl

end UsdConnect
