/-
Purpose: What the server does with requests, however they are grouped: for every producer the
  appended ids continue the durable progress without a gap.
Trusted boundary: none
Main exports: Advance, commit_advance, commitEach_advance, executeRequests_advance
-/
import UsdConnect.Protocol.ProducerDelivery

namespace UsdConnect

open DeliverySystem

variable {Payload : Type}

/-! ### Progress of one producer in a list of requests -/

/-- Ids that a list of requests carries for one producer, in order. -/
def requestIds (producer : Producer) (requests : List (TransactionRequest (Submission Payload))) :
    List Nat :=
  (requests.filter fun request => request.producer = producer).map (·.txnId)

/-- Ids that a list of log records carries for one producer, in order. -/
def loggedIds (producer : Producer) (records : List (LoggedTransaction Payload)) : List Nat :=
  (records.filter fun record => record.producer = producer).map (·.txnId)

theorem loggedIds_append (producer : Producer) (first second : List (LoggedTransaction Payload)) :
    loggedIds producer (first ++ second) = loggedIds producer first ++ loggedIds producer second := by
  simp [loggedIds]

theorem mem_loggedIds {producer : Producer} {records : List (LoggedTransaction Payload)}
    {txnId : Nat} : txnId ∈ loggedIds producer records ↔
      ∃ record ∈ records, record.producer = producer ∧ record.txnId = txnId := by
  simp [loggedIds, and_assoc]

theorem loggedIds_map_loggedTransaction (producer : Producer)
    (requests : List (TransactionRequest (Submission Payload))) :
    loggedIds producer (requests.map loggedTransaction) = requestIds producer requests := by
  induction requests with
  | nil => rfl
  | cons request rest ih =>
      unfold loggedIds requestIds at ih ⊢
      by_cases own : request.producer = producer
      · simp [loggedTransaction, own]
        simpa [loggedTransaction] using ih
      · simp [loggedTransaction, own]
        simpa [loggedTransaction] using ih

/-- A block of consecutive ids raises the stored progress to its last id. -/
theorem foldl_upsertProgress (producer : Producer)
    (requests : List (TransactionRequest (Submission Payload))) (sessions : Producer → Nat)
    (count : Nat)
    (consecutive : requestIds producer requests = List.range' (sessions producer + 1) count) :
    (requests.map fun request =>
      (⟨request.producer, request.txnId⟩ : ProducerProgress)).foldl EventStore.upsertProgress
        sessions producer = sessions producer + count := by
  induction requests generalizing sessions count with
  | nil =>
      have none : count = 0 := by
        have := congrArg List.length consecutive
        simpa [requestIds] using this.symm
      simp [none]
  | cons request rest ih =>
      simp only [List.map_cons, List.foldl_cons]
      by_cases own : request.producer = producer
      · cases count with
        | zero => simp [requestIds, own] at consecutive
        | succ count =>
            have parts : request.txnId = sessions producer + 1 ∧
                requestIds producer rest = List.range' (sessions producer + 1 + 1) count := by
              simpa [requestIds, own, List.range'_succ] using consecutive
            have raised : EventStore.upsertProgress sessions ⟨request.producer, request.txnId⟩
                producer = sessions producer + 1 := by
              simp [EventStore.upsertProgress, own, parts.1]
            rw [ih _ count (by rw [raised]; exact parts.2), raised]
            omega
      · have skipped : EventStore.upsertProgress sessions ⟨request.producer, request.txnId⟩
            producer = sessions producer := by
          simp [EventStore.upsertProgress, Function.update_of_ne (Ne.symm own)]
        rw [ih _ count (by rw [skipped]; simpa [requestIds, own] using consecutive), skipped]

/-! ### Advancing the server -/

/-- Durable progress of a producer on a server. -/
def storedProgress (server : DeliveryServer Payload) (producer : Producer) : Nat :=
  server.journal.store.producerSessions producer

/-- The records of the durable log without their sequence numbers. -/
def storedRecords (server : DeliveryServer Payload) : List (LoggedTransaction Payload) :=
  server.journal.store.events.map (·.2)

/-- `after` is `before` with transactions of `requests` applied and logged.  The same list goes to
the scene and to the log, and per producer its ids continue the stored progress. -/
def Advance (requests : List (TransactionRequest (Submission Payload)))
    (before after : DeliveryServer Payload) : Prop :=
  ∃ committed : List (LoggedTransaction Payload),
    after.scene = before.scene ++ committed ∧
    storedRecords after = storedRecords before ++ committed ∧
    (∀ record ∈ committed, ∃ request ∈ requests, record = loggedTransaction request) ∧
    ∀ producer, ∃ count, loggedIds producer committed =
        List.range' (storedProgress before producer + 1) count ∧
      storedProgress after producer = storedProgress before producer + count

/-- A server whose scene and store did not change. -/
theorem Advance.of_unchanged {requests : List (TransactionRequest (Submission Payload))}
    {before after : DeliveryServer Payload} (scene : after.scene = before.scene)
    (store : after.journal.store = before.journal.store) : Advance requests before after := by
  refine ⟨[], by simp [scene], by simp [storedRecords, store], by simp, ?_⟩
  intro producer
  exact ⟨0, by simp [loggedIds], by simp [storedProgress, store]⟩

theorem Advance.mono {first second : List (TransactionRequest (Submission Payload))}
    {before after : DeliveryServer Payload} (advance : Advance first before after)
    (included : first ⊆ second) : Advance second before after := by
  obtain ⟨committed, scene, records, origin, ids⟩ := advance
  refine ⟨committed, scene, records, ?_, ids⟩
  intro record member
  obtain ⟨request, requested, same⟩ := origin record member
  exact ⟨request, included requested, same⟩

theorem Advance.trans {requests : List (TransactionRequest (Submission Payload))}
    {before middle after : DeliveryServer Payload} (first : Advance requests before middle)
    (second : Advance requests middle after) : Advance requests before after := by
  obtain ⟨firstCommitted, firstScene, firstRecords, firstOrigin, firstIds⟩ := first
  obtain ⟨secondCommitted, secondScene, secondRecords, secondOrigin, secondIds⟩ := second
  refine ⟨firstCommitted ++ secondCommitted, ?_, ?_, ?_, ?_⟩
  · rw [secondScene, firstScene, List.append_assoc]
  · rw [secondRecords, firstRecords, List.append_assoc]
  · intro record member
    rcases List.mem_append.1 member with early | late
    · exact firstOrigin record early
    · exact secondOrigin record late
  · intro producer
    obtain ⟨firstCount, firstRange, firstProgress⟩ := firstIds producer
    obtain ⟨secondCount, secondRange, secondProgress⟩ := secondIds producer
    refine ⟨firstCount + secondCount, ?_, by omega⟩
    rw [loggedIds_append, firstRange, secondRange, firstProgress,
      ← List.range'_append_1 (m := firstCount)]
    congr 2
    omega

theorem Advance.progress_le {requests : List (TransactionRequest (Submission Payload))}
    {before after : DeliveryServer Payload} (advance : Advance requests before after)
    (producer : Producer) : storedProgress before producer ≤ storedProgress after producer := by
  obtain ⟨_, _, _, _, ids⟩ := advance
  obtain ⟨count, _, progress⟩ := ids producer
  omega

/-- An outcome acknowledges nothing beyond the given progress. -/
def OutcomeWithin (progress : Nat) :
    TransactionOutcome (LoggedTransaction Payload) CommitError → Prop
  | .committed txnId _ => txnId ≤ progress
  | .duplicate committedThrough => committedThrough ≤ progress
  | .unexpectedId _ _ => True
  | .failed _ => True

theorem OutcomeWithin.mono {first second : Nat}
    {outcome : TransactionOutcome (LoggedTransaction Payload) CommitError}
    (within : OutcomeWithin first outcome) (le : first ≤ second) :
    OutcomeWithin second outcome := by
  cases outcome with
  | committed txnId records => exact Nat.le_trans within le
  | duplicate committedThrough => exact Nat.le_trans within le
  | unexpectedId expected received => trivial
  | failed error => trivial

/-! ### Persisting a block of admitted requests -/

/-- Applying an admitted block either raises and changes nothing, or logs the whole block. -/
theorem applyAndPersist_cases (server : DeliveryServer Payload)
    (requests : List (TransactionRequest (Submission Payload))) :
    (∃ error, applyAndPersist server requests = (server, .error error)) ∨
    ∃ journal : EventJournal (LoggedTransaction Payload),
      journal.producerProgress = server.journal.producerProgress ∧
      (journal.store.events.map (·.2)) =
        storedRecords server ++ requests.map loggedTransaction ∧
      journal.store.producerSessions =
        (requests.map fun request =>
          (⟨request.producer, request.txnId⟩ : ProducerProgress)).foldl
            EventStore.upsertProgress server.journal.store.producerSessions ∧
      applyAndPersist server requests =
        ({ scene := server.scene ++ requests.map loggedTransaction, journal := journal },
          .ok ((requests.map loggedTransaction).map fun record => [record])) := by
  unfold applyAndPersist
  cases requests.findSome? (·.body.decision) with
  | some error => exact Or.inl ⟨error, rfl⟩
  | none =>
      obtain ⟨store, cache⟩ := server.journal.assignSeqs_unchanged (requests.map loggedTransaction)
      refine Or.inr ⟨_, ?_, ?_, ?_, rfl⟩
      · exact cache
      · simp only [EventJournal.appendBatch, EventStore.appendBatch, List.map_append, store,
          EventJournal.assignSeqs_records, storedRecords]
      · simp only [EventJournal.appendBatch, EventStore.appendBatch, store]

/-- What a persisted block of consecutive requests does to the server. -/
theorem advance_of_persisted {server : DeliveryServer Payload}
    {requests : List (TransactionRequest (Submission Payload))}
    {journal : EventJournal (LoggedTransaction Payload)}
    (records : journal.store.events.map (·.2) =
      storedRecords server ++ requests.map loggedTransaction)
    (sessions : journal.store.producerSessions =
      (requests.map fun request =>
        (⟨request.producer, request.txnId⟩ : ProducerProgress)).foldl
          EventStore.upsertProgress server.journal.store.producerSessions)
    (consecutive : ∀ producer, ∃ count, requestIds producer requests =
      List.range' (storedProgress server producer + 1) count) :
    Advance requests server
      { scene := server.scene ++ requests.map loggedTransaction, journal := journal } := by
  refine ⟨requests.map loggedTransaction, rfl, records, ?_, ?_⟩
  · intro record member
    obtain ⟨request, requested, same⟩ := List.mem_map.1 member
    exact ⟨request, requested, same.symm⟩
  · intro producer
    obtain ⟨count, ids⟩ := consecutive producer
    refine ⟨count, by rw [loggedIds_map_loggedTransaction, ids], ?_⟩
    rw [storedProgress, sessions]
    exact foldl_upsertProgress producer requests _ count ids

/-! ### The individual commit -/

theorem checkTransactionId_cases (Payload : Type) (txnId committedThrough : Nat) :
    (txnId ≤ committedThrough ∧
      (checkTransactionId txnId committedThrough :
        Option (TransactionOutcome (LoggedTransaction Payload) CommitError)) =
          some (.duplicate committedThrough)) ∨
    (checkTransactionId txnId committedThrough :
        Option (TransactionOutcome (LoggedTransaction Payload) CommitError)) =
          some (.unexpectedId (committedThrough + 1) txnId) ∨
    (txnId = committedThrough + 1 ∧
      (checkTransactionId txnId committedThrough :
        Option (TransactionOutcome (LoggedTransaction Payload) CommitError)) = none) := by
  unfold checkTransactionId
  by_cases old : txnId ≤ committedThrough
  · exact Or.inl ⟨old, by simp [old]⟩
  · by_cases next : txnId = committedThrough + 1
    · exact Or.inr (Or.inr ⟨next, by simp [next]⟩)
    · exact Or.inr (Or.inl (by simp [old, next]))

/-- Remembering one list of updates, newest first: the newest value of a producer is cached. -/
theorem rememberProgress_reverse (journal : EventJournal (LoggedTransaction Payload))
    (nextBySession : List (Producer × Nat)) (producer : Producer) :
    (journal.rememberProgress nextBySession.reverse).producerProgress producer =
      match overlayProgress nextBySession producer with
      | some progress => some progress
      | none => journal.producerProgress producer := by
  simp only [EventJournal.rememberProgress, List.foldl_reverse]
  induction nextBySession with
  | nil => rfl
  | cons update rest ih =>
      by_cases own : update.1 = producer
      · simp [overlayProgress, own]
      · rw [List.foldr_cons, Function.update_of_ne (Ne.symm own), ih]
        simp [overlayProgress, own]

/-- Caching what the store holds keeps the cache coherent. -/
theorem rememberProgress_coherent {journal stored : EventJournal (LoggedTransaction Payload)}
    (nextBySession : List (Producer × Nat))
    (cache : journal.producerProgress = stored.producerProgress)
    (coherent : stored.CacheCoherent)
    (covered : ∀ producer, journal.store.producerSessions producer =
      (overlayProgress nextBySession producer).getD (stored.store.producerSessions producer)) :
    (journal.rememberProgress nextBySession.reverse).CacheCoherent := by
  intro producer cached hit
  rw [rememberProgress_reverse] at hit
  have current := covered producer
  show cached = journal.store.producerSessions producer
  cases overlay : overlayProgress nextBySession producer with
  | some progress =>
      rw [overlay] at hit current
      rw [current]
      exact (Option.some.inj hit).symm
  | none =>
      rw [overlay] at hit current
      rw [current]
      exact coherent producer cached (by rw [← cache]; exact hit)

theorem commit_advance {server : DeliveryServer Payload}
    (coherent : server.journal.CacheCoherent)
    (request : TransactionRequest (Submission Payload)) :
    Advance [request] server (commit commitEvents server request).1 ∧
    (commit commitEvents server request).1.journal.CacheCoherent ∧
    OutcomeWithin
      (storedProgress (commit commitEvents server request).1 request.producer)
      (commit commitEvents server request).2 := by
  have progress := EventJournal.committedThrough_fst coherent request.producer
  have filled := coherent.committedThrough request.producer
  unfold commit
  simp only [progress]
  set journal := (server.journal.committedThrough request.producer).2 with journalEq
  have store : journal.store = server.journal.store := by simp [journalEq]
  rcases checkTransactionId_cases Payload request.txnId
    (server.journal.store.producerSessions request.producer) with
    ⟨_, check⟩ | check | ⟨next, check⟩
  · rw [check]
    refine ⟨Advance.of_unchanged rfl store, filled, ?_⟩
    simp only [OutcomeWithin, storedProgress, store, Nat.le_refl]
  · rw [check]
    exact ⟨Advance.of_unchanged rfl store, filled, trivial⟩
  · rw [check]
    have ids : ∀ producer, ∃ count, requestIds producer [request] =
        List.range' (storedProgress { server with journal := journal } producer + 1) count := by
      intro producer
      by_cases own : request.producer = producer
      · subst own
        exact ⟨1, by simp [requestIds, storedProgress, store, next]⟩
      · exact ⟨0, by simp [requestIds, own]⟩
    rcases applyAndPersist_cases { server with journal := journal } [request] with
      ⟨error, raised⟩ | ⟨persisted, cache, records, sessions, succeeded⟩
    · simp only [commitEvents, raised]
      exact ⟨Advance.of_unchanged rfl store, filled, trivial⟩
    · simp only [commitEvents, succeeded]
      have advance := advance_of_persisted records sessions ids
      have start : Advance [request] server { server with journal := journal } :=
        Advance.of_unchanged rfl store
      have raised : ∀ producer, persisted.store.producerSessions producer =
          (overlayProgress [(request.producer, request.txnId)] producer).getD
            (journal.store.producerSessions producer) := by
        intro producer
        rw [sessions]
        by_cases own : request.producer = producer
        · subst own
          simp [EventStore.upsertProgress, overlayProgress, store, next]
        · simp [EventStore.upsertProgress, overlayProgress, own,
            Function.update_of_ne (Ne.symm own)]
      refine ⟨start.trans advance,
        rememberProgress_coherent [(request.producer, request.txnId)] cache filled raised, ?_⟩
      have reached := raised request.producer
      simp only [OutcomeWithin, storedProgress, EventJournal.rememberProgress]
      rw [reached]
      simp [overlayProgress]

/-! ### Commits in a row -/

/-- Outcomes answer their requests in order, each within the progress of its producer. -/
def OutcomesWithin (server : DeliveryServer Payload) :
    List (TransactionRequest (Submission Payload)) →
      List (TransactionOutcome (LoggedTransaction Payload) CommitError) → Prop
  | request :: requests, outcome :: outcomes =>
      OutcomeWithin (storedProgress server request.producer) outcome ∧
        OutcomesWithin server requests outcomes
  | _, _ => True

theorem commitEach_advance {server : DeliveryServer Payload}
    (coherent : server.journal.CacheCoherent)
    (requests : List (TransactionRequest (Submission Payload))) :
    Advance requests server (commitEach commitEvents server requests).1 ∧
    (commitEach commitEvents server requests).1.journal.CacheCoherent ∧
    OutcomesWithin (commitEach commitEvents server requests).1 requests
      (commitEach commitEvents server requests).2 := by
  induction requests generalizing server with
  | nil => exact ⟨Advance.of_unchanged rfl rfl, coherent, trivial⟩
  | cons request rest ih =>
      obtain ⟨first, firstCoherent, firstWithin⟩ := commit_advance coherent request
      obtain ⟨later, laterCoherent, laterWithin⟩ := ih firstCoherent
      refine ⟨?_, laterCoherent, firstWithin.mono (later.progress_le _), laterWithin⟩
      have here : Advance (request :: rest) server (commit commitEvents server request).1 :=
        first.mono (by simp)
      exact here.trans (later.mono (List.subset_cons_self request rest))

/-! ### The grouped commit -/

/-- Progress the admission loop compares a request of this producer with. -/
def admissionProgress (state : AdmissionState (LoggedTransaction Payload)) (producer : Producer) :
    Nat :=
  (overlayProgress state.nextBySession producer).getD
    (state.journal.store.producerSessions producer)

/-- What the admission loop decided about `requests`, from `state` to `final`. -/
structure Admitted (requests : List (TransactionRequest (Submission Payload)))
    (state : AdmissionState (LoggedTransaction Payload))
    (admitted : List (TransactionRequest (Submission Payload) ×
      Option (TransactionOutcome (LoggedTransaction Payload) CommitError)))
    (final : AdmissionState (LoggedTransaction Payload)) : Prop where
  store : final.journal.store = state.journal.store
  coherent : final.journal.CacheCoherent
  inOrder : admitted.map (·.1) = requests
  consecutive : ∀ producer, ∃ count, requestIds producer (acceptedRequests admitted) =
      List.range' (admissionProgress state producer + 1) count ∧
    admissionProgress final producer = admissionProgress state producer + count
  early : ∀ entry ∈ admitted, ∀ outcome, entry.2 = some outcome →
    OutcomeWithin (admissionProgress final entry.1.producer) outcome
  accepted : ∀ entry ∈ admitted, entry.2 = none →
    entry.1.txnId ≤ admissionProgress final entry.1.producer

/-- The loop looks up the overlay first and the journal otherwise; either way it reads the
admission progress and only fills the cache. -/
theorem lookupProgress_eq (state : AdmissionState (LoggedTransaction Payload)) (producer : Producer)
    (coherent : state.journal.CacheCoherent) :
    ∃ journal : EventJournal (LoggedTransaction Payload),
      lookupProgress state producer = (admissionProgress state producer, journal) ∧
      journal.store = state.journal.store ∧ journal.CacheCoherent := by
  unfold lookupProgress admissionProgress
  cases overlayProgress state.nextBySession producer with
  | some overlay => exact ⟨state.journal, rfl, rfl, coherent⟩
  | none =>
      refine ⟨(state.journal.committedThrough producer).2, ?_, by simp,
        coherent.committedThrough producer⟩
      rw [← EventJournal.committedThrough_fst coherent producer]
      rfl

/-- A request that is answered early leaves the rest of the loop as it is. -/
theorem Admitted.cons_early {request : TransactionRequest (Submission Payload)}
    {rest : List (TransactionRequest (Submission Payload))}
    {state final : AdmissionState (LoggedTransaction Payload)}
    {journal : EventJournal (LoggedTransaction Payload)}
    {admitted : List (TransactionRequest (Submission Payload) ×
      Option (TransactionOutcome (LoggedTransaction Payload) CommitError))}
    {outcome : TransactionOutcome (LoggedTransaction Payload) CommitError}
    (store : journal.store = state.journal.store)
    (later : Admitted rest { state with journal := journal } admitted final)
    (within : OutcomeWithin (admissionProgress state request.producer) outcome) :
    Admitted (request :: rest) state ((request, some outcome) :: admitted) final := by
  have same : ∀ producer, admissionProgress { state with journal := journal } producer =
      admissionProgress state producer := by
    intro producer
    simp [admissionProgress, store]
  refine ⟨later.store.trans store, later.coherent, by simp [later.inOrder], ?_, ?_, ?_⟩
  · intro producer
    obtain ⟨count, ids, progress⟩ := later.consecutive producer
    rw [same] at ids progress
    exact ⟨count, by simpa [acceptedRequests] using ids, progress⟩
  · intro entry member other answered
    rcases List.mem_cons.1 member with rfl | old
    · obtain rfl := Option.some.inj answered
      obtain ⟨count, _, progress⟩ := later.consecutive request.producer
      rw [same] at progress
      have reached : admissionProgress state request.producer ≤
          admissionProgress final request.producer := by omega
      exact within.mono reached
    · exact later.early entry old other answered
  · intro entry member undecided
    rcases List.mem_cons.1 member with rfl | old
    · exact absurd undecided (by simp)
    · exact later.accepted entry old undecided

/-- An accepted request moves its producer's overlay to its own id. -/
theorem Admitted.cons_accepted {request : TransactionRequest (Submission Payload)}
    {rest : List (TransactionRequest (Submission Payload))}
    {state final : AdmissionState (LoggedTransaction Payload)}
    {journal : EventJournal (LoggedTransaction Payload)}
    {admitted : List (TransactionRequest (Submission Payload) ×
      Option (TransactionOutcome (LoggedTransaction Payload) CommitError))}
    (store : journal.store = state.journal.store)
    (next : request.txnId = admissionProgress state request.producer + 1)
    (later : Admitted rest
      { nextBySession := (request.producer, request.txnId) :: state.nextBySession
        journal := journal } admitted final) :
    Admitted (request :: rest) state ((request, none) :: admitted) final := by
  refine ⟨later.store.trans store, later.coherent, by simp [later.inOrder], ?_, ?_, ?_⟩
  · intro producer
    obtain ⟨count, ids, progress⟩ := later.consecutive producer
    by_cases own : request.producer = producer
    · subst own
      have moved : admissionProgress
          { nextBySession := (request.producer, request.txnId) :: state.nextBySession
            journal := journal } request.producer = request.txnId := by
        simp [admissionProgress, overlayProgress]
      rw [moved] at ids progress
      refine ⟨count + 1, ?_, by omega⟩
      have tail : requestIds request.producer (acceptedRequests ((request, none) :: admitted)) =
          request.txnId :: requestIds request.producer (acceptedRequests admitted) := by
        simp [acceptedRequests, requestIds]
      rw [tail, ids, List.range'_succ, next]
    · have kept : admissionProgress
          { nextBySession := (request.producer, request.txnId) :: state.nextBySession
            journal := journal } producer = admissionProgress state producer := by
        simp [admissionProgress, overlayProgress, own, store]
      rw [kept] at ids progress
      exact ⟨count, by simpa [acceptedRequests, requestIds, own] using ids, progress⟩
  · intro entry member other answered
    rcases List.mem_cons.1 member with rfl | old
    · exact absurd answered (by simp)
    · exact later.early entry old other answered
  · intro entry member undecided
    rcases List.mem_cons.1 member with rfl | old
    · obtain ⟨count, _, progress⟩ := later.consecutive request.producer
      have moved : admissionProgress
          { nextBySession := (request.producer, request.txnId) :: state.nextBySession
            journal := journal } request.producer = request.txnId := by
        simp [admissionProgress, overlayProgress]
      rw [moved] at progress
      show request.txnId ≤ admissionProgress final request.producer
      omega
    · exact later.accepted entry old undecided

theorem admitRequests_admitted (requests : List (TransactionRequest (Submission Payload)))
    (state : AdmissionState (LoggedTransaction Payload))
    (coherent : state.journal.CacheCoherent) :
    ∀ admitted final, admitRequests requests state = (admitted, final) →
      Admitted requests state admitted final := by
  induction requests generalizing state with
  | nil =>
      intro admitted final result
      obtain ⟨rfl, rfl⟩ := Prod.mk.inj result
      refine ⟨rfl, coherent, rfl, ?_, by simp, by simp⟩
      intro producer
      exact ⟨0, by simp [acceptedRequests, requestIds], by simp⟩
  | cons request rest ih =>
      intro admitted final result
      obtain ⟨journal, lookup, store, filled⟩ := lookupProgress_eq state request.producer coherent
      rw [admitRequests, lookup] at result
      dsimp only at result
      rcases checkTransactionId_cases Payload request.txnId
        (admissionProgress state request.producer) with
        ⟨_, check⟩ | check | ⟨next, check⟩
      all_goals
        rw [check] at result
        obtain ⟨rfl, rfl⟩ := Prod.mk.inj result
      · exact (ih _ filled _ _ rfl).cons_early store (Nat.le_refl _)
      · exact (ih _ filled _ _ rfl).cons_early store trivial
      · exact (ih _ filled _ _ rfl).cons_accepted store next

/-- The outcomes of a group stay within the progress a server has reached. -/
theorem fillOutcomes_within (server : DeliveryServer Payload)
    {admitted : List (TransactionRequest (Submission Payload) ×
      Option (TransactionOutcome (LoggedTransaction Payload) CommitError))}
    (early : ∀ entry ∈ admitted, ∀ outcome, entry.2 = some outcome →
      OutcomeWithin (storedProgress server entry.1.producer) outcome)
    (accepted : ∀ entry ∈ admitted, entry.2 = none →
      entry.1.txnId ≤ storedProgress server entry.1.producer)
    (encoded : List (List (LoggedTransaction Payload))) :
    OutcomesWithin server (admitted.map (·.1)) (fillOutcomes admitted encoded) := by
  induction admitted generalizing encoded with
  | nil => trivial
  | cons entry rest ih =>
      have later := ih (fun other member => early other (List.mem_cons_of_mem _ member))
        (fun other member => accepted other (List.mem_cons_of_mem _ member))
      obtain ⟨request, decided⟩ := entry
      cases decided with
      | some outcome => exact ⟨early _ List.mem_cons_self outcome rfl, later encoded⟩
      | none =>
          have reached := accepted _ List.mem_cons_self rfl
          cases encoded with
          | nil => exact ⟨reached, later []⟩
          | cons records encoded => exact ⟨reached, later encoded⟩

theorem Admitted.outcomesWithin {requests : List (TransactionRequest (Submission Payload))}
    {state final : AdmissionState (LoggedTransaction Payload)}
    {admitted : List (TransactionRequest (Submission Payload) ×
      Option (TransactionOutcome (LoggedTransaction Payload) CommitError))}
    (decided : Admitted requests state admitted final) (server : DeliveryServer Payload)
    (reached : ∀ producer, storedProgress server producer = admissionProgress final producer)
    (encoded : List (List (LoggedTransaction Payload))) :
    OutcomesWithin server requests (fillOutcomes admitted encoded) := by
  rw [← decided.inOrder]
  refine fillOutcomes_within server ?_ ?_ encoded
  · intro entry member outcome answered
    rw [reached]
    exact decided.early entry member outcome answered
  · intro entry member undecided
    rw [reached]
    exact decided.accepted entry member undecided

theorem acceptedRequests_subset
    (admitted : List (TransactionRequest (Submission Payload) ×
      Option (TransactionOutcome (LoggedTransaction Payload) CommitError))) :
    acceptedRequests admitted ⊆ admitted.map (·.1) := by
  intro request member
  obtain ⟨⟨other, decided⟩, present, chosen⟩ := List.mem_filterMap.1 member
  cases decided with
  | some outcome => exact absurd chosen (by simp)
  | none =>
      obtain rfl := Option.some.inj chosen
      exact List.mem_map.2 ⟨_, present, rfl⟩

/-- A group that does not raise advances the server; one that raises leaves scene and store. -/
theorem commitGroup_advance (fault : Bool) {server : DeliveryServer Payload}
    (coherent : server.journal.CacheCoherent)
    (requests : List (TransactionRequest (Submission Payload))) :
    Advance requests server (commitGroup (persistGroup fault) server requests).1 ∧
    (commitGroup (persistGroup fault) server requests).1.journal.CacheCoherent ∧
    ∀ outcomes, (commitGroup (persistGroup fault) server requests).2 = .ok outcomes →
      OutcomesWithin (commitGroup (persistGroup fault) server requests).1 requests outcomes := by
  unfold commitGroup
  rcases result : (admitRequests requests
      ({ nextBySession := [], journal := server.journal } :
        AdmissionState (LoggedTransaction Payload)) :
      List (TransactionRequest (Submission Payload) ×
        Option (TransactionOutcome (LoggedTransaction Payload) CommitError)) ×
      AdmissionState (LoggedTransaction Payload)) with ⟨admitted, final⟩
  have decided := admitRequests_admitted requests _ coherent admitted final result
  have start : ∀ producer, admissionProgress
      ({ nextBySession := [], journal := server.journal } :
        AdmissionState (LoggedTransaction Payload)) producer = storedProgress server producer :=
    fun _ => rfl
  have store : final.journal.store = server.journal.store := decided.store
  have consecutive : ∀ producer, ∃ count, requestIds producer (acceptedRequests admitted) =
      List.range' (storedProgress { server with journal := final.journal } producer + 1) count ∧
      admissionProgress final producer = storedProgress server producer + count := by
    intro producer
    obtain ⟨count, ids, progress⟩ := decided.consecutive producer
    exact ⟨count, by simpa [start, storedProgress, store] using ids, progress⟩
  have unchanged : Advance requests server { server with journal := final.journal } :=
    Advance.of_unchanged rfl store
  dsimp only
  split
  · next nothing =>
      -- every member was answered early, so no progress moved
      refine ⟨unchanged, decided.coherent, ?_⟩
      intro outcomes same
      obtain rfl := Except.ok.inj same
      refine decided.outcomesWithin _ ?_ []
      intro producer
      obtain ⟨count, ids, progress⟩ := consecutive producer
      rw [nothing] at ids
      have none : count = 0 := by simpa [requestIds] using (congrArg List.length ids).symm
      rw [progress, none]
      simp [storedProgress, store]
  · next some =>
      cases fault with
      | true => exact ⟨unchanged, decided.coherent, fun _ same => nomatch same⟩
      | false =>
          simp only [persistGroup, Bool.false_eq_true, if_false]
          rcases applyAndPersist_cases { server with journal := final.journal }
            (acceptedRequests admitted) with
            ⟨error, raised⟩ | ⟨persisted, cache, records, sessions, succeeded⟩
          · rw [raised]
            exact ⟨unchanged, decided.coherent, fun _ same => nomatch same⟩
          · rw [succeeded]
            have advance := advance_of_persisted records sessions
              (fun producer => (consecutive producer).imp fun _ both => both.1)
            have reached : ∀ producer, persisted.store.producerSessions producer =
                admissionProgress final producer := by
              intro producer
              obtain ⟨count, ids, progress⟩ := consecutive producer
              have raised := foldl_upsertProgress producer _ _ count ids
              rw [sessions]
              refine raised.trans ?_
              rw [progress]
              simp [storedProgress, store]
            have included : acceptedRequests admitted ⊆ requests := by
              have subset := acceptedRequests_subset admitted
              rwa [decided.inOrder] at subset
            refine ⟨unchanged.trans (advance.mono included),
              rememberProgress_coherent final.nextBySession cache decided.coherent reached, ?_⟩
            intro outcomes same
            obtain rfl := Except.ok.inj same
            refine decided.outcomesWithin _ ?_ _
            exact reached

theorem executeRequests_advance (fault : Bool) {server : DeliveryServer Payload}
    (coherent : server.journal.CacheCoherent)
    (requests : List (TransactionRequest (Submission Payload))) :
    Advance requests server (executeRequests commitEvents (persistGroup fault) server requests).1 ∧
    (executeRequests commitEvents (persistGroup fault) server requests).1.journal.CacheCoherent ∧
    OutcomesWithin (executeRequests commitEvents (persistGroup fault) server requests).1 requests
      (executeRequests commitEvents (persistGroup fault) server requests).2 := by
  obtain ⟨grouped, groupedCoherent, groupedWithin⟩ := commitGroup_advance fault coherent requests
  unfold executeRequests
  split
  · next after outcomes result =>
      rw [result] at grouped groupedCoherent groupedWithin
      exact ⟨grouped, groupedCoherent, groupedWithin outcomes rfl⟩
  · next after error result =>
      rw [result] at grouped groupedCoherent
      obtain ⟨each, eachCoherent, eachWithin⟩ := commitEach_advance groupedCoherent requests
      exact ⟨grouped.trans each, eachCoherent, eachWithin⟩

end UsdConnect
