/-
Purpose: A group of managed transactions that is committed does what its members do one by one:
  outcomes, layers, records, progress and the prim index.
Trusted boundary: none
Main exports: take, publish_cons, executeRequests_eq_commitEach
-/
import Mathlib.Data.List.SplitBy
import UsdConnect.Lib.OrderedDict
import UsdConnect.Proofs.GroupAdmission
import UsdConnect.Proofs.ManagedAtomicity
import UsdConnect.Server.ManagedCommit

namespace UsdConnect

/-! ### Managed transactions -/

section Managed

variable {Tracking Record : Type} {context : CommitContext Tracking Record}

/-- A change of the journal beside its sequence counter. -/
structure Transparent (change : EventJournal Record → EventJournal Record) : Prop where
  reads : ∀ journal, (change journal).nextSeq = journal.nextSeq
  moves : ∀ journal next,
    change { journal with nextSeq := next } = { change journal with nextSeq := next }

/-- The server with another journal and another prim index. -/
def ServerState.changed (change : EventJournal Record → EventJournal Record)
    (retrack : Tracking → Tracking) (server : ManagedServer Tracking Record) :
    ManagedServer Tracking Record where
  scene := { server.scene with tracking := retrack server.scene.tracking }
  journal := change server.journal

variable {change : EventJournal Record → EventJournal Record} {retrack : Tracking → Tracking}

theorem encodeEvents_changed (transparent : Transparent change) (clientId layerKey : String)
    (journal : EventJournal Record) (events : List Event) :
    encodeEvents context clientId layerKey (change journal) events =
      (change (encodeEvents context clientId layerKey journal events).1,
        (encodeEvents context clientId layerKey journal events).2) := by
  induction events generalizing journal with
  | nil => rfl
  | cons event rest ih =>
      have assigned : (change journal).assignSeq =
          (journal.nextSeq, change journal.assignSeq.2) := by
        show ((change journal).nextSeq,
          { change journal with nextSeq := (change journal).nextSeq + 1 }) =
            (journal.nextSeq, change { journal with nextSeq := journal.nextSeq + 1 })
        rw [transparent.moves journal (journal.nextSeq + 1), transparent.reads]
      unfold encodeEvents
      rw [assigned]
      dsimp only
      rw [ih]
      have first : journal.assignSeq.1 = journal.nextSeq := rfl
      rw [first]
      generalize encodeEvents context clientId layerKey journal.assignSeq.2 rest = result
      obtain ⟨reached, outcome⟩ := result
      split
      · rfl
      · cases outcome <;> rfl

theorem encodeManaged_changed (transparent : Transparent change)
    (server : ManagedServer Tracking Record) (transaction : PreparedTransaction) :
    encodeManaged context (server.changed change retrack) transaction =
      ((encodeManaged context server transaction).1.changed change retrack,
        (encodeManaged context server transaction).2) := by
  unfold encodeManaged
  dsimp only [ServerState.changed]
  rw [encodeEvents_changed transparent]

theorem applyTransaction_changed (server : ManagedServer Tracking Record)
    (transaction : PreparedTransaction) :
    applyTransaction context (server.changed change retrack) transaction =
      ((applyTransaction context server transaction).1.changed change retrack,
        (applyTransaction context server transaction).2) := by
  unfold applyTransaction
  dsimp only [ServerState.changed]
  split <;> rfl

/-- Apply a transaction and encode it, when that had to wait. -/
def take (context : CommitContext Tracking Record) (encodeNow : Bool)
    (server : ManagedServer Tracking Record) (transaction : PreparedTransaction) :
    ManagedServer Tracking Record × Except EditError (List (Nat × Record)) :=
  match applyTransaction context server transaction with
  | (server, .error error) => (server, .error error)
  | (server, .ok ()) =>
      if encodeNow then encodeManaged context server transaction else (server, .ok [])

theorem take_ok {encodeNow : Bool} {server after : ManagedServer Tracking Record}
    {transaction : PreparedTransaction} {rows : List (Nat × Record)} :
    take context encodeNow server transaction = (after, .ok rows) ↔
      ∃ middle, applyTransaction context server transaction = (middle, .ok ()) ∧
        (if encodeNow then encodeManaged context middle transaction else (middle, .ok [])) =
          (after, .ok rows) := by
  unfold take
  constructor
  · intro taken
    split at taken
    · cases (Prod.mk.inj taken).2
    · next middle applied => exact ⟨middle, applied, taken⟩
  · rintro ⟨middle, applied, encoded⟩
    rw [applied]
    exact encoded

theorem runs_of_encodeAll {server after : ManagedServer Tracking Record}
    {prepared : List PreparedTransaction} {encoded : List (List (Nat × Record))}
    (all : encodeAll context server prepared = (after, .ok encoded)) :
    Runs (encodeManaged context) server prepared after encoded := by
  induction prepared generalizing server encoded with
  | nil =>
      obtain ⟨rfl, same⟩ := Prod.mk.inj all
      rw [← Except.ok.inj same]
      exact .nil
  | cons transaction rest ih =>
      unfold encodeAll at all
      split at all
      · cases (Prod.mk.inj all).2
      · next middle rows first =>
          split at all
          · cases (Prod.mk.inj all).2
          · next last later second =>
              obtain ⟨rfl, same⟩ := Prod.mk.inj all
              rw [← Except.ok.inj same]
              exact .cons first (ih second)

theorem runs_of_applyAll {encodeNow : Bool} {server after : ManagedServer Tracking Record}
    {prepared : List PreparedTransaction} {encoded : List (List (Nat × Record))}
    (all : applyAll context encodeNow server prepared = (after, .ok encoded)) :
    Runs (take context encodeNow) server prepared after encoded := by
  induction prepared generalizing server encoded with
  | nil =>
      obtain ⟨rfl, same⟩ := Prod.mk.inj all
      rw [← Except.ok.inj same]
      exact .nil
  | cons transaction rest ih =>
      unfold applyAll at all
      split at all
      · cases (Prod.mk.inj all).2
      · next middle applied =>
          split at all
          · cases (Prod.mk.inj all).2
          · next last rows coded =>
              split at all
              · cases (Prod.mk.inj all).2
              · next final later second =>
                  obtain ⟨rfl, same⟩ := Prod.mk.inj all
                  rw [← Except.ok.inj same]
                  exact .cons (take_ok.2 ⟨middle, applied, coded⟩) (ih second)

/-- The journal beside its counter and the prim index are not looked at. -/
theorem take_changed (transparent : Transparent change) {server after : ManagedServer Tracking Record}
    {transaction : PreparedTransaction} {rows : List (Nat × Record)}
    (taken : take context true server transaction = (after, .ok rows)) :
    take context true (server.changed change retrack) transaction =
      (after.changed change retrack, .ok rows) := by
  obtain ⟨middle, applied, encoded⟩ := take_ok.1 taken
  rw [if_pos rfl] at encoded
  refine take_ok.2 ⟨middle.changed change retrack, ?_, ?_⟩
  · rw [applyTransaction_changed, applied]
  · rw [if_pos rfl, encodeManaged_changed transparent, encoded]

/-- The scene and the objects after an application do not depend on the journal, and the journal
stays. -/
theorem applyTransaction_journal {server middle : ManagedServer Tracking Record}
    {transaction : PreparedTransaction}
    (applied : applyTransaction context server transaction = (middle, .ok ()))
    (journal : EventJournal Record) :
    middle.journal = server.journal ∧
      applyTransaction context { server with journal := journal } transaction =
        ({ middle with journal := journal }, .ok ()) := by
  unfold applyTransaction at applied ⊢
  dsimp only at applied ⊢
  split at applied
  · cases (Prod.mk.inj applied).2
  · next events outcome _ =>
      obtain ⟨rfl, fine⟩ := Prod.mk.inj applied
      rw [fine]
      exact ⟨rfl, rfl⟩

theorem applyWithDeletionFields_events {usd : Usd} {target : LayerId} {run events completed : List Event}
    {outcome : Except EditError Unit} {scene : Scene}
    (kept : ∀ event ∈ events, ∀ delta, event = .setSdfSpecFields delta → delta.removed = false)
    (returned : (applyWithDeletionFields usd target run events).result scene =
      .ok (completed, outcome)) : completed = run ++ events := by
  induction events generalizing run with
  | nil =>
      unfold applyWithDeletionFields at returned
      obtain ⟨_, _, last, _⟩ := Edit.bind_returned returned
      rw [List.append_nil]
      exact (Prod.mk.inj (Except.ok.inj last)).1.symm
  | cons event rest ih =>
      rw [applyWithDeletionFields_collect (kept event List.mem_cons_self)] at returned
      have joined := ih (fun other member => kept other (List.mem_cons_of_mem event member)) returned
      rw [joined, List.append_assoc, List.singleton_append]

theorem applyRuns_events {usd : Usd} {session target : LayerId} {runs : List (List Event)}
    {completed : List Event} {outcome : Except EditError Unit} {scene : Scene}
    (kept : ∀ run ∈ runs, ∀ event ∈ run, ∀ delta, event = .setSdfSpecFields delta →
      delta.removed = false)
    (returned : (applyRuns usd session target runs).result scene = .ok (completed, outcome)) :
    completed = runs.flatten := by
  induction runs generalizing scene completed outcome with
  | nil => exact (Prod.mk.inj (Except.ok.inj returned)).1.symm
  | cons run rest ih =>
      unfold applyRuns at returned
      obtain ⟨_, _, second, _⟩ := Edit.bind_returned returned
      obtain ⟨⟨first, middle⟩, applied, third, _⟩ := Edit.bind_returned second
      have own := applyWithDeletionFields_events (kept run List.mem_cons_self) applied
      rw [List.nil_append] at own
      subst own
      cases middle with
      | error error => exact (Prod.mk.inj (Except.ok.inj third)).1.symm
      | ok _ =>
          obtain ⟨⟨later, final⟩, fourth, finished, _⟩ := Edit.bind_returned third
          rw [← (Prod.mk.inj (Except.ok.inj finished)).1, List.flatten_cons,
            ih (fun other member => kept other (List.mem_cons_of_mem first member)) fourth]

theorem applyValidated_events {usd : Usd} {session target : LayerId} {events completed : List Event}
    {outcome : Except EditError Unit} {scene : Scene}
    (kept : ∀ event ∈ events, ∀ delta, event = .setSdfSpecFields delta → delta.removed = false)
    (returned : (applyValidated usd session target events).result scene =
      .ok (completed, outcome)) : completed = events := by
  have whole : (routedRuns events).flatten = events := List.flatten_splitBy _ events
  have runs : ∀ {made : List Event} {outcome : Except EditError Unit} {scene : Scene},
      (applyRuns usd session target (routedRuns events)).result scene = .ok (made, outcome) →
        made = events := by
    intro made outcome scene applied
    rw [applyRuns_events ?_ applied, whole]
    intro run member event inside
    apply kept
    rw [← whole]
    exact List.mem_flatten_of_mem member inside
  unfold applyValidated at returned
  obtain ⟨_, _, second, _⟩ := Edit.bind_returned returned
  dsimp only at second
  split at second
  · next =>
      obtain ⟨_, _, third, _⟩ := Edit.bind_returned second
      obtain ⟨⟨made, middle⟩, applied, fourth, _⟩ := Edit.bind_returned third
      obtain ⟨_, _, last, _⟩ := Edit.bind_returned fourth
      exact (Prod.mk.inj (Except.ok.inj last)).1.symm.trans (runs applied)
  · next =>
      obtain ⟨⟨made, middle⟩, applied, last, _⟩ := Edit.bind_returned second
      exact (Prod.mk.inj (Except.ok.inj last)).1.symm.trans (runs applied)

/-- The object of a request, which an application may complete, is its own. -/
theorem applyTransaction_objects {server middle : ManagedServer Tracking Record}
    {transaction : PreparedTransaction}
    (applied : applyTransaction context server transaction = (middle, .ok ())) :
    (∀ other, other ≠ transaction.request.body.events →
      middle.scene.objects other = server.scene.objects other) ∧
    ((∀ event ∈ server.scene.objects transaction.request.body.events, ∀ delta,
      event = .setSdfSpecFields delta → delta.removed = false) →
        middle.scene.objects = server.scene.objects) := by
  unfold applyTransaction at applied
  dsimp only at applied
  split at applied
  · cases (Prod.mk.inj applied).2
  · next events outcome result =>
      obtain ⟨rfl, _⟩ := Prod.mk.inj applied
      constructor
      · intro other away
        exact Function.update_of_ne away _ _
      · intro kept
        rw [applyValidated_events kept result]
        exact Function.update_eq_self _ _

theorem encodeManaged_keeps_scene {server last : ManagedServer Tracking Record}
    {transaction : PreparedTransaction} {rows : List (Nat × Record)}
    (encoded : encodeManaged context server transaction = (last, .ok rows)) :
    last.scene = server.scene :=
  (congrArg (fun result => result.1.scene) encoded).symm

theorem encodeManaged_scene {server last : ManagedServer Tracking Record}
    {transaction : PreparedTransaction} {rows : List (Nat × Record)}
    (encoded : encodeManaged context server transaction = (last, .ok rows))
    {scene : ManagedScene Tracking} (same : scene.objects = server.scene.objects) :
    encodeManaged context { server with scene := scene } transaction =
      ({ last with scene := scene }, .ok rows) := by
  unfold encodeManaged at encoded ⊢
  dsimp only at encoded ⊢
  obtain ⟨rfl, fine⟩ := Prod.mk.inj encoded
  rw [same, fine]

/-- No event of the transactions is a deletion. -/
def DeletionFree (objects : EventsRef → List Event) (prepared : List PreparedTransaction) : Prop :=
  ∀ transaction ∈ prepared, ∀ event ∈ objects transaction.request.body.events, ∀ delta,
    event = .setSdfSpecFields delta → delta.removed = false

theorem deletionFree_of_needs {objects : EventsRef → List Event}
    {prepared : List PreparedTransaction} (needs : needsSceneFields objects prepared = false) :
    DeletionFree objects prepared := by
  rintro transaction member event inside delta rfl
  unfold needsSceneFields at needs
  have none := List.any_eq_false.1 needs transaction member
  have here := List.any_eq_false.1 (by simpa using none) _ inside
  simpa using here

theorem runs_encodeManaged_scene {server after : ManagedServer Tracking Record}
    {prepared : List PreparedTransaction} {encoded : List (List (Nat × Record))}
    (runs : Runs (encodeManaged context) server prepared after encoded)
    {scene : ManagedScene Tracking} (same : scene.objects = server.scene.objects) :
    Runs (encodeManaged context) { server with scene := scene } prepared
      { after with scene := scene } encoded := by
  induction runs with
  | nil => exact .nil
  | cons head tail ih =>
      refine .cons (encodeManaged_scene head same) (ih ?_)
      rw [encodeManaged_keeps_scene head, same]

/-- Without deletions it makes no difference that a group is encoded before it is applied. -/
theorem taken_of_encoded {server reserved last : ManagedServer Tracking Record}
    {prepared : List PreparedTransaction} {encoded skipped : List (List (Nat × Record))}
    (free : DeletionFree server.scene.objects prepared)
    (encodes : Runs (encodeManaged context) server prepared reserved encoded)
    (applies : Runs (take context false) reserved prepared last skipped) :
    Runs (take context true) server prepared last encoded := by
  induction prepared generalizing server reserved encoded skipped with
  | nil =>
      cases encodes
      cases applies
      exact .nil
  | cons transaction rest ih =>
      cases encodes with
      | @cons _ middle _ _ _ rows later first second =>
          cases applies with
          | cons applied others =>
              obtain ⟨made, third, fourth⟩ := take_ok.1 applied
              rw [if_neg Bool.false_ne_true] at fourth
              obtain ⟨rfl, _⟩ := Prod.mk.inj fourth
              have start := encodeManaged_keeps_scene first
              have scene : reserved.scene = server.scene :=
                (second.kept ServerState.scene fun _ => encodeManaged_keeps_scene).trans start
              obtain ⟨journal, one⟩ := applyTransaction_journal third server.journal
              have restored : ({ scene := reserved.scene, journal := server.journal } :
                  ManagedServer Tracking Record) = server := by
                rw [scene]
              rw [restored] at one
              have objects : made.scene.objects = server.scene.objects := by
                rw [← scene]
                apply (applyTransaction_objects third).2
                rw [scene]
                exact free transaction List.mem_cons_self
              have two := encodeManaged_scene first objects
              have encodesRest := runs_encodeManaged_scene second (objects.trans (by rw [start]))
              have reached : ({ scene := made.scene, journal := reserved.journal } :
                  ManagedServer Tracking Record) = made := by
                rw [← journal]
              rw [reached] at encodesRest
              refine .cons (take_ok.2 ⟨_, one, two⟩) (ih ?_ encodesRest others)
              intro other member
              rw [objects]
              exact free other (List.mem_cons_of_mem transaction member)

/-- The server after the rows of a group have been stored. -/
def publish (context : CommitContext Tracking Record) (server : ManagedServer Tracking Record)
    (prepared : List PreparedTransaction) (encoded : List (List (Nat × Record))) :
    ManagedServer Tracking Record :=
  trackCommitted context
    { server with journal := server.journal.appendBatch encoded.flatten (groupProgress prepared) }
    prepared

/-- A group that is stored has been taken transaction by transaction. -/
theorem taken_of_applyAndPersist {server after : ManagedServer Tracking Record}
    {prepared : List PreparedTransaction} {encoded : List (List (Nat × Record))}
    (stored : applyAndPersistManaged context server prepared = (after, .ok encoded)) :
    ∃ last, Runs (take context true) server prepared last encoded ∧
      context.appendError encoded.flatten = none ∧ after = publish context last prepared encoded := by
  unfold applyAndPersistManaged at stored
  dsimp only at stored
  cases needs : needsSceneFields server.scene.objects prepared with
  | true =>
      rw [needs, if_pos rfl] at stored
      dsimp only at stored
      split at stored
      · cases (Prod.mk.inj stored).2
      · next last taken applied =>
          rw [if_pos rfl] at stored
          split at stored
          · cases (Prod.mk.inj stored).2
          · next fits =>
              obtain ⟨rfl, same⟩ := Prod.mk.inj stored
              obtain rfl := Except.ok.inj same
              exact ⟨last, runs_of_applyAll applied, fits, rfl⟩
  | false =>
      rw [needs, if_neg Bool.false_ne_true] at stored
      split at stored
      · cases (Prod.mk.inj stored).2
      · next reserved first all =>
          split at stored
          · cases (Prod.mk.inj stored).2
          · next last skipped applied =>
              rw [if_neg Bool.false_ne_true] at stored
              split at stored
              · cases (Prod.mk.inj stored).2
              · next fits =>
                  obtain ⟨rfl, same⟩ := Prod.mk.inj stored
                  obtain rfl := Except.ok.inj same
                  exact ⟨last, taken_of_encoded (deletionFree_of_needs needs) (runs_of_encodeAll all)
                    (runs_of_applyAll applied), fits, rfl⟩

/-- A transaction that can be taken and stored is committed on its own. -/
theorem applyAndPersist_of_taken {server middle last : ManagedServer Tracking Record}
    {transaction : PreparedTransaction} {rows : List (Nat × Record)}
    (applied : applyTransaction context server transaction = (middle, .ok ()))
    (encoded : encodeManaged context middle transaction = (last, .ok rows))
    (fits : context.appendError rows = none) :
    applyAndPersistManaged context server [transaction] =
      (publish context last [transaction] [rows], .ok [rows]) := by
  have alone : ([rows] : List (List (Nat × Record))).flatten = rows := List.flatten_singleton
  unfold applyAndPersistManaged publish
  dsimp only
  cases needs : needsSceneFields server.scene.objects [transaction] with
  | true =>
      have all : applyAll context true server [transaction] = (last, .ok [rows]) := by
        unfold applyAll
        rw [applied]
        dsimp only
        rw [if_pos rfl, encoded]
        rfl
      rw [if_pos rfl]
      dsimp only
      rw [all]
      dsimp only
      rw [if_pos rfl, alone, fits]
  | false =>
      have objects := (applyTransaction_objects applied).2
        (deletionFree_of_needs needs transaction List.mem_cons_self)
      obtain ⟨journal, apart⟩ := applyTransaction_journal applied last.journal
      have first := encodeManaged_scene encoded objects.symm
      have start : ({ scene := server.scene, journal := middle.journal } :
          ManagedServer Tracking Record) = server := by
        rw [journal]
      have reached : ({ scene := middle.scene, journal := last.journal } :
          ManagedServer Tracking Record) = last := by
        rw [← encodeManaged_keeps_scene encoded]
      rw [start] at first
      rw [reached] at apart
      have encodes : encodeAll context server [transaction] =
          ({ last with scene := server.scene }, .ok [rows]) := by
        unfold encodeAll
        rw [first]
        rfl
      have applies : applyAll context false { last with scene := server.scene } [transaction] =
          (last, .ok [[]]) := by
        unfold applyAll
        rw [apart]
        rfl
      rw [if_neg Bool.false_ne_true, encodes]
      dsimp only
      rw [applies]
      dsimp only
      rw [if_neg Bool.false_ne_true, alone, fits]

/-! ### Progress of a group -/

/-- Progress rows are upserted, so a producer ends at the largest of its ids. -/
theorem foldl_upsertProgress_entries (entries : List (Producer × Nat))
    (distinct : (entries.map (·.1)).Nodup) (sessions : Producer → Nat) (producer : Producer) :
    (entries.map fun (producer, txnId) => (⟨producer, txnId⟩ : ProducerProgress)).foldl
        EventStore.upsertProgress sessions producer =
      max (sessions producer)
        (((entries.find? fun entry => entry.1 = producer).map (·.2)).getD 0) := by
  induction entries generalizing sessions with
  | nil => simp
  | cons entry rest ih =>
      have apart := List.nodup_cons.1 distinct
      rw [List.map_cons, List.foldl_cons, ih apart.2, List.find?_cons]
      by_cases same : entry.1 = producer
      · have absent : rest.find? (fun other => other.1 = producer) = none := by
          rw [List.find?_eq_none]
          intro other member here
          exact apart.1 (List.mem_map.2 ⟨other, member, (of_decide_eq_true here).trans same.symm⟩)
        rw [absent, decide_eq_true same]
        simp [EventStore.upsertProgress, ← same]
      · rw [decide_eq_false same]
        simp [EventStore.upsertProgress, Function.update_of_ne (Ne.symm same)]

/-- The dictionary of the last ids, from the ids that are in it already. -/
def lastIds (dict : OrderedDict Producer Nat) (prepared : List PreparedTransaction) :
    OrderedDict Producer Nat :=
  prepared.foldl
    (fun progress transaction =>
      progress.set transaction.request.producer transaction.request.txnId) dict

theorem get?_lastIds (dict : OrderedDict Producer Nat) (prepared : List PreparedTransaction)
    (producer : Producer) :
    (lastIds dict prepared).get? producer =
      ((lastIds .empty prepared).get? producer).or (dict.get? producer) := by
  induction prepared generalizing dict with
  | nil => rfl
  | cons transaction rest ih =>
      have unfolded : ∀ start, lastIds start (transaction :: rest) =
          lastIds (start.set transaction.request.producer transaction.request.txnId) rest :=
        fun _ => rfl
      rw [unfolded, unfolded, ih, ih (OrderedDict.set .empty _ _), Option.or_assoc]
      congr 1
      rw [OrderedDict.get?_set, OrderedDict.get?_set, Function.update_apply, Function.update_apply]
      split <;> rfl

theorem mem_of_lastIds {prepared : List PreparedTransaction} {producer : Producer} {txnId : Nat}
    (found : (lastIds .empty prepared).get? producer = some txnId) :
    ∃ transaction ∈ prepared, transaction.request.producer = producer ∧
      transaction.request.txnId = txnId := by
  induction prepared with
  | nil => cases found
  | cons transaction rest ih =>
      have unfolded : lastIds .empty (transaction :: rest) =
          lastIds (OrderedDict.set .empty transaction.request.producer transaction.request.txnId)
            rest := rfl
      rw [unfolded, get?_lastIds, Option.or_eq_some_iff] at found
      rcases found with later | ⟨_, first⟩
      · obtain ⟨other, member, here⟩ := ih later
        exact ⟨other, List.mem_cons_of_mem transaction member, here⟩
      · rw [OrderedDict.get?_set, Function.update_apply] at first
        split at first
        · next same => exact ⟨transaction, List.mem_cons_self, same.symm, Option.some.inj first⟩
        · cases first

/-- Storing the progress of a group at once is storing that of its first transaction and then that of
the rest. -/
theorem upsert_groupProgress_cons {transaction : PreparedTransaction}
    {rest : List PreparedTransaction} (sessions : Producer → Nat)
    (ascending : ∀ other ∈ rest, transaction.request.producer = other.request.producer →
      transaction.request.txnId < other.request.txnId) :
    (groupProgress (transaction :: rest)).foldl EventStore.upsertProgress sessions =
      (groupProgress rest).foldl EventStore.upsertProgress
        ((groupProgress [transaction]).foldl EventStore.upsertProgress sessions) := by
  funext producer
  have progress : ∀ (prepared : List PreparedTransaction) (sessions : Producer → Nat),
      (groupProgress prepared).foldl EventStore.upsertProgress sessions producer =
        max (sessions producer) (((lastIds .empty prepared).get? producer).getD 0) :=
    fun prepared sessions =>
      foldl_upsertProgress_entries _ (lastIds .empty prepared).distinct sessions producer
  rw [progress, progress, progress]
  have unfolded : ∀ others, lastIds .empty (transaction :: others) =
      lastIds (OrderedDict.set .empty transaction.request.producer transaction.request.txnId)
        others := fun _ => rfl
  rw [unfolded, unfolded, get?_lastIds]
  have single : (lastIds (OrderedDict.set .empty transaction.request.producer
      transaction.request.txnId) []).get? producer = (OrderedDict.set .empty
        transaction.request.producer transaction.request.txnId).get? producer := rfl
  rw [single]
  cases later : (lastIds .empty rest).get? producer with
  | none => simp
  | some txnId =>
      obtain ⟨other, member, same, rfl⟩ := mem_of_lastIds later
      rw [Option.some_or, OrderedDict.get?_set, Function.update_apply]
      split
      · next own =>
          have below := ascending other member (own.symm.trans same.symm)
          simp only [Option.getD_some]
          omega
      · simp [OrderedDict.get?, OrderedDict.empty]

/-! ### A group in parts -/

theorem objects_of_taken {server after : ManagedServer Tracking Record}
    {prepared : List PreparedTransaction} {encoded : List (List (Nat × Record))}
    (taken : Runs (take context true) server prepared after encoded) {other : EventsRef}
    (apart : ∀ transaction ∈ prepared, other ≠ transaction.request.body.events) :
    after.scene.objects other = server.scene.objects other := by
  refine taken.kept (fun server => server.scene.objects other) ?_
  intro server transaction after rows member taken
  obtain ⟨middle, applied, encoded⟩ := take_ok.1 taken
  rw [if_pos rfl] at encoded
  rw [encodeManaged_keeps_scene encoded]
  exact (applyTransaction_objects applied).1 other (apart transaction member)

/-- What is published for a group is what is published for its first transaction and then for the
rest. -/
theorem publish_cons {first last : ManagedServer Tracking Record}
    {transaction : PreparedTransaction} {rest : List PreparedTransaction}
    {rows : List (Nat × Record)} {later : List (List (Nat × Record))}
    (objects : last.scene.objects transaction.request.body.events =
      first.scene.objects transaction.request.body.events)
    (ascending : ∀ other ∈ rest, transaction.request.producer = other.request.producer →
      transaction.request.txnId < other.request.txnId) :
    publish context (last.changed (fun journal => journal.appendBatch rows (groupProgress [transaction]))
        fun tracking => (first.scene.objects transaction.request.body.events).foldl context.track
          tracking) rest later =
      publish context last (transaction :: rest) (rows :: later) := by
  unfold publish trackCommitted ServerState.changed EventJournal.appendBatch EventStore.appendBatch
  dsimp only
  rw [List.flatMap_cons, List.foldl_append, objects, List.flatten_cons, List.length_append,
    upsert_groupProgress_cons _ ascending, List.append_assoc, Nat.add_assoc]

theorem prepareManagedTransaction_congr {objects others : EventsRef → List Event}
    {request : ManagedRequest} (same : others request.body.events = objects request.body.events) :
    prepareManagedTransaction context others request =
      prepareManagedTransaction context objects request := by
  unfold prepareManagedTransaction
  rw [same]

theorem request_of_prepared {objects : EventsRef → List Event} {request : ManagedRequest}
    {transaction : PreparedTransaction}
    (prepared : prepareManagedTransaction context objects request = .ok transaction) :
    transaction.request = request := by
  unfold prepareManagedTransaction at prepared
  dsimp only at prepared
  split at prepared
  · cases prepared
  · split at prepared
    · cases prepared
    · rw [← Except.ok.inj prepared]

theorem prepareAll_cons {objects : EventsRef → List Event} {request : ManagedRequest}
    {rest : List ManagedRequest} {prepared : List PreparedTransaction} :
    prepareAll context objects (request :: rest) = .ok prepared ↔
      ∃ transaction others, prepareManagedTransaction context objects request = .ok transaction ∧
        prepareAll context objects rest = .ok others ∧ prepared = transaction :: others := by
  unfold prepareAll
  rw [List.mapM_cons]
  constructor
  · intro all
    cases first : prepareManagedTransaction context objects request with
    | error error =>
        rw [first] at all
        cases all
    | ok transaction =>
        rw [first] at all
        cases second : rest.mapM (prepareManagedTransaction context objects) with
        | error error =>
            rw [second] at all
            cases all
        | ok others =>
            rw [second] at all
            exact ⟨transaction, others, rfl, rfl, (Except.ok.inj all).symm⟩
  · rintro ⟨transaction, others, first, second, rfl⟩
    rw [first, second]
    rfl

theorem prepareAll_congr {objects others : EventsRef → List Event} {requests : List ManagedRequest}
    (same : ∀ request ∈ requests, others request.body.events = objects request.body.events) :
    prepareAll context others requests = prepareAll context objects requests := by
  induction requests with
  | nil => rfl
  | cons request rest ih =>
      unfold prepareAll at ih ⊢
      rw [List.mapM_cons, List.mapM_cons, prepareManagedTransaction_congr
        (same request List.mem_cons_self), ih fun other member =>
          same other (List.mem_cons_of_mem request member)]

theorem requests_of_prepareAll {objects : EventsRef → List Event} {requests : List ManagedRequest}
    {prepared : List PreparedTransaction}
    (all : prepareAll context objects requests = .ok prepared) :
    prepared.map (·.request) = requests := by
  induction requests generalizing prepared with
  | nil =>
      obtain rfl := Except.ok.inj all
      rfl
  | cons request rest ih =>
      obtain ⟨transaction, others, first, second, rfl⟩ := prepareAll_cons.1 all
      rw [List.map_cons, request_of_prepared first, ih second]

theorem publish_nil (server : ManagedServer Tracking Record) : publish context server [] [] = server := by
  unfold publish trackCommitted EventJournal.appendBatch EventStore.appendBatch
  dsimp only [List.flatten_nil, List.length_nil, Nat.add_zero]
  rw [List.append_nil]
  rfl

theorem commitManagedEvents_of_taken {server middle reached : ManagedServer Tracking Record}
    {request : ManagedRequest} {transaction : PreparedTransaction} {rows : List (Nat × Record)}
    (prepared : prepareManagedTransaction context server.scene.objects request = .ok transaction)
    (applied : applyTransaction context server transaction = (middle, .ok ()))
    (encoded : encodeManaged context middle transaction = (reached, .ok rows))
    (fits : context.appendError rows = none) :
    commitManagedEvents context server request =
      (publish context reached [transaction] [rows], .ok (rows.map (·.2))) := by
  have alone : prepareAll context server.scene.objects [request] = .ok [transaction] :=
    prepareAll_cons.2 ⟨transaction, [], prepared, rfl, rfl⟩
  unfold commitManagedEvents commitManagedGroup
  rw [alone]
  dsimp only
  rw [applyAndPersist_of_taken applied encoded fits]
  exact congrArg (Prod.mk _) (congrArg Except.ok List.flatten_singleton)

/-- What can be taken in one go and stored in parts is committed request by request. -/
theorem commitsTo_of_taken {server last : ManagedServer Tracking Record}
    {requests : List ManagedRequest} {prepared : List PreparedTransaction}
    {encoded : List (List (Nat × Record))}
    (all : prepareAll context server.scene.objects requests = .ok prepared)
    (taken : Runs (take context true) server prepared last encoded)
    (distinct : (requests.map fun request => request.body.events).Nodup)
    (ascending : Ascending requests) (fits : ∀ rows ∈ encoded, context.appendError rows = none) :
    Runs (commitManagedEvents context) server requests (publish context last prepared encoded)
      (encoded.map fun rows => rows.map (·.2)) := by
  induction requests generalizing server prepared last encoded with
  | nil =>
      have none : prepared = [] := (Except.ok.inj all).symm
      subst none
      cases taken
      rw [publish_nil]
      exact .nil
  | cons request rest ih =>
      obtain ⟨transaction, others, first, second, rfl⟩ := prepareAll_cons.1 all
      cases taken with
      | @cons _ reached _ _ _ rows later head tail =>
          obtain ⟨middle, applied, encoded⟩ := take_ok.1 head
          rw [if_pos rfl] at encoded
          have own := request_of_prepared first
          have requests := requests_of_prepareAll second
          have apart := List.nodup_cons.1 distinct
          have listed : ∀ other ∈ others, other.request ∈ rest := by
            intro other member
            rw [← requests]
            exact List.mem_map_of_mem member
          have away : ∀ other ∈ rest, other.body.events ≠ transaction.request.body.events := by
            intro other member same
            rw [own] at same
            exact apart.1 (List.mem_map.2 ⟨other, member, same⟩)
          have above : ∀ other ∈ others, transaction.request.producer = other.request.producer →
              transaction.request.txnId < other.request.txnId := by
            intro other member
            rw [own]
            exact List.rel_of_pairwise_cons ascending (listed other member)
          have kept : last.scene.objects transaction.request.body.events =
              reached.scene.objects transaction.request.body.events :=
            objects_of_taken tail fun other member => (away _ (listed other member)).symm
          have still : ∀ other ∈ rest,
              reached.scene.objects other.body.events = server.scene.objects other.body.events := by
            intro other member
            rw [encodeManaged_keeps_scene encoded]
            exact (applyTransaction_objects applied).1 _ (away other member)
          have head := commitManagedEvents_of_taken first applied encoded
            (fits rows List.mem_cons_self)
          have moved : publish context reached [transaction] [rows] = reached.changed
              (fun journal => journal.appendBatch rows (groupProgress [transaction]))
              (fun tracking => (reached.scene.objects transaction.request.body.events).foldl
                context.track tracking) := by
            unfold publish trackCommitted ServerState.changed
            rw [List.flatten_singleton, List.flatMap_singleton]
          have transparent : Transparent fun journal : EventJournal Record =>
              journal.appendBatch rows (groupProgress [transaction]) :=
            ⟨fun _ => rfl, fun _ _ => rfl⟩
          refine .cons head ?_
          rw [moved, ← publish_cons kept above]
          refine ih ?_ (tail.map _ (take_changed transparent)) apart.2 ascending.of_cons
            (fun other member => fits other (List.mem_cons_of_mem rows member))
          rw [← second]
          exact prepareAll_congr still

theorem encodeManaged_keeps_store {server last : ManagedServer Tracking Record}
    {transaction : PreparedTransaction} {rows : List (Nat × Record)}
    (encoded : encodeManaged context server transaction = (last, .ok rows)) :
    last.journal.store = server.journal.store := by
  have transparent : Transparent fun journal : EventJournal Record =>
      { server.journal with nextSeq := journal.nextSeq } :=
    ⟨fun _ => rfl, fun _ _ => rfl⟩
  have alike : encodeManaged context (server.changed
      (fun journal => { server.journal with nextSeq := journal.nextSeq }) id) transaction = _ :=
    encodeManaged_changed transparent server transaction
  have still : server.changed (fun journal => { server.journal with nextSeq := journal.nextSeq }) id =
      server := rfl
  rw [still, encoded] at alike
  exact congrArg (fun result => result.1.journal.store) alike

/-- A commit of one request: it is prepared, taken and stored. -/
theorem commitManagedEvents_ok {server after : ManagedServer Tracking Record}
    {request : ManagedRequest} {records : List Record}
    (committed : commitManagedEvents context server request = (after, .ok records)) :
    ∃ transaction middle reached rows,
      prepareManagedTransaction context server.scene.objects request = .ok transaction ∧
      applyTransaction context server transaction = (middle, .ok ()) ∧
      encodeManaged context middle transaction = (reached, .ok rows) ∧
      context.appendError rows = none ∧ after = publish context reached [transaction] [rows] ∧
      records = rows.map (·.2) := by
  unfold commitManagedEvents commitManagedGroup at committed
  cases all : prepareAll context server.scene.objects [request] with
  | error error =>
      rw [all] at committed
      cases committed
  | ok prepared =>
      rw [all] at committed
      obtain ⟨transaction, others, first, rest, rfl⟩ := prepareAll_cons.1 all
      have none : others = [] := (Except.ok.inj rest).symm
      subst none
      dsimp only at committed
      cases stored : applyAndPersistManaged context server [transaction] with
      | mk last outcome =>
          rw [stored] at committed
          cases outcome with
          | error error => cases committed
          | ok encoded =>
              obtain ⟨reached, taken, fits, rfl⟩ := taken_of_applyAndPersist stored
              obtain ⟨rfl, same⟩ := Prod.mk.inj committed
              cases taken with
              | @cons _ _ _ _ _ rows _ head tail =>
                  cases tail
                  obtain ⟨middle, applied, coded⟩ := take_ok.1 head
                  rw [List.flatten_singleton] at fits
                  exact ⟨transaction, middle, reached, rows, first, applied, coded, fits, rfl,
                    (Except.ok.inj same).symm.trans List.flatten_singleton⟩

theorem cacheless_commitManagedEvents (context : CommitContext Tracking Record) :
    Cacheless (commitManagedEvents context) where
  cached := by
    intro server request after records committed cache
    obtain ⟨transaction, middle, reached, rows, prepared, applied, encoded, fits, rfl, rfl⟩ :=
      commitManagedEvents_ok committed
    have transparent : Transparent fun journal : EventJournal Record =>
        { journal with producerProgress := cache } :=
      ⟨fun _ => rfl, fun _ _ => rfl⟩
    have taken : take context true (server.cached cache) transaction =
        (reached.cached cache, .ok rows) :=
      @take_changed _ _ _ _ id transparent _ _ _ _ (take_ok.2 ⟨middle, applied, encoded⟩)
    obtain ⟨other, appliedToo, encodedToo⟩ := take_ok.1 taken
    exact @commitManagedEvents_of_taken _ _ _ (server.cached cache) _ _ _ _ _ prepared appliedToo
      encodedToo fits
  progress := by
    intro server request after records committed
    obtain ⟨transaction, middle, reached, rows, prepared, applied, encoded, fits, rfl, rfl⟩ :=
      commitManagedEvents_ok committed
    have kept := (encodeManaged_keeps_store encoded).trans
      (congrArg EventJournal.store (applyTransaction_journal applied server.journal).1)
    show EventStore.upsertProgress reached.journal.store.producerSessions
      ⟨transaction.request.producer, transaction.request.txnId⟩ = _
    rw [kept, request_of_prepared prepared]

/-- A group of managed transactions that is committed in one go is answered and leaves the server as
if its members had been committed one by one. -/
theorem executeRequests_eq_commitEach (context : CommitContext Tracking Record)
    (server : ManagedServer Tracking Record) {requests : List ManagedRequest}
    (distinct : (requests.map fun request => request.body.events).Nodup)
    (parts : ∀ before rows after, context.appendError (before ++ rows ++ after) = none →
      context.appendError rows = none)
    {outcomes : List (TransactionOutcome Record EditError)}
    (grouped : (commitGroup (commitManagedGroup context) server requests).2 = .ok outcomes) :
    executeRequests (commitManagedEvents context) (commitManagedGroup context) server requests =
      commitEach (commitManagedEvents context) server requests := by
  cases result : commitGroup (commitManagedGroup context) server requests with
  | mk after outcome =>
      rw [result] at grouped
      dsimp only at grouped
      subst grouped
      unfold executeRequests
      rw [result]
      refine (commitGroup_eq_commitEach (cacheless_commitManagedEvents context) ?_ result).symm
      intro server accepted after encoded inside ascending committed
      unfold commitManagedGroup at committed
      cases all : prepareAll context server.scene.objects accepted with
      | error error =>
          rw [all] at committed
          cases committed
      | ok prepared =>
          rw [all] at committed
          dsimp only at committed
          cases stored : applyAndPersistManaged context server prepared with
          | mk last outcome =>
              rw [stored] at committed
              cases outcome with
              | error error => cases committed
              | ok rows =>
                  obtain ⟨reached, taken, fits, rfl⟩ := taken_of_applyAndPersist stored
                  obtain ⟨rfl, same⟩ := Prod.mk.inj committed
                  rw [← Except.ok.inj same]
                  refine commitsTo_of_taken all taken (distinct.sublist (inside.map _)) ascending ?_
                  intro part member
                  obtain ⟨before, later, rfl⟩ := List.append_of_mem member
                  apply parts before.flatten part later.flatten
                  rw [← fits]
                  simp

end Managed

/-- A server whose store takes every batch. -/
def acceptingContext : CommitContext Unit Nat :=
  { singleLayerContext with appendError := fun _ => none }

/-- A material, a flag of it and the first id once more. -/
def queuedRequests : List ManagedRequest :=
  [materialRequest 1 0, materialRequest 2 1, materialRequest 1 2]

def emptyServer : ManagedServer Unit Nat :=
  ⟨⟨{ layers := fun _ => .empty }, (), requestObjects⟩, {}⟩

/-- The material and its flag are committed as a group, the repeated request is a duplicate. -/
theorem executeRequests_queued :
    executeRequests (commitManagedEvents acceptingContext) (commitManagedGroup acceptingContext)
        emptyServer queuedRequests =
      commitEach (commitManagedEvents acceptingContext) emptyServer queuedRequests := by
  have grouped : (commitGroup (commitManagedGroup acceptingContext) emptyServer queuedRequests).2 =
      .ok [.committed 1 [1], .committed 2 [2], .duplicate 2] := rfl
  exact executeRequests_eq_commitEach acceptingContext _ (by decide) (fun _ _ _ _ => rfl) grouped

end UsdConnect
