/-
Purpose: A shared-stage transaction on any reached server: a failed one changes nothing, and a
  successful one is one write of the store or one queued batch.
Trusted boundary: none
Main exports: Durable, submitShared_atomic
-/
import UsdConnect.Proofs.LayerIdentities

namespace UsdConnect.SharedServer

/-! ### Statements -/

/-- What a successful transaction made of its server: its records are numbered in a row, every list
that is new in the graph is one of them, every new pair has a row, and all of it is one batch. -/
structure Durable (setup : SharedStageSetup) (transaction : SharedTransaction)
    (server after : SharedServer) (rows : List (Nat × SharedItem)) (completed : List SharedEvent)
    (discovered : List (LayerKey × TopologyEvent)) : Prop where
  length : completed.length = transaction.events.length
  items : rows.map (·.2) = (routedEvents transaction.layerKey completed discovered).map
    fun entry => SharedItem.record entry.1 entry.2
  sequences : rows.map (·.1) = List.range' server.journal.nextSeq rows.length
  nextSeq : after.journal.nextSeq = server.journal.nextSeq + rows.length
  states : ∀ {layerKey entries}, after.graph.states.lookup layerKey = some entries →
    server.graph.states.lookup layerKey = some entries ∨
      ∃ event, SharedItem.record layerKey (.setSublayers event) ∈ rows.map (·.2) ∧
        event.sublayers = entries
  identities : ∀ {layerKey layer}, after.graph.identityIdentifiersByKey layerKey = some layer →
    server.graph.identityIdentifiersByKey layerKey = some layer ∨
      RowOf after.journal.store.layerIdentities layer layerKey
  announced : ∀ {layerKey event},
    SharedItem.record layerKey (.setSublayers event) ∈ rows.map (·.2) →
      LayerGraph.ListAnnounced setup.paths (RowOf after.journal.store.layerIdentities) layerKey
        event.sublayers
  batch : WrittenOnce server.journal after.journal rows transaction.progress ∨
    (QueuedOnce server.journal after.journal rows transaction.progress ∧
      ∀ layerKey event, SharedItem.record layerKey (.setSublayers event) ∉ rows.map (·.2))

/-! ### One transaction -/

section Transaction

variable {setup : SharedStageSetup} {environment : CommitEnvironment}
  {transaction : SharedTransaction} {server after : SharedServer}

theorem Committed.durable {rows : List (Nat × SharedItem)} {completed : List SharedEvent}
    {discovered : List (LayerKey × TopologyEvent)}
    (committed : Committed setup transaction server after rows completed discovered) :
    Durable setup transaction server after rows completed discovered := by
  have change := committed.change
  have persisted := committed.persisted
  have recorded : ∀ {layerKey event},
      SharedItem.record layerKey (.setSublayers event) ∈ rows.map (·.2) ↔
        (layerKey, event) ∈ topologyRecords transaction.layerKey completed ++ discovered := by
    intro layerKey event
    rw [persisted.items, ← mem_routedEvents]
    constructor
    · intro member
      obtain ⟨⟨_, _⟩, present, same⟩ := List.mem_map.1 member
      obtain ⟨rfl, rfl⟩ := SharedItem.record.inj same
      exact present
    · exact fun member => List.mem_map.2 ⟨_, member, rfl⟩
  have keyOf : ∀ record ∈ topologyRecords transaction.layerKey completed ++ discovered,
      (record.1, SharedEvent.setSublayers record.2) ∈
        routedEvents transaction.layerKey completed discovered :=
    fun record member => mem_routedEvents.2 member
  refine
    { length := committed.length
      items := persisted.items
      sequences := persisted.sequences
      nextSeq := persisted.nextSeq
      states := ?_
      identities := ?_
      announced := ?_
      batch := ?_ }
  · intro layerKey entries found
    rcases change.states found with before | ⟨event, member, same⟩
    · exact Or.inl before
    · exact Or.inr ⟨event, recorded.2 member, same⟩
  · intro layerKey layer known
    rcases change.fresh known with before | ⟨record, member, entry, present, keyed⟩
    · exact Or.inl before
    · refine Or.inr (persisted.updated _ (mem_layerIdentityUpdates.2 ⟨?_, known⟩))
      exact (mem_topologyKeys (keyOf record member)).2 entry present layerKey keyed
  · intro layerKey event member
    have there := recorded.1 member
    exact persisted.announced change.routed.remembered (keyOf _ there) (change.keyed _ there)
  · rcases persisted.batch with written | ⟨queued, noIdentities⟩
    · exact Or.inl written
    · refine Or.inr ⟨queued, ?_⟩
      intro layerKey event member
      have there := recorded.1 member
      obtain ⟨parent, routedParent, _⟩ := change.keyed _ there
      have update : (⟨parent, layerKey⟩ : LayerIdentity) ∈ layerIdentityUpdates after.graph _ :=
        mem_layerIdentityUpdates.2 ⟨(mem_topologyKeys (keyOf _ there)).1,
          change.routed.remembered routedParent⟩
      rw [noIdentities] at update
      exact nomatch update

/-- Whatever was done before, a transaction is atomic. -/
theorem submitShared_atomic (setup : SharedStageSetup) {start : SharedServer}
    {startEnvironment : CommitEnvironment} {scene : Scene}
    {authored : LayerId → List SublayerEntry} {realtime : Bool}
    (started : startSharedStage setup startEnvironment scene authored realtime = some start)
    (actions : List SharedAction)
    (ran : Machine.run (SharedServer.step setup) start actions = some server) :
    (∀ environment transaction error after,
      server.submitShared setup environment transaction = (after, .error error) →
        Untouched transaction server after) ∧
    ∀ environment transaction rows after,
      server.submitShared setup environment transaction = (after, .ok rows) →
        ∃ completed discovered,
          Durable setup transaction server after rows completed discovered := by
  have registered := registered_of_run started ran
  constructor
  · intro environment transaction error after failed
    unfold submitShared at failed
    split at failed
    · exact commitShared_error registered.routed registered.positive failed
    · obtain ⟨rfl, _⟩ := Prod.mk.inj failed
      exact Untouched.refl transaction server
  · intro environment transaction rows after committed
    unfold submitShared at committed
    split at committed
    · next valid =>
        simp only [validateEvents, Bool.and_eq_true, decide_eq_true_eq] at valid
        obtain ⟨_, completed, discovered, done⟩ :=
          commitShared_ok registered.routed registered.positive valid.1.2 committed
        exact ⟨completed, discovered, done.durable⟩
    · cases (Prod.mk.inj committed).2

end Transaction

/-! ### A topology edit, and an edit that is only queued -/

/-- A producer attaches a sibling to the root. -/
def attachSecond : SharedTransaction where
  events := [.setSublayers ⟨1, 2, [{ authoredPath := "x.usda" }, { authoredPath := "y.usda" }]⟩]
  layerKey := 1
  progress := some ⟨("client", "session"), 1⟩

/-- The server after the child of the root has been keyed. -/
def siblingServing : SharedServer :=
  (Machine.run (SharedServer.step siblingSetup) siblingStart [.refresh (opening fun _ => true)]).get
    (by decide +kernel)

theorem submitShared_atomic_attachSecond :
    (∃ after error, siblingServing.submitShared siblingSetup
        { opening (fun _ => true) with appendError := some "disk full" } attachSecond =
          (after, .error error) ∧ Untouched attachSecond siblingServing after) ∧
    ∃ after rows completed discovered,
      siblingServing.submitShared siblingSetup (opening fun _ => true) attachSecond =
          (after, .ok rows) ∧ rows.length = 2 ∧
        Durable siblingSetup attachSecond siblingServing after rows completed discovered := by
  have ran : Machine.run (SharedServer.step siblingSetup) siblingStart
      [.refresh (opening fun _ => true)] = some siblingServing := (Option.some_get _).symm
  obtain ⟨atomic, durable⟩ := submitShared_atomic siblingSetup (Option.some_get _).symm _ ran
  constructor
  · have fails : (siblingServing.submitShared siblingSetup
        { opening (fun _ => true) with appendError := some "disk full" } attachSecond).2.isOk =
          false := by
      decide +kernel
    cases attempt : siblingServing.submitShared siblingSetup
        { opening (fun _ => true) with appendError := some "disk full" } attachSecond with
    | mk after outcome =>
        rw [attempt] at fails
        cases outcome with
        | ok rows => exact nomatch fails
        | error error => exact ⟨after, error, rfl, atomic _ _ error after attempt⟩
  · have succeeds : (siblingServing.submitShared siblingSetup (opening fun _ => true)
        attachSecond).2.toOption.map List.length = some 2 := by
      decide +kernel
    cases attempt : siblingServing.submitShared siblingSetup (opening fun _ => true)
        attachSecond with
    | mk after outcome =>
        rw [attempt] at succeeds
        cases outcome with
        | error error => exact nomatch succeeds
        | ok rows =>
            obtain ⟨completed, discovered, done⟩ := durable _ _ rows after attempt
            exact ⟨after, rows, completed, discovered, rfl, Option.some.inj succeeds, done⟩

/-- The database under realtime durability. -/
def siblingRealtime : SharedServer :=
  (startSharedStage siblingSetup (opening fun _ => false) { layers := fun _ => .empty }
    LayerGraph.siblingContents true).get (by decide +kernel)

/-- An edit without progress succeeds, and nothing of it is in the store; when the queued write
fails it never will be, though its sequence number is used. -/
theorem not_durable_queuedEdit :
    ∃ after rows, siblingRealtime.submitShared siblingSetup (opening fun _ => false)
        (eraseSamples 1) = (after, .ok rows) ∧ rows ≠ [] ∧
      (∀ row ∈ rows, row ∉ after.journal.store.events) ∧
      (∀ row ∈ rows, row ∉ (after.journal.persistNext (some "disk full")).store.events) ∧
      (after.journal.persistNext (some "disk full")).queue = [] ∧
      (after.journal.persistNext (some "disk full")).nextSeq =
        siblingRealtime.journal.nextSeq + 1 := by
  have queued : (siblingRealtime.submitShared siblingSetup (opening fun _ => false)
      (eraseSamples 1)).2.toOption = some [(2, .record 1 (.scene (.eraseTimeSamples ⟨[], none⟩ [])))] := by
    decide +kernel
  cases attempt : siblingRealtime.submitShared siblingSetup (opening fun _ => false)
      (eraseSamples 1) with
  | mk after outcome =>
      have journal : (after.journal.store.events.map (·.1),
          (after.journal.persistNext (some "disk full")).store.events.map (·.1),
          (after.journal.persistNext (some "disk full")).queue,
          (after.journal.persistNext (some "disk full")).nextSeq) = ([1], [1], [], 3) := by
        rw [show after = (siblingRealtime.submitShared siblingSetup (opening fun _ => false)
          (eraseSamples 1)).1 by rw [attempt]]
        decide +kernel
      simp only [Prod.mk.injEq] at journal
      obtain ⟨stored, later, queue, supply⟩ := journal
      rw [attempt] at queued
      cases outcome with
      | error error => exact nomatch queued
      | ok rows =>
          obtain rfl := Option.some.inj queued
          have absent : ∀ {events : List (Nat × SharedItem)}, events.map (·.1) = [1] →
              ∀ row ∈ [(2, SharedItem.record 1 (.scene (.eraseTimeSamples ⟨[], none⟩ [])))],
                row ∉ events := by
            intro events numbers row member present
            have sequence := List.mem_map_of_mem (f := (·.1)) present
            rw [numbers, List.mem_singleton.1 member] at sequence
            exact absurd sequence (by decide)
          exact ⟨after, _, rfl, by simp, absent stored, absent later, queue, supply⟩

end UsdConnect.SharedServer
