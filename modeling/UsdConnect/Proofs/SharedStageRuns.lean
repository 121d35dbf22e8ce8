/-
Purpose: The invariant of a shared-stage server over whole runs: inverse maps, registry rows taken
  from them, and announced keys in lists, log and queue.
Trusted boundary: none
Main exports: Registry, Registered, registered_step, drawn_registry, routed_of_run
-/
import UsdConnect.Server.SharedHistory
import UsdConnect.Proofs.SharedCommit
import UsdConnect.Lib.Machine

namespace UsdConnect

/-- The keys of a stored item are announced. -/
def ItemRegistered (setup : SharedStageSetup) (pairs : LayerId → LayerKey → Prop) :
    SharedItem → Prop
  | .graphState state =>
      pairs setup.rootLayer state.rootLayerKey ∧ ∀ layer ∈ state.layers,
        LayerGraph.ListAnnounced setup.paths pairs layer.layerKey layer.sublayers
  | .record layerKey (.setSublayers event) =>
      LayerGraph.ListAnnounced setup.paths pairs layerKey event.sublayers
  | .record layerKey (.scene _) => ∃ layer, pairs layer layerKey

theorem ItemRegistered.mono {setup : SharedStageSetup} {pairs more : LayerId → LayerKey → Prop}
    (grown : ∀ {layer layerKey}, pairs layer layerKey → more layer layerKey) {item : SharedItem}
    (registered : ItemRegistered setup pairs item) : ItemRegistered setup more item := by
  cases item with
  | graphState state =>
      exact ⟨grown registered.1, fun layer member => (registered.2 layer member).mono grown⟩
  | record layerKey event =>
      cases event with
      | setSublayers event =>
          have announced : LayerGraph.ListAnnounced setup.paths pairs layerKey event.sublayers :=
            registered
          exact announced.mono grown
      | scene event =>
          obtain ⟨layer, here⟩ := registered
          exact ⟨layer, grown here⟩

namespace SharedServer

/-- Rows are kept and the key supply advances. -/
structure Grows (server after : SharedServer) : Prop where
  rows : ∀ identity ∈ server.journal.store.layerIdentities,
    identity ∈ after.journal.store.layerIdentities
  supply : server.graph.nextKey ≤ after.graph.nextKey

/-- A family of pairs to account for keys with: it has the rows, grows with the server, was drawn
from the supply, and is coherent. -/
structure Registry (setup : SharedStageSetup) (pairs : SharedServer → LayerId → LayerKey → Prop) :
    Prop where
  rows : ∀ {server : SharedServer}, server.graph.Routed →
    RowsKnown server.journal.store.layerIdentities server.graph →
      ∀ identity ∈ server.journal.store.layerIdentities,
        pairs server identity.identifier identity.layerKey
  grows : ∀ {server after : SharedServer}, Grows server after → ∀ {layer layerKey},
    pairs server layer layerKey → pairs after layer layerKey
  drawn : ∀ {server : SharedServer}, server.graph.Routed →
    RowsKnown server.journal.store.layerIdentities server.graph → ∀ {layer layerKey},
      pairs server layer layerKey → 0 < layerKey ∧ layerKey < server.graph.nextKey
  coherent : ∀ {server : SharedServer}, server.graph.Routed →
    RowsKnown server.journal.store.layerIdentities server.graph →
      LayerGraph.Coherent setup.paths (pairs server)

/-- The invariant of a served database. -/
structure Registered (setup : SharedStageSetup)
    (pairs : SharedServer → LayerId → LayerKey → Prop) (server : SharedServer) : Prop where
  routed : server.graph.Routed
  positive : 0 < server.graph.nextKey
  rootLayer : server.graph.rootLayer = setup.rootLayer
  known : RowsKnown server.journal.store.layerIdentities server.graph
  listed : server.graph.Listed setup.paths (pairs server)
  log : ∀ row ∈ server.journal.store.events, ItemRegistered setup (pairs server) row.2
  queue : ∀ batch ∈ server.journal.queue, ∀ row ∈ batch, ItemRegistered setup (pairs server) row.2

/-- What a step does to the history of the store: at most one write. -/
def OneWrite (server after : SharedServer) : Prop :=
  (after.journal.written = server.journal.written ∧ after.journal.store = server.journal.store) ∨
    after.journal.written = server.journal.written ++ [server.journal.store]

section Steps

variable {setup : SharedStageSetup} {environment : CommitEnvironment}
  {pairs : SharedServer → LayerId → LayerKey → Prop} {server after : SharedServer}

theorem Grows.refl (server : SharedServer) : Grows server server :=
  ⟨fun _ member => member, Nat.le_refl _⟩

theorem Grows.trans {middle : SharedServer} (one : Grows server middle) (two : Grows middle after) :
    Grows server after :=
  ⟨fun identity member => two.rows identity (one.rows identity member),
    one.supply.trans two.supply⟩

/-! ### Persisted changes -/

/-- A change whose lists were persisted keeps the invariant. -/
theorem Registered.persisted (registry : Registry setup pairs)
    (registered : Registered setup pairs server) {records : List (LayerKey × TopologyEvent)}
    {routed : List (LayerKey × SharedEvent)} {progress : Option ProducerProgress}
    {rows : List (Nat × SharedItem)}
    (change : LayerGraph.KeyedChange setup.paths server.graph records after.graph)
    (persisted : Persisted after.graph routed progress server.journal after.journal rows)
    (lists : ∀ layerKey event, (layerKey, SharedEvent.setSublayers event) ∈ routed →
      (layerKey, event) ∈ records)
    (routes : ∀ record ∈ records, (record.1, SharedEvent.setSublayers record.2) ∈ routed)
    (scenes : ∀ layerKey event, (layerKey, SharedEvent.scene event) ∈ routed →
      layerKey ∈ server.graph.reachableLayerKeys) :
    Registered setup pairs after ∧ Grows server after ∧ OneWrite server after := by
  have kept : ∀ identity ∈ server.journal.store.layerIdentities,
      identity ∈ after.journal.store.layerIdentities := by
    rcases persisted.batch with written | ⟨queued, _⟩
    · exact written.kept
    · rw [queued.store]
      exact fun _ member => member
  have grows : Grows server after := ⟨kept, change.supply⟩
  have known : RowsKnown after.journal.store.layerIdentities after.graph := by
    intro identity member
    rcases persisted.identities identity member with old | new
    · exact change.within.identityIdentifiers (registered.known identity old)
    · exact new
  have rowPairs := registry.rows change.routed known
  have announced : ∀ record ∈ records,
      LayerGraph.ListAnnounced setup.paths (pairs after) record.1 record.2.sublayers := by
    intro record member
    refine (persisted.announced change.routed.remembered (routes record member)
      (change.keyed record member)).mono ?_
    exact fun row => rowPairs _ row
  have items : ∀ row ∈ rows, ItemRegistered setup (pairs after) row.2 := by
    intro row member
    have stored : row.2 ∈ rows.map (·.2) := List.mem_map_of_mem member
    rw [persisted.items] at stored
    obtain ⟨⟨layerKey, event⟩, present, same⟩ := List.mem_map.1 stored
    rw [← same]
    cases event with
    | setSublayers event => exact announced _ (lists layerKey event present)
    | scene event =>
        obtain ⟨layer, here⟩ := registered.listed.reachable (scenes layerKey event present)
        exact ⟨layer, registry.grows grows here⟩
  have older : ∀ {item}, ItemRegistered setup (pairs server) item →
      ItemRegistered setup (pairs after) item := fun old => old.mono (registry.grows grows)
  refine ⟨?_, grows, ?_⟩
  · refine
      { routed := change.routed
        positive := Nat.lt_of_lt_of_le registered.positive change.supply
        rootLayer := change.rootLayer.trans registered.rootLayer
        known := known
        listed := (registered.listed.mono (registry.grows grows)).change change announced
        log := ?_
        queue := ?_ }
    · intro row member
      rcases persisted.batch with written | ⟨queued, _⟩
      · rw [written.events] at member
        rcases List.mem_append.1 member with old | new
        · exact older (registered.log row old)
        · exact items row new
      · rw [queued.store] at member
        exact older (registered.log row member)
    · intro batch member row present
      rcases persisted.batch with written | ⟨queued, _⟩
      · rw [written.queue] at member
        exact older (registered.queue batch member row present)
      · rw [queued.queue] at member
        rcases List.mem_append.1 member with old | new
        · exact older (registered.queue batch old row present)
        · rw [List.mem_singleton.1 new] at present
          exact items row present
  · rcases persisted.batch with written | ⟨queued, _⟩
    · exact Or.inr written.written
    · exact Or.inl ⟨queued.written, queued.store⟩

/-- A change whose lists are announced without a write, and a queue that only lost batches. -/
theorem Registered.changed (registry : Registry setup pairs)
    (registered : Registered setup pairs server) {records : List (LayerKey × TopologyEvent)}
    (change : LayerGraph.KeyedChange setup.paths server.graph records after.graph)
    (store : after.journal.store = server.journal.store)
    (queue : ∀ batch ∈ after.journal.queue, batch ∈ server.journal.queue)
    (announced : ∀ record ∈ records,
      LayerGraph.ListAnnounced setup.paths (pairs after) record.1 record.2.sublayers) :
    Registered setup pairs after ∧ Grows server after := by
  have grows : Grows server after := by
    refine ⟨?_, change.supply⟩
    rw [store]
    exact fun _ member => member
  refine ⟨?_, grows⟩
  exact
    { routed := change.routed
      positive := Nat.lt_of_lt_of_le registered.positive change.supply
      rootLayer := change.rootLayer.trans registered.rootLayer
      known := by
        rw [store]
        exact fun identity member =>
          change.within.identityIdentifiers (registered.known identity member)
      listed := (registered.listed.mono (registry.grows grows)).change change announced
      log := by
        rw [store]
        exact fun row member => (registered.log row member).mono (registry.grows grows)
      queue := fun batch member row present =>
        (registered.queue batch (queue batch member) row present).mono (registry.grows grows) }

/-! ### Transactions and refreshes -/

theorem Registered.submit (registry : Registry setup pairs)
    (registered : Registered setup pairs server) (transaction : SharedTransaction) :
    Registered setup pairs (server.submitShared setup environment transaction).1 ∧
      Grows server (server.submitShared setup environment transaction).1 ∧
      OneWrite server (server.submitShared setup environment transaction).1 := by
  unfold submitShared
  split
  · next valid =>
      simp only [validateEvents, Bool.and_eq_true, decide_eq_true_eq] at valid
      cases attempt : commitShared setup environment transaction server with
      | mk after outcome =>
          cases outcome with
          | error error =>
              have untouched := commitShared_error registered.routed registered.positive attempt
              have change : LayerGraph.KeyedChange setup.paths server.graph [] after.graph :=
                untouched.routing.change registered.routed untouched.supply
              have journal := untouched.journal
              obtain ⟨kept, grows⟩ := registered.changed registry change (by rw [journal])
                (by rw [journal]; exact fun _ member => member) (fun _ member => nomatch member)
              exact ⟨kept, grows, Or.inl ⟨by rw [journal], by rw [journal]⟩⟩
          | ok rows =>
              obtain ⟨reachable, completed, discovered, committed⟩ :=
                commitShared_ok registered.routed registered.positive valid.1.2 attempt
              refine registered.persisted registry committed.change committed.persisted ?_ ?_ ?_
              · exact fun layerKey event member => mem_routedEvents.1 member
              · exact fun record member => mem_routedEvents.2 member
              · intro layerKey event member
                rcases List.mem_append.1 member with own | found
                · obtain ⟨_, _, same⟩ := List.mem_map.1 own
                  obtain ⟨rfl, _⟩ := Prod.mk.inj same
                  exact reachable
                · obtain ⟨_, _, same⟩ := List.mem_map.1 found
                  exact nomatch (Prod.mk.inj same).2
  · exact ⟨registered, Grows.refl server, Or.inl ⟨rfl, rfl⟩⟩

/-- The records of a refresh, each under its key. -/
def refreshedEvents (records : List (LayerKey × TopologyEvent)) : List (LayerKey × SharedEvent) :=
  records.map fun record => (record.1, SharedEvent.setSublayers record.2)

/-- The records of a refresh, if it emits any, are encoded and taken by the store. -/
def RefreshPersists (setup : SharedStageSetup) (server : SharedServer) : SharedAction → Prop
  | .refresh environment =>
      ∀ outcome ∈ server.graph.refreshResolvedSublayers setup.paths environment.openable
          environment.steps,
        outcome.1 = [] ∨
          ((assignAndEncode environment server.journal (refreshedEvents outcome.1)).2.isOk = true ∧
            environment.appendError = none)
  | _ => True

/-- A refresh that emits no records changes no list and touches no journal; one that emits records
binds their keys and then persists them. -/
theorem refresh_cases (routed : server.graph.Routed) (positive : 0 < server.graph.nextKey)
    {outcome : Except EditError (List (Nat × SharedItem))}
    (refreshed : server.refreshSharedLayerDependencies setup environment = (after, outcome)) :
    (LayerGraph.KeyedChange setup.paths server.graph [] after.graph ∧
        after.journal = server.journal ∧
        (outcome.isOk = false → server.graph.SameRouting after.graph)) ∨
      ∃ records graph, server.graph.refreshResolvedSublayers setup.paths environment.openable
          environment.steps = some (records, graph) ∧ records ≠ [] ∧
        LayerGraph.KeyedChange setup.paths server.graph records graph ∧
        persistSharedEvents environment (refreshedEvents records) none
          { server with graph := graph } = (after, outcome) := by
  unfold refreshSharedLayerDependencies at refreshed
  split at refreshed
  · obtain ⟨rfl, rfl⟩ := Prod.mk.inj refreshed
    have routing : server.graph.SameRouting
        (server.graph.rollback (environment.interrupted.rollback server.graph)) :=
      LayerGraph.rollback_sameRouting rfl rfl
    exact Or.inl ⟨routing.change routed (Nat.le_refl _), rfl, fun _ => routing⟩
  next records graph resolved =>
  have change := LayerGraph.refreshResolvedSublayers_keyed routed positive resolved
  dsimp only at refreshed
  split at refreshed
  · next empty =>
      obtain ⟨rfl, rfl⟩ := Prod.mk.inj refreshed
      rw [empty] at change
      exact Or.inl ⟨change, rfl, fun failed => nomatch failed⟩
  · next emitted => exact Or.inr ⟨records, graph, resolved, emitted, change, refreshed⟩

instance decidableRefreshPersists (setup : SharedStageSetup) (server : SharedServer) :
    (action : SharedAction) → Decidable (RefreshPersists setup server action)
  | .refresh environment =>
      inferInstanceAs (Decidable (∀ outcome ∈ server.graph.refreshResolvedSublayers setup.paths
        environment.openable environment.steps, _ ∨ _))
  | .commit .. => .isTrue trivial
  | .persist _ => .isTrue trivial
  | .compact _ => .isTrue trivial
  | .restart .. => .isTrue trivial

/-- The records of a refresh that meets the condition are persisted. -/
theorem Registered.persists_isOk (registered : Registered setup pairs server)
    (persists : RefreshPersists setup server (.refresh environment))
    {records : List (LayerKey × TopologyEvent)} {graph : LayerGraph LayerId}
    (resolved : server.graph.refreshResolvedSublayers setup.paths environment.openable
      environment.steps = some (records, graph)) (emitted : records ≠ [])
    (change : LayerGraph.KeyedChange setup.paths server.graph records graph) :
    (persistSharedEvents environment (refreshedEvents records) none
      { server with graph := graph }).2.isOk = true := by
  rcases persists (records, graph) resolved with empty | ⟨encodes, appends⟩
  · exact absurd empty emitted
  · exact persistSharedEvents_isOk change.routed.identity_iff
      (fun identity member => change.within.identityIdentifiers (registered.known identity member))
      encodes appends

/-- A refresh keeps the invariant when its records are persisted, or when the family announces every
routed key anyway. -/
theorem Registered.refresh (registry : Registry setup pairs)
    (registered : Registered setup pairs server) {outcome : Except EditError (List (Nat × SharedItem))}
    (refreshed : server.refreshSharedLayerDependencies setup environment = (after, outcome))
    (covered : RefreshPersists setup server (.refresh environment) ∨ outcome.isOk = true ∨
      (after.graph.Routed → ∀ {layerKey layer}, after.graph.layers layerKey = some layer →
        pairs after layer layerKey)) :
    Registered setup pairs after ∧ Grows server after ∧ OneWrite server after := by
  rcases refresh_cases registered.routed registered.positive refreshed with
    ⟨change, journal, _⟩ | ⟨records, graph, resolved, emitted, change, persisting⟩
  · obtain ⟨kept, grows⟩ := registered.changed registry change (by rw [journal])
      (by rw [journal]; exact fun _ member => member) (fun _ member => nomatch member)
    exact ⟨kept, grows, Or.inl ⟨by rw [journal], by rw [journal]⟩⟩
  cases outcome with
  | ok rows =>
      obtain ⟨same, persisted⟩ := persistSharedEvents_ok persisting
      rw [same] at persisted ⊢
      refine registered.persisted registry change persisted ?_ ?_ ?_
      · intro layerKey event member
        obtain ⟨record, present, same⟩ := List.mem_map.1 member
        obtain ⟨rfl, there⟩ := Prod.mk.inj same
        obtain rfl := SharedEvent.setSublayers.inj there
        exact present
      · exact fun record member => List.mem_map.2 ⟨record, member, rfl⟩
      · intro layerKey event member
        obtain ⟨_, _, same⟩ := List.mem_map.1 member
        exact nomatch (Prod.mk.inj same).2
  | error error =>
      have same := persistSharedEvents_error persisting
      have sameGraph : after.graph = graph := by rw [same]
      have journal : after.journal = { server.journal with nextSeq := after.journal.nextSeq } := by
        rw [same]
      rw [← sameGraph] at change
      have announces : ∀ {layerKey layer}, after.graph.layers layerKey = some layer →
          pairs after layer layerKey := by
        rcases covered with persists | ok | routes
        · rw [← sameGraph] at resolved persisting
          have ok := registered.persists_isOk persists resolved emitted change
          rw [persisting] at ok
          exact nomatch ok
        · exact nomatch ok
        · exact routes change.routed
      obtain ⟨kept, grows⟩ := registered.changed registry change (by rw [journal])
        (by rw [journal]; exact fun _ member => member) (by
          intro record member
          obtain ⟨parent, routedParent, children⟩ := change.keyed record member
          exact ⟨parent, announces routedParent, fun entry present childKey keyed =>
            announces (children entry present childKey keyed)⟩)
      exact ⟨kept, grows, Or.inl ⟨by rw [journal], by rw [journal]⟩⟩

/-! ### The queue and compaction -/

theorem insertIdentities_nil (identities : List LayerIdentity) :
    SharedStore.insertIdentities identities [] = some identities := rfl

/-- A queued batch is written with its own rows or dropped. -/
theorem Registered.persistNext (registry : Registry setup pairs)
    (registered : Registered setup pairs server) (appendError : Option EditError) :
    Registered setup pairs { server with journal := server.journal.persistNext appendError } ∧
      Grows server { server with journal := server.journal.persistNext appendError } ∧
      OneWrite server { server with journal := server.journal.persistNext appendError } := by
  have unwritten : ∀ journal : SharedJournal, journal.store = server.journal.store →
      journal.written = server.journal.written →
      (∀ batch ∈ journal.queue, batch ∈ server.journal.queue) →
      Registered setup pairs { server with journal := journal } ∧
        Grows server { server with journal := journal } ∧
        OneWrite server { server with journal := journal } := by
    intro journal store written queue
    let after : SharedServer := { server with journal := journal }
    have change : LayerGraph.KeyedChange setup.paths server.graph [] after.graph :=
      LayerGraph.KeyedChange.refl registered.routed
    obtain ⟨kept, grows⟩ :=
      registered.changed registry change store queue (fun _ member => nomatch member)
    exact ⟨kept, grows, Or.inl ⟨written, store⟩⟩
  unfold SharedJournal.persistNext
  split
  · exact unwritten _ rfl rfl fun _ member => member
  next rows rest queued =>
  have dropped : ∀ batch ∈ rest, batch ∈ server.journal.queue := by
    rw [queued]
    exact fun batch member => List.mem_cons_of_mem _ member
  dsimp only
  split
  · exact unwritten _ rfl rfl dropped
  split
  · exact unwritten _ rfl rfl dropped
  next store appended =>
  simp only [SharedStore.appendBatch, insertIdentities_nil, Option.bind_eq_bind, Option.bind_some]
    at appended
  obtain rfl := Option.some.inj appended
  have grows : Grows server
      { server with
        journal := ({ server.journal with queue := rest } : SharedJournal).write
          { server.journal.store.toEventStore.appendBatch rows [] with
            layerIdentities := server.journal.store.layerIdentities } rows.length } :=
    ⟨fun _ member => member, Nat.le_refl _⟩
  refine ⟨?_, grows, Or.inr rfl⟩
  exact
    { routed := registered.routed
      positive := registered.positive
      rootLayer := registered.rootLayer
      known := registered.known
      listed := registered.listed.mono (registry.grows grows)
      log := by
        intro row member
        rcases List.mem_append.1 member with old | new
        · exact (registered.log row old).mono (registry.grows grows)
        · refine (registered.queue rows ?_ row new).mono (registry.grows grows)
          rw [queued]
          exact List.mem_cons_self
      queue := fun batch member row present =>
        (registered.queue batch (dropped batch member) row present).mono (registry.grows grows) }

/-- The rows of a compacted log are the new baseline and scene records of reachable keys. -/
theorem compactedItems_registered (registered : Registered setup pairs server) :
    ∀ item ∈ compactedItems setup server, ItemRegistered setup (pairs server) item := by
  intro item member
  obtain ⟨record, _, found⟩ := List.mem_filterMap.1 member
  obtain ⟨layerKey, here, rfl⟩ := Option.map_eq_some_iff.1 found
  exact registered.listed.reachable (List.mem_of_find?_eq_some here)

/-- What compaction leaves: nothing changed when it failed, else one new log on the rotated graph. -/
theorem commitCompaction_cases (routed : server.graph.Routed) {outcome : Except EditError Unit}
    (compacted : server.commitCompaction setup environment = (after, outcome)) :
    (outcome.isOk = false ∧ after.journal = server.journal ∧
        server.graph.SameRouting after.graph ∧ after.graph.nextKey = server.graph.nextKey) ∨
      ∃ state, outcome = .ok () ∧ after.graph.stateMessage = some state ∧
        LayerGraph.KeyedChange setup.paths server.graph [] after.graph ∧
        after.journal.store.events.map (·.2) = .graphState state :: compactedItems setup server ∧
        after.journal.store.layerIdentities = server.journal.store.layerIdentities ∧
        after.journal.queue = server.journal.queue ∧
        after.journal.written = server.journal.written ++ [server.journal.store] := by
  unfold commitCompaction at compacted
  dsimp only at compacted
  split at compacted
  · obtain ⟨rfl, rfl⟩ := Prod.mk.inj compacted
    exact Or.inl ⟨rfl, rfl, LayerGraph.rollback_sameRouting rfl rfl, rfl⟩
  next rotated rotation =>
  unfold LayerGraph.startNewGeneration at rotation
  split at rotation
  · exact nomatch rotation
  obtain rfl := Option.some.inj rotation
  split at compacted
  · obtain ⟨rfl, rfl⟩ := Prod.mk.inj compacted
    exact Or.inl ⟨rfl, rfl, LayerGraph.rollback_sameRouting rfl rfl, rfl⟩
  next state message =>
  split at compacted
  · obtain ⟨rfl, rfl⟩ := Prod.mk.inj compacted
    exact Or.inl ⟨rfl, rfl, LayerGraph.rollback_sameRouting rfl rfl, rfl⟩
  obtain ⟨rfl, rfl⟩ := Prod.mk.inj compacted
  refine Or.inr ⟨state, rfl, message, ?_, ?_, rfl, rfl, rfl⟩
  · have change : LayerGraph.KeyedChange setup.paths server.graph [] server.graph :=
      LayerGraph.KeyedChange.refl routed
    exact
      { change with
        routed := ⟨routed.layers_iff, routed.identity_iff, routed.remembered, routed.drawn⟩
        within := ⟨fun known => known, fun known => known, fun known => known, fun known => known⟩ }
  · exact List.map_map.trans (List.zipIdx_map_fst 0 _)

/-- Compaction keeps the invariant: the baseline lists what the graph lists. -/
theorem Registered.compact (registry : Registry setup pairs)
    (registered : Registered setup pairs server) {outcome : Except EditError Unit}
    (compacted : server.commitCompaction setup environment = (after, outcome)) :
    Registered setup pairs after ∧ Grows server after ∧ OneWrite server after := by
  rcases commitCompaction_cases registered.routed compacted with
    ⟨_, journal, routing, supply⟩ | ⟨state, _, message, change, rows, identities, queue, written⟩
  · have change : LayerGraph.KeyedChange setup.paths server.graph [] after.graph :=
      routing.change registered.routed (Nat.le_of_eq supply.symm)
    obtain ⟨kept, grows⟩ := registered.changed registry change (by rw [journal])
      (by rw [journal]; exact fun _ member => member) (fun _ member => nomatch member)
    exact ⟨kept, grows, Or.inl ⟨by rw [journal], by rw [journal]⟩⟩
  have grows : Grows server after := ⟨by rw [identities]; exact fun _ member => member, change.supply⟩
  have rootLayer := change.rootLayer.trans registered.rootLayer
  have listed : after.graph.Listed setup.paths (pairs after) :=
    (registered.listed.mono (registry.grows grows)).change change fun _ member => nomatch member
  refine ⟨?_, grows, Or.inr written⟩
  refine
    { routed := change.routed
      positive := Nat.lt_of_lt_of_le registered.positive change.supply
      rootLayer := rootLayer
      known := ?_
      listed := listed
      log := ?_
      queue := ?_ }
  · rw [identities]
    exact fun identity member =>
      change.within.identityIdentifiers (registered.known identity member)
  · intro row member
    have stored : row.2 ∈ after.journal.store.events.map (·.2) := List.mem_map_of_mem member
    rw [rows] at stored
    rcases List.mem_cons.1 stored with baseline | old
    · rw [baseline]
      have here := listed.stateMessage message
      rw [rootLayer] at here
      exact here
    · exact (compactedItems_registered registered row.2 old).mono (registry.grows grows)
  · rw [queue]
    exact fun batch member row present =>
      (registered.queue batch member row present).mono (registry.grows grows)

/-! ### Restarts -/

theorem emptyGraph_replaying (authored : LayerId → List SublayerEntry)
    (previous : LayerGraph LayerId) (announced : LayerId → LayerKey → Prop) :
    (emptyGraph setup authored previous).Replaying setup.paths announced setup.rootLayer
      previous.nextKey False where
  root := fun impossible => impossible.elim
  states := fun found => nomatch found
  layers_iff := fun _ _ => by simp [emptyGraph]
  identity_iff := fun _ _ => by simp [emptyGraph]
  remembered := fun known => nomatch known
  bound := fun known => nomatch known
  rootLayer := rfl
  nextKey := rfl

/-- Replaying announced items binds announced pairs only. -/
theorem replaySharedLog_replaying {announced : LayerId → LayerKey → Prop}
    (coherent : LayerGraph.Coherent setup.paths announced) {openable : LayerId → Bool}
    {supply : Nat} (items : List SharedItem)
    (registered : ∀ item ∈ items, ItemRegistered setup announced item) {baselineSeen : Bool}
    {graph replayed : LayerGraph LayerId} {seen : Prop} (same : baselineSeen = true → seen)
    (started : seen ∨ graph.revision < 0)
    (replaying : graph.Replaying setup.paths announced setup.rootLayer supply seen)
    (succeeded : replaySharedLog setup openable baselineSeen items graph = some replayed) :
    replayed.Replaying setup.paths announced setup.rootLayer supply True := by
  induction items generalizing baselineSeen graph seen with
  | nil =>
      cases baselineSeen with
      | false => exact nomatch succeeded
      | true =>
          obtain rfl := Option.some.inj succeeded
          exact { replaying with root := fun _ => replaying.root (same rfl) }
  | cons item rest ih =>
      have registeredRest := fun other member => registered other (List.mem_cons_of_mem item member)
      have here := registered item List.mem_cons_self
      cases item with
      | graphState state =>
          simp only [replaySharedLog, Option.bind_eq_bind, Option.bind_eq_some_iff] at succeeded
          obtain ⟨middle, applied, later⟩ := succeeded
          exact ih registeredRest (fun _ => trivial) (Or.inl trivial)
            (LayerGraph.applyState_replaying coherent replaying started here.1 here.2 applied) later
      | record layerKey event =>
          cases baselineSeen with
          | false => exact nomatch succeeded
          | true =>
              have before : seen := same rfl
              cases event with
              | setSublayers event =>
                  simp only [replaySharedLog, if_true, Option.bind_eq_bind,
                    Option.bind_eq_some_iff] at succeeded
                  obtain ⟨middle, applied, later⟩ := succeeded
                  exact ih registeredRest (fun _ => before) (Or.inl before)
                    (LayerGraph.applySublayers_replaying coherent replaying here applied) later
              | scene event =>
                  simp only [replaySharedLog, if_true, Option.bind_eq_bind,
                    Option.bind_eq_some_iff] at succeeded
                  obtain ⟨_, _, later⟩ := succeeded
                  exact ih registeredRest (fun _ => before) (Or.inl before) replaying later

/-- The graph replayed by a new process binds announced pairs only. -/
theorem Registered.replayed (registry : Registry setup pairs)
    (registered : Registered setup pairs server) {openable : LayerId → Bool}
    {authored : LayerId → List SublayerEntry} {replayed : LayerGraph LayerId}
    (succeeded : replaySharedLog setup openable false (server.journal.store.events.map (·.2))
      (emptyGraph setup authored server.graph) = some replayed) :
    replayed.Replaying setup.paths (pairs server) setup.rootLayer server.graph.nextKey True := by
  refine replaySharedLog_replaying (registry.coherent registered.routed registered.known) _ ?_
    (fun impossible => nomatch impossible) (Or.inr (by simp [emptyGraph]))
    (emptyGraph_replaying authored server.graph (pairs server)) succeeded
  intro item member
  obtain ⟨row, present, rfl⟩ := List.mem_map.1 member
  exact registered.log row present

/-- A new process finds the invariant in the store. -/
theorem Registered.restart (registry : Registry setup pairs)
    (registered : Registered setup pairs server) {scene : Scene}
    {authored : LayerId → List SublayerEntry}
    (restarted : server.restartSharedStage setup environment scene authored = some after) :
    Registered setup pairs after ∧ Grows server after ∧ OneWrite server after := by
  simp only [restartSharedStage, Option.bind_eq_bind, Option.bind_eq_some_iff] at restarted
  obtain ⟨replayed, replays, _, _, graph, restores, refreshing⟩ := restarted
  have rowPairs := registry.rows registered.routed registered.known
  have announced : ∀ record ∈ server.journal.store.layerIdentities.map (fun identity =>
      (identity.identifier, identity.layerKey)), pairs server record.1 record.2 := by
    intro record member
    obtain ⟨identity, present, rfl⟩ := List.mem_map.1 member
    exact rowPairs identity present
  obtain ⟨replaying, _, _, rows⟩ := LayerGraph.restoreIdentityRecords_replaying _ announced
    (registered.replayed registry replays) restores
  let opened : SharedServer :=
    { scene := scene
      graph := { graph with authoritative := true }
      journal := reopenJournal server.journal }
  have grows : Grows server opened :=
    ⟨fun _ member => member, Nat.le_of_eq replaying.nextKey.symm⟩
  have routed := replaying.routed (registry.drawn registered.routed registered.known)
  have listed := replaying.listed.mono (registry.grows grows)
  have openedRegistered : Registered setup pairs opened :=
    { routed := ⟨routed.layers_iff, routed.identity_iff, routed.remembered, routed.drawn⟩
      positive := Nat.lt_of_lt_of_le registered.positive grows.supply
      rootLayer := replaying.rootLayer
      known := by
        intro identity member
        exact rows _ (List.mem_map.2 ⟨identity, member, rfl⟩)
      listed := ⟨listed.root, listed.states⟩
      log := fun row member => (registered.log row member).mono (registry.grows grows)
      queue := fun _ member => by cases member }
  cases attempt : opened.refreshSharedLayerDependencies setup environment with
  | mk final outcome =>
      rw [show refreshSharedLayerDependencies setup environment _ = _ from attempt] at refreshing
      cases outcome with
      | error error => cases refreshing
      | ok stored =>
          obtain rfl := Option.some.inj refreshing
          obtain ⟨kept, later, write⟩ := openedRegistered.refresh registry attempt (Or.inr (Or.inl rfl))
          exact ⟨kept, grows.trans later, write⟩

/-! ### Runs -/

/-- Every action keeps the invariant, a refresh when its records are persisted or the family
announces every routed key anyway. -/
theorem Registered.step (registry : Registry setup pairs) (registered : Registered setup pairs server)
    {action : SharedAction} (stepped : server.step setup action = some after)
    (covered : RefreshPersists setup server action ∨ (after.graph.Routed → ∀ {layerKey layer},
      after.graph.layers layerKey = some layer → pairs after layer layerKey)) :
    Registered setup pairs after ∧ Grows server after ∧ OneWrite server after := by
  cases action with
  | commit environment transaction =>
      obtain rfl := Option.some.inj stepped
      exact registered.submit registry transaction
  | persist appendError =>
      obtain rfl := Option.some.inj stepped
      exact registered.persistNext registry appendError
  | refresh environment =>
      obtain rfl := Option.some.inj stepped
      refine registered.refresh registry rfl ?_
      rcases covered with persists | routes
      · exact Or.inl persists
      · exact Or.inr (Or.inr routes)
  | compact environment =>
      simp only [SharedServer.step] at stepped
      split at stepped
      · obtain rfl := Option.some.inj stepped
        exact registered.compact registry rfl
      · exact nomatch stepped
  | restart environment scene authored => exact registered.restart registry stepped

/-- Every pair of the graph is one of the recorded pairs. -/
theorem mem_identityRecords {graph : LayerGraph LayerId} (routed : graph.Routed) {layer : LayerId}
    {layerKey : LayerKey} :
    (layer, layerKey) ∈ graph.identityRecords ↔
      graph.identityIdentifiersByKey layerKey = some layer := by
  simp only [LayerGraph.identityRecords, List.mem_filterMap, List.mem_range, Option.map_eq_some_iff,
    Prod.mk.injEq]
  constructor
  · rintro ⟨_, _, _, known, rfl, rfl⟩
    exact known
  · exact fun known => ⟨layerKey, (routed.drawn known).2, layer, known, rfl, rfl⟩

/-- The baseline is written with a row for every pair of a graph that has one. -/
theorem appendGraphBaseline_ok (recorded : server.graph.identityRecords ≠ [])
    (appended : appendGraphBaseline environment server = (after, .ok ())) :
    ∃ state, server.graph.stateMessage = some state ∧ after.graph = server.graph ∧
      after.journal.store.events =
        server.journal.store.events ++ [(server.journal.nextSeq, .graphState state)] ∧
      (∀ record ∈ server.graph.identityRecords,
        (⟨record.1, record.2⟩ : LayerIdentity) ∈ after.journal.store.layerIdentities) ∧
      (∀ identity ∈ after.journal.store.layerIdentities,
        identity ∈ server.journal.store.layerIdentities ∨
          (identity.identifier, identity.layerKey) ∈ server.graph.identityRecords) ∧
      after.journal.queue = server.journal.queue ∧
      after.journal.written = server.journal.written ++ [server.journal.store] := by
  unfold appendGraphBaseline at appended
  simp only [SharedJournal.assignSeq] at appended
  split at appended
  · cases (Prod.mk.inj appended).2
  next state message =>
  have synchronous : SharedJournal.canQueue
      { server.journal with nextSeq := server.journal.nextSeq + 1 } []
      (server.graph.identityRecords.map fun record =>
        (⟨record.1, record.2⟩ : LayerIdentity)) = false := by
    simp [SharedJournal.canQueue, recorded]
  simp only [SharedJournal.appendBatch, synchronous, Bool.false_eq_true, if_false] at appended
  split at appended
  · cases (Prod.mk.inj appended).2
  split at appended
  · cases (Prod.mk.inj appended).2
  next store written =>
  obtain ⟨rfl, _⟩ := Prod.mk.inj appended
  simp only [SharedStore.appendBatch, Option.bind_eq_bind, Option.bind_eq_some_iff] at written
  obtain ⟨identities, inserted, same⟩ := written
  obtain rfl := Option.some.inj same
  obtain ⟨there, _, only⟩ := SharedStore.insertIdentities_cases _ inserted
  refine ⟨state, message, rfl, rfl, ?_, ?_, rfl, rfl⟩
  · exact fun record member => there _ (List.mem_map_of_mem member)
  · intro identity member
    rcases only identity member with old | new
    · exact Or.inl old
    · obtain ⟨record, present, rfl⟩ := List.mem_map.1 new
      exact Or.inr present

/-- A new database holds the baseline and a row for every pair. -/
theorem registered_of_started (registry : Registry setup pairs) {scene : Scene}
    {authored : LayerId → List SublayerEntry} {realtime : Bool}
    (started : startSharedStage setup environment scene authored realtime = some after) :
    Registered setup pairs after ∧ after.journal.written = [{}] := by
  simp only [startSharedStage, Option.bind_eq_bind, Option.bind_eq_some_iff] at started
  obtain ⟨graph, created, starting⟩ := started
  obtain ⟨⟨grounded, _⟩, rootLayer⟩ := LayerGraph.createAuthoritative_built created
  have routed := grounded.routed
  have recorded : graph.identityRecords ≠ [] := by
    intro empty
    have root := (mem_identityRecords routed).2 (routed.remembered grounded.rootKey)
    rw [empty] at root
    exact nomatch root
  cases attempt : appendGraphBaseline environment
      { scene := scene, graph := graph, journal := { realtime := realtime } } with
  | mk server outcome =>
      rw [attempt] at starting
      cases outcome with
      | error error => exact nomatch starting
      | ok done =>
          obtain rfl := Option.some.inj starting
          obtain ⟨state, message, sameGraph, events, there, only, queue, written⟩ :=
            appendGraphBaseline_ok recorded attempt
          dsimp only at message sameGraph events there only queue written
          have known : RowsKnown server.journal.store.layerIdentities server.graph := by
            intro identity member
            rcases only identity member with old | record
            · exact nomatch old
            · rw [sameGraph]
              exact (mem_identityRecords routed).1 record
          have announces : ∀ {layerKey layer}, graph.layers layerKey = some layer →
              pairs server layer layerKey := by
            intro layerKey layer routedKey
            have record := (mem_identityRecords routed).2 (routed.remembered routedKey)
            exact registry.rows (sameGraph ▸ routed) known _ (there _ record)
          have listed : graph.Listed setup.paths (pairs server) := by
            refine ⟨fun _ => announces grounded.rootKey, ?_⟩
            intro layerKey entries found
            obtain ⟨parent, routedParent⟩ := grounded.stateLayer layerKey
              (AList.lookup_isSome.1 (by rw [found]; rfl))
            exact ⟨parent, announces routedParent, fun entry member childKey keyed =>
              announces (grounded.entryLayer found routedParent entry member childKey keyed)⟩
          refine ⟨?_, written⟩
          exact
            { routed := sameGraph ▸ routed
              positive := sameGraph ▸ grounded.nextKey
              rootLayer := sameGraph ▸ rootLayer
              known := known
              listed := sameGraph ▸ listed
              log := by
                intro row member
                rw [events] at member
                obtain rfl := List.mem_singleton.1 member
                have here := listed.stateMessage message
                rw [rootLayer] at here
                exact here
              queue := by
                rw [queue]
                exact fun _ member => nomatch member }

/-! ### Keys drawn so far -/

/-- The family of all pairs with a key that was drawn. -/
def DrawnKey (server : SharedServer) (_ : LayerId) (layerKey : LayerKey) : Prop :=
  0 < layerKey ∧ layerKey < server.graph.nextKey

theorem drawn_registry (setup : SharedStageSetup) : Registry setup DrawnKey where
  rows := fun routed known identity member => routed.drawn (known identity member)
  grows := fun grows _ _ drawn => ⟨drawn.1, Nat.lt_of_lt_of_le drawn.2 grows.supply⟩
  drawn := fun _ _ _ _ drawn => drawn
  coherent := by
    intro server _ _ layerKey entries parent announced _ entry member childKey keyed
    obtain ⟨_, _, children⟩ := announced
    exact children entry member childKey keyed

/-- Whatever fails, the maps of a running server are inverse and its rows are in them. -/
theorem registered_of_run {scene : Scene} {authored : LayerId → List SublayerEntry}
    {realtime : Bool} (started : startSharedStage setup environment scene authored realtime =
      some server) {actions : List SharedAction}
    (ran : Machine.run (SharedServer.step setup) server actions = some after) :
    Registered setup DrawnKey after := by
  refine Machine.run_invariant ?_ (registered_of_started (drawn_registry setup) started).1 ran
  intro current action next registered stepped
  refine (registered.step (drawn_registry setup) stepped (Or.inr ?_)).1
  exact fun routed _ _ routedKey => routed.drawn (routed.remembered routedKey)

end Steps

end SharedServer

end UsdConnect
