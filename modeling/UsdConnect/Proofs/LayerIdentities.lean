/-
Purpose: Durable layer identity over runs of a shared-stage server: inverse maps, kept rows, stored
  keys with rows, and restarts that agree with the registry.
Trusted boundary: none
Main exports: DurableIdentities, KeepsIdentities, durableIdentities_of_run
-/
import UsdConnect.Proofs.SharedStageRuns
import UsdConnect.Proofs.GraphRuns
import UsdConnect.Usd.Plain

namespace UsdConnect

/-! ### Statements -/

/-- Layer keys that occur in a stored item. -/
def SharedItem.layerKeys : SharedItem → List LayerKey
  | .graphState state =>
      state.rootLayerKey :: state.layers.flatMap fun layer =>
        layer.layerKey :: layer.sublayers.filterMap (·.layerKey)
  | .record layerKey (.setSublayers event) =>
      layerKey :: event.sublayers.filterMap (·.layerKey)
  | .record layerKey (.scene _) => [layerKey]

namespace SharedServer

/-- Every key of the log has its row in the same state of the store. -/
def RowsCover (store : SharedStore) : Prop :=
  ∀ row ∈ store.events, ∀ layerKey ∈ row.2.layerKeys,
    ∃ identity ∈ store.layerIdentities, identity.layerKey = layerKey

/-- What holds in every state of a run. -/
structure DurableIdentities (setup : SharedStageSetup) (server : SharedServer) : Prop where
  routing : ∀ layerKey layer, server.graph.layers layerKey = some layer ↔
    server.graph.keysByIdentifier layer = some layerKey
  identities : ∀ layerKey layer, server.graph.identityIdentifiersByKey layerKey = some layer ↔
    server.graph.identityKeysByIdentifier layer = some layerKey
  known : RowsKnown server.journal.store.layerIdentities server.graph
  stored : ∀ store ∈ server.journal.written ++ [server.journal.store], RowsCover store
  restores : ∀ openable authored replayed,
    replaySharedLog setup openable false (server.journal.store.events.map (·.2))
        (emptyGraph setup authored server.graph) = some replayed →
      (replayed.restoreIdentityRecords (server.journal.store.layerIdentities.map fun identity =>
        (identity.identifier, identity.layerKey))).isSome

/-- Whether an action ends with an exception. -/
def raises (setup : SharedStageSetup) (server : SharedServer) : SharedAction → Bool
  | .commit environment transaction =>
      !(server.submitShared setup environment transaction).2.isOk
  | .refresh environment => !(server.refreshSharedLayerDependencies setup environment).2.isOk
  | .compact environment => !(server.commitCompaction setup environment).2.isOk
  | .persist _ | .restart .. => false

/-- What one step keeps: the rows, and all maps when it raises. -/
structure KeepsIdentities (setup : SharedStageSetup) (server : SharedServer) (action : SharedAction)
    (after : SharedServer) : Prop where
  rows : ∀ identity ∈ server.journal.store.layerIdentities,
    identity ∈ after.journal.store.layerIdentities
  unchanged : raises setup server action = true → server.graph.SameRouting after.graph

/-! ### The rows as a registry -/

/-- The family of the persisted pairs. -/
def StoredRow (server : SharedServer) : LayerId → LayerKey → Prop :=
  RowOf server.journal.store.layerIdentities

/-- Rows that are known to inverse maps are one-to-one. -/
theorem storedRow_oneToOne {server : SharedServer} (routed : server.graph.Routed)
    (known : RowsKnown server.journal.store.layerIdentities server.graph) :
    LayerGraph.OneToOne (StoredRow server) where
  key := by
    intro layer first second one two
    have firstKnown := (routed.identity_iff _ _).1 (known _ one)
    have secondKnown := (routed.identity_iff _ _).1 (known _ two)
    exact Option.some.inj (firstKnown.symm.trans secondKnown)
  layer := fun one two => Option.some.inj ((known _ one).symm.trans (known _ two))

theorem storedRow_registry (setup : SharedStageSetup) : Registry setup StoredRow where
  rows := fun _ _ _ member => member
  grows := fun grows _ _ row => grows.rows _ row
  drawn := fun routed known _ _ row => routed.drawn (known _ row)
  coherent := fun routed known => (storedRow_oneToOne routed known).coherent

section Runs

variable {setup : SharedStageSetup} {server after : SharedServer}

/-- The keys of an item that is accounted for by rows have rows. -/
theorem row_of_registered {identities : List LayerIdentity} {item : SharedItem}
    (registered : ItemRegistered setup (RowOf identities) item) :
    ∀ layerKey ∈ item.layerKeys, ∃ identity ∈ identities, identity.layerKey = layerKey := by
  have listed : ∀ {parentKey entries},
      LayerGraph.ListAnnounced setup.paths (RowOf identities) parentKey entries →
      ∀ layerKey ∈ parentKey :: entries.filterMap (·.layerKey),
        ∃ identity ∈ identities, identity.layerKey = layerKey := by
    intro parentKey entries announced layerKey member
    obtain ⟨parent, here, children⟩ := announced
    rcases List.mem_cons.1 member with rfl | child
    · exact ⟨_, here, rfl⟩
    · obtain ⟨entry, present, keyed⟩ := List.mem_filterMap.1 child
      exact ⟨_, children entry present layerKey keyed, rfl⟩
  intro layerKey member
  cases item with
  | graphState state =>
      rcases List.mem_cons.1 member with rfl | inner
      · exact ⟨_, registered.1, rfl⟩
      · obtain ⟨layer, present, there⟩ := List.mem_flatMap.1 inner
        exact listed (registered.2 layer present) layerKey there
  | record parentKey event =>
      cases event with
      | setSublayers event => exact listed registered layerKey member
      | scene event =>
          obtain ⟨layer, here⟩ := registered
          rw [List.mem_singleton.1 member]
          exact ⟨_, here, rfl⟩

theorem Registered.rowsCover (registered : Registered setup StoredRow server) :
    RowsCover server.journal.store :=
  fun row member => row_of_registered (registered.log row member)

/-- The invariant of a run in which every refresh is persisted. -/
structure Accounted (setup : SharedStageSetup) (server : SharedServer) : Prop where
  registered : Registered setup StoredRow server
  written : ∀ store ∈ server.journal.written, RowsCover store

theorem Accounted.durable (accounted : Accounted setup server) : DurableIdentities setup server where
  routing := accounted.registered.routed.layers_iff
  identities := accounted.registered.routed.identity_iff
  known := accounted.registered.known
  stored := by
    intro store member
    rcases List.mem_append.1 member with old | last
    · exact accounted.written store old
    · rw [List.mem_singleton.1 last]
      exact accounted.registered.rowsCover
  restores := by
    intro openable authored replayed replays
    have registered := accounted.registered
    refine LayerGraph.restoreIdentityRecords_isSome
      (storedRow_oneToOne registered.routed registered.known) _ ?_
      (registered.replayed (storedRow_registry setup) replays)
    intro record member
    obtain ⟨identity, present, rfl⟩ := List.mem_map.1 member
    exact present

theorem Accounted.step (accounted : Accounted setup server) {action : SharedAction}
    (persists : RefreshPersists setup server action)
    (stepped : server.step setup action = some after) :
    Accounted setup after ∧ Grows server after := by
  obtain ⟨registered, grows, write⟩ :=
    accounted.registered.step (storedRow_registry setup) stepped (Or.inl persists)
  refine ⟨⟨registered, ?_⟩, grows⟩
  intro store member
  rcases write with ⟨written, _⟩ | written
  · rw [written] at member
    exact accounted.written store member
  · rw [written] at member
    rcases List.mem_append.1 member with old | last
    · exact accounted.written store old
    · rw [List.mem_singleton.1 last]
      exact accounted.registered.rowsCover

/-- A step that raises leaves the maps, unless a refresh has bound keys that it cannot persist. -/
theorem sameRouting_of_raises (registered : Registered setup StoredRow server)
    {action : SharedAction} (persists : RefreshPersists setup server action)
    (stepped : server.step setup action = some after)
    (raised : raises setup server action = true) : server.graph.SameRouting after.graph := by
  cases action with
  | persist appendError => cases raised
  | restart environment scene authored => cases raised
  | commit environment transaction =>
      obtain rfl := Option.some.inj stepped
      simp only [raises] at raised
      unfold submitShared at raised ⊢
      split
      · next valid =>
          rw [if_pos valid] at raised
          cases attempt : commitShared setup environment transaction server with
          | mk after outcome =>
              rw [attempt] at raised
              cases outcome with
              | ok rows => cases raised
              | error error =>
                  exact (commitShared_error registered.routed registered.positive attempt).routing
      · exact (Untouched.refl transaction server).routing
  | refresh environment =>
      obtain rfl := Option.some.inj stepped
      simp only [raises] at raised
      cases attempt : server.refreshSharedLayerDependencies setup environment with
      | mk after outcome =>
          rw [attempt] at raised
          rcases refresh_cases registered.routed registered.positive attempt with
            ⟨_, _, unchanged⟩ | ⟨records, graph, resolved, emitted, change, persisting⟩
          · exact unchanged (by simpa using raised)
          · have ok := registered.persists_isOk persists resolved emitted change
            rw [persisting] at ok
            simp [ok] at raised
  | compact environment =>
      simp only [SharedServer.step] at stepped
      split at stepped
      · obtain rfl := Option.some.inj stepped
        simp only [raises] at raised
        cases attempt : server.commitCompaction setup environment with
        | mk after outcome =>
            rw [attempt] at raised
            rcases commitCompaction_cases registered.routed attempt with
              ⟨_, _, routing, _⟩ | ⟨_, rfl, _⟩
            · exact routing
            · cases raised
      · cases stepped

/-- In every run whose refreshes persist their records, layer identity is durable in every state,
and every further such step keeps the rows, and all maps when it raises. -/
theorem durableIdentities_of_run (setup : SharedStageSetup) {environment : CommitEnvironment}
    {scene : Scene} {authored : LayerId → List SublayerEntry} {realtime : Bool}
    (started : startSharedStage setup environment scene authored realtime = some server)
    (actions : List SharedAction)
    (persist : Machine.StepsMeet (SharedServer.step setup) (RefreshPersists setup) server actions)
    (ran : Machine.run (SharedServer.step setup) server actions = some after) :
    DurableIdentities setup after ∧ ∀ action next, RefreshPersists setup after action →
      after.step setup action = some next → KeepsIdentities setup after action next := by
  have begun : Accounted setup server := by
    obtain ⟨registered, written⟩ := registered_of_started (storedRow_registry setup) started
    refine ⟨registered, ?_⟩
    rw [written]
    intro store member
    rw [List.mem_singleton.1 member]
    exact fun _ row => nomatch row
  have accounted : Accounted setup after :=
    Machine.run_preserves (fun _ _ _ holds meets stepped => (holds.step meets stepped).1)
      actions server after begun persist ran
  refine ⟨accounted.durable, ?_⟩
  intro action next persists stepped
  exact ⟨(accounted.step persists stepped).2.rows,
    sameRouting_of_raises accounted.registered persists stepped⟩

end Runs

/-! ### A refresh whose records are lost -/

/-- Assets next to each other under `root.usda`. -/
def siblingSetup : SharedStageSetup where
  usd := .plain {}
  paths := LayerGraph.siblingPaths
  rootLayer := "root.usda"

/-- Nothing raises, and these layers can be opened. -/
def opening (openable : LayerId → Bool) : CommitEnvironment where
  openable := openable
  steps := 10
  interrupted := LayerGraph.siblingServer

/-- A new database of a root whose child cannot be opened yet. -/
def siblingStart : SharedServer :=
  (startSharedStage siblingSetup (opening fun _ => false) { layers := fun _ => .empty }
    LayerGraph.siblingContents false).get (by decide +kernel)

/-- An edit of the layer with this key. -/
def eraseSamples (layerKey : LayerKey) : SharedTransaction where
  events := [.scene (.eraseTimeSamples ⟨[], none⟩ [])]
  layerKey := layerKey

/-- The child is keyed and persisted, a topology edit fails, another one attaches a sibling, then
the log is compacted and the server restarts. -/
def healthyActions : List SharedAction :=
  [.refresh (opening fun _ => false),
    .refresh (opening fun _ => true),
    .commit (opening fun _ => true) (eraseSamples 2),
    .commit { opening (fun _ => true) with appendError := some "disk full" }
      { events := [.setSublayers ⟨1, 2, [{ authoredPath := "y.usda" }]⟩], layerKey := 1 },
    .commit (opening fun _ => true)
      { events := [.setSublayers ⟨1, 2, [{ authoredPath := "x.usda" }, { authoredPath := "y.usda" }]⟩]
        layerKey := 1 },
    .compact (opening fun _ => true),
    .restart (opening fun _ => true) { layers := fun _ => .empty } LayerGraph.siblingContents,
    .refresh (opening fun _ => true)]

theorem durableIdentities_healthy :
    ∃ final, Machine.run (SharedServer.step siblingSetup) siblingStart healthyActions =
        some final ∧
      final.journal.store.layerIdentities =
        [⟨"root.usda", 1⟩, ⟨"x.usda", 2⟩, ⟨"y.usda", 4⟩] ∧
      DurableIdentities siblingSetup final := by
  have rows : (Machine.run (SharedServer.step siblingSetup) siblingStart healthyActions).map
      (·.journal.store.layerIdentities) =
        some [⟨"root.usda", 1⟩, ⟨"x.usda", 2⟩, ⟨"y.usda", 4⟩] := by
    decide +kernel
  obtain ⟨final, ran, same⟩ := Option.map_eq_some_iff.1 rows
  refine ⟨final, ran, same, ?_⟩
  exact (durableIdentities_of_run siblingSetup (Option.some_get _).symm healthyActions
    (by decide +kernel) ran).1

/-- The child is keyed, but its records do not reach the store; then it is edited. -/
def orphanActions : List SharedAction :=
  [.refresh (opening fun _ => false),
    .refresh { opening (fun _ => true) with appendError := some "disk full" },
    .commit (opening fun _ => true) (eraseSamples 2)]

/-- The log holds a record of a key that has no row. -/
theorem not_durableIdentities_orphan :
    ∃ final, startSharedStage siblingSetup (opening fun _ => false) { layers := fun _ => .empty }
        LayerGraph.siblingContents false = some siblingStart ∧
      Machine.run (SharedServer.step siblingSetup) siblingStart orphanActions = some final ∧
      ¬ DurableIdentities siblingSetup final := by
  have stored : (Machine.run (SharedServer.step siblingSetup) siblingStart orphanActions).map
      (fun server => (server.journal.store.layerIdentities,
        server.journal.store.events.map fun row => row.2.layerKeys)) =
        some ([⟨"root.usda", 1⟩], [[1, 1], [2]]) := by
    decide +kernel
  obtain ⟨final, ran, same⟩ := Option.map_eq_some_iff.1 stored
  obtain ⟨rows, keys⟩ := Prod.mk.inj same
  refine ⟨final, (Option.some_get _).symm, ran, fun durable => ?_⟩
  have recorded : [2] ∈ final.journal.store.events.map fun row => row.2.layerKeys := by
    rw [keys]
    decide
  obtain ⟨row, present, sameKeys⟩ := List.mem_map.1 recorded
  obtain ⟨identity, member, layerKey⟩ :=
    durable.stored _ (List.mem_append_right _ (List.mem_singleton_self _)) row present 2
      (by rw [sameKeys]; exact List.mem_singleton_self _)
  rw [rows] at member
  rw [List.mem_singleton.1 member] at layerKey
  exact absurd layerKey (by decide)

end SharedServer

end UsdConnect
