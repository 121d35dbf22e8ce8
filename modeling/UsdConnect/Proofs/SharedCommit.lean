/-
Purpose: What one shared-stage transaction does: the identities an append adds, the one write or the
  one queued batch of a persisted transaction, and what the unwinding contexts put back.
Trusted boundary: none
Main exports: Persisted, persistSharedEvents_ok, commitShared_error, commitShared_ok
-/
import UsdConnect.Server.SharedCommit
import UsdConnect.Proofs.GraphIdentities
import UsdConnect.Proofs.GroupRollback
import Mathlib.Data.List.Dedup

namespace UsdConnect

/-- Whether a registry has a row for a pair. -/
def RowOf (identities : List LayerIdentity) (identifier : LayerId) (layerKey : LayerKey) : Prop :=
  (⟨identifier, layerKey⟩ : LayerIdentity) ∈ identities

/-- Every row is a pair of the graph's identity maps. -/
def RowsKnown (identities : List LayerIdentity) (graph : LayerGraph LayerId) : Prop :=
  ∀ identity ∈ identities,
    graph.identityIdentifiersByKey identity.layerKey = some identity.identifier

/-- The routing state of two graphs is the same. -/
structure LayerGraph.SameRouting (before after : LayerGraph LayerId) : Prop where
  ready : after.ready = before.ready
  rootLayer : after.rootLayer = before.rootLayer
  generation : after.generation = before.generation
  revision : after.revision = before.revision
  rootLayerKey : after.rootLayerKey = before.rootLayerKey
  layers : after.layers = before.layers
  keysByIdentifier : after.keysByIdentifier = before.keysByIdentifier
  states : after.states = before.states
  parentRevisions : after.parentRevisions = before.parentRevisions
  identityKeys : after.identityKeysByIdentifier = before.identityKeysByIdentifier
  identityIdentifiers : after.identityIdentifiersByKey = before.identityIdentifiersByKey

theorem LayerGraph.rollback_sameRouting {saved current : LayerGraph LayerId}
    (ready : current.ready = saved.ready) (rootLayer : current.rootLayer = saved.rootLayer) :
    saved.SameRouting (saved.rollback current) :=
  ⟨ready, rootLayer, rfl, rfl, rfl, rfl, rfl, rfl, rfl, rfl, rfl⟩

theorem LayerGraph.SameRouting.change {paths : AssetPaths LayerId} {graph later : LayerGraph LayerId}
    (routing : graph.SameRouting later) (routed : graph.Routed)
    (supply : graph.nextKey ≤ later.nextKey) : LayerGraph.KeyedChange paths graph [] later where
  routed := by
    refine ⟨?_, ?_, ?_, ?_⟩
    · rw [routing.layers, routing.keysByIdentifier]
      exact routed.layers_iff
    · rw [routing.identityIdentifiers, routing.identityKeys]
      exact routed.identity_iff
    · rw [routing.layers, routing.identityIdentifiers]
      exact routed.remembered
    · rw [routing.identityIdentifiers]
      exact fun known => ⟨(routed.drawn known).1, Nat.lt_of_lt_of_le (routed.drawn known).2 supply⟩
  within := by
    refine ⟨?_, ?_, ?_, ?_⟩
    · rw [routing.layers]
      exact fun known => known
    · rw [routing.keysByIdentifier]
      exact fun known => known
    · rw [routing.identityKeys]
      exact fun known => known
    · rw [routing.identityIdentifiers]
      exact fun known => known
  supply := supply
  ready := routing.ready
  rootLayer := routing.rootLayer
  rootLayerKey := routing.rootLayerKey
  states := by
    rw [routing.states]
    exact fun found => Or.inl found
  keyed := fun _ member => nomatch member
  fresh := by
    rw [routing.identityIdentifiers]
    exact fun known => Or.inl known

/-! ### The identity table -/

namespace SharedStore

theorem insertIdentity_cases {identities after : List LayerIdentity} {identity : LayerIdentity}
    (inserted : insertIdentity identities identity = some after) :
    identity ∈ after ∧ (∀ stored ∈ identities, stored ∈ after) ∧
      ∀ stored ∈ after, stored ∈ identities ∨ stored = identity := by
  unfold insertIdentity at inserted
  split at inserted
  · next stored found =>
      split at inserted
      · next same =>
          obtain rfl := Option.some.inj inserted
          have here : stored = identity := by
            have identifier := List.find?_some found
            cases stored
            cases identity
            simp_all
          exact ⟨here ▸ List.mem_of_find?_eq_some found, fun _ member => member,
            fun _ member => Or.inl member⟩
      · exact nomatch inserted
  · split at inserted
    · exact nomatch inserted
    · obtain rfl := Option.some.inj inserted
      refine ⟨by simp, fun _ member => List.mem_append_left _ member, ?_⟩
      intro stored member
      rcases List.mem_append.1 member with old | new
      · exact Or.inl old
      · exact Or.inr (List.mem_singleton.1 new)

/-- An append keeps the rows, adds the given ones, and adds no others. -/
theorem insertIdentities_cases (updates : List LayerIdentity) {identities after : List LayerIdentity}
    (inserted : insertIdentities identities updates = some after) :
    (∀ identity ∈ updates, identity ∈ after) ∧ (∀ stored ∈ identities, stored ∈ after) ∧
      ∀ stored ∈ after, stored ∈ identities ∨ stored ∈ updates := by
  induction updates generalizing identities with
  | nil =>
      obtain rfl := Option.some.inj inserted
      exact ⟨fun _ member => (nomatch member), fun _ member => member, fun _ member => Or.inl member⟩
  | cons identity rest ih =>
      simp only [insertIdentities, Option.bind_eq_bind, Option.bind_eq_some_iff] at inserted
      obtain ⟨middle, first, later⟩ := inserted
      obtain ⟨here, kept, only⟩ := insertIdentity_cases first
      obtain ⟨there, laterKept, laterOnly⟩ := ih later
      refine ⟨?_, fun stored member => laterKept stored (kept stored member), ?_⟩
      · intro other member
        rcases List.mem_cons.1 member with rfl | old
        · exact laterKept other here
        · exact there other old
      · intro stored member
        rcases laterOnly stored member with before | update
        · rcases only stored before with old | rfl
          · exact Or.inl old
          · exact Or.inr List.mem_cons_self
        · exact Or.inr (List.mem_cons_of_mem _ update)

/-- Pairs of a graph whose maps are inverse violate no constraint. -/
theorem insertIdentities_isSome {graph : LayerGraph LayerId}
    (inverse : ∀ layerKey layer, graph.identityIdentifiersByKey layerKey = some layer ↔
      graph.identityKeysByIdentifier layer = some layerKey)
    (updates : List LayerIdentity) {identities : List LayerIdentity}
    (known : RowsKnown identities graph) (knownUpdates : RowsKnown updates graph) :
    (insertIdentities identities updates).isSome := by
  induction updates generalizing identities with
  | nil => rfl
  | cons identity rest ih =>
      have here := knownUpdates identity List.mem_cons_self
      have step : (insertIdentity identities identity).isSome := by
        unfold insertIdentity
        split
        · next stored found =>
            have sameIdentifier : stored.identifier = identity.identifier := by
              simpa using List.find?_some found
            have there := (inverse _ _).1 (known stored (List.mem_of_find?_eq_some found))
            rw [sameIdentifier, (inverse _ _).1 here] at there
            rw [if_pos (Option.some.inj there).symm]
            rfl
        · next missing =>
            have free : ¬ identities.any (fun stored => stored.layerKey = identity.layerKey) := by
              simp only [List.any_eq_true, decide_eq_true_eq, not_exists, not_and]
              intro stored member sameKey
              have there := known stored member
              rw [sameKey, here] at there
              have sameIdentifier : stored.identifier = identity.identifier :=
                (Option.some.inj there).symm
              simpa [sameIdentifier] using List.find?_eq_none.1 missing stored member
            rw [if_neg free]
            rfl
      obtain ⟨middle, inserted⟩ := Option.isSome_iff_exists.1 step
      obtain ⟨_, _, only⟩ := insertIdentity_cases inserted
      have knownMiddle : RowsKnown middle graph := by
        intro stored member
        rcases only stored member with old | rfl
        · exact known stored old
        · exact here
      simp only [insertIdentities, inserted, Option.bind_eq_bind, Option.bind_some]
      exact ih knownMiddle fun other member => knownUpdates other (List.mem_cons_of_mem _ member)

end SharedStore

/-! ### Persisting -/

namespace SharedServer

variable {setup : SharedStageSetup} {environment : CommitEnvironment}

theorem mem_layerIdentityUpdates {graph : LayerGraph LayerId} {layerKeys : List LayerKey}
    {identity : LayerIdentity} :
    identity ∈ layerIdentityUpdates graph layerKeys ↔ identity.layerKey ∈ layerKeys ∧
      graph.identityIdentifiersByKey identity.layerKey = some identity.identifier := by
  simp only [layerIdentityUpdates, List.mem_filterMap, List.mem_insertionSort, List.mem_dedup,
    Option.map_eq_some_iff]
  constructor
  · rintro ⟨layerKey, member, identifier, known, rfl⟩
    exact ⟨member, known⟩
  · rintro ⟨member, known⟩
    exact ⟨identity.layerKey, member, identity.identifier, known, rfl⟩

/-- Encoding numbers the records in order and touches nothing but the counter. -/
theorem assignAndEncode_cases (routed : List (LayerKey × SharedEvent)) {journal after : SharedJournal}
    {outcome : Except EditError (List (Nat × SharedItem))}
    (encoded : assignAndEncode environment journal routed = (after, outcome)) :
    after = { journal with nextSeq := after.nextSeq } ∧ ∀ rows, outcome = .ok rows →
      rows.map (·.2) = routed.map (fun entry => SharedItem.record entry.1 entry.2) ∧
        rows.map (·.1) = List.range' journal.nextSeq routed.length ∧
        after.nextSeq = journal.nextSeq + routed.length := by
  induction routed generalizing journal after outcome with
  | nil =>
      obtain ⟨rfl, rfl⟩ := Prod.mk.inj encoded
      refine ⟨rfl, fun rows same => ?_⟩
      cases same
      exact ⟨rfl, rfl, rfl⟩
  | cons entry rest ih =>
      obtain ⟨layerKey, event⟩ := entry
      simp only [assignAndEncode, SharedJournal.assignSeq] at encoded
      split at encoded
      · obtain ⟨rfl, rfl⟩ := Prod.mk.inj encoded
        exact ⟨rfl, fun rows same => nomatch same⟩
      · split at encoded
        · next middle error continued =>
            obtain ⟨rfl, rfl⟩ := Prod.mk.inj encoded
            obtain ⟨same, _⟩ := ih continued
            refine ⟨?_, fun rows same => nomatch same⟩
            rw [same]
        · next middle rows continued =>
            obtain ⟨rfl, rfl⟩ := Prod.mk.inj encoded
            obtain ⟨same, numbered⟩ := ih continued
            obtain ⟨items, sequences, supply⟩ := numbered rows rfl
            refine ⟨by rw [same], fun all outcome => ?_⟩
            cases outcome
            refine ⟨?_, ?_, ?_⟩
            · rw [List.map_cons, items]
              rfl
            · rw [List.map_cons, sequences]
              rfl
            · rw [supply, List.length_cons]
              dsimp only
              omega

/-- The pair of an edge that a routed list names is one of the updates. -/
theorem mem_topologyKeys {routed : List (LayerKey × SharedEvent)} {layerKey : LayerKey}
    {event : TopologyEvent} (member : (layerKey, SharedEvent.setSublayers event) ∈ routed) :
    layerKey ∈ routed.flatMap topologyKeys ∧ ∀ entry ∈ event.sublayers, ∀ childKey,
      entry.layerKey = some childKey → childKey ∈ routed.flatMap topologyKeys := by
  constructor
  · exact List.mem_flatMap.2 ⟨_, member, List.mem_cons_self⟩
  · intro entry present childKey keyed
    exact List.mem_flatMap.2 ⟨_, member,
      List.mem_cons_of_mem _ (List.mem_filterMap.2 ⟨entry, present, keyed⟩)⟩

/-- One write of a store: rows, progress and identities together. -/
structure WrittenOnce (before after : SharedJournal) (rows : List (Nat × SharedItem))
    (progress : Option ProducerProgress) : Prop where
  events : after.store.events = before.store.events ++ rows
  progress : after.store.producerSessions =
    progress.toList.foldl EventStore.upsertProgress before.store.producerSessions
  kept : ∀ identity ∈ before.store.layerIdentities, identity ∈ after.store.layerIdentities
  written : after.written = before.written ++ [before.store]
  queue : after.queue = before.queue

/-- Admission of one batch to the persistence queue, which carries neither progress nor topology. -/
structure QueuedOnce (before after : SharedJournal) (rows : List (Nat × SharedItem))
    (progress : Option ProducerProgress) : Prop where
  realtime : before.realtime = true
  noProgress : progress = none
  queue : after.queue = before.queue ++ [rows]
  store : after.store = before.store
  written : after.written = before.written

/-- What persisting routed events did to a journal, given the graph they were routed in. -/
structure Persisted (graph : LayerGraph LayerId) (routed : List (LayerKey × SharedEvent))
    (progress : Option ProducerProgress) (before after : SharedJournal)
    (rows : List (Nat × SharedItem)) : Prop where
  items : rows.map (·.2) = routed.map fun entry => SharedItem.record entry.1 entry.2
  sequences : rows.map (·.1) = List.range' before.nextSeq rows.length
  nextSeq : after.nextSeq = before.nextSeq + rows.length
  batch : WrittenOnce before after rows progress ∨
    (QueuedOnce before after rows progress ∧ layerIdentityUpdates graph (routed.flatMap topologyKeys) = [])
  identities : ∀ identity ∈ after.store.layerIdentities,
    identity ∈ before.store.layerIdentities ∨
      graph.identityIdentifiersByKey identity.layerKey = some identity.identifier
  updated : ∀ identity ∈ layerIdentityUpdates graph (routed.flatMap topologyKeys),
    identity ∈ after.store.layerIdentities

section Persist

variable {routed : List (LayerKey × SharedEvent)} {progress : Option ProducerProgress}
  {server after : SharedServer}

/-- A failed persist leaves a gap in the sequence numbers at most. -/
theorem persistSharedEvents_error {error : EditError}
    (failed : persistSharedEvents environment routed progress server = (after, .error error)) :
    after = { server with journal := { server.journal with nextSeq := after.journal.nextSeq } } := by
  unfold persistSharedEvents at failed
  split at failed
  · next journal other encoded =>
      obtain ⟨rfl, _⟩ := Prod.mk.inj failed
      rw [(assignAndEncode_cases routed encoded).1]
  · next journal rows encoded =>
      have same := (assignAndEncode_cases routed encoded).1
      simp only [SharedJournal.appendBatch] at failed
      split at failed
      · next appended other found =>
          obtain ⟨rfl, _⟩ := Prod.mk.inj failed
          split at found
          · exact nomatch (Prod.mk.inj found).2
          · split at found
            · obtain ⟨rfl, _⟩ := Prod.mk.inj found
              rw [same]
            · split at found
              · obtain ⟨rfl, _⟩ := Prod.mk.inj found
                rw [same]
              · exact nomatch (Prod.mk.inj found).2
      · exact nomatch (Prod.mk.inj failed).2

theorem persistSharedEvents_ok {rows : List (Nat × SharedItem)}
    (persisted : persistSharedEvents environment routed progress server = (after, .ok rows)) :
    after = { server with journal := after.journal } ∧
      Persisted server.graph routed progress server.journal after.journal rows := by
  unfold persistSharedEvents at persisted
  split at persisted
  · exact nomatch (Prod.mk.inj persisted).2
  next journal stored encoded =>
  obtain ⟨same, numbered⟩ := assignAndEncode_cases routed encoded
  obtain ⟨items, sequences, supply⟩ := numbered stored rfl
  have length : stored.length = routed.length := by
    simpa using congrArg List.length items
  simp only [SharedJournal.appendBatch] at persisted
  split at persisted
  · exact nomatch (Prod.mk.inj persisted).2
  next appended found =>
  obtain ⟨rfl, outcome⟩ := Prod.mk.inj persisted
  cases outcome
  refine ⟨rfl, ?_⟩
  rw [← length] at sequences supply
  rw [same] at found
  split at found
  · next queues =>
      obtain ⟨rfl, _⟩ := Prod.mk.inj found
      simp only [SharedJournal.canQueue, Bool.and_eq_true, List.isEmpty_iff] at queues
      obtain ⟨⟨realtime, noProgress⟩, noIdentities⟩ := queues
      have none : progress = none := by
        cases progress with
        | none => rfl
        | some value => exact nomatch noProgress
      exact
        { items := items
          sequences := sequences
          nextSeq := supply
          batch := Or.inr ⟨⟨realtime, none, rfl, rfl, rfl⟩, noIdentities⟩
          identities := fun identity member => Or.inl member
          updated := by
            rw [noIdentities]
            exact fun _ member => nomatch member }
  · split at found
    · exact nomatch (Prod.mk.inj found).2
    · split at found
      · exact nomatch (Prod.mk.inj found).2
      · next store appending =>
          obtain ⟨rfl, _⟩ := Prod.mk.inj found
          simp only [SharedStore.appendBatch, Option.bind_eq_bind, Option.bind_eq_some_iff]
            at appending
          obtain ⟨identities, inserted, same⟩ := appending
          obtain rfl := Option.some.inj same
          obtain ⟨there, kept, only⟩ := SharedStore.insertIdentities_cases _ inserted
          exact
            { items := items
              sequences := sequences
              nextSeq := supply
              batch := Or.inl ⟨rfl, rfl, kept, rfl, rfl⟩
              identities := by
                intro identity member
                rcases only identity member with old | update
                · exact Or.inl old
                · exact Or.inr (mem_layerIdentityUpdates.1 update).2
              updated := there }

/-- Encoded records that the store takes are persisted, whatever identities they carry. -/
theorem persistSharedEvents_isOk
    (inverse : ∀ layerKey layer, server.graph.identityIdentifiersByKey layerKey = some layer ↔
      server.graph.identityKeysByIdentifier layer = some layerKey)
    (known : RowsKnown server.journal.store.layerIdentities server.graph)
    (encodes : (assignAndEncode environment server.journal routed).2.isOk = true)
    (appends : environment.appendError = none) :
    (persistSharedEvents environment routed progress server).2.isOk = true := by
  have updates : RowsKnown
      (layerIdentityUpdates server.graph (routed.flatMap topologyKeys)) server.graph :=
    fun identity member => (mem_layerIdentityUpdates.1 member).2
  unfold persistSharedEvents
  split
  · next journal error encoded => rw [encoded] at encodes; exact encodes
  · next journal rows encoded =>
      have same := (assignAndEncode_cases routed encoded).1
      have appended : (journal.appendBatch environment.appendError rows progress.toList
          (layerIdentityUpdates server.graph (routed.flatMap topologyKeys))).2 = .ok () := by
        unfold SharedJournal.appendBatch
        split
        · rfl
        · obtain ⟨identities, inserted⟩ := Option.isSome_iff_exists.1
            (SharedStore.insertIdentities_isSome inverse _ known updates)
          rw [appends, same]
          simp only [SharedStore.appendBatch, inserted, Option.bind_eq_bind, Option.bind_some]
      dsimp only
      split
      · next failed => rw [failed] at appended; exact nomatch appended
      · rfl

omit environment in
/-- The pairs of a persisted list have rows. -/
theorem Persisted.announced {paths : AssetPaths LayerId} {graph : LayerGraph LayerId}
    {before journal : SharedJournal} {rows : List (Nat × SharedItem)}
    (persisted : Persisted graph routed progress before journal rows)
    (remembered : ∀ {layerKey layer}, graph.layers layerKey = some layer →
      graph.identityIdentifiersByKey layerKey = some layer)
    {layerKey : LayerKey} {event : TopologyEvent}
    (member : (layerKey, SharedEvent.setSublayers event) ∈ routed)
    (routes : graph.RoutesList paths layerKey event.sublayers) :
    LayerGraph.ListAnnounced paths (RowOf journal.store.layerIdentities) layerKey
      event.sublayers := by
  obtain ⟨parent, routedParent, children⟩ := routes
  obtain ⟨here, there⟩ := mem_topologyKeys member
  refine ⟨parent, ?_, ?_⟩
  · exact persisted.updated _ (mem_layerIdentityUpdates.2 ⟨here, remembered routedParent⟩)
  · intro entry present childKey keyed
    exact persisted.updated _ (mem_layerIdentityUpdates.2
      ⟨there entry present childKey keyed, remembered (children entry present childKey keyed)⟩)

end Persist

/-! ### Canonicalization and application -/

section Commit

variable {transaction : SharedTransaction} {server after : SharedServer} {target : LayerId}

/-- What canonicalization prepares: one canonical event per event, and the acceptance of the
topology among them. -/
structure CanonicalizedAll (setup : SharedStageSetup) (layerKey : LayerKey)
    (events : List SharedEvent) (graph : LayerGraph LayerId) (canonical : List SharedEvent)
    (prepared : Option (PreparedSublayers LayerId)) (keyed : LayerGraph LayerId) : Prop where
  length : canonical.length = events.length
  supply : graph.nextKey ≤ keyed.nextKey
  same : keyed = { graph with nextKey := keyed.nextKey }
  ready : ∀ here ∈ prepared, LayerGraph.PreparedFor setup.paths keyed here ∧
    here.parentKey = layerKey ∧ SharedEvent.setSublayers here.event ∈ canonical
  none_of : topologyCount events = 0 → ∀ event, SharedEvent.setSublayers event ∉ canonical
  only : topologyCount events ≤ 1 → ∀ event, SharedEvent.setSublayers event ∈ canonical →
    ∃ here ∈ prepared, here.event = event

theorem canonicalizeAll_cases {layerKey : LayerKey} (events : List SharedEvent)
    {graph keyed : LayerGraph LayerId} {canonical : List SharedEvent}
    {prepared : Option (PreparedSublayers LayerId)} (routed : graph.Routed)
    (positive : 0 < graph.nextKey)
    (canonicalized : canonicalizeAll setup environment layerKey events graph =
      some (canonical, prepared, keyed)) :
    CanonicalizedAll setup layerKey events graph canonical prepared keyed := by
  induction events generalizing graph canonical prepared with
  | nil =>
      obtain ⟨rfl, rest⟩ := Prod.mk.inj (Option.some.inj canonicalized)
      obtain ⟨rfl, rfl⟩ := Prod.mk.inj rest
      exact
        { length := rfl
          supply := Nat.le_refl _
          same := rfl
          ready := fun _ found => nomatch found
          none_of := fun _ _ member => nomatch member
          only := fun _ _ member => nomatch member }
  | cons event rest ih =>
      cases event with
      | scene event =>
          simp only [canonicalizeAll, Option.bind_eq_bind, Option.bind_eq_some_iff] at canonicalized
          obtain ⟨⟨later, laterPrepared, last⟩, looped, result⟩ := canonicalized
          obtain ⟨rfl, pair⟩ := Prod.mk.inj (Option.some.inj result)
          obtain ⟨rfl, rfl⟩ := Prod.mk.inj pair
          have there := ih routed positive looped
          have count : topologyCount (.scene event :: rest) = topologyCount rest := by
            simp [topologyCount]
          exact
            { length := congrArg Nat.succ there.length
              supply := there.supply
              same := there.same
              ready := by
                intro here found
                obtain ⟨readyHere, parent, member⟩ := there.ready here found
                exact ⟨readyHere, parent, List.mem_cons_of_mem _ member⟩
              none_of := by
                intro zero event member
                rcases List.mem_cons.1 member with here | old
                · exact nomatch here
                · exact there.none_of (count ▸ zero) event old
              only := by
                intro single event member
                rcases List.mem_cons.1 member with here | old
                · exact nomatch here
                · exact there.only (count ▸ single) event old }
      | setSublayers event =>
          simp only [canonicalizeAll, Option.bind_eq_bind, Option.bind_eq_some_iff] at canonicalized
          obtain ⟨⟨here, middle⟩, preparing, ⟨later, laterPrepared, last⟩, looped, result⟩ :=
            canonicalized
          obtain ⟨rfl, pair⟩ := Prod.mk.inj (Option.some.inj result)
          obtain ⟨rfl, rfl⟩ := Prod.mk.inj pair
          obtain ⟨preparedFor, parent, supply, same⟩ :=
            LayerGraph.canonicalizeSublayers_preparedFor routed positive preparing
          have middleRouted : middle.Routed := by
            rw [same]
            exact routed.withNextKey supply graph.authored
          have there := ih middleRouted (Nat.lt_of_lt_of_le positive supply) looped
          have count : topologyCount (.setSublayers event :: rest) = topologyCount rest + 1 := by
            simp [topologyCount]
          exact
            { length := congrArg Nat.succ there.length
              supply := supply.trans there.supply
              same := by rw [there.same, same]
              ready := by
                intro other found
                cases later : laterPrepared with
                | some last =>
                    obtain rfl : last = other := by simpa [later] using found
                    obtain ⟨readyThere, parentThere, member⟩ := there.ready last (by simp [later])
                    exact ⟨readyThere, parentThere, List.mem_cons_of_mem _ member⟩
                | none =>
                    obtain rfl : here = other := by simpa [later] using found
                    exact ⟨preparedFor.mono there.supply (by rw [there.same]), parent,
                      List.mem_cons_self⟩
              none_of := fun zero => absurd zero (by omega)
              only := by
                intro single other member
                have zero : topologyCount rest = 0 := by omega
                have last : laterPrepared = none := by
                  cases later : laterPrepared with
                  | none => rfl
                  | some last =>
                      exact absurd (there.ready last (by simp [later])).2.2
                        (there.none_of zero last.event)
                rcases List.mem_cons.1 member with first | old
                · exact ⟨here, by simp [last], (SharedEvent.setSublayers.inj first).symm⟩
                · exact absurd old (there.none_of zero other) }

theorem applyTopology_authored (setup : SharedStageSetup) (target : LayerId)
    (events : List SharedEvent) (graph : LayerGraph LayerId) :
    ∃ authored, (applyTopology setup target events graph).1 = { graph with authored := authored } := by
  induction events generalizing graph with
  | nil => exact ⟨graph.authored, rfl⟩
  | cons event rest ih =>
      cases event with
      | scene event => exact ih graph
      | setSublayers event =>
          unfold applyTopology
          split
          · exact ⟨graph.authored, rfl⟩
          · next applied written =>
              simp only [LayerGraph.applySublayerEntries, Option.bind_eq_bind,
                Option.bind_eq_some_iff] at written
              obtain ⟨_, _, same⟩ := written
              obtain rfl := Option.some.inj same
              exact ih _

/-- Completed deletions replace scene events only. -/
theorem withCompleted_topology (canonical : List SharedEvent) (completed : List Event) :
    (withCompleted canonical completed).length = canonical.length ∧
      ∀ event, SharedEvent.setSublayers event ∈ withCompleted canonical completed ↔
        SharedEvent.setSublayers event ∈ canonical := by
  induction canonical generalizing completed with
  | nil => cases completed <;> exact ⟨rfl, fun _ => Iff.rfl⟩
  | cons event rest ih =>
      cases event with
      | setSublayers event =>
          obtain ⟨length, members⟩ := ih completed
          refine ⟨congrArg Nat.succ length, fun other => ?_⟩
          simp only [withCompleted, List.mem_cons, members]
      | scene event =>
          cases completed with
          | nil => exact ⟨rfl, fun _ => Iff.rfl⟩
          | cons first later =>
              obtain ⟨length, members⟩ := ih later
              refine ⟨congrArg Nat.succ length, fun other => ?_⟩
              simp only [withCompleted, List.mem_cons, members, reduceCtorEq, false_or]

/-- Applying writes the target layer and its sublayer list. -/
theorem applyCanonical_cases {canonical : List SharedEvent}
    {outcome : Except EditError (List SharedEvent)}
    (applied : applyCanonical setup target canonical server = (after, outcome)) :
    (∃ scene authored, after =
      { server with scene := scene, graph := { server.graph with authored := authored } }) ∧
      ∀ completed, outcome = .ok completed → completed.length = canonical.length ∧
        ∀ event, SharedEvent.setSublayers event ∈ completed ↔
          SharedEvent.setSublayers event ∈ canonical := by
  unfold applyCanonical at applied
  dsimp only at applied
  split at applied
  · obtain ⟨rfl, rfl⟩ := Prod.mk.inj applied
    exact ⟨⟨_, server.graph.authored, rfl⟩, fun _ same => nomatch same⟩
  · obtain ⟨rfl, rfl⟩ := Prod.mk.inj applied
    exact ⟨⟨_, server.graph.authored, rfl⟩, fun _ same => nomatch same⟩
  · next done _ =>
      obtain ⟨authored, written⟩ := applyTopology_authored setup target canonical server.graph
      split at applied
      · next graph error topology =>
          obtain ⟨rfl, rfl⟩ := Prod.mk.inj applied
          rw [topology] at written
          exact ⟨⟨_, authored, by rw [← written]⟩, fun _ same => nomatch same⟩
      · next graph topology =>
          obtain ⟨rfl, rfl⟩ := Prod.mk.inj applied
          rw [topology] at written
          refine ⟨⟨_, authored, by rw [← written]⟩, fun completed same => ?_⟩
          cases same
          exact withCompleted_topology canonical done

theorem acceptAndDiscover_error {prepared : Option (PreparedSublayers LayerId)} {error : EditError}
    (failed : acceptAndDiscover setup environment prepared server = (after, .error error)) :
    after = { server with graph := environment.interrupted.rollback server.graph } := by
  unfold acceptAndDiscover at failed
  split at failed
  · exact nomatch (Prod.mk.inj failed).2
  · dsimp only at failed
    split at failed
    · exact (Prod.mk.inj failed).1.symm
    · exact nomatch (Prod.mk.inj failed).2

theorem acceptAndDiscover_ok {prepared : Option (PreparedSublayers LayerId)}
    {discovered : List (LayerKey × TopologyEvent)} (routed : server.graph.Routed)
    (positive : 0 < server.graph.nextKey)
    (ready : ∀ here ∈ prepared, LayerGraph.PreparedFor setup.paths server.graph here)
    (done : acceptAndDiscover setup environment prepared server = (after, .ok discovered)) :
    after = { server with graph := after.graph } ∧
      LayerGraph.KeyedChange setup.paths server.graph
        ((prepared.map fun here => (here.parentKey, here.event)).toList ++ discovered)
        after.graph := by
  unfold acceptAndDiscover at done
  split at done
  · obtain ⟨rfl, same⟩ := Prod.mk.inj done
    cases same
    exact ⟨rfl, LayerGraph.KeyedChange.refl routed⟩
  · next here =>
      dsimp only at done
      split at done
      · exact nomatch (Prod.mk.inj done).2
      · next records graph outcome =>
          obtain ⟨rfl, same⟩ := Prod.mk.inj done
          cases same
          simp only [Option.bind_eq_bind, Option.bind_eq_some_iff] at outcome
          obtain ⟨middle, accepted, discovers⟩ := outcome
          have first := LayerGraph.acceptSublayers_keyed routed (ready here rfl) accepted
          have enough := Nat.lt_of_lt_of_le positive first.supply
          exact ⟨rfl, first.trans
            (LayerGraph.discoverSublayerStates_keyed first.routed enough discovers)⟩

/-! ### Whole transactions -/

/-- What a failed transaction leaves: everything as it was, but for keys that are never drawn
again. -/
structure Untouched (transaction : SharedTransaction) (server after : SharedServer) : Prop where
  journal : after.journal = server.journal
  routing : server.graph.SameRouting after.graph
  supply : server.graph.nextKey ≤ after.graph.nextKey
  content : ∀ target, server.graph.layers transaction.layerKey = some target →
    after.scene.layers target = server.scene.layers target ∧
      after.graph.authored target = server.graph.authored target

theorem Untouched.refl (transaction : SharedTransaction) (server : SharedServer) :
    Untouched transaction server server :=
  ⟨rfl, ⟨rfl, rfl, rfl, rfl, rfl, rfl, rfl, rfl, rfl, rfl, rfl⟩, Nat.le_refl _,
    fun _ _ => ⟨rfl, rfl⟩⟩

/-- What the protected region did before an exception left it. -/
structure Interrupted (saved server : SharedServer) : Prop where
  journal : server.journal = { saved.journal with nextSeq := server.journal.nextSeq }
  ready : server.graph.ready = saved.graph.ready
  rootLayer : server.graph.rootLayer = saved.graph.rootLayer
  supply : saved.graph.nextKey ≤ server.graph.nextKey

/-- Topology among the events of one key. -/
def topologyRecords (layerKey : LayerKey) (events : List SharedEvent) :
    List (LayerKey × TopologyEvent) :=
  events.filterMap fun event =>
    match event with
    | .setSublayers event => some (layerKey, event)
    | .scene _ => none

theorem mem_topologyRecords {layerKey : LayerKey} {events : List SharedEvent}
    {record : LayerKey × TopologyEvent} :
    record ∈ topologyRecords layerKey events ↔
      record.1 = layerKey ∧ SharedEvent.setSublayers record.2 ∈ events := by
  simp only [topologyRecords, List.mem_filterMap]
  constructor
  · rintro ⟨event, member, found⟩
    cases event with
    | scene event => exact nomatch found
    | setSublayers event =>
        obtain rfl := Option.some.inj found
        exact ⟨rfl, member⟩
  · rintro ⟨rfl, member⟩
    exact ⟨_, member, rfl⟩

/-- Events of a transaction followed by the lists discovered with it, each under its key. -/
def routedEvents (layerKey : LayerKey) (completed : List SharedEvent)
    (discovered : List (LayerKey × TopologyEvent)) : List (LayerKey × SharedEvent) :=
  completed.map (fun event => (layerKey, event)) ++
    discovered.map fun record => (record.1, SharedEvent.setSublayers record.2)

theorem mem_routedEvents {ownKey layerKey : LayerKey} {completed : List SharedEvent}
    {discovered : List (LayerKey × TopologyEvent)} {event : TopologyEvent} :
    (layerKey, SharedEvent.setSublayers event) ∈ routedEvents ownKey completed discovered ↔
      (layerKey, event) ∈ topologyRecords ownKey completed ++ discovered := by
  simp only [routedEvents, List.mem_append]
  refine or_congr ?_ ?_
  · rw [mem_topologyRecords]
    constructor
    · intro member
      obtain ⟨_, present, same⟩ := List.mem_map.1 member
      obtain ⟨rfl, rfl⟩ := Prod.mk.inj same
      exact ⟨rfl, present⟩
    · rintro ⟨rfl, present⟩
      exact List.mem_map.2 ⟨_, present, rfl⟩
  · constructor
    · intro member
      obtain ⟨record, present, same⟩ := List.mem_map.1 member
      obtain ⟨rfl, there⟩ := Prod.mk.inj same
      obtain rfl := SharedEvent.setSublayers.inj there
      exact present
    · exact fun member => List.mem_map.2 ⟨_, member, rfl⟩

/-- What a successful transaction did: one record per event and per discovered list, one batch, and
no other change of the maps than those lists announce. -/
structure Committed (setup : SharedStageSetup) (transaction : SharedTransaction)
    (server after : SharedServer) (rows : List (Nat × SharedItem)) (completed : List SharedEvent)
    (discovered : List (LayerKey × TopologyEvent)) : Prop where
  length : completed.length = transaction.events.length
  change : LayerGraph.KeyedChange setup.paths server.graph
    (topologyRecords transaction.layerKey completed ++ discovered) after.graph
  persisted : Persisted after.graph (routedEvents transaction.layerKey completed discovered)
    transaction.progress server.journal after.journal rows

theorem applyAndPersist_error {prepared : Option (PreparedSublayers LayerId)}
    {canonical : List SharedEvent} {error : EditError} (routed : server.graph.Routed)
    (positive : 0 < server.graph.nextKey)
    (ready : ∀ here ∈ prepared, LayerGraph.PreparedFor setup.paths server.graph here)
    (failed : applyAndPersist setup environment transaction target canonical prepared server =
      (after, .error error)) : Interrupted server after := by
  unfold applyAndPersist at failed
  split at failed
  · next applied _ applying =>
      obtain ⟨rfl, _⟩ := Prod.mk.inj failed
      obtain ⟨⟨scene, authored, rfl⟩, _⟩ := applyCanonical_cases applying
      exact ⟨rfl, rfl, rfl, Nat.le_refl _⟩
  next applied completed applying =>
  obtain ⟨⟨scene, authored, rfl⟩, _⟩ := applyCanonical_cases applying
  split at failed
  · next discovering =>
      obtain ⟨rfl, _⟩ := Prod.mk.inj failed
      rw [acceptAndDiscover_error discovering]
      exact ⟨rfl, rfl, rfl, Nat.le_refl _⟩
  next discovered records discovering =>
  let applied : SharedServer :=
    { server with scene := scene, graph := { server.graph with authored := authored } }
  have appliedRouted : applied.graph.Routed := routed.withNextKey (Nat.le_refl _) authored
  have appliedReady : ∀ here ∈ prepared, LayerGraph.PreparedFor setup.paths applied.graph here :=
    fun here found => (ready here found).mono (Nat.le_refl _) rfl
  obtain ⟨same, change⟩ := acceptAndDiscover_ok appliedRouted positive appliedReady discovering
  have persisting := persistSharedEvents_error failed
  rw [persisting, same]
  exact ⟨rfl, change.ready, change.rootLayer, change.supply⟩

theorem applyAndPersist_ok {prepared : Option (PreparedSublayers LayerId)}
    {canonical : List SharedEvent} {graph : LayerGraph LayerId} {rows : List (Nat × SharedItem)}
    (routed : graph.Routed) (positive : 0 < graph.nextKey)
    (single : topologyCount transaction.events ≤ 1)
    (canonicalized : CanonicalizedAll setup transaction.layerKey transaction.events graph canonical
      prepared server.graph)
    (done : applyAndPersist setup environment transaction target canonical prepared server =
      (after, .ok rows)) :
    ∃ completed discovered,
      Committed setup transaction { server with graph := graph } after rows completed discovered := by
  unfold applyAndPersist at done
  split at done
  · exact nomatch (Prod.mk.inj done).2
  next applied completed applying =>
  obtain ⟨⟨scene, authored, rfl⟩, written⟩ := applyCanonical_cases applying
  obtain ⟨length, topology⟩ := written completed rfl
  split at done
  · exact nomatch (Prod.mk.inj done).2
  next discovering records discovers =>
  have supply := canonicalized.supply
  have keyedRouted : server.graph.Routed := by
    rw [canonicalized.same]
    exact routed.withNextKey supply graph.authored
  let applied : SharedServer :=
    { server with scene := scene, graph := { server.graph with authored := authored } }
  have appliedRouted : applied.graph.Routed := keyedRouted.withNextKey (Nat.le_refl _) authored
  have appliedReady : ∀ here ∈ prepared, LayerGraph.PreparedFor setup.paths applied.graph here :=
    fun here found => (canonicalized.ready here found).1.mono (Nat.le_refl _) rfl
  obtain ⟨same, change⟩ := acceptAndDiscover_ok appliedRouted
    (Nat.lt_of_lt_of_le positive supply) appliedReady discovers
  obtain ⟨afterSame, persisted⟩ := persistSharedEvents_ok done
  rw [same] at afterSame persisted
  have appliedGraph : applied.graph =
      { graph with nextKey := server.graph.nextKey, authored := authored } := by
    simp only [applied]
    rw [canonicalized.same]
  rw [appliedGraph] at change
  refine ⟨completed, records, length.trans canonicalized.length, ?_, ?_⟩
  · rw [afterSame]
    refine (change.precede supply).congr fun record => ?_
    simp only [List.mem_append, Option.mem_toList, Option.map_eq_some_iff]
    refine or_congr_left ?_
    rw [mem_topologyRecords, topology]
    constructor
    · rintro ⟨here, found, rfl⟩
      obtain ⟨_, parent, member⟩ := canonicalized.ready here found
      exact ⟨parent, member⟩
    · rintro ⟨sameKey, member⟩
      obtain ⟨here, found, event⟩ := canonicalized.only single record.2 member
      obtain ⟨_, parent, _⟩ := canonicalized.ready here found
      exact ⟨here, found, Prod.ext (parent.trans sameKey.symm) event⟩
  · rw [afterSame]
    exact persisted

theorem restoreFull_layers (backup : Layer) (scene : Scene) :
    (restoreLayers [(target, .full backup)] scene).layers target = backup := by
  have taken : (LayerSnapshot.full backup).TakenOf backup := rfl
  have restored := @LayerSnapshot.TakenOf.restore _ _ (scene.layers target) taken trivial
  rw [show restoreLayers [(target, .full backup)] scene =
    (onLayer target (LayerSnapshot.full backup).restore).after scene from rfl, onLayer_after,
    restored, Scene.withLayer_layers]

/-- The contexts put everything back that the protected region changed. -/
theorem contexts_untouched {saved inner : SharedServer} {error : EditError}
    {outcome : Except EditError (List (Nat × SharedItem))}
    (interrupted : Interrupted saved inner)
    (unwound : reserveSequences saved (graphTransaction saved (atomicApply saved target
      (inner, (.error error : Except EditError (List (Nat × SharedItem)))))) = (after, outcome)) :
    after.journal = saved.journal ∧ saved.graph.SameRouting after.graph ∧
      saved.graph.nextKey ≤ after.graph.nextKey ∧
      after.scene.layers target = saved.scene.layers target ∧
      after.graph.authored target = saved.graph.authored target := by
  obtain ⟨rfl, _⟩ := Prod.mk.inj unwound
  refine ⟨?_, ?_, interrupted.supply, restoreFull_layers _ _, ?_⟩
  · dsimp only
    rw [interrupted.journal]
  · exact LayerGraph.rollback_sameRouting interrupted.ready interrupted.rootLayer
  · simp [LayerGraph.rollback]

theorem commitShared_error {error : EditError} (routed : server.graph.Routed)
    (positive : 0 < server.graph.nextKey)
    (failed : commitShared setup environment transaction server = (after, .error error)) :
    Untouched transaction server after := by
  unfold commitShared at failed
  split at failed
  · obtain ⟨rfl, _⟩ := Prod.mk.inj failed
    exact Untouched.refl transaction server
  split at failed
  · obtain ⟨rfl, _⟩ := Prod.mk.inj failed
    exact Untouched.refl transaction server
  next target routedTarget =>
  split at failed
  · obtain ⟨rfl, _⟩ := Prod.mk.inj failed
    exact Untouched.refl transaction server
  split at failed
  · obtain ⟨rfl, _⟩ := Prod.mk.inj failed
    exact Untouched.refl transaction server
  next canonical prepared graph canonicalizing =>
  have canonicalized := canonicalizeAll_cases transaction.events routed positive canonicalizing
  have savedRouted : graph.Routed := by
    rw [canonicalized.same]
    exact routed.withNextKey canonicalized.supply server.graph.authored
  dsimp only at failed
  cases attempt : applyAndPersist setup environment transaction target canonical prepared
      { server with graph := graph } with
  | mk inner outcome =>
      rw [attempt] at failed
      cases outcome with
      | ok rows => exact nomatch (Prod.mk.inj failed).2
      | error other =>
          have interrupted := applyAndPersist_error savedRouted
            (Nat.lt_of_lt_of_le positive canonicalized.supply)
            (fun here found => (canonicalized.ready here found).1) attempt
          obtain ⟨journal, routing, supply, content, list⟩ := contexts_untouched interrupted failed
          have authored : graph.authored = server.graph.authored := by rw [canonicalized.same]
          refine ⟨journal, ?_, canonicalized.supply.trans supply, ?_⟩
          · rw [canonicalized.same] at routing
            exact ⟨routing.ready, routing.rootLayer, routing.generation, routing.revision,
              routing.rootLayerKey, routing.layers, routing.keysByIdentifier, routing.states,
              routing.parentRevisions, routing.identityKeys, routing.identityIdentifiers⟩
          · intro other found
            obtain rfl := Option.some.inj (routedTarget.symm.trans found)
            exact ⟨content, list.trans (congrFun authored _)⟩

theorem commitShared_ok {rows : List (Nat × SharedItem)} (routed : server.graph.Routed)
    (positive : 0 < server.graph.nextKey) (single : topologyCount transaction.events ≤ 1)
    (committed : commitShared setup environment transaction server = (after, .ok rows)) :
    transaction.layerKey ∈ server.graph.reachableLayerKeys ∧ ∃ completed discovered,
      Committed setup transaction server after rows completed discovered := by
  unfold commitShared at committed
  split at committed
  · exact nomatch (Prod.mk.inj committed).2
  split at committed
  · exact nomatch (Prod.mk.inj committed).2
  next target routedTarget =>
  split at committed
  · exact nomatch (Prod.mk.inj committed).2
  next reachable =>
  split at committed
  · exact nomatch (Prod.mk.inj committed).2
  next canonical prepared graph canonicalizing =>
  refine ⟨not_not.1 reachable, ?_⟩
  have canonicalized := canonicalizeAll_cases transaction.events routed positive canonicalizing
  dsimp only at committed
  cases attempt : applyAndPersist setup environment transaction target canonical prepared
      { server with graph := graph } with
  | mk inner outcome =>
      rw [attempt] at committed
      cases outcome with
      | error other => exact nomatch (Prod.mk.inj committed).2
      | ok stored =>
          obtain ⟨rfl, same⟩ := Prod.mk.inj committed
          cases same
          have keyed : CanonicalizedAll setup transaction.layerKey transaction.events server.graph
            canonical prepared ({ server with graph := graph } : SharedServer).graph := canonicalized
          have done := applyAndPersist_ok routed positive single keyed attempt
          exact done

end Commit

end SharedServer

end UsdConnect
