/-
Purpose: What the graph operations do to key maps: they extend the maps, keep them inverse and route
  every key they emit; replaying the lists binds no other pairs.
Trusted boundary: none
Main exports: KeyedChange, acceptSublayers_keyed, discoverSublayerStates_keyed
-/
import UsdConnect.Proofs.GraphRuns

namespace UsdConnect

namespace LayerGraph

variable {Layer : Type} [DecidableEq Layer] {paths : AssetPaths Layer}

/-! ### Operations of the authoritative graph -/

/-- The keys of an emitted list are routed to the layers its entries name. -/
def RoutesList (paths : AssetPaths Layer) (graph : LayerGraph Layer) (layerKey : LayerKey)
    (entries : List SublayerEntry) : Prop :=
  ∃ parent, graph.layers layerKey = some parent ∧ ∀ entry ∈ entries, ∀ childKey,
    entry.layerKey = some childKey →
      graph.layers childKey = some (paths.target parent entry.authoredPath)

/-- What an operation that emits `records` does to keys and lists. -/
structure KeyedChange (paths : AssetPaths Layer) (graph : LayerGraph Layer)
    (records : List (LayerKey × TopologyEvent)) (after : LayerGraph Layer) : Prop where
  routed : after.Routed
  within : RoutesWithin graph after
  supply : graph.nextKey ≤ after.nextKey
  ready : after.ready = graph.ready
  rootLayer : after.rootLayer = graph.rootLayer
  rootLayerKey : after.rootLayerKey = graph.rootLayerKey
  states : ∀ {layerKey entries}, after.states.lookup layerKey = some entries →
    graph.states.lookup layerKey = some entries ∨
      ∃ event, (layerKey, event) ∈ records ∧ event.sublayers = entries
  keyed : ∀ record ∈ records, after.RoutesList paths record.1 record.2.sublayers
  fresh : ∀ {layerKey layer}, after.identityIdentifiersByKey layerKey = some layer →
    graph.identityIdentifiersByKey layerKey = some layer ∨
      ∃ record ∈ records, ∃ entry ∈ record.2.sublayers, entry.layerKey = some layerKey

section Changes

variable {openable : Layer → Bool} {graph middle after : LayerGraph Layer}

omit [DecidableEq Layer] in
theorem RoutesList.mono {layerKey : LayerKey} {entries : List SublayerEntry}
    (routes : graph.RoutesList paths layerKey entries) (within : RoutesWithin graph after) :
    after.RoutesList paths layerKey entries := by
  obtain ⟨parent, routedParent, children⟩ := routes
  exact ⟨parent, within.layers routedParent, fun entry member childKey keyed =>
    within.layers (children entry member childKey keyed)⟩

omit [DecidableEq Layer] in
theorem KeyedChange.refl (routed : graph.Routed) : KeyedChange paths graph [] graph where
  routed := routed
  within := RoutesWithin.refl graph
  supply := Nat.le_refl _
  ready := rfl
  rootLayer := rfl
  rootLayerKey := rfl
  states := fun found => Or.inl found
  keyed := fun _ member => nomatch member
  fresh := fun known => Or.inl known

omit [DecidableEq Layer] in
theorem KeyedChange.trans {first second : List (LayerKey × TopologyEvent)}
    (one : KeyedChange paths graph first middle) (two : KeyedChange paths middle second after) :
    KeyedChange paths graph (first ++ second) after where
  routed := two.routed
  within := one.within.trans two.within
  supply := one.supply.trans two.supply
  ready := two.ready.trans one.ready
  rootLayer := two.rootLayer.trans one.rootLayer
  rootLayerKey := two.rootLayerKey.trans one.rootLayerKey
  states := by
    intro layerKey entries found
    rcases two.states found with before | ⟨event, member, same⟩
    · rcases one.states before with old | ⟨event, member, same⟩
      · exact Or.inl old
      · exact Or.inr ⟨event, List.mem_append_left _ member, same⟩
    · exact Or.inr ⟨event, List.mem_append_right _ member, same⟩
  keyed := by
    intro record member
    rcases List.mem_append.1 member with early | late
    · exact (one.keyed record early).mono two.within
    · exact two.keyed record late
  fresh := by
    intro layerKey layer known
    rcases two.fresh known with before | ⟨record, member, listed⟩
    · rcases one.fresh before with old | ⟨record, member, listed⟩
      · exact Or.inl old
      · exact Or.inr ⟨record, List.mem_append_left _ member, listed⟩
    · exact Or.inr ⟨record, List.mem_append_right _ member, listed⟩

omit [DecidableEq Layer] in
/-- Pruning drops lists and leaves the maps alone. -/
theorem KeyedChange.prune {records : List (LayerKey × TopologyEvent)}
    (change : KeyedChange paths graph records after) :
    KeyedChange paths graph records after.pruneUnreachableStates where
  routed := ⟨change.routed.layers_iff, change.routed.identity_iff, change.routed.remembered,
    change.routed.drawn⟩
  within := ⟨change.within.layers, change.within.keys, change.within.identityKeys,
    change.within.identityIdentifiers⟩
  supply := change.supply
  ready := change.ready
  rootLayer := change.rootLayer
  rootLayerKey := change.rootLayerKey
  states := by
    intro layerKey entries found
    simp only [pruneUnreachableStates, Dict.lookup_keepKeys] at found
    split at found
    · exact change.states found
    · cases found
  keyed := change.keyed
  fresh := change.fresh

/-- An identity is known afterwards only if it was before or is bound now. -/
theorem bindKeys_identities {mappings : List (Layer × LayerKey)}
    (bound : graph.bindKeys mappings = some after) {layerKey : LayerKey} {layer : Layer}
    (known : after.identityIdentifiersByKey layerKey = some layer) :
    graph.identityIdentifiersByKey layerKey = some layer ∨ (layer, layerKey) ∈ mappings := by
  induction mappings generalizing graph with
  | nil =>
      obtain rfl := Option.some.inj bound
      exact Or.inl known
  | cons mapping rest ih =>
      obtain ⟨first, firstKey⟩ := mapping
      rw [bindKeys, Option.bind_eq_bind, Option.bind_eq_some_iff] at bound
      obtain ⟨middle, here, later⟩ := bound
      rcases ih later with old | member
      · obtain ⟨_, _, _, _, rfl⟩ := bindKey_cases here
        by_cases same : layerKey = firstKey
        · subst same
          obtain rfl : first = layer := by simpa [routeKey] using old
          exact Or.inr List.mem_cons_self
        · exact Or.inl (by simpa [routeKey, same] using old)
      · exact Or.inr (List.mem_cons_of_mem _ member)

/-- A prepared event whose mappings are the keyed children of a routed parent. -/
structure PreparedFor (paths : AssetPaths Layer) (graph : LayerGraph Layer)
    (prepared : PreparedSublayers Layer) : Prop where
  mappings : ∃ parent, graph.layers prepared.parentKey = some parent ∧
    prepared.mappings = keyedChildren paths parent prepared.event.sublayers
  drawn : ∀ mapping ∈ prepared.mappings, 0 < mapping.2 ∧ mapping.2 < graph.nextKey

omit [DecidableEq Layer] in
/-- Drawing more keys keeps an event prepared. -/
theorem PreparedFor.mono {prepared : PreparedSublayers Layer}
    (preparedFor : PreparedFor paths graph prepared) (supply : graph.nextKey ≤ after.nextKey)
    (layers : after.layers = graph.layers) : PreparedFor paths after prepared := by
  obtain ⟨parent, routedParent, mappings⟩ := preparedFor.mappings
  refine ⟨⟨parent, ?_, mappings⟩, fun mapping member => ?_⟩
  · rw [layers]
    exact routedParent
  · obtain ⟨above, below⟩ := preparedFor.drawn mapping member
    exact ⟨above, Nat.lt_of_lt_of_le below supply⟩

/-- Canonicalization prepares for the graph it returns, which differs in its key supply only. -/
theorem canonicalizeSublayers_preparedFor {keyed : LayerGraph Layer} {parentKey : LayerKey}
    {event : TopologyEvent} {prepared : PreparedSublayers Layer} (routed : graph.Routed)
    (positive : 0 < graph.nextKey)
    (canonicalized : graph.canonicalizeSublayers paths openable parentKey event =
      some (prepared, keyed)) :
    PreparedFor paths keyed prepared ∧ prepared.parentKey = parentKey ∧
      graph.nextKey ≤ keyed.nextKey ∧ keyed = { graph with nextKey := keyed.nextKey } := by
  obtain ⟨parent, canonical, _, routedParent, _, _, keyedEntries, rfl, rfl⟩ :=
    canonicalizeSublayers_cases canonicalized
  have made := canonicalizeEntries_canonicalized routed event.sublayers (Nat.le_refl _) positive
    (by simp) keyedEntries
  exact ⟨⟨⟨parent, routedParent, made.mappings⟩, made.drawn⟩, rfl, made.supply, rfl⟩

theorem acceptSublayers_keyed {prepared : PreparedSublayers Layer} (routed : graph.Routed)
    (preparedFor : PreparedFor paths graph prepared)
    (accepted : graph.acceptSublayers paths prepared = some after) :
    KeyedChange paths graph [(prepared.parentKey, prepared.event)] after := by
  obtain ⟨bound, _, _, mapped, _, rfl⟩ := acceptSublayers_cases accepted
  obtain ⟨within, same, there⟩ := bindKeys_within mapped
  have boundRouted := bindKeys_routed mapped routed preparedFor.drawn
  obtain ⟨parent, routedParent, mappings⟩ := preparedFor.mappings
  refine
    { routed := ⟨boundRouted.layers_iff, boundRouted.identity_iff, boundRouted.remembered,
        boundRouted.drawn⟩
      within := ⟨within.layers, within.keys, within.identityKeys, within.identityIdentifiers⟩
      supply := Nat.le_of_eq same.nextKey.symm
      ready := same.ready
      rootLayer := same.rootLayer
      rootLayerKey := same.rootLayerKey
      states := ?_
      keyed := ?_
      fresh := ?_ }
  · intro layerKey entries found
    by_cases edited : layerKey = prepared.parentKey
    · subst edited
      obtain rfl := Option.some.inj ((AList.lookup_insert _).symm.trans found)
      exact Or.inr ⟨prepared.event, List.mem_cons_self, rfl⟩
    · simp only [AList.lookup_insert_ne edited, same.states] at found
      exact Or.inl found
  · intro record member
    rw [List.mem_singleton.1 member]
    refine ⟨parent, within.layers routedParent, ?_⟩
    intro entry present childKey keyed
    refine there (paths.target parent entry.authoredPath, childKey) ?_
    rw [mappings]
    exact mem_keyedChildren.2 ⟨entry, present, keyed, rfl⟩
  · intro layerKey layer known
    rcases bindKeys_identities mapped known with before | member
    · exact Or.inl before
    · rw [mappings] at member
      obtain ⟨entry, present, keyed, _⟩ := mem_keyedChildren.1 member
      exact Or.inr ⟨_, List.mem_cons_self, entry, present, keyed⟩

omit [DecidableEq Layer] in
/-- The order and the multiplicity of the emitted lists do not matter. -/
theorem KeyedChange.congr {first second : List (LayerKey × TopologyEvent)}
    (change : KeyedChange paths graph first after)
    (same : ∀ record, record ∈ first ↔ record ∈ second) :
    KeyedChange paths graph second after :=
  { change with
    states := by
      intro layerKey entries found
      rcases change.states found with before | ⟨event, member, listed⟩
      · exact Or.inl before
      · exact Or.inr ⟨event, (same _).1 member, listed⟩
    keyed := fun record member => change.keyed record ((same record).2 member)
    fresh := by
      intro layerKey layer known
      rcases change.fresh known with before | ⟨record, member, listed⟩
      · exact Or.inl before
      · exact Or.inr ⟨record, (same record).1 member, listed⟩ }

omit [DecidableEq Layer] in
/-- Keys drawn and lists authored before an operation are not part of its change. -/
theorem KeyedChange.precede {records : List (LayerKey × TopologyEvent)} {supply : Nat}
    {authored : Layer → List SublayerEntry}
    (change : KeyedChange paths { graph with nextKey := supply, authored := authored } records after)
    (drawn : graph.nextKey ≤ supply) : KeyedChange paths graph records after :=
  { change with
    within := ⟨change.within.layers, change.within.keys, change.within.identityKeys,
      change.within.identityIdentifiers⟩
    supply := drawn.trans change.supply }

theorem canonicalized_keyed {keyed : LayerGraph Layer} {parentKey : LayerKey}
    {event : TopologyEvent} {prepared : PreparedSublayers Layer} (routed : graph.Routed)
    (positive : 0 < graph.nextKey)
    (canonicalized : graph.canonicalizeSublayers paths openable parentKey event =
      some (prepared, keyed))
    (accepted : keyed.acceptSublayers paths prepared = some after) :
    KeyedChange paths graph [(parentKey, prepared.event)] after := by
  obtain ⟨preparedFor, rfl, supply, same⟩ :=
    canonicalizeSublayers_preparedFor routed positive canonicalized
  have keyedRouted : keyed.Routed := by
    rw [same]
    exact routed.withNextKey supply graph.authored
  have change := acceptSublayers_keyed keyedRouted preparedFor accepted
  rw [same] at change
  exact change.precede supply

theorem discoverLoop_keyed (steps : Nat) (queue : List (Layer × LayerKey))
    (visited : List LayerKey) {records : List (LayerKey × TopologyEvent)} (routed : graph.Routed)
    (positive : 0 < graph.nextKey)
    (succeeded : discoverLoop paths openable steps queue visited graph = some (records, after)) :
    KeyedChange paths graph records after := by
  induction steps generalizing queue visited graph records with
  | zero =>
      cases queue with
      | nil =>
          obtain ⟨rfl, rfl⟩ := Prod.mk.inj (Option.some.inj succeeded)
          exact KeyedChange.refl routed
      | cons mapping queue => exact absurd succeeded (by simp [discoverLoop])
  | succ steps ih =>
      cases queue with
      | nil =>
          obtain ⟨rfl, rfl⟩ := Prod.mk.inj (Option.some.inj succeeded)
          exact KeyedChange.refl routed
      | cons mapping queue =>
          unfold discoverLoop at succeeded
          split at succeeded
          · exact ih queue visited routed positive succeeded
          · simp only [Option.bind_eq_bind, Option.bind_eq_some_iff] at succeeded
            obtain ⟨event, _, ⟨prepared, keyed⟩, canonicalized, middle, accepted,
              ⟨later, final⟩, looped, same⟩ := succeeded
            obtain ⟨rfl, rfl⟩ := Prod.mk.inj (Option.some.inj same)
            have change := canonicalized_keyed routed positive canonicalized accepted
            exact change.trans
              (ih _ _ change.routed (Nat.lt_of_lt_of_le positive change.supply) looped)

theorem discoverSublayerStates_keyed {steps : Nat} {mappings : List (Layer × LayerKey)}
    {records : List (LayerKey × TopologyEvent)} (routed : graph.Routed)
    (positive : 0 < graph.nextKey)
    (discovered : graph.discoverSublayerStates paths openable steps mappings =
      some (records, after)) : KeyedChange paths graph records after := by
  simp only [discoverSublayerStates, Option.bind_eq_bind, Option.bind_eq_some_iff] at discovered
  obtain ⟨_, _, ⟨_, last⟩, looped, same⟩ := discovered
  obtain ⟨rfl, rfl⟩ := Prod.mk.inj (Option.some.inj same)
  exact (discoverLoop_keyed steps mappings [] routed positive looped).prune

theorem refreshLoop_keyed {steps : Nat} (parents : List LayerKey)
    {records : List (LayerKey × TopologyEvent)} (routed : graph.Routed)
    (positive : 0 < graph.nextKey)
    (refreshed : refreshLoop paths openable steps parents graph = some (records, after)) :
    KeyedChange paths graph records after := by
  induction parents generalizing graph records with
  | nil =>
      obtain ⟨rfl, rfl⟩ := Prod.mk.inj (Option.some.inj refreshed)
      exact KeyedChange.refl routed
  | cons parentKey rest ih =>
      unfold refreshLoop at refreshed
      split at refreshed
      · exact ih routed positive refreshed
      · simp only at refreshed
        split at refreshed
        · exact ih routed positive refreshed
        · simp only [Option.bind_eq_bind, Option.bind_eq_some_iff] at refreshed
          obtain ⟨event, _, ⟨prepared, keyed⟩, canonicalized, continued⟩ := refreshed
          simp only at continued
          split at continued
          · exact ih routed positive continued
          · simp only [Option.bind_eq_some_iff] at continued
            obtain ⟨first, accepted, ⟨discovered, last⟩, discovers, ⟨later, _⟩, looping, same⟩ :=
              continued
            obtain ⟨rfl, rfl⟩ := Prod.mk.inj (Option.some.inj same)
            have here := canonicalized_keyed routed positive canonicalized accepted
            have enough := Nat.lt_of_lt_of_le positive here.supply
            have there := here.trans (discoverSublayerStates_keyed here.routed enough discovers)
            exact there.trans
              (ih there.routed (Nat.lt_of_lt_of_le positive there.supply) looping)

theorem refreshResolvedSublayers_keyed {steps : Nat} {records : List (LayerKey × TopologyEvent)}
    (routed : graph.Routed) (positive : 0 < graph.nextKey)
    (refreshed : graph.refreshResolvedSublayers paths openable steps = some (records, after)) :
    KeyedChange paths graph records after := by
  simp only [refreshResolvedSublayers, Option.bind_eq_bind, Option.bind_eq_some_iff] at refreshed
  obtain ⟨_, _, ⟨_, last⟩, looped, same⟩ := refreshed
  obtain ⟨rfl, rfl⟩ := Prod.mk.inj (Option.some.inj same)
  exact (refreshLoop_keyed _ routed positive looped).prune

end Changes

/-! ### Announced pairs -/

/-- Pairs with one key per layer and one layer per key. -/
structure OneToOne (pairs : Layer → LayerKey → Prop) : Prop where
  key : ∀ {layer first second}, pairs layer first → pairs layer second → first = second
  layer : ∀ {first second layerKey}, pairs first layerKey → pairs second layerKey → first = second

/-- The key of a list and the keys of its entries are announced. -/
def ListAnnounced (paths : AssetPaths Layer) (pairs : Layer → LayerKey → Prop)
    (layerKey : LayerKey) (entries : List SublayerEntry) : Prop :=
  ∃ parent, pairs parent layerKey ∧ ∀ entry ∈ entries, ∀ childKey,
    entry.layerKey = some childKey → pairs (paths.target parent entry.authoredPath) childKey

/-- The root and the stored lists of a graph are announced. -/
structure Listed (paths : AssetPaths Layer) (pairs : Layer → LayerKey → Prop)
    (graph : LayerGraph Layer) : Prop where
  root : graph.ready = true → pairs graph.rootLayer graph.rootLayerKey
  states : ∀ {layerKey entries}, graph.states.lookup layerKey = some entries →
    ListAnnounced paths pairs layerKey entries

section Announced

variable {pairs more : Layer → LayerKey → Prop} {graph after : LayerGraph Layer}

omit [DecidableEq Layer] in
theorem ListAnnounced.mono (grown : ∀ {layer layerKey}, pairs layer layerKey → more layer layerKey)
    {layerKey : LayerKey} {entries : List SublayerEntry}
    (announced : ListAnnounced paths pairs layerKey entries) :
    ListAnnounced paths more layerKey entries := by
  obtain ⟨parent, here, children⟩ := announced
  exact ⟨parent, grown here, fun entry member childKey keyed =>
    grown (children entry member childKey keyed)⟩

omit [DecidableEq Layer] in
theorem Listed.mono (listed : graph.Listed paths pairs)
    (grown : ∀ {layer layerKey}, pairs layer layerKey → more layer layerKey) :
    graph.Listed paths more where
  root := fun ready => grown (listed.root ready)
  states := fun found => (listed.states found).mono grown

omit [DecidableEq Layer] in
/-- An operation whose emitted lists are announced keeps a graph listed. -/
theorem Listed.change {records : List (LayerKey × TopologyEvent)}
    (listed : graph.Listed paths pairs) (change : KeyedChange paths graph records after)
    (announced : ∀ record ∈ records, ListAnnounced paths pairs record.1 record.2.sublayers) :
    after.Listed paths pairs where
  root := by
    intro ready
    rw [change.rootLayer, change.rootLayerKey]
    exact listed.root (change.ready ▸ ready)
  states := by
    intro layerKey entries found
    rcases change.states found with before | ⟨event, member, rfl⟩
    · exact listed.states before
    · exact announced _ member

omit [DecidableEq Layer] in
theorem Listed.reachable (listed : graph.Listed paths pairs) {layerKey : LayerKey}
    (reachable : layerKey ∈ graph.reachableLayerKeys) : ∃ layer, pairs layer layerKey := by
  have ready : graph.ready = true := by
    by_contra notReady
    simp [reachableLayerKeys, notReady] at reachable
  cases (mem_reachableLayerKeys ready).1 reachable with
  | refl => exact ⟨graph.rootLayer, listed.root ready⟩
  | tail _ edge =>
      obtain ⟨entries, stored, entry, member, keyed⟩ := mem_childKeys.1 edge
      obtain ⟨parent, _, children⟩ := listed.states stored
      exact ⟨_, children entry member layerKey keyed⟩

omit [DecidableEq Layer] in
theorem described_of_mapM {keys : List LayerKey} {layers : List LayerState}
    (mapped : keys.mapM graph.layerState = some layers) :
    ∀ layer ∈ layers, ∃ layerKey, graph.layerState layerKey = some layer := by
  induction keys generalizing layers with
  | nil =>
      obtain rfl := Option.some.inj mapped
      exact fun _ member => nomatch member
  | cons head rest ih =>
      simp only [List.mapM_cons, Option.bind_eq_bind, Option.bind_eq_some_iff] at mapped
      obtain ⟨state, described, later, mappedRest, same⟩ := mapped
      obtain rfl := Option.some.inj same
      intro layer member
      rcases List.mem_cons.1 member with rfl | old
      · exact ⟨head, described⟩
      · exact ih mappedRest layer old

omit [DecidableEq Layer] in
theorem Listed.stateMessage (listed : graph.Listed paths pairs) {state : GraphState}
    (message : graph.stateMessage = some state) :
    pairs graph.rootLayer state.rootLayerKey ∧
      ∀ layer ∈ state.layers, ListAnnounced paths pairs layer.layerKey layer.sublayers := by
  simp only [LayerGraph.stateMessage, Option.bind_eq_bind, Option.bind_eq_some_iff,
    require_eq_some] at message
  obtain ⟨_, ready, layers, mapped, same⟩ := message
  obtain rfl := Option.some.inj same
  refine ⟨listed.root ready, fun layer member => ?_⟩
  obtain ⟨layerKey, described⟩ := described_of_mapM mapped layer member
  obtain ⟨sublayers, _, stored, _, rfl⟩ := layerState_eq_some.1 described
  exact listed.states stored

end Announced

/-! ### Replayed baselines and lists -/

/-- A graph that binds announced pairs only, under a fixed root layer and key supply; `seen` says
that it has taken a baseline. -/
structure Replaying (paths : AssetPaths Layer) (pairs : Layer → LayerKey → Prop)
    (stageRoot : Layer) (supply : Nat) (seen : Prop) (graph : LayerGraph Layer) : Prop where
  root : seen → pairs stageRoot graph.rootLayerKey
  states : ∀ {layerKey entries}, graph.states.lookup layerKey = some entries →
    ListAnnounced paths pairs layerKey entries
  layers_iff : ∀ layerKey layer,
    graph.layers layerKey = some layer ↔ graph.keysByIdentifier layer = some layerKey
  identity_iff : ∀ layerKey layer, graph.identityIdentifiersByKey layerKey = some layer ↔
    graph.identityKeysByIdentifier layer = some layerKey
  remembered : ∀ {layerKey layer}, graph.layers layerKey = some layer →
    graph.identityIdentifiersByKey layerKey = some layer
  bound : ∀ {layerKey layer}, graph.identityIdentifiersByKey layerKey = some layer →
    pairs layer layerKey
  rootLayer : graph.rootLayer = stageRoot
  nextKey : graph.nextKey = supply

section Replay

/-- The children of an announced list are announced relative to every layer of its key. -/
def Coherent (paths : AssetPaths Layer) (pairs : Layer → LayerKey → Prop) : Prop :=
  ∀ {layerKey entries parent}, ListAnnounced paths pairs layerKey entries → pairs parent layerKey →
    ∀ entry ∈ entries, ∀ childKey, entry.layerKey = some childKey →
      pairs (paths.target parent entry.authoredPath) childKey

omit [DecidableEq Layer] in
theorem OneToOne.coherent {pairs : Layer → LayerKey → Prop} (oneToOne : OneToOne pairs) :
    Coherent paths pairs := by
  intro layerKey entries parent announced here
  obtain ⟨layer, there, children⟩ := announced
  obtain rfl := oneToOne.layer here there
  exact children

variable {pairs : Layer → LayerKey → Prop} {stageRoot : Layer} {supply : Nat} {seen : Prop}
  {openable : Layer → Bool} {graph after : LayerGraph Layer}

omit [DecidableEq Layer] in
theorem Replaying.listed (replaying : graph.Replaying paths pairs stageRoot supply True) :
    graph.Listed paths pairs where
  root := fun _ => replaying.rootLayer ▸ replaying.root trivial
  states := replaying.states

omit [DecidableEq Layer] in
/-- Announced keys that were drawn from the supply make a replayed graph routed. -/
theorem Replaying.routed (replaying : graph.Replaying paths pairs stageRoot supply seen)
    (drawn : ∀ {layer layerKey}, pairs layer layerKey → 0 < layerKey ∧ layerKey < supply) :
    graph.Routed where
  layers_iff := replaying.layers_iff
  identity_iff := replaying.identity_iff
  remembered := replaying.remembered
  drawn := by
    intro layerKey layer known
    rw [replaying.nextKey]
    exact drawn (replaying.bound known)

theorem bindKey_replaying {layerKey : LayerKey} {layer : Layer}
    (replaying : graph.Replaying paths pairs stageRoot supply seen) (announced : pairs layer layerKey)
    (binding : graph.bindKey layerKey layer = some after) :
    after.Replaying paths pairs stageRoot supply seen := by
  obtain ⟨_, _, same⟩ := bindKey_within binding
  obtain ⟨identityKey, identityLayer, routedLayer, routedKey, rfl⟩ := bindKey_cases binding
  refine
    { root := replaying.root
      states := replaying.states
      layers_iff := Dict.update_inverse replaying.layers_iff routedLayer routedKey
      identity_iff := Dict.update_inverse replaying.identity_iff identityLayer identityKey
      remembered := ?_
      bound := ?_
      rootLayer := replaying.rootLayer
      nextKey := replaying.nextKey }
  · intro otherKey other same
    by_cases sameKey : otherKey = layerKey
    · subst sameKey
      simpa [routeKey] using same
    · have old : graph.layers otherKey = some other := by simpa [routeKey, sameKey] using same
      simpa [routeKey, sameKey] using replaying.remembered old
  · intro otherKey other same
    by_cases sameKey : otherKey = layerKey
    · subst sameKey
      obtain rfl : layer = other := by simpa [routeKey] using same
      exact announced
    · have old : graph.identityIdentifiersByKey otherKey = some other := by
        simpa [routeKey, sameKey] using same
      exact replaying.bound old

theorem bindKeys_replaying {mappings : List (Layer × LayerKey)}
    (replaying : graph.Replaying paths pairs stageRoot supply seen)
    (announced : ∀ mapping ∈ mappings, pairs mapping.1 mapping.2)
    (binding : graph.bindKeys mappings = some after) :
    after.Replaying paths pairs stageRoot supply seen := by
  induction mappings generalizing graph with
  | nil =>
      obtain rfl := Option.some.inj binding
      exact replaying
  | cons mapping rest ih =>
      obtain ⟨layer, layerKey⟩ := mapping
      rw [bindKeys, Option.bind_eq_bind, Option.bind_eq_some_iff] at binding
      obtain ⟨middle, first, later⟩ := binding
      exact ih (bindKey_replaying replaying (announced _ List.mem_cons_self) first)
        (fun other member => announced other (List.mem_cons_of_mem _ member)) later

omit [DecidableEq Layer] in
/-- The layer of a stored list is the one its key was announced for. -/
theorem Replaying.children (coherent : Coherent paths pairs)
    (replaying : graph.Replaying paths pairs stageRoot supply seen) {layerKey : LayerKey} {parent : Layer}
    (routed : graph.layers layerKey = some parent) {entries : List SublayerEntry}
    (announced : ListAnnounced paths pairs layerKey entries) :
    ∀ entry ∈ entries, ∀ childKey, entry.layerKey = some childKey →
      pairs (paths.target parent entry.authoredPath) childKey :=
  coherent announced (replaying.bound (replaying.remembered routed))

theorem materializeEntries_replaying {parent : Layer} (entries : List SublayerEntry)
    (replaying : graph.Replaying paths pairs stageRoot supply seen)
    (announced : ∀ entry ∈ entries, ∀ childKey, entry.layerKey = some childKey →
      pairs (paths.target parent entry.authoredPath) childKey) {queued : List LayerKey}
    (materialized : materializeEntries paths openable parent entries graph =
      some (after, queued)) : after.Replaying paths pairs stageRoot supply seen := by
  induction entries generalizing graph queued with
  | nil =>
      obtain ⟨rfl, rfl⟩ := Prod.mk.inj (Option.some.inj materialized)
      exact replaying
  | cons entry rest ih =>
      have announcedRest := fun other member =>
        announced other (List.mem_cons_of_mem entry member)
      unfold materializeEntries at materialized
      cases keyed : entry.layerKey with
      | none =>
          rw [keyed] at materialized
          exact ih replaying announcedRest materialized
      | some childKey =>
          rw [keyed] at materialized
          cases resolved : graph.resolve paths openable parent entry.authoredPath with
          | none =>
              simp only [resolved] at materialized
              exact ih replaying announcedRest materialized
          | some child =>
              simp only [resolved, Option.bind_eq_bind, Option.bind_eq_some_iff] at materialized
              obtain ⟨bound, binding, ⟨final, later⟩, looped, same⟩ := materialized
              obtain ⟨rfl, rfl⟩ := Prod.mk.inj (Option.some.inj same)
              obtain ⟨rfl, _⟩ := resolve_eq_some.1 resolved
              have here := announced entry List.mem_cons_self childKey keyed
              exact ih (bindKey_replaying replaying here binding) announcedRest looped

theorem materializeLoop_replaying (coherent : Coherent paths pairs) (steps : Nat)
    (queue visited : List LayerKey) (replaying : graph.Replaying paths pairs stageRoot supply seen)
    (materialized : materializeLoop paths openable steps queue visited graph = some after) :
    after.Replaying paths pairs stageRoot supply seen := by
  induction steps generalizing graph queue visited with
  | zero =>
      cases queue with
      | nil =>
          obtain rfl := Option.some.inj materialized
          exact replaying
      | cons parentKey queue => exact absurd materialized (by simp [materializeLoop])
  | succ steps ih =>
      cases queue with
      | nil =>
          obtain rfl := Option.some.inj materialized
          exact replaying
      | cons parentKey queue =>
          unfold materializeLoop at materialized
          split at materialized
          · exact ih _ _ replaying materialized
          · split at materialized
            · exact ih _ _ replaying materialized
            · next parent routedParent =>
                simp only [applySublayerEntries, Option.bind_eq_bind, Option.bind_eq_some_iff]
                  at materialized
                obtain ⟨entries, stored, authored, ⟨normalized, _, same⟩, ⟨middle, queued⟩, bound,
                  looped⟩ := materialized
                obtain rfl := Option.some.inj same
                have children := replaying.children coherent routedParent
                  (replaying.states stored)
                refine ih _ _ (materializeEntries_replaying entries ?_ children bound) looped
                exact
                  { root := replaying.root
                    states := replaying.states
                    layers_iff := replaying.layers_iff
                    identity_iff := replaying.identity_iff
                    remembered := replaying.remembered
                    bound := replaying.bound
                    rootLayer := replaying.rootLayer
                    nextKey := replaying.nextKey }

omit [DecidableEq Layer] in
theorem validateLayers_listed {portable : String → Bool} (layers : List LayerState)
    {states collected : AList (fun _ : LayerKey => List SublayerEntry)}
    {revisions numbered : LayerKey → Option Nat}
    (validated : validateLayers portable layers states revisions = some (collected, numbered))
    {layerKey : LayerKey} {entries : List SublayerEntry}
    (found : collected.lookup layerKey = some entries) :
    states.lookup layerKey = some entries ∨
      ∃ state ∈ layers, state.layerKey = layerKey ∧ state.sublayers = entries := by
  induction layers generalizing states revisions with
  | nil =>
      obtain ⟨rfl, rfl⟩ := Prod.mk.inj (Option.some.inj validated)
      exact Or.inl found
  | cons state rest ih =>
      unfold validateLayers at validated
      split at validated
      · cases validated
      · simp only [Option.bind_eq_bind, Option.bind_eq_some_iff] at validated
        obtain ⟨sublayers, normalized, _, _, validatedRest⟩ := validated
        obtain ⟨_, rfl⟩ := normalize_eq_some.1 normalized
        rcases ih validatedRest with before | ⟨other, member, same⟩
        · by_cases here : layerKey = state.layerKey
          · subst here
            obtain rfl := Option.some.inj ((AList.lookup_insert _).symm.trans before)
            exact Or.inr ⟨state, List.mem_cons_self, rfl, rfl⟩
          · rw [AList.lookup_insert_ne here] at before
            exact Or.inl before
        · exact Or.inr ⟨other, List.mem_cons_of_mem _ member, same⟩

/-- Applying an announced baseline, which is the first one or follows another. -/
theorem applyState_replaying (coherent : Coherent paths pairs)
    (replaying : graph.Replaying paths pairs stageRoot supply seen)
    (started : seen ∨ graph.revision < 0) {state : GraphState}
    (announcedRoot : pairs stageRoot state.rootLayerKey)
    (announced : ∀ layer ∈ state.layers,
      ListAnnounced paths pairs layer.layerKey layer.sublayers)
    (applied : graph.applyState paths openable state = some after) :
    after.Replaying paths pairs stageRoot supply True := by
  unfold applyState at applied
  split at applied
  · next stale =>
      obtain rfl := Option.some.inj applied
      have before : seen := by
        rcases started with before | negative
        · exact before
        · exact absurd stale.2 (by omega)
      exact { replaying with root := fun _ => replaying.root before }
  · simp only [Option.bind_eq_bind, Option.bind_eq_some_iff] at applied
    obtain ⟨⟨states, revisions⟩, validated, rooted, binding, materialized, looped, same⟩ := applied
    obtain rfl := Option.some.inj same
    simp only [validateTopology, Option.bind_eq_bind, Option.bind_eq_some_iff] at validated
    obtain ⟨_, _, _, _, _, _, ⟨collected, numbered⟩, listed, _, _, _, _, same⟩ := validated
    obtain ⟨rfl, rfl⟩ := Prod.mk.inj (Option.some.inj same)
    have cleared : ({ graph with
        generation := state.generation
        revision := state.revision
        rootLayerKey := state.rootLayerKey
        layers := fun _ => none
        keysByIdentifier := fun _ => none
        identityKeysByIdentifier := fun _ => none
        identityIdentifiersByKey := fun _ => none
        states := collected
        parentRevisions := numbered } : LayerGraph Layer).Replaying paths pairs stageRoot supply
          True :=
      { root := fun _ => announcedRoot
        states := by
          intro layerKey entries found
          rcases validateLayers_listed _ listed found with before | ⟨layer, member, rfl, rfl⟩
          · cases before
          · exact announced layer member
        layers_iff := fun _ _ => by simp
        identity_iff := fun _ _ => by simp
        remembered := fun known => by cases known
        bound := fun known => by cases known
        rootLayer := replaying.rootLayer
        nextKey := replaying.nextKey }
    have rootBound := bindKey_replaying cleared (replaying.rootLayer ▸ announcedRoot) binding
    have done := materializeLoop_replaying coherent _ _ _ rootBound looped
    exact ⟨done.root, done.states, done.layers_iff, done.identity_iff, done.remembered, done.bound,
      done.rootLayer, done.nextKey⟩

/-- Accepting an announced list with announced mappings, and pruning. -/
theorem acceptSublayers_replaying (replaying : graph.Replaying paths pairs stageRoot supply seen)
    {prepared : PreparedSublayers Layer}
    (announced : ListAnnounced paths pairs prepared.parentKey prepared.event.sublayers)
    (mappings : ∀ mapping ∈ prepared.mappings, pairs mapping.1 mapping.2)
    (accepted : graph.acceptSublayers paths prepared = some after) :
    after.pruneUnreachableStates.Replaying paths pairs stageRoot supply seen := by
  obtain ⟨bound, _, _, binding, _, rfl⟩ := acceptSublayers_cases accepted
  have done := bindKeys_replaying replaying mappings binding
  refine ⟨done.root, ?_, done.layers_iff, done.identity_iff, done.remembered, done.bound,
    done.rootLayer, done.nextKey⟩
  intro layerKey entries found
  simp only [pruneUnreachableStates, Dict.lookup_keepKeys] at found
  split at found
  · by_cases edited : layerKey = prepared.parentKey
    · subst edited
      obtain rfl := Option.some.inj ((AList.lookup_insert _).symm.trans found)
      exact announced
    · rw [AList.lookup_insert_ne edited] at found
      exact done.states found
  · cases found

theorem applySublayers_replaying (coherent : Coherent paths pairs)
    (replaying : graph.Replaying paths pairs stageRoot supply seen) {parentKey : LayerKey}
    {event : TopologyEvent} (announced : ListAnnounced paths pairs parentKey event.sublayers)
    (applied : graph.applySublayers paths openable parentKey event = some after) :
    after.Replaying paths pairs stageRoot supply seen := by
  simp only [applySublayers, Option.bind_eq_bind, Option.bind_eq_some_iff] at applied
  obtain ⟨_, _, _, _, _, _, entries, normalized, continued⟩ := applied
  obtain ⟨_, rfl⟩ := normalize_eq_some.1 normalized
  cases routedParent : graph.layers parentKey with
  | none =>
      simp only [routedParent, Option.bind_some, Option.bind_eq_some_iff] at continued
      obtain ⟨accepted, accepting, same⟩ := continued
      obtain rfl := Option.some.inj same
      exact acceptSublayers_replaying replaying announced
        (fun mapping member => absurd member List.not_mem_nil) accepting
  | some parent =>
      simp only [routedParent, Option.bind_some, Option.bind_eq_bind, Option.bind_eq_some_iff,
        applySublayerEntries] at continued
      obtain ⟨authored, ⟨_, _, written⟩, accepted, accepting, same⟩ := continued
      obtain rfl := Option.some.inj same
      -- the layers' own lists play no part in the invariant
      have authoring : authored.Replaying paths pairs stageRoot supply seen := by
        obtain rfl := Option.some.inj written
        exact ⟨replaying.root, replaying.states, replaying.layers_iff, replaying.identity_iff,
          replaying.remembered, replaying.bound, replaying.rootLayer, replaying.nextKey⟩
      refine acceptSublayers_replaying authoring ?_ ?_ accepting
      · exact announced
      · intro mapping member
        obtain ⟨entry, present, found⟩ := List.mem_filterMap.1 member
        cases keyed : entry.layerKey with
        | none => simp [keyed] at found
        | some childKey =>
            simp only [keyed, Option.map_eq_some_iff] at found
            obtain ⟨child, resolved, rfl⟩ := found
            obtain ⟨rfl, _⟩ := resolve_eq_some.1 resolved
            exact replaying.children coherent routedParent announced entry present childKey keyed

theorem restoreIdentityRecords_replaying (records : List (Layer × LayerKey))
    (announced : ∀ record ∈ records, pairs record.1 record.2)
    (replaying : graph.Replaying paths pairs stageRoot supply seen)
    (restored : graph.restoreIdentityRecords records = some after) :
    after.Replaying paths pairs stageRoot supply seen ∧ SameTopology graph after ∧
      RoutesWithin graph after ∧
      ∀ record ∈ records, after.identityIdentifiersByKey record.2 = some record.1 := by
  induction records generalizing graph with
  | nil =>
      obtain rfl := Option.some.inj restored
      exact ⟨replaying, SameTopology.refl _, RoutesWithin.refl _, fun _ member => nomatch member⟩
  | cons record rest ih =>
      obtain ⟨layer, layerKey⟩ := record
      unfold restoreIdentityRecords at restored
      split at restored
      · exact nomatch restored
      next free =>
      simp only [Option.any_eq_true, decide_eq_true_eq, ne_eq, not_or, not_exists, not_and,
        not_not] at free
      have step := ih (fun other member => announced other (List.mem_cons_of_mem _ member)) ?_
        restored
      · obtain ⟨kept, same, within, there⟩ := step
        refine ⟨kept, ?_, ?_, ?_⟩
        · exact ⟨same.authoritative, same.rootLayer, same.generation, same.revision, same.ready,
            same.rootLayerKey, same.states, same.parentRevisions, same.authored, same.nextKey,
            same.nextGeneration⟩
        · exact ⟨within.layers, within.keys,
            fun known => within.identityKeys (Dict.within_update free.1 known),
            fun known => within.identityIdentifiers (Dict.within_update free.2 known)⟩
        · intro other member
          rcases List.mem_cons.1 member with rfl | old
          · exact within.identityIdentifiers (by simp)
          · exact there other old
      · refine ⟨replaying.root, replaying.states, replaying.layers_iff,
          Dict.update_inverse replaying.identity_iff free.2 free.1, ?_, ?_, replaying.rootLayer,
          replaying.nextKey⟩
        · exact fun known => Dict.within_update free.2 (replaying.remembered known)
        · intro otherKey other known
          by_cases same : otherKey = layerKey
          · subst same
            obtain rfl : layer = other := by simpa using known
            exact announced _ List.mem_cons_self
          · exact replaying.bound (by simpa [same] using known)

/-- Pairs that are one-to-one never conflict with a graph that bound only such pairs. -/
theorem restoreIdentityRecords_isSome (oneToOne : OneToOne pairs)
    (records : List (Layer × LayerKey)) (announced : ∀ record ∈ records, pairs record.1 record.2)
    (replaying : graph.Replaying paths pairs stageRoot supply seen) :
    (graph.restoreIdentityRecords records).isSome := by
  induction records generalizing graph with
  | nil => rfl
  | cons record rest ih =>
      obtain ⟨layer, layerKey⟩ := record
      have here : pairs layer layerKey := announced _ List.mem_cons_self
      have sameKey : ∀ other, graph.identityKeysByIdentifier layer = some other →
          other = layerKey := fun other known =>
        oneToOne.key (replaying.bound ((replaying.identity_iff _ _).2 known)) here
      have sameLayer : ∀ other, graph.identityIdentifiersByKey layerKey = some other →
          other = layer := fun other known => oneToOne.layer (replaying.bound known) here
      have free : ¬ ((graph.identityKeysByIdentifier layer).any (· ≠ layerKey) = true ∨
          (graph.identityIdentifiersByKey layerKey).any (· ≠ layer) = true) := by
        simp only [Option.any_eq_true, decide_eq_true_eq, ne_eq]
        rintro (⟨other, known, different⟩ | ⟨other, known, different⟩)
        · exact different (sameKey other known)
        · exact different (sameLayer other known)
      have single : restoreIdentityRecords graph [(layer, layerKey)] =
          some { graph with
            identityKeysByIdentifier :=
              Function.update graph.identityKeysByIdentifier layer (some layerKey)
            identityIdentifiersByKey :=
              Function.update graph.identityIdentifiersByKey layerKey (some layer) } := by
        rw [restoreIdentityRecords, if_neg free]
        rfl
      have step := restoreIdentityRecords_replaying [(layer, layerKey)]
        (fun record member => List.mem_singleton.1 member ▸ here) replaying single
      rw [restoreIdentityRecords, if_neg free]
      exact ih (fun other member => announced other (List.mem_cons_of_mem _ member)) step.1

end Replay

end LayerGraph

end UsdConnect
