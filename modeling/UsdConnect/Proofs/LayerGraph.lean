/-
Purpose: What the graph operations do: which keys a graph reaches, when binding a key succeeds, and
  one specification for a canonicalized and accepted topology event.
Trusted boundary: none
Main exports: Reached, Routed, RoutesWithin, Grounded, AcceptStep
-/
import UsdConnect.SharedStage.LayerGraph

namespace UsdConnect

namespace LayerGraph

variable {Layer : Type} [DecidableEq Layer]

/-! ### Reachable keys -/

/-- The key is reached from the root along stored entries. -/
def Reached (graph : LayerGraph Layer) (layerKey : LayerKey) : Prop :=
  Worklist.Reaches graph.childKeys graph.rootLayerKey layerKey

omit [DecidableEq Layer] in
theorem childKeys_pays (graph : LayerGraph Layer) :
    Worklist.Pays graph.childKeys (Worklist.unvisitedWork graph.states.entries) := by
  refine Worklist.pays_of_stored graph.states.entries graph.childKeys ?_
  intro layerKey
  unfold childKeys
  cases stored : graph.states.lookup layerKey with
  | none => exact Or.inl rfl
  | some entries =>
      refine Or.inr ⟨entries, AList.mem_lookup_iff.1 stored, ?_⟩
      exact List.length_filterMap_le _ _

omit [DecidableEq Layer] in
theorem mem_reachableLayerKeys {graph : LayerGraph Layer} (ready : graph.ready = true)
    {layerKey : LayerKey} : layerKey ∈ graph.reachableLayerKeys ↔ graph.Reached layerKey := by
  unfold reachableLayerKeys
  rw [if_pos ready]
  exact Worklist.mem_search_iff graph.childKeys_pays graph.rootLayerKey (Nat.le_refl _)

omit [DecidableEq Layer] in
theorem childKeys_eq_nil {graph : LayerGraph Layer} {layerKey : LayerKey}
    (missing : layerKey ∉ graph.states) : graph.childKeys layerKey = [] := by
  unfold childKeys
  rw [AList.lookup_eq_none.2 missing]
  rfl

omit [DecidableEq Layer] in
theorem mem_childKeys {graph : LayerGraph Layer} {layerKey child : LayerKey} :
    child ∈ graph.childKeys layerKey ↔
      ∃ entries, graph.states.lookup layerKey = some entries ∧
        ∃ entry ∈ entries, entry.layerKey = some child := by
  unfold childKeys
  cases graph.states.lookup layerKey with
  | none => simp
  | some entries => simp

/-! ### Binding keys -/

/-- Everything but the four key maps is the same. -/
structure SameTopology (before after : LayerGraph Layer) : Prop where
  authoritative : after.authoritative = before.authoritative
  rootLayer : after.rootLayer = before.rootLayer
  generation : after.generation = before.generation
  revision : after.revision = before.revision
  ready : after.ready = before.ready
  rootLayerKey : after.rootLayerKey = before.rootLayerKey
  states : after.states = before.states
  parentRevisions : after.parentRevisions = before.parentRevisions
  authored : after.authored = before.authored
  nextKey : after.nextKey = before.nextKey
  nextGeneration : after.nextGeneration = before.nextGeneration

omit [DecidableEq Layer] in
theorem SameTopology.refl (graph : LayerGraph Layer) : SameTopology graph graph :=
  ⟨rfl, rfl, rfl, rfl, rfl, rfl, rfl, rfl, rfl, rfl, rfl⟩

omit [DecidableEq Layer] in
theorem SameTopology.trans {first second third : LayerGraph Layer}
    (one : SameTopology first second) (two : SameTopology second third) :
    SameTopology first third where
  authoritative := two.authoritative.trans one.authoritative
  rootLayer := two.rootLayer.trans one.rootLayer
  generation := two.generation.trans one.generation
  revision := two.revision.trans one.revision
  ready := two.ready.trans one.ready
  rootLayerKey := two.rootLayerKey.trans one.rootLayerKey
  states := two.states.trans one.states
  parentRevisions := two.parentRevisions.trans one.parentRevisions
  authored := two.authored.trans one.authored
  nextKey := two.nextKey.trans one.nextKey
  nextGeneration := two.nextGeneration.trans one.nextGeneration

/-- The key maps of the first graph are part of those of the second. -/
structure RoutesWithin (small large : LayerGraph Layer) : Prop where
  layers : ∀ {layerKey layer}, small.layers layerKey = some layer →
    large.layers layerKey = some layer
  keys : ∀ {layerKey layer}, small.keysByIdentifier layer = some layerKey →
    large.keysByIdentifier layer = some layerKey
  identityKeys : ∀ {layerKey layer}, small.identityKeysByIdentifier layer = some layerKey →
    large.identityKeysByIdentifier layer = some layerKey
  identityIdentifiers : ∀ {layerKey layer},
    small.identityIdentifiersByKey layerKey = some layer →
      large.identityIdentifiersByKey layerKey = some layer

omit [DecidableEq Layer] in
theorem RoutesWithin.refl (graph : LayerGraph Layer) : RoutesWithin graph graph :=
  ⟨fun same => same, fun same => same, fun same => same, fun same => same⟩

omit [DecidableEq Layer] in
theorem RoutesWithin.trans {first second third : LayerGraph Layer}
    (one : RoutesWithin first second) (two : RoutesWithin second third) :
    RoutesWithin first third :=
  ⟨fun same => two.layers (one.layers same), fun same => two.keys (one.keys same),
    fun same => two.identityKeys (one.identityKeys same),
    fun same => two.identityIdentifiers (one.identityIdentifiers same)⟩

/-- Keys and layers are in one-to-one correspondence, and every key was drawn from the supply. -/
structure Routed (graph : LayerGraph Layer) : Prop where
  layers_iff : ∀ layerKey layer,
    graph.layers layerKey = some layer ↔ graph.keysByIdentifier layer = some layerKey
  identity_iff : ∀ layerKey layer, graph.identityIdentifiersByKey layerKey = some layer ↔
    graph.identityKeysByIdentifier layer = some layerKey
  remembered : ∀ {layerKey layer}, graph.layers layerKey = some layer →
    graph.identityIdentifiersByKey layerKey = some layer
  drawn : ∀ {layerKey layer}, graph.identityIdentifiersByKey layerKey = some layer →
    0 < layerKey ∧ layerKey < graph.nextKey

/-- The maps after a successful binding, and the absence of conflicts it checked. -/
theorem bindKey_cases {graph after : LayerGraph Layer} {layerKey : LayerKey} {layer : Layer}
    (bound : graph.bindKey layerKey layer = some after) :
    (∀ other, graph.identityKeysByIdentifier layer = some other → other = layerKey) ∧
    (∀ other, graph.identityIdentifiersByKey layerKey = some other → other = layer) ∧
    (∀ other, graph.layers layerKey = some other → other = layer) ∧
    (∀ other, graph.keysByIdentifier layer = some other → other = layerKey) ∧
    after = graph.routeKey layerKey layer := by
  unfold bindKey at bound
  split at bound
  · exact absurd bound (by simp)
  · next first =>
      split at bound
      · exact absurd bound (by simp)
      · next second =>
          split at bound
          · exact absurd bound (by simp)
          · next third =>
              split at bound
              · exact absurd bound (by simp)
              · next fourth =>
                  refine ⟨?_, ?_, ?_, ?_, (Option.some.inj bound).symm⟩
                  · intro other same
                    simpa [same] using first
                  · intro other same
                    simpa [same] using second
                  · intro other same
                    simpa [same] using third
                  · intro other same
                    simpa [same] using fourth

theorem bindKey_within {graph after : LayerGraph Layer} {layerKey : LayerKey} {layer : Layer}
    (bound : graph.bindKey layerKey layer = some after) :
    RoutesWithin graph after ∧ after.layers layerKey = some layer ∧ SameTopology graph after := by
  obtain ⟨identityKey, identityLayer, routedLayer, routedKey, rfl⟩ := bindKey_cases bound
  refine ⟨⟨Dict.within_update routedLayer, Dict.within_update routedKey,
    Dict.within_update identityKey, Dict.within_update identityLayer⟩, by simp [routeKey],
    ⟨rfl, rfl, rfl, rfl, rfl, rfl, rfl, rfl, rfl, rfl, rfl⟩⟩

theorem bindKey_routed {graph after : LayerGraph Layer} {layerKey : LayerKey} {layer : Layer}
    (bound : graph.bindKey layerKey layer = some after) (routed : graph.Routed)
    (drawn : 0 < layerKey ∧ layerKey < graph.nextKey) : after.Routed := by
  obtain ⟨identityKey, identityLayer, routedLayer, routedKey, rfl⟩ := bindKey_cases bound
  refine ⟨Dict.update_inverse routed.layers_iff routedLayer routedKey,
    Dict.update_inverse routed.identity_iff identityLayer identityKey, ?_, ?_⟩
  · intro otherKey other same
    by_cases sameKey : otherKey = layerKey
    · subst sameKey
      simpa [routeKey] using same
    · have old : graph.layers otherKey = some other := by simpa [routeKey, sameKey] using same
      simpa [routeKey, sameKey] using routed.remembered old
  · intro otherKey other same
    by_cases sameKey : otherKey = layerKey
    · rw [sameKey]
      exact drawn
    · have old : graph.identityIdentifiersByKey otherKey = some other := by
        simpa [routeKey, sameKey] using same
      exact routed.drawn old

theorem bindKeys_within {mappings : List (Layer × LayerKey)} {graph after : LayerGraph Layer}
    (bound : graph.bindKeys mappings = some after) :
    RoutesWithin graph after ∧ SameTopology graph after ∧
      ∀ mapping ∈ mappings, after.layers mapping.2 = some mapping.1 := by
  induction mappings generalizing graph with
  | nil =>
      obtain rfl := Option.some.inj bound
      exact ⟨RoutesWithin.refl _, SameTopology.refl _, fun _ member => nomatch member⟩
  | cons mapping rest ih =>
      obtain ⟨layer, layerKey⟩ := mapping
      rw [bindKeys, Option.bind_eq_bind, Option.bind_eq_some_iff] at bound
      obtain ⟨middle, first, later⟩ := bound
      obtain ⟨within, here, same⟩ := bindKey_within first
      obtain ⟨laterWithin, laterSame, there⟩ := ih later
      refine ⟨within.trans laterWithin, same.trans laterSame, ?_⟩
      intro other member
      rcases List.mem_cons.1 member with rfl | old
      · exact laterWithin.layers here
      · exact there other old

/-- A layer is routed afterwards only if it was before or is bound now. -/
theorem bindKeys_keys {mappings : List (Layer × LayerKey)} {graph after : LayerGraph Layer}
    (bound : graph.bindKeys mappings = some after) {layer : Layer}
    (routed : (after.keysByIdentifier layer).isSome) :
    (graph.keysByIdentifier layer).isSome ∨ ∃ mapping ∈ mappings, mapping.1 = layer := by
  induction mappings generalizing graph with
  | nil =>
      obtain rfl := Option.some.inj bound
      exact Or.inl routed
  | cons mapping rest ih =>
      obtain ⟨first, layerKey⟩ := mapping
      rw [bindKeys, Option.bind_eq_bind, Option.bind_eq_some_iff] at bound
      obtain ⟨middle, here, later⟩ := bound
      rcases ih later with old | ⟨other, member, same⟩
      · obtain ⟨_, _, _, _, rfl⟩ := bindKey_cases here
        by_cases same : layer = first
        · exact Or.inr ⟨(first, layerKey), List.mem_cons_self, same.symm⟩
        · exact Or.inl (by simpa [routeKey, same] using old)
      · exact Or.inr ⟨other, List.mem_cons_of_mem _ member, same⟩

theorem bindKeys_routed {mappings : List (Layer × LayerKey)} {graph after : LayerGraph Layer}
    (bound : graph.bindKeys mappings = some after) (routed : graph.Routed)
    (drawn : ∀ mapping ∈ mappings, 0 < mapping.2 ∧ mapping.2 < graph.nextKey) :
    after.Routed := by
  induction mappings generalizing graph with
  | nil =>
      obtain rfl := Option.some.inj bound
      exact routed
  | cons mapping rest ih =>
      obtain ⟨layer, layerKey⟩ := mapping
      rw [bindKeys, Option.bind_eq_bind, Option.bind_eq_some_iff] at bound
      obtain ⟨middle, first, later⟩ := bound
      obtain ⟨_, _, same⟩ := bindKey_within first
      refine ih later (bindKey_routed first routed (drawn _ List.mem_cons_self)) ?_
      intro other member
      rw [same.nextKey]
      exact drawn other (List.mem_cons_of_mem _ member)

/-- A replica whose maps are part of the server's can bind every pair the server routes. -/
theorem bindKey_of_within {server replica : LayerGraph Layer} (routed : server.Routed)
    (within : RoutesWithin replica server) {layerKey : LayerKey} {layer : Layer}
    (known : server.layers layerKey = some layer) :
    ∃ after, replica.bindKey layerKey layer = some after ∧ RoutesWithin after server := by
  have identity := routed.remembered known
  have sameKey : ∀ other, replica.identityKeysByIdentifier layer = some other →
      other = layerKey := by
    intro other same
    have there := within.identityKeys same
    rw [(routed.identity_iff _ _).1 identity] at there
    exact (Option.some.inj there).symm
  have sameLayer : ∀ other, replica.identityIdentifiersByKey layerKey = some other →
      other = layer := by
    intro other same
    have there := within.identityIdentifiers same
    rw [identity] at there
    exact (Option.some.inj there).symm
  have routedLayer : ∀ other, replica.layers layerKey = some other → other = layer := by
    intro other same
    have there := within.layers same
    rw [known] at there
    exact (Option.some.inj there).symm
  have routedKey : ∀ other, replica.keysByIdentifier layer = some other → other = layerKey := by
    intro other same
    have there := within.keys same
    rw [(routed.layers_iff _ _).1 known] at there
    exact (Option.some.inj there).symm
  have noConflict : ∀ {β : Type} [DecidableEq β] {value : Option β} {expected : β},
      (∀ other, value = some other → other = expected) →
        ¬ (value.any (· ≠ expected) = true) := by
    intro β _ value expected only
    cases value with
    | none => simp
    | some other => simp [only other rfl]
  refine ⟨replica.routeKey layerKey layer, ?_,
    ⟨Dict.update_within _ server.layers (fun _ _ => within.layers) known,
      Dict.update_within _ server.keysByIdentifier (fun _ _ => within.keys)
        ((routed.layers_iff _ _).1 known),
      Dict.update_within _ server.identityKeysByIdentifier (fun _ _ => within.identityKeys)
        ((routed.identity_iff _ _).1 identity),
      Dict.update_within _ server.identityIdentifiersByKey (fun _ _ => within.identityIdentifiers)
        identity⟩⟩
  unfold bindKey
  rw [if_neg (noConflict sameKey), if_neg (noConflict sameLayer), if_neg (noConflict routedLayer),
    if_neg (noConflict routedKey)]

theorem bindKeys_of_within {server : LayerGraph Layer} (routed : server.Routed)
    (mappings : List (Layer × LayerKey)) {replica : LayerGraph Layer}
    (within : RoutesWithin replica server)
    (known : ∀ mapping ∈ mappings, server.layers mapping.2 = some mapping.1) :
    ∃ after, replica.bindKeys mappings = some after ∧ RoutesWithin after server := by
  induction mappings generalizing replica with
  | nil => exact ⟨replica, rfl, within⟩
  | cons mapping rest ih =>
      obtain ⟨layer, layerKey⟩ := mapping
      obtain ⟨middle, first, middleWithin⟩ :=
        bindKey_of_within routed within (known _ List.mem_cons_self)
      obtain ⟨after, later, afterWithin⟩ :=
        ih middleWithin fun other member => known other (List.mem_cons_of_mem _ member)
      exact ⟨after, by rw [bindKeys, first]; exact later, afterWithin⟩

/-! ### Authored entries and resolution -/

theorem normalize_eq_some {portable : String → Bool} {entries normalized : List SublayerEntry} :
    normalizeSublayerEntries portable entries = some normalized ↔
      validSublayerEntries portable [] entries = true ∧ normalized = entries := by
  unfold normalizeSublayerEntries
  split
  · next valid => simp [valid, eq_comm]
  · next invalid => simp [invalid]

theorem valid_of_withoutKey {portable : String → Bool} {first second : List SublayerEntry}
    (same : first.map SublayerEntry.withoutKey = second.map SublayerEntry.withoutKey)
    (seen : List String) (valid : validSublayerEntries portable seen second = true) :
    validSublayerEntries portable seen first = true := by
  induction first generalizing second seen with
  | nil => rfl
  | cons entry rest ih =>
      cases second with
      | nil => exact absurd same (by simp)
      | cons other others =>
          obtain ⟨head, tail⟩ := List.cons.inj same
          have path : entry.authoredPath = other.authoredPath := congrArg (·.authoredPath) head
          have offset : entry.offset = other.offset := congrArg (·.offset) head
          have scale : entry.scale = other.scale := congrArg (·.scale) head
          simp only [validSublayerEntries, Bool.and_eq_true, path, offset, scale] at valid ⊢
          exact ⟨valid.1, ih tail _ valid.2⟩

omit [DecidableEq Layer] in
theorem resolve_eq_some {paths : AssetPaths Layer} {openable : Layer → Bool}
    {graph : LayerGraph Layer} {parent child : Layer} {authoredPath : String} :
    graph.resolve paths openable parent authoredPath = some child ↔
      child = paths.target parent authoredPath ∧
        ((graph.keysByIdentifier child).isSome ∨ openable child = true) := by
  unfold resolve
  by_cases found : (graph.keysByIdentifier (paths.target parent authoredPath)).isSome ∨
      openable (paths.target parent authoredPath) = true
  · simp only [Bool.or_eq_true, found, if_true, Option.some.injEq]
    constructor
    · rintro rfl
      exact ⟨rfl, found⟩
    · rintro ⟨rfl, _⟩
      rfl
  · simp only [Bool.or_eq_true, found, if_false, reduceCtorEq, false_iff, not_and]
    rintro rfl
    exact found

/-! ### Canonical entries -/

/-- The mappings that keyed entries of one parent establish. -/
def keyedChildren (paths : AssetPaths Layer) (parent : Layer) (entries : List SublayerEntry) :
    List (Layer × LayerKey) :=
  entries.filterMap fun entry =>
    entry.layerKey.map fun layerKey => (paths.target parent entry.authoredPath, layerKey)

omit [DecidableEq Layer] in
theorem mem_keyedChildren {paths : AssetPaths Layer} {parent : Layer}
    {entries : List SublayerEntry} {mapping : Layer × LayerKey} :
    mapping ∈ keyedChildren paths parent entries ↔
      ∃ entry ∈ entries, entry.layerKey = some mapping.2 ∧
        paths.target parent entry.authoredPath = mapping.1 := by
  simp only [keyedChildren, List.mem_filterMap, Option.map_eq_some_iff]
  constructor
  · rintro ⟨entry, member, layerKey, same, rfl⟩
    exact ⟨entry, member, same, rfl⟩
  · rintro ⟨entry, member, same, target⟩
    exact ⟨entry, member, mapping.2, same, by rw [target]⟩

/-- What canonicalization returns for a list of entries. -/
structure Canonicalized (paths : AssetPaths Layer) (openable : Layer → Bool)
    (graph : LayerGraph Layer) (parent : Layer) (entries : List SublayerEntry) (nextKey : Nat)
    (canonical : Canonical Layer) : Prop where
  withoutKeys : canonical.sublayers.map SublayerEntry.withoutKey =
    entries.map SublayerEntry.withoutKey
  mappings : canonical.mappings = keyedChildren paths parent canonical.sublayers
  supply : nextKey ≤ canonical.nextKey
  drawn : ∀ mapping ∈ canonical.mappings, 0 < mapping.2 ∧ mapping.2 < canonical.nextKey
  resolved : ∀ mapping ∈ canonical.mappings,
    (graph.keysByIdentifier mapping.1).isSome ∨ openable mapping.1 = true
  routed : ∀ entry ∈ entries, ∀ layerKey,
    graph.keysByIdentifier (paths.target parent entry.authoredPath) = some layerKey →
      ∃ other ∈ canonical.sublayers, other.layerKey = some layerKey

/-- A key the loop knows already was drawn before. -/
theorem knownKey_drawn {graph : LayerGraph Layer} (routed : graph.Routed)
    {pending : List (Layer × LayerKey)} {nextKey : Nat} (supply : graph.nextKey ≤ nextKey)
    (drawn : ∀ entry ∈ pending, 0 < entry.2 ∧ entry.2 < nextKey) {child : Layer}
    {layerKey : LayerKey} (known : graph.knownKey pending child = some layerKey) :
    0 < layerKey ∧ layerKey < nextKey := by
  unfold knownKey at known
  split at known
  · next routedKey found =>
      obtain rfl := Option.some.inj known
      have bound := routed.drawn (routed.remembered ((routed.layers_iff _ _).2 found))
      exact ⟨bound.1, Nat.lt_of_lt_of_le bound.2 supply⟩
  · split at known
    · next pendingKey found =>
        obtain rfl := Option.some.inj known
        obtain ⟨entry, chosen, rfl⟩ := Option.map_eq_some_iff.1 found
        exact drawn entry (List.mem_of_find?_eq_some chosen)
    · have bound := routed.drawn ((routed.identity_iff _ _).2 known)
      exact ⟨bound.1, Nat.lt_of_lt_of_le bound.2 supply⟩

theorem knownKey_routed {graph : LayerGraph Layer} {pending : List (Layer × LayerKey)}
    {child : Layer} {layerKey : LayerKey} (found : graph.keysByIdentifier child = some layerKey) :
    graph.knownKey pending child = some layerKey := by
  simp [knownKey, found]

omit [DecidableEq Layer] in
/-- One more entry in front, with the key the loop gave it. -/
theorem Canonicalized.cons {paths : AssetPaths Layer} {openable : Layer → Bool}
    {graph : LayerGraph Layer} {parent : Layer} {entry : SublayerEntry}
    {rest : List SublayerEntry} {nextKey laterKey : Nat} {canonical : Canonical Layer}
    (later : Canonicalized paths openable graph parent rest laterKey canonical)
    (supply : nextKey ≤ laterKey) (given : Option LayerKey)
    (drawn : ∀ layerKey, given = some layerKey → 0 < layerKey ∧ layerKey < laterKey)
    (resolved : ∀ layerKey, given = some layerKey →
      (graph.keysByIdentifier (paths.target parent entry.authoredPath)).isSome ∨
        openable (paths.target parent entry.authoredPath) = true)
    (routed : ∀ layerKey,
      graph.keysByIdentifier (paths.target parent entry.authoredPath) = some layerKey →
        given = some layerKey) :
    Canonicalized paths openable graph parent (entry :: rest) nextKey
      { canonical with
        sublayers := { entry with layerKey := given } :: canonical.sublayers
        mappings := (given.map fun layerKey =>
          (paths.target parent entry.authoredPath, layerKey)).toList ++ canonical.mappings } := by
  refine ⟨?_, ?_, supply.trans later.supply, ?_, ?_, ?_⟩
  · simp only [List.map_cons, later.withoutKeys]
    rfl
  · simp only [keyedChildren, List.filterMap_cons, later.mappings]
    cases given with
    | none => rfl
    | some layerKey => rfl
  · intro mapping member
    rcases List.mem_append.1 member with here | there
    · cases given with
      | none => exact nomatch here
      | some layerKey =>
          rw [List.mem_singleton.1 here]
          have bound := drawn layerKey rfl
          exact ⟨bound.1, Nat.lt_of_lt_of_le bound.2 later.supply⟩
    · exact later.drawn mapping there
  · intro mapping member
    rcases List.mem_append.1 member with here | there
    · cases given with
      | none => exact nomatch here
      | some layerKey =>
          rw [List.mem_singleton.1 here]
          exact resolved layerKey rfl
    · exact later.resolved mapping there
  · intro other member layerKey found
    rcases List.mem_cons.1 member with rfl | old
    · exact ⟨_, List.mem_cons_self, routed layerKey found⟩
    · obtain ⟨keyed, present, same⟩ := later.routed other old layerKey found
      exact ⟨keyed, List.mem_cons_of_mem _ present, same⟩

theorem canonicalizeEntries_canonicalized {paths : AssetPaths Layer} {openable : Layer → Bool}
    {graph : LayerGraph Layer} (routed : graph.Routed) {parent : Layer}
    (entries : List SublayerEntry) {pending : List (Layer × LayerKey)} {nextKey : Nat}
    (supply : graph.nextKey ≤ nextKey) (positive : 0 < nextKey)
    (drawn : ∀ entry ∈ pending, 0 < entry.2 ∧ entry.2 < nextKey) {canonical : Canonical Layer}
    (succeeded : graph.canonicalizeEntries paths openable parent entries pending nextKey =
      some canonical) :
    Canonicalized paths openable graph parent entries nextKey canonical := by
  induction entries generalizing pending nextKey canonical with
  | nil =>
      obtain rfl := Option.some.inj succeeded
      exact ⟨rfl, rfl, Nat.le_refl _, fun _ member => (nomatch member),
        fun _ member => (nomatch member), fun _ member => (nomatch member)⟩
  | cons entry rest ih =>
      unfold canonicalizeEntries at succeeded
      cases found : graph.resolve paths openable parent entry.authoredPath with
      | none =>
          rw [found] at succeeded
          simp only [Option.bind_eq_bind, Option.bind_eq_some_iff] at succeeded
          obtain ⟨later, tail, same⟩ := succeeded
          obtain rfl := Option.some.inj same
          refine (ih supply positive drawn tail).cons (Nat.le_refl _) none
            (fun _ given => nomatch given) (fun _ given => nomatch given) ?_
          intro layerKey routedKey
          have missing := resolve_eq_some.not.1 (by rw [found]; simp :
            graph.resolve paths openable parent entry.authoredPath ≠
              some (paths.target parent entry.authoredPath))
          exact absurd ⟨rfl, Or.inl (by rw [routedKey]; rfl)⟩ missing
      | some child =>
          obtain ⟨rfl, reason⟩ := resolve_eq_some.1 found
          rw [found] at succeeded
          simp only at succeeded
          cases known : graph.knownKey pending (paths.target parent entry.authoredPath) with
          | some layerKey =>
              rw [known] at succeeded
              simp only at succeeded
              split at succeeded
              · exact absurd succeeded (by simp)
              · simp only [Option.bind_eq_bind, Option.bind_eq_some_iff] at succeeded
                obtain ⟨later, tail, same⟩ := succeeded
                obtain rfl := Option.some.inj same
                refine (ih supply positive drawn tail).cons (Nat.le_refl _) (some layerKey)
                  ?_ (fun _ _ => reason) ?_
                · intro other given
                  obtain rfl := Option.some.inj given
                  exact knownKey_drawn routed supply drawn known
                · intro other routedKey
                  rw [← known, knownKey_routed routedKey]
          | none =>
              rw [known] at succeeded
              simp only [Option.bind_eq_bind, Option.bind_eq_some_iff] at succeeded
              obtain ⟨later, tail, same⟩ := succeeded
              obtain rfl := Option.some.inj same
              have drawnMore : ∀ other ∈
                  (paths.target parent entry.authoredPath, nextKey) :: pending,
                  0 < other.2 ∧ other.2 < nextKey + 1 := by
                intro other member
                rcases List.mem_cons.1 member with rfl | old
                · exact ⟨positive, Nat.lt_succ_self _⟩
                · exact ⟨(drawn other old).1, Nat.lt_succ_of_lt (drawn other old).2⟩
              refine (ih (Nat.le_succ_of_le supply) (Nat.succ_pos _) drawnMore tail).cons
                (Nat.le_succ _) (some nextKey) ?_ (fun _ _ => reason) ?_
              · intro other given
                obtain rfl := Option.some.inj given
                exact ⟨positive, Nat.lt_succ_self _⟩
              · intro other routedKey
                rw [knownKey_routed routedKey] at known
                exact absurd known (by simp)

/-! ### Accepting a topology event -/

/-- What holds of the authoritative graph while it works on one operation. -/
structure Grounded (paths : AssetPaths Layer) (graph : LayerGraph Layer) : Prop where
  routed : graph.Routed
  ready : graph.ready = true
  rootKey : graph.layers graph.rootLayerKey = some graph.rootLayer
  stateLayer : ∀ layerKey ∈ graph.states, ∃ layer, graph.layers layerKey = some layer
  entryLayer : ∀ {parentKey entries parent}, graph.states.lookup parentKey = some entries →
    graph.layers parentKey = some parent → ∀ entry ∈ entries, ∀ layerKey,
      entry.layerKey = some layerKey →
        graph.layers layerKey = some (paths.target parent entry.authoredPath)
  valid : ∀ {parentKey entries}, graph.states.lookup parentKey = some entries →
    validSublayerEntries paths.portable [] entries = true
  revisions : ∀ {layerKey revision}, graph.parentRevisions layerKey = some revision →
    layerKey ∈ graph.states ∧ 1 ≤ revision
  generation : 0 < graph.generation ∧ graph.generation < graph.nextGeneration
  revision : 0 < graph.revision
  nextKey : 0 < graph.nextKey
  authored : ∀ {parentKey entries parent}, graph.states.lookup parentKey = some entries →
    graph.layers parentKey = some parent →
      graph.readSublayerEntries parent = entries.map SublayerEntry.withoutKey

/-- The authoritative graph took one canonical event of a reached parent. -/
structure AcceptStep (paths : AssetPaths Layer) (openable : Layer → Bool)
    (graph : LayerGraph Layer) (parentKey : LayerKey) (event : TopologyEvent)
    (after : LayerGraph Layer) : Prop where
  grounded : after.Grounded paths
  within : RoutesWithin graph after
  reached : graph.Reached parentKey
  eventGeneration : event.generation = graph.generation
  eventRevision : event.revision = graph.parentRevision parentKey + 1
  valid : validSublayerEntries paths.portable [] event.sublayers = true
  states : after.states = graph.states.insert parentKey event.sublayers
  parentRevisions : after.parentRevisions =
    Function.update graph.parentRevisions parentKey (some event.revision)
  generation : after.generation = graph.generation
  rootLayerKey : after.rootLayerKey = graph.rootLayerKey
  rootLayer : after.rootLayer = graph.rootLayer
  opened : ∀ layer, (after.keysByIdentifier layer).isSome →
    (graph.keysByIdentifier layer).isSome ∨ openable layer = true
  authored : ∀ layer, graph.layers parentKey ≠ some layer →
    after.authored layer = graph.authored layer
  resolved : ∀ {parent}, graph.layers parentKey = some parent → ∀ entry ∈ event.sublayers,
    ∀ layerKey, entry.layerKey = some layerKey →
      graph.resolve paths openable parent entry.authoredPath =
        some (paths.target parent entry.authoredPath)

omit [DecidableEq Layer] in
/-- A larger key supply. -/
theorem Routed.withNextKey {graph : LayerGraph Layer} (routed : graph.Routed) {nextKey : Nat}
    (supply : graph.nextKey ≤ nextKey) (authored : Layer → List SublayerEntry) :
    ({ graph with nextKey := nextKey, authored := authored } : LayerGraph Layer).Routed :=
  ⟨routed.layers_iff, routed.identity_iff, routed.remembered, fun found =>
    ⟨(routed.drawn found).1, Nat.lt_of_lt_of_le (routed.drawn found).2 supply⟩⟩

/-- What a successful canonicalization checked and returned. -/
theorem canonicalizeSublayers_cases {paths : AssetPaths Layer} {openable : Layer → Bool}
    {graph keyed : LayerGraph Layer} {parentKey : LayerKey} {event : TopologyEvent}
    {prepared : PreparedSublayers Layer}
    (succeeded : graph.canonicalizeSublayers paths openable parentKey event =
      some (prepared, keyed)) :
    ∃ parent canonical, graph.authoritative = true ∧ graph.layers parentKey = some parent ∧
      parentKey ∈ graph.reachableLayerKeys ∧
      validSublayerEntries paths.portable [] event.sublayers = true ∧
      graph.canonicalizeEntries paths openable parent event.sublayers [] graph.nextKey =
        some canonical ∧
      prepared = ⟨parentKey, ⟨graph.generation, graph.parentRevision parentKey + 1,
        canonical.sublayers⟩, canonical.mappings⟩ ∧
      keyed = { graph with nextKey := canonical.nextKey } := by
  simp only [canonicalizeSublayers, Option.bind_eq_bind, Option.bind_eq_some_iff, require_eq_some,
    normalize_eq_some] at succeeded
  obtain ⟨_, authoritative, _, _, parent, routedParent, _, reachable, _, _, _, ⟨valid, rfl⟩,
    canonical, keyedEntries, same⟩ := succeeded
  obtain ⟨rfl, rfl⟩ := Prod.mk.inj (Option.some.inj same)
  exact ⟨parent, canonical, authoritative, routedParent, reachable, valid, keyedEntries, rfl, rfl⟩

/-- What a successful acceptance checked and returned. -/
theorem acceptSublayers_cases {paths : AssetPaths Layer} {graph after : LayerGraph Layer}
    {prepared : PreparedSublayers Layer}
    (succeeded : graph.acceptSublayers paths prepared = some after) :
    ∃ bound, prepared.event.generation = graph.generation ∧
      prepared.event.revision = graph.parentRevision prepared.parentKey + 1 ∧
      graph.bindKeys prepared.mappings = some bound ∧
      validSublayerEntries paths.portable [] prepared.event.sublayers = true ∧
      after = { bound with
        states := bound.states.insert prepared.parentKey prepared.event.sublayers
        parentRevisions := Function.update bound.parentRevisions prepared.parentKey
          (some prepared.event.revision)
        revision := bound.revision + 1 } := by
  simp only [acceptSublayers, Option.bind_eq_bind, Option.bind_eq_some_iff, require_eq_some,
    normalize_eq_some] at succeeded
  obtain ⟨_, generation, _, revision, bound, mapped, _, ⟨valid, rfl⟩, same⟩ := succeeded
  refine ⟨bound, generation, revision, mapped, valid, ?_⟩
  rw [revision]
  exact (Option.some.inj same).symm

/-- Canonicalizing and accepting one event is one step of the authoritative graph.  In between the
parent layer may receive the new list. -/
theorem acceptStep_of_accepted {paths : AssetPaths Layer} {openable : Layer → Bool}
    {graph keyed after : LayerGraph Layer} {parentKey : LayerKey} {event : TopologyEvent}
    {prepared : PreparedSublayers Layer} (grounded : graph.Grounded paths)
    (canonicalized : graph.canonicalizeSublayers paths openable parentKey event =
      some (prepared, keyed))
    {authored : Layer → List SublayerEntry}
    (frame : ∀ layer, graph.layers parentKey ≠ some layer → authored layer = graph.authored layer)
    (content : ∀ parent, graph.layers parentKey = some parent →
      (authored parent).map SublayerEntry.withoutKey =
        prepared.event.sublayers.map SublayerEntry.withoutKey)
    (accepted : ({ keyed with authored := authored } : LayerGraph Layer).acceptSublayers paths
      prepared = some after) :
    AcceptStep paths openable graph parentKey prepared.event after := by
  obtain ⟨parent, canonical, _, routedParent, reachable, _, keyedEntries, rfl, rfl⟩ :=
    canonicalizeSublayers_cases canonicalized
  obtain ⟨bound, _, _, mapped, valid, rfl⟩ := acceptSublayers_cases accepted
  have made := canonicalizeEntries_canonicalized grounded.routed event.sublayers (Nat.le_refl _)
    grounded.nextKey (by simp) keyedEntries
  obtain ⟨within, same, there⟩ := bindKeys_within mapped
  have widened : RoutesWithin graph bound :=
    ⟨within.layers, within.keys, within.identityKeys, within.identityIdentifiers⟩
  have boundRouted : bound.Routed :=
    bindKeys_routed mapped (grounded.routed.withNextKey made.supply authored) made.drawn
  have boundParent : bound.layers parentKey = some parent := widened.layers routedParent
  have boundChild : ∀ entry ∈ canonical.sublayers, ∀ layerKey, entry.layerKey = some layerKey →
      bound.layers layerKey = some (paths.target parent entry.authoredPath) := by
    intro entry member layerKey keyed
    refine there (paths.target parent entry.authoredPath, layerKey) ?_
    rw [made.mappings]
    exact mem_keyedChildren.2 ⟨entry, member, keyed, rfl⟩
  have states : bound.states = graph.states := same.states
  refine
    { grounded := ?_
      within := ⟨widened.layers, widened.keys, widened.identityKeys, widened.identityIdentifiers⟩
      reached := (mem_reachableLayerKeys grounded.ready).1 reachable
      eventGeneration := rfl
      eventRevision := rfl
      valid := valid
      states := by rw [states]
      parentRevisions := by rw [same.parentRevisions]
      generation := same.generation
      rootLayerKey := same.rootLayerKey
      rootLayer := same.rootLayer
      opened := ?_
      authored := ?_
      resolved := ?_ }
  · have after : ∀ otherKey entries, otherKey ≠ parentKey →
        (graph.states.insert parentKey canonical.sublayers).lookup otherKey = some entries →
          graph.states.lookup otherKey = some entries := by
      intro otherKey entries different found
      rwa [AList.lookup_insert_ne different] at found
    -- a parent other than the edited one keeps its layer
    have kept : ∀ otherKey entries other, graph.states.lookup otherKey = some entries →
        bound.layers otherKey = some other → graph.layers otherKey = some other := by
      intro otherKey entries other found routedOther
      obtain ⟨layer, before⟩ := grounded.stateLayer otherKey
        (AList.lookup_isSome.1 (by rw [found]; rfl))
      rw [widened.layers before] at routedOther
      rw [before]
      exact routedOther
    refine
      { routed := ⟨boundRouted.layers_iff, boundRouted.identity_iff, boundRouted.remembered,
          boundRouted.drawn⟩
        ready := same.ready.trans grounded.ready
        rootKey := ?_
        stateLayer := ?_
        entryLayer := ?_
        valid := ?_
        revisions := ?_
        generation := ?_
        revision := ?_
        nextKey := ?_
        authored := ?_ }
    · show bound.layers bound.rootLayerKey = some bound.rootLayer
      rw [same.rootLayerKey, same.rootLayer]
      exact widened.layers grounded.rootKey
    · intro layerKey member
      rcases (AList.mem_insert _).1 member with rfl | old
      · exact ⟨parent, boundParent⟩
      · rw [states] at old
        obtain ⟨layer, before⟩ := grounded.stateLayer layerKey old
        exact ⟨layer, widened.layers before⟩
    · intro otherKey entries other found routedOther entry member layerKey keyed
      by_cases edited : otherKey = parentKey
      · subst edited
        obtain rfl := Option.some.inj ((AList.lookup_insert _).symm.trans found)
        obtain rfl := Option.some.inj (boundParent.symm.trans routedOther)
        exact boundChild entry member layerKey keyed
      · have before := after otherKey entries edited (by rw [← states]; exact found)
        exact widened.layers (grounded.entryLayer before
          (kept otherKey entries other before routedOther) entry member layerKey keyed)
    · intro otherKey entries found
      by_cases edited : otherKey = parentKey
      · subst edited
        obtain rfl := Option.some.inj ((AList.lookup_insert _).symm.trans found)
        exact valid
      · exact grounded.valid (after otherKey entries edited (by rw [← states]; exact found))
    · intro layerKey revision found
      by_cases edited : layerKey = parentKey
      · subst edited
        simp only [Function.update_self, Option.some.injEq] at found
        exact ⟨(AList.mem_insert _).2 (Or.inl rfl), by omega⟩
      · simp only [Function.update_of_ne edited, same.parentRevisions] at found
        obtain ⟨stored, positive⟩ := grounded.revisions found
        rw [← states] at stored
        exact ⟨(AList.mem_insert _).2 (Or.inr stored), positive⟩
    · show 0 < bound.generation ∧ bound.generation < bound.nextGeneration
      rw [same.generation, same.nextGeneration]
      exact grounded.generation
    · show 0 < bound.revision + 1
      rw [same.revision]
      exact Int.add_pos grounded.revision Int.one_pos
    · show 0 < bound.nextKey
      rw [same.nextKey]
      exact Nat.lt_of_lt_of_le grounded.nextKey made.supply
    · intro otherKey entries other found routedOther
      show (bound.authored other).map SublayerEntry.withoutKey = _
      rw [same.authored]
      by_cases edited : otherKey = parentKey
      · subst edited
        obtain rfl := Option.some.inj ((AList.lookup_insert _).symm.trans found)
        obtain rfl := Option.some.inj (boundParent.symm.trans routedOther)
        exact content parent routedParent
      · have before := after otherKey entries edited (by rw [← states]; exact found)
        have routedBefore := kept otherKey entries other before routedOther
        have different : graph.layers parentKey ≠ some other := by
          intro sameLayer
          have first := (grounded.routed.layers_iff _ _).1 sameLayer
          rw [(grounded.routed.layers_iff _ _).1 routedBefore] at first
          exact edited (Option.some.inj first)
        have content := grounded.authored before routedBefore
        unfold readSublayerEntries at content
        show (authored other).map SublayerEntry.withoutKey = _
        rw [frame other different]
        exact content
  · intro layer routed
    rcases bindKeys_keys mapped routed with old | ⟨mapping, member, rfl⟩
    · exact Or.inl old
    · exact made.resolved mapping member
  · intro layer other
    show bound.authored layer = _
    rw [same.authored]
    exact frame layer other
  · intro other routedOther entry member layerKey keyed
    obtain rfl := Option.some.inj (routedParent.symm.trans routedOther)
    refine resolve_eq_some.2 ⟨rfl, made.resolved (_, layerKey) ?_⟩
    rw [made.mappings]
    exact mem_keyedChildren.2 ⟨entry, member, keyed, rfl⟩

/-- What a prepared event says about the submitted one. -/
structure Prepared (paths : AssetPaths Layer) (graph : LayerGraph Layer) (parentKey : LayerKey)
    (parent : Layer) (event : TopologyEvent) (prepared : PreparedSublayers Layer) : Prop where
  routedParent : graph.layers parentKey = some parent
  parentKey : prepared.parentKey = parentKey
  withoutKeys : prepared.event.sublayers.map SublayerEntry.withoutKey =
    event.sublayers.map SublayerEntry.withoutKey
  mappings : prepared.mappings = keyedChildren paths parent prepared.event.sublayers
  routed : ∀ entry ∈ event.sublayers, ∀ layerKey,
    graph.keysByIdentifier (paths.target parent entry.authoredPath) = some layerKey →
      ∃ other ∈ prepared.event.sublayers, other.layerKey = some layerKey

theorem canonicalizeSublayers_prepared {paths : AssetPaths Layer} {openable : Layer → Bool}
    {graph keyed : LayerGraph Layer} {parentKey : LayerKey} {event : TopologyEvent}
    {prepared : PreparedSublayers Layer} (grounded : graph.Grounded paths)
    (canonicalized : graph.canonicalizeSublayers paths openable parentKey event =
      some (prepared, keyed)) :
    ∃ parent, Prepared paths graph parentKey parent event prepared := by
  obtain ⟨parent, canonical, _, routedParent, _, _, keyedEntries, rfl, _⟩ :=
    canonicalizeSublayers_cases canonicalized
  have made := canonicalizeEntries_canonicalized grounded.routed event.sublayers (Nat.le_refl _)
    grounded.nextKey (by simp) keyedEntries
  exact ⟨parent, routedParent, rfl, made.withoutKeys, made.mappings, made.routed⟩

omit [DecidableEq Layer] in
theorem AcceptStep.mapping {paths : AssetPaths Layer} {openable : Layer → Bool}
    {graph after : LayerGraph Layer} {parentKey : LayerKey} {parent : Layer}
    {event : TopologyEvent} (step : AcceptStep paths openable graph parentKey event after)
    (routedParent : graph.layers parentKey = some parent) {mapping : Layer × LayerKey}
    (member : mapping ∈ keyedChildren paths parent event.sublayers) :
    after.layers mapping.2 = some mapping.1 := by
  obtain ⟨entry, present, keyed, target⟩ := mem_keyedChildren.1 member
  have stored : after.states.lookup parentKey = some event.sublayers := by
    rw [step.states, AList.lookup_insert]
  rw [← target]
  exact step.grounded.entryLayer stored (step.within.layers routedParent) entry present _ keyed

end LayerGraph

end UsdConnect
