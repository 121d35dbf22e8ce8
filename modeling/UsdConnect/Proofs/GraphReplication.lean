/-
Purpose: A replica that applies the baseline and every canonical topology event follows the
  authoritative graph, as long as no edit moves a known layer under a newly attached one.
Trusted boundary: none
Main exports: Mirror, SafeEdit, SafeRun, replica_follows
-/
import UsdConnect.Proofs.LayerGraph

namespace UsdConnect

namespace LayerGraph

variable {Layer : Type} [DecidableEq Layer] {paths : AssetPaths Layer}

/-! ### Pruning -/

omit [DecidableEq Layer] in
theorem lookup_prune {graph : LayerGraph Layer} (ready : graph.ready = true)
    {layerKey : LayerKey} (reached : graph.Reached layerKey) :
    graph.pruneUnreachableStates.states.lookup layerKey = graph.states.lookup layerKey ∧
      graph.pruneUnreachableStates.parentRevisions layerKey = graph.parentRevisions layerKey := by
  have kept := (mem_reachableLayerKeys ready).2 reached
  simp [pruneUnreachableStates, Dict.lookup_keepKeys, kept]

omit [DecidableEq Layer] in
theorem lookup_prune_none {graph : LayerGraph Layer} (ready : graph.ready = true)
    {layerKey : LayerKey} (missing : ¬ graph.Reached layerKey) :
    graph.pruneUnreachableStates.states.lookup layerKey = none ∧
      graph.pruneUnreachableStates.parentRevisions layerKey = none := by
  have dropped := (mem_reachableLayerKeys ready).not.2 missing
  simp [pruneUnreachableStates, Dict.lookup_keepKeys, dropped]

omit [DecidableEq Layer] in
/-- Pruning does not change what is reached. -/
theorem reached_prune {graph : LayerGraph Layer} (ready : graph.ready = true)
    {layerKey : LayerKey} :
    graph.pruneUnreachableStates.Reached layerKey ↔ graph.Reached layerKey := by
  refine Worklist.reaches_congr ?_
  intro node reached
  unfold childKeys
  rw [(lookup_prune ready reached).1]

/-! ### The mirror relation -/

/-- The replica holds exactly the reached part of the server's graph. -/
structure Mirror (server replica : LayerGraph Layer) : Prop where
  ready : replica.ready = true
  rootLayer : replica.rootLayer = server.rootLayer
  rootLayerKey : replica.rootLayerKey = server.rootLayerKey
  generation : replica.generation = server.generation
  states : ∀ layerKey, server.Reached layerKey →
    replica.states.lookup layerKey = server.states.lookup layerKey
  revisions : ∀ layerKey, server.Reached layerKey →
    replica.parentRevisions layerKey = server.parentRevisions layerKey
  noStates : ∀ layerKey, ¬ server.Reached layerKey → replica.states.lookup layerKey = none
  noRevisions : ∀ layerKey, ¬ server.Reached layerKey → replica.parentRevisions layerKey = none
  within : RoutesWithin replica server

omit [DecidableEq Layer] in
theorem Mirror.reached_iff {server replica : LayerGraph Layer} (mirror : Mirror server replica)
    {layerKey : LayerKey} : replica.Reached layerKey ↔ server.Reached layerKey := by
  unfold Reached
  rw [mirror.rootLayerKey]
  refine Worklist.reaches_congr ?_
  intro node reached
  unfold childKeys
  rw [mirror.states node reached]

omit [DecidableEq Layer] in
theorem Mirror.prune {server replica : LayerGraph Layer} (mirror : Mirror server replica)
    (ready : server.ready = true) : Mirror server.pruneUnreachableStates replica where
  ready := mirror.ready
  rootLayer := mirror.rootLayer
  rootLayerKey := mirror.rootLayerKey
  generation := mirror.generation
  states := by
    intro layerKey reached
    have before := (reached_prune ready).1 reached
    rw [(lookup_prune ready before).1]
    exact mirror.states layerKey before
  revisions := by
    intro layerKey reached
    have before := (reached_prune ready).1 reached
    rw [(lookup_prune ready before).2]
    exact mirror.revisions layerKey before
  noStates := fun layerKey missing => mirror.noStates layerKey ((reached_prune ready).not.1 missing)
  noRevisions := fun layerKey missing =>
    mirror.noRevisions layerKey ((reached_prune ready).not.1 missing)
  within := ⟨mirror.within.layers, mirror.within.keys, mirror.within.identityKeys,
    mirror.within.identityIdentifiers⟩

/-! ### Applying one canonical event -/

section Apply

variable {openable : Layer → Bool} {graph after replica : LayerGraph Layer}
  {parentKey : LayerKey} {event : TopologyEvent}

omit [DecidableEq Layer] in
theorem AcceptStep.lookup_other (step : AcceptStep paths openable graph parentKey event after)
    {layerKey : LayerKey} (different : layerKey ≠ parentKey) :
    after.states.lookup layerKey = graph.states.lookup layerKey := by
  rw [step.states, AList.lookup_insert_ne different]

omit [DecidableEq Layer] in
theorem AcceptStep.lookup_parent (step : AcceptStep paths openable graph parentKey event after) :
    after.states.lookup parentKey = some event.sublayers := by
  rw [step.states, AList.lookup_insert]

omit [DecidableEq Layer] in
theorem AcceptStep.reached_parent (step : AcceptStep paths openable graph parentKey event after) :
    after.Reached parentKey := by
  have path := step.reached
  unfold Reached at path ⊢
  rw [step.rootLayerKey]
  refine Worklist.reaches_edited ?_ path
  intro node different
  unfold childKeys
  rw [step.lookup_other different]

theorem Mirror.bindChildren (mirror : Mirror graph replica)
    (step : AcceptStep paths openable graph parentKey event after) {parent : Layer}
    (routedParent : replica.layers parentKey = some parent) (replicaOpenable : Layer → Bool)
    (authored : Layer → List SublayerEntry) :
    ∃ bound, ({ replica with authored := authored } : LayerGraph Layer).bindKeys
        (({ replica with authored := authored } : LayerGraph Layer).childMappings paths
          replicaOpenable parent event.sublayers) = some bound ∧ RoutesWithin bound after := by
  refine bindKeys_of_within step.grounded.routed _ ?_ ?_
  · exact ⟨fun same => step.within.layers (mirror.within.layers same),
      fun same => step.within.keys (mirror.within.keys same),
      fun same => step.within.identityKeys (mirror.within.identityKeys same),
      fun same => step.within.identityIdentifiers (mirror.within.identityIdentifiers same)⟩
  · intro mapping member
    obtain ⟨entry, present, chosen⟩ := List.mem_filterMap.1 member
    cases keyed : entry.layerKey with
    | none =>
        rw [keyed] at chosen
        exact absurd chosen (by simp)
    | some childKey =>
        rw [keyed] at chosen
        obtain ⟨child, opened, rfl⟩ := Option.map_eq_some_iff.1 chosen
        obtain ⟨rfl, _⟩ := resolve_eq_some.1 opened
        exact step.grounded.entryLayer step.lookup_parent
          (step.within.layers (mirror.within.layers routedParent)) entry present childKey keyed

omit [DecidableEq Layer] in
/-- Routing state and revision of the replica after it accepted the same event and pruned. -/
theorem Mirror.afterAccept (mirror : Mirror graph replica)
    (step : AcceptStep paths openable graph parentKey event after)
    (grounded : graph.Grounded paths)
    (kept : ∀ layerKey ∈ graph.states, ¬ graph.Reached layerKey → ¬ after.Reached layerKey)
    {bound : LayerGraph Layer} (same : SameTopology replica bound)
    (within : RoutesWithin bound after) (revision : Int) :
    Mirror after ({ bound with
      states := bound.states.insert parentKey event.sublayers
      parentRevisions := Function.update bound.parentRevisions parentKey (some event.revision)
      revision := revision } : LayerGraph Layer).pruneUnreachableStates := by
  set accepted : LayerGraph Layer := { bound with
    states := bound.states.insert parentKey event.sublayers
    parentRevisions := Function.update bound.parentRevisions parentKey (some event.revision)
    revision := revision } with acceptedEq
  have ready : accepted.ready = true := same.ready.trans mirror.ready
  have rootLayerKey : accepted.rootLayerKey = after.rootLayerKey :=
    (same.rootLayerKey.trans mirror.rootLayerKey).trans step.rootLayerKey.symm
  -- a key that is reached only afterwards had no state on either side
  have unstored : ∀ layerKey, after.Reached layerKey → ¬ graph.Reached layerKey →
      layerKey ∉ graph.states := fun layerKey now before stored => kept layerKey stored before now
  have states : ∀ layerKey, after.Reached layerKey →
      accepted.states.lookup layerKey = after.states.lookup layerKey := by
    intro layerKey now
    show (bound.states.insert parentKey event.sublayers).lookup layerKey = _
    by_cases edited : layerKey = parentKey
    · subst edited
      rw [AList.lookup_insert, step.lookup_parent]
    · rw [AList.lookup_insert_ne edited, step.lookup_other edited, same.states]
      by_cases before : graph.Reached layerKey
      · exact mirror.states layerKey before
      · rw [mirror.noStates layerKey before,
          AList.lookup_eq_none.2 (unstored layerKey now before)]
  have revisions : ∀ layerKey, after.Reached layerKey →
      accepted.parentRevisions layerKey = after.parentRevisions layerKey := by
    intro layerKey now
    rw [step.parentRevisions]
    show Function.update bound.parentRevisions parentKey (some event.revision) layerKey = _
    by_cases edited : layerKey = parentKey
    · subst edited
      rw [Function.update_self, Function.update_self]
    · rw [Function.update_of_ne edited, Function.update_of_ne edited, same.parentRevisions]
      by_cases before : graph.Reached layerKey
      · exact mirror.revisions layerKey before
      · rw [mirror.noRevisions layerKey before]
        cases found : graph.parentRevisions layerKey with
        | none => rfl
        | some stored =>
            exact absurd (grounded.revisions found).1 (unstored layerKey now before)
  have reached : ∀ layerKey, accepted.Reached layerKey ↔ after.Reached layerKey := by
    intro layerKey
    unfold Reached
    rw [rootLayerKey]
    refine Worklist.reaches_congr ?_
    intro node now
    unfold childKeys
    rw [states node now]
  refine
    { ready := ready
      rootLayer := (same.rootLayer.trans mirror.rootLayer).trans step.rootLayer.symm
      rootLayerKey := rootLayerKey
      generation := (same.generation.trans mirror.generation).trans step.generation.symm
      states := ?_
      revisions := ?_
      noStates := ?_
      noRevisions := ?_
      within := ⟨within.layers, within.keys, within.identityKeys, within.identityIdentifiers⟩ }
  · intro layerKey now
    rw [(lookup_prune ready ((reached layerKey).2 now)).1]
    exact states layerKey now
  · intro layerKey now
    rw [(lookup_prune ready ((reached layerKey).2 now)).2]
    exact revisions layerKey now
  · intro layerKey missing
    exact (lookup_prune_none ready ((reached layerKey).not.2 missing)).1
  · intro layerKey missing
    exact (lookup_prune_none ready ((reached layerKey).not.2 missing)).2

/-- A mirror takes the event of an authoritative step, unless the step brings back a key that was
stored but not reached. -/
theorem Mirror.applySublayers (mirror : Mirror graph replica)
    (step : AcceptStep paths openable graph parentKey event after)
    (grounded : graph.Grounded paths)
    (kept : ∀ layerKey ∈ graph.states, ¬ graph.Reached layerKey → ¬ after.Reached layerKey)
    (replicaOpenable : Layer → Bool) :
    ∃ result, replica.applySublayers paths replicaOpenable parentKey event = some result ∧
      Mirror after result := by
  have reachable : parentKey ∈ replica.reachableLayerKeys :=
    (mem_reachableLayerKeys mirror.ready).2 (mirror.reached_iff.2 step.reached)
  have generation : event.generation = replica.generation := by
    rw [step.eventGeneration, mirror.generation]
  have revision : event.revision = replica.parentRevision parentKey + 1 := by
    rw [step.eventRevision]
    unfold parentRevision
    rw [mirror.revisions parentKey step.reached]
  -- with a parent layer or without, the children bind and the event is accepted
  have accepts : ∀ authored mappings bound,
      ({ replica with authored := authored } : LayerGraph Layer).bindKeys mappings = some bound →
      RoutesWithin bound after →
      ∃ result, (({ replica with authored := authored } : LayerGraph Layer).acceptSublayers paths
          ⟨parentKey, event, mappings⟩).map pruneUnreachableStates = some result ∧
        Mirror after result := by
    intro authored mappings bound mapped within
    have here : Mirror graph { replica with authored := authored } :=
      ⟨mirror.ready, mirror.rootLayer, mirror.rootLayerKey, mirror.generation, mirror.states,
        mirror.revisions, mirror.noStates, mirror.noRevisions,
        ⟨mirror.within.layers, mirror.within.keys, mirror.within.identityKeys,
          mirror.within.identityIdentifiers⟩⟩
    refine ⟨_, ?_, here.afterAccept step grounded kept (bindKeys_within mapped).2.1 within
      (bound.revision + 1)⟩
    rw [Option.map_eq_some_iff]
    refine ⟨_, ?_, rfl⟩
    simp only [acceptSublayers, Option.bind_eq_bind, Option.bind_eq_some_iff, require_eq_some,
      normalize_eq_some]
    refine ⟨(), generation, (), revision, bound, mapped, event.sublayers, ⟨step.valid, rfl⟩, ?_⟩
    rw [revision]
    rfl
  have valid : normalizeSublayerEntries paths.portable event.sublayers = some event.sublayers :=
    normalize_eq_some.2 ⟨step.valid, rfl⟩
  unfold LayerGraph.applySublayers
  simp only [require, if_pos generation, if_pos reachable, if_pos revision, valid,
    Option.bind_eq_bind, Option.bind_some]
  cases routedParent : replica.layers parentKey with
  | none =>
      obtain ⟨result, accepted, mirrored⟩ := accepts replica.authored [] replica rfl
        (mirror.within.trans step.within)
      obtain ⟨kept, taken, rfl⟩ := Option.map_eq_some_iff.1 accepted
      refine ⟨_, ?_, mirrored⟩
      simp only
      rw [show replica.acceptSublayers paths ⟨parentKey, event, []⟩ = some kept from taken]
      rfl
  | some parent =>
      obtain ⟨bound, mapped, within⟩ := mirror.bindChildren step routedParent replicaOpenable
        (Function.update replica.authored parent (event.sublayers.map SublayerEntry.withoutKey))
      obtain ⟨result, accepted, mirrored⟩ := accepts _ _ bound mapped within
      obtain ⟨kept, taken, rfl⟩ := Option.map_eq_some_iff.1 accepted
      refine ⟨_, ?_, mirrored⟩
      simp only [applySublayerEntries, valid, Option.bind_eq_bind, Option.bind_some, taken]

end Apply

/-! ### Discovering new layers -/

/-- The authoritative graph accepted a chain of events, each for a key without a state. -/
inductive Discovery (paths : AssetPaths Layer) (openable : Layer → Bool) :
    LayerGraph Layer → List (LayerKey × TopologyEvent) → LayerGraph Layer → Prop where
  | done (graph : LayerGraph Layer) : Discovery paths openable graph [] graph
  | step {graph middle after : LayerGraph Layer} {layerKey : LayerKey} {event : TopologyEvent}
      {records : List (LayerKey × TopologyEvent)} (new : layerKey ∉ graph.states)
      (here : AcceptStep paths openable graph layerKey event middle)
      (later : Discovery paths openable middle records after) :
      Discovery paths openable graph ((layerKey, event) :: records) after

section Discover

variable {openable : Layer → Bool} {graph after : LayerGraph Layer}
  {records : List (LayerKey × TopologyEvent)}

omit [DecidableEq Layer] in
/-- Giving a state to a key without one only adds edges. -/
theorem AcceptStep.reached_mono {layerKey other : LayerKey} {event : TopologyEvent}
    (step : AcceptStep paths openable graph layerKey event after) (new : layerKey ∉ graph.states)
    (reached : graph.Reached other) : after.Reached other := by
  unfold Reached at reached ⊢
  rw [step.rootLayerKey]
  refine Worklist.Reaches.mono ?_ reached
  intro node
  by_cases edited : node = layerKey
  · rw [edited, childKeys_eq_nil new]
    exact List.nil_subset _
  · unfold childKeys
    rw [step.lookup_other edited]
    exact List.Subset.refl _

omit [DecidableEq Layer] in
theorem Discovery.grounded (discovery : Discovery paths openable graph records after)
    (grounded : graph.Grounded paths) : after.Grounded paths := by
  induction discovery with
  | done graph => exact grounded
  | step new here later ih => exact ih here.grounded

omit [DecidableEq Layer] in
theorem Discovery.reached_mono (discovery : Discovery paths openable graph records after)
    {layerKey : LayerKey} (reached : graph.Reached layerKey) : after.Reached layerKey := by
  induction discovery with
  | done graph => exact reached
  | step new here later ih => exact ih (here.reached_mono new reached)

omit [DecidableEq Layer] in
/-- Stored entries stay as they are. -/
theorem Discovery.lookup (discovery : Discovery paths openable graph records after)
    {layerKey : LayerKey} (stored : layerKey ∈ graph.states) :
    after.states.lookup layerKey = graph.states.lookup layerKey := by
  induction discovery with
  | done graph => rfl
  | @step graph middle after newKey event records new here later ih =>
      have different : layerKey ≠ newKey := fun same => new (same ▸ stored)
      have still : layerKey ∈ middle.states := by
        rw [here.states]
        exact (AList.mem_insert _).2 (Or.inr stored)
      rw [ih still, here.lookup_other different]

omit [DecidableEq Layer] in
theorem Discovery.rootLayerKey (discovery : Discovery paths openable graph records after) :
    after.rootLayerKey = graph.rootLayerKey := by
  induction discovery with
  | done graph => rfl
  | step new here later ih => rw [ih, here.rootLayerKey]

omit [DecidableEq Layer] in
theorem Discovery.within (discovery : Discovery paths openable graph records after) :
    RoutesWithin graph after := by
  induction discovery with
  | done graph => exact RoutesWithin.refl graph
  | step new here later ih => exact here.within.trans ih

theorem Mirror.discover {replica : LayerGraph Layer} (mirror : Mirror graph replica)
    (discovery : Discovery paths openable graph records after) (grounded : graph.Grounded paths)
    (kept : ∀ layerKey ∈ graph.states, ¬ graph.Reached layerKey → ¬ after.Reached layerKey)
    (deliveries : List (GraphMessage × (Layer → Bool)))
    (delivered : deliveries.map (·.1) = topologyMessages records) :
    ∃ result, receiveAll paths replica deliveries = some result ∧ Mirror after result := by
  induction discovery generalizing replica deliveries with
  | done graph =>
      have none : deliveries = [] := List.map_eq_nil_iff.1 delivered
      subst none
      exact ⟨replica, rfl, mirror⟩
  | @step graph middle after layerKey event records new here later ih =>
      obtain ⟨delivery, rest, rfl, first, deliveredRest⟩ := List.map_eq_cons_iff.1 delivered
      obtain ⟨message, replicaOpenable⟩ := delivery
      obtain rfl : message = .sublayers layerKey event := first
      have keptHere : ∀ other ∈ graph.states, ¬ graph.Reached other → ¬ middle.Reached other :=
        fun other stored before now => kept other stored before (later.reached_mono now)
      obtain ⟨next, applied, nextMirror⟩ :=
        mirror.applySublayers here grounded keptHere replicaOpenable
      have keptLater : ∀ other ∈ middle.states, ¬ middle.Reached other →
          ¬ after.Reached other := by
        intro other stored before
        rw [here.states] at stored
        rcases (AList.mem_insert _).1 stored with rfl | old
        · exact absurd here.reached_parent before
        · exact kept other old fun reached => before (here.reached_mono new reached)
      obtain ⟨result, received, resultMirror⟩ :=
        ih nextMirror here.grounded keptLater rest deliveredRest
      refine ⟨result, ?_, resultMirror⟩
      simp only [receiveAll, receive, applied, Option.bind_eq_bind, Option.bind_some]
      exact received

omit [DecidableEq Layer] in
/-- A described event lists what the layer holds. -/
theorem describeSublayers_cases {layer : Layer} {event : TopologyEvent}
    (described : graph.describeSublayers paths openable layer = some event) :
    event.sublayers = graph.describeEntries paths openable layer
      (graph.readSublayerEntries layer) := by
  simp only [describeSublayers, Option.bind_eq_bind, Option.bind_eq_some_iff, require_eq_some,
    normalize_eq_some] at described
  obtain ⟨_, _, _, _, _, ⟨_, rfl⟩, same⟩ := described
  rw [← Option.some.inj same]

omit [DecidableEq Layer] in
theorem withoutKey_describeEntries (layer : Layer) (entries : List SublayerEntry) :
    (graph.describeEntries paths openable layer entries).map SublayerEntry.withoutKey =
      entries.map SublayerEntry.withoutKey := by
  simp only [describeEntries, List.map_map]
  refine List.map_congr_left ?_
  intro entry _
  simp only [Function.comp]
  split
  · rfl
  · split <;> rfl

omit [DecidableEq Layer] in
theorem withoutKey_read (layer : Layer) :
    (graph.readSublayerEntries layer).map SublayerEntry.withoutKey =
      graph.readSublayerEntries layer := by
  simp [readSublayerEntries, SublayerEntry.withoutKey]

/-- Describing, keying and accepting a routed layer is an authoritative step that leaves the layer's
content alone. -/
theorem acceptStep_of_described {layer : Layer} {layerKey : LayerKey} {event : TopologyEvent}
    {prepared : PreparedSublayers Layer} {keyed : LayerGraph Layer}
    (grounded : graph.Grounded paths) (routedLayer : graph.layers layerKey = some layer)
    (described : graph.describeSublayers paths openable layer = some event)
    (canonicalized : graph.canonicalizeSublayers paths openable layerKey event =
      some (prepared, keyed))
    (accepted : keyed.acceptSublayers paths prepared = some after) :
    AcceptStep paths openable graph layerKey prepared.event after ∧
      after.authored = graph.authored := by
  obtain ⟨parent, facts⟩ := canonicalizeSublayers_prepared grounded canonicalized
  obtain rfl := Option.some.inj (routedLayer.symm.trans facts.routedParent)
  obtain ⟨_, _, _, _, _, _, _, rfl, rfl⟩ := canonicalizeSublayers_cases canonicalized
  refine ⟨acceptStep_of_accepted grounded canonicalized (fun _ _ => rfl) ?_ accepted, ?_⟩
  · intro other routedOther
    obtain rfl := Option.some.inj (routedLayer.symm.trans routedOther)
    rw [facts.withoutKeys, describeSublayers_cases described, withoutKey_describeEntries,
      withoutKey_read]
    rfl
  · obtain ⟨bound, _, _, mapped, _, rfl⟩ := acceptSublayers_cases accepted
    exact (bindKeys_within mapped).2.1.authored

theorem discoverLoop_discovery (steps : Nat) (queue : List (Layer × LayerKey))
    (visited : List LayerKey) (grounded : graph.Grounded paths)
    (routedQueue : ∀ mapping ∈ queue, graph.layers mapping.2 = some mapping.1)
    (succeeded : discoverLoop paths openable steps queue visited graph = some (records, after)) :
    Discovery paths openable graph records after := by
  induction steps generalizing queue visited graph records with
  | zero =>
      cases queue with
      | nil =>
          obtain ⟨rfl, rfl⟩ := Prod.mk.inj (Option.some.inj succeeded)
          exact .done graph
      | cons mapping queue => exact absurd succeeded (by simp [discoverLoop])
  | succ steps ih =>
      cases queue with
      | nil =>
          obtain ⟨rfl, rfl⟩ := Prod.mk.inj (Option.some.inj succeeded)
          exact .done graph
      | cons mapping queue =>
          obtain ⟨layer, layerKey⟩ := mapping
          have routedRest : ∀ other ∈ queue, graph.layers other.2 = some other.1 :=
            fun other member => routedQueue other (List.mem_cons_of_mem _ member)
          unfold discoverLoop at succeeded
          split at succeeded
          · exact ih queue visited grounded routedRest succeeded
          · next skipped =>
              simp only [Option.bind_eq_bind, Option.bind_eq_some_iff] at succeeded
              obtain ⟨event, described, ⟨prepared, keyed⟩, canonicalized, middle, accepted,
                ⟨later, final⟩, looped, same⟩ := succeeded
              obtain ⟨rfl, rfl⟩ := Prod.mk.inj (Option.some.inj same)
              have routedLayer := routedQueue _ List.mem_cons_self
              obtain ⟨step, _⟩ := acceptStep_of_described grounded routedLayer described
                canonicalized accepted
              obtain ⟨parent, facts⟩ := canonicalizeSublayers_prepared grounded canonicalized
              refine .step (fun stored => skipped (Or.inr stored)) step
                (ih _ _ step.grounded ?_ looped)
              intro other member
              rcases List.mem_append.1 member with old | new
              · exact step.within.layers (routedRest other old)
              · rw [facts.mappings] at new
                exact step.mapping facts.routedParent new

end Discover

/-! ### Whole operations -/

/-- What holds of the authoritative graph between operations. -/
structure Settled (paths : AssetPaths Layer) (graph : LayerGraph Layer) : Prop where
  grounded : graph.Grounded paths
  reached : ∀ layerKey ∈ graph.states, graph.Reached layerKey

omit [DecidableEq Layer] in
theorem Grounded.prune {graph : LayerGraph Layer} (grounded : graph.Grounded paths) :
    graph.pruneUnreachableStates.Settled paths := by
  have stored : ∀ layerKey entries,
      graph.pruneUnreachableStates.states.lookup layerKey = some entries →
        graph.Reached layerKey ∧ graph.states.lookup layerKey = some entries := by
    intro layerKey entries found
    by_cases reached : graph.Reached layerKey
    · rw [(lookup_prune grounded.ready reached).1] at found
      exact ⟨reached, found⟩
    · rw [(lookup_prune_none grounded.ready reached).1] at found
      exact absurd found (by simp)
  have member : ∀ layerKey ∈ graph.pruneUnreachableStates.states,
      graph.Reached layerKey ∧ layerKey ∈ graph.states := by
    intro layerKey present
    obtain ⟨entries, found⟩ := Option.isSome_iff_exists.1 (AList.lookup_isSome.2 present)
    obtain ⟨reached, before⟩ := stored layerKey entries found
    exact ⟨reached, AList.lookup_isSome.1 (by rw [before]; rfl)⟩
  constructor
  · refine
      { routed := ⟨grounded.routed.layers_iff, grounded.routed.identity_iff,
          grounded.routed.remembered, grounded.routed.drawn⟩
        ready := grounded.ready
        rootKey := grounded.rootKey
        stateLayer := fun layerKey present => grounded.stateLayer layerKey (member _ present).2
        entryLayer := fun found => grounded.entryLayer (stored _ _ found).2
        valid := fun found => grounded.valid (stored _ _ found).2
        revisions := ?_
        generation := grounded.generation
        revision := grounded.revision
        nextKey := grounded.nextKey
        authored := fun found => grounded.authored (stored _ _ found).2 }
    intro layerKey revision found
    by_cases reached : graph.Reached layerKey
    · have kept := lookup_prune grounded.ready reached
      rw [kept.2] at found
      obtain ⟨present, positive⟩ := grounded.revisions found
      refine ⟨AList.lookup_isSome.1 ?_, positive⟩
      rw [kept.1]
      exact AList.lookup_isSome.2 present
    · rw [(lookup_prune_none grounded.ready reached).2] at found
      exact absurd found (by simp)
  · intro layerKey present
    exact (reached_prune grounded.ready).2 (member layerKey present).1

/-- A mirror follows one edited parent and the discovery it starts, unless the discovery brings back
a key the edit had cut off. -/
theorem Mirror.operation {openable : Layer → Bool} {graph first last replica : LayerGraph Layer}
    {parentKey : LayerKey} {event : TopologyEvent} {records : List (LayerKey × TopologyEvent)}
    (mirror : Mirror graph replica) (settled : graph.Settled paths)
    (step : AcceptStep paths openable graph parentKey event first)
    (discovery : Discovery paths openable first records last)
    (kept : ∀ layerKey ∈ graph.states, last.Reached layerKey → first.Reached layerKey)
    (deliveries : List (GraphMessage × (Layer → Bool)))
    (delivered : deliveries.map (·.1) = topologyMessages ((parentKey, event) :: records)) :
    ∃ result, receiveAll paths replica deliveries = some result ∧
      Mirror last.pruneUnreachableStates result := by
  obtain ⟨delivery, rest, rfl, head, deliveredRest⟩ := List.map_eq_cons_iff.1 delivered
  obtain ⟨message, replicaOpenable⟩ := delivery
  obtain rfl : message = .sublayers parentKey event := head
  obtain ⟨next, applied, nextMirror⟩ := mirror.applySublayers step settled.grounded
    (fun layerKey stored missing => absurd (settled.reached layerKey stored) missing)
    replicaOpenable
  have keptLater : ∀ layerKey ∈ first.states, ¬ first.Reached layerKey →
      ¬ last.Reached layerKey := by
    intro layerKey stored before now
    rw [step.states] at stored
    rcases (AList.mem_insert _).1 stored with rfl | old
    · exact before step.reached_parent
    · exact before (kept layerKey old now)
  obtain ⟨result, received, resultMirror⟩ :=
    nextMirror.discover discovery step.grounded keptLater rest deliveredRest
  refine ⟨result, ?_, resultMirror.prune (discovery.grounded step.grounded).ready⟩
  simp only [receiveAll, receive, applied, Option.bind_eq_bind, Option.bind_some]
  exact received

end LayerGraph

end UsdConnect
