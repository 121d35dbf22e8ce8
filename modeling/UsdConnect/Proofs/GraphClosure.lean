/-
Purpose: The authoritative graph is closed in every state: reachable keys, keys with a list and keys
  with a revision are the same, and its baseline passes validation.
Trusted boundary: a failed transaction leaves the layer contents as its own backup restored them
Main exports: Closed, OperationKeyed, AuthoritativeRun, closed_of_authoritativeRun
-/
import UsdConnect.Proofs.GraphRevisions

namespace UsdConnect

namespace LayerGraph

variable {Layer : Type} [DecidableEq Layer] {paths : AssetPaths Layer}

/-! ### Statements -/

/-- Routing state that a baseline can be taken from. -/
structure Closed (paths : AssetPaths Layer) (graph : LayerGraph Layer) : Prop where
  reachable_iff : ∀ layerKey, layerKey ∈ graph.reachableLayerKeys ↔ layerKey ∈ graph.states
  versioned_iff : ∀ layerKey,
    layerKey ∈ graph.states ↔ (graph.parentRevisions layerKey).isSome
  children : ∀ {parentKey entries}, graph.states.lookup parentKey = some entries →
    ∀ entry ∈ entries, ∀ childKey, entry.layerKey = some childKey →
      childKey ∈ graph.reachableLayerKeys
  revisions : ∀ {layerKey revision}, graph.parentRevisions layerKey = some revision → 1 ≤ revision
  message : ∃ state, graph.stateMessage = some state ∧
    (validateTopology paths.portable state).isSome

/-- Every entry of a list of this key that names a layer which is routed or can be opened has a
key. -/
def ListKeyed (paths : AssetPaths Layer) (openable : Layer → Bool) (graph : LayerGraph Layer)
    (layerKey : LayerKey) (entries : List SublayerEntry) : Prop :=
  ∀ parent, graph.layers layerKey = some parent → ∀ entry ∈ entries,
    (graph.resolve paths openable parent entry.authoredPath).isSome → entry.layerKey.isSome

/-- Every stored list is keyed. -/
def StatesKeyed (paths : AssetPaths Layer) (openable : Layer → Bool) (graph : LayerGraph Layer) :
    Prop :=
  ∀ {layerKey entries}, graph.states.lookup layerKey = some entries →
    graph.ListKeyed paths openable layerKey entries

/-- The edges that a successful operation resolved have keys: those of the lists it emitted, and
for a refresh those of all stored lists. -/
def OperationKeyed (paths : AssetPaths Layer) (graph : LayerGraph Layer) :
    GraphOperation Layer → Prop
  | .editSublayers layerKey event openable steps =>
      ∀ records final, graph.commitSublayers paths openable steps layerKey event =
        some (records, final) →
          ∀ record ∈ records, final.ListKeyed paths openable record.1 record.2.sublayers
  | .refreshResolved openable steps =>
      ∀ records final, graph.refreshResolvedSublayers paths openable steps =
        some (records, final) → final.StatesKeyed paths openable
  | .newGeneration => True

/-- What a failed transaction leaves outside the routing state: the layer contents are back, and the
keys it drew are not drawn again. -/
structure Attempt (saved failed : LayerGraph Layer) : Prop where
  authoritative : failed.authoritative = saved.authoritative
  rootLayer : failed.rootLayer = saved.rootLayer
  ready : failed.ready = saved.ready
  authored : failed.authored = saved.authored
  nextKey : saved.nextKey ≤ failed.nextKey
  nextGeneration : saved.nextGeneration ≤ failed.nextGeneration

/-- The graphs an authoritative server passes through.  A failed transaction may have left anything
in the routing state before it was rolled back. -/
inductive AuthoritativeRun (paths : AssetPaths Layer) : LayerGraph Layer → Prop where
  | created {openable : Layer → Bool} {steps : Nat} {rootLayer : Layer}
      {authored : Layer → List SublayerEntry} {graph : LayerGraph Layer}
      (built : createAuthoritative paths openable steps rootLayer authored = some graph) :
      AuthoritativeRun paths graph
  | operated {graph : LayerGraph Layer} (before : AuthoritativeRun paths graph)
      (operation : GraphOperation Layer) :
      AuthoritativeRun paths (graph.operate paths operation).2
  | rolledBack {graph failed : LayerGraph Layer} (before : AuthoritativeRun paths graph)
      (attempt : Attempt graph failed) : AuthoritativeRun paths (graph.rollback failed)

/-! ### Complete graphs -/

/-- What holds between operations: the root has a list, and so has every keyed child. -/
structure Complete (paths : AssetPaths Layer) (graph : LayerGraph Layer) : Prop where
  revised : graph.Revised paths
  root : graph.rootLayerKey ∈ graph.states
  children : ∀ {layerKey child}, child ∈ graph.childKeys layerKey → child ∈ graph.states

section Complete

variable {graph : LayerGraph Layer}

omit [DecidableEq Layer] in
theorem Complete.stored_of_reached (complete : graph.Complete paths) {layerKey : LayerKey}
    (reached : graph.Reached layerKey) : layerKey ∈ graph.states := by
  induction reached with
  | refl => exact complete.root
  | tail _ edge _ => exact complete.children edge

omit [DecidableEq Layer] in
theorem Complete.mem_reachable_iff (complete : graph.Complete paths) (layerKey : LayerKey) :
    layerKey ∈ graph.reachableLayerKeys ↔ layerKey ∈ graph.states := by
  rw [mem_reachableLayerKeys complete.revised.settled.grounded.ready]
  constructor
  · exact complete.stored_of_reached
  · exact complete.revised.settled.reached layerKey

omit [DecidableEq Layer] in
/-- A ready graph has a baseline when every reachable key has a list and a revision. -/
theorem stateMessage_of_stored (ready : graph.ready = true)
    (stored : ∀ layerKey ∈ graph.reachableLayerKeys,
      layerKey ∈ graph.states ∧ (graph.parentRevisions layerKey).isSome) :
    ∃ state, graph.stateMessage = some state := by
  have described : ∀ keys : List LayerKey, (∀ layerKey ∈ keys,
      layerKey ∈ graph.states ∧ (graph.parentRevisions layerKey).isSome) →
        ∃ layers, keys.mapM graph.layerState = some layers := by
    intro keys
    induction keys with
    | nil => exact fun _ => ⟨[], rfl⟩
    | cons head rest ih =>
        intro all
        obtain ⟨present, numbered⟩ := all head List.mem_cons_self
        obtain ⟨entries, found⟩ := Option.isSome_iff_exists.1 (AList.lookup_isSome.2 present)
        obtain ⟨revision, number⟩ := Option.isSome_iff_exists.1 numbered
        obtain ⟨layers, later⟩ := ih fun other member => all other (List.mem_cons_of_mem _ member)
        have here := layerState_eq_some.2 ⟨entries, revision, found, number, rfl⟩
        refine ⟨⟨head, revision, entries⟩ :: layers, ?_⟩
        simp only [List.mapM_cons, here, later, Option.bind_eq_bind, Option.bind_some,
          Option.pure_def]
  obtain ⟨layers, mapped⟩ := described graph.reachableLayerKeys stored
  refine ⟨⟨graph.generation, graph.revision.toNat, graph.rootLayerKey, layers⟩, ?_⟩
  simp only [stateMessage, require, if_pos ready, mapped, Option.bind_eq_bind, Option.bind_some]

omit [DecidableEq Layer] in
theorem Complete.closed (complete : graph.Complete paths) : graph.Closed paths := by
  have grounded := complete.revised.settled.grounded
  refine
    { reachable_iff := complete.mem_reachable_iff
      versioned_iff := ?_
      children := ?_
      revisions := fun found => (grounded.revisions found).2
      message := ?_ }
  · intro layerKey
    constructor
    · exact complete.revised.versioned layerKey
    · intro numbered
      obtain ⟨revision, found⟩ := Option.isSome_iff_exists.1 numbered
      exact (grounded.revisions found).1
  · intro parentKey entries found entry member childKey keyed
    rw [complete.mem_reachable_iff]
    exact complete.children (mem_childKeys.2 ⟨entries, found, entry, member, keyed⟩)
  · obtain ⟨state, message⟩ := stateMessage_of_stored grounded.ready fun layerKey reachable => by
      have present := (complete.mem_reachable_iff layerKey).1 reachable
      exact ⟨present, complete.revised.versioned layerKey present⟩
    obtain ⟨_, _, _, collected, numbered, valid, _⟩ :=
      validateTopology_of_stateMessage grounded message
    exact ⟨state, message, by rw [valid]; rfl⟩

omit [DecidableEq Layer] in
theorem Complete.prune (grounded : graph.Grounded paths) (versioned : graph.Versioned)
    (root : graph.rootLayerKey ∈ graph.states)
    (children : ∀ {layerKey child}, child ∈ graph.childKeys layerKey → child ∈ graph.states) :
    graph.pruneUnreachableStates.Complete paths := by
  have ready := grounded.ready
  have kept : ∀ layerKey, graph.Reached layerKey → layerKey ∈ graph.states →
      layerKey ∈ graph.pruneUnreachableStates.states := by
    intro layerKey reached stored
    rw [← AList.lookup_isSome, (lookup_prune ready reached).1]
    exact AList.lookup_isSome.2 stored
  refine ⟨⟨grounded.prune, versioned.prune ready⟩, ?_, ?_⟩
  · exact kept graph.rootLayerKey Relation.ReflTransGen.refl root
  · intro layerKey child edge
    have reached : graph.Reached layerKey := by
      by_contra missing
      unfold childKeys at edge
      rw [(lookup_prune_none ready missing).1] at edge
      exact nomatch edge
    have before : child ∈ graph.childKeys layerKey := by
      unfold childKeys at edge ⊢
      rwa [(lookup_prune ready reached).1] at edge
    exact kept child (reached.tail before) (children before)

end Complete

/-! ### Keyed lists -/

section Keyed

variable {openable : Layer → Bool} {graph after : LayerGraph Layer}

/-- Layers routed since are layers the operation could open. -/
def OpenedFrom (openable : Layer → Bool) (graph after : LayerGraph Layer) : Prop :=
  ∀ layer, (after.keysByIdentifier layer).isSome →
    (graph.keysByIdentifier layer).isSome ∨ openable layer = true

omit [DecidableEq Layer] in
theorem OpenedFrom.refl (graph : LayerGraph Layer) : OpenedFrom openable graph graph :=
  fun _ routed => Or.inl routed

omit [DecidableEq Layer] in
theorem OpenedFrom.trans {middle : LayerGraph Layer} (one : OpenedFrom openable graph middle)
    (two : OpenedFrom openable middle after) : OpenedFrom openable graph after := by
  intro layer routed
  rcases two layer routed with earlier | opens
  · exact one layer earlier
  · exact Or.inr opens

omit [DecidableEq Layer] in
theorem OpenedFrom.resolve (opened : OpenedFrom openable graph after) {parent : Layer}
    {authoredPath : String}
    (resolves : (after.resolve paths openable parent authoredPath).isSome) :
    (graph.resolve paths openable parent authoredPath).isSome := by
  obtain ⟨child, found⟩ := Option.isSome_iff_exists.1 resolves
  obtain ⟨target, reason⟩ := resolve_eq_some.1 found
  refine Option.isSome_iff_exists.2 ⟨child, resolve_eq_some.2 ⟨target, ?_⟩⟩
  rcases reason with routed | opens
  · exact opened child routed
  · exact Or.inr opens

omit [DecidableEq Layer] in
theorem ListKeyed.later {layerKey : LayerKey} {parent : Layer} {entries : List SublayerEntry}
    (keyed : graph.ListKeyed paths openable layerKey entries)
    (opened : OpenedFrom openable graph after) (within : RoutesWithin graph after)
    (routedParent : graph.layers layerKey = some parent) :
    after.ListKeyed paths openable layerKey entries := by
  intro other routedOther entry member resolves
  rw [within.layers routedParent] at routedOther
  obtain rfl := Option.some.inj routedOther
  exact keyed parent routedParent entry member (opened.resolve resolves)

/-- Canonicalization leaves out a key only where nothing resolves. -/
theorem canonicalizeEntries_keyed {parent : Layer} (entries : List SublayerEntry)
    {pending : List (Layer × LayerKey)} {nextKey : Nat} {canonical : Canonical Layer}
    (succeeded : graph.canonicalizeEntries paths openable parent entries pending nextKey =
      some canonical) :
    ∀ entry ∈ canonical.sublayers,
      (graph.resolve paths openable parent entry.authoredPath).isSome → entry.layerKey.isSome := by
  induction entries generalizing pending nextKey canonical with
  | nil =>
      obtain rfl := Option.some.inj succeeded
      exact fun _ member => nomatch member
  | cons entry rest ih =>
      unfold canonicalizeEntries at succeeded
      intro other member resolves
      cases found : graph.resolve paths openable parent entry.authoredPath with
      | none =>
          rw [found] at succeeded
          simp only [Option.bind_eq_bind, Option.bind_eq_some_iff] at succeeded
          obtain ⟨later, tail, same⟩ := succeeded
          obtain rfl := Option.some.inj same
          rcases List.mem_cons.1 member with rfl | old
          · rw [show entry.withoutKey.authoredPath = entry.authoredPath from rfl, found] at resolves
            exact absurd resolves (by simp)
          · exact ih tail other old resolves
      | some child =>
          rw [found] at succeeded
          simp only at succeeded
          cases known : graph.knownKey pending child with
          | some layerKey =>
              rw [known] at succeeded
              simp only at succeeded
              split at succeeded
              · exact absurd succeeded (by simp)
              · simp only [Option.bind_eq_bind, Option.bind_eq_some_iff] at succeeded
                obtain ⟨later, tail, same⟩ := succeeded
                obtain rfl := Option.some.inj same
                rcases List.mem_cons.1 member with rfl | old
                · rfl
                · exact ih tail other old resolves
          | none =>
              rw [known] at succeeded
              simp only [Option.bind_eq_bind, Option.bind_eq_some_iff] at succeeded
              obtain ⟨later, tail, same⟩ := succeeded
              obtain rfl := Option.some.inj same
              rcases List.mem_cons.1 member with rfl | old
              · rfl
              · exact ih tail other old resolves

theorem listKeyed_of_canonicalized {keyed : LayerGraph Layer} {parentKey : LayerKey}
    {event : TopologyEvent} {prepared : PreparedSublayers Layer}
    (canonicalized : graph.canonicalizeSublayers paths openable parentKey event =
      some (prepared, keyed)) :
    graph.ListKeyed paths openable parentKey prepared.event.sublayers := by
  obtain ⟨parent, canonical, _, routedParent, _, _, keyedEntries, rfl, _⟩ :=
    canonicalizeSublayers_cases canonicalized
  intro other routedOther
  rw [routedParent] at routedOther
  obtain rfl := Option.some.inj routedOther
  exact canonicalizeEntries_keyed event.sublayers keyedEntries

omit [DecidableEq Layer] in
theorem AcceptStep.openedFrom {parentKey : LayerKey} {event : TopologyEvent}
    (step : AcceptStep paths openable graph parentKey event after) :
    OpenedFrom openable graph after :=
  step.opened

omit [DecidableEq Layer] in
theorem Discovery.openedFrom {records : List (LayerKey × TopologyEvent)}
    (discovery : Discovery paths openable graph records after) :
    OpenedFrom openable graph after := by
  induction discovery with
  | done graph => exact OpenedFrom.refl graph
  | step new here later ih => exact here.openedFrom.trans ih

end Keyed

/-! ### Discovery -/

section Discover

variable {openable : Layer → Bool} {steps : Nat} {graph after : LayerGraph Layer}

/-- Every keyed child has a list or waits in the queue. -/
def ChildrenQueued (graph : LayerGraph Layer) (queue : List (Layer × LayerKey)) : Prop :=
  ∀ layerKey child, child ∈ graph.childKeys layerKey →
    child ∈ graph.states ∨ child ∈ queue.map (·.2)

omit [DecidableEq Layer] in
theorem ChildrenQueued.stored (queued : graph.ChildrenQueued []) {layerKey child : LayerKey}
    (edge : child ∈ graph.childKeys layerKey) : child ∈ graph.states :=
  (queued layerKey child edge).resolve_right (by simp)

omit [DecidableEq Layer] in
theorem AcceptStep.childrenQueued {parentKey : LayerKey} {parent : Layer} {event : TopologyEvent}
    {queue : List (Layer × LayerKey)}
    (step : AcceptStep paths openable graph parentKey event after)
    (queued : ∀ {layerKey child}, layerKey ≠ parentKey → child ∈ graph.childKeys layerKey →
      child ∈ graph.states ∨ child = parentKey ∨ child ∈ queue.map (·.2)) :
    after.ChildrenQueued (queue ++ keyedChildren paths parent event.sublayers) := by
  intro layerKey child edge
  rw [step.states, AList.mem_insert, List.map_append, List.mem_append]
  by_cases edited : layerKey = parentKey
  · obtain ⟨entries, found, entry, member, keyed⟩ := mem_childKeys.1 edge
    rw [edited, step.lookup_parent] at found
    obtain rfl := Option.some.inj found
    refine Or.inr (Or.inr (List.mem_map.2
      ⟨(paths.target parent entry.authoredPath, child), ?_, rfl⟩))
    exact mem_keyedChildren.2 ⟨entry, member, keyed, rfl⟩
  · have before : child ∈ graph.childKeys layerKey := by
      unfold childKeys at edge ⊢
      rwa [step.lookup_other edited] at edge
    rcases queued edited before with stored | same | waiting
    · exact Or.inl (Or.inr stored)
    · exact Or.inl (Or.inl same)
    · exact Or.inr (Or.inl waiting)

/-- The discovery loop gives every queued key a list, and keys every list it emits.  The invariant
is that a keyed child has a list or waits in the queue. -/
theorem discoverLoop_closed (steps : Nat) (queue : List (Layer × LayerKey))
    (visited : List LayerKey) {records : List (LayerKey × TopologyEvent)}
    (grounded : graph.Grounded paths)
    (routedQueue : ∀ mapping ∈ queue, graph.layers mapping.2 = some mapping.1)
    (visitedStored : ∀ layerKey ∈ visited, layerKey ∈ graph.states)
    (queued : graph.ChildrenQueued queue)
    (succeeded : discoverLoop paths openable steps queue visited graph = some (records, after)) :
    (∀ {layerKey child}, child ∈ after.childKeys layerKey → child ∈ after.states) ∧
      (∀ record ∈ records, after.ListKeyed paths openable record.1 record.2.sublayers ∧
        after.states.lookup record.1 = some record.2.sublayers) ∧
      (∀ layerKey ∈ after.states, layerKey ∈ graph.states ∨
        ∃ record ∈ records, record.1 = layerKey) := by
  induction steps generalizing queue visited graph records with
  | zero =>
      cases queue with
      | nil =>
          obtain ⟨rfl, rfl⟩ := Prod.mk.inj (Option.some.inj succeeded)
          exact ⟨fun edge => queued.stored edge, fun _ member => (nomatch member), fun _ stored => Or.inl stored⟩
      | cons mapping queue => exact absurd succeeded (by simp [discoverLoop])
  | succ steps ih =>
      cases queue with
      | nil =>
          obtain ⟨rfl, rfl⟩ := Prod.mk.inj (Option.some.inj succeeded)
          exact ⟨fun edge => queued.stored edge, fun _ member => (nomatch member), fun _ stored => Or.inl stored⟩
      | cons mapping queue =>
          obtain ⟨layer, layerKey⟩ := mapping
          have routedRest : ∀ other ∈ queue, graph.layers other.2 = some other.1 :=
            fun other member => routedQueue other (List.mem_cons_of_mem _ member)
          unfold discoverLoop at succeeded
          split at succeeded
          · next skipped =>
              have stored : layerKey ∈ graph.states :=
                skipped.elim (visitedStored layerKey) id
              refine ih queue visited grounded routedRest visitedStored ?_ succeeded
              intro parentKey child edge
              rcases queued parentKey child edge with present | waiting
              · exact Or.inl present
              · rcases List.mem_cons.1 waiting with rfl | later
                · exact Or.inl stored
                · exact Or.inr later
          · next skipped =>
              simp only [Option.bind_eq_bind, Option.bind_eq_some_iff] at succeeded
              obtain ⟨event, described, ⟨prepared, keyed⟩, canonicalized, middle, accepted,
                ⟨later, final⟩, looped, same⟩ := succeeded
              obtain ⟨rfl, rfl⟩ := Prod.mk.inj (Option.some.inj same)
              have routedLayer := routedQueue _ List.mem_cons_self
              have new : layerKey ∉ graph.states := fun here => skipped (Or.inr here)
              obtain ⟨step, _⟩ := acceptStep_of_described grounded routedLayer described
                canonicalized accepted
              obtain ⟨other, facts⟩ := canonicalizeSublayers_prepared grounded canonicalized
              obtain rfl := Option.some.inj (routedLayer.symm.trans facts.routedParent)
              have routedMiddle : ∀ mapping ∈ queue ++ prepared.mappings,
                  middle.layers mapping.2 = some mapping.1 := by
                intro mapping member
                rcases List.mem_append.1 member with old | fresh
                · exact step.within.layers (routedRest mapping old)
                · rw [facts.mappings] at fresh
                  exact step.mapping routedLayer fresh
              have storedHere : layerKey ∈ middle.states := by
                rw [step.states]
                exact (AList.mem_insert _).2 (Or.inl rfl)
              have queuedMiddle : middle.ChildrenQueued (queue ++ prepared.mappings) := by
                rw [facts.mappings]
                refine step.childrenQueued ?_
                intro parentKey child _ edge
                rcases queued parentKey child edge with present | waiting
                · exact Or.inl present
                · exact Or.inr (List.mem_cons.1 waiting)
              have visitedMiddle : ∀ key ∈ layerKey :: visited, key ∈ middle.states := by
                intro key member
                rcases List.mem_cons.1 member with rfl | old
                · exact storedHere
                · rw [step.states]
                  exact (AList.mem_insert _).2 (Or.inr (visitedStored key old))
              have discovery := discoverLoop_discovery steps _ _ step.grounded routedMiddle looped
              obtain ⟨children, recordsKeyed, origin⟩ := ih _ _ step.grounded routedMiddle
                visitedMiddle queuedMiddle looped
              refine ⟨children, ?_, ?_⟩
              · intro record member
                rcases List.mem_cons.1 member with rfl | old
                · constructor
                  · exact (listKeyed_of_canonicalized canonicalized).later
                      (step.openedFrom.trans discovery.openedFrom)
                      (step.within.trans discovery.within) routedLayer
                  · rw [discovery.lookup storedHere, step.lookup_parent]
                · exact recordsKeyed record old
              · intro key stored
                rcases origin key stored with present | ⟨record, member, found⟩
                · rw [step.states] at present
                  rcases (AList.mem_insert _).1 present with rfl | old
                  · exact Or.inr ⟨_, List.mem_cons_self, rfl⟩
                  · exact Or.inl old
                · exact Or.inr ⟨record, List.mem_cons_of_mem _ member, found⟩

end Discover

/-! ### Operations -/

section Operations

variable {openable : Layer → Bool} {steps : Nat} {graph final : LayerGraph Layer}
  {records : List (LayerKey × TopologyEvent)}

omit [DecidableEq Layer] in
theorem mem_states_insert {middle : LayerGraph Layer} {parentKey layerKey : LayerKey}
    {event : TopologyEvent} (step : AcceptStep paths openable graph parentKey event middle)
    (stored : layerKey ∈ graph.states) : layerKey ∈ middle.states := by
  rw [step.states]
  exact (AList.mem_insert _).2 (Or.inr stored)

omit [DecidableEq Layer] in
theorem Discovery.stored {last : LayerGraph Layer}
    (discovery : Discovery paths openable graph records last) {layerKey : LayerKey}
    (stored : layerKey ∈ graph.states) : layerKey ∈ last.states := by
  rw [← AList.lookup_isSome, discovery.lookup stored]
  exact AList.lookup_isSome.2 stored

/-- Accepting an event in a complete graph and discovering what it attaches, up to pruning. -/
structure Attaches (paths : AssetPaths Layer) (openable : Layer → Bool)
    (graph : LayerGraph Layer) (parentKey : LayerKey) (event : TopologyEvent)
    (discovered : List (LayerKey × TopologyEvent)) (last : LayerGraph Layer) : Prop where
  complete : last.pruneUnreachableStates.Complete paths
  ready : last.ready = true
  opened : OpenedFrom openable graph last
  within : RoutesWithin graph last
  keyed : ∀ record ∈ (parentKey, event) :: discovered,
    last.ListKeyed paths openable record.1 record.2.sublayers ∧
      last.states.lookup record.1 = some record.2.sublayers
  kept : ∀ layerKey, layerKey ≠ parentKey → layerKey ∈ graph.states →
    last.states.lookup layerKey = graph.states.lookup layerKey
  origin : ∀ layerKey ∈ last.states, layerKey ∈ graph.states ∨
    ∃ record ∈ discovered, record.1 = layerKey

theorem Complete.attaches {keyed first last : LayerGraph Layer} {parentKey : LayerKey}
    {parent : Layer} {submitted : TopologyEvent} {prepared : PreparedSublayers Layer}
    {discovered : List (LayerKey × TopologyEvent)} (complete : graph.Complete paths)
    (canonicalized : graph.canonicalizeSublayers paths openable parentKey submitted =
      some (prepared, keyed))
    (facts : Prepared paths graph parentKey parent submitted prepared)
    (step : AcceptStep paths openable graph parentKey prepared.event first)
    (looped : discoverLoop paths openable steps prepared.mappings [] first =
      some (discovered, last)) :
    Attaches paths openable graph parentKey prepared.event discovered last := by
  have routedQueue : ∀ mapping ∈ prepared.mappings, first.layers mapping.2 = some mapping.1 := by
    intro mapping member
    rw [facts.mappings] at member
    exact step.mapping facts.routedParent member
  have queued : first.ChildrenQueued prepared.mappings := by
    have waits : first.ChildrenQueued
        ([] ++ keyedChildren paths parent prepared.event.sublayers) :=
      step.childrenQueued fun _ edge => Or.inl (complete.children edge)
    rw [facts.mappings]
    exact waits
  have discovery := discoverLoop_discovery steps _ _ step.grounded routedQueue looped
  obtain ⟨children, recordsKeyed, origin⟩ := discoverLoop_closed steps prepared.mappings []
    step.grounded routedQueue (fun _ member => nomatch member) queued looped
  have grounded := discovery.grounded step.grounded
  have parentStored := complete.stored_of_reached step.reached
  have storedHere : parentKey ∈ first.states := mem_states_insert step parentStored
  have root : last.rootLayerKey ∈ last.states := by
    rw [discovery.rootLayerKey, step.rootLayerKey]
    exact discovery.stored (mem_states_insert step complete.root)
  refine
    { complete := Complete.prune grounded
        (discovery.versioned (step.versioned complete.revised.versioned)) root children
      ready := grounded.ready
      opened := step.openedFrom.trans discovery.openedFrom
      within := step.within.trans discovery.within
      keyed := ?_
      kept := ?_
      origin := ?_ }
  · intro record member
    rcases List.mem_cons.1 member with rfl | old
    · constructor
      · exact (listKeyed_of_canonicalized canonicalized).later
          (step.openedFrom.trans discovery.openedFrom) (step.within.trans discovery.within)
          facts.routedParent
      · rw [discovery.lookup storedHere, step.lookup_parent]
    · exact recordsKeyed record old
  · intro layerKey different stored
    rw [discovery.lookup (mem_states_insert step stored), step.lookup_other different]
  · intro layerKey stored
    rcases origin layerKey stored with early | found
    · rw [step.states] at early
      rcases (AList.mem_insert _).1 early with rfl | old
      · exact Or.inl parentStored
      · exact Or.inl old
    · exact Or.inr found

omit [DecidableEq Layer] in
/-- Pruning does not touch the routes. -/
theorem ListKeyed.prune {layerKey : LayerKey} {entries : List SublayerEntry}
    (keyed : graph.ListKeyed paths openable layerKey entries) :
    graph.pruneUnreachableStates.ListKeyed paths openable layerKey entries :=
  keyed

theorem Complete.edit {parentKey : LayerKey} {event : TopologyEvent}
    (complete : graph.Complete paths)
    (committed : graph.commitSublayers paths openable steps parentKey event =
      some (records, final)) :
    final.Complete paths ∧
      ∀ record ∈ records, final.ListKeyed paths openable record.1 record.2.sublayers := by
  obtain ⟨parent, prepared, keyed, first, last, discovered, canonicalized, facts, step, looped,
    rfl, rfl⟩ := commitSublayers_cases complete.revised.settled.grounded committed
  have attaches := complete.attaches canonicalized facts step looped
  exact ⟨attaches.complete, fun record member => (attaches.keyed record member).1.prune⟩

/-- A refresh keys every stored list.  Of the lists that are not keyed yet the loop will still visit
the parent. -/
theorem Complete.refreshLoop (parents : List LayerKey) (complete : graph.Complete paths)
    (covered : ∀ {layerKey entries}, graph.states.lookup layerKey = some entries →
      layerKey ∈ parents ∨ graph.ListKeyed paths openable layerKey entries)
    (refreshed : LayerGraph.refreshLoop paths openable steps parents graph =
      some (records, final)) :
    final.Complete paths ∧ final.StatesKeyed paths openable := by
  induction parents generalizing graph records with
  | nil =>
      obtain ⟨rfl, rfl⟩ := Prod.mk.inj (Option.some.inj refreshed)
      exact ⟨complete, fun found => (covered found).resolve_left (by simp)⟩
  | cons parentKey rest ih =>
      have grounded := complete.revised.settled.grounded
      -- the loop goes on when the list of this parent is keyed
      have skip : (∀ entries, graph.states.lookup parentKey = some entries →
            graph.ListKeyed paths openable parentKey entries) →
          LayerGraph.refreshLoop paths openable steps rest graph = some (records, final) →
            final.Complete paths ∧ final.StatesKeyed paths openable := by
        intro keyed continued
        refine ih complete ?_ continued
        intro layerKey entries found
        rcases covered found with member | done
        · rcases List.mem_cons.1 member with rfl | later
          · exact Or.inr (keyed entries found)
          · exact Or.inl later
        · exact Or.inr done
      unfold LayerGraph.refreshLoop at refreshed
      split at refreshed
      · next unrouted =>
          refine skip ?_ refreshed
          intro entries found parent routedParent
          rw [unrouted] at routedParent
          cases routedParent
      · next parent routedParent =>
          simp only at refreshed
          split at refreshed
          · next allKeyed =>
              refine skip ?_ refreshed
              intro entries found other _ entry member _
              rw [found] at allKeyed
              exact List.all_eq_true.1 allKeyed entry member
          · simp only [Option.bind_eq_bind, Option.bind_eq_some_iff] at refreshed
            obtain ⟨event, described, ⟨prepared, keyed⟩, canonicalized, continued⟩ := refreshed
            simp only at continued
            split at continued
            · next unchanged =>
                refine skip ?_ continued
                intro entries found
                rw [found, Option.getD_some] at unchanged
                rw [← unchanged]
                exact listKeyed_of_canonicalized canonicalized
            · simp only [discoverSublayerStates, Option.bind_eq_bind, Option.bind_eq_some_iff]
                at continued
              obtain ⟨first, accepted, ⟨_, pruned⟩, ⟨_, _, ⟨discovered, last⟩, looped, discoveredEq⟩,
                ⟨later, _⟩, looping, same⟩ := continued
              obtain ⟨rfl, rfl⟩ := Prod.mk.inj (Option.some.inj discoveredEq)
              obtain ⟨rfl, rfl⟩ := Prod.mk.inj (Option.some.inj same)
              obtain ⟨step, _⟩ := acceptStep_of_described grounded routedParent described
                canonicalized accepted
              obtain ⟨other, facts⟩ := canonicalizeSublayers_prepared grounded canonicalized
              obtain rfl := Option.some.inj (routedParent.symm.trans facts.routedParent)
              have attaches := complete.attaches canonicalized facts step looped
              refine ih attaches.complete ?_ looping
              intro layerKey entries found
              have reached : last.Reached layerKey := by
                by_contra missing
                rw [(lookup_prune_none attaches.ready missing).1] at found
                cases found
              rw [(lookup_prune attaches.ready reached).1] at found
              -- the list was emitted just now, or it is an earlier one
              have emitted : ∀ record ∈ (parentKey, prepared.event) :: discovered,
                  record.1 = layerKey →
                    last.pruneUnreachableStates.ListKeyed paths openable layerKey entries := by
                rintro record member rfl
                obtain ⟨keyed, stored⟩ := attaches.keyed record member
                rw [stored] at found
                obtain rfl := Option.some.inj found
                exact keyed.prune
              rcases attaches.origin layerKey (AList.lookup_isSome.1 (by rw [found]; rfl)) with
                stored | ⟨record, member, same⟩
              · by_cases here : layerKey = parentKey
                · exact Or.inr (emitted _ List.mem_cons_self here.symm)
                · rw [attaches.kept layerKey here stored] at found
                  rcases covered found with member | done
                  · exact Or.inl ((List.mem_cons.1 member).resolve_left here)
                  · obtain ⟨layer, routedLayer⟩ := grounded.stateLayer layerKey stored
                    exact Or.inr (done.later attaches.opened attaches.within routedLayer).prune
              · exact Or.inr (emitted record (List.mem_cons_of_mem _ member) same)

theorem Complete.refresh (complete : graph.Complete paths)
    (refreshed : graph.refreshResolvedSublayers paths openable steps = some (records, final)) :
    final.Complete paths ∧ final.StatesKeyed paths openable := by
  simp only [refreshResolvedSublayers, Option.bind_eq_bind, Option.bind_eq_some_iff] at refreshed
  obtain ⟨_, _, ⟨_, last⟩, looped, same⟩ := refreshed
  obtain ⟨rfl, rfl⟩ := Prod.mk.inj (Option.some.inj same)
  obtain ⟨lastComplete, keyed⟩ := complete.refreshLoop graph.reachableLayerKeys (by
    intro layerKey entries found
    exact Or.inl ((complete.mem_reachable_iff layerKey).2
      (AList.lookup_isSome.1 (by rw [found]; rfl)))) looped
  have revised := lastComplete.revised
  refine ⟨Complete.prune revised.settled.grounded revised.versioned lastComplete.root
    lastComplete.children, ?_⟩
  intro layerKey entries found
  have stored := AList.lookup_isSome.1 (by rw [found]; rfl :
    (last.pruneUnreachableStates.states.lookup layerKey).isSome)
  have reached : last.Reached layerKey := by
    by_contra missing
    rw [(lookup_prune_none revised.settled.grounded.ready missing).1] at found
    cases found
  rw [(lookup_prune revised.settled.grounded.ready reached).1] at found
  exact (keyed found).prune

omit [DecidableEq Layer] in
theorem Complete.rotate {rotated : LayerGraph Layer} (complete : graph.Complete paths)
    (started : graph.startNewGeneration = some rotated) :
    rotated.Complete paths ∧ ∃ state, rotated.stateMessage = some state := by
  have ready := complete.revised.settled.grounded.ready
  have rotatedEq := started
  unfold startNewGeneration at rotatedEq
  rw [if_neg (by rw [ready]; decide)] at rotatedEq
  have message : ∃ state, rotated.stateMessage = some state := by
    obtain rfl := Option.some.inj rotatedEq
    refine stateMessage_of_stored ready ?_
    intro layerKey reachable
    refine ⟨(complete.mem_reachable_iff layerKey).1 reachable, ?_⟩
    show (if layerKey ∈ graph.reachableLayerKeys then some 1 else none).isSome = true
    rw [if_pos (show layerKey ∈ graph.reachableLayerKeys from reachable)]
    rfl
  obtain ⟨state, described⟩ := message
  have revised := complete.revised.rotate started described
  obtain rfl := Option.some.inj rotatedEq
  exact ⟨⟨revised, complete.root, complete.children⟩, state, described⟩

/-- Every operation keeps a complete graph complete and keys the edges it resolves. -/
theorem Complete.operate (complete : graph.Complete paths) (operation : GraphOperation Layer) :
    (graph.operate paths operation).2.Complete paths ∧ OperationKeyed paths graph operation := by
  cases operation with
  | editSublayers layerKey event openable steps =>
      refine ⟨?_, fun records final committed => (complete.edit committed).2⟩
      cases committed : graph.commitSublayers paths openable steps layerKey event with
      | none =>
          simp only [LayerGraph.operate, committed]
          exact complete
      | some result =>
          simp only [LayerGraph.operate, committed]
          exact (complete.edit committed).1
  | refreshResolved openable steps =>
      refine ⟨?_, fun records final refreshed => (complete.refresh refreshed).2⟩
      cases refreshed : graph.refreshResolvedSublayers paths openable steps with
      | none =>
          simp only [LayerGraph.operate, refreshed]
          exact complete
      | some result =>
          simp only [LayerGraph.operate, refreshed]
          exact (complete.refresh refreshed).1
  | newGeneration =>
      refine ⟨?_, trivial⟩
      cases started : graph.startNewGeneration with
      | none =>
          simp only [LayerGraph.operate, started]
          exact complete
      | some rotated =>
          obtain ⟨rotatedComplete, state, message⟩ := complete.rotate started
          simp only [LayerGraph.operate, started, message]
          exact rotatedComplete

omit [DecidableEq Layer] in
/-- A rollback gives back the routing state it saved. -/
theorem Complete.rollback {failed : LayerGraph Layer} (complete : graph.Complete paths)
    (attempt : Attempt graph failed) : (graph.rollback failed).Complete paths := by
  have grounded := complete.revised.settled.grounded
  have settled : (graph.rollback failed).Settled paths := by
    refine ⟨?_, complete.revised.settled.reached⟩
    refine
      { routed := ⟨grounded.routed.layers_iff, grounded.routed.identity_iff,
          grounded.routed.remembered, ?_⟩
        ready := attempt.ready.trans grounded.ready
        rootKey := ?_
        stateLayer := grounded.stateLayer
        entryLayer := grounded.entryLayer
        valid := grounded.valid
        revisions := grounded.revisions
        generation := ⟨grounded.generation.1,
          Nat.lt_of_lt_of_le grounded.generation.2 attempt.nextGeneration⟩
        revision := grounded.revision
        nextKey := Nat.lt_of_lt_of_le grounded.nextKey attempt.nextKey
        authored := ?_ }
    · intro layerKey layer found
      obtain ⟨positive, drawn⟩ := grounded.routed.drawn found
      exact ⟨positive, Nat.lt_of_lt_of_le drawn attempt.nextKey⟩
    · show graph.layers graph.rootLayerKey = some failed.rootLayer
      rw [attempt.rootLayer]
      exact grounded.rootKey
    · intro parentKey entries parent found routedParent
      show (failed.authored parent).map SublayerEntry.withoutKey = _
      rw [attempt.authored]
      exact grounded.authored found routedParent
  exact ⟨⟨settled, complete.revised.versioned⟩, complete.root, complete.children⟩

end Operations

/-! ### Construction -/

section Capture

variable {openable : Layer → Bool} {graph after : LayerGraph Layer} {layer : Layer}

/-- The edges of one captured list: what resolves is keyed, and what is keyed is queued. -/
structure CapturedEdges (paths : AssetPaths Layer) (openable : Layer → Bool) (layer : Layer)
    (graph : LayerGraph Layer) (captured : List SublayerEntry) (children : List Layer)
    (after : LayerGraph Layer) : Prop where
  opened : OpenedFrom openable graph after
  keyed : ∀ entry ∈ captured,
    (graph.resolve paths openable layer entry.authoredPath).isSome → entry.layerKey.isSome
  queued : ∀ entry ∈ captured, entry.layerKey.isSome →
    paths.target layer entry.authoredPath ∈ children

omit [DecidableEq Layer] in
theorem CapturedEdges.cons {middle : LayerGraph Layer} {captured : List SublayerEntry}
    {children : List Layer} (entry : SublayerEntry) {layerKey : LayerKey}
    (later : CapturedEdges paths openable layer middle captured children after)
    (opened : OpenedFrom openable graph middle)
    (resolves : ∀ authoredPath, (graph.resolve paths openable layer authoredPath).isSome →
      (middle.resolve paths openable layer authoredPath).isSome) :
    CapturedEdges paths openable layer graph ({ entry with layerKey := some layerKey } :: captured)
      (paths.target layer entry.authoredPath :: children) after where
  opened := opened.trans later.opened
  keyed := by
    intro other member found
    rcases List.mem_cons.1 member with rfl | old
    · rfl
    · exact later.keyed other old (resolves _ found)
  queued := by
    intro other member keyed
    rcases List.mem_cons.1 member with rfl | old
    · exact List.mem_cons_self
    · exact List.mem_cons_of_mem _ (later.queued other old keyed)

theorem captureEntries_edges (entries : List SublayerEntry)
    (bare : ∀ entry ∈ entries, entry.layerKey = none) {captured : List SublayerEntry}
    {children : List Layer}
    (succeeded : captureEntries paths openable layer entries graph =
      some (captured, children, after)) :
    CapturedEdges paths openable layer graph captured children after := by
  induction entries generalizing graph captured children with
  | nil =>
      obtain ⟨rfl, rest⟩ := Prod.mk.inj (Option.some.inj succeeded)
      obtain ⟨rfl, rfl⟩ := Prod.mk.inj rest
      exact ⟨OpenedFrom.refl _, fun _ member => (nomatch member), fun _ member => (nomatch member)⟩
  | cons entry rest ih =>
      have bareRest : ∀ other ∈ rest, other.layerKey = none :=
        fun other member => bare other (List.mem_cons_of_mem _ member)
      unfold captureEntries at succeeded
      cases found : graph.resolve paths openable layer entry.authoredPath with
      | none =>
          rw [found] at succeeded
          simp only [Option.bind_eq_bind, Option.bind_eq_some_iff] at succeeded
          obtain ⟨⟨laterEntries, laterChildren, final⟩, captureRest, same⟩ := succeeded
          obtain ⟨rfl, others⟩ := Prod.mk.inj (Option.some.inj same)
          obtain ⟨rfl, rfl⟩ := Prod.mk.inj others
          have later := ih bareRest captureRest
          refine ⟨later.opened, ?_, ?_⟩
          · intro other member resolves
            rcases List.mem_cons.1 member with rfl | old
            · rw [found] at resolves
              exact absurd resolves (by simp)
            · exact later.keyed other old resolves
          · intro other member keyed
            rcases List.mem_cons.1 member with rfl | old
            · rw [bare other List.mem_cons_self] at keyed
              exact absurd keyed (by simp)
            · exact later.queued other old keyed
      | some child =>
          obtain ⟨rfl, reason⟩ := resolve_eq_some.1 found
          rw [found] at succeeded
          simp only at succeeded
          cases known : graph.keysByIdentifier (paths.target layer entry.authoredPath) with
          | some layerKey =>
              rw [known] at succeeded
              simp only [Option.bind_eq_bind, Option.bind_eq_some_iff] at succeeded
              obtain ⟨⟨laterEntries, laterChildren, final⟩, captureRest, same⟩ := succeeded
              obtain ⟨rfl, others⟩ := Prod.mk.inj (Option.some.inj same)
              obtain ⟨rfl, rfl⟩ := Prod.mk.inj others
              exact (ih bareRest captureRest).cons entry (OpenedFrom.refl _) fun _ resolves =>
                resolves
          | none =>
              rw [known] at succeeded
              simp only [Option.bind_eq_bind, Option.bind_eq_some_iff] at succeeded
              obtain ⟨bound, bind, ⟨laterEntries, laterChildren, final⟩, captureRest, same⟩ :=
                succeeded
              obtain ⟨rfl, others⟩ := Prod.mk.inj (Option.some.inj same)
              obtain ⟨rfl, rfl⟩ := Prod.mk.inj others
              obtain ⟨within, _, _⟩ := bindKey_within bind
              obtain ⟨_, _, _, _, boundEq⟩ := bindKey_cases bind
              -- the layer bound here is one that could be opened
              have opened : OpenedFrom openable graph bound := by
                intro other routed
                rw [boundEq] at routed
                by_cases same : other = paths.target layer entry.authoredPath
                · rw [same]
                  rw [known] at reason
                  exact Or.inr (reason.resolve_left (by simp))
                · exact Or.inl (by simpa [routeKey, same] using routed)
              refine (ih bareRest captureRest).cons entry opened ?_
              intro authoredPath resolves
              obtain ⟨child, named⟩ := Option.isSome_iff_exists.1 resolves
              obtain ⟨target, held⟩ := resolve_eq_some.1 named
              refine Option.isSome_iff_exists.2 ⟨child, resolve_eq_some.2 ⟨target, ?_⟩⟩
              rcases held with routed | opens
              · obtain ⟨layerKey, keyOf⟩ := Option.isSome_iff_exists.1 routed
                exact Or.inl (Option.isSome_iff_exists.2 ⟨layerKey, within.keys keyOf⟩)
              · exact Or.inr opens

/-- The key has a list, or its layer waits in the queue. -/
def Awaits (graph : LayerGraph Layer) (queue : List Layer) (layerKey : LayerKey) : Prop :=
  layerKey ∈ graph.states ∨ ∃ layer ∈ queue, graph.layers layerKey = some layer

omit [DecidableEq Layer] in
/-- Taking a layer from the queue whose key has a list. -/
theorem Awaits.skip {queue : List Layer} {layerKey child : LayerKey} (routed : graph.Routed)
    (routedLayer : graph.layers layerKey = some layer) (stored : layerKey ∈ graph.states)
    (awaits : graph.Awaits (layer :: queue) child) : graph.Awaits queue child := by
  rcases awaits with present | ⟨other, member, routedOther⟩
  · exact Or.inl present
  · rcases List.mem_cons.1 member with rfl | later
    · have first := (routed.layers_iff _ _).1 routedLayer
      rw [(routed.layers_iff _ _).1 routedOther] at first
      obtain rfl := Option.some.inj first
      exact Or.inl stored
    · exact Or.inr ⟨other, later, routedOther⟩

/-- What the capture loop keeps: the visited layers have keyed lists, and every keyed child awaits
its own. -/
structure Capturing (paths : AssetPaths Layer) (openable : Layer → Bool) (queue visited : List Layer)
    (graph : LayerGraph Layer) : Prop where
  grounded : graph.Grounded paths
  routedQueue : ∀ layer ∈ queue, ∃ layerKey, graph.layers layerKey = some layer
  seen : ∀ layer ∈ visited, ∃ layerKey ∈ graph.states, graph.layers layerKey = some layer
  root : graph.Awaits queue graph.rootLayerKey
  children : ∀ layerKey child, child ∈ graph.childKeys layerKey → graph.Awaits queue child
  keyed : graph.StatesKeyed paths openable

omit [DecidableEq Layer] in
theorem Capturing.captured {queue visited children : List Layer} {layerKey : LayerKey}
    {captured : List SublayerEntry} {states : AList (fun _ : LayerKey => List SublayerEntry)}
    (capturing : ({ graph with states := states } : LayerGraph Layer).Capturing paths openable
      (layer :: queue) visited)
    (routedLayer : graph.layers layerKey = some layer)
    (valid : validSublayerEntries paths.portable [] (graph.readSublayerEntries layer) = true)
    (made : CapturedEntries paths layer (graph.readSublayerEntries layer) graph captured children
      after)
    (edges : CapturedEdges paths openable layer graph captured children after) :
    ({ after with states := states.insert layerKey captured } : LayerGraph Layer).Capturing paths
      openable (queue ++ children) (layer :: visited) := by
  have grounded := capturing.grounded
  have stored : ∀ {other}, other ∈ states → other ∈ states.insert layerKey captured :=
    fun present => (AList.mem_insert _).2 (Or.inr present)
  have here : layerKey ∈ states.insert layerKey captured := (AList.mem_insert _).2 (Or.inl rfl)
  have later : ∀ {other}, ({ graph with states := states } : LayerGraph Layer).Awaits
      (layer :: queue) other →
        ({ after with states := states.insert layerKey captured } : LayerGraph Layer).Awaits
          (queue ++ children) other := by
    intro other awaits
    rcases awaits with present | ⟨waiting, member, routedWaiting⟩
    · exact Or.inl (stored present)
    · rcases List.mem_cons.1 member with rfl | old
      · have first := (grounded.routed.layers_iff layerKey waiting).1 routedLayer
        rw [(grounded.routed.layers_iff other waiting).1 routedWaiting] at first
        obtain rfl := Option.some.inj first
        exact Or.inl here
      · exact Or.inr ⟨waiting, List.mem_append_left _ old, made.within.layers routedWaiting⟩
  refine
    { grounded := made.grounded grounded routedLayer valid
      routedQueue := ?_
      seen := ?_
      root := ?_
      children := ?_
      keyed := ?_ }
  · intro other member
    rcases List.mem_append.1 member with old | new
    · obtain ⟨otherKey, routedOther⟩ := capturing.routedQueue other (List.mem_cons_of_mem _ old)
      exact ⟨otherKey, made.within.layers routedOther⟩
    · obtain ⟨_, _, childKey, _, routedChild⟩ := made.children other new
      exact ⟨childKey, routedChild⟩
  · intro other member
    rcases List.mem_cons.1 member with rfl | old
    · exact ⟨layerKey, here, made.within.layers routedLayer⟩
    · obtain ⟨otherKey, present, routedOther⟩ := capturing.seen other old
      exact ⟨otherKey, stored present, made.within.layers routedOther⟩
  · have sameRoot : after.rootLayerKey = graph.rootLayerKey := made.same.rootLayerKey
    simp only [sameRoot]
    exact later capturing.root
  · intro parentKey child edge
    obtain ⟨entries, found, entry, member, keyed⟩ := mem_childKeys.1 edge
    by_cases edited : parentKey = layerKey
    · subst edited
      obtain rfl := Option.some.inj ((AList.lookup_insert _).symm.trans found)
      refine Or.inr ⟨_, List.mem_append_right _ (edges.queued entry member ?_),
        made.keyed entry member child keyed⟩
      rw [keyed]
      rfl
    · refine later (capturing.children parentKey child (mem_childKeys.2
        ⟨entries, ?_, entry, member, keyed⟩))
      simpa only [AList.lookup_insert_ne edited] using found
  · intro otherKey entries found
    by_cases edited : otherKey = layerKey
    · subst edited
      obtain rfl := Option.some.inj ((AList.lookup_insert _).symm.trans found)
      intro parent routedParent entry member resolves
      rw [show after.layers otherKey = some layer from made.within.layers routedLayer]
        at routedParent
      obtain rfl := Option.some.inj routedParent
      exact edges.keyed entry member (edges.opened.resolve resolves)
    · simp only [AList.lookup_insert_ne edited] at found
      obtain ⟨routedTo, routedOther⟩ := grounded.stateLayer otherKey
        (AList.lookup_isSome.1 (by rw [found]; rfl))
      intro parent routedParent entry member resolves
      rw [show after.layers otherKey = some routedTo from made.within.layers routedOther]
        at routedParent
      obtain rfl := Option.some.inj routedParent
      exact capturing.keyed found routedTo routedOther entry member (edges.opened.resolve resolves)

/-- A capture that ends leaves no key awaiting a list. -/
theorem captureLoop_complete (steps : Nat) (queue visited : List Layer)
    {states final : AList (fun _ : LayerKey => List SublayerEntry)}
    (capturing : ({ graph with states := states } : LayerGraph Layer).Capturing paths openable queue
      visited)
    (succeeded : captureLoop paths openable steps queue visited states graph =
      some (final, after)) :
    ∃ visited, ({ after with states := final } : LayerGraph Layer).Capturing paths openable []
      visited := by
  induction steps generalizing queue visited states graph with
  | zero =>
      cases queue with
      | nil =>
          obtain ⟨rfl, rfl⟩ := Prod.mk.inj (Option.some.inj succeeded)
          exact ⟨visited, capturing⟩
      | cons layer queue => exact absurd succeeded (by simp [captureLoop])
  | succ steps ih =>
      cases queue with
      | nil =>
          obtain ⟨rfl, rfl⟩ := Prod.mk.inj (Option.some.inj succeeded)
          exact ⟨visited, capturing⟩
      | cons layer queue =>
          by_cases seen : layer ∈ visited
          · unfold captureLoop at succeeded
            rw [if_pos seen] at succeeded
            obtain ⟨layerKey, stored, routedLayer⟩ := capturing.seen layer seen
            have routed := capturing.grounded.routed
            refine ih queue visited ?_ succeeded
            exact
              { grounded := capturing.grounded
                routedQueue := fun other member =>
                  capturing.routedQueue other (List.mem_cons_of_mem _ member)
                seen := capturing.seen
                root := capturing.root.skip routed routedLayer stored
                children := fun parentKey child edge =>
                  (capturing.children parentKey child edge).skip routed routedLayer stored
                keyed := capturing.keyed }
          · obtain ⟨layerKey, routedLayer⟩ := capturing.routedQueue layer List.mem_cons_self
            have grounded := capturing.grounded
            have routed : graph.Routed :=
              ⟨grounded.routed.layers_iff, grounded.routed.identity_iff,
                grounded.routed.remembered, grounded.routed.drawn⟩
            obtain ⟨captured, children, middle, valid, captureOne, made, looped⟩ :=
              captureLoop_unseen routed grounded.nextKey routedLayer seen succeeded
            have edges := captureEntries_edges (graph.readSublayerEntries layer)
              (by simp [readSublayerEntries, SublayerEntry.withoutKey]) captureOne
            exact ih _ _ (capturing.captured routedLayer valid made edges) looped

/-- The constructor builds a complete graph and keys every edge it resolves. -/
theorem createAuthoritative_complete {steps : Nat} {rootLayer : Layer}
    {authored : Layer → List SublayerEntry}
    (created : createAuthoritative paths openable steps rootLayer authored = some graph) :
    graph.Complete paths ∧ graph.StatesKeyed paths openable := by
  have revised := createAuthoritative_revised created
  obtain ⟨rooted, states, captured, routedRoot, rootKey, _, rootedGrounded, looped, rfl⟩ :=
    createAuthoritative_cases created
  have capturing : ({ rooted with states := ∅ } : LayerGraph Layer).Capturing paths openable
      [rootLayer] [] :=
    { grounded := rootedGrounded
      routedQueue := by
        intro layer member
        rw [List.mem_singleton.1 member]
        exact ⟨1, routedRoot⟩
      seen := fun _ member => nomatch member
      root := by
        refine Or.inr ⟨rootLayer, List.mem_cons_self, ?_⟩
        show rooted.layers rooted.rootLayerKey = some rootLayer
        rw [rootKey]
        exact routedRoot
      children := by
        intro layerKey child edge
        obtain ⟨entries, found, _⟩ := mem_childKeys.1 edge
        exact absurd found (by simp)
      keyed := fun found => absurd found (by simp) }
  obtain ⟨_, finished⟩ := captureLoop_complete steps [rootLayer] [] capturing looped
  have stored : ∀ {layerKey}, ({ captured with states := states } : LayerGraph Layer).Awaits []
      layerKey → layerKey ∈ states := by
    intro layerKey awaits
    rcases awaits with present | ⟨_, member, _⟩
    · exact present
    · exact nomatch member
  exact ⟨⟨revised, stored finished.root, fun {layerKey child} edge =>
    stored (finished.children layerKey child edge)⟩, finished.keyed⟩

end Capture

/-! ### Runs -/

theorem AuthoritativeRun.complete {graph : LayerGraph Layer} (run : AuthoritativeRun paths graph) :
    graph.Complete paths := by
  induction run with
  | created built => exact (createAuthoritative_complete built).1
  | operated before operation ih => exact (ih.operate operation).1
  | rolledBack before attempt ih => exact ih.rollback attempt

/-- After construction, after any operations and after any rollback, the routing state is closed,
the baseline of the graph is valid, and the edges that resolve during construction and during
every operation have keys. -/
theorem closed_of_authoritativeRun (paths : AssetPaths Layer) :
    (∀ {openable steps rootLayer authored} {graph : LayerGraph Layer},
      createAuthoritative paths openable steps rootLayer authored = some graph →
        graph.StatesKeyed paths openable) ∧
    ∀ {graph : LayerGraph Layer}, AuthoritativeRun paths graph →
      graph.Closed paths ∧ ∀ operation, OperationKeyed paths graph operation := by
  constructor
  · intro openable steps rootLayer authored graph created
    exact (createAuthoritative_complete created).2
  · intro graph run
    exact ⟨run.complete.closed, fun operation => (run.complete.operate operation).2⟩

/-! ### A shared child in a cycle -/

/-- `x.usda` and `y.usda` share `z.usda`, which lists the root. -/
def cyclicContents (layer : String) : List SublayerEntry :=
  if layer = "root.usda" then [{ authoredPath := "x.usda" }, { authoredPath := "y.usda" }]
  else if layer = "x.usda" ∨ layer = "y.usda" then [{ authoredPath := "z.usda" }]
  else if layer = "z.usda" then [{ authoredPath := "root.usda" }]
  else []

/-- The stage is captured while `y.usda` is missing. -/
def cyclicServer : LayerGraph String :=
  (createAuthoritative siblingPaths (fun layer => layer != "y.usda") 10 "root.usda"
    cyclicContents).get (by decide)

/-- `y.usda` appears, then `x.usda` leaves the root's list. -/
def cyclicEdits : LayerGraph String :=
  ((cyclicServer.operate siblingPaths (.refreshResolved (fun _ => true) 10)).2.operate siblingPaths
    (.editSublayers 1 ⟨1, 2, [{ authoredPath := "y.usda" }]⟩ (fun _ => true) 10)).2

theorem closed_of_authoritativeRun_cyclic :
    cyclicServer.StatesKeyed siblingPaths (fun layer => layer != "y.usda") ∧
      cyclicEdits.reachableLayerKeys = [1, 4, 3] ∧ cyclicEdits.Closed siblingPaths := by
  have created : createAuthoritative siblingPaths (fun layer => layer != "y.usda") 10 "root.usda"
      cyclicContents = some cyclicServer := (Option.some_get _).symm
  have closed := @closed_of_authoritativeRun String _ siblingPaths
  refine ⟨closed.1 created, by decide +kernel, ?_⟩
  exact (closed.2 (((AuthoritativeRun.created created).operated _).operated _)).1

end LayerGraph

end UsdConnect
