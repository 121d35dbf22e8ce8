/-
Purpose: Replicas over whole runs: through any list of edits, refreshes and new generations, a
  replica follows the server as long as every edit is safe.
Trusted boundary: none
Main exports: Follows, SafeRun, replica_follows_safeRun
-/
import UsdConnect.Proofs.GraphEdits
import UsdConnect.Proofs.GraphBaseline

namespace UsdConnect

namespace LayerGraph

variable {Layer : Type} [DecidableEq Layer] {paths : AssetPaths Layer}

/-! ### The captured graph -/

/-- What capturing the entries of one layer returns. -/
structure CapturedEntries (paths : AssetPaths Layer) (layer : Layer)
    (entries : List SublayerEntry) (graph : LayerGraph Layer) (captured : List SublayerEntry)
    (children : List Layer) (after : LayerGraph Layer) : Prop where
  within : RoutesWithin graph after
  routed : after.Routed
  supply : graph.nextKey ≤ after.nextKey
  same : SameTopology { graph with nextKey := after.nextKey } after
  withoutKeys : captured.map SublayerEntry.withoutKey = entries.map SublayerEntry.withoutKey
  keyed : ∀ entry ∈ captured, ∀ layerKey, entry.layerKey = some layerKey →
    after.layers layerKey = some (paths.target layer entry.authoredPath)
  children : ∀ child ∈ children, ∃ entry ∈ captured, ∃ layerKey,
    entry.layerKey = some layerKey ∧ after.layers layerKey = some child

omit [DecidableEq Layer] in
/-- One more entry in front, keyed with a layer that is routed afterwards, or unresolved. -/
theorem CapturedEntries.cons {layer : Layer} (entry : SublayerEntry) {rest : List SublayerEntry}
    {graph middle after : LayerGraph Layer} {captured : List SublayerEntry}
    {children : List Layer} (later : CapturedEntries paths layer rest middle captured children after)
    (within : RoutesWithin graph middle) (supply : graph.nextKey ≤ middle.nextKey)
    (same : SameTopology { graph with nextKey := middle.nextKey } middle)
    (given : Option LayerKey)
    (routed : ∀ layerKey, given = some layerKey →
      middle.layers layerKey = some (paths.target layer entry.authoredPath)) :
    CapturedEntries paths layer (entry :: rest) graph
      ({ entry with layerKey := given } :: captured)
      ((given.map fun _ => paths.target layer entry.authoredPath).toList ++ children) after := by
  refine
    { within := within.trans later.within
      routed := later.routed
      supply := supply.trans later.supply
      same := ?_
      withoutKeys := ?_
      keyed := ?_
      children := ?_ }
  · exact ⟨later.same.authoritative.trans same.authoritative,
      later.same.rootLayer.trans same.rootLayer, later.same.generation.trans same.generation,
      later.same.revision.trans same.revision, later.same.ready.trans same.ready,
      later.same.rootLayerKey.trans same.rootLayerKey, later.same.states.trans same.states,
      later.same.parentRevisions.trans same.parentRevisions,
      later.same.authored.trans same.authored, rfl,
      later.same.nextGeneration.trans same.nextGeneration⟩
  · simp only [List.map_cons, later.withoutKeys]
    rfl
  · intro other member layerKey otherKeyed
    rcases List.mem_cons.1 member with rfl | old
    · exact later.within.layers (routed layerKey otherKeyed)
    · exact later.keyed other old layerKey otherKeyed
  · intro child member
    rcases List.mem_append.1 member with here | there
    · cases given with
      | none => exact nomatch here
      | some layerKey =>
          rw [List.mem_singleton.1 here]
          exact ⟨_, List.mem_cons_self, layerKey, rfl, later.within.layers (routed layerKey rfl)⟩
    · obtain ⟨other, present, layerKey, otherKeyed, routedChild⟩ := later.children child there
      exact ⟨other, List.mem_cons_of_mem _ present, layerKey, otherKeyed, routedChild⟩

theorem captureEntries_captured {openable : Layer → Bool} {layer : Layer}
    (entries : List SublayerEntry) (bare : ∀ entry ∈ entries, entry.layerKey = none)
    {graph after : LayerGraph Layer} (routed : graph.Routed) (positive : 0 < graph.nextKey)
    {captured : List SublayerEntry} {children : List Layer}
    (succeeded : captureEntries paths openable layer entries graph =
      some (captured, children, after)) :
    CapturedEntries paths layer entries graph captured children after := by
  induction entries generalizing graph captured children with
  | nil =>
      obtain ⟨rfl, rest⟩ := Prod.mk.inj (Option.some.inj succeeded)
      obtain ⟨rfl, rfl⟩ := Prod.mk.inj rest
      exact
        { within := RoutesWithin.refl _
          routed := routed
          supply := Nat.le_refl _
          same := SameTopology.refl _
          withoutKeys := rfl
          keyed := fun _ member => nomatch member
          children := fun _ member => nomatch member }
  | cons entry rest ih =>
      have bareRest : ∀ other ∈ rest, other.layerKey = none :=
        fun other member => bare other (List.mem_cons_of_mem _ member)
      have bareHere : { entry with layerKey := none } = entry := by
        rw [← bare entry List.mem_cons_self]
      unfold captureEntries at succeeded
      cases found : graph.resolve paths openable layer entry.authoredPath with
      | none =>
          rw [found] at succeeded
          simp only [Option.bind_eq_bind, Option.bind_eq_some_iff] at succeeded
          obtain ⟨⟨laterEntries, laterChildren, final⟩, captureRest, same⟩ := succeeded
          obtain ⟨rfl, others⟩ := Prod.mk.inj (Option.some.inj same)
          obtain ⟨rfl, rfl⟩ := Prod.mk.inj others
          have made := (ih bareRest routed positive captureRest).cons entry
            (RoutesWithin.refl _) (Nat.le_refl _) (SameTopology.refl _) none
            (fun _ given => nomatch given)
          rw [bareHere] at made
          exact made
      | some child =>
          obtain ⟨rfl, _⟩ := resolve_eq_some.1 found
          rw [found] at succeeded
          simp only at succeeded
          cases known : graph.keysByIdentifier (paths.target layer entry.authoredPath) with
          | some layerKey =>
              rw [known] at succeeded
              simp only [Option.bind_eq_bind, Option.bind_eq_some_iff] at succeeded
              obtain ⟨⟨laterEntries, laterChildren, final⟩, captureRest, same⟩ := succeeded
              obtain ⟨rfl, others⟩ := Prod.mk.inj (Option.some.inj same)
              obtain ⟨rfl, rfl⟩ := Prod.mk.inj others
              refine (ih bareRest routed positive captureRest).cons entry (RoutesWithin.refl _)
                (Nat.le_refl _) (SameTopology.refl _) (some layerKey) ?_
              intro other given
              obtain rfl := Option.some.inj given
              exact (routed.layers_iff _ _).2 known
          | none =>
              rw [known] at succeeded
              simp only [Option.bind_eq_bind, Option.bind_eq_some_iff] at succeeded
              obtain ⟨bound, bind, ⟨laterEntries, laterChildren, final⟩, captureRest, same⟩ :=
                succeeded
              obtain ⟨rfl, others⟩ := Prod.mk.inj (Option.some.inj same)
              obtain ⟨rfl, rfl⟩ := Prod.mk.inj others
              obtain ⟨within, here, boundSame⟩ := bindKey_within bind
              have boundRouted := bindKey_routed bind
                (routed.withNextKey (Nat.le_succ _) graph.authored)
                ⟨positive, Nat.lt_succ_self _⟩
              have boundKey : bound.nextKey = graph.nextKey + 1 := boundSame.nextKey
              have widened : RoutesWithin graph bound :=
                ⟨within.layers, within.keys, within.identityKeys, within.identityIdentifiers⟩
              refine (ih bareRest boundRouted (by omega) captureRest).cons entry widened (by omega)
                ?_ (some graph.nextKey) ?_
              · exact ⟨boundSame.authoritative, boundSame.rootLayer, boundSame.generation,
                  boundSame.revision, boundSame.ready, boundSame.rootLayerKey, boundSame.states,
                  boundSame.parentRevisions, boundSame.authored, rfl, boundSame.nextGeneration⟩
              · intro other given
                obtain rfl := Option.some.inj given
                exact here

omit [DecidableEq Layer] in
/-- Storing the captured entries of a routed layer keeps the graph grounded. -/
theorem CapturedEntries.grounded {layer : Layer} {graph after : LayerGraph Layer}
    {states : AList (fun _ : LayerKey => List SublayerEntry)} {captured : List SublayerEntry}
    {children : List Layer} {layerKey : LayerKey}
    (made : CapturedEntries paths layer (graph.readSublayerEntries layer) graph captured children
      after)
    (grounded : ({ graph with states := states } : LayerGraph Layer).Grounded paths)
    (routedLayer : graph.layers layerKey = some layer)
    (valid : validSublayerEntries paths.portable [] (graph.readSublayerEntries layer) = true) :
    ({ after with states := states.insert layerKey captured } : LayerGraph Layer).Grounded
      paths := by
  have routedAfter : after.layers layerKey = some layer := made.within.layers routedLayer
  have authored : after.authored = graph.authored := made.same.authored
  have unchanged : ∀ other entries, other ≠ layerKey →
      (states.insert layerKey captured).lookup other = some entries →
        states.lookup other = some entries := by
    intro other entries different found
    rwa [AList.lookup_insert_ne different] at found
  have kept : ∀ other entries routedTo, states.lookup other = some entries →
      after.layers other = some routedTo → graph.layers other = some routedTo := by
    intro other entries routedTo found routedOther
    obtain ⟨before, routedBefore⟩ := grounded.stateLayer other
      (AList.lookup_isSome.1 (by rw [found]; rfl))
    rw [made.within.layers routedBefore] at routedOther
    rw [← routedOther]
    exact routedBefore
  refine
    { routed := ⟨made.routed.layers_iff, made.routed.identity_iff, made.routed.remembered,
        made.routed.drawn⟩
      ready := made.same.ready.trans grounded.ready
      rootKey := ?_
      stateLayer := ?_
      entryLayer := ?_
      valid := ?_
      revisions := ?_
      generation := ?_
      revision := ?_
      nextKey := Nat.lt_of_lt_of_le grounded.nextKey made.supply
      authored := ?_ }
  · show after.layers after.rootLayerKey = some after.rootLayer
    rw [made.same.rootLayerKey, made.same.rootLayer]
    exact made.within.layers grounded.rootKey
  · intro other present
    rcases (AList.mem_insert _).1 present with rfl | old
    · exact ⟨layer, routedAfter⟩
    · obtain ⟨before, routedBefore⟩ := grounded.stateLayer other old
      exact ⟨before, made.within.layers routedBefore⟩
  · intro other entries routedTo found routedOther entry member childKey keyed
    by_cases here : other = layerKey
    · subst here
      obtain rfl := Option.some.inj ((AList.lookup_insert _).symm.trans found)
      obtain rfl := Option.some.inj (routedAfter.symm.trans routedOther)
      exact made.keyed entry member childKey keyed
    · have before := unchanged other entries here found
      exact made.within.layers (grounded.entryLayer before
        (kept other entries routedTo before routedOther) entry member childKey keyed)
  · intro other entries found
    by_cases here : other = layerKey
    · subst here
      obtain rfl := Option.some.inj ((AList.lookup_insert _).symm.trans found)
      exact valid_of_withoutKey made.withoutKeys [] valid
    · exact grounded.valid (unchanged other entries here found)
  · intro other revision found
    replace found : after.parentRevisions other = some revision := found
    rw [made.same.parentRevisions] at found
    obtain ⟨present, positive⟩ := grounded.revisions found
    exact ⟨(AList.mem_insert _).2 (Or.inr present), positive⟩
  · show 0 < after.generation ∧ after.generation < after.nextGeneration
    rw [made.same.generation, made.same.nextGeneration]
    exact grounded.generation
  · show 0 < after.revision
    rw [made.same.revision]
    exact grounded.revision
  · intro other entries routedTo found routedOther
    show (after.authored routedTo).map SublayerEntry.withoutKey = _
    rw [authored]
    by_cases here : other = layerKey
    · subst here
      obtain rfl := Option.some.inj ((AList.lookup_insert _).symm.trans found)
      obtain rfl := Option.some.inj (routedAfter.symm.trans routedOther)
      rw [made.withoutKeys, withoutKey_read]
      rfl
    · have before := unchanged other entries here found
      exact grounded.authored before (kept other entries routedTo before routedOther)

omit [DecidableEq Layer] in
/-- Storing entries under a new key only adds edges. -/
theorem reached_insert {graph after : LayerGraph Layer}
    {states : AList (fun _ : LayerKey => List SublayerEntry)} {layerKey other : LayerKey}
    {captured : List SublayerEntry} (rootLayerKey : after.rootLayerKey = graph.rootLayerKey)
    (fresh : layerKey ∉ states)
    (reached : ({ graph with states := states } : LayerGraph Layer).Reached other) :
    ({ after with states := states.insert layerKey captured } : LayerGraph Layer).Reached
      other := by
  unfold Reached at reached ⊢
  simp only [rootLayerKey]
  refine Worklist.Reaches.mono ?_ reached
  intro node child edge
  obtain ⟨entries, found, entry, member, keyed⟩ := mem_childKeys.1 edge
  refine mem_childKeys.2 ⟨entries, ?_, entry, member, keyed⟩
  have different : node ≠ layerKey := by
    rintro rfl
    exact fresh (AList.lookup_isSome.1 (by rw [found]; rfl))
  simpa only [AList.lookup_insert_ne different] using found

/-- The loop captures the entries of a routed layer that it has not seen. -/
theorem captureLoop_unseen {openable : Layer → Bool} {steps : Nat} {layer : Layer}
    {queue visited : List Layer} {states final : AList (fun _ : LayerKey => List SublayerEntry)}
    {graph after : LayerGraph Layer} (routed : graph.Routed) (positive : 0 < graph.nextKey)
    {layerKey : LayerKey} (routedLayer : graph.layers layerKey = some layer)
    (unseen : layer ∉ visited)
    (succeeded : captureLoop paths openable (steps + 1) (layer :: queue) visited states graph =
      some (final, after)) :
    ∃ captured children middle,
      validSublayerEntries paths.portable [] (graph.readSublayerEntries layer) = true ∧
      captureEntries paths openable layer (graph.readSublayerEntries layer) graph =
        some (captured, children, middle) ∧
      CapturedEntries paths layer (graph.readSublayerEntries layer) graph captured children
        middle ∧
      captureLoop paths openable steps (queue ++ children) (layer :: visited)
        (states.insert layerKey captured) middle = some (final, after) := by
  unfold captureLoop at succeeded
  rw [if_neg unseen] at succeeded
  simp only [(routed.layers_iff layerKey layer).1 routedLayer, Option.bind_eq_bind,
    Option.bind_eq_some_iff, Option.some.injEq, normalize_eq_some] at succeeded
  obtain ⟨_, rfl, _, ⟨valid, rfl⟩, ⟨captured, children, middle⟩, captureOne, looped⟩ := succeeded
  have made := captureEntries_captured (graph.readSublayerEntries layer)
    (by simp [readSublayerEntries, SublayerEntry.withoutKey]) routed positive captureOne
  exact ⟨captured, children, middle, valid, captureOne, made, looped⟩

/-- The captured states are grounded and every captured key is reached.  The loop keeps that every
stored key belongs to a visited layer and every queued layer to a reached key. -/
theorem captureLoop_grounded {openable : Layer → Bool} (steps : Nat) (queue visited : List Layer)
    {states final : AList (fun _ : LayerKey => List SublayerEntry)}
    {graph after : LayerGraph Layer}
    (grounded : ({ graph with states := states } : LayerGraph Layer).Grounded paths)
    (covered : ∀ layerKey ∈ states, ∃ layer ∈ visited, graph.layers layerKey = some layer)
    (reached : ∀ layerKey ∈ states,
      ({ graph with states := states } : LayerGraph Layer).Reached layerKey)
    (queued : ∀ layer ∈ queue, ∃ layerKey, graph.layers layerKey = some layer ∧
      ({ graph with states := states } : LayerGraph Layer).Reached layerKey)
    (succeeded : captureLoop paths openable steps queue visited states graph =
      some (final, after)) :
    ({ after with states := final } : LayerGraph Layer).Grounded paths ∧
    (∀ layerKey ∈ final, ({ after with states := final } : LayerGraph Layer).Reached layerKey) ∧
    after.parentRevisions = graph.parentRevisions ∧ after.rootLayer = graph.rootLayer := by
  induction steps generalizing queue visited states graph with
  | zero =>
      cases queue with
      | nil =>
          obtain ⟨rfl, rfl⟩ := Prod.mk.inj (Option.some.inj succeeded)
          exact ⟨grounded, reached, rfl, rfl⟩
      | cons layer queue => exact absurd succeeded (by simp [captureLoop])
  | succ steps ih =>
      cases queue with
      | nil =>
          obtain ⟨rfl, rfl⟩ := Prod.mk.inj (Option.some.inj succeeded)
          exact ⟨grounded, reached, rfl, rfl⟩
      | cons layer queue =>
          have queuedRest : ∀ other ∈ queue, ∃ layerKey, graph.layers layerKey = some other ∧
              ({ graph with states := states } : LayerGraph Layer).Reached layerKey :=
            fun other member => queued other (List.mem_cons_of_mem _ member)
          by_cases visitedLayer : layer ∈ visited
          · unfold captureLoop at succeeded
            rw [if_pos visitedLayer] at succeeded
            exact ih queue visited grounded covered reached queuedRest succeeded
          · obtain ⟨layerKey, routedLayer, reachedKey⟩ := queued layer List.mem_cons_self
            have routed : graph.Routed :=
              ⟨grounded.routed.layers_iff, grounded.routed.identity_iff,
                grounded.routed.remembered, grounded.routed.drawn⟩
            obtain ⟨captured, children, middle, valid, _, made, looped⟩ :=
              captureLoop_unseen routed grounded.nextKey routedLayer visitedLayer succeeded
            have fresh : layerKey ∉ states := by
              intro stored
              obtain ⟨seen, member, routedSeen⟩ := covered layerKey stored
              rw [routedLayer] at routedSeen
              obtain rfl := Option.some.inj routedSeen
              exact visitedLayer member
            have rootLayerKey : middle.rootLayerKey = graph.rootLayerKey :=
              made.same.rootLayerKey
            have mono : ∀ other,
                ({ graph with states := states } : LayerGraph Layer).Reached other →
                ({ middle with states := states.insert layerKey captured } :
                  LayerGraph Layer).Reached other :=
              fun other => reached_insert rootLayerKey fresh
            obtain ⟨finalGrounded, finalReached, revisions, rootLayer⟩ :=
              ih (queue ++ children) (layer :: visited)
                (made.grounded grounded routedLayer valid) (by
                  intro other present
                  rcases (AList.mem_insert _).1 present with rfl | old
                  · exact ⟨layer, List.mem_cons_self, made.within.layers routedLayer⟩
                  · obtain ⟨seen, member, routedSeen⟩ := covered other old
                    exact ⟨seen, List.mem_cons_of_mem _ member, made.within.layers routedSeen⟩)
                (by
                  intro other present
                  rcases (AList.mem_insert _).1 present with rfl | old
                  · exact mono other reachedKey
                  · exact mono other (reached other old))
                (by
                  intro other member
                  rcases List.mem_append.1 member with old | new
                  · obtain ⟨otherKey, routedOther, reachedOther⟩ := queuedRest other old
                    exact ⟨otherKey, made.within.layers routedOther, mono otherKey reachedOther⟩
                  · obtain ⟨entry, present, childKey, keyed, routedChild⟩ :=
                      made.children other new
                    refine ⟨childKey, routedChild, (mono layerKey reachedKey).tail ?_⟩
                    exact mem_childKeys.2
                      ⟨captured, AList.lookup_insert _, entry, present, keyed⟩)
                looped
            exact ⟨finalGrounded, finalReached, revisions.trans made.same.parentRevisions,
              rootLayer.trans made.same.rootLayer⟩

/-- What the constructor does: it binds the root, whose graph has no lists yet, and captures. -/
theorem createAuthoritative_cases {openable : Layer → Bool} {steps : Nat} {rootLayer : Layer}
    {authored : Layer → List SublayerEntry} {graph : LayerGraph Layer}
    (created : createAuthoritative paths openable steps rootLayer authored = some graph) :
    ∃ rooted states captured, rooted.layers 1 = some rootLayer ∧ rooted.rootLayerKey = 1 ∧
      rooted.parentRevisions = (fun _ => none) ∧
      ({ rooted with states := ∅ } : LayerGraph Layer).Grounded paths ∧
      captureLoop paths openable steps [rootLayer] [] ∅ rooted = some (states, captured) ∧
      graph = { captured with
        states := states
        parentRevisions := fun layerKey =>
          if layerKey ∈ states then some ((captured.parentRevisions layerKey).getD 1)
          else none } := by
  simp only [createAuthoritative, Option.bind_eq_bind, Option.bind_eq_some_iff] at created
  obtain ⟨rooted, bind, ⟨states, captured⟩, looped, same⟩ := created
  obtain ⟨_, routedRoot, sameRooted⟩ := bindKey_within bind
  have rootedRouted : rooted.Routed := by
    refine bindKey_routed bind ⟨?_, ?_, ?_, ?_⟩ ⟨Nat.one_pos, Nat.one_lt_two⟩
    · intro layerKey layer
      exact ⟨fun found => (nomatch found), fun found => (nomatch found)⟩
    · intro layerKey layer
      exact ⟨fun found => (nomatch found), fun found => (nomatch found)⟩
    · exact fun found => nomatch found
    · exact fun found => nomatch found
  have noRevisions : rooted.parentRevisions = fun _ => none := sameRooted.parentRevisions
  refine ⟨rooted, states, captured, routedRoot, sameRooted.rootLayerKey, noRevisions, ?_, looped,
    (Option.some.inj same).symm⟩
  exact
    { routed := ⟨rootedRouted.layers_iff, rootedRouted.identity_iff, rootedRouted.remembered,
        rootedRouted.drawn⟩
      ready := sameRooted.ready
      rootKey := by
        show rooted.layers rooted.rootLayerKey = some rooted.rootLayer
        rw [sameRooted.rootLayerKey, sameRooted.rootLayer]
        exact routedRoot
      stateLayer := fun layerKey present => absurd present (AList.notMem_empty _)
      entryLayer := fun found => absurd found (by simp)
      valid := fun found => absurd found (by simp)
      revisions := by
        intro layerKey revision found
        replace found : rooted.parentRevisions layerKey = some revision := found
        rw [noRevisions] at found
        exact nomatch found
      generation := by
        show 0 < rooted.generation ∧ rooted.generation < rooted.nextGeneration
        rw [sameRooted.generation, sameRooted.nextGeneration]
        exact ⟨Nat.one_pos, Nat.one_lt_two⟩
      revision := by
        show 0 < rooted.revision
        rw [sameRooted.revision]
        exact Int.one_pos
      nextKey := by
        show 0 < rooted.nextKey
        rw [sameRooted.nextKey]
        exact Nat.two_pos
      authored := fun found => absurd found (by simp) }

/-- The constructor builds a settled graph of the root layer. -/
theorem createAuthoritative_built {openable : Layer → Bool} {steps : Nat} {rootLayer : Layer}
    {authored : Layer → List SublayerEntry} {graph : LayerGraph Layer}
    (created : createAuthoritative paths openable steps rootLayer authored = some graph) :
    graph.Settled paths ∧ graph.rootLayer = rootLayer := by
  obtain ⟨rooted, states, captured, routedRoot, root, noRevisions, rootedGrounded, looped, rfl⟩ :=
    createAuthoritative_cases created
  have queuedRoot : ∀ layer ∈ [rootLayer], ∃ layerKey, rooted.layers layerKey = some layer ∧
      ({ rooted with states := ∅ } : LayerGraph Layer).Reached layerKey := by
    intro layer member
    rw [List.mem_singleton.1 member]
    refine ⟨1, routedRoot, ?_⟩
    rw [← root]
    exact Relation.ReflTransGen.refl
  obtain ⟨grounded, reached, revisions, sameRoot⟩ := captureLoop_grounded steps [rootLayer] []
    rootedGrounded (fun _ present => absurd present (AList.notMem_empty _))
    (fun _ present => absurd present (AList.notMem_empty _)) queuedRoot looped
  have rootedRoot := rootedGrounded.rootKey
  rw [show _ = 1 from root, show _ = some rootLayer from routedRoot] at rootedRoot
  refine ⟨⟨?_, reached⟩, sameRoot.trans (Option.some.inj rootedRoot).symm⟩
  refine
    { routed := ⟨grounded.routed.layers_iff, grounded.routed.identity_iff,
        grounded.routed.remembered, grounded.routed.drawn⟩
      ready := grounded.ready
      rootKey := grounded.rootKey
      stateLayer := grounded.stateLayer
      entryLayer := grounded.entryLayer
      valid := grounded.valid
      revisions := ?_
      generation := grounded.generation
      revision := grounded.revision
      nextKey := grounded.nextKey
      authored := grounded.authored }
  intro layerKey revision found
  by_cases present : layerKey ∈ states
  · simp only [if_pos present, revisions, noRevisions, Option.getD_none, Option.some.injEq] at found
    exact ⟨present, Nat.le_of_eq found⟩
  · simp only [if_neg present] at found
    exact nomatch found

theorem createAuthoritative_settled {openable : Layer → Bool} {steps : Nat} {rootLayer : Layer}
    {authored : Layer → List SublayerEntry} {graph : LayerGraph Layer}
    (created : createAuthoritative paths openable steps rootLayer authored = some graph) :
    graph.Settled paths :=
  (createAuthoritative_built created).1

/-! ### New generations -/

omit [DecidableEq Layer] in
/-- Rotating the revision domain of a settled graph whose state message is complete. -/
theorem startNewGeneration_settled {graph rotated : LayerGraph Layer} {state : GraphState}
    (settled : graph.Settled paths) (started : graph.startNewGeneration = some rotated)
    (message : rotated.stateMessage = some state) :
    rotated.Settled paths ∧ rotated.generation = graph.nextGeneration ∧
      rotated.rootLayer = graph.rootLayer := by
  have grounded := settled.grounded
  unfold startNewGeneration at started
  rw [if_neg (by rw [grounded.ready]; decide)] at started
  obtain rfl := Option.some.inj started
  simp only [stateMessage, Option.bind_eq_bind, Option.bind_eq_some_iff, require_eq_some] at message
  obtain ⟨_, _, layers, mapped, _⟩ := message
  have complete : ∀ layerKey ∈ graph.reachableLayerKeys, layerKey ∈ graph.states := by
    have listed := stored_of_mapM mapped
    exact listed
  refine ⟨⟨?_, settled.reached⟩, rfl, rfl⟩
  refine
    { routed := ⟨grounded.routed.layers_iff, grounded.routed.identity_iff,
        grounded.routed.remembered, grounded.routed.drawn⟩
      ready := grounded.ready
      rootKey := grounded.rootKey
      stateLayer := grounded.stateLayer
      entryLayer := grounded.entryLayer
      valid := grounded.valid
      revisions := ?_
      generation := ⟨Nat.lt_trans grounded.generation.1 grounded.generation.2, Nat.lt_succ_self _⟩
      revision := Int.one_pos
      nextKey := grounded.nextKey
      authored := grounded.authored }
  intro layerKey revision found
  by_cases reachable : layerKey ∈ graph.reachableLayerKeys
  · simp only [if_pos reachable, Option.some.injEq] at found
    exact ⟨complete layerKey reachable, Nat.le_of_eq found⟩
  · simp only [if_neg reachable] at found
    cases found

/-! ### Runs -/

/-- What the replica must show of the server. -/
structure Follows (server replica : LayerGraph Layer) : Prop where
  rootLayerKey : replica.rootLayerKey = server.rootLayerKey
  reachable : ∀ layerKey,
    layerKey ∈ replica.reachableLayerKeys ↔ layerKey ∈ server.reachableLayerKeys
  sublayers : ∀ layerKey ∈ server.reachableLayerKeys,
    replica.sublayersFor layerKey = server.sublayersFor layerKey
  revisions : ∀ layerKey ∈ server.reachableLayerKeys,
    replica.parentRevision layerKey = server.parentRevision layerKey

omit [DecidableEq Layer] in
theorem Mirror.follows {server replica : LayerGraph Layer} (mirror : Mirror server replica)
    (ready : server.ready = true) : Follows server replica where
  rootLayerKey := mirror.rootLayerKey
  reachable := fun layerKey => by
    rw [mem_reachableLayerKeys mirror.ready, mem_reachableLayerKeys ready, mirror.reached_iff]
  sublayers := fun layerKey reachable =>
    mirror.states layerKey ((mem_reachableLayerKeys ready).1 reachable)
  revisions := fun layerKey reachable => by
    unfold parentRevision
    rw [mirror.revisions layerKey ((mem_reachableLayerKeys ready).1 reachable)]

/-- The condition on one operation: only a client's edit is restricted. -/
def SafeOperation (paths : AssetPaths Layer) (graph : LayerGraph Layer) :
    GraphOperation Layer → Prop
  | .editSublayers layerKey event openable _ => SafeEdit paths openable graph layerKey event
  | .refreshResolved _ _ => True
  | .newGeneration => True

/-- Every edit of a run is safe in the graph it is submitted to. -/
def SafeRun (paths : AssetPaths Layer) : LayerGraph Layer → List (GraphOperation Layer) → Prop
  | _, [] => True
  | graph, operation :: rest =>
      SafeOperation paths graph operation ∧ SafeRun paths (graph.operate paths operation).2 rest

theorem Mirror.operate {graph replica : LayerGraph Layer} (mirror : Mirror graph replica)
    (settled : graph.Settled paths) (operation : GraphOperation Layer)
    (safe : SafeOperation paths graph operation)
    (deliveries : List (GraphMessage × (Layer → Bool)))
    (delivered : deliveries.map (·.1) = (graph.operate paths operation).1) :
    (graph.operate paths operation).2.Settled paths ∧
      ∃ result, receiveAll paths replica deliveries = some result ∧
        Mirror (graph.operate paths operation).2 result := by
  have unchanged : deliveries.map (·.1) = [] →
      graph.Settled paths ∧
        ∃ result, receiveAll paths replica deliveries = some result ∧ Mirror graph result := by
    intro nothing
    have none : deliveries = [] := List.map_eq_nil_iff.1 nothing
    subst none
    exact ⟨settled, replica, rfl, mirror⟩
  cases operation with
  | editSublayers layerKey event openable steps =>
      cases committed : graph.commitSublayers paths openable steps layerKey event with
      | none =>
          simp only [LayerGraph.operate, committed] at delivered ⊢
          exact unchanged delivered
      | some result =>
          obtain ⟨records, final⟩ := result
          simp only [LayerGraph.operate, committed] at delivered ⊢
          exact mirror.edit settled safe committed deliveries delivered
  | refreshResolved openable steps =>
      cases refreshed : graph.refreshResolvedSublayers paths openable steps with
      | none =>
          simp only [LayerGraph.operate, refreshed] at delivered ⊢
          exact unchanged delivered
      | some result =>
          obtain ⟨records, final⟩ := result
          simp only [LayerGraph.operate, refreshed] at delivered ⊢
          exact mirror.refresh settled refreshed deliveries delivered
  | newGeneration =>
      cases started : graph.startNewGeneration with
      | none =>
          simp only [LayerGraph.operate, started] at delivered ⊢
          exact unchanged delivered
      | some rotated =>
          cases message : rotated.stateMessage with
          | none =>
              simp only [LayerGraph.operate, started, message] at delivered ⊢
              exact unchanged delivered
          | some state =>
              simp only [LayerGraph.operate, started, message] at delivered ⊢
              obtain ⟨delivery, rest, rfl, head, tail⟩ := List.map_eq_cons_iff.1 delivered
              obtain ⟨_, replicaOpenable⟩ := delivery
              obtain rfl : _ = GraphMessage.state state := head
              have none : rest = [] := List.map_eq_nil_iff.1 tail
              subst none
              obtain ⟨rotatedSettled, generation, rootLayer⟩ :=
                startNewGeneration_settled settled started message
              obtain ⟨result, applied, resultMirror⟩ := applyState_mirror rotatedSettled message
                (mirror.rootLayer.trans rootLayer.symm)
                (by
                  rw [mirror.generation, generation]
                  exact Nat.ne_of_lt settled.grounded.generation.2)
                replicaOpenable
              refine ⟨rotatedSettled, result, ?_, resultMirror⟩
              simp only [receiveAll, receive, applied, Option.bind_eq_bind, Option.bind_some]

theorem Mirror.operateAll (operations : List (GraphOperation Layer))
    {graph replica : LayerGraph Layer} (mirror : Mirror graph replica)
    (settled : graph.Settled paths) (safe : SafeRun paths graph operations)
    (deliveries : List (GraphMessage × (Layer → Bool)))
    (delivered : deliveries.map (·.1) = (LayerGraph.operateAll paths graph operations).1) :
    (LayerGraph.operateAll paths graph operations).2.Settled paths ∧
      ∃ result, receiveAll paths replica deliveries = some result ∧
        Mirror (LayerGraph.operateAll paths graph operations).2 result := by
  induction operations generalizing graph replica deliveries with
  | nil =>
      have none : deliveries = [] := List.map_eq_nil_iff.1 delivered
      subst none
      exact ⟨settled, replica, rfl, mirror⟩
  | cons operation rest ih =>
      simp only [LayerGraph.operateAll] at delivered ⊢
      obtain ⟨now, later, rfl, deliveredNow, deliveredLater⟩ := List.map_eq_append_iff.1 delivered
      obtain ⟨nextSettled, next, received, nextMirror⟩ :=
        mirror.operate settled operation safe.1 now deliveredNow
      obtain ⟨finalSettled, result, receivedLater, resultMirror⟩ :=
        ih nextMirror nextSettled safe.2 later deliveredLater
      refine ⟨finalSettled, result, ?_, resultMirror⟩
      rw [receiveAll_append received]
      exact receivedLater

/-- From the graph the constructor captured: a replica of another generation on the same root layer
takes the baseline and every message of a safe run without an exception, and then shows the same
graph as the server. -/
theorem replica_follows_safeRun (paths : AssetPaths Layer) {openable : Layer → Bool} {steps : Nat}
    {rootLayer : Layer} {authored : Layer → List SublayerEntry} {server : LayerGraph Layer}
    (created : createAuthoritative paths openable steps rootLayer authored = some server)
    {baseline : GraphState} (message : server.stateMessage = some baseline)
    (replica : LayerGraph Layer) (sameRoot : replica.rootLayer = server.rootLayer)
    (otherGeneration : replica.generation ≠ server.generation)
    (operations : List (GraphOperation Layer)) (safe : SafeRun paths server operations)
    (deliveries : List (GraphMessage × (Layer → Bool)))
    (delivered : deliveries.map (·.1) =
      .state baseline :: (server.operateAll paths operations).1) :
    ∃ result, receiveAll paths replica deliveries = some result ∧
      Follows (server.operateAll paths operations).2 result := by
  have settled := createAuthoritative_settled created
  obtain ⟨delivery, rest, rfl, head, tail⟩ := List.map_eq_cons_iff.1 delivered
  obtain ⟨_, replicaOpenable⟩ := delivery
  obtain rfl : _ = GraphMessage.state baseline := head
  obtain ⟨first, applied, firstMirror⟩ :=
    applyState_mirror settled message sameRoot otherGeneration replicaOpenable
  obtain ⟨finalSettled, result, received, mirror⟩ :=
    firstMirror.operateAll operations settled safe rest tail
  refine ⟨result, ?_, mirror.follows finalSettled.grounded.ready⟩
  simp only [receiveAll, receive, applied, Option.bind_eq_bind, Option.bind_some]
  exact received

/-! ### A root with one child, and a sibling that lists the same child -/

/-- Assets next to each other: a path names the file. -/
def siblingPaths : AssetPaths String where
  portable := fun path => path != ""
  target := fun _ path => path

def siblingContents (layer : String) : List SublayerEntry :=
  if layer = "root.usda" ∨ layer = "y.usda" then [{ authoredPath := "x.usda" }] else []

def siblingServer : LayerGraph String :=
  (createAuthoritative siblingPaths (fun _ => true) 10 "root.usda" siblingContents).get (by decide)

def siblingBaseline : GraphState :=
  siblingServer.stateMessage.get (by decide)

def siblingReplica : LayerGraph String :=
  { authoritative := false, rootLayer := "root.usda", authored := fun _ => [] }

/-- The baseline and the messages of a run, on a replica that can open everything. -/
def siblingDeliveries (operations : List (GraphOperation String)) :
    List (GraphMessage × (String → Bool)) :=
  (.state siblingBaseline :: (siblingServer.operateAll siblingPaths operations).1).map
    fun message => (message, fun _ => true)

/-- The root lists `y.usda` besides `x.usda`; then the revision domain rotates. -/
def attachSibling : List (GraphOperation String) :=
  [.editSublayers 1 ⟨1, 1, [{ authoredPath := "x.usda" }, { authoredPath := "y.usda" }]⟩
      (fun _ => true) 10,
    .newGeneration, .refreshResolved (fun _ => true) 10]

theorem replica_follows_attachSibling :
    ∃ result, receiveAll siblingPaths siblingReplica (siblingDeliveries attachSibling) =
        some result ∧
      Follows (siblingServer.operateAll siblingPaths attachSibling).2 result := by
  refine replica_follows_safeRun siblingPaths (Option.some_get _).symm (Option.some_get _).symm
    siblingReplica rfl (by decide) attachSibling ⟨?_, trivial, trivial, trivial⟩ _ (by
      simp only [siblingDeliveries, List.map_map, Function.comp_def, List.map_id']
      rfl)
  intro parent routedParent outer attached entry member child layerKey resolved routed stored
  obtain rfl : "root.usda" = parent := Option.some.inj routedParent
  -- the server knows the keys 1 and 2 only, and the edited root still reaches both
  have known : layerKey ∈ siblingServer.states.keys := stored
  have keys : siblingServer.states.keys = [2, 1] := by decide
  rw [keys, List.mem_pair] at known
  rcases known with rfl | rfl
  · decide
  · decide

/-- The root lists `y.usda` instead of `x.usda`, which `y.usda` lists in turn. -/
def moveUnderSibling : List (GraphOperation String) :=
  [.editSublayers 1 ⟨1, 1, [{ authoredPath := "y.usda" }]⟩ (fun _ => true) 10]

/-- The replica prunes `x.usda` before it learns that `y.usda` lists it, while the server kept its
state and publishes nothing about it. -/
theorem replica_loses_moveUnderSibling :
    ¬ ∃ result, receiveAll siblingPaths siblingReplica (siblingDeliveries moveUnderSibling) =
        some result ∧
      Follows (siblingServer.operateAll siblingPaths moveUnderSibling).2 result := by
  rintro ⟨result, received, follows⟩
  have same := follows.sublayers 2 (by decide)
  have lost := congrArg (Option.map fun graph => graph.sublayersFor 2) received
  rw [Option.map_some, same] at lost
  exact absurd lost (by decide)

end LayerGraph

end UsdConnect
