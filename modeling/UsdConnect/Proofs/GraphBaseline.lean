/-
Purpose: Baselines: the state message of a settled graph is valid, materializing it never raises,
  and a replica that applied it mirrors the graph.
Trusted boundary: none
Main exports: applyState_mirror, materializeLoop_within
-/
import UsdConnect.Proofs.GraphReplication

namespace UsdConnect

namespace LayerGraph

variable {Layer : Type} [DecidableEq Layer] {paths : AssetPaths Layer}

/-! ### Baselines -/

section Baseline

variable {graph : LayerGraph Layer}

omit [DecidableEq Layer] in
theorem layerState_eq_some {layerKey : LayerKey} {state : LayerState} :
    graph.layerState layerKey = some state ↔
      ∃ sublayers revision, graph.states.lookup layerKey = some sublayers ∧
        graph.parentRevisions layerKey = some revision ∧
        state = ⟨layerKey, revision, sublayers⟩ := by
  simp only [layerState, Option.bind_eq_bind, Option.bind_eq_some_iff, Option.some.injEq]
  constructor
  · rintro ⟨sublayers, stored, revision, numbered, rfl⟩
    exact ⟨sublayers, revision, stored, numbered, rfl⟩
  · rintro ⟨sublayers, revision, stored, numbered, rfl⟩
    exact ⟨sublayers, stored, revision, numbered, rfl⟩

omit [DecidableEq Layer] in
/-- Every listed key has a state and a revision. -/
theorem stored_of_mapM {keys : List LayerKey} {layers : List LayerState}
    (mapped : keys.mapM graph.layerState = some layers) :
    ∀ layerKey ∈ keys, layerKey ∈ graph.states := by
  induction keys generalizing layers with
  | nil => exact fun _ member => nomatch member
  | cons head rest ih =>
      simp only [List.mapM_cons, Option.bind_eq_bind, Option.bind_eq_some_iff] at mapped
      obtain ⟨state, described, later, mappedRest, _⟩ := mapped
      obtain ⟨sublayers, _, stored, _, _⟩ := layerState_eq_some.1 described
      intro layerKey member
      rcases List.mem_cons.1 member with rfl | old
      · exact AList.lookup_isSome.1 (by rw [stored]; rfl)
      · exact ih mappedRest layerKey old

omit [DecidableEq Layer] in
/-- Validating the baseline of a grounded graph collects exactly the listed keys. -/
theorem validateLayers_of_mapM (grounded : graph.Grounded paths) {keys : List LayerKey}
    (distinct : keys.Nodup) {layers : List LayerState}
    (mapped : keys.mapM graph.layerState = some layers)
    (states : AList (fun _ : LayerKey => List SublayerEntry)) (revisions : LayerKey → Option Nat)
    (fresh : ∀ layerKey ∈ keys, layerKey ∉ states) :
    ∃ collected numbered, validateLayers paths.portable layers states revisions =
        some (collected, numbered) ∧
      ∀ layerKey,
        collected.lookup layerKey =
          (if layerKey ∈ keys then graph.states.lookup layerKey else states.lookup layerKey) ∧
        numbered layerKey =
          (if layerKey ∈ keys then graph.parentRevisions layerKey else revisions layerKey) := by
  induction keys generalizing layers states revisions with
  | nil =>
      obtain rfl := Option.some.inj mapped
      exact ⟨states, revisions, rfl, fun layerKey => by simp⟩
  | cons head rest ih =>
      simp only [List.mapM_cons, Option.bind_eq_bind, Option.bind_eq_some_iff] at mapped
      obtain ⟨state, described, later, mappedRest, same⟩ := mapped
      obtain rfl := Option.some.inj same
      obtain ⟨sublayers, revision, stored, numberedHead, rfl⟩ := layerState_eq_some.1 described
      obtain ⟨new, distinctRest⟩ := List.nodup_cons.1 distinct
      obtain ⟨layer, routedLayer⟩ := grounded.stateLayer head
        (AList.lookup_isSome.1 (by rw [stored]; rfl))
      have positive : head ≠ 0 :=
        Nat.pos_iff_ne_zero.1 (grounded.routed.drawn (grounded.routed.remembered routedLayer)).1
      have freshRest : ∀ layerKey ∈ rest, layerKey ∉ states.insert head sublayers := by
        intro layerKey member present
        rcases (AList.mem_insert _).1 present with rfl | old
        · exact new member
        · exact fresh layerKey (List.mem_cons_of_mem _ member) old
      obtain ⟨collected, numbered, validated, lookups⟩ := ih distinctRest mappedRest
        (states.insert head sublayers) (Function.update revisions head (some revision)) freshRest
      refine ⟨collected, numbered, ?_, ?_⟩
      · unfold validateLayers
        rw [if_neg (not_or.2 ⟨positive, fresh head List.mem_cons_self⟩),
          normalize_eq_some.2 ⟨grounded.valid stored, rfl⟩]
        simp only [require, if_pos (grounded.revisions numberedHead).2, Option.bind_eq_bind,
          Option.bind_some]
        exact validated
      · intro layerKey
        obtain ⟨lookup, number⟩ := lookups layerKey
        rw [lookup, number]
        by_cases here : layerKey = head
        · subst here
          simp [new, stored, numberedHead]
        · simp [here, AList.lookup_insert_ne here]

/-! ### Materializing -/

/-- Everything but the key maps and the layers' own lists is the same. -/
def SameStates (before after : LayerGraph Layer) : Prop :=
  SameTopology { before with authored := after.authored } after

omit [DecidableEq Layer] in
theorem SameStates.trans {first second third : LayerGraph Layer} (one : SameStates first second)
    (two : SameStates second third) : SameStates first third :=
  ⟨two.authoritative.trans one.authoritative, two.rootLayer.trans one.rootLayer,
    two.generation.trans one.generation, two.revision.trans one.revision,
    two.ready.trans one.ready, two.rootLayerKey.trans one.rootLayerKey,
    two.states.trans one.states, two.parentRevisions.trans one.parentRevisions, rfl,
    two.nextKey.trans one.nextKey, two.nextGeneration.trans one.nextGeneration⟩

omit [DecidableEq Layer] in
theorem SameTopology.sameStates {before after : LayerGraph Layer}
    (same : SameTopology before after) : SameStates before after :=
  ⟨same.authoritative, same.rootLayer, same.generation, same.revision, same.ready,
    same.rootLayerKey, same.states, same.parentRevisions, rfl, same.nextKey, same.nextGeneration⟩

/-- Binding the children of one parent succeeds when the server routes them. -/
theorem materializeEntries_within {server : LayerGraph Layer} (routed : server.Routed)
    (openable : Layer → Bool) {parent : Layer} (entries : List SublayerEntry)
    (replica : LayerGraph Layer) (within : RoutesWithin replica server)
    (known : ∀ entry ∈ entries, ∀ childKey, entry.layerKey = some childKey →
      server.layers childKey = some (paths.target parent entry.authoredPath)) :
    ∃ result queued, materializeEntries paths openable parent entries replica =
        some (result, queued) ∧
      RoutesWithin result server ∧ SameTopology replica result ∧
      queued.length ≤ entries.length ∧
      ∀ childKey ∈ queued, ∃ entry ∈ entries, entry.layerKey = some childKey := by
  induction entries generalizing replica with
  | nil =>
      exact ⟨replica, [], rfl, within, SameTopology.refl _, Nat.le_refl _,
        fun _ member => nomatch member⟩
  | cons entry rest ih =>
      have knownRest : ∀ other ∈ rest, ∀ childKey, other.layerKey = some childKey →
          server.layers childKey = some (paths.target parent other.authoredPath) :=
        fun other member => known other (List.mem_cons_of_mem _ member)
      have skip : ∃ result queued, materializeEntries paths openable parent rest replica =
          some (result, queued) ∧
          RoutesWithin result server ∧ SameTopology replica result ∧
          queued.length ≤ (entry :: rest).length ∧
          ∀ childKey ∈ queued, ∃ other ∈ entry :: rest, other.layerKey = some childKey := by
        obtain ⟨result, queued, done, resultWithin, same, short, origin⟩ := ih replica within knownRest
        refine ⟨result, queued, done, resultWithin, same, Nat.le_succ_of_le short, ?_⟩
        intro childKey member
        obtain ⟨other, present, keyed⟩ := origin childKey member
        exact ⟨other, List.mem_cons_of_mem _ present, keyed⟩
      unfold materializeEntries
      cases keyed : entry.layerKey with
      | none => exact skip
      | some childKey =>
          cases resolved : replica.resolve paths openable parent entry.authoredPath with
          | none =>
              simp only
              exact skip
          | some child =>
              obtain ⟨rfl, _⟩ := resolve_eq_some.1 resolved
              obtain ⟨bound, bind, boundWithin⟩ := bindKey_of_within routed within
                (known entry List.mem_cons_self childKey keyed)
              obtain ⟨result, queued, done, resultWithin, same, short, origin⟩ :=
                ih bound boundWithin knownRest
              refine ⟨result, childKey :: queued, ?_, resultWithin,
                (bindKey_within bind).2.2.trans same, Nat.succ_le_succ short, ?_⟩
              · simp only [bind, done, Option.bind_eq_bind, Option.bind_some]
              · intro otherKey member
                rcases List.mem_cons.1 member with rfl | old
                · exact ⟨entry, List.mem_cons_self, keyed⟩
                · obtain ⟨other, present, otherKeyed⟩ := origin otherKey old
                  exact ⟨other, List.mem_cons_of_mem _ present, otherKeyed⟩

/-- Materializing declared states of a grounded server never raises and binds only what the server
routes.  The step bound is the number of entries still to be queued. -/
theorem materializeLoop_within {server : LayerGraph Layer} (grounded : server.Grounded paths)
    (openable : Layer → Bool) (steps : Nat) (queue visited : List LayerKey)
    {replica : LayerGraph Layer} (within : RoutesWithin replica server)
    (declared : ∀ layerKey entries, replica.states.lookup layerKey = some entries →
      server.states.lookup layerKey = some entries ∧
      ∀ entry ∈ entries, ∀ childKey, entry.layerKey = some childKey → childKey ∈ replica.states)
    (stored : ∀ layerKey ∈ queue, layerKey ∈ replica.states)
    (enough : queue.length + Worklist.unvisitedWork replica.states.entries visited ≤ steps) :
    ∃ result, materializeLoop paths openable steps queue visited replica = some result ∧
      RoutesWithin result server ∧ SameStates replica result := by
  induction steps generalizing queue visited replica with
  | zero =>
      have empty : queue = [] := List.length_eq_zero_iff.1 (by omega)
      subst empty
      exact ⟨replica, by unfold materializeLoop; rfl, within, (SameTopology.refl _).sameStates⟩
  | succ steps ih =>
      cases queue with
      | nil => exact ⟨replica, rfl, within, (SameTopology.refl _).sameStates⟩
      | cons parentKey queue =>
          rw [List.length_cons] at enough
          have storedRest : ∀ layerKey ∈ queue, layerKey ∈ replica.states :=
            fun layerKey member => stored layerKey (List.mem_cons_of_mem _ member)
          unfold materializeLoop
          by_cases seen : parentKey ∈ visited
          · rw [if_pos seen]
            exact ih queue visited within declared storedRest (by omega)
          · rw [if_neg seen]
            obtain ⟨entries, found⟩ := Option.isSome_iff_exists.1
              (AList.lookup_isSome.2 (stored parentKey List.mem_cons_self))
            have paid := Worklist.unvisitedWork_pays (AList.mem_lookup_iff.1 found) seen
            cases routedParent : replica.layers parentKey with
            | none => exact ih queue _ within declared storedRest (by omega)
            | some parent =>
                obtain ⟨serverFound, children⟩ := declared parentKey entries found
                have valid := normalize_eq_some.2 ⟨grounded.valid serverFound, rfl⟩
                obtain ⟨middle, queued, done, middleWithin, same, short, origin⟩ :=
                  materializeEntries_within grounded.routed openable entries
                    { replica with
                      authored := Function.update replica.authored parent
                        (entries.map SublayerEntry.withoutKey) }
                    ⟨within.layers, within.keys, within.identityKeys, within.identityIdentifiers⟩
                    (grounded.entryLayer serverFound (within.layers routedParent))
                have states : middle.states = replica.states := same.states
                obtain ⟨result, looped, resultWithin, later⟩ := ih (queue ++ queued)
                  (visited ++ [parentKey]) middleWithin (by rw [states]; exact declared) (by
                    rw [states]
                    intro layerKey member
                    rcases List.mem_append.1 member with old | new
                    · exact storedRest layerKey old
                    · obtain ⟨entry, present, keyed⟩ := origin layerKey new
                      exact children entry present layerKey keyed)
                  (by rw [states, List.length_append]; omega)
                refine ⟨result, ?_, resultWithin, ?_⟩
                · simp only [found, applySublayerEntries, valid, done, Option.bind_eq_bind,
                    Option.bind_some]
                  exact looped
                · have first : SameStates replica middle :=
                    ⟨same.authoritative, same.rootLayer, same.generation, same.revision, same.ready,
                      same.rootLayerKey, same.states, same.parentRevisions, rfl, same.nextKey,
                      same.nextGeneration⟩
                  exact first.trans later

/-! ### Applying a baseline -/

/-- The states and revisions that validating a baseline collects are the reached part of the graph
it was taken from. -/
structure CollectedFrom (graph : LayerGraph Layer)
    (collected : AList (fun _ : LayerKey => List SublayerEntry)) (numbered : LayerKey → Option Nat) :
    Prop where
  states : ∀ layerKey, graph.Reached layerKey →
    collected.lookup layerKey = graph.states.lookup layerKey
  noStates : ∀ layerKey, ¬ graph.Reached layerKey → collected.lookup layerKey = none
  revisions : ∀ layerKey, graph.Reached layerKey →
    numbered layerKey = graph.parentRevisions layerKey
  noRevisions : ∀ layerKey, ¬ graph.Reached layerKey → numbered layerKey = none
  present : ∀ layerKey, graph.Reached layerKey → layerKey ∈ collected

omit [DecidableEq Layer] in
theorem CollectedFrom.declared {collected : AList (fun _ : LayerKey => List SublayerEntry)}
    {numbered : LayerKey → Option Nat} (taken : CollectedFrom graph collected numbered)
    {layerKey : LayerKey} {entries : List SublayerEntry}
    (found : collected.lookup layerKey = some entries) :
    graph.states.lookup layerKey = some entries ∧
      ∀ entry ∈ entries, ∀ childKey, entry.layerKey = some childKey → childKey ∈ collected := by
  by_cases reached : graph.Reached layerKey
  · rw [taken.states layerKey reached] at found
    refine ⟨found, fun entry member childKey keyed => taken.present childKey ?_⟩
    exact reached.tail (mem_childKeys.2 ⟨entries, found, entry, member, keyed⟩)
  · rw [taken.noStates layerKey reached] at found
    exact absurd found (by simp)

omit [DecidableEq Layer] in
/-- The baseline of a grounded graph passes validation. -/
theorem validateTopology_of_stateMessage (grounded : graph.Grounded paths) {state : GraphState}
    (message : graph.stateMessage = some state) :
    state.generation = graph.generation ∧ state.revision = graph.revision.toNat ∧
      state.rootLayerKey = graph.rootLayerKey ∧
      ∃ collected numbered,
        validateTopology paths.portable state = some (collected, numbered) ∧
          CollectedFrom graph collected numbered := by
  simp only [stateMessage, Option.bind_eq_bind, Option.bind_eq_some_iff, require_eq_some] at message
  obtain ⟨_, _, layers, mapped, same⟩ := message
  obtain rfl := Option.some.inj same
  have distinct : graph.reachableLayerKeys.Nodup := by
    unfold reachableLayerKeys
    rw [if_pos grounded.ready]
    exact Worklist.search_nodup _ _ _ _ List.nodup_nil
  obtain ⟨collected, numbered, validated, lookups⟩ := validateLayers_of_mapM grounded distinct
    mapped ∅ (fun _ => none) (fun _ _ => AList.notMem_empty _)
  have listed := stored_of_mapM mapped
  have reach : ∀ layerKey, layerKey ∈ graph.reachableLayerKeys ↔ graph.Reached layerKey :=
    fun layerKey => mem_reachableLayerKeys grounded.ready
  have states : ∀ layerKey, graph.Reached layerKey →
      collected.lookup layerKey = graph.states.lookup layerKey := by
    intro layerKey reached
    rw [(lookups layerKey).1, if_pos ((reach layerKey).2 reached)]
  have collectedFrom : CollectedFrom graph collected numbered :=
    { states := states
      noStates := by
        intro layerKey missing
        rw [(lookups layerKey).1, if_neg ((reach layerKey).not.2 missing), AList.lookup_empty]
      revisions := by
        intro layerKey reached
        rw [(lookups layerKey).2, if_pos ((reach layerKey).2 reached)]
      noRevisions := by
        intro layerKey missing
        rw [(lookups layerKey).2, if_neg ((reach layerKey).not.2 missing)]
      present := by
        intro layerKey reached
        refine AList.lookup_isSome.1 ?_
        rw [states layerKey reached]
        exact AList.lookup_isSome.2 (listed layerKey ((reach layerKey).2 reached)) }
  have root : graph.Reached graph.rootLayerKey := Relation.ReflTransGen.refl
  have children : declaresChildren collected = true := by
    unfold declaresChildren
    rw [List.all_eq_true]
    intro stored member
    rw [List.all_eq_true]
    intro entry entryMember
    have found : collected.lookup stored.1 = some stored.2 := AList.mem_lookup_iff.2 member
    cases keyed : entry.layerKey with
    | none => rfl
    | some childKey =>
        exact decide_eq_true ((collectedFrom.declared found).2 entry entryMember childKey keyed)
  have rootPositive : graph.rootLayerKey ≠ 0 := Nat.pos_iff_ne_zero.1
    (grounded.routed.drawn (grounded.routed.remembered grounded.rootKey)).1
  have positiveRevision : 1 ≤ graph.revision.toNat := by
    have := grounded.revision
    omega
  refine ⟨rfl, rfl, rfl, collected, numbered, ?_, collectedFrom⟩
  simp only [validateTopology, require, validated,
    if_pos (Nat.pos_iff_ne_zero.1 grounded.generation.1), if_pos rootPositive,
    if_pos positiveRevision, if_pos (collectedFrom.present _ root), if_pos children,
    Option.bind_eq_bind, Option.bind_some]

/-- A replica in another generation takes the baseline of a settled graph and then mirrors it. -/
theorem applyState_mirror (settled : graph.Settled paths) {state : GraphState}
    (message : graph.stateMessage = some state) {replica : LayerGraph Layer}
    (rootLayer : replica.rootLayer = graph.rootLayer)
    (generation : replica.generation ≠ graph.generation) (openable : Layer → Bool) :
    ∃ result, replica.applyState paths openable state = some result ∧ Mirror graph result := by
  have grounded := settled.grounded
  obtain ⟨sameGeneration, sameRevision, sameRoot, collected, numbered, validTopology,
    collectedFrom⟩ := validateTopology_of_stateMessage grounded message
  have root : graph.Reached graph.rootLayerKey := Relation.ReflTransGen.refl
  -- the replica drops its maps, so only the root and what the loop binds are routed
  set cleared : LayerGraph Layer :=
    { replica with
      generation := graph.generation
      revision := (graph.revision.toNat : Int)
      rootLayerKey := graph.rootLayerKey
      layers := fun _ => none
      keysByIdentifier := fun _ => none
      identityKeysByIdentifier := fun _ => none
      identityIdentifiersByKey := fun _ => none
      states := collected
      parentRevisions := numbered } with clearedEq
  have clearedWithin : RoutesWithin cleared graph :=
    ⟨fun found => (nomatch found), fun found => (nomatch found), fun found => (nomatch found),
      fun found => (nomatch found)⟩
  obtain ⟨rooted, bind, rootedWithin⟩ :=
    bindKey_of_within grounded.routed clearedWithin grounded.rootKey
  obtain ⟨_, _, rootedSame⟩ := bindKey_within bind
  have rootedStates : rooted.states = collected := rootedSame.states
  obtain ⟨result, looped, resultWithin, resultSame⟩ := materializeLoop_within grounded
    openable rooted.searchSteps [graph.rootLayerKey] [] rootedWithin
    (by rw [rootedStates]; exact fun _ _ found => collectedFrom.declared found)
    (by
      rw [rootedStates]
      intro layerKey member
      rw [List.mem_singleton.1 member]
      exact collectedFrom.present _ root)
    (by unfold searchSteps; exact Nat.le_refl _)
  have resultStates : result.states = collected := resultSame.states.trans rootedStates
  have resultRevisions : result.parentRevisions = numbered :=
    resultSame.parentRevisions.trans rootedSame.parentRevisions
  refine ⟨{ result with ready := true }, ?_, ?_⟩
  · unfold applyState
    rw [if_neg (fun repeated => generation (repeated.1.symm.trans sameGeneration))]
    simp only [validTopology, sameGeneration, sameRevision, sameRoot, Option.bind_eq_bind,
      Option.bind_some]
    have bindHere : cleared.bindKey graph.rootLayerKey replica.rootLayer = some rooted := by
      rw [rootLayer]
      exact bind
    show (cleared.bindKey graph.rootLayerKey replica.rootLayer).bind _ = _
    simp only [bindHere, Option.bind_some, looped]
  · refine
      { ready := rfl
        rootLayer := (resultSame.rootLayer.trans rootedSame.rootLayer).trans rootLayer
        rootLayerKey := resultSame.rootLayerKey.trans rootedSame.rootLayerKey
        generation := resultSame.generation.trans rootedSame.generation
        states := ?_
        revisions := ?_
        noStates := ?_
        noRevisions := ?_
        within := ⟨resultWithin.layers, resultWithin.keys, resultWithin.identityKeys,
          resultWithin.identityIdentifiers⟩ }
    · intro layerKey reached
      simp only [resultStates]
      exact collectedFrom.states layerKey reached
    · intro layerKey reached
      simp only [resultRevisions]
      exact collectedFrom.revisions layerKey reached
    · intro layerKey missing
      simp only [resultStates]
      exact collectedFrom.noStates layerKey missing
    · intro layerKey missing
      simp only [resultRevisions]
      exact collectedFrom.noRevisions layerKey missing

end Baseline

end LayerGraph

end UsdConnect
