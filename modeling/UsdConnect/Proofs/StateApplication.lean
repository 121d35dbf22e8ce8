/-
Purpose: Application of a baseline is all or nothing exactly when the lists it would restore pass
  the writer's own check.
Trusted boundary: none
Main exports: materializeStates_follows, stateApplied_iff_rollbackFits
-/
import UsdConnect.SharedStage.StateApplication
import UsdConnect.Proofs.GraphBaseline

namespace UsdConnect

namespace LayerGraph

variable {Layer : Type} [DecidableEq Layer] {paths : AssetPaths Layer} {openable : Layer → Bool}

/-! ### The loop follows the walk -/

/-- The key maps of a graph are those of a walk. -/
structure WalkedBy (walk : StateWalk Layer) (graph : LayerGraph Layer) : Prop where
  layers : graph.layers = walk.layers
  keys : graph.keysByIdentifier = walk.keys
  identityKeys : graph.identityKeysByIdentifier = walk.keys
  identityIdentifiers : graph.identityIdentifiersByKey = walk.layers

/-- A graph binds a key exactly where the walk lets it meet the layer. -/
theorem bindKey_follows {walk : StateWalk Layer} {graph : LayerGraph Layer}
    (follows : WalkedBy walk graph) (layerKey : LayerKey) (layer : Layer) :
    (graph.bindKey layerKey layer = none ∧ walk.meet layerKey layer = none) ∨
    ∃ bound met, graph.bindKey layerKey layer = some bound ∧
      walk.meet layerKey layer = some met ∧ WalkedBy met bound ∧ SameTopology graph bound ∧
      met.cameTo = walk.cameTo := by
  by_cases otherKey : (walk.keys layer).any (· ≠ layerKey) = true
  · left
    constructor
    · unfold bindKey
      rw [if_pos (by rw [follows.identityKeys]; exact otherKey)]
    · unfold StateWalk.meet
      rw [if_pos (Or.inl otherKey)]
  · by_cases otherLayer : (walk.layers layerKey).any (· ≠ layer) = true
    · left
      constructor
      · unfold bindKey
        rw [if_neg (by rw [follows.identityKeys]; exact otherKey),
          if_pos (by rw [follows.identityIdentifiers]; exact otherLayer)]
      · unfold StateWalk.meet
        rw [if_pos (Or.inr otherLayer)]
    · right
      have bound : graph.bindKey layerKey layer = some (graph.routeKey layerKey layer) := by
        unfold bindKey
        rw [if_neg (by rw [follows.identityKeys]; exact otherKey),
          if_neg (by rw [follows.identityIdentifiers]; exact otherLayer),
          if_neg (by rw [follows.layers]; exact otherLayer),
          if_neg (by rw [follows.keys]; exact otherKey)]
      refine ⟨_, _, bound, if_neg (not_or.2 ⟨otherKey, otherLayer⟩), ?_,
        (bindKey_within bound).2.2, rfl⟩
      constructor
      · show Function.update graph.layers layerKey (some layer) = _
        rw [follows.layers]
      · show Function.update graph.keysByIdentifier layer (some layerKey) = _
        rw [follows.keys]
      · show Function.update graph.identityKeysByIdentifier layer (some layerKey) = _
        rw [follows.identityKeys]
      · show Function.update graph.identityIdentifiersByKey layerKey (some layer) = _
        rw [follows.identityIdentifiers]

/-- The children of one parent are bound as the walk meets them. -/
theorem refreshEntries_follows (paths : AssetPaths Layer) (openable : Layer → Bool)
    (parent : Layer) (entries : List SublayerEntry) (walk : StateWalk Layer)
    (graph : LayerGraph Layer) (follows : WalkedBy walk graph) :
    ∃ after walked queued, refreshEntries paths openable parent entries graph = (after, queued) ∧
      StateWalk.children paths openable parent entries walk = (walked, queued) ∧
      WalkedBy walked after ∧ SameTopology graph after ∧ walked.cameTo = walk.cameTo := by
  induction entries generalizing walk graph with
  | nil => exact ⟨graph, walk, some [], rfl, rfl, follows, SameTopology.refl graph, rfl⟩
  | cons entry rest ih =>
      cases keyed : entry.layerKey with
      | none =>
          obtain ⟨after, walked, queued, bound, met, facts⟩ := ih walk graph follows
          refine ⟨after, walked, queued, ?_, ?_, facts⟩
          · simpa only [refreshEntries, keyed] using bound
          · simpa only [StateWalk.children, keyed] using met
      | some childKey =>
          by_cases found : ((walk.keys (paths.target parent entry.authoredPath)).isSome ||
              openable (paths.target parent entry.authoredPath)) = true
          · have resolved : graph.resolve paths openable parent entry.authoredPath =
                some (paths.target parent entry.authoredPath) := by
              unfold resolve
              rw [follows.keys]
              exact if_pos found
            rcases bindKey_follows follows childKey (paths.target parent entry.authoredPath) with
              ⟨refused, apart⟩ | ⟨bound, met, binds, meets, boundFollows, same, came⟩
            · refine ⟨graph, walk, none, ?_, ?_, follows, SameTopology.refl graph, rfl⟩
              · simp only [refreshEntries, keyed, resolved, refused]
              · simp only [StateWalk.children, keyed, found, apart, if_true]
            · obtain ⟨after, walked, queued, later, others, lastFollows, lastSame, lastCame⟩ :=
                ih met bound boundFollows
              refine ⟨after, walked, queued.map (childKey :: ·), ?_, ?_, lastFollows,
                same.trans lastSame, lastCame.trans came⟩
              · simp only [refreshEntries, keyed, resolved, binds, later]
              · simp only [StateWalk.children, keyed, found, meets, others, if_true]
          · rw [Bool.not_eq_true] at found
            have missing : graph.resolve paths openable parent entry.authoredPath = none := by
              simp only [resolve, follows.keys, found, Bool.false_eq_true, if_false]
            obtain ⟨after, walked, queued, bound, met, facts⟩ := ih walk graph follows
            refine ⟨after, walked, queued, ?_, ?_, facts⟩
            · simpa only [refreshEntries, keyed, missing] using bound
            · simpa only [StateWalk.children, keyed, found, Bool.false_eq_true, if_false] using met

/-- Backups hold the original lists, and the lists of all other layers are still the original ones. -/
structure Saved (original : Layer → List SublayerEntry)
    (backups : List (Layer × List SublayerEntry)) (graph : LayerGraph Layer) : Prop where
  lists : ∀ backup ∈ backups, backup.2 = original backup.1
  others : ∀ layer, layer ∉ backups.map (·.1) → graph.readSublayerEntries layer = original layer

/-- The backups with the present list of a layer that is about to be written. -/
def backedUp (graph : LayerGraph Layer) (backups : List (Layer × List SublayerEntry))
    (parent : Layer) : List (Layer × List SublayerEntry) :=
  if parent ∈ backups.map (·.1) then backups
  else backups ++ [(parent, graph.readSublayerEntries parent)]

theorem mem_backedUp {graph : LayerGraph Layer} {backups : List (Layer × List SublayerEntry)}
    {parent layer : Layer} :
    layer ∈ (graph.backedUp backups parent).map (·.1) ↔
      layer ∈ backups.map (·.1) ∨ layer = parent := by
  unfold backedUp
  split
  · next saved =>
      constructor
      · exact Or.inl
      · rintro (old | rfl)
        · exact old
        · exact saved
  · simp

theorem Saved.write {original : Layer → List SublayerEntry}
    {backups : List (Layer × List SublayerEntry)} {graph : LayerGraph Layer}
    (saved : Saved original backups graph) (parent : Layer) (entries : List SublayerEntry) :
    Saved original (graph.backedUp backups parent)
      { graph with authored := Function.update graph.authored parent entries } := by
  constructor
  · intro backup member
    unfold backedUp at member
    split at member
    · exact saved.lists backup member
    · next new =>
        rcases List.mem_append.1 member with old | added
        · exact saved.lists backup old
        · rw [List.mem_singleton.1 added]
          exact saved.others parent new
  · intro layer missing
    have apart := not_or.1 (mem_backedUp.not.1 missing)
    have kept : Function.update graph.authored parent entries layer = graph.authored layer :=
      Function.update_of_ne apart.2 _ _
    show (Function.update graph.authored parent entries layer).map SublayerEntry.withoutKey = _
    rw [kept]
    exact saved.others layer apart.1

/-- The states of a validated message: every list passes the writer's check and names declared keys. -/
structure Declared (portable : String → Bool)
    (states : AList (fun _ : LayerKey => List SublayerEntry)) : Prop where
  valid : ∀ {layerKey entries}, states.lookup layerKey = some entries →
    validSublayerEntries portable [] entries = true
  children : ∀ {layerKey entries}, states.lookup layerKey = some entries →
    ∀ entry ∈ entries, ∀ childKey, entry.layerKey = some childKey → childKey ∈ states

theorem applySublayerEntries_of_valid (graph : LayerGraph Layer) (layer : Layer)
    {entries : List SublayerEntry} (valid : validSublayerEntries paths.portable [] entries = true) :
    graph.applySublayerEntries paths layer entries = some { graph with
      authored := Function.update graph.authored layer (entries.map SublayerEntry.withoutKey) } := by
  unfold applySublayerEntries
  rw [normalize_eq_some.2 ⟨valid, rfl⟩]
  rfl

theorem children_listed (parent : Layer) (entries : List SublayerEntry)
    {walk walked : StateWalk Layer} {queued : List LayerKey}
    (met : StateWalk.children paths openable parent entries walk = (walked, some queued))
    {childKey : LayerKey} (member : childKey ∈ queued) :
    ∃ entry ∈ entries, entry.layerKey = some childKey := by
  induction entries generalizing walk queued with
  | nil =>
      simp only [StateWalk.children, Prod.mk.injEq, Option.some.injEq] at met
      obtain ⟨_, rfl⟩ := met
      exact nomatch member
  | cons entry rest ih =>
      have later : ∀ {other : StateWalk Layer} {queued : List LayerKey},
          StateWalk.children paths openable parent rest other = (walked, some queued) →
          childKey ∈ queued → ∃ listed ∈ entry :: rest, listed.layerKey = some childKey := by
        intro other queued metRest waits
        obtain ⟨listed, present, keyed⟩ := ih metRest waits
        exact ⟨listed, List.mem_cons_of_mem _ present, keyed⟩
      simp only [StateWalk.children] at met
      split at met
      · exact later met member
      · next keyed =>
          split at met
          · split at met
            · exact absurd met (by simp)
            · simp only [Prod.mk.injEq, Option.map_eq_some_iff] at met
              obtain ⟨same, queuedRest, metRest, rfl⟩ := met
              rcases List.mem_cons.1 member with rfl | waits
              · exact ⟨entry, List.mem_cons_self, keyed⟩
              · exact later (Prod.ext same metRest) waits
          · exact later met member

/-- The loop that writes and binds follows the walk over the message: both stop at the same conflict,
and what was replaced is backed up. -/
theorem materializeStates_follows (paths : AssetPaths Layer) (openable : Layer → Bool)
    {original : Layer → List SublayerEntry} (steps : Nat) (queue visited : List LayerKey)
    (backups : List (Layer × List SublayerEntry)) (graph : LayerGraph Layer)
    (walk : StateWalk Layer) (follows : WalkedBy walk graph)
    (declared : Declared paths.portable graph.states)
    (stored : ∀ layerKey ∈ queue, layerKey ∈ graph.states)
    (saved : Saved original backups graph)
    (came : ∀ layer, layer ∈ backups.map (·.1) ↔ layer ∈ walk.cameTo) :
    ∃ after later walked finished,
      materializeStates paths openable steps queue visited backups graph = (after, later, finished) ∧
      StateWalk.follow paths openable graph.states steps queue visited walk = (walked, finished) ∧
      WalkedBy walked after ∧ SameStates graph after ∧ Saved original later after ∧
      ∀ layer, layer ∈ later.map (·.1) ↔ layer ∈ walked.cameTo := by
  induction steps generalizing queue visited backups graph walk with
  | zero =>
      cases queue with
      | nil =>
          exact ⟨graph, backups, walk, true, rfl, rfl, follows,
            (SameTopology.refl graph).sameStates, saved, came⟩
      | cons parentKey queue =>
          exact ⟨graph, backups, walk, false, rfl, rfl, follows,
            (SameTopology.refl graph).sameStates, saved, came⟩
  | succ steps ih =>
      cases queue with
      | nil =>
          exact ⟨graph, backups, walk, true, rfl, rfl, follows,
            (SameTopology.refl graph).sameStates, saved, came⟩
      | cons parentKey queue =>
          have storedRest : ∀ layerKey ∈ queue, layerKey ∈ graph.states :=
            fun layerKey member => stored layerKey (List.mem_cons_of_mem _ member)
          unfold materializeStates StateWalk.follow
          by_cases seen : parentKey ∈ visited
          · rw [if_pos seen, if_pos seen]
            exact ih queue visited backups graph walk follows declared storedRest saved came
          · rw [if_neg seen, if_neg seen]
            cases routed : graph.layers parentKey with
            | none =>
                have unmet : walk.layers parentKey = none := by rw [← follows.layers, routed]
                simp only [unmet]
                exact ih queue _ backups graph walk follows declared storedRest saved came
            | some parent =>
                have met : walk.layers parentKey = some parent := by rw [← follows.layers, routed]
                obtain ⟨entries, found⟩ := Option.isSome_iff_exists.1
                  (AList.lookup_isSome.2 (stored parentKey List.mem_cons_self))
                have written := applySublayerEntries_of_valid graph parent (declared.valid found)
                have savedHere := saved.write parent (entries.map SublayerEntry.withoutKey)
                simp only [met, found, written, Option.getD_some]
                obtain ⟨bound, walked, queued, binds, meets, boundFollows, same, cameHere⟩ :=
                  refreshEntries_follows paths openable parent entries
                    { walk with cameTo := walk.cameTo ++ [parent] }
                    { graph with
                      authored := Function.update graph.authored parent
                        (entries.map SublayerEntry.withoutKey) }
                    ⟨follows.layers, follows.keys, follows.identityKeys,
                      follows.identityIdentifiers⟩
                have sameHere : SameStates graph bound :=
                  ⟨same.authoritative, same.rootLayer, same.generation, same.revision, same.ready,
                    same.rootLayerKey, same.states, same.parentRevisions, rfl, same.nextKey,
                    same.nextGeneration⟩
                have savedBound : Saved original (graph.backedUp backups parent) bound := by
                  constructor
                  · exact savedHere.lists
                  · intro layer missing
                    show (bound.authored layer).map _ = _
                    rw [same.authored]
                    exact savedHere.others layer missing
                have cameBound : ∀ layer,
                    layer ∈ (graph.backedUp backups parent).map (·.1) ↔ layer ∈ walked.cameTo := by
                  intro layer
                  rw [mem_backedUp, cameHere, came layer]
                  simp
                simp only [binds, meets]
                cases queued with
                | none =>
                    exact ⟨bound, graph.backedUp backups parent, walked, false, rfl, rfl,
                      boundFollows, sameHere, savedBound, cameBound⟩
                | some queued =>
                    have states : bound.states = graph.states := same.states
                    have storedAll : ∀ layerKey ∈ queue ++ queued, layerKey ∈ bound.states := by
                      intro layerKey member
                      rw [states]
                      rcases List.mem_append.1 member with old | new
                      · exact storedRest layerKey old
                      · obtain ⟨entry, present, keyed⟩ := children_listed _ _ meets new
                        exact declared.children found entry present layerKey keyed
                    obtain ⟨after, later, last, finished, looped, walks, lastFollows, lastSame,
                      lastSaved, lastCame⟩ := ih (queue ++ queued) (visited ++ [parentKey]) _ bound
                        walked boundFollows (by rw [states]; exact declared) storedAll savedBound cameBound
                    rw [states] at walks
                    exact ⟨after, later, last, finished, looped, walks, lastFollows,
                      sameHere.trans lastSame, lastSaved, lastCame⟩

/-! ### Taking back the lists -/

/-- The writer takes back a run of lists exactly when each passes its check. -/
theorem restoreLists_snd (paths : AssetPaths Layer) (backups : List (Layer × List SublayerEntry)) (graph : LayerGraph Layer) :
    (restoreLists paths backups graph).2 = true ↔
      ∀ backup ∈ backups, validSublayerEntries paths.portable [] backup.2 = true := by
  induction backups generalizing graph with
  | nil => simp [restoreLists]
  | cons backup rest ih =>
      obtain ⟨layer, entries⟩ := backup
      unfold restoreLists
      by_cases valid : validSublayerEntries paths.portable [] entries = true
      · simp only [applySublayerEntries_of_valid _ _ valid, ih, List.forall_mem_cons, valid, true_and]
      · have refused : graph.applySublayerEntries paths layer entries = none := by
          simp [applySublayerEntries, normalizeSublayerEntries, valid]
        simp [refused, valid]

theorem restoreLists_same (paths : AssetPaths Layer)
    (backups : List (Layer × List SublayerEntry)) (graph : LayerGraph Layer) :
    SameStates graph (restoreLists paths backups graph).1 := by
  induction backups generalizing graph with
  | nil => exact (SameTopology.refl graph).sameStates
  | cons backup rest ih =>
      obtain ⟨layer, entries⟩ := backup
      unfold restoreLists
      by_cases valid : validSublayerEntries paths.portable [] entries = true
      · simp only [applySublayerEntries_of_valid _ _ valid]
        have written : SameStates graph { graph with
            authored := Function.update graph.authored layer
              (entries.map SublayerEntry.withoutKey) } :=
          ⟨rfl, rfl, rfl, rfl, rfl, rfl, rfl, rfl, rfl, rfl, rfl⟩
        exact written.trans (ih _)
      · have refused : graph.applySublayerEntries paths layer entries = none := by
          simp [applySublayerEntries, normalizeSublayerEntries, valid]
        simp only [refused]
        exact (SameTopology.refl graph).sameStates

theorem restoreLists_original {original : Layer → List SublayerEntry}
    (plain : ∀ layer, (original layer).map SublayerEntry.withoutKey = original layer)
    {backups : List (Layer × List SublayerEntry)} {graph : LayerGraph Layer}
    (saved : Saved original backups graph)
    (taken : (restoreLists paths backups graph).2 = true) (layer : Layer) :
    (restoreLists paths backups graph).1.readSublayerEntries layer = original layer := by
  induction backups generalizing graph with
  | nil => exact saved.others layer List.not_mem_nil
  | cons backup rest ih =>
      obtain ⟨first, entries⟩ := backup
      have valid := (restoreLists_snd paths _ _).1 taken _ List.mem_cons_self
      have same : entries = original first := saved.lists _ List.mem_cons_self
      unfold restoreLists at taken ⊢
      simp only [applySublayerEntries_of_valid _ _ valid] at taken ⊢
      refine ih ⟨fun other member => saved.lists other (List.mem_cons_of_mem _ member), ?_⟩ taken
      intro other missing
      by_cases here : other = first
      · subst here
        simp only [readSublayerEntries, Function.update_self]
        rw [same, plain, plain]
      · simp only [readSublayerEntries, Function.update_of_ne here]
        refine saved.others other ?_
        simp only [List.map_cons, List.mem_cons, not_or]
        exact ⟨here, missing⟩

/-! ### A finished loop installs the message -/

/-- What a child entry of a parent names, if it is found. -/
def Found (paths : AssetPaths Layer) (openable : Layer → Bool) (rootLayer parent : Layer)
    (entry : SublayerEntry) : Prop :=
  openable (paths.target parent entry.authoredPath) = true ∨
    paths.target parent entry.authoredPath = rootLayer

/-- Routing while a message is materialized: the maps are inverse, all copies agree, the root is
bound, and a bound layer is the root or can be opened. -/
structure Routing (openable : Layer → Bool) (graph : LayerGraph Layer) : Prop where
  inverse : ∀ layerKey layer,
    graph.layers layerKey = some layer ↔ graph.keysByIdentifier layer = some layerKey
  identityKeys : graph.identityKeysByIdentifier = graph.keysByIdentifier
  identityIdentifiers : graph.identityIdentifiersByKey = graph.layers
  root : graph.layers graph.rootLayerKey = some graph.rootLayer
  open_of_bound : ∀ layerKey layer, graph.layers layerKey = some layer →
    openable layer = true ∨ layer = graph.rootLayer

omit [DecidableEq Layer] in
/-- Routing does not look at the layers' own lists. -/
theorem Routing.withAuthored {graph : LayerGraph Layer} (routing : Routing openable graph)
    (authored : Layer → List SublayerEntry) :
    Routing openable { graph with authored := authored } :=
  ⟨routing.inverse, routing.identityKeys, routing.identityIdentifiers, routing.root,
    routing.open_of_bound⟩

theorem Routing.bind {graph bound : LayerGraph Layer} (routing : Routing openable graph)
    {layerKey : LayerKey} {layer : Layer} (opened : openable layer = true ∨ layer = graph.rootLayer)
    (binds : graph.bindKey layerKey layer = some bound) : Routing openable bound := by
  have grown := (bindKey_within binds).1
  have same := (bindKey_within binds).2.2
  obtain ⟨_, _, otherLayer, otherKey, rfl⟩ := bindKey_cases binds
  constructor
  · exact Dict.update_inverse routing.inverse otherLayer otherKey
  · show Function.update graph.identityKeysByIdentifier layer (some layerKey) = _
    rw [routing.identityKeys]
    rfl
  · show Function.update graph.identityIdentifiersByKey layerKey (some layer) = _
    rw [routing.identityIdentifiers]
    rfl
  · exact grown.layers routing.root
  · intro boundKey boundLayer routed
    by_cases here : boundKey = layerKey
    · subst here
      have same : layer = boundLayer := by simpa [routeKey] using routed
      rw [← same]
      exact opened
    · refine routing.open_of_bound boundKey boundLayer ?_
      simpa [routeKey, here] using routed

omit [DecidableEq Layer] in
/-- A path resolves exactly when its layer is found. -/
theorem Routing.resolve_eq_some {graph : LayerGraph Layer} (routing : Routing openable graph)
    {parent child : Layer} {entry : SublayerEntry} :
    graph.resolve paths openable parent entry.authoredPath = some child ↔
      child = paths.target parent entry.authoredPath ∧
        Found paths openable graph.rootLayer parent entry := by
  rw [LayerGraph.resolve_eq_some]
  constructor
  · rintro ⟨rfl, known | opened⟩
    · obtain ⟨layerKey, routed⟩ := Option.isSome_iff_exists.1 known
      exact ⟨rfl, routing.open_of_bound layerKey _ ((routing.inverse _ _).2 routed)⟩
    · exact ⟨rfl, Or.inl opened⟩
  · rintro ⟨rfl, opened | root⟩
    · exact ⟨rfl, Or.inr opened⟩
    · refine ⟨rfl, Or.inl ?_⟩
      rw [root, (routing.inverse _ _).1 routing.root]
      rfl

/-- What binding the children of one parent establishes. -/
structure ChildrenBound (paths : AssetPaths Layer) (openable : Layer → Bool) (parent : Layer)
    (entries : List SublayerEntry) (before after : LayerGraph Layer) (queued : List LayerKey) :
    Prop where
  routing : Routing openable after
  within : RoutesWithin before after
  same : SameTopology before after
  bound : ∀ entry ∈ entries, ∀ childKey, entry.layerKey = some childKey →
    Found paths openable before.rootLayer parent entry →
      after.layers childKey = some (paths.target parent entry.authoredPath) ∧ childKey ∈ queued
  queuedBound : ∀ layerKey ∈ queued, ∃ layer, after.layers layerKey = some layer
  origin : ∀ layerKey layer, after.layers layerKey = some layer →
    before.layers layerKey = some layer ∨ layerKey ∈ queued ∧ ∃ entry ∈ entries,
      entry.layerKey = some layerKey ∧ layer = paths.target parent entry.authoredPath ∧
        Found paths openable before.rootLayer parent entry

theorem refreshEntries_bound (parent : Layer) (entries : List SublayerEntry)
    {graph after : LayerGraph Layer} {queued : List LayerKey} (routing : Routing openable graph)
    (binds : refreshEntries paths openable parent entries graph = (after, some queued)) :
    ChildrenBound paths openable parent entries graph after queued := by
  induction entries generalizing graph queued with
  | nil =>
      simp only [refreshEntries, Prod.mk.injEq, Option.some.injEq] at binds
      obtain ⟨rfl, rfl⟩ := binds
      exact ⟨routing, RoutesWithin.refl _, SameTopology.refl _, fun _ member => (nomatch member),
        fun _ member => (nomatch member), fun _ _ routed => Or.inl routed⟩
  | cons entry rest ih =>
      -- an entry that binds nothing only lengthens the list
      have skip : (∀ childKey, entry.layerKey = some childKey →
            ¬ Found paths openable graph.rootLayer parent entry) →
          refreshEntries paths openable parent rest graph = (after, some queued) →
          ChildrenBound paths openable parent (entry :: rest) graph after queued := by
        intro unbound later
        have facts := ih routing later
        refine ⟨facts.routing, facts.within, facts.same, ?_, facts.queuedBound, ?_⟩
        · intro other member childKey keyed found
          rcases List.mem_cons.1 member with rfl | old
          · exact absurd found (unbound childKey keyed)
          · exact facts.bound other old childKey keyed found
        · intro layerKey layer routed
          rcases facts.origin layerKey layer routed with old | ⟨waits, other, member, described⟩
          · exact Or.inl old
          · exact Or.inr ⟨waits, other, List.mem_cons_of_mem _ member, described⟩
      unfold refreshEntries at binds
      split at binds
      · next keyless =>
          exact skip (fun childKey keyed => absurd (keyless.symm.trans keyed) (by simp)) binds
      · next childKey keyed =>
          split at binds
          · next missing =>
              refine skip (fun _ _ found => ?_) binds
              have resolved : graph.resolve paths openable parent entry.authoredPath =
                  some (paths.target parent entry.authoredPath) :=
                routing.resolve_eq_some.2 ⟨rfl, found⟩
              exact absurd (missing.symm.trans resolved) (by simp)
          · next child resolved =>
              obtain ⟨rfl, found⟩ := routing.resolve_eq_some.1 resolved
              split at binds
              · exact absurd binds (by simp)
              · next bound bindHere =>
                  simp only [Prod.mk.injEq, Option.map_eq_some_iff] at binds
                  obtain ⟨sameAfter, queuedRest, later, rfl⟩ := binds
                  obtain ⟨withinHere, here, sameHere⟩ := bindKey_within bindHere
                  have facts := ih (routing.bind found bindHere) (Prod.ext sameAfter later)
                  have root : bound.rootLayer = graph.rootLayer := sameHere.rootLayer
                  refine ⟨facts.routing, withinHere.trans facts.within, sameHere.trans facts.same,
                    ?_, ?_, ?_⟩
                  · intro other member otherKey otherKeyed otherFound
                    rcases List.mem_cons.1 member with rfl | old
                    · obtain rfl := Option.some.inj (keyed.symm.trans otherKeyed)
                      exact ⟨facts.within.layers here, List.mem_cons_self⟩
                    · rw [← root] at otherFound
                      obtain ⟨there, waits⟩ := facts.bound other old otherKey otherKeyed otherFound
                      exact ⟨there, List.mem_cons_of_mem _ waits⟩
                  · intro layerKey member
                    rcases List.mem_cons.1 member with rfl | old
                    · exact ⟨_, facts.within.layers here⟩
                    · exact facts.queuedBound layerKey old
                  · intro layerKey layer routed
                    rcases facts.origin layerKey layer routed with
                      old | ⟨waits, other, member, otherKeyed, same, otherFound⟩
                    · obtain ⟨_, _, _, _, rfl⟩ := bindKey_cases bindHere
                      by_cases same : layerKey = childKey
                      · subst same
                        refine Or.inr ⟨List.mem_cons_self, entry, List.mem_cons_self, keyed, ?_,
                          found⟩
                        simpa [routeKey, eq_comm] using old
                      · exact Or.inl (by simpa [routeKey, same] using old)
                    · rw [root] at otherFound
                      exact Or.inr ⟨List.mem_cons_of_mem _ waits, other,
                        List.mem_cons_of_mem _ member, otherKeyed, same, otherFound⟩

/-- Between two turns of the loop: bound keys are named by the message and visited or waiting, visited
layers hold their lists with the children bound, and no other layer was touched. -/
structure Materialized (paths : AssetPaths Layer) (openable : Layer → Bool)
    (original : Layer → List SublayerEntry) (visited queue : List LayerKey)
    (graph : LayerGraph Layer) : Prop where
  routing : Routing openable graph
  named : ∀ layerKey layer, graph.layers layerKey = some layer →
    Names paths openable graph.rootLayer graph.rootLayerKey graph.states layerKey layer
  known : ∀ layerKey, layerKey ∈ visited ∨ layerKey ∈ queue ↔
    ∃ layer, graph.layers layerKey = some layer
  written : ∀ layerKey ∈ visited, ∀ layer entries, graph.layers layerKey = some layer →
    graph.states.lookup layerKey = some entries →
      graph.readSublayerEntries layer = entries.map SublayerEntry.withoutKey ∧
      ∀ entry ∈ entries, ∀ childKey, entry.layerKey = some childKey →
        Found paths openable graph.rootLayer layer entry →
          graph.layers childKey = some (paths.target layer entry.authoredPath)
  untouched : ∀ layer, (∀ layerKey ∈ visited, graph.layers layerKey ≠ some layer) →
    graph.readSublayerEntries layer = original layer

omit [DecidableEq Layer] in
theorem withoutKey_withoutKey (entries : List SublayerEntry) :
    (entries.map SublayerEntry.withoutKey).map SublayerEntry.withoutKey =
      entries.map SublayerEntry.withoutKey := by
  rw [List.map_map]
  rfl

/-- One turn of the loop on a new key keeps the invariant. -/
theorem Materialized.visit {original : Layer → List SublayerEntry}
    {visited queue : List LayerKey} {graph after : LayerGraph Layer} {parentKey : LayerKey}
    {parent : Layer} {entries : List SublayerEntry} {queued : List LayerKey}
    (before : Materialized paths openable original visited (parentKey :: queue) graph)
    (new : parentKey ∉ visited) (routed : graph.layers parentKey = some parent)
    (stored : graph.states.lookup parentKey = some entries)
    (binds : refreshEntries paths openable parent entries { graph with
      authored := Function.update graph.authored parent (entries.map SublayerEntry.withoutKey) } =
        (after, some queued)) :
    Materialized paths openable original (visited ++ [parentKey]) (queue ++ queued) after := by
  have routing := before.routing
  have facts := refreshEntries_bound parent entries (routing.withAuthored _) binds
  have states : after.states = graph.states := facts.same.states
  have rootLayer : after.rootLayer = graph.rootLayer := facts.same.rootLayer
  have rootLayerKey : after.rootLayerKey = graph.rootLayerKey := facts.same.rootLayerKey
  have authored : after.authored = Function.update graph.authored parent
      (entries.map SublayerEntry.withoutKey) := facts.same.authored
  have here : after.readSublayerEntries parent = entries.map SublayerEntry.withoutKey := by
    unfold readSublayerEntries
    rw [authored, Function.update_self]
    exact withoutKey_withoutKey entries
  have elsewhere : ∀ layer, layer ≠ parent →
      after.readSublayerEntries layer = graph.readSublayerEntries layer := by
    intro layer apart
    unfold readSublayerEntries
    rw [authored, Function.update_of_ne apart]
  -- a key that was known keeps its layer
  have kept : ∀ layerKey, layerKey ∈ visited ∨ layerKey ∈ parentKey :: queue →
      ∀ layer, after.layers layerKey = some layer → graph.layers layerKey = some layer := by
    intro layerKey present layer there
    obtain ⟨old, same⟩ := (before.known layerKey).1 present
    have grown : after.layers layerKey = some old := facts.within.layers same
    rw [← Option.some.inj (grown.symm.trans there)]
    exact same
  constructor
  · exact facts.routing
  · intro layerKey layer there
    rw [states, rootLayer, rootLayerKey]
    rcases facts.origin layerKey layer there with old | ⟨_, entry, member, keyed, rfl, found⟩
    · exact before.named layerKey layer old
    · exact Names.child (before.named parentKey parent routed) stored member keyed found
  · intro layerKey
    constructor
    · rintro (visitedNow | waits)
      · have present : layerKey ∈ visited ∨ layerKey ∈ parentKey :: queue := by
          rcases List.mem_append.1 visitedNow with old | current
          · exact Or.inl old
          · rw [List.mem_singleton.1 current]
            exact Or.inr List.mem_cons_self
        obtain ⟨layer, same⟩ := (before.known layerKey).1 present
        exact ⟨layer, facts.within.layers same⟩
      · rcases List.mem_append.1 waits with old | child
        · obtain ⟨layer, same⟩ :=
            (before.known layerKey).1 (Or.inr (List.mem_cons_of_mem _ old))
          exact ⟨layer, facts.within.layers same⟩
        · exact facts.queuedBound layerKey child
    · rintro ⟨layer, there⟩
      rcases facts.origin layerKey layer there with old | ⟨child, _⟩
      · rcases (before.known layerKey).2 ⟨layer, old⟩ with seen | waits
        · exact Or.inl (List.mem_append_left _ seen)
        · rcases List.mem_cons.1 waits with rfl | later
          · exact Or.inl (List.mem_append_right _ List.mem_cons_self)
          · exact Or.inr (List.mem_append_left _ later)
      · exact Or.inr (List.mem_append_right _ child)
  · intro layerKey member layer listed there found
    rw [states] at found
    rw [rootLayer]
    rcases List.mem_append.1 member with old | current
    · have there' := kept layerKey (Or.inl old) layer there
      obtain ⟨list, children⟩ := before.written layerKey old layer listed there' found
      have apart : layer ≠ parent := by
        rintro rfl
        have first := (routing.inverse _ _).1 there'
        have second := (routing.inverse _ _).1 routed
        rw [Option.some.inj (second.symm.trans first)] at new
        exact new old
      refine ⟨(elsewhere layer apart).trans list, ?_⟩
      intro entry present childKey keyed reached
      exact facts.within.layers (children entry present childKey keyed reached)
    · obtain rfl := List.mem_singleton.1 current
      have same := kept layerKey (Or.inr List.mem_cons_self) layer there
      obtain rfl := Option.some.inj (routed.symm.trans same)
      obtain rfl := Option.some.inj (stored.symm.trans found)
      exact ⟨here, fun entry present childKey keyed reached =>
        (facts.bound entry present childKey keyed reached).1⟩
  · intro layer missing
    have apart : layer ≠ parent := by
      rintro rfl
      exact missing parentKey (List.mem_append_right _ List.mem_cons_self)
        (facts.within.layers routed)
    rw [elsewhere layer apart]
    refine before.untouched layer fun layerKey member same => ?_
    exact missing layerKey (List.mem_append_left _ member) (facts.within.layers same)

/-- A loop that finishes has visited every bound key. -/
theorem materializeStates_materialized {original : Layer → List SublayerEntry} (steps : Nat)
    (queue visited : List LayerKey) {backups later : List (Layer × List SublayerEntry)}
    {graph after : LayerGraph Layer}
    (before : Materialized paths openable original visited queue graph)
    (finished : materializeStates paths openable steps queue visited backups graph =
      (after, later, true)) :
    SameStates graph after ∧ ∃ all, Materialized paths openable original all [] after := by
  induction steps generalizing queue visited backups graph with
  | zero =>
      cases queue with
      | nil =>
          obtain ⟨rfl, _⟩ := Prod.mk.inj finished
          exact ⟨(SameTopology.refl _).sameStates, visited, before⟩
      | cons parentKey queue => exact absurd finished (by simp [materializeStates])
  | succ steps ih =>
      cases queue with
      | nil =>
          obtain ⟨rfl, _⟩ := Prod.mk.inj finished
          exact ⟨(SameTopology.refl _).sameStates, visited, before⟩
      | cons parentKey queue =>
          unfold materializeStates at finished
          by_cases seen : parentKey ∈ visited
          · rw [if_pos seen] at finished
            refine ih queue visited ?_ finished
            refine ⟨before.routing, before.named, fun layerKey => ?_, before.written,
              before.untouched⟩
            rw [← before.known layerKey, List.mem_cons]
            constructor
            · rintro (old | waits)
              · exact Or.inl old
              · exact Or.inr (Or.inr waits)
            · rintro (old | rfl | waits)
              · exact Or.inl old
              · exact Or.inl seen
              · exact Or.inr waits
          · rw [if_neg seen] at finished
            obtain ⟨parent, routed⟩ := (before.known parentKey).1 (Or.inr List.mem_cons_self)
            simp only [routed] at finished
            split at finished
            · exact absurd finished (by simp)
            · next entries stored =>
                split at finished
                · exact absurd finished (by simp)
                · next authored written =>
                    obtain ⟨normalized, normal, same⟩ := Option.bind_eq_some_iff.1 written
                    obtain ⟨_, rfl⟩ := normalize_eq_some.1 normal
                    obtain rfl := Option.some.inj same
                    split at finished
                    · exact absurd finished (by simp)
                    · next bound queued binds =>
                        have visit := before.visit seen routed stored binds
                        obtain ⟨same, all, done⟩ := ih _ _ visit finished
                        have written := (refreshEntries_bound parent normalized
                          (before.routing.withAuthored _) binds).same
                        have sameHere : SameStates graph bound :=
                          ⟨written.authoritative, written.rootLayer, written.generation,
                            written.revision, written.ready, written.rootLayerKey, written.states,
                            written.parentRevisions, rfl, written.nextKey, written.nextGeneration⟩
                        exact ⟨sameHere.trans same, all, done⟩

/-! ### The states of a message -/

/-- Checked states pass the writer's check. -/
theorem validateLayers_valid {portable : String → Bool} (layers : List LayerState)
    {states collected : AList (fun _ : LayerKey => List SublayerEntry)}
    {revisions numbered : LayerKey → Option Nat}
    (before : ∀ layerKey entries, states.lookup layerKey = some entries →
      validSublayerEntries portable [] entries = true)
    (checked : validateLayers portable layers states revisions = some (collected, numbered))
    (layerKey : LayerKey) (entries : List SublayerEntry)
    (found : collected.lookup layerKey = some entries) :
    validSublayerEntries portable [] entries = true := by
  induction layers generalizing states revisions with
  | nil =>
      obtain ⟨rfl, _⟩ := Prod.mk.inj (Option.some.inj checked)
      exact before layerKey entries found
  | cons state rest ih =>
      unfold validateLayers at checked
      split at checked
      · exact absurd checked (by simp)
      · simp only [Option.bind_eq_bind, Option.bind_eq_some_iff, require_eq_some] at checked
        obtain ⟨sublayers, normal, _, _, later⟩ := checked
        refine ih ?_ later
        intro otherKey listed there
        by_cases here : otherKey = state.layerKey
        · subst here
          obtain ⟨valid, rfl⟩ := normalize_eq_some.1 normal
          rw [AList.lookup_insert] at there
          rw [← Option.some.inj there]
          exact valid
        · rw [AList.lookup_insert_ne here] at there
          exact before otherKey listed there

theorem validateTopology_declared {portable : String → Bool} {state : GraphState}
    {states : AList (fun _ : LayerKey => List SublayerEntry)} {revisions : LayerKey → Option Nat}
    (checked : validateTopology portable state = some (states, revisions)) :
    Declared portable states ∧ state.rootLayerKey ∈ states := by
  simp only [validateTopology, Option.bind_eq_bind, Option.bind_eq_some_iff, require_eq_some,
    Option.some.injEq] at checked
  obtain ⟨_, _, _, _, _, _, ⟨collected, numbered⟩, layers, _, root, _, closed, same⟩ := checked
  obtain ⟨rfl, rfl⟩ := Prod.mk.inj same
  refine ⟨⟨?_, ?_⟩, root⟩
  · intro layerKey entries found
    refine validateLayers_valid state.layers ?_ layers layerKey entries found
    intro otherKey listed there
    rw [AList.lookup_empty] at there
    exact absurd there (by simp)
  · intro layerKey entries found entry member childKey keyed
    have stored := List.all_eq_true.1 closed _ (AList.mem_lookup_iff.1 found)
    have listed := List.all_eq_true.1 stored entry member
    rw [keyed] at listed
    exact of_decide_eq_true listed

/-! ### One baseline -/

/-- The graph with the maps of a message and its root bound. -/
def rooted (graph : LayerGraph Layer) (state : GraphState)
    (states : AList (fun _ : LayerKey => List SublayerEntry))
    (revisions : LayerKey → Option Nat) : LayerGraph Layer :=
  (graph.adoptState state states revisions).routeKey state.rootLayerKey graph.rootLayer

/-- The root is bound without a conflict, for the maps are empty. -/
theorem adoptState_bindKey (graph : LayerGraph Layer) (state : GraphState)
    (states : AList (fun _ : LayerKey => List SublayerEntry)) (revisions : LayerKey → Option Nat) :
    (graph.adoptState state states revisions).bindKey state.rootLayerKey graph.rootLayer =
      some (graph.rooted state states revisions) := by
  simp [bindKey, adoptState, rooted]

theorem rooted_routing (graph : LayerGraph Layer) (state : GraphState)
    (states : AList (fun _ : LayerKey => List SublayerEntry)) (revisions : LayerKey → Option Nat) :
    Routing openable (graph.rooted state states revisions) := by
  constructor
  · exact Dict.update_inverse (by simp [adoptState]) (by simp [adoptState]) (by simp [adoptState])
  · rfl
  · rfl
  · exact Function.update_self ..
  · intro layerKey layer bound
    by_cases here : layerKey = state.rootLayerKey
    · subst here
      have same : graph.rootLayer = layer := by simpa [rooted, routeKey] using bound
      exact Or.inr same.symm
    · exact absurd bound (by simp [rooted, routeKey, adoptState, here])

/-- The loop starts with the root waiting and nothing written. -/
theorem rooted_materialized (graph : LayerGraph Layer) (state : GraphState)
    (states : AList (fun _ : LayerKey => List SublayerEntry)) (revisions : LayerKey → Option Nat) :
    Materialized paths openable graph.readSublayerEntries [] [state.rootLayerKey]
      (graph.rooted state states revisions) := by
  have only : ∀ layerKey layer, (graph.rooted state states revisions).layers layerKey = some layer →
      layerKey = state.rootLayerKey ∧ layer = graph.rootLayer := by
    intro layerKey layer bound
    by_cases here : layerKey = state.rootLayerKey
    · subst here
      have same : graph.rootLayer = layer := by simpa [rooted, routeKey] using bound
      exact ⟨rfl, same.symm⟩
    · exact absurd bound (by simp [rooted, routeKey, adoptState, here])
  constructor
  · exact rooted_routing graph state states revisions
  · intro layerKey layer bound
    obtain ⟨rfl, rfl⟩ := only layerKey layer bound
    exact Names.root
  · intro layerKey
    constructor
    · rintro (old | waits)
      · cases old
      · rw [List.mem_singleton.1 waits]
        exact ⟨graph.rootLayer, Function.update_self ..⟩
    · rintro ⟨layer, bound⟩
      rw [(only layerKey layer bound).1]
      exact Or.inr List.mem_cons_self
  · intro layerKey member
    cases member
  · intro layer _
    rfl

omit [DecidableEq Layer] in
/-- A walk over the whole message names exactly the layers that the message names. -/
theorem Materialized.layers_iff {original : Layer → List SublayerEntry} {all : List LayerKey}
    {graph : LayerGraph Layer} (done : Materialized paths openable original all [] graph)
    (layerKey : LayerKey) (layer : Layer) :
    graph.layers layerKey = some layer ↔
      Names paths openable graph.rootLayer graph.rootLayerKey graph.states layerKey layer := by
  constructor
  · exact done.named layerKey layer
  · intro named
    induction named with
    | root => exact done.routing.root
    | child parent stored listed keyed found ih =>
        have visited := ((done.known _).2 ⟨_, ih⟩).resolve_right List.not_mem_nil
        exact (done.written _ visited _ _ ih stored).2 _ listed _ keyed found

theorem Materialized.installed {state : GraphState} {all : List LayerKey}
    {before after : LayerGraph Layer} {states : AList (fun _ : LayerKey => List SublayerEntry)}
    {revisions : LayerKey → Option Nat}
    (checked : validateTopology paths.portable state = some (states, revisions))
    (done : Materialized paths openable before.readSublayerEntries all [] after)
    (same : SameStates (before.rooted state states revisions) after) :
    Installed paths openable state before
      { after with generation := state.generation, revision := state.revision, ready := true } := by
  have sameStates : after.states = states := same.states
  have sameRoot : after.rootLayer = before.rootLayer := same.rootLayer
  have sameKey : after.rootLayerKey = state.rootLayerKey := same.rootLayerKey
  have sameRevisions : after.parentRevisions = revisions := same.parentRevisions
  have visited : ∀ layerKey layer, after.layers layerKey = some layer → layerKey ∈ all :=
    fun layerKey layer bound => ((done.known layerKey).2 ⟨layer, bound⟩).resolve_right
      List.not_mem_nil
  constructor
  · rfl
  · rfl
  · exact sameKey
  · rfl
  · rw [checked, ← sameStates, ← sameRevisions]
  · intro layerKey layer
    show after.layers layerKey = some layer ↔
      Names paths openable before.rootLayer state.rootLayerKey after.states layerKey layer
    rw [← sameRoot, ← sameKey]
    exact done.layers_iff layerKey layer
  · exact fun layerKey layer => (done.routing.inverse layerKey layer).symm
  · exact done.routing.identityKeys
  · exact done.routing.identityIdentifiers
  · intro layerKey layer entries bound found
    exact (done.written layerKey (visited layerKey layer bound) layer entries bound found).1
  · intro layer unbound
    refine done.untouched layer fun layerKey _ bound => ?_
    rw [(done.routing.inverse layerKey layer).1 bound] at unbound
    exact absurd unbound (by simp)
  · exact sameRoot

/-- What `apply_state` comes to for a new valid message: the walk, the graph the loop leaves and the
lists that were replaced. -/
theorem materialize_message (openable : Layer → Bool) (graph : LayerGraph Layer)
    (state : GraphState) {states : AList (fun _ : LayerKey => List SublayerEntry)} {revisions : LayerKey → Option Nat}
    (checked : validateTopology paths.portable state = some (states, revisions)) :
    ∃ after backups,
      materializeStates paths openable (graph.rooted state states revisions).searchSteps
        [state.rootLayerKey] [] [] (graph.rooted state states revisions) =
          (after, backups, (graph.walkState paths openable state states).2) ∧
      SameStates (graph.rooted state states revisions) after ∧
      Saved graph.readSublayerEntries backups after ∧
      ∀ layer, layer ∈ backups.map (·.1) ↔
        layer ∈ (graph.walkState paths openable state states).1.cameTo := by
  obtain ⟨declared, root⟩ := validateTopology_declared checked
  have unwritten : Saved graph.readSublayerEntries [] (graph.rooted state states revisions) :=
    ⟨fun _ member => (nomatch member), fun _ _ => rfl⟩
  obtain ⟨after, backups, walked, finished, looped, walks, _, same, saved, came⟩ :=
    materializeStates_follows paths openable (graph.rooted state states revisions).searchSteps
      [state.rootLayerKey] [] [] (graph.rooted state states revisions)
      { layers := Function.update (fun _ => none) state.rootLayerKey (some graph.rootLayer)
        keys := Function.update (fun _ => none) graph.rootLayer (some state.rootLayerKey) }
      ⟨rfl, rfl, rfl, rfl⟩ declared
      (fun layerKey member => by rw [List.mem_singleton.1 member]; exact root) unwritten
      (fun _ => by simp)
  have walk : graph.walkState paths openable state states = (walked, finished) := walks
  rw [walk]
  exact ⟨after, backups, looped, same, saved, came⟩

omit [DecidableEq Layer] in
theorem Unchanged.refl (graph : LayerGraph Layer) : Unchanged graph graph :=
  ⟨rfl, rfl, rfl, rfl, rfl, rfl, rfl, rfl, rfl, rfl, fun _ => rfl, rfl⟩

/-- After a new message its generation and revision are not those from before. -/
theorem not_unchanged_of_adopted {graph after : LayerGraph Layer} {state : GraphState}
    (fresh : ¬ (state.generation = graph.generation ∧ (state.revision : Int) ≤ graph.revision))
    {states : AList (fun _ : LayerKey => List SublayerEntry)} {revisions : LayerKey → Option Nat}
    (same : SameStates (graph.rooted state states revisions) after) : ¬ Unchanged graph after := by
  intro unchanged
  have generation : after.generation = state.generation := same.generation
  have revision : after.revision = (state.revision : Int) := same.revision
  have equal : (state.revision : Int) = graph.revision :=
    revision.symm.trans unchanged.revision
  exact fresh ⟨generation.symm.trans unchanged.generation, Int.le_of_eq equal⟩

/-- The lists restored, the saved maps give back the graph from before. -/
theorem rollback_unchanged {graph after : LayerGraph Layer} {state : GraphState}
    {states : AList (fun _ : LayerKey => List SublayerEntry)} {revisions : LayerKey → Option Nat}
    (same : SameStates (graph.rooted state states revisions) after)
    (restored : ∀ layer, after.readSublayerEntries layer = graph.readSublayerEntries layer) :
    Unchanged graph (graph.rollback after) :=
  ⟨rfl, rfl, same.ready, rfl, rfl, rfl, rfl, rfl, rfl, rfl, restored, same.rootLayer⟩

/-- Application of a baseline is all or nothing exactly when, at a conflict, the writer takes back the
lists of all layers that were come to. -/
theorem stateApplied_iff_rollbackFits (paths : AssetPaths Layer) (openable : Layer → Bool)
    (graph : LayerGraph Layer) (state : GraphState) :
    StateApplied paths openable graph state ↔ RollbackFits paths openable graph state := by
  unfold StateApplied RollbackFits applyStateReply
  by_cases stale : state.generation = graph.generation ∧ (state.revision : Int) ≤ graph.revision
  · rw [if_pos stale]
    constructor
    · intro _ fresh
      exact absurd stale fresh
    · intro _
      exact Unchanged.refl graph
  · rw [if_neg stale]
    unfold applyStateInner
    cases checked : validateTopology paths.portable state with
    | none =>
        constructor
        · intro _ _ states revisions found
          exact nomatch found
        · intro _
          exact Unchanged.refl graph
    | some collected =>
        obtain ⟨states, revisions⟩ := collected
        have message := materialize_message openable graph state checked
        obtain ⟨after, backups, looped, same, saved, came⟩ := message
        simp only [adoptState_bindKey, looped]
        cases conflict : (graph.walkState paths openable state states).2 with
        | true =>
            obtain ⟨_, all, done⟩ := materializeStates_materialized _ _ _
              (rooted_materialized graph state states revisions) (looped.trans (by rw [conflict]))
            constructor
            · intro _ _ others numbered found collides
              obtain ⟨rfl, rfl⟩ := Prod.mk.inj (Option.some.inj found)
              exact absurd (conflict.symm.trans collides) (by simp)
            · intro _
              exact done.installed checked same
        | false =>
            have fits : (∀ backup ∈ backups,
                  validSublayerEntries paths.portable [] backup.2 = true) ↔
                ∀ layer ∈ (graph.walkState paths openable state states).1.cameTo,
                  validSublayerEntries paths.portable [] (graph.readSublayerEntries layer) = true := by
              constructor
              · intro valid layer member
                obtain ⟨backup, present, rfl⟩ := List.mem_map.1 ((came layer).2 member)
                rw [← saved.lists backup present]
                exact valid backup present
              · intro valid backup member
                rw [saved.lists backup member]
                exact valid backup.1 ((came backup.1).1 (List.mem_map_of_mem member))
            have taken := restoreLists_snd paths backups after
            have kept := restoreLists_same paths backups after
            have original := @restoreLists_original _ _ paths _
              (fun layer => withoutKey_withoutKey (graph.authored layer)) _ _ saved
            rcases restored : restoreLists paths backups after with ⟨last, _ | _⟩
            · rw [restored] at taken kept
              simp only [restored]
              constructor
              · intro unchanged
                exact absurd unchanged (not_unchanged_of_adopted stale (same.trans kept))
              · intro valid
                have all := fits.2 (valid stale states revisions rfl conflict)
                exact absurd (taken.2 all) (by simp)
            · rw [restored] at taken kept original
              simp only [restored]
              constructor
              · intro _ _ others numbered found _
                obtain ⟨rfl, rfl⟩ := Prod.mk.inj (Option.some.inj found)
                exact fits.1 (taken.1 rfl)
              · intro _
                exact rollback_unchanged (same.trans kept) (original rfl)

/-- The root sublayers an anonymous layer; the message gives two keys to paths that name one layer. -/
theorem not_stateApplied_anonymousSublayer :
    ¬ @StateApplied Nat _
      { portable := fun authoredPath => authoredPath != "anon:1", target := fun _ _ => 7 }
      (fun layer => layer == 7)
      { authoritative := false
        rootLayer := 0
        authored := fun layer => if layer = 0 then [{ authoredPath := "anon:1" }] else [] }
      { generation := 5
        revision := 1
        rootLayerKey := 1
        layers :=
          [⟨1, 1, [{ authoredPath := "a.usd", layerKey := some 2 },
            { authoredPath := "b.usd", layerKey := some 3 }]⟩, ⟨2, 1, []⟩, ⟨3, 1, []⟩] } := by
  intro applied
  have same : (5 : Nat) = 0 := Unchanged.generation applied
  exact absurd same (by decide)

/-! ### The step bound is never the reason to stop -/

/-- No more keys are queued than a parent has entries. -/
theorem refreshEntries_short (parent : Layer) (entries : List SublayerEntry)
    {graph after : LayerGraph Layer} {queued : List LayerKey}
    (binds : refreshEntries paths openable parent entries graph = (after, some queued)) :
    queued.length ≤ entries.length ∧ SameTopology graph after := by
  induction entries generalizing graph queued with
  | nil =>
      simp only [refreshEntries, Prod.mk.injEq, Option.some.injEq] at binds
      obtain ⟨rfl, rfl⟩ := binds
      exact ⟨Nat.le_refl _, SameTopology.refl _⟩
  | cons entry rest ih =>
      unfold refreshEntries at binds
      split at binds
      · exact ⟨Nat.le_succ_of_le (ih binds).1, (ih binds).2⟩
      · split at binds
        · exact ⟨Nat.le_succ_of_le (ih binds).1, (ih binds).2⟩
        · split at binds
          · exact absurd binds (by simp)
          · next bindHere =>
              simp only [Prod.mk.injEq, Option.map_eq_some_iff] at binds
              obtain ⟨sameAfter, queuedRest, later, rfl⟩ := binds
              obtain ⟨short, same⟩ := ih (Prod.ext sameAfter later)
              exact ⟨Nat.succ_le_succ short, (bindKey_within bindHere).2.2.trans same⟩

/-- With as many steps as entries wait to be queued, one more step changes nothing. -/
theorem materializeStates_succ (steps : Nat) (queue visited : List LayerKey)
    (backups : List (Layer × List SublayerEntry)) (graph : LayerGraph Layer)
    (enough : queue.length + Worklist.unvisitedWork graph.states.entries visited ≤ steps) :
    materializeStates paths openable (steps + 1) queue visited backups graph =
      materializeStates paths openable steps queue visited backups graph := by
  induction steps generalizing queue visited backups graph with
  | zero =>
      obtain rfl : queue = [] := List.length_eq_zero_iff.1 (by omega)
      rfl
  | succ steps ih =>
      cases queue with
      | nil => rfl
      | cons parentKey queue =>
          rw [List.length_cons] at enough
          have later := Worklist.unvisitedWork_append_le graph.states.entries visited parentKey
          rw [materializeStates.eq_def paths openable (steps + 1 + 1)]
          rw [materializeStates.eq_def paths openable (steps + 1)]
          simp only
          by_cases seen : parentKey ∈ visited
          · rw [if_pos seen, if_pos seen]
            exact ih queue visited backups graph (by omega)
          · rw [if_neg seen, if_neg seen]
            cases routed : graph.layers parentKey with
            | none => exact ih queue _ backups graph (by omega)
            | some parent =>
                cases stored : graph.states.lookup parentKey with
                | none => rfl
                | some entries =>
                    have paid := Worklist.unvisitedWork_pays (AList.mem_lookup_iff.1 stored) seen
                    simp only
                    cases written : graph.applySublayerEntries paths parent entries with
                    | none => rfl
                    | some authored =>
                        simp only
                        rcases binds : refreshEntries paths openable parent entries authored with
                          ⟨bound, _ | queued⟩
                        · rfl
                        · have short := refreshEntries_short parent entries binds
                          obtain ⟨_, _, same⟩ := Option.bind_eq_some_iff.1 written
                          have states : bound.states = graph.states := by
                            rw [short.2.states, ← Option.some.inj same]
                          simp only
                          refine ih _ _ _ bound ?_
                          rw [states, List.length_append]
                          omega

end LayerGraph

end UsdConnect
