/-
Purpose: Within one generation a revision identifies the sublayer list of a key as long as no key
  that pruning dropped is given a state again.
Trusted boundary: none
Main exports: NeverReattached, RevisionsIdentify, revisions_identify_of_neverReattached
-/
import UsdConnect.Proofs.GraphRuns

namespace UsdConnect

namespace LayerGraph

variable {Layer : Type} [DecidableEq Layer] {paths : AssetPaths Layer}

/-! ### Statements -/

/-- The graph after the first `count` operations of a run. -/
def moment (paths : AssetPaths Layer) (graph : LayerGraph Layer)
    (operations : List (GraphOperation Layer)) (count : Nat) : LayerGraph Layer :=
  (graph.operateAll paths (operations.take count)).2

/-- A key that has lost its state during the run never has one again. -/
def NeverReattached (paths : AssetPaths Layer) (graph : LayerGraph Layer)
    (operations : List (GraphOperation Layer)) : Prop :=
  ∀ first second third, first ≤ second → second ≤ third → ∀ layerKey,
    layerKey ∈ (moment paths graph operations first).states →
    layerKey ∉ (moment paths graph operations second).states →
    layerKey ∉ (moment paths graph operations third).states

/-- Equal revisions of one key mean equal sublayer lists. -/
def RevisionsIdentify (paths : AssetPaths Layer) (graph : LayerGraph Layer)
    (operations : List (GraphOperation Layer)) : Prop :=
  ∀ first second layerKey,
    (moment paths graph operations first).parentRevision layerKey =
      (moment paths graph operations second).parentRevision layerKey →
    (moment paths graph operations first).sublayersFor layerKey =
      (moment paths graph operations second).sublayersFor layerKey

/-- An edit based on a list that was read earlier is accepted only while that list still stands. -/
def AcceptsUnchangedOnly (paths : AssetPaths Layer) (graph : LayerGraph Layer)
    (operations : List (GraphOperation Layer)) : Prop :=
  ∀ read submitted layerKey entries event openable prepared, read ≤ submitted →
    (moment paths graph operations read).sublayersFor layerKey = some entries →
    event.revision = (moment paths graph operations read).parentRevision layerKey →
    (moment paths graph operations submitted).canonicalizeSublayers paths openable layerKey event =
      some prepared →
    ∀ between, read ≤ between → between ≤ submitted →
      (moment paths graph operations between).sublayersFor layerKey = some entries

/-! ### One operation -/

/-- Every key with a sublayer list has a revision. -/
def Versioned (graph : LayerGraph Layer) : Prop :=
  ∀ layerKey ∈ graph.states, (graph.parentRevisions layerKey).isSome

/-- Stored keys stay, and a list changes only together with its revision. -/
def Extends (before after : LayerGraph Layer) : Prop :=
  ∀ layerKey ∈ before.states, layerKey ∈ after.states ∧
    before.parentRevision layerKey ≤ after.parentRevision layerKey ∧
    (before.parentRevision layerKey = after.parentRevision layerKey →
      after.states.lookup layerKey = before.states.lookup layerKey)

/-- The same for the keys that are stored before and after. -/
def Advances (before after : LayerGraph Layer) : Prop :=
  ∀ layerKey ∈ before.states, layerKey ∈ after.states →
    before.parentRevision layerKey ≤ after.parentRevision layerKey ∧
    (before.parentRevision layerKey = after.parentRevision layerKey →
      after.states.lookup layerKey = before.states.lookup layerKey)

omit [DecidableEq Layer] in
theorem Extends.refl (graph : LayerGraph Layer) : Extends graph graph :=
  fun _ stored => ⟨stored, Nat.le_refl _, fun _ => rfl⟩

omit [DecidableEq Layer] in
theorem Extends.trans {first second third : LayerGraph Layer} (one : Extends first second)
    (two : Extends second third) : Extends first third := by
  intro layerKey stored
  obtain ⟨middle, grows, kept⟩ := one layerKey stored
  obtain ⟨final, growsOn, keptOn⟩ := two layerKey middle
  refine ⟨final, grows.trans growsOn, ?_⟩
  intro same
  have early : first.parentRevision layerKey = second.parentRevision layerKey := by omega
  have late : second.parentRevision layerKey = third.parentRevision layerKey := by omega
  rw [keptOn late, kept early]

section Steps

variable {openable : Layer → Bool} {graph after : LayerGraph Layer} {parentKey : LayerKey}
  {event : TopologyEvent} {records : List (LayerKey × TopologyEvent)}

omit [DecidableEq Layer] in
theorem AcceptStep.versioned (step : AcceptStep paths openable graph parentKey event after)
    (versioned : graph.Versioned) : after.Versioned := by
  intro layerKey stored
  rw [step.parentRevisions]
  by_cases edited : layerKey = parentKey
  · rw [edited, Function.update_self]
    rfl
  · rw [Function.update_of_ne edited]
    rw [step.states] at stored
    exact versioned layerKey (((AList.mem_insert _).1 stored).resolve_left edited)

omit [DecidableEq Layer] in
/-- Accepting an event gives its parent the next revision. -/
theorem AcceptStep.extends (step : AcceptStep paths openable graph parentKey event after) :
    Extends graph after := by
  intro layerKey stored
  refine ⟨by rw [step.states]; exact (AList.mem_insert _).2 (Or.inr stored), ?_⟩
  by_cases edited : layerKey = parentKey
  · subst edited
    have next : after.parentRevision layerKey = graph.parentRevision layerKey + 1 := by
      unfold parentRevision at *
      rw [step.parentRevisions, Function.update_self, step.eventRevision]
      rfl
    rw [next]
    exact ⟨Nat.le_succ _, fun same => absurd same (Nat.ne_of_lt (Nat.lt_succ_self _))⟩
  · have same : after.parentRevision layerKey = graph.parentRevision layerKey := by
      unfold parentRevision
      rw [step.parentRevisions, Function.update_of_ne edited]
    rw [same]
    exact ⟨Nat.le_refl _, fun _ => step.lookup_other edited⟩

omit [DecidableEq Layer] in
theorem Discovery.versioned (discovery : Discovery paths openable graph records after)
    (versioned : graph.Versioned) : after.Versioned := by
  induction discovery with
  | done graph => exact versioned
  | step new here later ih => exact ih (here.versioned versioned)

omit [DecidableEq Layer] in
theorem Discovery.extends (discovery : Discovery paths openable graph records after) :
    Extends graph after := by
  induction discovery with
  | done graph => exact Extends.refl graph
  | step new here later ih => exact here.extends.trans ih

omit [DecidableEq Layer] in
theorem Versioned.prune (versioned : graph.Versioned) (ready : graph.ready = true) :
    graph.pruneUnreachableStates.Versioned := by
  intro layerKey stored
  by_cases reached : graph.Reached layerKey
  · rw [(lookup_prune ready reached).2]
    apply versioned
    rw [← AList.lookup_isSome, (lookup_prune ready reached).1] at stored
    exact AList.lookup_isSome.1 stored
  · rw [← AList.lookup_isSome, (lookup_prune_none ready reached).1] at stored
    exact absurd stored (by simp)

omit [DecidableEq Layer] in
/-- Pruning keeps list and revision of what it keeps. -/
theorem Extends.prune {before : LayerGraph Layer} (grows : Extends before graph)
    (ready : graph.ready = true) : Advances before graph.pruneUnreachableStates := by
  intro layerKey stored kept
  by_cases reached : graph.Reached layerKey
  · obtain ⟨_, later, same⟩ := grows layerKey stored
    have revision : graph.pruneUnreachableStates.parentRevision layerKey =
        graph.parentRevision layerKey := by
      unfold parentRevision
      rw [(lookup_prune ready reached).2]
    rw [revision, (lookup_prune ready reached).1]
    exact ⟨later, same⟩
  · rw [← AList.lookup_isSome, (lookup_prune_none ready reached).1] at kept
    exact absurd kept (by simp)

omit [DecidableEq Layer] in
theorem Extends.prune_reached {before : LayerGraph Layer} (grows : Extends before graph)
    (ready : graph.ready = true) (reached : ∀ layerKey ∈ before.states, graph.Reached layerKey) :
    Extends before graph.pruneUnreachableStates := by
  intro layerKey stored
  have kept : layerKey ∈ graph.pruneUnreachableStates.states := by
    rw [← AList.lookup_isSome, (lookup_prune ready (reached layerKey stored)).1]
    exact AList.lookup_isSome.2 (grows layerKey stored).1
  exact ⟨kept, grows.prune ready layerKey stored kept⟩

end Steps

/-! ### Operations -/

/-- What holds of the authoritative graph between operations, with a revision for every list. -/
structure Revised (paths : AssetPaths Layer) (graph : LayerGraph Layer) : Prop where
  settled : graph.Settled paths
  versioned : graph.Versioned

section Operations

variable {openable : Layer → Bool} {steps : Nat} {graph final : LayerGraph Layer}
  {records : List (LayerKey × TopologyEvent)}

theorem Revised.edit {parentKey : LayerKey} {event : TopologyEvent}
    (revised : graph.Revised paths)
    (committed : graph.commitSublayers paths openable steps parentKey event =
      some (records, final)) :
    final.Revised paths ∧ Advances graph final := by
  obtain ⟨parent, prepared, _, first, last, discovered, _, facts, step, looped, rfl, rfl⟩ :=
    commitSublayers_cases revised.settled.grounded committed
  have routedQueue : ∀ mapping ∈ prepared.mappings, first.layers mapping.2 = some mapping.1 := by
    intro mapping member
    rw [facts.mappings] at member
    exact step.mapping facts.routedParent member
  have discovery := discoverLoop_discovery steps _ _ step.grounded routedQueue looped
  have grounded := discovery.grounded step.grounded
  have versioned := discovery.versioned (step.versioned revised.versioned)
  exact ⟨⟨grounded.prune, versioned.prune grounded.ready⟩,
    (step.extends.trans discovery.extends).prune grounded.ready⟩

/-- A refresh keeps every stored key, because it only adds edges. -/
theorem Revised.refreshLoop (parents : List LayerKey) (revised : graph.Revised paths)
    (refreshed : LayerGraph.refreshLoop paths openable steps parents graph =
      some (records, final)) :
    final.Revised paths ∧ Extends graph final := by
  induction parents generalizing graph records with
  | nil =>
      obtain ⟨rfl, rfl⟩ := Prod.mk.inj (Option.some.inj refreshed)
      exact ⟨revised, Extends.refl graph⟩
  | cons parentKey rest ih =>
      unfold LayerGraph.refreshLoop at refreshed
      split at refreshed
      · exact ih revised refreshed
      · next parent routedParent =>
          simp only at refreshed
          split at refreshed
          · exact ih revised refreshed
          · simp only [Option.bind_eq_bind, Option.bind_eq_some_iff] at refreshed
            obtain ⟨event, described, ⟨prepared, keyed⟩, canonicalized, continued⟩ := refreshed
            simp only at continued
            split at continued
            · exact ih revised continued
            · simp only [discoverSublayerStates, Option.bind_eq_bind, Option.bind_eq_some_iff]
                at continued
              obtain ⟨first, accepted, ⟨_, pruned⟩, ⟨_, _, ⟨discovered, last⟩, looped, discoveredEq⟩,
                ⟨later, _⟩, looping, same⟩ := continued
              obtain ⟨rfl, rfl⟩ := Prod.mk.inj (Option.some.inj discoveredEq)
              obtain ⟨rfl, rfl⟩ := Prod.mk.inj (Option.some.inj same)
              obtain ⟨step, _⟩ := acceptStep_of_described revised.settled.grounded routedParent
                described canonicalized accepted
              obtain ⟨other, facts⟩ :=
                canonicalizeSublayers_prepared revised.settled.grounded canonicalized
              obtain rfl := Option.some.inj (routedParent.symm.trans facts.routedParent)
              have discovery := discoverLoop_discovery steps _ _ step.grounded
                (fun mapping member => step.mapping routedParent (facts.mappings ▸ member)) looped
              have grounded := discovery.grounded step.grounded
              have versioned := discovery.versioned (step.versioned revised.versioned)
              have kept : ∀ layerKey ∈ graph.states, last.Reached layerKey := by
                intro layerKey stored
                apply discovery.reached_mono
                exact reached_of_refreshed revised.settled.grounded described facts step
                  (revised.settled.reached layerKey stored)
              have grown : Extends graph last.pruneUnreachableStates :=
                (step.extends.trans discovery.extends).prune_reached grounded.ready kept
              obtain ⟨finalRevised, grownLater⟩ :=
                ih ⟨grounded.prune, versioned.prune grounded.ready⟩ looping
              exact ⟨finalRevised, grown.trans grownLater⟩

theorem Revised.refresh (revised : graph.Revised paths)
    (refreshed : graph.refreshResolvedSublayers paths openable steps = some (records, final)) :
    final.Revised paths ∧ Advances graph final := by
  simp only [refreshResolvedSublayers, Option.bind_eq_bind, Option.bind_eq_some_iff] at refreshed
  obtain ⟨_, _, ⟨_, last⟩, looped, same⟩ := refreshed
  obtain ⟨rfl, rfl⟩ := Prod.mk.inj (Option.some.inj same)
  obtain ⟨lastRevised, grown⟩ := revised.refreshLoop graph.reachableLayerKeys looped
  have grounded := lastRevised.settled.grounded
  exact ⟨⟨grounded.prune, lastRevised.versioned.prune grounded.ready⟩, grown.prune grounded.ready⟩

omit [DecidableEq Layer] in
theorem Revised.rotate {rotated : LayerGraph Layer} {state : GraphState}
    (revised : graph.Revised paths) (started : graph.startNewGeneration = some rotated)
    (message : rotated.stateMessage = some state) : rotated.Revised paths := by
  refine ⟨(startNewGeneration_settled revised.settled started message).1, ?_⟩
  have ready := revised.settled.grounded.ready
  unfold startNewGeneration at started
  rw [if_neg (by rw [ready]; decide)] at started
  obtain rfl := Option.some.inj started
  intro layerKey stored
  have reached := (mem_reachableLayerKeys ready).2 (revised.settled.reached layerKey stored)
  simp only [if_pos reached]
  rfl

omit [DecidableEq Layer] in
theorem Advances.refl (graph : LayerGraph Layer) : Advances graph graph :=
  fun _ _ _ => ⟨Nat.le_refl _, fun _ => rfl⟩

/-- Every operation keeps the invariant; within a generation it advances the revisions. -/
theorem Revised.operate (revised : graph.Revised paths) (operation : GraphOperation Layer) :
    (graph.operate paths operation).2.Revised paths ∧
      (operation ≠ .newGeneration → Advances graph (graph.operate paths operation).2) := by
  cases operation with
  | editSublayers layerKey event openable steps =>
      cases committed : graph.commitSublayers paths openable steps layerKey event with
      | none =>
          simp only [LayerGraph.operate, committed]
          exact ⟨revised, fun _ => Advances.refl graph⟩
      | some result =>
          obtain ⟨records, final⟩ := result
          simp only [LayerGraph.operate, committed]
          obtain ⟨finalRevised, advances⟩ := revised.edit committed
          exact ⟨finalRevised, fun _ => advances⟩
  | refreshResolved openable steps =>
      cases refreshed : graph.refreshResolvedSublayers paths openable steps with
      | none =>
          simp only [LayerGraph.operate, refreshed]
          exact ⟨revised, fun _ => Advances.refl graph⟩
      | some result =>
          obtain ⟨records, final⟩ := result
          simp only [LayerGraph.operate, refreshed]
          obtain ⟨finalRevised, advances⟩ := revised.refresh refreshed
          exact ⟨finalRevised, fun _ => advances⟩
  | newGeneration =>
      refine ⟨?_, fun other => absurd rfl other⟩
      cases started : graph.startNewGeneration with
      | none =>
          simp only [LayerGraph.operate, started]
          exact revised
      | some rotated =>
          cases message : rotated.stateMessage with
          | none =>
              simp only [LayerGraph.operate, started, message]
              exact revised
          | some state =>
              simp only [LayerGraph.operate, started, message]
              exact revised.rotate started message

theorem Revised.operateAll (operations : List (GraphOperation Layer))
    (revised : graph.Revised paths) :
    (graph.operateAll paths operations).2.Revised paths := by
  induction operations generalizing graph with
  | nil => exact revised
  | cons operation rest ih => exact ih (revised.operate operation).1

theorem createAuthoritative_revised {rootLayer : Layer} {authored : Layer → List SublayerEntry}
    (created : createAuthoritative paths openable steps rootLayer authored = some graph) :
    graph.Revised paths := by
  refine ⟨createAuthoritative_settled created, ?_⟩
  simp only [createAuthoritative, Option.bind_eq_bind, Option.bind_eq_some_iff] at created
  obtain ⟨rooted, _, ⟨states, captured⟩, _, same⟩ := created
  obtain rfl := Option.some.inj same
  intro layerKey stored
  simp only [if_pos stored]
  rfl

end Operations

/-! ### Runs -/

theorem operateAll_append (first second : List (GraphOperation Layer))
    (graph : LayerGraph Layer) :
    (graph.operateAll paths (first ++ second)).2 =
      ((graph.operateAll paths first).2.operateAll paths second).2 := by
  induction first generalizing graph with
  | nil => rfl
  | cons operation rest ih => exact ih (graph.operate paths operation).2

section Runs

variable {graph : LayerGraph Layer} {operations : List (GraphOperation Layer)}

theorem moment_succ (count : Nat) :
    moment paths graph operations (count + 1) =
      match operations[count]? with
      | none => moment paths graph operations count
      | some operation => ((moment paths graph operations count).operate paths operation).2 := by
  unfold moment
  rw [List.take_add_one, operateAll_append]
  cases operations[count]? with
  | none => rfl
  | some operation => rfl

theorem Revised.moment (revised : graph.Revised paths) (count : Nat) :
    (LayerGraph.moment paths graph operations count).Revised paths :=
  revised.operateAll (operations.take count)

/-- One more operation of a run within one generation. -/
theorem Revised.moment_advances (revised : graph.Revised paths)
    (oneGeneration : .newGeneration ∉ operations) (count : Nat) :
    Advances (LayerGraph.moment paths graph operations count)
      (LayerGraph.moment paths graph operations (count + 1)) := by
  rw [moment_succ]
  cases found : operations[count]? with
  | none => exact Advances.refl _
  | some operation =>
      apply ((revised.moment count).operate operation).2
      rintro rfl
      exact oneGeneration (List.mem_of_getElem? found)

/-- Between two moments at which a key is stored, it is stored and its revision advances. -/
theorem NeverReattached.advances (never : NeverReattached paths graph operations)
    (revised : graph.Revised paths) (oneGeneration : .newGeneration ∉ operations) {first : Nat}
    (later : Nat) (order : first ≤ later) :
    Advances (LayerGraph.moment paths graph operations first)
      (LayerGraph.moment paths graph operations later) := by
  induction later, order using Nat.le_induction with
  | base => exact Advances.refl _
  | succ later order ih =>
      intro layerKey stored kept
      have between : layerKey ∈ (LayerGraph.moment paths graph operations later).states := by
        by_contra dropped
        exact never first later (later + 1) order (Nat.le_succ _) layerKey stored dropped kept
      obtain ⟨grows, same⟩ := ih layerKey stored between
      obtain ⟨growsOn, sameOn⟩ :=
        revised.moment_advances oneGeneration later layerKey between kept
      refine ⟨grows.trans growsOn, ?_⟩
      intro equal
      rw [sameOn (by omega), same (by omega)]

omit [DecidableEq Layer] in
/-- A key without a list has no revision, one with a list has a positive one. -/
theorem Revised.parentRevision_pos (revised : graph.Revised paths) (layerKey : LayerKey) :
    layerKey ∈ graph.states ↔ 0 < graph.parentRevision layerKey := by
  constructor
  · intro stored
    obtain ⟨revision, found⟩ := Option.isSome_iff_exists.1 (revised.versioned layerKey stored)
    have positive := (revised.settled.grounded.revisions found).2
    unfold parentRevision
    rw [found]
    exact positive
  · intro positive
    unfold parentRevision at positive
    cases found : graph.parentRevisions layerKey with
    | none =>
        rw [found] at positive
        exact absurd positive (Nat.lt_irrefl 0)
    | some revision => exact (revised.settled.grounded.revisions found).1

theorem NeverReattached.identify (never : NeverReattached paths graph operations)
    (revised : graph.Revised paths) (oneGeneration : .newGeneration ∉ operations) :
    RevisionsIdentify paths graph operations := by
  -- the earlier moment first
  have ordered : ∀ first second layerKey, first ≤ second →
      (LayerGraph.moment paths graph operations first).parentRevision layerKey =
        (LayerGraph.moment paths graph operations second).parentRevision layerKey →
      (LayerGraph.moment paths graph operations first).sublayersFor layerKey =
        (LayerGraph.moment paths graph operations second).sublayersFor layerKey := by
    intro first second layerKey order same
    by_cases stored : layerKey ∈ (LayerGraph.moment paths graph operations first).states
    · have kept : layerKey ∈ (LayerGraph.moment paths graph operations second).states := by
        rw [(revised.moment second).parentRevision_pos, ← same,
          ← (revised.moment first).parentRevision_pos]
        exact stored
      exact ((never.advances revised oneGeneration second order layerKey stored kept).2 same).symm
    · have missing : layerKey ∉ (LayerGraph.moment paths graph operations second).states := by
        rw [(revised.moment second).parentRevision_pos, ← same,
          ← (revised.moment first).parentRevision_pos]
        exact stored
      unfold sublayersFor
      rw [AList.lookup_eq_none.2 stored, AList.lookup_eq_none.2 missing]
  intro first second layerKey same
  rcases Nat.le_total first second with order | order
  · exact ordered first second layerKey order same
  · exact (ordered second first layerKey order same.symm).symm

theorem NeverReattached.accepts (never : NeverReattached paths graph operations)
    (revised : graph.Revised paths) (oneGeneration : .newGeneration ∉ operations) :
    AcceptsUnchangedOnly paths graph operations := by
  intro read submitted layerKey entries event openable prepared order found based accepted between
    after before
  have current : event.revision =
      (LayerGraph.moment paths graph operations submitted).parentRevision layerKey := by
    simp only [canonicalizeSublayers, Option.bind_eq_bind, Option.bind_eq_some_iff,
      require_eq_some] at accepted
    obtain ⟨_, _, _, _, _, _, _, _, _, revision, _⟩ := accepted
    exact revision
  have stored : layerKey ∈ (LayerGraph.moment paths graph operations read).states :=
    AList.lookup_isSome.1 (by unfold sublayersFor at found; rw [found]; rfl)
  have kept : layerKey ∈ (LayerGraph.moment paths graph operations submitted).states := by
    rw [(revised.moment submitted).parentRevision_pos, ← current, based,
      ← (revised.moment read).parentRevision_pos]
    exact stored
  have middle : layerKey ∈ (LayerGraph.moment paths graph operations between).states := by
    by_contra dropped
    exact never read between submitted after before layerKey stored dropped kept
  have one := never.advances revised oneGeneration between after layerKey stored middle
  have two := never.advances revised oneGeneration submitted before layerKey middle kept
  rw [← found]
  exact one.2 (by omega)

/-- From the graph the constructor captured and any operations since: in a run of edits and
refreshes that never gives a dropped key a state again, a revision identifies the list, and an edit
is accepted only while the list it was based on stands. -/
theorem revisions_identify_of_neverReattached (paths : AssetPaths Layer)
    {openable : Layer → Bool} {steps : Nat} {rootLayer : Layer}
    {authored : Layer → List SublayerEntry} {server : LayerGraph Layer}
    (created : createAuthoritative paths openable steps rootLayer authored = some server)
    (earlier operations : List (GraphOperation Layer))
    (oneGeneration : .newGeneration ∉ operations)
    (never : NeverReattached paths (server.operateAll paths earlier).2 operations) :
    RevisionsIdentify paths (server.operateAll paths earlier).2 operations ∧
      AcceptsUnchangedOnly paths (server.operateAll paths earlier).2 operations := by
  have revised := (createAuthoritative_revised created).operateAll earlier
  exact ⟨never.identify revised oneGeneration, never.accepts revised oneGeneration⟩

end Runs

/-! ### A child that is edited, detached and attached again -/

/-- The root lists `y.usda` besides `x.usda`. -/
def listSibling : List (GraphOperation String) :=
  [.editSublayers 1 ⟨1, 1, [{ authoredPath := "x.usda" }, { authoredPath := "y.usda" }]⟩
    (fun _ => true) 10]

theorem revisions_identify_listSibling :
    RevisionsIdentify siblingPaths (siblingServer.operateAll siblingPaths []).2 listSibling ∧
      AcceptsUnchangedOnly siblingPaths (siblingServer.operateAll siblingPaths []).2
        listSibling := by
  apply revisions_identify_of_neverReattached siblingPaths (Option.some_get _).symm [] listSibling
  · simp [listSibling]
  · -- the edit only adds keys
    intro first second third early late layerKey stored dropped kept
    have start : ∀ key ∈ siblingServer.states.keys,
        key ∈ (siblingServer.operateAll siblingPaths listSibling).2.states.keys := by decide
    apply dropped
    cases first with
    | zero =>
        cases second with
        | zero => exact stored
        | succ count =>
            unfold moment listSibling
            rw [List.take_succ_cons, List.take_nil]
            exact start layerKey stored
    | succ count =>
        cases second with
        | zero => exact absurd early (Nat.not_succ_le_zero count)
        | succ other =>
            unfold moment listSibling at stored ⊢
            rw [List.take_succ_cons, List.take_nil] at stored ⊢
            exact stored

/-- `x.usda` gets a sublayer, leaves the root's list and returns to it. -/
def reattachChild : List (GraphOperation String) :=
  [.editSublayers 2 ⟨1, 1, [{ authoredPath := "z.usda" }]⟩ (fun _ => false) 10,
    .editSublayers 1 ⟨1, 1, []⟩ (fun _ => false) 10,
    .editSublayers 1 ⟨1, 2, [{ authoredPath := "x.usda" }]⟩ (fun _ => false) 10]

/-- The returned child is at its first revision with the edited list, and an edit based on its
original list is accepted. -/
theorem not_revisionsIdentify_reattachChild :
    .newGeneration ∉ reattachChild ∧
      ¬ RevisionsIdentify siblingPaths siblingServer reattachChild ∧
      ¬ AcceptsUnchangedOnly siblingPaths siblingServer reattachChild := by
  refine ⟨by simp [reattachChild], ?_, ?_⟩
  · intro identify
    have same := identify 0 3 2 (by decide)
    exact absurd same (by decide)
  · intro accepts
    have accepted : ((moment siblingPaths siblingServer reattachChild 3).canonicalizeSublayers
        siblingPaths (fun _ => false) 2 ⟨1, 1, []⟩).isSome := by decide
    have same := accepts 0 3 2 [] ⟨1, 1, []⟩ (fun _ => false) _ (by decide) (by decide) (by decide)
      (Option.some_get accepted).symm 3 (by decide) (by decide)
    exact absurd same (by decide)

end LayerGraph

end UsdConnect
