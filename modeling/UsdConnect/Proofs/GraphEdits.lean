/-
Purpose: Replicas over edits and refreshes.  An edit is safe when no layer it attaches leads back to
  a known key that the edited list alone has cut off; a refresh only adds edges.
Trusted boundary: none
Main exports: SafeEdit, Mirror.edit, Mirror.refresh
-/
import UsdConnect.Proofs.GraphReplication

namespace UsdConnect

namespace LayerGraph

variable {Layer : Type} [DecidableEq Layer] {paths : AssetPaths Layer}

/-! ### Safe edits -/

/-- The graph stores nothing for this layer. -/
def Stateless (graph : LayerGraph Layer) (layer : Layer) : Prop :=
  ∀ layerKey, graph.keysByIdentifier layer = some layerKey → layerKey ∉ graph.states

/-- Layers that an edited list attaches: its own children without a state, and theirs in turn, as
the layers hold them. -/
inductive Attached (paths : AssetPaths Layer) (openable : Layer → Bool) (graph : LayerGraph Layer)
    (parent : Layer) (entries : List SublayerEntry) : Layer → Prop where
  | listed {entry : SublayerEntry} {layer : Layer} (member : entry ∈ entries)
      (resolved : graph.resolve paths openable parent entry.authoredPath = some layer)
      (new : graph.Stateless layer) : Attached paths openable graph parent entries layer
  | nested {outer layer : Layer} {entry : SublayerEntry}
      (attached : Attached paths openable graph parent entries outer)
      (member : entry ∈ graph.readSublayerEntries outer)
      (resolved : graph.resolve paths openable outer entry.authoredPath = some layer)
      (new : graph.Stateless layer) : Attached paths openable graph parent entries layer

/-- The graph with one list replaced, its children keyed as they are known. -/
def withEditedList (paths : AssetPaths Layer) (openable : Layer → Bool) (graph : LayerGraph Layer)
    (parentKey : LayerKey) (parent : Layer) (event : TopologyEvent) : LayerGraph Layer :=
  { graph with
    states := graph.states.insert parentKey
      (graph.describeEntries paths openable parent
        (event.sublayers.map SublayerEntry.withoutKey)) }

/-- A known key that an attached layer lists is still reached when only the edited list is
replaced. -/
def SafeEdit (paths : AssetPaths Layer) (openable : Layer → Bool) (graph : LayerGraph Layer)
    (parentKey : LayerKey) (event : TopologyEvent) : Prop :=
  ∀ parent, graph.layers parentKey = some parent →
    ∀ outer, Attached paths openable graph parent event.sublayers outer →
      ∀ entry ∈ graph.readSublayerEntries outer, ∀ child layerKey,
        graph.resolve paths openable outer entry.authoredPath = some child →
        graph.keysByIdentifier child = some layerKey → layerKey ∈ graph.states →
          layerKey ∈ (graph.withEditedList paths openable parentKey parent event).reachableLayerKeys

section Edit

variable {openable : Layer → Bool} {origin : LayerGraph Layer} {parent : Layer}
  {entries : List SublayerEntry}

/-- A layer the edited list or an attached layer names. -/
def Candidate (paths : AssetPaths Layer) (openable : Layer → Bool) (origin : LayerGraph Layer)
    (parent : Layer) (entries : List SublayerEntry) (layer : Layer) : Prop :=
  (∃ entry ∈ entries, origin.resolve paths openable parent entry.authoredPath = some layer) ∨
  ∃ outer, Attached paths openable origin parent entries outer ∧
    ∃ entry ∈ origin.readSublayerEntries outer,
      origin.resolve paths openable outer entry.authoredPath = some layer

omit [DecidableEq Layer] in
theorem Candidate.attached {layer : Layer}
    (candidate : Candidate paths openable origin parent entries layer)
    (new : origin.Stateless layer) : Attached paths openable origin parent entries layer := by
  rcases candidate with ⟨entry, member, resolved⟩ | ⟨outer, attached, entry, member, resolved⟩
  · exact .listed member resolved new
  · exact .nested attached member resolved new

/-- What a graph inside the operation keeps of the one before it. -/
structure Since (openable : Layer → Bool) (parent : Layer) (origin graph : LayerGraph Layer) :
    Prop where
  within : RoutesWithin origin graph
  opened : ∀ layer, (graph.keysByIdentifier layer).isSome →
    (origin.keysByIdentifier layer).isSome ∨ openable layer = true
  stored : ∀ layerKey ∈ origin.states, layerKey ∈ graph.states
  parentStored : ∃ parentKey ∈ graph.states, graph.layers parentKey = some parent
  authored : ∀ layer, layer ≠ parent → graph.authored layer = origin.authored layer

omit [DecidableEq Layer] in
theorem Since.resolve {graph : LayerGraph Layer} (since : Since openable parent origin graph)
    {outer child : Layer} {authoredPath : String}
    (resolved : graph.resolve paths openable outer authoredPath = some child) :
    origin.resolve paths openable outer authoredPath = some child := by
  obtain ⟨target, reason⟩ := resolve_eq_some.1 resolved
  refine resolve_eq_some.2 ⟨target, ?_⟩
  rcases reason with held | opens
  · exact since.opened child held
  · exact Or.inr opens

omit [DecidableEq Layer] in
theorem Since.step {graph after : LayerGraph Layer} {layerKey : LayerKey} {event : TopologyEvent}
    (since : Since openable parent origin graph)
    (step : AcceptStep paths openable graph layerKey event after)
    (content : after.authored = graph.authored) : Since openable parent origin after where
  within := since.within.trans step.within
  opened := by
    intro layer held
    rcases step.opened layer held with before | opens
    · exact since.opened layer before
    · exact Or.inr opens
  stored := by
    intro stored present
    rw [step.states]
    exact (AList.mem_insert _).2 (Or.inr (since.stored stored present))
  parentStored := by
    obtain ⟨parentKey, present, routedParent⟩ := since.parentStored
    refine ⟨parentKey, ?_, step.within.layers routedParent⟩
    rw [step.states]
    exact (AList.mem_insert _).2 (Or.inr present)
  authored := by
    intro layer different
    rw [content]
    exact since.authored layer different

/-- Every list that the discovery loop stores is the content of an attached layer. -/
theorem discoverLoop_attached {graph after : LayerGraph Layer}
    {records : List (LayerKey × TopologyEvent)} (steps : Nat) (queue : List (Layer × LayerKey))
    (visited : List LayerKey) (grounded : graph.Grounded paths)
    (since : Since openable parent origin graph)
    (routedQueue : ∀ mapping ∈ queue, graph.layers mapping.2 = some mapping.1)
    (candidates : ∀ mapping ∈ queue, Candidate paths openable origin parent entries mapping.1)
    (succeeded : discoverLoop paths openable steps queue visited graph = some (records, after))
    {layerKey : LayerKey} {stored : List SublayerEntry}
    (found : after.states.lookup layerKey = some stored) (new : layerKey ∉ graph.states) :
    ∃ outer, Attached paths openable origin parent entries outer ∧
      ∀ entry ∈ stored, ∀ childKey, entry.layerKey = some childKey →
        ∃ listed ∈ origin.readSublayerEntries outer, ∃ child,
          origin.resolve paths openable outer listed.authoredPath = some child ∧
            after.layers childKey = some child := by
  induction steps generalizing queue visited graph records with
  | zero =>
      cases queue with
      | nil =>
          obtain ⟨_, rfl⟩ := Prod.mk.inj (Option.some.inj succeeded)
          exact absurd (AList.lookup_isSome.1 (by rw [found]; rfl)) new
      | cons mapping queue => exact absurd succeeded (by simp [discoverLoop])
  | succ steps ih =>
      cases queue with
      | nil =>
          obtain ⟨_, rfl⟩ := Prod.mk.inj (Option.some.inj succeeded)
          exact absurd (AList.lookup_isSome.1 (by rw [found]; rfl)) new
      | cons mapping queue =>
          obtain ⟨layer, discoveredKey⟩ := mapping
          have routedRest : ∀ other ∈ queue, graph.layers other.2 = some other.1 :=
            fun other member => routedQueue other (List.mem_cons_of_mem _ member)
          have candidatesRest : ∀ other ∈ queue,
              Candidate paths openable origin parent entries other.1 :=
            fun other member => candidates other (List.mem_cons_of_mem _ member)
          unfold discoverLoop at succeeded
          split at succeeded
          · exact ih queue visited grounded since routedRest candidatesRest succeeded new
          · next skipped =>
              simp only [Option.bind_eq_bind, Option.bind_eq_some_iff] at succeeded
              obtain ⟨event, described, ⟨prepared, keyed⟩, canonicalized, middle, accepted,
                ⟨later, final⟩, looped, same⟩ := succeeded
              obtain ⟨_, rfl⟩ := Prod.mk.inj (Option.some.inj same)
              have routedLayer := routedQueue _ List.mem_cons_self
              have unstored : discoveredKey ∉ graph.states := fun here => skipped (Or.inr here)
              obtain ⟨step, content⟩ := acceptStep_of_described grounded routedLayer described
                canonicalized accepted
              obtain ⟨other, facts⟩ := canonicalizeSublayers_prepared grounded canonicalized
              obtain rfl := Option.some.inj (routedLayer.symm.trans facts.routedParent)
              have stateless : origin.Stateless layer := by
                intro knownKey known
                have here := since.within.keys known
                rw [(grounded.routed.layers_iff _ _).1 routedLayer] at here
                obtain rfl := Option.some.inj here
                exact fun present => unstored (since.stored _ present)
              have attached := (candidates _ List.mem_cons_self).attached stateless
              have different : layer ≠ parent := by
                rintro rfl
                obtain ⟨parentKey, present, routedParent⟩ := since.parentStored
                have here := (grounded.routed.layers_iff _ _).1 routedParent
                rw [(grounded.routed.layers_iff _ _).1 routedLayer] at here
                obtain rfl := Option.some.inj here
                exact unstored present
              -- an entry of the stored list is an entry the layer holds
              have listed : ∀ entry ∈ prepared.event.sublayers,
                  entry.withoutKey ∈ origin.readSublayerEntries layer := by
                intro entry member
                have held := step.grounded.authored step.lookup_parent
                  (step.within.layers routedLayer)
                unfold readSublayerEntries at held ⊢
                rw [← since.authored layer different, ← content, held]
                exact List.mem_map.2 ⟨entry, member, rfl⟩
              have routedMiddle : ∀ mapping ∈ queue ++ prepared.mappings,
                  middle.layers mapping.2 = some mapping.1 := by
                intro mapping member
                rcases List.mem_append.1 member with old | fresh
                · exact step.within.layers (routedRest mapping old)
                · rw [facts.mappings] at fresh
                  exact step.mapping routedLayer fresh
              by_cases here : layerKey = discoveredKey
              · subst here
                have discovery := discoverLoop_discovery steps _ _ step.grounded routedMiddle looped
                have present : layerKey ∈ middle.states := by
                  rw [step.states]
                  exact (AList.mem_insert _).2 (Or.inl rfl)
                rw [discovery.lookup present, step.lookup_parent] at found
                obtain rfl := Option.some.inj found
                refine ⟨layer, attached, ?_⟩
                intro entry member childKey keyed
                refine ⟨entry.withoutKey, listed entry member, _,
                  since.resolve (step.resolved routedLayer entry member childKey keyed), ?_⟩
                exact discovery.within.layers (step.grounded.entryLayer step.lookup_parent
                  (step.within.layers routedLayer) entry member childKey keyed)
              · refine ih _ _ step.grounded ?_ routedMiddle ?_ looped ?_
                · exact since.step step content
                · intro mapping member
                  rcases List.mem_append.1 member with old | fresh
                  · exact candidatesRest mapping old
                  · rw [facts.mappings] at fresh
                    obtain ⟨entry, present, keyed, target⟩ := mem_keyedChildren.1 fresh
                    refine Or.inr ⟨layer, attached, entry.withoutKey, listed entry present, ?_⟩
                    rw [← target]
                    exact since.resolve (step.resolved routedLayer entry present _ keyed)
                · rw [step.states]
                  intro present
                  rcases (AList.mem_insert _).1 present with same | old
                  · exact here same
                  · exact new old

theorem commitSublayers_cases {steps : Nat} {graph final : LayerGraph Layer}
    {parentKey : LayerKey} {event : TopologyEvent} {records : List (LayerKey × TopologyEvent)}
    (grounded : graph.Grounded paths)
    (committed : graph.commitSublayers paths openable steps parentKey event =
      some (records, final)) :
    ∃ parent prepared keyed first last discovered,
      graph.canonicalizeSublayers paths openable parentKey event = some (prepared, keyed) ∧
      Prepared paths graph parentKey parent event prepared ∧
      AcceptStep paths openable graph parentKey prepared.event first ∧
      discoverLoop paths openable steps prepared.mappings [] first = some (discovered, last) ∧
      records = (parentKey, prepared.event) :: discovered ∧
      final = last.pruneUnreachableStates := by
  simp only [commitSublayers, applySublayerEntries, discoverSublayerStates, Option.bind_eq_bind,
    Option.bind_eq_some_iff, require_eq_some, normalize_eq_some] at committed
  obtain ⟨target, routedTarget, _, _, ⟨prepared, keyed⟩, canonicalized, _,
    ⟨_, ⟨_, rfl⟩, appliedEq⟩, first, accepted, ⟨discovered, pruned⟩,
    ⟨_, _, ⟨_, last⟩, looped, discoveredEq⟩, same⟩ := committed
  obtain rfl := Option.some.inj appliedEq
  obtain ⟨rfl, rfl⟩ := Prod.mk.inj (Option.some.inj discoveredEq)
  obtain ⟨rfl, rfl⟩ := Prod.mk.inj (Option.some.inj same)
  obtain ⟨parent, facts⟩ := canonicalizeSublayers_prepared grounded canonicalized
  obtain rfl := Option.some.inj (routedTarget.symm.trans facts.routedParent)
  obtain ⟨_, _, _, _, _, _, _, _, keyedEq⟩ := canonicalizeSublayers_cases canonicalized
  have authored : keyed.authored = graph.authored := by rw [keyedEq]
  refine ⟨target, prepared, keyed, first, last, _, canonicalized, facts, ?_, looped, rfl, rfl⟩
  refine acceptStep_of_accepted grounded canonicalized ?_ ?_ accepted
  · intro layer other
    rw [authored]
    exact Function.update_of_ne (fun same => other (by rw [same]; exact routedTarget)) _ _
  · intro other routedOther
    obtain rfl := Option.some.inj (routedTarget.symm.trans routedOther)
    rw [Function.update_self]
    simp [SublayerEntry.withoutKey]

omit [DecidableEq Layer] in
theorem reached_of_withEditedList {graph first : LayerGraph Layer} {parentKey : LayerKey}
    {event : TopologyEvent} {prepared : PreparedSublayers Layer}
    (facts : Prepared paths graph parentKey parent event prepared)
    (step : AcceptStep paths openable graph parentKey prepared.event first) {layerKey : LayerKey}
    (reached : (graph.withEditedList paths openable parentKey parent event).Reached layerKey) :
    first.Reached layerKey := by
  unfold Reached at reached ⊢
  rw [step.rootLayerKey]
  refine Worklist.Reaches.mono ?_ reached
  intro node child edge
  obtain ⟨stored, found, entry, member, keyed⟩ := mem_childKeys.1 edge
  by_cases edited : node = parentKey
  · subst edited
    simp only [withEditedList, AList.lookup_insert, Option.some.injEq] at found
    subst found
    obtain ⟨bare, bareMember, described⟩ := List.mem_map.1 member
    obtain ⟨source, sourceMember, rfl⟩ := List.mem_map.1 bareMember
    -- an entry without a key got it from a routed child
    have routedChild : graph.keysByIdentifier (paths.target parent source.authoredPath) =
        some child := by
      split at described
      · rw [← described] at keyed
        exact absurd keyed (by simp [SublayerEntry.withoutKey])
      · next target resolved =>
          obtain ⟨rfl, _⟩ := resolve_eq_some.1 resolved
          split at described
          · rw [← described] at keyed
            exact absurd keyed (by simp [SublayerEntry.withoutKey])
          · next known routedKey =>
              rw [← described] at keyed
              obtain rfl := Option.some.inj keyed
              exact routedKey
    obtain ⟨other, present, same⟩ := facts.routed source sourceMember child routedChild
    exact mem_childKeys.2 ⟨_, step.lookup_parent, other, present, same⟩
  · refine mem_childKeys.2 ⟨stored, ?_, entry, member, keyed⟩
    rw [step.lookup_other edited]
    simpa only [withEditedList, AList.lookup_insert_ne edited] using found

theorem SafeEdit.kept {graph first last : LayerGraph Layer} {parentKey : LayerKey}
    {event : TopologyEvent} {prepared : PreparedSublayers Layer} {steps : Nat}
    {records : List (LayerKey × TopologyEvent)}
    (safe : SafeEdit paths openable graph parentKey event) (grounded : graph.Grounded paths)
    (facts : Prepared paths graph parentKey parent event prepared)
    (step : AcceptStep paths openable graph parentKey prepared.event first)
    (looped : discoverLoop paths openable steps prepared.mappings [] first = some (records, last)) :
    ∀ layerKey ∈ graph.states, last.Reached layerKey → first.Reached layerKey := by
  have routedQueue : ∀ mapping ∈ prepared.mappings, first.layers mapping.2 = some mapping.1 := by
    intro mapping member
    rw [facts.mappings] at member
    exact step.mapping facts.routedParent member
  have discovery := discoverLoop_discovery steps _ _ step.grounded routedQueue looped
  have since : Since openable parent graph first :=
    { within := step.within
      opened := step.opened
      stored := by
        intro layerKey present
        rw [step.states]
        exact (AList.mem_insert _).2 (Or.inr present)
      parentStored := by
        refine ⟨parentKey, ?_, step.within.layers facts.routedParent⟩
        rw [step.states]
        exact (AList.mem_insert _).2 (Or.inl rfl)
      authored := by
        intro layer different
        refine step.authored layer ?_
        rw [facts.routedParent]
        exact fun same => different (Option.some.inj same).symm }
  have candidates : ∀ mapping ∈ prepared.mappings,
      Candidate paths openable graph parent event.sublayers mapping.1 := by
    intro mapping member
    rw [facts.mappings] at member
    obtain ⟨entry, present, keyed, target⟩ := mem_keyedChildren.1 member
    have resolved := step.resolved facts.routedParent entry present _ keyed
    have bare : entry.withoutKey ∈ event.sublayers.map SublayerEntry.withoutKey := by
      rw [← facts.withoutKeys]
      exact List.mem_map.2 ⟨entry, present, rfl⟩
    obtain ⟨source, sourceMember, same⟩ := List.mem_map.1 bare
    have path : source.authoredPath = entry.authoredPath := congrArg (·.authoredPath) same
    refine Or.inl ⟨source, sourceMember, ?_⟩
    rw [path, resolved, target]
  -- every reached key was reached before the discovery, unless it is a new one
  have either : ∀ layerKey, last.Reached layerKey →
      first.Reached layerKey ∨ layerKey ∉ graph.states := by
    intro layerKey reached
    unfold Reached at reached
    rw [discovery.rootLayerKey] at reached
    induction reached with
    | refl => exact Or.inl Relation.ReflTransGen.refl
    | @tail node child _ edge before =>
        obtain ⟨stored, found, entry, member, keyed⟩ := mem_childKeys.1 edge
        by_cases known : node ∈ first.states
        · have reachedNode : first.Reached node := by
            rcases before with here | unknown
            · exact here
            · rw [step.states] at known
              rcases (AList.mem_insert _).1 known with rfl | old
              · exact step.reached_parent
              · exact absurd old unknown
          rw [discovery.lookup known] at found
          exact Or.inl (reachedNode.tail (mem_childKeys.2 ⟨stored, found, entry, member, keyed⟩))
        · obtain ⟨outer, attached, origins⟩ := discoverLoop_attached steps _ _ step.grounded since
            routedQueue candidates looped found known
          obtain ⟨listed, listedMember, target, resolved, routedChild⟩ :=
            origins entry member child keyed
          by_cases old : child ∈ graph.states
          · obtain ⟨layer, routedBefore⟩ := grounded.stateLayer child old
            have routedLast := discovery.within.layers (step.within.layers routedBefore)
            obtain rfl := Option.some.inj (routedLast.symm.trans routedChild)
            have reachable := safe parent facts.routedParent outer attached listed listedMember
              layer child resolved ((grounded.routed.layers_iff _ _).1 routedBefore) old
            have ready : (graph.withEditedList paths openable parentKey parent event).ready =
                true := grounded.ready
            exact Or.inl (reached_of_withEditedList facts step
              ((mem_reachableLayerKeys ready).1 reachable))
          · exact Or.inr old
  intro layerKey stored reached
  rcases either layerKey reached with here | unknown
  · exact here
  · exact absurd stored unknown

theorem Mirror.edit {steps : Nat} {graph final replica : LayerGraph Layer}
    {parentKey : LayerKey} {event : TopologyEvent} {records : List (LayerKey × TopologyEvent)}
    (mirror : Mirror graph replica) (settled : graph.Settled paths)
    (safe : SafeEdit paths openable graph parentKey event)
    (committed : graph.commitSublayers paths openable steps parentKey event =
      some (records, final))
    (deliveries : List (GraphMessage × (Layer → Bool)))
    (delivered : deliveries.map (·.1) = topologyMessages records) :
    final.Settled paths ∧
      ∃ result, receiveAll paths replica deliveries = some result ∧ Mirror final result := by
  obtain ⟨parent, prepared, _, first, last, discovered, _, facts, step, looped, rfl, rfl⟩ :=
    commitSublayers_cases settled.grounded committed
  have routedQueue : ∀ mapping ∈ prepared.mappings, first.layers mapping.2 = some mapping.1 := by
    intro mapping member
    rw [facts.mappings] at member
    exact step.mapping facts.routedParent member
  have discovery := discoverLoop_discovery steps _ _ step.grounded routedQueue looped
  have kept := safe.kept settled.grounded facts step looped
  exact ⟨(discovery.grounded step.grounded).prune,
    mirror.operation settled step discovery kept deliveries delivered⟩

end Edit

/-! ### Refreshes -/

section Refresh

variable {openable : Layer → Bool}

omit [DecidableEq Layer] in
/-- Re-resolving a parent keeps every edge it had: a routed layer is found again. -/
theorem reached_of_refreshed {graph first : LayerGraph Layer} {parentKey : LayerKey}
    {parent : Layer} {event : TopologyEvent} {prepared : PreparedSublayers Layer}
    (grounded : graph.Grounded paths)
    (described : graph.describeSublayers paths openable parent = some event)
    (facts : Prepared paths graph parentKey parent event prepared)
    (step : AcceptStep paths openable graph parentKey prepared.event first) {layerKey : LayerKey}
    (reached : graph.Reached layerKey) : first.Reached layerKey := by
  unfold Reached at reached ⊢
  rw [step.rootLayerKey]
  refine Worklist.Reaches.mono ?_ reached
  intro node child edge
  obtain ⟨stored, found, entry, member, keyed⟩ := mem_childKeys.1 edge
  by_cases edited : node = parentKey
  · subst edited
    have routedChild := grounded.entryLayer found facts.routedParent entry member child keyed
    -- the layer still lists the entry, under the same path
    have listed : entry.withoutKey ∈ event.sublayers.map SublayerEntry.withoutKey := by
      rw [describeSublayers_cases described, withoutKey_describeEntries, withoutKey_read,
        grounded.authored found facts.routedParent]
      exact List.mem_map.2 ⟨entry, member, rfl⟩
    obtain ⟨source, sourceMember, same⟩ := List.mem_map.1 listed
    have path : source.authoredPath = entry.authoredPath := congrArg (·.authoredPath) same
    obtain ⟨other, present, otherKey⟩ := facts.routed source sourceMember child
      (by rw [path]; exact (grounded.routed.layers_iff _ _).1 routedChild)
    exact mem_childKeys.2 ⟨_, step.lookup_parent, other, present, otherKey⟩
  · refine mem_childKeys.2 ⟨stored, ?_, entry, member, keyed⟩
    rw [step.lookup_other edited]
    exact found

theorem receiveAll_append {first second : List (GraphMessage × (Layer → Bool))}
    {replica middle : LayerGraph Layer} (received : receiveAll paths replica first = some middle) :
    receiveAll paths replica (first ++ second) = receiveAll paths middle second := by
  induction first generalizing replica with
  | nil =>
      obtain rfl := Option.some.inj received
      rfl
  | cons delivery rest ih =>
      obtain ⟨message, replicaOpenable⟩ := delivery
      simp only [receiveAll, Option.bind_eq_bind, Option.bind_eq_some_iff] at received
      obtain ⟨next, taken, later⟩ := received
      simp only [List.cons_append, receiveAll, taken, Option.bind_eq_bind, Option.bind_some]
      exact ih later

theorem Mirror.refreshLoop {steps : Nat} (parents : List LayerKey)
    {graph final replica : LayerGraph Layer} {records : List (LayerKey × TopologyEvent)}
    (mirror : Mirror graph replica) (settled : graph.Settled paths)
    (refreshed : LayerGraph.refreshLoop paths openable steps parents graph = some (records, final))
    (deliveries : List (GraphMessage × (Layer → Bool)))
    (delivered : deliveries.map (·.1) = topologyMessages records) :
    final.Settled paths ∧
      ∃ result, receiveAll paths replica deliveries = some result ∧ Mirror final result := by
  induction parents generalizing graph replica records deliveries with
  | nil =>
      obtain ⟨rfl, rfl⟩ := Prod.mk.inj (Option.some.inj refreshed)
      have none : deliveries = [] := List.map_eq_nil_iff.1 delivered
      subst none
      exact ⟨settled, replica, rfl, mirror⟩
  | cons parentKey rest ih =>
      unfold LayerGraph.refreshLoop at refreshed
      split at refreshed
      · exact ih mirror settled refreshed deliveries delivered
      · next parent routedParent =>
          simp only at refreshed
          split at refreshed
          · exact ih mirror settled refreshed deliveries delivered
          · simp only [Option.bind_eq_bind, Option.bind_eq_some_iff] at refreshed
            obtain ⟨event, described, ⟨prepared, keyed⟩, canonicalized, continued⟩ := refreshed
            simp only at continued
            split at continued
            · exact ih mirror settled continued deliveries delivered
            · simp only [discoverSublayerStates, Option.bind_eq_bind, Option.bind_eq_some_iff]
                at continued
              obtain ⟨first, accepted, ⟨_, pruned⟩, ⟨_, _, ⟨discovered, last⟩, looped, discoveredEq⟩,
                ⟨later, _⟩, looping, same⟩ := continued
              obtain ⟨rfl, rfl⟩ := Prod.mk.inj (Option.some.inj discoveredEq)
              obtain ⟨rfl, rfl⟩ := Prod.mk.inj (Option.some.inj same)
              obtain ⟨step, _⟩ := acceptStep_of_described settled.grounded routedParent described
                canonicalized accepted
              obtain ⟨other, facts⟩ :=
                canonicalizeSublayers_prepared settled.grounded canonicalized
              obtain rfl := Option.some.inj (routedParent.symm.trans facts.routedParent)
              have discovery := discoverLoop_discovery steps _ _ step.grounded
                (fun mapping member => step.mapping routedParent (facts.mappings ▸ member)) looped
              have kept : ∀ layerKey ∈ graph.states, last.Reached layerKey →
                  first.Reached layerKey := fun layerKey stored _ =>
                reached_of_refreshed settled.grounded described facts step
                  (settled.reached layerKey stored)
              have split : topologyMessages
                  ((parentKey, prepared.event) :: discovered ++ later) =
                  topologyMessages ((parentKey, prepared.event) :: discovered) ++
                    topologyMessages later := by
                simp [topologyMessages]
              rw [split] at delivered
              obtain ⟨now, afterwards, rfl, deliveredNow, deliveredLater⟩ :=
                List.map_eq_append_iff.1 delivered
              obtain ⟨next, received, nextMirror⟩ :=
                mirror.operation settled step discovery kept now deliveredNow
              obtain ⟨finalSettled, result, receivedLater, resultMirror⟩ :=
                ih nextMirror (discovery.grounded step.grounded).prune looping afterwards
                  deliveredLater
              refine ⟨finalSettled, result, ?_, resultMirror⟩
              rw [receiveAll_append received]
              exact receivedLater

theorem Mirror.refresh {steps : Nat} {graph final replica : LayerGraph Layer}
    {records : List (LayerKey × TopologyEvent)} (mirror : Mirror graph replica)
    (settled : graph.Settled paths)
    (refreshed : graph.refreshResolvedSublayers paths openable steps = some (records, final))
    (deliveries : List (GraphMessage × (Layer → Bool)))
    (delivered : deliveries.map (·.1) = topologyMessages records) :
    final.Settled paths ∧
      ∃ result, receiveAll paths replica deliveries = some result ∧ Mirror final result := by
  simp only [refreshResolvedSublayers, Option.bind_eq_bind, Option.bind_eq_some_iff] at refreshed
  obtain ⟨_, _, ⟨_, last⟩, looped, same⟩ := refreshed
  obtain ⟨rfl, rfl⟩ := Prod.mk.inj (Option.some.inj same)
  obtain ⟨lastSettled, result, received, lastMirror⟩ :=
    mirror.refreshLoop graph.reachableLayerKeys settled looped deliveries delivered
  exact ⟨lastSettled.grounded.prune, result, received, lastMirror.prune lastSettled.grounded.ready⟩

end Refresh

end LayerGraph

end UsdConnect
