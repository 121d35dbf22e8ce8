/-
Purpose: The dictionaries of a layer stack simulate the ordered stack: each operation on the one does
  what it does on the other, errors included.
Trusted boundary: none
Main exports: Agree, StackStore.represents_initial, Represents.ensureLayer
-/
import UsdConnect.Server.StackStore

namespace UsdConnect

/-- Two results that fail alike or stand in a relation. -/
inductive Agree {α β : Type} (related : α → β → Prop) : Except String α → Except String β → Prop
  | ok {result : α} {other : β} (same : related result other) : Agree related (.ok result) (.ok other)
  | error (message : String) : Agree related (.error message) (.error message)

theorem Agree.of_ok {α β : Type} {related : α → β → Prop} {first : Except String α}
    {second : Except String β} (agree : Agree related first second) {result : α}
    (succeeded : first = .ok result) : ∃ other, second = .ok other ∧ related result other := by
  cases agree with
  | ok same =>
      cases succeeded
      exact ⟨_, rfl, same⟩
  | error message => cases succeeded

namespace StackStore

theorem represents_initial : initial.Represents CollaborationLayerStack.initial := by
  have only : ∀ layer ∈ CollaborationLayerStack.initial.layers,
      layer = ⟨defaultLayerKey, "Default", 0, false⟩ :=
    fun layer member => List.mem_singleton.1 member
  constructor
  · rfl
  · intro key
    rfl
  · intro layer member
    rw [only layer member]
    exact OrderedDict.get?_set_self _ _ _
  · intro layer member
    rw [only layer member]
    exact OrderedDict.get?_set_self _ _ _
  · intro layer member
    rw [only layer member]
    exact OrderedDict.get?_set_self _ _ _
  · intro layer member
    rw [only layer member]
    rfl
  · intro identifier member
    cases member
  · rfl
  · rfl

namespace Represents

variable {store : StackStore} {stack : CollaborationLayerStack}

/-- A lookup finds the layer of the stack. -/
theorem get?_eq (same : store.Represents stack) (layerKey : String) :
    store.layers.get? layerKey = (stack.layerFor layerKey).map (·.identifier) := by
  cases found : stack.layerFor layerKey with
  | none =>
      apply OrderedDict.get?_eq_none
      rw [same.keys]
      exact CollaborationLayerStack.layerFor_none.1 found
  | some layer =>
      obtain ⟨member, here⟩ := CollaborationLayerStack.layerFor_some found
      rw [← here]
      exact same.layers layer member

theorem mem_order (same : store.Represents stack) (key : String) :
    key ∈ store.order ↔ key ∈ store.layers.keys := by
  rw [same.order, same.keys]

theorem order_nodup (same : store.Represents stack) : store.order.Nodup := by
  rw [same.order]
  exact stack.layerKeys_nodup

theorem order_perm (same : store.Represents stack) : store.order.Perm store.layers.keys :=
  (List.perm_ext_iff_of_nodup same.order_nodup store.layers.distinct).2 same.mem_order

theorem order_getLast (same : store.Represents stack) :
    store.order.getLast? = some defaultLayerKey := by
  rw [same.order, ← stack.defaultKey]
  unfold CollaborationLayerStack.layerKeys CollaborationLayerStack.layers
  rw [List.map_append, List.map_singleton, List.getLast?_concat]

theorem identifier_ne_next (same : store.Represents stack) {layer : ManagedLayer}
    (member : layer ∈ stack.layers) : layer.identifier ≠ store.nextIdentifier := by
  rw [same.nextIdentifier]
  exact Nat.ne_of_lt (stack.fresh layer member)

theorem ensureLayer (same : store.Represents stack) (layerKey label : String) :
    Agree (fun after other => after.1.Represents other.1 ∧ after.2.2 = other.2)
      (store.ensureLayer layerKey label) (stack.ensureLayer layerKey label) := by
  unfold StackStore.ensureLayer CollaborationLayerStack.ensureLayer
  by_cases named : layerKey = ""
  · rw [if_pos named, dif_pos named]
    exact .error _
  rw [if_neg named, dif_neg named, same.get?_eq]
  by_cases taken : layerKey ∈ stack.layerKeys
  · rw [dif_pos taken]
    cases found : stack.layerFor layerKey with
    | none => exact absurd taken (CollaborationLayerStack.layerFor_none.1 found)
    | some layer => exact .ok ⟨same, rfl⟩
  · rw [dif_neg taken, CollaborationLayerStack.layerFor_none.2 taken]
    apply Agree.ok
    refine ⟨?_, rfl⟩
    -- the new layer stands right above the default layer
    have split : ∀ layer, layer ∈ stack.upper ++ [⟨layerKey, if label ≠ "" then label else layerKey,
        stack.nextIdentifier, false⟩] ++ [stack.defaultLayer] ↔
        layer = ⟨layerKey, if label ≠ "" then label else layerKey, stack.nextIdentifier, false⟩ ∨
          layer ∈ stack.layers := by
      intro layer
      unfold CollaborationLayerStack.layers
      simp only [List.mem_append, List.mem_singleton]
      tauto
    have away : ∀ layer ∈ stack.layers, layer.layerKey ≠ layerKey := by
      intro layer member here
      exact taken (here ▸ List.mem_map_of_mem member)
    constructor
    · show store.order.dropLast ++ [layerKey, defaultLayerKey] = _
      rw [same.order]
      unfold CollaborationLayerStack.layerKeys CollaborationLayerStack.layers
      simp [stack.defaultKey]
    · intro key
      unfold CollaborationLayerStack.layerKeys CollaborationLayerStack.layers
      rw [OrderedDict.mem_keys_set, same.keys, List.mem_map]
      constructor
      · rintro (rfl | known)
        · exact ⟨_, (split _).2 (Or.inl rfl), rfl⟩
        · obtain ⟨layer, member, here⟩ := List.mem_map.1 known
          exact ⟨layer, (split _).2 (Or.inr member), here⟩
      · rintro ⟨layer, member, rfl⟩
        rcases (split _).1 member with rfl | before
        · exact Or.inl rfl
        · exact Or.inr (List.mem_map_of_mem before)
    · intro layer member
      rcases (split _).1 member with rfl | before
      · rw [OrderedDict.get?_set_self, same.nextIdentifier]
      · rw [OrderedDict.get?_set_of_ne _ _ (away layer before)]
        exact same.layers layer before
    · intro layer member
      rcases (split _).1 member with rfl | before
      · exact OrderedDict.get?_set_self _ _ _
      · rw [OrderedDict.get?_set_of_ne _ _ (away layer before)]
        exact same.labels layer before
    · intro layer member
      rcases (split _).1 member with rfl | before
      · rw [same.nextIdentifier]
        exact OrderedDict.get?_set_self _ _ _
      · rw [OrderedDict.get?_set_of_ne _ _ (same.identifier_ne_next before)]
        exact same.identifiers layer before
    · intro layer member
      rcases (split _).1 member with rfl | before
      · have unmuted : stack.nextIdentifier ∉ store.muted := by
          intro muted
          have known := same.mutedKnown _ muted
          rw [same.nextIdentifier] at known
          exact absurd known (Nat.lt_irrefl _)
        exact (decide_eq_false unmuted).symm
      · exact same.muted layer before
    · intro identifier member
      exact Nat.lt_succ_of_lt (same.mutedKnown identifier member)
    · exact congrArg (· + 1) same.revision
    · exact congrArg (· + 1) same.nextIdentifier

theorem setOrder (same : store.Represents stack) (order : List String) :
    Agree (fun after other => after.1.Represents other.1 ∧ after.2 = other.2)
      (store.setOrder order) (stack.setOrder order) := by
  unfold StackStore.setOrder CollaborationLayerStack.setOrder
  by_cases nodup : order.Nodup
  swap
  · rw [if_pos nodup, dif_neg nodup]
    exact .error _
  rw [if_neg (not_not_intro nodup), dif_pos nodup]
  simp only [same.keys]
  by_cases complete : (∀ key ∈ order, key ∈ stack.layerKeys) ∧ ∀ key ∈ stack.layerKeys, key ∈ order
  swap
  · rw [if_pos complete, dif_neg complete]
    exact .error _
  rw [if_neg (not_not_intro complete), dif_pos complete]
  by_cases weakest : order.getLast? = some defaultLayerKey
  swap
  · rw [if_pos weakest, dif_neg weakest]
    exact .error _
  rw [if_neg (not_not_intro weakest), dif_pos weakest, same.order]
  by_cases unchanged : order = stack.layerKeys
  · rw [if_pos unchanged, if_pos unchanged]
    exact .ok ⟨same, rfl⟩
  · rw [if_neg unchanged, if_neg unchanged]
    apply Agree.ok
    refine ⟨?_, rfl⟩
    have joined : stack.reordered order = stack.reordered order.dropLast ++ [stack.defaultLayer] :=
      CollaborationLayerStack.reordered_dropLast weakest
    have moved := CollaborationLayerStack.reordered_perm nodup complete.1 complete.2
    have members : ∀ layer, layer ∈ stack.reordered order.dropLast ++ [stack.defaultLayer] ↔
        layer ∈ stack.layers := by
      intro layer
      rw [← joined]
      exact moved.mem_iff
    have keys : (stack.reordered order.dropLast ++ [stack.defaultLayer]).map (·.layerKey) =
        order := by
      rw [← joined]
      exact CollaborationLayerStack.reordered_keys complete.1
    constructor
    · exact keys.symm
    · intro key
      unfold CollaborationLayerStack.layerKeys CollaborationLayerStack.layers
      rw [keys]
      exact (same.keys key).trans ⟨complete.2 key, complete.1 key⟩
    · exact fun layer member => same.layers layer ((members layer).1 member)
    · exact fun layer member => same.labels layer ((members layer).1 member)
    · exact fun layer member => same.identifiers layer ((members layer).1 member)
    · exact fun layer member => same.muted layer ((members layer).1 member)
    · exact same.mutedKnown
    · exact congrArg (· + 1) same.revision
    · exact same.nextIdentifier

theorem setMuted (same : store.Represents stack) (layerKey : String) (muted : Bool) :
    Agree (fun after other => after.1.Represents other.1 ∧ after.2 = other.2)
      (store.setMuted layerKey muted) (stack.setMuted layerKey muted) := by
  unfold StackStore.setMuted StackStore.layerFor CollaborationLayerStack.setMuted
  rw [same.get?_eq]
  cases found : stack.layerFor layerKey with
  | none => exact .error _
  | some layer =>
      obtain ⟨known, here⟩ := CollaborationLayerStack.layerFor_some found
      dsimp only [Option.map_some]
      rw [← same.muted layer known]
      by_cases unchanged : layer.muted = muted
      · rw [if_pos unchanged, if_pos unchanged]
        exact .ok ⟨same, rfl⟩
      · rw [if_neg unchanged, if_neg unchanged]
        apply Agree.ok
        refine ⟨?_, rfl⟩
        have mapped := stack.mapLayers_layers
          (fun other => if other.layerKey = layerKey then { other with muted := muted } else other)
          (fun other => by split <;> rfl) (fun other => by split <;> rfl)
        -- every layer is one from before, muted or not as set
        have change : ∀ other, other ∈ (stack.mapLayers
            (fun other => if other.layerKey = layerKey then { other with muted := muted } else other)
            (fun other => by split <;> rfl) (fun other => by split <;> rfl)).layers →
            ∃ before ∈ stack.layers, other.layerKey = before.layerKey ∧
              other.label = before.label ∧ other.identifier = before.identifier ∧
              other.muted = if before.layerKey = layerKey then muted else before.muted := by
          intro other member
          rw [mapped] at member
          obtain ⟨before, beforeMember, rfl⟩ := List.mem_map.1 member
          refine ⟨before, beforeMember, ?_⟩
          by_cases target : before.layerKey = layerKey
          · simp [target]
          · simp [target]
        have keys : (stack.mapLayers
            (fun other => if other.layerKey = layerKey then { other with muted := muted } else other)
            (fun other => by split <;> rfl) (fun other => by split <;> rfl)).layerKeys =
            stack.layerKeys := by
          unfold CollaborationLayerStack.layerKeys
          rw [mapped, List.map_map]
          apply List.map_congr_left
          intro other _
          dsimp only [Function.comp]
          split <;> rfl
        constructor
        · exact same.order.trans keys.symm
        · intro key
          exact (same.keys key).trans (iff_of_eq (congrArg (key ∈ ·) keys.symm))
        · intro other member
          obtain ⟨before, beforeMember, sameKey, _, sameIdentifier, _⟩ := change other member
          rw [sameKey, sameIdentifier]
          exact same.layers before beforeMember
        · intro other member
          obtain ⟨before, beforeMember, sameKey, sameLabel, _, _⟩ := change other member
          rw [sameKey, sameLabel]
          exact same.labels before beforeMember
        · intro other member
          obtain ⟨before, beforeMember, sameKey, _, sameIdentifier, _⟩ := change other member
          rw [sameKey, sameIdentifier]
          exact same.identifiers before beforeMember
        · intro other member
          obtain ⟨before, beforeMember, _, _, sameIdentifier, nowMuted⟩ := change other member
          rw [nowMuted, sameIdentifier, same.muted before beforeMember]
          unfold StackStore.isLayerMuted
          by_cases target : before.layerKey = layerKey
          · have equal := stack.distinct.eq_of_key beforeMember known (target.trans here.symm)
            rw [if_pos target, equal]
            cases muted with
            | true => simp
            | false => simp
          · have different : before.identifier ≠ layer.identifier := by
              intro equal
              have collision := stack.distinct.eq_of_identifier beforeMember known equal
              exact target (collision ▸ here)
            rw [if_neg target]
            cases muted with
            | true => simp [different]
            | false => simp [different]
        · intro identifier member
          cases muted with
          | true =>
              rcases List.mem_cons.1 member with rfl | before
              · show layer.identifier < store.nextIdentifier
                rw [same.nextIdentifier]
                exact stack.fresh layer known
              · exact same.mutedKnown identifier before
          | false => exact same.mutedKnown identifier (List.mem_filter.1 member).1
        · exact congrArg (· + 1) same.revision
        · exact same.nextIdentifier

theorem removeLayer (same : store.Represents stack) (layerKey : String) :
    Agree (fun after other => after.Represents other)
      (store.removeLayer layerKey) (stack.removeLayer layerKey) := by
  cases removed : stack.removeLayer layerKey with
  | error message =>
      unfold CollaborationLayerStack.removeLayer at removed
      unfold StackStore.removeLayer StackStore.layerFor
      split at removed
      · next default =>
          cases removed
          rw [if_pos default]
          exact .error _
      · next away =>
          rw [if_neg away]
          split at removed
          · next unknown =>
              cases removed
              rw [same.get?_eq, CollaborationLayerStack.layerFor_none.2 unknown]
              exact .error _
          · cases removed
  | ok after =>
      obtain ⟨kept, sameNext⟩ := CollaborationLayerStack.removeLayer_layers removed
      unfold CollaborationLayerStack.removeLayer at removed
      split at removed
      · cases removed
      next away =>
      split at removed
      · cases removed
      next present =>
      have revised : after.revision = stack.revision + 1 := by
        cases removed
        rfl
      unfold StackStore.removeLayer StackStore.layerFor
      rw [if_neg away, same.get?_eq]
      cases found : stack.layerFor layerKey with
      | none => exact absurd (CollaborationLayerStack.layerFor_none.1 found) present
      | some layer =>
          obtain ⟨known, here⟩ := CollaborationLayerStack.layerFor_some found
          apply Agree.ok
          have members : ∀ other, other ∈ after.layers ↔
              other ∈ stack.layers ∧ other.layerKey ≠ layerKey := by
            intro other
            rw [kept, List.mem_filter, decide_eq_true_iff]
          have apart : ∀ other ∈ stack.layers, other.layerKey ≠ layerKey →
              other.identifier ≠ layer.identifier := by
            intro other member different equal
            rw [stack.distinct.eq_of_identifier member known equal] at different
            exact different here
          have keys : after.layerKeys = stack.layerKeys.filter (· ≠ layerKey) := by
            unfold CollaborationLayerStack.layerKeys
            rw [kept, List.filter_map]
            rfl
          constructor
          · show store.order.filter (· ≠ layerKey) = after.layerKeys
            rw [keys, same.order]
          · intro key
            show key ∈ (store.layers.pop layerKey).keys ↔ key ∈ after.layerKeys
            rw [OrderedDict.mem_keys_pop, same.keys, keys, List.mem_filter, decide_eq_true_iff]
          · intro other member
            obtain ⟨before, different⟩ := (members other).1 member
            exact (OrderedDict.get?_pop_of_ne _ different).trans (same.layers other before)
          · intro other member
            obtain ⟨before, different⟩ := (members other).1 member
            exact (OrderedDict.get?_pop_of_ne _ different).trans (same.labels other before)
          · intro other member
            obtain ⟨before, different⟩ := (members other).1 member
            exact (OrderedDict.get?_pop_of_ne _ (apart other before different)).trans
              (same.identifiers other before)
          · intro other member
            obtain ⟨before, different⟩ := (members other).1 member
            rw [same.muted other before]
            unfold StackStore.isLayerMuted
            simp [apart other before different]
          · intro identifier member
            exact same.mutedKnown identifier (List.mem_filter.1 member).1
          · exact (congrArg (· + 1) same.revision).trans revised.symm
          · exact same.nextIdentifier.trans sameNext.symm

end Represents

end StackStore

end UsdConnect
