/-
Purpose: The collaboration policy keeps its invariants in every interleaving of its calls, and the
  revision of the layer stack grows with every visible change.
Trusted boundary: none
Main exports: CollaborationHolds, CollaborationServer.holds_run
-/
import UsdConnect.Lib.Rows
import UsdConnect.Server.Collaboration
import UsdConnect.Proofs.StackStore

namespace UsdConnect

/-! ### Layer keys of departments -/

theorem layerKeyForDepartment_ne_default {department : String} (named : department ≠ "") :
    layerKeyForDepartment department ≠ defaultLayerKey := by
  unfold layerKeyForDepartment
  rw [if_neg named]
  intro same
  have letters := congrArg String.toList same
  rw [String.toList_append] at letters
  have start := congrArg (List.take 3) letters
  rw [List.take_append_of_le_length (by decide)] at start
  exact absurd start (by decide)

theorem layerKeyForDepartment_ne_empty (department : String) :
    layerKeyForDepartment department ≠ "" := by
  unfold layerKeyForDepartment
  split
  · decide
  · intro same
    have letters := congrArg String.toList same
    rw [String.toList_append] at letters
    exact absurd (List.append_eq_nil_iff.1 letters).1 (by decide)

theorem layerKeyForDepartment_injective {department other : String} (named : department ≠ "")
    (otherNamed : other ≠ "")
    (same : layerKeyForDepartment department = layerKeyForDepartment other) :
    department = other := by
  unfold layerKeyForDepartment at same
  rw [if_neg named, if_neg otherNamed] at same
  exact (String.append_right_inj _).1 same

theorem validatePriority_ok {departments validated : List String}
    (valid : validatePriority departments = .ok validated) :
    validated = departments ∧ departments.Nodup ∧ "" ∉ departments := by
  unfold validatePriority at valid
  split at valid
  · cases valid
  next named =>
  split at valid
  · cases valid
  next distinct =>
  cases valid
  exact ⟨rfl, not_not.1 distinct, named⟩

/-! ### The stack grows its revision -/

/-- Nothing changed, or the revision did. -/
def StackStore.Advances (before after : StackStore) : Prop :=
  after = before ∨ before.revision < after.revision

theorem StackStore.Advances.refl (store : StackStore) : store.Advances store := Or.inl rfl

theorem StackStore.Advances.trans {first second third : StackStore}
    (earlier : first.Advances second) (later : second.Advances third) : first.Advances third := by
  rcases earlier with rfl | less
  · exact later
  rcases later with rfl | more
  · exact Or.inr less
  · exact Or.inr (Nat.lt_trans less more)

theorem StackStore.Advances.le {before after : StackStore} (advances : before.Advances after) :
    before.revision ≤ after.revision := by
  rcases advances with rfl | less
  · exact Nat.le_refl _
  · exact Nat.le_of_lt less

/-! ### What the operations of the stack do -/

section Stack

variable {store after : StackStore} {stack : CollaborationLayerStack}

theorem ensureLayer_store {layerKey label : String} {layer : Nat} {added : Bool}
    (ensured : store.ensureLayer layerKey label = .ok (after, layer, added)) :
    (added = false ∧ after = store ∧ layerKey ∈ store.layers.keys) ∨
      (added = true ∧ layerKey ∉ store.layers.keys ∧ after.revision = store.revision + 1 ∧
        ∀ key, key ∈ after.layers.keys ↔ key = layerKey ∨ key ∈ store.layers.keys) := by
  unfold StackStore.ensureLayer at ensured
  split at ensured
  · cases ensured
  cases found : store.layers.get? layerKey with
  | some existing =>
      rw [found] at ensured
      cases ensured
      exact Or.inl ⟨rfl, rfl, OrderedDict.mem_keys_of_get? found⟩
  | none =>
      rw [found] at ensured
      cases ensured
      right
      refine ⟨rfl, ?_, rfl, fun key => OrderedDict.mem_keys_set _ _ key _⟩
      intro known
      obtain ⟨existing, same⟩ := OrderedDict.get?_isSome_of_mem_keys known
      rw [found] at same
      cases same

theorem exists_ensureLayer (store : StackStore) {layerKey : String} (label : String)
    (named : layerKey ≠ "") :
    ∃ after layer added, store.ensureLayer layerKey label = .ok (after, layer, added) := by
  unfold StackStore.ensureLayer
  rw [if_neg named]
  cases store.layers.get? layerKey with
  | some existing => exact ⟨_, _, _, rfl⟩
  | none => exact ⟨_, _, _, rfl⟩

/-- A complete order that ends with the default layer is accepted. -/
theorem exists_setOrder {order : List String} (distinct : order.Nodup)
    (complete : ∀ key, key ∈ order ↔ key ∈ store.layers.keys)
    (weakest : order.getLast? = some defaultLayerKey) :
    ∃ after changed, store.setOrder order = .ok (after, changed) ∧ after.order = order ∧
      after.layers = store.layers ∧ after.muted = store.muted ∧
      (changed = false ∧ after = store ∨
        changed = true ∧ after.revision = store.revision + 1) := by
  unfold StackStore.setOrder
  rw [if_neg (not_not_intro distinct),
    if_neg (not_not_intro ⟨fun key => (complete key).1, fun key => (complete key).2⟩),
    if_neg (not_not_intro weakest)]
  by_cases unchanged : order = store.order
  · rw [if_pos unchanged]
    exact ⟨store, false, rfl, unchanged.symm, rfl, rfl, Or.inl ⟨rfl, rfl⟩⟩
  · rw [if_neg unchanged]
    exact ⟨_, true, rfl, rfl, rfl, rfl, Or.inr ⟨rfl, rfl⟩⟩

theorem layerFor_of_mem {layerKey : String} (known : layerKey ∈ store.layers.keys) :
    ∃ layer, store.layerFor layerKey = .ok layer ∧ store.layers.get? layerKey = some layer := by
  obtain ⟨layer, found⟩ := OrderedDict.get?_isSome_of_mem_keys known
  refine ⟨layer, ?_, found⟩
  unfold StackStore.layerFor
  rw [found]

theorem setMuted_store {layerKey : String} {muted changed : Bool}
    (set : store.setMuted layerKey muted = .ok (after, changed)) :
    after.order = store.order ∧ after.layers = store.layers ∧ store.Advances after := by
  unfold StackStore.setMuted at set
  split at set
  · cases set
  split at set
  · cases set
    exact ⟨rfl, rfl, Or.inl rfl⟩
  · cases set
    exact ⟨rfl, rfl, Or.inr (Nat.lt_succ_self _)⟩

theorem exists_removeLayer {layerKey : String} (known : layerKey ∈ store.layers.keys)
    (away : layerKey ≠ defaultLayerKey) :
    ∃ after, store.removeLayer layerKey = .ok after ∧
      after.order = store.order.filter (· ≠ layerKey) ∧
      after.layers = store.layers.pop layerKey ∧ after.revision = store.revision + 1 := by
  obtain ⟨layer, found, _⟩ := layerFor_of_mem known
  unfold StackStore.removeLayer
  rw [if_neg away, found]
  exact ⟨_, rfl, rfl, rfl, rfl⟩

end Stack

/-! ### The policy -/

namespace CollaborationPolicy

/-- Keys of the priority departments that have a layer, strongest first. -/
def priorityKeys (policy : CollaborationPolicy) : List String :=
  (policy.departmentPriority.map layerKeyForDepartment).filter policy.stack.hasLayer

/-- The stack is one, assigned keys are its keys, and the priority is a valid one. -/
structure Stored (policy : CollaborationPolicy) : Prop where
  represented : ∃ stack, policy.stack.Represents stack
  assigned : ∀ clientId layerKey, policy.clientLayerKeys.get? clientId = some layerKey →
    layerKey ∈ policy.stack.layers.keys
  distinct : policy.departmentPriority.Nodup
  named : "" ∉ policy.departmentPriority

/-- What holds of the policy between calls. -/
structure Sound (policy : CollaborationPolicy) : Prop where
  stored : policy.Stored
  priorityFirst : policy.priorityKeys <+: policy.stack.order
  flatOrder : policy.flatReceiverCount ≠ 0 → policy.stack.order = [defaultLayerKey]
  flatUnmuted : policy.flatReceiverCount ≠ 0 →
    ∀ layerKey layer, policy.stack.layers.get? layerKey = some layer →
      policy.stack.isLayerMuted layer = false
  flatPriority : policy.flatReceiverCount ≠ 0 → policy.departmentPriority = []

variable {policy : CollaborationPolicy}

theorem mem_priorityKeys {layerKey : String} (member : layerKey ∈ policy.priorityKeys) :
    (∃ department ∈ policy.departmentPriority, layerKeyForDepartment department = layerKey) ∧
      layerKey ∈ policy.stack.layers.keys := by
  obtain ⟨listed, known⟩ := List.mem_filter.1 member
  exact ⟨List.mem_map.1 listed, of_decide_eq_true known⟩

theorem Stored.priorityKeys_nodup (stored : policy.Stored) : policy.priorityKeys.Nodup := by
  apply List.Nodup.filter
  apply List.Nodup.map_on _ stored.distinct
  intro department listed other otherListed same
  have named : ∀ {department}, department ∈ policy.departmentPriority → department ≠ "" := by
    rintro department member rfl
    exact stored.named member
  exact layerKeyForDepartment_injective (named listed) (named otherListed) same

theorem Stored.default_not_mem_priorityKeys (stored : policy.Stored) :
    defaultLayerKey ∉ policy.priorityKeys := by
  intro member
  obtain ⟨⟨department, listed, same⟩, _⟩ := mem_priorityKeys member
  refine layerKeyForDepartment_ne_default ?_ same
  rintro rfl
  exact stored.named listed

theorem Stored.exists_applyDepartmentOrder (stored : policy.Stored) :
    ∃ stack changed, policy.applyDepartmentOrder = .ok ({ policy with stack := stack }, changed) ∧
      stack.layers = policy.stack.layers ∧ stack.muted = policy.stack.muted ∧
      policy.priorityKeys <+: stack.order ∧ policy.stack.Advances stack ∧
      (∃ ordered, stack.Represents ordered) ∧ (changed = false → stack = policy.stack) := by
  obtain ⟨ordered, represents⟩ := stored.represented
  have order : policy.departmentOrder = policy.priorityKeys ++
      (policy.stack.order.filter fun layerKey =>
        layerKey ≠ defaultLayerKey ∧ layerKey ∉ policy.priorityKeys) ++ [defaultLayerKey] := rfl
  have known : defaultLayerKey ∈ policy.stack.layers.keys :=
    (represents.mem_order _).1 (List.mem_of_getLast? represents.order_getLast)
  have distinct : policy.departmentOrder.Nodup := by
    rw [order, List.nodup_append, List.nodup_append]
    refine ⟨⟨stored.priorityKeys_nodup, represents.order_nodup.filter _, ?_⟩,
      List.nodup_singleton _, ?_⟩
    · intro first member second other
      rintro rfl
      exact (of_decide_eq_true (List.mem_filter.1 other).2).2 member
    · intro first member second other
      rw [List.mem_singleton.1 other]
      rintro rfl
      rcases List.mem_append.1 member with listed | unlisted
      · exact stored.default_not_mem_priorityKeys listed
      · exact (of_decide_eq_true (List.mem_filter.1 unlisted).2).1 rfl
  have complete : ∀ key, key ∈ policy.departmentOrder ↔ key ∈ policy.stack.layers.keys := by
    intro key
    rw [order]
    simp only [List.mem_append, List.mem_singleton, List.mem_filter, decide_eq_true_iff,
      represents.mem_order]
    constructor
    · rintro ((listed | unlisted) | rfl)
      · exact (mem_priorityKeys listed).2
      · exact unlisted.1
      · exact known
    · intro present
      by_cases default : key = defaultLayerKey
      · exact Or.inr default
      by_cases listed : key ∈ policy.priorityKeys
      · exact Or.inl (Or.inl listed)
      · exact Or.inl (Or.inr ⟨present, default, listed⟩)
  have weakest : policy.departmentOrder.getLast? = some defaultLayerKey := by
    rw [order, List.getLast?_concat]
  obtain ⟨after, changed, accepted, here, layers, muted, cases⟩ :=
    exists_setOrder distinct complete weakest
  refine ⟨after, changed, ?_, layers, muted, ?_, ?_, ?_, ?_⟩
  · unfold applyDepartmentOrder
    rw [accepted]
  · rw [here, order, List.append_assoc]
    exact List.prefix_append _ _
  · rcases cases with ⟨_, same⟩ | ⟨_, revised⟩
    · exact Or.inl same
    · right
      rw [revised]
      exact Nat.lt_succ_self _
  · obtain ⟨other, _, related, _⟩ := (represents.setOrder policy.departmentOrder).of_ok accepted
    exact ⟨other.1, related⟩
  · intro unchanged
    rcases cases with ⟨_, same⟩ | ⟨now, _⟩
    · exact same
    · rw [unchanged] at now
      cases now

/-! ### What the calls keep -/

/-- A call keeps the policy sound, its stack advances, and a changed stack is broadcast. -/
structure Keeps (policy : CollaborationPolicy) (outcome : PolicyOutcome) : Prop where
  sound : outcome.policy.Sound
  advances : policy.stack.Advances outcome.policy.stack
  published : outcome.policy.stack ≠ policy.stack →
    .broadcastLayerStackState ∈ outcome.notices

/-- A call that leaves the stack alone. -/
theorem keeps_of_same_stack {outcome : PolicyOutcome} (sound : outcome.policy.Sound)
    (same : outcome.policy.stack = policy.stack) : policy.Keeps outcome where
  sound := sound
  advances := Or.inl same
  published := fun changed => absurd same changed

theorem Stored.assign (stored : policy.Stored) {layerKey : String} (clientId : String)
    (known : layerKey ∈ policy.stack.layers.keys) :
    Stored { policy with clientLayerKeys := policy.clientLayerKeys.set clientId layerKey } where
  represented := stored.represented
  assigned := by
    intro other otherKey found
    by_cases same : other = clientId
    · rw [same, OrderedDict.get?_set_self] at found
      cases found
      exact known
    · rw [OrderedDict.get?_set_of_ne _ _ same] at found
      exact stored.assigned other otherKey found
  distinct := stored.distinct
  named := stored.named

theorem Sound.assign (sound : policy.Sound) {layerKey : String} (clientId : String)
    (known : layerKey ∈ policy.stack.layers.keys) :
    Sound { policy with clientLayerKeys := policy.clientLayerKeys.set clientId layerKey } where
  stored := sound.stored.assign clientId known
  priorityFirst := sound.priorityFirst
  flatOrder := sound.flatOrder
  flatUnmuted := sound.flatUnmuted
  flatPriority := sound.flatPriority

theorem Stored.default_known (stored : policy.Stored) :
    defaultLayerKey ∈ policy.stack.layers.keys := by
  obtain ⟨ordered, represents⟩ := stored.represented
  exact (represents.mem_order _).1 (List.mem_of_getLast? represents.order_getLast)

/-- Without flat receivers the order is all that a sound policy asks for. -/
theorem Stored.sound (stored : policy.Stored)
    (priorityFirst : policy.priorityKeys <+: policy.stack.order)
    (layered : policy.flatReceiverCount = 0) : policy.Sound where
  stored := stored
  priorityFirst := priorityFirst
  flatOrder := fun flat => absurd layered flat
  flatUnmuted := fun flat => absurd layered flat
  flatPriority := fun flat => absurd layered flat

theorem Stored.withStack (stored : policy.Stored) {stack : StackStore}
    (represented : ∃ ordered, stack.Represents ordered)
    (known : ∀ layerKey ∈ policy.stack.layers.keys, layerKey ∈ stack.layers.keys) :
    Stored { policy with stack := stack } where
  represented := represented
  assigned := fun clientId layerKey found => known _ (stored.assigned clientId layerKey found)
  distinct := stored.distinct
  named := stored.named

theorem priorityKeys_congr {stack : StackStore} (same : stack.layers = policy.stack.layers) :
    priorityKeys { policy with stack := stack } = policy.priorityKeys := by
  unfold priorityKeys StackStore.hasLayer
  dsimp only
  rw [same]

/-- The department order after a change of layers or priority. -/
theorem Stored.applied (stored : policy.Stored) (layered : policy.flatReceiverCount = 0) :
    ∃ stack changed, policy.applyDepartmentOrder = .ok ({ policy with stack := stack }, changed) ∧
      Sound { policy with stack := stack } ∧ policy.stack.Advances stack ∧
      stack.layers = policy.stack.layers ∧ (changed = false → stack = policy.stack) := by
  obtain ⟨stack, changed, applied, layers, _, first, advances, represented, unchanged⟩ :=
    stored.exists_applyDepartmentOrder
  have kept : Stored { policy with stack := stack } := by
    apply stored.withStack represented
    intro layerKey known
    rw [layers]
    exact known
  refine ⟨stack, changed, applied, kept.sound ?_ layered, advances, layers, unchanged⟩
  rw [priorityKeys_congr layers]
  exact first

theorem Sound.getOrCreateClientLayer (sound : policy.Sound) (clientId department : String) :
    policy.Keeps (policy.getOrCreateClientLayer clientId department) ∧
      (policy.getOrCreateClientLayer clientId department).policy.flatReceiverCount =
        policy.flatReceiverCount := by
  unfold CollaborationPolicy.getOrCreateClientLayer
  dsimp only
  split
  · next none =>
      refine ⟨keeps_of_same_stack (sound.assign clientId ?_) rfl, rfl⟩
      unfold layerKeyForDepartment
      rw [if_pos none]
      exact sound.stored.default_known
  next named =>
  split
  · exact ⟨keeps_of_same_stack sound rfl, rfl⟩
  next allowed =>
  obtain ⟨stack, layer, added, ensured⟩ := exists_ensureLayer policy.stack department
    (layerKeyForDepartment_ne_empty department)
  rw [ensured]
  rcases ensureLayer_store ensured with ⟨rfl, rfl, known⟩ | ⟨rfl, fresh, revised, keys⟩
  · exact ⟨keeps_of_same_stack (sound.assign clientId known) rfl, rfl⟩
  · -- a new layer: no receiver is flat
    have layered : policy.flatReceiverCount = 0 := by
      by_contra flat
      apply allowed
      refine ⟨?_, flat⟩
      intro known
      exact fresh (of_decide_eq_true known)
    obtain ⟨ordered, represents⟩ := sound.stored.represented
    obtain ⟨other, _, related, _⟩ := (represents.ensureLayer _ department).of_ok ensured
    have created : Stored { policy with stack := stack } :=
      sound.stored.withStack ⟨other.1, related⟩ fun layerKey known =>
        (keys layerKey).2 (Or.inr known)
    obtain ⟨final, changed, applied, finalSound, advances, layers, _⟩ := created.applied layered
    dsimp only
    rw [if_pos rfl, applied]
    have known : layerKeyForDepartment department ∈ final.layers.keys := by
      rw [layers]
      exact (keys _).2 (Or.inl rfl)
    refine ⟨⟨finalSound.assign clientId known, ?_, ?_⟩, rfl⟩
    · apply StackStore.Advances.trans _ advances
      right
      show policy.stack.revision < stack.revision
      rw [revised]
      exact Nat.lt_succ_self _
    · intro _
      simp

/-- A receiver is admitted as a flat one only to a single unmuted layer without departments. -/
theorem flatReplayRejectionReason_empty (accepted : policy.flatReplayRejectionReason = .ok "") :
    policy.departmentPriority = [] ∧ ∃ layerKey layer, policy.stack.order = [layerKey] ∧
      policy.stack.layers.get? layerKey = some layer ∧ policy.stack.isLayerMuted layer = false := by
  unfold flatReplayRejectionReason at accepted
  split at accepted
  · exact absurd (Except.ok.inj accepted) (by decide)
  next none =>
  split at accepted
  · next layerKey order =>
      unfold StackStore.layerFor at accepted
      cases found : policy.stack.layers.get? layerKey with
      | none =>
          rw [found] at accepted
          cases accepted
      | some layer =>
          rw [found] at accepted
          dsimp only at accepted
          split at accepted
          · exact absurd (Except.ok.inj accepted) (by decide)
          · next unmuted =>
              exact ⟨not_not.1 none, layerKey, layer, order, found, Bool.eq_false_iff.2 unmuted⟩
  · exact absurd (Except.ok.inj accepted) (by decide)

theorem Sound.reserveReceiverReplayMode (sound : policy.Sound) (layered : Bool) :
    policy.Keeps (policy.reserveReceiverReplayMode layered) ∧
      (policy.reserveReceiverReplayMode layered).policy.flatReceiverCount =
        policy.flatReceiverCount +
          (!layered && admits (policy.reserveReceiverReplayMode layered).reply).toNat := by
  unfold CollaborationPolicy.reserveReceiverReplayMode
  cases layered with
  | true => exact ⟨keeps_of_same_stack sound rfl, rfl⟩
  | false =>
      rw [if_neg Bool.false_ne_true]
      cases asked : policy.flatReplayRejectionReason with
      | error message => exact ⟨keeps_of_same_stack sound rfl, rfl⟩
      | ok reason =>
          dsimp only
          by_cases rejected : reason ≠ ""
          · rw [if_pos rejected]
            exact ⟨keeps_of_same_stack sound rfl, rfl⟩
          · rw [if_neg rejected]
            rw [not_not.1 rejected] at asked
            obtain ⟨none, layerKey, layer, order, found, unmuted⟩ :=
              flatReplayRejectionReason_empty asked
            obtain ⟨ordered, represents⟩ := sound.stored.represented
            have default : layerKey = defaultLayerKey := by
              have last := represents.order_getLast
              rw [order] at last
              exact Option.some.inj last
            refine ⟨keeps_of_same_stack ⟨⟨sound.stored.represented, sound.stored.assigned,
              sound.stored.distinct, sound.stored.named⟩, sound.priorityFirst, ?_, ?_, ?_⟩ rfl,
              rfl⟩
            · intro _
              rw [← default]
              exact order
            · intro _ otherKey other otherFound
              have known := (represents.mem_order _).2 (OrderedDict.mem_keys_of_get? otherFound)
              rw [order, List.mem_singleton] at known
              rw [known, found] at otherFound
              cases otherFound
              exact unmuted
            · exact fun _ => none

theorem Sound.releaseReceiverReplayMode (sound : policy.Sound) (layered : Bool)
    (held : layered = false → policy.flatReceiverCount ≠ 0) :
    policy.Keeps (policy.releaseReceiverReplayMode layered) ∧
      (policy.releaseReceiverReplayMode layered).reply = .ok (.done true) ∧
      (policy.releaseReceiverReplayMode layered).policy.flatReceiverCount +
        (!layered).toNat = policy.flatReceiverCount := by
  unfold CollaborationPolicy.releaseReceiverReplayMode
  cases layered with
  | true => exact ⟨keeps_of_same_stack sound rfl, rfl, rfl⟩
  | false =>
      have flat := held rfl
      rw [if_neg Bool.false_ne_true, if_neg flat]
      refine ⟨keeps_of_same_stack ⟨⟨sound.stored.represented, sound.stored.assigned,
        sound.stored.distinct, sound.stored.named⟩, sound.priorityFirst, ?_, ?_, ?_⟩ rfl, rfl, ?_⟩
      · exact fun _ => sound.flatOrder flat
      · exact fun _ => sound.flatUnmuted flat
      · exact fun _ => sound.flatPriority flat
      · exact Nat.succ_pred_eq_of_ne_zero flat

theorem Sound.setDepartmentPriority (sound : policy.Sound) (orderedDepartments : List String) :
    policy.Keeps (policy.setDepartmentPriority orderedDepartments) ∧
      (policy.setDepartmentPriority orderedDepartments).policy.flatReceiverCount =
        policy.flatReceiverCount := by
  unfold CollaborationPolicy.setDepartmentPriority
  cases valid : validatePriority orderedDepartments with
  | error message => exact ⟨keeps_of_same_stack sound rfl, rfl⟩
  | ok validated =>
      obtain ⟨rfl, distinct, named⟩ := validatePriority_ok valid
      dsimp only
      split
      · exact ⟨keeps_of_same_stack sound rfl, rfl⟩
      next allowed =>
      have configured : Stored { policy with departmentPriority := validated } :=
        ⟨sound.stored.represented, sound.stored.assigned, distinct, named⟩
      obtain ⟨stack, changed, applied, layers, muted, first, advances, represented, unchanged⟩ :=
        configured.exists_applyDepartmentOrder
      rw [applied]
      have stored : Stored { policy with departmentPriority := validated, stack := stack } := by
        apply configured.withStack represented
        intro layerKey known
        rw [layers]
        exact known
      refine ⟨⟨⟨stored, ?_, ?_, ?_, ?_⟩, advances, ?_⟩, rfl⟩
      · show priorityKeys { policy with departmentPriority := validated, stack := stack } <+: _
        have listed : priorityKeys { policy with
            departmentPriority := validated, stack := stack } =
            priorityKeys { policy with departmentPriority := validated } :=
          priorityKeys_congr layers
        rw [listed]
        exact first
      · -- with flat receivers the only layer is the default one
        intro flat
        obtain ⟨ordered, represents⟩ := represented
        obtain ⟨before, beforeRepresents⟩ := sound.stored.represented
        have same : stack.order.Perm policy.stack.order := by
          apply represents.order_perm.trans
          rw [layers]
          exact beforeRepresents.order_perm.symm
        rw [sound.flatOrder flat] at same
        exact List.perm_singleton.1 same
      · intro flat layerKey layer found
        show stack.isLayerMuted layer = false
        unfold StackStore.isLayerMuted
        rw [muted]
        rw [layers] at found
        exact sound.flatUnmuted flat layerKey layer found
      · intro flat
        have none := sound.flatPriority flat
        by_contra some
        apply allowed
        refine ⟨decide_eq_true ?_, flat⟩
        intro same
        exact some (same.trans none)
      · intro different
        show _ ∈ if changed = true ∨ _ then _ else _
        have moved : changed = true := by
          cases changed with
          | true => rfl
          | false => exact absurd (unchanged rfl) different
        rw [if_pos (Or.inl moved)]
        simp

theorem Stored.unassign (stored : policy.Stored) (clientId : String) :
    Stored { policy with clientLayerKeys := policy.clientLayerKeys.pop clientId } where
  represented := stored.represented
  assigned := by
    intro other layerKey found
    have present := ((OrderedDict.mem_keys_pop _ clientId other).1
      (OrderedDict.mem_keys_of_get? found)).2
    rw [OrderedDict.get?_pop_of_ne _ present] at found
    exact stored.assigned other layerKey found
  distinct := stored.distinct
  named := stored.named

theorem Sound.unassign (sound : policy.Sound) (clientId : String) :
    Sound { policy with clientLayerKeys := policy.clientLayerKeys.pop clientId } where
  stored := sound.stored.unassign clientId
  priorityFirst := sound.priorityFirst
  flatOrder := sound.flatOrder
  flatUnmuted := sound.flatUnmuted
  flatPriority := sound.flatPriority

theorem priorityKeys_pop {stack : StackStore} {layerKey : String}
    (gone : stack.layers = policy.stack.layers.pop layerKey) :
    priorityKeys { policy with stack := stack } = policy.priorityKeys.filter (· ≠ layerKey) := by
  unfold priorityKeys
  rw [List.filter_filter]
  apply List.filter_congr
  intro key _
  unfold StackStore.hasLayer
  dsimp only
  rw [gone, ← Bool.decide_and]
  apply decide_eq_decide.2
  rw [OrderedDict.mem_keys_pop, and_comm]

theorem Sound.removeLayer (sound : policy.Sound) {layerKey : String}
    (layered : policy.flatReceiverCount = 0) (known : layerKey ∈ policy.stack.layers.keys)
    (away : layerKey ≠ defaultLayerKey)
    (unused : layerKey ∉ policy.clientLayerKeys.entries.map (·.2)) :
    ∃ stack, policy.stack.removeLayer layerKey = .ok stack ∧
      Sound { policy with stack := stack } ∧ policy.stack.Advances stack := by
  obtain ⟨stack, removed, order, layers, revised⟩ := exists_removeLayer known away
  obtain ⟨ordered, represents⟩ := sound.stored.represented
  obtain ⟨other, _, related⟩ := (represents.removeLayer layerKey).of_ok removed
  have stored : Stored { policy with stack := stack } := by
    refine ⟨⟨other, related⟩, ?_, sound.stored.distinct, sound.stored.named⟩
    intro clientId otherKey found
    show otherKey ∈ stack.layers.keys
    rw [layers, OrderedDict.mem_keys_pop]
    refine ⟨sound.stored.assigned clientId otherKey found, ?_⟩
    rintro rfl
    exact unused (List.mem_map_of_mem (OrderedDict.mem_of_get? found))
  refine ⟨stack, removed, stored.sound ?_ layered, Or.inr ?_⟩
  · show _ <+: stack.order
    rw [priorityKeys_pop layers, order]
    exact sound.priorityFirst.filter _
  · rw [revised]
    exact Nat.lt_succ_self _

theorem Sound.releaseClientAssignment (sound : policy.Sound) (clientId : String)
    (mergeIntoRoot : Bool) :
    policy.Keeps (policy.releaseClientAssignment clientId mergeIntoRoot) ∧
      (policy.releaseClientAssignment clientId mergeIntoRoot).policy.flatReceiverCount =
        policy.flatReceiverCount := by
  unfold CollaborationPolicy.releaseClientAssignment
  dsimp only
  cases assigned : policy.clientLayerKeys.get? clientId with
  | none => exact ⟨keeps_of_same_stack sound rfl, rfl⟩
  | some layerKey =>
      rw [Option.getD_some]
      by_cases ignored : layerKey = "" ∨ layerKey = defaultLayerKey
      · rw [if_pos ignored]
        exact ⟨keeps_of_same_stack sound rfl, rfl⟩
      rw [if_neg ignored]
      have away : layerKey ≠ defaultLayerKey := fun same => ignored (Or.inr same)
      have known := sound.stored.assigned clientId layerKey assigned
      obtain ⟨layer, found, _⟩ := layerFor_of_mem known
      have merged : ∃ identifier, (if mergeIntoRoot then policy.stack.layerFor layerKey
          else .ok 0) = .ok identifier := by
        cases mergeIntoRoot with
        | true => exact ⟨layer, found⟩
        | false => exact ⟨0, rfl⟩
      obtain ⟨identifier, merges⟩ := merged
      rw [merges]
      dsimp only
      have layered : policy.flatReceiverCount = 0 := by
        by_contra flat
        obtain ⟨ordered, represents⟩ := sound.stored.represented
        have member := (represents.mem_order layerKey).2 known
        rw [sound.flatOrder flat, List.mem_singleton] at member
        exact away member
      by_cases unused : layerKey ∉ (policy.clientLayerKeys.pop clientId).entries.map (·.2)
      · obtain ⟨stack, removed, after, advances⟩ :=
          (sound.unassign clientId).removeLayer layered known away unused
        rw [if_pos (decide_eq_true unused), removed]
        refine ⟨⟨after, advances, ?_⟩, rfl⟩
        intro _
        simp [unused]
      · rw [if_neg (fun gone => unused (of_decide_eq_true gone))]
        exact ⟨keeps_of_same_stack (sound.unassign clientId) rfl, rfl⟩

theorem Sound.setMuted (sound : policy.Sound) (key : String) (muted : Bool) :
    policy.Keeps (policy.setMuted key muted) ∧
      (policy.setMuted key muted).policy.flatReceiverCount = policy.flatReceiverCount := by
  unfold CollaborationPolicy.setMuted
  cases policy.resolveLayerKey key with
  | none => exact ⟨keeps_of_same_stack sound rfl, rfl⟩
  | some layerKey =>
      dsimp only
      cases policy.stack.layerFor layerKey with
      | error message => exact ⟨keeps_of_same_stack sound rfl, rfl⟩
      | ok layer =>
          dsimp only
          split
          · exact ⟨keeps_of_same_stack sound rfl, rfl⟩
          split
          · exact ⟨keeps_of_same_stack sound rfl, rfl⟩
          next flat =>
          have layered := not_not.1 flat
          cases set : policy.stack.setMuted layerKey muted with
          | error message => exact ⟨keeps_of_same_stack sound rfl, rfl⟩
          | ok result =>
              obtain ⟨stack, changed⟩ := result
              obtain ⟨order, layers, advances⟩ := setMuted_store set
              obtain ⟨ordered, represents⟩ := sound.stored.represented
              obtain ⟨other, _, related, _⟩ := (represents.setMuted layerKey muted).of_ok set
              have stored : Stored { policy with stack := stack } := by
                apply sound.stored.withStack ⟨other.1, related⟩
                intro otherKey known
                rw [layers]
                exact known
              refine ⟨⟨stored.sound ?_ layered, advances, ?_⟩, rfl⟩
              · show _ <+: stack.order
                rw [priorityKeys_congr layers, order]
                exact sound.priorityFirst
              · intro _
                simp

/-! ### Startup -/

theorem restoreRecord_ok {after : CollaborationPolicy} {clientId layerKey : String}
    (stored : policy.Stored) (restored : policy.restoreRecord clientId layerKey = .ok after) :
    after.Stored ∧ after.flatReceiverCount = policy.flatReceiverCount := by
  unfold restoreRecord at restored
  split at restored
  · cases restored
  cases ensured : policy.stack.ensureLayer layerKey (labelForLayerKey layerKey) with
  | error message =>
      rw [ensured] at restored
      cases restored
  | ok result =>
      obtain ⟨stack, layer, added⟩ := result
      rw [ensured] at restored
      obtain ⟨ordered, represents⟩ := stored.represented
      obtain ⟨other, _, related, _⟩ := (represents.ensureLayer _ _).of_ok ensured
      have known : layerKey ∈ stack.layers.keys ∧
          ∀ key ∈ policy.stack.layers.keys, key ∈ stack.layers.keys := by
        rcases ensureLayer_store ensured with ⟨_, rfl, known⟩ | ⟨_, _, _, keys⟩
        · exact ⟨known, fun _ member => member⟩
        · exact ⟨(keys _).2 (Or.inl rfl), fun key member => (keys key).2 (Or.inr member)⟩
      have grown : Stored { policy with stack := stack } :=
        stored.withStack ⟨other.1, related⟩ known.2
      cases restored
      split
      · exact ⟨grown, rfl⟩
      · exact ⟨grown.assign clientId known.1, rfl⟩

theorem restoreRecords_ok {after : CollaborationPolicy} (records : List (String × String))
    (stored : policy.Stored)
    (restored : records.foldlM (fun policy record => restoreRecord policy record.1 record.2) policy
      = .ok after) :
    after.Stored ∧ after.flatReceiverCount = policy.flatReceiverCount := by
  induction records generalizing policy with
  | nil =>
      cases restored
      exact ⟨stored, rfl⟩
  | cons record rest ih =>
      rw [List.foldlM_cons] at restored
      obtain ⟨next, first, later⟩ := except_bind_eq_ok_iff.1 restored
      obtain ⟨nextStored, same⟩ := restoreRecord_ok stored first
      obtain ⟨afterStored, sameAfter⟩ := ih nextStored later
      exact ⟨afterStored, sameAfter.trans same⟩

theorem start_ok {departmentPriority : List String} {records : List (String × String)}
    {started : CollaborationPolicy} (ok : start departmentPriority records = .ok started) :
    started.Sound ∧ started.flatReceiverCount = 0 := by
  unfold start at ok
  obtain ⟨validated, valid, ok⟩ := except_bind_eq_ok_iff.1 ok
  obtain ⟨restored, replayed, ok⟩ := except_bind_eq_ok_iff.1 ok
  obtain ⟨⟨ordered, changed⟩, applied, ok⟩ := except_bind_eq_ok_iff.1 ok
  cases ok
  obtain ⟨rfl, distinct, named⟩ := validatePriority_ok valid
  have fresh : Stored { departmentPriority := validated } := by
    refine ⟨⟨_, StackStore.represents_initial⟩, ?_, distinct, named⟩
    intro clientId layerKey found
    cases found
  obtain ⟨stored, count⟩ := restoreRecords_ok records fresh replayed
  obtain ⟨stack, moved, ran, sound, _⟩ := stored.applied count
  rw [applied] at ran
  cases ran
  exact ⟨sound, count⟩

end CollaborationPolicy

/-! ### The server -/

/-- The invariants of the collaboration policy. -/
structure CollaborationHolds (server : CollaborationServer) : Prop where
  /-- While a flat receiver is admitted there is one layer, unmuted, and no department priority. -/
  alone : (∃ handler, server.reserved.get? handler = some false) →
    (∃ layer, server.policy.stack.layers.entries = [(defaultLayerKey, layer)] ∧
      server.policy.stack.isLayerMuted layer = false) ∧
      server.policy.departmentPriority = []
  /-- Assigned keys are those of layers. -/
  assigned : ∀ clientId layerKey, server.policy.clientLayerKeys.get? clientId = some layerKey →
    layerKey ∈ server.policy.stack.layers.keys
  /-- The count is that of the admitted flat receivers. -/
  counted : server.policy.flatReceiverCount =
    server.reserved.entries.countP fun reservation => !reservation.2
  /-- No release finds the count at zero. -/
  released : ∀ handler outcome,
    server.outcome (.releaseReceiverReplayReservation handler) = some outcome →
      outcome.reply ≠ .error reservationUnderflow
  /-- The order has every key once. -/
  permuted : server.policy.stack.order.Perm server.policy.stack.layers.keys
  weakest : server.policy.stack.order.getLast? = some defaultLayerKey
  /-- The priority departments that have a layer come first, as configured. -/
  priorityFirst : (server.policy.departmentPriority.map layerKeyForDepartment).filter
    server.policy.stack.hasLayer <+: server.policy.stack.order

namespace CollaborationServer

/-- What holds of the server between calls. -/
structure Sound (server : CollaborationServer) : Prop where
  policy : server.policy.Sound
  counted : server.policy.flatReceiverCount =
    server.reserved.entries.countP fun reservation => !reservation.2

theorem countP_pop {reserved : OrderedDict Nat Bool} {handler : Nat} {layered : Bool}
    (found : reserved.get? handler = some layered) :
    (reserved.pop handler).entries.countP (fun reservation => !reservation.2) +
      (!layered).toNat = reserved.entries.countP fun reservation => !reservation.2 := by
  obtain ⟨earlier, later, split⟩ := List.append_of_mem (OrderedDict.mem_of_get? found)
  have distinct := reserved.distinct
  unfold OrderedDict.pop
  dsimp only
  rw [split] at distinct ⊢
  rw [List.map_append, List.map_cons, List.nodup_append, List.nodup_cons] at distinct
  have keepEarlier : earlier.filter (fun entry => entry.1 ≠ handler) = earlier := by
    apply List.filter_eq_self.2
    intro entry member
    exact decide_eq_true (distinct.2.2 _ (List.mem_map_of_mem member) _ List.mem_cons_self)
  have keepLater : later.filter (fun entry => entry.1 ≠ handler) = later := by
    apply List.filter_eq_self.2
    intro entry member
    apply decide_eq_true
    intro same
    exact distinct.2.1.1 (List.mem_map.2 ⟨entry, member, same⟩)
  rw [List.filter_append, List.filter_cons, if_neg (by simp), keepEarlier, keepLater,
    List.countP_append, List.countP_append, List.countP_cons]
  cases layered with
  | true => simp
  | false =>
      simp
      omega

theorem countP_pop_of_none {reserved : OrderedDict Nat Bool} {handler : Nat}
    (free : reserved.get? handler = none) :
    (reserved.pop handler).entries.countP (fun reservation => !reservation.2) =
      reserved.entries.countP fun reservation => !reservation.2 := by
  have kept : reserved.entries.filter (fun entry => entry.1 ≠ handler) = reserved.entries := by
    apply List.filter_eq_self.2
    intro entry member
    apply decide_eq_true
    rintro rfl
    rw [OrderedDict.get?_of_mem member] at free
    cases free
  unfold OrderedDict.pop
  dsimp only
  rw [kept]

/-- A flat reservation is counted. -/
theorem Sound.held {server : CollaborationServer} (sound : server.Sound) {handler : Nat}
    {layered : Bool} (found : server.reserved.get? handler = some layered) :
    layered = false → server.policy.flatReceiverCount ≠ 0 := by
  rintro rfl
  rw [sound.counted]
  exact Nat.ne_of_gt (List.countP_pos_iff.2 ⟨_, OrderedDict.mem_of_get? found, rfl⟩)

/-- What one call does to the policy and to the count. -/
theorem Sound.outcome {server : CollaborationServer} {call : CollaborationCall}
    {outcome : PolicyOutcome} (sound : server.Sound) (called : server.outcome call = some outcome) :
    server.policy.Keeps outcome ∧ outcome.policy.flatReceiverCount =
      (server.reservedAfter call outcome.reply).entries.countP fun reservation =>
        !reservation.2 := by
  cases call with
  | getOrCreateClientLayer clientId department =>
      cases called
      obtain ⟨keeps, same⟩ := sound.policy.getOrCreateClientLayer clientId department
      exact ⟨keeps, same.trans sound.counted⟩
  | receiverHello handler layered =>
      unfold CollaborationServer.outcome at called
      dsimp only at called
      split at called
      · cases called
      next fresh =>
      cases called
      obtain ⟨keeps, counts⟩ := sound.policy.reserveReceiverReplayMode layered
      refine ⟨keeps, ?_⟩
      rw [counts, sound.counted]
      unfold reservedAfter
      dsimp only
      split
      · next admitted =>
          rw [OrderedDict.entries_set_of_not_mem fresh, List.countP_append, admitted]
          cases layered with
          | true => rfl
          | false => rfl
      · next rejected =>
          rw [Bool.eq_false_iff.2 rejected, Bool.and_false]
          rfl
  | releaseReceiverReplayReservation handler =>
      cases found : server.reserved.get? handler with
      | none =>
          unfold CollaborationServer.outcome at called
          dsimp only at called
          rw [found] at called
          cases called
          exact ⟨CollaborationPolicy.keeps_of_same_stack sound.policy rfl,
            sound.counted.trans (countP_pop_of_none found).symm⟩
      | some layered =>
          obtain ⟨keeps, _, counts⟩ := sound.policy.releaseReceiverReplayMode layered
            (sound.held found)
          unfold CollaborationServer.outcome at called
          dsimp only at called
          rw [found] at called
          cases called
          have counted := countP_pop found
          rw [← sound.counted] at counted
          exact ⟨keeps, Nat.add_right_cancel (counts.trans counted.symm)⟩
  | mergeLayer clientId =>
      cases called
      obtain ⟨keeps, same⟩ := sound.policy.releaseClientAssignment clientId true
      exact ⟨keeps, same.trans sound.counted⟩
  | deleteLayer clientId =>
      cases called
      obtain ⟨keeps, same⟩ := sound.policy.releaseClientAssignment clientId false
      exact ⟨keeps, same.trans sound.counted⟩
  | setDepartmentPriority orderedDepartments =>
      cases called
      obtain ⟨keeps, same⟩ := sound.policy.setDepartmentPriority orderedDepartments
      exact ⟨keeps, same.trans sound.counted⟩
  | muteLayer key =>
      cases called
      obtain ⟨keeps, same⟩ := sound.policy.setMuted key true
      exact ⟨keeps, same.trans sound.counted⟩
  | unmuteLayer key =>
      cases called
      obtain ⟨keeps, same⟩ := sound.policy.setMuted key false
      exact ⟨keeps, same.trans sound.counted⟩

/-- One call keeps the server sound and advances the stack. -/
theorem Sound.step {server after : CollaborationServer} {call : CollaborationCall}
    (sound : server.Sound) (stepped : server.step call = some after) :
    after.Sound ∧ server.policy.stack.Advances after.policy.stack := by
  obtain ⟨outcome, called, rfl⟩ := Option.map_eq_some_iff.1 stepped
  obtain ⟨keeps, counted⟩ := sound.outcome called
  exact ⟨⟨keeps.sound, counted⟩, keeps.advances⟩

theorem Sound.holds {server : CollaborationServer} (sound : server.Sound) :
    CollaborationHolds server := by
  obtain ⟨ordered, represents⟩ := sound.policy.stored.represented
  constructor
  · rintro ⟨handler, found⟩
    have flat := sound.held found rfl
    refine ⟨?_, sound.policy.flatPriority flat⟩
    have keys := represents.order_perm
    rw [sound.policy.flatOrder flat] at keys
    obtain ⟨entry, only, key⟩ := List.map_eq_singleton_iff.1 (List.perm_singleton.1 keys.symm)
    refine ⟨entry.2, ?_, ?_⟩
    · rw [only, ← key]
    · apply sound.policy.flatUnmuted flat entry.1
      apply OrderedDict.get?_of_mem
      rw [only]
      exact List.mem_singleton_self _
  · exact sound.policy.stored.assigned
  · exact sound.counted
  · intro handler outcome called
    unfold CollaborationServer.outcome at called
    dsimp only at called
    cases found : server.reserved.get? handler with
    | none =>
        rw [found] at called
        cases called
        exact fun failed => by cases failed
    | some layered =>
        rw [found] at called
        cases called
        rw [(sound.policy.releaseReceiverReplayMode layered (sound.held found)).2.1]
        exact fun failed => by cases failed
  · exact represents.order_perm
  · exact represents.order_getLast
  · exact sound.policy.priorityFirst

/-- Whole runs keep the server sound and advance the stack. -/
theorem Sound.run {server after : CollaborationServer} {calls : List CollaborationCall}
    (sound : server.Sound) (ran : Machine.run CollaborationServer.step server calls = some after) :
    after.Sound ∧ server.policy.stack.Advances after.policy.stack := by
  induction calls generalizing server with
  | nil =>
      cases ran
      exact ⟨sound, .refl _⟩
  | cons call calls ih =>
      obtain ⟨next, stepped, rest⟩ := Option.bind_eq_some_iff.1 ran
      obtain ⟨nextSound, earlier⟩ := sound.step stepped
      obtain ⟨afterSound, later⟩ := ih nextSound rest
      exact ⟨afterSound, earlier.trans later⟩

/-- In every state that calls lead to after a start the invariants hold, and from there on the revision
never falls and grows with every visible change. -/
theorem holds_run {departmentPriority : List String} {records : List (String × String)}
    {policy : CollaborationPolicy} {calls : List CollaborationCall} {server : CollaborationServer}
    (started : CollaborationPolicy.start departmentPriority records = .ok policy)
    (ran : Machine.run step { policy := policy } calls = some server) :
    CollaborationHolds server ∧ ∀ more later, Machine.run step server more = some later →
      server.policy.stack.revision ≤ later.policy.stack.revision ∧
        (later.policy.stack.visibleLayers ≠ server.policy.stack.visibleLayers →
          server.policy.stack.revision < later.policy.stack.revision) := by
  obtain ⟨policySound, none⟩ := CollaborationPolicy.start_ok started
  have initial : Sound { policy := policy } := ⟨policySound, none⟩
  obtain ⟨sound, _⟩ := initial.run ran
  refine ⟨sound.holds, ?_⟩
  intro more later continued
  obtain ⟨_, advances⟩ := sound.run continued
  refine ⟨advances.le, ?_⟩
  intro visible
  rcases advances with same | grown
  · exact absurd (congrArg StackStore.visibleLayers same) visible
  · exact grown

/-- A flat receiver that comes and goes, and a department that is made, muted and merged. -/
def departmentSession : List CollaborationCall :=
  [.receiverHello 1 false, .getOrCreateClientLayer "alice" "fx",
    .releaseReceiverReplayReservation 1, .releaseReceiverReplayReservation 1,
    .getOrCreateClientLayer "alice" "fx", .setDepartmentPriority ["fx"], .muteLayer "alice",
    .receiverHello 2 true, .mergeLayer "alice"]

theorem holds_departmentSession :
    ∃ policy server, CollaborationPolicy.start [] [] = .ok policy ∧
      Machine.run step { policy := policy } departmentSession = some server ∧
      CollaborationHolds server := by
  have runs : ((CollaborationPolicy.start [] []).toOption.bind fun policy =>
      Machine.run step { policy := policy } departmentSession).isSome := by decide
  obtain ⟨server, ran⟩ := Option.isSome_iff_exists.1 runs
  obtain ⟨policy, started, ran⟩ := Option.bind_eq_some_iff.1 ran
  cases asked : CollaborationPolicy.start [] [] with
  | error message =>
      rw [asked] at started
      cases started
  | ok other =>
      rw [asked] at started
      cases started
      exact ⟨policy, server, rfl, ran, (holds_run asked ran).1⟩

end CollaborationServer

end UsdConnect
