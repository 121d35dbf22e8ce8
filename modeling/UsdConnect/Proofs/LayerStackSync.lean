/-
Purpose: A receiver of the latest stack state has the server's order, mute flags and opinions, as
  long as its layers stand for the server's layers of their keys.
Trusted boundary: none
Main exports: LayerStackSync.LayersStand, LayerStackSync.Converges
-/
import UsdConnect.Protocol.LayerStackSync
import UsdConnect.Lib.Machine
import Mathlib.Data.List.Pairwise

namespace UsdConnect

variable {Event : Type}

/-! ### Successive stacks -/

/-- A later stack of the same process: its layers are new, or were there under the same key. -/
structure Descends (earlier later : CollaborationLayerStack) : Prop where
  revision : earlier.revision < later.revision
  nextIdentifier : earlier.nextIdentifier ≤ later.nextIdentifier
  kept : ∀ layer ∈ later.layers, layer.identifier < earlier.nextIdentifier →
    ∃ old ∈ earlier.layers, old.identifier = layer.identifier ∧ old.layerKey = layer.layerKey

namespace Descends

theorem trans {earlier middle later : CollaborationLayerStack} (first : Descends earlier middle)
    (second : Descends middle later) : Descends earlier later where
  revision := Nat.lt_trans first.revision second.revision
  nextIdentifier := Nat.le_trans first.nextIdentifier second.nextIdentifier
  kept := by
    intro layer member below
    obtain ⟨old, oldMember, identifier, key⟩ := second.kept layer member
      (Nat.lt_of_lt_of_le below first.nextIdentifier)
    obtain ⟨older, olderMember, identifier', key'⟩ := first.kept old oldMember
      (by rw [identifier]; exact below)
    exact ⟨older, olderMember, identifier'.trans identifier, key'.trans key⟩

variable {stack after : CollaborationLayerStack}

/-- The same layers under a new revision. -/
theorem of_perm (revision : after.revision = stack.revision + 1)
    (nextIdentifier : after.nextIdentifier = stack.nextIdentifier)
    (same : ∀ layer ∈ after.layers, ∃ old ∈ stack.layers,
      old.identifier = layer.identifier ∧ old.layerKey = layer.layerKey) :
    Descends stack after where
  revision := by
    rw [revision]
    exact Nat.lt_succ_self _
  nextIdentifier := Nat.le_of_eq nextIdentifier.symm
  kept := fun layer member _ => same layer member

theorem of_ensureLayer {layerKey label : String}
    (ensured : stack.ensureLayer layerKey label = .ok (after, true)) : Descends stack after := by
  rcases CollaborationLayerStack.ensureLayer_cases ensured with
    ⟨_, _, impossible⟩ | ⟨_, _, revision, nextIdentifier, layer, _, identifier, grown⟩
  · cases impossible
  · constructor
    · rw [revision]
      exact Nat.lt_succ_self _
    · rw [nextIdentifier]
      exact Nat.le_succ _
    · intro other member below
      rcases List.mem_cons.1 (grown.mem_iff.1 member) with rfl | old
      · exact absurd identifier (Nat.ne_of_lt below)
      · exact ⟨other, old, rfl, rfl⟩

theorem of_removeLayer {layerKey : String}
    (removed : stack.removeLayer layerKey = .ok after) : Descends stack after := by
  obtain ⟨layers, nextIdentifier⟩ := CollaborationLayerStack.removeLayer_layers removed
  apply of_perm _ nextIdentifier
  · intro layer member
    rw [layers] at member
    exact ⟨layer, (List.mem_filter.1 member).1, rfl, rfl⟩
  · unfold CollaborationLayerStack.removeLayer at removed
    split at removed
    · cases removed
    split at removed
    · cases removed
    · cases removed
      rfl

theorem of_setOrder {order : List String}
    (ordered : stack.setOrder order = .ok (after, true)) : Descends stack after := by
  obtain ⟨same, nextIdentifier⟩ := CollaborationLayerStack.setOrder_perm ordered
  apply of_perm _ nextIdentifier
  · exact fun layer member => ⟨layer, same.mem_iff.1 member, rfl, rfl⟩
  · unfold CollaborationLayerStack.setOrder at ordered
    split at ordered
    · split at ordered
      · split at ordered
        · split at ordered
          · cases ordered
          · cases ordered
            rfl
        · cases ordered
      · cases ordered
    · cases ordered

theorem of_setMuted {layerKey : String} {muted : Bool}
    (changed : stack.setMuted layerKey muted = .ok (after, true)) : Descends stack after := by
  unfold CollaborationLayerStack.setMuted at changed
  split at changed
  · cases changed
  split at changed
  · cases changed
  · cases changed
    refine of_perm rfl rfl ?_
    intro layer member
    have mapped := CollaborationLayerStack.mapLayers_layers stack
      (fun other => if other.layerKey = layerKey then { other with muted := muted } else other)
      (fun other => by split <;> rfl) (fun other => by split <;> rfl)
    obtain ⟨old, oldMember, same⟩ := List.mem_map.1 (mapped ▸ member)
    refine ⟨old, oldMember, ?_, ?_⟩
    · rw [← same]
      split <;> rfl
    · rw [← same]
      split <;> rfl

end Descends

/-! ### Contents of a stream -/

theorem contentsOf_record (frames : List (StackFrame Event)) (owner : Nat) (layerKey : String)
    (event : Event) (identifier : Nat) :
    contentsOf (frames ++ [.record owner layerKey event]) identifier =
      if owner = identifier then contentsOf frames identifier ++ [event]
      else contentsOf frames identifier := by
  unfold contentsOf
  rw [List.foldl_append]
  rfl

theorem contentsOf_reset (frames : List (StackFrame Event)) (identifier : Nat) :
    contentsOf (frames ++ [.reset]) identifier = [] := by
  unfold contentsOf
  rw [List.foldl_append]
  rfl

namespace LayerStackSync

variable {sync next : LayerStackSync Event}

/-- Frames that the receiver has applied. -/
def applied (sync : LayerStackSync Event) : List (StackFrame Event) :=
  sync.stream.take sync.delivered

/-- The receiver has applied the latest state. -/
def UpToDate (sync : LayerStackSync Event) : Prop :=
  sync.router.generation = sync.generation ∧ sync.router.revision = sync.stack.revision

instance (sync : LayerStackSync Event) : Decidable sync.UpToDate :=
  inferInstanceAs (Decidable (_ ∧ _))

/-- The last broadcast can be delivered and brings the receiver up to date, and a receiver that is up
to date has the server's order, its mute flags, and in every layer the server's opinions for the
frames that were delivered. -/
structure Converges (sync : LayerStackSync Event) : Prop where
  latest : ∃ after, sync.step (.state (sync.broadcasts.length - 1)) = some after ∧ after.UpToDate
  order : sync.UpToDate → sync.router.layerKeys = sync.stack.layerKeys
  muted : sync.UpToDate → ∀ layer ∈ sync.stack.layers,
    sync.router.isMuted layer.layerKey = layer.muted
  contents : sync.UpToDate → ∀ layer ∈ sync.stack.layers,
    sync.router.layers.get? layer.layerKey = some (contentsOf sync.applied layer.identifier)
  authored : sync.contents = contentsOf sync.stream

/-- Every layer of the receiver stands for the server layer that is meant by its key: in a new state
that names the key, and for a record that is routed by the key. -/
def LayersStand (sync : LayerStackSync Event) : LayerStackAction Event → Prop
  | .state index =>
      match sync.broadcasts[index]? with
      | some snapshot =>
          sync.router.isStale (snapshot.state sync.generation) = false →
            ∀ layer ∈ snapshot.layers, layer.layerKey ∈ sync.router.layers.keys →
              sync.standsFor layer.layerKey = layer.identifier
      | none => True
  | .frame =>
      match sync.stream[sync.delivered]? with
      | some (.record identifier layerKey _) =>
          layerKey ∈ sync.router.layerKeys → sync.standsFor layerKey = identifier
      | _ => True
  | _ => True

instance (sync : LayerStackSync Event) (action : LayerStackAction Event) :
    Decidable (sync.LayersStand action) := by
  unfold LayersStand
  split
  · split
    · infer_instance
    · infer_instance
  · split
    · infer_instance
    · infer_instance
  · infer_instance

/-! ### The invariant -/

/-- The states of the server, oldest first, and its contents. -/
structure History (sync : LayerStackSync Event) : Prop where
  ordered : sync.broadcasts.Pairwise Descends
  last : ∃ front, sync.broadcasts = front ++ [sync.stack]
  authored : sync.contents = contentsOf sync.stream
  bounded : sync.delivered ≤ sync.stream.length

/-- The receiver has the layers of one of the states. -/
structure Mirrors (sync : LayerStackSync Event) (snapshot : CollaborationLayerStack) : Prop where
  member : snapshot ∈ sync.broadcasts
  generation : sync.router.generation = sync.generation
  revision : sync.router.revision = snapshot.revision
  layerKeys : sync.router.layerKeys = snapshot.layerKeys
  muted : ∀ layer ∈ snapshot.layers, sync.router.muted.get? layer.layerKey = some layer.muted
  keys : ∀ key, key ∈ sync.router.layers.keys ↔ key ∈ snapshot.layerKeys
  stands : ∀ layer ∈ snapshot.layers, sync.standsFor layer.layerKey = layer.identifier
  contents : ∀ layer ∈ snapshot.layers,
    sync.router.layers.get? layer.layerKey = some (contentsOf sync.applied layer.identifier)
  below : ∀ identifier, contentsOf sync.applied identifier ≠ [] →
    identifier < snapshot.nextIdentifier

/-- The receiver has not applied any state. -/
structure Fresh (sync : LayerStackSync Event) : Prop where
  unready : sync.router.ready = false
  revision : sync.router.revision = -1
  keys : sync.router.layers.keys = []
  contents : ∀ identifier, contentsOf sync.applied identifier = []

/-- The invariant of the two. -/
structure Sound (sync : LayerStackSync Event) : Prop where
  history : sync.History
  follows : sync.Fresh ∨ ∃ snapshot, sync.Mirrors snapshot

theorem History.of_router (history : sync.History) (broadcasts : next.broadcasts = sync.broadcasts)
    (stack : next.stack = sync.stack) (contents : next.contents = sync.contents)
    (stream : next.stream = sync.stream) (delivered : next.delivered = sync.delivered) :
    next.History := by
  constructor
  · rw [broadcasts]
    exact history.ordered
  · rw [broadcasts, stack]
    exact history.last
  · rw [contents, stream]
    exact history.authored
  · rw [delivered, stream]
    exact history.bounded

/-! ### Steps of the server -/

/-- A step that adds frames and states leaves the receiver what it was. -/
theorem Sound.of_server (sound : sync.Sound) (history : next.History)
    (router : next.router = sync.router) (standsFor : next.standsFor = sync.standsFor)
    (generation : next.generation = sync.generation) (applied : next.applied = sync.applied)
    (broadcasts : ∀ snapshot ∈ sync.broadcasts, snapshot ∈ next.broadcasts) : next.Sound := by
  refine ⟨history, ?_⟩
  rcases sound.follows with fresh | ⟨snapshot, mirrors⟩
  · left
    constructor
    · rw [router]
      exact fresh.unready
    · rw [router]
      exact fresh.revision
    · rw [router]
      exact fresh.keys
    · rw [applied]
      exact fresh.contents
  · right
    refine ⟨snapshot, ?_⟩
    constructor
    · exact broadcasts snapshot mirrors.member
    · rw [router, generation]
      exact mirrors.generation
    · rw [router]
      exact mirrors.revision
    · rw [router]
      exact mirrors.layerKeys
    · rw [router]
      exact mirrors.muted
    · rw [router]
      exact mirrors.keys
    · rw [standsFor]
      exact mirrors.stands
    · rw [router, applied]
      exact mirrors.contents
    · rw [applied]
      exact mirrors.below

theorem publish_sound {result : Except String (CollaborationLayerStack × Bool)}
    (sound : sync.Sound)
    (descends : ∀ after, result = .ok (after, true) → Descends sync.stack after) :
    (sync.publish result).Sound := by
  cases result with
  | error message => exact sound
  | ok outcome =>
      rcases outcome with ⟨after, changed⟩
      cases changed with
      | false => exact sound
      | true =>
          have newer := descends after rfl
          obtain ⟨front, last⟩ := sound.history.last
          have ordered := sound.history.ordered
          refine sound.of_server ?_ rfl rfl rfl rfl ?_
          · constructor
            · change (sync.broadcasts ++ [after]).Pairwise Descends
              rw [List.pairwise_append]
              refine ⟨ordered, List.pairwise_singleton _ _, ?_⟩
              intro earlier member later only
              cases List.mem_singleton.1 only
              rw [last] at member ordered
              rcases List.mem_append.1 member with before | now
              · have older := (List.pairwise_append.1 ordered).2.2 earlier before sync.stack
                  (List.mem_singleton_self _)
                exact older.trans newer
              · cases List.mem_singleton.1 now
                exact newer
            · exact ⟨sync.broadcasts, rfl⟩
            · exact sound.history.authored
            · exact sound.history.bounded
          · exact fun snapshot member => List.mem_append_left _ member

theorem author_sound {layerKey : String} {event : Event} (sound : sync.Sound)
    (authored : sync.author layerKey event = some next) : next.Sound := by
  obtain ⟨layer, _, same⟩ := Option.map_eq_some_iff.1 authored
  cases same
  have bounded := sound.history.bounded
  refine sound.of_server ?_ rfl rfl rfl ?_ fun _ member => member
  · constructor
    · exact sound.history.ordered
    · exact sound.history.last
    · funext identifier
      rw [contentsOf_record]
      dsimp only
      rw [sound.history.authored]
      by_cases own : identifier = layer.identifier
      · rw [if_pos own, if_pos own.symm]
      · rw [if_neg own, if_neg (Ne.symm own)]
    · dsimp only
      rw [List.length_append]
      exact Nat.le_add_right_of_le bounded
  · exact List.take_append_of_le_length bounded

theorem clear_sound (sound : sync.Sound) : sync.clear.Sound := by
  have bounded := sound.history.bounded
  refine sound.of_server ?_ rfl rfl rfl ?_ fun _ member => member
  · constructor
    · exact sound.history.ordered
    · exact sound.history.last
    · funext identifier
      exact (contentsOf_reset sync.stream identifier).symm
    · change sync.delivered ≤ (sync.stream ++ [StackFrame.reset]).length
      rw [List.length_append]
      exact Nat.le_add_right_of_le bounded
  · exact List.take_append_of_le_length bounded

/-! ### Steps of the receiver -/

/-- What a state of the server that is not stale makes of a router. -/
structure Adopts (router : LogicalLayerRouter Event) (snapshot : CollaborationLayerStack)
    (generation : String) (after : LogicalLayerRouter Event) : Prop where
  generation : after.generation = generation
  revision : after.revision = snapshot.revision
  layerKeys : after.layerKeys = snapshot.layerKeys
  muted : ∀ layer ∈ snapshot.layers, after.muted.get? layer.layerKey = some layer.muted
  layers : ∀ key, after.layers.get? key =
    if key ∈ snapshot.layerKeys then some ((router.layers.get? key).getD []) else none

theorem state_layerKeys (snapshot : CollaborationLayerStack) (generation : String) :
    (snapshot.state generation).layers.map (·.layerKey) = snapshot.layerKeys := by
  unfold CollaborationLayerStack.state CollaborationLayerStack.layerKeys
  rw [List.map_map]
  rfl

/-- The router accepts every state of the server. -/
theorem applyState_adopts (router : LogicalLayerRouter Event) (snapshot : CollaborationLayerStack)
    (generation : String) (newer : router.isStale (snapshot.state generation) = false) :
    ∃ after, router.applyState (snapshot.state generation) = .ok (after, true) ∧
      Adopts router snapshot generation after := by
  have keys := state_layerKeys snapshot generation
  have named : ∀ item ∈ (snapshot.state generation).layers, item.layerKey ≠ "" := by
    intro item member
    obtain ⟨layer, present, rfl⟩ := List.mem_map.1 member
    exact snapshot.distinct.named layer present
  have distinct : ((OrderedDict.empty : OrderedDict String Bool).keys ++
      (snapshot.state generation).layers.map (·.layerKey)).Nodup := by
    rw [keys]
    exact snapshot.layerKeys_nodup
  obtain ⟨muted, read, entries⟩ := LogicalLayerRouter.readLayers_ok
    (snapshot.state generation).layers [] .empty named distinct
  rw [keys, List.nil_append] at read
  have positive : ¬ (snapshot.state generation).revision < 0 :=
    Int.not_lt.2 (Int.natCast_nonneg snapshot.revision)
  have fresh : ¬ router.isStale (snapshot.state generation) = true := by
    rw [newer]
    exact Bool.false_ne_true
  unfold LogicalLayerRouter.applyState
  rw [if_neg positive, if_neg fresh]
  unfold LogicalLayerRouter.applyStateInner
  rw [read]
  refine ⟨_, rfl, ?_⟩
  constructor
  · rfl
  · rfl
  · rfl
  · intro layer member
    apply OrderedDict.get?_of_mem
    rw [entries]
    apply List.mem_append_right
    have item : (⟨layer.layerKey, layer.label, layer.muted⟩ : LogicalLayerState) ∈
        (snapshot.state generation).layers := List.mem_map_of_mem member
    exact List.mem_map_of_mem item
  · intro key
    dsimp only
    rw [OrderedDict.get?_filterKeys, LogicalLayerRouter.get?_createLayers]
    by_cases known : key ∈ snapshot.layerKeys
    · rw [if_pos known, if_pos known, if_pos (decide_eq_true known)]
    · rw [if_neg known, if_neg known, if_neg (by simpa using known)]

/-- Two states of the server of different revision descend from one another. -/
theorem History.descends (history : sync.History) {earlier later : CollaborationLayerStack}
    (earlierMember : earlier ∈ sync.broadcasts) (laterMember : later ∈ sync.broadcasts)
    (older : earlier.revision < later.revision) : Descends earlier later := by
  have symmetric : Std.Symm fun first second => Descends first second ∨ Descends second first :=
    ⟨fun _ _ related => related.symm⟩
  have related : sync.broadcasts.Pairwise
      fun first second => Descends first second ∨ Descends second first :=
    history.ordered.imp Or.inl
  have apart : earlier ≠ later := fun same =>
    absurd (congrArg CollaborationLayerStack.revision same) (Nat.ne_of_lt older)
  rcases related.forall earlierMember laterMember apart with
    forwards | backwards
  · exact forwards
  · exact absurd backwards.revision (Nat.not_lt.2 (Nat.le_of_lt older))

theorem isStale_eq_false {router : LogicalLayerRouter Event} {state : LayerStackState}
    (newer : router.isStale state = false) (same : state.generation = router.generation) :
    router.revision < state.revision := by
  unfold LogicalLayerRouter.isStale at newer
  rw [same] at newer
  simpa using newer

theorem applyState_sound {snapshot : CollaborationLayerStack} (sound : sync.Sound)
    (member : snapshot ∈ sync.broadcasts)
    (stand : sync.router.isStale (snapshot.state sync.generation) = false →
      ∀ layer ∈ snapshot.layers, layer.layerKey ∈ sync.router.layers.keys →
        sync.standsFor layer.layerKey = layer.identifier) :
    (sync.applyState snapshot).Sound := by
  unfold applyState
  cases stale : sync.router.isStale (snapshot.state sync.generation) with
  | true =>
      have ignored : sync.router.applyState (snapshot.state sync.generation) =
          .ok (sync.router, false) := by
        have positive : ¬ (snapshot.state sync.generation).revision < 0 :=
          Int.not_lt.2 (Int.natCast_nonneg snapshot.revision)
        unfold LogicalLayerRouter.applyState
        rw [if_neg positive, if_pos stale]
      rw [ignored]
      exact sound
  | false =>
      obtain ⟨after, applied, adopts⟩ := applyState_adopts sync.router snapshot sync.generation stale
      rw [applied]
      refine ⟨sound.history.of_router rfl rfl rfl rfl rfl, Or.inr ⟨snapshot, ?_⟩⟩
      -- A layer of a new key is empty on both sides: nothing was delivered for it.
      have unwritten : ∀ layer ∈ snapshot.layers, layer.layerKey ∉ sync.router.layers.keys →
          contentsOf sync.applied layer.identifier = [] := by
        intro layer present absent
        rcases sound.follows with fresh | ⟨before, mirrors⟩
        · exact fresh.contents layer.identifier
        · by_contra written
          have older : before.revision < snapshot.revision := by
            have later := isStale_eq_false stale mirrors.generation.symm
            rw [mirrors.revision] at later
            exact Int.ofNat_lt.1 later
          have descends := sound.history.descends mirrors.member member older
          obtain ⟨old, oldMember, _, key⟩ := descends.kept layer present
            (mirrors.below layer.identifier written)
          apply absent
          rw [← key, mirrors.keys]
          exact List.mem_map_of_mem oldMember
      constructor
      · exact member
      · exact adopts.generation
      · exact adopts.revision
      · exact adopts.layerKeys
      · exact adopts.muted
      · intro key
        constructor
        · intro present
          obtain ⟨content, found⟩ := OrderedDict.get?_isSome_of_mem_keys present
          by_contra unknown
          rw [adopts.layers, if_neg unknown] at found
          cases found
        · intro known
          apply OrderedDict.mem_keys_of_get?
          rw [adopts.layers, if_pos known]
      · intro layer present
        change sync.standsForAfter snapshot layer.layerKey = layer.identifier
        unfold standsForAfter
        split
        · next known => exact stand stale layer present known
        · rw [CollaborationLayerStack.layerFor_mem present]
          rfl
      · intro layer present
        change after.layers.get? layer.layerKey = some (contentsOf sync.applied layer.identifier)
        have named : layer.layerKey ∈ snapshot.layerKeys := List.mem_map_of_mem present
        rw [adopts.layers, if_pos named]
        by_cases known : layer.layerKey ∈ sync.router.layers.keys
        · rcases sound.follows with fresh | ⟨before, mirrors⟩
          · rw [fresh.keys] at known
            cases known
          · obtain ⟨old, oldMember, key⟩ := List.mem_map.1 ((mirrors.keys _).1 known)
            have identifier : old.identifier = layer.identifier := by
              rw [← mirrors.stands old oldMember, key]
              exact stand stale layer present known
            rw [← key, mirrors.contents old oldMember, identifier]
            rfl
        · rw [OrderedDict.get?_eq_none known, unwritten layer present known]
          rfl
      · intro identifier written
        rcases sound.follows with fresh | ⟨before, mirrors⟩
        · exact absurd (fresh.contents identifier) written
        · have older : before.revision < snapshot.revision := by
            have later := isStale_eq_false stale mirrors.generation.symm
            rw [mirrors.revision] at later
            exact Int.ofNat_lt.1 later
          have descends := sound.history.descends mirrors.member member older
          exact Nat.lt_of_lt_of_le (mirrors.below identifier written) descends.nextIdentifier

theorem take_frame {stream : List (StackFrame Event)} {delivered : Nat}
    {frame : StackFrame Event} (found : stream[delivered]? = some frame) :
    stream.take (delivered + 1) = stream.take delivered ++ [frame] := by
  rw [List.take_add_one, found]
  rfl

theorem applyRecord_ok {router after : LogicalLayerRouter Event} {layerKey : String} {event : Event}
    (routed : router.applyRecord layerKey event = .ok after) :
    router.ready = true ∧ layerKey ∈ router.layerKeys ∧
      ∃ content, router.layers.get? layerKey = some content ∧
        after = { router with layers := router.layers.set layerKey (content ++ [event]) } := by
  unfold LogicalLayerRouter.applyRecord at routed
  split at routed
  · cases routed
  split at routed
  · cases routed
  next content target =>
    cases routed
    unfold LogicalLayerRouter.layerFor at target
    split at target
    · cases target
    next ready =>
      split at target
      · cases target
      next known =>
        split at target
        · cases target
        next _ found =>
          cases target
          exact ⟨not_not.1 ready, not_not.1 known, content, found, rfl⟩

theorem record_sound {owner : Nat} {layerKey : String} {event : Event} (sound : sync.Sound)
    (found : sync.stream[sync.delivered]? = some (.record owner layerKey event))
    (stand : layerKey ∈ sync.router.layerKeys → sync.standsFor layerKey = owner) :
    (sync.applyFrame (.record owner layerKey event)).Sound := by
  unfold applyFrame
  dsimp only
  cases routed : sync.router.applyRecord layerKey event with
  | error message => exact sound
  | ok after =>
      obtain ⟨ready, known, content, present, same⟩ := applyRecord_ok routed
      have taken := take_frame found
      have bound : sync.delivered + 1 ≤ sync.stream.length :=
        (List.getElem?_eq_some_iff.1 found).1
      rcases sound.follows with fresh | ⟨snapshot, mirrors⟩
      · exact absurd (fresh.unready.symm.trans ready) Bool.false_ne_true
      · obtain ⟨target, targetMember, key⟩ :=
          List.mem_map.1 (mirrors.layerKeys ▸ known : layerKey ∈ snapshot.layerKeys)
        have owned : target.identifier = owner := by
          rw [← mirrors.stands target targetMember, key]
          exact stand known
        have held : content = contentsOf sync.applied owner := by
          have stored := mirrors.contents target targetMember
          rw [key, present, owned] at stored
          exact Option.some.inj stored
        constructor
        · exact ⟨sound.history.ordered, sound.history.last, sound.history.authored, bound⟩
        · right
          refine ⟨snapshot, ?_⟩
          rw [same]
          constructor
          · exact mirrors.member
          · exact mirrors.generation
          · exact mirrors.revision
          · exact mirrors.layerKeys
          · exact mirrors.muted
          · intro other
            dsimp only
            rw [OrderedDict.mem_keys_set, mirrors.keys]
            constructor
            · intro either
              rcases either with new | old
              · rw [new, ← key]
                exact List.mem_map_of_mem targetMember
              · exact old
            · exact Or.inr
          · exact mirrors.stands
          · intro layer member
            unfold applied
            dsimp only
            rw [taken, contentsOf_record]
            by_cases own : layer.layerKey = layerKey
            · have here : layer = target :=
                snapshot.distinct.eq_of_key member targetMember (own.trans key.symm)
              rw [here, key, OrderedDict.get?_set_self, if_pos owned.symm, owned, held]
              rfl
            · have apart : ¬ owner = layer.identifier := by
                intro shared
                have here : layer = target :=
                  snapshot.distinct.eq_of_identifier member targetMember
                    (shared.symm.trans owned.symm)
                exact own (by rw [here, key])
              rw [OrderedDict.get?_set_of_ne _ _ own, if_neg apart]
              exact mirrors.contents layer member
          · intro identifier written
            unfold applied at written
            dsimp only at written
            rw [taken, contentsOf_record] at written
            by_cases own : owner = identifier
            · rw [← own, ← owned]
              exact snapshot.fresh target targetMember
            · rw [if_neg own] at written
              exact mirrors.below identifier written

theorem reset_sound (sound : sync.Sound)
    (found : sync.stream[sync.delivered]? = some .reset) :
    (sync.applyFrame .reset).Sound := by
  have taken := take_frame found
  have bound : sync.delivered + 1 ≤ sync.stream.length := (List.getElem?_eq_some_iff.1 found).1
  have emptied : ∀ identifier, contentsOf (sync.stream.take (sync.delivered + 1)) identifier = [] := by
    intro identifier
    rw [taken, contentsOf_reset]
  constructor
  · exact ⟨sound.history.ordered, sound.history.last, sound.history.authored, bound⟩
  · rcases sound.follows with fresh | ⟨snapshot, mirrors⟩
    · left
      constructor
      · exact fresh.unready
      · exact fresh.revision
      · change (sync.router.layers.mapValues fun _ => []).keys = []
        rw [OrderedDict.keys_mapValues]
        exact fresh.keys
      · exact emptied
    · right
      refine ⟨snapshot, ?_⟩
      constructor
      · exact mirrors.member
      · exact mirrors.generation
      · exact mirrors.revision
      · exact mirrors.layerKeys
      · exact mirrors.muted
      · intro key
        change key ∈ (sync.router.layers.mapValues fun _ => []).keys ↔ _
        rw [OrderedDict.keys_mapValues]
        exact mirrors.keys key
      · exact mirrors.stands
      · intro layer member
        change (sync.router.layers.mapValues fun _ => []).get? layer.layerKey =
          some (contentsOf (sync.stream.take (sync.delivered + 1)) layer.identifier)
        rw [OrderedDict.get?_mapValues, mirrors.contents layer member, emptied]
        rfl
      · exact fun identifier written => absurd (emptied identifier) written

/-- Every step of the server or the receiver keeps the invariant. -/
theorem Sound.step {action : LayerStackAction Event} (sound : sync.Sound)
    (stand : sync.LayersStand action) (stepped : sync.step action = some next) : next.Sound := by
  cases action with
  | ensure layerKey label =>
      cases stepped
      exact publish_sound sound fun after ensured => .of_ensureLayer ensured
  | remove layerKey =>
      cases stepped
      apply publish_sound sound
      intro after removed
      cases outcome : sync.stack.removeLayer layerKey with
      | error message =>
          rw [outcome] at removed
          cases removed
      | ok stack =>
          rw [outcome] at removed
          cases removed
          exact .of_removeLayer outcome
  | reorder order =>
      cases stepped
      exact publish_sound sound fun after ordered => .of_setOrder ordered
  | mute layerKey muted =>
      cases stepped
      exact publish_sound sound fun after changed => .of_setMuted changed
  | clear =>
      cases stepped
      exact clear_sound sound
  | author layerKey event => exact author_sound sound stepped
  | state index =>
      obtain ⟨snapshot, found, same⟩ := Option.map_eq_some_iff.1 stepped
      cases same
      dsimp only [LayersStand] at stand
      rw [found] at stand
      exact applyState_sound sound (List.mem_of_getElem? found) stand
  | frame =>
      obtain ⟨frame, found, same⟩ := Option.map_eq_some_iff.1 stepped
      cases same
      cases frame with
      | record owner layerKey event =>
          dsimp only [LayersStand] at stand
          rw [found] at stand
          exact record_sound sound found stand
      | reset => exact reset_sound sound found

/-! ### Convergence -/

theorem History.newest (history : sync.History) {snapshot : CollaborationLayerStack}
    (member : snapshot ∈ sync.broadcasts) :
    snapshot = sync.stack ∨ snapshot.revision < sync.stack.revision := by
  obtain ⟨front, last⟩ := history.last
  have ordered := history.ordered
  rw [last] at member ordered
  rcases List.mem_append.1 member with before | now
  · right
    exact ((List.pairwise_append.1 ordered).2.2 snapshot before sync.stack
      (List.mem_singleton_self _)).revision
  · exact Or.inl (List.mem_singleton.1 now)

/-- A receiver that is up to date has the layers of the current stack. -/
theorem Sound.mirrors_stack (sound : sync.Sound) (current : sync.UpToDate) :
    sync.Mirrors sync.stack := by
  rcases sound.follows with fresh | ⟨snapshot, mirrors⟩
  · have revision := current.2
    rw [fresh.revision] at revision
    omega
  · rcases sound.history.newest mirrors.member with same | older
    · rw [← same]
      exact mirrors
    · have revision := current.2
      rw [mirrors.revision] at revision
      omega

theorem Sound.latest (sound : sync.Sound) :
    ∃ after, sync.step (.state (sync.broadcasts.length - 1)) = some after ∧ after.UpToDate := by
  obtain ⟨front, last⟩ := sound.history.last
  have found : sync.broadcasts[sync.broadcasts.length - 1]? = some sync.stack := by
    rw [← List.getLast?_eq_getElem?, last, List.getLast?_concat]
  refine ⟨sync.applyState sync.stack, ?_, ?_⟩
  · change sync.broadcasts[sync.broadcasts.length - 1]?.map sync.applyState = _
    rw [found]
    rfl
  · unfold applyState
    cases stale : sync.router.isStale (sync.stack.state sync.generation) with
    | true =>
        have positive : ¬ (sync.stack.state sync.generation).revision < 0 :=
          Int.not_lt.2 (Int.natCast_nonneg sync.stack.revision)
        unfold LogicalLayerRouter.applyState
        rw [if_neg positive, if_pos stale]
        unfold LogicalLayerRouter.isStale at stale
        rw [Bool.and_eq_true, decide_eq_true_eq, decide_eq_true_eq] at stale
        obtain ⟨generation, revision⟩ := stale
        change (sync.stack.revision : Int) ≤ sync.router.revision at revision
        refine ⟨generation.symm, ?_⟩
        rcases sound.follows with fresh | ⟨snapshot, mirrors⟩
        · have unset := fresh.revision
          omega
        · have equal := mirrors.revision
          rcases sound.history.newest mirrors.member with same | older
          · rw [equal, same]
          · omega
    | false =>
        obtain ⟨after, applied, adopts⟩ :=
          applyState_adopts sync.router sync.stack sync.generation stale
        rw [applied]
        exact ⟨adopts.generation, adopts.revision⟩

theorem Sound.converges (sound : sync.Sound) : sync.Converges where
  latest := sound.latest
  order := fun current => (sound.mirrors_stack current).layerKeys
  muted := fun current layer member => by
    unfold LogicalLayerRouter.isMuted
    rw [(sound.mirrors_stack current).muted layer member]
    rfl
  contents := fun current => (sound.mirrors_stack current).contents
  authored := sound.history.authored

theorem start_sound (generation : String) :
    ({ generation := generation } : LayerStackSync Event).Sound where
  history := ⟨List.pairwise_singleton _ _, ⟨[], rfl⟩, rfl, Nat.le_refl 0⟩
  follows := Or.inl ⟨rfl, rfl, rfl, fun _ => rfl⟩

/-- In every run in which the receiver's layers stand for the layers that are meant, it converges. -/
theorem converges_of_layersStand (generation : String) (actions : List (LayerStackAction Event))
    (final : LayerStackSync Event)
    (stand : Machine.StepsMeet step LayersStand { generation := generation } actions)
    (ran : Machine.run step { generation := generation } actions = some final) :
    final.Converges := by
  have preserved : ∀ (sync : LayerStackSync Event) (action : LayerStackAction Event)
      (next : LayerStackSync Event), sync.Sound → sync.LayersStand action →
      sync.step action = some next → next.Sound :=
    fun _ _ _ sound meets stepped => sound.step meets stepped
  exact (Machine.run_preserves preserved actions _ final (start_sound generation) stand
    ran).converges

/-- A removed layer is created again, and the receiver gets the state between the two. -/
theorem converges_of_layersStand_recreated :
    ∃ final : LayerStackSync Nat, Machine.run step { generation := "g" }
        [.ensure "anim" "", .state 1, .author "anim" 7, .frame, .remove "anim", .state 2,
          .ensure "anim" "", .state 3] = some final ∧
      final.Converges := by
  refine ⟨_, rfl, converges_of_layersStand "g"
    [.ensure "anim" "", .state 1, .author "anim" 7, .frame, .remove "anim", .state 2,
      .ensure "anim" "", .state 3] _ ?_ rfl⟩
  decide +kernel

/-- The receiver gets the state after the layer was created again, but not the one between. -/
theorem not_converges_skipped :
    ∃ final : LayerStackSync Nat, Machine.run step { generation := "g" }
        [.ensure "anim" "", .state 1, .author "anim" 7, .frame, .remove "anim", .ensure "anim" "",
          .state 3] = some final ∧
      ¬ final.Converges := by
  have values : (Machine.run step ({ generation := "g" } : LayerStackSync Nat)
      [.ensure "anim" "", .state 1, .author "anim" 7, .frame, .remove "anim", .ensure "anim" "",
        .state 3]).map
        (fun sync => (decide (sync.UpToDate), sync.stack.layers,
          sync.router.layers.get? "anim", contentsOf sync.applied 2)) =
      some (true, [⟨"anim", "anim", 2, false⟩, ⟨"default", "Default", 0, false⟩], some [7], []) := by
    decide +kernel
  obtain ⟨final, ran, same⟩ := Option.map_eq_some_iff.1 values
  obtain ⟨current, layers, held, expected⟩ := by simpa only [Prod.mk.injEq] using same
  refine ⟨final, ran, ?_⟩
  intro converges
  have contents := converges.contents (of_decide_eq_true current) ⟨"anim", "anim", 2, false⟩
    (by rw [layers]; exact List.mem_cons_self)
  dsimp only at contents
  rw [held, expected] at contents
  cases contents

end LayerStackSync

end UsdConnect
