/-
Purpose: Local edits and the backlog before them, over whole runs: the law holds as long as edits
  join a prepared batch only when the hold is as long as the queue.
Trusted boundary: none
Main exports: backlogLaw_of_matchingJoins, not_backlogLaw_laterJoin
-/
import UsdConnect.Client.BacklogHold

namespace UsdConnect

namespace LayerTracker

/-! ### What the tracker's steps do to frozen edits -/

theorem isFrozen_iff {tracker : LayerTracker} {layer : LayerId} {edit : Nat} :
    tracker.isFrozen layer edit = true ↔
      ∃ batch, tracker.prepared.get? layer = some batch ∧ edit ∈ batch.edits := by
  unfold isFrozen
  cases tracker.prepared.get? layer with
  | none => simp
  | some batch => simp

theorem prepared_of_isFrozen {tracker : LayerTracker} {layer : LayerId} {edit : Nat}
    (frozen : tracker.isFrozen layer edit = true) :
    tracker.prepared.entries.isEmpty = false := by
  obtain ⟨batch, found, -⟩ := isFrozen_iff.1 frozen
  have member : (layer, batch) ∈ tracker.prepared.entries := OrderedDict.mem_of_get? found
  cases held : tracker.prepared.entries with
  | nil =>
      rw [held] at member
      cases member
  | cons _ _ => rfl

/-- A step that freezes only edits that `fresh` allows, sends or forgets edits, and does not drop a
frozen edit without forgetting it. -/
structure Settles (fresh : LayerId → Nat → Prop) (before after : LayerTracker) : Prop where
  frozen : ∀ layer edit, after.isFrozen layer edit = true →
    before.isFrozen layer edit = true ∨ fresh layer edit
  kept : ∀ layer edit, before.isFrozen layer edit = true → edit ∈ after.unsent layer →
    after.isFrozen layer edit = true
  unsent : ∀ layer, after.unsent layer ⊆ before.unsent layer

variable {fresh : LayerId → Nat → Prop}

theorem Settles.refl (tracker : LayerTracker) : Settles fresh tracker tracker where
  frozen _ _ := .inl
  kept _ _ frozen _ := frozen
  unsent _ _ := id

theorem Settles.trans {first second third : LayerTracker} (earlier : Settles fresh first second)
    (later : Settles fresh second third) : Settles fresh first third where
  frozen layer edit frozen := by
    rcases later.frozen layer edit frozen with before | new
    · exact earlier.frozen layer edit before
    · exact .inr new
  kept layer edit frozen unsent :=
    later.kept layer edit (earlier.kept layer edit frozen (later.unsent layer unsent)) unsent
  unsent layer := List.Subset.trans (later.unsent layer) (earlier.unsent layer)

theorem settles_suppressedChange (tracker : LayerTracker) (layer : LayerId) :
    Settles fresh tracker (tracker.suppressedChange layer) where
  frozen _ _ := .inl
  kept _ _ frozen _ := frozen
  unsent _ _ := id

theorem settles_syncGraph (tracker : LayerTracker) (tracked : List LayerId) :
    Settles fresh tracker (tracker.syncGraph tracked) where
  frozen layer edit frozen := by
    obtain ⟨batch, found, inside⟩ := isFrozen_iff.1 frozen
    rw [syncGraph, OrderedDict.get?_filterKeys] at found
    split_ifs at found
    exact .inl (isFrozen_iff.2 ⟨batch, found, inside⟩)
  kept layer edit frozen unsent := by
    obtain ⟨batch, found, inside⟩ := isFrozen_iff.1 frozen
    have stays : layer ∈ tracked := by
      by_contra away
      simp [syncGraph, away] at unsent
    refine isFrozen_iff.2 ⟨batch, ?_, inside⟩
    rw [syncGraph, OrderedDict.get?_filterKeys, if_pos (decide_eq_true stays)]
    exact found
  unsent layer edit unsent := by
    simp only [syncGraph] at unsent
    split_ifs at unsent
    · exact unsent
    · cases unsent

/-- Dropping a layer's batch together with its edits. -/
theorem settles_pop {tracker after : LayerTracker} {layer : LayerId} {left : List Nat}
    (prepared : after.prepared = tracker.prepared.pop layer)
    (unsent : after.unsent = Function.update tracker.unsent layer left)
    (subset : left ⊆ tracker.unsent layer)
    (gone : ∀ edit ∈ left, tracker.isFrozen layer edit = false) :
    Settles fresh tracker after where
  frozen other edit frozen := by
    obtain ⟨batch, found, inside⟩ := isFrozen_iff.1 frozen
    rw [prepared] at found
    by_cases same : other = layer
    · rw [same, OrderedDict.get?_pop_self] at found
      cases found
    · rw [OrderedDict.get?_pop_of_ne _ same] at found
      exact .inl (isFrozen_iff.2 ⟨batch, found, inside⟩)
  kept other edit frozen stays := by
    rw [unsent] at stays
    by_cases same : other = layer
    · subst same
      rw [Function.update_self] at stays
      rw [gone edit stays] at frozen
      cases frozen
    · obtain ⟨batch, found, inside⟩ := isFrozen_iff.1 frozen
      refine isFrozen_iff.2 ⟨batch, ?_, inside⟩
      rw [prepared, OrderedDict.get?_pop_of_ne _ same]
      exact found
  unsent other := by
    rw [unsent]
    by_cases same : other = layer
    · subst same
      rw [Function.update_self]
      exact subset
    · rw [Function.update_of_ne same]
      exact List.Subset.refl _

theorem settles_markPreparedSent {tracker after : LayerTracker} {layer : LayerId}
    (sent : tracker.markPreparedSent layer = some after) : Settles fresh tracker after := by
  obtain ⟨batch, found, rfl⟩ := Option.map_eq_some_iff.1 sent
  refine settles_pop rfl rfl (fun _ inside => (List.mem_filter.1 inside).1) ?_
  intro edit stays
  obtain ⟨-, outside⟩ := List.mem_filter.1 stays
  simpa [isFrozen, found] using outside

theorem settles_sendBatches {layers : List LayerId} :
    ∀ {tracker after : LayerTracker}, sendBatches layers tracker = some after →
      Settles fresh tracker after := by
  induction layers with
  | nil =>
      intro tracker after sent
      cases sent
      exact .refl tracker
  | cons layer layers ih =>
      intro tracker after sent
      obtain ⟨next, first, rest⟩ := Option.bind_eq_some_iff.1 sent
      exact (settles_markPreparedSent first).trans (ih rest)

theorem settles_prepareLayer (differs : LayerId → Bool) (tracker : LayerTracker)
    (layer : LayerId)
    (allows : differs layer = true → ∀ edit ∈ tracker.unsent layer, fresh layer edit) :
    Settles fresh tracker (prepareLayer differs tracker layer) := by
  unfold prepareLayer
  split_ifs with clean unchanged changed
  · exact .refl tracker
  · exact .refl tracker
  · refine ⟨?_, ?_, fun _ _ => id⟩
    · intro other edit frozen
      obtain ⟨batch, found, inside⟩ := isFrozen_iff.1 frozen
      by_cases same : other = layer
      · subst same
        rw [OrderedDict.get?_set_self] at found
        cases found
        exact .inr (allows changed edit inside)
      · rw [OrderedDict.get?_set_of_ne _ _ same] at found
        exact .inl (isFrozen_iff.2 ⟨batch, found, inside⟩)
    · intro other edit frozen unsent
      by_cases same : other = layer
      · subst same
        exact isFrozen_iff.2 ⟨_, OrderedDict.get?_set_self _ _ _, unsent⟩
      · obtain ⟨batch, found, inside⟩ := isFrozen_iff.1 frozen
        exact isFrozen_iff.2 ⟨batch, (OrderedDict.get?_set_of_ne _ _ same).trans found, inside⟩
  · exact settles_pop rfl rfl (List.nil_subset _) (by simp)

theorem settles_foldl_prepareLayer (differs : LayerId → Bool) (layers : List LayerId) :
    ∀ tracker : LayerTracker,
      (∀ layer ∈ layers, differs layer = true → ∀ edit ∈ tracker.unsent layer, fresh layer edit) →
      Settles fresh tracker (layers.foldl (prepareLayer differs) tracker) := by
  induction layers with
  | nil => exact fun tracker _ => .refl tracker
  | cons layer layers ih =>
      intro tracker allows
      have first : Settles fresh tracker (prepareLayer differs tracker layer) :=
        settles_prepareLayer differs tracker layer (allows layer List.mem_cons_self)
      refine first.trans (ih _ ?_)
      intro other member differing edit unsent
      exact allows other (List.mem_cons_of_mem _ member) differing edit (first.unsent other unsent)

/-- The edits that one preparation can freeze. -/
def Freezable (tracker : LayerTracker) (tracked : List LayerId) (differs : LayerId → Bool)
    (layer : LayerId) (edit : Nat) : Prop :=
  layer ∈ tracked ∧ differs layer = true ∧ edit ∈ tracker.unsent layer

theorem settles_prepareLocalChanges (tracker : LayerTracker) (tracked : List LayerId)
    (differs : LayerId → Bool) :
    Settles (tracker.Freezable tracked differs) tracker
      (tracker.prepareLocalChanges tracked differs) := by
  have synced : Settles (tracker.Freezable tracked differs) tracker (tracker.syncGraph tracked) :=
    settles_syncGraph tracker tracked
  refine synced.trans (settles_foldl_prepareLayer differs tracked _ ?_)
  intro layer member differing edit unsent
  exact ⟨member, differing, synced.unsent layer unsent⟩

end LayerTracker

namespace HoldingClient

/-! ### The law of the backlog -/

/-- What the backlog before an edit is owed: an edit that is sent has none of the messages queued
when it was first frozen behind it, and once as many messages were drained as were queued then,
its batch can be sent. -/
structure Owed (client : HoldingClient) : Prop where
  waits : ∀ layers layer edit next, client.step (.submit layers) = some next → layer ∈ layers →
    client.tracker.isFrozen layer edit = true →
    ∃ record, client.freezes layer edit = some record ∧
      ∀ message ∈ client.queue, message ∉ record.queue
  released : ∀ layer edit record, client.phase = .applied →
    client.tracker.isFrozen layer edit = true → client.freezes layer edit = some record →
    record.drained + record.queue.length ≤ client.drained →
    ∃ next, client.step (.submit [layer]) = some next

/-- The law holds in every state of the run. -/
def BacklogLaw (tracked : List LayerId) (actions : List HoldingAction) : Prop :=
  ∀ earlier later reached, actions = earlier ++ later →
    Machine.run step (initial tracked) earlier = some reached → reached.Owed

/-- An edit is frozen for the first time beside a batch that was prepared before only when the queue
is as long as the hold. -/
def JoinsMatch (client : HoldingClient) : HoldingAction → Prop
  | .prepare tracked changed =>
      client.tracker.prepared.entries.isEmpty = false →
      (∃ layer ∈ tracked, layer ∈ changed ∧
        ∃ edit ∈ client.tracker.unsent layer, client.freezes layer edit = none) →
      client.queue.length = client.hold.ahead
  | _ => True

instance (client : HoldingClient) (action : HoldingAction) :
    Decidable (client.JoinsMatch action) :=
  match action with
  | .prepare .. => inferInstanceAs (Decidable (_ → _ → _))
  | .arrive | .requestReplay | .edit _ | .suppressedChange _ | .syncGraph _ | .drain _ | .count
  | .submit _ | .finish => .isTrue trivial

/-! ### The invariant -/

/-- The messages that the hold still waits for, the drained ones that are not yet counted aside. -/
def remaining (client : HoldingClient) : Nat :=
  match client.phase with
  | .drained count => client.hold.ahead - count
  | _ => client.hold.ahead

/-- What the hold guarantees for one freeze record: behind the remaining messages there are none
of its queue, and no more remain than of its queue are left. -/
structure Covered (client : HoldingClient) (record : FreezeRecord) : Prop where
  front : ∀ message ∈ client.queue.drop client.remaining, message ∉ record.queue
  bound : client.remaining = 0 ∨
    client.remaining + client.drained ≤ record.queue.length + record.drained

structure Backlogged (client : HoldingClient) : Prop where
  numbered : ∀ message ∈ client.queue, message < client.arrived
  recorded : ∀ layer edit record, client.freezes layer edit = some record →
    edit < client.edits ∧ ∀ message ∈ record.queue, message < client.arrived
  kept : ∀ layer edit record, client.freezes layer edit = some record →
    edit ∈ client.tracker.unsent layer → client.tracker.isFrozen layer edit = true
  known : ∀ layer, ∀ edit ∈ client.tracker.unsent layer, edit < client.edits
  covered : ∀ layer edit, client.tracker.isFrozen layer edit = true →
    ∃ record, client.freezes layer edit = some record ∧ client.Covered record

theorem backlogged_initial (tracked : List LayerId) : Backlogged (initial tracked) where
  numbered := nofun
  recorded := nofun
  kept := nofun
  known := nofun
  covered := nofun

/-- A step that freezes nothing new and gets no message. -/
theorem Backlogged.advance {client next : HoldingClient} (holds : client.Backlogged)
    (settles : LayerTracker.Settles (fun _ _ => False) client.tracker next.tracker)
    (arrived : next.arrived = client.arrived) (edits : next.edits = client.edits)
    (freezes : next.freezes = client.freezes) (queue : next.queue ⊆ client.queue)
    (covered : ∀ record, client.Covered record → next.Covered record) : next.Backlogged where
  numbered message inside := by
    rw [arrived]
    exact holds.numbered message (queue inside)
  recorded := by
    rw [freezes, edits, arrived]
    exact holds.recorded
  kept layer edit record found unsent := by
    rw [freezes] at found
    have before : client.tracker.isFrozen layer edit = true :=
      holds.kept layer edit record found (settles.unsent layer unsent)
    exact settles.kept layer edit before unsent
  known layer edit unsent := by
    rw [edits]
    exact holds.known layer edit (settles.unsent layer unsent)
  covered layer edit frozen := by
    have before : client.tracker.isFrozen layer edit = true :=
      (settles.frozen layer edit frozen).resolve_right id
    obtain ⟨record, found, coveredBefore⟩ := holds.covered layer edit before
    exact ⟨record, by rw [freezes, found], covered record coveredBefore⟩

theorem Backlogged.arrive {client : HoldingClient} (holds : client.Backlogged) :
    Backlogged { client with
      queue := client.queue ++ [client.arrived]
      arrived := client.arrived + 1 } where
  numbered message inside := by
    rcases List.mem_append.1 inside with earlier | latest
    · exact Nat.lt_succ_of_lt (holds.numbered message earlier)
    · rw [List.mem_singleton.1 latest]
      exact Nat.lt_succ_self _
  recorded layer edit record found := by
    obtain ⟨old, earlier⟩ := holds.recorded layer edit record found
    exact ⟨old, fun message inside => Nat.lt_succ_of_lt (earlier message inside)⟩
  kept := holds.kept
  known := holds.known
  covered layer edit frozen := by
    obtain ⟨record, found, covered⟩ := holds.covered layer edit frozen
    refine ⟨record, found, ?_, covered.bound⟩
    intro message inside
    rw [List.drop_append] at inside
    rcases List.mem_append.1 inside with earlier | latest
    · exact covered.front message earlier
    · intro recorded
      have below : message < client.arrived :=
        (holds.recorded layer edit record found).2 message recorded
      exact absurd (List.mem_singleton.1 (List.mem_of_mem_drop latest)) (Nat.ne_of_lt below)

theorem Backlogged.edit {client : HoldingClient} (holds : client.Backlogged) (layer : LayerId) :
    Backlogged { client with
      tracker := client.tracker.edit layer client.edits
      edits := client.edits + 1 } where
  numbered := holds.numbered
  recorded other edit record found := by
    obtain ⟨old, earlier⟩ := holds.recorded other edit record found
    exact ⟨Nat.lt_succ_of_lt old, earlier⟩
  kept other edit record found unsent := by
    have old : edit < client.edits := (holds.recorded other edit record found).1
    apply holds.kept other edit record found
    by_cases same : other = layer
    · subst same
      simp only [LayerTracker.edit, Function.update_self] at unsent
      rcases List.mem_append.1 unsent with before | new
      · exact before
      · exact absurd (List.mem_singleton.1 new) (Nat.ne_of_lt old)
    · simp only [LayerTracker.edit, Function.update_of_ne same] at unsent
      exact unsent
  known other edit unsent := by
    by_cases same : other = layer
    · subst same
      simp only [LayerTracker.edit, Function.update_self] at unsent
      rcases List.mem_append.1 unsent with before | new
      · exact Nat.lt_succ_of_lt (holds.known other edit before)
      · rw [List.mem_singleton.1 new]
        exact Nat.lt_succ_self _
    · simp only [LayerTracker.edit, Function.update_of_ne same] at unsent
      exact Nat.lt_succ_of_lt (holds.known other edit unsent)
  covered other edit frozen := by
    obtain ⟨record, found, covered⟩ := holds.covered other edit frozen
    exact ⟨record, found, covered.front, covered.bound⟩

/-- The messages that were drained leave the front of the queue, and the hold is as much shorter. -/
theorem Covered.drain {client : HoldingClient} {record : FreezeRecord}
    (covered : client.Covered record) (frozen : client.phase = .frozen) (count : Nat) :
    Covered { client with
      queue := client.queue.drop count
      drained := client.drained + count
      phase := .drained count } record := by
  have held : client.remaining = client.hold.ahead := by
    rw [remaining, frozen]
  obtain ⟨front, bound⟩ := covered
  rw [held] at front bound
  refine ⟨?_, ?_⟩
  · intro message inside
    apply front
    simp only [remaining, List.drop_drop] at inside
    exact List.drop_subset_drop_left _ (by omega) inside
  · simp only [remaining]
    omega

/-- Counting the drained messages keeps the hold, unless the queue has become shorter. -/
theorem Covered.count {client : HoldingClient} {record : FreezeRecord} {count : Nat}
    (covered : client.Covered record) (drained : client.phase = .drained count) :
    Covered { client with
      hold := client.hold.drained count client.queue.length
      phase := .applied } record := by
  have held : client.remaining = client.hold.ahead - count := by
    rw [remaining, drained]
  obtain ⟨front, bound⟩ := covered
  rw [held] at front bound
  refine ⟨?_, ?_⟩
  · intro message inside
    simp only [remaining, BacklogHold.drained] at inside
    rcases Nat.le_total (client.hold.ahead - count) client.queue.length with inQueue | beyond
    · rw [Nat.min_eq_left inQueue] at inside
      exact front message inside
    · rw [Nat.min_eq_right beyond, List.drop_length] at inside
      cases inside
  · simp only [remaining, BacklogHold.drained]
    omega

/-- The end of an update, with nothing left to count. -/
theorem Covered.idle {client : HoldingClient} {record : FreezeRecord}
    (covered : client.Covered record) (counted : client.remaining = client.hold.ahead)
    (tracker : LayerTracker) : Covered { client with tracker, phase := .idle } record := by
  obtain ⟨front, bound⟩ := covered
  rw [counted] at front bound
  exact ⟨front, bound⟩

theorem Covered.requestReplay {client : HoldingClient} {record : FreezeRecord}
    (covered : client.Covered record) : Covered { client with queue := [] } record where
  front message inside := by
    rw [List.drop_nil] at inside
    cases inside
  bound := covered.bound

/-- A hold that has just been as long as the queue covers what is frozen now. -/
theorem covered_now (client : HoldingClient) (matched : client.queue.length = client.remaining) :
    client.Covered ⟨client.queue, client.drained⟩ where
  front message inside := by
    rw [← matched, List.drop_length] at inside
    cases inside
  bound := .inr (by rw [matched])

theorem freezes_prepare (client : HoldingClient) (tracked changed : List LayerId) (layer : LayerId)
    (edit : Nat) :
    (client.prepare tracked changed).freezes layer edit =
      (client.freezes layer edit).or
        (if (client.prepare tracked changed).tracker.isFrozen layer edit then
          some ⟨client.queue, client.drained⟩ else none) :=
  rfl

/-- The record of an edit after a preparation is the one it had, or the present queue's when the edit
has just been frozen. -/
theorem freezes_prepare_cases {client : HoldingClient} {tracked changed : List LayerId}
    {layer : LayerId} {edit : Nat} {record : FreezeRecord}
    (found : (client.prepare tracked changed).freezes layer edit = some record) :
    client.freezes layer edit = some record ∨
      (client.freezes layer edit = none ∧ record = ⟨client.queue, client.drained⟩ ∧
        (client.prepare tracked changed).tracker.isFrozen layer edit = true) := by
  rw [freezes_prepare] at found
  cases old : client.freezes layer edit with
  | some earlier =>
      rw [old] at found
      exact .inl found
  | none =>
      rw [old, Option.none_or] at found
      split_ifs at found with frozen
      cases found
      exact .inr ⟨rfl, rfl, frozen⟩

theorem Backlogged.prepare {client : HoldingClient} (holds : client.Backlogged)
    (idle : client.phase = .idle) (tracked changed : List LayerId)
    (matched : client.JoinsMatch (.prepare tracked changed)) :
    (client.prepare tracked changed).Backlogged := by
  have settles := client.tracker.settles_prepareLocalChanges tracked
    fun layer => decide (layer ∈ changed)
  have held : client.remaining = client.hold.ahead := by
    rw [remaining, idle]
  refine ⟨holds.numbered, ?_, ?_, ?_, ?_⟩
  · intro layer edit record found
    rcases freezes_prepare_cases found with old | ⟨-, rfl, frozen⟩
    · exact holds.recorded layer edit record old
    · refine ⟨?_, holds.numbered⟩
      rcases settles.frozen layer edit frozen with before | ⟨-, -, unsent⟩
      · obtain ⟨earlier, old, -⟩ := holds.covered layer edit before
        exact (holds.recorded layer edit earlier old).1
      · exact holds.known layer edit unsent
  · intro layer edit record found unsent
    rcases freezes_prepare_cases found with old | ⟨-, -, frozen⟩
    · have before : client.tracker.isFrozen layer edit = true :=
        holds.kept layer edit record old (settles.unsent layer unsent)
      exact settles.kept layer edit before unsent
    · exact frozen
  · intro layer edit unsent
    exact holds.known layer edit (settles.unsent layer unsent)
  · intro layer edit frozen
    have frozenAfter := LayerTracker.prepared_of_isFrozen frozen
    rw [freezes_prepare, if_pos frozen]
    cases old : client.freezes layer edit with
    | some record =>
        -- It was frozen before, so the hold is the old one.
        have before : client.tracker.isFrozen layer edit = true := by
          rcases settles.frozen layer edit frozen with before | ⟨-, -, unsent⟩
          · exact before
          · exact holds.kept layer edit record old unsent
        obtain ⟨other, found, covered⟩ := holds.covered layer edit before
        cases old.symm.trans found
        have hadBatch := LayerTracker.prepared_of_isFrozen before
        refine ⟨record, rfl, ?_⟩
        have same : (client.prepare tracked changed).remaining = client.remaining := by
          rw [held]
          simp [remaining, HoldingClient.prepare, hadBatch]
        refine ⟨?_, ?_⟩
        · rw [same]
          exact covered.front
        · rw [same]
          exact covered.bound
    | none =>
        refine ⟨_, rfl, ?_⟩
        have new : layer ∈ tracked ∧ decide (layer ∈ changed) = true ∧
            edit ∈ client.tracker.unsent layer := by
          rcases settles.frozen layer edit frozen with before | new
          · obtain ⟨record, found, -⟩ := holds.covered layer edit before
            cases old.symm.trans found
          · exact new
        have full : (client.prepare tracked changed).queue.length =
            (client.prepare tracked changed).remaining := by
          cases hadBatch : client.tracker.prepared.entries.isEmpty with
          | true => simp_all [remaining, HoldingClient.prepare, BacklogHold.freeze]
          | false =>
              have joined := matched hadBatch
                ⟨layer, new.1, of_decide_eq_true new.2.1, edit, new.2.2, old⟩
              simp [remaining, HoldingClient.prepare, hadBatch, joined]
        exact covered_now (client.prepare tracked changed) full

/-! ### Steps and runs -/

theorem step_backlogged (client : HoldingClient) (action : HoldingAction) (next : HoldingClient)
    (holds : client.Backlogged) (matched : client.JoinsMatch action)
    (stepped : client.step action = some next) : next.Backlogged := by
  cases action with
  | arrive =>
      cases stepped
      exact holds.arrive
  | requestReplay =>
      cases stepped
      exact holds.advance (.refl _) rfl rfl rfl (List.nil_subset _)
        (fun _ covered => covered.requestReplay)
  | edit layer =>
      simp only [step] at stepped
      split_ifs at stepped with possible
      cases stepped
      exact holds.edit layer
  | suppressedChange layer =>
      cases stepped
      exact holds.advance (LayerTracker.settles_suppressedChange _ layer) rfl rfl rfl
        (List.Subset.refl _) (fun _ covered => ⟨covered.front, covered.bound⟩)
  | syncGraph tracked =>
      cases stepped
      exact holds.advance (LayerTracker.settles_syncGraph _ tracked) rfl rfl rfl
        (List.Subset.refl _) (fun _ covered => ⟨covered.front, covered.bound⟩)
  | prepare tracked changed =>
      simp only [step] at stepped
      split_ifs at stepped with idle
      cases stepped
      exact holds.prepare idle tracked changed matched
  | drain maxMessages =>
      simp only [step] at stepped
      split_ifs at stepped with possible
      cases stepped
      exact holds.advance (.refl _) rfl rfl rfl (List.drop_subset _ _)
        (fun _ covered => covered.drain possible.1 _)
  | count =>
      cases phase : client.phase with
      | drained count =>
          simp only [step, phase] at stepped
          cases stepped
          exact holds.advance (.refl _) rfl rfl rfl (List.Subset.refl _)
            (fun _ covered => covered.count phase)
      | idle | frozen | applied =>
          simp only [step, phase] at stepped
          cases stepped
  | submit layers =>
      simp only [step] at stepped
      split_ifs at stepped with possible
      obtain ⟨tracker, sent, rfl⟩ := Option.map_eq_some_iff.1 stepped
      have counted : client.remaining = client.hold.ahead := by
        rw [remaining, possible.1]
      exact holds.advance (LayerTracker.settles_sendBatches sent) rfl rfl rfl
        (List.Subset.refl _) (fun _ covered => covered.idle counted tracker)
  | finish =>
      cases phase : client.phase with
      | frozen | applied =>
          simp only [step, phase] at stepped
          cases stepped
          have counted : client.remaining = client.hold.ahead := by
            rw [remaining, phase]
          exact holds.advance (.refl _) rfl rfl rfl (List.Subset.refl _)
            (fun _ covered => covered.idle counted client.tracker)
      | idle | drained _ =>
          simp only [step, phase] at stepped
          cases stepped

/-- What the invariant gives in each state. -/
theorem Backlogged.owed {client : HoldingClient} (holds : client.Backlogged) : client.Owed where
  waits layers layer edit next stepped _ frozen := by
    obtain ⟨record, found, covered⟩ := holds.covered layer edit frozen
    refine ⟨record, found, ?_⟩
    simp only [step] at stepped
    split_ifs at stepped with possible
    have nothing : client.remaining = 0 := by
      have free := possible.2
      simp only [BacklogHold.holding, decide_eq_false_iff_not] at free
      rw [remaining, possible.1]
      exact Nat.eq_zero_of_not_pos free
    have front := covered.front
    rw [nothing, List.drop_zero] at front
    exact front
  released layer edit record applied frozen found drained := by
    obtain ⟨other, recorded, covered⟩ := holds.covered layer edit frozen
    cases found.symm.trans recorded
    obtain ⟨batch, prepared, -⟩ := LayerTracker.isFrozen_iff.1 frozen
    have same : client.remaining = client.hold.ahead := by
      rw [remaining, applied]
    have nothing : client.hold.ahead = 0 := by
      have bound := covered.bound
      omega
    simp [step, applied, BacklogHold.holding, nothing, LayerTracker.sendBatches,
      LayerTracker.markPreparedSent, prepared]

/-- In every run in which edits join a prepared batch only when the hold is as long as the queue,
edits wait for the backlog before them and for nothing else. -/
theorem backlogLaw_of_matchingJoins (tracked : List LayerId) (actions : List HoldingAction)
    (meets : Machine.StepsMeet step JoinsMatch (initial tracked) actions) :
    BacklogLaw tracked actions := by
  rintro earlier later reached rfl ran
  have holds : reached.Backlogged :=
    Machine.run_preserves step_backlogged earlier _ _ (backlogged_initial tracked) meets.first ran
  exact holds.owed

/-- Two edits of different layers are frozen behind one message and sent after it was applied. -/
theorem backlogLaw_twoLayers :
    BacklogLaw ["a", "b"] [.edit "a", .edit "b", .arrive, .prepare ["a", "b"] ["a", "b"],
      .drain (some 1), .arrive, .count, .submit ["a", "b"]] :=
  backlogLaw_of_matchingJoins _ _ (by decide)

/-- An edit joins a batch that waits for one message, while six are queued: it is sent with five of
them unread. -/
theorem not_backlogLaw_laterJoin :
    ¬ BacklogLaw ["a", "b"] [.edit "a", .arrive, .arrive, .prepare ["a", "b"] ["a"],
      .drain (some 1), .count, .finish, .arrive, .arrive, .arrive, .arrive, .arrive, .edit "b",
      .prepare ["a", "b"] ["a", "b"], .drain (some 1), .count] := by
  intro law
  obtain ⟨waits, -⟩ := law _ [] _ (List.append_nil _).symm rfl
  obtain ⟨record, found, apart⟩ := waits ["a", "b"] "b" 1 _ rfl (by decide) (by decide)
  cases found
  exact apart 2 (by decide) (by decide)

end HoldingClient

end UsdConnect
