/-
Purpose: Every recorded mutation is delivered in order or covered by a later marker of its layer, as
  long as nothing is recorded while a batch is lent.
Trusted boundary: none
Main exports: DelegateTracker.Delivers, DelegateTracker.delivers_of_recordsWhileIdle
-/
import UsdConnect.Native.DelegateTracker
import UsdConnect.Lib.Machine

namespace UsdConnect.DelegateTracker

/-! ### Receiving a queue -/

/-- The mutations of one layer among some records. -/
def ofLayer (records : List DelegateRecord) (layerId : String) : List DelegateRecord :=
  records.filter fun record => record.layerId = layerId

theorem receiveAll_mutations {records : List DelegateRecord}
    (mutations : ∀ record ∈ records, record.isMarker = false) :
    receiveAll (ofLayer records) records = some fun _ => [] := by
  induction records with
  | nil => rfl
  | cons record rest ih =>
      have next : receive (ofLayer (record :: rest)) record = some (ofLayer rest) := by
        unfold receive
        rw [mutations record List.mem_cons_self]
        have own : ofLayer (record :: rest) record.layerId =
            record :: ofLayer rest record.layerId := by
          simp [ofLayer]
        rw [own]
        simp only [Bool.false_eq_true, if_false, if_true]
        congr 1
        funext layerId
        split
        · next same => rw [same]
        · next away => simp [ofLayer, Ne.symm away]
      unfold receiveAll
      rw [List.foldlM_cons, next]
      exact ih fun other member => mutations other (List.mem_cons_of_mem record member)

/-- Markers settle their layers, whatever was owed. -/
theorem receiveAll_markers (layers : List String) {owed : String → List DelegateRecord}
    (others : ∀ layerId, layerId ∉ layers → owed layerId = []) :
    receiveAll owed (layers.map .marker) = some fun _ => [] := by
  induction layers generalizing owed with
  | nil =>
      change some owed = _
      congr 1
      funext layerId
      exact others layerId List.not_mem_nil
  | cons layer rest ih =>
      have settled : receive owed (.marker layer) =
          some fun layerId => if layerId = layer then [] else owed layerId := by
        unfold receive
        rw [DelegateRecord.marker_isMarker]
        rfl
      unfold receiveAll
      rw [List.map_cons, List.foldlM_cons, settled]
      apply ih
      intro layerId outside
      split
      · rfl
      · next away =>
          apply others
          intro member
          rcases List.mem_cons.1 member with same | later
          · exact away same
          · exact outside later

/-! ### The invariant -/

/-- Records the bridge has not read yet. -/
def undelivered (tracker : DelegateTracker) : List DelegateRecord :=
  if tracker.lent.isSome then tracker.batches.tail.flatMap (·.items) else tracker.queued

/-- The bytes are counted exactly, everything received so far came in order, and the records that
wait settle everything that is owed. -/
structure Delivers (tracker : DelegateTracker) : Prop where
  counted : tracker.queuedBytes = totalBytes tracker.queued
  settles : ∃ owed, tracker.owed = some owed ∧
    receiveAll owed tracker.undelivered = some fun _ => []

theorem Delivers.nothing_owed {tracker : DelegateTracker} (delivers : tracker.Delivers)
    (drained : tracker.undelivered = []) : tracker.owed = some fun _ => [] := by
  obtain ⟨owed, current, received⟩ := delivers.settles
  rw [drained] at received
  rw [current]
  exact received

/-- What the queue holds: mutations as they are owed, or the markers of the overflowed layers. -/
inductive Holds (tracker : DelegateTracker) : Prop where
  | mutations (below : tracker.overflowLayers = [])
      (plain : ∀ record ∈ tracker.queued, record.isMarker = false)
      (owed : tracker.owed = some (ofLayer tracker.queued))
  | markers (above : tracker.overflowLayers ≠ [])
      (marked : tracker.queued = tracker.overflowLayers.map .marker)
      (owed : ∃ owed, tracker.owed = some owed ∧
        ∀ layerId, layerId ∉ tracker.overflowLayers → owed layerId = [])

/-- The queue is one batch at most, its bytes are counted, and it holds what is owed unless the
bridge is reading it. -/
structure Sound (tracker : DelegateTracker) : Prop where
  single : tracker.batches.length ≤ 1
  counted : tracker.queuedBytes = totalBytes tracker.queued
  idle : tracker.lent = none → tracker.Holds
  lent : tracker.lent ≠ none → tracker.batches ≠ [] ∧ tracker.owed = some fun _ => []

theorem Holds.settles {tracker : DelegateTracker} (holds : tracker.Holds) :
    ∃ owed, tracker.owed = some owed ∧ receiveAll owed tracker.queued = some fun _ => [] := by
  cases holds with
  | mutations below plain owed => exact ⟨_, owed, receiveAll_mutations plain⟩
  | markers above marked owed =>
      obtain ⟨current, here, others⟩ := owed
      refine ⟨current, here, ?_⟩
      rw [marked]
      exact receiveAll_markers _ others

theorem Sound.delivers {tracker : DelegateTracker} (sound : tracker.Sound) : tracker.Delivers := by
  constructor
  · exact sound.counted
  · unfold undelivered
    split
    · next reading =>
        have empty : tracker.batches.tail = [] := by
          apply List.eq_nil_of_length_eq_zero
          have single := sound.single
          rw [List.length_tail]
          omega
        rw [empty]
        refine ⟨_, (sound.lent ?_).2, rfl⟩
        intro none
        rw [none] at reading
        cases reading
    · next free =>
        have none : tracker.lent = none := by
          simpa using free
        exact (sound.idle none).settles

/-! ### Recording -/

@[simp] theorem totalBytes_append (first second : List DelegateRecord) :
    totalBytes (first ++ second) = totalBytes first + totalBytes second := by
  simp [totalBytes]

/-- A record is appended to the queue, which stays one batch. -/
theorem pushBack_queued {tracker : DelegateTracker} (single : tracker.batches.length ≤ 1)
    (record : DelegateRecord) :
    (tracker.pushBack record).queued = tracker.queued ++ [record] ∧
      (tracker.pushBack record).batches.length = 1 := by
  unfold pushBack queued
  rcases batches : tracker.batches with _ | ⟨batch, rest⟩
  · simp [DelegateBatch.push]
  · rw [batches] at single
    have alone : rest = [] := by
      apply List.eq_nil_of_length_eq_zero
      simpa using single
    subst alone
    simp [DelegateBatch.push]

/-- A queue of one batch whose bytes are counted. -/
structure Counted (tracker : DelegateTracker) : Prop where
  single : tracker.batches.length ≤ 1
  counted : tracker.queuedBytes = totalBytes tracker.queued

theorem Counted.pushBack {tracker : DelegateTracker} (before : tracker.Counted)
    (record : DelegateRecord) : (tracker.pushBack record).Counted := by
  obtain ⟨appended, single⟩ := pushBack_queued before.single record
  constructor
  · exact Nat.le_of_eq single
  · rw [appended, totalBytes_append]
    change tracker.queuedBytes + record.bytes = _
    rw [before.counted]
    simp [totalBytes]

/-- A marker is queued for a layer that has none yet. -/
theorem addOverflowMarker_spec {tracker : DelegateTracker} (before : tracker.Counted)
    (marked : tracker.queued = tracker.overflowLayers.map .marker) (layerId : String) :
    let after := tracker.addOverflowMarker layerId
    after.Counted ∧ after.queued = after.overflowLayers.map .marker ∧
      (∀ other, other ∈ after.overflowLayers ↔
        other ∈ tracker.overflowLayers ∨ other = layerId) ∧
      after.lent = tracker.lent ∧ after.owed = tracker.owed := by
  unfold addOverflowMarker
  split
  · next present =>
      refine ⟨before, marked, fun other => ?_, rfl, rfl⟩
      constructor
      · exact Or.inl
      · rintro (member | same)
        · exact member
        · exact same ▸ present
  · have grown : ({ tracker with overflowLayers := tracker.overflowLayers ++ [layerId] } :
        DelegateTracker).Counted := ⟨before.single, before.counted⟩
    refine ⟨grown.pushBack _, ?_, fun other => ?_, rfl, rfl⟩
    · rw [(pushBack_queued grown.single _).1]
      change tracker.queued ++ [_] = (tracker.overflowLayers ++ [layerId]).map _
      rw [marked, List.map_append]
      rfl
    · exact List.mem_append.trans (or_congr_right List.mem_singleton)

theorem addOverflowMarkers_spec (layers : List String) {tracker : DelegateTracker}
    (before : tracker.Counted) (marked : tracker.queued = tracker.overflowLayers.map .marker) :
    let after := layers.foldl addOverflowMarker tracker
    after.Counted ∧ after.queued = after.overflowLayers.map .marker ∧
      (∀ other, other ∈ after.overflowLayers ↔
        other ∈ tracker.overflowLayers ∨ other ∈ layers) ∧
      after.lent = tracker.lent ∧ after.owed = tracker.owed := by
  induction layers generalizing tracker with
  | nil => exact ⟨before, marked, fun other => by simp, rfl, rfl⟩
  | cons layer rest ih =>
      obtain ⟨counted, queued, layers, lent, owed⟩ := addOverflowMarker_spec before marked layer
      obtain ⟨counted', queued', layers', lent', owed'⟩ := ih counted queued
      refine ⟨counted', queued', fun other => ?_, lent'.trans lent, owed'.trans owed⟩
      rw [List.foldl_cons, layers', layers, List.mem_cons, or_assoc]

theorem Holds.owed_queued {tracker : DelegateTracker} (holds : tracker.Holds)
    {owed : String → List DelegateRecord} (current : tracker.owed = some owed) {layerId : String}
    (away : layerId ∉ tracker.queued.map (·.layerId)) : owed layerId = [] := by
  cases holds with
  | mutations below plain known =>
      cases known.symm.trans current
      apply List.filter_eq_nil_iff.2
      intro record member same
      exact away (List.mem_map.2 ⟨record, member, of_decide_eq_true same⟩)
  | markers above marked known =>
      obtain ⟨other, here, others⟩ := known
      cases here.symm.trans current
      apply others
      intro member
      apply away
      rw [marked, List.map_map]
      exact List.mem_map.2 ⟨layerId, member, rfl⟩

/-- Recording a mutation into a queue that nobody reads. -/
theorem Sound.mutate {tracker : DelegateTracker} (sound : tracker.Sound)
    (free : tracker.lent = none) (mutation : DelegateMutation) :
    (tracker.mutate mutation).Sound := by
  unfold DelegateTracker.mutate
  split
  · exact sound
  have holds := sound.idle free
  have before : tracker.Counted := ⟨sound.single, sound.counted⟩
  obtain ⟨owed, current, _⟩ := holds.settles
  unfold enqueue
  by_cases above : tracker.overflowLayers ≠ []
  · -- an overflowed queue only gains a marker
    rw [if_pos above]
    cases holds with
    | mutations below => exact absurd below above
    | markers _ marked known =>
        obtain ⟨other, here, others⟩ := known
        cases here.symm.trans current
        obtain ⟨counted, queued, layers, lent, _⟩ :=
          addOverflowMarker_spec before marked mutation.record.layerId
        refine ⟨counted.single, counted.counted, fun _ => .markers ?_ queued ?_, ?_⟩
        · intro empty
          have member := (layers mutation.record.layerId).2 (Or.inr rfl)
          rw [empty] at member
          exact List.not_mem_nil member
        · refine ⟨_, congrArg (Option.map _) current, fun layerId outside => ?_⟩
          have away := fun member => outside ((layers layerId).2 member)
          change (if layerId = mutation.record.layerId then _ else owed layerId) = []
          rw [if_neg fun same => away (Or.inr same)]
          exact others layerId fun member => away (Or.inl member)
        · intro reading
          exact absurd (lent.trans free) reading
  rw [if_neg above]
  have below : tracker.overflowLayers = [] := not_not.1 above
  split
  · -- the queue is replaced by markers of every layer that had a record
    have empty : ({ tracker with
        batches := []
        queuedBytes := 0
        overflowLayers := []
        coalesced := tracker.coalesced + 1 } : DelegateTracker).Counted :=
      ⟨Nat.zero_le _, rfl⟩
    obtain ⟨counted, queued, layers, lent, _⟩ := addOverflowMarkers_spec
      ((tracker.queued.map (·.layerId) ++ [mutation.record.layerId]).dedup.insertionSort (· ≤ ·))
      empty rfl
    have listed : ∀ layerId, layerId ∈ (tracker.overflow mutation.record).overflowLayers ↔
        layerId ∈ tracker.queued.map (·.layerId) ∨ layerId = mutation.record.layerId := by
      intro layerId
      unfold overflow
      rw [layers, (List.perm_insertionSort _ _).mem_iff, List.mem_dedup, List.mem_append,
        List.mem_singleton]
      exact or_iff_right List.not_mem_nil
    refine ⟨counted.single, counted.counted, fun _ => .markers ?_ queued ?_, ?_⟩
    · intro none
      have member := (listed mutation.record.layerId).2 (Or.inr rfl)
      change (tracker.overflow mutation.record).overflowLayers = [] at none
      rw [none] at member
      exact List.not_mem_nil member
    · refine ⟨_, congrArg (Option.map _) current, fun layerId outside => ?_⟩
      have away := fun member => outside ((listed layerId).2 member)
      change (if layerId = mutation.record.layerId then _ else owed layerId) = []
      rw [if_neg fun same => away (Or.inr same)]
      exact holds.owed_queued current fun member => away (Or.inl member)
    · intro reading
      exact absurd (lent.trans free) reading
  · -- the record joins the mutations
    cases holds with
    | markers above' => exact absurd below above'
    | mutations _ plain known =>
        have counted := before.pushBack mutation.record
        have appended := (pushBack_queued before.single mutation.record).1
        refine ⟨counted.single, counted.counted, fun _ => .mutations below ?_ ?_, ?_⟩
        · intro record member
          change record ∈ (tracker.pushBack mutation.record).queued at member
          rw [appended] at member
          rcases List.mem_append.1 member with old | new
          · exact plain record old
          · rw [List.mem_singleton.1 new]
            exact mutation.authored
        · change tracker.owed.map _ = some (ofLayer (tracker.pushBack mutation.record).queued)
          rw [known, appended, Option.map_some]
          congr 1
          funext layerId
          unfold owe ofLayer
          rw [List.filter_append]
          by_cases same : layerId = mutation.record.layerId
          · simp [same]
          · simp [same, Ne.symm same]
        · intro reading
          exact absurd free reading

/-! ### Runs -/

/-- A step that records something does so while no batch is lent. -/
def RecordsWhileIdle (tracker : DelegateTracker) : DelegateAction → Prop
  | .mutate _ => tracker.suppressed = true ∨ tracker.lent = none
  | _ => True

theorem queued_of_front {tracker : DelegateTracker} {front : DelegateBatch}
    {rest : List DelegateBatch} (single : tracker.batches.length ≤ 1)
    (batches : tracker.batches = front :: rest) : rest = [] ∧ tracker.queued = front.items := by
  rw [batches] at single
  have alone : rest = [] := by
    apply List.eq_nil_of_length_eq_zero
    simpa using single
  unfold queued
  rw [batches, alone]
  simp

/-- The bridge reads everything that is owed. -/
theorem Sound.acquire {tracker : DelegateTracker} (sound : tracker.Sound)
    (free : tracker.lent = none) : tracker.acquire.Sound := by
  unfold DelegateTracker.acquire
  split
  · exact sound
  · next front rest batches =>
      have whole := (queued_of_front sound.single batches).2
      obtain ⟨owed, current, received⟩ := (sound.idle free).settles
      rw [whole] at received
      constructor
      · exact sound.single
      · exact sound.counted
      · intro none
        cases none
      · intro _
        constructor
        · intro empty
          exact absurd (batches.symm.trans empty) (List.cons_ne_nil front rest)
        · change tracker.owed.bind _ = _
          rw [current]
          exact received

/-- Nothing is left of a batch that the bridge has read. -/
theorem Sound.release {tracker : DelegateTracker} (sound : tracker.Sound)
    (reading : tracker.lent ≠ none) : tracker.release.Sound := by
  obtain ⟨filled, settled⟩ := sound.lent reading
  unfold DelegateTracker.release
  split
  · next empty => exact absurd empty filled
  · next front rest batches =>
      obtain ⟨alone, whole⟩ := queued_of_front sound.single batches
      subst alone
      constructor
      · exact Nat.zero_le _
      · change tracker.queuedBytes - front.byteSize = 0
        rw [sound.counted, whole, front.counted]
        exact Nat.sub_self _
      · intro _
        apply Holds.mutations
        · rfl
        · intro record member
          cases member
        · exact settled
      · intro lent
        exact absurd rfl lent

theorem Sound.step {tracker next : DelegateTracker} {action : DelegateAction}
    (sound : tracker.Sound) (idle : tracker.RecordsWhileIdle action)
    (stepped : tracker.step action = some next) : next.Sound := by
  cases action with
  | setSuppressed suppressed =>
      cases stepped
      constructor
      · exact sound.single
      · exact sound.counted
      · intro free
        cases sound.idle free with
        | mutations below plain owed => exact .mutations below plain owed
        | markers above marked owed => exact .markers above marked owed
      · exact sound.lent
  | mutate mutation =>
      cases stepped
      rcases idle with suppressed | free
      · unfold DelegateTracker.mutate
        rw [if_pos suppressed]
        exact sound
      · exact sound.mutate free mutation
  | acquire =>
      obtain ⟨free, same⟩ := Option.ite_none_right_eq_some.1 stepped
      cases same
      exact sound.acquire (Option.isNone_iff_eq_none.1 free)
  | release =>
      obtain ⟨reading, same⟩ := Option.ite_none_right_eq_some.1 stepped
      cases same
      exact sound.release (Option.isSome_iff_ne_none.1 reading)

theorem sound_create (maxBytes : Nat) : Sound { maxBytes := maxBytes } where
  single := Nat.zero_le _
  counted := rfl
  idle := fun _ => .mutations rfl (fun _ member => nomatch member) rfl
  lent := fun lent => absurd rfl lent

/-- In every run that records nothing while a batch is lent, no mutation is lost or reordered and
the bytes are counted exactly, in every state that is reached. -/
theorem delivers_of_recordsWhileIdle (maxBytes : Nat) (actions : List DelegateAction)
    (final : DelegateTracker)
    (meets : Machine.StepsMeet step RecordsWhileIdle { maxBytes := maxBytes } actions)
    (ran : Machine.run step { maxBytes := maxBytes } actions = some final) : final.Delivers :=
  (Machine.run_preserves (fun _ _ _ sound idle stepped => Sound.step sound idle stepped) actions _
    final (sound_create maxBytes) meets ran).delivers

/-! ### A mutation recorded while the front batch is lent -/

/-- `/A` is activated in a layer. -/
def sampleMutation (layerId : String) : DelegateMutation where
  record := { layerId := layerId, path := "/A", field := "active", newJson := "true" }
  authored := rfl

/-- A mutation that is drained before the next one. -/
theorem delivers_of_recordsWhileIdle_drained :
    (({ maxBytes := 100 } : DelegateTracker).mutate (sampleMutation "a.usda")).acquire.release.Delivers :=
  delivers_of_recordsWhileIdle 100 [.mutate (sampleMutation "a.usda"), .acquire, .release] _
    ⟨Or.inr rfl, fun next stepped => by
      cases stepped
      exact ⟨trivial, fun next stepped => by
        cases stepped
        exact ⟨trivial, fun _ _ => trivial⟩⟩⟩ rfl

/-- A record appended to the lent batch is popped unread, and the drained queue still owes it. -/
theorem not_delivers_lent :
    ∃ final,
      Machine.run step { maxBytes := 0 }
        [.mutate (sampleMutation "a.usda"), .acquire, .mutate (sampleMutation "b.usda"),
          .release] = some final ∧ final.queued = [] ∧
        (∃ owed, final.owed = some owed ∧ owed "b.usda" = [(sampleMutation "b.usda").record]) ∧
        ¬ final.Delivers := by
  refine ⟨_, rfl, rfl, ⟨_, rfl, by decide +kernel⟩, ?_⟩
  intro delivers
  have settled := congrArg (Option.map fun owed => owed "b.usda") (delivers.nothing_owed rfl)
  revert settled
  decide +kernel

end UsdConnect.DelegateTracker
