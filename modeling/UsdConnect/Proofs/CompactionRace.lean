/-
Purpose: A compaction rewrites the log to the compaction of the whole current history, as long as no
  row below the captured maximum still waits in the queue.
Trusted boundary: none
Main exports: HistoryState.CapturesPrefix, HistoryState.CompactsHistory
-/
import UsdConnect.Proofs.History

namespace UsdConnect

variable {Record : Type}

namespace LogReduction

/-- Rows added after a capture extend the compaction of the captured rows. -/
theorem addRows_buildCompacted (reduction : LogReduction Record)
    (rows later : List (Nat × Record)) :
    reduction.addRows (reduction.buildCompacted rows) later =
      reduction.buildCompacted (rows ++ later) := by
  unfold buildCompacted addRows
  rw [List.foldl_append]

end LogReduction

namespace HistoryState

/-! ### The property -/

/-- Finishing any compaction that is under way rewrites the log to the compaction of the complete
current history, or leaves the log alone when the history it captured has been replaced. -/
structure CompactsHistory (durability : Durability) (reduction : LogReduction Record)
    (state : HistoryState Record) : Prop where
  rewritten : ∀ index graph captured next, state.captures[index]? = some captured →
    captured.replayEpoch = state.replayEpoch →
    state.step? durability reduction (.compact index graph) = some next →
      next.journal.store.events = compactedRows graph
        (reduction.replayRecords (reduction.buildCompacted state.currentHistory))
  skipped : ∀ index graph captured next, state.captures[index]? = some captured →
    captured.replayEpoch ≠ state.replayEpoch →
    state.step? durability reduction (.compact index graph) = some next →
      next.journal = state.journal

/-- When rows are captured, the queue holds no row below the largest stored one. -/
def CapturesPrefix (state : HistoryState Record) : HistoryAction Record → Prop
  | .capture => ∀ row ∈ state.queue.flatten, state.journal.store.getMaxSeq < row.1
  | _ => True

/-! ### What a capture stays good for -/

/-- The captured maximum. -/
def capturedMax (captured : CompactionCapture Record) : Nat :=
  (captured.rows.getLast?.map (·.1)).getD 0

/-- Sequence numbers from here on are not yet stored or queued. -/
def reservedFrom (state : HistoryState Record) : Nat :=
  match state.commit with
  | none => state.journal.nextSeq
  | some commit => commit.firstSequence

/-- The captured rows are those stored up to the captured maximum, and every row that may still
be stored lies above it. -/
structure CaptureCurrent (state : HistoryState Record) (captured : CompactionCapture Record) :
    Prop where
  rows : captured.rows =
    EventStore.sortRows (state.journal.store.events.filter fun row =>
      row.1 ≤ capturedMax captured)
  queued : ∀ row ∈ state.queue.flatten, capturedMax captured < row.1
  reserved : capturedMax captured < state.reservedFrom

/-- The invariant of every run: stored numbers are distinct, the commit in progress numbers its
rows above everything stored or queued, and the captures of this history are current. -/
structure CapturesSound (state : HistoryState Record) : Prop where
  distinct : (state.journal.store.events.map (·.1)).Nodup
  below : ∀ row ∈ state.journal.store.events ++ state.queue.flatten, row.1 < state.reservedFrom
  commit : ∀ commit, state.commit = some commit →
    commit.firstSequence ≤ state.journal.nextSeq ∧
      ∀ row ∈ commit.rows, commit.firstSequence ≤ row.1 ∧ row.1 < state.journal.nextSeq
  captures : ∀ captured ∈ state.captures, captured.replayEpoch ≤ state.replayEpoch ∧
    (captured.replayEpoch = state.replayEpoch → state.CaptureCurrent captured)

/-- Storing rows above the captured maximum leaves the captured part of the table alone. -/
theorem CaptureCurrent.rows_append {state : HistoryState Record}
    {captured : CompactionCapture Record} (current : state.CaptureCurrent captured)
    {rows : List (Nat × Record)} (above : ∀ row ∈ rows, capturedMax captured < row.1) :
    captured.rows =
      EventStore.sortRows ((state.journal.store.events ++ rows).filter fun row =>
        row.1 ≤ capturedMax captured) := by
  have none : (rows.filter fun row => decide (row.1 ≤ capturedMax captured)) = [] := by
    apply List.filter_eq_nil_iff.2
    intro row present
    have := above row present
    simp only [decide_eq_true_eq]
    omega
  rw [List.filter_append, none, List.append_nil]
  exact current.rows

/-- Only the table, the queue and the first unreserved number matter to a capture. -/
theorem CaptureCurrent.of_le {state next : HistoryState Record}
    {captured : CompactionCapture Record} (current : state.CaptureCurrent captured)
    (events : next.journal.store.events = state.journal.store.events)
    (queue : ∀ row ∈ next.queue.flatten, row ∈ state.queue.flatten)
    (reserved : state.reservedFrom ≤ next.reservedFrom) : next.CaptureCurrent captured where
  rows := by
    rw [events]
    exact current.rows
  queued := fun row present => current.queued row (queue row present)
  reserved := Nat.lt_of_lt_of_le current.reserved reserved

/-! ### Steps -/

section Steps

variable {state : HistoryState Record}

/-- A step that touches neither the table nor the queue keeps the invariant when the unreserved
numbers only move up. -/
theorem CapturesSound.of_le (sound : state.CapturesSound) {next : HistoryState Record}
    (events : next.journal.store.events = state.journal.store.events)
    (queue : ∀ row ∈ next.queue.flatten, row ∈ state.queue.flatten)
    (reserved : state.reservedFrom ≤ next.reservedFrom)
    (commit : ∀ commit, next.commit = some commit →
      commit.firstSequence ≤ next.journal.nextSeq ∧
        ∀ row ∈ commit.rows, commit.firstSequence ≤ row.1 ∧ row.1 < next.journal.nextSeq)
    (captures : next.captures = state.captures) (epoch : next.replayEpoch = state.replayEpoch) :
    next.CapturesSound where
  distinct := by
    rw [events]
    exact sound.distinct
  below := by
    intro row present
    rw [events] at present
    have old : row ∈ state.journal.store.events ++ state.queue.flatten := by
      rcases List.mem_append.1 present with stored | waiting
      · exact List.mem_append_left _ stored
      · exact List.mem_append_right _ (queue row waiting)
    exact Nat.lt_of_lt_of_le (sound.below row old) reserved
  commit := commit
  captures := by
    intro captured present
    rw [captures] at present
    rw [epoch]
    obtain ⟨older, current⟩ := sound.captures captured present
    exact ⟨older, fun same => (current same).of_le events queue reserved⟩

theorem CapturesSound.reservedFrom_le (sound : state.CapturesSound) :
    state.reservedFrom ≤ state.journal.nextSeq := by
  unfold reservedFrom
  split
  · exact Nat.le_refl _
  · next commit current => exact (sound.commit commit current).1

theorem CapturesSound.begin (sound : state.CapturesSound) (idle : state.commit = none)
    (kind : CommitKind) (durableMetadata : Bool) :
    (state.begin kind durableMetadata).CapturesSound := by
  have reserved : state.reservedFrom = (state.begin kind durableMetadata).reservedFrom := by
    simp only [reservedFrom, idle, HistoryState.begin]
  refine sound.of_le rfl (fun row present => present) (Nat.le_of_eq reserved) ?_ rfl rfl
  intro commit held
  cases held
  exact ⟨Nat.le_refl _, fun row present => nomatch present⟩

theorem CapturesSound.encode (sound : state.CapturesSound) {commit : CommitInProgress Record}
    (current : state.commit = some commit) (record : Record) :
    (state.encode commit record).CapturesSound := by
  have reserved : state.reservedFrom = (state.encode commit record).reservedFrom := by
    simp only [reservedFrom, current, HistoryState.encode]
  refine sound.of_le rfl (fun row present => present) (Nat.le_of_eq reserved) ?_ rfl rfl
  intro other held
  cases held
  obtain ⟨first, rows⟩ := sound.commit commit current
  have next : (state.encode commit record).journal.nextSeq = state.journal.nextSeq + 1 := rfl
  rw [next]
  refine ⟨Nat.le_succ_of_le first, ?_⟩
  intro row present
  rcases List.mem_append.1 present with old | added
  · exact ⟨(rows row old).1, Nat.lt_succ_of_lt (rows row old).2⟩
  · rw [List.mem_singleton.1 added]
    exact ⟨first, Nat.lt_succ_self _⟩

/-- An exception moves the unreserved numbers to the first reservation, or past all of them. -/
theorem CapturesSound.raise (sound : state.CapturesSound) {commit : CommitInProgress Record}
    (current : state.commit = some commit) : (state.raise commit).CapturesSound := by
  have first : state.reservedFrom = commit.firstSequence := by
    simp only [reservedFrom, current]
  have reserved : state.reservedFrom ≤ (state.raise commit).reservedFrom := by
    unfold HistoryState.raise
    split
    · exact Nat.le_of_eq first
    · exact first.trans_le (sound.commit commit current).1
  have events : (state.raise commit).journal.store.events = state.journal.store.events := by
    unfold HistoryState.raise
    split <;> rfl
  exact sound.of_le events (fun row present => present) reserved (fun other held => nomatch held)
    rfl rfl

/-- Reserving a number that nothing is written under only moves the next one. -/
theorem CapturesSound.assignSeq (sound : state.CapturesSound) {commit : CommitInProgress Record}
    (current : state.commit = some commit) :
    HistoryState.CapturesSound { state with journal := (state.journal.assignSeq).2 } := by
  have reserved : state.reservedFrom =
      HistoryState.reservedFrom { state with journal := (state.journal.assignSeq).2 } := by
    simp only [reservedFrom, current]
  refine sound.of_le rfl (fun row present => present) (Nat.le_of_eq reserved) ?_ rfl rfl
  intro other held
  obtain ⟨first, rows⟩ := sound.commit other held
  refine ⟨Nat.le_succ_of_le first, ?_⟩
  intro row present
  exact ⟨(rows row present).1, Nat.lt_succ_of_lt (rows row present).2⟩

theorem CapturesSound.commit_above (sound : state.CapturesSound)
    {commit : CommitInProgress Record} (current : state.commit = some commit)
    {captured : CompactionCapture Record} (held : state.CaptureCurrent captured) :
    ∀ row ∈ commit.rows, capturedMax captured < row.1 := by
  intro row present
  have first : state.reservedFrom = commit.firstSequence := by
    simp only [reservedFrom, current]
  have low := held.reserved
  have high := ((sound.commit commit current).2 row present).1
  omega

theorem CapturesSound.enqueue (sound : state.CapturesSound) {commit : CommitInProgress Record}
    (current : state.commit = some commit) :
    HistoryState.CapturesSound
      { state with
        commit := none
        reported := state.reported ++ commit.rows
        queue := state.queue ++ [commit.rows] } where
  distinct := sound.distinct
  below := by
    intro row present
    simp only [List.flatten_append, List.flatten_cons, List.flatten_nil, List.append_nil,
      ← List.append_assoc] at present
    rcases List.mem_append.1 present with old | added
    · exact Nat.lt_of_lt_of_le (sound.below row old) sound.reservedFrom_le
    · exact ((sound.commit commit current).2 row added).2
  commit := fun other held => nomatch held
  captures := by
    intro captured present
    obtain ⟨older, held⟩ := sound.captures captured present
    refine ⟨older, fun same => ?_⟩
    refine ⟨(held same).rows, ?_, Nat.lt_of_lt_of_le (held same).reserved sound.reservedFrom_le⟩
    intro row waiting
    simp only [List.flatten_append, List.flatten_cons, List.flatten_nil, List.append_nil]
      at waiting
    rcases List.mem_append.1 waiting with old | added
    · exact (held same).queued row old
    · exact sound.commit_above current (held same) row added

theorem distinct_of_admits {store : EventStore Record} {rows : List (Nat × Record)}
    (admitted : store.admits rows = true) : ((store.events ++ rows).map (·.1)).Nodup := by
  unfold EventStore.admits at admitted
  exact of_decide_eq_true admitted

theorem CapturesSound.append (sound : state.CapturesSound) {commit : CommitInProgress Record}
    (current : state.commit = some commit)
    (admitted : state.journal.store.admits commit.rows = true) :
    HistoryState.CapturesSound
      { state with
        commit := none
        reported := state.reported ++ commit.rows
        journal := state.journal.appendBatch commit.rows [] } where
  distinct := distinct_of_admits admitted
  below := by
    intro row present
    rcases List.mem_append.1 present with stored | waiting
    · rcases List.mem_append.1 stored with old | added
      · exact Nat.lt_of_lt_of_le (sound.below row (List.mem_append_left _ old))
          sound.reservedFrom_le
      · exact ((sound.commit commit current).2 row added).2
    · exact Nat.lt_of_lt_of_le (sound.below row (List.mem_append_right _ waiting))
        sound.reservedFrom_le
  commit := fun other held => nomatch held
  captures := by
    intro captured present
    obtain ⟨older, held⟩ := sound.captures captured present
    refine ⟨older, fun same => ?_⟩
    exact ⟨(held same).rows_append (sound.commit_above current (held same)), (held same).queued,
      Nat.lt_of_lt_of_le (held same).reserved sound.reservedFrom_le⟩

theorem CapturesSound.persist (sound : state.CapturesSound) {rows : List (Nat × Record)}
    {rest : List (List (Nat × Record))} (waiting : state.queue = rows :: rest)
    (admitted : state.journal.store.admits rows = true) :
    (state.persist rows rest).CapturesSound where
  distinct := distinct_of_admits admitted
  below := by
    intro row present
    have old : row ∈ state.journal.store.events ++ state.queue.flatten := by
      rw [waiting, List.flatten_cons, ← List.append_assoc]
      exact present
    exact sound.below row old
  commit := sound.commit
  captures := by
    intro captured present
    obtain ⟨older, held⟩ := sound.captures captured present
    refine ⟨older, fun same => ?_⟩
    have queued := (held same).queued
    rw [waiting, List.flatten_cons] at queued
    refine ⟨(held same).rows_append fun row inRows => ?_, fun row inRest => ?_,
      (held same).reserved⟩
    · exact queued row (List.mem_append_left _ inRows)
    · exact queued row (List.mem_append_right _ inRest)

theorem CapturesSound.persistFail (sound : state.CapturesSound) {rows : List (Nat × Record)}
    {rest : List (List (Nat × Record))} (waiting : state.queue = rows :: rest) :
    (state.persistFail rest).CapturesSound := by
  refine sound.of_le rfl ?_ (Nat.le_refl _) sound.commit rfl rfl
  intro row present
  rw [waiting, List.flatten_cons]
  exact List.mem_append_right _ present

/-- The largest sequence number of ascending rows stands last. -/
theorem capturedMax_of_sorted (captured : CompactionCapture Record)
    (sorted : captured.rows.Pairwise fun row other => row.1 ≤ other.1) :
    (∀ row ∈ captured.rows, row.1 ≤ capturedMax captured) ∧
      (captured.rows ≠ [] → ∃ row ∈ captured.rows, row.1 = capturedMax captured) := by
  rcases List.eq_nil_or_concat captured.rows with empty | ⟨front, last, split⟩
  · rw [empty]
    exact ⟨fun row present => (nomatch present), fun nonempty => absurd rfl nonempty⟩
  · have largest : capturedMax captured = last.1 := by
      simp [capturedMax, split]
    rw [List.concat_eq_append] at split
    rw [split] at sorted ⊢
    rw [largest]
    refine ⟨?_, fun _ => ⟨last, by simp, rfl⟩⟩
    intro row present
    rcases List.mem_append.1 present with inFront | isLast
    · exact (List.pairwise_append.1 sorted).2.2 row inFront last (by simp)
    · rw [List.mem_singleton.1 isLast]

theorem CapturesSound.capture (sound : state.CapturesSound)
    (drained : ∀ row ∈ state.queue.flatten, state.journal.store.getMaxSeq < row.1) :
    state.capture.CapturesSound := by
  unfold HistoryState.capture
  split
  · exact sound
  · next rows nonempty =>
      refine ⟨sound.distinct, sound.below, sound.commit, ?_⟩
      intro captured present
      rcases List.mem_append.1 present with old | added
      · obtain ⟨older, held⟩ := sound.captures captured old
        exact ⟨older, fun same => ⟨(held same).rows, (held same).queued, (held same).reserved⟩⟩
      · rw [List.mem_singleton.1 added]
        refine ⟨Nat.le_refl _, fun _ => ?_⟩
        obtain ⟨upper, attained⟩ := capturedMax_of_sorted
          ⟨state.replayEpoch, state.journal.store.getAllAsc⟩ (EventStore.pairwise_sortRows _)
        obtain ⟨row, inRows, isMax⟩ := attained nonempty
        have stored : row ∈ state.journal.store.events :=
          (EventStore.perm_sortRows _).mem_iff.1 inRows
        refine ⟨?_, ?_, ?_⟩
        · have all : (state.journal.store.events.filter fun row => decide (row.1 ≤
              capturedMax ⟨state.replayEpoch, state.journal.store.getAllAsc⟩)) =
                state.journal.store.events := by
            apply List.filter_eq_self.2
            intro other otherStored
            exact decide_eq_true (upper other ((EventStore.perm_sortRows _).mem_iff.2 otherStored))
          simp only [all]
          rfl
        · intro other waiting
          have largest := EventStore.le_maxSeq stored
          have above := drained other waiting
          unfold EventStore.getMaxSeq at above
          omega
        · rw [← isMax]
          exact sound.below row (List.mem_append_left _ stored)

theorem CapturesSound.rewrite (sound : state.CapturesSound) (idle : state.commit = none)
    (drained : state.queue = []) {rows : List (Nat × Record)}
    (numbered : rows.map (·.1) = List.range' 1 rows.length) :
    (state.rewrite rows).CapturesSound where
  distinct := by
    have distinct : (rows.map (·.1)).Nodup := by
      rw [numbered]
      exact List.nodup_range'
    exact distinct
  below := by
    intro row present
    simp only [HistoryState.rewrite, EventStore.clearAndRewrite, drained, List.flatten_nil,
      List.append_nil] at present
    have inRange : row.1 ∈ List.range' 1 rows.length := by
      rw [← numbered]
      exact List.mem_map_of_mem present
    have bounds := List.mem_range'_1.1 inRange
    simp only [reservedFrom, HistoryState.rewrite, idle]
    omega
  commit := by
    intro commit held
    cases idle.symm.trans held
  captures := by
    intro captured present
    have older := (sound.captures captured present).1
    refine ⟨Nat.le_succ_of_le older, fun same => ?_⟩
    simp only [HistoryState.rewrite] at same
    omega

end Steps

theorem capturesSound_step {durability : Durability} {reduction : LogReduction Record}
    (state : HistoryState Record) (action : HistoryAction Record) (next : HistoryState Record)
    (sound : state.CapturesSound) (meets : state.CapturesPrefix action)
    (stepped : state.step? durability reduction action = some next) : next.CapturesSound := by
  cases steps_of_step? stepped with
  | begin kind durableMetadata idle => exact sound.begin idle kind durableMetadata
  | encode commit record current => exact sound.encode current record
  | encodeFail commit current => exact (sound.assignSeq current).raise current
  | abort commit current => exact sound.raise current
  | enqueue commit current queued => exact sound.enqueue current
  | append commit current admitted => exact sound.append current admitted
  | persist rows rest waiting admitted => exact sound.persist waiting admitted
  | persistFail rows rest waiting => exact sound.persistFail waiting
  | capture => exact sound.capture meets
  | compact index graph captured idle drained present =>
      unfold finishCompaction
      have fewer : ∀ other ∈ state.captures.eraseIdx index, other ∈ state.captures :=
        fun other kept => List.mem_of_mem_eraseIdx kept
      split
      · refine ⟨sound.distinct, sound.below, sound.commit, ?_⟩
        intro other kept
        obtain ⟨older, held⟩ := sound.captures other (fewer other kept)
        exact ⟨older, fun same => ⟨(held same).rows, (held same).queued, (held same).reserved⟩⟩
      · have rewritten := sound.rewrite idle drained (compactedRows_map_fst graph
          (compactionRecords reduction state captured))
        refine ⟨rewritten.distinct, rewritten.below, rewritten.commit, ?_⟩
        intro other kept
        obtain ⟨older, held⟩ := rewritten.captures other (fewer other kept)
        exact ⟨older, fun same => ⟨(held same).rows, (held same).queued, (held same).reserved⟩⟩
  | purge idle drained => exact sound.rewrite idle drained rfl
  | snapshot records idle drained =>
      exact sound.rewrite idle drained (by rw [numberFrom_map_fst, numberFrom_length])
  | rewriteFail => exact sound

theorem capturesSound_openStore {rows : List (Nat × Record)}
    (distinct : (rows.map (·.1)).Nodup) : (openStore rows).CapturesSound where
  distinct := distinct
  below := by
    intro row present
    simp only [openStore, List.flatten_nil, List.append_nil] at present
    exact Nat.lt_succ_of_le (EventStore.le_maxSeq present)
  commit := fun commit held => nomatch held
  captures := fun captured present => nomatch present

/-! ### Finishing a compaction -/

/-- The records of a current capture are those of the complete history. -/
theorem CapturesSound.compactionRecords {state : HistoryState Record}
    (sound : state.CapturesSound) (reduction : LogReduction Record)
    {captured : CompactionCapture Record} (current : state.CaptureCurrent captured)
    (drained : state.queue = []) :
    compactionRecords reduction state captured =
      reduction.replayRecords (reduction.buildCompacted state.currentHistory) := by
  have whole : captured.rows ++ state.journal.store.getFromSeqAsc (capturedMax captured + 1) =
      state.currentHistory := by
    rw [currentHistory, drained, List.flatten_nil, List.append_nil,
      EventStore.sortRows_split sound.distinct (capturedMax captured), ← current.rows]
    rfl
  rw [← whole, ← reduction.addRows_buildCompacted]
  rfl

/-- A server opened on a store with distinct sequence numbers, in every run that captures only
true prefixes: every compaction rewrites the log to the compaction of the complete current
history, and none of a replaced history changes the log. -/
theorem compactsHistory_of_capturesPrefix (durability : Durability)
    (reduction : LogReduction Record) (rows : List (Nat × Record))
    (distinct : (rows.map (·.1)).Nodup) (actions : List (HistoryAction Record))
    (final : HistoryState Record)
    (meets : StepsMeet CapturesPrefix durability reduction (openStore rows) actions)
    (ran : (openStore rows).run? durability reduction actions = some final) :
    final.CompactsHistory durability reduction := by
  have sound : final.CapturesSound :=
    run_preserves capturesSound_step actions _ _ (capturesSound_openStore distinct) meets ran
  constructor
  · intro index graph captured next present same stepped
    cases steps_of_step? stepped with
    | compact index graph other idle drained otherPresent =>
        cases present.symm.trans otherPresent
        have current := (sound.captures captured (List.mem_of_getElem? present)).2 same
        unfold finishCompaction
        rw [if_neg (not_not_intro same.symm), sound.compactionRecords reduction current drained]
        rfl
  · intro index graph captured next present replaced stepped
    cases steps_of_step? stepped with
    | compact index graph other idle drained otherPresent =>
        cases present.symm.trans otherPresent
        unfold finishCompaction
        rw [if_pos (Ne.symm replaced)]

/-- A captured row, then a queued write that is stored before the rewrite. -/
def laterWrite : List (HistoryAction Nat) :=
  [.begin .shared true, .encode 7, .append, .capture, .begin .shared false, .encode 8, .append,
    .persist]

theorem compactsHistory_laterWrite :
    ∃ final, (openStore []).run? .realtime keepAll laterWrite = some final ∧
      final.captures ≠ [] ∧ final.currentHistory = [(1, 7), (2, 8)] ∧
      final.CompactsHistory .realtime keepAll := by
  refine ⟨_, rfl, by decide, by decide, ?_⟩
  apply compactsHistory_of_capturesPrefix .realtime keepAll [] List.nodup_nil laterWrite _ _ rfl
  apply stepsMeet_cons trivial rfl
  apply stepsMeet_cons trivial rfl
  apply stepsMeet_cons trivial rfl
  apply stepsMeet_cons (fun row waiting => nomatch waiting) rfl
  apply stepsMeet_cons trivial rfl
  apply stepsMeet_cons trivial rfl
  apply stepsMeet_cons trivial rfl
  apply stepsMeet_cons trivial rfl
  trivial

/-- A graph whose layers are all reachable. -/
def reachableGraph : GraphGeneration Nat where
  stateMessage := 0
  reachable := fun _ => true

/-- A queued write, a producer's transaction stored before it, a capture, and the queue item
stored last. -/
def overtakenWrite : List (HistoryAction Nat) :=
  [.begin .shared false, .encode 7, .append, .begin .shared true, .encode 8, .append, .capture,
    .persist]

/-- The compaction loses the row that was waiting when the rows were captured. -/
theorem not_compactsHistory_overtakenWrite :
    ∃ final, (openStore []).run? .realtime keepAll overtakenWrite = some final ∧
      final.currentHistory = [(1, 7), (2, 8)] ∧
      (final.run? .realtime keepAll [.compact 0 (some reachableGraph)]).map
        (·.journal.store.events) = some [(1, 0), (2, 8)] ∧
      ¬ final.CompactsHistory .realtime keepAll := by
  refine ⟨_, rfl, by decide, by decide, ?_⟩
  intro compacts
  have rewritten := compacts.rewritten 0 (some reachableGraph) _ _ rfl rfl rfl
  exact absurd rewritten (by decide)

end HistoryState

end UsdConnect
