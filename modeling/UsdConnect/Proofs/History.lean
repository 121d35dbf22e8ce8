/-
Purpose: Sequence numbers over whole runs of the history: without failures in refreshes and queued
  writes, an idle server has stored the rows it reported, without a gap.
Trusted boundary: none
Main exports: EventStore.sortRows_eq_of_perm, EventStore.sortRows_split
-/
import UsdConnect.Server.History

namespace UsdConnect

variable {Record : Type}

/-! ### Sorted rows -/

namespace EventStore

theorem perm_sortRows (rows : List (Nat × Record)) : (sortRows rows).Perm rows :=
  List.perm_insertionSort _ rows

theorem pairwise_sortRows (rows : List (Nat × Record)) :
    (sortRows rows).Pairwise fun row other => row.1 ≤ other.1 := by
  have total : Std.Total fun row other : Nat × Record => row.1 ≤ other.1 :=
    ⟨fun row other => Nat.le_total row.1 other.1⟩
  have transitive : IsTrans (Nat × Record) fun row other => row.1 ≤ other.1 :=
    ⟨fun _ _ _ first second => Nat.le_trans first second⟩
  exact List.pairwise_insertionSort _ rows

/-- Rows with distinct sequence numbers have one ascending order. -/
theorem sortRows_eq_of_perm {rows sorted : List (Nat × Record)}
    (distinct : (rows.map (·.1)).Nodup) (same : rows.Perm sorted)
    (ascending : sorted.Pairwise fun row other => row.1 ≤ other.1) :
    sortRows rows = sorted := by
  apply List.Perm.eq_of_pairwise _ (pairwise_sortRows rows) ascending
    ((perm_sortRows rows).trans same)
  intro row other rowIn otherIn rowLe otherLe
  have rowMem : row ∈ rows := (perm_sortRows rows).mem_iff.1 rowIn
  have otherMem : other ∈ rows := same.mem_iff.2 otherIn
  exact List.inj_on_of_nodup_map distinct rowMem otherMem (Nat.le_antisymm rowLe otherLe)

/-- Rows whose sequence numbers ascend are their own order. -/
theorem sortRows_of_range {rows : List (Nat × Record)} {first : Nat}
    (numbered : rows.map (·.1) = List.range' first rows.length) : sortRows rows = rows := by
  have ascending : (rows.map (·.1)).Pairwise (· < ·) := by
    rw [numbered]
    exact List.pairwise_lt_range'
  apply sortRows_eq_of_perm (ascending.imp Nat.ne_of_lt) (List.Perm.refl rows)
  exact (List.pairwise_map.1 ascending).imp Nat.le_of_lt

theorem sortRows_split {rows : List (Nat × Record)} (distinct : (rows.map (·.1)).Nodup)
    (bound : Nat) :
    sortRows rows =
      sortRows (rows.filter fun row => row.1 ≤ bound) ++
        sortRows (rows.filter fun row => bound + 1 ≤ row.1) := by
  apply sortRows_eq_of_perm distinct
  · have parts := List.filter_append_perm (fun row : Nat × Record => decide (row.1 ≤ bound)) rows
    have above : (rows.filter fun row => !decide (row.1 ≤ bound)) =
        rows.filter fun row => decide (bound + 1 ≤ row.1) := by
      apply List.filter_congr
      intro row _
      simp only [← decide_not, decide_eq_decide]
      omega
    rw [above] at parts
    exact parts.symm.trans ((perm_sortRows _).symm.append (perm_sortRows _).symm)
  · apply List.pairwise_append.2
    refine ⟨pairwise_sortRows _, pairwise_sortRows _, ?_⟩
    intro row low other high
    have rowLe := List.of_mem_filter ((perm_sortRows _).mem_iff.1 low)
    have otherGt := List.of_mem_filter ((perm_sortRows _).mem_iff.1 high)
    simp only [decide_eq_true_eq] at rowLe otherGt
    omega

theorem maxSeq_eq_of_perm {rows others : List (Nat × Record)} (same : rows.Perm others) :
    maxSeq rows = maxSeq others := by
  apply List.Perm.foldr_eq' (same.map (·.1))
  intro first _ second _ rest
  exact Nat.max_left_comm second first rest

theorem le_maxSeq {rows : List (Nat × Record)} {row : Nat × Record} (present : row ∈ rows) :
    row.1 ≤ maxSeq rows := by
  induction rows with
  | nil => exact nomatch present
  | cons head tail ih =>
      have unfolded : maxSeq (head :: tail) = max head.1 (maxSeq tail) := rfl
      rw [unfolded]
      rcases List.mem_cons.1 present with rfl | later
      · exact Nat.le_max_left _ _
      · exact (ih later).trans (Nat.le_max_right _ _)

/-- The largest number of a log numbered from one is its length. -/
theorem maxSeq_of_range {rows : List (Nat × Record)}
    (numbered : rows.map (·.1) = List.range' 1 rows.length) : maxSeq rows = rows.length := by
  have bound : ∀ first count, (List.range' (first + 1) count).foldr max 0 ≤ first + count ∧
      (0 < count → first + count ≤ (List.range' (first + 1) count).foldr max 0) := by
    intro first count
    induction count generalizing first with
    | zero => simp
    | succ count ih =>
        have later := ih (first + 1)
        simp only [List.range'_succ, List.foldr_cons]
        omega
  have ends := bound 0 rows.length
  rw [Nat.zero_add] at ends
  unfold maxSeq
  rw [numbered]
  omega

end EventStore

/-- Numbered records carry consecutive sequences. -/
@[simp] theorem numberFrom_map_fst (first : Nat) (records : List Record) :
    (numberFrom first records).map (·.1) = List.range' first records.length := by
  apply List.map_fst_zip
  simp

@[simp] theorem numberFrom_length (first : Nat) (records : List Record) :
    (numberFrom first records).length = records.length := by
  simp [numberFrom]

/-- A compaction numbers what it writes from one. -/
theorem compactedRows_map_fst (graph : Option (GraphGeneration Record))
    (compacted : List Record) :
    (compactedRows graph compacted).map (·.1) =
      List.range' 1 (compactedRows graph compacted).length := by
  cases graph with
  | none =>
      unfold compactedRows
      rw [numberFrom_map_fst, numberFrom_length]
  | some graph =>
      simp only [compactedRows, List.map_cons, numberFrom_map_fst, List.length_cons,
        numberFrom_length, List.range'_succ]

namespace HistoryState

/-! ### Runs whose steps meet a condition -/

/-- Every step of the run meets a condition on its action and the state before it. -/
def StepsMeet (condition : HistoryState Record → HistoryAction Record → Prop)
    (durability : Durability) (reduction : LogReduction Record) :
    HistoryState Record → List (HistoryAction Record) → Prop
  | _, [] => True
  | state, action :: actions =>
      condition state action ∧
        ∀ next, state.step? durability reduction action = some next →
          StepsMeet condition durability reduction next actions

theorem stepsMeet_cons {condition : HistoryState Record → HistoryAction Record → Prop}
    {durability : Durability} {reduction : LogReduction Record}
    {state next : HistoryState Record} {action : HistoryAction Record}
    {actions : List (HistoryAction Record)} (meets : condition state action)
    (stepped : state.step? durability reduction action = some next)
    (rest : StepsMeet condition durability reduction next actions) :
    StepsMeet condition durability reduction state (action :: actions) := by
  refine ⟨meets, ?_⟩
  intro other otherStepped
  cases stepped.symm.trans otherStepped
  exact rest

/-- A property of the start that every step meeting the condition keeps holds at the end of every
run whose steps meet it. -/
theorem run_preserves {condition : HistoryState Record → HistoryAction Record → Prop}
    {durability : Durability} {reduction : LogReduction Record}
    {invariant : HistoryState Record → Prop}
    (preserved : ∀ state action next, invariant state → condition state action →
      state.step? durability reduction action = some next → invariant next) :
    ∀ (actions : List (HistoryAction Record)) (state final : HistoryState Record),
      invariant state → StepsMeet condition durability reduction state actions →
      state.run? durability reduction actions = some final → invariant final := by
  intro actions
  induction actions with
  | nil =>
      intro state final holds _ ran
      cases ran
      exact holds
  | cons action actions ih =>
      intro state final holds meets ran
      obtain ⟨next, stepped, rest⟩ := Option.bind_eq_some_iff.1 ran
      exact ih next final (preserved state action next holds meets.1 stepped)
        (meets.2 next stepped) rest

/-! ### What one step does -/

/-- An action that can happen in a state, with the state it leads to. -/
inductive Steps (durability : Durability) (reduction : LogReduction Record)
    (state : HistoryState Record) : HistoryAction Record → HistoryState Record → Prop where
  | begin (kind : CommitKind) (durableMetadata : Bool) (idle : state.commit = none) :
      Steps durability reduction state (.begin kind durableMetadata)
        (state.begin kind durableMetadata)
  | encode (commit : CommitInProgress Record) (record : Record)
      (current : state.commit = some commit) :
      Steps durability reduction state (.encode record) (state.encode commit record)
  | encodeFail (commit : CommitInProgress Record) (current : state.commit = some commit) :
      Steps durability reduction state .encodeFail (state.encodeFail commit)
  | abort (commit : CommitInProgress Record) (current : state.commit = some commit) :
      Steps durability reduction state .abort (state.raise commit)
  | enqueue (commit : CommitInProgress Record) (current : state.commit = some commit)
      (queued : canQueue durability commit = true) :
      Steps durability reduction state .append
        { state with
          commit := none
          reported := state.reported ++ commit.rows
          queue := state.queue ++ [commit.rows] }
  | append (commit : CommitInProgress Record) (current : state.commit = some commit)
      (admitted : state.journal.store.admits commit.rows = true) :
      Steps durability reduction state .append
        { state with
          commit := none
          reported := state.reported ++ commit.rows
          journal := state.journal.appendBatch commit.rows [] }
  | persist (rows : List (Nat × Record)) (rest : List (List (Nat × Record)))
      (waiting : state.queue = rows :: rest)
      (admitted : state.journal.store.admits rows = true) :
      Steps durability reduction state .persist (state.persist rows rest)
  | persistFail (rows : List (Nat × Record)) (rest : List (List (Nat × Record)))
      (waiting : state.queue = rows :: rest) :
      Steps durability reduction state .persistFail (state.persistFail rest)
  | capture : Steps durability reduction state .capture state.capture
  | compact (index : Nat) (graph : Option (GraphGeneration Record))
      (captured : CompactionCapture Record) (idle : state.commit = none)
      (drained : state.queue = []) (present : state.captures[index]? = some captured) :
      Steps durability reduction state (.compact index graph)
        { state.finishCompaction reduction captured graph with
          captures := state.captures.eraseIdx index }
  | purge (idle : state.commit = none) (drained : state.queue = []) :
      Steps durability reduction state .purge (state.rewrite [])
  | snapshot (records : List Record) (idle : state.commit = none) (drained : state.queue = []) :
      Steps durability reduction state (.snapshot records)
        (state.rewrite (numberFrom 1 records))
  | rewriteFail : Steps durability reduction state .rewriteFail state

theorem windowOpen_iff {state : HistoryState Record} :
    state.windowOpen = true ↔ state.commit = none ∧ state.queue = [] := by
  unfold windowOpen
  simp [Option.isNone_iff_eq_none, List.isEmpty_iff]

theorem steps_of_step? {durability : Durability} {reduction : LogReduction Record}
    {state next : HistoryState Record} {action : HistoryAction Record}
    (stepped : state.step? durability reduction action = some next) :
    Steps durability reduction state action next := by
  cases action with
  | begin kind durableMetadata =>
      simp only [step?] at stepped
      split at stepped
      · next idle =>
          cases stepped
          exact .begin kind durableMetadata idle
      · cases stepped
  | encode record =>
      obtain ⟨commit, current, rfl⟩ := Option.map_eq_some_iff.1 stepped
      exact .encode commit record current
  | encodeFail =>
      obtain ⟨commit, current, rfl⟩ := Option.map_eq_some_iff.1 stepped
      exact .encodeFail commit current
  | abort =>
      obtain ⟨commit, current, rfl⟩ := Option.map_eq_some_iff.1 stepped
      exact .abort commit current
  | append =>
      simp only [step?] at stepped
      split at stepped
      · cases stepped
      · next commit current =>
          split at stepped
          · next allowed =>
              cases stepped
              unfold append
              cases queued : canQueue durability commit with
              | true => exact .enqueue commit current queued
              | false =>
                  rw [queued, Bool.false_or] at allowed
                  exact .append commit current allowed
          · cases stepped
  | persist =>
      simp only [step?] at stepped
      split at stepped
      · cases stepped
      · next rows rest waiting =>
          split at stepped
          · next admitted =>
              cases stepped
              exact .persist rows rest waiting admitted
          · cases stepped
  | persistFail =>
      simp only [step?] at stepped
      split at stepped
      · cases stepped
      · next rows rest waiting =>
          cases stepped
          exact .persistFail rows rest waiting
  | capture =>
      cases stepped
      exact .capture
  | compact index graph =>
      simp only [step?] at stepped
      split at stepped
      · next isOpen =>
          obtain ⟨captured, present, rfl⟩ := Option.map_eq_some_iff.1 stepped
          obtain ⟨idle, drained⟩ := windowOpen_iff.1 isOpen
          exact .compact index graph captured idle drained present
      · cases stepped
  | purge =>
      simp only [step?] at stepped
      split at stepped
      · next isOpen =>
          cases stepped
          obtain ⟨idle, drained⟩ := windowOpen_iff.1 isOpen
          exact .purge idle drained
      · cases stepped
  | snapshot records =>
      simp only [step?] at stepped
      split at stepped
      · next isOpen =>
          cases stepped
          obtain ⟨idle, drained⟩ := windowOpen_iff.1 isOpen
          exact .snapshot records idle drained
      · cases stepped
  | rewriteFail =>
      simp only [step?] at stepped
      split at stepped
      · cases stepped
        exact .rewriteFail
      · cases stepped

/-! ### Gap-free history -/

/-- The head every counter of an idle server agrees on, and the rows it has stored: exactly those
its operations reported. -/
structure GapFree (state : HistoryState Record) (head : Nat) : Prop where
  sequences : state.journal.store.getAllAsc.map (·.1) = List.range' 1 head
  rows : state.journal.store.getAllAsc = state.reported
  nextSeq : state.journal.nextSeq = head + 1
  eventCount : state.journal.eventCount = head
  replayHead : state.replayToken.2 = head
  durableHead : state.durableCheckpoint.2 = head

/-- Whether the action is an operation reporting a failure to its caller. -/
def reportsFailure : HistoryAction Record → Bool
  | .encodeFail => true
  | .abort => true
  | .rewriteFail => true
  | _ => false

/-- What a gap-free history asks of a state: idle and drained, its counters agree with the stored
rows, and whatever fails next changes neither the table nor the queue. -/
structure HistoryKept (durability : Durability) (reduction : LogReduction Record)
    (state : HistoryState Record) : Prop where
  gapFree : state.commit = none → state.queue = [] → ∃ head, state.GapFree head
  failures : ∀ action next, reportsFailure action = true →
    state.step? durability reduction action = some next →
      next.journal.store = state.journal.store ∧ next.queue = state.queue

/-- The failures that lose a sequence number or a row do not happen: no exception leaves a
dependency refresh that has assigned a sequence, and no queued write fails. -/
def KeepsReservations (state : HistoryState Record) : HistoryAction Record → Prop
  | .encodeFail => ∀ commit, state.commit = some commit → commit.kind ≠ .refresh
  | .abort => ∀ commit, state.commit = some commit → commit.kind = .refresh → commit.rows = []
  | .persistFail => ∀ rows, state.queue.head? = some rows → rows = []
  | _ => True

/-- Every sequence number below the next one is accounted for: reported rows are stored or
queued, and the rest belongs to the commit in progress. -/
structure Accounted (state : HistoryState Record) : Prop where
  rows : (state.journal.store.events ++ state.queue.flatten).Perm state.reported
  numbered : state.reported.map (·.1) = List.range' 1 state.reported.length
  counted : state.journal.eventCount = state.journal.store.events.length
  idle : state.commit = none → state.journal.nextSeq = state.reported.length + 1
  reserved : ∀ commit, state.commit = some commit →
    commit.firstSequence = state.reported.length + 1 ∧
      commit.rows.map (·.1) = List.range' commit.firstSequence commit.rows.length ∧
      state.journal.nextSeq = commit.firstSequence + commit.rows.length

/-- Reported rows followed by the rows of the commit are numbered on. -/
theorem Accounted.numbered_append {state : HistoryState Record} (accounted : state.Accounted)
    {commit : CommitInProgress Record} (current : state.commit = some commit) :
    (state.reported ++ commit.rows).map (·.1) =
      List.range' 1 (state.reported ++ commit.rows).length := by
  obtain ⟨first, consecutive, _⟩ := accounted.reserved commit current
  rw [List.map_append, accounted.numbered, consecutive, first, List.length_append,
    Nat.add_comm state.reported.length 1, List.range'_append_1]

theorem accounted_rewrite {state : HistoryState Record} {rows : List (Nat × Record)}
    (numbered : rows.map (·.1) = List.range' 1 rows.length) (idle : state.commit = none)
    (drained : state.queue = []) : (state.rewrite rows).Accounted where
  rows := by simp [rewrite, EventStore.clearAndRewrite, drained]
  numbered := numbered
  counted := rfl
  idle := fun _ => rfl
  reserved := by
    intro commit current
    exact nomatch idle.symm.trans current

/-- Leaving a commit by an exception keeps the account when the reservations are taken back, or
when none was made. -/
theorem Accounted.raise {state : HistoryState Record} (accounted : state.Accounted)
    {commit : CommitInProgress Record} (current : state.commit = some commit)
    (kept : commit.kind = .refresh → commit.rows = []) : (state.raise commit).Accounted := by
  obtain ⟨first, _, next⟩ := accounted.reserved commit current
  refine
    { rows := ?_
      numbered := accounted.numbered
      counted := ?_
      idle := ?_
      reserved := fun other held => nomatch held }
  · unfold HistoryState.raise
    split <;> exact accounted.rows
  · unfold HistoryState.raise
    split <;> exact accounted.counted
  · intro _
    cases kind : commit.kind with
    | refresh =>
        rw [kept kind] at next
        simp only [HistoryState.raise, kind, CommitKind.reservesSequences, Bool.false_eq_true,
          ↓reduceIte]
        exact next.trans first
    | managed | childReplay | shared =>
        simp only [HistoryState.raise, kind, CommitKind.reservesSequences, ↓reduceIte]
        exact first

/-- Reserving one more number and encoding nothing leaves the commit's row count behind, so only a
reserving commit may raise there. -/
theorem Accounted.encodeFail {state : HistoryState Record} (accounted : state.Accounted)
    {commit : CommitInProgress Record} (current : state.commit = some commit)
    (guarded : commit.kind ≠ .refresh) : (state.encodeFail commit).Accounted := by
  have taken : (state.encodeFail commit) = state.raise commit := by
    unfold HistoryState.encodeFail HistoryState.raise
    cases kind : commit.kind with
    | refresh => exact absurd kind guarded
    | managed | childReplay | shared => rfl
  rw [taken]
  exact accounted.raise current fun kind => absurd kind guarded

theorem Accounted.encode {state : HistoryState Record} (accounted : state.Accounted)
    {commit : CommitInProgress Record} (current : state.commit = some commit) (record : Record) :
    (state.encode commit record).Accounted where
  rows := accounted.rows
  numbered := accounted.numbered
  counted := accounted.counted
  idle := fun held => nomatch held
  reserved := by
    intro other held
    cases held
    obtain ⟨first, consecutive, next⟩ := accounted.reserved commit current
    refine ⟨first, ?_, ?_⟩
    · simp only [List.map_append, List.map_cons, List.map_nil, consecutive, next,
        List.length_append, List.length_cons, List.length_nil, Nat.zero_add,
        List.range'_concat, Nat.one_mul]
    · simp only [HistoryState.encode, EventJournal.assignSeq, List.length_append,
        List.length_cons, List.length_nil]
      omega

theorem Accounted.begin {state : HistoryState Record} (accounted : state.Accounted)
    (idle : state.commit = none) (kind : CommitKind) (durableMetadata : Bool) :
    (state.begin kind durableMetadata).Accounted where
  rows := accounted.rows
  numbered := accounted.numbered
  counted := accounted.counted
  idle := fun held => nomatch held
  reserved := by
    intro other held
    cases held
    exact ⟨accounted.idle idle, rfl, rfl⟩

/-- What an append leaves once the rows are stored or queued. -/
theorem Accounted.reported {state : HistoryState Record} (accounted : state.Accounted)
    {commit : CommitInProgress Record} (current : state.commit = some commit)
    {journal : EventJournal Record} {queue : List (List (Nat × Record))}
    (nextSeq : journal.nextSeq = state.journal.nextSeq)
    (counted : journal.eventCount = journal.store.events.length)
    (rows : (journal.store.events ++ queue.flatten).Perm
      ((state.journal.store.events ++ state.queue.flatten) ++ commit.rows)) :
    HistoryState.Accounted
      { state with
        commit := none
        reported := state.reported ++ commit.rows
        journal := journal
        queue := queue } where
  rows := rows.trans (accounted.rows.append_right commit.rows)
  numbered := accounted.numbered_append current
  counted := counted
  idle := by
    intro _
    obtain ⟨first, _, next⟩ := accounted.reserved commit current
    simp only [List.length_append]
    omega
  reserved := fun other held => nomatch held

/-- Moving the queue's first item into the table, or dropping it when it is empty, keeps the
account. -/
theorem Accounted.dequeue {state : HistoryState Record} (accounted : state.Accounted)
    {rest : List (List (Nat × Record))} {rows : List (Nat × Record)} (stored : List (Nat × Record))
    (waiting : state.queue = rows :: rest) (same : stored = rows) :
    HistoryState.Accounted
      { state with journal := state.journal.appendBatch stored [], queue := rest } where
  rows := by
    have moved := accounted.rows
    rw [waiting] at moved
    simpa [EventJournal.appendBatch, EventStore.appendBatch, same] using moved
  numbered := accounted.numbered
  counted := by
    simp only [EventJournal.appendBatch, EventStore.appendBatch, List.length_append,
      accounted.counted]
  idle := accounted.idle
  reserved := accounted.reserved

theorem accounted_step {durability : Durability} {reduction : LogReduction Record}
    (state : HistoryState Record) (action : HistoryAction Record) (next : HistoryState Record)
    (accounted : state.Accounted) (kept : state.KeepsReservations action)
    (stepped : state.step? durability reduction action = some next) : next.Accounted := by
  cases steps_of_step? stepped with
  | begin kind durableMetadata idle => exact accounted.begin idle kind durableMetadata
  | encode commit record current => exact accounted.encode current record
  | encodeFail commit current => exact accounted.encodeFail current (kept commit current)
  | abort commit current => exact accounted.raise current (kept commit current)
  | enqueue commit current queued =>
      apply accounted.reported current rfl accounted.counted
      simp
  | append commit current admitted =>
      apply accounted.reported current
      · rfl
      · simp only [EventJournal.appendBatch, EventStore.appendBatch, List.length_append,
          accounted.counted]
      · simp only [EventJournal.appendBatch, EventStore.appendBatch, List.append_assoc]
        exact List.perm_append_comm.append_left _
  | persist rows rest waiting admitted => exact accounted.dequeue rows waiting rfl
  | persistFail rows rest waiting =>
      have empty : rows = [] := kept rows (by rw [waiting]; rfl)
      have dropped := accounted.dequeue [] waiting empty.symm
      simpa [EventJournal.appendBatch, EventStore.appendBatch, HistoryState.persistFail]
        using dropped
  | capture =>
      unfold HistoryState.capture
      split
      · exact accounted
      · exact ⟨accounted.rows, accounted.numbered, accounted.counted, accounted.idle,
          accounted.reserved⟩
  | compact index graph captured idle drained present =>
      unfold finishCompaction
      split
      · exact ⟨accounted.rows, accounted.numbered, accounted.counted, accounted.idle,
          accounted.reserved⟩
      · have rewritten := accounted_rewrite (compactedRows_map_fst graph
          (compactionRecords reduction state captured)) idle drained
        exact ⟨rewritten.rows, rewritten.numbered, rewritten.counted, rewritten.idle,
          rewritten.reserved⟩
  | purge idle drained => exact accounted_rewrite rfl idle drained
  | snapshot records idle drained =>
      exact accounted_rewrite (by rw [numberFrom_map_fst, numberFrom_length]) idle drained
  | rewriteFail => exact accounted

/-- An idle and drained server whose numbers are accounted for has a gap-free history. -/
theorem Accounted.gapFree {state : HistoryState Record} (accounted : state.Accounted)
    (idle : state.commit = none) (drained : state.queue = []) :
    state.GapFree state.reported.length := by
  have same : state.journal.store.events.Perm state.reported := by
    simpa [drained] using accounted.rows
  have distinct : (state.journal.store.events.map (·.1)).Nodup := by
    apply (same.map (·.1)).nodup_iff.2
    rw [accounted.numbered]
    exact List.nodup_range'
  have sorted : state.journal.store.getAllAsc = state.reported := by
    rw [← EventStore.sortRows_of_range accounted.numbered]
    exact EventStore.sortRows_eq_of_perm distinct
      (same.trans (EventStore.perm_sortRows _).symm) (EventStore.pairwise_sortRows _)
  exact
    { sequences := by rw [sorted, accounted.numbered]
      rows := sorted
      nextSeq := accounted.idle idle
      eventCount := accounted.counted.trans same.length_eq
      replayHead := by
        rw [replayToken, accounted.idle idle]
        rfl
      durableHead := by
        rw [← EventStore.maxSeq_of_range accounted.numbered]
        exact EventStore.maxSeq_eq_of_perm same }

/-- A store numbered from one opens into an account without reservations. -/
theorem accounted_openStore {rows : List (Nat × Record)} {count : Nat}
    (numbered : (rows.map (·.1)).Perm (List.range' 1 count)) :
    (openStore rows).Accounted := by
  have distinct : (rows.map (·.1)).Nodup := numbered.nodup_iff.2 List.nodup_range'
  have counted : rows.length = count := by simpa using numbered.length_eq
  have ascending : ((EventStore.sortRows rows).map (·.1)) = List.range' 1 count := by
    have sorted : ((EventStore.sortRows rows).map (·.1)).Pairwise (· ≤ ·) :=
      List.pairwise_map.2 (EventStore.pairwise_sortRows rows)
    apply List.Perm.eq_of_pairwise _ sorted List.pairwise_le_range'
      (((EventStore.perm_sortRows rows).map (·.1)).trans numbered)
    intro first second _ _ low high
    exact Nat.le_antisymm low high
  have sortedNumbered : (EventStore.sortRows rows).map (·.1) =
      List.range' 1 (EventStore.sortRows rows).length := by
    rw [ascending, (EventStore.perm_sortRows rows).length_eq, counted]
  refine
    { rows := ?_
      numbered := sortedNumbered
      counted := rfl
      idle := ?_
      reserved := fun other held => nomatch held }
  · simpa [openStore, EventStore.getAllAsc] using (EventStore.perm_sortRows rows).symm
  · intro _
    have largest := EventStore.maxSeq_of_range sortedNumbered
    rw [EventStore.maxSeq_eq_of_perm (EventStore.perm_sortRows rows)] at largest
    exact congrArg (· + 1) largest

/-- A failing operation changes neither the table nor the queue, whatever its call site. -/
theorem failure_leaves_rows {durability : Durability} {reduction : LogReduction Record}
    {state next : HistoryState Record} {action : HistoryAction Record}
    (failing : reportsFailure action = true)
    (stepped : state.step? durability reduction action = some next) :
    next.journal.store = state.journal.store ∧ next.queue = state.queue := by
  cases steps_of_step? stepped with
  | encodeFail commit current =>
      refine ⟨?_, rfl⟩
      unfold HistoryState.encodeFail HistoryState.raise
      split <;> rfl
  | abort commit current =>
      refine ⟨?_, rfl⟩
      unfold HistoryState.raise
      split <;> rfl
  | rewriteFail => exact ⟨rfl, rfl⟩
  | _ => cases failing

/-- A server opened on a log numbered from one, in every run in which no failure loses a
reservation or a queued row: its history is gap-free whenever it is idle, and no failing operation
leaves a record behind. -/
theorem historyKept_of_keepsReservations (durability : Durability)
    (reduction : LogReduction Record) (rows : List (Nat × Record)) (count : Nat)
    (numbered : (rows.map (·.1)).Perm (List.range' 1 count))
    (actions : List (HistoryAction Record)) (final : HistoryState Record)
    (kept : StepsMeet KeepsReservations durability reduction (openStore rows) actions)
    (ran : (openStore rows).run? durability reduction actions = some final) :
    final.HistoryKept durability reduction where
  gapFree := by
    intro idle drained
    have accounted := run_preserves accounted_step actions _ _ (accounted_openStore numbered)
      kept ran
    exact ⟨_, accounted.gapFree idle drained⟩
  failures := fun _ _ failing stepped => failure_leaves_rows failing stepped

/-- The reduction that merges nothing. -/
def keepAll : LogReduction Nat where
  State := List Nat
  empty := []
  addStoredRecord := fun records _ record => records ++ [record]
  replayRecords := id

/-- A managed commit whose append fails and is tried again, then a queued shared write. -/
def retriedCommit : List (HistoryAction Nat) :=
  [.begin .managed true, .encode 7, .abort, .begin .managed true, .encode 7, .append,
    .begin .shared false, .encode 8, .append, .persist]

theorem historyKept_retriedCommit :
    ∃ final, (openStore []).run? .realtime keepAll retriedCommit = some final ∧
      final.journal.store.events = [(1, 7), (2, 8)] ∧ final.HistoryKept .realtime keepAll := by
  refine ⟨_, rfl, rfl, ?_⟩
  apply historyKept_of_keepsReservations .realtime keepAll [] 0 (List.Perm.refl _) retriedCommit
    _ _ rfl
  apply stepsMeet_cons trivial rfl
  apply stepsMeet_cons trivial rfl
  have managed : ∀ commit : CommitInProgress Nat,
      some { kind := .managed, durableMetadata := true, firstSequence := 1, rows := [(1, 7)] } =
        some commit → commit.kind = .refresh → commit.rows = [] := by
    rintro _ ⟨⟩ refresh
    exact nomatch refresh
  apply stepsMeet_cons managed rfl
  apply stepsMeet_cons trivial rfl
  apply stepsMeet_cons trivial rfl
  apply stepsMeet_cons trivial rfl
  apply stepsMeet_cons trivial rfl
  apply stepsMeet_cons trivial rfl
  apply stepsMeet_cons trivial rfl
  apply stepsMeet_cons trivial rfl
  trivial

/-- A dependency refresh whose append fails after it numbered its record, then a producer's
transaction. -/
def failedRefresh : List (HistoryAction Nat) :=
  [.begin .refresh true, .encode 7, .abort, .begin .shared true, .encode 8, .append]

theorem not_historyKept_failedRefresh :
    ∃ final, (openStore []).run? .sync keepAll failedRefresh = some final ∧
      final.journal.store.events = [(2, 8)] ∧ ¬ final.HistoryKept .sync keepAll := by
  refine ⟨_, rfl, rfl, ?_⟩
  intro kept
  obtain ⟨head, gapFree⟩ := kept.gapFree rfl rfl
  have counted : 1 = head := gapFree.eventCount
  have sequences := gapFree.sequences
  subst counted
  exact absurd sequences (by decide)

end HistoryState

end UsdConnect
