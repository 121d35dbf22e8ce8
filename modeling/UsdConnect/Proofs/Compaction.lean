/-
Purpose: A compacted log holds the merges of the writes that no later record discards: groups have
  one key, keep the order of the log and do not reach across a sample deletion.
Trusted boundary: none
Main exports: MergeOf, discards, fences, surviving, replayRecords_grouped
-/
import Mathlib.Data.Prod.Lex
import Mathlib.Data.String.Basic
import UsdConnect.Lib.Grouping
import UsdConnect.Lib.StableOrder
import UsdConnect.Server.Compaction
import UsdConnect.Usd.Plain

namespace UsdConnect

open LogCompaction

/-! ### Merging keeps the key -/

/-- A merged event writes what the later one does. -/
theorem mergeInto_identity (usd : Usd) {previous event : Event}
    (same : previous.identity = event.identity) :
    (mergeInto usd previous event).identity = event.identity := by
  unfold mergeInto
  split
  case h_10 => rfl
  case h_8 =>
      split
      · unfold mergeSpecEvents
        split <;> rfl
      · rfl
  all_goals
    first
    | exact same
    | (split
       · rfl
       · exact same)

theorem mergeKey_of_identity {record : ReceivedEvent} {event : Event}
    (same : event.identity = record.event.identity) (seq : Nat) :
    ({ record with event := event, seq := seq } : ReceivedEvent).mergeKey = record.mergeKey := by
  have kind : event.kind = record.event.kind := congrArg MergeKey.kind same
  unfold StoredRecord.mergeKey MergeKey.fromEvent
  rw [same, kind]

/-- A record as it is filed when nothing pending has its key. -/
def filed (usd : Usd) (record : ReceivedEvent) : ReceivedEvent :=
  { record with event := mergePayload usd none record.event }

/-- A record merged with the pending one of its key. -/
def absorbed (usd : Usd) (previous record : ReceivedEvent) : ReceivedEvent :=
  if record.event.kind = .ensureXformOps then previous
  else
    { record with
      event := mergePayload usd (some previous.event) record.event
      seq := if record.event.kind = .ensurePrim then previous.seq else record.seq }

theorem filed_mergeKey (usd : Usd) (record : ReceivedEvent) :
    (filed usd record).mergeKey = record.mergeKey := by
  apply mergeKey_of_identity
  cases record.event <;> rfl

theorem absorbed_mergeKey (usd : Usd) {previous record : ReceivedEvent}
    (same : previous.mergeKey = record.mergeKey) :
    (absorbed usd previous record).mergeKey = record.mergeKey := by
  unfold absorbed
  split
  · exact same
  · apply mergeKey_of_identity
    apply mergeInto_identity
    exact congrArg (fun key : MergeKey => { key with layerKey := "" }) same

/-- The merge of the writes of one key, in order. -/
inductive MergeOf (usd : Usd) : List ReceivedEvent → ReceivedEvent → Prop
  | first (record : ReceivedEvent) : MergeOf usd [record] (filed usd record)
  | next {sources : List ReceivedEvent} {previous record : ReceivedEvent}
      (merged : MergeOf usd sources previous) (same : previous.mergeKey = record.mergeKey) :
      MergeOf usd (sources ++ [record]) (absorbed usd previous record)

theorem MergeOf.spec {usd : Usd} {sources : List ReceivedEvent} {result : ReceivedEvent}
    (merged : MergeOf usd sources result) :
    (∀ source ∈ sources, source.mergeKey = result.mergeKey) ∧
      ∃ source ∈ sources, source.seq = result.seq := by
  induction merged with
  | first record =>
      rw [filed_mergeKey]
      simp [filed]
  | @next sources previous record _ same ih =>
      obtain ⟨keys, source, member, here⟩ := ih
      rw [absorbed_mergeKey usd same]
      constructor
      · intro other inside
        rcases List.mem_append.1 inside with before | last
        · exact (keys other before).trans same
        · rw [List.mem_singleton.1 last]
      · unfold absorbed
        split
        · exact ⟨source, List.mem_append_left _ member, here⟩
        · dsimp only
          split
          · exact ⟨source, List.mem_append_left _ member, here⟩
          · exact ⟨record, by simp, rfl⟩

/-! ### What a record does to earlier ones -/

/-- Whether a record makes entries of a key obsolete. -/
def discards (record : ReceivedEvent) (old : MergeKey) : Bool :=
  let key := record.mergeKey
  if record.event.isExactDeletion then
    key.kind = .setSdfSpecFields && (old.layerKey = key.layerKey && old.specPath = key.specPath)
  else
    match key.kind with
    | .deletePrim | .renamePrim => old.layerKey = key.layerKey ∧ coversPrim key.prim old.prim
    | .replaceSdfLayerContent => old.layerKey = key.layerKey ∧ old.kind.exactLayer
    | .loadPayload => old = ⟨key.prim, .unloadPayload, none, key.layerKey, none, ""⟩
    | .unloadPayload => old = ⟨key.prim, .loadPayload, none, key.layerKey, none, ""⟩
    | _ => false

/-- Whether later writes of a key stay apart from those before the record. -/
def fences (record : ReceivedEvent) (old : MergeKey) : Bool :=
  record.event.isSampleHistoryBarrier && (old.prim = record.mergeKey.prim ∧
    old.layerKey = record.mergeKey.layerKey ∧ (old.kind.sampleValue ∨
      (record.event.isExactDeletion ∧ old.kind = .setSdfSpecFields)))

/-- The records of a log that no later one discards. -/
def surviving : List ReceivedEvent → List ReceivedEvent
  | [] => []
  | record :: later =>
      if later.any (discards · record.mergeKey) then surviving later else record :: surviving later

theorem surviving_concat (log : List ReceivedEvent) (record : ReceivedEvent) :
    surviving (log ++ [record]) =
      ((surviving log).filter fun old => !discards record old.mergeKey) ++ [record] := by
  induction log with
  | nil => rfl
  | cons head rest ih =>
      rw [List.cons_append, surviving, surviving, ih, List.any_append]
      cases rest.any (discards · head.mergeKey) with
      | true => rfl
      | false => cases dropped : discards record head.mergeKey <;> simp [dropped]

theorem surviving_sublist (log : List ReceivedEvent) : (surviving log).Sublist log := by
  induction log with
  | nil => exact .slnil
  | cons head rest ih =>
      unfold surviving
      split
      · exact ih.cons head
      · exact ih.cons_cons head

/-! ### Entries -/

namespace LogCompaction

variable (compaction : LogCompaction)

/-- The records, those that can still merge marked. -/
def entries : List (Bool × ReceivedEvent) :=
  compaction.preserved.map (fun entry => (false, entry.2)) ++
    compaction.pending.entries.map fun entry => (true, entry.2)

theorem map_entries : compaction.entries.map Prod.snd = compaction.records := by
  unfold entries records
  rw [List.map_append, List.map_map, List.map_map]
  rfl

theorem entries_keep (record : ReceivedEvent) :
    (compaction.keep record).entries.Perm ((false, record) :: compaction.entries) := by
  unfold entries keep
  dsimp only
  rw [List.map_append, List.append_assoc]
  exact List.perm_middle

theorem entries_put (record : ReceivedEvent) : (compaction.put record).entries.Perm
    ((true, record) :: (compaction.drop record.mergeKey).entries) := by
  have filed := (compaction.pending.entries_set_perm record.mergeKey record).map
    fun entry => (true, entry.2)
  exact (filed.append_left _).trans List.perm_middle

theorem entries_drop {compaction : LogCompaction} {key : MergeKey} {record : ReceivedEvent}
    (found : compaction.pending.get? key = some record) :
    compaction.entries.Perm ((true, record) :: (compaction.drop key).entries) := by
  have filed := (OrderedDict.entries_perm_of_get? found).map
    fun entry : MergeKey × ReceivedEvent => (true, entry.2)
  exact (filed.append_left _).trans List.perm_middle

theorem mergeKey_of_get? {compaction : LogCompaction} {key : MergeKey} {record : ReceivedEvent}
    (found : compaction.pending.get? key = some record) : record.mergeKey = key :=
  compaction.pending_keyed _ (OrderedDict.mem_of_get? found)

theorem entries_discard (found : MergeKey → Bool) : (compaction.discard found).entries =
    compaction.entries.filter fun entry => !found entry.2.mergeKey := by
  unfold entries discard OrderedDict.filterKeys
  rw [List.filter_append, List.filter_map, List.filter_map]
  congr 2
  · apply List.filter_congr
    intro entry member
    simp [compaction.preserved_keyed entry member]
  · apply List.filter_congr
    intro entry member
    simp [compaction.pending_keyed entry member]

/-- Where no preserved record has the key, popping it drops all records of the key. -/
theorem entries_drop_eq {compaction : LogCompaction} {key : MergeKey}
    (none : ∀ entry ∈ compaction.preserved, entry.2.mergeKey ≠ key) : (compaction.drop key).entries =
      compaction.entries.filter fun entry => !decide (entry.2.mergeKey = key) := by
  unfold entries drop OrderedDict.pop
  rw [List.filter_append, List.filter_map, List.filter_map]
  congr 2
  · symm
    rw [List.filter_eq_self]
    intro entry member
    simp [none entry member]
  · apply List.filter_congr
    intro entry member
    simp [compaction.pending_keyed entry member]

theorem mem_pending_preserve {compaction : LogCompaction} {key : MergeKey}
    {entry : MergeKey × ReceivedEvent} (member : entry ∈ (compaction.preserve key).pending.entries) :
    entry ∈ compaction.pending.entries ∧ entry.1 ≠ key := by
  unfold preserve at member
  split at member
  · next => simpa [keep, drop, OrderedDict.pop] using member
  · next absent =>
      refine ⟨member, ?_⟩
      rintro rfl
      rw [OrderedDict.get?_of_mem member] at absent
      cases absent

theorem mem_pending_foldl {keys : List MergeKey} {compaction : LogCompaction}
    {entry : MergeKey × ReceivedEvent}
    (member : entry ∈ (keys.foldl preserve compaction).pending.entries) :
    entry ∈ compaction.pending.entries ∧ entry.1 ∉ keys := by
  induction keys generalizing compaction with
  | nil => exact ⟨member, List.not_mem_nil⟩
  | cons key rest ih =>
      obtain ⟨inside, away⟩ := ih member
      obtain ⟨before, other⟩ := mem_pending_preserve inside
      exact ⟨before, by simp [other, away]⟩

/-- Nothing that the event fences can merge any more. -/
theorem fences_preserveSampleOrder (record : ReceivedEvent) {entry : MergeKey × ReceivedEvent}
    (member : entry ∈
      (compaction.preserveSampleOrder record.mergeKey record.event).pending.entries) :
    fences record entry.1 = false := by
  unfold preserveSampleOrder at member
  dsimp only at member
  split at member
  · obtain ⟨before, away⟩ := mem_pending_foldl member
    rw [List.mem_filter, not_and] at away
    have unmatched := away (List.mem_map_of_mem before)
    unfold fences
    rw [Bool.and_eq_false_iff]
    exact .inr (by simpa using unmatched)
  · next ordinary => simp [fences, ordinary]

end LogCompaction

/-! ### Traces -/

/-- The merge of a group that no fence of the log parts. -/
structure MergedApart (usd : Usd) (log sources : List ReceivedEvent) (result : ReceivedEvent) :
    Prop where
  merged : MergeOf usd sources result
  apart : ∀ fence ∈ log, fences fence result.mergeKey = true →
    (∀ source ∈ sources, source.seq ≤ fence.seq) ∨ ∀ source ∈ sources, fence.seq ≤ source.seq

/-- An entry and its group; what can still merge has been written after all its fences. -/
structure Trace (usd : Usd) (log sources : List ReceivedEvent) (entry : Bool × ReceivedEvent) : Prop
    extends MergedApart usd log sources entry.2 where
  fresh : entry.1 = true → ∀ fence ∈ log, fences fence entry.2.mergeKey = true →
    ∀ source ∈ sources, fence.seq ≤ source.seq
  kept : entry.1 = false →
    entry.2.mergeKey.kind ≠ .loadPayload ∧ entry.2.mergeKey.kind ≠ .unloadPayload

section Steps

variable {usd : Usd} {log items : List ReceivedEvent} {compaction : LogCompaction}

theorem Grouped.preserve (grouped : Grouped (Trace usd log) items compaction.entries) {key : MergeKey}
    (fixed : key.kind ≠ .loadPayload ∧ key.kind ≠ .unloadPayload) :
    Grouped (Trace usd log) items (compaction.preserve key).entries := by
  unfold LogCompaction.preserve
  split
  · next record found =>
      have moved := (grouped.perm (entries_drop found)).change (false, record) [] ?_
      · rw [List.append_nil] at moved
        exact moved.perm (entries_keep _ record).symm
      · intro sources trace
        rw [List.append_nil]
        have same := mergeKey_of_get? found
        exact ⟨trace.toMergedApart, fun pending => absurd pending Bool.false_ne_true,
          fun _ => same ▸ fixed⟩
  · exact grouped

theorem Grouped.foldl {Key : Type} {step : LogCompaction → Key → LogCompaction} {keys : List Key}
    (each : ∀ current : LogCompaction, Grouped (Trace usd log) items current.entries →
      ∀ key ∈ keys, Grouped (Trace usd log) items (step current key).entries)
    (grouped : Grouped (Trace usd log) items compaction.entries) :
    Grouped (Trace usd log) items (keys.foldl step compaction).entries :=
  List.foldlRecOn (motive := fun current : LogCompaction =>
    Grouped (Trace usd log) items current.entries) keys step grouped each

theorem Grouped.preserveSampleOrder (grouped : Grouped (Trace usd log) items compaction.entries)
    (key : MergeKey) (event : Event) :
    Grouped (Trace usd log) items (compaction.preserveSampleOrder key event).entries := by
  unfold LogCompaction.preserveSampleOrder
  dsimp only
  split
  on_goal 1 => apply Grouped.foldl
  · intro current before other member
    have kind := (List.mem_filter.1 member).2
    refine before.preserve ⟨?_, ?_⟩
    all_goals
      intro load
      simp [load, EventKind.sampleValue] at kind
  all_goals
    apply Grouped.foldl _ grouped
    intro current before table member
    obtain ⟨name, _, rfl⟩ := List.mem_map.1 member
    split
    · split
      · exact before.preserve ⟨EventKind.noConfusion, EventKind.noConfusion⟩
      · exact before
    · exact before

/-- Clearing drops the entries of the keys that the record discards. -/
theorem entries_makeRoom (record : ReceivedEvent) (ordinary : record.event.isExactDeletion = false)
    (kept : ∀ entry ∈ compaction.preserved,
      entry.2.mergeKey.kind ≠ .loadPayload ∧ entry.2.mergeKey.kind ≠ .unloadPayload) :
    (compaction.makeRoom record.mergeKey).entries =
      compaction.entries.filter fun entry => !discards record entry.2.mergeKey := by
  have all : compaction.entries = compaction.entries.filter fun _ => !false := by simp
  unfold LogCompaction.makeRoom discards
  simp only [ordinary, Bool.false_eq_true, if_false]
  generalize record.mergeKey.kind = kind
  cases kind
  all_goals first
    | exact entries_discard compaction _
    | exact all
    | (apply entries_drop_eq
       intro entry member same
       have kinds := kept entry member
       rw [same] at kinds
       simp at kinds)

/-- Filing a record opens a group or adds to the one that is pending. -/
theorem Grouped.store (grouped : Grouped (Trace usd log) items compaction.entries)
    {record : ReceivedEvent} (last : ∀ fence ∈ log, fence.seq ≤ record.seq) :
    Grouped (Trace usd log) (items ++ [record]) (compaction.store usd record).entries := by
  unfold LogCompaction.store
  split
  · next absent =>
      have put := entries_put compaction (filed usd record)
      rw [filed_mergeKey] at put
      have still : (compaction.drop record.mergeKey).entries = compaction.entries := by
        unfold entries drop OrderedDict.pop
        congr 2
        rw [List.filter_eq_self]
        intro entry member
        have other : entry.1 ≠ record.mergeKey := by
          intro same
          rw [← same, OrderedDict.get?_of_mem member] at absent
          cases absent
        simpa using other
      rw [still] at put
      refine (grouped.opened ?_).perm put.symm
      have after : ∀ fence ∈ log, ∀ source ∈ [record], fence.seq ≤ source.seq := by
        intro fence member source here
        rw [List.mem_singleton.1 here]
        exact last fence member
      exact ⟨⟨.first record, fun fence member _ => .inr (after fence member)⟩,
        fun _ fence member _ => after fence member, fun closed => absurd closed.symm Bool.false_ne_true⟩
  · next previous found =>
      have same := mergeKey_of_get? found
      have key := absorbed_mergeKey usd same
      have group := (grouped.perm (entries_drop found)).change
        (true, absorbed usd previous record) [record] ?_
      · unfold absorbed at group key
        split
        · next setup =>
            rw [if_pos setup] at group
            exact group.perm (entries_drop found).symm
        · next other =>
            rw [if_neg other] at group key
            refine group.perm (List.Perm.trans ?_ (entries_put compaction _).symm)
            rw [key]
      · intro sources trace
        have after : ∀ fence ∈ log, fences fence (absorbed usd previous record).mergeKey = true →
            ∀ source ∈ sources ++ [record], fence.seq ≤ source.seq := by
          intro fence member held source inside
          rcases List.mem_append.1 inside with before | here
          · rw [key, ← same] at held
            exact trace.fresh rfl fence member held source before
          · rw [List.mem_singleton.1 here]
            exact last fence member
        exact ⟨⟨.next trace.merged same, fun fence member held => .inr (after fence member held)⟩,
          fun _ => after, fun closed => absurd closed.symm Bool.false_ne_true⟩

/-- One record keeps the groups: it drops those it discards and closes those it fences. -/
theorem Grouped.add (grouped : Grouped (Trace usd log) (surviving log) compaction.entries)
    {record : ReceivedEvent} (later : ∀ old ∈ log, old.seq < record.seq) :
    Grouped (Trace usd (log ++ [record])) (surviving (log ++ [record]))
      (compaction.add usd record).entries := by
  have fenced := grouped.preserveSampleOrder record.mergeKey record.event
  have mergeable : ∀ entry ∈
      (compaction.preserveSampleOrder record.mergeKey record.event).pending.entries,
        fences record entry.1 = false :=
    fun _ member => fences_preserveSampleOrder compaction record member
  rw [surviving_concat]
  unfold LogCompaction.add
  dsimp only
  generalize compaction.preserveSampleOrder record.mergeKey record.event = current at *
  have last : ∀ fence ∈ log ++ [record], fence.seq ≤ record.seq := by
    intro fence member
    rcases List.mem_append.1 member with before | here
    · exact (later fence before).le
    · rw [List.mem_singleton.1 here]
  have extended : Grouped (Trace usd (log ++ [record])) (surviving log) current.entries := by
    apply fenced.mono
    intro sources sub entry member trace
    refine ⟨⟨trace.merged, ?_⟩, ?_, trace.kept⟩
    · intro fence inside held
      rcases List.mem_append.1 inside with before | here
      · exact trace.apart fence before held
      · rw [List.mem_singleton.1 here]
        exact .inl fun source taken => (later source ((surviving_sublist log).subset (sub.subset taken))).le
    · intro pending fence inside held
      rcases List.mem_append.1 inside with before | here
      · exact trace.fresh pending fence before held
      · rw [List.mem_singleton.1 here] at held
        rcases List.mem_append.1 member with preserved | merging
        · obtain ⟨_, _, rfl⟩ := List.mem_map.1 preserved
          cases pending
        · obtain ⟨own, listed, rfl⟩ := List.mem_map.1 merging
          rw [current.pending_keyed own listed, mergeable own listed] at held
          cases held
  have cleared := extended.filter (fun old => !discards record old.mergeKey)
    (fun entry => !discards record entry.2.mergeKey)
    fun sources entry trace source inside => by rw [trace.merged.spec.1 source inside]
  split
  · next deletion =>
      have clears : (if record.mergeKey.kind = .setSdfSpecFields then
          current.discard fun old => old.layerKey = record.mergeKey.layerKey ∧
            old.specPath = record.mergeKey.specPath
          else current).entries = current.entries.filter fun entry =>
            !discards record entry.2.mergeKey := by
        unfold discards
        simp only [deletion, if_true]
        split
        · next kind => simp [entries_discard, kind]
        · next other => simp [other]
      rw [← clears] at cleared
      refine (cleared.opened ?_).perm (entries_keep _ record).symm
      have whole : filed usd record = record ∧ record.mergeKey.kind ≠ .loadPayload ∧
          record.mergeKey.kind ≠ .unloadPayload := by
        obtain ⟨⟨event, _, _⟩, _⟩ := record
        cases event <;> simp_all [Event.isExactDeletion, filed, mergePayload, StoredRecord.mergeKey,
          MergeKey.fromEvent, Event.identity, Event.kind]
      have alone : MergeOf usd [record] (filed usd record) := .first record
      rw [whole.1] at alone
      refine ⟨⟨alone, fun fence member _ => .inr fun source here => ?_⟩,
        fun closed => absurd closed Bool.false_ne_true, fun _ => whole.2⟩
      rw [List.mem_singleton.1 here]
      exact last fence member
  · next ordinary =>
      rw [Bool.not_eq_true] at ordinary
      refine Grouped.store ?_ last
      rw [entries_makeRoom record ordinary]
      · exact cleared
      · intro entry member
        have listed : (false, entry.2) ∈ current.entries :=
          List.mem_append_left _ (List.mem_map.2 ⟨entry, member, rfl⟩)
        obtain ⟨_, trace⟩ := fenced.made listed
        exact trace.kept rfl

end Steps

/-! ### Whole logs -/

/-- The records of stored rows. -/
def numbered (rows : List (Nat × StoredRecord)) : List ReceivedEvent :=
  rows.map fun row => { row.2 with seq := row.1 }

/-- The compaction of stored rows. -/
def compactedLog (usd : Usd) (rows : List (Nat × StoredRecord)) : LogCompaction :=
  (logReduction usd).buildCompacted rows

theorem grouped_compactedLog (usd : Usd) {rows : List (Nat × StoredRecord)}
    (ascending : rows.Pairwise fun first second => first.1 < second.1) :
    Grouped (Trace usd (numbered rows)) (surviving (numbered rows))
      (compactedLog usd rows).entries := by
  induction rows using List.reverseRecOn with
  | nil => exact Grouped.nil
  | append_singleton rows row ih =>
      obtain ⟨before, _, below⟩ := List.pairwise_append.1 ascending
      unfold compactedLog LogReduction.buildCompacted LogReduction.addRows numbered
      rw [List.foldl_append, List.map_append]
      refine (ih before).add fun old member => ?_
      obtain ⟨stored, inside, rfl⟩ := List.mem_map.1 member
      exact below stored inside row List.mem_cons_self

/-- A compacted log is made of the records that no later one discards: each replayed record is the
merge of a group of them that no fence parts, and the replay is in strict order. -/
theorem replayRecords_grouped (usd : Usd) {rows : List (Nat × StoredRecord)}
    (ascending : rows.Pairwise fun first second => first.1 < second.1) :
    Grouped (MergedApart usd (numbered rows)) (surviving (numbered rows))
        (compactedLog usd rows).replayRecords ∧
      (compactedLog usd rows).replayRecords.Pairwise fun first second => first.seq < second.seq := by
  have records : Grouped (MergedApart usd (numbered rows)) (surviving (numbered rows))
      ((compactedLog usd rows).entries.map Prod.snd) :=
    (grouped_compactedLog usd ascending).map Prod.snd fun sources entry trace => trace.toMergedApart
  rw [map_entries] at records
  have replayed := records.perm (List.perm_insertionSort (fun first second : ReceivedEvent =>
    first.seq ≤ second.seq) _).symm
  refine ⟨replayed, ?_⟩
  have distinct : ((surviving (numbered rows)).map (·.seq)).Nodup := by
    apply List.Nodup.sublist ((surviving_sublist _).map _)
    unfold numbered
    rw [List.map_map, List.Nodup, List.pairwise_map]
    exact ascending.imp fun lower => ne_of_lt lower
  have apart := replayed.nodup (fun sources result merged => merged.1.spec.2) distinct
  have total : Std.Total fun first second : ReceivedEvent => first.seq ≤ second.seq :=
    ⟨fun first second => le_total first.seq second.seq⟩
  have trans : IsTrans ReceivedEvent fun first second => first.seq ≤ second.seq :=
    ⟨fun _ _ _ => le_trans⟩
  have sorted := List.pairwise_insertionSort (fun first second : ReceivedEvent =>
    first.seq ≤ second.seq) (compactedLog usd rows).records
  exact (sorted.and (List.pairwise_map.1 apart)).imp fun both => lt_of_le_of_ne both.1 both.2

/-- A translation, its erased samples and a translation after that. -/
def erasedRows : List (Nat × StoredRecord) :=
  [(1, { event := .setXformTrs ["A"] .empty none }),
    (2, { event := .eraseTimeSamples ⟨ScenePath.specPath ["A"], some "xformOp:translate"⟩ [] }),
    (3, { event := .setXformTrs ["A"] .empty none })]

/-- The erased samples stay between the two translations. -/
theorem replayRecords_grouped_erased :
    Grouped (MergedApart (.plain {}) (numbered erasedRows)) (surviving (numbered erasedRows))
        (compactedLog (.plain {}) erasedRows).replayRecords ∧
      (compactedLog (.plain {}) erasedRows).replayRecords.Pairwise
        fun first second => first.seq < second.seq :=
  replayRecords_grouped (.plain {}) (by decide)

/-! ### Children of a payload -/

/-- Place in a segment: creations first, and parents before what is below them. -/
def childRank (record : StoredRecord) : Nat ×ₗ String :=
  toLex (record.event.kind.applyTier, (record.event.prim.getD []).text)

theorem arranged_childSegmentOrder (segment : List StoredRecord) :
    Arranged childRank segment (childSegmentOrder segment) := by
  have sorted := arranged_insertionSort childRank segment
  simp only [childRank, Prod.Lex.toLex_le_toLex] at sorted
  exact sorted

theorem orderChildRecords_eq_inSegments (prim : ScenePath) (segment records : List StoredRecord) :
    orderChildRecords prim segment records = inSegments (fun record => record.event.isBarrier)
      (belowPayload prim) childSegmentOrder segment records := by
  induction records generalizing segment with
  | nil => rfl
  | cons record rest ih =>
      rw [orderChildRecords, inSegments, ih, ih, ih, List.filter_singleton]
      cases belowPayload prim record with
      | true => rfl
      | false =>
          simp only [cond_false, Bool.false_eq_true, if_false, List.append_nil]

/-- The reduced history that the replay of a payload's children is made of. -/
def reducedChildren (usd : Usd) (rows : List (Nat × StoredRecord)) (prim : ScenePath) :
    List StoredRecord :=
  (compactedLog usd (rows.filter fun row => readByChildReplay prim row.2)).replayRecords.map
    (·.toStoredRecord)

/-- Replaying the children of a payload gives each reduced child edit once: deletions, renames and
sample edits where they stand in the history, the edits between two of them by rank. -/
theorem childReplayRecords_order (usd : Usd) (rows : List (Nat × StoredRecord)) (prim : ScenePath) :
    childReplayRecords usd rows prim = orderChildRecords prim [] (reducedChildren usd rows prim) ∧
      ∀ records : List StoredRecord,
        (orderChildRecords prim [] records).Perm (records.filter (belowPayload prim)) ∧
        (∀ before barrier after, records = before ++ barrier :: after →
          barrier.event.isBarrier = true → orderChildRecords prim [] records =
            orderChildRecords prim [] before ++ ([barrier].filter (belowPayload prim) ++
              orderChildRecords prim [] after)) ∧
        ((∀ record ∈ records, record.event.isBarrier = false) →
          Arranged childRank (records.filter (belowPayload prim))
            (orderChildRecords prim [] records)) := by
  refine ⟨rfl, fun records => ?_⟩
  simp only [orderChildRecords_eq_inSegments]
  refine ⟨inSegments_perm arranged_childSegmentOrder [] records, ?_, ?_⟩
  · rintro before barrier after rfl stays
    exact inSegments_barrier arranged_childSegmentOrder stays
  · intro free
    rw [inSegments_of_free free, List.nil_append]
    exact arranged_childSegmentOrder _

end UsdConnect
