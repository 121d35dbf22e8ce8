/-
Purpose: Decomposed samples over whole runs: they stay current as long as edits change matrices only
  at their own keys and empty no canonical table beside others.
Trusted boundary: none
Main exports: samplesStayCurrent_of_localEdits, not_samplesStayCurrent_neighbour
-/
import Mathlib.Algebra.Group.Int.Defs
import Mathlib.Data.List.Dedup
import UsdConnect.Client.XformSamples

namespace UsdConnect

variable {Value Matrix Component Fingerprint : Type} [Monoid Matrix] [DecidableEq Fingerprint]

/-! ### The scan -/

/-- A sample that is not in the cache as it is. -/
def ChangedSample (fingerprint : Value → Fingerprint) (source : String → OpAttribute Value)
    (cache : String → SampleCache Fingerprint) (name : String) (time : TimeCode) : Prop :=
  ∃ value, (source name).samples.get? time = some value ∧
    ((cache name).get? time).join ≠ some (fingerprint value)

/-- A cached time without a sample. -/
def LostSample (source : String → OpAttribute Value) (cache : String → SampleCache Fingerprint)
    (name : String) (time : TimeCode) : Prop :=
  ((cache name).get? time).isSome ∧ (source name).samples.get? time = none

/-- The fingerprint of a sample. -/
def sampleMark (fingerprint : Value → Fingerprint) (source : String → OpAttribute Value)
    (name : String) (time : TimeCode) : Option (Option Fingerprint) :=
  ((source name).samples.get? time).map fun value => some (fingerprint value)

namespace StackScan

variable {fingerprint : Value → Fingerprint} {source : String → OpAttribute Value}
  {names : List String}

theorem get?_of_keys_nil {υ : Type} {dict : OrderedDict TimeCode υ} (empty : dict.keys = [])
    (time : TimeCode) : dict.get? time = none :=
  OrderedDict.get?_eq_none (by rw [empty]; exact List.not_mem_nil)

/-- What one op does: nothing, when it has no samples and none were sent, or it is noted, and its
difference recorded when its notice asks for it. -/
theorem scanOp_cases (fingerprint : Value → Fingerprint) (source : String → OpAttribute Value)
    (names : List String) (scan : StackScan Value Fingerprint Component) (index : Nat)
    (op : XformOp) :
    ((source op.attr).samples.keys = [] ∧ (scan.cache op.attr).keys = [] ∧
      scanOp fingerprint source names scan index op = scan) ∨
    (op.attr ∉ names ∧ scanOp fingerprint source names scan index op =
      scan.noteSampled index (!(source op.attr).samples.keys.isEmpty)) ∨
    (op.attr ∈ names ∧ scanOp fingerprint source names scan index op =
      (scan.noteSampled index (!(source op.attr).samples.keys.isEmpty)).record op
        (diffTimeSamples some fingerprint (source op.attr).samples (scan.cache op.attr))) := by
  unfold scanOp
  by_cases plain : (source op.attr).samples.keys = [] ∧ (scan.cache op.attr).keys = []
  · refine .inl ⟨plain.1, plain.2, if_pos ?_⟩
    rw [plain.1, plain.2]
    rfl
  · have sampled : ¬ (!(!(source op.attr).samples.keys.isEmpty) &&
        (scan.cache op.attr).keys.isEmpty) = true := by
      simpa [List.isEmpty_iff] using plain
    by_cases read : op.attr ∈ names
    · exact .inr (.inr ⟨read, (if_neg sampled).trans (if_neg (not_not.2 read))⟩)
    · exact .inr (.inl ⟨read, (if_neg sampled).trans (if_pos read)⟩)

theorem get?_scanOp_cache (scan : StackScan Value Fingerprint Component) (index : Nat)
    (op : XformOp) (name : String) (time : TimeCode) :
    ((scanOp fingerprint source names scan index op).cache name).get? time =
      if name = op.attr ∧ name ∈ names then sampleMark fingerprint source name time
      else (scan.cache name).get? time := by
  rcases scanOp_cases fingerprint source names scan index op with
    ⟨plain, unsent, same⟩ | ⟨unread, same⟩ | ⟨read, same⟩
  · rw [same]
    split
    · next here =>
        rw [here.1, get?_of_keys_nil unsent, sampleMark, get?_of_keys_nil plain]
        rfl
    · rfl
  · have away : ¬ (name = op.attr ∧ name ∈ names) := by
      rintro ⟨rfl, listed⟩
      exact unread listed
    rw [same, if_neg away]
    rfl
  · rw [same]
    by_cases here : name = op.attr
    · subst here
      rw [if_pos ⟨rfl, read⟩]
      simp only [record, noteSampled, Function.update_self]
      exact get?_diff_cache time
    · rw [if_neg (fun both => here both.1)]
      simp only [record, noteSampled, Function.update_of_ne here]

theorem mem_scanOp_dirtyTimes (scan : StackScan Value Fingerprint Component) (index : Nat)
    (op : XformOp) (time : TimeCode) :
    time ∈ (scanOp fingerprint source names scan index op).dirtyTimes ↔
      time ∈ scan.dirtyTimes ∨
        (op.attr ∈ names ∧ ChangedSample fingerprint source scan.cache op.attr time) := by
  rcases scanOp_cases fingerprint source names scan index op with
    ⟨plain, unsent, same⟩ | ⟨unread, same⟩ | ⟨read, same⟩
  · rw [same]
    refine ⟨.inl, ?_⟩
    rintro (before | ⟨-, value, found, -⟩)
    · exact before
    · rw [get?_of_keys_nil plain] at found
      cases found
  · rw [same]
    exact ⟨.inl, fun either => either.elim id fun changed => absurd changed.1 unread⟩
  · rw [same]
    simp only [record, noteSampled, List.mem_append, List.mem_map, Prod.exists,
      exists_and_right, exists_eq_right, mem_diff_dirty, read, true_and, Option.bind_fun_some,
      ChangedSample]

theorem scanOp_removedSamples (scan : StackScan Value Fingerprint Component) (index : Nat)
    (op : XformOp) :
    (scanOp fingerprint source names scan index op).removedSamples = true ↔
      scan.removedSamples = true ∨
        (op.attr ∈ names ∧ ∃ time, LostSample source scan.cache op.attr time) := by
  rcases scanOp_cases fingerprint source names scan index op with
    ⟨plain, unsent, same⟩ | ⟨unread, same⟩ | ⟨read, same⟩
  · rw [same]
    refine ⟨.inl, ?_⟩
    rintro (before | ⟨-, time, sent, -⟩)
    · exact before
    · rw [get?_of_keys_nil unsent] at sent
      cases sent
  · rw [same]
    exact ⟨.inl, fun either => either.elim id fun lost => absurd lost.1 unread⟩
  · rw [same]
    simp only [record, noteSampled, Bool.or_eq_true, Bool.not_eq_true',
      List.isEmpty_eq_false_iff_exists_mem, mem_diff_removed, read, true_and, LostSample,
      OrderedDict.mem_keys_iff_isSome, Bool.not_eq_true, Option.isSome_eq_false_iff,
      Option.isNone_iff_eq_none]

/-! ### The whole scan -/

variable {ops : List XformOp}

theorem get?_scanOps_cache (ops : List XformOp) (name : String) (time : TimeCode) :
    ∀ (index : Nat) (scan : StackScan Value Fingerprint Component),
      ((scanOps fingerprint source names index ops scan).cache name).get? time =
        if name ∈ ops.map (·.attr) ∧ name ∈ names then sampleMark fingerprint source name time
        else (scan.cache name).get? time := by
  induction ops with
  | nil =>
      intro index scan
      exact (if_neg (fun both => List.not_mem_nil both.1)).symm
  | cons op rest ih =>
      intro index scan
      rw [scanOps, ih, get?_scanOp_cache]
      by_cases read : name ∈ names
      · by_cases later : name ∈ rest.map (·.attr)
        · simp [read, later]
        · by_cases here : name = op.attr
          · subst here
            simp [read, later]
          · simp [read, later, here]
      · simp [read]

/-- Once an op's samples are in the cache, another op of the attribute finds nothing changed. -/
theorem changed_scanOp {scan : StackScan Value Fingerprint Component} {index : Nat} {op : XformOp}
    {name : String} {time : TimeCode} :
    ChangedSample fingerprint source (scanOp fingerprint source names scan index op).cache name
        time ↔
      ¬ (name = op.attr ∧ name ∈ names) ∧ ChangedSample fingerprint source scan.cache name time := by
  unfold ChangedSample
  rw [get?_scanOp_cache]
  by_cases here : name = op.attr ∧ name ∈ names
  · rw [if_pos here]
    refine ⟨?_, fun both => absurd here both.1⟩
    rintro ⟨value, found, changed⟩
    rw [sampleMark, found] at changed
    exact absurd rfl changed
  · rw [if_neg here]
    exact ⟨fun changed => ⟨here, changed⟩, And.right⟩

theorem lost_scanOp {scan : StackScan Value Fingerprint Component} {index : Nat} {op : XformOp}
    {name : String} {time : TimeCode} :
    LostSample source (scanOp fingerprint source names scan index op).cache name time ↔
      ¬ (name = op.attr ∧ name ∈ names) ∧ LostSample source scan.cache name time := by
  unfold LostSample
  rw [get?_scanOp_cache]
  by_cases here : name = op.attr ∧ name ∈ names
  · rw [if_pos here]
    refine ⟨?_, fun both => absurd here both.1⟩
    rintro ⟨sent, missing⟩
    rw [sampleMark, missing] at sent
    cases sent
  · rw [if_neg here]
    exact ⟨fun lost => ⟨here, lost⟩, And.right⟩

theorem mem_scanOps_dirtyTimes (ops : List XformOp) (time : TimeCode) :
    ∀ (index : Nat) (scan : StackScan Value Fingerprint Component),
      time ∈ (scanOps fingerprint source names index ops scan).dirtyTimes ↔
        time ∈ scan.dirtyTimes ∨ ∃ op ∈ ops, op.attr ∈ names ∧
          ChangedSample fingerprint source scan.cache op.attr time := by
  induction ops with
  | nil =>
      intro index scan
      simp [scanOps]
  | cons op rest ih =>
      intro index scan
      rw [scanOps, ih, mem_scanOp_dirtyTimes, or_assoc]
      refine or_congr_right ?_
      constructor
      · rintro (⟨read, changed⟩ | ⟨other, member, read, changed⟩)
        · exact ⟨op, List.mem_cons_self, read, changed⟩
        · exact ⟨other, List.mem_cons_of_mem op member, read, (changed_scanOp.1 changed).2⟩
      · rintro ⟨other, member, read, changed⟩
        by_cases here : other.attr = op.attr
        · exact .inl (here ▸ ⟨read, changed⟩)
        · rcases List.mem_cons.1 member with rfl | later
          · exact absurd rfl here
          · exact .inr ⟨other, later, read, changed_scanOp.2 ⟨fun both => here both.1, changed⟩⟩

variable (fingerprint source names) in
theorem scanOps_removedSamples (ops : List XformOp) :
    ∀ (index : Nat) (scan : StackScan Value Fingerprint Component),
      (scanOps fingerprint source names index ops scan).removedSamples = true ↔
        scan.removedSamples = true ∨ ∃ op ∈ ops, op.attr ∈ names ∧
          ∃ time, LostSample source scan.cache op.attr time := by
  induction ops with
  | nil =>
      intro index scan
      simp [scanOps]
  | cons op rest ih =>
      intro index scan
      rw [scanOps, ih, scanOp_removedSamples, or_assoc]
      refine or_congr_right ?_
      constructor
      · rintro (⟨read, lost⟩ | ⟨other, member, read, time, lost⟩)
        · exact ⟨op, List.mem_cons_self, read, lost⟩
        · exact ⟨other, List.mem_cons_of_mem op member, read, time, (lost_scanOp.1 lost).2⟩
      · rintro ⟨other, member, read, time, lost⟩
        by_cases here : other.attr = op.attr
        · exact .inl (here ▸ ⟨read, time, lost⟩)
        · rcases List.mem_cons.1 member with rfl | later
          · exact absurd rfl here
          · exact .inr ⟨other, later, read, time, lost_scanOp.2 ⟨fun both => here both.1, lost⟩⟩

variable (fingerprint source names) in
/-- The loop adds erasures, and none without a lost sample. -/
theorem scanOp_events (scan : StackScan Value Fingerprint Component) (index : Nat) (op : XformOp) :
    (∀ event ∈ (scanOp fingerprint source names scan index op).events,
      event ∈ scan.events ∨ ∃ name times, event = .eraseTimeSamples name times) ∧
    ((scanOp fingerprint source names scan index op).removedSamples = false →
      (scanOp fingerprint source names scan index op).events = scan.events) := by
  rcases scanOp_cases fingerprint source names scan index op with
    ⟨-, -, same⟩ | ⟨-, same⟩ | ⟨-, same⟩
  · rw [same]
    exact ⟨fun _ => .inl, fun _ => rfl⟩
  · rw [same]
    exact ⟨fun _ => .inl, fun _ => rfl⟩
  · rw [same]
    simp only [record, noteSampled]
    refine ⟨?_, fun kept => ?_⟩
    · intro event inside
      split at inside
      · rcases List.mem_append.1 inside with before | new
        · exact .inl before
        · exact .inr ⟨_, _, List.mem_singleton.1 new⟩
      · exact .inl inside
    · rw [(Bool.or_eq_false_iff.1 kept).2, Bool.false_and]
      rfl

theorem scanOps_events (ops : List XformOp) :
    ∀ (index : Nat) (scan : StackScan Value Fingerprint Component),
      (∀ event ∈ (scanOps fingerprint source names index ops scan).events,
        event ∈ scan.events ∨ ∃ name times, event = .eraseTimeSamples name times) ∧
      ((scanOps fingerprint source names index ops scan).removedSamples = false →
        (scanOps fingerprint source names index ops scan).events = scan.events) := by
  induction ops with
  | nil => exact fun _ _ => ⟨fun _ => .inl, fun _ => rfl⟩
  | cons op rest ih =>
      intro index scan
      obtain ⟨shape, kept⟩ := ih (index + 1) (scanOp fingerprint source names scan index op)
      obtain ⟨firstShape, firstKept⟩ :=
        scanOp_events fingerprint source names scan index op
      constructor
      · intro event inside
        rcases shape event inside with before | erase
        · exact firstShape event before
        · exact .inr erase
      · intro nothing
        have first : (scanOp fingerprint source names scan index op).removedSamples = false := by
          by_contra lost
          have later := (scanOps_removedSamples fingerprint source names rest
            (index + 1) _).2 (.inl (Bool.not_eq_false _ ▸ lost))
          rw [scanOps, later] at nothing
          cases nothing
        exact (kept nothing).trans (firstKept first)

/-! ### The single sampled matrix -/

theorem scanOps_append (front back : List XformOp) :
    ∀ (index : Nat) (scan : StackScan Value Fingerprint Component),
      scanOps fingerprint source names index (front ++ back) scan =
        scanOps fingerprint source names (index + front.length) back
          (scanOps fingerprint source names index front scan) := by
  induction front with
  | nil => exact fun _ _ => rfl
  | cons op front ih =>
      intro index scan
      rw [List.cons_append, scanOps, ih, scanOps, List.length_cons]
      congr 1
      omega

theorem scanOp_sampledIndices (scan : StackScan Value Fingerprint Component) (index : Nat)
    (op : XformOp) :
    (scanOp fingerprint source names scan index op).sampledIndices =
      if (source op.attr).samples.keys = [] then scan.sampledIndices
      else scan.sampledIndices ++ [index] := by
  have noted : (scan.noteSampled index (!(source op.attr).samples.keys.isEmpty)).sampledIndices =
      if (source op.attr).samples.keys = [] then scan.sampledIndices
      else scan.sampledIndices ++ [index] := by
    cases keys : (source op.attr).samples.keys <;> rfl
  rcases scanOp_cases fingerprint source names scan index op with
    ⟨plain, -, same⟩ | ⟨-, same⟩ | ⟨-, same⟩
  · rw [same, if_pos plain]
  · rw [same]
    exact noted
  · rw [same]
    exact noted

variable (fingerprint source names) in
theorem mem_sampledIndices (ops : List XformOp) (single : Nat) :
    ∀ (index : Nat) (scan : StackScan Value Fingerprint Component),
      single ∈ (scanOps fingerprint source names index ops scan).sampledIndices ↔
        single ∈ scan.sampledIndices ∨ ∃ (place : Nat) (op : XformOp), ops[place]? = some op ∧
          single = index + place ∧ (source op.attr).samples.keys ≠ [] := by
  induction ops with
  | nil =>
      intro index scan
      simp [scanOps]
  | cons op rest ih =>
      intro index scan
      rw [scanOps, ih, scanOp_sampledIndices]
      constructor
      · rintro (before | ⟨place, other, found, rfl, sampled⟩)
        · split at before
          · exact .inl before
          · next sampled =>
              rcases List.mem_append.1 before with earlier | here
              · exact .inl earlier
              · exact .inr ⟨0, op, rfl, List.mem_singleton.1 here, sampled⟩
        · exact .inr ⟨place + 1, other, found, by omega, sampled⟩
      · rintro (before | ⟨place, other, found, rfl, sampled⟩)
        · left
          split
          · exact before
          · exact List.mem_append_left _ before
        · cases place with
          | zero =>
              cases found
              rw [if_neg sampled]
              exact .inl (List.mem_append_right _ (List.mem_singleton.2 rfl))
          | succ place => exact .inr ⟨place, other, found, by omega, sampled⟩

/-- An op's changed matrices are only touched by the ops of its attribute. -/
theorem scanOp_matrixDirty_of_ne (scan : StackScan Value Fingerprint Component) (index : Nat)
    {op : XformOp} {name : String} (away : name ≠ op.attr) :
    (scanOp fingerprint source names scan index op).matrixDirty name = scan.matrixDirty name := by
  rcases scanOp_cases fingerprint source names scan index op with
    ⟨-, -, same⟩ | ⟨-, same⟩ | ⟨-, same⟩
  · rw [same]
  · rw [same]
    rfl
  · rw [same]
    simp only [record, noteSampled]
    split
    · exact Function.update_of_ne away _ _
    · rfl

theorem scanOps_matrixDirty_of_not_mem (ops : List XformOp) {name : String}
    (away : name ∉ ops.map (·.attr)) :
    ∀ (index : Nat) (scan : StackScan Value Fingerprint Component),
      (scanOps fingerprint source names index ops scan).matrixDirty name =
        scan.matrixDirty name := by
  induction ops with
  | nil => exact fun _ _ => rfl
  | cons op rest ih =>
      intro index scan
      rw [List.map_cons, List.mem_cons, not_or] at away
      rw [scanOps, ih away.2, scanOp_matrixDirty_of_ne scan index away.1]

theorem scanOp_matrixDirty {scan : StackScan Value Fingerprint Component} {index : Nat}
    {op : XformOp} {samples : List (TimeCode × Value)} (untouched : scan.matrixDirty op.attr = none)
    (changed : (scanOp fingerprint source names scan index op).matrixDirty op.attr = some samples) :
    op.opType = .transform ∧
      samples = (diffTimeSamples some fingerprint (source op.attr).samples
        (scan.cache op.attr)).dirty := by
  rcases scanOp_cases fingerprint source names scan index op with
    ⟨-, -, same⟩ | ⟨-, same⟩ | ⟨-, same⟩
  · rw [same, untouched] at changed
    cases changed
  · rw [same] at changed
    cases untouched.symm.trans changed
  · rw [same] at changed
    simp only [record, noteSampled] at changed
    split at changed
    · next matrix =>
        rw [Function.update_self] at changed
        exact ⟨matrix, (Option.some.inj changed).symm⟩
    · rw [untouched] at changed
      cases changed

end StackScan

namespace XformAlgebra

variable (algebra : XformAlgebra Value Matrix Component)

theorem stackTransform_foldl (ops : List XformOp) (source : String → OpAttribute Value)
    (time : Option TimeCode) (first : Matrix) :
    ops.foldl (fun product op =>
      algebra.opTransform op (algebra.valueAt (source op.attr) time) * product) first =
        algebra.stackTransform ops source time * first := by
  induction ops generalizing first with
  | nil => exact (one_mul first).symm
  | cons op rest ih =>
      unfold stackTransform
      rw [List.foldl_cons, List.foldl_cons, ih, ih (_ * 1), mul_one, mul_assoc]

theorem stackTransform_append (front back : List XformOp) (source : String → OpAttribute Value)
    (time : Option TimeCode) :
    algebra.stackTransform (front ++ back) source time =
      algebra.stackTransform back source time * algebra.stackTransform front source time := by
  rw [stackTransform, List.foldl_append, stackTransform_foldl]
  rfl

theorem stackTransform_cons (op : XformOp) (rest : List XformOp)
    (source : String → OpAttribute Value) (time : Option TimeCode) :
    algebra.stackTransform (op :: rest) source time =
      algebra.stackTransform rest source time *
        algebra.opTransform op (algebra.valueAt (source op.attr) time) := by
  rw [stackTransform, List.foldl_cons, stackTransform_foldl, mul_one]

/-- An attribute without samples has its default value at every time. -/
theorem valueAt_static {attr : OpAttribute Value} (static : attr.samples.keys = [])
    (time : TimeCode) : algebra.valueAt attr (some time) = algebra.valueAt attr none := by
  have entries : attr.samples.entries = [] := List.map_eq_nil_iff.1 static
  simp [valueAt, SampleTable.before, SampleTable.after, OrderedDict.get?, entries]

theorem stackTransform_static {ops : List XformOp} {source : String → OpAttribute Value}
    (static : ∀ op ∈ ops, (source op.attr).samples.keys = []) (time : TimeCode) :
    algebra.stackTransform ops source (some time) = algebra.stackTransform ops source none := by
  induction ops with
  | nil => rfl
  | cons op rest ih =>
      rw [stackTransform_cons, stackTransform_cons,
        ih (fun other member => static other (List.mem_cons_of_mem op member)),
        valueAt_static algebra (static op List.mem_cons_self)]

end XformAlgebra

/-- A list with one value for a key gives it. -/
theorem lookup_of_unique {α β : Type} [DecidableEq α] {pairs : List (α × β)} {key : α} {value : β}
    (member : (key, value) ∈ pairs) (unique : ∀ other, (key, other) ∈ pairs → other = value) :
    pairs.lookup key = some value := by
  induction pairs with
  | nil => cases member
  | cons pair rest ih =>
      obtain ⟨first, held⟩ := pair
      rw [List.lookup_cons]
      by_cases here : key = first
      · subst here
        rw [beq_self_eq_true]
        exact congrArg some (unique held List.mem_cons_self)
      · rw [beq_false_of_ne here]
        rcases List.mem_cons.1 member with same | later
        · cases same
          exact absurd rfl here
        · exact ih later (fun other inside => unique other (List.mem_cons_of_mem _ inside))

namespace StackScan

variable (algebra : XformAlgebra Value Matrix Component) {fingerprint : Value → Fingerprint}
  {source : String → OpAttribute Value} {names : List String} {ops : List XformOp}

/-- The changed samples of the only sampled op, which is a matrix op and not inverted. -/
theorem singleMatrix_spec {cache : String → SampleCache Fingerprint} {single : Nat}
    {samples : List (TimeCode × Value)}
    (found : (scanOps fingerprint source names 0 ops
      (.start cache : StackScan Value Fingerprint Component)).singleMatrix ops =
        some (single, samples)) :
    ∃ front op back, ops = front ++ op :: back ∧ single = front.length ∧
      op.opType = .transform ∧ op.inverse = false ∧
      (∀ other ∈ front ++ back, (source other.attr).samples.keys = []) ∧
      samples = (diffTimeSamples some fingerprint (source op.attr).samples
        ((scanOps fingerprint source names 0 front
          (.start cache : StackScan Value Fingerprint Component)).cache op.attr)).dirty ∧
      op.attr ∉ front.map (·.attr) := by
  unfold singleMatrix at found
  split at found
  · next lone indices =>
      obtain ⟨op, placed, chosen⟩ := Option.bind_eq_some_iff.1 found
      split at chosen
      · cases chosen
      · next upright =>
          obtain ⟨changes, changed, same⟩ := Option.map_eq_some_iff.1 chosen
          cases same
          obtain ⟨bound, here⟩ := List.getElem?_eq_some_iff.1 placed
          -- every op with samples stands at the chosen place
          have sampledAt : ∀ place other, ops[place]? = some other →
              (source other.attr).samples.keys ≠ [] → place = single := by
            intro place other there sampled
            have member := (mem_sampledIndices fingerprint source names ops place 0
              (.start cache : StackScan Value Fingerprint Component)).2
              (.inr ⟨place, other, there, (Nat.zero_add place).symm, sampled⟩)
            rw [indices] at member
            exact List.mem_singleton.1 member
          have sampled : (source op.attr).samples.keys ≠ [] := by
            have member : single ∈ (scanOps fingerprint source names 0 ops
                (.start cache : StackScan Value Fingerprint Component)).sampledIndices := by
              rw [indices]
              exact List.mem_singleton_self single
            rcases (mem_sampledIndices _ _ _ ops single 0 _).1 member with before |
              ⟨place, other, there, same, sampled⟩
            · cases before
            · rw [Nat.zero_add] at same
              subst same
              cases placed.symm.trans there
              exact sampled
          have split : ops = ops.take single ++ op :: ops.drop (single + 1) := by
            rw [← here, List.getElem_cons_drop, List.take_append_drop]
          have others : ∀ other ∈ ops.take single ++ ops.drop (single + 1),
              (source other.attr).samples.keys = [] := by
            intro other member
            by_contra animated
            rcases List.mem_append.1 member with before | after
            · obtain ⟨place, inside, there⟩ := List.mem_take_iff_getElem.1 before
              have located : ops[place]? = some other := by
                rw [← there]
                exact List.getElem?_eq_getElem _
              have := sampledAt place other located animated
              omega
            · obtain ⟨place, inside, there⟩ := List.mem_drop_iff_getElem.1 after
              have located : ops[single + 1 + place]? = some other := by
                rw [← there]
                exact List.getElem?_eq_getElem _
              have := sampledAt _ other located animated
              omega
          have apart : ∀ other ∈ ops.take single ++ ops.drop (single + 1), op.attr ≠ other.attr := by
            intro other member same
            exact sampled (same ▸ others other member)
          have frontApart : op.attr ∉ (ops.take single).map (·.attr) := by
            intro member
            obtain ⟨other, inside, same⟩ := List.mem_map.1 member
            exact apart other (List.mem_append_left _ inside) same.symm
          have backApart : op.attr ∉ (ops.drop (single + 1)).map (·.attr) := by
            intro member
            obtain ⟨other, inside, same⟩ := List.mem_map.1 member
            exact apart other (List.mem_append_right _ inside) same.symm
          rw [split, scanOps_append, scanOps, scanOps_matrixDirty_of_not_mem _ backApart] at changed
          have untouched : (scanOps fingerprint source names 0 (ops.take single)
              (.start cache : StackScan Value Fingerprint Component)).matrixDirty op.attr = none :=
            scanOps_matrixDirty_of_not_mem _ frontApart 0 _
          obtain ⟨matrix, recorded⟩ := scanOp_matrixDirty untouched changed
          refine ⟨ops.take single, op, ops.drop (single + 1), split, ?_, matrix,
            Bool.eq_false_iff.2 upright, others, recorded, frontApart⟩
          rw [List.length_take_of_le (Nat.le_of_lt bound)]
  · cases found

theorem localMatrix_of_dirty {cache : String → SampleCache Fingerprint} {time : TimeCode}
    (previousTimes : List TimeCode)
    (dirty : time ∈ ((scanOps fingerprint source names 0 ops
      (.start cache : StackScan Value Fingerprint Component)).rebuilt ops
        previousTimes).dirtyTimes) :
    ((scanOps fingerprint source names 0 ops
      (.start cache : StackScan Value Fingerprint Component)).rebuilt ops previousTimes).localMatrix
        algebra ops source time = some (algebra.stackTransform ops source (some time)) := by
  cases lost : (scanOps fingerprint source names 0 ops
      (.start cache : StackScan Value Fingerprint Component)).removedSamples with
  | true =>
      have cleared : ((scanOps fingerprint source names 0 ops
          (.start cache : StackScan Value Fingerprint Component)).rebuilt ops
            previousTimes).singleMatrix ops = none := by
        unfold singleMatrix rebuilt
        rw [lost, if_pos rfl]
        split
        · next lone _ =>
            cases ops[lone]? with
            | none => rfl
            | some op => exact ite_self none
        · rfl
      unfold localMatrix
      rw [cleared]
  | false =>
      have kept : ((scanOps fingerprint source names 0 ops
          (.start cache : StackScan Value Fingerprint Component)).rebuilt ops previousTimes) =
            scanOps fingerprint source names 0 ops (.start cache) := by
        unfold rebuilt
        rw [lost]
        rfl
      rw [kept] at dirty ⊢
      unfold localMatrix
      cases found : (scanOps fingerprint source names 0 ops
          (.start cache : StackScan Value Fingerprint Component)).singleMatrix ops with
      | none => rfl
      | some chosen =>
          obtain ⟨single, samples⟩ := chosen
          obtain ⟨front, op, back, split, rfl, matrix, upright, static, recorded, apart⟩ :=
            singleMatrix_spec found
          obtain before | ⟨other, member, read, value, held, changed⟩ :=
            (mem_scanOps_dirtyTimes ops time 0 _).1 dirty
          · cases before
          have sampled : (source other.attr).samples.keys ≠ [] := by
            intro empty
            rw [get?_of_keys_nil empty] at held
            cases held
          have same : other = op := by
            rw [split] at member
            rcases List.mem_append.1 member with inFront | rest
            · exact absurd (static other (List.mem_append_left _ inFront)) sampled
            · rcases List.mem_cons.1 rest with here | inBack
              · exact here
              · exact absurd (static other (List.mem_append_right _ inBack)) sampled
          subst same
          have untouched : ((scanOps fingerprint source names 0 front
              (.start cache : StackScan Value Fingerprint Component)).cache other.attr).get? time =
                (cache other.attr).get? time :=
            (get?_scanOps_cache front other.attr time 0 _).trans (if_neg (fun both => apart both.1))
          have looked : samples.lookup time = some value := by
            rw [recorded]
            apply lookup_of_unique
            · rw [mem_diff_dirty, untouched]
              exact ⟨by rw [held]; rfl, changed⟩
            · intro found inside
              have current := (mem_diff_dirty.1 inside).1
              rw [held] at current
              exact (Option.some.inj current).symm
          have now : algebra.valueAt (source other.attr) (some time) = some value := by
            simp [XformAlgebra.valueAt, held]
          have rest : ops.drop (front.length + 1) = back := by
            rw [split]
            simp
          have first : ops.take front.length = front := by
            rw [split]
            exact List.take_left
          have frontStatic := algebra.stackTransform_static
            (fun op member => static op (List.mem_append_left back member)) time
          have backStatic := algebra.stackTransform_static
            (fun op member => static op (List.mem_append_right front member)) time
          have whole : algebra.stackTransform ops source (some time) =
              algebra.stackTransform back source none * algebra.matrixValue value *
                algebra.stackTransform front source none := by
            rw [split, algebra.stackTransform_append, algebra.stackTransform_cons, now,
              algebra.opTransform_matrix other value matrix upright, frontStatic, backStatic]
          rw [whole]
          dsimp only
          rw [rest, first, looked]
          rfl

end StackScan

/-! ### What a build sends -/

/-- Times at which some op has a sample. -/
def unionTimes (ops : List XformOp) (source : String → OpAttribute Value) : List TimeCode :=
  ops.flatMap fun op => (source op.attr).samples.keys

theorem mem_unionTimes {ops : List XformOp} {source : String → OpAttribute Value}
    {time : TimeCode} : time ∈ unionTimes ops source ↔
      ∃ op ∈ ops, ((source op.attr).samples.get? time).isSome := by
  unfold unionTimes
  simp only [List.mem_flatMap, OrderedDict.mem_keys_iff_isSome]

omit [DecidableEq Fingerprint] in
theorem mem_cachedTimes {ops : List XformOp} {cache : String → SampleCache Fingerprint}
    {time : TimeCode} : time ∈ cachedTimes ops cache ↔
      ∃ op ∈ ops, ((cache op.attr).get? time).isSome := by
  unfold cachedTimes
  simp only [List.mem_dedup, List.mem_flatMap, OrderedDict.mem_keys_iff_isSome]

/-- A list mapped to what is always there. -/
theorem mapM_some {α β : Type} {items : List α} {value : α → Option β} (known : α → β)
    (there : ∀ item ∈ items, value item = some (known item)) :
    items.mapM value = some (items.map known) := by
  induction items with
  | nil => rfl
  | cons item rest ih =>
      rw [List.mapM_cons, there item List.mem_cons_self,
        ih (fun other member => there other (List.mem_cons_of_mem item member))]
      rfl

section Batch

variable (algebra : XformAlgebra Value Matrix Component) {fingerprint : Value → Fingerprint}
  {source : String → OpAttribute Value} {names : List String} {ops : List XformOp}
  {cache : String → SampleCache Fingerprint}

/-- The batch: erasures, and a whole sample for every time to send. -/
theorem decomposedXformSampleEvents_eq :
    decomposedXformSampleEvents algebra fingerprint ops source cache names =
      let scan := (scanOps fingerprint source names 0 ops
        (.start cache : StackScan Value Fingerprint Component)).rebuilt ops (cachedTimes ops cache)
      some (scan.events ++ (sortedTimes scan.dirtyTimes.dedup).map (fun time =>
        .setXformTrs TrsField.all (algebra.componentAt ops source time) time), scan.cache) := by
  unfold decomposedXformSampleEvents
  dsimp only
  rw [mapM_some fun time =>
    .setXformTrs TrsField.all (algebra.componentAt ops source time) time]
  · rfl
  · intro time member
    rw [mem_sortedTimes, List.mem_dedup] at member
    rw [StackScan.localMatrix_of_dirty algebra _ member]
    rfl

end Batch

/-! ### The mirror's tables -/

namespace SampleMirror

omit [Monoid Matrix] in
theorem foldl_erasures {events : List (XformSampleEvent Component)}
    (erasures : ∀ event ∈ events, ∃ name times, event = .eraseTimeSamples name times)
    (mirror : SampleMirror Component) (field : TrsField) (time : TimeCode) :
    ((∃ times, .eraseTimeSamples field.opName times ∈ events ∧ time ∈ times) →
      events.foldl SampleMirror.apply mirror field time = none) ∧
    (mirror field time = none → events.foldl SampleMirror.apply mirror field time = none) := by
  induction events generalizing mirror with
  | nil =>
      refine ⟨?_, id⟩
      rintro ⟨times, inside, -⟩
      cases inside
  | cons event rest ih =>
      obtain ⟨name, times, rfl⟩ := erasures event List.mem_cons_self
      obtain ⟨erased, kept⟩ := ih (fun other member =>
        erasures other (List.mem_cons_of_mem _ member)) (mirror.apply (.eraseTimeSamples name times))
      constructor
      · rintro ⟨chosen, member, inside⟩
        rcases List.mem_cons.1 member with same | later
        · cases same
          exact kept (if_pos ⟨rfl, inside⟩)
        · exact erased ⟨chosen, later, inside⟩
      · intro missing
        apply kept
        show (if _ then none else mirror field time) = none
        rw [missing, ite_self]

theorem foldl_samples (values : TimeCode → TrsField → Component) (times : List TimeCode)
    (mirror : SampleMirror Component) (field : TrsField) (time : TimeCode) :
    (times.map fun sampled => XformSampleEvent.setXformTrs TrsField.all (values sampled)
      sampled).foldl SampleMirror.apply mirror field time =
        if time ∈ times then some (values time field) else mirror field time := by
  induction times generalizing mirror with
  | nil => exact (if_neg List.not_mem_nil).symm
  | cons sampled rest ih =>
      rw [List.map_cons, List.foldl_cons, ih]
      have every : field ∈ TrsField.all := by
        cases field <;> decide
      by_cases later : time ∈ rest
      · rw [if_pos later, if_pos (List.mem_cons_of_mem _ later)]
      · rw [if_neg later]
        by_cases here : time = sampled
        · subst here
          exact (if_pos ⟨every, rfl⟩).trans (if_pos List.mem_cons_self).symm
        · have apart : time ∉ sampled :: rest := by
            rw [List.mem_cons, not_or]
            exact ⟨here, later⟩
          exact (if_neg (fun both => here both.2)).trans (if_neg apart).symm

theorem foldl_clears (names : List String) (mirror : SampleMirror Component) (field : TrsField)
    (time : TimeCode) :
    (names.map XformSampleEvent.clearTable).foldl SampleMirror.apply mirror field time =
      if field.opName ∈ names then none else mirror field time := by
  induction names generalizing mirror with
  | nil => exact (if_neg List.not_mem_nil).symm
  | cons name rest ih =>
      rw [List.map_cons, List.foldl_cons, ih]
      by_cases later : field.opName ∈ rest
      · rw [if_pos later, if_pos (List.mem_cons_of_mem _ later)]
      · rw [if_neg later]
        by_cases here : field.opName = name
        · subst here
          exact (if_pos rfl).trans (if_pos List.mem_cons_self).symm
        · have apart : field.opName ∉ name :: rest := by
            rw [List.mem_cons, not_or]
            exact ⟨here, later⟩
          exact (if_neg here).trans (if_neg apart).symm

end SampleMirror

/-- The mirror has the decomposition of the local matrix at exactly the union of the sample times. -/
def SampleMirror.Current (algebra : XformAlgebra Value Matrix Component) (ops : List XformOp)
    (source : String → OpAttribute Value) (mirror : SampleMirror Component) : Prop :=
  ∀ field time, mirror field time =
    if time ∈ unionTimes ops source then some (algebra.componentAt ops source time field) else none

section Batch

variable (algebra : XformAlgebra Value Matrix Component) {fingerprint : Value → Fingerprint}
  {sent source : String → OpAttribute Value} {names : List String} {ops : List XformOp}
  {cache : String → SampleCache Fingerprint}

/-- No changed sample has the fingerprint of the one before. -/
def FingerprintsDiffer (fingerprint : Value → Fingerprint) (ops : List XformOp)
    (sent source : String → OpAttribute Value) : Prop :=
  ∀ op ∈ ops, ∀ before ∈ (sent op.attr).samples.entries,
    ∀ after ∈ (source op.attr).samples.entries, before.1 = after.1 →
      fingerprint before.2 = fingerprint after.2 → before.2 = after.2

/-- Some op has lost a sample, or the local matrix is still the same at each time where no op's own
sample has changed. -/
def MovesOwnTimes (ops : List XformOp) (sent source : String → OpAttribute Value) : Prop :=
  (∃ op ∈ ops, ∃ time ∈ (sent op.attr).samples.keys, time ∉ (source op.attr).samples.keys) ∨
    ∀ time ∈ unionTimes ops source,
      (∀ op ∈ ops, (source op.attr).samples.get? time = (sent op.attr).samples.get? time) →
      algebra.stackTransform ops source (some time) = algebra.stackTransform ops sent (some time)

variable {algebra}

/-- What the scan of a batch that reads every changed table finds. -/
structure ScanFacts (fingerprint : Value → Fingerprint) (ops : List XformOp)
    (sent source : String → OpAttribute Value) (names : List String)
    (scan : StackScan Value Fingerprint Component) : Prop where
  cache : ∀ op ∈ ops, ∀ time,
    (scan.cache op.attr).get? time = sampleMark fingerprint source op.attr time
  dirty : ∀ time ∈ scan.dirtyTimes, time ∈ unionTimes ops source
  unchanged : ∀ time, time ∉ scan.dirtyTimes → scan.removedSamples = false → ∀ op ∈ ops,
    sampleMark fingerprint source op.attr time = sampleMark fingerprint sent op.attr time
  lost : scan.removedSamples = false → ∀ op ∈ ops, ∀ time,
    ((sent op.attr).samples.get? time).isSome → ((source op.attr).samples.get? time).isSome
  erasures : ∀ event ∈ scan.events, ∃ name times, event = .eraseTimeSamples name times
  quiet : scan.removedSamples = false → scan.events = []
  read : scan.dirtyTimes ≠ [] ∨ scan.removedSamples = true → names ≠ []

theorem scanFacts
    (cached : ∀ op ∈ ops, ∀ time,
      (cache op.attr).get? time = sampleMark fingerprint sent op.attr time)
    (unread : ∀ op ∈ ops, op.attr ∉ names → ∀ time,
      sampleMark fingerprint source op.attr time = (cache op.attr).get? time) :
    ScanFacts fingerprint ops sent source names (scanOps fingerprint source names 0 ops
      (.start cache : StackScan Value Fingerprint Component)) := by
  have noLoss : (scanOps fingerprint source names 0 ops
      (.start cache : StackScan Value Fingerprint Component)).removedSamples = false →
      ∀ op ∈ ops, ∀ time, ((sent op.attr).samples.get? time).isSome →
        ((source op.attr).samples.get? time).isSome := by
    intro kept op member time there
    have marked : ((cache op.attr).get? time).isSome := by
      rw [cached op member, sampleMark, Option.isSome_map]
      exact there
    by_contra gone
    rw [Option.not_isSome_iff_eq_none] at gone
    by_cases read : op.attr ∈ names
    · have lost := (StackScan.scanOps_removedSamples fingerprint source names ops 0
        (.start cache : StackScan Value Fingerprint Component)).2
        (.inr ⟨op, member, read, time, marked, gone⟩)
      rw [lost] at kept
      cases kept
    · rw [← unread op member read, sampleMark, gone] at marked
      cases marked
  refine ⟨?_, ?_, ?_, noLoss, ?_, ?_, ?_⟩
  · intro op member time
    rw [StackScan.get?_scanOps_cache]
    split
    · rfl
    · next away =>
        refine (unread op member (fun read => away ⟨?_, read⟩) time).symm
        exact List.mem_map_of_mem member
  · intro time dirty
    rcases (StackScan.mem_scanOps_dirtyTimes ops time 0 _).1 dirty with before |
      ⟨op, member, -, value, held, -⟩
    · cases before
    · exact mem_unionTimes.2 ⟨op, member, by rw [held]; rfl⟩
  · intro time clean kept op member
    by_cases read : op.attr ∈ names
    · cases held : (source op.attr).samples.get? time with
      | none =>
          have missing : (sent op.attr).samples.get? time = none := by
            by_contra there
            have still := noLoss kept op member time (Option.isSome_iff_ne_none.2 there)
            rw [held] at still
            cases still
          rw [sampleMark, sampleMark, held, missing]
      | some value =>
          have same : ((cache op.attr).get? time).join = some (fingerprint value) := by
            by_contra changed
            exact clean ((StackScan.mem_scanOps_dirtyTimes ops time 0 _).2
              (.inr ⟨op, member, read, value, held, changed⟩))
          rw [sampleMark, held, ← cached op member]
          exact (Option.join_eq_some_iff.1 same).symm
    · rw [unread op member read, cached op member]
  · intro event inside
    rcases (StackScan.scanOps_events ops 0 _).1 event inside with before | erasure
    · cases before
    · exact erasure
  · exact (StackScan.scanOps_events ops 0 _).2
  · rintro (dirty | lost) rfl
    · obtain ⟨time, member⟩ := List.exists_mem_of_ne_nil _ dirty
      rcases (StackScan.mem_scanOps_dirtyTimes ops time 0 _).1 member with before |
        ⟨op, -, read, -⟩
      · cases before
      · cases read
    · rcases (StackScan.scanOps_removedSamples _ _ _ ops 0 _).1 lost with before | ⟨op, -, read, -⟩
      · cases before
      · cases read

omit [DecidableEq Fingerprint] in
/-- After a lost sample the times to send are the union of the sample times. -/
theorem ScanFacts.mem_cachedTimes {scan : StackScan Value Fingerprint Component}
    (facts : ScanFacts fingerprint ops sent source names scan) {time : TimeCode} :
    time ∈ cachedTimes ops scan.cache ↔ time ∈ unionTimes ops source := by
  rw [UsdConnect.mem_cachedTimes, mem_unionTimes]
  refine exists_congr fun op => and_congr_right fun member => ?_
  rw [facts.cache op member, sampleMark, Option.isSome_map]

omit [DecidableEq Fingerprint] in
theorem ScanFacts.rebuilt_dirty {scan : StackScan Value Fingerprint Component}
    (facts : ScanFacts fingerprint ops sent source names scan) {previousTimes : List TimeCode}
    {time : TimeCode} (dirty : time ∈ (scan.rebuilt ops previousTimes).dirtyTimes) :
    time ∈ unionTimes ops source ∧ names ≠ [] := by
  unfold StackScan.rebuilt at dirty
  split at dirty
  · next lost => exact ⟨facts.mem_cachedTimes.1 dirty, facts.read (.inr lost)⟩
  · exact ⟨facts.dirty time dirty, facts.read (.inl (List.ne_nil_of_mem dirty))⟩

omit [DecidableEq Fingerprint] in
theorem ScanFacts.rebuilt_erasures {scan : StackScan Value Fingerprint Component}
    (facts : ScanFacts fingerprint ops sent source names scan) (previousTimes : List TimeCode) :
    ∀ event ∈ (scan.rebuilt ops previousTimes).events,
      ∃ name times, event = .eraseTimeSamples name times := by
  intro event member
  unfold StackScan.rebuilt at member
  split at member
  · dsimp only at member
    split at member
    · exact facts.erasures event member
    · rcases List.mem_append.1 member with early | late
      · exact facts.erasures event early
      · obtain ⟨field, -, rfl⟩ := List.mem_map.1 late
        exact ⟨_, _, rfl⟩
  · exact facts.erasures event member

omit [Monoid Matrix] [DecidableEq Fingerprint] in
/-- Where the fingerprints tell changed samples apart, equal marks are equal samples. -/
theorem sample_eq_of_mark (differ : FingerprintsDiffer fingerprint ops sent source) {op : XformOp}
    (member : op ∈ ops) {time : TimeCode}
    (same : sampleMark fingerprint source op.attr time = sampleMark fingerprint sent op.attr time) :
    (source op.attr).samples.get? time = (sent op.attr).samples.get? time := by
  unfold sampleMark at same
  cases now : (source op.attr).samples.get? time with
  | none =>
      rw [now] at same
      exact (Option.map_eq_none_iff.1 same.symm).symm
  | some value =>
      rw [now] at same
      obtain ⟨before, held, equal⟩ := Option.map_eq_some_iff.1 same.symm
      have equalValues : before = value :=
        differ op member (time, before) (OrderedDict.mem_of_get? held) (time, value)
          (OrderedDict.mem_of_get? now) rfl (Option.some.inj equal)
      rw [held, equalValues]

/-- A batch that reads every table which differs from the cache brings the mirror up to date. -/
theorem current_of_batch {mirror : SampleMirror Component}
    (current : mirror.Current algebra ops sent)
    (cached : ∀ op ∈ ops, ∀ time,
      (cache op.attr).get? time = sampleMark fingerprint sent op.attr time)
    (unread : ∀ op ∈ ops, op.attr ∉ names → ∀ time,
      sampleMark fingerprint source op.attr time = (cache op.attr).get? time)
    (differ : FingerprintsDiffer fingerprint ops sent source)
    (moves : MovesOwnTimes algebra ops sent source) {properties : List LocalProperty}
    (whole : unionTimes ops source ≠ [] → names ≠ [] →
      localXformEventFields properties TrsField.all = TrsField.all) :
    ∃ events after, decomposedXformSampleEvents algebra fingerprint ops source cache names =
        some (events, after) ∧
      (∀ op ∈ ops, ∀ time, (after op.attr).get? time = sampleMark fingerprint source op.attr time) ∧
      events.filterMap (filterToLocalOpinions properties) = events ∧
      (events.foldl SampleMirror.apply mirror).Current algebra ops source := by
  refine ⟨_, _, decomposedXformSampleEvents_eq algebra, ?_, ?_, ?_⟩
  all_goals
    have facts : ScanFacts fingerprint ops sent source names (scanOps fingerprint source names 0 ops
      (.start cache : StackScan Value Fingerprint Component)) := scanFacts cached unread
    revert facts
    generalize scanOps fingerprint source names 0 ops
      (.start cache : StackScan Value Fingerprint Component) = scan
    intro facts
  · intro op member time
    unfold StackScan.rebuilt
    split
    · exact facts.cache op member time
    · exact facts.cache op member time
  · refine (List.filterMap_congr (g := some) fun event member => ?_).trans List.filterMap_some
    rcases List.mem_append.1 member with erasure | sample
    · obtain ⟨name, times, rfl⟩ := facts.rebuilt_erasures _ event erasure
      rfl
    · obtain ⟨time, inside, rfl⟩ := List.mem_map.1 sample
      rw [mem_sortedTimes, List.mem_dedup] at inside
      obtain ⟨union, read⟩ := facts.rebuilt_dirty inside
      have kept := whole (List.ne_nil_of_mem union) read
      unfold filterToLocalOpinions
      dsimp only
      rw [kept]
      rfl
  · intro field time
    rw [List.foldl_append, SampleMirror.foldl_samples]
    simp only [mem_sortedTimes, List.mem_dedup]
    have previous : time ∈ cachedTimes ops cache ↔ time ∈ unionTimes ops sent := by
      rw [mem_cachedTimes, mem_unionTimes]
      refine exists_congr fun op => and_congr_right fun member => ?_
      rw [cached op member, sampleMark, Option.isSome_map]
    cases lost : scan.removedSamples with
    | true =>
        have times : (scan.rebuilt ops (cachedTimes ops cache)).dirtyTimes =
            cachedTimes ops scan.cache := by
          unfold StackScan.rebuilt
          rw [if_pos lost]
        rw [times]
        by_cases inside : time ∈ unionTimes ops source
        · rw [if_pos (facts.mem_cachedTimes.2 inside), if_pos inside]
        · have outside : time ∉ cachedTimes ops scan.cache :=
            fun member => inside (facts.mem_cachedTimes.1 member)
          rw [if_neg outside, if_neg inside]
          have effect := SampleMirror.foldl_erasures
            (facts.rebuilt_erasures (cachedTimes ops cache)) mirror field time
          by_cases before : time ∈ unionTimes ops sent
          · have gone : time ∈ (cachedTimes ops cache).filter (· ∉ cachedTimes ops scan.cache) :=
              List.mem_filter.2 ⟨previous.2 before, decide_eq_true outside⟩
            refine effect.1 ⟨_, ?_, gone⟩
            unfold StackScan.rebuilt
            rw [if_pos lost]
            dsimp only
            rw [if_neg (fun empty => List.ne_nil_of_mem gone (List.isEmpty_iff.1 empty))]
            refine List.mem_append_right _ (List.mem_map.2 ⟨field, ?_, rfl⟩)
            cases field <;> decide
          · apply effect.2
            rw [current field time, if_neg before]
    | false =>
        unfold StackScan.rebuilt
        rw [lost]
        simp only [Bool.false_eq_true, if_false]
        rw [facts.quiet lost, List.foldl_nil]
        by_cases dirty : time ∈ scan.dirtyTimes
        · rw [if_pos dirty, if_pos (facts.dirty time dirty)]
        · rw [if_neg dirty, current field time]
          have same : ∀ op ∈ ops,
              (source op.attr).samples.get? time = (sent op.attr).samples.get? time :=
            fun op member =>
              sample_eq_of_mark differ member (facts.unchanged time dirty lost op member)
          have union : time ∈ unionTimes ops sent ↔ time ∈ unionTimes ops source := by
            rw [mem_unionTimes, mem_unionTimes]
            exact exists_congr fun op => and_congr_right fun member => by rw [same op member]
          by_cases inside : time ∈ unionTimes ops source
          · rw [if_pos (union.2 inside), if_pos inside]
            rcases moves with ⟨op, member, gone, there, missing⟩ | unmoved
            · rw [OrderedDict.mem_keys_iff_isSome] at there missing
              exact absurd (facts.lost lost op member gone there) missing
            · unfold XformAlgebra.componentAt
              rw [unmoved time inside same]
          · rw [if_neg (fun member => inside (union.1 member)), if_neg inside]

end Batch

/-! ### Runs -/

namespace XformSession

variable (algebra : XformAlgebra Value Matrix Component) (fingerprint : Value → Fingerprint)
  (ops : List XformOp)

/-- The sandwich of a single sampled matrix is the matrix of the whole stack, at every time that a
scan sends. -/
def FastPathExact : Prop :=
  ∀ (source : String → OpAttribute Value) (cache : String → SampleCache Fingerprint)
    (names : List String) (time : TimeCode),
    let scan : StackScan Value Fingerprint Component :=
      (scanOps fingerprint source names 0 ops (.start cache)).rebuilt ops (cachedTimes ops cache)
    time ∈ scan.dirtyTimes →
      scan.localMatrix algebra ops source time = some (algebra.stackTransform ops source (some time))

/-- Every build of the run succeeds and leaves the mirror current, and the fast path is exact. -/
def SamplesStayCurrent (source : String → OpAttribute Value) (actions : List (XformAction Value)) :
    Prop :=
  (∀ earlier otherMarks later reached, actions = earlier ++ .build otherMarks :: later →
    Machine.run (step algebra fingerprint ops) (initial source) earlier = some reached →
    ∃ next, step algebra fingerprint ops reached (.build otherMarks) = some next ∧
      next.mirror.Current algebra ops reached.source) ∧
  FastPathExact algebra fingerprint ops

/-- The filter leaves the samples that are sent whole. -/
def SendsWholeSamples (session : XformSession Value Component Fingerprint) (otherMarks : Bool) :
    Prop :=
  unionTimes ops session.source ≠ [] → session.emitter.sampleAttributes ops session.source ≠ [] →
    localXformEventFields (session.emitter.localProperties ops session.source otherMarks)
      TrsField.all = TrsField.all

/-- No canonical op's table has been emptied while other ops have samples. -/
def KeepsTables (session : XformSession Value Component Fingerprint) : Prop :=
  unionTimes ops session.source ≠ [] → ∀ field ∈ TrsField.all,
    field.opName ∈ session.emitter.clearedTables →
      (session.source field.opName).samples.keys ≠ []

/-- A build after edits that change the matrix at their own times only, under notices that let its
samples through. -/
def LocalEdits (session : XformSession Value Component Fingerprint) : XformAction Value → Prop
  | .build otherMarks =>
      session.emitter.isDirty = true →
        FingerprintsDiffer fingerprint ops session.sent session.source ∧
        MovesOwnTimes algebra ops session.sent session.source ∧
        session.SendsWholeSamples ops otherMarks ∧ session.KeepsTables ops
  | _ => True

instance [DecidableEq Value] [DecidableEq Matrix]
    (session : XformSession Value Component Fingerprint) (action : XformAction Value) :
    Decidable (session.LocalEdits algebra fingerprint ops action) :=
  match action with
  | .build otherMarks =>
      have : Decidable (FingerprintsDiffer fingerprint ops session.sent session.source) :=
        inferInstanceAs (Decidable (∀ op ∈ ops, ∀ before ∈ (session.sent op.attr).samples.entries,
          ∀ after ∈ (session.source op.attr).samples.entries, before.1 = after.1 →
            fingerprint before.2 = fingerprint after.2 → before.2 = after.2))
      have : Decidable (MovesOwnTimes algebra ops session.sent session.source) :=
        inferInstanceAs (Decidable (_ ∨ _))
      have : Decidable (session.SendsWholeSamples ops otherMarks) :=
        inferInstanceAs (Decidable (_ → _ → _))
      have : Decidable (session.KeepsTables ops) := inferInstanceAs (Decidable (_ → _))
      inferInstanceAs (Decidable (_ → _ ∧ _ ∧ _ ∧ _))
  | .setSample .. | .eraseSample .. | .setDefault .. | .resync => .isTrue trivial

/-- What holds between builds: the cache and the mirror are those of the last build, and notices name
what has changed since. -/
structure Tracked (session : XformSession Value Component Fingerprint) : Prop where
  cached : ∀ op ∈ ops, ∀ time, (session.emitter.cache op.attr).get? time =
    sampleMark fingerprint session.sent op.attr time
  current : session.mirror.Current algebra ops session.sent
  noticed : session.emitter.known = true → ∀ op ∈ ops,
    op.attr ∉ session.emitter.sampleDirtyAttrs →
      (session.source op.attr).samples = (session.sent op.attr).samples
  settled : session.emitter.known = true → session.emitter.dirtyAttrs = [] →
    ∀ op ∈ ops, session.source op.attr = session.sent op.attr

variable {algebra fingerprint ops}

omit [DecidableEq Fingerprint] in
theorem tracked_initial (source : String → OpAttribute Value) :
    Tracked algebra fingerprint ops (initial source) where
  cached _ _ _ := rfl
  current field time := by
    have nothing : time ∉ unionTimes ops fun _ : String => ({} : OpAttribute Value) := by
      intro member
      obtain ⟨op, -, there⟩ := mem_unionTimes.1 member
      cases there
    exact (if_neg nothing).symm
  noticed := nofun
  settled := nofun

omit [DecidableEq Fingerprint] in
/-- An edit whose notice is marked as a sample edit unless the samples stay. -/
theorem Tracked.edit {session : XformSession Value Component Fingerprint}
    (tracked : session.Tracked algebra fingerprint ops) {name : String} {sampled : Bool}
    {attr : OpAttribute Value}
    (kept : sampled = false → attr.samples = (session.source name).samples) :
    (session.edit name sampled attr).Tracked algebra fingerprint ops where
  cached := tracked.cached
  current := tracked.current
  noticed known op member unnoticed := by
    simp only [XformSession.edit, XformEmitter.notice] at known unnoticed ⊢
    cases sampled with
    | true =>
        rw [if_pos rfl, List.mem_append, not_or] at unnoticed
        have away : op.attr ≠ name := fun same => unnoticed.2 (List.mem_singleton.2 same)
        rw [Function.update_of_ne away]
        exact tracked.noticed known op member unnoticed.1
    | false =>
        have before := tracked.noticed known op member unnoticed
        by_cases here : op.attr = name
        · subst here
          rw [Function.update_self, kept rfl, before]
        · rw [Function.update_of_ne here, before]
  settled _ nothing := by
    simp [XformSession.edit, XformEmitter.notice] at nothing

theorem stackTransform_congr {sent source : String → OpAttribute Value}
    (same : ∀ op ∈ ops, source op.attr = sent op.attr) (time : Option TimeCode) :
    algebra.stackTransform ops source time = algebra.stackTransform ops sent time := by
  induction ops with
  | nil => rfl
  | cons op rest ih =>
      rw [algebra.stackTransform_cons, algebra.stackTransform_cons, same op List.mem_cons_self,
        ih fun other member => same other (List.mem_cons_of_mem op member)]

/-- Opinions that agree on the stack make the same mirror current. -/
theorem current_congr {mirror : SampleMirror Component} {sent source : String → OpAttribute Value}
    (same : ∀ op ∈ ops, source op.attr = sent op.attr) (current : mirror.Current algebra ops sent) :
    mirror.Current algebra ops source := by
  intro field time
  have union : time ∈ unionTimes ops source ↔ time ∈ unionTimes ops sent := by
    rw [mem_unionTimes, mem_unionTimes]
    exact exists_congr fun op => and_congr_right fun member => by rw [same op member]
  have values : algebra.componentAt ops source time = algebra.componentAt ops sent time := by
    unfold XformAlgebra.componentAt
    rw [stackTransform_congr same]
  rw [current field time, values]
  exact if_congr union.symm rfl rfl

omit [DecidableEq Fingerprint] in
/-- The tables that a build does not read are as they were sent. -/
theorem Tracked.unread {session : XformSession Value Component Fingerprint}
    (tracked : session.Tracked algebra fingerprint ops) {op : XformOp} (member : op ∈ ops)
    (unread : op.attr ∉ session.emitter.sampleAttributes ops session.source) (time : TimeCode) :
    sampleMark fingerprint session.source op.attr time =
      (session.emitter.cache op.attr).get? time := by
  unfold XformEmitter.sampleAttributes at unread
  split at unread
  · next notices =>
      have known : session.emitter.known = true := by
        rw [XformEmitter.hasAttributeNotices, Bool.and_eq_true, Bool.and_eq_true] at notices
        exact notices.2.1
      rw [tracked.cached op member, sampleMark, sampleMark, tracked.noticed known op member unread]
  · have empty : (session.source op.attr).samples.keys = [] ∧
        (session.emitter.cache op.attr).keys = [] := by
      simpa [List.mem_map_of_mem member] using unread
    rw [StackScan.get?_of_keys_nil empty.2, sampleMark, StackScan.get?_of_keys_nil empty.1]
    rfl

theorem Tracked.build {session : XformSession Value Component Fingerprint}
    (tracked : session.Tracked algebra fingerprint ops)
    (mixed : ∃ op ∈ ops, op.canonicalTrsField = none) {otherMarks : Bool}
    (condition : session.LocalEdits algebra fingerprint ops (.build otherMarks)) :
    ∃ next, step algebra fingerprint ops session (.build otherMarks) = some next ∧
      next.mirror.Current algebra ops session.source ∧
      next.Tracked algebra fingerprint ops := by
  cases dirty : session.emitter.isDirty with
  | false =>
      -- nothing was noticed, so nothing has changed
      rw [XformEmitter.isDirty, Bool.or_eq_false_iff, Bool.or_eq_false_iff] at dirty
      obtain ⟨⟨quiet, met⟩, settled⟩ := dirty
      have known : session.emitter.known = true := by simpa using met
      have nothing : session.emitter.dirtyAttrs = [] := by simpa using quiet
      have same := tracked.settled known nothing
      have current := current_congr same tracked.current
      have built : session.emitter.build algebra fingerprint ops session.source otherMarks =
          some ([], session.emitter) := by
        unfold XformEmitter.build XformEmitter.isDirty
        rw [nothing, known, settled]
        rfl
      refine ⟨{ session with sent := session.source }, ?_, current, ?_, current, fun _ _ _ _ => rfl,
        fun _ _ _ _ => rfl⟩
      · show Option.map _ _ = _
        rw [built]
        rfl
      · intro op member time
        refine (tracked.cached op member time).trans ?_
        show sampleMark fingerprint session.sent op.attr time =
          sampleMark fingerprint session.source op.attr time
        rw [sampleMark, sampleMark, same op member]
  | true =>
      obtain ⟨differ, moves, whole, tables⟩ := condition dirty
      obtain ⟨events, after, sent, cached, kept, current⟩ := current_of_batch tracked.current
        tracked.cached (fun op member read time => tracked.unread member read time) differ moves whole
      have decomposed : ops.any (·.canonicalTrsField.isNone) = true := by
        obtain ⟨op, member, none⟩ := mixed
        exact List.any_eq_true.2 ⟨op, member, by rw [none]; rfl⟩
      have built : session.emitter.build algebra fingerprint ops session.source otherMarks =
          some (events ++ (session.emitter.clearedTables.filter fun name =>
            (session.source name).samples.keys.isEmpty).map XformSampleEvent.clearTable,
            { cache := after, known := true }) := by
        unfold XformEmitter.build xformOpSampleEvents
        rw [dirty, decomposed]
        simp only [Bool.not_true, Bool.false_eq_true, if_false, if_true, sent, Option.map_some, kept]
      have cleared : ((events ++ (session.emitter.clearedTables.filter fun name =>
          (session.source name).samples.keys.isEmpty).map XformSampleEvent.clearTable).foldl SampleMirror.apply
            session.mirror).Current algebra ops session.source := by
        intro field time
        rw [List.foldl_append, SampleMirror.foldl_clears]
        split
        · next emptied =>
            obtain ⟨marked, empty⟩ := List.mem_filter.1 emptied
            have nothing : unionTimes ops session.source = [] := by
              by_contra samples
              have every : field ∈ TrsField.all := by
                cases field <;> decide
              exact tables samples field every marked (List.isEmpty_iff.1 empty)
            rw [nothing, if_neg List.not_mem_nil]
        · exact current field time
      refine ⟨{ session with
          emitter := { cache := after, known := true }
          mirror := _
          sent := session.source }, ?_, cleared, cached, cleared, fun _ _ _ _ => rfl,
        fun _ _ _ _ => rfl⟩
      show Option.map _ _ = _
      rw [built]
      rfl

theorem step_tracked (mixed : ∃ op ∈ ops, op.canonicalTrsField = none)
    (session : XformSession Value Component Fingerprint) (action : XformAction Value)
    (next : XformSession Value Component Fingerprint)
    (tracked : session.Tracked algebra fingerprint ops)
    (condition : session.LocalEdits algebra fingerprint ops action)
    (stepped : step algebra fingerprint ops session action = some next) :
    next.Tracked algebra fingerprint ops := by
  cases action with
  | setSample name time value =>
      simp only [step] at stepped
      split_ifs at stepped
      cases stepped
      exact tracked.edit nofun
  | eraseSample name time =>
      simp only [step] at stepped
      split_ifs at stepped
      cases stepped
      exact tracked.edit nofun
  | setDefault name value =>
      simp only [step] at stepped
      split_ifs at stepped
      cases stepped
      exact tracked.edit fun _ => rfl
  | resync =>
      cases stepped
      exact ⟨tracked.cached, tracked.current, tracked.noticed, tracked.settled⟩
  | build otherMarks =>
      obtain ⟨other, built, -, kept⟩ := tracked.build mixed condition
      cases built.symm.trans stepped
      exact kept

/-- In every run whose builds come after edits that change the local matrix only at times whose own
samples they change, the mirror's decomposed samples stay current. -/
theorem samplesStayCurrent_of_localEdits (algebra : XformAlgebra Value Matrix Component)
    (fingerprint : Value → Fingerprint) (ops : List XformOp)
    (source : String → OpAttribute Value) (actions : List (XformAction Value))
    (mixed : ∃ op ∈ ops, op.canonicalTrsField = none)
    (meets : Machine.StepsMeet (step algebra fingerprint ops) (LocalEdits algebra fingerprint ops)
      (initial source) actions) :
    SamplesStayCurrent algebra fingerprint ops source actions := by
  refine ⟨?_, fun source cache names time dirty => StackScan.localMatrix_of_dirty algebra _ dirty⟩
  rintro earlier otherMarks later reached rfl ran
  have tracked : reached.Tracked algebra fingerprint ops :=
    Machine.run_preserves (step_tracked mixed) earlier _ _ (tracked_initial source) meets.first ran
  obtain ⟨next, built, current, -⟩ := tracked.build mixed (meets.rest ran).1
  exact ⟨next, built, current⟩

/-- Numbers for matrices, with held interpolation. -/
def heldNumbers : XformAlgebra ℤ ℤ ℤ where
  interpolate lower _ _ := lower.2
  opTransform _ value := value.getD 1
  matrixValue := id
  transport := id
  decompose matrix _ := matrix
  opTransform_matrix _ _ _ _ := rfl

/-- A matrix op gets a second sample, then its first one changes. -/
theorem samplesStayCurrent_singleMatrix :
    SamplesStayCurrent heldNumbers id [⟨"xformOp:transform", .transform, false⟩] (fun _ => {})
      [.setSample "xformOp:transform" 0 2, .build false, .setSample "xformOp:transform" 10 3,
        .build false, .setSample "xformOp:transform" 0 5, .build false] :=
  samplesStayCurrent_of_localEdits heldNumbers id _ _ _ (by decide) (by decide +kernel)

def pivotAndMatrix : List XformOp :=
  [⟨"xformOp:translate:pivot", .translate, false⟩, ⟨"xformOp:transform", .transform, false⟩]

/-- A pivot's sample at time 0 changes: the matrix op's sample at time 5, where the pivot is held, is
not sent again. -/
theorem not_samplesStayCurrent_neighbour :
    ¬ SamplesStayCurrent heldNumbers id pivotAndMatrix (fun _ => {})
      [.setSample "xformOp:translate:pivot" 0 2, .setSample "xformOp:transform" 5 3, .build false,
        .setSample "xformOp:translate:pivot" 0 7, .build false] := by
  rintro ⟨current, -⟩
  have stale : ((Machine.run (step heldNumbers id pivotAndMatrix) (initial fun _ => {})
      [.setSample "xformOp:translate:pivot" 0 2, .setSample "xformOp:transform" 5 3, .build false,
        .setSample "xformOp:translate:pivot" 0 7]).bind fun reached =>
      (step heldNumbers id pivotAndMatrix reached (.build false)).map fun next =>
        decide (next.mirror .t 5 = if 5 ∈ unionTimes pivotAndMatrix reached.source then
          some (heldNumbers.componentAt pivotAndMatrix reached.source 5 .t) else none)) =
      some false := by
    decide +kernel
  obtain ⟨reached, ran, after⟩ := Option.bind_eq_some_iff.1 stale
  obtain ⟨next, built, mirrored⟩ := current _ false [] reached rfl ran
  rw [built] at after
  exact of_decide_eq_false (Option.some.inj after) (mirrored .t 5)

end XformSession

end UsdConnect
