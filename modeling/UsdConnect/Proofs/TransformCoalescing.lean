/-
Purpose: Coalescing preserves what a batch does: a value moves back only past transforms of other
  keys, which commute with it, and joins an event that it overwrites.
Trusted boundary: none
Main exports: coalescing_preserves_meaning
-/
import UsdConnect.Client.TransformCoalescing
import Mathlib.Data.List.Induction

namespace UsdConnect

/-! ### Candidates -/

theorem pendingCandidates_concat (pending : List Event) (event : Event) :
    pendingCandidates (pending ++ [event]) =
      (pendingCandidates pending).note event pending.length := by
  unfold pendingCandidates
  rw [List.zipIdx_append, List.foldl_append]
  simp

theorem pendingCandidates_congr {pending others : List Event}
    (keys : pending.map Event.transformKey = others.map Event.transformKey) :
    pendingCandidates pending = pendingCandidates others := by
  induction pending using List.reverseRecOn generalizing others with
  | nil =>
      cases others with
      | nil => rfl
      | cons other others => cases keys
  | append_singleton pending event ih =>
      rw [List.map_append, List.map_singleton] at keys
      obtain ⟨before, last, rfl, beforeKeys, lastKeys⟩ := List.map_eq_append_iff.1 keys.symm
      obtain ⟨other, rfl, otherKey⟩ := List.map_eq_singleton_iff.1 lastKeys
      have length : before.length = pending.length := by
        simpa using congrArg List.length beforeKeys
      rw [pendingCandidates_concat, pendingCandidates_concat, ih beforeKeys.symm, length]
      unfold Candidates.note
      rw [otherKey]

/-- A candidate is the latest event of its key, and only transforms of other keys follow it. -/
theorem candidate_spec {pending : List Event} {key : TransformKey} {position : Nat}
    (found : pendingCandidates pending key = some position) :
    ∃ before previous after, pending = before ++ previous :: after ∧ before.length = position ∧
      previous.transformKey = some key ∧
      ∀ event ∈ after, ∃ other, event.transformKey = some other ∧ other ≠ key := by
  induction pending using List.reverseRecOn with
  | nil => cases found
  | append_singleton pending event ih =>
      rw [pendingCandidates_concat] at found
      unfold Candidates.note at found
      cases keyed : event.transformKey with
      | none =>
          rw [keyed] at found
          cases found
      | some other =>
          rw [keyed] at found
          dsimp only at found
          rw [Function.update_apply] at found
          by_cases same : key = other
          · rw [if_pos same] at found
            cases found
            exact ⟨pending, event, [], rfl, rfl, by rw [keyed, same], nofun⟩
          · rw [if_neg same] at found
            obtain ⟨before, previous, after, rfl, placed, own, apart⟩ := ih found
            refine ⟨before, previous, after ++ [event], by simp, placed, own, ?_⟩
            intro later member
            rcases List.mem_append.1 member with member | member
            · exact apart later member
            · cases List.mem_singleton.1 member
              exact ⟨other, keyed, fun equal => same equal.symm⟩

theorem modify_at_length (before after : List Event) (event : Event) (change : Event → Event) :
    (before ++ event :: after).modify before.length change = before ++ change event :: after := by
  induction before with
  | nil => rfl
  | cons first before ih =>
      rw [List.cons_append, List.length_cons, List.modify_succ_cons, ih]
      rfl

/-- What one turn of the loop does to the list. -/
theorem mergeIncoming_cases (pending : List Event) (event : Event) :
    mergeIncoming (pending, pendingCandidates pending) event =
      (pending ++ [event], pendingCandidates (pending ++ [event])) ∨
    ∃ prim values time before previous after,
      event = .setXformTrs prim values time ∧
      pending = before ++ .setXformTrs prim previous time :: after ∧
      (∀ later ∈ after, ∃ key, later.transformKey = some key ∧ key ≠ (prim, time)) ∧
      mergeIncoming (pending, pendingCandidates pending) event =
        (before ++ .setXformTrs prim (mergedTransform previous values) time :: after,
          pendingCandidates
            (before ++ .setXformTrs prim (mergedTransform previous values) time :: after)) := by
  have appended : (pending ++ [event], (pendingCandidates pending).note event pending.length) =
      (pending ++ [event], pendingCandidates (pending ++ [event])) := by
    rw [pendingCandidates_concat]
  cases event with
  | setXformTrs prim values time =>
      cases found : pendingCandidates pending (prim, time) with
      | none =>
          refine .inl (Eq.trans ?_ appended)
          simp only [mergeIncoming, found]
      | some position =>
          obtain ⟨before, previous, after, rfl, rfl, own, apart⟩ := candidate_spec found
          cases previous with
          | setXformTrs prim' previous time' =>
              cases own
              refine .inr ⟨prim, values, time, before, previous, after, rfl, rfl, apart, ?_⟩
              simp only [mergeIncoming, found]
              rw [modify_at_length]
              refine congrArg (Prod.mk _) (pendingCandidates_congr ?_)
              simp [Event.transformKey]
          | _ => cases own
  | _ => exact .inl appended

theorem mergedTransform_get? (previous incoming : OrderedDict XformField Datum)
    (field : XformField) :
    (mergedTransform previous incoming).get? field =
      (incoming.get? field).or (previous.get? field) := by
  unfold mergedTransform
  rw [OrderedDict.get?_ofEntries_filterMap trsFields
    (fun field => (incoming.get? field).or (previous.get? field)) (by decide)]
  exact if_pos (by cases field <;> decide)

/-! ### Execution -/

namespace BatchRunner

variable {Rest Value : Type} (runner : BatchRunner Rest Value)

theorem exec_append (events later : List Event) (state : BatchState Rest Value) :
    runner.exec (events ++ later) state = runner.exec later (runner.exec events state) :=
  List.foldl_append ..

/-- A prim's ops are the same before and after any transform. -/
theorem opsOf_applySetXformTrs (prim other : ScenePath) (fields : OrderedDict XformField Datum)
    (time : Option TimeCode) (state : BatchState Rest Value) :
    runner.opsOf (runner.applySetXformTrs prim fields time state) other =
      runner.opsOf state other := by
  unfold applySetXformTrs
  cases own : runner.opsOf state prim with
  | none => rfl
  | some ops =>
      cases caching : runner.caching with
      | false => simp [opsOf, caching]
      | true =>
          by_cases same : other = prim
          · rw [same, own]
            simp [opsOf, caching]
          · simp [opsOf, caching, Function.update_of_ne same]

theorem applySetXformTrs_of_ops {prim : ScenePath} {ops : XformField → Bool}
    {state : BatchState Rest Value} (own : runner.opsOf state prim = some ops)
    (fields : OrderedDict XformField Datum) (time : Option TimeCode) :
    runner.applySetXformTrs prim fields time state =
      { state with
        values := runner.write prim time ops fields state.values
        opCache :=
          if runner.caching then Function.update state.opCache prim (some ops)
          else state.opCache } := by
  unfold applySetXformTrs
  rw [own]

theorem applySetXformTrs_of_none {prim : ScenePath} {state : BatchState Rest Value}
    (own : runner.opsOf state prim = none) (fields : OrderedDict XformField Datum)
    (time : Option TimeCode) : runner.applySetXformTrs prim fields time state = state := by
  unfold applySetXformTrs
  rw [own]

theorem write_comm {prim other : ScenePath} {time otherTime : Option TimeCode}
    (apart : (prim, time) ≠ (other, otherTime)) (ops otherOps : XformField → Bool)
    (fields otherFields : OrderedDict XformField Datum) (values : TransformPlace → Option Value) :
    runner.write prim time ops fields (runner.write other otherTime otherOps otherFields values) =
      runner.write other otherTime otherOps otherFields
        (runner.write prim time ops fields values) := by
  funext place
  unfold write
  by_cases here : place.prim = prim ∧ place.time = time ∧ ops place.field = true
  · have elsewhere : ¬ (place.prim = other ∧ place.time = otherTime ∧
        otherOps place.field = true) := by
      rintro ⟨otherPrim, otherPlace, -⟩
      exact apart (Prod.ext (here.1.symm.trans otherPrim) (here.2.1.symm.trans otherPlace))
    rw [if_pos here, if_neg elsewhere, if_neg elsewhere, if_pos here]
  · rw [if_neg here, if_neg here]

/-- Values that overwrite others can be written with them. -/
theorem write_write (prim : ScenePath) (time : Option TimeCode) (ops : XformField → Bool)
    (previous incoming : OrderedDict XformField Datum) (values : TransformPlace → Option Value) :
    runner.write prim time ops incoming (runner.write prim time ops previous values) =
      runner.write prim time ops (mergedTransform previous incoming) values := by
  funext place
  unfold write
  split
  · rw [mergedTransform_get?, Option.map_or, Option.or_assoc]
  · rfl

theorem applySetXformTrs_comm {prim other : ScenePath} {time otherTime : Option TimeCode}
    (apart : (prim, time) ≠ (other, otherTime)) (fields otherFields : OrderedDict XformField Datum)
    (state : BatchState Rest Value) :
    runner.applySetXformTrs prim fields time
        (runner.applySetXformTrs other otherFields otherTime state) =
      runner.applySetXformTrs other otherFields otherTime
        (runner.applySetXformTrs prim fields time state) := by
  have kept := runner.opsOf_applySetXformTrs other prim otherFields otherTime state
  have otherKept := runner.opsOf_applySetXformTrs prim other fields time state
  cases own : runner.opsOf state prim with
  | none =>
      rw [runner.applySetXformTrs_of_none own, runner.applySetXformTrs_of_none (kept.trans own)]
  | some ops =>
      cases otherOwn : runner.opsOf state other with
      | none =>
          rw [runner.applySetXformTrs_of_none otherOwn,
            runner.applySetXformTrs_of_none (otherKept.trans otherOwn)]
      | some otherOps =>
          rw [runner.applySetXformTrs_of_ops (kept.trans own),
            runner.applySetXformTrs_of_ops (otherKept.trans otherOwn),
            runner.applySetXformTrs_of_ops own, runner.applySetXformTrs_of_ops otherOwn]
          have cache : Function.update (Function.update state.opCache other (some otherOps)) prim
                (some ops) =
              Function.update (Function.update state.opCache prim (some ops)) other
                (some otherOps) := by
            by_cases same : prim = other
            · subst same
              cases own.symm.trans otherOwn
              rfl
            · exact Function.update_comm (Ne.symm same) ..
          dsimp only
          rw [runner.write_comm apart]
          cases runner.caching with
          | false => rfl
          | true =>
              rw [if_pos rfl, if_pos rfl, if_pos rfl, if_pos rfl, cache]

theorem applySetXformTrs_absorb (prim : ScenePath) (time : Option TimeCode)
    (previous incoming : OrderedDict XformField Datum) (state : BatchState Rest Value) :
    runner.applySetXformTrs prim incoming time (runner.applySetXformTrs prim previous time state) =
      runner.applySetXformTrs prim (mergedTransform previous incoming) time state := by
  have kept := runner.opsOf_applySetXformTrs prim prim previous time state
  cases own : runner.opsOf state prim with
  | none =>
      rw [runner.applySetXformTrs_of_none (kept.trans own), runner.applySetXformTrs_of_none own,
        runner.applySetXformTrs_of_none own]
  | some ops =>
      rw [runner.applySetXformTrs_of_ops (kept.trans own), runner.applySetXformTrs_of_ops own,
        runner.applySetXformTrs_of_ops own, write_write]
      cases runner.caching with
      | false => rfl
      | true =>
          rw [if_pos rfl, if_pos rfl]
          dsimp only
          rw [Function.update_idem]

/-- A transform commutes with transforms of other keys. -/
theorem exec_apply_comm {prim : ScenePath} {time : Option TimeCode} {after : List Event}
    (apart : ∀ event ∈ after, ∃ key, event.transformKey = some key ∧ key ≠ (prim, time))
    (fields : OrderedDict XformField Datum) :
    ∀ state : BatchState Rest Value,
      runner.applySetXformTrs prim fields time (runner.exec after state) =
        runner.exec after (runner.applySetXformTrs prim fields time state) := by
  induction after with
  | nil => exact fun _ => rfl
  | cons event after ih =>
      intro state
      obtain ⟨key, keyed, other⟩ := apart event List.mem_cons_self
      cases event with
      | setXformTrs otherPrim otherFields otherTime =>
          cases keyed
          refine (ih (fun later member => apart later (List.mem_cons_of_mem _ member)) _).trans ?_
          exact congrArg (runner.exec after)
            (runner.applySetXformTrs_comm (Ne.symm other) fields otherFields state)
      | _ => cases keyed

/-- One turn of the loop does what appending the event does. -/
theorem exec_mergeIncoming (pending : List Event) (event : Event) (state : BatchState Rest Value) :
    runner.exec (mergeIncoming (pending, pendingCandidates pending) event).1 state =
      runner.exec (pending ++ [event]) state := by
  rcases mergeIncoming_cases pending event with appended |
    ⟨prim, values, time, before, previous, after, rfl, rfl, apart, merged⟩
  · rw [appended]
  · rw [merged]
    have absorbed := runner.applySetXformTrs_absorb prim time previous values
      (runner.exec before state)
    have moved := runner.exec_apply_comm apart values
      (runner.applySetXformTrs prim previous time (runner.exec before state))
    calc runner.exec (before ++ .setXformTrs prim (mergedTransform previous values) time :: after)
          state
        = runner.exec after (runner.applySetXformTrs prim (mergedTransform previous values) time
            (runner.exec before state)) := runner.exec_append ..
      _ = runner.applySetXformTrs prim values time (runner.exec after
            (runner.applySetXformTrs prim previous time (runner.exec before state))) := by
          rw [moved, absorbed]
      _ = runner.exec ((before ++ .setXformTrs prim previous time :: after) ++
            [.setXformTrs prim values time]) state := by
          rw [exec_append, exec_append]
          rfl

end BatchRunner

/-! ### The whole loop -/

/-- The loop carries the candidates of the list it has. -/
theorem foldl_mergeIncoming_snd (incoming : List Event) :
    ∀ pending : List Event,
      (incoming.foldl mergeIncoming (pending, pendingCandidates pending)).2 =
        pendingCandidates (incoming.foldl mergeIncoming (pending, pendingCandidates pending)).1 := by
  induction incoming with
  | nil => exact fun _ => rfl
  | cons event incoming ih =>
      intro pending
      rw [List.foldl_cons]
      rcases mergeIncoming_cases pending event with appended |
        ⟨prim, values, time, before, previous, after, rfl, rfl, apart, merged⟩
      · rw [appended]
        exact ih _
      · rw [merged]
        exact ih _

theorem mergeLatest_cons (pending incoming : List Event) (event : Event) :
    mergeLatestTransformEvents pending (event :: incoming) =
      mergeLatestTransformEvents
        (mergeIncoming (pending, pendingCandidates pending) event).1 incoming := by
  have carried := foldl_mergeIncoming_snd [event] pending
  unfold mergeLatestTransformEvents
  rw [List.foldl_cons]
  rw [List.foldl_cons, List.foldl_nil] at carried
  rw [← carried]

theorem mergeLatest_append (pending first second : List Event) :
    mergeLatestTransformEvents pending (first ++ second) =
      mergeLatestTransformEvents (mergeLatestTransformEvents pending first) second := by
  have carried := foldl_mergeIncoming_snd first pending
  unfold mergeLatestTransformEvents
  rw [List.foldl_append, ← carried]

theorem exec_mergeLatest {Rest Value : Type} (runner : BatchRunner Rest Value)
    (incoming : List Event) :
    ∀ (pending : List Event) (state : BatchState Rest Value),
      runner.exec (mergeLatestTransformEvents pending incoming) state =
        runner.exec (pending ++ incoming) state := by
  induction incoming with
  | nil =>
      intro pending state
      rw [List.append_nil]
      rfl
  | cons event incoming ih =>
      intro pending state
      rw [mergeLatest_cons, ih, runner.exec_append, runner.exec_mergeIncoming,
        ← runner.exec_append, List.append_assoc]
      rfl

/-- Merging part by part. -/
theorem foldl_mergeLatest (parts : List (List Event)) :
    ∀ pending : List Event,
      parts.foldl mergeLatestTransformEvents pending =
        mergeLatestTransformEvents pending parts.flatten := by
  induction parts with
  | nil => exact fun _ => rfl
  | cons part parts ih =>
      intro pending
      rw [List.foldl_cons, ih, List.flatten_cons, mergeLatest_append]

/-- Whatever the events other than transforms do, executing the merged batch gives the state that
executing the pending and the incoming events in order gives; the merged batch holds the same
barriers in the same order, and says the same transform values between any two of them; and merging
the incoming events part by part, however they are split, gives the same batch. -/
theorem coalescing_preserves_meaning (pending incoming : List Event) :
    (∀ (Rest Value : Type) (runner : BatchRunner Rest Value) (state : BatchState Rest Value),
      runner.exec (mergeLatestTransformEvents pending incoming) state =
        runner.exec (pending ++ incoming) state) ∧
    sayings (mergeLatestTransformEvents pending incoming) = sayings (pending ++ incoming) ∧
    ∀ parts : List (List Event), parts.flatten = incoming →
      parts.foldl mergeLatestTransformEvents pending =
        mergeLatestTransformEvents pending incoming := by
  refine ⟨fun Rest Value runner state => exec_mergeLatest runner incoming pending state, ?_, ?_⟩
  · unfold sayings
    rw [exec_mergeLatest]
  · rintro parts rfl
    exact foldl_mergeLatest parts pending

end UsdConnect
