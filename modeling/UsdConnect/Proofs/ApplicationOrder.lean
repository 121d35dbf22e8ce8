/-
Purpose: The batched application of events is the application of one after the other in an order
  computed from the batch, also without events that write nothing at their turn.
Trusted boundary: none
Main exports: applicationOrder, applyEventsLoop_eq_forM, applicationOrder_filter
-/
import UsdConnect.Proofs.EventContainment

namespace UsdConnect

/-! ### Leaving out steps that do nothing -/

namespace Edit

variable {State Op Error α : Type} {exec : Op → State → State}

theorem result_forM_cons {item : α} {rest : List α} {step : α → Edit exec Error Unit}
    {state : State} (finished : (step item).result state = .ok ()) :
    ((item :: rest).forM step).result state =
      (rest.forM step).result ((step item).after state) :=
  result_bind_of_ok finished

theorem forM_cons (step : α → Edit exec Error Unit) (item : α) (rest : List α) :
    (item :: rest).forM step = step item >>= fun _ => rest.forM step := rfl

theorem forM_append (step : α → Edit exec Error Unit) (first second : List α) :
    (first ++ second).forM step = first.forM step >>= fun _ => second.forM step := by
  induction first with
  | nil =>
      have nothing : ([] : List α).forM step = pure () := rfl
      rw [List.nil_append, nothing, pure_bind]
  | cons item rest ih =>
      rw [List.cons_append, forM_cons, forM_cons, ih]
      exact (LawfulMonad.bind_assoc _ _ _).symm

/-- A step that returns and leaves the state as it is. -/
structure Idle (program : Edit exec Error Unit) (state : State) : Prop where
  returns : program.result state = .ok ()
  unchanged : program.after state = state

theorem Idle.bind {first : Edit exec Error Unit} {second : Unit → Edit exec Error Unit}
    {state : State} (one : first.Idle state) (two : (second ()).Idle state) :
    (first >>= second).Idle state := by
  constructor
  · rw [result_bind_of_ok one.returns, one.unchanged]
    exact two.returns
  · rw [after_bind_of_ok one.returns, one.unchanged]
    exact two.unchanged

theorem Idle.forM {items : List α} {step : α → Edit exec Error Unit} {state : State}
    (each : ∀ item ∈ items, (step item).Idle state) : (items.forM step).Idle state := by
  induction items with
  | nil => exact ⟨rfl, rfl⟩
  | cons item rest ih =>
      apply (each item List.mem_cons_self).bind
      apply ih
      intro other member
      exact each other (List.mem_cons_of_mem item member)

/-- Steps that are idle whenever their turn comes can be left out. -/
theorem forM_filter_of_idle {step : α → Edit exec Error Unit} {keep : α → Bool} {items : List α}
    {state : State} (idle : ∀ sooner item later, items = sooner ++ item :: later →
      keep item = false → (sooner.forM step).result state = .ok () →
      (step item).Idle ((sooner.forM step).after state)) :
    ((items.filter keep).forM step).result state = (items.forM step).result state ∧
      ((items.filter keep).forM step).after state = (items.forM step).after state := by
  induction items generalizing state with
  | nil => exact ⟨rfl, rfl⟩
  | cons item rest ih =>
      have later : (step item).result state = .ok () →
          ((rest.filter keep).forM step).result ((step item).after state) =
              (rest.forM step).result ((step item).after state) ∧
            ((rest.filter keep).forM step).after ((step item).after state) =
              (rest.forM step).after ((step item).after state) := by
        intro finished
        apply ih
        intro sooner other later split dropped returned
        have turn := idle (item :: sooner) other later (by rw [split]; rfl) dropped
          ((result_forM_cons finished).trans returned)
        rw [after_forM_cons finished] at turn
        exact turn
      cases kept : keep item with
      | false =>
          have own : (step item).Idle state := idle [] item rest rfl kept rfl
          have nothing : (step item).after state = state := own.unchanged
          have others := later own.returns
          rw [nothing] at others
          rw [List.filter_cons_of_neg (by rw [kept]; exact Bool.false_ne_true),
            result_forM_cons own.returns, after_forM_cons own.returns, nothing]
          exact others
      | true =>
          rw [List.filter_cons_of_pos kept]
          cases outcome : (step item).result state with
          | error error =>
              exact ⟨(result_bind_of_error outcome).trans (result_bind_of_error outcome).symm,
                (after_bind_of_error outcome).trans (after_bind_of_error outcome).symm⟩
          | ok value =>
              rw [result_forM_cons outcome, after_forM_cons outcome, result_forM_cons outcome,
                after_forM_cons outcome]
              exact later outcome

end Edit

/-! ### The order of a batch -/

/-- The order in which `apply_events` applies a batch; `segment` has been collected already. -/
def applicationOrder : List Event → List Event → List Event
  | segment, [] => segmentOrder segment
  | segment, event :: rest =>
      if event.isBarrier then segmentOrder segment ++ event :: applicationOrder [] rest
      else applicationOrder (segment ++ [event]) rest

section Order

variable (usd : Usd) (target : LayerId)

/-- One event at its turn. -/
def applyAtTurn (event : Event) : SceneEdit Unit :=
  if event.isBarrier then applyBarrier usd target event else applySegmentEvent usd target event

variable {usd target}

theorem applySegment_eq_forM {segment : List Event}
    (free : ∀ event ∈ segment, event.isBarrier = false) :
    applySegment usd target segment = (segmentOrder segment).forM (applyAtTurn usd target) := by
  have inside : ∀ event ∈ segmentOrder segment, event.isBarrier = false :=
    fun event member => free event (mem_of_mem_segmentOrder member)
  unfold applySegment
  generalize segmentOrder segment = order at inside
  induction order with
  | nil => rfl
  | cons event rest ih =>
      have own : applyAtTurn usd target event = applySegmentEvent usd target event := by
        unfold applyAtTurn
        rw [inside event List.mem_cons_self]
        rfl
      rw [Edit.forM_cons, Edit.forM_cons, own,
        ih fun other member => inside other (List.mem_cons_of_mem event member)]

/-- The batched application is the application in that order. -/
theorem applyEventsLoop_eq_forM {segment : List Event} (events : List Event)
    (free : ∀ event ∈ segment, event.isBarrier = false) :
    applyEventsLoop usd target segment events =
      (applicationOrder segment events).forM (applyAtTurn usd target) := by
  induction events generalizing segment with
  | nil => exact applySegment_eq_forM free
  | cons event rest ih =>
      unfold applyEventsLoop applicationOrder
      cases barrier : event.isBarrier with
      | true =>
          have own : applyAtTurn usd target event = applyBarrier usd target event := by
            unfold applyAtTurn
            rw [barrier]
            rfl
          have start : ∀ other ∈ ([] : List Event), other.isBarrier = false :=
            fun other member => absurd member List.not_mem_nil
          rw [if_pos rfl, if_pos rfl, Edit.forM_append, applySegment_eq_forM free, ih start,
            Edit.forM_cons, own]
      | false =>
          rw [if_neg Bool.false_ne_true, if_neg Bool.false_ne_true]
          apply ih
          intro other member
          rcases List.mem_append.1 member with old | new
          · exact free other old
          · rw [List.mem_singleton.1 new]
            exact barrier

end Order

/-! ### The order of a part of a batch -/

theorem segmentOrder_filter {keep : Event → Bool} {events : List Event}
    (creates : ∀ event ∈ events, event.createsPrim = true → keep event = true) :
    segmentOrder (events.filter keep) = (segmentOrder events).filter keep := by
  have swap : ∀ (test : Event → Bool) (items : List Event),
      (items.filter keep).filter test = (items.filter test).filter keep := by
    intro test items
    rw [List.filter_filter, List.filter_filter]
    apply List.filter_congr
    intro event _
    exact Bool.and_comm _ _
  have sorted : ∀ items : List Event, (∀ event ∈ items, keep event = true) →
      items.filter keep = items := fun items all => List.filter_eq_self.2 all
  unfold segmentOrder
  dsimp only
  rw [swap, swap, swap, swap, swap, List.filter_append, List.filter_append, List.filter_append]
  have made : ∀ event ∈ (events.filter fun event => event.kind.structural).filter
      Event.createsPrim, keep event = true := by
    intro event member
    obtain ⟨inner, creating⟩ := List.mem_filter.1 member
    exact creates event (List.mem_filter.1 inner).1 creating
  rw [sorted _ made, sorted _ fun event member => made event ((List.mem_insertionSort _).1 member)]

/-- Leaving out events that are neither barriers nor creations keeps the order of the others. -/
theorem applicationOrder_filter {keep : Event → Bool} {segment events : List Event}
    (barriers : ∀ event ∈ events, event.isBarrier = true → keep event = true)
    (creates : ∀ event ∈ segment ++ events, event.createsPrim = true → keep event = true) :
    applicationOrder (segment.filter keep) (events.filter keep) =
      (applicationOrder segment events).filter keep := by
  induction events generalizing segment with
  | nil =>
      rw [List.append_nil] at creates
      exact segmentOrder_filter creates
  | cons event rest ih =>
      have later : ∀ other ∈ rest, other.isBarrier = true → keep other = true :=
        fun other member => barriers other (List.mem_cons_of_mem event member)
      have collected : ∀ other ∈ segment, other.createsPrim = true → keep other = true :=
        fun other member => creates other (List.mem_append_left _ member)
      have remaining : ∀ other ∈ rest, other.createsPrim = true → keep other = true :=
        fun other member => creates other
          (List.mem_append_right _ (List.mem_cons_of_mem event member))
      have longer : applicationOrder ((segment ++ [event]).filter keep) (rest.filter keep) =
          (applicationOrder (segment ++ [event]) rest).filter keep := by
        apply ih later
        rw [List.append_assoc]
        exact creates
      cases barrier : event.isBarrier with
      | true =>
          have kept := barriers event List.mem_cons_self barrier
          have fresh : applicationOrder (([] : List Event).filter keep) (rest.filter keep) =
              (applicationOrder [] rest).filter keep := ih later remaining
          rw [List.filter_nil] at fresh
          rw [List.filter_cons_of_pos kept]
          unfold applicationOrder
          rw [if_pos barrier, if_pos barrier, List.filter_append, segmentOrder_filter collected,
            List.filter_cons_of_pos kept, fresh]
      | false =>
          have notBarrier : ¬ event.isBarrier = true := by
            rw [barrier]
            exact Bool.false_ne_true
          have unfolded : applicationOrder segment (event :: rest) =
              applicationOrder (segment ++ [event]) rest := by
            rw [applicationOrder, if_neg notBarrier]
          rw [unfolded, ← longer, List.filter_append]
          cases kept : keep event with
          | true =>
              rw [List.filter_cons_of_pos kept, List.filter_cons_of_pos kept, applicationOrder,
                if_neg notBarrier]
              rfl
          | false =>
              have out : ¬ keep event = true := by
                rw [kept]
                exact Bool.false_ne_true
              rw [List.filter_cons_of_neg out, List.filter_cons_of_neg out, List.filter_nil,
                List.append_nil]

end UsdConnect
