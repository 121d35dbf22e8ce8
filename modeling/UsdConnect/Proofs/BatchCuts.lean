/-
Purpose: The order of a batch is a stable arrangement of its segments by tier and depth, and when a
  batch cut in two is applied in the same order.
Trusted boundary: none
Main exports: Event.rank, arranged_segmentOrder, applyEvents_takes_order
-/
import Mathlib.Data.Prod.Lex
import UsdConnect.Lib.StableOrder
import UsdConnect.Proofs.ApplicationOrder

namespace UsdConnect

/-! ### Segments -/

/-- Creations come first, API schema overs after other structural events, values last. -/
def Event.tier (event : Event) : Nat :=
  if event.kind.structural then
    if event.createsPrim then 0 else if event.isApiSchemaOver then 2 else 1
  else 3

/-- Place of an event in its segment: by tier, creations by depth. -/
def Event.rank (event : Event) : Nat ×ₗ Nat :=
  toLex (event.tier, if event.tier = 0 then event.depth else 0)

theorem Event.rank_lt_of_tier {first second : Event} (lower : first.tier < second.tier) :
    first.rank < second.rank :=
  Prod.Lex.toLex_lt_toLex.2 (.inl lower)

theorem Event.isApiSchemaOver_of_create {event : Event} (creates : event.createsPrim = true) :
    event.isApiSchemaOver = false := by
  unfold Event.createsPrim at creates
  simp_all

/-- The events of one tier in their order. -/
def tierOrder (events : List Event) : Nat → List Event
  | 0 => (events.filter fun event => event.tier = 0).insertionSort fun first second =>
      first.depth ≤ second.depth
  | level => events.filter fun event => event.tier = level

theorem segmentOrder_eq_tiers (events : List Event) :
    segmentOrder events = (List.range 4).flatMap (tierOrder events) := by
  have tiers : (List.range 4).flatMap (tierOrder events) = tierOrder events 0 ++
      tierOrder events 1 ++ tierOrder events 2 ++ tierOrder events 3 := by
    simp [List.range_succ]
  have classes : ∀ event : Event,
      (event.createsPrim && event.kind.structural) = decide (event.tier = 0) ∧
      (!event.createsPrim && !event.isApiSchemaOver && event.kind.structural) =
        decide (event.tier = 1) ∧
      (event.isApiSchemaOver && event.kind.structural) = decide (event.tier = 2) ∧
      (!event.kind.structural) = decide (event.tier = 3) := by
    intro event
    unfold Event.tier
    cases creates : event.createsPrim with
    | true =>
        rw [event.isApiSchemaOver_of_create creates]
        cases event.kind.structural <;> decide
    | false => cases event.kind.structural <;> cases event.isApiSchemaOver <;> decide
  rw [tiers]
  simp only [segmentOrder, tierOrder, List.filter_filter, (classes _).1, (classes _).2.1,
    (classes _).2.2.1, (classes _).2.2.2]

/-- The dependency order of a segment is its arrangement by rank. -/
theorem arranged_segmentOrder (events : List Event) :
    Arranged Event.rank events (segmentOrder events) := by
  have each : ∀ level,
      Arranged Event.rank (events.filter fun event => event.tier = level) (tierOrder events level) := by
    intro level
    have sorted := arranged_insertionSort Event.rank (events.filter fun event => event.tier = level)
    cases level with
    | zero =>
        have same := List.map_insertionSort (r := fun first second : Event => first.depth ≤ second.depth)
          (s := fun first second : Event => first.rank ≤ second.rank) id
          (events.filter fun event => event.tier = 0) ?_
        · rw [List.map_id, List.map_id] at same
          rwa [tierOrder, same]
        · intro first one second two
          have creates := of_decide_eq_true (List.mem_filter.1 one).2
          have others := of_decide_eq_true (List.mem_filter.1 two).2
          simp [Event.rank, creates, others, Prod.Lex.toLex_le_toLex]
    | succ level =>
        apply Arranged.self
        rw [List.pairwise_filter]
        exact List.pairwise_of_forall fun first second one two => by
          simp [Event.rank, of_decide_eq_true one, of_decide_eq_true two]
  have whole := arranged_tiers (fun _ _ => Event.rank_lt_of_tier) each 4
  have all : (events.filter fun event => event.tier < 4) = events := by
    rw [List.filter_eq_self]
    intro event _
    unfold Event.tier
    split_ifs <;> rfl
  rwa [all, ← segmentOrder_eq_tiers] at whole

/-! ### Whole batches -/

theorem applicationOrder_eq_inSegments (segment events : List Event) :
    applicationOrder segment events =
      inSegments Event.isBarrier (fun _ => true) segmentOrder segment events := by
  induction events generalizing segment with
  | nil => rfl
  | cons event rest ih =>
      rw [applicationOrder, inSegments, ih, ih, List.append_assoc]
      rfl

/-- A batch of validated events takes each of its events once: barriers where they stand, a stretch
without barriers by rank and otherwise as it stands. It is the same as two batches one after the
other in the same order exactly when the cut between them fits. -/
theorem applyEvents_takes_order (usd : Usd) (target : LayerId) (events : List Event) :
    applyEvents usd target events true =
        (applicationOrder [] events).forM (applyAtTurn usd target) ∧
      (applicationOrder [] events).Perm events ∧
      (∀ before barrier after, events = before ++ barrier :: after → barrier.isBarrier = true →
        applicationOrder [] events =
          applicationOrder [] before ++ barrier :: applicationOrder [] after) ∧
      ((∀ event ∈ events, event.isBarrier = false) →
        Arranged Event.rank events (applicationOrder [] events)) ∧
      ∀ before after, events = before ++ after →
        (applicationOrder [] events = applicationOrder [] before ++ applicationOrder [] after ↔
          CutFits Event.isBarrier (fun _ => true) Event.rank before after) := by
  refine ⟨applyEventsLoop_eq_forM events fun _ inside => absurd inside List.not_mem_nil, ?_⟩
  have all : events.filter (fun _ => true) = events := List.filter_true events
  simp only [applicationOrder_eq_inSegments]
  refine ⟨?_, ?_, ?_, ?_⟩
  · have kept : (inSegments Event.isBarrier (fun _ => true) segmentOrder [] events).Perm
        (events.filter fun _ => true) := inSegments_perm arranged_segmentOrder [] events
    rwa [all] at kept
  · rintro before barrier after rfl stays
    exact inSegments_barrier arranged_segmentOrder stays
  · intro free
    rw [inSegments_of_free free, all]
    exact arranged_segmentOrder events
  · rintro before after rfl
    exact inSegments_append_iff arranged_segmentOrder

end UsdConnect
