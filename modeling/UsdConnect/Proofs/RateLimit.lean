/-
Purpose: What a token bucket promises about any sequence of calls: its bounds, the successes in a
  window, and a caller that waits as long as it was told.
Trusted boundary: none
Main exports: tokenBucketBound
-/
import UsdConnect.Lib.Rows
import UsdConnect.Server.RateLimit
import Mathlib.Tactic.Linarith
import Mathlib.Tactic.NormNum

namespace UsdConnect.TokenBucket

/-! ### What is accepted -/

theorem validate_ok_eq {rate : Rate} {burst : Int} {config : RateLimitConfig}
    (accepted : validateRateLimitConfig rate burst = .ok config) :
    rate = .finite config.rate ∧ config.burst = burst := by
  cases rate with
  | notFinite => cases accepted
  | finite value =>
      simp only [validateRateLimitConfig] at accepted
      by_cases negativeRate : value < 0
      · rw [dif_pos negativeRate] at accepted
        cases accepted
      by_cases negativeBurst : burst < 0
      · rw [dif_neg negativeRate, dif_pos negativeBurst] at accepted
        cases accepted
      by_cases together : value = 0 ↔ burst = 0
      · rw [dif_neg negativeRate, dif_neg negativeBurst, dif_pos together] at accepted
        cases accepted
        exact ⟨rfl, rfl⟩
      · rw [dif_neg negativeRate, dif_neg negativeBurst, dif_neg together] at accepted
        cases accepted

theorem new_ok_eq {rate : Rate} {burst : Int} {now : Rat} {bucket : TokenBucket}
    (accepted : new rate burst now = .ok bucket) :
    rate = .finite bucket.rate ∧ bucket.burst = burst ∧ bucket.tokens = burst ∧
      bucket.last = now := by
  obtain ⟨config, valid, built⟩ := except_bind_eq_ok_iff.1 accepted
  obtain ⟨rateEq, burstEq⟩ := validate_ok_eq valid
  by_cases disabled : config.rate = 0
  · cases (dif_pos disabled).symm.trans built
  · cases (dif_neg disabled).symm.trans built
    exact ⟨rateEq, burstEq, congrArg Int.cast burstEq, rfl⟩

/-- A bucket exists for the configurations with a positive rate and burst, and for no other. -/
theorem exists_new_iff (rate : Rate) (burst : Int) (now : Rat) :
    (∃ bucket, new rate burst now = .ok bucket) ↔
      ∃ value, rate = .finite value ∧ 0 < value ∧ 1 ≤ burst := by
  constructor
  · rintro ⟨bucket, accepted⟩
    obtain ⟨rateEq, burstEq, -, -⟩ := new_ok_eq accepted
    exact ⟨bucket.rate, rateEq, bucket.rate_pos, burstEq ▸ bucket.burst_pos⟩
  · rintro ⟨value, rfl, valuePos, burstPos⟩
    have nonzero : value ≠ 0 := ne_of_gt valuePos
    have burstNonzero : burst ≠ 0 := by omega
    have together : value = 0 ↔ burst = 0 :=
      ⟨fun zero => absurd zero nonzero, fun zero => absurd zero burstNonzero⟩
    have valid : validateRateLimitConfig (.finite value) burst =
        .ok ⟨value, burst, valuePos.le, by omega, together⟩ := by
      simp only [validateRateLimitConfig]
      rw [dif_neg (not_lt.2 valuePos.le), dif_neg (by omega), dif_pos together]
    exact ⟨_, except_bind_eq_ok_iff.2 ⟨_, valid, dif_neg nonzero⟩⟩

/-! ### One call -/

/-- The tokens lie between none and a full bucket. -/
structure WithinBounds (bucket : TokenBucket) : Prop where
  nonneg : 0 ≤ bucket.tokens
  le_burst : bucket.tokens ≤ bucket.burst

theorem one_le_burst (bucket : TokenBucket) : (1 : Rat) ≤ bucket.burst := by
  exact_mod_cast bucket.burst_pos

theorem available_le_burst (bucket : TokenBucket) (now : Rat) :
    bucket.available now ≤ bucket.burst :=
  min_le_left _ _

theorem available_le_refilled (bucket : TokenBucket) (now : Rat) :
    bucket.available now ≤ bucket.tokens + (now - bucket.last) * bucket.rate :=
  min_le_right _ _

theorem refill_nonneg (bucket : TokenBucket) {now : Rat} (later : bucket.last ≤ now) :
    0 ≤ (now - bucket.last) * bucket.rate :=
  mul_nonneg (sub_nonneg.2 later) bucket.rate_pos.le

theorem available_nonneg {bucket : TokenBucket} {now : Rat} (within : bucket.WithinBounds)
    (later : bucket.last ≤ now) : 0 ≤ bucket.available now := by
  have refill := bucket.refill_nonneg later
  have full := bucket.one_le_burst
  have nonneg := within.nonneg
  exact le_min (by linarith) (by linarith)

/-- What a call can do: take a token that is there, or say how long the missing part of one takes
to come in. -/
theorem tryConsume_cases (bucket : TokenBucket) (now : Rat) :
    (1 ≤ bucket.available now ∧
      bucket.tryConsume now =
        (0, { bucket with tokens := bucket.available now - 1, last := now })) ∨
    (bucket.available now < 1 ∧
      bucket.tryConsume now =
        ((1 - bucket.available now) / bucket.rate,
          { bucket with tokens := bucket.available now, last := now })) := by
  by_cases enough : 1 ≤ bucket.available now
  · exact .inl ⟨enough, if_pos enough⟩
  · exact .inr ⟨not_le.1 enough, if_neg enough⟩

theorem tryConsume_last (bucket : TokenBucket) (now : Rat) :
    (bucket.tryConsume now).2.last = now := by
  rcases bucket.tryConsume_cases now with ⟨-, consumed⟩ | ⟨-, refused⟩
  · rw [consumed]
  · rw [refused]

theorem tryConsume_rate (bucket : TokenBucket) (now : Rat) :
    (bucket.tryConsume now).2.rate = bucket.rate := by
  rcases bucket.tryConsume_cases now with ⟨-, consumed⟩ | ⟨-, refused⟩
  · rw [consumed]
  · rw [refused]

theorem tryConsume_burst (bucket : TokenBucket) (now : Rat) :
    (bucket.tryConsume now).2.burst = bucket.burst := by
  rcases bucket.tryConsume_cases now with ⟨-, consumed⟩ | ⟨-, refused⟩
  · rw [consumed]
  · rw [refused]

theorem wait_pos {bucket : TokenBucket} {now : Rat} (short : bucket.available now < 1) :
    0 < (1 - bucket.available now) / bucket.rate :=
  div_pos (sub_pos.2 short) bucket.rate_pos

/-- A call is paid for: what is left, together with the token it took, was available. -/
theorem tryConsume_tokens (bucket : TokenBucket) (now : Rat) :
    (bucket.tryConsume now).2.tokens + (if (bucket.tryConsume now).1 = 0 then 1 else 0) =
      bucket.available now := by
  rcases bucket.tryConsume_cases now with ⟨-, consumed⟩ | ⟨short, refused⟩
  · rw [consumed]
    simp
  · rw [refused]
    simp only [if_neg (wait_pos short).ne']
    exact add_zero _

theorem WithinBounds.tryConsume {bucket : TokenBucket} {now : Rat} (within : bucket.WithinBounds)
    (later : bucket.last ≤ now) : (bucket.tryConsume now).2.WithinBounds := by
  have nonneg := available_nonneg within later
  have atMost := bucket.available_le_burst now
  rcases bucket.tryConsume_cases now with ⟨enough, consumed⟩ | ⟨-, refused⟩
  · rw [consumed]
    exact ⟨sub_nonneg.2 enough, le_trans (sub_le_self _ zero_le_one) atMost⟩
  · rw [refused]
    exact ⟨nonneg, atMost⟩

/-! ### Any number of calls -/

/-- The readings of the clock do not run backwards from the bucket's last call on. -/
def Ordered (bucket : TokenBucket) (times : List Rat) : Prop :=
  (bucket.last :: times).Pairwise (· ≤ ·)

theorem Ordered.first {bucket : TokenBucket} {now : Rat} {times : List Rat}
    (ordered : bucket.Ordered (now :: times)) : bucket.last ≤ now :=
  (List.pairwise_cons.1 ordered).1 now List.mem_cons_self

theorem Ordered.rest {bucket : TokenBucket} {now : Rat} {times : List Rat}
    (ordered : bucket.Ordered (now :: times)) : (bucket.tryConsume now).2.Ordered times := by
  unfold Ordered
  rw [tryConsume_last]
  exact (List.pairwise_cons.1 ordered).2

theorem serve_cons (bucket : TokenBucket) (now : Rat) (times : List Rat) :
    bucket.serve (now :: times) =
      ⟨now, (bucket.tryConsume now).1, (bucket.tryConsume now).2⟩ ::
        (bucket.tryConsume now).2.serve times :=
  rfl

theorem serve_within {times : List Rat} :
    ∀ {bucket : TokenBucket}, bucket.WithinBounds → bucket.Ordered times →
      ∀ call ∈ bucket.serve times, 0 ≤ call.bucket.tokens ∧ call.bucket.tokens ≤ bucket.burst := by
  induction times with
  | nil =>
      intro bucket _ _ call member
      cases member
  | cons now times ih =>
      intro bucket within ordered call member
      have next := within.tryConsume ordered.first
      rw [← bucket.tryConsume_burst now]
      rcases List.mem_cons.1 member with rfl | member
      · exact ⟨next.nonneg, next.le_burst⟩
      · exact ih next ordered.rest call member

/-- The calls come after the bucket's last one. -/
theorem serve_time_ge {times : List Rat} :
    ∀ {bucket : TokenBucket}, bucket.Ordered times →
      ∀ call ∈ bucket.serve times, bucket.last ≤ call.time := by
  induction times with
  | nil =>
      intro bucket _ call member
      cases member
  | cons now times ih =>
      intro bucket ordered call member
      rcases List.mem_cons.1 member with rfl | member
      · exact ordered.first
      · have later := ih ordered.rest call member
        rw [tryConsume_last] at later
        exact ordered.first.trans later

theorem successesWithin_cons (call : Call) (calls : List Call) (start finish : Rat) :
    (successesWithin (call :: calls) start finish : Rat) =
      successesWithin calls start finish +
        if call.Succeeded ∧ start ≤ call.time ∧ call.time ≤ finish then 1 else 0 := by
  unfold successesWithin
  rw [List.countP_cons]
  push_cast
  simp only [decide_eq_true_eq]

theorem successesWithin_eq_zero {calls : List Call} {start finish : Rat}
    (late : ∀ call ∈ calls, finish < call.time) : successesWithin calls start finish = 0 := by
  unfold successesWithin
  rw [List.countP_eq_zero]
  intro call member counted
  exact absurd (of_decide_eq_true counted).2.2 (not_le.2 (late call member))

theorem successesWithin_late {bucket : TokenBucket} {now : Rat} {times : List Rat}
    {start finish : Rat} (ordered : bucket.Ordered (now :: times)) (late : finish < now) :
    successesWithin (bucket.serve (now :: times)) start finish = 0 := by
  apply successesWithin_eq_zero
  intro call member
  rcases List.mem_cons.1 member with rfl | member
  · exact late
  · have after := serve_time_ge ordered.rest call member
    rw [tryConsume_last] at after
    exact late.trans_le after

/-- The tokens are the potential: a call's success is paid from what was available. -/
theorem successes_cons_le {bucket : TokenBucket} {now : Rat} {times : List Rat}
    {start finish : Rat}
    (rest : (successesWithin ((bucket.tryConsume now).2.serve times) start finish : Rat) ≤
      (bucket.tryConsume now).2.tokens + (finish - now) * bucket.rate) :
    (successesWithin (bucket.serve (now :: times)) start finish : Rat) ≤
      bucket.available now + (finish - now) * bucket.rate := by
  have paid := bucket.tryConsume_tokens now
  have taken : (if (bucket.tryConsume now).1 = 0 ∧ start ≤ now ∧ now ≤ finish
      then (1 : Rat) else 0) ≤ if (bucket.tryConsume now).1 = 0 then 1 else 0 := by
    by_cases succeeded : (bucket.tryConsume now).1 = 0
    · rw [if_pos succeeded]
      split <;> norm_num
    · rw [if_neg succeeded, if_neg (fun both => succeeded both.1)]
  rw [serve_cons, successesWithin_cons]
  calc (successesWithin ((bucket.tryConsume now).2.serve times) start finish : Rat) +
        (if (bucket.tryConsume now).1 = 0 ∧ start ≤ now ∧ now ≤ finish then 1 else 0)
      ≤ ((bucket.tryConsume now).2.tokens + (finish - now) * bucket.rate) +
          (if (bucket.tryConsume now).1 = 0 then 1 else 0) := add_le_add rest taken
    _ = bucket.available now + (finish - now) * bucket.rate := by linarith

/-- Up to any time the successes are at most what the bucket holds and what comes in until
then. -/
theorem successes_le_refilled {times : List Rat} {start finish : Rat} :
    ∀ {bucket : TokenBucket}, bucket.WithinBounds → bucket.Ordered times →
      bucket.last ≤ finish →
      (successesWithin (bucket.serve times) start finish : Rat) ≤
        bucket.tokens + (finish - bucket.last) * bucket.rate := by
  induction times with
  | nil =>
      intro bucket within _ before
      have refill := bucket.refill_nonneg before
      have nonneg := within.nonneg
      simp only [serve, successesWithin, List.countP_nil, Nat.cast_zero]
      linarith
  | cons now times ih =>
      intro bucket within ordered before
      rcases le_or_gt now finish with counted | late
      · have rest := ih (within.tryConsume ordered.first) ordered.rest
          (by rw [tryConsume_last]; exact counted)
        rw [tryConsume_last, tryConsume_rate] at rest
        have paid := successes_cons_le rest
        have atMost := bucket.available_le_refilled now
        linarith
      · rw [successesWithin_late ordered late, Nat.cast_zero]
        have refill := bucket.refill_nonneg before
        have nonneg := within.nonneg
        linarith

/-- A window that opens at any time: the bucket is at most full at the first call in it. -/
theorem successes_le_window {times : List Rat} {start length : Rat} (nonneg : 0 ≤ length) :
    ∀ {bucket : TokenBucket}, bucket.WithinBounds → bucket.Ordered times →
      (successesWithin (bucket.serve times) start (start + length) : Rat) ≤
        bucket.burst + bucket.rate * length := by
  induction times with
  | nil =>
      intro bucket _ _
      have full := bucket.one_le_burst
      have refill := mul_nonneg bucket.rate_pos.le nonneg
      simp only [serve, successesWithin, List.countP_nil, Nat.cast_zero]
      linarith
  | cons now times ih =>
      intro bucket within ordered
      have next := within.tryConsume ordered.first
      rcases lt_or_ge now start with early | opened
      · -- Not in the window yet.
        have rest := ih next ordered.rest
        rw [tryConsume_burst, tryConsume_rate] at rest
        rw [serve_cons, successesWithin_cons,
          if_neg (fun both => absurd both.2.1 (not_le.2 early)), add_zero]
        exact rest
      rcases le_or_gt now (start + length) with counted | late
      · have before : (bucket.tryConsume now).2.last ≤ start + length := by
          rw [tryConsume_last]
          exact counted
        have rest := @successes_le_refilled times start _ _ next ordered.rest before
        rw [tryConsume_last, tryConsume_rate] at rest
        have paid := successes_cons_le rest
        have full := bucket.available_le_burst now
        have inWindow : (start + length - now) * bucket.rate ≤ length * bucket.rate :=
          mul_le_mul_of_nonneg_right (by linarith) bucket.rate_pos.le
        linarith
      · rw [successesWithin_late ordered late, Nat.cast_zero]
        have full := bucket.one_le_burst
        have refill := mul_nonneg bucket.rate_pos.le nonneg
        linarith

/-! ### Waiting as long as one was told -/

/-- The bucket has not fallen behind a call that was refused at a time: since then it has been
refilled, up to its burst, and nothing was taken. -/
def RefilledSince (bucket : TokenBucket) (time held : Rat) : Prop :=
  min (bucket.burst : Rat) (held + (bucket.last - time) * bucket.rate) ≤ bucket.tokens

theorem RefilledSince.available {bucket : TokenBucket} {time held now : Rat}
    (since : bucket.RefilledSince time held) (later : bucket.last ≤ now) :
    min (bucket.burst : Rat) (held + (now - time) * bucket.rate) ≤ bucket.available now := by
  have refill := bucket.refill_nonneg later
  refine le_min (min_le_left _ _) ?_
  rcases min_le_iff.1 since with full | behind
  · exact (min_le_left _ _).trans (by linarith)
  · refine (min_le_right _ _).trans ?_
    calc held + (now - time) * bucket.rate
        = (held + (bucket.last - time) * bucket.rate) + (now - bucket.last) * bucket.rate := by
          linarith
      _ ≤ bucket.tokens + (now - bucket.last) * bucket.rate := by linarith

theorem RefilledSince.refused {bucket : TokenBucket} {time held now : Rat}
    (since : bucket.RefilledSince time held) (later : bucket.last ≤ now)
    (refused : (bucket.tryConsume now).1 ≠ 0) :
    (bucket.tryConsume now).2.RefilledSince time held := by
  rcases bucket.tryConsume_cases now with ⟨-, consumed⟩ | ⟨-, kept⟩
  · exact absurd (congrArg Prod.fst consumed) refused
  · rw [kept]
    exact since.available later

/-- Whatever was refused in between, a call late enough finds a whole token. -/
theorem RefilledSince.succeeds {times : List Rat} {time held : Rat} {between after : List Call}
    {later : Call} :
    ∀ {bucket : TokenBucket}, bucket.RefilledSince time held → bucket.Ordered times →
      bucket.serve times = between ++ later :: after →
      (∀ call ∈ between, ¬ call.Succeeded) →
      time + (1 - held) / bucket.rate ≤ later.time → later.Succeeded := by
  induction times generalizing between with
  | nil =>
      intro bucket _ _ served
      cases between <;> cases served
  | cons now times ih =>
      intro bucket since ordered served refused waited
      rw [serve_cons] at served
      cases between with
      | nil =>
          rw [List.nil_append] at served
          obtain ⟨rfl, -⟩ := List.cons.inj served
          have enough : 1 ≤ bucket.available now := by
            refine le_trans (le_min bucket.one_le_burst ?_) (since.available ordered.first)
            have refill : 1 - held ≤ (now - time) * bucket.rate :=
              (div_le_iff₀ bucket.rate_pos).1 (by linarith)
            linarith
          rcases bucket.tryConsume_cases now with ⟨-, consumed⟩ | ⟨short, -⟩
          · exact congrArg Prod.fst consumed
          · exact absurd enough (not_le.2 short)
      | cons first between =>
          rw [List.cons_append] at served
          obtain ⟨rfl, rest⟩ := List.cons.inj served
          have missed := refused _ List.mem_cons_self
          refine ih (since.refused ordered.first missed) ordered.rest rest
            (fun call member => refused call (List.mem_cons_of_mem _ member)) ?_
          rw [tryConsume_rate]
          exact waited

/-- A refused call tells the time after which the next success is certain. -/
theorem succeeds_after_wait {times : List Rat} {before between after : List Call}
    {refused later : Call} :
    ∀ {bucket : TokenBucket}, bucket.Ordered times →
      bucket.serve times = before ++ refused :: between ++ later :: after →
      ¬ refused.Succeeded → (∀ call ∈ between, ¬ call.Succeeded) →
      refused.time + refused.wait ≤ later.time → later.Succeeded := by
  induction times generalizing before with
  | nil =>
      intro bucket _ served
      cases before <;> cases served
  | cons now times ih =>
      intro bucket ordered served missed missedAll waited
      rw [serve_cons] at served
      cases before with
      | nil =>
          rw [List.nil_append, List.cons_append] at served
          obtain ⟨rfl, rest⟩ := List.cons.inj served
          rcases bucket.tryConsume_cases now with ⟨-, consumed⟩ | ⟨-, kept⟩
          · exact absurd (congrArg Prod.fst consumed) missed
          · have inOrder := ordered.rest
            rw [kept] at rest waited inOrder
            have since : TokenBucket.RefilledSince
                { bucket with tokens := bucket.available now, last := now }
                now (bucket.available now) :=
              (min_le_right _ _).trans (by rw [sub_self, zero_mul, add_zero])
            exact since.succeeds inOrder rest missedAll waited
      | cons first before =>
          rw [List.cons_append, List.cons_append] at served
          exact ih ordered.rest (List.cons.inj served).2 missed missedAll waited

/-- A new bucket, called at any non-decreasing sequence of times: after every call the tokens lie
between none and the burst; a closed window of any length, wherever it opens, holds at most
`burst + rate * length` successes; and a call that is made at least as long after a refused one as
the refusal said, with no success in between, succeeds. -/
theorem tokenBucketBound {rate : Rat} {burst : Int} {start : Rat} {times : List Rat}
    {bucket : TokenBucket} (accepted : new (.finite rate) burst start = .ok bucket)
    (ordered : (start :: times).Pairwise (· ≤ ·)) :
    (0 ≤ bucket.tokens ∧ bucket.tokens ≤ burst) ∧
    (∀ call ∈ bucket.serve times, 0 ≤ call.bucket.tokens ∧ call.bucket.tokens ≤ burst) ∧
    (∀ opening length : Rat, 0 ≤ length →
      (successesWithin (bucket.serve times) opening (opening + length) : Rat) ≤
        burst + rate * length) ∧
    (∀ before refused between later after,
      bucket.serve times = before ++ refused :: between ++ later :: after →
      ¬ refused.Succeeded → (∀ call ∈ between, ¬ call.Succeeded) →
      refused.time + refused.wait ≤ later.time → later.Succeeded) := by
  obtain ⟨rateEq, burstEq, tokensEq, lastEq⟩ := new_ok_eq accepted
  cases rateEq
  subst burstEq
  have within : bucket.WithinBounds := by
    have full := bucket.one_le_burst
    exact ⟨by linarith, tokensEq.le⟩
  have inOrder : bucket.Ordered times := by
    unfold Ordered
    rw [lastEq]
    exact ordered
  refine ⟨⟨within.nonneg, within.le_burst⟩, ?_, ?_, ?_⟩
  · exact serve_within within inOrder
  · intro opening length nonneg
    exact successes_le_window nonneg within inOrder
  · intro before refused between later after served
    exact succeeds_after_wait inOrder served

/-- One transaction a second, called at once, after half a second and after two. -/
theorem tokenBucketBound_perSecond :
    ∃ bucket, new (.finite 1) 1 0 = .ok bucket ∧
      (successesWithin (bucket.serve [0, 1 / 2, 2]) 0 (0 + 2) : Rat) ≤ 1 + 1 * 2 := by
  obtain ⟨bucket, accepted⟩ := (exists_new_iff (.finite 1) 1 0).2 ⟨1, rfl, by norm_num, by norm_num⟩
  have ordered : ((0 : Rat) :: [0, 1 / 2, 2]).Pairwise (· ≤ ·) := by
    norm_num
  have bound := (tokenBucketBound accepted ordered).2.2.1 0 2 (by norm_num)
  exact ⟨bucket, accepted, by exact_mod_cast bound⟩

end UsdConnect.TokenBucket
