/-
Purpose: The token bucket that throttles a connection's transactions. Time and tokens are exact
  rationals; the clock is the caller's, one reading for each call.
Trusted boundary: the readings of the monotonic clock
Main exports: validateRateLimitConfig, TokenBucket.new, TokenBucket.tryConsume
-/
import Mathlib.Algebra.Order.Field.Rat
import Mathlib.Tactic.Common

namespace UsdConnect

/-- A rate as the configuration gives it: infinities and NaN are not finite. -/
inductive Rate where
  | finite (value : Rat)
  | notFinite
  deriving Repr, DecidableEq

/-- A configuration that the validation accepts: rate and burst are both zero or both positive. -/
structure RateLimitConfig where
  rate : Rat
  burst : Int
  rate_nonneg : 0 ≤ rate
  burst_nonneg : 0 ≤ burst
  together : rate = 0 ↔ burst = 0
  deriving DecidableEq

/-- Require rate and burst to be disabled or enabled together. -/
def validateRateLimitConfig (rate : Rate) (burst : Int) : Except String RateLimitConfig :=
  match rate with
  | .notFinite => .error "txn_rate must be a finite non-negative number"
  | .finite value =>
      if negativeRate : value < 0 then
        .error "txn_rate must be a finite non-negative number"
      else if negativeBurst : burst < 0 then
        .error "txn_burst must be non-negative"
      else if together : value = 0 ↔ burst = 0 then
        .ok
          { rate := value
            burst
            rate_nonneg := not_lt.1 negativeRate
            burst_nonneg := not_lt.1 negativeBurst
            together }
      else
        .error "txn_rate and txn_burst must both be zero or both be positive"

/-- The bucket: its configuration, the tokens it holds and the time of the last call. -/
structure TokenBucket where
  rate : Rat
  burst : Int
  tokens : Rat
  last : Rat
  rate_pos : 0 < rate
  burst_pos : 1 ≤ burst
  deriving DecidableEq

namespace TokenBucket

/-- A new bucket is full. A disabled limit has no bucket. -/
def new (rate : Rate) (burst : Int) (now : Rat) : Except String TokenBucket := do
  let config ← validateRateLimitConfig rate burst
  if disabled : config.rate = 0 then
    .error "TokenBucket rate and burst must be positive"
  else
    .ok
      { rate := config.rate
        burst := config.burst
        tokens := config.burst
        last := now
        rate_pos := lt_of_le_of_ne config.rate_nonneg (Ne.symm disabled)
        burst_pos := by
          have nonzero : config.burst ≠ 0 := fun zero => disabled (config.together.2 zero)
          have nonneg := config.burst_nonneg
          omega }

/-- What the bucket holds at a time, before anything is taken. -/
def available (bucket : TokenBucket) (now : Rat) : Rat :=
  min bucket.burst (bucket.tokens + (now - bucket.last) * bucket.rate)

/-- Try to consume one token. The result is 0 when one was consumed, otherwise the time to wait
until one becomes available. -/
def tryConsume (bucket : TokenBucket) (now : Rat) : Rat × TokenBucket :=
  let tokens := bucket.available now
  let bucket := { bucket with tokens, last := now }
  if 1 ≤ tokens then
    (0, { bucket with tokens := tokens - 1 })
  else
    ((1 - tokens) / bucket.rate, bucket)

/-- A call as its caller and the bucket saw it: when it was made, what it returned, and the bucket
it left. -/
structure Call where
  time : Rat
  wait : Rat
  bucket : TokenBucket
  deriving DecidableEq

/-- The call consumed a token. -/
def Call.Succeeded (call : Call) : Prop :=
  call.wait = 0

instance (call : Call) : Decidable call.Succeeded :=
  inferInstanceAs (Decidable (call.wait = 0))

/-- One call for each reading of the clock. -/
def serve : TokenBucket → List Rat → List Call
  | _, [] => []
  | bucket, now :: times =>
      let (wait, bucket) := bucket.tryConsume now
      { time := now, wait, bucket } :: bucket.serve times

/-- The calls of a closed window that consumed a token. -/
def successesWithin (calls : List Call) (start finish : Rat) : Nat :=
  calls.countP fun call => call.Succeeded ∧ start ≤ call.time ∧ call.time ≤ finish

end TokenBucket

end UsdConnect
