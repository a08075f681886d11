import Cordon.Core.Identity
import Cordon.Lib.Table
import Mathlib.Data.Rat.Defs
import Mathlib.Data.Rat.Floor

/-!
# The rate limiter

Every client has a bucket of requests and a bucket of output tokens that fill with time. A check
takes one request and **reserves** the largest output the request may produce; `settle` gives back
what was not produced. What a client is charged is read off its bucket: `outputTokens_check` says
what an allowed check takes from it, once it has been refilled, and `outputTokens_settle` what a
settlement gives back.

Both find the bucket by the client's name, and it need not be the same bucket, or there at all: a
suspension removes it (`removeClient`), and every hour the buckets go that no check has refilled for
an hour (`pruneStaleBuckets`). **A settlement that finds no bucket gives nothing back.**

The code computes with binary floating point. The model computes with rational numbers, so it says
what the limiter does up to rounding.
-/

namespace Cordon

/-- Token bucket state for a single client. -/
structure ClientBucket where
  /-- Tokens available for requests. -/
  requestTokens : ℚ
  /-- Tokens available for output. -/
  outputTokens : ℚ
  lastRefill : ℤ
  maxRequestsPerMinute : ℚ
  maxTokensPerMinute : ℚ
  burstMultiplier : ℚ
  violationsThisMinute : ℕ
  violationWindowStart : ℤ
  deriving DecidableEq, Repr

/-- A bucket starts at the steady-state capacity, not at the burst ceiling. -/
def ClientBucket.new (now : ℤ) (policy : ClientPolicy) : ClientBucket where
  requestTokens := policy.maxRequestsPerMinute
  outputTokens := policy.maxTokensPerMinute
  lastRefill := now
  maxRequestsPerMinute := policy.maxRequestsPerMinute
  maxTokensPerMinute := policy.maxTokensPerMinute
  burstMultiplier := 2
  violationsThisMinute := 0
  violationWindowStart := now

/-- Refill tokens based on the whole milliseconds elapsed. -/
def ClientBucket.refill (bucket : ClientBucket) (now : ℤ) : ClientBucket :=
  let elapsedSecs : ℚ := ((now - bucket.lastRefill).tdiv 1000000 : ℤ) / 1000
  let requestTokens := min
    (bucket.requestTokens + bucket.maxRequestsPerMinute * elapsedSecs / 60)
    (bucket.maxRequestsPerMinute * bucket.burstMultiplier)
  let outputTokens := min
    (bucket.outputTokens + bucket.maxTokensPerMinute * elapsedSecs / 60)
    (bucket.maxTokensPerMinute * bucket.burstMultiplier)
  let bucket := { bucket with lastRefill := now, requestTokens, outputTokens }
  if 60 ≤ (now - bucket.violationWindowStart).tdiv 1000000000 then
    { bucket with violationsThisMinute := 0, violationWindowStart := now }
  else bucket

/-- Result of a rate limit check. -/
inductive RateLimitResult
  | allowed
  | requestLimitExceeded (violationsThisMinute : ℕ)
  | tokenLimitExceeded (violationsThisMinute : ℕ)
  deriving DecidableEq, Repr

/-- Take one request token and reserve the output tokens. -/
def ClientBucket.tryConsume (bucket : ClientBucket) (now : ℤ) (maxOutputTokens : ℕ) :
    ClientBucket × RateLimitResult :=
  let bucket := bucket.refill now
  if bucket.requestTokens < 1 then
    let bucket := { bucket with violationsThisMinute := bucket.violationsThisMinute + 1 }
    (bucket, .requestLimitExceeded bucket.violationsThisMinute)
  else if bucket.outputTokens < maxOutputTokens then
    let bucket := { bucket with violationsThisMinute := bucket.violationsThisMinute + 1 }
    (bucket, .tokenLimitExceeded bucket.violationsThisMinute)
  else
    ({ bucket with
        requestTokens := bucket.requestTokens - 1
        outputTokens := bucket.outputTokens - maxOutputTokens }, .allowed)

/-- Settle a reservation once actual usage is known: refund what was not generated. -/
def ClientBucket.settle (bucket : ClientBucket) (reserved actual : ℕ) : ClientBucket :=
  let refund := reserved - actual
  if refund = 0 then bucket
  else
    { bucket with
      outputTokens := min (bucket.outputTokens + refund)
        (bucket.maxTokensPerMinute * bucket.burstMultiplier) }

/-- Per-client rate limiter. -/
structure RateLimiter where
  buckets : StringMap ClientBucket

/-- `RateLimiter::check`: check the rate limit for a client request. -/
def RateLimiter.check (limiter : RateLimiter) (now : ℤ) (clientId : String) (maxOutputTokens : ℕ)
    (policy : ClientPolicy) : RateLimiter × Except CordonError Unit :=
  let bucket := (limiter.buckets.lookup clientId).getD (.new now policy)
  let (bucket, result) := bucket.tryConsume now maxOutputTokens
  (⟨limiter.buckets.insert clientId bucket⟩,
    match result with
    | .allowed => .ok ()
    | _ => .error (.rateLimitExceeded clientId))

/-- `RateLimiter::settle`: settle a client's output-token reservation. -/
def RateLimiter.settle (limiter : RateLimiter) (clientId : String) (reserved actual : ℕ) :
    RateLimiter :=
  ⟨limiter.buckets.update (fun bucket ↦ bucket.settle reserved actual) clientId⟩

/-- `RateLimiter::remove_client`: remove a client's bucket, on suspension. -/
def RateLimiter.removeClient (limiter : RateLimiter) (clientId : String) : RateLimiter :=
  ⟨limiter.buckets.erase clientId⟩

/-- `RateLimiter::prune_stale_buckets`: drop the buckets of clients that have not made requests
recently. -/
def RateLimiter.pruneStaleBuckets (limiter : RateLimiter) (now staleAfterSecs : ℤ) : RateLimiter :=
  let cutoff := now - staleAfterSecs * 1000000000
  ⟨limiter.buckets.filterMapValues fun bucket ↦
    if cutoff < bucket.lastRefill then some bucket else none⟩

/-! ### A reservation and its refund -/

section Bucket

variable {bucket : ClientBucket} {now : ℤ} {reserved actual : ℕ}

/-- The bucket has room for so many more output tokens under its ceiling. -/
def ClientBucket.HasRoomFor (bucket : ClientBucket) (tokens : ℕ) : Prop :=
  bucket.outputTokens + tokens ≤ bucket.maxTokensPerMinute * bucket.burstMultiplier

/-- A refill does not go beyond the ceiling. -/
theorem ClientBucket.outputTokens_refill_le : (bucket.refill now).outputTokens ≤
    (bucket.refill now).maxTokensPerMinute * (bucket.refill now).burstMultiplier := by
  rw [refill]
  split <;> exact min_le_right _ _

@[simp]
theorem ClientBucket.lastRefill_refill : (bucket.refill now).lastRefill = now := by
  rw [refill]
  split <;> rfl

/-- What a bucket that has room for the reservation gets back. -/
theorem ClientBucket.outputTokens_settle (h : bucket.HasRoomFor reserved) :
    (bucket.settle reserved actual).outputTokens =
      bucket.outputTokens + (reserved - actual : ℕ) := by
  rw [settle]
  split
  · next hrefund => simp [hrefund]
  · refine min_eq_left (le_trans ?_ h)
    have hle : ((reserved - actual : ℕ) : ℚ) ≤ reserved := by exact_mod_cast Nat.sub_le _ _
    linarith

/-- A reservation that was allowed is taken from the refilled bucket. -/
theorem ClientBucket.tryConsume_allowed {bucket' : ClientBucket}
    (h : bucket.tryConsume now reserved = (bucket', .allowed)) :
    bucket' = { bucket.refill now with
      requestTokens := (bucket.refill now).requestTokens - 1
      outputTokens := (bucket.refill now).outputTokens - reserved } := by
  rw [tryConsume] at h
  simp only at h
  split at h
  · simp at h
  · split at h
    · simp at h
    · exact (Prod.mk.inj h).1.symm

/-- A bucket that was at most full has room for what has just been taken from it. -/
theorem ClientBucket.hasRoomFor_of_tryConsume {bucket' : ClientBucket}
    (h : bucket.tryConsume now reserved = (bucket', .allowed)) : bucket'.HasRoomFor reserved := by
  rw [tryConsume_allowed h, HasRoomFor]
  simp only [sub_add_cancel]
  exact outputTokens_refill_le

end Bucket

/-! ### What a client's bucket shows -/

namespace RateLimiter

variable {limiter limiter' : RateLimiter} {now : ℤ} {clientId : String} {policy : ClientPolicy}
  {reserved actual : ℕ}

/-- The bucket that a check finds, or makes, once it has been refilled. -/
def refilled (limiter : RateLimiter) (now : ℤ) (clientId : String) (policy : ClientPolicy) :
    ClientBucket :=
  ((limiter.buckets.lookup clientId).getD (.new now policy)).refill now

/-- The output tokens in a client's bucket. -/
def outputTokens (limiter : RateLimiter) (clientId : String) : ℚ :=
  match limiter.buckets.lookup clientId with
  | some bucket => bucket.outputTokens
  | none => 0

/-- **What an allowed check leaves**: a bucket that is refilled now, with the reservation taken and
with room for it. -/
theorem lookup_check (h : limiter.check now clientId reserved policy = (limiter', .ok ())) :
    ∃ bucket, limiter'.buckets.lookup clientId = some bucket ∧
      bucket.outputTokens = (limiter.refilled now clientId policy).outputTokens - reserved ∧
      bucket.lastRefill = now ∧ bucket.HasRoomFor reserved := by
  rw [check] at h
  rcases hconsume : ((limiter.buckets.lookup clientId).getD (.new now policy)).tryConsume now
    reserved with ⟨bucket, result⟩
  rw [hconsume] at h
  obtain ⟨rfl, hresult⟩ := Prod.mk.inj h
  obtain rfl : result = .allowed := by
    rcases result with - | violations | violations
    · rfl
    · simp at hresult
    · simp at hresult
  refine ⟨bucket, AList.lookup_insert _, ?_, ?_, ClientBucket.hasRoomFor_of_tryConsume hconsume⟩
  · rw [ClientBucket.tryConsume_allowed hconsume, refilled]
  · rw [ClientBucket.tryConsume_allowed hconsume]
    exact ClientBucket.lastRefill_refill

/-- **The reservation** is what an allowed check takes from the refilled bucket. -/
theorem outputTokens_check (h : limiter.check now clientId reserved policy = (limiter', .ok ())) :
    limiter'.outputTokens clientId =
      (limiter.refilled now clientId policy).outputTokens - reserved := by
  obtain ⟨bucket, hbucket, htokens, -, -⟩ := lookup_check h
  rw [outputTokens, hbucket, ← htokens]

/-- **The refund**: a settlement gives back what was not used, to a bucket that is there and has
room for it. -/
theorem outputTokens_settle (actual : ℕ)
    (hroom : ∀ bucket, limiter.buckets.lookup clientId = some bucket → bucket.HasRoomFor reserved) :
    (limiter.settle clientId reserved actual).outputTokens clientId =
      limiter.outputTokens clientId +
        if (limiter.buckets.lookup clientId).isSome then ((reserved - actual : ℕ) : ℚ) else 0 := by
  rw [outputTokens, settle, AList.lookup_update_self, outputTokens]
  rcases hbucket : limiter.buckets.lookup clientId with - | bucket
  · simp
  · exact ClientBucket.outputTokens_settle (hroom bucket hbucket)

/-- A settlement of a suspended client finds nothing to give back to. -/
theorem lookup_removeClient : (limiter.removeClient clientId).buckets.lookup clientId = none :=
  AList.lookup_erase _ _

/-- A bucket outlasts a pruning if a check has refilled it since. -/
theorem lookup_pruneStaleBuckets {staleAfterSecs : ℤ} :
    (limiter.pruneStaleBuckets now staleAfterSecs).buckets.lookup clientId =
      (limiter.buckets.lookup clientId).filter fun bucket ↦
        now - staleAfterSecs * 1000000000 < bucket.lastRefill := by
  rw [pruneStaleBuckets, AList.lookup_filterMapValues]
  rcases limiter.buckets.lookup clientId with - | bucket
  · rfl
  · rw [Option.bind_some, Option.filter]
    simp only [decide_eq_true_eq]

end RateLimiter

end Cordon
