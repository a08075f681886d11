import Cordon.Core.RateBounds
import Cordon.Lib.Vessel
import Mathlib.Order.Lattice.Nat

/-!
# What a refused check costs

A check that is refused takes nothing from the bucket, but it refills the bucket, and a refill
counts **whole milliseconds** since the last one and then starts to count anew. The two buckets are
vessels that fill with time, so being filled more often does no harm in itself
(`Vessel.after_after`). Being counted more often does: the part of a millisecond that is left over
at each check is lost.

* `refused_checks_neutral_iff`: refused checks change the outcome of a later one exactly if it would
  have been covered by the time they lost.
* `refused_checks_neutral_for_all_iff`: whatever the bucket holds and whatever is asked for, they
  change nothing exactly if no whole millisecond is lost, or if the two minutes have been counted
  that fill every bucket.

The clock is in nanoseconds.

Both rest on a bucket after refused checks being a bucket that was filled once, for the time that
they have counted (`exists_lookup_refused`): a refusal takes nothing, and filling in parts is
filling at once as long as the parts add up. What the later check makes of it is whether its waiting
time has been counted by then (`check_after_refused_iff`).
-/

namespace Cordon

open Transition

/-- A millisecond. -/
def nanosPerMilli : ℤ :=
  1000000

namespace ClientBucket

/-- The requests of a bucket, filling by the millisecond. -/
def requests (bucket : ClientBucket) : Vessel ℚ :=
  ⟨bucket.requestTokens, bucket.maxRequestsPerMinute / 60000,
    bucket.maxRequestsPerMinute * bucket.burstMultiplier⟩

/-- Its output tokens. -/
def outputs (bucket : ClientBucket) : Vessel ℚ :=
  ⟨bucket.outputTokens, bucket.maxTokensPerMinute / 60000,
    bucket.maxTokensPerMinute * bucket.burstMultiplier⟩

/-- For how many milliseconds a check has to wait until the bucket covers it. -/
def wait (bucket : ClientBucket) (maxOutputTokens : ℕ) : WithTop ℕ :=
  max (bucket.requests.wait 1) (bucket.outputs.wait maxOutputTokens)

variable {bucket : ClientBucket} {now : ℤ} {maxOutputTokens : ℕ}

/-- The time that a refill counts, in whole milliseconds. -/
theorem elapsed_eq (h : bucket.lastRefill ≤ now) :
    bucket.elapsed now = (Ticks.between nanosPerMilli bucket.lastRefill now : ℚ) / 1000 := by
  have hnonneg : 0 ≤ now - bucket.lastRefill := by omega
  have hms : 0 ≤ (now - bucket.lastRefill) / nanosPerMilli := Int.ediv_nonneg hnonneg (by decide)
  have hcast : ((Ticks.between nanosPerMilli bucket.lastRefill now : ℕ) : ℚ) =
      (((now - bucket.lastRefill) / nanosPerMilli : ℤ) : ℚ) := by
    exact_mod_cast Int.toNat_of_nonneg hms
  rw [elapsed, Int.tdiv_eq_ediv_of_nonneg hnonneg, hcast]
  rfl

/-- **A refill fills both vessels.** -/
theorem vessels_refill (h : bucket.lastRefill ≤ now) :
    (bucket.refill now).requests =
        bucket.requests.after (Ticks.between nanosPerMilli bucket.lastRefill now) ∧
      (bucket.refill now).outputs =
        bucket.outputs.after (Ticks.between nanosPerMilli bucket.lastRefill now) := by
  have hlimits := @limits_refill bucket now
  simp only [limits, Prod.mk.injEq] at hlimits
  obtain ⟨hrequests, htokens, hburst⟩ := hlimits
  -- a rate per minute and a time in seconds, against a rate and a time in milliseconds
  have hrise : ∀ rate t : ℚ, rate * (t / 1000) / 60 = rate / 60000 * t := by
    intro rate t
    ring
  constructor
  · rw [requests, requestTokens_refill, hrequests, hburst, elapsed_eq h, hrise]
    rfl
  · rw [outputs, outputTokens_refill, htokens, hburst, elapsed_eq h, hrise]
    rfl

/-- A check is allowed if the refilled bucket covers it. -/
theorem tryConsume_allowed_iff (bucket : ClientBucket) (now : ℤ) (maxOutputTokens : ℕ) :
    (bucket.tryConsume now maxOutputTokens).2 = .allowed ↔
      1 ≤ (bucket.refill now).requests.level ∧
        (maxOutputTokens : ℚ) ≤ (bucket.refill now).outputs.level := by
  show _ ↔ 1 ≤ (bucket.refill now).requestTokens ∧ _ ≤ (bucket.refill now).outputTokens
  rw [tryConsume]
  simp only
  split
  · next hrequests => exact iff_of_false (by simp) fun h ↦ absurd h.1 (not_le.2 hrequests)
  · next hrequests =>
    split
    · next htokens => exact iff_of_false (by simp) fun h ↦ absurd h.2 (not_le.2 htokens)
    · next htokens => exact iff_of_true rfl ⟨not_lt.1 hrequests, not_lt.1 htokens⟩

/-- A check that is refused leaves the refilled bucket. -/
theorem tryConsume_refused (h : (bucket.tryConsume now maxOutputTokens).2 ≠ .allowed) :
    (bucket.tryConsume now maxOutputTokens).1.requests = (bucket.refill now).requests ∧
      (bucket.tryConsume now maxOutputTokens).1.outputs = (bucket.refill now).outputs ∧
      (bucket.tryConsume now maxOutputTokens).1.lastRefill = now := by
  rw [tryConsume] at h ⊢
  simp only at h ⊢
  split
  · exact ⟨rfl, rfl, lastRefill_refill⟩
  · next hrequests =>
    rw [if_neg hrequests] at h
    split
    · exact ⟨rfl, rfl, lastRefill_refill⟩
    · next htokens =>
      rw [if_neg htokens] at h
      exact absurd rfl h

end ClientBucket

namespace RateLimiter

variable (clientId : String) (policy : ClientPolicy)

/-- A client makes a check at some time, for some output. -/
def attempt (limiter : RateLimiter) (call : ℤ × ℕ) : RateLimiter :=
  (limiter.check call.1 clientId call.2 policy).1

/-- A check is refused. -/
def Refuses (limiter : RateLimiter) (call : ℤ × ℕ) : Prop :=
  (limiter.check call.1 clientId call.2 policy).2 ≠ .ok ()

variable {clientId policy} {limiter : RateLimiter} {bucket : ClientBucket} {now : ℤ}
  {maxOutputTokens : ℕ}

theorem check_eq_ok_iff (h : limiter.buckets.lookup clientId = some bucket) :
    (limiter.check now clientId maxOutputTokens policy).2 = .ok () ↔
      (bucket.tryConsume now maxOutputTokens).2 = .allowed := by
  rw [check, h, Option.getD_some]
  simp only
  rcases (bucket.tryConsume now maxOutputTokens).2 with - | violations | violations
  · exact iff_of_true rfl rfl
  · exact iff_of_false (by simp) (by simp)
  · exact iff_of_false (by simp) (by simp)

/-- A check is allowed once its waiting time has passed since the last refill. -/
theorem check_iff (policy : ClientPolicy) (maxOutputTokens : ℕ)
    (h : limiter.buckets.lookup clientId = some bucket) (hrequests : 0 ≤ bucket.requests.rate)
    (houtputs : 0 ≤ bucket.outputs.rate) (hnow : bucket.lastRefill ≤ now) :
    (limiter.check now clientId maxOutputTokens policy).2 = .ok () ↔
      bucket.wait maxOutputTokens ≤ Ticks.between nanosPerMilli bucket.lastRefill now := by
  obtain ⟨hreq, hout⟩ := ClientBucket.vessels_refill hnow
  rw [check_eq_ok_iff h, ClientBucket.tryConsume_allowed_iff, hreq, hout,
    Vessel.le_level_after_iff hrequests, Vessel.le_level_after_iff houtputs, ClientBucket.wait,
    max_le_iff]

/-- A refused check leaves the client with the refilled bucket. -/
theorem exists_lookup_attempt (h : limiter.buckets.lookup clientId = some bucket)
    (hrefused : limiter.Refuses clientId policy (now, maxOutputTokens)) :
    ∃ bucket', (limiter.attempt clientId policy (now, maxOutputTokens)).buckets.lookup clientId =
        some bucket' ∧ bucket'.requests = (bucket.refill now).requests ∧
      bucket'.outputs = (bucket.refill now).outputs ∧ bucket'.lastRefill = now := by
  have hresult : (bucket.tryConsume now maxOutputTokens).2 ≠ .allowed :=
    mt (check_eq_ok_iff h).2 hrefused
  refine ⟨(bucket.tryConsume now maxOutputTokens).1, ?_, ClientBucket.tryConsume_refused hresult⟩
  show (limiter.buckets.insert clientId _).lookup clientId = _
  rw [AList.lookup_insert, h]
  rfl

/-- **What refused checks make of a bucket**: at any later time it is as full as if it had been
filled once, for the time that they counted. -/
theorem exists_lookup_refused (h : limiter.buckets.lookup clientId = some bucket)
    (hrequests : 0 ≤ bucket.requests.rate) (houtputs : 0 ≤ bucket.outputs.rate)
    {refused : List (ℤ × ℕ)}
    (hclock : (bucket.lastRefill :: (refused.map Prod.fst ++ [now])).Pairwise (· ≤ ·))
    (hrefused : AllSteps (attempt clientId policy) (Refuses clientId policy) limiter refused) :
    ∃ bucket', (final (attempt clientId policy) limiter refused).buckets.lookup clientId =
        some bucket' ∧
      (bucket'.refill now).requests = bucket.requests.after
        (Ticks.counted nanosPerMilli bucket.lastRefill (refused.map Prod.fst) now) ∧
      (bucket'.refill now).outputs = bucket.outputs.after
        (Ticks.counted nanosPerMilli bucket.lastRefill (refused.map Prod.fst) now) := by
  induction refused generalizing limiter bucket with
  | nil =>
    have hnow : bucket.lastRefill ≤ now := (List.pairwise_cons.1 hclock).1 now (by simp)
    exact ⟨bucket, h, ClientBucket.vessels_refill hnow⟩
  | cons call refused ih =>
    obtain ⟨t, asked⟩ := call
    obtain ⟨hstart, hrest⟩ := List.pairwise_cons.1 hclock
    have ht : bucket.lastRefill ≤ t := hstart t (by simp)
    obtain ⟨bucket₁, hlookup, hreq₁, hout₁, rfl⟩ := exists_lookup_attempt h hrefused.1
    obtain ⟨hreq, hout⟩ := ClientBucket.vessels_refill ht
    rw [hreq] at hreq₁
    rw [hout] at hout₁
    obtain ⟨bucket', hfinal, hreq', hout'⟩ :=
      ih hlookup (by rw [hreq₁]; exact hrequests) (by rw [hout₁]; exact houtputs) hrest hrefused.2
    -- the vessel was filled up to `t` and is filled from `t` on
    refine ⟨bucket', hfinal, ?_, ?_⟩
    · rw [hreq', hreq₁, Vessel.after_after _ hrequests (Nat.cast_nonneg _), ← Nat.cast_add]
      rfl
    · rw [hout', hout₁, Vessel.after_after _ houtputs (Nat.cast_nonneg _), ← Nat.cast_add]
      rfl

/-- **A check after refused ones is allowed once its waiting time has been counted.** -/
theorem check_after_refused_iff (h : limiter.buckets.lookup clientId = some bucket)
    (hrequests : 0 ≤ bucket.requests.rate) (houtputs : 0 ≤ bucket.outputs.rate)
    {refused : List (ℤ × ℕ)}
    (hclock : (bucket.lastRefill :: (refused.map Prod.fst ++ [now])).Pairwise (· ≤ ·))
    (hrefused : AllSteps (attempt clientId policy) (Refuses clientId policy) limiter refused) :
    ((final (attempt clientId policy) limiter refused).check now clientId maxOutputTokens
        policy).2 = .ok () ↔
      bucket.wait maxOutputTokens ≤
        Ticks.counted nanosPerMilli bucket.lastRefill (refused.map Prod.fst) now := by
  obtain ⟨bucket', hlookup, hreq, hout⟩ :=
    exists_lookup_refused h hrequests houtputs hclock hrefused
  rw [check_eq_ok_iff hlookup, ClientBucket.tryConsume_allowed_iff, hreq, hout,
    Vessel.le_level_after_iff hrequests, Vessel.le_level_after_iff houtputs, ClientBucket.wait,
    max_le_iff]

end RateLimiter

/-- **When refused checks are neutral.** A check that follows refused ones is allowed exactly if it
would have been allowed without them, unless its waiting time, in whole milliseconds, is more than
what was counted from check to check and no more than what has passed since the last refill. -/
theorem refused_checks_neutral_iff (limiter : RateLimiter) (clientId : String)
    (policy : ClientPolicy) (bucket : ClientBucket)
    (hbucket : limiter.buckets.lookup clientId = some bucket)
    (hrequests : 0 ≤ bucket.maxRequestsPerMinute) (htokens : 0 ≤ bucket.maxTokensPerMinute)
    (refused : List (ℤ × ℕ)) (now : ℤ) (maxOutputTokens : ℕ)
    (hclock : (bucket.lastRefill :: (refused.map Prod.fst ++ [now])).Pairwise (· ≤ ·))
    (hrefused : AllSteps (RateLimiter.attempt clientId policy)
      (RateLimiter.Refuses clientId policy) limiter refused) :
    ((((final (RateLimiter.attempt clientId policy) limiter refused).check now clientId
          maxOutputTokens policy).2 = .ok () ↔
        (limiter.check now clientId maxOutputTokens policy).2 = .ok ()) ↔
      ¬((Ticks.counted nanosPerMilli bucket.lastRefill (refused.map Prod.fst) now : WithTop ℕ) <
          bucket.wait maxOutputTokens ∧
        bucket.wait maxOutputTokens ≤ Ticks.between nanosPerMilli bucket.lastRefill now)) := by
  have hreq : 0 ≤ bucket.requests.rate := div_nonneg hrequests (by norm_num)
  have hout : 0 ≤ bucket.outputs.rate := div_nonneg htokens (by norm_num)
  have hnow : bucket.lastRefill ≤ now := (List.pairwise_cons.1 hclock).1 now (by simp)
  have hless : (Ticks.counted nanosPerMilli bucket.lastRefill (refused.map Prod.fst) now :
      WithTop ℕ) ≤ Ticks.between nanosPerMilli bucket.lastRefill now :=
    Nat.cast_le.2 (Ticks.counted_le_between (by decide) hclock)
  rw [RateLimiter.check_after_refused_iff hbucket hreq hout hclock hrefused,
    RateLimiter.check_iff policy maxOutputTokens hbucket hreq hout hnow]
  constructor
  · intro hiff hlost
    exact absurd (hiff.2 hlost.2) (not_le.2 hlost.1)
  · intro hnot
    refine ⟨fun h ↦ h.trans hless, fun h ↦ ?_⟩
    by_contra hlate
    exact hnot ⟨not_le.1 hlate, h⟩

/-! ### A client that retries -/

namespace RateSample

/-- Sixty thousand requests and as many tokens a minute: one of each in a millisecond. -/
def policy : ClientPolicy :=
  { ClientPolicy.defaultFor "alice" with
    maxRequestsPerMinute := 60000
    maxTokensPerMinute := 60000 }

/-- The limiter when the first check of a client has reserved all its tokens. -/
def drained : RateLimiter :=
  ((⟨∅⟩ : RateLimiter).check 0 "alice" 60000 policy).1

/-- The bucket that is left. -/
def bucket : ClientBucket :=
  ⟨59999, 0, 0, 60000, 60000, 2, 0, 0⟩

theorem lookup_drained : drained.buckets.lookup "alice" = some bucket := by
  decide +kernel

end RateSample

/-- A check after one and a half milliseconds that is refused is neutral for one after two and a
half, which asks for a token. -/
theorem refused_checks_neutral_iff_sample :
    ((final (RateLimiter.attempt "alice" RateSample.policy) RateSample.drained
        [(1500000, 5)]).check 2500000 "alice" 1 RateSample.policy).2 = .ok () ↔
      (RateSample.drained.check 2500000 "alice" 1 RateSample.policy).2 = .ok () := by
  refine (refused_checks_neutral_iff RateSample.drained "alice" RateSample.policy RateSample.bucket
    RateSample.lookup_drained (by decide) (by decide) [(1500000, 5)] 2500000 1 (by decide)
    ⟨?_, trivial⟩).2 (by decide +kernel)
  show (RateSample.drained.check 1500000 "alice" 5 RateSample.policy).2 ≠ .ok ()
  decide +kernel

/-- **A client that retries every half millisecond is not refilled**: of two checks for a token in
the millisecond after the tokens ran out, the first is refused, and the second would be allowed
without it. -/
theorem retry_is_not_neutral :
    ¬∀ (limiter : RateLimiter) (bucket : ClientBucket) (refused : List (ℤ × ℕ)) (now : ℤ)
      (maxOutputTokens : ℕ), limiter.buckets.lookup "alice" = some bucket →
      (bucket.lastRefill :: (refused.map Prod.fst ++ [now])).Pairwise (· ≤ ·) →
      AllSteps (RateLimiter.attempt "alice" RateSample.policy)
        (RateLimiter.Refuses "alice" RateSample.policy) limiter refused →
      (((final (RateLimiter.attempt "alice" RateSample.policy) limiter refused).check now "alice"
          maxOutputTokens RateSample.policy).2 = .ok () ↔
        (limiter.check now "alice" maxOutputTokens RateSample.policy).2 = .ok ()) := by
  intro hall
  have hrefused : RateLimiter.Refuses "alice" RateSample.policy RateSample.drained (500000, 1) := by
    show (RateSample.drained.check 500000 "alice" 1 RateSample.policy).2 ≠ .ok ()
    decide +kernel
  have hneutral := hall RateSample.drained RateSample.bucket [(500000, 1)] 1000000 1
    RateSample.lookup_drained (by decide) ⟨hrefused, trivial⟩
  have hwithout : (RateSample.drained.check 1000000 "alice" 1 RateSample.policy).2 = .ok () := by
    decide +kernel
  have hwith : ((RateSample.drained.attempt "alice" RateSample.policy (500000, 1)).check 1000000
      "alice" 1 RateSample.policy).2 ≠ .ok () := by
    decide +kernel
  exact hwith (hneutral.2 hwithout)

/-! ### Whatever the bucket holds -/

namespace ClientBucket

variable {bucket : ClientBucket} {policy : ClientPolicy} {now : ℤ} {maxOutputTokens : ℕ}

theorem outputs_refill_ceiling : (bucket.refill now).outputs.ceiling = bucket.outputs.ceiling := by
  have hlimits := @limits_refill bucket now
  simp only [limits, Prod.mk.injEq] at hlimits
  obtain ⟨-, htokens, hburst⟩ := hlimits
  show _ * _ = _ * _
  rw [htokens, hburst]

/-- More than the bucket can hold is never allowed. -/
theorem tryConsume_ne_allowed (h : bucket.outputs.ceiling < maxOutputTokens) :
    (bucket.tryConsume now maxOutputTokens).2 ≠ .allowed := by
  intro hallowed
  have hlevel := ((tryConsume_allowed_iff bucket now maxOutputTokens).1 hallowed).2
  have hceiling : (bucket.refill now).outputs.level ≤ (bucket.refill now).outputs.ceiling :=
    outputTokens_refill_le
  rw [outputs_refill_ceiling] at hceiling
  exact absurd (hlevel.trans hceiling) (not_le.2 h)

/-- **Two minutes fill every bucket**, so what is covered at all is covered then. -/
theorem InBounds.wait_le (h : bucket.InBounds policy) {n : ℕ} (hn : 120000 ≤ n) {m : ℕ}
    (hcovered : bucket.wait maxOutputTokens ≤ m) : bucket.wait maxOutputTokens ≤ n := by
  have hminutes : (120000 : ℚ) ≤ n := by exact_mod_cast hn
  have hrequests : (0 : ℚ) ≤ bucket.maxRequestsPerMinute := by
    rw [h.maxRequests_eq]
    exact Nat.cast_nonneg _
  have htokens : (0 : ℚ) ≤ bucket.maxTokensPerMinute := by
    rw [h.maxTokens_eq]
    exact Nat.cast_nonneg _
  have hrequestRate : 0 ≤ bucket.requests.rate := div_nonneg hrequests (by norm_num)
  have htokenRate : 0 ≤ bucket.outputs.rate := div_nonneg htokens (by norm_num)
  have hrequestRise := mul_le_mul_of_nonneg_left hminutes hrequestRate
  have htokenRise := mul_le_mul_of_nonneg_left hminutes htokenRate
  obtain ⟨hfirst, hsecond⟩ := max_le_iff.1 hcovered
  rw [wait, max_le_iff]
  constructor
  · refine Vessel.wait_le_of_full hrequestRate ?_
      (((Vessel.le_level_after_iff hrequestRate m).2 hfirst).trans (min_le_right _ _))
    have hnonneg := h.requests_nonneg
    show _ * _ ≤ bucket.requestTokens + _
    rw [h.burst_eq]
    refine le_trans ?_ (add_le_add_right hrequestRise _)
    show _ ≤ _ + bucket.maxRequestsPerMinute / 60000 * 120000
    linarith
  · refine Vessel.wait_le_of_full htokenRate ?_
      (((Vessel.le_level_after_iff htokenRate m).2 hsecond).trans (min_le_right _ _))
    have hnonneg := h.tokens_nonneg
    show _ * _ ≤ bucket.outputTokens + _
    rw [h.burst_eq]
    refine le_trans ?_ (add_le_add_right htokenRise _)
    show _ ≤ _ + bucket.maxTokensPerMinute / 60000 * 120000
    linarith

end ClientBucket

namespace RateLimiter

variable {limiter : RateLimiter} {clientId : String} {bucket : ClientBucket} {asked : ℕ}

/-- A client that asks for more than its bucket can hold is refused every time. -/
theorem allSteps_refuses (policy : ClientPolicy)
    (h : limiter.buckets.lookup clientId = some bucket)
    (hasked : bucket.outputs.ceiling < asked) (times : List ℤ) :
    AllSteps (attempt clientId policy) (Refuses clientId policy) limiter
      (times.map fun t ↦ (t, asked)) := by
  induction times generalizing limiter bucket with
  | nil => trivial
  | cons t times ih =>
    have hrefused : limiter.Refuses clientId policy (t, asked) :=
      mt (check_eq_ok_iff h).1 (ClientBucket.tryConsume_ne_allowed hasked)
    obtain ⟨bucket', hlookup, -, hout, -⟩ := exists_lookup_attempt h hrefused
    refine ⟨hrefused, ih hlookup ?_⟩
    rwa [hout, ClientBucket.outputs_refill_ceiling]

end RateLimiter

namespace RateSample

/-- A bucket out of tokens, at any time. -/
def emptied (lastRefill : ℤ) : ClientBucket :=
  { bucket with lastRefill, violationWindowStart := lastRefill }

theorem inBounds_bucket : bucket.InBounds policy :=
  ⟨by decide, by decide, by decide +kernel, by decide, by decide +kernel⟩

theorem inBounds_emptied (lastRefill : ℤ) : (emptied lastRefill).InBounds policy :=
  ⟨inBounds_bucket.limits, inBounds_bucket.requests_nonneg, inBounds_bucket.requests_le,
    inBounds_bucket.tokens_nonneg, inBounds_bucket.tokens_le⟩

/-- It gains a token in every millisecond, up to 120000. -/
theorem wait_emptied_le_iff (lastRefill : ℤ) {asked : ℕ} (hasked : asked ≤ 120000) (n : ℕ) :
    (emptied lastRefill).wait asked ≤ n ↔ asked ≤ n := by
  have hrate : (0 : ℚ) ≤ 60000 / 60000 := by norm_num
  have hrise : (0 : ℚ) ≤ 60000 / 60000 * n := mul_nonneg hrate (Nat.cast_nonneg n)
  have hrequests : (emptied lastRefill).requests.wait 1 ≤ n :=
    (Vessel.le_level_after_iff hrate n).1
      (le_min (le_add_of_le_of_nonneg (show (1 : ℚ) ≤ 59999 by norm_num) hrise)
        (show (1 : ℚ) ≤ 60000 * 2 by norm_num))
  have hceiling : (asked : ℚ) ≤ 60000 * 2 := by
    have hcast : (asked : ℚ) ≤ (120000 : ℕ) := Nat.cast_le.2 hasked
    norm_num at hcast ⊢
    exact hcast
  rw [ClientBucket.wait, max_le_iff, and_iff_right hrequests, ← Vessel.le_level_after_iff hrate]
  show (asked : ℚ) ≤ min ((0 : ℚ) + 60000 / 60000 * n) (60000 * 2) ↔ _
  rw [le_min_iff, and_iff_left hceiling, div_self (by norm_num), one_mul, zero_add, Nat.cast_le]

end RateSample

/-- **Which checks are neutral whatever they ask for.** Refused checks at given times are neutral
for every bucket between its bounds and every later request exactly if counting from check to check
loses no whole millisecond, or if two minutes are counted. -/
theorem refused_checks_neutral_for_all_iff (start : ℤ) (times : List ℤ) (now : ℤ)
    (hclock : (start :: (times ++ [now])).Pairwise (· ≤ ·)) :
    (∀ (limiter : RateLimiter) (clientId : String) (policy : ClientPolicy) (bucket : ClientBucket),
        limiter.buckets.lookup clientId = some bucket → bucket.InBounds policy →
        bucket.lastRefill = start → ∀ refused : List (ℤ × ℕ), refused.map Prod.fst = times →
        AllSteps (RateLimiter.attempt clientId policy) (RateLimiter.Refuses clientId policy)
          limiter refused →
        ∀ maxOutputTokens, (((final (RateLimiter.attempt clientId policy) limiter refused).check now
            clientId maxOutputTokens policy).2 = .ok () ↔
          (limiter.check now clientId maxOutputTokens policy).2 = .ok ())) ↔
      Ticks.counted nanosPerMilli start times now = Ticks.between nanosPerMilli start now ∨
        120000 ≤ Ticks.counted nanosPerMilli start times now := by
  have hless := Ticks.counted_le_between (show 0 < nanosPerMilli by decide) hclock
  have hnow : start ≤ now := (List.pairwise_cons.1 hclock).1 now (by simp)
  constructor
  · intro hall
    by_contra hlost
    obtain ⟨hne, hfew⟩ := not_or.1 hlost
    set counted := Ticks.counted nanosPerMilli start times now with hcounted
    -- one token more than was counted
    have hlookup : (⟨(∅ : StringMap ClientBucket).insert "alice" (RateSample.emptied start)⟩ :
        RateLimiter).buckets.lookup "alice" = some (RateSample.emptied start) :=
      AList.lookup_insert _
    have hasked : (60000 * 2 : ℚ) < (120001 : ℕ) := by norm_num
    have hrefused := RateLimiter.allSteps_refuses RateSample.policy hlookup hasked times
    have htimes : (times.map fun t ↦ (t, 120001)).map Prod.fst = times := by
      rw [List.map_map]
      exact List.map_id _
    have hneutral := hall _ _ _ _ hlookup (RateSample.inBounds_emptied start) rfl _ htimes hrefused
      (counted + 1)
    have hrate : (0 : ℚ) ≤ 60000 / 60000 := by norm_num
    rw [RateLimiter.check_after_refused_iff hlookup hrate hrate (by rwa [htimes]) hrefused, htimes,
      RateLimiter.check_iff _ _ hlookup hrate hrate hnow,
      RateSample.wait_emptied_le_iff start (by omega),
      RateSample.wait_emptied_le_iff start (by omega)] at hneutral
    have hbetween : counted + 1 ≤ Ticks.between nanosPerMilli start now := by omega
    exact absurd (hneutral.2 hbetween) (Nat.not_succ_le_self _)
  · rintro hkept limiter clientId policy bucket hbucket hbounds rfl refused rfl hrefused asked
    have hrequests : 0 ≤ bucket.requests.rate := by
      show 0 ≤ bucket.maxRequestsPerMinute / 60000
      rw [hbounds.maxRequests_eq]
      positivity
    have htokens : 0 ≤ bucket.outputs.rate := by
      show 0 ≤ bucket.maxTokensPerMinute / 60000
      rw [hbounds.maxTokens_eq]
      positivity
    rw [RateLimiter.check_after_refused_iff hbucket hrequests htokens hclock hrefused,
      RateLimiter.check_iff policy asked hbucket hrequests htokens hnow]
    rcases hkept with hsame | hfull
    · rw [hsame]
    · exact ⟨fun h ↦ h.trans (Nat.cast_le.2 hless), fun h ↦ hbounds.wait_le hfull h⟩

end Cordon
