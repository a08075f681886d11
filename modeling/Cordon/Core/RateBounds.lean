import Cordon.Core.RateLimiter
import Cordon.Lib.Transition
import Mathlib.Algebra.BigOperators.Group.List.Basic
import Mathlib.Tactic.FieldSimp
import Mathlib.Tactic.Linarith

/-!
# What a bucket lets through

Refills, reservations and refunds of one client, in any order, under one policy and a clock that
does not go back. A reservation is taken from the output bucket at once and given back later, less
what was produced, and both the refill and the refund stop at the ceiling. So the bucket, the
reservations that are still out and what was produced **together** grow no faster than the refill
(`TokensBounded`): a refund only moves tokens from the second to the other two, and the ceiling only
takes tokens away.

For requests there is nothing to give back. What a window of time lets through is what the bucket
holds at the first request in it, which is at most the ceiling, and the refill since
(`WindowBounded`).

Both bounds are invariants of runs, kept by a check and by a settlement (`InOrder.check`,
`InOrder.settle`), and rest on one lemma for each of the two: a check refills and takes what is
asked for or nothing (`tryConsume_cases`), and a settlement gives back at most what was not produced
(`settle_spec`). A settlement has to be of a reservation that is out, once; requests see to that,
and `Core.RequestAccounts` says how. Amounts are rational numbers, where the source rounds.
-/

namespace Cordon

/-- A stretch of time in seconds. -/
def seconds (nanoseconds : ℤ) : ℚ :=
  nanoseconds / 1000000000

theorem seconds_nonneg {d : ℤ} (h : 0 ≤ d) : 0 ≤ seconds d := by
  have hd : (0 : ℚ) ≤ d := by exact_mod_cast h
  unfold seconds
  positivity

theorem seconds_sub (a b c : ℤ) : seconds (a - b) + seconds (b - c) = seconds (a - c) := by
  simp only [seconds, Int.cast_sub]
  ring

theorem seconds_mono {a b : ℤ} (h : a ≤ b) : seconds a ≤ seconds b := by
  have hab : (a : ℚ) ≤ b := by exact_mod_cast h
  unfold seconds
  linarith

/-! ### One step of a bucket -/

namespace ClientBucket

/-- The time that a refill counts: whole milliseconds, in seconds. -/
def elapsed (bucket : ClientBucket) (now : ℤ) : ℚ :=
  ((now - bucket.lastRefill).tdiv 1000000 : ℤ) / 1000

variable {bucket : ClientBucket} {now : ℤ}

theorem elapsed_nonneg (h : bucket.lastRefill ≤ now) : 0 ≤ bucket.elapsed now := by
  have hms : 0 ≤ (now - bucket.lastRefill).tdiv 1000000 :=
    Int.tdiv_nonneg (by omega) (by norm_num)
  have hcast : (0 : ℚ) ≤ ((now - bucket.lastRefill).tdiv 1000000 : ℤ) := by exact_mod_cast hms
  unfold elapsed
  positivity

/-- Counting whole milliseconds only loses time. -/
theorem elapsed_le (h : bucket.lastRefill ≤ now) :
    bucket.elapsed now ≤ seconds (now - bucket.lastRefill) := by
  have hms : (now - bucket.lastRefill).tdiv 1000000 * 1000000 ≤ now - bucket.lastRefill := by
    rw [Int.tdiv_eq_ediv_of_nonneg (by omega)]
    exact Int.ediv_mul_le _ (by norm_num)
  have hcast : (((now - bucket.lastRefill).tdiv 1000000 : ℤ) : ℚ) * 1000000 ≤
      ((now - bucket.lastRefill : ℤ) : ℚ) := by
    exact_mod_cast hms
  unfold elapsed seconds
  linarith

@[simp]
theorem requestTokens_refill : (bucket.refill now).requestTokens =
    min (bucket.requestTokens + bucket.maxRequestsPerMinute * bucket.elapsed now / 60)
      (bucket.maxRequestsPerMinute * bucket.burstMultiplier) := by
  rw [refill]
  split <;> rfl

@[simp]
theorem outputTokens_refill : (bucket.refill now).outputTokens =
    min (bucket.outputTokens + bucket.maxTokensPerMinute * bucket.elapsed now / 60)
      (bucket.maxTokensPerMinute * bucket.burstMultiplier) := by
  rw [refill]
  split <;> rfl

/-- What neither a check nor a settlement changes. -/
def limits (bucket : ClientBucket) : ℚ × ℚ × ℚ :=
  (bucket.maxRequestsPerMinute, bucket.maxTokensPerMinute, bucket.burstMultiplier)

@[simp]
theorem limits_refill : (bucket.refill now).limits = bucket.limits := by
  rw [refill]
  split <;> rfl

/-- **What a check can do**: it refills, and takes a request and the reservation or nothing. -/
theorem tryConsume_cases {reserved : ℕ} {bucket' : ClientBucket} {result : RateLimitResult}
    (h : bucket.tryConsume now reserved = (bucket', result)) :
    (result = .allowed ∧ 1 ≤ (bucket.refill now).requestTokens ∧
        reserved ≤ (bucket.refill now).outputTokens ∧
        bucket'.requestTokens = (bucket.refill now).requestTokens - 1 ∧
        bucket'.outputTokens = (bucket.refill now).outputTokens - reserved ∧
        bucket'.lastRefill = now ∧ bucket'.limits = bucket.limits) ∨
      result ≠ .allowed ∧ bucket'.requestTokens = (bucket.refill now).requestTokens ∧
        bucket'.outputTokens = (bucket.refill now).outputTokens ∧
        bucket'.lastRefill = now ∧ bucket'.limits = bucket.limits := by
  rw [tryConsume] at h
  simp only at h
  split at h
  · obtain ⟨rfl, rfl⟩ := Prod.mk.inj h
    exact Or.inr ⟨by simp, rfl, rfl, lastRefill_refill, limits_refill⟩
  · next hrequests =>
    split at h
    · obtain ⟨rfl, rfl⟩ := Prod.mk.inj h
      exact Or.inr ⟨by simp, rfl, rfl, lastRefill_refill, limits_refill⟩
    · next htokens =>
      obtain ⟨rfl, rfl⟩ := Prod.mk.inj h
      exact Or.inl ⟨rfl, not_lt.1 hrequests, not_lt.1 htokens, rfl, rfl, lastRefill_refill,
        limits_refill⟩

/-- **Both buckets lie between nothing and twice the maximum.** -/
structure InBounds (policy : ClientPolicy) (bucket : ClientBucket) : Prop where
  limits : bucket.limits = (↑policy.maxRequestsPerMinute, ↑policy.maxTokensPerMinute, 2)
  requests_nonneg : 0 ≤ bucket.requestTokens
  requests_le : bucket.requestTokens ≤ 2 * policy.maxRequestsPerMinute
  tokens_nonneg : 0 ≤ bucket.outputTokens
  tokens_le : bucket.outputTokens ≤ 2 * policy.maxTokensPerMinute

variable {policy : ClientPolicy}

theorem inBounds_new (now : ℤ) (policy : ClientPolicy) : (new now policy).InBounds policy := by
  have hrequests : (0 : ℚ) ≤ policy.maxRequestsPerMinute := Nat.cast_nonneg _
  have htokens : (0 : ℚ) ≤ policy.maxTokensPerMinute := Nat.cast_nonneg _
  refine ⟨rfl, hrequests, ?_, htokens, ?_⟩
  · show (policy.maxRequestsPerMinute : ℚ) ≤ _
    linarith
  · show (policy.maxTokensPerMinute : ℚ) ≤ _
    linarith

namespace InBounds

theorem maxRequests_eq (h : bucket.InBounds policy) :
    bucket.maxRequestsPerMinute = policy.maxRequestsPerMinute :=
  (Prod.mk.inj h.limits).1

theorem maxTokens_eq (h : bucket.InBounds policy) :
    bucket.maxTokensPerMinute = policy.maxTokensPerMinute :=
  (Prod.mk.inj (Prod.mk.inj h.limits).2).1

theorem burst_eq (h : bucket.InBounds policy) : bucket.burstMultiplier = 2 :=
  (Prod.mk.inj (Prod.mk.inj h.limits).2).2

theorem refill (h : bucket.InBounds policy) (hnow : bucket.lastRefill ≤ now) :
    (bucket.refill now).InBounds policy := by
  have helapsed := elapsed_nonneg hnow
  have hrequests : (0 : ℚ) ≤ policy.maxRequestsPerMinute := Nat.cast_nonneg _
  have htokens : (0 : ℚ) ≤ policy.maxTokensPerMinute := Nat.cast_nonneg _
  refine ⟨limits_refill.trans h.limits, ?_, ?_, ?_, ?_⟩
  · rw [requestTokens_refill, h.maxRequests_eq, h.burst_eq]
    refine le_min (add_nonneg h.requests_nonneg ?_) ?_
    all_goals positivity
  · rw [requestTokens_refill, h.maxRequests_eq, h.burst_eq, mul_comm 2]
    exact min_le_right _ _
  · rw [outputTokens_refill, h.maxTokens_eq, h.burst_eq]
    refine le_min (add_nonneg h.tokens_nonneg ?_) ?_
    all_goals positivity
  · rw [outputTokens_refill, h.maxTokens_eq, h.burst_eq, mul_comm 2]
    exact min_le_right _ _

/-- A refill adds no more than the time since the last one is worth. -/
theorem requestTokens_refill_le (h : bucket.InBounds policy) (hnow : bucket.lastRefill ≤ now) :
    (bucket.refill now).requestTokens ≤ bucket.requestTokens +
      policy.maxRequestsPerMinute * seconds (now - bucket.lastRefill) / 60 := by
  have hrate : (0 : ℚ) ≤ policy.maxRequestsPerMinute := Nat.cast_nonneg _
  have hworth := mul_le_mul_of_nonneg_left (elapsed_le hnow) hrate
  rw [requestTokens_refill, h.maxRequests_eq]
  refine (min_le_left _ _).trans ?_
  linarith

theorem outputTokens_refill_le (h : bucket.InBounds policy) (hnow : bucket.lastRefill ≤ now) :
    (bucket.refill now).outputTokens ≤ bucket.outputTokens +
      policy.maxTokensPerMinute * seconds (now - bucket.lastRefill) / 60 := by
  have hrate : (0 : ℚ) ≤ policy.maxTokensPerMinute := Nat.cast_nonneg _
  have hworth := mul_le_mul_of_nonneg_left (elapsed_le hnow) hrate
  rw [outputTokens_refill, h.maxTokens_eq]
  refine (min_le_left _ _).trans ?_
  linarith

theorem tryConsume (h : bucket.InBounds policy) (hnow : bucket.lastRefill ≤ now) {reserved : ℕ}
    {bucket' : ClientBucket} {result : RateLimitResult}
    (hconsume : bucket.tryConsume now reserved = (bucket', result)) : bucket'.InBounds policy := by
  have hrefill := h.refill hnow
  have hreserved : (0 : ℚ) ≤ reserved := Nat.cast_nonneg _
  obtain ⟨-, hone, hcovered, hrequests, htokens, -, hlimits⟩ |
    ⟨-, hrequests, htokens, -, hlimits⟩ := tryConsume_cases hconsume
  · refine ⟨hlimits.trans h.limits, ?_, ?_, ?_, ?_⟩
    · rw [hrequests]
      linarith
    · rw [hrequests]
      linarith [hrefill.requests_le]
    · rw [htokens]
      linarith
    · rw [htokens]
      linarith [hrefill.tokens_le]
  · exact ⟨hlimits.trans h.limits, hrequests ▸ hrefill.requests_nonneg,
      hrequests ▸ hrefill.requests_le, htokens ▸ hrefill.tokens_nonneg,
      htokens ▸ hrefill.tokens_le⟩

end InBounds

/-- **What a settlement can do**: it gives back at most what was not produced. -/
theorem settle_spec (h : bucket.InBounds policy) (reserved actual : ℕ) :
    (bucket.settle reserved actual).InBounds policy ∧
      (bucket.settle reserved actual).requestTokens = bucket.requestTokens ∧
      (bucket.settle reserved actual).lastRefill = bucket.lastRefill ∧
      (bucket.settle reserved actual).outputTokens ≤
        bucket.outputTokens + (reserved - actual : ℕ) := by
  have hrefund : (0 : ℚ) ≤ (reserved - actual : ℕ) := Nat.cast_nonneg _
  have htokens : (0 : ℚ) ≤ policy.maxTokensPerMinute := Nat.cast_nonneg _
  rw [settle]
  split
  · exact ⟨h, rfl, rfl, by linarith⟩
  · refine ⟨⟨h.limits, h.requests_nonneg, h.requests_le, ?_, ?_⟩, rfl, rfl, min_le_left _ _⟩
    · show 0 ≤ min _ _
      rw [h.maxTokens_eq, h.burst_eq]
      refine le_min (add_nonneg h.tokens_nonneg hrefund) ?_
      positivity
    · show min _ _ ≤ _
      rw [h.maxTokens_eq, h.burst_eq, mul_comm 2]
      exact min_le_right _ _

end ClientBucket

/-! ### The ledger of a client -/

/-- What has been let through: the times of the requests that were allowed, the reservations that
are not settled, and what the settled ones have produced of what they had reserved. -/
structure RateLedger where
  allowed : List ℤ
  outstanding : List ℕ
  settled : ℕ
  deriving DecidableEq

namespace RateLedger

/-- A request was allowed. -/
def allow (ledger : RateLedger) (now : ℤ) (reserved : ℕ) : RateLedger :=
  { ledger with
    allowed := now :: ledger.allowed
    outstanding := reserved :: ledger.outstanding }

/-- A reservation was settled. -/
def settle (ledger : RateLedger) (reserved actual : ℕ) : RateLedger :=
  { ledger with
    outstanding := ledger.outstanding.erase reserved
    settled := ledger.settled + min actual reserved }

/-- How many requests were allowed in a window of time, its ends included. -/
def allowedWithin (ledger : RateLedger) (start stop : ℤ) : ℕ :=
  ledger.allowed.countP fun t ↦ start ≤ t ∧ t ≤ stop

variable {ledger : RateLedger} {start stop now : ℤ} {reserved actual : ℕ}

theorem allowedWithin_allow : (ledger.allow now reserved).allowedWithin start stop =
    ledger.allowedWithin start stop + if start ≤ now ∧ now ≤ stop then 1 else 0 := by
  rw [allowedWithin, allow, List.countP_cons, allowedWithin]
  simp only [decide_eq_true_eq]

theorem allowedWithin_eq_zero (h : ∀ t ∈ ledger.allowed, t < start) :
    ledger.allowedWithin start stop = 0 := by
  refine List.countP_eq_zero.2 fun t ht ↦ ?_
  have hlt := h t ht
  simp only [decide_eq_true_eq]
  omega

theorem sum_outstanding_settle (h : reserved ∈ ledger.outstanding) :
    (ledger.settle reserved actual).outstanding.sum + (ledger.settle reserved actual).settled +
      (reserved - actual) = ledger.outstanding.sum + ledger.settled := by
  have hsum := List.sum_erase h
  simp only [settle]
  omega

end RateLedger

/-- **The bucket, the reservations that are out and what was produced grow with the refill.** -/
def TokensBounded (policy : ClientPolicy) (created : ℤ) (ledger : RateLedger)
    (bucket : ClientBucket) : Prop :=
  bucket.outputTokens + ledger.outstanding.sum + ledger.settled ≤ policy.maxTokensPerMinute +
    policy.maxTokensPerMinute * seconds (bucket.lastRefill - created) / 60

/-- **What a window lets through.** While the window lasts, the requests in it and the bucket
together grow with the refill. -/
structure WindowBounded (policy : ClientPolicy) (start stop : ℤ) (ledger : RateLedger)
    (bucket : ClientBucket) : Prop where
  allowed_le : ∀ t ∈ ledger.allowed, t ≤ bucket.lastRefill
  within : start ≤ bucket.lastRefill → bucket.lastRefill ≤ stop →
    ledger.allowedWithin start stop + bucket.requestTokens ≤ 2 * policy.maxRequestsPerMinute +
      policy.maxRequestsPerMinute * seconds (bucket.lastRefill - start) / 60
  count : ledger.allowedWithin start stop ≤ 2 * (policy.maxRequestsPerMinute : ℚ) +
    policy.maxRequestsPerMinute * seconds (stop - start) / 60

section Ledger

variable {policy : ClientPolicy} {created start stop now : ℤ} {ledger : RateLedger}
  {bucket bucket' : ClientBucket} {reserved actual : ℕ} {result : RateLimitResult}

theorem TokensBounded.tryConsume (h : TokensBounded policy created ledger bucket)
    (hbounds : bucket.InBounds policy) (hnow : bucket.lastRefill ≤ now)
    (hconsume : bucket.tryConsume now reserved = (bucket', result)) :
    TokensBounded policy created
      (if result = .allowed then ledger.allow now reserved else ledger) bucket' := by
  have hrefill := hbounds.outputTokens_refill_le hnow
  have htime := seconds_sub now bucket.lastRefill created
  rw [TokensBounded] at h ⊢
  obtain ⟨hallowed, -, -, -, htokens, hlast, -⟩ | ⟨hdenied, -, htokens, hlast, -⟩ :=
    ClientBucket.tryConsume_cases hconsume
  · rw [if_pos hallowed, htokens, hlast, RateLedger.allow, List.sum_cons, Nat.cast_add, ← htime]
    linarith
  · rw [if_neg hdenied, htokens, hlast, ← htime]
    linarith

theorem TokensBounded.settle (h : TokensBounded policy created ledger bucket)
    (hbounds : bucket.InBounds policy) (hmem : reserved ∈ ledger.outstanding) :
    TokensBounded policy created (ledger.settle reserved actual)
      (bucket.settle reserved actual) := by
  obtain ⟨-, -, hlast, htokens⟩ := ClientBucket.settle_spec hbounds reserved actual
  have hsum : (((ledger.settle reserved actual).outstanding.sum : ℕ) : ℚ) +
      (ledger.settle reserved actual).settled + (reserved - actual : ℕ) =
      ledger.outstanding.sum + ledger.settled := by
    exact_mod_cast RateLedger.sum_outstanding_settle hmem
  rw [TokensBounded] at h ⊢
  rw [hlast]
  linarith

/-- What the bucket holds after the refill, with what was let through before. -/
theorem WindowBounded.refill_le (h : WindowBounded policy start stop ledger bucket)
    (hbounds : bucket.InBounds policy) (hnow : bucket.lastRefill ≤ now) (hstart : start ≤ now)
    (hstop : now ≤ stop) :
    ledger.allowedWithin start stop + (bucket.refill now).requestTokens ≤
      2 * policy.maxRequestsPerMinute +
        policy.maxRequestsPerMinute * seconds (now - start) / 60 := by
  rcases le_or_gt start bucket.lastRefill with hlast | hlast
  · have hrefill := hbounds.requestTokens_refill_le hnow
    have htime := seconds_sub now bucket.lastRefill start
    have hwithin := h.within hlast (hnow.trans hstop)
    rw [← htime]
    linarith
  · -- the first refill in the window
    have hnone : ledger.allowedWithin start stop = 0 :=
      RateLedger.allowedWithin_eq_zero fun t ht ↦ (h.allowed_le t ht).trans_lt hlast
    have hrate : (0 : ℚ) ≤ policy.maxRequestsPerMinute := Nat.cast_nonneg _
    have hworth := mul_nonneg hrate (seconds_nonneg (sub_nonneg.2 hstart))
    have hceiling := (hbounds.refill hnow).requests_le
    rw [hnone, Nat.cast_zero]
    linarith

/-- A check that is allowed moves one request from the bucket to the ledger, in the window that it
is made in. -/
theorem RateLedger.tryConsume_spec (ledger : RateLedger) (start stop : ℤ)
    (hconsume : bucket.tryConsume now reserved = (bucket', result)) {ledger' : RateLedger}
    (hledger : ledger' = if result = .allowed then ledger.allow now reserved else ledger) :
    bucket'.lastRefill = now ∧ (∀ t ∈ ledger'.allowed, t = now ∨ t ∈ ledger.allowed) ∧
      (start ≤ now ∧ now ≤ stop → (ledger'.allowedWithin start stop : ℚ) + bucket'.requestTokens =
        ledger.allowedWithin start stop + (bucket.refill now).requestTokens) ∧
      (¬(start ≤ now ∧ now ≤ stop) →
        ledger'.allowedWithin start stop = ledger.allowedWithin start stop) := by
  obtain ⟨hallowed, -, -, hrequests, -, hlast, -⟩ | ⟨hdenied, hrequests, -, hlast, -⟩ :=
    ClientBucket.tryConsume_cases hconsume
  · rw [hledger, if_pos hallowed, RateLedger.allowedWithin_allow]
    refine ⟨hlast, fun t ht ↦ List.mem_cons.1 ht, fun hwindow ↦ ?_, fun hwindow ↦ ?_⟩
    · rw [if_pos hwindow, hrequests]
      push_cast
      ring
    · rw [if_neg hwindow, Nat.add_zero]
  · rw [hledger, if_neg hdenied, hrequests]
    exact ⟨hlast, fun t ht ↦ Or.inr ht, fun _ ↦ rfl, fun _ ↦ rfl⟩

theorem WindowBounded.tryConsume (h : WindowBounded policy start stop ledger bucket)
    (hbounds : bucket.InBounds policy) (hnow : bucket.lastRefill ≤ now)
    (hconsume : bucket.tryConsume now reserved = (bucket', result)) :
    WindowBounded policy start stop
      (if result = .allowed then ledger.allow now reserved else ledger) bucket' := by
  set ledger' := if result = .allowed then ledger.allow now reserved else ledger with hledger
  obtain ⟨hlast, htimes, hin, hout⟩ := ledger.tryConsume_spec start stop hconsume hledger
  have hrate : (0 : ℚ) ≤ policy.maxRequestsPerMinute := Nat.cast_nonneg _
  have hnonneg := (hbounds.tryConsume hnow hconsume).requests_nonneg
  refine ⟨fun t ht ↦ ?_, fun hstart hstop ↦ ?_, ?_⟩
  · rw [hlast]
    rcases htimes t ht with rfl | ht
    · exact le_rfl
    · exact (h.allowed_le t ht).trans hnow
  · rw [hlast] at hstart hstop ⊢
    rw [hin ⟨hstart, hstop⟩]
    exact h.refill_le hbounds hnow hstart hstop
  · by_cases hwindow : start ≤ now ∧ now ≤ stop
    · have htotal := h.refill_le hbounds hnow hwindow.1 hwindow.2
      have hworth := mul_le_mul_of_nonneg_left
        (seconds_mono (sub_le_sub_right hwindow.2 start)) hrate
      have hsum := hin hwindow
      linarith
    · rw [hout hwindow]
      exact h.count

theorem WindowBounded.settle (h : WindowBounded policy start stop ledger bucket)
    (hbounds : bucket.InBounds policy) :
    WindowBounded policy start stop (ledger.settle reserved actual)
      (bucket.settle reserved actual) := by
  obtain ⟨-, hrequests, hlast, -⟩ := ClientBucket.settle_spec hbounds reserved actual
  refine ⟨fun t ht ↦ ?_, fun hstart hstop ↦ ?_, h.count⟩
  · rw [hlast]
    exact h.allowed_le t ht
  · rw [hlast] at hstart hstop ⊢
    rw [hrequests]
    exact h.within hstart hstop

end Ledger

/-! ### Runs -/

/-- A call of the limiter for the client. -/
inductive RateCall
  | check (maxOutputTokens : ℕ)
  | settle (reserved actual : ℕ)

/-- A run of the limiter: the limiter, the time of the last call, when the client's bucket was
created, and the client's ledger. -/
structure LimiterRun where
  limiter : RateLimiter
  clock : ℤ
  created : Option ℤ
  ledger : RateLedger

namespace LimiterRun

/-- A limiter that has no bucket for the client yet. -/
def start (limiter : RateLimiter) (now : ℤ) : LimiterRun :=
  ⟨limiter, now, none, ⟨[], [], 0⟩⟩

variable (clientId : String) (policy : ClientPolicy)

/-- The client's bucket. -/
def bucket (s : LimiterRun) : Option ClientBucket :=
  s.limiter.buckets.lookup clientId

/-- One call, at a time. -/
def step (s : LimiterRun) : ℤ × RateCall → LimiterRun
  | (now, .check maxOutputTokens) =>
    let (limiter, result) := s.limiter.check now clientId maxOutputTokens policy
    { limiter := limiter
      clock := now
      created := some (s.created.getD now)
      ledger := if result.isOk then s.ledger.allow now maxOutputTokens else s.ledger }
  | (now, .settle reserved actual) =>
    { s with
      limiter := s.limiter.settle clientId reserved actual
      clock := now
      ledger := s.ledger.settle reserved actual }

/-- Time does not go back, and a settlement is of a reservation that is out. -/
def Legal (s : LimiterRun) (call : ℤ × RateCall) : Prop :=
  s.clock ≤ call.1 ∧
    match call.2 with
    | .check _ => True
    | .settle reserved _ => reserved ∈ s.ledger.outstanding

/-- What holds of a bucket beside its ledger. -/
structure Accounted (windowStart windowStop : ℤ) (ledger : RateLedger) (clock created : ℤ)
    (bucket : ClientBucket) : Prop where
  inBounds : bucket.InBounds policy
  lastRefill_le : bucket.lastRefill ≤ clock
  created_le : created ≤ bucket.lastRefill
  tokens : TokensBounded policy created ledger bucket
  window : WindowBounded policy windowStart windowStop ledger bucket

/-- **The invariant of a run**: nothing has happened, or the client has a bucket and its accounts
are in order. -/
def InOrder (windowStart windowStop : ℤ) (s : LimiterRun) : Prop :=
  (s.bucket clientId = none ∧ s.created = none ∧ s.ledger = ⟨[], [], 0⟩) ∨
    ∃ created bucket, s.created = some created ∧ s.bucket clientId = some bucket ∧
      Accounted policy windowStart windowStop s.ledger s.clock created bucket

variable {clientId policy} {windowStart windowStop : ℤ} {s : LimiterRun}

/-- The accounts of a new bucket are in order. -/
theorem accounted_new (hwindow : windowStart ≤ windowStop) (now : ℤ) :
    Accounted policy windowStart windowStop ⟨[], [], 0⟩ now now (.new now policy) := by
  have hrate : (0 : ℚ) ≤ policy.maxRequestsPerMinute := Nat.cast_nonneg _
  have hzero : seconds (now - now) = 0 := by simp [seconds]
  have hlast : (ClientBucket.new now policy).lastRefill = now := rfl
  refine ⟨ClientBucket.inBounds_new now policy, le_rfl, le_rfl, ?_, ?_, ?_, ?_⟩
  · rw [TokensBounded, hlast, hzero]
    simp [ClientBucket.new]
  · simp
  · intro hstart _
    have hworth := mul_nonneg hrate (seconds_nonneg (sub_nonneg.2 hstart))
    have hbounds := (ClientBucket.inBounds_new now policy).requests_le
    simp only [RateLedger.allowedWithin, List.countP_nil, Nat.cast_zero]
    linarith
  · have hworth := mul_nonneg hrate (seconds_nonneg (sub_nonneg.2 hwindow))
    simp only [RateLedger.allowedWithin, List.countP_nil, Nat.cast_zero]
    linarith

/-- What a check finds: the bucket there is, or a new one. -/
theorem InOrder.found (h : InOrder clientId policy windowStart windowStop s)
    (hwindow : windowStart ≤ windowStop) {now : ℤ} (hnow : s.clock ≤ now) :
    Accounted policy windowStart windowStop s.ledger now (s.created.getD now)
      ((s.bucket clientId).getD (.new now policy)) := by
  rcases h with ⟨hbucket, hcreated, hledger⟩ | ⟨created, bucket, hcreated, hbucket, haccounts⟩
  · rw [hbucket, hcreated, hledger]
    exact accounted_new hwindow now
  · rw [hbucket, hcreated]
    exact { haccounts with lastRefill_le := haccounts.lastRefill_le.trans hnow }

/-- **A check keeps the accounts in order.** -/
theorem InOrder.check (h : InOrder clientId policy windowStart windowStop s)
    (hwindow : windowStart ≤ windowStop) {now : ℤ} (hnow : s.clock ≤ now) (maxOutputTokens : ℕ) :
    InOrder clientId policy windowStart windowStop
      (s.step clientId policy (now, .check maxOutputTokens)) := by
  obtain ⟨hbounds, hlast, hcreated, htokens, hwithin⟩ := h.found hwindow hnow
  rcases hconsume : ((s.bucket clientId).getD (.new now policy)).tryConsume now maxOutputTokens with
    ⟨bucket', result⟩
  have hcheck : s.limiter.check now clientId maxOutputTokens policy =
      (⟨s.limiter.buckets.insert clientId bucket'⟩,
        if result = .allowed then .ok () else .error (.rateLimitExceeded clientId)) := by
    simp only [bucket] at hconsume
    rw [RateLimiter.check, hconsume]
    rcases result with - | violations | violations <;> rfl
  have hstep : s.step clientId policy (now, .check maxOutputTokens) =
      ⟨⟨s.limiter.buckets.insert clientId bucket'⟩, now, some (s.created.getD now),
        if result = .allowed then s.ledger.allow now maxOutputTokens else s.ledger⟩ := by
    simp only [step, hcheck]
    rcases result with - | violations | violations <;> rfl
  have hlast' : bucket'.lastRefill = now := by
    obtain ⟨-, -, -, -, -, hlast', -⟩ | ⟨-, -, -, hlast', -⟩ :=
      ClientBucket.tryConsume_cases hconsume
    all_goals exact hlast'
  rw [hstep]
  refine Or.inr ⟨s.created.getD now, bucket', rfl, AList.lookup_insert _, ?_⟩
  exact ⟨hbounds.tryConsume hlast hconsume, hlast'.le, hlast' ▸ hcreated.trans hlast,
    htokens.tryConsume hbounds hlast hconsume, hwithin.tryConsume hbounds hlast hconsume⟩

/-- **So does a settlement of a reservation that is out.** -/
theorem InOrder.settle (h : InOrder clientId policy windowStart windowStop s) {now : ℤ}
    (hnow : s.clock ≤ now) {reserved : ℕ} (hmem : reserved ∈ s.ledger.outstanding) (actual : ℕ) :
    InOrder clientId policy windowStart windowStop
      (s.step clientId policy (now, .settle reserved actual)) := by
  rcases h with ⟨-, -, hledger⟩ | ⟨created, bucket, hcreated, hbucket, haccounts⟩
  · rw [hledger] at hmem
    simp at hmem
  · obtain ⟨hbounds, hlast, hcreatedLe, htokens, hwithin⟩ := haccounts
    obtain ⟨hbounds', -, hlast', -⟩ := ClientBucket.settle_spec hbounds reserved actual
    refine Or.inr ⟨created, bucket.settle reserved actual, hcreated, ?_, hbounds', ?_, ?_,
      htokens.settle hbounds hmem, hwithin.settle hbounds⟩
    · show (AList.update _ clientId _).lookup clientId = _
      rw [AList.lookup_update_self]
      exact congrArg (Option.map _) hbucket
    · rw [hlast']
      exact hlast.trans hnow
    · rw [hlast']
      exact hcreatedLe

theorem InOrder.step (h : InOrder clientId policy windowStart windowStop s)
    (hwindow : windowStart ≤ windowStop) {call : ℤ × RateCall} (hlegal : s.Legal call) :
    InOrder clientId policy windowStart windowStop (s.step clientId policy call) := by
  rcases call with ⟨now, maxOutputTokens | ⟨reserved, actual⟩⟩
  · exact h.check hwindow hlegal.1 maxOutputTokens
  · exact h.settle hlegal.1 hlegal.2 actual

/-- The invariant holds along every run. -/
theorem inOrder_of_reachable {limiter : RateLimiter} {now : ℤ}
    (hnew : limiter.buckets.lookup clientId = none)
    (h : Transition.Reachable (step clientId policy) Legal (start limiter now) s)
    (hwindow : windowStart ≤ windowStop) :
    InOrder clientId policy windowStart windowStop s := by
  refine h.invariant _ ?_ fun _ _ _ hlegal hin ↦ hin.step hwindow hlegal
  exact Or.inl ⟨hnew, rfl, rfl⟩

end LimiterRun

/-- **What a bucket lets through.** After any calls for one client under one policy, at times that
do not go back and with settlements of reservations that are out:

* both buckets lie between nothing and twice the maximum per minute;
* the requests allowed in a window of time are at most twice the maximum and the refill of the
  window;
* what settled requests have produced of their reservations and the reservations that are out are
  together at most the maximum and the refill since the bucket was created. -/
theorem token_bucket_bounds (clientId : String) (policy : ClientPolicy) (limiter : RateLimiter)
    (hnew : limiter.buckets.lookup clientId = none) (begun : ℤ) (s : LimiterRun)
    (hrun : Transition.Reachable (LimiterRun.step clientId policy) LimiterRun.Legal
      (LimiterRun.start limiter begun) s) :
    (∀ bucket, s.bucket clientId = some bucket →
      (0 ≤ bucket.requestTokens ∧ bucket.requestTokens ≤ 2 * policy.maxRequestsPerMinute) ∧
        0 ≤ bucket.outputTokens ∧ bucket.outputTokens ≤ 2 * policy.maxTokensPerMinute) ∧
    (∀ start stop, start ≤ stop → (s.ledger.allowedWithin start stop : ℚ) ≤
      2 * policy.maxRequestsPerMinute +
        policy.maxRequestsPerMinute * seconds (stop - start) / 60) ∧
    ∀ created, s.created = some created → ∀ now, s.clock ≤ now →
      (s.ledger.settled : ℚ) + s.ledger.outstanding.sum ≤ policy.maxTokensPerMinute +
        policy.maxTokensPerMinute * seconds (now - created) / 60 := by
  have hrequests : (0 : ℚ) ≤ policy.maxRequestsPerMinute := Nat.cast_nonneg _
  have htokens : (0 : ℚ) ≤ policy.maxTokensPerMinute := Nat.cast_nonneg _
  refine ⟨fun bucket hbucket ↦ ?_, fun start stop hwindow ↦ ?_, fun created hcreated now hnow ↦ ?_⟩
  · rcases LimiterRun.inOrder_of_reachable hnew hrun (le_refl 0) with
      ⟨hnone, -, -⟩ | ⟨_, bucket', -, hbucket', haccounts⟩
    · rw [hnone] at hbucket
      simp at hbucket
    · obtain rfl := Option.some.inj (hbucket'.symm.trans hbucket)
      have hbounds := haccounts.inBounds
      exact ⟨⟨hbounds.requests_nonneg, hbounds.requests_le⟩, hbounds.tokens_nonneg,
        hbounds.tokens_le⟩
  · rcases LimiterRun.inOrder_of_reachable hnew hrun hwindow with
      ⟨-, -, hledger⟩ | ⟨_, _, -, -, haccounts⟩
    · have hworth := mul_nonneg hrequests (seconds_nonneg (sub_nonneg.2 hwindow))
      rw [hledger]
      simp only [RateLedger.allowedWithin, List.countP_nil, Nat.cast_zero]
      linarith
    · exact haccounts.window.count
  · rcases LimiterRun.inOrder_of_reachable hnew hrun (le_refl 0) with
      ⟨-, hnone, -⟩ | ⟨created', bucket, hcreated', -, haccounts⟩
    · rw [hnone] at hcreated
      simp at hcreated
    · obtain rfl := Option.some.inj (hcreated'.symm.trans hcreated)
      have htotal := haccounts.tokens
      have hnonneg := haccounts.inBounds.tokens_nonneg
      have hworth := mul_le_mul_of_nonneg_left (seconds_mono
        (sub_le_sub_right (haccounts.lastRefill_le.trans hnow) created')) htokens
      rw [TokensBounded] at htotal
      linarith

/-- A request that reserves five tokens and produces three, and one that is still running. -/
theorem token_bucket_bounds_sample :
    ∃ s : LimiterRun, s.ledger = ⟨[2000000000, 0], [7], 3⟩ ∧ ∀ start stop, start ≤ stop →
      (s.ledger.allowedWithin start stop : ℚ) ≤ 2 * (60 : ℕ) +
        (60 : ℕ) * seconds (stop - start) / 60 := by
  have hrun : Transition.Reachable
      (LimiterRun.step "client" (.defaultFor "client")) LimiterRun.Legal
      (LimiterRun.start ⟨∅⟩ 0) _ :=
    .next (2000000000, .check 7) (.next (1000000000, .settle 5 3) (.next (0, .check 5) .start
      ⟨le_rfl, trivial⟩) ⟨by decide, by decide +kernel⟩) ⟨by decide, trivial⟩
  refine ⟨_, ?_, (token_bucket_bounds "client" (.defaultFor "client") ⟨∅⟩ rfl 0 _ hrun).2.1⟩
  decide +kernel

end Cordon
