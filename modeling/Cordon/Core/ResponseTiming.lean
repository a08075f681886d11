import Cordon.Core.RequestAccounts

/-!
# When a response is returned

`TimingNormalizer::normalize` holds a response back: in bucket mode until the end of the bucket of
time in which it was ready, in floor mode until the floor. So the time of a response tells nothing
finer than its bucket, **if the response is held back**. `processInference` has three exits after
the generation, and only the last of them passes through `normalize`: a response that the content
policy refuses, or that is withheld as the client's third detection, is answered at once.

The clock counts whole milliseconds from the start of the request, and only the generation and the
sleep take time. `concludeMs` and `responseMs` are the exits of `concludeInference` and
`processInference` with that clock; `responseMs_cases` ties each time to the answer that is given.

* `normalize_eq`: what is held back is returned at the later of two times, the present and the
  target that `targetMs` computes.
* `response_times_normalised_iff`: two responses that are ready in one bucket are returned together
  exactly if both are released through the last exit, or if they happened to be ready together.
-/

namespace Cordon

namespace TimingNormalizer

variable (timing : TimingNormalizer)

/-- The end of the bucket of time that an instant lies in, in unsigned 64-bit arithmetic, which
wraps around in a release build. -/
def nextBucket (elapsedMs : ℕ) : ℕ :=
  (elapsedMs / timing.bucketSize + 1) * timing.bucketSize % 2 ^ 64

/-- Compute the target response time in ms for a given elapsed time. -/
def targetMs (elapsedMs : ℕ) : ℕ :=
  if !timing.enabled then elapsedMs
  else
    match timing.mode with
    | .none => elapsedMs
    | .fixedFloor => max elapsedMs timing.fixedFloorMs
    | .bucket => if timing.bucketSize = 0 then elapsedMs else timing.nextBucket elapsedMs

/-- `normalize`: for how long it sleeps. -/
def normalize (elapsedMs : ℕ) : ℕ :=
  if !timing.enabled then 0
  else
    match timing.mode with
    | .none => 0
    | .fixedFloor =>
      -- never respond faster than the fixed floor
      if timing.fixedFloorMs ≤ elapsedMs then 0 else timing.fixedFloorMs - elapsedMs
    | .bucket =>
      if timing.bucketSize = 0 then 0
      -- already at or past the boundary
      else if timing.nextBucket elapsedMs ≤ elapsedMs then 0
      else timing.nextBucket elapsedMs - elapsedMs

end TimingNormalizer

namespace Gateway

variable {T : TextEngine} (g : Gateway T) (H : HostText) (S : ScoreEngine) (call : InferenceCall)
  (o : Occasion T)

/-- When `concludeInference` returns, for a generation that ends at a given time. -/
def concludeMs (timing : TimingNormalizer) (filter : OutputFilter T) (raw : RawInferenceOutput)
    (generatedAt : ℕ) : ℕ :=
  let filtered := filter.filter raw.text
  if filtered.blocked then generatedAt
  else if (g.scoreText S o.scoredAt call.client.clientId filtered.text).2 then generatedAt
  else generatedAt + timing.normalize generatedAt

/-- When `process_inference` returns, for a generation that ends at a given time. The normalizer is
the node's from its start to its end. -/
def responseMs (runtime : RuntimeReply RawInferenceOutput) (generatedAt : ℕ) : ℕ :=
  match g.acceptRequest H call o with
  | (_, .error _) => 0
  | (accepted, .ok (policy, _)) =>
    let meanwhile := o.meanwhile.act accepted
    match runtime.run call.timeoutSeconds with
    | .error _ => generatedAt
    | .ok raw =>
      (meanwhile.settle o.requestId call.client.clientId call.params.maxTokens
        raw.usage.completionTokens).concludeMs S call o g.timing (accepted.outputFilter policy) raw
          generatedAt

end Gateway

/-! ### What the sleep does -/

namespace TimingNormalizer

variable {timing : TimingNormalizer} {e : ℕ}

/-- **A response that is held back is returned at its target**, unless that has passed. -/
theorem normalize_eq (timing : TimingNormalizer) (e : ℕ) :
    e + timing.normalize e = max e (timing.targetMs e) := by
  rw [normalize, targetMs]
  split
  · exact (max_self e).symm
  · rcases timing.mode with - | - | -
    · exact (max_self e).symm
    · simp only
      split <;> omega
    · simp only
      by_cases hzero : timing.bucketSize = 0
      · rw [if_pos hzero, if_pos hzero]
        exact (max_self e).symm
      · rw [if_neg hzero, if_neg hzero]
        split <;> omega

/-- In floor mode the target is not before the floor. -/
theorem floor_le_normalize (hactive : timing.isActive = true) (hmode : timing.mode = .fixedFloor) :
    timing.fixedFloorMs ≤ e + timing.normalize e := by
  have henabled : timing.enabled = true := (Bool.and_eq_true_iff.1 hactive).1
  rw [normalize_eq, targetMs, henabled, hmode, if_neg (by decide)]
  exact (le_max_right _ _).trans (le_max_right _ _)

section Bucket

variable (hactive : timing.isActive = true) (hmode : timing.mode = .bucket)
  (hpos : 0 < timing.bucketSize)
include hactive hmode hpos

theorem normalize_bucket (e : ℕ) : e + timing.normalize e = max e (timing.nextBucket e) := by
  have henabled : timing.enabled = true := (Bool.and_eq_true_iff.1 hactive).1
  rw [normalize_eq, targetMs, henabled, hmode, if_neg (by decide)]
  simp only
  rw [if_neg hpos.ne']

/-- **A response is held back until the end of its bucket**, if that is a number of the clock. -/
theorem normalize_bucket_of_lt (h : (e / timing.bucketSize + 1) * timing.bucketSize < 2 ^ 64) :
    e + timing.normalize e = (e / timing.bucketSize + 1) * timing.bucketSize := by
  rw [normalize_bucket hactive hmode hpos, nextBucket, Nat.mod_eq_of_lt h]
  refine max_eq_right (le_of_lt ?_)
  rw [mul_comm]
  exact Nat.lt_mul_div_succ e hpos

/-- At the end of the clock the boundary wraps around, and nothing is held back. -/
theorem normalize_bucket_of_le (hbucket : timing.bucketSize < 2 ^ 64)
    (h : 2 ^ 64 ≤ (e / timing.bucketSize + 1) * timing.bucketSize) :
    e + timing.normalize e = e := by
  have hstart : e / timing.bucketSize * timing.bucketSize ≤ e := Nat.div_mul_le_self _ _
  rw [normalize_bucket hactive hmode hpos, nextBucket]
  rw [Nat.succ_mul] at h ⊢
  omega

end Bucket

end TimingNormalizer

/-! ### The exits of a request -/

namespace Gateway

variable {T : TextEngine} {g : Gateway T} {H : HostText} {S : ScoreEngine} {call : InferenceCall}
  {o : Occasion T} {policy : ClientPolicy} {lease : InferenceLease} {raw : RawInferenceOutput}
  {runtime : RuntimeReply RawInferenceOutput}

/-- A response is released: the content policy lets it pass, and it is not withheld. -/
def Releases (g : Gateway T) (S : ScoreEngine) (call : InferenceCall) (o : Occasion T)
    (filter : OutputFilter T) (raw : RawInferenceOutput) : Prop :=
  (filter.filter raw.text).blocked = false ∧
    ¬g.IsThirdDetection S o.scoredAt call.client.clientId (filter.filter raw.text).text

/-- **Each answer has its exit**: only one that is released is held back. -/
theorem concludeMs_cases (g : Gateway T) (S : ScoreEngine) (call : InferenceCall) (o : Occasion T)
    (timing : TimingNormalizer) (sessionId : Uuid) (filter : OutputFilter T)
    (raw : RawInferenceOutput) (generatedAt : ℕ) :
    (g.Releases S call o filter raw ∧
      (∃ outcome, (g.concludeInference S call o sessionId filter raw).2 = .ok outcome) ∧
      g.concludeMs S call o timing filter raw generatedAt =
        generatedAt + timing.normalize generatedAt) ∨
    (¬g.Releases S call o filter raw ∧
      ((g.concludeInference S call o sessionId filter raw).2 =
          .error (filter.filter raw.text).violation ∨
        ∃ score, (g.concludeInference S call o sessionId filter raw).2 =
          .error (.covertChannelDetected score)) ∧
      g.concludeMs S call o timing filter raw generatedAt = generatedAt) := by
  rw [Releases, ← scoreText_suspends_iff, concludeMs, concludeInference]
  simp only
  split
  · next hblocked => exact Or.inr ⟨fun h ↦ by simp [hblocked] at h, Or.inl rfl, rfl⟩
  · next hblocked =>
    have hpasses : (filter.filter raw.text).blocked = false := by simpa using hblocked
    split
    · next hsuspended => exact Or.inr ⟨fun h ↦ h.2 hsuspended, Or.inr ⟨_, rfl⟩, rfl⟩
    · next hsuspended => exact Or.inl ⟨⟨hpasses, hsuspended⟩, ⟨_, rfl⟩, rfl⟩

/-- **When an admitted request is answered**, once its generation has ended: at once with a
violation or a refusal, or with its result when `normalize` lets it go. -/
theorem responseMs_cases (haccepted : (g.acceptRequest H call o).2 = .ok (policy, lease))
    (hrun : runtime.run call.timeoutSeconds = .ok raw) (generatedAt : ℕ) :
    ((o.meanwhile.act (g.acceptRequest H call o).1).Releases S call o (g.outputFilter policy) raw ∧
      (∃ outcome, (g.processInference H S call o runtime).2 = .ok outcome) ∧
      g.responseMs H S call o runtime generatedAt =
        generatedAt + g.timing.normalize generatedAt) ∨
    (¬(o.meanwhile.act (g.acceptRequest H call o).1).Releases S call o (g.outputFilter policy) raw ∧
      ((g.processInference H S call o runtime).2 =
          .error ((g.outputFilter policy).filter raw.text).violation ∨
        ∃ score, (g.processInference H S call o runtime).2 =
          .error (.covertChannelDetected score)) ∧
      g.responseMs H S call o runtime generatedAt = generatedAt) := by
  have hfilter := congrFun (@outputFilter_acceptRequest T g H call o) policy
  rw [processInference, responseMs, ← hfilter]
  rcases haccept : g.acceptRequest H call o with ⟨accepted, result⟩
  obtain rfl : result = .ok (policy, lease) := by simpa [haccept] using haccepted
  simp only [hrun]
  -- the settlement leaves what the detector knows as it is
  exact concludeMs_cases ((o.meanwhile.act accepted).settle o.requestId call.client.clientId
    call.params.maxTokens raw.usage.completionTokens) S call o g.timing lease.sessionId
      (accepted.outputFilter policy) raw generatedAt

end Gateway

/-! ### Two runs on one node -/

/-- A run of `process_inference` on a node with a given normalizer: the request is admitted, and its
generation ends after a number of milliseconds, which the code keeps in 64 bits. -/
structure GeneratedRun (T : TextEngine) (H : HostText) (timing : TimingNormalizer) where
  gateway : Gateway T
  call : InferenceCall
  occasion : Occasion T
  runtime : RuntimeReply RawInferenceOutput
  policy : ClientPolicy
  lease : InferenceLease
  raw : RawInferenceOutput
  generatedAt : ℕ
  timing_eq : gateway.timing = timing
  accepted : (gateway.acceptRequest H call occasion).2 = .ok (policy, lease)
  generated : runtime.run call.timeoutSeconds = .ok raw
  generatedAt_lt : generatedAt < 2 ^ 64

namespace GeneratedRun

variable {T : TextEngine} {H : HostText} {timing : TimingNormalizer}
  (run : GeneratedRun T H timing) (S : ScoreEngine)

/-- When the response is returned. -/
def respondsAt : ℕ :=
  run.gateway.responseMs H S run.call run.occasion run.runtime run.generatedAt

/-- The response passes the content policy, and it is not the client's third detection within an
hour. -/
def IsReleased : Prop :=
  (run.occasion.meanwhile.act (run.gateway.acceptRequest H run.call run.occasion).1).Releases S
    run.call run.occasion (run.gateway.outputFilter run.policy) run.raw

/-- The response is released, and its bucket has an end that the clock can reach. -/
def IsHeldBack : Prop :=
  run.IsReleased S ∧ (run.generatedAt / timing.bucketSize + 1) * timing.bucketSize < 2 ^ 64

variable {run S}

theorem respondsAt_of_isReleased (h : run.IsReleased S) :
    run.respondsAt S = run.generatedAt + timing.normalize run.generatedAt := by
  rcases Gateway.responseMs_cases (S := S) run.accepted run.generated run.generatedAt with
    ⟨-, -, hms⟩ | ⟨hnot, -, -⟩
  · rwa [run.timing_eq] at hms
  · exact absurd h hnot

theorem respondsAt_of_not_isReleased (h : ¬run.IsReleased S) :
    run.respondsAt S = run.generatedAt := by
  rcases Gateway.responseMs_cases (S := S) run.accepted run.generated run.generatedAt with
    ⟨hreleased, -, -⟩ | ⟨-, -, hms⟩
  · exact absurd hreleased h
  · exact hms

/-- A response is not released before the floor. -/
theorem floor_le_respondsAt_iff (hactive : timing.isActive = true)
    (hmode : timing.mode = .fixedFloor) :
    timing.fixedFloorMs ≤ run.respondsAt S ↔
      run.IsReleased S ∨ timing.fixedFloorMs ≤ run.generatedAt := by
  by_cases hreleased : run.IsReleased S
  · rw [respondsAt_of_isReleased hreleased]
    exact iff_of_true (TimingNormalizer.floor_le_normalize hactive hmode) (Or.inl hreleased)
  · rw [respondsAt_of_not_isReleased hreleased]
    exact ⟨Or.inr, fun h ↦ h.resolve_left hreleased⟩

section Bucket

variable (hactive : timing.isActive = true) (hmode : timing.mode = .bucket)
  (hpos : 0 < timing.bucketSize)
include hactive hmode hpos

/-- A response that is held back is returned at the end of its bucket. -/
theorem respondsAt_of_isHeldBack (h : run.IsHeldBack S) :
    run.respondsAt S = (run.generatedAt / timing.bucketSize + 1) * timing.bucketSize := by
  rw [respondsAt_of_isReleased h.1]
  exact TimingNormalizer.normalize_bucket_of_lt hactive hmode hpos h.2

/-- Any other is returned when it is ready. -/
theorem respondsAt_of_not_isHeldBack (hbucket : timing.bucketSize < 2 ^ 64)
    (h : ¬run.IsHeldBack S) : run.respondsAt S = run.generatedAt := by
  by_cases hreleased : run.IsReleased S
  · rw [respondsAt_of_isReleased hreleased]
    exact TimingNormalizer.normalize_bucket_of_le hactive hmode hpos hbucket
      (not_lt.1 fun hlt ↦ h ⟨hreleased, hlt⟩)
  · exact respondsAt_of_not_isReleased hreleased

/-- A response that is held back is not returned together with one that is not. -/
theorem generatedAt_lt_respondsAt {other : GeneratedRun T H timing}
    (hsame : run.generatedAt / timing.bucketSize = other.generatedAt / timing.bucketSize)
    (h : run.IsHeldBack S) : other.generatedAt < run.respondsAt S := by
  rw [respondsAt_of_isHeldBack hactive hmode hpos h, hsame, mul_comm]
  exact Nat.lt_mul_div_succ _ hpos

theorem respondsAt_eq_iff (hbucket : timing.bucketSize < 2 ^ 64) {other : GeneratedRun T H timing}
    (hsame : run.generatedAt / timing.bucketSize = other.generatedAt / timing.bucketSize) :
    run.respondsAt S = other.respondsAt S ↔
      (run.IsHeldBack S ∧ other.IsHeldBack S) ∨
        (¬run.IsHeldBack S ∧ ¬other.IsHeldBack S ∧ run.generatedAt = other.generatedAt) := by
  by_cases hrun : run.IsHeldBack S
  · by_cases hother : other.IsHeldBack S
    · refine iff_of_true ?_ (Or.inl ⟨hrun, hother⟩)
      rw [respondsAt_of_isHeldBack hactive hmode hpos hrun,
        respondsAt_of_isHeldBack hactive hmode hpos hother, hsame]
    · refine iff_of_false ?_ (by simp [hrun, hother])
      rw [respondsAt_of_not_isHeldBack hactive hmode hpos hbucket hother]
      exact (generatedAt_lt_respondsAt hactive hmode hpos hsame hrun).ne'
  · rw [respondsAt_of_not_isHeldBack hactive hmode hpos hbucket hrun]
    by_cases hother : other.IsHeldBack S
    · refine iff_of_false ?_ (by simp [hrun, hother])
      exact (generatedAt_lt_respondsAt hactive hmode hpos hsame.symm hother).ne
    · rw [respondsAt_of_not_isHeldBack hactive hmode hpos hbucket hother]
      simp [hrun, hother]

end Bucket

end GeneratedRun

/-! Requests on a node whose content policy refuses one word. -/

namespace SampleRequest

/-- Responses wait for the next tenth of a second. -/
def bucketTiming : TimingNormalizer :=
  ⟨true, .bucket, 100, 0⟩

/-- Responses wait for half a second. -/
def floorTiming : TimingNormalizer :=
  ⟨true, .fixedFloor, 0, 500⟩

/-- The rules of the policy, compiled. -/
def wordFilter : OutputFilter asciiEngine :=
  ⟨(samplePolicy (.tokenBlocklist ["secret".toList]) .returnError).rules.map (⟨·, none⟩)⟩

/-- A node with a normalizer and the policy. -/
def timedGateway (timing : TimingNormalizer) : Gateway asciiEngine :=
  { gateway with timing, outputFilter := fun _ ↦ wordFilter }

/-- A runtime that answers with a text. -/
def saying (text : String) : RuntimeReply RawInferenceOutput :=
  ⟨some (.ok ⟨text.toList, ⟨5, 2⟩, .stop⟩), 2⟩

theorem timedGateway_accepts (timing : TimingNormalizer)
    (h : timing = bucketTiming ∨ timing = floorTiming) :
    ((timedGateway timing).acceptRequest asciiHost call occasion).2 =
      .ok (.defaultFor "alice", lease) := by
  rcases h with rfl | rfl
  · decide +kernel
  · decide +kernel

/-- The request is answered with a text that is generated after a number of milliseconds. -/
def timedRun (timing : TimingNormalizer) (h : timing = bucketTiming ∨ timing = floorTiming)
    (text : String) (generatedAt : ℕ) (hlt : generatedAt < 2 ^ 64) :
    GeneratedRun asciiEngine asciiHost timing where
  gateway := timedGateway timing
  call := call
  occasion := occasion
  runtime := saying text
  policy := .defaultFor "alice"
  lease := lease
  raw := ⟨text.toList, ⟨5, 2⟩, .stop⟩
  generatedAt := generatedAt
  timing_eq := rfl
  accepted := timedGateway_accepts timing h
  generated := rfl
  generatedAt_lt := hlt

/-- Under scores that find nothing suspicious, only the policy withholds a response. -/
theorem isReleased_timedRun_iff {timing : TimingNormalizer}
    {h : timing = bucketTiming ∨ timing = floorTiming} {text : String} {generatedAt : ℕ}
    {hlt : generatedAt < 2 ^ 64} :
    (timedRun timing h text generatedAt hlt).IsReleased scores ↔
      (wordFilter.filter text.toList).blocked = false :=
  and_iff_left fun hthird ↦ absurd hthird.1 Bool.false_ne_true

/-- A result that is ready after 10 ms, and one after 60. -/
def morning : GeneratedRun asciiEngine asciiHost bucketTiming :=
  timedRun _ (Or.inl rfl) "good morning" 10 (by decide)

def evening : GeneratedRun asciiEngine asciiHost bucketTiming :=
  timedRun _ (Or.inl rfl) "good evening" 60 (by decide)

theorem isReleased_morning : morning.IsReleased scores :=
  isReleased_timedRun_iff.2 (by decide)

theorem isReleased_evening : evening.IsReleased scores :=
  isReleased_timedRun_iff.2 (by decide)

/-- A violation that is ready after 10 ms. -/
def leak (timing : TimingNormalizer) (h : timing = bucketTiming ∨ timing = floorTiming) :
    GeneratedRun asciiEngine asciiHost timing :=
  timedRun timing h "my secret" 10 (by decide)

theorem not_isReleased_leak {timing : TimingNormalizer}
    (h : timing = bucketTiming ∨ timing = floorTiming) : ¬(leak timing h).IsReleased scores :=
  mt isReleased_timedRun_iff.1 (by decide)

end SampleRequest

/-- **What timing normalization covers.** In bucket mode, two responses that are ready in the same
bucket of time are returned at the same time exactly if both are released by the content policy and
the covert channel detector, within the clock's range, or if neither is and they were ready at the
same millisecond. In floor mode a response is not returned before the floor exactly if it is
released or was not ready before the floor. -/
theorem response_times_normalised_iff {T : TextEngine} {H : HostText} (S : ScoreEngine)
    (timing : TimingNormalizer) (hactive : timing.isActive = true) :
    (timing.mode = .bucket → 0 < timing.bucketSize → timing.bucketSize < 2 ^ 64 →
      ∀ run other : GeneratedRun T H timing,
        run.generatedAt / timing.bucketSize = other.generatedAt / timing.bucketSize →
        (run.respondsAt S = other.respondsAt S ↔
          (run.IsHeldBack S ∧ other.IsHeldBack S) ∨
            (¬run.IsHeldBack S ∧ ¬other.IsHeldBack S ∧ run.generatedAt = other.generatedAt))) ∧
      (timing.mode = .fixedFloor → ∀ run : GeneratedRun T H timing,
        (timing.fixedFloorMs ≤ run.respondsAt S ↔
          run.IsReleased S ∨ timing.fixedFloorMs ≤ run.generatedAt)) := by
  constructor
  · intro hmode hpos hbucket run other hsame
    exact GeneratedRun.respondsAt_eq_iff hactive hmode hpos hbucket hsame
  · intro hmode run
    exact GeneratedRun.floor_le_respondsAt_iff hactive hmode

/-- Two results of one bucket are returned at its end. -/
theorem response_times_normalised_iff_sample :
    SampleRequest.morning.respondsAt SampleRequest.scores =
      SampleRequest.evening.respondsAt SampleRequest.scores := by
  refine ((response_times_normalised_iff SampleRequest.scores SampleRequest.bucketTiming rfl).1 rfl
    (by decide) (by decide) _ _ (by decide)).2 (Or.inl ⟨?_, ?_⟩)
  · exact ⟨SampleRequest.isReleased_morning, by decide⟩
  · exact ⟨SampleRequest.isReleased_evening, by decide⟩

/-- **A refused response tells when it was ready.** A content-policy violation that is ready after
10 ms is answered then, where a result waits until 100 ms, and under a floor of 500 ms too. -/
theorem violation_is_not_held_back :
    (¬∀ timing : TimingNormalizer, timing.isActive = true → timing.mode = .bucket →
      0 < timing.bucketSize → ∀ run other : GeneratedRun asciiEngine asciiHost timing,
        run.generatedAt / timing.bucketSize = other.generatedAt / timing.bucketSize →
        run.respondsAt SampleRequest.scores = other.respondsAt SampleRequest.scores) ∧
      ¬∀ timing : TimingNormalizer, timing.isActive = true → timing.mode = .fixedFloor →
        ∀ run : GeneratedRun asciiEngine asciiHost timing,
          timing.fixedFloorMs ≤ run.respondsAt SampleRequest.scores := by
  constructor
  · intro hall
    have hsame := hall SampleRequest.bucketTiming rfl rfl (by decide)
      (SampleRequest.leak _ (Or.inl rfl)) SampleRequest.morning rfl
    rw [GeneratedRun.respondsAt_of_not_isReleased (SampleRequest.not_isReleased_leak _),
      GeneratedRun.respondsAt_of_isReleased SampleRequest.isReleased_morning] at hsame
    exact absurd hsame (by decide)
  · intro hall
    have hfloor := hall SampleRequest.floorTiming rfl rfl (SampleRequest.leak _ (Or.inr rfl))
    rw [GeneratedRun.respondsAt_of_not_isReleased (SampleRequest.not_isReleased_leak _)] at hfloor
    exact absurd hfloor (by decide)

end Cordon
