import Cordon.Core.Requests
import Cordon.Core.StreamingContract

/-!
# What a request leaves behind

A request that was accepted has an intake record in the log and a reservation in its client's
bucket. When it has ended, the record should have been followed by exactly one that closes it, and
the bucket should be charged with what was generated. Whether that is so depends on the exit the
request takes.

* `closed_exactly_once_iff`: a unary request is closed exactly if **the runtime answers in time**
  and the response is not withheld because it is the client's third detection within an hour; a
  stream that the client does not abandon is closed exactly if the runtime opens it.
* `charged_as_generated_iff`: nothing is refunded when the request is refused after its admission,
  when the runtime fails or is late, when the client hangs up, or when the bucket is gone by the
  time of the settlement; and a stream that stops before the runtime has reported its usage is
  refunded in full. So the charge is right, up to the reservation, only if what was generated
  happens to be what the exit charges.

Each operation of the gateway is described once, by what it does to the records, to the charge of
one request and to the bucket of its client; the pipelines are put together from that. The charge is
measured on the bucket, and rests on `RateLimiter.outputTokens_check` and
`RateLimiter.outputTokens_settle` alone. The ceiling is set aside: a refund that finds the bucket
filled up by then would be cut short (`HasRoom`). If the other requests are those of other clients,
it is not, and the level of the bucket in the end is the refilled level less the charge.
-/

namespace Cordon

namespace Gateway

variable {T : TextEngine} {g g' : Gateway T} {H : HostText} {S : ScoreEngine} {call : InferenceCall}
  {o : Occasion T} {requestId : Uuid} {clientId : String} {now : ℤ} {score : F32}
  {lease : InferenceLease} {policy : ClientPolicy}

/-! ### One operation at a time -/

theorem recordsOf_congr (h : g'.audit = g.audit) :
    g'.recordsOf requestId = g.recordsOf requestId := by
  rw [recordsOf, recordsOf, h]

/-- Neither the limiter nor the ledger has been touched. -/
structure SameCharges (g g' : Gateway T) : Prop where
  ledger : g'.ledger = g.ledger
  rateLimiter : g'.node.rateLimiter = g.node.rateLimiter

theorem SameCharges.netCharge_eq (h : SameCharges g g') :
    g'.netCharge requestId = g.netCharge requestId := by
  rw [netCharge, netCharge, h.ledger]

theorem SameCharges.bucketOf_eq (h : SameCharges g g') :
    g'.bucketOf clientId = g.bucketOf clientId := by
  rw [bucketOf, bucketOf, h.rateLimiter]

theorem sameCharges_dropLease : SameCharges g (g.dropLease lease) :=
  ⟨rfl, rfl⟩

/-- A write that succeeds adds the event. -/
theorem recordsOf_append (event : AuditEvent) :
    (g.append (.ok ()) event).1.recordsOf requestId =
      g.recordsOf requestId + if event.isInferenceOf requestId then 1 else 0 := by
  show (g.audit ++ [event]).countP _ = _
  rw [List.countP_append, List.countP_singleton]
  rfl

theorem sameCharges_append (write : Except String Unit) (event : AuditEvent) :
    SameCharges g (g.append write event).1 := by
  rcases write with e | ⟨⟩
  · exact ⟨rfl, rfl⟩
  · exact ⟨rfl, rfl⟩

/-- **What a settlement gives back**, where the ceiling is not in the way: what was not used, if the
bucket is still there. -/
theorem netCharge_settle {reserved actual : ℕ}
    (hroom : ∀ bucket, g.bucketOf clientId = some bucket → bucket.HasRoomFor reserved) :
    (g.settle requestId clientId reserved actual).netCharge requestId =
      g.netCharge requestId -
        if (g.bucketOf clientId).isSome then ((reserved - actual : ℕ) : ℚ) else 0 := by
  have hrefund := RateLimiter.outputTokens_settle actual hroom
  have hledger : (g.settle requestId clientId reserved actual).netCharge requestId =
      g.netCharge requestId + (g.node.rateLimiter.outputTokens clientId -
        (g.node.rateLimiter.settle clientId reserved actual).outputTokens clientId) := by
    simp [netCharge, settle]
  rw [hledger, hrefund, bucketOf]
  ring

/-- Counting a detection neither writes to the log nor calls the limiter. -/
theorem scoreText_frame (S : ScoreEngine) (now : ℤ) (clientId : String) (text : List Char) :
    (g.scoreText S now clientId text).1.audit = g.audit ∧
      SameCharges g (g.scoreText S now clientId text).1 := by
  rw [scoreText]
  split
  · rw [recordCovertChannelScore]
    split
    · exact ⟨rfl, rfl, rfl⟩
    · simp only
      split <;> exact ⟨rfl, rfl, rfl⟩
  · exact ⟨rfl, rfl, rfl⟩

/-- The response would be a detection, and the client's third within an hour. -/
def IsThirdDetection (g : Gateway T) (S : ScoreEngine) (now : ℤ) (clientId : String)
    (text : List Char) : Prop :=
  (S.analyze text).detected = true ∧ S.isBelowThreshold (S.analyze text).anomalyScore = false ∧
    3 ≤ ((((g.covertChannelEvents.lookup clientId).getD (.new 3600, F32.zero)).1.increment
      now).prune now).total

/-- **What suspends a client.** -/
theorem scoreText_suspends_iff (S : ScoreEngine) (now : ℤ) (clientId : String) (text : List Char) :
    (g.scoreText S now clientId text).2 = true ↔ g.IsThirdDetection S now clientId text := by
  rw [scoreText, IsThirdDetection]
  split
  · next hdetected =>
    rw [recordCovertChannelScore]
    split
    · next hbelow => simp [hbelow]
    · next hbelow =>
      simp only
      split
      · next htotal => simp [hdetected, hbelow, htotal]
      · next htotal => simp [htotal]
  · next hdetected => simp [hdetected]

/-- The alert about a suspension is not a record of the request. -/
theorem recordsOf_recordSuspension (write : Except String Unit) :
    (g.recordSuspension write clientId).recordsOf requestId = g.recordsOf requestId := by
  rcases write with e | ⟨⟩
  · rfl
  · rw [recordSuspension, recordsOf_append]
    rfl

/-! ### The response of the runtime -/

section Conclude

variable {sessionId : Uuid} {filter : OutputFilter T} {raw : RawInferenceOutput}

/-- **What is done with a response**: it is refused by the content policy and recorded, or withheld
with an alert, or answered and recorded. -/
theorem concludeInference_cases (g : Gateway T) (S : ScoreEngine) (call : InferenceCall)
    (o : Occasion T) (sessionId : Uuid) (filter : OutputFilter T) (raw : RawInferenceOutput) :
    ((filter.filter raw.text).blocked = true ∧
      (g.concludeInference S call o sessionId filter raw).1 = (g.append o.laterWrite
        (g.blockedEvent call o sessionId raw (filter.filter raw.text))).1) ∨
    ((filter.filter raw.text).blocked = false ∧
      g.IsThirdDetection S o.scoredAt call.client.clientId (filter.filter raw.text).text ∧
      (g.concludeInference S call o sessionId filter raw).1 =
        (g.scoreText S o.scoredAt call.client.clientId
          (filter.filter raw.text).text).1.recordSuspension o.laterWrite call.client.clientId) ∨
    ((filter.filter raw.text).blocked = false ∧
      ¬g.IsThirdDetection S o.scoredAt call.client.clientId (filter.filter raw.text).text ∧
      ∃ g', g' = o.whileHeld.act
          (g.scoreText S o.scoredAt call.client.clientId (filter.filter raw.text).text).1 ∧
        (g.concludeInference S call o sessionId filter raw).1 = (g'.append o.laterWrite
          (g'.completionEvent call o sessionId raw (filter.filter raw.text)
            (S.analyze (filter.filter raw.text).text).anomalyScore)).1) := by
  rw [concludeInference]
  simp only
  split
  · next hblocked => exact Or.inl ⟨hblocked, rfl⟩
  · next hblocked =>
    have hpasses : (filter.filter raw.text).blocked = false := by simpa using hblocked
    refine Or.inr ?_
    rw [← scoreText_suspends_iff]
    split
    · next hsuspended => exact Or.inl ⟨hpasses, hsuspended, rfl⟩
    · next hsuspended => exact Or.inr ⟨hpasses, hsuspended, _, rfl, rfl⟩

/-- Whatever depends on the limiter and the ledger alone, and outlasts the wait for the response,
outlasts the rest as well. -/
theorem concludeInference_keeps {P : Gateway T → Prop}
    (hsame : ∀ g g' : Gateway T, SameCharges g g' → P g → P g')
    (hheld : ∀ g, P g → P (o.whileHeld.act g)) (h : P g) :
    P (g.concludeInference S call o sessionId filter raw).1 := by
  have hscore := fun text ↦
    hsame _ _ (scoreText_frame (g := g) S o.scoredAt call.client.clientId text).2 h
  rcases concludeInference_cases g S call o sessionId filter raw with
    ⟨-, hafter⟩ | ⟨-, -, hafter⟩ | ⟨-, -, g', rfl, hafter⟩
  · rw [hafter]
    exact hsame _ _ (sameCharges_append _ _) h
  · rw [hafter, recordSuspension]
    exact hsame _ _ (sameCharges_append _ _) (hscore _)
  · rw [hafter]
    exact hsame _ _ (sameCharges_append _ _) (hheld _ (hscore _))

theorem netCharge_concludeInference :
    (g.concludeInference S call o sessionId filter raw).1.netCharge o.requestId =
      g.netCharge o.requestId :=
  concludeInference_keeps (P := fun g' ↦ g'.netCharge o.requestId = g.netCharge o.requestId)
    (fun _ _ hsame h ↦ hsame.netCharge_eq.trans h)
    (fun _ h ↦ (o.whileHeld.netCharge_act _).trans h) rfl

/-- **A response is recorded unless it is withheld.** -/
theorem recordsOf_concludeInference_iff (hwrite : o.laterWrite = .ok ()) :
    (g.concludeInference S call o sessionId filter raw).1.recordsOf o.requestId =
        g.recordsOf o.requestId + 1 ↔
      (filter.filter raw.text).blocked = true ∨
        ¬g.IsThirdDetection S o.scoredAt call.client.clientId (filter.filter raw.text).text := by
  have hscore := fun text ↦
    (scoreText_frame (g := g) S o.scoredAt call.client.clientId text).1
  rcases concludeInference_cases g S call o sessionId filter raw with
    ⟨hblocked, hafter⟩ | ⟨hpasses, hthird, hafter⟩ | ⟨-, hthird, g', rfl, hafter⟩
  · refine iff_of_true ?_ (Or.inl hblocked)
    rw [hafter, hwrite, recordsOf_append, if_pos (by simp [blockedEvent, AuditEvent.isInferenceOf])]
  · -- withheld: the only event is the alert
    refine iff_of_false ?_ (by simp [hpasses, hthird])
    rw [hafter, recordsOf_recordSuspension, recordsOf_congr (hscore _)]
    exact Nat.ne_of_lt (Nat.lt_succ_self _)
  · refine iff_of_true ?_ (Or.inr hthird)
    rw [hafter, hwrite, recordsOf_append,
      if_pos (by simp [completionEvent, AuditEvent.isInferenceOf]), o.whileHeld.recordsOf_act,
      recordsOf_congr (hscore _)]

end Conclude

/-! ### Acceptance -/

/-- An admission has checked that the request asks for some output. -/
theorem maxTokens_pos (h : (g.admitCall H call o).2 = .ok policy) : 0 < call.params.maxTokens := by
  rw [admitCall] at h
  rcases hcall : g.node.admitRequest H o.clock call.client call.modelId call.messages
    call.params with ⟨node, e | policy'⟩
  · simp [hcall] at h
  · have hok := congrArg Prod.snd hcall
    obtain ⟨-, -, -, hlimits, -⟩ := CordonNode.of_admitRequest_eq_ok hok
    exact pos_of_checkRequestLimits hlimits

/-- **What an admission does to the limiter and the ledger**: a check that is allowed, and a note of
what the bucket lost. -/
theorem of_admitCall (h : (g.admitCall H call o).2 = .ok policy) :
    g.node.rateLimiter.check o.clock.limiter call.client.clientId call.params.maxTokens policy =
        ((g.admitCall H call o).1.node.rateLimiter, .ok ()) ∧
      (g.admitCall H call o).1.netCharge o.requestId = g.netCharge o.requestId +
        ((g.node.rateLimiter.refilled o.clock.limiter call.client.clientId policy).outputTokens -
          (g.admitCall H call o).1.node.rateLimiter.outputTokens call.client.clientId) := by
  rw [admitCall] at h ⊢
  rcases hcall : g.node.admitRequest H o.clock call.client call.modelId call.messages
    call.params with ⟨node, e | policy'⟩
  · simp [hcall] at h
  · obtain rfl : policy' = policy := by simpa [hcall] using h
    have hallowed := CordonNode.of_admitRequest_eq_ok (congrArg Prod.snd hcall)
    refine ⟨?_, by simp [netCharge]⟩
    simpa only [hcall] using hallowed.2.2.2.2.2

/-- What follows an admission calls the limiter no more. -/
theorem sameCharges_acceptRequest :
    SameCharges (g.admitCall H call o).1 (g.acceptRequest H call o).1 := by
  rw [acceptRequest]
  rcases g.admitCall H call o with ⟨admitted, e | policy⟩
  · exact ⟨rfl, rfl⟩
  · simp only
    split
    · exact ⟨rfl, rfl⟩
    · rcases o.intakeWrite with e | ⟨⟩
      · exact ⟨rfl, rfl⟩
      · exact ⟨rfl, rfl⟩

/-- **An admitted request is charged with its reservation**, whether it is accepted or not. -/
theorem netCharge_acceptRequest (h : (g.admitCall H call o).2 = .ok policy) :
    (g.acceptRequest H call o).1.netCharge o.requestId =
      g.netCharge o.requestId + call.params.maxTokens := by
  obtain ⟨hcheck, hcharge⟩ := of_admitCall h
  rw [sameCharges_acceptRequest.netCharge_eq, hcharge, RateLimiter.outputTokens_check hcheck]
  ring

/-- A request that is accepted has its intake record. -/
theorem recordsOf_acceptRequest (h : (g.acceptRequest H call o).2 = .ok (policy, lease)) :
    (g.acceptRequest H call o).1.recordsOf o.requestId = g.recordsOf o.requestId + 1 := by
  have hadmitted : (g.admitCall H call o).1.recordsOf o.requestId = g.recordsOf o.requestId := by
    rw [admitCall]
    split <;> rfl
  rw [← hadmitted]
  rw [acceptRequest] at h ⊢
  rcases hcall : g.admitCall H call o with ⟨admitted, e | policy'⟩
  · simp [hcall] at h
  · simp only [hcall] at h ⊢
    rcases hlease : admitted.engine.admitRequest o.leasedAt o.freshSession call.client.clientId
      call.sessionId with ⟨engine, e | lease'⟩
    · simp [hlease] at h
    · rcases hwrite : o.intakeWrite with e | ⟨⟩
      · simp [hlease, hwrite, append] at h
      · simp only [append]
        refine Eq.trans (recordsOf_append (g := { admitted with engine }) _) ?_
        rw [if_pos (by simp [intakeEvent, AuditEvent.isInferenceOf])]
        rfl

/-! ### The unary pipeline -/

/-- **What becomes of a unary request that is accepted.** -/
theorem processInference_cases (runtime : RuntimeReply RawInferenceOutput)
    (h : (g.acceptRequest H call o).2 = .ok (policy, lease)) :
    (∃ e, runtime.run call.timeoutSeconds = .error e ∧
      (g.processInference H S call o runtime).1 =
        (o.meanwhile.act (g.acceptRequest H call o).1).dropLease lease) ∨
    ∃ raw, runtime.run call.timeoutSeconds = .ok raw ∧
      (g.processInference H S call o runtime).1 =
        (((o.meanwhile.act (g.acceptRequest H call o).1).settle o.requestId call.client.clientId
          call.params.maxTokens raw.usage.completionTokens).concludeInference S call o
            lease.sessionId ((g.acceptRequest H call o).1.outputFilter policy) raw).1.dropLease
              lease := by
  rw [processInference]
  rcases haccept : g.acceptRequest H call o with ⟨accepted, result⟩
  obtain rfl : result = .ok (policy, lease) := by simpa [haccept] using h
  simp only
  rcases runtime.run call.timeoutSeconds with e | raw
  · exact Or.inl ⟨e, rfl, rfl⟩
  · exact Or.inr ⟨raw, rfl, rfl⟩

/-! ### The streaming pipeline -/

/-- **What becomes of a stream that is accepted.** -/
theorem inferenceStream_cases (runtime : RuntimeReply TokenStream) (patience : Option ℕ)
    (htiming : g.timing.isActive = false)
    (h : (g.acceptRequest H call o).2 = .ok (policy, lease)) :
    (∃ e, runtime.run call.timeoutSeconds = .error e ∧
      (g.inferenceStream H S call o runtime patience).1 =
        (o.meanwhile.act (g.acceptRequest H call o).1).dropLease lease) ∨
    ∃ stream p exit, runtime.run call.timeoutSeconds = .ok stream ∧
      relayStream patience ((g.acceptRequest H call o).1.outputFilter policy) stream = (p, exit) ∧
      ((exit = .hungUp ∧ (g.inferenceStream H S call o runtime patience).1 =
          (o.whileHeld.act (o.meanwhile.act (g.acceptRequest H call o).1)).dropLease lease) ∨
        exit ≠ .hungUp ∧ ∃ released finishReason rulesMatched,
          (g.inferenceStream H S call o runtime patience).1 =
            ((o.whileHeld.act (o.meanwhile.act
              (g.acceptRequest H call o).1)).finishStreamingInference S call o lease.sessionId
                released p.usage finishReason rulesMatched).dropLease lease) := by
  rw [inferenceStream, beginStreamingInference, htiming, if_neg (by decide)]
  rcases haccept : g.acceptRequest H call o with ⟨accepted, result⟩
  obtain rfl : result = .ok (policy, lease) := by simpa [haccept] using h
  rcases hrun : runtime.run call.timeoutSeconds with e | stream
  · exact Or.inl ⟨e, rfl, rfl⟩
  · rcases hrelay : relayStream patience (accepted.outputFilter policy) stream with ⟨p, exit⟩
    refine Or.inr ⟨stream, p, exit, rfl, hrelay, ?_⟩
    simp only [hrelay]
    rcases exit with - | e | -
    · exact Or.inl ⟨rfl, rfl⟩
    · refine Or.inr ⟨by simp, ?_⟩
      rcases e
      all_goals exact ⟨_, _, _, rfl⟩
    · exact Or.inr ⟨by simp, _, _, _, rfl⟩

section Finish

variable {sessionId : Uuid} {released : Option (List Char)} {usage : TokenUsage}
  {finishReason : FinishReason} {rulesMatched : List String}

theorem recordsOf_finishStreamingInference (hwrite : o.laterWrite = .ok ()) :
    (g.finishStreamingInference S call o sessionId released usage finishReason
        rulesMatched).recordsOf o.requestId = g.recordsOf o.requestId + 1 := by
  rw [finishStreamingInference, hwrite, recordsOf_append,
    if_pos (by simp [AuditEvent.isInferenceOf]), recordsOf_congr (scoreText_frame _ _ _ _).1]
  rfl

/-- Of what a stream's end does, only the settlement is seen by the limiter. -/
theorem sameCharges_finishStreamingInference :
    SameCharges (g.settle o.requestId call.client.clientId call.params.maxTokens
        usage.completionTokens)
      (g.finishStreamingInference S call o sessionId released usage finishReason rulesMatched) := by
  obtain ⟨-, hledger, hlimiter⟩ := scoreText_frame (g := g.settle o.requestId call.client.clientId
    call.params.maxTokens usage.completionTokens) S o.scoredAt call.client.clientId
      (released.getD [])
  rw [finishStreamingInference]
  have happend := sameCharges_append (g := (scoreText (g.settle o.requestId call.client.clientId
    call.params.maxTokens usage.completionTokens) S o.scoredAt call.client.clientId
      (released.getD [])).1) o.laterWrite
  exact ⟨(happend _).ledger.trans hledger, (happend _).rateLimiter.trans hlimiter⟩

end Finish

theorem outputFilter_acceptRequest :
    (g.acceptRequest H call o).1.outputFilter = g.outputFilter := by
  have hcall : (g.admitCall H call o).1.outputFilter = g.outputFilter := by
    rw [admitCall]
    split <;> rfl
  rw [← hcall, acceptRequest]
  rcases g.admitCall H call o with ⟨admitted, e | policy⟩
  · rfl
  · simp only
    split
    · rfl
    · rcases o.intakeWrite with e | ⟨⟩
      · rfl
      · rfl

end Gateway

/-! ### What a stream reports -/

section Stream

variable {T : TextEngine} {patience : Option ℕ} {p : StreamProgress T} {filter : OutputFilter T}
  {stream : TokenStream}

/-- The chunks that are taken from a stream before it ends, fails, is stopped by the policy or is
abandoned. -/
def chunksRead (patience : Option ℕ) : StreamingFilter T → ℕ → TokenStream → List StreamChunk
  | _, _, [] => []
  | _, _, .error _ :: _ => []
  | filter, sent, .ok (.done finishReason usage) :: rest =>
    .done finishReason usage :: chunksRead patience filter sent rest
  | filter, sent, .ok (.delta text) :: rest =>
    .delta text ::
      match filter.push text with
      | (_, .error _) => []
      | (filter, .ok []) => chunksRead patience filter sent rest
      | (filter, .ok (_ :: _)) =>
        if delivers patience sent then chunksRead patience filter (sent + 1) rest else []

/-- The usage that was reported last. -/
def lastReport : List StreamChunk → Option TokenUsage
  | [] => none
  | .delta _ :: rest => lastReport rest
  | .done _ usage :: rest => some ((lastReport rest).getD usage)

/-- The loop ends with the usage that was reported last. -/
theorem usage_consumeStream : (consumeStream patience p stream).1.usage =
    (lastReport (chunksRead patience p.filter p.sent stream)).getD p.usage := by
  induction stream generalizing p with
  | nil => rfl
  | cons chunk rest ih =>
    rcases chunk with e | text | ⟨finishReason, usage⟩
    · rfl
    · -- a piece of text reports nothing, and both recursions go on or stop with the filter
      rw [consumeStream, chunksRead, lastReport]
      rcases p.filter.push text with ⟨filter, e | - | ⟨c, cs⟩⟩
      · rfl
      · exact ih
      · simp only
        split
        · exact ih
        · rfl
    · rw [consumeStream, chunksRead, lastReport, ih, Option.getD_some]

theorem usage_relayStream : (relayStream patience filter stream).1.usage =
    (lastReport (chunksRead patience (.new filter) 0 stream)).getD .zero := by
  rw [← usage_consumeStream (p := ⟨.new filter, .zero, .stop, 0⟩), relayStream]
  split
  · next p hconsume =>
    rw [hconsume, closeStream]
    split
    · rfl
    · split
      · rfl
      · split <;> rfl
  · next p exit _ hconsume => rw [hconsume]

/-- A client that stays is not taken to have hung up. -/
theorem consumeStream_ne_hungUp : (consumeStream none p stream).2 ≠ .hungUp := by
  induction stream generalizing p with
  | nil => simp [consumeStream]
  | cons chunk rest ih =>
    rcases chunk with e | text | ⟨finishReason, usage⟩
    · simp [consumeStream]
    · rw [consumeStream]
      rcases p.filter.push text with ⟨filter, e | - | ⟨c, cs⟩⟩
      · simp
      · exact ih
      · exact ih
    · rw [consumeStream]
      exact ih

theorem relayStream_ne_hungUp : (relayStream none filter stream).2 ≠ .hungUp := by
  rw [relayStream]
  split
  · rw [closeStream]
    split
    · simp
    · split
      · simp
      · simp [delivers]
  · next p exit _ hconsume =>
    have hexit := congrArg Prod.snd hconsume
    exact fun h ↦ consumeStream_ne_hungUp (hexit.trans h)

end Stream

/-! ### Both pipelines -/

/-- The pipeline a request goes through, with the runtime it finds. A client that streams may hang
up. -/
inductive Pipeline
  | unary (runtime : RuntimeReply RawInferenceOutput)
  | streaming (runtime : RuntimeReply TokenStream) (patience : Option ℕ)

namespace Pipeline

/-- Streaming is not refused on account of timing normalization. -/
def Permitted (timing : TimingNormalizer) : Pipeline → Prop
  | .unary _ => True
  | .streaming _ _ => timing.isActive = false

/-- The caller does not abandon the stream. -/
def Stays : Pipeline → Prop
  | .unary _ => True
  | .streaming _ patience => patience = none

/-- The completion tokens that the runtime generates. -/
def runtimeTokens : Pipeline → ℕ
  | .unary runtime => runtime.generated
  | .streaming runtime _ => runtime.generated

/-- The completion tokens that are generated for a request. A request that is not accepted does not
reach the runtime. -/
def generated (pipeline : Pipeline) :
    Except CordonError (ClientPolicy × InferenceLease) → ℕ
  | .ok _ => pipeline.runtimeTokens
  | .error _ => 0

end Pipeline

namespace Gateway

variable {T : TextEngine} {g : Gateway T} {H : HostText} {S : ScoreEngine} {call : InferenceCall}
  {o : Occasion T} {lease : InferenceLease} {policy : ClientPolicy}

/-- The gateway after a request has ended. -/
def serve (g : Gateway T) (H : HostText) (S : ScoreEngine) (call : InferenceCall) (o : Occasion T) :
    Pipeline → Gateway T
  | .unary runtime => (g.processInference H S call o runtime).1
  | .streaming runtime patience => (g.inferenceStream H S call o runtime patience).1

/-- The runtime answers in time, and the response is not withheld: the content policy refuses it, or
it is not the client's third detection within an hour. A stream has only to be opened. -/
def IsAnswered (g : Gateway T) (S : ScoreEngine) (call : InferenceCall) (o : Occasion T)
    (filter : OutputFilter T) : Pipeline → Prop
  | .unary runtime => ∃ raw, runtime.inTime = some (.ok raw) ∧
      ((filter.filter raw.text).blocked = true ∨
        ¬g.IsThirdDetection S o.scoredAt call.client.clientId (filter.filter raw.text).text)
  | .streaming runtime _ => ∃ stream, runtime.inTime = some (.ok stream)

end Gateway

theorem RuntimeReply.run_eq_ok_iff {α : Type} {reply : RuntimeReply α} {timeoutSeconds : ℕ}
    {a : α} :
    reply.run timeoutSeconds = .ok a ↔ reply.inTime = some (.ok a) := by
  rw [run]
  rcases reply.inTime with - | result
  · simp
  · simp

namespace Gateway

variable {T : TextEngine} {g : Gateway T} {H : HostText} {S : ScoreEngine} {call : InferenceCall}
  {o : Occasion T} {lease : InferenceLease} {policy : ClientPolicy}

theorem recordsOf_processInference_iff {runtime : RuntimeReply RawInferenceOutput}
    (h : (g.acceptRequest H call o).2 = .ok (policy, lease)) (hwrite : o.laterWrite = .ok ()) :
    (g.processInference H S call o runtime).1.recordsOf o.requestId =
        (g.acceptRequest H call o).1.recordsOf o.requestId + 1 ↔
      (o.meanwhile.act (g.acceptRequest H call o).1).IsAnswered S call o (g.outputFilter policy)
        (.unary runtime) := by
  rcases processInference_cases runtime h with ⟨e, hrun, hafter⟩ | ⟨raw, hrun, hafter⟩
  · -- nothing is written after the runtime has failed
    refine iff_of_false ?_ ?_
    · rw [hafter]
      show (o.meanwhile.act _).recordsOf _ ≠ _
      rw [o.meanwhile.recordsOf_act]
      exact Nat.ne_of_lt (Nat.lt_succ_self _)
    · rintro ⟨raw, hraw, -⟩
      rw [RuntimeReply.run_eq_ok_iff.2 hraw] at hrun
      simp at hrun
  · have hsettle : ((o.meanwhile.act (g.acceptRequest H call o).1).settle o.requestId
        call.client.clientId call.params.maxTokens raw.usage.completionTokens).recordsOf
        o.requestId = (g.acceptRequest H call o).1.recordsOf o.requestId :=
      o.meanwhile.recordsOf_act _
    rw [hafter]
    show (concludeInference _ _ _ _ _ _ _).1.recordsOf _ = _ ↔ _
    rw [← hsettle, recordsOf_concludeInference_iff hwrite, outputFilter_acceptRequest]
    refine ⟨fun hrecorded ↦ ⟨raw, RuntimeReply.run_eq_ok_iff.1 hrun, hrecorded⟩, ?_⟩
    rintro ⟨raw', hraw', hrecorded⟩
    obtain rfl : raw = raw' :=
      Except.ok.inj (hrun.symm.trans (RuntimeReply.run_eq_ok_iff.2 hraw'))
    exact hrecorded

theorem recordsOf_inferenceStream_iff {runtime : RuntimeReply TokenStream}
    (h : (g.acceptRequest H call o).2 = .ok (policy, lease)) (htiming : g.timing.isActive = false)
    (hwrite : o.laterWrite = .ok ()) :
    (g.inferenceStream H S call o runtime none).1.recordsOf o.requestId =
        (g.acceptRequest H call o).1.recordsOf o.requestId + 1 ↔
      (o.meanwhile.act (g.acceptRequest H call o).1).IsAnswered S call o (g.outputFilter policy)
        (.streaming runtime none) := by
  rcases inferenceStream_cases (S := S) runtime none htiming h with
    ⟨e, hrun, hafter⟩ | ⟨stream, p, exit, hrun, hrelay, hexit⟩
  · -- the runtime has not opened the stream
    refine iff_of_false ?_ ?_
    · rw [hafter]
      show (o.meanwhile.act _).recordsOf _ ≠ _
      rw [o.meanwhile.recordsOf_act]
      exact Nat.ne_of_lt (Nat.lt_succ_self _)
    · rintro ⟨stream, hstream⟩
      rw [RuntimeReply.run_eq_ok_iff.2 hstream] at hrun
      simp at hrun
  · refine iff_of_true ?_ ⟨stream, RuntimeReply.run_eq_ok_iff.1 hrun⟩
    have hstays : exit ≠ .hungUp := fun hhung ↦
      relayStream_ne_hungUp ((congrArg Prod.snd hrelay).trans hhung)
    obtain ⟨-, released, finishReason, rulesMatched, hafter⟩ :=
      hexit.resolve_left fun hhung ↦ hstays hhung.1
    rw [hafter]
    show (finishStreamingInference _ _ _ _ _ _ _ _ _).recordsOf _ = _
    rw [recordsOf_finishStreamingInference hwrite, o.whileHeld.recordsOf_act,
      o.meanwhile.recordsOf_act]

end Gateway

/-- **When a request is closed.** A request that passes admission and whose intake record is written
has one record then, and, if the log can be written and the caller does not abandon the stream, it
has **exactly one further record in the end** precisely if it is answered: a unary request, if the
runtime answers in time without an error and the response is not withheld as the client's third
covert-channel detection within an hour; a stream, if the runtime opens it. -/
theorem closed_exactly_once_iff {T : TextEngine} (H : HostText) (S : ScoreEngine) (g : Gateway T)
    (call : InferenceCall) (o : Occasion T) (pipeline : Pipeline) (policy : ClientPolicy)
    (lease : InferenceLease) (hpermitted : pipeline.Permitted g.timing)
    (haccepted : (g.acceptRequest H call o).2 = .ok (policy, lease))
    (hwrite : o.laterWrite = .ok ()) (hstays : pipeline.Stays) :
    (g.acceptRequest H call o).1.recordsOf o.requestId = g.recordsOf o.requestId + 1 ∧
      ((g.serve H S call o pipeline).recordsOf o.requestId =
          (g.acceptRequest H call o).1.recordsOf o.requestId + 1 ↔
        (o.meanwhile.act (g.acceptRequest H call o).1).IsAnswered S call o (g.outputFilter policy)
          pipeline) := by
  refine ⟨Gateway.recordsOf_acceptRequest haccepted, ?_⟩
  rcases pipeline with runtime | ⟨runtime, patience⟩
  · exact Gateway.recordsOf_processInference_iff haccepted hwrite
  · obtain rfl : patience = none := hstays
    exact Gateway.recordsOf_inferenceStream_iff haccepted hpermitted hwrite

/-! ### A request to try things on -/

namespace SampleRequest

/-- A gateway on which no request has been made: no content policy, no timing normalization. -/
def gateway : Gateway asciiEngine where
  node := sampleNode soundBundles
  engine := .new 4 true 100
  timing := ⟨false, .none, 0, 0⟩
  outputFilter _ := ⟨[]⟩
  covertChannelEvents := ∅
  audit := []
  ledger := []

/-- Scores under which nothing is suspicious. -/
def scores : ScoreEngine where
  analyze _ := ⟨F32.zero, false⟩
  isBelowThreshold _ := true
  maxScore highest _ := highest
  suspension _ _ := ""

/-- A short request. -/
def call : InferenceCall :=
  ⟨sampleClient, "default", sampleMessages, sampleParams, none, 30⟩

/-- No other request is made meanwhile. -/
def alone (requestId : Uuid) : Others asciiEngine requestId :=
  ⟨id, fun _ ↦ rfl, fun _ ↦ rfl⟩

/-- The request meets nothing unusual. -/
def occasion : Occasion asciiEngine where
  requestId := ⟨1⟩
  clock := sampleClock
  leasedAt := 5
  freshSession := ⟨2⟩
  intakeWrite := .ok ()
  laterWrite := .ok ()
  mrenclave := ""
  mrenclaveAtEnd := ""
  meanwhile := alone _
  scoredAt := 6
  whileHeld := alone _
  latencyMs := 40

/-- The lease of the request. -/
def lease : InferenceLease :=
  ⟨⟨2⟩, true, "alice"⟩

/-- A runtime that answers with two tokens. -/
def answering : RuntimeReply RawInferenceOutput :=
  ⟨some (.ok ⟨"hi there".toList, ⟨5, 2⟩, .stop⟩), 2⟩

/-- A runtime that misses the deadline, with nothing to show. -/
def late : RuntimeReply RawInferenceOutput :=
  ⟨none, 0⟩

theorem accepted : (gateway.acceptRequest asciiHost call occasion).2 =
    .ok (.defaultFor "alice", lease) := by
  decide +kernel

theorem admitted : (gateway.admitCall asciiHost call occasion).2 = .ok (.defaultFor "alice") := by
  decide +kernel

end SampleRequest

/-- A request that is answered is closed. -/
theorem closed_exactly_once_iff_sample :
    (SampleRequest.gateway.serve asciiHost SampleRequest.scores SampleRequest.call
        SampleRequest.occasion (.unary SampleRequest.answering)).recordsOf ⟨1⟩ =
      (SampleRequest.gateway.acceptRequest asciiHost SampleRequest.call
        SampleRequest.occasion).1.recordsOf ⟨1⟩ + 1 := by
  refine (closed_exactly_once_iff asciiHost SampleRequest.scores SampleRequest.gateway
    SampleRequest.call SampleRequest.occasion (.unary SampleRequest.answering)
    (.defaultFor "alice") SampleRequest.lease trivial SampleRequest.accepted rfl trivial).2.2 ?_
  exact ⟨_, rfl, Or.inr fun h ↦ absurd h.1 (by decide)⟩

/-- **A request that times out is never closed**: its intake record, which says that generation
stopped by itself, is the only one there is. -/
theorem late_request_stays_open :
    ¬∀ (g : Gateway asciiEngine) (call : InferenceCall) (o : Occasion asciiEngine)
      (pipeline : Pipeline) (policy : ClientPolicy) (lease : InferenceLease),
      pipeline.Permitted g.timing →
      (g.acceptRequest asciiHost call o).2 = .ok (policy, lease) → o.laterWrite = .ok () →
      pipeline.Stays →
      (g.serve asciiHost SampleRequest.scores call o pipeline).recordsOf o.requestId =
        (g.acceptRequest asciiHost call o).1.recordsOf o.requestId + 1 := by
  intro hall
  have hclosed := hall SampleRequest.gateway SampleRequest.call SampleRequest.occasion
    (.unary SampleRequest.late) _ _ trivial SampleRequest.accepted rfl trivial
  obtain ⟨raw, hraw, -⟩ :=
    (Gateway.recordsOf_processInference_iff SampleRequest.accepted rfl).1 hclosed
  simp [SampleRequest.late] at hraw

/-! ### Charges -/

/-- The others leave the bucket of a client alone: they are other clients' requests. -/
def Others.LeavesBucket {T : TextEngine} {requestId : Uuid} (others : Others T requestId)
    (clientId : String) : Prop :=
  ∀ g, (others.act g).bucketOf clientId = g.bucketOf clientId

namespace Gateway

variable {T : TextEngine}

/-- The gateway when a request that was accepted comes to its settlement. -/
def atSettlement (accepted : Gateway T) (o : Occasion T) : Pipeline → Gateway T
  | .unary _ => o.meanwhile.act accepted
  | .streaming _ _ => o.whileHeld.act (o.meanwhile.act accepted)

variable (g : Gateway T) (H : HostText) (call : InferenceCall) (o : Occasion T)
  (pipeline : Pipeline)

/-- The bucket that the reservation was taken from, or another of the client, is there at the
settlement. -/
def KeepsBucket : Bool :=
  (((g.acceptRequest H call o).1.atSettlement o pipeline).bucketOf call.client.clientId).isSome

/-- The ceiling does not come in the way: where a request gets as far as its settlement, the bucket
has room for what was reserved. -/
def HasRoom : Prop :=
  ∀ policy lease bucket, (g.acceptRequest H call o).2 = .ok (policy, lease) →
    ((g.acceptRequest H call o).1.atSettlement o pipeline).bucketOf call.client.clientId =
      some bucket → bucket.HasRoomFor call.params.maxTokens

end Gateway

namespace Pipeline

variable {T : TextEngine}

/-- What the pipeline charges is what the runtime generated, as far as the reservation goes. Where
the runtime reported its usage, and the bucket is still there, the report has to be right; where a
stream stopped before it did, nothing may have been generated; and where the runtime failed, the
client hung up or the bucket is gone, the whole reservation must have been used. -/
def SettlesAsGenerated (reserved : ℕ) (kept : Bool) (filter : OutputFilter T) : Pipeline → Prop
  | .unary runtime =>
    match runtime.inTime with
    | some (.ok raw) =>
      if kept then min raw.usage.completionTokens reserved = min runtime.generated reserved
      else reserved ≤ runtime.generated
    | _ => reserved ≤ runtime.generated
  | .streaming runtime patience =>
    match runtime.inTime with
    | some (.ok stream) =>
      if kept ∧ (relayStream patience filter stream).2 ≠ .hungUp then
        match lastReport (chunksRead patience (.new filter) 0 stream) with
        | some usage => min usage.completionTokens reserved = min runtime.generated reserved
        | none => runtime.generated = 0
      else reserved ≤ runtime.generated
    | _ => reserved ≤ runtime.generated

/-- What a request that was accepted gets back of its reservation. -/
def refund (reserved : ℕ) (kept : Bool) (filter : OutputFilter T) : Pipeline → ℕ
  | .unary runtime =>
    match runtime.inTime with
    | some (.ok raw) => if kept then reserved - raw.usage.completionTokens else 0
    | _ => 0
  | .streaming runtime patience =>
    match runtime.inTime with
    | some (.ok stream) =>
      let (p, exit) := relayStream patience filter stream
      if kept ∧ exit ≠ .hungUp then reserved - p.usage.completionTokens else 0
    | _ => 0

variable {reserved : ℕ} {kept : Bool} {filter : OutputFilter T}

theorem refund_le (pipeline : Pipeline) (reserved : ℕ) (kept : Bool) (filter : OutputFilter T) :
    pipeline.refund reserved kept filter ≤ reserved := by
  rcases pipeline with runtime | ⟨runtime, patience⟩
  · rw [refund]
    split
    · split <;> omega
    · omega
  · rw [refund]
    split
    · simp only
      split <;> omega
    · omega

/-- The reservation less the refund is right exactly if the pipeline settles as generated. -/
theorem reserved_sub_refund_iff (pipeline : Pipeline) (hreserved : 0 < reserved) :
    reserved - pipeline.refund reserved kept filter = min pipeline.runtimeTokens reserved ↔
      pipeline.SettlesAsGenerated reserved kept filter := by
  rcases pipeline with runtime | ⟨runtime, patience⟩
  · rw [refund, SettlesAsGenerated, runtimeTokens]
    split
    · split <;> omega
    · omega
  · rw [refund, SettlesAsGenerated, runtimeTokens]
    split
    · next stream hstream =>
      simp only [usage_relayStream]
      split
      · rcases lastReport (chunksRead patience (.new filter) 0 stream) with - | usage
        · -- nothing was reported, so everything is refunded
          simp only [Option.getD_none, TokenUsage.zero]
          omega
        · simp only [Option.getD_some]
          omega
      · omega
    · omega

end Pipeline

namespace Gateway

variable {T : TextEngine} {g : Gateway T} {H : HostText} {S : ScoreEngine} {call : InferenceCall}
  {o : Occasion T} {lease : InferenceLease} {policy : ClientPolicy} {pipeline : Pipeline}

/-- **What the exits make of the reservation**: each gives back its refund. -/
theorem netCharge_serve (hpermitted : pipeline.Permitted g.timing)
    (h : (g.acceptRequest H call o).2 = .ok (policy, lease)) (hroom : g.HasRoom H call o pipeline) :
    (g.serve H S call o pipeline).netCharge o.requestId =
      (g.acceptRequest H call o).1.netCharge o.requestId -
        (pipeline.refund call.params.maxTokens (g.KeepsBucket H call o pipeline)
          (g.outputFilter policy) : ℕ) := by
  have hfound := fun bucket ↦ hroom policy lease bucket h
  rcases pipeline with runtime | ⟨runtime, patience⟩
  · rw [serve, Pipeline.refund]
    rcases processInference_cases (S := S) runtime h with ⟨e, hrun, hafter⟩ | ⟨raw, hrun, hafter⟩
    · rw [hafter, sameCharges_dropLease.netCharge_eq, o.meanwhile.netCharge_act]
      split
      · next raw hraw =>
        rw [RuntimeReply.run_eq_ok_iff.2 hraw] at hrun
        simp at hrun
      · rw [Nat.cast_zero, sub_zero]
    · rw [hafter, sameCharges_dropLease.netCharge_eq, netCharge_concludeInference,
        netCharge_settle (g := o.meanwhile.act (g.acceptRequest H call o).1) hfound,
        o.meanwhile.netCharge_act, RuntimeReply.run_eq_ok_iff.1 hrun]
      have hkept : ((o.meanwhile.act (g.acceptRequest H call o).1).bucketOf
          call.client.clientId).isSome = g.KeepsBucket H call o (.unary runtime) := rfl
      rw [hkept]
      rcases g.KeepsBucket H call o (.unary runtime)
      · simp
      · simp
  · rw [serve, Pipeline.refund]
    rcases inferenceStream_cases (S := S) runtime patience hpermitted h with
      ⟨e, hrun, hafter⟩ | ⟨stream, p, exit, hrun, hrelay, hexit⟩
    · rw [hafter, sameCharges_dropLease.netCharge_eq, o.meanwhile.netCharge_act]
      split
      · next stream hstream =>
        rw [RuntimeReply.run_eq_ok_iff.2 hstream] at hrun
        simp at hrun
      · rw [Nat.cast_zero, sub_zero]
    · rw [outputFilter_acceptRequest] at hrelay
      rw [RuntimeReply.run_eq_ok_iff.1 hrun]
      simp only [hrelay]
      rcases hexit with ⟨rfl, hafter⟩ | ⟨hexit, released, finishReason, rulesMatched, hafter⟩
      · -- abandoned: the reservation stands
        rw [hafter, sameCharges_dropLease.netCharge_eq, o.whileHeld.netCharge_act,
          o.meanwhile.netCharge_act, if_neg fun hkept ↦ hkept.2 rfl, Nat.cast_zero, sub_zero]
      · rw [hafter, sameCharges_dropLease.netCharge_eq,
          sameCharges_finishStreamingInference.netCharge_eq,
          netCharge_settle (g := o.whileHeld.act (o.meanwhile.act (g.acceptRequest H call o).1))
            hfound, o.whileHeld.netCharge_act, o.meanwhile.netCharge_act]
        have hkept : ((o.whileHeld.act (o.meanwhile.act (g.acceptRequest H call o).1)).bucketOf
            call.client.clientId).isSome =
              g.KeepsBucket H call o (.streaming runtime patience) := rfl
        rw [hkept]
        rcases g.KeepsBucket H call o (.streaming runtime patience)
        · simp
        · simp [hexit]

/-! ### The level of the bucket -/

/-- A client's bucket, with the charge of a request put back, stands at a level. -/
def StandsAt (g : Gateway T) (clientId : String) (requestId : Uuid) (level : ℚ) : Prop :=
  ∃ bucket, g.bucketOf clientId = some bucket ∧
    bucket.outputTokens + g.netCharge requestId = level

section StandsAt

variable {clientId : String} {requestId : Uuid} {level : ℚ}

theorem StandsAt.of_sameCharges {g g' : Gateway T} (h : g.StandsAt clientId requestId level)
    (hsame : SameCharges g g') : g'.StandsAt clientId requestId level := by
  obtain ⟨bucket, hbucket, hlevel⟩ := h
  exact ⟨bucket, hsame.bucketOf_eq.trans hbucket, hsame.netCharge_eq.symm ▸ hlevel⟩

theorem StandsAt.act (h : g.StandsAt clientId requestId level) {others : Others T requestId}
    (hleaves : others.LeavesBucket clientId) :
    (others.act g).StandsAt clientId requestId level := by
  obtain ⟨bucket, hbucket, hlevel⟩ := h
  exact ⟨bucket, (hleaves g).trans hbucket, (others.netCharge_act g).symm ▸ hlevel⟩

/-- What a settlement notes is what the bucket gets, whatever the ceiling makes of it. -/
theorem StandsAt.settle (h : g.StandsAt clientId requestId level) (reserved actual : ℕ) :
    (g.settle requestId clientId reserved actual).StandsAt clientId requestId level := by
  obtain ⟨bucket, hbucket, hlevel⟩ := h
  have hfound : g.node.rateLimiter.buckets.lookup clientId = some bucket := hbucket
  have hafter : (g.node.rateLimiter.settle clientId reserved actual).buckets.lookup clientId =
      some (bucket.settle reserved actual) := by
    rw [RateLimiter.settle, AList.lookup_update_self, hfound]
    rfl
  refine ⟨bucket.settle reserved actual, hafter, ?_⟩
  rw [← hlevel]
  simp only [netCharge, Gateway.settle, RateLimiter.outputTokens, hafter, hfound,
    List.filter_append, List.map_append, List.sum_append]
  simp
  ring

end StandsAt

/-- A check leaves the bucket at the refilled level, with room for the reservation. -/
theorem standsAt_acceptRequest (h : (g.admitCall H call o).2 = .ok policy) :
    (g.acceptRequest H call o).1.StandsAt call.client.clientId o.requestId
      ((g.node.rateLimiter.refilled o.clock.limiter call.client.clientId policy).outputTokens +
        g.netCharge o.requestId) := by
  obtain ⟨bucket, hbucket, htokens, -⟩ := RateLimiter.lookup_check (of_admitCall h).1
  refine ⟨bucket, sameCharges_acceptRequest.bucketOf_eq.trans hbucket, ?_⟩
  rw [netCharge_acceptRequest h, htokens]
  ring

/-- **The charge is on the bucket**: if the others leave the client's bucket alone, its level and
the charge of the request make up the level it started from. -/
theorem standsAt_serve {level : ℚ} (hpermitted : pipeline.Permitted g.timing)
    (hmeanwhile : o.meanwhile.LeavesBucket call.client.clientId)
    (hheld : o.whileHeld.LeavesBucket call.client.clientId)
    (h : (g.acceptRequest H call o).2 = .ok (policy, lease))
    (hlevel : (g.acceptRequest H call o).1.StandsAt call.client.clientId o.requestId level) :
    (g.serve H S call o pipeline).StandsAt call.client.clientId o.requestId level := by
  have hworked := hlevel.act hmeanwhile
  rcases pipeline with runtime | ⟨runtime, patience⟩
  · rw [serve]
    rcases processInference_cases (S := S) runtime h with ⟨e, -, hafter⟩ | ⟨raw, -, hafter⟩
    · rw [hafter]
      exact hworked.of_sameCharges sameCharges_dropLease
    · rw [hafter]
      refine StandsAt.of_sameCharges ?_ sameCharges_dropLease
      exact concludeInference_keeps
        (P := fun g ↦ g.StandsAt call.client.clientId o.requestId level)
        (fun _ _ hsame h ↦ h.of_sameCharges hsame) (fun _ h ↦ h.act hheld) (hworked.settle _ _)
  · rw [serve]
    rcases inferenceStream_cases (S := S) runtime patience hpermitted h with
      ⟨e, -, hafter⟩ | ⟨stream, p, exit, -, -, ⟨-, hafter⟩ | ⟨-, _, _, _, hafter⟩⟩
    · rw [hafter]
      exact hworked.of_sameCharges sameCharges_dropLease
    · rw [hafter]
      exact (hworked.act hheld).of_sameCharges sameCharges_dropLease
    · rw [hafter]
      exact (((hworked.act hheld).settle _ _).of_sameCharges
        sameCharges_finishStreamingInference).of_sameCharges sameCharges_dropLease

/-- The bucket at the settlement, if the others leave it alone, is the one that the check left. -/
theorem bucketOf_atSettlement (pipeline : Pipeline)
    (hadmitted : (g.admitCall H call o).2 = .ok policy)
    (hmeanwhile : o.meanwhile.LeavesBucket call.client.clientId)
    (hheld : o.whileHeld.LeavesBucket call.client.clientId) :
    ∃ bucket, bucket.HasRoomFor call.params.maxTokens ∧
      ((g.acceptRequest H call o).1.atSettlement o pipeline).bucketOf call.client.clientId =
        some bucket := by
  obtain ⟨bucket, hbucket, -, -, hroom⟩ := RateLimiter.lookup_check (of_admitCall hadmitted).1
  have haccepted : (g.acceptRequest H call o).1.bucketOf call.client.clientId = some bucket :=
    sameCharges_acceptRequest.bucketOf_eq.trans hbucket
  refine ⟨bucket, hroom, ?_⟩
  rcases pipeline with runtime | ⟨runtime, patience⟩
  · exact (hmeanwhile _).trans haccepted
  · exact (hheld _).trans ((hmeanwhile _).trans haccepted)

/-- A request that is refused after its admission ends there. -/
theorem serve_of_refused {e : CordonError}
    (hpermitted : pipeline.Permitted g.timing) (h : (g.acceptRequest H call o).2 = .error e) :
    g.serve H S call o pipeline = (g.acceptRequest H call o).1 := by
  rcases haccept : g.acceptRequest H call o with ⟨accepted, result⟩
  obtain rfl : result = .error e := by simpa [haccept] using h
  rcases pipeline with runtime | ⟨runtime, patience⟩
  · rw [serve, processInference, haccept]
  · have htiming : g.timing.isActive = false := hpermitted
    rw [serve, inferenceStream, beginStreamingInference, htiming, if_neg (by decide), haccept]

/-- The policy of an accepted request is that of its admission. -/
theorem policy_eq_of_acceptRequest {policy' : ClientPolicy}
    (hadmitted : (g.admitCall H call o).2 = .ok policy)
    (h : (g.acceptRequest H call o).2 = .ok (policy', lease)) : policy' = policy := by
  rw [acceptRequest] at h
  rcases hcall : g.admitCall H call o with ⟨admitted, result⟩
  obtain rfl : result = .ok policy := by simpa [hcall] using hadmitted
  simp only [hcall] at h
  split at h
  · simp at h
  · rcases hwrite : o.intakeWrite with e | ⟨⟩
    · simp [hwrite, append] at h
    · simp only [hwrite, append, Except.ok.injEq, Prod.mk.injEq] at h
      exact h.1.symm

/-- The charge of an admitted request, in terms of what its exit makes of the reservation. -/
theorem netCharge_serve_iff (hpermitted : pipeline.Permitted g.timing)
    (hadmitted : (g.admitCall H call o).2 = .ok policy) (hroom : g.HasRoom H call o pipeline) :
    (g.serve H S call o pipeline).netCharge o.requestId - g.netCharge o.requestId =
        (min (pipeline.generated (g.acceptRequest H call o).2) call.params.maxTokens : ℕ) ↔
      (∃ lease, (g.acceptRequest H call o).2 = .ok (policy, lease)) ∧
        pipeline.SettlesAsGenerated call.params.maxTokens (g.KeepsBucket H call o pipeline)
          (g.outputFilter policy) := by
  have hreserved := maxTokens_pos hadmitted
  have hbase := netCharge_acceptRequest hadmitted
  rcases haccept : (g.acceptRequest H call o).2 with e | ⟨policy', lease⟩
  · -- the reservation is kept although the runtime was never asked
    refine iff_of_false ?_ fun h ↦ by simpa using h.1
    rw [serve_of_refused hpermitted haccept, hbase, add_sub_cancel_left, Nat.cast_inj]
    show _ ≠ min 0 call.params.maxTokens
    omega
  · obtain rfl := policy_eq_of_acceptRequest hadmitted haccept
    rw [netCharge_serve hpermitted haccept hroom, hbase,
      ← Pipeline.reserved_sub_refund_iff pipeline hreserved, Pipeline.generated]
    have hrefund := pipeline.refund_le call.params.maxTokens (g.KeepsBucket H call o pipeline)
      (g.outputFilter policy')
    rw [add_sub_assoc, add_sub_cancel_left, ← Nat.cast_sub hrefund, Nat.cast_inj]
    exact ⟨fun h ↦ ⟨⟨lease, rfl⟩, h⟩, And.right⟩

end Gateway

/-- **When the charge is what was generated.** What an admitted request takes from its client's
bucket, in the end and net of refunds, refills and the ceiling set aside, is the number of
completion tokens that the runtime generated for it, up to the reservation, **exactly if** it gets
its lease and its intake record and then: the runtime answers, the bucket is still there, and the
report of the usage is right as far as the reservation goes; or the runtime fails, is late, refuses
the stream or loses the client, or the bucket is gone, after the whole reservation has been
generated; or the stream stops before a report has arrived, and nothing was generated.

If the others leave the client's bucket alone, the ceiling is never in the way, the bucket is there,
and its level in the end is short of the refilled one by the charge. -/
theorem charged_as_generated_iff {T : TextEngine} (H : HostText) (S : ScoreEngine) (g : Gateway T)
    (call : InferenceCall) (o : Occasion T) (pipeline : Pipeline) (policy : ClientPolicy)
    (hpermitted : pipeline.Permitted g.timing)
    (hadmitted : (g.admitCall H call o).2 = .ok policy) :
    (g.HasRoom H call o pipeline →
      ((g.serve H S call o pipeline).netCharge o.requestId - g.netCharge o.requestId =
          (min (pipeline.generated (g.acceptRequest H call o).2) call.params.maxTokens : ℕ) ↔
        (∃ lease, (g.acceptRequest H call o).2 = .ok (policy, lease)) ∧
          pipeline.SettlesAsGenerated call.params.maxTokens (g.KeepsBucket H call o pipeline)
            (g.outputFilter policy))) ∧
    (o.meanwhile.LeavesBucket call.client.clientId → o.whileHeld.LeavesBucket call.client.clientId →
      g.HasRoom H call o pipeline ∧ g.KeepsBucket H call o pipeline = true ∧
      ∃ bucket, (g.serve H S call o pipeline).bucketOf call.client.clientId = some bucket ∧
        (g.node.rateLimiter.refilled o.clock.limiter call.client.clientId policy).outputTokens -
            bucket.outputTokens =
          (g.serve H S call o pipeline).netCharge o.requestId - g.netCharge o.requestId) := by
  refine ⟨Gateway.netCharge_serve_iff hpermitted hadmitted, fun hmeanwhile hheld ↦ ?_⟩
  obtain ⟨found, hroom, hfound⟩ :=
    Gateway.bucketOf_atSettlement pipeline hadmitted hmeanwhile hheld
  refine ⟨fun _ _ bucket _ hbucket ↦ ?_, ?_, ?_⟩
  · rw [hfound] at hbucket
    exact Option.some.inj hbucket ▸ hroom
  · rw [Gateway.KeepsBucket, hfound]
    rfl
  · have hstart := Gateway.standsAt_acceptRequest hadmitted
    have hserved : (g.serve H S call o pipeline).StandsAt call.client.clientId o.requestId
        ((g.node.rateLimiter.refilled o.clock.limiter call.client.clientId policy).outputTokens +
          g.netCharge o.requestId) := by
      rcases haccept : (g.acceptRequest H call o).2 with e | ⟨policy', lease⟩
      · rw [Gateway.serve_of_refused hpermitted haccept]
        exact hstart
      · exact Gateway.standsAt_serve hpermitted hmeanwhile hheld haccept hstart
    obtain ⟨bucket, hbucket, hlevel⟩ := hserved
    exact ⟨bucket, hbucket, by linarith⟩

theorem SampleRequest.alone_leavesBucket (requestId : Uuid) (clientId : String) :
    (SampleRequest.alone requestId).LeavesBucket clientId :=
  fun _ ↦ rfl

/-- A request that is answered is charged with the two tokens of its answer, and its client's bucket
shows it. -/
theorem charged_as_generated_iff_sample :
    (SampleRequest.gateway.serve asciiHost SampleRequest.scores SampleRequest.call
        SampleRequest.occasion (.unary SampleRequest.answering)).netCharge ⟨1⟩ -
      SampleRequest.gateway.netCharge ⟨1⟩ = 2 ∧
    ∃ bucket, (SampleRequest.gateway.serve asciiHost SampleRequest.scores SampleRequest.call
        SampleRequest.occasion (.unary SampleRequest.answering)).bucketOf "alice" = some bucket ∧
      (SampleRequest.gateway.node.rateLimiter.refilled SampleRequest.occasion.clock.limiter "alice"
        (.defaultFor "alice")).outputTokens - bucket.outputTokens = 2 := by
  obtain ⟨hiff, hbucket⟩ := charged_as_generated_iff asciiHost SampleRequest.scores
    SampleRequest.gateway SampleRequest.call SampleRequest.occasion
    (.unary SampleRequest.answering) (.defaultFor "alice") trivial SampleRequest.admitted
  obtain ⟨hroom, hkept, bucket, hfound, hlevel⟩ := hbucket
    (SampleRequest.alone_leavesBucket _ _) (SampleRequest.alone_leavesBucket _ _)
  have hcharged := (hiff hroom).2 ⟨⟨_, SampleRequest.accepted⟩, by rw [hkept]; rfl⟩
  rw [SampleRequest.accepted] at hcharged
  exact ⟨hcharged, bucket, hfound, hlevel.trans hcharged⟩

/-- **A request that times out is charged with its whole reservation**, although nothing was
generated for it and no other request is made. -/
theorem late_request_is_charged :
    ¬∀ (g : Gateway asciiEngine) (call : InferenceCall) (o : Occasion asciiEngine)
      (pipeline : Pipeline) (policy : ClientPolicy), pipeline.Permitted g.timing →
      (g.admitCall asciiHost call o).2 = .ok policy →
      o.meanwhile.LeavesBucket call.client.clientId →
      o.whileHeld.LeavesBucket call.client.clientId →
      (g.serve asciiHost SampleRequest.scores call o pipeline).netCharge o.requestId -
          g.netCharge o.requestId =
        (min (pipeline.generated (g.acceptRequest asciiHost call o).2)
          call.params.maxTokens : ℕ) := by
  intro hall
  have hpermitted : (Pipeline.unary SampleRequest.late).Permitted SampleRequest.gateway.timing :=
    trivial
  have hcharged := hall SampleRequest.gateway SampleRequest.call SampleRequest.occasion _ _
    hpermitted SampleRequest.admitted (SampleRequest.alone_leavesBucket _ _)
    (SampleRequest.alone_leavesBucket _ _)
  obtain ⟨bucket, hroom, hfound⟩ := Gateway.bucketOf_atSettlement (.unary SampleRequest.late)
    SampleRequest.admitted (SampleRequest.alone_leavesBucket _ _)
    (SampleRequest.alone_leavesBucket _ _)
  have hused : SampleRequest.call.params.maxTokens ≤ 0 :=
    ((Gateway.netCharge_serve_iff hpermitted SampleRequest.admitted
      fun _ _ _ _ hbucket ↦ Option.some.inj (hfound.symm.trans hbucket) ▸ hroom).1 hcharged).2
  exact absurd hused (by decide)

/-! ### Buckets that are removed meanwhile -/

namespace Gateway

variable {T : TextEngine} {g : Gateway T} {H : HostText} {call : InferenceCall} {o : Occasion T}
  {policy : ClientPolicy} {runtime : RuntimeReply RawInferenceOutput}

/-- The client is suspended while the runtime works: its bucket goes. -/
def suspending (T : TextEngine) (requestId : Uuid) (clientId : String) : Others T requestId where
  act g := { g with
    node := { g.node with rateLimiter := g.node.rateLimiter.removeClient clientId } }
  recordsOf_act _ := rfl
  netCharge_act _ := rfl

/-- Stale buckets are dropped while the runtime works. -/
def pruning (T : TextEngine) (requestId : Uuid) (now : ℤ) : Others T requestId where
  act g := { g with
    node := { g.node with rateLimiter := g.node.rateLimiter.pruneStaleBuckets now 3600 } }
  recordsOf_act _ := rfl
  netCharge_act _ := rfl

/-- **A client that is suspended meanwhile has no bucket to settle with.** -/
theorem not_keepsBucket_of_suspending
    (hmeanwhile : o.meanwhile = suspending T o.requestId call.client.clientId) :
    g.KeepsBucket H call o (.unary runtime) = false := by
  have hgone : ((suspending T o.requestId call.client.clientId).act
      (g.acceptRequest H call o).1).bucketOf call.client.clientId = none :=
    RateLimiter.lookup_removeClient
  rw [KeepsBucket, atSettlement, hmeanwhile, hgone]
  rfl

/-- **The hourly pruning spares the bucket of a request that was admitted within the hour.** -/
theorem keepsBucket_iff_of_pruning {now : ℤ} (hadmitted : (g.admitCall H call o).2 = .ok policy)
    (hmeanwhile : o.meanwhile = pruning T o.requestId now) :
    g.KeepsBucket H call o (.unary runtime) = true ↔
      now - o.clock.limiter < 3600 * 1000000000 := by
  obtain ⟨bucket, hbucket, -, hrefilled, -⟩ := RateLimiter.lookup_check (of_admitCall hadmitted).1
  have haccepted : (g.acceptRequest H call o).1.bucketOf call.client.clientId = some bucket :=
    sameCharges_acceptRequest.bucketOf_eq.trans hbucket
  have hpruned : ((pruning T o.requestId now).act (g.acceptRequest H call o).1).bucketOf
      call.client.clientId = (some bucket).filter fun bucket ↦
        now - 3600 * 1000000000 < bucket.lastRefill := by
    rw [← haccepted]
    exact RateLimiter.lookup_pruneStaleBuckets
  rw [KeepsBucket, atSettlement, hmeanwhile, hpruned, Option.isSome_filter]
  simp only [Option.any_some, decide_eq_true_eq, hrefilled]
  omega

end Gateway

end Cordon
