import Cordon.Core.AttestationService
import Cordon.Core.Sessions
import Cordon.Core.StreamingFilter

/-!
# The two request pipelines

`processInference` answers a request in one piece; `beginStreamingInference`, the loop of
`inferenceStream` and `finishStreamingInference` answer it as a stream. Both begin in the same way
(`acceptRequest`): admission, which reserves output tokens; a lease on a concurrency slot and a
session; and **the intake record, before any work is done**. What follows has many exits, and on
each of them something may or may not be recorded and refunded.

A `Gateway` is the part of a node that requests share. What a request meets from outside stands in
an `Occasion`: the clocks it reads, whether the log can be written, and **what the other requests do
meanwhile** (`Others`), which is anything that does not speak of this request. The runtime is what
it answers, and how many tokens it generated, which no one else knows.

The ledger is the model's own. Whenever the limiter is called for a request, it notes by how much
the client's bucket of output tokens **is seen to go down**, so that the net charge of a request is
what happened to the bucket, and not what the limiter was asked for. The log is the list of the
events appended to it; metrics, latency averages and the warnings about repeated prompts are left
out.
-/

namespace Cordon

/-! ### What a runtime answers -/

/-- Why generation stopped. -/
inductive FinishReason
  | stop
  | length
  | contentFilter
  | timeout
  | error
  deriving DecidableEq, Repr

/-- `audit_finish_reason`. -/
def auditFinishReason : FinishReason → Audit.FinishReason
  | .stop => .stop
  | .length => .length
  | .contentFilter => .contentFilter
  | .timeout => .timeout
  | .error => .error

/-- Token accounting for one generation. -/
structure TokenUsage where
  promptTokens : ℕ
  completionTokens : ℕ
  deriving DecidableEq, Repr

/-- The accounting of a generation that has reported nothing. -/
def TokenUsage.zero : TokenUsage := ⟨0, 0⟩

/-- Raw runtime output, before the output filter runs. -/
structure RawInferenceOutput where
  text : List Char
  usage : TokenUsage
  finishReason : FinishReason
  deriving DecidableEq, Repr

/-- One increment of a streaming generation. -/
inductive StreamChunk
  | delta (text : List Char)
  /-- Terminal event carrying final accounting. -/
  | done (finishReason : FinishReason) (usage : TokenUsage)
  deriving DecidableEq, Repr

/-- A backend's streaming output, up to its end. -/
abbrev TokenStream : Type :=
  List (Except CordonError StreamChunk)

/-- What a call of the runtime comes to, and how many completion tokens it generated by then. -/
structure RuntimeReply (α : Type) where
  /-- The answer, unless the deadline passes first. -/
  inTime : Option (Except CordonError α)
  generated : ℕ

/-- `InferenceEngine::run` and `InferenceEngine::run_stream`: the answer within the deadline. -/
def RuntimeReply.run {α : Type} (reply : RuntimeReply α) (timeoutSeconds : ℕ) :
    Except CordonError α :=
  match reply.inTime with
  | some result => result
  | none => .error (.timeout timeoutSeconds)

/-! ### Timing normalization -/

/-- `TimingMode`. -/
inductive TimingMode
  | none
  | fixedFloor
  | bucket
  deriving DecidableEq, Repr

/-- `TimingNormalizer`: its configuration. -/
structure TimingNormalizer where
  enabled : Bool
  mode : TimingMode
  bucketSize : ℕ
  fixedFloorMs : ℕ
  deriving DecidableEq, Repr

/-- Whether timing normalization is active. -/
def TimingNormalizer.isActive (timing : TimingNormalizer) : Bool :=
  timing.enabled && timing.mode ≠ .none

/-- The configured bucket size, for reporting. -/
def TimingNormalizer.bucketMs (timing : TimingNormalizer) : Option ℕ :=
  if !timing.enabled then none
  else
    match timing.mode with
    | .bucket => some timing.bucketSize
    | .fixedFloor => some timing.fixedFloorMs
    | .none => none

/-! ### Covert channels -/

/-- What the pipelines read of a covert channel analysis. -/
structure CovertChannelAnalysis where
  anomalyScore : F32
  detected : Bool
  deriving DecidableEq, Repr

/-- The parts of covert channel detection that compute with floating point. -/
structure ScoreEngine where
  /-- `CovertChannelDetector::analyze`. -/
  analyze : List Char → CovertChannelAnalysis
  /-- The score is below the configured threshold. -/
  isBelowThreshold : F32 → Bool
  /-- The larger of two scores. -/
  maxScore : F32 → F32 → F32
  /-- Why a client is suspended, from its highest score and the number of events. -/
  suspension : F32 → ℕ → String

/-- The score of a response that was not analysed. -/
def F32.zero : F32 := ⟨0⟩

/-- Events in a sliding window, oldest first. -/
structure WindowCounter where
  events : List ℤ
  /-- Events dropped because the counter was at capacity. -/
  saturatedBy : ℕ
  windowSeconds : ℤ
  deriving DecidableEq, Repr

namespace WindowCounter

/-- `MAX_EVENTS_PER_COUNTER`. -/
def maxEvents : ℕ := 512

/-- A counter without events. -/
def new (windowSeconds : ℤ) : WindowCounter :=
  ⟨[], 0, windowSeconds⟩

/-- Drop events that have fallen out of the window. They are a prefix, as events are in order. -/
def prune (counter : WindowCounter) (now : ℤ) : WindowCounter :=
  let live := counter.events.dropWhile fun t ↦ decide (t ≤ now - counter.windowSeconds * 1000000000)
  if live.length = counter.events.length then counter
  else
    { counter with events := live, saturatedBy := if live.isEmpty then 0 else counter.saturatedBy }

/-- The number of events, with those that were dropped at capacity. -/
def total (counter : WindowCounter) : ℕ :=
  min (counter.events.length + counter.saturatedBy) (2 ^ 32 - 1)

/-- Count one more event. -/
def increment (counter : WindowCounter) (now : ℤ) : WindowCounter :=
  let counter := counter.prune now
  if maxEvents ≤ counter.events.length then
    { counter with saturatedBy := min (counter.saturatedBy + 1) (2 ^ 32 - 1) }
  else { counter with events := counter.events ++ [now] }

end WindowCounter

/-! ### What requests share -/

/-- The part of a node that requests share. -/
structure Gateway (T : TextEngine) where
  node : CordonNode
  engine : InferenceEngine
  timing : TimingNormalizer
  /-- `OutputFilters::for_client`. -/
  outputFilter : ClientPolicy → OutputFilter T
  /-- Covert channel detections of each client, with the highest score. -/
  covertChannelEvents : StringMap (WindowCounter × F32)
  /-- The events in the audit log. -/
  audit : List AuditEvent
  /-- For which request the limiter was called, and by how much the bucket of its client went down:
  a refund is negative. -/
  ledger : List (Uuid × ℚ)

variable {T : TextEngine}

/-- Whether an event is an inference record of a request. -/
def AuditEvent.isInferenceOf (requestId : Uuid) : AuditEvent → Bool
  | .inference e => e.requestId = requestId
  | _ => false

/-- How many inference records of a request are in the log. -/
def Gateway.recordsOf (g : Gateway T) (requestId : Uuid) : ℕ :=
  g.audit.countP (AuditEvent.isInferenceOf requestId)

/-- The net amount charged for a request: what its calls of the limiter took from the bucket. -/
def Gateway.netCharge (g : Gateway T) (requestId : Uuid) : ℚ :=
  ((g.ledger.filter fun entry ↦ entry.1 = requestId).map Prod.snd).sum

/-- The bucket of a client. -/
def Gateway.bucketOf (g : Gateway T) (clientId : String) : Option ClientBucket :=
  g.node.rateLimiter.buckets.lookup clientId

/-- What the other requests do meanwhile. Each has its own identifier, so none of them writes a
record of this one, or has the limiter called for it. -/
structure Others (T : TextEngine) (requestId : Uuid) where
  act : Gateway T → Gateway T
  recordsOf_act : ∀ g, (act g).recordsOf requestId = g.recordsOf requestId
  netCharge_act : ∀ g, (act g).netCharge requestId = g.netCharge requestId

/-- A request. -/
structure InferenceCall where
  client : ClientIdentity
  modelId : String
  messages : List Message
  params : InferenceParams
  sessionId : Option Uuid
  timeoutSeconds : ℕ

/-- What a request meets on its way. -/
structure Occasion (T : TextEngine) where
  /-- A fresh identifier. -/
  requestId : Uuid
  clock : AdmitClock
  leasedAt : ℤ
  /-- The identifier of a session that is made for the request. -/
  freshSession : Uuid
  /-- What the first write to the log returns, with the displayed error. -/
  intakeWrite : Except String Unit
  /-- What the later writes return. -/
  laterWrite : Except String Unit
  /-- The enclave measurement at the intake, and at the end. -/
  mrenclave : String
  mrenclaveAtEnd : String
  /-- While the runtime works. -/
  meanwhile : Others T requestId
  /-- When the response is scored. -/
  scoredAt : ℤ
  /-- While the response is held until its time. -/
  whileHeld : Others T requestId
  latencyMs : ℕ

namespace Gateway

variable (g : Gateway T) (H : HostText) (S : ScoreEngine) (call : InferenceCall) (o : Occasion T)

/-- Append an event to the audit log. -/
def append (write : Except String Unit) (event : AuditEvent) : Gateway T × Except String Unit :=
  match write with
  | .ok () => ({ g with audit := g.audit ++ [event] }, .ok ())
  | .error e => (g, .error e)

/-- Settle a request's reservation, and note what that takes from the bucket. -/
def settle (requestId : Uuid) (clientId : String) (reserved actual : ℕ) : Gateway T :=
  let rateLimiter := g.node.rateLimiter.settle clientId reserved actual
  let taken := g.node.rateLimiter.outputTokens clientId - rateLimiter.outputTokens clientId
  { g with
    node := { g.node with rateLimiter }
    ledger := g.ledger ++ [(requestId, taken)] }

/-- Dropping a lease: an ephemeral session ends with it, and the slot is free again. -/
def dropLease (lease : InferenceLease) : Gateway T :=
  { g with
    engine := { g.engine with
      kvCache :=
        if lease.endOnDrop then g.engine.kvCache.endSession lease.sessionId else g.engine.kvCache
      slots := g.engine.slots + 1 } }

/-- `record_covert_channel_score`: count a detection, and suspend the client at the third one within
an hour. The clock is read several times under one lock; the readings are taken as one. -/
def recordCovertChannelScore (now : ℤ) (clientId : String) (score : F32) : Gateway T × Bool :=
  if S.isBelowThreshold score then (g, false)
  else
    let (counter, highest) :=
      (g.covertChannelEvents.lookup clientId).getD (.new 3600, F32.zero)
    let counter := (counter.increment now).prune now
    let highest := S.maxScore highest score
    let g := { g with
      covertChannelEvents := g.covertChannelEvents.insert clientId (counter, highest) }
    if 3 ≤ counter.total then
      let expiry := now + 3600 * 1000000000
      let detector := { g.node.attackDetector with
        suspendedClients := g.node.attackDetector.suspendedClients.insert clientId
          (expiry, S.suspension highest counter.total) }
      ({ g with node := { g.node with attackDetector := detector } }, true)
    else (g, false)

/-- The analysis of a response that is released: a detection is counted, and may suspend the
client. -/
def scoreText (now : ℤ) (clientId : String) (text : List Char) : Gateway T × Bool :=
  let covert := S.analyze text
  if covert.detected then g.recordCovertChannelScore S now clientId covert.anomalyScore
  else (g, false)

/-- `record_security_alert`, for a client that was suspended. -/
def recordSuspension (write : Except String Unit) (clientId : String) : Gateway T :=
  let summary := "client " ++ clientId ++ " suspended after repeated covert-channel detections"
  (g.append write (.securityAlert
    { alertType := .covertChannelSuspected
      severity := .high
      detailHash := Sha256.digestHex (Text.asBytes summary)
      summary
      automaticAction := .suspendClient
      enclaveStateAfter :=
        match g.node.state.status with
        | .quarantine => .quarantine
        | .locked => .locked
        | .zeroized => .zeroized
        | _ => .operational
      sourceIdentifier := some clientId })).1

/-! ### The beginning of every request -/

/-- `CordonNode::admit`, with a note of what it takes from the bucket once that is refilled. -/
def admitCall : Gateway T × Except CordonError ClientPolicy :=
  match g.node.admitRequest H o.clock call.client call.modelId call.messages call.params with
  | (node, .error e) => ({ g with node }, .error e)
  | (node, .ok policy) =>
    let before := g.node.rateLimiter.refilled o.clock.limiter call.client.clientId policy
    let taken := before.outputTokens - node.rateLimiter.outputTokens call.client.clientId
    ({ g with node, ledger := g.ledger ++ [(o.requestId, taken)] }, .ok policy)

/-- `hash_messages`. -/
def hashMessages (messages : List Message) : String :=
  Sha256.digestHex (messages.flatMap fun m ↦
    Bytes.leBytes 8 (Text.asBytes m.role).length ++ Text.asBytes m.role ++
      Bytes.leBytes 8 (Text.asBytes m.content).length ++ Text.asBytes m.content)

/-- The record that is written before any work is done. -/
def intakeEvent (sessionId : Uuid) : AuditEvent :=
  .inference
    { requestId := o.requestId
      clientId := call.client.clientId
      sessionId := some sessionId
      modelId := call.modelId
      mrenclave := o.mrenclave
      inputHash := hashMessages call.messages
      outputHash := ""
      promptTokens := 0
      completionTokens := 0
      latencyMs := 0
      finishReason := .stop
      contentPolicyTriggered := false
      policyRulesMatched := []
      covertChannelScore := F32.zero
      timingBucketMs := g.timing.bucketMs }

/-- What both pipelines do first: admission, the lease, and the intake record. A failed write
rejects the request, and the lease goes with it. -/
def acceptRequest : Gateway T × Except CordonError (ClientPolicy × InferenceLease) :=
  match g.admitCall H call o with
  | (g, .error e) => (g, .error e)
  | (g, .ok policy) =>
    match g.engine.admitRequest o.leasedAt o.freshSession call.client.clientId call.sessionId with
    -- from here on a refusal keeps the reservation
    | (engine, .error e) => ({ g with engine }, .error e)
    | (engine, .ok lease) =>
      let g := { g with engine }
      match g.append o.intakeWrite (g.intakeEvent call o lease.sessionId) with
      | (g, .error e) => (g.dropLease lease, .error (.auditWriteFailed e))
      | (g, .ok ()) => (g, .ok (policy, lease))

/-! ### The unary pipeline -/

/-- `InferenceOutcome`: what the caller is answered. -/
structure InferenceOutcome where
  requestId : Uuid
  sessionId : Uuid
  modelId : String
  clientId : String
  output : List Char
  usage : TokenUsage
  finishReason : FinishReason
  latencyMs : ℕ
  timingBucketMs : Option ℕ
  contentPolicyTriggered : Bool
  policyRulesMatched : List String
  covertChannelScore : F32
  outputHash : String
  mrenclave : String

/-- The identifiers of the rules that fired. -/
def ruleIds (result : FilterResult) : List String :=
  result.policyMatches.map PolicyMatch.ruleId

/-- The record of a response that the content policy refused. -/
def blockedEvent (sessionId : Uuid) (raw : RawInferenceOutput) (filtered : FilterResult) :
    AuditEvent :=
  .inference
    { requestId := o.requestId
      clientId := call.client.clientId
      sessionId := some sessionId
      modelId := call.modelId
      mrenclave := o.mrenclaveAtEnd
      inputHash := hashMessages call.messages
      outputHash := ""
      promptTokens := raw.usage.promptTokens
      completionTokens := raw.usage.completionTokens
      latencyMs := o.latencyMs
      finishReason := .contentFilter
      contentPolicyTriggered := true
      policyRulesMatched := ruleIds filtered
      covertChannelScore := F32.zero
      timingBucketMs := g.timing.bucketMs }

/-- The record of a response that is answered. -/
def completionEvent (sessionId : Uuid) (raw : RawInferenceOutput) (filtered : FilterResult)
    (score : F32) : AuditEvent :=
  .inference
    { requestId := o.requestId
      clientId := call.client.clientId
      sessionId := some sessionId
      modelId := call.modelId
      mrenclave := o.mrenclaveAtEnd
      inputHash := hashMessages call.messages
      outputHash := Sha256.digestHex (Utf8.encode filtered.text)
      promptTokens := raw.usage.promptTokens
      completionTokens := raw.usage.completionTokens
      latencyMs := o.latencyMs
      finishReason := auditFinishReason raw.finishReason
      contentPolicyTriggered := filtered.triggered
      policyRulesMatched := ruleIds filtered
      covertChannelScore := score
      timingBucketMs := g.timing.bucketMs }

/-- What is done with the response of the runtime: the content policy, the covert channel detector,
the record. The outcome of a write is not looked at. -/
def concludeInference (sessionId : Uuid) (filter : OutputFilter T) (raw : RawInferenceOutput) :
    Gateway T × Except CordonError InferenceOutcome :=
  let clientId := call.client.clientId
  let filtered := filter.filter raw.text
  if filtered.blocked then
    ((g.append o.laterWrite (g.blockedEvent call o sessionId raw filtered)).1,
      .error filtered.violation)
  else
    let covert := S.analyze filtered.text
    let (g, suspended) := g.scoreText S o.scoredAt clientId filtered.text
    if suspended then
      -- an alert, and no record of the request itself
      (g.recordSuspension o.laterWrite clientId,
        .error (.covertChannelDetected covert.anomalyScore))
    else
      let g := o.whileHeld.act g
      let g := (g.append o.laterWrite
        (g.completionEvent call o sessionId raw filtered covert.anomalyScore)).1
      (g, .ok
        { requestId := o.requestId
          sessionId
          modelId := call.modelId
          clientId
          output := filtered.text
          usage := raw.usage
          finishReason := raw.finishReason
          latencyMs := o.latencyMs
          timingBucketMs := g.timing.bucketMs
          contentPolicyTriggered := filtered.triggered
          policyRulesMatched := ruleIds filtered
          covertChannelScore := covert.anomalyScore
          outputHash := Sha256.digestHex (Utf8.encode filtered.text)
          mrenclave := o.mrenclaveAtEnd })

/-- `process_inference`: an inference request through the full pipeline. The lease is dropped on
every path out of it. -/
def processInference (runtime : RuntimeReply RawInferenceOutput) :
    Gateway T × Except CordonError InferenceOutcome :=
  match g.acceptRequest H call o with
  | (g, .error e) => (g, .error e)
  | (g, .ok (policy, lease)) =>
    let filter := g.outputFilter policy
    let g := o.meanwhile.act g
    match runtime.run call.timeoutSeconds with
    -- the early return: neither a record nor a refund
    | .error e => (g.dropLease lease, .error e)
    | .ok raw =>
      let g := g.settle o.requestId call.client.clientId call.params.maxTokens
        raw.usage.completionTokens
      let (g, result) := g.concludeInference S call o lease.sessionId filter raw
      (g.dropLease lease, result)

/-! ### The streaming pipeline -/

/-- An admitted streaming generation. -/
structure StreamingSession (T : TextEngine) where
  stream : TokenStream
  outputFilter : OutputFilter T
  lease : InferenceLease

/-- `begin_streaming_inference`: the same beginning, and then the runtime's stream. Streaming and
timing normalization exclude each other. -/
def beginStreamingInference (runtime : RuntimeReply TokenStream) :
    Gateway T × Except CordonError (StreamingSession T) :=
  if g.timing.isActive then
    (g, .error (.modeForbidden g.node.config.mode.display
      ("streaming is refused while side_channel.timing_normalization is enabled. A stream " ++
        "releases text as it is generated, so the intervals between chunks carry the per-token " ++
        "timing that normalisation exists to remove. Use POST /v1/inference, which is " ++
        "normalised, or disable timing normalisation.")))
  else
    match g.acceptRequest H call o with
    | (g, .error e) => (g, .error e)
    | (g, .ok (policy, lease)) =>
      let filter := g.outputFilter policy
      let g := o.meanwhile.act g
      match runtime.run call.timeoutSeconds with
      | .error e => (g.dropLease lease, .error e)
      | .ok stream => (g, .ok ⟨stream, filter, lease⟩)

/-- `finish_streaming_inference`: settle the reservation, analyse the released text, and write the
completion record. A stream that failed or was stopped has no released text. -/
def finishStreamingInference (sessionId : Uuid) (released : Option (List Char)) (usage : TokenUsage)
    (finishReason : FinishReason) (policyRulesMatched : List String) : Gateway T :=
  let clientId := call.client.clientId
  let g := g.settle o.requestId clientId call.params.maxTokens usage.completionTokens
  let text := released.getD []
  let covert := S.analyze text
  -- the text is out: a detection counts against the client and withholds nothing
  let g := (g.scoreText S o.scoredAt clientId text).1
  (g.append o.laterWrite (.inference
    { requestId := o.requestId
      clientId
      sessionId := some sessionId
      modelId := call.modelId
      mrenclave := o.mrenclave
      inputHash := hashMessages call.messages
      outputHash := if text.isEmpty then "" else Sha256.digestHex (Utf8.encode text)
      promptTokens := usage.promptTokens
      completionTokens := usage.completionTokens
      latencyMs := o.latencyMs
      finishReason := auditFinishReason finishReason
      contentPolicyTriggered := released.isNone || !policyRulesMatched.isEmpty
      policyRulesMatched
      covertChannelScore := covert.anomalyScore
      timingBucketMs := g.timing.bucketMs })).1

end Gateway

/-- What the loop of `inference_stream` has in hand. -/
structure StreamProgress (T : TextEngine) where
  filter : StreamingFilter T
  usage : TokenUsage
  finishReason : FinishReason
  /-- Events sent to the client. -/
  sent : ℕ

/-- How the loop of `inference_stream` ends. -/
inductive StreamExit
  /-- An event could not be sent: the client hung up. -/
  | hungUp
  /-- The runtime failed, or the content policy stopped the stream. -/
  | failed (error : CordonError)
  /-- The stream ended. -/
  | ended
  deriving DecidableEq, Repr

/-- Whether the client is still there for an event. It takes a number of them and then hangs up,
unless it stays. -/
def delivers (patience : Option ℕ) (sent : ℕ) : Bool :=
  patience.all fun n ↦ decide (sent < n)

/-- The loop of `inference_stream`: every chunk passes through the filter, and what the filter lets
go is sent. -/
def consumeStream (patience : Option ℕ) :
    StreamProgress T → TokenStream → StreamProgress T × StreamExit
  | p, [] => (p, .ended)
  | p, .error e :: _ => (p, .failed e)
  | p, .ok (.done finishReason usage) :: rest =>
    -- the stream is read on, and a later report would replace this one
    consumeStream patience { p with finishReason, usage } rest
  | p, .ok (.delta text) :: rest =>
    match p.filter.push text with
    | (filter, .error e) => ({ p with filter }, .failed e)
    -- all of it is held back for now
    | (filter, .ok []) => consumeStream patience { p with filter } rest
    | (filter, .ok (_ :: _)) =>
      if delivers patience p.sent then
        consumeStream patience { p with filter, sent := p.sent + 1 } rest
      else ({ p with filter }, .hungUp)

/-- The end of a stream that has not failed: the filter lets go of its tail, and that is sent. -/
def closeStream (patience : Option ℕ) (p : StreamProgress T) : StreamProgress T × StreamExit :=
  match p.filter.finish with
  | (filter, .error e) => ({ p with filter }, .failed e)
  | (filter, .ok (tail, _)) =>
    if tail.isEmpty then ({ p with filter }, .ended)
    else if delivers patience p.sent then ({ p with filter, sent := p.sent + 1 }, .ended)
    else ({ p with filter }, .hungUp)

/-- A stream from its first chunk to its end. -/
def relayStream (patience : Option ℕ) (filter : OutputFilter T) (stream : TokenStream) :
    StreamProgress T × StreamExit :=
  match consumeStream patience ⟨.new filter, .zero, .stop, 0⟩ stream with
  | (p, .ended) => closeStream patience p
  | (p, exit) => (p, exit)

namespace Gateway

/-- `inference_stream`: the stream is relayed by a task that closes it, unless the client hung up.
The lease is dropped with the session. -/
def inferenceStream (g : Gateway T) (H : HostText) (S : ScoreEngine) (call : InferenceCall)
    (o : Occasion T) (runtime : RuntimeReply TokenStream) (patience : Option ℕ) :
    Gateway T × Except CordonError StreamExit :=
  match g.beginStreamingInference H call o runtime with
  | (g, .error e) => (g, .error e)
  | (g, .ok session) =>
    let g := o.whileHeld.act g
    let (p, exit) := relayStream patience session.outputFilter session.stream
    let rulesMatched := p.filter.policyMatches.map PolicyMatch.ruleId
    let sessionId := session.lease.sessionId
    let g :=
      match exit with
      -- the task returns without closing the request
      | .hungUp => g
      | .failed (.contentPolicyViolation _) =>
        g.finishStreamingInference S call o sessionId none p.usage .contentFilter rulesMatched
      | .failed _ =>
        g.finishStreamingInference S call o sessionId none p.usage .error rulesMatched
      | .ended =>
        g.finishStreamingInference S call o sessionId (some p.filter.releasedText) p.usage
          p.finishReason rulesMatched
    (g.dropLease session.lease, .ok exit)

end Gateway

end Cordon
