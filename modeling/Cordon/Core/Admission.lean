import Cordon.Core.ModelStore
import Cordon.Core.RateLimiter

/-!
# Admission

`CordonNode.admitRequest` runs every check a request has to pass before it reaches the model, for
unary and streaming requests alike: the node's state, attestation, blocked sources, the identity
registry, suspensions, the client's permitted models, the shape of the request, the store's gate and
the rate limit.

Three of these name a model, and they do not mean the same one. The policy is asked about **the
label the caller sent**; the store's gate is asked about that label too, unless it is empty or
`default` (`gateId`); and the supervised runtime answers from the one bundle it loaded, whatever the
label says. `admitted_bundle_iff` says exactly when an admitted request is answered by a bundle that
the store vouches for and the policy permits.

The clock is read once by each check, so an admission is described by six readings. Metrics, alerts
and the detector's counters are left out: no check of an admission reads them.

`CordonNode.of_admitRequest_eq_ok` is the inversion that everything about admissions uses, and names
what each check has found. The equivalence is then read off two of its fields, the policy's and the
store's: the request is as it should be exactly if the label, as these two understand it, is the
bundle that is served and the store knows it. Verdicts, clocks and buckets do not enter the
condition.
-/

namespace Cordon

/-- High-level node status. -/
inductive NodeStatus
  | healthy
  | degraded
  | quarantine
  | locked
  | zeroized
  | initializing
  deriving DecidableEq, Repr

/-- State of the enclave. -/
inductive EnclaveState
  | active
  | restarting
  | locked
  | zeroized
  | uninitialized
  deriving DecidableEq, Repr

/-- What admission reads of the node's state. -/
structure NodeState where
  status : NodeStatus
  enclaveState : EnclaveState
  deriving DecidableEq, Repr

/-- Whether the node can serve inference requests. -/
def NodeState.canServe (state : NodeState) : Bool :=
  (state.status = .healthy || state.status = .degraded) && state.enclaveState = .active

/-- `DeploymentMode`. -/
inductive DeploymentMode
  | dark
  | island
  | vault
  | sovereignCloud
  | light
  deriving DecidableEq, Repr

/-- `RuntimeBackend`. -/
inductive RuntimeBackend
  /-- The node spawns and owns the model runtime. -/
  | supervised
  /-- The node forwards to an endpoint the operator runs. -/
  | external
  /-- No model runtime. -/
  | none
  deriving DecidableEq, Repr

/-- What admission reads of the configuration. -/
structure NodeConfig where
  mode : DeploymentMode
  /-- Clients must verify the node's attestation before they are served. -/
  haltUntilVerified : Bool
  /-- How long a client's verification lasts, in hours. -/
  attestationIntervalHours : ℕ
  maxMessages : ℕ
  maxPromptChars : ℕ
  maxOutputTokens : ℕ
  runtimeBackend : RuntimeBackend
  deriving DecidableEq, Repr

/-- Whether this configuration requires a hardware enclave. -/
def NodeConfig.requiresHardwareTee (config : NodeConfig) : Bool :=
  config.mode ≠ .light

/-- One message of a conversation. -/
structure Message where
  role : String
  content : String
  deriving DecidableEq, Repr

/-- What admission reads of the sampling parameters. A number that is not finite is `none`; it lies
in no range. -/
structure InferenceParams where
  maxTokens : ℕ
  temperature : Option ℚ
  topP : Option ℚ
  deriving DecidableEq, Repr

/-- What admission reads of the attack detector. -/
structure AttackDetector where
  suspendedClients : StringMap (ℤ × String)
  blockedIps : StringMap ℤ

/-- Whether a source is blocked; a block that has lapsed is dropped. -/
def AttackDetector.isIpBlocked (detector : AttackDetector) (now : ℤ) (source : String) :
    AttackDetector × Bool :=
  match detector.blockedIps.lookup source with
  | some expiry =>
    if now < expiry then (detector, true)
    else ({ detector with blockedIps := detector.blockedIps.erase source }, false)
  | none => (detector, false)

/-- Why a client is suspended, if it is; a suspension that has lapsed is dropped. -/
def AttackDetector.isClientSuspended (detector : AttackDetector) (now : ℤ) (clientId : String) :
    AttackDetector × Option String :=
  match detector.suspendedClients.lookup clientId with
  | some (expiry, reason) =>
    if now < expiry then (detector, some reason)
    else ({ detector with suspendedClients := detector.suspendedClients.erase clientId }, none)
  | none => (detector, none)

/-- The parts of a node that admission reads. -/
structure CordonNode where
  state : NodeState
  config : NodeConfig
  /-- When each client last verified the node's attestation. -/
  verifiedClients : StringMap ℤ
  attackDetector : AttackDetector
  identity : IdentityRegistry
  modelStore : ModelStore
  rateLimiter : RateLimiter
  /-- The bundle the supervised runtime loaded, when it serves one. -/
  servedBundle : Option String
  /-- Development override permitting models absent from the store. -/
  allowUnregisteredModels : Bool

/-- Whether the client has verified this node within the re-attestation interval. -/
def CordonNode.isVerifiedBy (node : CordonNode) (now : ℤ) (clientId : String) : Bool :=
  match node.verifiedClients.lookup clientId with
  | some verifiedAt =>
    decide (now - verifiedAt < node.config.attestationIntervalHours * 3600000000000)
  | none => false

/-- Whether the client may be served as far as attestation goes. -/
def CordonNode.attestationReadyFor (node : CordonNode) (now : ℤ) (clientId : String) : Bool :=
  if !node.config.requiresHardwareTee || !node.config.haltUntilVerified then true
  else node.isVerifiedBy now clientId

/-- Whether a number lies between zero and `hi`. -/
def withinUpTo (hi : ℚ) (x : Option ℚ) : Bool :=
  x.any fun x ↦ decide (0 ≤ x) && decide (x ≤ hi)

/-- `check_request_limits`: validate a request's shape against the configured limits. -/
def checkRequestLimits (config : NodeConfig) (messages : List Message) (params : InferenceParams)
    (policy : ClientPolicy) : Except CordonError Unit := do
  if messages.isEmpty then
    throw (.validationFailed "a request must contain at least one message")
  if config.maxMessages < messages.length then
    throw (.requestTooLarge (toString messages.length ++ " messages exceeds the limit of " ++
      toString config.maxMessages))
  let totalChars := (messages.map fun m ↦ (Text.asBytes m.content).length).sum
  if config.maxPromptChars < totalChars then
    throw (.requestTooLarge ("prompt of " ++ toString totalChars ++
      " bytes exceeds the limit of " ++ toString config.maxPromptChars))
  if let some message := messages.find? fun m ↦
      !(["system", "user", "assistant", "tool"].contains m.role) then
    throw (.validationFailed ("unknown message role '" ++ message.role ++ "'"))
  if params.maxTokens = 0 then
    throw (.validationFailed "max_tokens must be greater than zero")
  -- the node-wide ceiling and the client's own both apply
  let ceiling := min config.maxOutputTokens policy.maxTokensPerRequest
  if ceiling < params.maxTokens then
    throw (.validationFailed ("max_tokens " ++ toString params.maxTokens ++
      " exceeds the limit of " ++ toString ceiling ++ " for this client"))
  if !withinUpTo 2 params.temperature then
    throw (.validationFailed "temperature must be between 0.0 and 2.0")
  if !withinUpTo 1 params.topP then
    throw (.validationFailed "top_p must be between 0.0 and 1.0")

/-- A request that passes asks for some output. -/
theorem pos_of_checkRequestLimits {config : NodeConfig} {messages : List Message}
    {params : InferenceParams} {policy : ClientPolicy}
    (h : checkRequestLimits config messages params policy = .ok ()) : 0 < params.maxTokens := by
  refine Nat.pos_of_ne_zero fun hzero ↦ ?_
  rw [checkRequestLimits] at h
  simp only [hzero, throw, throwThe, MonadExceptOf.throw, Except.error_bind, if_true] at h
  split at h
  · cases h
  · split at h
    · cases h
    · split at h
      · cases h
      · split at h
        · cases h
        · cases h

/-! ### The store gate -/

/-- The bundle that the gate looks up for a label. -/
def CordonNode.gateId (node : CordonNode) (modelId : String) : String :=
  match node.servedBundle with
  | some bundle => if modelId = "" ∨ modelId = "default" then bundle else modelId
  | none => modelId

/-- A node whose runtime loaded a plain model file has no bundle in play. -/
def CordonNode.plainFile (node : CordonNode) : Bool :=
  node.servedBundle.isNone && node.config.runtimeBackend = .supervised

/-- The store gate of an admission. -/
def CordonNode.storeGate (node : CordonNode) (now : ℤ) (modelId : String) :
    Except CordonError Unit :=
  if !node.plainFile then
    node.modelStore.ensureServable now (node.gateId modelId) node.allowUnregisteredModels
  else .ok ()

/-! ### The whole admission -/

/-- The readings of the clock during one admission. -/
structure AdmitClock where
  attestation : ℤ
  blocked : ℤ
  identity : ℤ
  suspended : ℤ
  gate : ℤ
  limiter : ℤ

/-- `CordonNode::admit`: run every admission check and return the authorized policy. -/
def CordonNode.admitRequest (H : HostText) (node : CordonNode) (clock : AdmitClock)
    (client : ClientIdentity) (modelId : String) (messages : List Message)
    (params : InferenceParams) : CordonNode × Except CordonError ClientPolicy :=
  if !node.state.canServe then (node, .error .quarantined)
  else if !node.attestationReadyFor clock.attestation client.clientId then
    (node, .error (.attestationInvalid
      ("this client has not verified the node's attestation. Call " ++
        "POST /v1/attestation/verify before requesting inference.")))
  else
    let (detector, blocked) := node.attackDetector.isIpBlocked clock.blocked client.fingerprint
    let node := { node with attackDetector := detector }
    if blocked then (node, .error (.authFailed "source is blocked"))
    else
      match node.identity.verify H clock.identity client with
      | .error e => (node, .error e)
      | .ok policy =>
        let (detector, suspended) :=
          node.attackDetector.isClientSuspended clock.suspended client.clientId
        let node := { node with attackDetector := detector }
        match suspended with
        | some reason => (node, .error (.authFailed ("client suspended: " ++ reason)))
        | none =>
          if !policy.modelPermitted modelId then
            (node, .error (.authFailed ("client " ++ client.clientId ++
              " is not permitted to use model " ++ modelId)))
          else
            match checkRequestLimits node.config messages params policy with
            | .error e => (node, .error e)
            | .ok () =>
              match node.storeGate clock.gate modelId with
              | .error e => (node, .error e)
              | .ok () =>
                let (limiter, allowed) :=
                  node.rateLimiter.check clock.limiter client.clientId params.maxTokens policy
                ({ node with rateLimiter := limiter }, allowed.map fun () ↦ policy)

variable {H : HostText} {node : CordonNode} {clock : AdmitClock} {client : ClientIdentity}
  {modelId : String} {messages : List Message} {params : InferenceParams} {policy : ClientPolicy}

/-- **What an admission has checked.** -/
theorem CordonNode.of_admitRequest_eq_ok
    (h : (node.admitRequest H clock client modelId messages params).2 = .ok policy) :
    node.state.canServe = true ∧ node.identity.verify H clock.identity client = .ok policy ∧
      policy.modelPermitted modelId = true ∧
      checkRequestLimits node.config messages params policy = .ok () ∧
      node.storeGate clock.gate modelId = .ok () ∧
      node.rateLimiter.check clock.limiter client.clientId params.maxTokens policy =
        ((node.admitRequest H clock client modelId messages params).1.rateLimiter, .ok ()) := by
  rcases hcall : node.admitRequest H clock client modelId messages params with ⟨after, result⟩
  obtain rfl : result = .ok policy := by simpa [hcall] using h
  rw [admitRequest] at hcall
  split at hcall
  · simp at hcall
  · next hserve =>
    split at hcall
    · simp at hcall
    · simp only at hcall
      split at hcall
      · simp at hcall
      · -- the registry's answer decides which policy the rest is about
        rcases hverify : node.identity.verify H clock.identity client with e | verified
        · simp [hverify] at hcall
        · simp only [hverify] at hcall
          split at hcall
          · simp at hcall
          · split at hcall
            · simp at hcall
            · next hpermitted =>
              rcases hlimits : checkRequestLimits node.config messages params verified with e | ⟨⟩
              · simp [hlimits] at hcall
              · simp only [hlimits] at hcall
                split at hcall
                · simp at hcall
                · next hgate =>
                  obtain ⟨rfl, hmap⟩ := Prod.mk.inj hcall
                  obtain ⟨⟨⟩, hallowed, rfl⟩ := Except.map_eq_ok.1 hmap
                  exact ⟨by simpa using hserve, rfl, by simpa using hpermitted, hlimits, hgate,
                    Prod.ext rfl hallowed⟩

/-- The gate of a node that serves a bundle, in strict mode: the store vouches for the bundle the
gate looks up, or the store is empty. -/
theorem CordonNode.storeGate_eq_ok_iff {b : String} {now : ℤ}
    (hserved : node.servedBundle = some b) (hstrict : node.allowUnregisteredModels = false) :
    node.storeGate now modelId = .ok () ↔
      node.modelStore.Servable now (node.gateId modelId) ∨
        node.modelStore.bundles.entries = [] := by
  have hplain : node.plainFile = false := by
    rw [plainFile, hserved]
    rfl
  rw [storeGate, hplain, if_pos (by decide), ModelStore.ensureServable_eq_ok_iff, hstrict]
  refine or_congr_right ⟨?_, fun hempty ↦ ⟨?_, Or.inl hempty⟩⟩
  · rintro ⟨-, hempty | habsurd⟩
    · exact hempty
    · exact absurd habsurd (by decide)
  · have hstore : node.modelStore.bundles = ∅ := AList.ext hempty
    rw [hstore, AList.lookup_empty]

/-- **When an admitted request is answered by weights the store vouches for and the policy
permits**, on a node that serves the bundle `b` in strict mode. The gate must have looked `b` up in
a store that is not empty, or `b` would have passed as well; and the policy must permit `b`, which
it does if `b` is the label it was asked about. -/
theorem admitted_bundle_iff (H : HostText) (node : CordonNode) (clock : AdmitClock)
    (client : ClientIdentity) (modelId : String) (messages : List Message)
    (params : InferenceParams) (policy : ClientPolicy) (b : String)
    (hserved : node.servedBundle = some b) (hstrict : node.allowUnregisteredModels = false)
    (hadmitted : (node.admitRequest H clock client modelId messages params).2 = .ok policy) :
    (node.modelStore.Servable clock.gate b ∧
        (policy.permittedModels ≠ [] → policy.modelPermitted b = true)) ↔
      (((modelId = "" ∨ modelId = "default" ∨ modelId = b) ∧
            node.modelStore.bundles.entries ≠ [] ∨ node.modelStore.Servable clock.gate b) ∧
        (policy.permittedModels = [] ∨ modelId = b ∨ b ∈ policy.permittedModels)) := by
  obtain ⟨-, -, hpermitted, -, hgate, -⟩ := CordonNode.of_admitRequest_eq_ok hadmitted
  rw [CordonNode.storeGate_eq_ok_iff hserved hstrict] at hgate
  refine and_congr ⟨Or.inr, ?_⟩ ?_
  · rintro (⟨hlabel, hstore⟩ | hservable)
    · have hid : node.gateId modelId = b := by
        rw [CordonNode.gateId, hserved]
        rcases hlabel with rfl | rfl | rfl
        · rfl
        · rfl
        · exact ite_self _
      rw [hid] at hgate
      exact hgate.resolve_right hstore
    · exact hservable
  · rw [ClientPolicy.modelPermitted_iff] at hpermitted ⊢
    refine ⟨fun h ↦ ?_, ?_⟩
    · by_cases hempty : policy.permittedModels = []
      · exact Or.inl hempty
      · exact Or.inr (Or.inr ((h hempty).resolve_left hempty))
    · rintro (hempty | rfl | hmem) hne
      · exact absurd hempty hne
      · exact hpermitted
      · exact Or.inr hmem

/-! ### A node with a tampered bundle -/

/-- Case conversion of ASCII, and times as plain numbers. -/
def asciiHost : HostText :=
  ⟨List.map Char.toLower, fun time ↦ toString time⟩

/-- A development node that serves the bundle `served`, with no enrolled clients. -/
def sampleNode (bundles : StringMap BundleEntry) : CordonNode where
  state := ⟨.healthy, .active⟩
  config := ⟨.light, false, 24, 256, 262144, 4096, .supervised⟩
  verifiedClients := ∅
  attackDetector := ⟨∅, ∅⟩
  identity := ⟨∅, ∅, .allowWithDefaults⟩
  modelStore := ⟨bundles, 900000000000⟩
  rateLimiter := ⟨∅⟩
  servedBundle := some "served"
  allowUnregisteredModels := false

/-- A client with a valid certificate. -/
def sampleClient : ClientIdentity :=
  ⟨"alice", 0, 10, "ab"⟩

/-- One admission within a nanosecond. -/
def sampleClock : AdmitClock :=
  ⟨5, 5, 5, 5, 5, 5⟩

/-- A short request. -/
def sampleMessages : List Message :=
  [⟨"user", "hello"⟩]

/-- Ordinary sampling parameters. -/
def sampleParams : InferenceParams :=
  ⟨512, some (7 / 10), some (9 / 10)⟩

/-- A store in which the served bundle has just passed its check. -/
def soundBundles : StringMap BundleEntry :=
  AList.singleton "served" ⟨.ready, some ⟨0, true⟩⟩

/-- A store in which the served bundle has failed its check and another one has passed. -/
def tamperedBundles : StringMap BundleEntry :=
  (AList.singleton "other" ⟨.encrypted, some ⟨0, true⟩⟩).insert "served"
    ⟨.tampered, some ⟨0, false⟩⟩

/-- A request for the default model of a sound node is answered by weights the store vouches for. -/
theorem admitted_bundle_iff_default :
    (sampleNode soundBundles).modelStore.Servable sampleClock.gate "served" ∧
      ((ClientPolicy.defaultFor "alice").permittedModels ≠ [] →
        (ClientPolicy.defaultFor "alice").modelPermitted "served" = true) := by
  refine (admitted_bundle_iff asciiHost (sampleNode soundBundles) sampleClock sampleClient "default"
    sampleMessages sampleParams (.defaultFor "alice") "served" rfl rfl (by decide +kernel)).2 ?_
  exact ⟨Or.inl ⟨Or.inr (Or.inl rfl), by decide⟩, Or.inl rfl⟩

/-- **A request that names another bundle is admitted although the served one is tampered with.** -/
theorem tampered_bundle_is_served :
    ¬∀ (node : CordonNode) (clock : AdmitClock) (client : ClientIdentity) (modelId : String)
      (messages : List Message) (params : InferenceParams) (policy : ClientPolicy) (b : String),
      node.servedBundle = some b → node.allowUnregisteredModels = false →
      (node.admitRequest asciiHost clock client modelId messages params).2 = .ok policy →
      node.modelStore.Servable clock.gate b ∧
        (policy.permittedModels ≠ [] → policy.modelPermitted b = true) := by
  intro hall
  have hadmitted : ((sampleNode tamperedBundles).admitRequest asciiHost sampleClock sampleClient
      "other" sampleMessages sampleParams).2 = .ok (.defaultFor "alice") := by
    decide +kernel
  obtain ⟨⟨entry, hentry, hstatus, -⟩, -⟩ := hall _ _ _ _ _ _ _ "served" rfl rfl hadmitted
  rw [show (sampleNode tamperedBundles).modelStore.bundles.lookup "served" =
    some ⟨.tampered, some ⟨0, false⟩⟩ from AList.lookup_insert _] at hentry
  obtain rfl := Option.some.inj hentry
  exact hstatus rfl

end Cordon
