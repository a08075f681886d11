import Cordon.Core.GenerateAttestation
import Cordon.Core.KeyContexts
import Cordon.Core.Requests
import Cordon.Lib.IpText

/-!
# The configuration, and what is refused

A node is configured by a deployment mode and by sections that say how it is to deliver it.
`validate` refuses whatever would present a weaker guarantee than the mode advertises, and
`validate_eq_ok_iff` says exactly which configurations are left: those that are `Sound`.

**The operator console is checked twice**, once as a text when the configuration is validated and
once as an address when its listener is opened. The first reads a host in many spellings, and the
second a socket address in one. They never disagree about an address that both can read
(`isLoopbackAddress_of_parseSocketAddr`), so the second check turns nothing away that the first let
pass.

`validate_eq_ok_iff` is an inversion of the checks in their order, and rests on nothing but them;
`Sound` is written down from what each mode advertises, with a field for each of its promises. The
comparison of the two readings of an address rests on the reader of `Lib.IpText`: a socket address
that it accepts is printed in one way, and the first check finds its host in that spelling.
-/

namespace Cordon

/-! ### Sections -/

/-- What outbound network access a deployment permits. -/
inductive OutboundPolicy
  /-- Cordon initiates no outbound connections. -/
  | zeroEgress
  | restricted
  deriving DecidableEq, Repr

/-- `NetworkConfig`. -/
structure NetworkConfig where
  outboundPolicy : OutboundPolicy
  bindAddress : String
  apiPort : ℕ
  tlsCertPath : String
  tlsKeyPath : String
  clientCaPath : Option String
  requireMtls : Bool
  deriving DecidableEq

/-- `TeeConfig`. -/
structure TeeConfig where
  preferred : TeePreference
  minimumSecurityVersion : ℕ
  deriving DecidableEq

/-- `BootConfig`. -/
structure BootConfig where
  tpmRequired : Bool
  tpmVersion : String
  secureBoot : Bool
  dmVerity : Bool
  deriving DecidableEq

/-- `ModelStoreConfig`. -/
structure ModelStoreConfig where
  path : String
  integrityCheckIntervalMinutes : ℕ
  haltOnTamper : Bool
  stagingDir : Option String
  deriving DecidableEq

/-- `InferenceConfig`. -/
structure InferenceConfig where
  maxConcurrentRequests : ℕ
  defaultTimeoutSeconds : ℕ
  kvCacheZeroOnSessionEnd : Bool
  multiTenant : Bool
  maxOutputTokens : ℕ
  deriving DecidableEq

/-- How many model layers the runtime offloads to a GPU. -/
inductive GpuLayers
  | count (n : ℕ)
  | auto
  | all
  deriving DecidableEq, Repr

/-- `RuntimeConfig`. -/
structure RuntimeConfig where
  backend : RuntimeBackend
  binary : Option String
  modelPath : Option String
  modelDir : String
  endpointUrl : Option String
  endpointApiKeyEnv : Option String
  contextSize : ℕ
  gpuLayers : GpuLayers
  threads : Option ℕ
  parallelSlots : ℕ
  startupTimeoutSeconds : ℕ
  extraArgs : List String
  noMmap : Bool
  deriving DecidableEq

/-- `UiConfig`. -/
structure UiConfig where
  enabled : Bool
  bindAddress : String
  port : ℕ
  deriving DecidableEq

/-- `AttestationConfig`. -/
structure AttestationConfig where
  measurementSource : MeasurementSource
  expected : Option ExpectedMeasurementsConfig
  intervalHours : ℕ
  haltUntilVerified : Bool

/-- `LimitsConfig`. -/
structure LimitsConfig where
  maxRequestBytes : ℕ
  maxMessages : ℕ
  maxPromptChars : ℕ
  maxConnections : ℕ
  tlsHandshakeTimeoutSeconds : ℕ
  deriving DecidableEq

/-- `CordonConfig`, but for the thresholds of the attack detector. A path is its text. -/
structure CordonConfig where
  mode : DeploymentMode
  nodeId : String
  deploymentName : String
  deploymentId : String
  network : NetworkConfig
  tee : TeeConfig
  timingNormalization : TimingNormalizer
  /-- The FIPS 140-2 level the operator asserts for the custody of the key. -/
  fipsLevel : ℕ
  boot : BootConfig
  modelStore : ModelStoreConfig
  inference : InferenceConfig
  /-- The directory of the audit log. -/
  auditLogPath : String
  runtime : RuntimeConfig
  ui : UiConfig
  attestation : AttestationConfig
  limits : LimitsConfig
  contentPolicyPath : Option String
  clientRegistryPath : Option String
  localKeyPath : Option String
  cmkPath : Option String
  keyPrincipal : Option String
  logLevel : String

namespace CordonConfig

/-- `default_light`: a Light mode configuration for development. -/
def defaultLight (nodeId deploymentId : String) : CordonConfig where
  mode := .light
  nodeId := nodeId
  deploymentName := "cordon-dev"
  deploymentId := deploymentId
  network :=
    { outboundPolicy := .restricted, bindAddress := "0.0.0.0", apiPort := 8443
      tlsCertPath := "/etc/cordon/tls/server.crt", tlsKeyPath := "/etc/cordon/tls/server.key"
      clientCaPath := none, requireMtls := false }
  tee := { preferred := .simulation, minimumSecurityVersion := 3 }
  timingNormalization :=
    { enabled := false, mode := .none, bucketSize := 100, fixedFloorMs := 1000 }
  fipsLevel := 1
  boot := { tpmRequired := false, tpmVersion := "2.0", secureBoot := false, dmVerity := false }
  modelStore :=
    { path := "/cordon/bundles", integrityCheckIntervalMinutes := 15, haltOnTamper := true
      stagingDir := none }
  inference :=
    { maxConcurrentRequests := 32, defaultTimeoutSeconds := 120, kvCacheZeroOnSessionEnd := true
      multiTenant := true, maxOutputTokens := 4096 }
  auditLogPath := "/cordon/audit"
  runtime :=
    { backend := .none, binary := none, modelPath := none, modelDir := "./data/models"
      endpointUrl := none, endpointApiKeyEnv := none, contextSize := 4096, gpuLayers := .count 0
      threads := none, parallelSlots := 4, startupTimeoutSeconds := 180, extraArgs := []
      noMmap := false }
  ui := { enabled := false, bindAddress := "127.0.0.1", port := 8478 }
  attestation :=
    { measurementSource := .softwareMeasurement, expected := none, intervalHours := 24
      haltUntilVerified := false }
  limits :=
    { maxRequestBytes := 1048576, maxMessages := 256, maxPromptChars := 262144
      maxConnections := 1024, tlsHandshakeTimeoutSeconds := 15 }
  contentPolicyPath := none
  clientRegistryPath := none
  localKeyPath := none
  cmkPath := none
  keyPrincipal := none
  logLevel := "info"

variable (config : CordonConfig)

/-- What admission and the attestation gate read of the configuration. -/
def node : NodeConfig where
  mode := config.mode
  haltUntilVerified := config.attestation.haltUntilVerified
  attestationIntervalHours := config.attestation.intervalHours
  maxMessages := config.limits.maxMessages
  maxPromptChars := config.limits.maxPromptChars
  maxOutputTokens := config.inference.maxOutputTokens
  runtimeBackend := config.runtime.backend

/-- Whether this configuration requires mTLS. -/
def requiresMtls : Bool :=
  config.network.requireMtls

/-- Whether Cordon may open outbound connections. -/
def permitsEgress : Bool :=
  config.network.outboundPolicy ≠ .zeroEgress

/-- Whether this deployment may reach the public internet to fetch a model. -/
def permitsModelDownload : Bool :=
  (config.mode = .light || config.mode = .sovereignCloud) && config.permitsEgress

end CordonConfig

/-- Whether a source rests on hardware the operator cannot forge. -/
def MeasurementSource.isHardware (source : MeasurementSource) : Bool :=
  source = .tpm2 || source = .sevSnp || source = .nitroEnclave

/-! ### Addresses of this host -/

/-- The host of a URL, by kind. -/
inductive UrlHost
  | ip (ip : IpText.IpAddr)
  | domain (name : String)
  deriving DecidableEq, Repr

/-- `url::Url::parse`, as far as it is asked: the host of a URL, if a text is one and names one. -/
abbrev UrlParser : Type :=
  String → Option UrlHost

/-- Whether a URL points at the local machine. -/
def isLoopbackUrl (U : UrlParser) (url : String) : Bool :=
  match U url with
  | some (.ip ip) => ip.isLoopback
  | some (.domain name) => eqIgnoreAsciiCase name "localhost"
  | none => false

/-- The host that an address names: what stands in brackets, or in front of a single colon, or all
of it. -/
def addressHost : List Char → Option (List Char)
  | '[' :: rest => (Text.splitOnce ']' rest).map Prod.fst
  | addr =>
    if addr.count ':' = 1 then some (((Text.splitOnce ':' addr).map Prod.fst).getD addr)
    else some addr

/-- Whether a hostname or address refers to the local machine. -/
def isLoopbackAddress (addr : String) : Bool :=
  match addressHost (Text.trim addr.toList) with
  | none => false
  | some host =>
    eqIgnoreAsciiCase (String.ofList host) "localhost" ||
      (IpText.parseIp host).any IpText.IpAddr.isLoopback

/-! ### Validation -/

/-- A check of the configuration. -/
def configCheck (holds : Bool) (message : String) : Except CordonError Unit :=
  .ensure holds (.configError message)

namespace CordonConfig

variable (U : UrlParser) (config : CordonConfig)

/-- Whether the mode is Light. -/
def isLight : Bool :=
  config.mode = .light

/-- Outside Light mode no key is kept on the node. -/
def checkLocalKey : Except CordonError Unit :=
  configCheck (config.isLight || config.localKeyPath.isNone)
    ("local_key_path is set, but the node is in " ++ config.mode.display ++ " mode. A key kept " ++
      "on the node is one the operator can read, so it cannot stand in for a Client Master Key. " ++
      "Remove it and provision a CMK.")

/-- What Dark mode claims of the deployment. -/
def checkDark : Except CordonError Unit :=
  if config.mode = .dark then do
    configCheck (decide (4 ≤ config.fipsLevel)) "Dark mode requires a FIPS 140-2 Level 4 HSM"
    configCheck (!config.inference.multiTenant) "Dark mode does not permit multi-tenant operation"
  else .ok ()

/-- The certificate that a confidential VM's evidence is to chain to. -/
def sevSnpRoot : String :=
  ((config.attestation.expected.bind ExpectedMeasurementsConfig.sevSnp).map
    SevSnpPins.amdRootDerB64).getD ""

/-- The operator's pins for an enclave. -/
def nitroPins : Option NitroPins :=
  config.attestation.expected.bind ExpectedMeasurementsConfig.nitro

/-- A report of a confidential VM chains to a root that the operator pinned. -/
def checkSevSnpPins : Except CordonError Unit :=
  if config.attestation.measurementSource = .sevSnp then
    configCheck (!Text.isBlank config.sevSnpRoot.toList)
      ("attestation.measurement_source = \"sev_snp\" in " ++ config.mode.display ++
        " mode requires a pinned AMD root certificate under [attestation.expected.sev_snp]. " ++
        "Without one the chip's endorsement key chains to nothing, and the attestation proves " ++
        "only that the report is internally consistent.")
  else .ok ()

/-- A document of an enclave chains to a root that the operator pinned, and is of a pinned image. -/
def checkNitroPins : Except CordonError Unit :=
  if config.attestation.measurementSource = .nitroEnclave then do
    configCheck (!Text.isBlank ((config.nitroPins.map NitroPins.rootDerB64).getD "").toList)
      ("attestation.measurement_source = \"nitro_enclave\" in " ++ config.mode.display ++
        " mode                          requires a pinned AWS Nitro root certificate under" ++
        "                          [attestation.expected.nitro]. Without one the document's" ++
        "                          certificate chains only to the bundle the document itself" ++
        "                          supplied, which proves nothing.")
    configCheck (config.nitroPins.any fun pins ↦ (pins.pcrValues.get 0).isSome)
      ("attestation.measurement_source = \"nitro_enclave\" in " ++ config.mode.display ++
        " mode                          requires a pinned PCR0 under" ++
        "                          [attestation.expected.nitro.pcr_values]. Without it the" ++
        "                          attestation establishes that some genuine Nitro enclave" ++
        "                          answered, not that yours did.")
  else .ok ()

/-- Outside Light mode the measurements come from hardware and are pinned. -/
def checkHardware : Except CordonError Unit :=
  if config.isLight then .ok ()
  else do
    configCheck (config.tee.preferred ≠ .simulation)
      ("tee.preferred = \"simulation\" is not permitted in " ++ config.mode.display ++
        " mode. Select a hardware TEE, or run in Light mode.")
    configCheck config.attestation.measurementSource.isHardware
      ("attestation.measurement_source = \"" ++ config.attestation.measurementSource.display ++
        "\" is not permitted in " ++ config.mode.display ++ " mode. A software measurement is " ++
        "a configuration digest, not a hardware root of trust. Set it to \"sev_snp\" for a " ++
        "confidential VM, or \"tpm2\" for a TPM-attested host.")
    configCheck (config.attestation.measurementSource ≠ .tpm2 || config.boot.tpmRequired)
      (config.mode.display ++ " mode with attestation.measurement_source = \"tpm2\" requires " ++
        "boot.tpm_required = true")
    configCheck (config.attestation.expected.any fun pinned ↦ !pinned.isEmpty)
      (config.mode.display ++ " mode requires pinned attestation.expected measurements. " ++
        "Without them the node cannot distinguish a genuine platform from an impostor. " ++
        "Capture them with `cordon attest --pin`.")
    config.checkSevSnpPins
    config.checkNitroPins

/-- No mode that claims to have no outbound access has any, and no prompt leaves a host that
permits no egress. -/
def checkEgress : Except CordonError Unit := do
  configCheck (!((config.mode = .vault || config.mode = .island || config.mode = .dark) &&
      config.permitsEgress))
    (config.mode.display ++ " mode requires network.outbound_policy = \"zero_egress\". The " ++
      "mode is documented as having no outbound access; a configuration that claims it while " ++
      "permitting egress is claiming something it does not deliver.")
  match config.permitsEgress, config.runtime.endpointUrl with
  | false, some url =>
    configCheck (config.runtime.backend ≠ .external || isLoopbackUrl U url)
      ("network.outbound_policy is \"zero_egress\" but runtime.endpoint_url is " ++ url ++
        ", which is not on this host. Every prompt would leave the machine. Use " ++
        "runtime.backend = \"supervised\", or point at a loopback address.")
  | _, _ => .ok ()

/-- Outside Light mode clients are bound to certificates, and certificates to an authority. -/
def checkTransport : Except CordonError Unit := do
  configCheck (config.isLight || config.network.requireMtls)
    (config.mode.display ++ " mode requires network.require_mtls = true; client identity must " ++
      "be bound to a certificate, not asserted in a header")
  configCheck (config.isLight || config.network.clientCaPath.isSome)
    ("mTLS requires network.client_ca_path so client certificates can be verified against a CA")
  configCheck (!config.network.requireMtls || config.network.clientCaPath.isSome)
    "network.require_mtls = true requires network.client_ca_path"

/-- The console is there in Light mode only, and on this host only. -/
def checkConsole : Except CordonError Unit :=
  if config.ui.enabled then do
    configCheck config.isLight
      ("the operator console is not permitted in " ++ config.mode.display ++ " mode; it is an " ++
        "unauthenticated HTML surface. Use the CLI or the API instead.")
    configCheck (isLoopbackAddress config.ui.bindAddress)
      ("ui.bind_address must be a loopback address, not " ++ config.ui.bindAddress ++ ". The " ++
        "console has no authentication of its own and must never be reachable off the host.")
  else .ok ()

/-- Something answers, and outside Light mode it is a model. -/
def checkRuntime : Except CordonError Unit :=
  match config.runtime.backend with
  | .none => configCheck config.isLight
      ("runtime.backend = \"none\" returns placeholder text and is not permitted in " ++
        config.mode.display ++ " mode")
  | .external => configCheck config.runtime.endpointUrl.isSome
      "runtime.backend = \"external\" requires runtime.endpoint_url"
  | .supervised => .ok ()

/-- No limit is zero. -/
def checkLimits : Except CordonError Unit := do
  configCheck (config.inference.maxConcurrentRequests ≠ 0)
    "inference.max_concurrent_requests must be at least 1"
  configCheck (config.limits.maxRequestBytes ≠ 0)
    "limits.max_request_bytes must be greater than zero"
  configCheck (config.inference.maxOutputTokens ≠ 0)
    "inference.max_output_tokens must be greater than zero"

/-- `CordonConfig::validate`: refuse any combination that would present a weaker guarantee than the
mode advertises. -/
def validate : Except CordonError Unit := do
  config.checkLocalKey
  validateDeploymentId config.deploymentId
  configCheck (!Text.isBlank config.nodeId.toList) "node_id must not be empty"
  config.checkDark
  config.checkHardware
  config.checkEgress U
  config.checkTransport
  config.checkConsole
  config.checkRuntime
  config.checkLimits

/-! ### The configurations that are accepted -/

/-- Pins that evidence of a platform can be held against. -/
structure PlatformPinned : Prop where
  sevSnp : config.attestation.measurementSource = .sevSnp →
    Text.isBlank config.sevSnpRoot.toList = false
  nitro : config.attestation.measurementSource = .nitroEnclave → ∃ pins,
    config.nitroPins = some pins ∧ Text.isBlank pins.rootDerB64.toList = false ∧
      (pins.pcrValues.get 0).isSome

/-- What a mode other than Light claims of the hardware. -/
structure HardwareRooted : Prop where
  preferred : config.tee.preferred ≠ .simulation
  source : config.attestation.measurementSource ≠ .softwareMeasurement
  tpm : config.attestation.measurementSource = .tpm2 → config.boot.tpmRequired = true
  pinned : ∃ pinned, config.attestation.expected = some pinned ∧ pinned.isEmpty = false
  platform : config.PlatformPinned

/-- A configuration that delivers what its mode advertises. -/
structure Sound : Prop where
  localKey : config.mode ≠ .light → config.localKeyPath = none
  deploymentId : Text.isBlank config.deploymentId.toList = false
  nodeId : Text.isBlank config.nodeId.toList = false
  dark : config.mode = .dark → 4 ≤ config.fipsLevel ∧ config.inference.multiTenant = false
  hardware : config.mode ≠ .light → config.HardwareRooted
  zeroEgress : config.mode ≠ .light → config.mode ≠ .sovereignCloud →
    config.network.outboundPolicy = .zeroEgress
  endpoint : config.network.outboundPolicy = .zeroEgress → config.runtime.backend = .external →
    ∀ url, config.runtime.endpointUrl = some url → isLoopbackUrl U url = true
  mtls : config.mode ≠ .light → config.network.requireMtls = true
  clientCa : config.network.requireMtls = true → config.network.clientCaPath.isSome
  console : config.ui.enabled = true →
    config.mode = .light ∧ isLoopbackAddress config.ui.bindAddress = true
  placeholder : config.runtime.backend = .none → config.mode = .light
  external : config.runtime.backend = .external → config.runtime.endpointUrl.isSome
  concurrency : config.inference.maxConcurrentRequests ≠ 0
  requestBytes : config.limits.maxRequestBytes ≠ 0
  outputTokens : config.inference.maxOutputTokens ≠ 0

end CordonConfig

@[simp]
theorem configCheck_eq_ok {holds : Bool} {message : String} :
    configCheck holds message = .ok () ↔ holds = true :=
  Except.ensure_eq_ok

namespace CordonConfig

variable {U : UrlParser} {config : CordonConfig}

theorem isLight_iff : config.isLight = true ↔ config.mode = .light := by
  simp [isLight]

theorem permitsEgress_eq_false_iff :
    config.permitsEgress = false ↔ config.network.outboundPolicy = .zeroEgress := by
  simp [permitsEgress]

theorem checkLocalKey_eq_ok : config.checkLocalKey = .ok () ↔
    (config.mode ≠ .light → config.localKeyPath = none) := by
  simp [checkLocalKey, isLight, Decidable.or_iff_not_imp_left]

theorem checkDark_eq_ok : config.checkDark = .ok () ↔
    (config.mode = .dark → 4 ≤ config.fipsLevel ∧ config.inference.multiTenant = false) := by
  rw [checkDark]
  split
  · next h => simp [h, Except.unit_bind_eq_ok]
  · next h => simp [h]

theorem checkPins_eq_ok :
    config.checkSevSnpPins = .ok () ∧ config.checkNitroPins = .ok () ↔ config.PlatformPinned := by
  have hsnp : config.checkSevSnpPins = .ok () ↔ (config.attestation.measurementSource = .sevSnp →
      Text.isBlank config.sevSnpRoot.toList = false) := by
    rw [checkSevSnpPins]
    split
    · next h => simp [h]
    · next h => simp [h]
  have hnitro : config.checkNitroPins = .ok () ↔
      (config.attestation.measurementSource = .nitroEnclave → ∃ pins, config.nitroPins = some pins ∧
        Text.isBlank pins.rootDerB64.toList = false ∧ (pins.pcrValues.get 0).isSome) := by
    rw [checkNitroPins]
    split
    · next h =>
      rcases config.nitroPins with - | pins
      · simp [h, Except.unit_bind_eq_ok]
      · simp [h, Except.unit_bind_eq_ok]
    · next h => simp [h]
  rw [hsnp, hnitro]
  exact ⟨fun h ↦ ⟨h.1, h.2⟩, fun h ↦ ⟨h.sevSnp, h.nitro⟩⟩

theorem checkHardware_eq_ok : config.checkHardware = .ok () ↔
    (config.mode ≠ .light → config.HardwareRooted) := by
  rw [checkHardware]
  split
  · next h => simp [isLight_iff.1 h]
  · next h =>
    have hmode : config.mode ≠ .light := mt isLight_iff.2 h
    simp only [Except.unit_bind_eq_ok, configCheck_eq_ok, ne_eq, hmode, not_false_eq_true,
      forall_const, checkPins_eq_ok]
    constructor
    · rintro ⟨hpreferred, hsource, htpm, hpinned, hplatform⟩
      refine ⟨by simpa using hpreferred, fun hsoft ↦ ?_, by simpa [imp_iff_not_or] using htpm, ?_,
        hplatform⟩
      · rw [hsoft] at hsource
        cases hsource
      · obtain ⟨pinned, hsome, hne⟩ := (Option.any_eq_true ..).1 hpinned
        exact ⟨pinned, hsome, by simpa using hne⟩
    · intro h
      obtain ⟨pinned, hpinned, hne⟩ := h.pinned
      refine ⟨by simpa using h.preferred, ?_, by simpa [imp_iff_not_or] using h.tpm,
        by simp [hpinned, hne], h.platform⟩
      have hsource := h.source
      revert hsource
      cases config.attestation.measurementSource <;> simp [MeasurementSource.isHardware]

theorem checkEgress_eq_ok : config.checkEgress U = .ok () ↔
    (config.mode ≠ .light → config.mode ≠ .sovereignCloud →
      config.network.outboundPolicy = .zeroEgress) ∧
    (config.network.outboundPolicy = .zeroEgress → config.runtime.backend = .external →
      ∀ url, config.runtime.endpointUrl = some url → isLoopbackUrl U url = true) := by
  rw [checkEgress, Except.unit_bind_eq_ok, configCheck_eq_ok]
  refine and_congr ?_ ?_
  · rw [← permitsEgress_eq_false_iff]
    cases config.mode <;> simp
  · rw [← permitsEgress_eq_false_iff]
    rcases config.permitsEgress with - | - <;> rcases config.runtime.endpointUrl with - | url <;>
      simp [Decidable.or_iff_not_imp_left]

theorem checkTransport_eq_ok : config.checkTransport = .ok () ↔
    (config.mode ≠ .light → config.network.requireMtls = true) ∧
    (config.network.requireMtls = true → config.network.clientCaPath.isSome) := by
  simp only [checkTransport, Except.unit_bind_eq_ok, configCheck_eq_ok, isLight]
  rcases config.network.requireMtls with - | - <;>
    rcases config.network.clientCaPath with - | path <;> simp

theorem checkConsole_eq_ok : config.checkConsole = .ok () ↔
    (config.ui.enabled = true →
      config.mode = .light ∧ isLoopbackAddress config.ui.bindAddress = true) := by
  rw [checkConsole]
  split
  · next h => simp [h, Except.unit_bind_eq_ok, isLight_iff]
  · next h => simp [h]

theorem checkRuntime_eq_ok : config.checkRuntime = .ok () ↔
    (config.runtime.backend = .none → config.mode = .light) ∧
    (config.runtime.backend = .external → config.runtime.endpointUrl.isSome) := by
  rw [checkRuntime]
  split <;> next h => simp [h, isLight_iff]

theorem checkLimits_eq_ok : config.checkLimits = .ok () ↔
    config.inference.maxConcurrentRequests ≠ 0 ∧ config.limits.maxRequestBytes ≠ 0 ∧
      config.inference.maxOutputTokens ≠ 0 := by
  simp [checkLimits, Except.unit_bind_eq_ok]

/-- **A configuration is accepted exactly when it delivers what its mode advertises.** -/
theorem validate_eq_ok_iff : config.validate U = .ok () ↔ config.Sound U := by
  simp only [validate, Except.unit_bind_eq_ok, checkLocalKey_eq_ok, checkDark_eq_ok,
    checkHardware_eq_ok, checkEgress_eq_ok, checkTransport_eq_ok, checkConsole_eq_ok,
    checkRuntime_eq_ok, checkLimits_eq_ok, configCheck_eq_ok, validateDeploymentId,
    Except.ensure_eq_ok, Bool.not_eq_true']
  constructor
  · rintro ⟨hkey, hdeployment, hnode, hdark, hhardware, ⟨hzero, hendpoint⟩, ⟨hmtls, hca⟩, hconsole,
      ⟨hplaceholder, hexternal⟩, hconcurrency, hbytes, htokens⟩
    exact ⟨hkey, hdeployment, hnode, hdark, hhardware, hzero, hendpoint, hmtls, hca, hconsole,
      hplaceholder, hexternal, hconcurrency, hbytes, htokens⟩
  · intro h
    exact ⟨h.localKey, h.deploymentId, h.nodeId, h.dark, h.hardware, ⟨h.zeroEgress, h.endpoint⟩,
      ⟨h.mtls, h.clientCa⟩, h.console, ⟨h.placeholder, h.external⟩, h.concurrency, h.requestBytes,
      h.outputTokens⟩

end CordonConfig

/-! ### Two readings of an address -/

theorem isLoopbackAddress_of_host {addr : String} {host : List Char} {ip : IpText.IpAddr}
    (hhost : addressHost (Text.trim addr.toList) = some host)
    (hip : IpText.parseIp host = some ip) : isLoopbackAddress addr = ip.isLoopback := by
  have hname : eqIgnoreAsciiCase (String.ofList host) "localhost" = false := by
    have hne := IpText.map_toLower_ne_of_parseIp ("localhost".toList.map Char.toLower)
      (c := 'l') (by decide) (by decide) (by decide) (by decide) hip
    simpa [eqIgnoreAsciiCase] using hne
  simp [isLoopbackAddress, hhost, hip, hname]

/-- What the console's listener reads as an address in front of its port, validation reads as that
address too, or refuses for the zone it names. -/
theorem isLoopbackAddress_of_parseSocketAddr {addr : String} {port : ℕ} {a : IpText.SocketAddr}
    (h : IpText.parseSocketAddr (addr ++ ":" ++ toString port).toList = some a) :
    isLoopbackAddress addr = (decide ('%' ∉ addr.toList) && a.ip.isLoopback) := by
  have hcolon : ':' ∉ (toString port).toList := fun hmem ↦
    absurd (Text.isDigit_of_mem_toString hmem) (by decide)
  have htext : (addr ++ ":" ++ toString port).toList =
      addr.toList ++ ':' :: (toString port).toList := by
    simp
  rw [htext] at h
  rcases IpText.host_of_parseSocketAddr hcolon h with ⟨hip, hnone⟩ | ⟨inner, haddr, hclose, hinner⟩
  · have hbracket : '[' ∉ addr.toList :=
      IpText.not_mem_of_parseIp (by decide) (by decide) (by decide) hip
    have hhost : addressHost (Text.trim addr.toList) = some addr.toList := by
      rw [IpText.trim_of_parseIp hip, addressHost, if_neg]
      · rw [List.count_eq_zero.2 hnone]
        decide
      · rintro rest hrest
        exact hbracket (hrest ▸ List.mem_cons_self)
    rw [isLoopbackAddress_of_host hhost hip]
    simp [IpText.percent_not_mem hip]
  · have htrim : Text.trim addr.toList = addr.toList := by
      have hends : Text.trim ([] ++ addr.toList ++ []) = addr.toList :=
        Text.trim_eq_of_ends (by simp) (by simp) haddr (by decide) (u := '[' :: inner) haddr
          (by decide)
      simpa using hends
    have hhost : addressHost (Text.trim addr.toList) = some inner := by
      rw [htrim, haddr]
      show (Text.splitOnce ']' (inner ++ [']'])).map Prod.fst = some inner
      rw [Text.splitOnce_append hclose]
      rfl
    rcases hinner with hip | hpercent
    · rw [isLoopbackAddress_of_host hhost hip]
      have hzone : '%' ∉ addr.toList := by
        rw [haddr]
        simpa using IpText.percent_not_mem hip
      simp [hzone]
    · have hnone : IpText.parseIp inner = none := by
        rw [Option.eq_none_iff_forall_ne_some]
        exact fun ip hip ↦ IpText.percent_not_mem hip hpercent
      have hname : eqIgnoreAsciiCase (String.ofList inner) "localhost" = false := by
        have hne : inner.map Char.toLower ≠ "localhost".toList.map Char.toLower := fun heq ↦
          absurd (heq ▸ List.mem_map_of_mem hpercent) (by decide)
        simpa [eqIgnoreAsciiCase] using hne
      have hzone : '%' ∈ addr.toList := by
        rw [haddr]
        simp [hpercent]
      simp [isLoopbackAddress, hhost, hnone, hname, hzone]

end Cordon
