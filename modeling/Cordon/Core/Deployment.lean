import Cordon.Core.NodeKeys
import Cordon.Core.RemoteClients

/-!
# What a node that starts has agreed to

`CordonNode::build` validates the configuration and then sets up one part after another, each from
the configuration and from what it finds on the machine: the client registry, the keys, the model
the runtime is to load, the runtime, the attestation service. A part that cannot be set up keeps the
node from starting, so a node that starts is `BuiltFrom` its configuration.

**A node that starts delivers what its mode advertises** (`built_node_honours_mode`): outside Light
mode its keys come from a Client Master Key and no override is in force, it measures itself with
hardware and lets nobody verify it without, it knows clients by their certificates only, and it
sends prompts to this host only. The operator console is there in Light mode only, for this host
only, and the check that its listener makes again refuses nothing.

The result rests on two inversions. `builtFrom_of_build` takes the building of a node apart into its
parts, each with the answer that it had from the machine, and `validate_eq_ok_iff` says what the
configuration has been checked for (`Core.Config`). Every clause is then a fact about one part under
these checks (`NodeHost.BuiltFrom.guaranteed`); what the parts do once the node runs is said
elsewhere, of each part.
-/

namespace Cordon

/-! ### The model runtime -/

/-- `LlamaRuntimeConfig`. -/
structure LlamaRuntimeConfig where
  binary : String
  modelPath : String
  ctxSize : ℕ
  gpuLayers : GpuLayers
  threads : Option ℕ
  parallelSlots : ℕ
  startupTimeoutSeconds : ℕ
  extraArgs : List String
  noMmap : Bool
  deriving DecidableEq

/-- Where the inference engine sends its requests. -/
inductive Backend
  /-- A child of the node's own, on a port of this host. -/
  | supervised (runtime : LlamaRuntimeConfig) (port : ℕ)
  /-- An endpoint of the operator's; `noProxy` keeps requests to it off any proxy. -/
  | external (baseUrl : String) (apiKey : Option String) (noProxy : Bool)
  /-- Placeholder text, from nowhere. -/
  | deterministic
  deriving DecidableEq

/-- Prompts that are sent there stay on this host: it is the child, or an endpoint that is reached
on this host and through no proxy. -/
def Backend.StaysLocal (U : UrlParser) : Backend → Prop
  | .supervised _ _ => True
  | .external baseUrl _ noProxy => isLoopbackUrl U baseUrl = true ∧ noProxy = true
  | .deterministic => True

/-- Why a node is not built. -/
inductive BuildError
  | cordon (e : CordonError)
  | runtimeUnavailable (message : String)

/-- A step of building that fails as the rest of the node does. -/
def building {α : Type} (x : Except CordonError α) : Except BuildError α :=
  x.mapError .cordon

/-- A base URL without the slashes it ends with. -/
def trimEndSlashes (url : String) : String :=
  String.ofList (url.toList.reverse.dropWhile (· = '/')).reverse

/-- What a node finds on its machine. -/
structure NodeHost extends KeyHost where
  urls : UrlParser
  engine : PlatformEngine
  platform : Platform
  pathExists : String → Bool
  isFile : String → Bool
  /-- Where a distribution may place the runtime, in the order it is looked for. -/
  bundledCandidates : List String
  /-- The directories of `PATH`. -/
  searchPath : List String
  /-- The name of the runtime's program. -/
  llamaServerExe : String
  /-- Where the runtime is usually installed. -/
  conventionalPaths : List String
  /-- Start the runtime and wait for it: the port that it answers on. -/
  startRuntime : LlamaRuntimeConfig → Except BuildError ℕ
  loadRegistry : String → Except CordonError IdentityRegistry
  /-- Open the model store: which bundles are registered there. -/
  openStore : ModelStoreConfig → Except CordonError (String → Bool)
  /-- Decrypt a bundle into a directory: the path of the plaintext. -/
  stagePlaintext : String → Bytes → String → Except CordonError String
  compilePolicies : CordonConfig → IdentityRegistry → Except CordonError Unit
  openAudit : CordonConfig → SigningKey → Except CordonError Unit
  bindConsole : IpText.SocketAddr → Bool
  displayAddr : IpText.SocketAddr → String

/-- `build_none`. -/
def buildNone (config : CordonConfig) : Except BuildError Backend := do
  building (configCheck config.isLight
    ("runtime.backend = \"none\" returns placeholder text instead of model output and is " ++
      "permitted only in Light mode, not " ++ config.mode.display ++ ". Configure a real " ++
      "runtime before deploying in this mode."))
  return .deterministic

namespace NodeHost

variable (host : NodeHost)

/-- `discover_llama_server`: the configured program, the one the environment names, the one shipped
alongside, the one on `PATH`, or the one that is usually installed. -/
def discoverLlamaServer : Option String → Option String
  | some path => if host.pathExists path then some path else none
  | none =>
    ((host.env "CORDON_LLAMA_SERVER").filter host.pathExists).or <|
      (host.bundledCandidates.find? host.isFile).or <|
        ((host.searchPath.map fun dir ↦ UnixPath.join dir host.llamaServerExe).find?
          host.isFile).or <|
            host.conventionalPaths.find? host.isFile

/-- `build_supervised`. -/
def buildSupervised (config : CordonConfig) : Except BuildError Backend := do
  let some binary := host.discoverLlamaServer config.runtime.binary |
    throw (.runtimeUnavailable ("no llama-server binary found. Install llama.cpp, then set " ++
      "`runtime.binary` in the config or the CORDON_LLAMA_SERVER environment variable. Run " ++
      "`cordon doctor` to check your setup."))
  let some modelPath := config.runtime.modelPath |
    throw (.runtimeUnavailable ("the supervised runtime needs a model file. Fetch one with " ++
      "`cordon pull <repo>` and set `runtime.model_path`."))
  let runtime : LlamaRuntimeConfig :=
    { binary, modelPath
      ctxSize := config.runtime.contextSize
      gpuLayers := config.runtime.gpuLayers
      threads := config.runtime.threads
      -- at least as many slots as requests are admitted at once
      parallelSlots := max config.runtime.parallelSlots config.inference.maxConcurrentRequests
      startupTimeoutSeconds := config.runtime.startupTimeoutSeconds
      extraArgs := config.runtime.extraArgs
      noMmap := config.runtime.noMmap }
  let port ← host.startRuntime runtime
  return .supervised runtime port

/-- `build_external`. -/
def buildExternal (config : CordonConfig) : Except BuildError Backend := do
  let some url := config.runtime.endpointUrl |
    throw (.cordon (.configError "runtime.backend = \"external\" requires runtime.endpoint_url"))
  building (configCheck (isLoopbackUrl host.urls url || config.isLight)
    ("runtime.endpoint_url " ++ url ++ " is not on loopback. In " ++ config.mode.display ++
      " mode the model runtime must be local, or prompt plaintext leaves the trust boundary. " ++
      "Use runtime.backend = \"supervised\", or point at a loopback address."))
  let baseUrl := trimEndSlashes url
  return .external baseUrl ((config.runtime.endpointApiKeyEnv.bind host.env).filter (· ≠ ""))
    (isLoopbackUrl host.urls baseUrl)

/-- `build_backend`. -/
def buildBackend (config : CordonConfig) : Except BuildError Backend :=
  match config.runtime.backend with
  | .supervised => host.buildSupervised config
  | .external => host.buildExternal config
  | .none => buildNone config

/-! ### Building -/

/-- `stage_configured_bundle`: decrypt the configured bundle, if one is configured: its path as the
runtime is to find it. -/
def stageConfiguredBundle (config : CordonConfig) (registered : String → Bool) (keys : NodeKeys) :
    Except CordonError (Option String) :=
  -- a path that exists is a plain model, with nothing to decrypt
  match (config.runtime.modelPath.filter fun path ↦ !host.pathExists path).filter registered with
  | none => .ok none
  | some bundleId =>
    match keys.master with
    | none => .error (.keyError ("bundle '" ++ bundleId ++ "' is registered but no Client " ++
        "Master Key is provisioned, so its weights cannot be decrypted"))
    | some master => do
      let bundleKey ← (master.deriveBundleKey host.hkdf bundleId keys.keyPrincipal).mapError
        KeyHost.keyFailed
      some <$> host.stagePlaintext bundleId bundleKey (config.modelStore.stagingDir.getD
        (UnixPath.join config.modelStore.path ".staging"))

/-- The configuration the runtime is built with: plaintext is read whole, so that its file can be
erased at once. -/
def runtimeConfig (config : CordonConfig) : Option String → CordonConfig
  | none => config
  | some path =>
    { config with runtime := { config.runtime with modelPath := some path, noMmap := true } }

@[simp]
theorem mode_runtimeConfig (config : CordonConfig) (staged : Option String) :
    (runtimeConfig config staged).mode = config.mode := by
  rcases staged with - | path <;> rfl

end NodeHost

/-- A node that was built. -/
structure BuiltNode where
  config : CordonConfig
  identity : IdentityRegistry
  logKey : SigningKey
  keys : NodeKeys
  backend : Backend
  /-- The bundle that the runtime was given the plaintext of. -/
  servedBundle : Option String
  attestation : MeasuredService

namespace NodeHost

variable (host : NodeHost) (E : Ed25519)

/-- `CordonNode::build`. -/
def build (config : CordonConfig) : Except BuildError BuiltNode := do
  building (config.validate host.urls)
  let identity ← building (match config.clientRegistryPath with
    | some path => host.loadRegistry path
    | none => .ok ⟨∅, ∅, .allowWithDefaults⟩)
  let registered ← building (host.openStore config.modelStore)
  let (logKey, keys) ← building (host.provisionKeys E config)
  let staged ← building (host.stageConfiguredBundle config registered keys)
  let backend ← host.buildBackend (runtimeConfig config staged)
  building (host.compilePolicies config identity)
  let attestation ← building (MeasuredService.new host.engine host.platform
    (.new config.node config.tee.preferred config.attestation.expected) config.nodeId
    config.deploymentId config.tee.minimumSecurityVersion config.attestation.measurementSource)
  building (host.openAudit config logKey)
  return { config, identity, logKey, keys, backend
           servedBundle := staged.bind fun _ ↦ config.runtime.modelPath, attestation }

/-- `ApiServer::spawn_console`: the address the operator console is served on, if it is enabled. -/
def spawnConsole (config : CordonConfig) : Except String (Option IpText.SocketAddr) :=
  if !config.ui.enabled then .ok none
  else do
    let text := config.ui.bindAddress ++ ":" ++ toString config.ui.port
    let some addr := IpText.parseSocketAddr text.toList |
      throw ("invalid ui.bind_address " ++ text)
    Except.ensure addr.ip.isLoopback
      ("refusing to serve the operator console on " ++ host.displayAddr addr ++
        "; it must be loopback")
    Except.ensure (host.bindConsole addr)
      ("cannot bind the operator console to " ++ host.displayAddr addr)
    return some addr

/-! ### What each part comes to -/

/-- What a node was built from. -/
structure BuiltFrom (config : CordonConfig) (node : BuiltNode) : Prop where
  runsOn : node.config = config
  sound : config.Sound host.urls
  keys : host.provisionKeys E config = .ok (node.logKey, node.keys)
  backend : ∃ registered staged,
    host.stageConfiguredBundle config registered node.keys = .ok staged ∧
      node.servedBundle = (staged.bind fun _ ↦ config.runtime.modelPath) ∧
      host.buildBackend (runtimeConfig config staged) = .ok node.backend
  attestation : MeasuredService.new host.engine host.platform
    (.new config.node config.tee.preferred config.attestation.expected) config.nodeId
    config.deploymentId config.tee.minimumSecurityVersion config.attestation.measurementSource =
      .ok node.attestation

end NodeHost

@[simp]
theorem building_eq_ok {α : Type} {x : Except CordonError α} {a : α} :
    building x = .ok a ↔ x = .ok a :=
  Except.mapError_eq_ok

namespace NodeHost

variable {host : NodeHost} {E : Ed25519} {config : CordonConfig} {node : BuiltNode}

theorem builtFrom_of_build (h : host.build E config = .ok node) : host.BuiltFrom E config node := by
  simp only [build, Except.bind_eq_ok, building_eq_ok, Except.pure_eq_ok, Prod.exists] at h
  obtain ⟨_, hvalid, identity, -, registered, -, logKey, keys, hkeys, staged, hstaged, backend,
    hbackend, -, -, attestation, hattestation, -, -, rfl⟩ := h
  exact ⟨rfl, CordonConfig.validate_eq_ok_iff.1 hvalid, hkeys,
    ⟨registered, staged, hstaged, rfl, hbackend⟩, hattestation⟩

/-- Parts that can all be set up make a node. -/
theorem exists_build {logKey : SigningKey} {keys : NodeKeys} {identity : IdentityRegistry}
    {registered : String → Bool} {staged : Option String} {backend : Backend}
    {attestation : MeasuredService} (hsound : config.Sound host.urls)
    (hidentity : (match config.clientRegistryPath with
      | some path => host.loadRegistry path
      | none => .ok ⟨∅, ∅, .allowWithDefaults⟩) = .ok identity)
    (hstore : host.openStore config.modelStore = .ok registered)
    (hkeys : host.provisionKeys E config = .ok (logKey, keys))
    (hstaged : host.stageConfiguredBundle config registered keys = .ok staged)
    (hbackend : host.buildBackend (runtimeConfig config staged) = .ok backend)
    (hpolicies : host.compilePolicies config identity = .ok ())
    (hattestation : MeasuredService.new host.engine host.platform
      (.new config.node config.tee.preferred config.attestation.expected) config.nodeId
      config.deploymentId config.tee.minimumSecurityVersion config.attestation.measurementSource =
        .ok attestation)
    (haudit : host.openAudit config logKey = .ok ()) :
    ∃ node, host.build E config = .ok node := by
  have hvalid := CordonConfig.validate_eq_ok_iff.2 hsound
  refine ⟨⟨config, identity, logKey, keys, backend, staged.bind fun _ ↦ config.runtime.modelPath,
    attestation⟩, ?_⟩
  simp only [build, Except.bind_eq_ok, building_eq_ok, Except.pure_eq_ok, Prod.exists]
  exact ⟨(), hvalid, identity, hidentity, registered, hstore, logKey, keys, hkeys, staged, hstaged,
    backend, hbackend, (), hpolicies, attestation, hattestation, (), haudit, rfl⟩

/-- A runtime that is built outside Light mode answers with a model, and on this host. -/
theorem staysLocal_of_buildBackend {backend : Backend}
    (hslashes : ∀ url, isLoopbackUrl host.urls url = true →
      isLoopbackUrl host.urls (trimEndSlashes url) = true)
    (hlocal : config.runtime.backend = .external → ∀ url, config.runtime.endpointUrl = some url →
      (isLoopbackUrl host.urls url || config.isLight) = true → isLoopbackUrl host.urls url = true)
    (h : host.buildBackend config = .ok backend) : backend.StaysLocal host.urls := by
  rw [buildBackend] at h
  split at h
  · next hsupervised =>
    rw [buildSupervised] at h
    split at h
    · split at h
      · obtain ⟨port, -, hport⟩ := Except.bind_eq_ok.1 h
        obtain rfl := Except.pure_eq_ok.1 hport
        trivial
      · cases h
    · cases h
  · next hexternal =>
    rw [buildExternal] at h
    split at h
    · next url hurl =>
      simp only [Except.bind_eq_ok, building_eq_ok, Except.pure_eq_ok] at h
      obtain ⟨_, hcheck, rfl⟩ := h
      have hloopback := hslashes url (hlocal hexternal url hurl (configCheck_eq_ok.1 hcheck))
      exact ⟨hloopback, hloopback⟩
    · cases h
  · next hnone =>
    simp only [buildNone, Except.bind_eq_ok, Except.pure_eq_ok] at h
    obtain ⟨-, -, rfl⟩ := h
    trivial

/-- The placeholder is never what a node outside Light mode answers with. -/
theorem light_of_deterministic (h : host.buildBackend config = .ok .deterministic) :
    config.mode = .light := by
  rw [buildBackend] at h
  split at h
  · rw [buildSupervised] at h
    split at h
    · split at h
      · obtain ⟨port, -, hport⟩ := Except.bind_eq_ok.1 h
        cases hport
      · cases h
    · cases h
  · rw [buildExternal] at h
    split at h
    · obtain ⟨_, -, hbackend⟩ := Except.bind_eq_ok.1 h
      cases hbackend
    · cases h
  · rw [buildNone, Except.bind_eq_ok] at h
    obtain ⟨_, hlight, -⟩ := h
    exact CordonConfig.isLight_iff.1 (configCheck_eq_ok.1 (building_eq_ok.1 hlight))

/-- An enclave cannot run a node: what measures it outside Light mode is a TPM or a confidential
VM. -/
theorem source_of_new {X : PlatformEngine} {platform : Platform} {gate : AttestationService}
    {nodeId deploymentId : String} {svn : ℕ} {source : MeasurementSource}
    {service : MeasuredService} (hsource : source ≠ .softwareMeasurement)
    (h : MeasuredService.new X platform gate nodeId deploymentId svn source = .ok service) :
    service.gate = gate ∧ service.source = source ∧ (source = .tpm2 ∨ source = .sevSnp) := by
  rw [MeasuredService.new, MeasuredService.takeMeasurements] at h
  split at h
  · next hsrc =>
    obtain ⟨_, -, heq⟩ := Except.bind_eq_ok.1 h
    obtain rfl := Except.pure_eq_ok.1 heq
    exact ⟨rfl, rfl, Or.inl hsrc⟩
  · next hsrc =>
    obtain ⟨_, -, heq⟩ := Except.bind_eq_ok.1 h
    obtain rfl := Except.pure_eq_ok.1 heq
    exact ⟨rfl, rfl, Or.inr hsrc⟩
  · cases h
  · next hsrc => exact absurd hsrc hsource

/-- The console is served on this host, and only where it is enabled. -/
theorem spawnConsole_eq_ok {addr : IpText.SocketAddr}
    (h : host.spawnConsole config = .ok (some addr)) :
    config.ui.enabled = true ∧ addr.ip.isLoopback = true := by
  rw [spawnConsole] at h
  split at h
  · cases h
  · next henabled =>
    simp only at h
    split at h
    · simp only [Except.bind_eq_ok, Except.ensure_eq_ok, Except.pure_eq_ok] at h
      obtain ⟨_, hloopback, _, -, heq⟩ := h
      obtain rfl := Option.some.inj heq
      exact ⟨by simpa using henabled, hloopback⟩
    · cases h

/-- Plaintext that was staged is what the runtime reads, whole, and there is a key that it was
decrypted with. -/
theorem noMmap_of_staged {registered : String → Bool} {keys : NodeKeys} {path : String}
    {runtime : LlamaRuntimeConfig} {port : ℕ}
    (hstaged : host.stageConfiguredBundle config registered keys = .ok (some path))
    (hbackend : host.buildBackend (runtimeConfig config (some path)) =
      .ok (.supervised runtime port)) :
    keys.master.isSome ∧ runtime.modelPath = path ∧ runtime.noMmap = true := by
  have hmaster : keys.master.isSome := by
    rw [stageConfiguredBundle] at hstaged
    split at hstaged
    · cases hstaged
    · split at hstaged
      · cases hstaged
      · next hsome => rw [hsome]; rfl
  refine ⟨hmaster, ?_⟩
  rw [buildBackend] at hbackend
  split at hbackend
  · rw [buildSupervised] at hbackend
    split at hbackend
    · split at hbackend
      · next hpath =>
        obtain ⟨_, -, heq⟩ := Except.bind_eq_ok.1 hbackend
        obtain ⟨rfl, -⟩ := Backend.supervised.inj (Except.pure_eq_ok.1 heq)
        exact ⟨(Option.some.inj hpath).symm, rfl⟩
      · cases hbackend
    · cases hbackend
  · rw [buildExternal] at hbackend
    split at hbackend
    · obtain ⟨_, -, heq⟩ := Except.bind_eq_ok.1 hbackend
      cases heq
    · cases hbackend
  · rw [buildNone, Except.bind_eq_ok] at hbackend
    obtain ⟨_, -, heq⟩ := hbackend
    cases heq

end NodeHost

/-! ### What a mode advertises -/

/-- What every mode but Light advertises of a node. -/
structure BuiltNode.Guaranteed (host : NodeHost) (E : Ed25519) (node : BuiltNode) : Prop where
  keys : ∃ master, node.keys.DerivedFrom E host.hkdf node.config.deploymentId master node.logKey
  signedAdmin : node.keys.admin.adminVk.isSome ∧ node.keys.admin.insecureAdmin = false
  registeredOnly : node.keys.allowUnregisteredModels = false
  source : node.attestation.source = .tpm2 ∨ node.attestation.source = .sevSnp
  /-- Whoever verifies the node has verified its hardware. -/
  attested : ∀ X nowMs now report nonce clientId established,
    (node.attestation.gate.verifyForClient X nowMs now report nonce clientId).2 = .ok established →
      established.platformQuote.isHardwareVerified = true
  pinned : node.attestation.gate.pinnedMeasurements.isSome
  /-- A request without a certificate is nobody's. -/
  certified : ∀ H C arrived now peerCertificates header policy,
    connectionIdentity C peerCertificates = none →
      authorizeRequest H C node.identity node.config.requiresMtls arrived now peerCertificates
        header ≠ .ok policy
  answersWithModel : node.backend ≠ .deterministic
  staysLocal : node.backend.StaysLocal host.urls
  noConsole : host.spawnConsole node.config = .ok none

section

variable {host : NodeHost} {E : Ed25519} {config : CordonConfig} {node : BuiltNode}

/-- The endpoint that a configuration may name outside Light mode is on this host, and so is the one
that it may name where nothing may leave it. -/
theorem NodeHost.BuiltFrom.staysLocal (h : host.BuiltFrom E config node)
    (hslashes : ∀ url, isLoopbackUrl host.urls url = true →
      isLoopbackUrl host.urls (trimEndSlashes url) = true)
    (hlocal : config.mode ≠ .light ∨ config.permitsEgress = false) :
    node.backend.StaysLocal host.urls := by
  obtain ⟨-, staged, -, -, hbackend⟩ := h.backend
  refine NodeHost.staysLocal_of_buildBackend hslashes (fun hexternal url hurl hcheck ↦ ?_) hbackend
  rcases hlocal with hmode | hegress
  · have hlight : (NodeHost.runtimeConfig config staged).isLight = false := by
      rw [CordonConfig.isLight, NodeHost.mode_runtimeConfig]
      exact decide_eq_false hmode
    simpa [hlight] using hcheck
  · have hzero := CordonConfig.permitsEgress_eq_false_iff.1 hegress
    rcases staged with - | path
    · exact h.sound.endpoint hzero hexternal url hurl
    · exact h.sound.endpoint hzero hexternal url hurl

theorem NodeHost.BuiltFrom.guaranteed (h : host.BuiltFrom E config node)
    (hslashes : ∀ url, isLoopbackUrl host.urls url = true →
      isLoopbackUrl host.urls (trimEndSlashes url) = true)
    (hmode : config.mode ≠ .light) : node.Guaranteed host E := by
  have hhardware := h.sound.hardware hmode
  have hmtls := h.sound.mtls hmode
  obtain ⟨hderived, hvk, hinsecure, hregistered⟩ :=
    KeyHost.provisionKeys_of_not_light hmode h.keys
  obtain ⟨hgate, hsource, hsources⟩ := NodeHost.source_of_new hhardware.source h.attestation
  obtain ⟨pinned, hpinned, hnonempty⟩ := hhardware.pinned
  obtain ⟨-, staged, -, -, hbackend⟩ := h.backend
  obtain rfl := h.runsOn
  refine ⟨hderived, ⟨hvk, hinsecure⟩, hregistered, hsource ▸ hsources, ?_, ?_, ?_, ?_,
    h.staysLocal hslashes (Or.inl hmode), ?_⟩
  · intro X nowMs now report nonce clientId established hverify
    rw [hgate] at hverify
    rcases AttestationService.verifyForClient_cases Prod.mk.eta.symm with
      ⟨e, herror, -⟩ | ⟨-, established', -, -, hquote, hok, -⟩
    · rw [hverify] at herror
      cases herror
    · obtain rfl := Except.ok.inj (hverify.symm.trans hok)
      exact hquote (decide_eq_true hmode)
  · rw [hgate, AttestationService.pinnedMeasurements]
    simp [AttestationService.new, hpinned, hnonempty]
  · intro H C arrived now peerCertificates header policy hnone hok
    have hrequired := ((authorizeRequest_of_header hnone).1 hok).1
    rw [CordonConfig.requiresMtls, hmtls] at hrequired
    cases hrequired
  · intro hdeterministic
    rw [hdeterministic] at hbackend
    exact hmode ((NodeHost.mode_runtimeConfig ..).symm.trans
      (NodeHost.light_of_deterministic hbackend))
  · have hdisabled : node.config.ui.enabled = false := by
      rw [← Bool.not_eq_true]
      exact fun henabled ↦ hmode (h.sound.console henabled).1
    rw [NodeHost.spawnConsole, hdisabled]
    rfl

/-- **A node that starts delivers what its mode advertises**, and whatever the mode, it keeps
prompts on this host where nothing may leave it, fetches no model where the mode has no access to
the outside, reads a decrypted bundle whole, and serves its console to this host only. The check
that the console's listener makes again never refuses an address that validation let pass. -/
theorem built_node_honours_mode
    (hslashes : ∀ url, isLoopbackUrl host.urls url = true →
      isLoopbackUrl host.urls (trimEndSlashes url) = true)
    (h : host.build E config = .ok node) :
    (config.mode ≠ .light → node.Guaranteed host E) ∧
    (config.permitsEgress = false → node.backend.StaysLocal host.urls) ∧
    (config.permitsModelDownload = true → config.mode = .light ∨ config.mode = .sovereignCloud) ∧
    (∀ bundleId runtime port, node.servedBundle = some bundleId →
      node.backend = .supervised runtime port →
        node.keys.master.isSome ∧ runtime.noMmap = true) ∧
    (config.ui.enabled = true → ∀ addr,
      IpText.parseSocketAddr (config.ui.bindAddress ++ ":" ++ toString config.ui.port).toList =
        some addr → addr.ip.isLoopback = true) ∧
    ∀ addr, host.spawnConsole config = .ok (some addr) →
      config.mode = .light ∧ addr.ip.isLoopback = true := by
  have hbuilt := NodeHost.builtFrom_of_build h
  refine ⟨hbuilt.guaranteed hslashes, fun hegress ↦ hbuilt.staysLocal hslashes (Or.inr hegress),
    ?_, ?_, ?_, ?_⟩
  · intro hdownload
    simpa [CordonConfig.permitsModelDownload] using
      (Bool.and_eq_true_iff.1 hdownload).1
  · intro bundleId runtime port hserved hbackend
    obtain ⟨registered, staged, hstaged, hbundle, hbuild⟩ := hbuilt.backend
    rw [hbundle] at hserved
    rcases staged with - | path
    · cases hserved
    · rw [hbackend] at hbuild
      obtain ⟨hmaster, -, hmmap⟩ := NodeHost.noMmap_of_staged hstaged hbuild
      exact ⟨hmaster, hmmap⟩
  · intro henabled addr haddr
    have hloopback := (hbuilt.sound.console henabled).2
    rw [isLoopbackAddress_of_parseSocketAddr haddr] at hloopback
    exact (Bool.and_eq_true_iff.1 hloopback).2
  · intro addr haddr
    obtain ⟨henabled, hloopback⟩ := NodeHost.spawnConsole_eq_ok haddr
    exact ⟨(hbuilt.sound.console henabled).1, hloopback⟩

end

/-! ### A sample: a node in Vault mode -/

namespace SampleDeployment

/-- A parser that knows one address. -/
def urls : UrlParser := fun url ↦
  if url = "http://127.0.0.1:8000" then some (.ip (.v4 [127, 0, 0, 1])) else none

/-- A host with a TPM, with the key on a memory-backed file system and one sealed bundle. -/
def host : NodeHost :=
  { Keygen.SampleKeys.machine with
    urls
    engine := SampleNode.engine
    platform := SampleNode.platform
    pathExists := (· = "/usr/bin/llama-server")
    isFile := fun _ ↦ false
    bundledCandidates := []
    searchPath := []
    llamaServerExe := "llama-server"
    conventionalPaths := []
    startRuntime := fun _ ↦ .ok 40001
    loadRegistry := fun _ ↦ .ok ⟨∅, ∅, .deny⟩
    openStore := fun _ ↦ .ok (· = "acme-7b")
    stagePlaintext := fun _ _ dir ↦ .ok (UnixPath.join dir "acme-7b.gguf")
    compilePolicies := fun _ _ ↦ .ok ()
    openAudit := fun _ _ ↦ .ok ()
    bindConsole := fun _ ↦ true
    displayAddr := fun _ ↦ "" }

/-- A node that serves the bundle with no access to the outside. -/
def config : CordonConfig :=
  let light := CordonConfig.defaultLight "node-1" "deployment-1"
  { light with
    mode := .vault
    network :=
      { light.network with
        outboundPolicy := .zeroEgress
        requireMtls := true
        clientCaPath := some "/etc/cordon/ca.crt" }
    tee := { preferred := .amdSevSnp, minimumSecurityVersion := 3 }
    boot := { light.boot with tpmRequired := true }
    runtime :=
      { light.runtime with
        backend := .supervised
        binary := some "/usr/bin/llama-server"
        modelPath := some "acme-7b" }
    attestation :=
      { light.attestation with measurementSource := .tpm2, expected := some SampleNode.pinRegister }
    cmkPath := some "/run/cordon/cmk.hex"
    keyPrincipal := some " acme " }

theorem sound : config.Sound urls where
  localKey _ := rfl
  deploymentId := rfl
  nodeId := rfl
  dark h := by cases h
  hardware _ :=
    { preferred := by decide
      source := by decide
      tpm := fun _ ↦ rfl
      pinned := ⟨SampleNode.pinRegister, rfl, rfl⟩
      platform := ⟨fun h ↦ absurd h (by decide), fun h ↦ absurd h (by decide)⟩ }
  zeroEgress _ _ := rfl
  endpoint _ h := by cases h
  mtls _ := rfl
  clientCa _ := rfl
  console h := by cases h
  placeholder h := by cases h
  external h := by cases h
  concurrency := by decide
  requestBytes := by decide
  outputTokens := by decide

theorem trimEndSlashes_loopback (url : String) (h : isLoopbackUrl urls url = true) :
    isLoopbackUrl urls (trimEndSlashes url) = true := by
  have hurl : url = "http://127.0.0.1:8000" := by
    by_contra hne
    simp [isLoopbackUrl, urls, hne] at h
  subst hurl
  rfl

theorem exists_keys : ∃ logKey keys,
    host.provisionKeys Keygen.SampleKeys.teardownOnly config = .ok (logKey, keys) ∧
      keys.master.isSome := by
  have hmaster : MasterKey.fromHex (String.ofList (Text.trim
      (MasterKey.toHex ⟨Keygen.SampleKeys.random⟩ ++ "\n").toList)) =
        .ok ⟨Keygen.SampleKeys.random⟩ :=
    MasterKey.fromHex_trim (by decide) Keygen.SampleKeys.trim_file
  obtain ⟨logKey, hlog⟩ : ∃ logKey, MasterKey.deriveLogSigningKey host.hkdf
      ⟨Keygen.SampleKeys.random⟩ config.deploymentId (host.keyPrincipal config) = .ok logKey :=
    ⟨_, rfl⟩
  obtain ⟨keys, hkeys⟩ := KeyHost.provisionFromCmk_of_derived (E := Keygen.SampleKeys.teardownOnly)
    hmaster hlog rfl rfl
  obtain ⟨master, -, hderived, -, -, -⟩ := KeyHost.provisionFromCmk_eq_ok hkeys
  refine ⟨logKey, keys, ?_, by rw [hderived.held]; rfl⟩
  have hoverrides : host.checkOverrides config = .ok () := by
    rw [KeyHost.checkOverrides, if_neg (by decide)]
    rfl
  have hload : host.loadCmkHex config.cmkPath =
      .ok (some (MasterKey.toHex ⟨Keygen.SampleKeys.random⟩ ++ "\n")) := by
    have hread : host.readFile "/run/cordon/cmk.hex" =
        .ok (MasterKey.toHex ⟨Keygen.SampleKeys.random⟩ ++ "\n") :=
      Keygen.SampleKeys.readFile_machine
    show host.loadCmkHex (some "/run/cordon/cmk.hex") = _
    simp only [KeyHost.loadCmkHex, hread]
  rw [KeyHost.provisionKeys, hoverrides, Except.ok_bind, hload, Except.ok_bind]
  exact hkeys

theorem exists_build : ∃ node,
    host.build Keygen.SampleKeys.teardownOnly config = .ok node := by
  obtain ⟨logKey, keys, hkeys, hmaster⟩ := exists_keys
  obtain ⟨master, hsome⟩ := Option.isSome_iff_exists.1 hmaster
  obtain ⟨attestation, hattestation⟩ : ∃ attestation, MeasuredService.new SampleNode.engine
      SampleNode.platform (.new config.node config.tee.preferred config.attestation.expected)
      config.nodeId config.deploymentId config.tee.minimumSecurityVersion .tpm2 = .ok attestation :=
    MeasuredService.exists_new_tpm2 Text.lowersCase_map rfl rfl fun _ _ ↦ List.length_replicate
  have hstaged : host.stageConfiguredBundle config (· = "acme-7b") keys =
      .ok (some (UnixPath.join (UnixPath.join "/cordon/bundles" ".staging") "acme-7b.gguf")) := by
    have hpath : (config.runtime.modelPath.filter fun path ↦ !host.pathExists path).filter
        (· = "acme-7b") = some "acme-7b" := rfl
    rw [NodeHost.stageConfiguredBundle, hpath]
    simp only [hsome]
    rfl
  exact NodeHost.exists_build sound rfl rfl hkeys hstaged rfl rfl hattestation rfl

end SampleDeployment

/-- A node in Vault mode that serves a sealed bundle from its own runtime. -/
theorem built_node_honours_mode_sample : ∃ node,
    SampleDeployment.host.build Keygen.SampleKeys.teardownOnly SampleDeployment.config = .ok node ∧
      node.Guaranteed SampleDeployment.host Keygen.SampleKeys.teardownOnly := by
  obtain ⟨node, hnode⟩ := SampleDeployment.exists_build
  exact ⟨node, hnode,
    (built_node_honours_mode SampleDeployment.trimEndSlashes_loopback hnode).1 (by decide)⟩

end Cordon
