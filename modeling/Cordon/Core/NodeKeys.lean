import Cordon.Core.Admin
import Cordon.Core.Config
import Cordon.Core.LocalSeed

/-!
# Where a node's keys come from

A node derives its keys from a Client Master Key that it reads from a file or from its environment.
Without one it may sign with a seed of this machine, or with keys that it makes up, but **only in
Light mode**, and only there do the two development overrides have any effect
(`provisionKeys_of_not_light`).

An operator derives the same keys from the same key with tools of their own, away from the node.
What the tools publish is what the node has, and what they sign the node accepts
(`operator_tools_match_node`).

Both results rest on `provisionFromCmk`, which is where a node and the tools meet. A node that does
not run in Light mode has its keys from there or from nowhere, which is read off the branches of
`provisionKeys`. The tools arrive there from the text of the key, which is read back whatever white
space an editor has put around it (`MasterKey.fromHex_trim`). That one signature authorizes one
command is another matter: it rests on signatures that bind their messages, and on the canonical
text giving the command back.
-/

namespace Cordon

namespace MasterKey

/-- `MasterKey::from_hex`. -/
def fromHex (s : String) : Except CryptoError MasterKey :=
  match Text.hexDecode s with
  | none => .error (.hexError (Text.hexError s))
  | some bytes =>
    if bytes.length = 32 then .ok ⟨bytes⟩
    else .error (.invalidKey "Master key must be exactly 32 bytes")

/-- `MasterKey::to_hex`. -/
def toHex (master : MasterKey) : String :=
  Text.hexEncode master.bytes

/-- **A key is read back as it was written**, whatever white space an editor left around it. -/
theorem fromHex_trim {master : MasterKey} (hlen : master.bytes.length = 32) {text : String}
    (htext : Text.trim text.toList = master.toHex.toList) :
    fromHex (String.ofList (Text.trim text.toList)) = .ok master := by
  rw [htext, String.ofList_toList, fromHex, toHex, Text.hexDecode_hexEncode]
  exact if_pos hlen

end MasterKey

/-- The hexadecimal form of a verifying key. -/
def VerifyingKey.hex (vk : VerifyingKey) : String :=
  Text.hexEncode vk.bytes

/-! ### Sourcing the keys -/

/-- Where signing keys came from. -/
inductive KeyProvenance
  | cmkDerived
  | local
  | ephemeral
  deriving DecidableEq, Repr

/-- What a node finds around it when it sources its keys. -/
structure KeyHost where
  hkdf : Hkdf
  /-- The environment variables. -/
  env : String → Option String
  readFile : String → Except ReadError String
  displayReadError : ReadError → String
  /-- What loading the local seed at a path comes to. -/
  localSeed : String → Except CordonError Bytes
  /-- Two fresh signing keys. -/
  generated : SigningKey × SigningKey

/-- The key material a node runs on. -/
structure NodeKeys where
  /-- The Client Master Key, if one is provisioned. -/
  master : Option MasterKey
  keyPrincipal : String
  admin : AdminKeys
  enclaveKey : SigningKey
  provenance : KeyProvenance
  /-- Development override: serve models that are not registered. -/
  allowUnregisteredModels : Bool

namespace KeyHost

variable (host : KeyHost)

/-- `env_flag`. -/
def envFlag (name : String) : Bool :=
  (host.env name).any fun v ↦ v = "true" || v = "1"

/-- `load_cmk_hex_from_env`. -/
def loadCmkHexFromEnv : Option String :=
  match host.env "CORDON_CMK_FILE" with
  | some path => (host.readFile path).toOption
  | none => host.env "CORDON_CMK"

/-- `load_cmk_hex`: a configured file that cannot be read is an error rather than "no key". -/
def loadCmkHex : Option String → Except CordonError (Option String)
  | some path =>
    match host.readFile path with
    | .ok contents => .ok (some contents)
    | .error e => .error (.keyError ("cannot read the Client Master Key at " ++ path ++ ": " ++
        host.displayReadError e))
  | none => .ok host.loadCmkHexFromEnv

/-- Who the keys are derived for. -/
def keyPrincipal (config : CordonConfig) : String :=
  let configured := (config.keyPrincipal.map fun p ↦ String.ofList (Text.trim p.toList)).filter
    (· ≠ "")
  (configured.or (host.env "CORDON_CLIENT_ID")).getD "operator"

/-- The overrides that a mode with a guarantee refuses. -/
def checkOverrides (config : CordonConfig) : Except CordonError Unit :=
  if config.isLight then .ok ()
  else do
    configCheck (!host.envFlag "CORDON_INSECURE_ADMIN")
      ("CORDON_INSECURE_ADMIN is set but the node is in " ++ config.mode.display ++ " mode. " ++
        "Unsigned admin commands are a development-only facility.")
    configCheck (!host.envFlag "CORDON_ALLOW_UNREGISTERED_MODELS")
      ("CORDON_ALLOW_UNREGISTERED_MODELS is set but the node is in " ++ config.mode.display ++
        " mode. Bypassing the model-store gate is a development-only facility.")

/-- The error of a key that cannot be derived. -/
def keyFailed (e : CryptoError) : CordonError :=
  .keyError e.display

variable (E : Ed25519)

/-- The keys that a Client Master Key stands for. -/
def provisionFromCmk (config : CordonConfig) (cmkHex : String) :
    Except CordonError (SigningKey × NodeKeys) := do
  let principal := host.keyPrincipal config
  let master ← (MasterKey.fromHex (String.ofList (Text.trim cmkHex.toList))).mapError fun e ↦
    .keyError ("invalid Client Master Key: " ++ e.display)
  let logKey ← (master.deriveLogSigningKey host.hkdf config.deploymentId principal).mapError
    keyFailed
  let adminKey ← (master.deriveAdminKey host.hkdf config.deploymentId principal).mapError keyFailed
  let enclaveKey ← (master.deriveEnclaveKey host.hkdf config.deploymentId principal).mapError
    keyFailed
  return (logKey,
    { master := some master, keyPrincipal := principal
      admin := ⟨some (adminKey.verifyingKey E), host.envFlag "CORDON_INSECURE_ADMIN"⟩
      enclaveKey, provenance := .cmkDerived
      allowUnregisteredModels := host.envFlag "CORDON_ALLOW_UNREGISTERED_MODELS" })

/-- Keys without a Client Master Key: no bundle keys, no admin key. -/
def uncertifiedKeys (config : CordonConfig) (enclaveKey : SigningKey) (provenance : KeyProvenance) :
    NodeKeys where
  master := none
  keyPrincipal := host.keyPrincipal config
  admin := ⟨none, host.envFlag "CORDON_INSECURE_ADMIN"⟩
  enclaveKey := enclaveKey
  provenance := provenance
  allowUnregisteredModels := host.envFlag "CORDON_ALLOW_UNREGISTERED_MODELS"

/-- The keys that the seed of this machine stands for. -/
def provisionLocal (config : CordonConfig) (path : String) :
    Except CordonError (SigningKey × NodeKeys) := do
  let seed ← host.localSeed path
  let logKey ← (MasterKey.deriveLogSigningKey host.hkdf ⟨seed⟩ config.deploymentId
    "cordon-local-key").mapError keyFailed
  let enclaveKey ← (MasterKey.deriveEnclaveKey host.hkdf ⟨seed⟩ config.deploymentId
    "cordon-local-key").mapError keyFailed
  return (logKey, host.uncertifiedKeys config enclaveKey .local)

/-- `provision_keys`: the key that signs the audit log, and the others. -/
def provisionKeys (config : CordonConfig) : Except CordonError (SigningKey × NodeKeys) := do
  host.checkOverrides config
  match ← host.loadCmkHex config.cmkPath with
  | some cmkHex => host.provisionFromCmk E config cmkHex
  | none =>
    if !config.isLight then
      .error (.keyError ("no Client Master Key is provisioned, but the node is in " ++
        config.mode.display ++ " mode. Without a CMK the node signs its own audit log with a " ++
        "key it generated, so the log carries no non-repudiation. Set cmk_path or " ++
        "CORDON_CMK_FILE, or run in Light mode."))
    else
      match config.localKeyPath with
      | some path => host.provisionLocal config path
      | none =>
        .ok (host.generated.1, host.uncertifiedKeys config host.generated.2 .ephemeral)

end KeyHost

/-! ### The operator's tools -/

namespace Keygen

variable (E : Ed25519) (hkdf : Hkdf) (master : MasterKey) (deploymentId clientId : String)

/-- `CmkSource::load`: the key in a file, or the one on the command line. -/
def load (host : KeyHost) (cmkFile cmk : Option String) : Except String MasterKey := do
  let hex ← match cmkFile, cmk with
    | some path, _ => (host.readFile path).mapError fun e ↦
        "cannot read " ++ path ++ ": " ++ host.displayReadError e
    | none, some hex => .ok hex
    | none, none => .error "a Client Master Key is required; pass --cmk-file"
  (MasterKey.fromHex (String.ofList (Text.trim hex.toList))).mapError fun e ↦
    "invalid Client Master Key: " ++ e.display

/-- The public keys of a deployment. -/
structure PublicKeys where
  log : String
  admin : String
  enclave : String
  deriving DecidableEq

/-- The public keys, as `cordon keys public` shows them and `cordon keys generate` writes them. -/
def publicKeys : Except CryptoError PublicKeys := do
  let log ← master.deriveLogSigningKey hkdf deploymentId clientId
  let admin ← master.deriveAdminKey hkdf deploymentId clientId
  let enclave ← master.deriveEnclaveKey hkdf deploymentId clientId
  return ⟨(log.verifyingKey E).hex, (admin.verifyingKey E).hex, (enclave.verifyingKey E).hex⟩

/-- `generate`: the text of `cmk.hex` and of the three files beside it, from 32 random bytes. -/
def generate (bytes : Bytes) : Except CryptoError (String × PublicKeys) := do
  let keys ← publicKeys E hkdf ⟨bytes⟩ deploymentId clientId
  return (MasterKey.toHex ⟨bytes⟩, keys)

/-- `admin_sign`: the signature to send with an administrative command. -/
def adminSign (action params : String) : Except CryptoError String := do
  let admin ← master.deriveAdminKey hkdf deploymentId clientId
  return (admin.sign E (Text.asBytes ("CORDON_ADMIN:" ++ action ++ ":" ++ params))).toHex

end Keygen

/-! ### What a node has been provisioned with -/

/-- Keys that are all derived from one Client Master Key, for one deployment and principal. -/
structure NodeKeys.DerivedFrom (E : Ed25519) (hkdf : Hkdf) (deploymentId : String)
    (master : MasterKey) (logKey : SigningKey) (keys : NodeKeys) : Prop where
  held : keys.master = some master
  provenance : keys.provenance = .cmkDerived
  log : master.deriveLogSigningKey hkdf deploymentId keys.keyPrincipal = .ok logKey
  admin : ∃ adminKey, master.deriveAdminKey hkdf deploymentId keys.keyPrincipal = .ok adminKey ∧
    keys.admin.adminVk = some (adminKey.verifyingKey E)
  enclave : master.deriveEnclaveKey hkdf deploymentId keys.keyPrincipal = .ok keys.enclaveKey

/-- The public keys of a node that has an admin key. -/
def NodeKeys.publicKeys (E : Ed25519) (logKey : SigningKey) (keys : NodeKeys) :
    Option Keygen.PublicKeys :=
  keys.admin.adminVk.map fun adminVk ↦
    ⟨(logKey.verifyingKey E).hex, adminVk.hex, (keys.enclaveKey.verifyingKey E).hex⟩

namespace KeyHost

variable {host : KeyHost} {E : Ed25519} {config : CordonConfig} {logKey : SigningKey}
  {keys : NodeKeys}

theorem provisionFromCmk_eq_ok {cmkHex : String}
    (h : host.provisionFromCmk E config cmkHex = .ok (logKey, keys)) :
    ∃ master, MasterKey.fromHex (String.ofList (Text.trim cmkHex.toList)) = .ok master ∧
      keys.DerivedFrom E host.hkdf config.deploymentId master logKey ∧
      keys.keyPrincipal = host.keyPrincipal config ∧
      keys.admin.insecureAdmin = host.envFlag "CORDON_INSECURE_ADMIN" ∧
      keys.allowUnregisteredModels = host.envFlag "CORDON_ALLOW_UNREGISTERED_MODELS" := by
  simp only [provisionFromCmk, Except.bind_eq_ok, Except.mapError_eq_ok, Except.pure_eq_ok,
    Prod.mk.injEq] at h
  obtain ⟨master, hmaster, _, hlog, adminKey, hadmin, enclaveKey, henclave, rfl, rfl⟩ := h
  exact ⟨master, hmaster, ⟨rfl, rfl, hlog, ⟨adminKey, hadmin, rfl⟩, henclave⟩, rfl, rfl, rfl⟩

/-- A Client Master Key from which every key can be derived provisions a node. -/
theorem provisionFromCmk_of_derived {cmkHex : String} {master : MasterKey}
    (hmaster : MasterKey.fromHex (String.ofList (Text.trim cmkHex.toList)) = .ok master)
    {adminKey enclaveKey : SigningKey}
    (hlog : master.deriveLogSigningKey host.hkdf config.deploymentId (host.keyPrincipal config) =
      .ok logKey)
    (hadmin : master.deriveAdminKey host.hkdf config.deploymentId (host.keyPrincipal config) =
      .ok adminKey)
    (henclave : master.deriveEnclaveKey host.hkdf config.deploymentId (host.keyPrincipal config) =
      .ok enclaveKey) :
    ∃ keys, host.provisionFromCmk E config cmkHex = .ok (logKey, keys) := by
  simp [provisionFromCmk, hmaster, hlog, hadmin, henclave, Except.mapError, pure, Except.pure]

/-- **Outside Light mode every key is derived from a Client Master Key**, and no override is in
force: administrative commands are signed, and only registered models are served. -/
theorem provisionKeys_of_not_light (hmode : config.mode ≠ .light)
    (h : host.provisionKeys E config = .ok (logKey, keys)) :
    (∃ master, keys.DerivedFrom E host.hkdf config.deploymentId master logKey) ∧
      keys.admin.adminVk.isSome ∧ keys.admin.insecureAdmin = false ∧
      keys.allowUnregisteredModels = false := by
  have hlight : config.isLight = false := by simpa [CordonConfig.isLight] using hmode
  rw [provisionKeys, Except.unit_bind_eq_ok] at h
  obtain ⟨hoverrides, h⟩ := h
  rw [Except.bind_eq_ok] at h
  obtain ⟨cmk, -, h⟩ := h
  rcases cmk with - | cmkHex
  · rw [hlight] at h
    cases h
  · obtain ⟨master, -, hderived, -, hinsecure, hunregistered⟩ := provisionFromCmk_eq_ok h
    rw [checkOverrides, hlight, if_neg (by decide)] at hoverrides
    simp only [Except.unit_bind_eq_ok, configCheck_eq_ok, Bool.not_eq_true'] at hoverrides
    obtain ⟨adminKey, -, hvk⟩ := hderived.admin
    exact ⟨⟨master, hderived⟩, by rw [hvk]; rfl, hinsecure.trans hoverrides.1,
      hunregistered.trans hoverrides.2⟩

end KeyHost

namespace Keygen

variable {host : KeyHost} {E : Ed25519} {config : CordonConfig}
  {deploymentId clientId path cmkHex text : String} {bytes : Bytes} {published : PublicKeys}

/-- The message that a command is signed as. -/
def message (request : AdminRequest) : Bytes :=
  Text.asBytes (adminCanonical request.endpoint.action request.params)

/-- What one signature authorizes, with a node whose admin key made it. -/
theorem authorize_adminSign_iff {keys : AdminKeys} {adminKey : SigningKey} {hkdf : Hkdf}
    {master : MasterKey} {request signed : AdminRequest} {signature : String}
    (hadmin : master.deriveAdminKey hkdf deploymentId clientId = .ok adminKey)
    (hkey : keys.adminVk = some (adminKey.verifyingKey E))
    (hverifies : (adminKey.verifyingKey E).verify E (message signed)
      (adminKey.sign E (message signed)) = .ok ())
    (hbinds : (adminKey.verifyingKey E).BindsMessages E)
    (hsign : adminSign E hkdf master deploymentId clientId signed.endpoint.action signed.params =
      .ok signature) :
    request.authorize E keys signature = .ok () ↔
      request.endpoint = signed.endpoint ∧ request.params = signed.params := by
  have hcanonical : adminCanonical signed.endpoint.action signed.params =
      "CORDON_ADMIN:" ++ signed.endpoint.action ++ ":" ++ signed.params := rfl
  rw [adminSign, hadmin, Except.ok_bind, Except.pure_eq_ok, ← hcanonical] at hsign
  subst hsign
  have hread : ∀ sig : Signature,
      Signature.fromHex (String.ofList (Text.trim sig.toHex.toList)) = .ok sig := fun sig ↦ by
    rw [Signature.toHex, Text.hexEncode, String.toList_ofList, Text.trim_hexChars]
    exact Signature.fromHex_toHex sig
  rw [AdminRequest.authorize_eq_ok_iff hkey]
  simp only [hread, Except.ok.injEq, exists_eq_left']
  constructor
  · intro hverify
    exact adminCanonical_inj (Text.asBytes_injective (hbinds _ _ _ hverify hverifies))
  · rintro ⟨hendpoint, hparams⟩
    rw [hendpoint, hparams]
    exact hverifies

/-- **What the operator's tools publish is what the node has, and what they sign it accepts.** The
tools and the node start from the key in one file, and only the deployment and the principal have to
be the same. A signature then authorizes the command that it was made for and no other. -/
theorem operator_tools_match_node (hbytes : bytes.length = 32)
    (hgenerate : generate E host.hkdf config.deploymentId (host.keyPrincipal config) bytes =
      .ok (cmkHex, published))
    (hpath : config.cmkPath = some path) (hread : host.readFile path = .ok text)
    (htext : Text.trim text.toList = cmkHex.toList)
    (hoverrides : host.checkOverrides config = .ok ()) :
    ∃ master logKey keys, load host (some path) none = .ok master ∧
      host.provisionKeys E config = .ok (logKey, keys) ∧
      publicKeys E host.hkdf master config.deploymentId (host.keyPrincipal config) =
        .ok published ∧
      keys.publicKeys E logKey = some published ∧
      ∀ adminKey, master.deriveAdminKey host.hkdf config.deploymentId (host.keyPrincipal config) =
          .ok adminKey → (adminKey.verifyingKey E).BindsMessages E →
        ∀ (request signed : AdminRequest) (signature : String),
          (adminKey.verifyingKey E).verify E (message signed)
            (adminKey.sign E (message signed)) = .ok () →
          adminSign E host.hkdf master config.deploymentId (host.keyPrincipal config)
            signed.endpoint.action signed.params = .ok signature →
          (request.authorize E keys.admin signature = .ok () ↔
            request.endpoint = signed.endpoint ∧ request.params = signed.params) := by
  rw [generate, Except.bind_eq_ok] at hgenerate
  obtain ⟨published', hpublic, hpair⟩ := hgenerate
  obtain ⟨rfl, rfl⟩ := Prod.mk.inj (Except.pure_eq_ok.1 hpair)
  have hpublic' := hpublic
  simp only [publicKeys, Except.bind_eq_ok, Except.pure_eq_ok] at hpublic'
  obtain ⟨logKey, hlog, adminKey, hadmin, enclaveKey, henclave, rfl⟩ := hpublic'
  have hmaster : MasterKey.fromHex (String.ofList (Text.trim text.toList)) = .ok ⟨bytes⟩ :=
    MasterKey.fromHex_trim hbytes htext
  obtain ⟨keys, hkeys⟩ := KeyHost.provisionFromCmk_of_derived (E := E) hmaster hlog hadmin henclave
  obtain ⟨master, hmaster', hderived, hprincipal, -, -⟩ := KeyHost.provisionFromCmk_eq_ok hkeys
  obtain rfl := Except.ok.inj (hmaster.symm.trans hmaster')
  obtain ⟨adminKey', hadmin', hvk⟩ := hderived.admin
  have henclave' := hderived.enclave
  rw [hprincipal] at hadmin' henclave'
  obtain rfl := Except.ok.inj (hadmin.symm.trans hadmin')
  obtain rfl := Except.ok.inj (henclave.symm.trans henclave')
  refine ⟨⟨bytes⟩, logKey, keys, ?_, ?_, hpublic, ?_, ?_⟩
  · simp [load, hread, hmaster, Except.mapError]
  · have hload : host.loadCmkHex (some path) = .ok (some text) := by
      simp only [KeyHost.loadCmkHex, hread]
    rw [KeyHost.provisionKeys, hoverrides, Except.ok_bind, hpath, hload, Except.ok_bind]
    exact hkeys
  · rw [NodeKeys.publicKeys, hvk, Option.map_some]
  · intro other hother hbinds request signed signature hverifies hsign
    obtain rfl := Except.ok.inj (hadmin.symm.trans hother)
    exact authorize_adminSign_iff hadmin hvk hverifies hbinds hsign

/-! ### A sample: one key, a node and a laptop -/

namespace SampleKeys

/-- The random bytes of the key. -/
def random : Bytes :=
  List.replicate 32 7

/-- The machine of the node, with the key on a memory-backed file system. -/
def machine : KeyHost where
  hkdf := digestHkdf
  env _ := none
  readFile path :=
    if path = "/run/cordon/cmk.hex" then .ok (MasterKey.toHex ⟨random⟩ ++ "\n")
    else .error .notFound
  displayReadError _ := "No such file or directory (os error 2)"
  localSeed _ := .error (.keyError "no seed")
  generated := (⟨[]⟩, ⟨[]⟩)

def vaultConfig : CordonConfig :=
  { CordonConfig.defaultLight "node-1" "deployment-1" with
    mode := .vault, cmkPath := some "/run/cordon/cmk.hex", keyPrincipal := some " acme " }

/-- The primitive accepts nothing but the teardown that was signed. -/
def teardownOnly : Ed25519 :=
  SampleCommand.signedOnly (message (.teardown "end of lease"))

theorem verify_teardownOnly {vk : VerifyingKey} {msg : Bytes} {sig : Signature} :
    vk.verify teardownOnly msg sig = .ok () ↔ msg = message (.teardown "end of lease") := by
  simp [VerifyingKey.verify, teardownOnly, SampleCommand.signedOnly]

theorem bindsMessages_teardownOnly (vk : VerifyingKey) : vk.BindsMessages teardownOnly :=
  fun _ _ _ h h' ↦ (verify_teardownOnly.1 h).trans (verify_teardownOnly.1 h').symm

theorem readFile_machine : machine.readFile "/run/cordon/cmk.hex" =
    .ok (MasterKey.toHex ⟨random⟩ ++ "\n") := by
  simp [machine]

theorem checkOverrides_vaultConfig : machine.checkOverrides vaultConfig = .ok () := by
  rw [KeyHost.checkOverrides, if_neg (by decide)]
  rfl

theorem trim_file : Text.trim (MasterKey.toHex ⟨random⟩ ++ "\n").toList =
    (MasterKey.toHex ⟨random⟩).toList := by
  have h : Text.trim ([] ++ Text.hexChars random ++ ['\n']) = Text.hexChars random :=
    Text.trim_padded (by simp) (List.all_eq_true.1 (by decide)) (by decide) fun _ hc ↦
      Text.forall_mem_hexChars (P := fun c ↦ Text.isWhitespace c = false) (by decide) hc
  simpa [MasterKey.toHex, Text.hexEncode] using h

end SampleKeys

open SampleKeys in
/-- The keys of the sample are the ones that its operator published, and one signature tears the
node down and does nothing else. -/
theorem operator_tools_match_node_sample : ∃ master logKey keys published signature,
    load machine (some "/run/cordon/cmk.hex") none = .ok master ∧
      machine.provisionKeys teardownOnly vaultConfig = .ok (logKey, keys) ∧
      keys.publicKeys teardownOnly logKey = some published ∧
      ∀ request : AdminRequest, request.authorize teardownOnly keys.admin signature = .ok () ↔
        request.endpoint = .teardown ∧ request.params = "end of lease" := by
  obtain ⟨⟨cmkHex, published⟩, hgenerate⟩ : ∃ files, generate teardownOnly machine.hkdf
      vaultConfig.deploymentId (machine.keyPrincipal vaultConfig) random = .ok files := ⟨_, rfl⟩
  have hcmk : cmkHex = MasterKey.toHex ⟨random⟩ := by
    rw [generate, Except.bind_eq_ok] at hgenerate
    obtain ⟨keys, -, hpair⟩ := hgenerate
    exact (Prod.mk.inj (Except.pure_eq_ok.1 hpair)).1.symm
  obtain ⟨master, logKey, keys, hload, hprovision, -, hpublic, hsigned⟩ :=
    operator_tools_match_node (E := teardownOnly) (by decide) hgenerate rfl readFile_machine
      (hcmk ▸ trim_file) checkOverrides_vaultConfig
  obtain ⟨adminKey, hadmin⟩ : ∃ adminKey, master.deriveAdminKey machine.hkdf
      vaultConfig.deploymentId (machine.keyPrincipal vaultConfig) = .ok adminKey := ⟨_, rfl⟩
  exact ⟨master, logKey, keys, published, _, hload, hprovision, hpublic, fun request ↦
    hsigned adminKey hadmin (bindsMessages_teardownOnly _) request (.teardown "end of lease") _
      (verify_teardownOnly.2 rfl) (by rw [adminSign, hadmin]; rfl)⟩

end Keygen

end Cordon
