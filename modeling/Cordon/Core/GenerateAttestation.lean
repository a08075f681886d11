import Cordon.Core.AttestationService
import Cordon.Core.CertificateTable
import Cordon.Core.TpmTools
import Cordon.Lib.Base64

/-!
# The reports a node makes of itself

`AttestationService.new` measures the node once, when it starts; `generateAttestation` makes a
report of those measurements for each nonce, with evidence that the platform gives at that moment.
The checks of a report are modelled in `Crypto.Attestation`, and the gate in
`Core.AttestationService`; this module is the other end of the same wire.

What comes out of composing the two ends depends on the measurement source. A TPM **signs the
registers as they are now**, while the report carries what was read at the start, so a TPM node
attests exactly as long as no register it measures has moved (`tpm_node_attests_iff`). A
confidential VM is measured by its own report, so what is left to check is the evidence
(`sevSnp_node_attests_iff`). A node that measures itself in software is never let past the gate of a
mode that requires hardware (`software_node_attests_iff`).

Each of the three rests on what the verifier has proved of the evidence: for a TPM on the registers
that a genuine quote covers (`Crypto.HardwareRoot`), so that freedom from collisions is asked of the
two strings of registers that are compared; for a confidential VM on what its report commits to
(`Crypto.SevSnp`); for software on nothing, since the mode decides. That the report names its own
measurements and its own challenge is how `generateAttestation` makes it, and needs no assumption.
-/

namespace Cordon

/-! ### The platform -/

/-- `MeasurementSource`. -/
inductive MeasurementSource
  | tpm2
  | sevSnp
  | nitroEnclave
  | softwareMeasurement
  deriving DecidableEq, Repr

/-- The displayed form of a measurement source. -/
def MeasurementSource.display : MeasurementSource → String
  | .tpm2 => "tpm2"
  | .sevSnp => "sev_snp"
  | .nitroEnclave => "nitro_enclave"
  | .softwareMeasurement => "software_measurement"

/-- The displayed form of a TEE preference. -/
def TeePreference.display : TeePreference → String
  | .sgxV2 => "intel_sgx_v2"
  | .amdSevSnp => "amd_sev_snp"
  | .armTrustZone => "arm_trustzone"
  | .simulation => "simulation"

/-- What the machine under the node answers, at one time. -/
structure Platform where
  tpm : TpmTools
  /-- Whether the kernel has the interface to a confidential VM's reports. -/
  tsmAvailable : Bool
  /-- One use of that interface: the 64 bytes of `inblob` in, `outblob` and `auxblob` out. -/
  tsmReport : Bytes → Except CordonError (Bytes × Bytes)
  /-- Standard Base64. -/
  base64Encode : Bytes → String
  /-- The displayed form of an error. -/
  displayError : CordonError → String

/-- Bytes a report commits to. -/
def reportDataLen : ℕ := 64

/-- `request_report`: request a report committing to `reportData`, and whatever certificates come
with it. -/
def Platform.requestReport (platform : Platform) (reportData : Bytes) :
    Except CordonError (Bytes × Bytes) :=
  if reportDataLen < reportData.length then
    .error (.attestationInvalid ("report data is " ++ toString reportData.length ++
      " bytes; a hardware report commits to at most " ++ toString reportDataLen))
  else if !platform.tsmAvailable then
    .error (.attestationInvalid ("no confidential-VM report interface at " ++
      "/sys/kernel/config/tsm/report. This node is not running inside an AMD SEV-SNP or Intel " ++
      "TDX guest, or the kernel predates 6.7 and does not expose configfs-tsm. Cordon will not " ++
      "substitute a weaker measurement for one it was told to produce."))
  else do
    let (report, certificates) ←
      platform.tsmReport (reportData ++ List.replicate (reportDataLen - reportData.length) 0)
    if report.isEmpty then
      throw (.attestationInvalid "the platform returned an empty attestation report")
    return (report, certificates)

/-! ### Measuring -/

/-- The version the node reports. -/
def cordonVersion : String := "2.1.0"

/-- The service with what it knows of the node: its gate, its identity, and its measurements. -/
structure MeasuredService where
  gate : AttestationService
  nodeId : String
  deploymentId : String
  minimumSecurityVersion : ℕ
  source : MeasurementSource
  measurements : IndexMap String
  mrenclave : String
  mrsigner : String

namespace MeasuredService

/-- One measurement of `derive_software_measurements`. -/
def deriveMeasurement (nodeId : String) (index : UInt8) (input : String) : UInt8 × String :=
  (index, "sha256:" ++ Sha256.digestHex (Text.asBytes "CORDON_SOFTWARE_MEASUREMENT_v1" ++
    Text.asBytes ("PCR[" ++ toString index ++ "]:" ++ input) ++ Text.asBytes nodeId))

variable (X : PlatformEngine) (service : MeasuredService) (platform : Platform)

/-- Derive measurements from the build and configuration. -/
def deriveSoftwareMeasurements : IndexMap String :=
  IndexMap.ofList
    [deriveMeasurement service.nodeId PcrAllocations.cordonRuntime
        ("cordon-" ++ cordonVersion ++ "-" ++ service.deploymentId),
      deriveMeasurement service.nodeId PcrAllocations.cordonConfig
        ("mode=" ++ service.gate.config.mode.display ++ ";tee=" ++
          service.gate.preferred.display),
      deriveMeasurement service.nodeId PcrAllocations.modelManifest "no-model-loaded"]

/-- Read the registers of the TPM; there is no fallback. -/
def readTpmMeasurements : Except CordonError (IndexMap String) :=
  if !platform.tpm.isAvailable then
    .error (.attestationInvalid ("attestation.measurement_source is \"tpm2\" but no TPM is " ++
      "reachable. Cordon will not fall back to a software measurement in " ++
      service.gate.config.mode.display ++ " mode: doing so would report a hardware guarantee it " ++
      "cannot provide. Install tpm2-tools and confirm the device, or run in Light mode."))
  else do
    let pcrs ← (platform.tpm.readPcrs X PcrAllocations.all).mapError fun e ↦
      .attestationInvalid ("cannot read TPM PCRs: " ++ platform.displayError e)
    if pcrs.isEmpty then
      throw (.attestationInvalid "the TPM returned no PCR values")
    return pcrs

/-- Confirm a confidential-VM report interface is present and answering: the launch measurement of
the guest. -/
def probeConfidentialVm : Except CordonError String :=
  if !platform.tsmAvailable then
    .error (.attestationInvalid ("attestation.measurement_source is \"sev_snp\" but this node " ++
      "is not running inside a confidential VM, or the kernel does not expose configfs-tsm " ++
      "(Linux 6.7+). Cordon will not fall back to a weaker measurement in " ++
      service.gate.config.mode.display ++ " mode. Deploy on an SEV-SNP guest, or change the " ++
      "measurement source."))
  else do
    let (bytes, _) ← (platform.requestReport (List.replicate 32 0)).mapError fun e ↦
      .attestationInvalid
        ("the confidential-VM report interface is present but did not produce a report: " ++
          platform.displayError e)
    let report ← (SevSnp.SevSnpReport.parse bytes).mapError fun e ↦
      .attestationInvalid
        ("the platform returned a report Cordon cannot parse: " ++ e.display)
    if report.policy.debugAllowed then
      throw (.attestationInvalid ("this guest was launched with a policy that permits " ++
        "debugging, which lets the hypervisor read its memory. That defeats the confidentiality " ++
        "the deployment mode claims. Relaunch with debugging disabled."))
    return report.measurementHex

/-- The enclave measurement of a node that is not a confidential VM. -/
def configuredEnclave : String :=
  Sha256.digestHex (Text.asBytes "CORDON_ENCLAVE_v2" ++ Text.asBytes cordonVersion ++
    Text.asBytes service.nodeId)

/-- The signer measurement. -/
def configuredSigner : String :=
  Sha256.digestHex (Text.asBytes "CORDON_SIGNER_v2" ++ Text.asBytes service.nodeId)

/-- Take the measurements, by the configured source. -/
def takeMeasurements : Except CordonError MeasuredService :=
  match service.source with
  | .tpm2 => do
    let measurements ← service.readTpmMeasurements X platform
    return { service with
      measurements, mrenclave := service.configuredEnclave, mrsigner := service.configuredSigner }
  | .sevSnp => do
    let mrenclave ← service.probeConfidentialVm platform
    return { service with
      measurements := .empty, mrenclave, mrsigner := service.configuredSigner }
  | .nitroEnclave => .error (.configError
      ("attestation.measurement_source = \"nitro_enclave\" cannot be used to run a node. Cordon " ++
        "verifies Nitro attestation documents (a client can check one against a pinned AWS " ++
        "root), but it cannot produce one: the Nitro Security Module is reached by ioctl from " ++
        "inside an enclave, and an enclave has no persistent storage for the audit log and no " ++
        "network interface for the API. See the \"What is not implemented\" section of " ++
        "SECURITY.md. Use \"sev_snp\" for a confidential VM, or \"tpm2\" for a TPM-attested host."))
  | .softwareMeasurement => .ok { service with
      measurements := service.deriveSoftwareMeasurements
      mrenclave := service.configuredEnclave, mrsigner := service.configuredSigner }

/-- `AttestationService::new`: build the service and take the initial measurements. -/
def new (gate : AttestationService) (nodeId deploymentId : String) (minimumSecurityVersion : ℕ)
    (source : MeasurementSource) : Except CordonError MeasuredService :=
  takeMeasurements X
    { gate, nodeId, deploymentId, minimumSecurityVersion, source
      measurements := .empty, mrenclave := "", mrsigner := "" } platform

/-! ### Reporting -/

/-- The certificates a host cached beside a report. The table parses whatever it holds. -/
def cachedCertificates (certificates : Bytes) : ConfidentialVm.CachedCertificates :=
  (ConfidentialVm.parseCertificateTable certificates).getD ⟨none, none, none⟩

/-- The TPM evidence of a report: key, message, signature and certificates. -/
def quoteFields (challenge : Bytes) : Except CordonError TpmQuoteResult :=
  match service.source with
  | .tpm2 => (platform.tpm.quote platform.base64Encode challenge).mapError fun e ↦
      .attestationInvalid ("TPM quote failed: " ++ platform.displayError e ++
        ". The node cannot produce a hardware attestation report.")
  -- a confidential VM's evidence is its own report, which is not a TPM quote
  | .sevSnp | .nitroEnclave => .ok ⟨"", "", "", []⟩
  | .softwareMeasurement => .ok ⟨"", "", "",
      [platform.base64Encode (Text.asBytes "NO_HARDWARE_ATTESTATION_KEY")]⟩

/-- `request_sev_snp_evidence`: ask the platform for a report committing to `challenge`, with
whatever certificates it cached, and the launch measurement in it. The root that the host cached is
not passed on. -/
def requestSevSnpEvidence (challenge : Bytes) : Except CordonError (PlatformEvidence × String) := do
  let (bytes, certificates) ← platform.requestReport challenge
  let parsed ← (SevSnp.SevSnpReport.parse bytes).mapError fun e ↦ .attestationInvalid e.display
  let cached := cachedCertificates certificates
  return (.sevSnp (platform.base64Encode bytes) ((cached.vcek.map platform.base64Encode).getD "")
    (cached.ask.toList.map platform.base64Encode), parsed.measurementHex)

/-- The evidence of a confidential VM, and the enclave measurement the report states. -/
def platformEvidence (challenge : Bytes) : Except CordonError (PlatformEvidence × String) :=
  match service.source with
  | .sevSnp => requestSevSnpEvidence platform challenge
  | _ => .ok (.none, service.mrenclave)

/-- The report of the given evidence. -/
def assemble (nowMillis : ℤ) (clientNonce nodeId enclaveSigningKeyHex : String)
    (quote : TpmQuoteResult) (evidence : PlatformEvidence) (mrenclave : String) :
    AttestationReport :=
  let tpmQuote : TpmQuote :=
    { pcrValues := service.measurements
      aikPublicKeyHex := quote.aikPublicKeyHex
      attestMessageHex := quote.messageHex
      quoteSignatureHex := quote.signatureHex
      nonce := clientNonce
      timestampMillis := nowMillis
      ekCertChain := quote.ekCertChain }
  let teeQuote : TeeQuote :=
    { teeType := service.gate.preferred.teeType
      mrenclave
      mrsigner := service.mrsigner
      isvSvn := service.minimumSecurityVersion
      rawReportB64 := platform.base64Encode (Text.asBytes
        ("CORDON_MEASUREMENT_REPORT:" ++ nodeId ++ ":" ++ mrenclave))
      reportSignatureB64 := ""
      measurementSource := service.source.display
      enclaveSigningKeyHex }
  ⟨⟨tpmQuote, teeQuote, evidence, computeCombinedHash tpmQuote teeQuote evidence⟩⟩

/-- `generate_attestation`: generate a report bound to a client-supplied nonce and to the node's
response-signing key. A confidential VM's launch measurement becomes the service's own. -/
def generateAttestation (nowMillis : ℤ) (clientNonce nodeId enclaveSigningKeyHex : String) :
    MeasuredService × Except CordonError AttestationReport :=
  if (Text.asBytes clientNonce).length < 16 then
    (service, .error (.validationFailed ("attestation nonce must be at least 16 characters so a " ++
      "report cannot be replayed against a guessable challenge")))
  else
    let challenge := attestationChallenge enclaveSigningKeyHex clientNonce
    match service.quoteFields platform challenge with
    | .error e => (service, .error e)
    | .ok quote =>
      match service.platformEvidence platform challenge with
      | .error e => (service, .error e)
      | .ok (evidence, mrenclave) =>
        ({ service with mrenclave },
          .ok (service.assemble platform nowMillis clientNonce nodeId enclaveSigningKeyHex quote
            evidence mrenclave))

/-! ### What the gate makes of a report -/

/-- The operator's pins are the node's own measurements. -/
structure PinsMet (pinned : ExpectedMeasurements) : Prop where
  nonempty : pinned.isEmpty = false
  pcrs : ∀ pin ∈ pinned.pcrValues.entries, pin ∈ service.measurements.entries
  mrenclave : pinned.mrenclave = "" ∨ service.mrenclave = pinned.mrenclave
  mrsigner : pinned.mrsigner = "" ∨ service.mrsigner = pinned.mrsigner
  isvSvn : pinned.minIsvSvn ≤ service.minimumSecurityVersion

variable {X service platform} {pinned : ExpectedMeasurements} {nowMs : ℕ} {now nowMillis : ℤ}
  {clientNonce clientId nodeId key : String} {verified : VerifiedAttestation}

/-- The gate lets a report pass that verifies, with its evidence if the mode requires it. -/
theorem verifyForClient_eq_ok_iff {gate : AttestationService} {report : AttestationReport}
    (hpinned : gate.pinnedMeasurements = some pinned) :
    (gate.verifyForClient X nowMs now report clientNonce clientId).2 = .ok verified ↔
      report.verify X nowMs pinned clientNonce = .ok verified ∧
        (gate.config.requiresHardwareTee = true →
          verified.platformQuote.isHardwareVerified = true) := by
  rw [AttestationService.verifyForClient, hpinned]
  dsimp only
  rcases report.verify X nowMs pinned clientNonce with e | established
  · simp
  · dsimp only
    split_ifs with hquote
    · obtain ⟨hhardware, hnot⟩ := (Bool.and_eq_true_iff.1 hquote)
      refine iff_of_false (by simp) ?_
      rintro ⟨heq, himp⟩
      obtain rfl := Except.ok.inj heq
      simp [himp hhardware] at hnot
    · constructor
      · intro h
        obtain rfl := Except.ok.inj h
        exact ⟨rfl, fun hhardware ↦ by simpa [hhardware] using hquote⟩
      · rintro ⟨h, -⟩
        rw [Except.ok.inj h]

/-- A report's own fields match the pins when the measurements it was made of do. -/
theorem fieldsMatch_assemble_iff (hpinned : service.gate.pinnedMeasurements = some pinned)
    (quote : TpmQuoteResult) (evidence : PlatformEvidence) (mrenclave : String) :
    (service.assemble platform nowMillis clientNonce nodeId key quote evidence
      mrenclave).FieldsMatch pinned clientNonce ↔ { service with mrenclave }.PinsMet pinned := by
  have htee : service.gate.preferred.teeType = pinned.teeType := by
    rw [AttestationService.pinnedMeasurements] at hpinned
    split at hpinned
    · cases hpinned
    · split_ifs at hpinned
      cases hpinned
      rfl
  exact ⟨fun h ↦ ⟨h.pinned, h.pcrs, h.mrenclave, h.mrsigner, h.isvSvn⟩,
    fun h ↦ ⟨h.nonempty, rfl, rfl, h.pcrs, h.mrenclave, h.mrsigner, h.isvSvn, htee⟩⟩

/-- A report for a nonce that is long enough, once its evidence is there. -/
theorem generateAttestation_eq {quote : TpmQuoteResult} {evidence : PlatformEvidence}
    {mrenclave : String} (hnonce : 16 ≤ (Text.asBytes clientNonce).length)
    (hquote : service.quoteFields platform (attestationChallenge key clientNonce) = .ok quote)
    (hevidence : service.platformEvidence platform (attestationChallenge key clientNonce) =
      .ok (evidence, mrenclave)) :
    service.generateAttestation platform nowMillis clientNonce nodeId key =
      ({ service with mrenclave }, .ok (service.assemble platform nowMillis clientNonce nodeId key
        quote evidence mrenclave)) := by
  rw [generateAttestation, if_neg (Nat.not_lt.2 hnonce)]
  simp only [hquote, hevidence]

end MeasuredService

/-! ### A TPM -/

/-- The TPM answers one challenge as TPMs do: what it signs holds the challenge and the digest of
its registers as they are, and the signature verifies under the attestation key it reports. -/
structure TpmTools.QuotesGenuinely (X : PlatformEngine) (tools : TpmTools) (challenge : Bytes)
    (current : UInt8 → Bytes) (message : Bytes) (attest : Tpm2.AttestQuote) : Prop where
  parse : Tpm2.AttestQuote.parse message = .ok attest
  extraData : attest.extraData = challenge
  isGenuine : attest.IsGenuine PcrAllocations.all current
  signed : ∃ akCtx akPublic signature sig ak, tools.akContextPath = some akCtx ∧
    tools.readAkPublic akCtx = some akPublic ∧
    tools.runQuote akCtx (pcrSelection PcrAllocations.all) (Text.hexEncode challenge) =
      .ok (message, signature) ∧
    Tpm2.TpmSignature.parse signature = .ok sig ∧ Tpm2.TpmPublicKey.parse akPublic = .ok ak ∧
    (ak.verify X message sig).isOk = true

/-- A concatenation of values of known lengths determines them. -/
theorem eq_of_flatMap_eq {l : List UInt8} {f g : UInt8 → Bytes}
    (hlen : ∀ i ∈ l, (f i).length = (g i).length) (h : l.flatMap f = l.flatMap g) :
    ∀ i ∈ l, f i = g i := by
  induction l with
  | nil => simp
  | cons a l ih =>
    rw [List.flatMap_cons, List.flatMap_cons] at h
    obtain ⟨hhead, htail⟩ := List.append_inj h (hlen a List.mem_cons_self)
    intro i hi
    rcases List.mem_cons.1 hi with rfl | hi
    · exact hhead
    · exact ih (fun j hj ↦ hlen j (List.mem_cons_of_mem _ hj)) htail i hi

/-- A TPM quote that is there is verified or refused. -/
theorem AttestationReport.isHardwareVerified_of_verifyTpmQuote {X : PlatformEngine}
    {report : AttestationReport} {clientNonce : String} {status : PlatformQuoteStatus}
    {binds : Bool} (hevidence : report.combined.tpmQuote.hasHardwareEvidence = true)
    (h : report.verifyTpmQuote X clientNonce = .ok (status, binds)) :
    status.isHardwareVerified = true := by
  rw [verifyTpmQuote, if_neg (by simp [hevidence])] at h
  simp only [Except.bind_eq_ok, Except.pure_eq_ok, Prod.mk.injEq] at h
  obtain ⟨-, -, -, -, -, -, verification, -, -, -, -, -, -, -, rfl, -⟩ := h
  rfl

namespace MeasuredService

section Tpm

variable {X : PlatformEngine} {gate : AttestationService} {service : MeasuredService}
  {started platform : Platform} {nodeId deploymentId : String} {svn : ℕ} {boot : UInt8 → Bytes}

/-- What the tools printed is read as the registers as they are. -/
theorem readPcrs_eq (hlower : Text.LowersCase X.toLowercase)
    (hboot : started.tpm.pcrread (pcrSelection PcrAllocations.all) =
      .ok (pcrreadText PcrAllocations.all boot))
    (hlen : ∀ i ∈ PcrAllocations.all, (boot i).length = 32) :
    ∃ measurements, started.tpm.readPcrs X PcrAllocations.all = .ok measurements ∧
      measurements.entries = PcrAllocations.all.map fun i ↦ (i, pcrText (boot i)) := by
  refine ⟨parsePcrread X (pcrreadText PcrAllocations.all boot), ?_, ?_⟩
  · rw [TpmTools.readPcrs, if_neg (by decide), hboot]
    rfl
  · exact parsePcrread_pcrreadText hlower PcrAllocations.pairwise_all fun i hi hnil ↦ by
      simpa [hnil] using hlen i hi

/-- A TPM that answers is enough for a node to start. -/
theorem exists_new_tpm2 (hlower : Text.LowersCase X.toLowercase)
    (havailable : started.tpm.isAvailable = true)
    (hboot : started.tpm.pcrread (pcrSelection PcrAllocations.all) =
      .ok (pcrreadText PcrAllocations.all boot))
    (hlen : ∀ i ∈ PcrAllocations.all, (boot i).length = 32) :
    ∃ service, new X started gate nodeId deploymentId svn .tpm2 = .ok service := by
  obtain ⟨measurements, hread, hentries⟩ := readPcrs_eq hlower hboot hlen
  have hsome : measurements.isEmpty = false := by
    rw [IndexMap.isEmpty, hentries]
    rfl
  have hmeasured : ∀ service : MeasuredService,
      service.readTpmMeasurements X started = .ok measurements := by
    intro service
    rw [readTpmMeasurements, havailable, hread]
    simp only [Bool.not_true, Bool.false_eq_true, if_false, Except.mapError, Except.ok_bind, hsome]
    rfl
  rw [new, takeMeasurements]
  dsimp only
  rw [hmeasured, Except.ok_bind]
  exact ⟨_, rfl⟩

/-- **A TPM node starts** with the registers as they are then. -/
theorem measurements_of_new (hlower : Text.LowersCase X.toLowercase)
    (hboot : started.tpm.pcrread (pcrSelection PcrAllocations.all) =
      .ok (pcrreadText PcrAllocations.all boot))
    (hlen : ∀ i ∈ PcrAllocations.all, (boot i).length = 32)
    (hnew : new X started gate nodeId deploymentId svn .tpm2 = .ok service) :
    service.gate = gate ∧ service.source = .tpm2 ∧
      service.measurements.entries = PcrAllocations.all.map fun i ↦ (i, pcrText (boot i)) := by
  obtain ⟨read, hread, hentries⟩ := readPcrs_eq hlower hboot hlen
  rw [new, takeMeasurements] at hnew
  simp only [Except.bind_eq_ok, Except.pure_eq_ok] at hnew
  obtain ⟨measurements, hmeasured, rfl⟩ := hnew
  refine ⟨rfl, rfl, ?_⟩
  rw [readTpmMeasurements, hread] at hmeasured
  split_ifs at hmeasured
  simp only [Except.bind_eq_ok, Except.mapError_eq_ok] at hmeasured
  obtain ⟨pcrs, hpcrs, hmeasured⟩ := hmeasured
  obtain rfl := Except.ok.inj hpcrs
  split_ifs at hmeasured
  · cases hmeasured
  · rw [← Except.pure_eq_ok.1 hmeasured]
    exact hentries

variable {quote : TpmQuoteResult} {evidence : PlatformEvidence} {mrenclave : String}
  {nowMillis now : ℤ} {nowMs : ℕ} {clientNonce clientId key : String}
  (hentries : service.measurements.entries =
    PcrAllocations.all.map fun i ↦ (i, pcrText (boot i)))

include hentries

/-- A report claims the registers as they were at the start. -/
theorem claimed_assemble :
    (service.assemble platform nowMillis clientNonce nodeId key quote evidence
        mrenclave).claimedIndices = PcrAllocations.all ∧
      (service.assemble platform nowMillis clientNonce nodeId key quote evidence
        mrenclave).claimedBytes = PcrAllocations.all.flatMap boot := by
  have hraw : rawValuesInIndexOrder service.measurements =
      PcrAllocations.all.map fun i ↦ (i, boot i) := by
    rw [rawValuesInIndexOrder, hentries, List.filterMap_map, ← List.filterMap_eq_map]
    refine List.filterMap_congr fun i _ ↦ ?_
    show (pcrBytes (pcrText (boot i))).map _ = _
    rw [pcrBytes_pcrText]
    rfl
  constructor
  · show (rawValuesInIndexOrder service.measurements).map Prod.fst = _
    rw [hraw, List.map_map]
    exact List.map_id _
  · show ((rawValuesInIndexOrder service.measurements).map Prod.snd).flatten = _
    rw [hraw, List.map_map, List.flatMap_def]
    rfl

/-- **When a report with a genuine quote verifies**: the pins are the registers as they were, and
the registers are as they were. -/
theorem verify_assemble_iff {pinned : ExpectedMeasurements} {current : UInt8 → Bytes}
    {message signature akPublic : Bytes} {chain : List String} {attest : Tpm2.AttestQuote}
    {sig : Tpm2.TpmSignature} {ak : Tpm2.TpmPublicKey} {verified : VerifiedAttestation}
    (hpinned : service.gate.pinnedMeasurements = some pinned)
    (hsource : service.source = .tpm2)
    (hparse : Tpm2.AttestQuote.parse message = .ok attest)
    (hextra : attest.extraData = attestationChallenge key clientNonce)
    (hgenuine : attest.IsGenuine PcrAllocations.all current)
    (hsig : Tpm2.TpmSignature.parse signature = .ok sig)
    (hak : Tpm2.TpmPublicKey.parse akPublic = .ok ak)
    (hverify : (ak.verify X message sig).isOk = true)
    (hlen : ∀ i ∈ PcrAllocations.all, (boot i).length = 32)
    (hfree : Sha256.CollisionFreeOn
      {PcrAllocations.all.flatMap boot, PcrAllocations.all.flatMap current}) :
    (service.assemble platform nowMillis clientNonce nodeId key
        ⟨Text.hexEncode message, Text.hexEncode signature, Text.hexEncode akPublic, chain⟩ .none
        service.mrenclave).verify X nowMs pinned clientNonce = .ok verified ↔
      (service.PinsMet pinned ∧ ∀ i ∈ PcrAllocations.all, current i = boot i) ∧
        verified = ⟨.verified false, !key.isEmpty, MeasurementSource.tpm2.display⟩ := by
  have hmessage : message ≠ [] := by
    rintro rfl
    cases hparse
  have hsignature : signature ≠ [] := by
    rintro rfl
    cases hsig
  have hakPublic : akPublic ≠ [] := by
    rintro rfl
    cases hak
  set report := service.assemble platform nowMillis clientNonce nodeId key
    ⟨Text.hexEncode message, Text.hexEncode signature, Text.hexEncode akPublic, chain⟩ .none
    service.mrenclave with hreport
  obtain ⟨hindices, hbytes⟩ : report.claimedIndices = PcrAllocations.all ∧
    report.claimedBytes = PcrAllocations.all.flatMap boot := claimed_assemble hentries
  have hfields : report.FieldsMatch pinned clientNonce ↔ service.PinsMet pinned :=
    fieldsMatch_assemble_iff hpinned _ _ _
  have hevidence : report.combined.tpmQuote.hasHardwareEvidence = true := by
    show (!(Text.hexEncode message).isEmpty && !(Text.hexEncode signature).isEmpty &&
      !(Text.hexEncode akPublic).isEmpty) = true
    simp [Text.isEmpty_hexEncode, hmessage, hsignature, hakPublic]
  have hsourceText : report.combined.teeQuote.measurementSource =
      MeasurementSource.tpm2.display := congrArg MeasurementSource.display hsource
  rw [AttestationReport.verify_eq_ok_iff, hfields, hsourceText]
  have hquote : ∀ status binds, report.verifyPlatformQuote X nowMs pinned clientNonce =
      .ok (status, binds) ↔ (∀ i ∈ PcrAllocations.all, current i = boot i) ∧
        status = .verified false ∧ binds = !key.isEmpty := by
    intro status binds
    have hpath : report.verifyPlatformQuote X nowMs pinned clientNonce =
      report.verifyTpmQuote X clientNonce := rfl
    rw [hpath]
    constructor
    · intro h
      obtain ⟨-, hstatus, hbinds, message', attest', holds⟩ :=
        AttestationReport.verifyTpmQuote_iff.1 ⟨h, report.isHardwareVerified_of_verifyTpmQuote
          hevidence h⟩
      obtain rfl : message = message' := Option.some.inj
        ((Text.hexDecode_hexEncode message).symm.trans holds.message_eq)
      obtain rfl : attest = attest' := Except.ok.inj (hparse.symm.trans holds.parse)
      obtain ⟨-, hcurrent⟩ := holds.claimed_eq hgenuine (by rwa [hbytes])
      have hsame := eq_of_flatMap_eq
        (fun i hi ↦ (hlen i hi).trans (hgenuine.length_pcr i hi).symm) (hbytes.symm.trans hcurrent)
      exact ⟨fun i hi ↦ (hsame i hi).symm, hstatus, hbinds⟩
    · rintro ⟨hsame, rfl, rfl⟩
      have hcurrent : PcrAllocations.all.flatMap boot = PcrAllocations.all.flatMap current :=
        List.flatMap_congr fun i hi ↦ (hsame i hi).symm
      have hselection : attest.sha256Indices = PcrAllocations.all := by
        simp [Tpm2.AttestQuote.sha256Indices, hgenuine.pcrSelections]
      have holds : report.QuoteHolds X clientNonce message attest :=
        { message_eq := Text.hexDecode_hexEncode message
          parse := hparse
          signed := ⟨signature, akPublic, sig, ak, Text.hexDecode_hexEncode signature,
            Text.hexDecode_hexEncode akPublic, hsig, hak, hverify⟩
          extraData := hextra
          indices := hindices.trans hselection.symm
          digest := by rw [hbytes, hcurrent, hgenuine.pcrDigest] }
      exact (AttestationReport.verifyTpmQuote_iff.2
        ⟨hevidence, rfl, rfl, message, attest, holds⟩).1
  simp only [hquote]
  constructor
  · rintro ⟨hpins, status, binds, ⟨hsame, rfl, rfl⟩, rfl⟩
    exact ⟨⟨hpins, hsame⟩, rfl⟩
  · rintro ⟨⟨hpins, hsame⟩, rfl⟩
    exact ⟨hpins, _, _, ⟨hsame, rfl, rfl⟩, rfl⟩

end Tpm

end MeasuredService

/-! ### A node to try things on -/

namespace SampleNode

/-- A verifier's nonce. -/
def nonce : String := "nonce-0123456789"

/-- What the TPM signed, over every allocated register. -/
def attest : Tpm2.AttestQuote where
  qualifiedSigner := []
  extraData := attestationChallenge SampleQuote.signingKey nonce
  clock := 0
  resetCount := 0
  restartCount := 0
  clockSafe := true
  firmwareVersion := 0
  pcrSelections := [⟨Tpm2.tpmAlgSha256, PcrAllocations.all⟩]
  pcrDigest := Sha256.digest (PcrAllocations.all.flatMap SampleQuote.pcr)

/-- The bytes of what the TPM signed. -/
def message : Bytes :=
  Bytes.beBytes 4 Tpm2.tpmGeneratedValue ++ Bytes.beBytes 2 Tpm2.tpmStAttestQuote ++
    SampleQuote.sized attest.qualifiedSigner ++ SampleQuote.sized attest.extraData ++
    Bytes.beBytes 8 attest.clock ++ Bytes.beBytes 4 attest.resetCount ++
    Bytes.beBytes 4 attest.restartCount ++ [1] ++ Bytes.beBytes 8 attest.firmwareVersion ++
    Bytes.beBytes 4 1 ++ Bytes.beBytes 2 Tpm2.tpmAlgSha256 ++ [3, 0xbf, 0x7b, 0] ++
    SampleQuote.sized attest.pcrDigest

/-- The `x` coordinate of the attestation key. -/
def pointX : Bytes :=
  Bytes.beBytes 32 0x8e6dfb5562b9db86ee5db693656404c14b789960b8f746682920fc33f95603da

/-- The `y` coordinate of the attestation key. -/
def pointY : Bytes :=
  Bytes.beBytes 32 0x8b4ce844b72486e20f47ffdfda378419b462a6a4159ed48d547cf58d2562cd2d

/-- The first half of the signature. -/
def signatureR : Bytes :=
  Bytes.beBytes 32 0x0c4eec1f3a2309a79428516109345f89bb5be3c370701c62c193357e9d795812

/-- The second half of the signature. -/
def signatureS : Bytes :=
  Bytes.beBytes 32 0xc7e956073748e8e74ac9c47ffdd831fa6cb31fe0fe588453b72ce86c418895d2

/-- The signature, as a TPM writes it. -/
def signature : Bytes :=
  Bytes.beBytes 2 Tpm2.tpmAlgEcdsa ++ Bytes.beBytes 2 Tpm2.tpmAlgSha256 ++
    SampleQuote.sized signatureR ++ SampleQuote.sized signatureS

/-- The attestation key, as a TPM writes it. -/
def akPublic : Bytes :=
  Bytes.beBytes 2 Tpm2.tpmAlgEcc ++ Bytes.beBytes 2 Tpm2.tpmAlgSha256 ++
    Bytes.beBytes 4 0x00050072 ++ SampleQuote.sized [] ++ Bytes.beBytes 2 Tpm2.tpmAlgNull ++
    Bytes.beBytes 2 Tpm2.tpmAlgEcdsa ++ Bytes.beBytes 2 Tpm2.tpmAlgSha256 ++ Bytes.beBytes 2 3 ++
    Bytes.beBytes 2 Tpm2.tpmAlgNull ++ SampleQuote.sized pointX ++ SampleQuote.sized pointY

/-- The engine as far as this node needs it: the signature above is the one that holds, and there is
no certificate. -/
def engine : PlatformEngine where
  verifyKey alg key msg sig := decide (alg = .ecdsaP256Sha256Fixed ∧
    key = 0x04 :: pointX ++ pointY ∧ msg = message ∧ sig = signatureR ++ signatureS)
  verifyRsa _ _ _ _ _ := false
  Certificate := Unit
  fromDer _ := .error "NomError(Eof)"
  issuer _ := []
  subject _ := []
  tbsCertificate _ := []
  signatureValue _ := []
  signatureAlgorithm _ := ""
  subjectPublicKey _ := []
  isValid _ := false
  base64Decode s := match Base64.decode s with
    | some bytes => .ok bytes
    | none => .error "Invalid padding"
  hexError _ := "Odd number of digits"
  toLowercase s := String.ofList (s.toList.map Char.toLower)

/-- A machine with a TPM, whose registers are filled with their index. -/
def platform : Platform where
  tpm :=
    { pcrread _ := .ok (pcrreadText PcrAllocations.all SampleQuote.pcr)
      akContextPath := some "/etc/cordon/ak.ctx"
      runQuote _ _ _ := .ok (message, signature)
      readAkPublic _ := some akPublic
      ekCertificate := none }
  tsmAvailable := false
  tsmReport _ := .error (.attestationInvalid "the platform returned an empty attestation report")
  base64Encode := Base64.encode
  displayError _ := ""

/-- A gate that pins one register, in a mode that requires hardware or does not. -/
def gate (mode : DeploymentMode) (pinned : ExpectedMeasurementsConfig) : AttestationService :=
  .new ⟨mode, true, 24, 100, 1000, 100, .none⟩ .simulation (some pinned)

/-- A pin on one register. -/
def pinRegister : ExpectedMeasurementsConfig :=
  ⟨.single 1 (pcrText (SampleQuote.pcr 1)), none, none, 0, none, none⟩

/-- A pin on the signer. -/
def pinSigner : ExpectedMeasurementsConfig :=
  ⟨.empty, none, some (Sha256.digestHex (Text.asBytes "CORDON_SIGNER_v2" ++ Text.asBytes "node-1")),
    0, none, none⟩

theorem length_nonce : 16 ≤ (Text.asBytes nonce).length :=
  Nat.le_of_ble_eq_true rfl

/-- The quote, its signature and the key parse to what they were made of. -/
theorem parse_quote : Tpm2.AttestQuote.parse message = .ok attest ∧
    Tpm2.TpmSignature.parse signature =
      .ok ⟨Tpm2.tpmAlgEcdsa, Tpm2.tpmAlgSha256, signatureR ++ signatureS⟩ ∧
    Tpm2.TpmPublicKey.parse akPublic = .ok (.ecP256 (0x04 :: pointX ++ pointY)) := by
  decide +kernel

theorem quotesGenuinely :
    platform.tpm.QuotesGenuinely engine (attestationChallenge SampleQuote.signingKey nonce)
      SampleQuote.pcr message attest where
  parse := parse_quote.1
  extraData := rfl
  isGenuine := ⟨by decide, fun _ _ ↦ List.length_replicate, rfl, rfl⟩
  signed := ⟨_, akPublic, signature, _, _, rfl, rfl, rfl, parse_quote.2.1, parse_quote.2.2,
    by simp [Tpm2.TpmPublicKey.verify, Tpm2.signatureVerdict, engine, Except.ensure, Except.isOk,
      Except.toBool]⟩

end SampleNode

/-- **A TPM node attests as long as nothing it measures has moved.** Its report passes the gate for
the nonce it was made for exactly when the operator's pins are what the node read when it started
and every measured register still holds what it held then; what the gate then establishes is a
hardware quote that binds the node's key. -/
theorem tpm_node_attests_iff {X : PlatformEngine} {gate : AttestationService}
    {service : MeasuredService} {started platform : Platform} {nodeId deploymentId : String}
    {svn nowMs : ℕ} {nowMillis now : ℤ} {boot current : UInt8 → Bytes}
    {pinned : ExpectedMeasurements} {clientNonce clientId key : String} {message : Bytes}
    {attest : Tpm2.AttestQuote} (hlower : Text.LowersCase X.toLowercase)
    (hboot : started.tpm.pcrread (pcrSelection PcrAllocations.all) =
      .ok (pcrreadText PcrAllocations.all boot))
    (hlen : ∀ i ∈ PcrAllocations.all, (boot i).length = 32)
    (hnew : MeasuredService.new X started gate nodeId deploymentId svn .tpm2 = .ok service)
    (hpinned : gate.pinnedMeasurements = some pinned)
    (hnonce : 16 ≤ (Text.asBytes clientNonce).length)
    (hquote : platform.tpm.QuotesGenuinely X (attestationChallenge key clientNonce) current message
      attest)
    (hfree : Sha256.CollisionFreeOn
      {PcrAllocations.all.flatMap boot, PcrAllocations.all.flatMap current}) :
    ∃ report, service.generateAttestation platform nowMillis clientNonce nodeId key =
        (service, .ok report) ∧
      ∀ verified, (gate.verifyForClient X nowMs now report clientNonce clientId).2 =
          .ok verified ↔
        (service.PinsMet pinned ∧ ∀ i ∈ PcrAllocations.all, current i = boot i) ∧
          verified = ⟨.verified false, !key.isEmpty, "tpm2"⟩ := by
  obtain ⟨rfl, hsource, hentries⟩ := MeasuredService.measurements_of_new hlower hboot hlen hnew
  obtain ⟨akCtx, akPublic, signature, sig, ak, hctx, hpublic, hrun, hsig, hak, hverify⟩ :=
    hquote.signed
  have hfields : service.quoteFields platform (attestationChallenge key clientNonce) =
      .ok ⟨Text.hexEncode message, Text.hexEncode signature, Text.hexEncode akPublic,
        (platform.tpm.ekCertificate.map fun der ↦ [platform.base64Encode der]).getD []⟩ := by
    simp only [MeasuredService.quoteFields, hsource, TpmTools.quote, hctx, hrun, hpublic,
      Except.ok_bind]
    rfl
  have hevidence : service.platformEvidence platform (attestationChallenge key clientNonce) =
      .ok (.none, service.mrenclave) := by
    simp only [MeasuredService.platformEvidence, hsource]
  refine ⟨_, MeasuredService.generateAttestation_eq hnonce hfields hevidence, fun verified ↦ ?_⟩
  rw [MeasuredService.verifyForClient_eq_ok_iff hpinned,
    MeasuredService.verify_assemble_iff hentries hpinned hsource hquote.parse hquote.extraData
      hquote.isGenuine hsig hak hverify hlen hfree]
  constructor
  · rintro ⟨h, -⟩
    exact h
  · rintro ⟨h, rfl⟩
    exact ⟨⟨h, rfl⟩, fun _ ↦ rfl⟩

/-- A node whose registers have not moved since it started passes a gate that requires hardware. -/
theorem tpm_node_attests_iff_sample : ∃ service report,
    MeasuredService.new SampleNode.engine SampleNode.platform
        (SampleNode.gate .vault SampleNode.pinRegister) "node-1" "deployment-1" 0 .tpm2 =
      .ok service ∧
    service.generateAttestation SampleNode.platform 0 SampleNode.nonce "node-1"
      SampleQuote.signingKey = (service, .ok report) ∧
    ((SampleNode.gate .vault SampleNode.pinRegister).verifyForClient SampleNode.engine 0 0 report
      SampleNode.nonce "client-1").2 = .ok ⟨.verified false, true, "tpm2"⟩ := by
  have hlen : ∀ i ∈ PcrAllocations.all, (SampleQuote.pcr i).length = 32 :=
    fun _ _ ↦ List.length_replicate
  obtain ⟨service, hnew⟩ : ∃ service,
      MeasuredService.new SampleNode.engine SampleNode.platform
        (SampleNode.gate .vault SampleNode.pinRegister) "node-1" "deployment-1" 0 .tpm2 =
      .ok service := MeasuredService.exists_new_tpm2 Text.lowersCase_map rfl rfl hlen
  obtain ⟨-, -, hentries⟩ := MeasuredService.measurements_of_new Text.lowersCase_map rfl hlen hnew
  obtain ⟨report, hreport, hverified⟩ := @tpm_node_attests_iff _ _ service _ _ _ _ 0 0 0 0 _ _ _ _
    "client-1" _ _ _ Text.lowersCase_map rfl hlen hnew rfl SampleNode.length_nonce
    SampleNode.quotesGenuinely
    (Sha256.collisionFreeOn_pair_self _)
  refine ⟨service, report, hnew, hreport, (hverified _).2 ⟨⟨⟨rfl, ?_, .inl rfl, .inl rfl,
    Nat.zero_le _⟩, fun _ _ ↦ rfl⟩, ?_⟩⟩
  · intro pin hpin
    obtain rfl := List.mem_singleton.1 hpin
    rw [hentries]
    exact List.mem_map.2 ⟨1, by decide, rfl⟩
  · decide

/-! ### A node that measures itself in software -/

/-- **A software measurement opens no gate that hardware has to open.** The report passes exactly
when the pins are the node's own measurements and the mode does not require hardware, and it
establishes no quote. -/
theorem software_node_attests_iff {X : PlatformEngine} {gate : AttestationService}
    {service : MeasuredService} {started platform : Platform} {nodeId deploymentId : String}
    {svn nowMs : ℕ} {nowMillis now : ℤ} {pinned : ExpectedMeasurements}
    {clientNonce clientId key : String}
    (hnew : MeasuredService.new X started gate nodeId deploymentId svn .softwareMeasurement =
      .ok service)
    (hpinned : gate.pinnedMeasurements = some pinned)
    (hnonce : 16 ≤ (Text.asBytes clientNonce).length) :
    ∃ report, service.generateAttestation platform nowMillis clientNonce nodeId key =
        (service, .ok report) ∧
      ∀ verified, (gate.verifyForClient X nowMs now report clientNonce clientId).2 =
          .ok verified ↔
        gate.config.requiresHardwareTee = false ∧ service.PinsMet pinned ∧
          verified = ⟨.absent, false, "software_measurement"⟩ := by
  obtain rfl := Except.ok.inj hnew
  refine ⟨_, MeasuredService.generateAttestation_eq hnonce rfl rfl, fun verified ↦ ?_⟩
  rw [MeasuredService.verifyForClient_eq_ok_iff hpinned, AttestationReport.verify_eq_ok_iff]
  set report := MeasuredService.assemble _ platform nowMillis clientNonce nodeId key _ .none _
  have hquote : report.verifyPlatformQuote X nowMs pinned clientNonce = .ok (.absent, false) := rfl
  simp only [hquote, Except.ok.injEq, Prod.mk.injEq]
  constructor
  · rintro ⟨⟨hfields, status, binds, ⟨rfl, rfl⟩, rfl⟩, hhardware⟩
    refine ⟨?_, (MeasuredService.fieldsMatch_assemble_iff hpinned _ _ _).1 hfields, rfl⟩
    by_contra hrequired
    cases hhardware (by simpa using hrequired)
  · rintro ⟨hrequired, hpins, rfl⟩
    refine ⟨⟨(MeasuredService.fieldsMatch_assemble_iff hpinned _ _ _).2 hpins, _, _, ⟨rfl, rfl⟩,
      rfl⟩, fun hhardware ↦ ?_⟩
    rw [hrequired] at hhardware
    cases hhardware

/-- In a mode that does not require hardware, a node that measures itself passes. -/
theorem software_node_attests_iff_sample : ∃ service report,
    MeasuredService.new SampleNode.engine SampleNode.platform
        (SampleNode.gate .light SampleNode.pinSigner) "node-1" "deployment-1" 0
        .softwareMeasurement = .ok service ∧
    service.generateAttestation SampleNode.platform 0 SampleNode.nonce "node-1"
      SampleQuote.signingKey = (service, .ok report) ∧
    ((SampleNode.gate .light SampleNode.pinSigner).verifyForClient SampleNode.engine 0 0 report
      SampleNode.nonce "client-1").2 = .ok ⟨.absent, false, "software_measurement"⟩ := by
  obtain ⟨report, hreport, hverified⟩ := @software_node_attests_iff SampleNode.engine
    (SampleNode.gate .light SampleNode.pinSigner) _ SampleNode.platform SampleNode.platform "node-1"
    "deployment-1" 0 0 0 0 _ _ "client-1" SampleQuote.signingKey rfl rfl
    SampleNode.length_nonce
  exact ⟨_, report, rfl, hreport, (hverified _).2 ⟨rfl, ⟨by decide +kernel, fun pin hpin ↦
    (by cases hpin), .inl rfl, .inr rfl, Nat.zero_le _⟩, rfl⟩⟩

/-! ### A confidential VM -/

section SevSnp

variable {X : PlatformEngine} {platform : Platform} {bytes certificates : Bytes}
  {pinned : ExpectedMeasurements} {nowMs : ℕ} {clientNonce key : String}

/-- A report of full size is what the platform answers the data with, padded. -/
theorem Platform.requestReport_eq {reportData : Bytes} (hlen : reportData.length = 32)
    (havailable : platform.tsmAvailable = true)
    (hreport : platform.tsmReport (reportData ++ List.replicate 32 0) = .ok (bytes, certificates))
    (hsize : SevSnp.reportSize ≤ bytes.length) :
    platform.requestReport reportData = .ok (bytes, certificates) := by
  have hsome : bytes.isEmpty = false := by
    rw [List.isEmpty_eq_false_iff_exists_mem]
    exact List.exists_mem_of_length_pos ((by decide : 0 < SevSnp.reportSize).trans_le hsize)
  rw [requestReport, if_neg (by rw [hlen]; decide), if_neg (by simp [havailable]), hlen]
  show (platform.tsmReport (reportData ++ List.replicate 32 0) >>= _) = _
  rw [hreport, Except.ok_bind]
  simp only [hsome, Bool.false_eq_true, if_false]
  rfl

/-- A platform whose reports are of full size, for a guest that cannot be debugged, is enough for a
node to start. -/
theorem MeasuredService.exists_new_sevSnp {gate : AttestationService} {nodeId deploymentId : String}
    {svn : ℕ} (havailable : platform.tsmAvailable = true)
    (hreport : platform.tsmReport (List.replicate 64 0) = .ok (bytes, certificates))
    (hsize : SevSnp.reportSize ≤ bytes.length)
    (hdebug : (SevSnp.SevSnpReport.ofBytes bytes).policy.debugAllowed = false) :
    ∃ service, MeasuredService.new X platform gate nodeId deploymentId svn .sevSnp =
      .ok service := by
  have hparse : SevSnp.SevSnpReport.parse bytes = .ok (.ofBytes bytes) :=
    if_neg (Nat.not_lt.2 hsize)
  have hprobe : ∀ service : MeasuredService, service.probeConfidentialVm platform =
      .ok (SevSnp.SevSnpReport.ofBytes bytes).measurementHex := by
    intro service
    rw [probeConfidentialVm, if_neg (by simp [havailable]),
      Platform.requestReport_eq List.length_replicate havailable hreport hsize]
    show ((SevSnp.SevSnpReport.parse bytes).mapError _ >>= _) = _
    rw [hparse]
    show (if _ then _ else _) = _
    rw [hdebug]
    rfl
  rw [new, takeMeasurements]
  dsimp only
  rw [hprobe, Except.ok_bind]
  exact ⟨_, rfl⟩

/-- The evidence that is made of such a report. -/
theorem MeasuredService.requestSevSnpEvidence_eq (havailable : platform.tsmAvailable = true)
    (hreport : platform.tsmReport (confidentialVmChallenge key clientNonce) =
      .ok (bytes, certificates)) (hsize : SevSnp.reportSize ≤ bytes.length) :
    MeasuredService.requestSevSnpEvidence platform (attestationChallenge key clientNonce) =
      .ok (.sevSnp (platform.base64Encode bytes)
          (((MeasuredService.cachedCertificates certificates).vcek.map
            platform.base64Encode).getD "")
          ((MeasuredService.cachedCertificates certificates).ask.toList.map platform.base64Encode),
        (SevSnp.SevSnpReport.ofBytes bytes).measurementHex) := by
  have hparse : SevSnp.SevSnpReport.parse bytes = .ok (.ofBytes bytes) :=
    if_neg (Nat.not_lt.2 hsize)
  rw [confidentialVmChallenge_eq] at hreport
  rw [MeasuredService.requestSevSnpEvidence, Platform.requestReport_eq
    (length_attestationChallenge key clientNonce) havailable hreport hsize, Except.ok_bind]
  show ((SevSnp.SevSnpReport.parse bytes).mapError _ >>= _) = _
  rw [hparse]
  rfl

/-- **When such evidence verifies**: the report passes, under the root the operator pinned behind
the certificate the host cached. -/
theorem AttestationReport.verifySevSnpEvidence_encoded_iff {report : AttestationReport}
    {encode : Bytes → String} (hdecode : ∀ bs, X.base64Decode (encode bs) = .ok bs)
    (hempty : X.base64Decode "" = .ok []) {vcek ask : Option Bytes} {status : PlatformQuoteStatus}
    {binds : Bool} :
    report.verifySevSnpEvidence X pinned clientNonce (encode bytes) ((vcek.map encode).getD "")
        (ask.toList.map encode) = .ok (status, binds) ↔
      (∃ pins root parsed verification, pinned.sevSnp = some pins ∧
        X.base64Decode pins.amdRootDerB64 = .ok root ∧
        SevSnp.verifyReport X bytes (vcek.getD []) (ask.toList ++ [root])
            (confidentialVmChallenge report.signingKeyHex clientNonce)
            (sevSnpExpectations pinned pins) = .ok (parsed, verification) ∧
        verification.firstFailure = none) ∧
      status = .verified true ∧ binds = !report.signingKeyHex.isEmpty := by
  have hvcek : X.base64Decode ((vcek.map encode).getD "") = .ok (vcek.getD []) := by
    rcases vcek with - | vcek
    · exact hempty
    · exact hdecode vcek
  have hchain : (ask.toList.map encode).mapM (decodeBase64 X "certificate in the VCEK chain") =
      .ok ask.toList := by
    rcases ask with - | ask
    · rfl
    · show ([encode ask].mapM _) = _
      rw [List.mapM_cons, List.mapM_nil, decodeBase64_eq_ok.2 (hdecode ask)]
      rfl
  rw [verifySevSnpEvidence]
  rcases pinned.sevSnp with - | pins
  · simp
  · simp only [Except.bind_eq_ok, decodeBase64_eq_ok, hdecode, hvcek, hchain, Except.ok.injEq,
      exists_eq_left', Prod.exists, Option.some.injEq]
    constructor
    · rintro ⟨root, hroot, parsed, verification, hverify, h⟩
      rcases hfailure : verification.firstFailure with - | failure
      · rw [hfailure] at h
        obtain ⟨rfl, rfl⟩ := Prod.mk.inj (Except.pure_eq_ok.1 h)
        exact ⟨⟨pins, root, parsed, verification, rfl, hroot, hverify, hfailure⟩, rfl, rfl⟩
      · rw [hfailure] at h
        cases h
    · rintro ⟨⟨_, root, parsed, verification, rfl, hroot, hverify, hfailure⟩, rfl, rfl⟩
      refine ⟨root, hroot, parsed, verification, hverify, ?_⟩
      rw [hfailure]
      rfl

end SevSnp

/-- **A confidential VM attests by what its platform says.** The report passes exactly when the
operator's pins are the node's measurements, the launch measurement of the platform's report among
them, and that report itself passes, for the challenge in its full width, under the root the
operator pinned behind whatever the host cached. -/
theorem sevSnp_node_attests_iff {X : PlatformEngine} {gate : AttestationService}
    {service : MeasuredService} {started platform : Platform} {nodeId deploymentId : String}
    {svn nowMs : ℕ} {nowMillis now : ℤ} {pinned : ExpectedMeasurements}
    {clientNonce clientId key : String} {bytes certificates : Bytes}
    (hdecode : ∀ bs, X.base64Decode (platform.base64Encode bs) = .ok bs)
    (hempty : X.base64Decode "" = .ok [])
    (hnew : MeasuredService.new X started gate nodeId deploymentId svn .sevSnp = .ok service)
    (hpinned : gate.pinnedMeasurements = some pinned)
    (hnonce : 16 ≤ (Text.asBytes clientNonce).length) (havailable : platform.tsmAvailable = true)
    (hreport : platform.tsmReport (confidentialVmChallenge key clientNonce) =
      .ok (bytes, certificates))
    (hsize : SevSnp.reportSize ≤ bytes.length) :
    ∃ report, service.generateAttestation platform nowMillis clientNonce nodeId key =
        ({ service with mrenclave := (SevSnp.SevSnpReport.ofBytes bytes).measurementHex },
          .ok report) ∧
      ∀ verified, (gate.verifyForClient X nowMs now report clientNonce clientId).2 =
          .ok verified ↔
        { service with
            mrenclave := (SevSnp.SevSnpReport.ofBytes bytes).measurementHex }.PinsMet pinned ∧
          (∃ pins root parsed verification, pinned.sevSnp = some pins ∧
            X.base64Decode pins.amdRootDerB64 = .ok root ∧
            SevSnp.verifyReport X bytes
                ((MeasuredService.cachedCertificates certificates).vcek.getD [])
                ((MeasuredService.cachedCertificates certificates).ask.toList ++ [root])
                (confidentialVmChallenge key clientNonce)
                (AttestationReport.sevSnpExpectations pinned pins) =
              .ok (parsed, verification) ∧
            verification.firstFailure = none) ∧
          verified = ⟨.verified true, !key.isEmpty, "sev_snp"⟩ := by
  rw [MeasuredService.new, MeasuredService.takeMeasurements] at hnew
  simp only [Except.bind_eq_ok, Except.pure_eq_ok] at hnew
  obtain ⟨mrenclave, -, rfl⟩ := hnew
  have hevidence := MeasuredService.requestSevSnpEvidence_eq havailable hreport hsize
  refine ⟨_, MeasuredService.generateAttestation_eq hnonce rfl hevidence, fun verified ↦ ?_⟩
  rw [MeasuredService.verifyForClient_eq_ok_iff hpinned, AttestationReport.verify_eq_ok_iff,
    MeasuredService.fieldsMatch_assemble_iff hpinned]
  set report := MeasuredService.assemble _ platform nowMillis clientNonce nodeId key _ _ _
  have hquote : ∀ status binds, report.verifyPlatformQuote X nowMs pinned clientNonce =
      .ok (status, binds) ↔ _ := fun status binds ↦
    @AttestationReport.verifySevSnpEvidence_encoded_iff _ _ _ _ report _ hdecode hempty _ _ _ _
  simp only [hquote]
  constructor
  · rintro ⟨⟨hpins, status, binds, ⟨hpasses, rfl, rfl⟩, rfl⟩, -⟩
    exact ⟨hpins, hpasses, rfl⟩
  · rintro ⟨hpins, hpasses, rfl⟩
    exact ⟨⟨hpins, _, _, ⟨hpasses, rfl, rfl⟩, rfl⟩, fun _ ↦ rfl⟩

/-! ### A confidential VM to try things on -/

namespace SampleVm

/-- The root: a certificate for a P-384 key, signed by that key. -/
def root : Bytes :=
  [0x308201443081cb020101300a06082a8648ce3d040303300f310d300b06035504030c04726f6f7430,
    0x20170d3230303130313030303030305a180f32313230303130313030303030305a300f310d300b06,
    0x035504030c04726f6f743076301006072a8648ce3d020106052b8104002203620004d4be9580224f,
    0x915bbc18d7587603c92f2bb5e386914dd9d40704a8bae632ab8b2454ca2b73e4521dea0d84fafc65,
    0x71cf47c81cc81d03f5bd09f0f5f2176fbe6f895896dc3c269d289f6a86e4d890c5a1293fab9a9956,
    0xfb991a3afe7cdbf6c6e9300a06082a8648ce3d040303036800306502304988d84790ddb1e4768612,
    0xa750ec005c4a28020d65a8f59d283191c88c778a88cf68fcb846af367834209e5eec1ec5e1023100,
    0xcfe82f9fd912fa0766ad0807ef36b6b43302176b3701b2d1537d3f486ecc6f17e99c05892b09377c].flatMap
      (Bytes.beBytes 40) ++ Bytes.beBytes 8 0x9c9b1c9a56f82ea0

/-- The chip's certificate, signed by the root. -/
def vcek : Bytes :=
  [0x308201443081cb020102300a06082a8648ce3d040303300f310d300b06035504030c04726f6f7430,
    0x20170d3230303130313030303030305a180f32313230303130313030303030305a300f310d300b06,
    0x035504030c047663656b3076301006072a8648ce3d020106052b81040022036200048fa3260ee54d,
    0x2c21513bc4f966dc65f817d42965e64cdefca2eee5720a01561b24e4fccdea6b893e008461d382f4,
    0x60ed75ca9554c854197db8ec8fe30456c7c853c4a830eff69588f42f601f1a8c75ac57cde5bbe083,
    0xbb66585fe841993d0f48300a06082a8648ce3d04030303680030650230495452fbaeaaf5a5da94ec,
    0x6d100653cd236a7e893ba218a78a2165ef411371b47a14c13a5765a9cf849abdfe7db9b813023100,
    0xf3fd2477da1ad1a33ec5fb70eb9b0f1eb7fc19a2331f9bc43209f7c190ac1cd7f89fb83f89b62ccb].flatMap
      (Bytes.beBytes 40) ++ Bytes.beBytes 8 0x342a346aa9a7cb9d

/-- The challenge that the platform signs. -/
def challenge : Bytes :=
  confidentialVmChallenge SampleQuote.signingKey SampleNode.nonce

/-- The part of a report that is signed: version 2, multithreading allowed and debugging not, ECDSA
on P-384, what the guest supplied, the launch measurement and the patch levels. -/
def signed (inblob : Bytes) : Bytes :=
  Bytes.leBytes 8 2 ++ Bytes.leBytes 8 0x30000 ++ List.replicate 36 0 ++ Bytes.leBytes 4 1 ++
    List.replicate 24 0 ++ inblob ++ List.replicate 48 0xAB ++ List.replicate 192 0 ++
    [3, 0, 0, 0, 0, 0, 8, 115] ++ List.replicate 280 0

/-- The first half of the signature. -/
def signatureR : ℕ :=
  0x6e1d10baf456d3d73ea8f7f6e54bb82e39da46fb3253d0fd7c6276614e60219d67ea8e830d822c6a0702dcf4ea67f6f4

/-- The second half of the signature. -/
def signatureS : ℕ :=
  0xe44265e757cc6511b1aeaf0deb16091fa281645dafdc3cc60158318e72d4f5eb85904d372eb7eec108466b172c8b2006

/-- A report with the signature, which is the one for the challenge. -/
def report (inblob : Bytes) : Bytes :=
  signed inblob ++ Bytes.leBytes 72 signatureR ++ Bytes.leBytes 72 signatureS ++
    List.replicate 368 0

/-- The engine as far as this machine needs it: the two certificates parse, and the root's signature
under the chip's certificate and the chip's under the report are those that hold. -/
def engine : PlatformEngine where
  verifyKey alg key message sig := decide (
    alg = .ecdsaP384Sha384Asn1 ∧ key = (root.drop 113).take 97 ∧
        message = (vcek.drop 4).take 206 ∧ sig = vcek.drop 225 ∨
      alg = .ecdsaP384Sha384Fixed ∧ key = (vcek.drop 113).take 97 ∧ message = signed challenge ∧
        sig = Bytes.beBytes 48 signatureR ++ Bytes.beBytes 48 signatureS)
  verifyRsa _ _ _ _ _ := false
  Certificate := Bytes
  fromDer der := if der = root ∨ der = vcek then .ok der else .error "NomError(Eof)"
  issuer cert := (cert.drop 22).take 17
  subject cert := (cert.drop 73).take 17
  tbsCertificate cert := (cert.drop 4).take 206
  signatureValue cert := cert.drop 225
  signatureAlgorithm _ := "1.2.840.10045.4.3.3"
  subjectPublicKey cert := (cert.drop 113).take 97
  isValid _ := true
  base64Decode := SampleNode.engine.base64Decode
  hexError := SampleNode.engine.hexError
  toLowercase := SampleNode.engine.toLowercase

/-- A guest whose host has cached the chip's certificate. -/
def platform : Platform :=
  { SampleNode.platform with
    tsmAvailable := true
    tsmReport inblob := .ok (report inblob,
      ConfidentialVm.buildTable [(ConfidentialVm.guidVcek, vcek)]) }

/-- The root, and the patch levels of the platform as the least that will do. -/
def sevSnpPins : SevSnpPins :=
  ⟨Base64.encode root, 3, 0, 8, 115, true, 0⟩

/-- A pin on the launch measurement, under the root. -/
def pins : ExpectedMeasurementsConfig :=
  ⟨.empty, some (Text.hexEncode (List.replicate 48 0xAB)), none, 0, some sevSnpPins, none⟩

theorem base64Decode_encode (bytes : Bytes) :
    engine.base64Decode (platform.base64Encode bytes) = .ok bytes := by
  show (match Base64.decode (Base64.encode bytes) with
    | some bytes => Except.ok bytes
    | none => .error "Invalid padding") = _
  rw [Base64.decode_encode]

theorem base64Decode_root : engine.base64Decode sevSnpPins.amdRootDerB64 = .ok root := by
  have hencoded : sevSnpPins.amdRootDerB64 = platform.base64Encode root := rfl
  rw [hencoded, base64Decode_encode]

theorem length_report {inblob : Bytes} (h : inblob.length = 64) :
    SevSnp.reportSize ≤ (report inblob).length := by
  simp only [report, signed, List.length_append, List.length_replicate, Bytes.length_leBytes, h]
  decide

theorem cachedCertificates_table : MeasuredService.cachedCertificates
    (ConfidentialVm.buildTable [(ConfidentialVm.guidVcek, vcek)]) = ⟨some vcek, none, none⟩ := by
  decide +kernel

/-- The report passes every check of the verifier. -/
theorem verifyReport_report : ∃ parsed verification,
    SevSnp.verifyReport engine (report challenge) vcek [root] challenge
        ⟨Text.hexEncode (List.replicate 48 0xAB), ⟨3, 0, 8, 115, 0⟩, true, 0⟩ =
      .ok (parsed, verification) ∧ verification.firstFailure = none := by
  have hverified : (SevSnp.verifyReport engine (report challenge) vcek [root] challenge
      ⟨Text.hexEncode (List.replicate 48 0xAB), ⟨3, 0, 8, 115, 0⟩, true, 0⟩).toOption.map
        (fun r ↦ r.2.firstFailure) = some none := by
    decide +kernel
  rcases hreport : SevSnp.verifyReport engine (report challenge) vcek [root] challenge
      ⟨Text.hexEncode (List.replicate 48 0xAB), ⟨3, 0, 8, 115, 0⟩, true, 0⟩ with
    e | ⟨parsed, verification⟩
  · rw [hreport] at hverified
    cases hverified
  · rw [hreport] at hverified
    exact ⟨parsed, verification, rfl, Option.some.inj hverified⟩

end SampleVm

/-- A guest whose chip is vouched for by the pinned root passes a gate that requires hardware. -/
theorem sevSnp_node_attests_iff_sample : ∃ service attested report,
    MeasuredService.new SampleVm.engine SampleVm.platform
        (SampleNode.gate .vault SampleVm.pins) "node-1" "deployment-1" 0 .sevSnp = .ok service ∧
    service.generateAttestation SampleVm.platform 0 SampleNode.nonce "node-1"
      SampleQuote.signingKey = (attested, .ok report) ∧
    ((SampleNode.gate .vault SampleVm.pins).verifyForClient SampleVm.engine 0 0 report
      SampleNode.nonce "client-1").2 = .ok ⟨.verified true, true, "sev_snp"⟩ := by
  obtain ⟨service, hnew⟩ : ∃ service, MeasuredService.new SampleVm.engine SampleVm.platform
      (SampleNode.gate .vault SampleVm.pins) "node-1" "deployment-1" 0 .sevSnp = .ok service :=
    MeasuredService.exists_new_sevSnp rfl rfl (SampleVm.length_report List.length_replicate)
      (by decide +kernel)
  have hlength : SampleVm.challenge.length = 64 := by
    rw [SampleVm.challenge, confidentialVmChallenge_eq, List.length_append, List.length_replicate,
      length_attestationChallenge]
  have hmeasurement : (SevSnp.SevSnpReport.ofBytes
      (SampleVm.report SampleVm.challenge)).measurementHex =
        Text.hexEncode (List.replicate 48 0xAB) := by
    decide +kernel
  obtain ⟨report, hreport, hverified⟩ := @sevSnp_node_attests_iff _ _ service _ SampleVm.platform
    _ _ _ 0 0 0 _ _ "client-1" _ _ _ SampleVm.base64Decode_encode rfl hnew rfl
    SampleNode.length_nonce rfl rfl (SampleVm.length_report hlength)
  refine ⟨service, _, report, hnew, hreport, (hverified _).2 ⟨⟨?_, ?_, .inr hmeasurement, .inl rfl,
    Nat.zero_le _⟩, ?_, ?_⟩⟩
  · decide +kernel
  · intro pin hpin
    cases hpin
  · obtain ⟨parsed, verification, hparsed, hpasses⟩ := SampleVm.verifyReport_report
    refine ⟨SampleVm.sevSnpPins, SampleVm.root, parsed, verification, rfl,
      SampleVm.base64Decode_root, ?_, hpasses⟩
    rw [SampleVm.cachedCertificates_table]
    exact hparsed
  · decide

end Cordon
