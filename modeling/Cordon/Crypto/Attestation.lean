import Cordon.Crypto.Canonical
import Cordon.Crypto.Nitro
import Cordon.Crypto.SevSnp
import Cordon.Crypto.Tpm2

/-!
# Attestation reports and the client-side verifier

A report carries measurements and whatever hardware evidence the platform can produce.
`AttestationReport.verify` checks, in this order, that something is pinned at all, that the report's
digest matches its contents, that it answers the verifier's nonce, that its **own fields** equal the
pinned measurements, and then the hardware evidence: a confidential-VM report or document if there
is one, the TPM quote otherwise.

`verify_eq_ok_iff` says what a report that verifies has passed. What the three kinds of evidence
have passed is said once each, by `verifyTpmQuote_iff`, `verifySevSnpEvidence_passes` and
`verifyNitroEvidence_passes`; everything proved about attestation is read off these.

The first and the second are equivalences, the other two say what a pass commits to, since a report
and a document have checks of their own (`Crypto.SevSnp`, `Crypto.Nitro`). All four are inversions
of the code and ask nothing of a digest or a signature; assumptions about those stand where the
results about attestation are.
-/

namespace Cordon

/-! ### PCR values -/

/-- A snapshot of PCR values: index to value, conventionally `sha256:` and hexadecimal. -/
abbrev TpmPcrSet : Type :=
  IndexMap String

/-- The hexadecimal part of a PCR value. -/
def pcrHexPart (value : String) : List Char :=
  if "sha256:".toList <+: value.toList then value.toList.drop 7 else value.toList

/-- The bytes a PCR value denotes, if it denotes any. -/
def pcrBytes (value : String) : Option Bytes :=
  Text.hexDecodeChars (pcrHexPart value)

/-- A PCR value as reports write it. -/
def pcrText (bytes : Bytes) : String :=
  "sha256:" ++ Text.hexEncode bytes

@[simp]
theorem pcrBytes_pcrText (bytes : Bytes) : pcrBytes (pcrText bytes) = some bytes := by
  have hlist : (pcrText bytes).toList = "sha256:".toList ++ Text.hexChars bytes := by
    rw [pcrText, String.toList_append, Text.toList_hexEncode]
  rw [pcrBytes, pcrHexPart, hlist, if_pos (List.prefix_append _ _)]
  exact Text.hexDecodeChars_hexChars bytes

/-- `raw_values_in_index_order`: the raw PCR bytes, ascending by index. A value that is not
decodable is skipped. -/
def rawValuesInIndexOrder (set : TpmPcrSet) : List (UInt8 × Bytes) :=
  set.entries.filterMap fun entry ↦ (pcrBytes entry.2).map fun bytes ↦ (entry.1, bytes)

/-- The loop of `TpmPcrSet::verify_against`. -/
def verifyPcrs (actual : TpmPcrSet) : List (UInt8 × String) → Except CryptoError Unit
  | [] => .ok ()
  | (index, expectedVal) :: rest =>
    match actual.get index with
    | none => .error (.attestationFailed
        ("PCR[" ++ toString index ++ "] missing from attestation report"))
    | some actualVal => do
      Except.ensure (ctEq (Text.asBytes actualVal) (Text.asBytes expectedVal))
        (.pcrMismatch index expectedVal actualVal)
      verifyPcrs actual rest

/-- `TpmPcrSet::verify_against`. -/
def verifyAgainst (actual expected : TpmPcrSet) : Except CryptoError Unit :=
  verifyPcrs actual expected.entries

theorem mem_rawValuesInIndexOrder {set : TpmPcrSet} {index : UInt8} {value : Bytes} :
    (index, value) ∈ rawValuesInIndexOrder set ↔
      ∃ text, (index, text) ∈ set.entries ∧ pcrBytes text = some value := by
  simp only [rawValuesInIndexOrder, List.mem_filterMap, Option.map_eq_some_iff, Prod.exists,
    Prod.mk.injEq]
  constructor
  · rintro ⟨_, text, hmem, _, hbytes, rfl, rfl⟩
    exact ⟨text, hmem, hbytes⟩
  · rintro ⟨text, hmem, hbytes⟩
    exact ⟨index, text, hmem, value, hbytes, rfl, rfl⟩

/-- The claimed values are in the order of their indices. -/
theorem pairwise_rawValuesInIndexOrder (set : TpmPcrSet) :
    (rawValuesInIndexOrder set).Pairwise fun a b ↦ a.1 < b.1 :=
  set.pairwise_filterMap pcrBytes

/-- The loop succeeds when every pin is an entry of the set. -/
theorem verifyPcrs_eq_ok_iff {actual : TpmPcrSet} {pins : List (UInt8 × String)} {u : Unit} :
    verifyPcrs actual pins = .ok u ↔ ∀ pin ∈ pins, pin ∈ actual.entries := by
  induction pins with
  | nil => simp [verifyPcrs]
  | cons pin pins ih =>
    obtain ⟨index, expectedVal⟩ := pin
    rw [List.forall_mem_cons, ← IndexMap.get_eq_some_iff, verifyPcrs]
    rcases actual.get index with - | actualVal
    · simp
    · rw [Except.bind_eq_ok, ← ih]
      simp [ctEq_asBytes_iff]

/-- The canonical bytes of a PCR set. -/
def canonicalPcrSet (set : TpmPcrSet) : Bytes :=
  Canonical.new "pcr_set" ++ Canonical.writeU32 set.entries.length ++
    set.entries.flatMap fun (index, value) ↦ Canonical.writeU8 index ++ Canonical.writeStr value

/-! ### The parts of a report -/

/-- A signed snapshot of PCR values. -/
structure TpmQuote where
  pcrValues : TpmPcrSet
  /-- Attestation key public area, in hexadecimal. -/
  aikPublicKeyHex : String
  /-- The structure the TPM signed, in hexadecimal. Empty on a software measurement. -/
  attestMessageHex : String
  quoteSignatureHex : String
  /-- The challenge this quote answers. -/
  nonce : String
  timestampMillis : ℤ
  ekCertChain : List String

/-- Whether this quote carries hardware evidence that can be checked. -/
def TpmQuote.hasHardwareEvidence (quote : TpmQuote) : Bool :=
  !quote.attestMessageHex.isEmpty && !quote.quoteSignatureHex.isEmpty &&
    !quote.aikPublicKeyHex.isEmpty

/-- The canonical bytes of a quote. -/
def TpmQuote.canonical (quote : TpmQuote) : Bytes :=
  Canonical.new "tpm_quote" ++ Bytes.blob (canonicalPcrSet quote.pcrValues) ++
    Canonical.writeStr quote.aikPublicKeyHex ++ Canonical.writeStr quote.attestMessageHex ++
    Canonical.writeStr quote.quoteSignatureHex ++ Canonical.writeStr quote.nonce ++
    Canonical.writeI64 quote.timestampMillis ++ Canonical.writeU32 quote.ekCertChain.length ++
    quote.ekCertChain.flatMap Canonical.writeStr

/-- TEE technology type. -/
inductive TeeType
  | intelSgxV2
  | amdSevSnp
  | armTrustZone
  | simulation
  deriving DecidableEq, Repr

/-- The displayed form of a TEE type. -/
def TeeType.display : TeeType → String
  | .intelSgxV2 => "intel_sgx_v2"
  | .amdSevSnp => "amd_sev_snp"
  | .armTrustZone => "arm_trustzone"
  | .simulation => "simulation"

/-- An enclave measurement, as the report states it. -/
structure TeeQuote where
  teeType : TeeType
  mrenclave : String
  mrsigner : String
  isvSvn : ℕ
  rawReportB64 : String
  reportSignatureB64 : String
  measurementSource : String
  /-- The node's response-signing public key, in hexadecimal. -/
  enclaveSigningKeyHex : String
  deriving DecidableEq, Repr

/-- The canonical bytes of an enclave measurement. -/
def TeeQuote.canonical (quote : TeeQuote) : Bytes :=
  Canonical.new "tee_quote" ++ Canonical.writeStr quote.teeType.display ++
    Canonical.writeStr quote.mrenclave ++ Canonical.writeStr quote.mrsigner ++
    Canonical.writeU16 quote.isvSvn ++ Canonical.writeStr quote.rawReportB64 ++
    Canonical.writeStr quote.reportSignatureB64 ++ Canonical.writeStr quote.measurementSource ++
    Canonical.writeStr quote.enclaveSigningKeyHex

/-- Hardware evidence from a confidential-computing platform. -/
inductive PlatformEvidence
  | none
  /-- AMD SEV-SNP: report, VCEK certificate and intermediates, in Base64. -/
  | sevSnp (reportB64 vcekDerB64 : String) (certificateChainB64 : List String)
  /-- AWS Nitro Enclaves: the attestation document, in Base64. -/
  | nitro (documentB64 : String)
  deriving DecidableEq, Repr

/-- A short name for the kind of evidence. -/
def PlatformEvidence.kind : PlatformEvidence → String
  | .none => "none"
  | .sevSnp _ _ _ => "amd_sev_snp"
  | .nitro _ => "aws_nitro_enclaves"

/-- The canonical bytes of platform evidence. -/
def PlatformEvidence.canonical (evidence : PlatformEvidence) : Bytes :=
  Canonical.new "platform_evidence" ++ Canonical.writeStr evidence.kind ++
    match evidence with
    | .none => []
    | .sevSnp reportB64 vcekDerB64 certificateChainB64 =>
      Canonical.writeStr reportB64 ++ Canonical.writeStr vcekDerB64 ++
        Canonical.writeU32 certificateChainB64.length ++
        certificateChainB64.flatMap Canonical.writeStr
    | .nitro documentB64 => Canonical.writeStr documentB64

/-- `compute_combined_hash`: the canonical digest over a report's contents. -/
def computeCombinedHash (tpmQuote : TpmQuote) (teeQuote : TeeQuote)
    (platformEvidence : PlatformEvidence) : String :=
  Sha256.digestHex (Canonical.new "combined_attestation" ++ Bytes.blob tpmQuote.canonical ++
    Bytes.blob teeQuote.canonical ++ Bytes.blob platformEvidence.canonical)

/-- Measurements plus whatever hardware evidence the platform can produce. -/
structure CombinedAttestation where
  tpmQuote : TpmQuote
  teeQuote : TeeQuote
  platformEvidence : PlatformEvidence
  combinedHash : String

/-- Attestation report for client verification. -/
structure AttestationReport where
  combined : CombinedAttestation

/-! ### What an operator pins -/

/-- Measurements and policy an operator pins for a SEV-SNP deployment. -/
structure SevSnpPins where
  amdRootDerB64 : String
  minBootloaderSvn : ℕ
  minTeeSvn : ℕ
  minSnpSvn : ℕ
  minMicrocodeSvn : ℕ
  refuseDebuggableGuest : Bool
  expectedVmpl : ℕ
  deriving DecidableEq, Repr

/-- Measurements an operator pins for an AWS Nitro Enclaves deployment. -/
structure NitroPins where
  rootDerB64 : String
  pcrValues : IndexMap String
  maxAgeSeconds : ℕ

/-- Measurements pinned at deployment time. An empty field means "not pinned". -/
structure ExpectedMeasurements where
  pcrValues : TpmPcrSet
  mrenclave : String
  mrsigner : String
  minIsvSvn : ℕ
  teeType : TeeType
  sevSnp : Option SevSnpPins
  nitro : Option NitroPins

/-- Whether this expectation set pins no measurement at all. -/
def ExpectedMeasurements.isEmpty (expected : ExpectedMeasurements) : Bool :=
  expected.pcrValues.isEmpty && expected.mrenclave.isEmpty && expected.mrsigner.isEmpty &&
    expected.nitro.all fun pins ↦ pins.pcrValues.isEmpty

/-- What a platform quote established. -/
inductive PlatformQuoteStatus
  | absent
  /-- Whether the attestation key was shown to belong to genuine hardware. -/
  | verified (akIsTrusted : Bool)
  deriving DecidableEq, Repr

/-- Whether a hardware quote was present and verified. -/
def PlatformQuoteStatus.isHardwareVerified : PlatformQuoteStatus → Bool
  | .verified _ => true
  | .absent => false

/-- What verifying a report established. -/
structure VerifiedAttestation where
  platformQuote : PlatformQuoteStatus
  /-- Whether the quote committed to the node's response-signing key. -/
  bindsSigningKey : Bool
  measurementSource : String
  deriving DecidableEq, Repr

/-- Whether this amounts to a hardware root of trust. -/
def VerifiedAttestation.isHardwareRooted (v : VerifiedAttestation) : Bool :=
  v.platformQuote.isHardwareVerified && v.bindsSigningKey

/-! ### Verification -/

namespace AttestationReport

variable (X : PlatformEngine) (report : AttestationReport)

/-- The node's response-signing key, as the report states it. -/
def signingKeyHex : String :=
  report.combined.teeQuote.enclaveSigningKeyHex

/-- Verify the report's digest matches its contents. -/
def verifyCombinedHash : Except CryptoError Unit :=
  let computed := computeCombinedHash report.combined.tpmQuote report.combined.teeQuote
    report.combined.platformEvidence
  Except.ensure (ctEq (Text.asBytes computed) (Text.asBytes report.combined.combinedHash))
    (.attestationFailed ("the report's combined hash does not match its contents; it has been " ++
      "altered in transit"))

/-- Hexadecimal, with the words of the caller in front of the error. -/
def decodeHex (what value : String) : Except CryptoError Bytes :=
  match Text.hexDecode value with
  | some bytes => .ok bytes
  | none => .error (.attestationFailed ("malformed " ++ what ++ ": " ++ X.hexError value))

/-- Base64, with the words of the caller in front of the error. -/
def decodeBase64 (what value : String) : Except CryptoError Bytes :=
  match X.base64Decode value with
  | .ok bytes => .ok bytes
  | .error e => .error (.attestationFailed ("malformed " ++ what ++ ": " ++ e))

/-- Check the TPM quote, if the report carries one. -/
def verifyTpmQuote (clientNonce : String) : Except CryptoError (PlatformQuoteStatus × Bool) :=
  let quote := report.combined.tpmQuote
  if !quote.hasHardwareEvidence then .ok (.absent, false)
  else do
    let attestMessage ← decodeHex X "quote message" quote.attestMessageHex
    let signature ← decodeHex X "quote signature" quote.quoteSignatureHex
    let akPublic ← decodeHex X "attestation key" quote.aikPublicKeyHex
    -- the challenge is recomputed from the report's key: a quote over another key does not match
    let challenge := attestationChallenge report.signingKeyHex clientNonce
    let verification ← Tpm2.verifyQuote X attestMessage signature akPublic challenge
      (rawValuesInIndexOrder quote.pcrValues)
    Except.ensure verification.signatureValid
      (.attestationFailed ("the platform quote's signature does not verify under the " ++
        "attestation key the report supplied"))
    Except.ensure verification.pcrDigestMatches
      (.attestationFailed ("the PCR values in this report do not hash to the digest the " ++
        "platform signed. The measurements shown are not the ones that were quoted."))
    Except.ensure verification.nonceMatches
      (.attestationFailed ("the platform quote does not commit to this verifier's challenge. " ++
        "Either it is a replay of an earlier quote, or it does not bind this node's " ++
        "response-signing key."))
    return (.verified verification.akIsTrusted, !report.signingKeyHex.isEmpty)

/-- What a SEV-SNP report is checked against. -/
def sevSnpExpectations (expected : ExpectedMeasurements) (pins : SevSnpPins) :
    SevSnp.SevSnpExpectations where
  measurement := expected.mrenclave
  minimumTcb :=
    ⟨pins.minBootloaderSvn, pins.minTeeSvn, pins.minSnpSvn, pins.minMicrocodeSvn, 0⟩
  refuseDebuggableGuest := pins.refuseDebuggableGuest
  expectedVmpl := pins.expectedVmpl

/-- Check a SEV-SNP report. The root that the verifier pinned ends the chain. -/
def verifySevSnpEvidence (expected : ExpectedMeasurements) (clientNonce : String)
    (reportB64 vcekDerB64 : String) (certificateChainB64 : List String) :
    Except CryptoError (PlatformQuoteStatus × Bool) :=
  match expected.sevSnp with
  | none => .error (.attestationFailed
      ("this report carries SEV-SNP evidence, but no AMD root certificate is " ++
        "pinned to check it against. A chain is only worth walking if its root " ++
        "is one you already trust; pin it under [attestation.expected.sev_snp]."))
  | some pins => do
    let reportBytes ← decodeBase64 X "SEV-SNP report" reportB64
    let vcekDer ← decodeBase64 X "VCEK certificate" vcekDerB64
    let rootDer ← decodeBase64 X "pinned AMD root certificate" pins.amdRootDerB64
    let chain ← certificateChainB64.mapM (decodeBase64 X "certificate in the VCEK chain")
    let challenge := confidentialVmChallenge report.signingKeyHex clientNonce
    let (_, verification) ← SevSnp.verifyReport X reportBytes vcekDer (chain ++ [rootDer])
      challenge (sevSnpExpectations expected pins)
    match verification.firstFailure with
    | some failure =>
      throw (.attestationFailed ("SEV-SNP attestation failed: " ++ failure))
    | none => return (.verified true, !report.signingKeyHex.isEmpty)

/-- Check an AWS Nitro Enclaves attestation document. -/
def verifyNitroEvidence (nowMs : ℕ) (expected : ExpectedMeasurements) (clientNonce : String)
    (documentB64 : String) : Except CryptoError (PlatformQuoteStatus × Bool) :=
  match expected.nitro with
  | none => .error (.attestationFailed
      ("this report carries Nitro Enclaves evidence, but no AWS Nitro root            " ++
        "      certificate is pinned to check it against. A chain is only worth        " ++
        "          walking if its root is one you already trust; pin it under          " ++
        "        [attestation.expected.nitro]."))
  | some pins => do
    let document ← decodeBase64 X "Nitro attestation document" documentB64
    let rootDer ← decodeBase64 X "pinned AWS Nitro root certificate" pins.rootDerB64
    let challenge := attestationChallenge report.signingKeyHex clientNonce
    let (_, verification) ← Nitro.verifyDocument X document challenge
      ⟨rootDer, pins.pcrValues, pins.maxAgeSeconds⟩ nowMs
    match verification.firstFailure with
    | some failure =>
      throw (.attestationFailed ("Nitro Enclaves attestation failed: " ++ failure))
    | none => return (.verified true, !report.signingKeyHex.isEmpty)

/-- Check whatever hardware evidence the report carries. Confidential-VM evidence takes
precedence. -/
def verifyPlatformQuote (nowMs : ℕ) (expected : ExpectedMeasurements) (clientNonce : String) :
    Except CryptoError (PlatformQuoteStatus × Bool) :=
  match report.combined.platformEvidence with
  | .sevSnp reportB64 vcekDerB64 certificateChainB64 =>
    report.verifySevSnpEvidence X expected clientNonce reportB64 vcekDerB64 certificateChainB64
  | .nitro documentB64 => report.verifyNitroEvidence X nowMs expected clientNonce documentB64
  | .none => report.verifyTpmQuote X clientNonce

/-- `AttestationReport::verify`: verify this report against operator-pinned measurements. -/
def verify (nowMs : ℕ) (expected : ExpectedMeasurements) (clientNonce : String) :
    Except CryptoError VerifiedAttestation := do
  Except.ensure (!expected.isEmpty)
    (.attestationFailed ("no measurements are pinned, so this report cannot be verified against " ++
      "anything"))
  report.verifyCombinedHash
  Except.ensure (ctEq (Text.asBytes report.combined.tpmQuote.nonce) (Text.asBytes clientNonce))
    .nonceMismatch
  -- these are the values the report states; whether hardware says so too is up to its evidence
  verifyAgainst report.combined.tpmQuote.pcrValues expected.pcrValues
  let tee := report.combined.teeQuote
  Except.ensure (expected.mrenclave.isEmpty ||
      ctEq (Text.asBytes tee.mrenclave) (Text.asBytes expected.mrenclave))
    (.enclaveMeasurementMismatch expected.mrenclave tee.mrenclave)
  Except.ensure (expected.mrsigner.isEmpty ||
      ctEq (Text.asBytes tee.mrsigner) (Text.asBytes expected.mrsigner))
    (.attestationFailed ("MRSIGNER mismatch: expected " ++ expected.mrsigner ++ ", got " ++
      tee.mrsigner))
  Except.ensure (decide (expected.minIsvSvn ≤ tee.isvSvn))
    (.attestationFailed ("ISV SVN " ++ toString tee.isvSvn ++ " is below the minimum " ++
      toString expected.minIsvSvn))
  Except.ensure (tee.teeType == expected.teeType)
    (.attestationFailed ("TEE type mismatch: expected " ++ expected.teeType.display ++ ", got " ++
      tee.teeType.display))
  let (platformQuote, bindsSigningKey) ← report.verifyPlatformQuote X nowMs expected clientNonce
  return ⟨platformQuote, bindsSigningKey, tee.measurementSource⟩

/-! ### What a report that verifies has passed -/

/-- The indices of the claimed PCR values that can be decoded. -/
def claimedIndices : List UInt8 :=
  (rawValuesInIndexOrder report.combined.tpmQuote.pcrValues).map Prod.fst

/-- The claimed PCR values one after another, as far as they can be decoded. -/
def claimedBytes : Bytes :=
  ((rawValuesInIndexOrder report.combined.tpmQuote.pcrValues).map Prod.snd).flatten

/-- The report's own fields meet the expectations: everything `verify` checks before it looks at
hardware evidence. -/
structure FieldsMatch (expected : ExpectedMeasurements) (clientNonce : String) : Prop where
  pinned : expected.isEmpty = false
  hash : report.combined.combinedHash = computeCombinedHash report.combined.tpmQuote
    report.combined.teeQuote report.combined.platformEvidence
  nonce : report.combined.tpmQuote.nonce = clientNonce
  pcrs : ∀ pin ∈ expected.pcrValues.entries, pin ∈ report.combined.tpmQuote.pcrValues.entries
  mrenclave : expected.mrenclave = "" ∨ report.combined.teeQuote.mrenclave = expected.mrenclave
  mrsigner : expected.mrsigner = "" ∨ report.combined.teeQuote.mrsigner = expected.mrsigner
  isvSvn : expected.minIsvSvn ≤ report.combined.teeQuote.isvSvn
  teeType : report.combined.teeQuote.teeType = expected.teeType

/-- A TPM quote that holds: what it is signed over, and what that says. -/
structure QuoteHolds (clientNonce : String) (message : Bytes) (attest : Tpm2.AttestQuote) :
    Prop where
  message_eq : Text.hexDecode report.combined.tpmQuote.attestMessageHex = some message
  parse : Tpm2.AttestQuote.parse message = .ok attest
  signed : ∃ signature akPublic sig key,
    Text.hexDecode report.combined.tpmQuote.quoteSignatureHex = some signature ∧
    Text.hexDecode report.combined.tpmQuote.aikPublicKeyHex = some akPublic ∧
    Tpm2.TpmSignature.parse signature = .ok sig ∧ Tpm2.TpmPublicKey.parse akPublic = .ok key ∧
    (key.verify X message sig).isOk = true
  extraData : attest.extraData = attestationChallenge report.signingKeyHex clientNonce
  indices : report.claimedIndices = attest.sha256Indices
  digest : Sha256.digest report.claimedBytes = attest.pcrDigest

variable {X report} {nowMs : ℕ} {expected : ExpectedMeasurements} {clientNonce : String}

/-- **`verify` is the check of the report's own fields, then of its evidence.** -/
theorem verify_eq_ok_iff {verified : VerifiedAttestation} :
    report.verify X nowMs expected clientNonce = .ok verified ↔
      report.FieldsMatch expected clientNonce ∧ ∃ status binds,
        report.verifyPlatformQuote X nowMs expected clientNonce = .ok (status, binds) ∧
          verified = ⟨status, binds, report.combined.teeQuote.measurementSource⟩ := by
  simp only [verify, Except.bind_eq_ok, Except.ensure_eq_ok, verifyCombinedHash, verifyAgainst,
    exists_const, verifyPcrs_eq_ok_iff, ctEq_asBytes_iff, Bool.or_eq_true, Prod.exists,
    Except.pure_eq_ok]
  constructor
  · rintro ⟨hpinned, hhash, hnonce, hpcrs, hmrenclave, hmrsigner, hisvSvn, hteeType, status, binds,
      hplatform, rfl⟩
    refine ⟨⟨by simpa using hpinned, hhash.symm, hnonce, hpcrs, ?_, ?_, by simpa using hisvSvn,
      by simpa using hteeType⟩, status, binds, hplatform, rfl⟩
    · simpa using hmrenclave
    · simpa using hmrsigner
  · rintro ⟨hfields, status, binds, hplatform, rfl⟩
    refine ⟨by simpa using hfields.pinned, hfields.hash.symm, hfields.nonce, hfields.pcrs, ?_, ?_,
      by simpa using hfields.isvSvn, by simpa using hfields.teeType, status, binds, hplatform, rfl⟩
    · simpa using hfields.mrenclave
    · simpa using hfields.mrsigner

theorem decodeHex_eq_ok {what value : String} {bytes : Bytes} :
    decodeHex X what value = .ok bytes ↔ Text.hexDecode value = some bytes := by
  rw [decodeHex]
  rcases Text.hexDecode value with - | decoded <;> simp

theorem decodeBase64_eq_ok {what value : String} {bytes : Bytes} :
    decodeBase64 X what value = .ok bytes ↔ X.base64Decode value = .ok bytes := by
  rw [decodeBase64]
  rcases X.base64Decode value with - | decoded <;> simp

/-- **A quote is verified exactly when it is there and holds.** -/
theorem verifyTpmQuote_iff {status : PlatformQuoteStatus} {binds : Bool} :
    (report.verifyTpmQuote X clientNonce = .ok (status, binds) ∧
        status.isHardwareVerified = true) ↔
      report.combined.tpmQuote.hasHardwareEvidence = true ∧ status = .verified false ∧
        binds = !report.signingKeyHex.isEmpty ∧
        ∃ message attest, report.QuoteHolds X clientNonce message attest := by
  rw [verifyTpmQuote]
  have hsorted := pairwise_rawValuesInIndexOrder report.combined.tpmQuote.pcrValues
  split
  · next habsent =>
    -- an absent quote is accepted as absent, which is not verified
    constructor
    · rintro ⟨h, hstatus⟩
      obtain ⟨rfl, -⟩ := Prod.mk.inj (Except.ok.inj h)
      simp [PlatformQuoteStatus.isHardwareVerified] at hstatus
    · rintro ⟨hevidence, -⟩
      simp [hevidence] at habsent
  · next hevidence =>
    simp only [Except.bind_eq_ok, decodeHex_eq_ok, Except.ensure_eq_ok, exists_const,
      Except.pure_eq_ok, Prod.mk.injEq]
    constructor
    · rintro ⟨⟨message, hmessage, signature, hsignature, akPublic, hak, verification, hquote, hsig,
        hpcrs, hnonce, rfl, rfl⟩, -⟩
      obtain ⟨rfl, attest, sig, key, hattest, hsigParse, hkey, hverify, hextra, hindices,
        hdigest⟩ := (Tpm2.verifyQuote_passes_iff hsorted).1 ⟨hquote, hsig, hpcrs, hnonce⟩
      exact ⟨by simpa using hevidence, rfl, rfl, message, attest, hmessage, hattest,
        ⟨signature, akPublic, sig, key, hsignature, hak, hsigParse, hkey, hverify⟩, hextra,
        hindices, hdigest⟩
    · rintro ⟨-, rfl, rfl, message, attest, holds⟩
      obtain ⟨signature, akPublic, sig, key, hsignature, hak, hsigParse, hkey, hverify⟩ :=
        holds.signed
      obtain ⟨hquote, hsig, hpcrs, hnonce⟩ := (Tpm2.verifyQuote_passes_iff hsorted).2
        ⟨rfl, attest, sig, key, holds.parse, hsigParse, hkey, hverify, holds.extraData,
          holds.indices, holds.digest⟩
      exact ⟨⟨message, holds.message_eq, signature, hsignature, akPublic, hak, _, hquote, hsig,
        hpcrs, hnonce, rfl, rfl⟩, rfl⟩

/-- **What SEV-SNP evidence that is accepted commits to.** -/
theorem verifySevSnpEvidence_passes {reportB64 vcekDerB64 : String}
    {certificateChainB64 : List String} {status : PlatformQuoteStatus} {binds : Bool}
    (h : report.verifySevSnpEvidence X expected clientNonce reportB64 vcekDerB64
      certificateChainB64 = .ok (status, binds)) :
    binds = !report.signingKeyHex.isEmpty ∧ ∃ bytes, X.base64Decode reportB64 = .ok bytes ∧
      (SevSnp.SevSnpReport.ofBytes bytes).reportData =
        confidentialVmChallenge report.signingKeyHex clientNonce ∧
      expected.mrenclave ≠ "" ∧
      (SevSnp.SevSnpReport.ofBytes bytes).measurementHex = X.toLowercase expected.mrenclave := by
  rw [verifySevSnpEvidence] at h
  split at h
  · simp at h
  · next pins hpins =>
    simp only [Except.bind_eq_ok, decodeBase64_eq_ok, Prod.exists] at h
    obtain ⟨bytes, hbytes, vcekDer, -, rootDer, -, chain, -, parsed, verification, hreport, h⟩ := h
    split at h
    · simp [throw, throwThe, MonadExceptOf.throw] at h
    · next hpasses =>
      obtain ⟨-, rfl⟩ := Prod.mk.inj (Except.pure_eq_ok.1 h)
      obtain ⟨rfl, -, hdata, hpinned, hmeasurement⟩ := SevSnp.verifyReport_passes hreport hpasses
      exact ⟨rfl, bytes, hbytes, hdata, hpinned, hmeasurement⟩

/-- **What Nitro evidence that is accepted commits to.** -/
theorem verifyNitroEvidence_passes {documentB64 : String} {status : PlatformQuoteStatus}
    {binds : Bool}
    (h : report.verifyNitroEvidence X nowMs expected clientNonce documentB64 =
      .ok (status, binds)) :
    binds = !report.signingKeyHex.isEmpty ∧ ∃ document envelope doc pins,
      X.base64Decode documentB64 = .ok document ∧ Nitro.CoseSign1.parse document = .ok envelope ∧
      Nitro.NitroAttestationDoc.parse envelope.payload = .ok doc ∧
      doc.nonce = some (attestationChallenge report.signingKeyHex clientNonce) ∧
      expected.nitro = some pins ∧ pins.pcrValues.entries ≠ [] ∧
      ∀ pin ∈ pins.pcrValues.entries, ∃ value, doc.pcrs.lookup pin.1 = some value ∧
        Text.hexEncode value = X.toLowercase pin.2 := by
  rw [verifyNitroEvidence] at h
  split at h
  · simp at h
  · next pins hpins =>
    simp only [Except.bind_eq_ok, decodeBase64_eq_ok, Prod.exists] at h
    obtain ⟨document, hdocument, rootDer, -, doc, verification, hverify, h⟩ := h
    split at h
    · simp [throw, throwThe, MonadExceptOf.throw] at h
    · next hpasses =>
      obtain ⟨-, rfl⟩ := Prod.mk.inj (Except.pure_eq_ok.1 h)
      obtain ⟨envelope, henvelope, hdoc, hnonce, hpinned, hpcrs⟩ :=
        Nitro.verifyDocument_passes hverify hpasses
      exact ⟨rfl, document, envelope, doc, pins, hdocument, henvelope, hdoc, hnonce, hpins,
        hpinned, hpcrs⟩

end AttestationReport

end Cordon
