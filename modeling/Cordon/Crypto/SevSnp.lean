import Cordon.Crypto.Kdf
import Cordon.Crypto.X509Chain

/-!
# SEV-SNP attestation reports

A report is a fixed layout of little-endian fields of which the first `signedPrefixLen` bytes are
signed by the chip's key. `verifyReport` reports six facts about it, and `verifyReport_passes` is
what a report that fails none of them consists of. An expectation without a measurement never
passes: pinning nothing checks nothing.

The signature is two little-endian numbers in wide fields. It is brought to the form of the curve
**exactly if both numbers fit**, and no number is changed on the way (`signatureRS_exact`).

The conversion rests on the width alone. A field of 72 bytes holds a number of the curve exactly if
the 24 bytes at its far end are zero, and these are the ones that `scalarBytes` looks at
(`scalarBytes_eq`). What stands behind a report has no say in it: a longer input is read as its
first 1184 bytes are (`parse_take`).
-/

namespace Cordon

namespace SevSnp

/-- Size of a report. -/
def reportSize : ℕ := 0x4A0

/-- The portion of the report the signature covers. -/
def signedPrefixLen : ℕ := 0x2A0

/-- `SIGNATURE_ALGO` value for ECDSA on P-384 with SHA-384. -/
def sigAlgoEcdsaP384Sha384 : ℕ := 1

/-- Size of one P-384 scalar. -/
def p384ScalarLen : ℕ := 48

/-- Width of the `R` and `S` fields of the signature area. -/
def sigFieldLen : ℕ := 72

/-- `len` bytes from `offset` on. -/
def readArray (bytes : Bytes) (offset len : ℕ) : Bytes :=
  (bytes.drop offset).take len

/-- A little-endian integer. -/
def readUint (bytes : Bytes) (offset width : ℕ) : ℕ :=
  Bytes.ofLe (readArray bytes offset width)

/-- The security patch levels of a platform. -/
structure TcbVersion where
  bootloader : ℕ
  tee : ℕ
  snp : ℕ
  microcode : ℕ
  raw : ℕ
  deriving DecidableEq, Repr

/-- The patch levels in a 64-bit field. -/
def TcbVersion.parse (raw : ℕ) : TcbVersion where
  bootloader := raw % 256
  tee := raw / 256 % 256
  snp := raw / 256 ^ 6 % 256
  microcode := raw / 256 ^ 7 % 256
  raw := raw

/-- Whether every component is at least the corresponding floor. -/
def TcbVersion.isAtLeast (tcb floor : TcbVersion) : Bool :=
  decide (floor.bootloader ≤ tcb.bootloader) && decide (floor.tee ≤ tcb.tee) &&
    decide (floor.snp ≤ tcb.snp) && decide (floor.microcode ≤ tcb.microcode)

/-- The launch policy bits that matter to a verifier. -/
structure GuestPolicy where
  raw : ℕ
  abiMajor : ℕ
  abiMinor : ℕ
  smtAllowed : Bool
  migrateMaAllowed : Bool
  debugAllowed : Bool
  singleSocketRequired : Bool
  deriving DecidableEq, Repr

/-- The launch policy in a 64-bit field. -/
def GuestPolicy.parse (raw : ℕ) : GuestPolicy where
  raw := raw
  abiMinor := raw % 256
  abiMajor := raw / 256 % 256
  smtAllowed := raw.testBit 16
  migrateMaAllowed := raw.testBit 18
  debugAllowed := raw.testBit 19
  singleSocketRequired := raw.testBit 20

/-- A parsed attestation report. -/
structure SevSnpReport where
  version : ℕ
  guestSvn : ℕ
  policy : GuestPolicy
  familyId : Bytes
  imageId : Bytes
  /-- The privilege level the report was requested at. -/
  vmpl : ℕ
  signatureAlgo : ℕ
  currentTcb : TcbVersion
  platformInfo : ℕ
  /-- The 64 bytes the guest supplied. -/
  reportData : Bytes
  /-- Launch measurement of the guest. -/
  measurement : Bytes
  hostData : Bytes
  idKeyDigest : Bytes
  authorKeyDigest : Bytes
  reportId : Bytes
  reportIdMa : Bytes
  reportedTcb : TcbVersion
  chipId : Bytes
  committedTcb : TcbVersion
  launchTcb : TcbVersion
  /-- The whole report. -/
  raw : Bytes
  deriving DecidableEq, Repr

/-- The fields of a report at their offsets. -/
def SevSnpReport.ofBytes (bytes : Bytes) : SevSnpReport where
  version := readUint bytes 0x000 4
  guestSvn := readUint bytes 0x004 4
  policy := .parse (readUint bytes 0x008 8)
  familyId := readArray bytes 0x010 16
  imageId := readArray bytes 0x020 16
  vmpl := readUint bytes 0x030 4
  signatureAlgo := readUint bytes 0x034 4
  currentTcb := .parse (readUint bytes 0x038 8)
  platformInfo := readUint bytes 0x040 8
  reportData := readArray bytes 0x050 64
  measurement := readArray bytes 0x090 48
  hostData := readArray bytes 0x0C0 32
  idKeyDigest := readArray bytes 0x0E0 48
  authorKeyDigest := readArray bytes 0x110 48
  reportId := readArray bytes 0x140 32
  reportIdMa := readArray bytes 0x160 32
  reportedTcb := .parse (readUint bytes 0x180 8)
  chipId := readArray bytes 0x1A0 64
  committedTcb := .parse (readUint bytes 0x1E0 8)
  launchTcb := .parse (readUint bytes 0x1F0 8)
  raw := bytes.take reportSize

/-- `SevSnpReport::parse`: bytes beyond the size of a report are dropped. -/
def SevSnpReport.parse (bytes : Bytes) : Except CryptoError SevSnpReport :=
  if bytes.length < reportSize then
    .error (.attestationFailed ("SEV-SNP report is " ++ toString bytes.length ++
      " bytes, expected at least " ++ toString reportSize))
  else .ok (.ofBytes bytes)

/-- The bytes the signature covers. -/
def SevSnpReport.signedBytes (report : SevSnpReport) : Bytes :=
  report.raw.take signedPrefixLen

/-- The launch measurement in hexadecimal. -/
def SevSnpReport.measurementHex (report : SevSnpReport) : String :=
  Text.hexEncode report.measurement

/-- One scalar of the signature area, big-endian and at the width of the curve. -/
def scalarBytes (field : Bytes) : Except CryptoError Bytes :=
  let be := field.reverse
  let leading := be.length - p384ScalarLen
  if (be.take leading).any (· != 0) then
    .error (.attestationFailed "SEV-SNP signature scalar is wider than P-384 permits")
  else .ok (be.drop leading)

/-- `signature_r_s`: the signature in the fixed-width big-endian form a verifier expects. -/
def SevSnpReport.signatureRS (report : SevSnpReport) : Except CryptoError Bytes := do
  let field := (report.raw.take reportSize).drop signedPrefixLen
  let r ← scalarBytes (field.take sigFieldLen)
  let s ← scalarBytes ((field.drop sigFieldLen).take sigFieldLen)
  return r ++ s

/-- What an operator pins for a SEV-SNP deployment. -/
structure SevSnpExpectations where
  /-- Expected launch measurement. Empty means unpinned. -/
  measurement : String
  minimumTcb : TcbVersion
  refuseDebuggableGuest : Bool
  expectedVmpl : ℕ
  deriving DecidableEq, Repr

/-- What verifying a report established. -/
structure SevSnpVerification where
  reportSignatureValid : Bool
  certificateChainValid : Bool
  reportDataMatches : Bool
  measurementMatches : Bool
  tcbAcceptable : Bool
  policyAcceptable : Bool
  deriving DecidableEq, Repr

/-- The first check that failed, phrased for an operator. -/
def SevSnpVerification.firstFailure (v : SevSnpVerification) : Option String :=
  if !v.certificateChainValid then
    some ("the VCEK does not chain to the AMD root supplied, so this report is not " ++
      "known to come from AMD silicon")
  else if !v.reportSignatureValid then
    some "the report's signature does not verify under its VCEK"
  else if !v.reportDataMatches then
    some ("the report does not commit to this verifier's challenge; it is a replay, " ++
      "or it does not bind this node's signing key")
  else if !v.measurementMatches then
    some "the guest launch measurement does not match the pinned value"
  else if !v.tcbAcceptable then
    some "the platform's reported TCB is below the pinned minimum"
  else if !v.policyAcceptable then
    some ("the guest's launch policy permits debugging or runs at an unexpected VMPL, " ++
      "so the hypervisor may be able to read its memory")
  else none

/-- Extract the P-384 public point from a VCEK certificate. -/
def vcekPublicPoint (X : PlatformEngine) (vcekDer : Bytes) : Except CryptoError Bytes := do
  let cert ← parseCertificate X "VCEK" vcekDer
  let point := X.subjectPublicKey cert
  Except.ensure (point.length == 1 + p384ScalarLen * 2 && point.head? == some 0x04)
    (.attestationFailed ("VCEK does not carry an uncompressed P-384 public point (" ++
      toString point.length ++ " bytes)"))
  return point

/-- Whether the chain holds from the VCEK to its last certificate. An empty chain does not. -/
def chainHolds (X : PlatformEngine) (vcekDer : Bytes) (chainDer : List Bytes) :
    Except CryptoError Bool :=
  if chainDer.isEmpty then .ok false
  else do return (← walkChain X vcekDer chainDer).isSome

/-- Whether the launch measurement is the pinned one, whatever the case the pin is written in. -/
def measurementMatches (X : PlatformEngine) (report : SevSnpReport) (measurement : String) : Bool :=
  if measurement.isEmpty then false
  else ctEq (Text.asBytes report.measurementHex) (Text.asBytes (X.toLowercase measurement))

/-- `verify_report`: verify a SEV-SNP attestation report end to end. -/
def verifyReport (X : PlatformEngine) (reportBytes vcekDer : Bytes) (chainDer : List Bytes)
    (expectedChallenge : Bytes) (expectations : SevSnpExpectations) :
    Except CryptoError (SevSnpReport × SevSnpVerification) := do
  let report ← SevSnpReport.parse reportBytes
  Except.ensure (report.signatureAlgo == sigAlgoEcdsaP384Sha384)
    (.attestationFailed ("SEV-SNP report declares signature algorithm " ++
      toString report.signatureAlgo ++ ", expected " ++ toString sigAlgoEcdsaP384Sha384 ++
      " (ECDSA P-384 with SHA-384)"))
  let point ← vcekPublicPoint X vcekDer
  let sig ← report.signatureRS
  let reportSignatureValid := X.verifyKey .ecdsaP384Sha384Fixed point report.signedBytes sig
  let certificateChainValid ← chainHolds X vcekDer chainDer
  return (report,
    { reportSignatureValid
      certificateChainValid
      reportDataMatches := ctEq report.reportData expectedChallenge
      measurementMatches := measurementMatches X report expectations.measurement
      tcbAcceptable := report.reportedTcb.isAtLeast expectations.minimumTcb
      policyAcceptable := report.vmpl == expectations.expectedVmpl &&
        !(expectations.refuseDebuggableGuest && report.policy.debugAllowed) })

/-- A field that ends within a prefix is read from the prefix. -/
theorem readArray_take {bytes : Bytes} {offset len n : ℕ} (h : offset + len ≤ n) :
    readArray (bytes.take n) offset len = readArray bytes offset len := by
  rw [readArray, readArray, List.drop_take, List.take_take, Nat.min_eq_left (by omega)]

/-- A field that ends within the signed prefix is one the signature covers. -/
theorem readArray_signedBytes {bytes : Bytes} {offset len : ℕ}
    (h : offset + len ≤ signedPrefixLen) :
    readArray (SevSnpReport.ofBytes bytes).signedBytes offset len = readArray bytes offset len := by
  have hsize : signedPrefixLen ≤ reportSize := by decide
  rw [SevSnpReport.signedBytes, readArray_take h]
  exact readArray_take (h.trans hsize)

/-- A report fails none of the checks exactly when each of them passed. -/
theorem SevSnpVerification.firstFailure_eq_none {v : SevSnpVerification} :
    v.firstFailure = none ↔ v = ⟨true, true, true, true, true, true⟩ := by
  obtain ⟨a, b, c, d, e, f⟩ := v
  simp only [firstFailure, mk.injEq]
  split_ifs <;> simp_all

/-- **What a report that fails no check commits to**: the challenge, and the pinned measurement. -/
theorem verifyReport_passes {X : PlatformEngine} {reportBytes vcekDer : Bytes}
    {chainDer : List Bytes} {expectedChallenge : Bytes} {expectations : SevSnpExpectations}
    {report : SevSnpReport} {verification : SevSnpVerification}
    (h : verifyReport X reportBytes vcekDer chainDer expectedChallenge expectations =
      .ok (report, verification)) (hpasses : verification.firstFailure = none) :
    report = .ofBytes reportBytes ∧ reportSize ≤ reportBytes.length ∧
      report.reportData = expectedChallenge ∧ expectations.measurement ≠ "" ∧
      report.measurementHex = X.toLowercase expectations.measurement := by
  obtain ⟨parsed, hparse, h⟩ := Except.bind_eq_ok.1 h
  obtain ⟨-, -, h⟩ := Except.bind_eq_ok.1 h
  obtain ⟨point, -, h⟩ := Except.bind_eq_ok.1 h
  obtain ⟨sig, -, h⟩ := Except.bind_eq_ok.1 h
  obtain ⟨chain, -, h⟩ := Except.bind_eq_ok.1 h
  obtain ⟨rfl, rfl⟩ := Prod.mk.inj (Except.pure_eq_ok.1 h)
  rw [SevSnpVerification.firstFailure_eq_none, SevSnpVerification.mk.injEq] at hpasses
  obtain ⟨-, -, hdata, hmeasurement, -, -⟩ := hpasses
  rw [SevSnpReport.parse] at hparse
  split at hparse
  · simp at hparse
  · next hsize =>
    rw [measurementMatches] at hmeasurement
    split at hmeasurement
    · simp at hmeasurement
    · next hpinned =>
      refine ⟨(Except.ok.inj hparse).symm, by omega, ctEq_iff.1 hdata, ?_,
        ctEq_asBytes_iff.1 hmeasurement⟩
      simpa using hpinned

/-! ### The signature of a report -/

theorem two_pow_384 : 2 ^ 384 = 256 ^ p384ScalarLen := by
  rw [show 256 = 2 ^ 8 by rfl, ← Nat.pow_mul, show p384ScalarLen = 48 from rfl]

/-- **A scalar is converted exactly if it is one of the curve**, and its number is kept. -/
theorem scalarBytes_eq {field : Bytes} (h : p384ScalarLen ≤ field.length) :
    scalarBytes field = if Bytes.ofLe field < 2 ^ 384 then
        .ok (Bytes.beBytes p384ScalarLen (Bytes.ofLe field))
      else .error (.attestationFailed "SEV-SNP signature scalar is wider than P-384 permits") := by
  -- the padding is the high end once the bytes are reversed
  let padding := field.reverse.take (field.reverse.length - p384ScalarLen)
  let scalar := field.reverse.drop (field.reverse.length - p384ScalarLen)
  have hlength : scalar.length = p384ScalarLen := by
    rw [List.length_drop, List.length_reverse]
    omega
  have hvalue : Bytes.ofLe field =
      Bytes.ofBe padding * 256 ^ p384ScalarLen + Bytes.ofBe scalar := by
    rw [← hlength, ← Bytes.ofBe_append, List.take_append_drop, Bytes.ofLe]
  have hscalar : Bytes.ofBe scalar < 256 ^ p384ScalarLen := hlength ▸ Bytes.ofBe_lt scalar
  have hpadding : padding.any (· != 0) = true ↔ Bytes.ofBe padding ≠ 0 := by
    rw [Ne, Bytes.ofBe_eq_zero_iff]
    simp
  show (if padding.any (· != 0) then _ else Except.ok scalar) = _
  rw [two_pow_384, hvalue]
  rcases eq_or_ne (Bytes.ofBe padding) 0 with hzero | hne
  · rw [if_neg (by rw [hpadding, hzero]; simp), hzero, Nat.zero_mul, Nat.zero_add, if_pos hscalar,
      ← hlength, Bytes.beBytes_ofBe]
  · have hwide : ¬Bytes.ofBe padding * 256 ^ p384ScalarLen + Bytes.ofBe scalar <
        256 ^ p384ScalarLen := by
      have hle := Nat.le_mul_of_pos_left (256 ^ p384ScalarLen) (Nat.pos_of_ne_zero hne)
      omega
    rw [if_pos (hpadding.2 hne), if_neg hwide]

theorem scalarBytes_eq_ok {field out : Bytes} (h : p384ScalarLen ≤ field.length) :
    scalarBytes field = .ok out ↔
      Bytes.ofLe field < 2 ^ 384 ∧ out = Bytes.beBytes 48 (Bytes.ofLe field) := by
  rw [scalarBytes_eq h, ← show p384ScalarLen = 48 from rfl]
  split_ifs with hlt
  · rw [Except.ok.injEq, and_iff_right hlt, eq_comm]
  · constructor
    · rintro ⟨⟩
    · intro hok
      exact absurd hok.1 hlt

theorem scalars_eq_ok {r s out : Bytes} (hr : p384ScalarLen ≤ r.length)
    (hs : p384ScalarLen ≤ s.length) :
    (do return (← scalarBytes r) ++ (← scalarBytes s)) = Except.ok out ↔
      (Bytes.ofLe r < 2 ^ 384 ∧ Bytes.ofLe s < 2 ^ 384) ∧
        out = Bytes.beBytes 48 (Bytes.ofLe r) ++ Bytes.beBytes 48 (Bytes.ofLe s) := by
  simp only [Except.bind_eq_ok, Except.pure_eq_ok, scalarBytes_eq_ok hr, scalarBytes_eq_ok hs]
  constructor
  · rintro ⟨r', ⟨hr384, hr'⟩, s', ⟨hs384, hs'⟩, hout⟩
    exact ⟨⟨hr384, hs384⟩, by rw [← hout, hr', hs']⟩
  · rintro ⟨⟨hr384, hs384⟩, hout⟩
    exact ⟨_, ⟨hr384, rfl⟩, _, ⟨hs384, rfl⟩, hout.symm⟩

/-- A longer input is read as its first 1184 bytes are. -/
theorem parse_take {bytes : Bytes} (h : reportSize ≤ bytes.length) :
    SevSnpReport.parse (bytes.take reportSize) = SevSnpReport.parse bytes := by
  have hlength : (bytes.take reportSize).length = reportSize := List.length_take_of_le h
  have hfield : ∀ {offset len : ℕ}, offset + len ≤ reportSize →
      readArray (bytes.take reportSize) offset len = readArray bytes offset len := readArray_take
  have hreport : SevSnpReport.ofBytes (bytes.take reportSize) = .ofBytes bytes := by
    simp (disch := decide) only [SevSnpReport.ofBytes, readUint, hfield, List.take_take,
      Nat.min_self]
  rw [SevSnpReport.parse, SevSnpReport.parse, if_neg (Nat.not_lt.2 hlength.ge),
    if_neg (Nat.not_lt.2 h), hreport]

/-- The two scalars are taken from their places. -/
theorem signatureRS_ofBytes (bytes : Bytes) : (SevSnpReport.ofBytes bytes).signatureRS = do
    return (← scalarBytes (readArray bytes signedPrefixLen sigFieldLen)) ++
      (← scalarBytes (readArray bytes (signedPrefixLen + sigFieldLen) sigFieldLen)) := by
  have hfirst : readArray (bytes.take reportSize) signedPrefixLen sigFieldLen =
      readArray bytes signedPrefixLen sigFieldLen := readArray_take (by decide)
  have hsecond : readArray (bytes.take reportSize) (signedPrefixLen + sigFieldLen) sigFieldLen =
      readArray bytes (signedPrefixLen + sigFieldLen) sigFieldLen := readArray_take (by decide)
  rw [← hfirst, ← hsecond, SevSnpReport.signatureRS]
  simp only [SevSnpReport.ofBytes, List.take_take, Nat.min_self, List.drop_drop, readArray]

/-- **The signature is converted exactly if its two numbers are below `2 ^ 384`**, and then it is
these numbers in big-endian order, in 48 bytes each. -/
theorem signatureRS_exact {bytes : Bytes} {r s : ℕ} (h : reportSize ≤ bytes.length)
    (hr : readUint bytes signedPrefixLen sigFieldLen = r)
    (hs : readUint bytes (signedPrefixLen + sigFieldLen) sigFieldLen = s) :
    ∃ report, SevSnpReport.parse bytes = .ok report ∧
      SevSnpReport.parse (bytes.take reportSize) = .ok report ∧
      ((∃ out, report.signatureRS = .ok out) ↔ r < 2 ^ 384 ∧ s < 2 ^ 384) ∧
      ∀ out, report.signatureRS = .ok out → out = Bytes.beBytes 48 r ++ Bytes.beBytes 48 s := by
  have hparse : SevSnpReport.parse bytes = .ok (.ofBytes bytes) := if_neg (Nat.not_lt.2 h)
  have hfield : ∀ {offset}, offset + sigFieldLen ≤ reportSize →
      p384ScalarLen ≤ (readArray bytes offset sigFieldLen).length := by
    intro offset hfits
    have hwidth : p384ScalarLen ≤ sigFieldLen := by decide
    rw [readArray, List.length_take, List.length_drop]
    omega
  have hsignature : ∀ out, (SevSnpReport.ofBytes bytes).signatureRS = .ok out ↔
      (r < 2 ^ 384 ∧ s < 2 ^ 384) ∧ out = Bytes.beBytes 48 r ++ Bytes.beBytes 48 s := by
    intro out
    rw [signatureRS_ofBytes, scalars_eq_ok (hfield (by decide)) (hfield (by decide)), ← hr, ← hs]
    rfl
  refine ⟨_, hparse, (parse_take h).trans hparse, ?_, fun out hout ↦ ((hsignature out).1 hout).2⟩
  simp only [hsignature, exists_and_left, exists_eq, and_true]

/-- A report whose signature is 12345 and 197121, with more after it. -/
def signedSample : Bytes :=
  List.replicate signedPrefixLen 0 ++ (0x39 :: 0x30 :: List.replicate 70 0) ++
    (0x01 :: 0x02 :: 0x03 :: List.replicate 69 0) ++ List.replicate 1000 7

/-- The little-endian numbers come out with their bytes reversed. -/
theorem signatureRS_exact_sample :
    ∃ report, SevSnpReport.parse signedSample = .ok report ∧
      SevSnpReport.parse (signedSample.take reportSize) = .ok report ∧
      report.signatureRS = .ok (List.replicate 46 0 ++ [0x30, 0x39] ++
        (List.replicate 45 0 ++ [0x03, 0x02, 0x01])) := by
  have hr : readUint signedSample signedPrefixLen sigFieldLen = 12345 := by decide +kernel
  have hs : readUint signedSample (signedPrefixLen + sigFieldLen) sigFieldLen = 197121 := by
    decide +kernel
  obtain ⟨report, hparse, htake, hok, hout⟩ := signatureRS_exact (by decide +kernel) hr hs
  obtain ⟨out, hsignature⟩ := hok.2 ⟨by decide +kernel, by decide +kernel⟩
  have hbytes : Bytes.beBytes 48 12345 ++ Bytes.beBytes 48 197121 = List.replicate 46 0 ++
      [0x30, 0x39] ++ (List.replicate 45 0 ++ [0x03, 0x02, 0x01]) := by
    decide +kernel
  exact ⟨report, hparse, htake, hbytes ▸ hout out hsignature ▸ hsignature⟩

end SevSnp

end Cordon
