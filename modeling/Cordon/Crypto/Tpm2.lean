import Cordon.Crypto.Kdf
import Cordon.Crypto.X509Chain
import Cordon.Lib.Sha256

/-!
# TPM 2.0 quotes

The wire structures of a quote and its verification. A quote is three byte strings: the structure
that the TPM signed, the signature, and the public half of the attestation key.

`verifyQuote` reports four facts. `verifyQuote_passes_iff` is what the three that are ever true
amount to: the signature holds, the signed structure carries the expected challenge, and the claimed
values, **concatenated in the order of their indices**, hash to the signed digest while their
indices are the quoted ones. Nothing looks at the length of a single value.

The equivalence rests on claimed values that are sorted already, as those of a report are: the check
sorts what it is given, and that leaves such a list alone (`pcrsMatch_iff`). Nothing is asked of the
digest, and nothing is said of registers; what a genuine quote adds is the subject of
`Crypto.HardwareRoot`.
-/

namespace Cordon

namespace Tpm2

/-- The magic every attestation that a TPM generated begins with. -/
def tpmGeneratedValue : ℕ := 0xFF544347

/-- The structure tag for a PCR quote. -/
def tpmStAttestQuote : ℕ := 0x8018

/-- `TPM_ALG_RSA`. -/
def tpmAlgRsa : ℕ := 0x0001

/-- `TPM_ALG_ECC`. -/
def tpmAlgEcc : ℕ := 0x0023

/-- `TPM_ALG_SHA256`. -/
def tpmAlgSha256 : ℕ := 0x000B

/-- `TPM_ALG_NULL`. -/
def tpmAlgNull : ℕ := 0x0010

/-- `TPM_ALG_RSASSA`. -/
def tpmAlgRsassa : ℕ := 0x0014

/-- `TPM_ALG_RSAPSS`. -/
def tpmAlgRsapss : ℕ := 0x0016

/-- `TPM_ALG_ECDSA`. -/
def tpmAlgEcdsa : ℕ := 0x0018

/-! ### Reading big-endian structures -/

/-- A cursor over a TPM structure. -/
structure Reader where
  bytes : Bytes
  offset : ℕ

/-- Bytes not read yet. -/
def Reader.remaining (r : Reader) : ℕ :=
  r.bytes.length - r.offset

/-- Reading moves the cursor, or refuses. -/
abbrev Read (α : Type) : Type :=
  StateT Reader (Except CryptoError) α

/-- Refuse with a message. -/
def refuse {α : Type} (message : String) : Read α :=
  throw (.attestationFailed message)

/-- The next `n` bytes. -/
def take (n : ℕ) (what : String) : Read Bytes := do
  let r ← get
  if r.remaining < n then
    refuse ("TPM structure truncated: wanted " ++ toString n ++ " bytes for " ++ what ++
      " at offset " ++ toString r.offset ++ ", " ++ toString r.remaining ++ " remain")
  else
    set { r with offset := r.offset + n }
    return (r.bytes.drop r.offset).take n

/-- A big-endian integer of `width` bytes. -/
def uint (width : ℕ) (what : String) : Read ℕ := do
  return Bytes.ofBe (← take width what)

/-- A `TPM2B_*`: a 16-bit length followed by that many bytes. -/
def sizedBuffer (what : String) : Read Bytes := do
  take (← uint 2 what) what

/-! ### The signed structure -/

/-- Which PCRs, in which bank, a quote covers. -/
structure PcrSelection where
  hashAlg : ℕ
  /-- Selected indices, ascending. -/
  indices : List UInt8
  deriving DecidableEq, Repr

/-- A parsed `TPMS_ATTEST` carrying a `TPMS_QUOTE_INFO`. -/
structure AttestQuote where
  /-- Name of the attestation key. -/
  qualifiedSigner : Bytes
  /-- The challenge the verifier supplied. -/
  extraData : Bytes
  clock : ℕ
  resetCount : ℕ
  restartCount : ℕ
  clockSafe : Bool
  firmwareVersion : ℕ
  pcrSelections : List PcrSelection
  /-- The digest the TPM computed over the selected PCRs. -/
  pcrDigest : Bytes
  deriving DecidableEq, Repr

/-- The indices whose bits are set in a selection mask. -/
def maskIndices (mask : Bytes) : List UInt8 :=
  mask.zipIdx.flatMap fun (byte, byteIndex) ↦
    ((List.range 8).filter fun bit ↦ byte.toNat.testBit bit).map fun bit ↦
      UInt8.ofNat (byteIndex * 8) + UInt8.ofNat bit

/-- The selections of a quote. -/
def readSelections : ℕ → Read (List PcrSelection)
  | 0 => return []
  | count + 1 => do
    let hashAlg ← uint 2 "selection hashAlg"
    let sizeOfSelect ← uint 1 "sizeofSelect"
    let mask ← take sizeOfSelect "pcrSelect"
    let rest ← readSelections count
    return ⟨hashAlg, maskIndices mask⟩ :: rest

/-- The fields of a `TPMS_ATTEST`, in order. -/
def readAttest : Read AttestQuote := do
  let magic ← uint 4 "magic"
  if magic ≠ tpmGeneratedValue then
    refuse ("not a TPM-generated attestation: magic is 0x" ++ Text.hexUpper 8 magic ++
      ", expected 0x" ++ Text.hexUpper 8 tpmGeneratedValue)
  let structureType ← uint 2 "type"
  if structureType ≠ tpmStAttestQuote then
    refuse ("attestation is type 0x" ++ Text.hexUpper 4 structureType ++
      ", expected a PCR quote (0x" ++ Text.hexUpper 4 tpmStAttestQuote ++ ")")
  let qualifiedSigner ← sizedBuffer "qualifiedSigner"
  let extraData ← sizedBuffer "extraData"
  let clock ← uint 8 "clock"
  let resetCount ← uint 4 "resetCount"
  let restartCount ← uint 4 "restartCount"
  let clockSafe := (← uint 1 "safe") ≠ 0
  let firmwareVersion ← uint 8 "firmwareVersion"
  let selectionCount ← uint 4 "pcrSelect count"
  if 16 < selectionCount then
    refuse ("implausible PCR selection count " ++ toString selectionCount)
  let pcrSelections ← readSelections selectionCount
  let pcrDigest ← sizedBuffer "pcrDigest"
  return { qualifiedSigner, extraData, clock, resetCount, restartCount, clockSafe,
           firmwareVersion, pcrSelections, pcrDigest }

/-- `AttestQuote::parse`. Bytes after the structure are not looked at. -/
def AttestQuote.parse (bytes : Bytes) : Except CryptoError AttestQuote :=
  readAttest.run' ⟨bytes, 0⟩

/-- Every PCR index this quote covers in the SHA-256 bank. -/
def AttestQuote.sha256Indices (attest : AttestQuote) : List UInt8 :=
  (attest.pcrSelections.filter fun s ↦ s.hashAlg == tpmAlgSha256).flatMap (·.indices)

/-! ### Signature and key -/

/-- A parsed `TPMT_SIGNATURE`. -/
structure TpmSignature where
  sigAlg : ℕ
  hashAlg : ℕ
  /-- For ECDSA `r || s`, each padded to the wider of the two. -/
  signature : Bytes
  deriving DecidableEq, Repr

/-- The fields of a `TPMT_SIGNATURE`. -/
def readSignature : Read TpmSignature := do
  let sigAlg ← uint 2 "sigAlg"
  let hashAlg ← uint 2 "hashAlg"
  if sigAlg = tpmAlgRsassa ∨ sigAlg = tpmAlgRsapss then
    return ⟨sigAlg, hashAlg, ← sizedBuffer "sig"⟩
  else if sigAlg = tpmAlgEcdsa then
    let rPart ← sizedBuffer "signatureR"
    let sPart ← sizedBuffer "signatureS"
    let width := max rPart.length sPart.length
    return ⟨sigAlg, hashAlg, List.replicate (width - rPart.length) 0 ++ rPart ++
      List.replicate (width - sPart.length) 0 ++ sPart⟩
  else refuse ("unsupported TPM signature algorithm 0x" ++ Text.hexUpper 4 sigAlg)

/-- `TpmSignature::parse`. -/
def TpmSignature.parse (bytes : Bytes) : Except CryptoError TpmSignature :=
  readSignature.run' ⟨bytes, 0⟩

/-- An attestation key's public half. -/
inductive TpmPublicKey
  | rsa (modulus exponent : Bytes)
  /-- An uncompressed point `04 || X || Y`. -/
  | ecP256 (point : Bytes)
  deriving DecidableEq, Repr

/-- The symmetric and signing schemes of a public area: a restricted decryption key carries key bits
and a mode, a scheme carries its hash. -/
def skipSchemes : Read Unit := do
  let symmetric ← uint 2 "symmetric.algorithm"
  if symmetric ≠ tpmAlgNull then
    let _ ← uint 2 "symmetric.keyBits"
    let _ ← uint 2 "symmetric.mode"
  let scheme ← uint 2 "scheme.scheme"
  if scheme ≠ tpmAlgNull then
    let _ ← uint 2 "scheme.hashAlg"

/-- A big-endian number without leading zeroes, of at least one byte. -/
def minimalBytes (bs : Bytes) : Bytes :=
  match bs.dropWhile (· == 0) with
  | [] => bs.drop (bs.length - 1)
  | significant => significant

/-- The fields of a `TPMT_PUBLIC`. -/
def readPublicKey : Read TpmPublicKey := do
  let keyType ← uint 2 "type"
  let _ ← uint 2 "nameAlg"
  let _ ← uint 4 "objectAttributes"
  let _ ← sizedBuffer "authPolicy"
  if keyType = tpmAlgRsa then
    skipSchemes
    let _ ← uint 2 "keyBits"
    let exponentRaw ← uint 4 "exponent"
    -- zero means the default
    let exponentValue := if exponentRaw = 0 then 65537 else exponentRaw
    let modulus ← sizedBuffer "unique.rsa"
    if modulus.isEmpty then
      refuse "TPM public area carries an empty RSA modulus"
    return .rsa modulus (minimalBytes (Bytes.beBytes 4 exponentValue))
  else if keyType = tpmAlgEcc then
    skipSchemes
    let curveId ← uint 2 "curveID"
    let kdf ← uint 2 "kdf.scheme"
    if kdf ≠ tpmAlgNull then
      let _ ← uint 2 "kdf.hashAlg"
    if curveId ≠ 0x0003 then
      refuse ("unsupported TPM ECC curve 0x" ++ Text.hexUpper 4 curveId ++
        "; only NIST P-256 is verified")
    let x ← sizedBuffer "unique.x"
    let y ← sizedBuffer "unique.y"
    return .ecP256 (0x04 :: List.replicate (32 - x.length) 0 ++ x ++
      List.replicate (32 - y.length) 0 ++ y)
  else refuse ("unsupported TPM key type 0x" ++ Text.hexUpper 4 keyType)

/-- `TpmPublicKey::parse`. -/
def TpmPublicKey.parse (bytes : Bytes) : Except CryptoError TpmPublicKey :=
  readPublicKey.run' ⟨bytes, 0⟩

/-- The name of a key's kind in an error. -/
def TpmPublicKey.kind : TpmPublicKey → String
  | .rsa _ _ => "RSA"
  | .ecP256 _ => "ECDSA P-256"

/-- The verdict of a primitive, as the code reports it. -/
def signatureVerdict (holds : Bool) : Except CryptoError Unit :=
  Except.ensure holds .signatureInvalid

/-- `TpmPublicKey::verify`: verify a signature over a message under this key. -/
def TpmPublicKey.verify (X : PlatformEngine) (key : TpmPublicKey) (message : Bytes)
    (signature : TpmSignature) : Except CryptoError Unit :=
  if signature.hashAlg ≠ tpmAlgSha256 then
    .error (.attestationFailed ("TPM quote is hashed with algorithm 0x" ++
      Text.hexUpper 4 signature.hashAlg ++ "; Cordon verifies SHA-256 quotes"))
  else
    let mismatch := CryptoError.attestationFailed ("signature algorithm 0x" ++
      Text.hexUpper 4 signature.sigAlg ++ " does not match the attestation key (" ++
      key.kind ++ ")")
    match key with
    | .rsa modulus exponent =>
      if signature.sigAlg = tpmAlgRsassa then
        signatureVerdict
          (X.verifyRsa .rsaPkcs1Sha256 modulus exponent message signature.signature)
      else if signature.sigAlg = tpmAlgRsapss then
        signatureVerdict (X.verifyRsa .rsaPssSha256 modulus exponent message signature.signature)
      else .error mismatch
    | .ecP256 point =>
      if signature.sigAlg = tpmAlgEcdsa then
        signatureVerdict (X.verifyKey .ecdsaP256Sha256Fixed point message signature.signature)
      else .error mismatch

/-! ### Verification -/

/-- `compute_pcr_digest`: the digest a TPM would produce over a list of PCR values. -/
def computePcrDigest (valuesInIndexOrder : List Bytes) : Bytes :=
  Sha256.digest valuesInIndexOrder.flatten

/-- What checking a quote established. -/
structure TpmQuoteVerification where
  signatureValid : Bool
  nonceMatches : Bool
  pcrDigestMatches : Bool
  akIsTrusted : Bool
  deriving DecidableEq, Repr

/-- Whether the claimed values are the ones the TPM hashed, as far as this can be told. -/
def pcrsMatch (attest : AttestQuote) (claimedPcrs : List (UInt8 × Bytes)) : Bool :=
  let claimedSorted := claimedPcrs.mergeSort fun a b ↦ decide (a.1 ≤ b.1)
  if claimedSorted.map Prod.fst ≠ attest.sha256Indices then false
  else ctEq (computePcrDigest (claimedSorted.map Prod.snd)) attest.pcrDigest

/-- `verify_quote`: verify a TPM quote end to end. -/
def verifyQuote (X : PlatformEngine) (attestMessage signature akPublic expectedExtraData : Bytes)
    (claimedPcrs : List (UInt8 × Bytes)) : Except CryptoError TpmQuoteVerification := do
  let attest ← AttestQuote.parse attestMessage
  let sig ← TpmSignature.parse signature
  let key ← TpmPublicKey.parse akPublic
  let signatureValid := (key.verify X attestMessage sig).isOk
  let nonceMatches := ctEq attest.extraData expectedExtraData
  return ⟨signatureValid, nonceMatches, pcrsMatch attest claimedPcrs, false⟩

/-- Claimed values that are already sorted are compared as they are. -/
theorem pcrsMatch_iff {attest : AttestQuote} {claimedPcrs : List (UInt8 × Bytes)}
    (hsorted : claimedPcrs.Pairwise fun a b ↦ a.1 < b.1) :
    pcrsMatch attest claimedPcrs = true ↔
      claimedPcrs.map Prod.fst = attest.sha256Indices ∧
        Sha256.digest (claimedPcrs.map Prod.snd).flatten = attest.pcrDigest := by
  have hsame : (claimedPcrs.mergeSort fun a b ↦ decide (a.1 ≤ b.1)) = claimedPcrs :=
    List.mergeSort_of_pairwise (hsorted.imp fun hlt ↦ decide_eq_true (UInt8.le_of_lt hlt))
  simp only [pcrsMatch, hsame]
  split
  · next hne => simp [hne]
  · next heq => rw [ctEq_iff, computePcrDigest, and_iff_right (not_not.1 heq)]

/-- **What a quote that passes every check consists of.** -/
theorem verifyQuote_passes_iff {X : PlatformEngine}
    {attestMessage signature akPublic expectedExtraData : Bytes}
    {claimedPcrs : List (UInt8 × Bytes)} {verification : TpmQuoteVerification}
    (hsorted : claimedPcrs.Pairwise fun a b ↦ a.1 < b.1) :
    (verifyQuote X attestMessage signature akPublic expectedExtraData claimedPcrs =
        .ok verification ∧ verification.signatureValid = true ∧
        verification.pcrDigestMatches = true ∧ verification.nonceMatches = true) ↔
      verification = ⟨true, true, true, false⟩ ∧
      ∃ attest sig key, AttestQuote.parse attestMessage = .ok attest ∧
        TpmSignature.parse signature = .ok sig ∧ TpmPublicKey.parse akPublic = .ok key ∧
        (key.verify X attestMessage sig).isOk = true ∧ attest.extraData = expectedExtraData ∧
        claimedPcrs.map Prod.fst = attest.sha256Indices ∧
        Sha256.digest (claimedPcrs.map Prod.snd).flatten = attest.pcrDigest := by
  constructor
  · rintro ⟨hquote, hsig, hpcrs, hnonce⟩
    obtain ⟨attest, hattest, hquote⟩ := Except.bind_eq_ok.1 hquote
    obtain ⟨sig, hsigParse, hquote⟩ := Except.bind_eq_ok.1 hquote
    obtain ⟨key, hkey, hquote⟩ := Except.bind_eq_ok.1 hquote
    obtain rfl := Except.pure_eq_ok.1 hquote
    refine ⟨?_, attest, sig, key, hattest, hsigParse, hkey, hsig, ctEq_iff.1 hnonce,
      (pcrsMatch_iff hsorted).1 hpcrs⟩
    rw [show (key.verify X attestMessage sig).isOk = true from hsig,
      show ctEq attest.extraData expectedExtraData = true from hnonce,
      show pcrsMatch attest claimedPcrs = true from hpcrs]
  · rintro ⟨rfl, attest, sig, key, hattest, hsigParse, hkey, hsig, hnonce, hpcrs⟩
    refine ⟨?_, rfl, rfl, rfl⟩
    rw [verifyQuote, hattest, hsigParse, hkey]
    show Except.ok _ = _
    rw [hsig, ctEq_iff.2 hnonce, (pcrsMatch_iff hsorted).2 hpcrs]

end Tpm2

end Cordon
