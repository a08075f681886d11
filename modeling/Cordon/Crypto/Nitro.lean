import Cordon.Crypto.Cbor
import Cordon.Crypto.Kdf
import Cordon.Crypto.X509Chain
import Cordon.Lib.IndexMap

/-!
# AWS Nitro attestation documents

A document is a COSE_Sign1 envelope around a CBOR payload. The envelope names the algorithm and
carries the signature; the payload carries the measurements, the certificates and the caller's
nonce.

`verifyDocument_passes` is what a document that fails no check commits to: its nonce is the
challenge, which is not empty, and every pinned PCR is in the signed payload. Pinning nothing never
passes.

It is read off the checks, all of which the code makes before it says which of them failed first
(`NitroVerification.firstFailure`), and asks nothing of signatures, certificates or digests. That
the document is what the bytes say, under keys that occur once, is the other half and needs the
grammar of the decoder: `Crypto.NitroSoundness`.
-/

namespace Cordon

namespace Nitro

/-- COSE header label for the signature algorithm. -/
def coseHeaderAlg : ℤ := 1

/-- `ES384`, the only algorithm accepted. -/
def coseAlgEs384 : ℤ := -35

/-- An ES384 signature is two 48-byte scalars. -/
def es384SignatureLen : ℕ := 96

/-- A SHA-384 PCR value. -/
def pcrLen : ℕ := 48

/-- The number of PCR slots. -/
def pcrCount : ℕ := 32

/-- Longest nonce. -/
def maxNonceLen : ℕ := 512

/-- Longest user data. -/
def maxUserDataLen : ℕ := 512

/-- Longest public key. -/
def maxPublicKeyLen : ℕ := 1024

/-- A parsed COSE_Sign1 envelope. -/
structure CoseSign1 where
  /-- The protected header, as it appeared on the wire. -/
  protectedHeader : Bytes
  /-- The payload, as it appeared on the wire. -/
  payload : Bytes
  signature : Bytes
  deriving DecidableEq, Repr

/-- Refuse with a message. -/
def refuse {α : Type} (message : String) : Except CryptoError α :=
  .error (.attestationFailed message)

/-- `CoseSign1::parse`: a four-element array of the protected header, the unprotected header, the
payload and the signature. The algorithm is read from the protected header. -/
def CoseSign1.parse (bytes : Bytes) : Except CryptoError CoseSign1 := do
  let value ← Cbor.decode bytes
  match ← value.asArray "COSE_Sign1" with
  | [protectedItem, _, payloadItem, signatureItem] =>
    let protectedHeader ← protectedItem.asBytes "COSE protected header"
    let payload ← payloadItem.asBytes "COSE payload"
    let signature ← signatureItem.asBytes "COSE signature"
    let header ← Cbor.decode protectedHeader
    match ← header.getInt coseHeaderAlg "COSE protected header" with
    | none => refuse "the COSE protected header names no signature algorithm"
    | some algItem =>
      let alg ← algItem.asI64 "alg"
      Except.ensure (alg == coseAlgEs384)
        (.attestationFailed ("the document is signed with COSE algorithm " ++ toString alg ++
          ", but a Nitro attestation document uses " ++ toString coseAlgEs384 ++
          " (ES384, ECDSA P-384 with SHA-384)"))
      Except.ensure (signature.length == es384SignatureLen)
        (.attestationFailed ("an ES384 signature is " ++ toString es384SignatureLen ++
          " bytes; this one is " ++ toString signature.length))
      Except.ensure (!payload.isEmpty)
        (.attestationFailed ("the COSE_Sign1 carries no payload, so there is no attestation " ++
          "document in it to verify"))
      return ⟨protectedHeader, payload, signature⟩
  | items => refuse ("a COSE_Sign1 structure has four elements; this one has " ++
      toString items.length)

/-- The bytes the signature is computed over. -/
def CoseSign1.signedBytes (envelope : CoseSign1) : Bytes :=
  Cbor.sigStructureSingleSigner envelope.protectedHeader [] envelope.payload

/-- The contents of a Nitro attestation document. -/
structure NitroAttestationDoc where
  moduleId : String
  timestampMs : ℕ
  /-- The PCR hash algorithm the document declares. -/
  digest : String
  /-- Platform configuration registers, by index. -/
  pcrs : List (UInt8 × Bytes)
  /-- The leaf certificate whose key signed this document. -/
  certificate : Bytes
  /-- The certificate bundle, root first. -/
  cabundle : List Bytes
  publicKey : Option Bytes
  userData : Option Bytes
  /-- Caller-supplied nonce. -/
  nonce : Option Bytes
  deriving DecidableEq, Repr

/-- Read the PCRs of a document, refusing an index twice. -/
def readPcrs : List (CborValue × CborValue) → List (UInt8 × Bytes) →
    Except CryptoError (List (UInt8 × Bytes))
  | [], pcrs => .ok pcrs
  | (key, value) :: rest, pcrs => do
    let index ← key.asU64 "PCR index"
    Except.ensure (decide (index < pcrCount))
      (.attestationFailed ("the attestation document reports PCR " ++ toString index ++
        ", but the Nitro Security Module has " ++ toString pcrCount ++ " of them"))
    let bytes ← value.asBytes "PCR value"
    Except.ensure (bytes.length == pcrLen)
      (.attestationFailed ("PCR " ++ toString index ++ " is " ++ toString bytes.length ++
        " bytes; a SHA-384 measurement is " ++ toString pcrLen))
    Except.ensure ((pcrs.lookup (UInt8.ofNat index)).isNone)
      (.attestationFailed ("the attestation document reports PCR " ++ toString index ++ " twice"))
    readPcrs rest (pcrs ++ [(UInt8.ofNat index, bytes)])

/-- Read the certificate bundle of a document, counting its entries from `i` on. -/
def readCabundle : List CborValue → ℕ → Except CryptoError (List Bytes)
  | [], _ => .ok []
  | entry :: rest, i => do
    let der ← entry.asBytes "cabundle entry"
    Except.ensure (!der.isEmpty)
      (.attestationFailed ("cabundle entry " ++ toString i ++ " is empty"))
    let rest ← readCabundle rest (i + 1)
    return der :: rest

/-- A field that may be absent, null or empty, all of which mean that there is none. -/
def optionalBytes (doc : CborValue) (key : String) (max : ℕ) :
    Except CryptoError (Option Bytes) := do
  match ← doc.get key with
  | none => return none
  | some .null => return none
  | some v =>
    let bytes ← v.asBytes key
    Except.ensure (decide (bytes.length ≤ max))
      (.attestationFailed ("`" ++ key ++ "` is " ++ toString bytes.length ++
        " bytes; the Nitro Security Module accepts at most " ++ toString max))
    return if bytes.isEmpty then none else some bytes

/-- `NitroAttestationDoc::parse`: the payload of a COSE_Sign1. -/
def NitroAttestationDoc.parse (payload : Bytes) : Except CryptoError NitroAttestationDoc := do
  let doc ← Cbor.decode payload
  let moduleId ← (← doc.require "module_id").asText "module_id"
  Except.ensure (!moduleId.isEmpty)
    (.attestationFailed "the attestation document names no enclave")
  let timestampMs ← (← doc.require "timestamp").asU64 "timestamp"
  let digest ← (← doc.require "digest").asText "digest"
  Except.ensure (digest == "SHA384")
    (.attestationFailed ("the attestation document declares PCR digest `" ++ digest ++
      "`; Cordon verifies SHA384, which is what the Nitro Security Module emits"))
  let pcrs ← readPcrs (← (← doc.require "pcrs").asMap "pcrs") []
  Except.ensure (!pcrs.isEmpty)
    (.attestationFailed ("the attestation document reports no PCRs, so there is nothing in it " ++
      "that identifies which enclave image is running"))
  let certificate ← (← doc.require "certificate").asBytes "certificate"
  Except.ensure (!certificate.isEmpty)
    (.attestationFailed "the attestation document carries an empty certificate")
  let cabundle ← readCabundle (← (← doc.require "cabundle").asArray "cabundle") 0
  Except.ensure (!cabundle.isEmpty)
    (.attestationFailed ("the attestation document carries no certificate bundle, so its leaf " ++
      "certificate chains to nothing"))
  let publicKey ← optionalBytes doc "public_key" maxPublicKeyLen
  let userData ← optionalBytes doc "user_data" maxUserDataLen
  let nonce ← optionalBytes doc "nonce" maxNonceLen
  return { moduleId, timestampMs, digest, pcrs, certificate, cabundle, publicKey, userData, nonce }

/-- A PCR in lower-case hexadecimal. -/
def NitroAttestationDoc.pcrHex (doc : NitroAttestationDoc) (index : UInt8) : Option String :=
  (doc.pcrs.lookup index).map Text.hexEncode

/-- The certificates between the leaf and the root, leaf-ward first. The document's own copy of the
root is dropped. -/
def NitroAttestationDoc.intermediates (doc : NitroAttestationDoc) : List Bytes :=
  (doc.cabundle.drop 1).reverse

/-- What an operator pins for a Nitro deployment. -/
structure NitroExpectations where
  rootDer : Bytes
  /-- PCR values that must match, by index. -/
  pcrs : IndexMap String
  /-- How stale a document may be. Zero disables the check. -/
  maxAgeSeconds : ℕ

/-- What verifying a document established. -/
structure NitroVerification where
  signatureValid : Bool
  certificateChainValid : Bool
  chainCurrentlyValid : Bool
  nonceMatches : Bool
  pcrsMatch : Bool
  fresh : Bool
  deriving DecidableEq, Repr

/-- The first failure, phrased so an operator knows what it means. -/
def NitroVerification.firstFailure (v : NitroVerification) : Option String :=
  if !v.signatureValid then
    some ("the attestation document's signature does not verify under the certificate " ++
      "it carries, so the document has been altered or was never signed by an NSM")
  else if !v.certificateChainValid then
    some ("the document's certificate does not chain to the pinned AWS Nitro root, so " ++
      "it was signed by something other than genuine Nitro hardware; a valid " ++
      "signature under an unknown key proves only that its author owns that key")
  else if !v.chainCurrentlyValid then
    some ("a certificate in the chain is outside its validity window; a Nitro leaf " ++
      "certificate lives about three hours, so this document is stale rather than forged")
  else if !v.nonceMatches then
    some ("the document does not commit to this request's challenge, so it may be a " ++
      "genuine document captured from an earlier exchange and replayed")
  else if !v.pcrsMatch then
    some ("the enclave's measurements do not match the pinned values: this is genuine " ++
      "Nitro hardware running something other than the image you pinned")
  else if !v.fresh then
    some "the attestation document is older than the configured freshness bound"
  else none

/-- Whether the leaf chains to the pinned root. With no root pinned nothing is checked, and that is
not a chain that holds. -/
def chainToPinnedRoot (X : PlatformEngine) (doc : NitroAttestationDoc) (rootDer : Bytes) :
    Except CryptoError Bool :=
  if rootDer.isEmpty then .ok false
  else verifyChainToRoot X doc.certificate doc.intermediates rootDer

/-- Whether every certificate of a list is within its validity window. All are looked at. -/
def allCurrentlyValid (X : PlatformEngine) : List Bytes → Except CryptoError Bool
  | [] => .ok true
  | der :: rest => do
    let valid ← isCurrentlyValid X der
    let others ← allCurrentlyValid X rest
    return valid && others

/-- Whether the nonce is the challenge. A challenge that is empty was never issued. -/
def nonceMatches (nonce : Option Bytes) (expectedChallenge : Bytes) : Bool :=
  !expectedChallenge.isEmpty && nonce.any fun nonce ↦ ctEq nonce expectedChallenge

/-- Whether every pinned PCR is present and equal, whatever the case the pin is written in. -/
def pcrsMatch (X : PlatformEngine) (doc : NitroAttestationDoc) (pins : IndexMap String) : Bool :=
  !pins.isEmpty && pins.entries.all fun (index, expected) ↦
    (doc.pcrHex index).any fun actual ↦
      ctEq (Text.asBytes actual) (Text.asBytes (X.toLowercase expected))

/-- Whether a document's time lies within the window around the verifier's clock. The width of the
window saturates at 64 bits. -/
def isFresh (maxAgeSeconds nowMs timestampMs : ℕ) : Bool :=
  maxAgeSeconds == 0 ||
    decide (max nowMs timestampMs - min nowMs timestampMs ≤ min (maxAgeSeconds * 1000) (2 ^ 64 - 1))

/-- `verify_document`: verify a Nitro attestation document end to end. -/
def verifyDocument (X : PlatformEngine) (document expectedChallenge : Bytes)
    (expectations : NitroExpectations) (nowMs : ℕ) :
    Except CryptoError (NitroAttestationDoc × NitroVerification) := do
  let envelope ← CoseSign1.parse document
  let doc ← NitroAttestationDoc.parse envelope.payload
  let key ← publicKeyBytes X doc.certificate
  let signatureValid :=
    X.verifyKey .ecdsaP384Sha384Fixed key envelope.signedBytes envelope.signature
  let certificateChainValid ← chainToPinnedRoot X doc expectations.rootDer
  let chainCurrentlyValid ← allCurrentlyValid X (doc.certificate :: doc.cabundle)
  return (doc,
    { signatureValid
      certificateChainValid
      chainCurrentlyValid
      nonceMatches := nonceMatches doc.nonce expectedChallenge
      pcrsMatch := pcrsMatch X doc expectations.pcrs
      fresh := isFresh expectations.maxAgeSeconds nowMs doc.timestampMs })

/-- A document fails none of the checks exactly when each of them passed. -/
theorem NitroVerification.firstFailure_eq_none {v : NitroVerification} :
    v.firstFailure = none ↔ v = ⟨true, true, true, true, true, true⟩ := by
  obtain ⟨a, b, c, d, e, f⟩ := v
  simp only [firstFailure, mk.injEq]
  split_ifs <;> simp_all

theorem nonceMatches_iff {nonce : Option Bytes} {expectedChallenge : Bytes} :
    nonceMatches nonce expectedChallenge = true ↔
      expectedChallenge ≠ [] ∧ nonce = some expectedChallenge := by
  rcases nonce with - | nonce
  · simp [nonceMatches]
  · simp [nonceMatches, ctEq_iff]

theorem pcrsMatch_iff {X : PlatformEngine} {doc : NitroAttestationDoc} {pins : IndexMap String} :
    pcrsMatch X doc pins = true ↔
      pins.entries ≠ [] ∧ ∀ entry ∈ pins.entries, ∃ value,
        doc.pcrs.lookup entry.1 = some value ∧
          Text.hexEncode value = X.toLowercase entry.2 := by
  rw [pcrsMatch, Bool.and_eq_true, List.all_eq_true]
  refine and_congr (by simp [IndexMap.isEmpty]) (forall₂_congr fun entry _ ↦ ?_)
  obtain ⟨index, expected⟩ := entry
  simp only [NitroAttestationDoc.pcrHex]
  rcases doc.pcrs.lookup index with - | value
  · simp
  · simp only [Option.map_some, Option.any_some, ctEq_asBytes_iff, Option.some.injEq,
      exists_eq_left']

/-- What was read and computed where a verification comes back. -/
theorem exists_of_verifyDocument {X : PlatformEngine} {document expectedChallenge : Bytes}
    {expectations : NitroExpectations} {nowMs : ℕ} {doc : NitroAttestationDoc}
    {verification : NitroVerification}
    (h : verifyDocument X document expectedChallenge expectations nowMs = .ok (doc, verification)) :
    ∃ envelope key certificateChainValid chainCurrentlyValid,
      CoseSign1.parse document = .ok envelope ∧
      NitroAttestationDoc.parse envelope.payload = .ok doc ∧
      publicKeyBytes X doc.certificate = .ok key ∧
      chainToPinnedRoot X doc expectations.rootDer = .ok certificateChainValid ∧
      allCurrentlyValid X (doc.certificate :: doc.cabundle) = .ok chainCurrentlyValid ∧
      verification =
        { signatureValid :=
            X.verifyKey .ecdsaP384Sha384Fixed key envelope.signedBytes envelope.signature
          certificateChainValid
          chainCurrentlyValid
          nonceMatches := nonceMatches doc.nonce expectedChallenge
          pcrsMatch := pcrsMatch X doc expectations.pcrs
          fresh := isFresh expectations.maxAgeSeconds nowMs doc.timestampMs } := by
  obtain ⟨envelope, henvelope, h⟩ := Except.bind_eq_ok.1 h
  obtain ⟨parsed, hparsed, h⟩ := Except.bind_eq_ok.1 h
  obtain ⟨key, hkey, h⟩ := Except.bind_eq_ok.1 h
  obtain ⟨chain, hchain, h⟩ := Except.bind_eq_ok.1 h
  obtain ⟨current, hcurrent, h⟩ := Except.bind_eq_ok.1 h
  obtain ⟨rfl, rfl⟩ := Prod.mk.inj (Except.pure_eq_ok.1 h)
  exact ⟨envelope, key, chain, current, henvelope, hparsed, hkey, hchain, hcurrent, rfl⟩

/-- **What a document that fails no check commits to.** -/
theorem verifyDocument_passes {X : PlatformEngine} {document expectedChallenge : Bytes}
    {expectations : NitroExpectations} {nowMs : ℕ} {doc : NitroAttestationDoc}
    {verification : NitroVerification}
    (h : verifyDocument X document expectedChallenge expectations nowMs = .ok (doc, verification))
    (hpasses : verification.firstFailure = none) :
    ∃ envelope, CoseSign1.parse document = .ok envelope ∧
      NitroAttestationDoc.parse envelope.payload = .ok doc ∧
      doc.nonce = some expectedChallenge ∧ expectations.pcrs.entries ≠ [] ∧
      ∀ entry ∈ expectations.pcrs.entries, ∃ value,
        doc.pcrs.lookup entry.1 = some value ∧ Text.hexEncode value = X.toLowercase entry.2 := by
  obtain ⟨envelope, _, _, _, henvelope, hparsed, -, -, -, rfl⟩ := exists_of_verifyDocument h
  rw [NitroVerification.firstFailure_eq_none, NitroVerification.mk.injEq] at hpasses
  obtain ⟨-, -, -, hnonce, hpcrs, -⟩ := hpasses
  exact ⟨envelope, henvelope, hparsed, (nonceMatches_iff.1 hnonce).2, pcrsMatch_iff.1 hpcrs⟩

end Nitro

end Cordon
