import Cordon.Crypto.Signing
import Cordon.Lib.Result
import Mathlib.Data.List.Chain

/-!
# What attestation takes from elsewhere, and X.509 chains

Signature verification, the X.509 and Base64 decoders, the displayed errors of the hexadecimal
decoder and Unicode case conversion are outside the repository. `PlatformEngine` carries them as
functions and nothing is assumed about them: what is proved about attestation is about the checks
the code makes around them.

A chain is walked from the leaf to a root that the verifier pinned. A link that does not hold is a
verdict, a link that cannot be checked is an error. A walk that holds is a list of certificates in
which each is signed by the next (`verifyChainToRoot_eq_true_iff`).

The walk is by recursion on the certificates that are left, and a pinned root is the last of them. A
result that relies on certificates meaning something says so of the engine; that a walk which holds
is a chain does not.
-/

namespace Cordon

/-- The verification algorithms of the `ring` crate that are used. -/
inductive RingAlgorithm
  | rsaPkcs1Sha256
  | rsaPkcs1Sha384
  | rsaPssSha256
  | rsaPssSha384
  | ecdsaP256Sha256Fixed
  | ecdsaP256Sha256Asn1
  | ecdsaP384Sha384Fixed
  | ecdsaP384Sha384Asn1
  deriving DecidableEq, Repr

/-- The functions that attestation takes from elsewhere. -/
structure PlatformEngine where
  /-- `UnparsedPublicKey::verify`: key, message, signature. -/
  verifyKey : RingAlgorithm → Bytes → Bytes → Bytes → Bool
  /-- `RsaPublicKeyComponents::verify`: modulus, exponent, message, signature. -/
  verifyRsa : RingAlgorithm → Bytes → Bytes → Bytes → Bytes → Bool
  /-- A parsed X.509 certificate. -/
  Certificate : Type
  /-- `X509Certificate::from_der`, with the displayed error. -/
  fromDer : Bytes → Except String Certificate
  /-- The issuer's name. -/
  issuer : Certificate → Bytes
  /-- The subject's name. -/
  subject : Certificate → Bytes
  /-- The part of the certificate that is signed. -/
  tbsCertificate : Certificate → Bytes
  signatureValue : Certificate → Bytes
  /-- The signature algorithm's object identifier. -/
  signatureAlgorithm : Certificate → String
  subjectPublicKey : Certificate → Bytes
  /-- Whether the certificate is within its validity window when it is looked at. -/
  isValid : Certificate → Bool
  /-- Standard Base64, with the displayed error. -/
  base64Decode : String → Except String Bytes
  /-- The displayed error of a text that is not hexadecimal. -/
  hexError : String → String
  /-- `str::to_lowercase`. -/
  toLowercase : String → String

variable (X : PlatformEngine)

/-- Parse a certificate, with the words of the caller in front of the error. -/
def parseCertificate (what : String) (der : Bytes) : Except CryptoError X.Certificate :=
  match X.fromDer der with
  | .ok cert => .ok cert
  | .error e => .error (.attestationFailed (what ++ " is not valid DER X.509: " ++ e))

/-- The algorithm that an object identifier names, among those that are verified. -/
def ringAlgorithmOf : String → Option RingAlgorithm
  | "1.2.840.113549.1.1.10" => some .rsaPssSha384
  | "1.2.840.113549.1.1.12" => some .rsaPkcs1Sha384
  | "1.2.840.113549.1.1.11" => some .rsaPkcs1Sha256
  | "1.2.840.10045.4.3.3" => some .ecdsaP384Sha384Asn1
  | "1.2.840.10045.4.3.2" => some .ecdsaP256Sha256Asn1
  | _ => none

/-- `verify_signed_by`: whether `child` was signed by `parent`. -/
def verifySignedBy (childDer parentDer : Bytes) : Except CryptoError Bool := do
  let child ← parseCertificate X "certificate" childDer
  let parent ← parseCertificate X "issuer" parentDer
  if X.issuer child ≠ X.subject parent then return false
  let algorithm := X.signatureAlgorithm child
  match ringAlgorithmOf algorithm with
  | some alg =>
    let key := X.subjectPublicKey parent
    return X.verifyKey alg key (X.tbsCertificate child) (X.signatureValue child)
  | none =>
    throw (.attestationFailed ("certificate is signed with algorithm " ++ algorithm ++
      ", which Cordon does not verify. AMD's chain uses RSASSA-PSS with SHA-384 and AWS's uses " ++
      "ECDSA with SHA-384."))

/-- Walk from a certificate through the given issuers; the certificate reached last comes with the
verdict. -/
def walkChain (child : Bytes) : List Bytes → Except CryptoError (Option Bytes)
  | [] => .ok (some child)
  | parent :: parents => do
    if ← verifySignedBy X child parent then walkChain parent parents else return none

/-- `verify_chain_to_root`: walk the leaf through the intermediates to the pinned root. -/
def verifyChainToRoot (leafDer : Bytes) (intermediatesDer : List Bytes) (rootDer : Bytes) :
    Except CryptoError Bool := do
  match ← walkChain X leafDer intermediatesDer with
  | some child => verifySignedBy X child rootDer
  | none => return false

/-- `is_currently_valid`: whether a certificate is within its validity window. -/
def isCurrentlyValid (certDer : Bytes) : Except CryptoError Bool := do
  let cert ← parseCertificate X "certificate" certDer
  return X.isValid cert

/-- `public_key_bytes`: the subject public key of a certificate. -/
def publicKeyBytes (certDer : Bytes) : Except CryptoError Bytes := do
  let cert ← parseCertificate X "certificate" certDer
  return X.subjectPublicKey cert

/-! ### What a chain that holds is -/

/-- One certificate was issued by the subject of another and is signed by its key, in an algorithm
that is verified. -/
def SignedBy (childDer parentDer : Bytes) : Prop :=
  ∃ child parent alg, X.fromDer childDer = .ok child ∧ X.fromDer parentDer = .ok parent ∧
    X.issuer child = X.subject parent ∧
    ringAlgorithmOf (X.signatureAlgorithm child) = some alg ∧
    X.verifyKey alg (X.subjectPublicKey parent) (X.tbsCertificate child) (X.signatureValue child) =
      true

variable {X}

@[simp]
theorem parseCertificate_eq_ok {what : String} {der : Bytes} {cert : X.Certificate} :
    parseCertificate X what der = .ok cert ↔ X.fromDer der = .ok cert := by
  rw [parseCertificate]
  split
  · next h => rw [h, Except.ok.injEq, Except.ok.injEq]
  · next h => simp [h]

theorem verifySignedBy_eq_true_iff {childDer parentDer : Bytes} :
    verifySignedBy X childDer parentDer = .ok true ↔ SignedBy X childDer parentDer := by
  simp only [verifySignedBy, SignedBy, Except.bind_eq_ok, parseCertificate_eq_ok]
  constructor
  · rintro ⟨child, hchild, parent, hparent, h⟩
    split at h
    · simp at h
    · next hissuer =>
      split at h
      · next alg halg =>
        exact ⟨child, parent, alg, hchild, hparent, not_not.1 hissuer, halg, by simpa using h⟩
      · simp [throw, throwThe, MonadExceptOf.throw] at h
  · rintro ⟨child, parent, alg, hchild, hparent, hissuer, halg, hverify⟩
    refine ⟨child, hchild, parent, hparent, ?_⟩
    rw [if_neg (not_not.2 hissuer)]
    simp [halg, hverify]

/-- **The walk finds a chain exactly when each certificate is signed by the next**, up to the
root. -/
theorem verifyChainToRoot_eq_true_iff {leafDer rootDer : Bytes} {intermediatesDer : List Bytes} :
    verifyChainToRoot X leafDer intermediatesDer rootDer = .ok true ↔
      (leafDer :: intermediatesDer ++ [rootDer]).IsChain (SignedBy X) := by
  induction intermediatesDer generalizing leafDer with
  | nil =>
    show verifySignedBy X leafDer rootDer = .ok true ↔ [leafDer, rootDer].IsChain (SignedBy X)
    rw [verifySignedBy_eq_true_iff, List.isChain_pair]
  | cons parent parents ih =>
    rw [List.cons_append, List.cons_append, List.isChain_cons_cons, ← List.cons_append, ← ih,
      ← verifySignedBy_eq_true_iff]
    simp only [verifyChainToRoot, walkChain]
    rcases verifySignedBy X leafDer parent with e | signed
    · simp
    · cases signed with
      | true => simp
      | false => simp

theorem isCurrentlyValid_eq_ok {certDer : Bytes} {valid : Bool} :
    isCurrentlyValid X certDer = .ok valid ↔
      ∃ cert, X.fromDer certDer = .ok cert ∧ X.isValid cert = valid := by
  simp only [isCurrentlyValid, Except.bind_eq_ok, Except.pure_eq_ok, parseCertificate_eq_ok]

theorem publicKeyBytes_eq_ok {certDer key : Bytes} :
    publicKeyBytes X certDer = .ok key ↔
      ∃ cert, X.fromDer certDer = .ok cert ∧ X.subjectPublicKey cert = key := by
  simp only [publicKeyBytes, Except.bind_eq_ok, Except.pure_eq_ok, parseCertificate_eq_ok]

end Cordon
