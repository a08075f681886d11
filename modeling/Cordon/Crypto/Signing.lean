import Cordon.Lib.Text

/-!
# Cryptographic errors and Ed25519 signatures

`CryptoError` is the error type of the cryptographic layer, with the text each error displays.

The signature primitive itself is not part of this repository. `Ed25519` collects what the wrappers
call: decoding a public key, signing, verifying. Nothing is assumed of it here; the two properties
arguments rely on are stated where they are used, `Ed25519.SignsFor` (a signature verifies under the
signer's public key) and, for tamper evidence, that a key accepts only messages it signed.

The first is about one key pair, and neither is a law of the primitive: an assumption is made of the
keys that occur. A signature is 64 bytes by its type, so a text of another length is refused before
the primitive is asked (`fromHex`), and one that was written is read back (`fromHex_toHex`).
-/

namespace Cordon

/-- Errors of cryptographic operations. -/
inductive CryptoError where
  | encryptionFailed (reason : String)
  | decryptionFailed
  | kdfFailed (reason : String)
  | signatureInvalid
  | signingFailed (reason : String)
  | invalidKey (reason : String)
  | attestationFailed (reason : String)
  | nonceMismatch
  | pcrMismatch (index : UInt8) (expected actual : String)
  | enclaveMeasurementMismatch (expected actual : String)
  | rngFailed (reason : String)
  | base64Error (reason : String)
  | hexError (reason : String)
  | internal (reason : String)
  deriving DecidableEq

/-- The text an error displays. -/
def CryptoError.display : CryptoError → String
  | .encryptionFailed r => "Encryption failed: " ++ r
  | .decryptionFailed => "Decryption failed; data may be tampered"
  | .kdfFailed r => "Key derivation failed: " ++ r
  | .signatureInvalid => "Signature verification failed"
  | .signingFailed r => "Signing failed: " ++ r
  | .invalidKey r => "Invalid key material: " ++ r
  | .attestationFailed r => "Attestation verification failed: " ++ r
  | .nonceMismatch => "Nonce mismatch; possible replay attack"
  | .pcrMismatch i e a =>
    "PCR value mismatch at index " ++ toString i ++ ": expected " ++ e ++ ", got " ++ a
  | .enclaveMeasurementMismatch e a => "MRENCLAVE mismatch: expected " ++ e ++ ", got " ++ a
  | .rngFailed r => "Random number generation failed: " ++ r
  | .base64Error r => "Base64 decode error: " ++ r
  | .hexError r => "Hex decode error: " ++ r
  | .internal r => "Internal crypto error: " ++ r

/-- A 64-byte signature. -/
structure Signature where
  bytes : Bytes
  length_eq : bytes.length = 64
  deriving DecidableEq

theorem Signature.length_zeros : (List.replicate 64 (0 : UInt8)).length = 64 :=
  List.length_replicate

/-- The Ed25519 primitive the wrappers call: the public key of a seed, signing, whether 32 bytes
decode to a point (or the reason they do not), and verification under a decoded point. -/
structure Ed25519 where
  publicKey : Bytes → Bytes
  sign : Bytes → Bytes → Signature
  decodePoint : Bytes → Except String Unit
  verify : Bytes → Bytes → Signature → Bool

/-- A signing key, by its seed. -/
structure SigningKey where
  seed : Bytes
  deriving DecidableEq

/-- A verifying key, by its encoded point. -/
structure VerifyingKey where
  bytes : Bytes
  deriving DecidableEq

variable (E : Ed25519)

/-- The verifying key of a signing key. -/
def SigningKey.verifyingKey (key : SigningKey) : VerifyingKey :=
  ⟨E.publicKey key.seed⟩

/-- Sign a message. -/
def SigningKey.sign (key : SigningKey) (msg : Bytes) : Signature :=
  E.sign key.seed msg

/-- Verify a signature. -/
def VerifyingKey.verify (vk : VerifyingKey) (msg : Bytes) (sig : Signature) :
    Except CryptoError Unit :=
  match E.decodePoint vk.bytes with
  | .error e => .error (.invalidKey e)
  | .ok () => if E.verify vk.bytes msg sig then .ok () else .error .signatureInvalid

/-- A key pair whose signatures verify: the correctness of the primitive for one key. -/
def Ed25519.SignsFor (key : SigningKey) : Prop :=
  ∀ msg, (key.verifyingKey E).verify E msg (key.sign E msg) = .ok ()

namespace Signature

/-- The hexadecimal form of a signature. -/
def toHex (s : Signature) : String :=
  Text.hexEncode s.bytes

/-- Read a signature from hexadecimal. -/
def fromHex (s : String) : Except CryptoError Signature :=
  match Text.hexDecode s with
  | none => .error (.hexError (Text.hexError s))
  | some bytes =>
    if h : bytes.length = 64 then .ok ⟨bytes, h⟩
    else .error (.invalidKey "Ed25519 signature must be 64 bytes")

/-- Reading back a written signature. -/
@[simp]
theorem fromHex_toHex (s : Signature) : fromHex s.toHex = .ok s := by
  rw [fromHex, toHex, Text.hexDecode_hexEncode]
  simp [s.length_eq]

end Signature

end Cordon
