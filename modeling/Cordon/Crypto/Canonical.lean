import Cordon.Crypto.Kdf
import Cordon.Lib.Sha256

/-!
# The canonical encoding and the attestation challenge

Values that a client hashes on its own are written field by field: a version tag and a section name,
then every field in a fixed order, strings and nested sections behind their length.

The challenge that a platform quote commits to is built in the same way from the node's
response-signing key and the verifier's nonce. Its preimage determines both
(`challengePreimage_inj`), so under a hash without collisions **a challenge binds one key to one
nonce** (`attestationChallenge_inj`), also in the form padded to the width of a report field.

Both results rest on lengths: the domain tag is fixed, and the key and the nonce each stand behind
the number of their bytes, so there is one place to cut. The padding adds zeros behind a digest of
one width (`confidentialVmChallenge_eq`). Collisions are excluded for the two preimages that are
compared, and for no others (`CollisionFreeOn`).
-/

namespace Cordon

namespace Canonical

/-- Version tag prefixed to every canonical encoding. -/
def versionTag : Bytes :=
  Text.asBytes "CORDON_CANON_v1"

/-- Begin an encoding for the named section. -/
def new (sectionName : String) : Bytes :=
  versionTag ++ Bytes.blob (Text.asBytes sectionName)

/-- A single byte. -/
def writeU8 (value : UInt8) : Bytes :=
  [value]

/-- A 16-bit value, big-endian. -/
def writeU16 (value : ℕ) : Bytes :=
  Bytes.beBytes 2 value

/-- A 32-bit value, big-endian. A longer value is cut to 32 bits. -/
def writeU32 (value : ℕ) : Bytes :=
  Bytes.beBytes 4 value

/-- A signed 64-bit value, big-endian. -/
def writeI64 (value : ℤ) : Bytes :=
  Bytes.beBytes 8 (value % 2 ^ 64).toNat

/-- A string behind its length. -/
def writeStr (value : String) : Bytes :=
  Bytes.blob (Text.asBytes value)

end Canonical

/-- Domain separator for the value placed in a quote's `extraData`. -/
def challengeDomain : Bytes :=
  Text.asBytes "CORDON_ATTEST_CHALLENGE_v1"

/-- What the challenge is the digest of. -/
def challengePreimage (enclaveSigningKeyHex clientNonce : String) : Bytes :=
  challengeDomain ++ Bytes.blob (Text.asBytes enclaveSigningKeyHex) ++
    Bytes.blob (Text.asBytes clientNonce)

/-- `attestation_challenge`: the value a platform quote must commit to in its `extraData`. -/
def attestationChallenge (enclaveSigningKeyHex clientNonce : String) : Bytes :=
  Sha256.digest (challengePreimage enclaveSigningKeyHex clientNonce)

/-- `confidential_vm_challenge`: the challenge, padded with zeroes to the 64 bytes of a report
field. -/
def confidentialVmChallenge (enclaveSigningKeyHex clientNonce : String) : Bytes :=
  let digest := attestationChallenge enclaveSigningKeyHex clientNonce
  let len := min digest.length 64
  digest.take len ++ List.replicate (64 - len) 0

theorem length_attestationChallenge (key nonce : String) :
    (attestationChallenge key nonce).length = 32 :=
  Sha256.length_digest _

theorem confidentialVmChallenge_eq (key nonce : String) :
    confidentialVmChallenge key nonce = attestationChallenge key nonce ++ List.replicate 32 0 := by
  have hlen := length_attestationChallenge key nonce
  simp only [confidentialVmChallenge, hlen]
  rw [List.take_of_length_le (by omega)]
  rfl

/-- **The preimage determines the key and the nonce.** -/
theorem challengePreimage_inj {key key' nonce nonce' : String}
    (hkey : (Text.asBytes key).length < 2 ^ 32) (hkey' : (Text.asBytes key').length < 2 ^ 32)
    (hnonce : (Text.asBytes nonce).length < 2 ^ 32)
    (hnonce' : (Text.asBytes nonce').length < 2 ^ 32)
    (h : challengePreimage key nonce = challengePreimage key' nonce') :
    key = key' ∧ nonce = nonce' := by
  rw [challengePreimage, challengePreimage, List.append_assoc, List.append_assoc] at h
  obtain ⟨hk, hn⟩ := Bytes.blob_append_inj hkey hkey' (List.append_cancel_left h)
  exact ⟨Text.asBytes_injective hk, Text.asBytes_injective (Bytes.blob_inj hnonce hnonce' hn)⟩

/-- **A challenge binds one key to one nonce.** -/
theorem attestationChallenge_inj {key key' nonce nonce' : String}
    (hfree : Sha256.CollisionFreeOn {challengePreimage key nonce, challengePreimage key' nonce'})
    (hkey : (Text.asBytes key).length < 2 ^ 32) (hkey' : (Text.asBytes key').length < 2 ^ 32)
    (hnonce : (Text.asBytes nonce).length < 2 ^ 32)
    (hnonce' : (Text.asBytes nonce').length < 2 ^ 32)
    (h : attestationChallenge key nonce = attestationChallenge key' nonce') :
    key = key' ∧ nonce = nonce' :=
  challengePreimage_inj hkey hkey' hnonce hnonce' (hfree _ (by simp) _ (by simp) h)

end Cordon
