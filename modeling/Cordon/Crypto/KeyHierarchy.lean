import Cordon.Crypto.Signing

/-!
# The key hierarchy

Every key is derived from the Client Master Key with HKDF-SHA256, and what it is for stands in the
info string: a purpose, an identifier and a client with colons between them. The five purposes with
an identifier and a client share one format (`keyInfo`); the key of a shard is derived from the key
of its bundle.

HKDF itself is not part of this repository. `Hkdf` expands a key to 32 bytes under an info string.

Nothing is assumed of it here. A result that needs keys to be different says on which info strings
HKDF is not to collide (`Core.KeyContexts`), and one that needs keys to be the same needs no
assumption: the derivation is a function.
-/

namespace Cordon

/-- HKDF-SHA256 with a 32-byte output, from the input key material and the info string. -/
abbrev Hkdf : Type :=
  Bytes → Bytes → Except String Bytes

/-! ### Info strings -/

namespace DomainSeparation

/-- Bundle encryption key. -/
def bundleKey : String := "CORDON_BUNDLE_KEY_v1"
/-- Per-shard encryption key. -/
def shardKey : String := "CORDON_SHARD_KEY_v1"
/-- Session authentication key. -/
def sessionKey : String := "CORDON_SESSION_KEY_v1"
/-- Audit log signing key. -/
def logKey : String := "CORDON_LOG_KEY_v1"
/-- Administrative command authorization key. -/
def adminKey : String := "CORDON_ADMIN_KEY_v1"
/-- Enclave response-signing key. -/
def enclaveKey : String := "CORDON_ENCLAVE_KEY_v1"

end DomainSeparation

/-- The format of the info strings with an identifier and a client. Neither is escaped. -/
def keyInfo (domain identifier clientId : String) : String :=
  domain ++ ":" ++ identifier ++ ":" ++ clientId

/-- The HKDF info string for a bundle key. -/
def bundleKeyInfo (bundleId clientId : String) : String :=
  keyInfo DomainSeparation.bundleKey bundleId clientId

/-- The HKDF info string for a session key. -/
def sessionKeyInfo (deploymentId clientId : String) : String :=
  keyInfo DomainSeparation.sessionKey deploymentId clientId

/-- The HKDF info string for a log signing key. -/
def logKeyInfo (deploymentId clientId : String) : String :=
  keyInfo DomainSeparation.logKey deploymentId clientId

/-- The HKDF info string for an admin authorization key. -/
def adminKeyInfo (deploymentId clientId : String) : String :=
  keyInfo DomainSeparation.adminKey deploymentId clientId

/-- The HKDF info string for the enclave response-signing key. -/
def enclaveKeyInfo (deploymentId clientId : String) : String :=
  keyInfo DomainSeparation.enclaveKey deploymentId clientId

/-- The HKDF info string for a shard key. -/
def shardKeyInfo (shardIndex : ℕ) : String :=
  DomainSeparation.shardKey ++ ":" ++ toString shardIndex

/-! ### Derivation -/

section Derivation

variable (hkdf : Hkdf)

/-- Derive a 32-byte key, the standard output for AES-256 and Ed25519 seeds. -/
def derive32ByteKey (ikm : Bytes) (info : String) : Except CryptoError Bytes :=
  (hkdf ikm (Text.asBytes info)).mapError .kdfFailed

/-- Client Master Key, the root of the hierarchy. -/
structure MasterKey where
  bytes : Bytes
  deriving DecidableEq

namespace MasterKey

variable (master : MasterKey)

/-- The bundle encryption key for a model bundle and a client. -/
def deriveBundleKey (bundleId clientId : String) : Except CryptoError Bytes :=
  derive32ByteKey hkdf master.bytes (bundleKeyInfo bundleId clientId)

/-- The session authentication key for a deployment and a client. -/
def deriveSessionKey (deploymentId clientId : String) : Except CryptoError Bytes :=
  derive32ByteKey hkdf master.bytes (sessionKeyInfo deploymentId clientId)

/-- The audit log signing key. -/
def deriveLogSigningKey (deploymentId clientId : String) : Except CryptoError SigningKey :=
  (derive32ByteKey hkdf master.bytes (logKeyInfo deploymentId clientId)).map SigningKey.mk

/-- The enclave response-signing key. -/
def deriveEnclaveKey (deploymentId clientId : String) : Except CryptoError SigningKey :=
  (derive32ByteKey hkdf master.bytes (enclaveKeyInfo deploymentId clientId)).map SigningKey.mk

/-- The admin authorization key. -/
def deriveAdminKey (deploymentId clientId : String) : Except CryptoError SigningKey :=
  (derive32ByteKey hkdf master.bytes (adminKeyInfo deploymentId clientId)).map SigningKey.mk

end MasterKey

/-- The key of a shard, from the key of its bundle. -/
def deriveShardKey (bundleKey : Bytes) (shardIndex : ℕ) : Except CryptoError Bytes :=
  derive32ByteKey hkdf bundleKey (shardKeyInfo shardIndex)

end Derivation

end Cordon
