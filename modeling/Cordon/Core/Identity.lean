import Cordon.Core.Error
import Cordon.Crypto.Kdf
import Cordon.Lib.Result
import Cordon.Lib.Text
import Mathlib.Data.List.AList

/-!
# Clients and what they may do

A client is known by the certificate it connected with. The registry decides offline whether it may
be served at all and under which policy: the enrolled one, or the defaults when the registry admits
clients it does not know.

Times are nanoseconds since the epoch. Maps keyed by a string are association lists without
duplicate keys, which is all that the code uses of its hash maps.

`IdentityRegistry.verify` is the check that an admission makes, and `ClientPolicy.modelPermitted`
what is asked about the model afterwards. Suspensions and revocations change the registry; what
holds of them over time is the subject of `Core.Suspensions`, and how a connection comes by its
identifier that of `Core.RequestIdentity`.
-/

namespace Cordon

/-- A map from strings, as the code keeps in a `HashMap`. -/
abbrev StringMap (V : Type) : Type :=
  AList fun _ : String ↦ V

/-- The parts of text handling that come from elsewhere: Unicode case conversion and how a time is
displayed. -/
structure HostText where
  /-- `str::to_lowercase`. -/
  toLowercase : List Char → List Char
  /-- The displayed form of a time. -/
  displayTime : ℤ → String

/-- `ClientIdentity`: what admission reads of a client's certificate. -/
structure ClientIdentity where
  clientId : String
  notBefore : ℤ
  notAfter : ℤ
  /-- SHA-256 of the certificate in hexadecimal. -/
  fingerprint : String
  deriving DecidableEq, Repr

/-- Whether the certificate's validity window contains `now`. -/
def ClientIdentity.isValidAt (identity : ClientIdentity) (now : ℤ) : Bool :=
  decide (identity.notBefore ≤ now) && decide (now ≤ identity.notAfter)

/-- Authorization policy for a client. -/
structure ClientPolicy where
  clientId : String
  active : Bool
  /-- Permitted model bundles. Empty means every registered bundle. -/
  permittedModels : List String
  maxTokensPerRequest : ℕ
  maxRequestsPerMinute : ℕ
  maxTokensPerMinute : ℕ
  adminAllowed : Bool
  logExportAllowed : Bool
  policyExpiresAt : Option ℤ
  /-- Certificate fingerprint pins. Empty means any certificate bearing this client's name. -/
  certPins : List String
  deriving DecidableEq, Repr

/-- Default policy applied to a client with no registry entry. -/
def ClientPolicy.defaultFor (clientId : String) : ClientPolicy where
  clientId := clientId
  active := true
  permittedModels := []
  maxTokensPerRequest := 4096
  maxRequestsPerMinute := 60
  maxTokensPerMinute := 100000
  adminAllowed := false
  logExportAllowed := false
  policyExpiresAt := none
  certPins := []

/-- Whether a model bundle is permitted for this client. -/
def ClientPolicy.modelPermitted (policy : ClientPolicy) (bundleId : String) : Bool :=
  if policy.permittedModels.isEmpty then true
  else policy.permittedModels.any (· == bundleId)

theorem ClientPolicy.modelPermitted_iff {policy : ClientPolicy} {bundleId : String} :
    policy.modelPermitted bundleId = true ↔
      policy.permittedModels = [] ∨ bundleId ∈ policy.permittedModels := by
  by_cases hempty : policy.permittedModels = []
  · simp [modelPermitted, hempty]
  · rw [modelPermitted, if_neg (by simpa using hempty), List.any_eq_true]
    simp [hempty]

/-- Whether the policy is active and unexpired at `now`. -/
def ClientPolicy.isValidAt (policy : ClientPolicy) (now : ℤ) : Bool :=
  policy.active && (policy.policyExpiresAt.map fun expires ↦ decide (now < expires)).getD true

/-- How the registry treats clients that have no explicit policy entry. -/
inductive UnknownClientPolicy
  | deny
  | allowWithDefaults
  deriving DecidableEq, Repr

/-- A client the registry has suspended. -/
structure SuspendedClient where
  suspendedUntil : ℤ
  reason : String
  deriving DecidableEq, Repr

/-- Local identity registry. -/
structure IdentityRegistry where
  policies : StringMap ClientPolicy
  suspended : StringMap SuspendedClient
  unknownClient : UnknownClientPolicy

/-- The policy of a client, enrolled or by default. -/
def IdentityRegistry.policyFor (registry : IdentityRegistry) (clientId : String) :
    Except CordonError ClientPolicy :=
  match registry.policies.lookup clientId with
  | some policy => .ok policy
  | none =>
    match registry.unknownClient with
    | .allowWithDefaults => .ok (.defaultFor clientId)
    | .deny => .error (.authFailed
        ("client " ++ clientId ++ " is not enrolled in the client registry"))

/-- Whether one of the policy's pins is the fingerprint, up to case and surrounding blanks. -/
def ClientPolicy.pinMatches (H : HostText) (policy : ClientPolicy) (fingerprint : String) : Bool :=
  policy.certPins.any fun pin ↦
    ctEq (Utf8.encode (H.toLowercase (Text.trim pin.toList))) (Text.asBytes fingerprint)

/-- `IdentityRegistry::verify`: verify an identity and return its authorization policy. -/
def IdentityRegistry.verify (H : HostText) (registry : IdentityRegistry) (now : ℤ)
    (identity : ClientIdentity) : Except CordonError ClientPolicy := do
  if !identity.isValidAt now then
    throw (.authFailed
      ("certificate outside its validity window for client " ++ identity.clientId))
  if let some s := registry.suspended.lookup identity.clientId then
    if now < s.suspendedUntil then
      throw (.authFailed ("client " ++ identity.clientId ++ " is suspended until " ++
        H.displayTime s.suspendedUntil ++ ": " ++ s.reason))
  let policy ← registry.policyFor identity.clientId
  if !policy.isValidAt now then
    throw (.authFailed
      ("policy for client " ++ identity.clientId ++ " is expired or inactive"))
  if !policy.certPins.isEmpty && !policy.pinMatches H identity.fingerprint then
    throw (.authFailed ("certificate pin mismatch for client " ++ identity.clientId))
  return policy

end Cordon
