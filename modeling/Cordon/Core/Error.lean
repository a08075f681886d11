import Cordon.Audit.Events

/-!
# The node's errors

The variants of `CordonError` that the modelled functions return, with the data each carries. Their
displayed texts are left out: no modelled function reads them back.

A variant is kept as soon as one modelled function returns it. A text that stands inside a variant
is the text of the source.
-/

namespace Cordon

/-- `CordonError`. -/
inductive CordonError
  | authFailed (message : String)
  | rateLimitExceeded (clientId : String)
  | validationFailed (message : String)
  | inferenceFailed (message : String)
  | modelNotFound (bundleId : String)
  | modelIntegrityViolation (bundleId : String)
  | attestationInvalid (message : String)
  | quarantined
  | contentPolicyViolation (ruleId : String)
  | covertChannelDetected (score : F32)
  | auditWriteFailed (message : String)
  | configError (message : String)
  | requestTooLarge (message : String)
  | modeForbidden (mode reason : String)
  | timeout (seconds : ℕ)
  | overloaded (maxConcurrent : ℕ)
  | adminRejected (message : String)
  | keyError (message : String)
  | modelDownloadFailed (message : String)
  | internal (message : String)
  deriving DecidableEq, Repr

end Cordon
