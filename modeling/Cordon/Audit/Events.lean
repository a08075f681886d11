import Cordon.Lib.Rfc3339

/-!
# Audit events

The event types an audit entry carries, constructor by constructor and field by field as the log
serializes them. A single-precision score is kept as its bit pattern: the log never computes with
it, it only writes and reads it.

Every variant of the source is here, also those that no modelled function writes: what the log does
with an entry does not depend on its payload, and the results about the log are for all of them.
-/

namespace Cordon

/-- A universally unique identifier. -/
structure Uuid where
  value : BitVec 128
  deriving DecidableEq

/-- The hyphenated lower-case form. -/
def Uuid.display (u : Uuid) : String :=
  let h := Text.hexChars (Bytes.beBytes 16 u.value.toNat)
  String.ofList (h.take 8 ++ '-' :: (h.drop 8).take 4 ++ '-' :: (h.drop 12).take 4 ++
    '-' :: (h.drop 16).take 4 ++ '-' :: h.drop 20)

/-- A single-precision number, by its bit pattern. -/
structure F32 where
  bits : BitVec 32
  deriving DecidableEq, Repr

namespace Audit

/-- Why inference generation stopped. -/
inductive FinishReason where
  | stop | length | contentFilter | timeout | error
  deriving DecidableEq, Repr

/-- Inference request completed. -/
structure InferenceEvent where
  requestId : Uuid
  clientId : String
  sessionId : Option Uuid
  modelId : String
  mrenclave : String
  inputHash : String
  outputHash : String
  promptTokens : ℕ
  completionTokens : ℕ
  latencyMs : ℕ
  finishReason : FinishReason
  contentPolicyTriggered : Bool
  policyRulesMatched : List String
  covertChannelScore : F32
  timingBucketMs : Option ℕ
  deriving DecidableEq

/-- Type of security alert. -/
inductive AlertType where
  | tamperDetected | attestationFailure | integrityViolation | sustainedProbe
  | covertChannelSuspected | unauthorizedAdmin | rateLimitExceeded | authFailure | replayAttack
  deriving DecidableEq, Repr

/-- Alert severity. -/
inductive AlertSeverity where
  | low | medium | high | critical
  deriving DecidableEq, Repr

/-- Automatic action taken in response to a security event. -/
inductive AutoAction where
  | continue | quarantine | halt | zeroize | suspendClient | blockIp
  deriving DecidableEq, Repr

/-- State of the enclave after an event. -/
inductive EnclaveState where
  | operational | quarantine | locked | zeroized
  deriving DecidableEq, Repr

/-- Security alert raised. -/
structure SecurityAlertEvent where
  alertType : AlertType
  severity : AlertSeverity
  detailHash : String
  summary : String
  automaticAction : AutoAction
  enclaveStateAfter : EnclaveState
  sourceIdentifier : Option String
  deriving DecidableEq

/-- Type of administrative action. -/
inductive AdminAction where
  | keyRotation | modelUpdate | configChange | teardown | recovery | logExport | reAttestation
  | softwareUpdate
  deriving DecidableEq, Repr

/-- Result of an action. -/
inductive ActionResult where
  | success | failure | rejected
  deriving DecidableEq, Repr

/-- Administrative action. -/
structure AdminEvent where
  clientId : String
  actorKeyId : String
  action : AdminAction
  authorizationSigValid : Bool
  parametersHash : String
  result : ActionResult
  failureReason : Option String
  deriving DecidableEq

/-- What triggered an attestation. -/
inductive AttestationTrigger where
  | boot | scheduled | clientRequest | postUpdate
  deriving DecidableEq, Repr

/-- Attestation cycle event. -/
structure AttestationEvent where
  trigger : AttestationTrigger
  tpmPcrSnapshotHash : String
  mrenclave : String
  clientVerified : Bool
  keyReleased : Bool
  nonce : String
  deriving DecidableEq

/-- Key rotation event. -/
structure KeyRotationEvent where
  bundleId : String
  previousEpoch : ℕ
  newEpoch : ℕ
  emergency : Bool
  requestsDropped : ℕ
  deriving DecidableEq

/-- Source of a tamper event. -/
inductive TamperSource where
  | chassisIntrusion | hsmTamperDetect | pcrChange | weightIntegrity | logChainBroken
  deriving DecidableEq, Repr

/-- Tamper event. -/
structure TamperEvent where
  source : TamperSource
  hsmZeroized : Bool
  enclaveZeroized : Bool
  recoveryRequired : List String
  deriving DecidableEq

/-- Type of lifecycle event. -/
inductive LifecycleEventType where
  | boot | shutdown | quarantineEnter | quarantineExit | enclaveRestart
  deriving DecidableEq, Repr

/-- Node lifecycle event. -/
structure LifecycleEvent where
  event : LifecycleEventType
  cordonVersion : String
  teeType : String
  nodeId : String
  deriving DecidableEq

/-- Log export event. -/
structure LogExportEvent where
  requesterClientId : String
  exportMethod : String
  rangeStart : DateTime
  rangeEnd : DateTime
  entriesExported : ℕ
  exportHash : String
  recipientKeyId : String
  deriving DecidableEq

/-- Bundle action type. -/
inductive BundleAction where
  | loaded | integrityCheckPassed | integrityCheckFailed | unloaded
  deriving DecidableEq, Repr

/-- Model bundle event. -/
structure ModelBundleEvent where
  bundleId : String
  action : BundleAction
  manifestHash : String
  clientSigVerified : Bool
  vendorSigVerified : Bool
  deriving DecidableEq

end Audit

open Audit in
/-- All possible audit events. -/
inductive AuditEvent where
  | inference (e : InferenceEvent)
  | securityAlert (e : SecurityAlertEvent)
  | admin (e : AdminEvent)
  | attestation (e : AttestationEvent)
  | keyRotation (e : KeyRotationEvent)
  | tamper (e : TamperEvent)
  | lifecycle (e : LifecycleEvent)
  | logExport (e : LogExportEvent)
  | modelBundle (e : ModelBundleEvent)
  deriving DecidableEq

end Cordon
