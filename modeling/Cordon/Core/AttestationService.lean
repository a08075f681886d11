import Cordon.Core.Admission
import Cordon.Crypto.HardwareRoot
import Cordon.Lib.Table
import Cordon.Lib.Transition

/-!
# The attestation gate

In a mode that requires a hardware enclave the node serves a client only after that client has
verified the node's attestation. `AttestationService` keeps one record for each client that has, and
`verifyForClient` is the only operation that makes one: it checks the report against what the
operator pinned and, in such a mode, refuses a report without a verified platform quote.

A run is any sequence of calls, of expiries and of time passing (`GateEvent`). `GateRun` remembers
beside the service which calls went through, so that **the most recent successful call of a client**
(`latest`) can be compared with what the service answers. The checks of a call read its arguments
and the configuration only, and the insertion is one write under the lock, so a call is one step;
the expiry reads its clock before it takes the lock, so its reading may be any earlier or later one.

`attestation_gate_is_per_client` is the result: the gate is open for a client only on account of the
client's own latest successful call, while it is fresh, and neither another client's call nor a
failed one changes the answer.
-/

namespace Cordon

open Transition

/-! ### What an operator configures -/

/-- `TeePreference`. -/
inductive TeePreference
  | sgxV2
  | amdSevSnp
  | armTrustZone
  | simulation
  deriving DecidableEq, Repr

/-- The technology a preference asks for. -/
def TeePreference.teeType : TeePreference → TeeType
  | .sgxV2 => .intelSgxV2
  | .amdSevSnp => .amdSevSnp
  | .armTrustZone => .armTrustZone
  | .simulation => .simulation

/-- Operator-pinned expected measurements. The pins for a platform have the same fields here and in
`ExpectedMeasurements`. -/
structure ExpectedMeasurementsConfig where
  pcrValues : IndexMap String
  mrenclave : Option String
  mrsigner : Option String
  minIsvSvn : ℕ
  sevSnp : Option SevSnpPins
  nitro : Option NitroPins

/-- Whether the operator pinned nothing at all. The platforms' own pins do not count. -/
def ExpectedMeasurementsConfig.isEmpty (pinned : ExpectedMeasurementsConfig) : Bool :=
  pinned.pcrValues.isEmpty && pinned.mrenclave.isNone && pinned.mrsigner.isNone

/-- The displayed form of a deployment mode. -/
def DeploymentMode.display : DeploymentMode → String
  | .dark => "dark"
  | .island => "island"
  | .vault => "vault"
  | .sovereignCloud => "sovereign_cloud"
  | .light => "light"

/-- Nanoseconds in an hour. -/
def nanosPerHour : ℤ := 3600000000000

/-- An unsigned 64-bit number taken as a signed one. -/
def asI64 (n : ℕ) : ℤ :=
  (BitVec.ofNat 64 n).toInt

/-- `chrono::Duration::hours`, in nanoseconds; it panics on what a duration cannot hold. -/
def durationHours (hours : ℤ) : Option ℤ :=
  if -9223372036854775 ≤ hours * 3600 ∧ hours * 3600 ≤ 9223372036854775 then
    some (hours * nanosPerHour)
  else none

theorem asI64_le (n : ℕ) : asI64 n ≤ n := by
  rw [asI64, BitVec.toInt_eq_toNat_cond, BitVec.toNat_ofNat]
  split <;> omega

theorem asI64_eq {n : ℕ} (h : n < 2 ^ 63) : asI64 n = n := by
  rw [asI64, BitVec.toInt_eq_toNat_cond, BitVec.toNat_ofNat]
  split <;> omega

/-! ### The service -/

/-- Record of one client's successful verification. -/
structure VerificationRecord where
  clientId : String
  verifiedAt : ℤ
  /-- Combined hash of the report it accepted. -/
  combinedHash : String
  /-- What that verification established. -/
  established : VerifiedAttestation
  deriving DecidableEq, Repr

/-- What the gate needs of `AttestationService`. The node and the service hold the same
configuration. -/
structure AttestationService where
  config : NodeConfig
  preferred : TeePreference
  expected : Option ExpectedMeasurementsConfig
  verifiedClients : StringMap VerificationRecord

namespace AttestationService

/-- A new service: no client has verified the node. -/
def new (config : NodeConfig) (preferred : TeePreference)
    (expected : Option ExpectedMeasurementsConfig) : AttestationService :=
  ⟨config, preferred, expected, ∅⟩

variable (X : PlatformEngine) (service : AttestationService)

/-- The measurements a report is checked against, if any are pinned. -/
def pinnedMeasurements : Option ExpectedMeasurements :=
  match service.expected with
  | none => none
  | some pinned =>
    if pinned.isEmpty then none
    else some
      { pcrValues := pinned.pcrValues
        mrenclave := pinned.mrenclave.getD ""
        mrsigner := pinned.mrsigner.getD ""
        minIsvSvn := pinned.minIsvSvn
        teeType := service.preferred.teeType
        sevSnp := pinned.sevSnp
        nitro := pinned.nitro }

/-- The service with a client's verification recorded in place of any earlier one. -/
def recordVerification (now : ℤ) (report : AttestationReport) (clientId : String)
    (established : VerifiedAttestation) : AttestationService :=
  { service with
    verifiedClients := service.verifiedClients.insert clientId
      ⟨clientId, now, report.combined.combinedHash, established⟩ }

/-- `verify_for_client`: verify a report against the pinned measurements and, on success, record
that the client has attested this node. `nowMs` is the clock as the report's own checks read it. -/
def verifyForClient (nowMs : ℕ) (now : ℤ) (report : AttestationReport)
    (clientNonce clientId : String) : AttestationService × Except CordonError VerifiedAttestation :=
  match service.pinnedMeasurements with
  | none => (service, .error (.attestationInvalid
      ("this node has no pinned expected measurements, so an attestation report cannot be " ++
        "verified against anything. Pin them under [attestation.expected]; capture the current " ++
        "values with `cordon attest --pin`.")))
  | some expected =>
    match report.verify X nowMs expected clientNonce with
    | .error e => (service, .error (.attestationInvalid e.display))
    | .ok established =>
      -- measurements that match are not enough in a mode that requires hardware
      if service.config.requiresHardwareTee && !established.platformQuote.isHardwareVerified then
        (service, .error (.attestationInvalid
          ("this report carries no verified platform quote, and " ++ service.config.mode.display ++
            " mode requires one. Measurements alone are a claim the node makes about itself.")))
      else (service.recordVerification now report clientId established, .ok established)

/-- How long a verification lasts. -/
def interval : Option ℤ :=
  durationHours (asI64 service.config.attestationIntervalHours)

/-- Whether the client has verified this node within the re-attestation interval. -/
def isVerifiedBy (now : ℤ) (clientId : String) : Option Bool :=
  service.interval.map fun interval ↦
    match service.verifiedClients.lookup clientId with
    | some r => decide (now - r.verifiedAt < interval)
    | none => false

/-- Drop verification records that have aged past the re-attestation interval, and count them. -/
def expireStaleVerifications (now : ℤ) : AttestationService × Option ℕ :=
  match service.interval with
  | none => (service, none)
  | some interval =>
    -- exactly the records that `isVerifiedBy` would not accept at this reading of the clock
    let stale := (service.verifiedClients.entries.filter fun e ↦
      !decide (now - e.2.verifiedAt < interval)).map Sigma.fst
    ({ service with verifiedClients := service.verifiedClients.eraseAll stale }, some stale.length)

/-- `attestation_ready_for`: whether the client may be served given the node's attestation
posture. -/
def attestationReadyFor (now : ℤ) (clientId : String) : Option Bool :=
  if !service.config.requiresHardwareTee || !service.config.haltUntilVerified then some true
  else service.isVerifiedBy now clientId

variable {X service} {service' : AttestationService} {nowMs : ℕ} {now : ℤ}
  {report : AttestationReport} {clientNonce clientId other : String}
  {result : Except CordonError VerifiedAttestation}

/-- **What a call can do.** It fails and changes nothing, or it records that the client verified a
report, which in a mode that requires hardware carried a verified platform quote. -/
theorem verifyForClient_cases
    (h : service.verifyForClient X nowMs now report clientNonce clientId = (service', result)) :
    (∃ e, result = .error e ∧ service' = service) ∨
      ∃ pinned established, service.pinnedMeasurements = some pinned ∧
        report.verify X nowMs pinned clientNonce = .ok established ∧
        (service.config.requiresHardwareTee = true →
          established.platformQuote.isHardwareVerified = true) ∧
        result = .ok established ∧
        service' = service.recordVerification now report clientId established := by
  rw [verifyForClient] at h
  split at h
  · obtain ⟨rfl, rfl⟩ := Prod.mk.inj h
    exact Or.inl ⟨_, rfl, rfl⟩
  · next pinned hpinned =>
    split at h
    · obtain ⟨rfl, rfl⟩ := Prod.mk.inj h
      exact Or.inl ⟨_, rfl, rfl⟩
    · next established hverify =>
      split at h
      · obtain ⟨rfl, rfl⟩ := Prod.mk.inj h
        exact Or.inl ⟨_, rfl, rfl⟩
      · next hquote =>
        obtain ⟨rfl, rfl⟩ := Prod.mk.inj h
        refine Or.inr ⟨pinned, established, hpinned, hverify, fun hhardware ↦ ?_, rfl, rfl⟩
        simpa [hhardware] using hquote

/-- A report that verifies, with its hardware evidence if the mode requires it, is recorded. -/
theorem verifyForClient_of_verify {pinned : ExpectedMeasurements}
    {established : VerifiedAttestation} (hpinned : service.pinnedMeasurements = some pinned)
    (hverify : report.verify X nowMs pinned clientNonce = .ok established)
    (hquote : established.platformQuote.isHardwareVerified = true) :
    service.verifyForClient X nowMs now report clientNonce clientId =
      (service.recordVerification now report clientId established, .ok established) := by
  rw [verifyForClient, hpinned]
  simp only [hverify]
  rw [if_neg (by simp [hquote])]

/-- An answer depends on the client's own record only. -/
theorem attestationReadyFor_congr (hconfig : service'.config = service.config)
    (hlookup : service'.verifiedClients.lookup clientId = service.verifiedClients.lookup clientId)
    (t : ℤ) : service'.attestationReadyFor t clientId = service.attestationReadyFor t clientId := by
  rw [attestationReadyFor, attestationReadyFor, isVerifiedBy, isVerifiedBy, interval, interval,
    hconfig, hlookup]

/-- **Noninterference.** A call by another client, or one that fails, changes no answer. -/
theorem attestationReadyFor_verifyForClient
    (h : service.verifyForClient X nowMs now report clientNonce other = (service', result))
    (hother : other ≠ clientId ∨ ∃ e, result = .error e) (t : ℤ) :
    service'.attestationReadyFor t clientId = service.attestationReadyFor t clientId := by
  rcases verifyForClient_cases h with ⟨-, -, rfl⟩ | ⟨-, established, -, -, -, rfl, rfl⟩
  · rfl
  · have hne : clientId ≠ other := by
      rcases hother with hne | ⟨e, he⟩
      · exact hne.symm
      · cases he
    refine attestationReadyFor_congr ?_ ?_ t
    · rfl
    · exact AList.lookup_insert_ne hne

/-- The gate is open, where it has to be opened, on account of a record that is fresh. -/
theorem exists_record_of_attestationReadyFor
    (hhardware : service.config.requiresHardwareTee = true)
    (hhalt : service.config.haltUntilVerified = true)
    (h : service.attestationReadyFor now clientId = some true) :
    ∃ r, service.verifiedClients.lookup clientId = some r ∧
      now - r.verifiedAt < service.config.attestationIntervalHours * nanosPerHour := by
  rw [attestationReadyFor, hhardware, hhalt] at h
  obtain ⟨interval, hinterval, hrecord⟩ := Option.map_eq_some_iff.1 h
  rcases hlookup : service.verifiedClients.lookup clientId with - | r
  · simp [hlookup] at hrecord
  · refine ⟨r, rfl, ?_⟩
    have hfresh : now - r.verifiedAt < interval := by simpa [hlookup] using hrecord
    -- the interval the code computes is never longer than the configured one
    have hle : interval ≤ service.config.attestationIntervalHours * nanosPerHour := by
      rw [AttestationService.interval, durationHours] at hinterval
      split at hinterval
      · obtain rfl := Option.some.inj hinterval
        exact mul_le_mul_of_nonneg_right (asI64_le _) (by decide)
      · cases hinterval
    exact lt_of_lt_of_le hfresh hle

/-- The node as admission sees it: of each record, when it was made. -/
def nodeView (service : AttestationService) (node : CordonNode) : CordonNode :=
  { node with
    config := service.config
    verifiedClients := service.verifiedClients.mapValues VerificationRecord.verifiedAt }

/-- **Admission asks this gate**, whenever the interval is one that a duration can hold. -/
theorem attestationReadyFor_eq_nodeView (node : CordonNode)
    (hhours : service.config.attestationIntervalHours * 3600 ≤ 9223372036854775) :
    service.attestationReadyFor now clientId =
      some ((service.nodeView node).attestationReadyFor now clientId) := by
  have hinterval : service.interval =
      some (service.config.attestationIntervalHours * nanosPerHour) := by
    rw [interval, asI64_eq (by omega), durationHours, if_pos (by omega)]
  have hverified : service.isVerifiedBy now clientId =
      some ((service.nodeView node).isVerifiedBy now clientId) := by
    rw [isVerifiedBy, hinterval, Option.map_some, CordonNode.isVerifiedBy]
    have hlookup : (service.nodeView node).verifiedClients.lookup clientId =
        (service.verifiedClients.lookup clientId).map VerificationRecord.verifiedAt :=
      AList.lookup_mapValues _ _
    rw [hlookup]
    rcases service.verifiedClients.lookup clientId with - | r
    · rfl
    · rfl
  rw [attestationReadyFor, CordonNode.attestationReadyFor, hverified]
  show _ = some (if (!service.config.requiresHardwareTee ||
    !service.config.haltUntilVerified) = true then true else _)
  split <;> rfl

end AttestationService

/-! ### Runs -/

/-- A call of `verify_for_client` that succeeded. -/
structure Verification where
  clientId : String
  clientNonce : String
  report : AttestationReport
  nowMs : ℕ
  verifiedAt : ℤ

/-- A service, the time, and the calls that succeeded, the last one first. -/
structure GateRun where
  service : AttestationService
  now : ℤ
  passed : List Verification

/-- What happens around the gate. -/
inductive GateEvent
  | verifyForClient (nowMs : ℕ) (report : AttestationReport) (clientNonce clientId : String)
  /-- The clock is read before the lock is taken, at a time that is not that of the write. -/
  | expireStaleVerifications (readAt : ℤ)
  | wait (duration : ℕ)

namespace GateRun

/-- A run at its start. -/
def start (service : AttestationService) (now : ℤ) : GateRun :=
  ⟨service, now, []⟩

/-- What one event makes of a run. -/
def step (X : PlatformEngine) (s : GateRun) : GateEvent → GateRun
  | .verifyForClient nowMs report clientNonce clientId =>
    match s.service.verifyForClient X nowMs s.now report clientNonce clientId with
    | (service, .ok _) =>
      { s with
        service := service
        passed := ⟨clientId, clientNonce, report, nowMs, s.now⟩ :: s.passed }
    | (service, .error _) => { s with service := service }
  | .expireStaleVerifications readAt =>
    { s with service := (s.service.expireStaleVerifications readAt).1 }
  | .wait duration => { s with now := s.now + duration }

/-- The most recent successful call of a client. -/
def latest (s : GateRun) (clientId : String) : Option Verification :=
  s.passed.find? fun v ↦ v.clientId = clientId

/-- **The invariant.** Every record is that of the client's latest successful call, which was not
later than now and whose report was verified against the pins, with its hardware evidence if the
mode requires it. -/
def Vouched (X : PlatformEngine) (s : GateRun) : Prop :=
  ∀ clientId r, s.service.verifiedClients.lookup clientId = some r →
    ∃ v pinned, s.latest clientId = some v ∧ v.verifiedAt = r.verifiedAt ∧ v.verifiedAt ≤ s.now ∧
      s.service.pinnedMeasurements = some pinned ∧
      (s.service.config.requiresHardwareTee = true →
        v.report.IsHardwareVerified X v.nowMs pinned v.clientNonce)

variable {X : PlatformEngine} {s : GateRun}

theorem step_of_verifyForClient {nowMs : ℕ} {report : AttestationReport}
    {clientNonce clientId : String} {service : AttestationService}
    {established : VerifiedAttestation}
    (h : s.service.verifyForClient X nowMs s.now report clientNonce clientId =
      (service, .ok established)) :
    s.step X (.verifyForClient nowMs report clientNonce clientId) =
      ⟨service, s.now, ⟨clientId, clientNonce, report, nowMs, s.now⟩ :: s.passed⟩ := by
  rw [step, h]

theorem vouched_start (config : NodeConfig) (preferred : TeePreference)
    (expected : Option ExpectedMeasurementsConfig) (now : ℤ) :
    (start (.new config preferred expected) now).Vouched X := by
  intro clientId r hr
  simp [start, AttestationService.new] at hr

/-- A step keeps the configuration. -/
theorem config_step (e : GateEvent) : (s.step X e).service.config = s.service.config := by
  rcases e with ⟨nowMs, report, clientNonce, clientId⟩ | readAt | duration
  · rw [step]
    rcases hcall : s.service.verifyForClient X nowMs s.now report clientNonce clientId with
      ⟨service, result⟩
    rcases AttestationService.verifyForClient_cases hcall with
      ⟨e, rfl, rfl⟩ | ⟨-, -, -, -, -, rfl, rfl⟩
    · rfl
    · rfl
  · rw [step, AttestationService.expireStaleVerifications]
    split <;> rfl
  · rfl

/-- **One event.** -/
theorem Vouched.step (h : s.Vouched X) (e : GateEvent) : (s.step X e).Vouched X := by
  rcases e with ⟨nowMs, report, clientNonce, clientId⟩ | readAt | duration
  · rw [GateRun.step]
    rcases hcall : s.service.verifyForClient X nowMs s.now report clientNonce clientId with
      ⟨service, result⟩
    rcases AttestationService.verifyForClient_cases hcall with
      ⟨e, rfl, rfl⟩ | ⟨pinned, established, hpinned, hverify, hquote, rfl, rfl⟩
    · exact h
    · intro c r hr
      by_cases hc : c = clientId
      · -- the client's record and its latest call are both the new ones
        subst hc
        obtain rfl := Option.some.inj ((AList.lookup_insert _).symm.trans hr)
        exact ⟨_, pinned, List.find?_cons_of_pos (by simp), rfl, le_rfl, hpinned,
          fun hhardware ↦ ⟨established, hverify, hquote hhardware⟩⟩
      · -- another client's record and latest call are untouched
        obtain ⟨v, pinned', hlatest, hrest⟩ := h c r ((AList.lookup_insert_ne hc).symm.trans hr)
        refine ⟨v, pinned', ?_, hrest⟩
        exact (List.find?_cons_of_neg (by simpa using Ne.symm hc)).trans hlatest
  · rw [GateRun.step, AttestationService.expireStaleVerifications]
    split
    · exact h
    · -- whatever the clock said, an expiry only takes records away
      intro c r hr
      exact h c r (AList.lookup_of_lookup_eraseAll hr)
  · intro c r hr
    obtain ⟨v, pinned, hlatest, hat, hle, hrest⟩ := h c r hr
    exact ⟨v, pinned, hlatest, hat, le_add_of_le_of_nonneg hle (Int.natCast_nonneg duration), hrest⟩

/-- What holds of a whole run: the configuration is as it was, and every record is vouched for. -/
theorem vouched_final (config : NodeConfig) (preferred : TeePreference)
    (expected : Option ExpectedMeasurementsConfig) (now : ℤ) (run : List GateEvent) :
    (final (step X) (start (.new config preferred expected) now) run).service.config = config ∧
      (final (step X) (start (.new config preferred expected) now) run).Vouched X := by
  refine final_invariant (fun s : GateRun ↦ s.service.config = config ∧ s.Vouched X) ?_
    ⟨rfl, vouched_start config preferred expected now⟩ run
  rintro s e ⟨hconfig, hvouched⟩
  exact ⟨(config_step e).trans hconfig, hvouched.step e⟩

end GateRun

/-- **The attestation gate is per client.** In a mode that requires hardware, on a node that halts
until it is verified, and after any calls, expiries and waiting: the gate is open for a client only
if the client's own most recent successful call was less than the interval ago and its report passed
verification against the pins with a verified platform quote; and a further call, if another client
makes it or if it fails, changes no answer for the client at any time. -/
theorem attestation_gate_is_per_client (X : PlatformEngine) (config : NodeConfig)
    (preferred : TeePreference) (expected : Option ExpectedMeasurementsConfig)
    (hhardware : config.requiresHardwareTee = true) (hhalt : config.haltUntilVerified = true)
    (now : ℤ) (run : List GateEvent) (s : GateRun)
    (hs : s = final (GateRun.step X) (.start (.new config preferred expected) now) run)
    (clientId : String) :
    (s.service.attestationReadyFor s.now clientId = some true →
      ∃ v pinned, s.latest clientId = some v ∧ v.verifiedAt ≤ s.now ∧
        s.now - v.verifiedAt < config.attestationIntervalHours * nanosPerHour ∧
        s.service.pinnedMeasurements = some pinned ∧
        v.report.IsHardwareVerified X v.nowMs pinned v.clientNonce) ∧
    ∀ nowMs report clientNonce other service result,
      s.service.verifyForClient X nowMs s.now report clientNonce other = (service, result) →
      (other ≠ clientId ∨ ∃ e, result = .error e) →
      ∀ t, service.attestationReadyFor t clientId = s.service.attestationReadyFor t clientId := by
  obtain ⟨hconfig, hvouched⟩ := GateRun.vouched_final (X := X) config preferred expected now run
  rw [← hs] at hconfig hvouched
  refine ⟨fun hready ↦ ?_, fun nowMs report clientNonce other service result hcall hother t ↦
    AttestationService.attestationReadyFor_verifyForClient hcall hother t⟩
  obtain ⟨r, hr, hfresh⟩ := AttestationService.exists_record_of_attestationReadyFor
    (hconfig ▸ hhardware) (hconfig ▸ hhalt) hready
  obtain ⟨v, pinned, hlatest, hat, hle, hpinned, hverified⟩ := hvouched clientId r hr
  refine ⟨v, pinned, hlatest, hle, ?_, hpinned, hverified (hconfig ▸ hhardware)⟩
  rw [hat, ← hconfig]
  exact hfresh

namespace SampleGate

/-- A node in a mode that requires hardware, which pins one PCR of the sample quote. -/
def config : NodeConfig :=
  ⟨.dark, true, 24, 100, 10000, 1000, .supervised⟩

/-- What its operator pinned. -/
def pinned : ExpectedMeasurementsConfig :=
  ⟨.single 1 (pcrText (SampleQuote.pcr 1)), none, none, 0, none, none⟩

/-- The node at its start. -/
def service : AttestationService :=
  .new config .simulation (some pinned)

/-- One client verifies the sample report, the expired records are dropped, and an hour passes. -/
def run : List GateEvent :=
  [.verifyForClient 0 (SampleQuote.report SampleQuote.honest) SampleQuote.nonce "alice",
    .expireStaleVerifications 0, .wait 3600000000000]

/-- What the sample report establishes. -/
def established : VerifiedAttestation :=
  ⟨.verified false, true, "tpm2"⟩

theorem verifyForClient_alice :
    service.verifyForClient SampleQuote.engine 0 0 (SampleQuote.report SampleQuote.honest)
        SampleQuote.nonce "alice" =
      (service.recordVerification 0 (SampleQuote.report SampleQuote.honest) "alice" established,
        .ok established) := by
  have hverify : (SampleQuote.report SampleQuote.honest).verify SampleQuote.engine 0
      (SampleQuote.pinOne (SampleQuote.pcr 1)) SampleQuote.nonce = .ok established :=
    SampleQuote.verify_report SampleQuote.claimed_honest.1 SampleQuote.claimed_honest.2 rfl
      (by simp [IndexMap.single, SampleQuote.honest]) (.inl rfl)
  exact AttestationService.verifyForClient_of_verify rfl hverify rfl

/-- The state in which the run ends. -/
def reached : GateRun :=
  ⟨service.recordVerification 0 (SampleQuote.report SampleQuote.honest) "alice" established,
    3600000000000,
    [⟨"alice", SampleQuote.nonce, SampleQuote.report SampleQuote.honest, 0, 0⟩]⟩

theorem final_run : final (GateRun.step SampleQuote.engine) (.start service 0) run = reached := by
  rw [final, run, List.foldl_cons, GateRun.step_of_verifyForClient verifyForClient_alice]
  rfl

end SampleGate

/-- The gate is open for the client that verified, and stays as it is when another one does. -/
theorem attestation_gate_is_per_client_sample :
    SampleGate.reached.service.attestationReadyFor SampleGate.reached.now "alice" = some true ∧
      (∃ v pinned, SampleGate.reached.latest "alice" = some v ∧
        v.verifiedAt ≤ SampleGate.reached.now ∧
        SampleGate.reached.now - v.verifiedAt < (24 : ℕ) * nanosPerHour ∧
        SampleGate.reached.service.pinnedMeasurements = some pinned ∧
        v.report.IsHardwareVerified SampleQuote.engine v.nowMs pinned v.clientNonce) ∧
      ∀ t, (SampleGate.reached.service.verifyForClient SampleQuote.engine 0 SampleGate.reached.now
          (SampleQuote.report SampleQuote.honest) SampleQuote.nonce "bob").1.attestationReadyFor t
            "alice" =
        SampleGate.reached.service.attestationReadyFor t "alice" := by
  have hready : SampleGate.reached.service.attestationReadyFor SampleGate.reached.now "alice" =
      some true := rfl
  obtain ⟨hopen, hothers⟩ := attestation_gate_is_per_client SampleQuote.engine SampleGate.config
    .simulation (some SampleGate.pinned) rfl rfl 0 SampleGate.run SampleGate.reached
    SampleGate.final_run.symm "alice"
  exact ⟨hready, hopen hready, hothers _ _ _ "bob" _ _ Prod.mk.eta.symm (.inl (by decide))⟩

end Cordon
