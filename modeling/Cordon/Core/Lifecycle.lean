import Cordon.Core.Admin
import Cordon.Core.Admission
import Cordon.Lib.Transition

/-!
# The states of a node

Six transitions write the status of a node. Two of them look at it first: a fault degrades only a
node that serves, and a fault that clears restores only a degraded one. The others, an operator's
and the integrity monitor's, write what they write over whatever is there.

`NodeGuard` is what the administrative handlers and the monitor share: the node's state, the tamper
flag and the bundles. A teardown is meant to be final, and every transition but one keeps it so.
`goOperational` does not look, so **a recovery that is authorized and whose checks all pass brings a
zeroized node back** (`zeroized_is_terminal_iff`).

Both directions rest on what one event does. An event leaves a node that is down where it is, unless
a recovery goes through (`Down.step`): that is an invariant, and every run without such a recovery
keeps it. A recovery that goes through lifts any node, whatever state it is in (`not_down_step`), so
one is enough to break the promise.
-/

namespace Cordon

open Transition

namespace NodeState

/-- Transition to quarantine. -/
def enterQuarantine (state : NodeState) : NodeState :=
  { state with status := .quarantine }

/-- Transition to zeroized. -/
def enterZeroized (_ : NodeState) : NodeState :=
  ⟨.zeroized, .zeroized⟩

/-- Mark as operational. -/
def goOperational (_ : NodeState) : NodeState :=
  ⟨.healthy, .active⟩

/-- Return a degraded node to healthy, and nothing else. -/
def recoverFromDegraded (state : NodeState) : NodeState :=
  if state.status = .degraded then ⟨.healthy, .active⟩ else state

/-- Mark the node degraded: still serving, but something is wrong. -/
def degrade (state : NodeState) : NodeState :=
  if state.status = .healthy ∨ state.status = .degraded then { state with status := .degraded }
  else state

end NodeState

/-! ### The handlers and the monitor -/

/-- The part of a node that recoveries, quarantines, teardowns and the integrity monitor share. -/
structure NodeGuard where
  state : NodeState
  store : BundleStore
  /-- The monitor has found a bundle that fails its check, and has halted the node. -/
  tamperDetected : Bool
  haltOnTamper : Bool
  keys : AdminKeys
  identity : IdentityRegistry

/-- An administrative call with a reason: who makes it, when, and under which signature. -/
structure AdminCall where
  client : ClientIdentity
  now : ℤ
  reason : String
  adminSignature : String

/-- When each bundle's check records its verdict, and what it reads. -/
abbrev CheckSchedule : Type :=
  String → ℤ × ShardReads

/-- What can happen to a node. -/
inductive GuardEvent
  | adminTeardown (call : AdminCall)
  | adminRecover (call : AdminCall) (schedule : CheckSchedule)
  | adminQuarantine (call : AdminCall)
  /-- One cycle of the integrity monitor. -/
  | runCheck (schedule : CheckSchedule)
  /-- The runtime has exited, or has not come back. -/
  | degrade
  /-- The runtime has come back. -/
  | recoverFromDegraded

namespace NodeGuard

variable (T : HostText) (H : BundleHost) (E : Ed25519)

/-- Whether a call passes both checks that an administrative handler begins with. -/
def permits (g : NodeGuard) (call : AdminCall) (request : AdminRequest) : Bool :=
  (clientMayAdminister T g.identity call.now call.client).isOk &&
    (request.authorize E g.keys call.adminSignature).isOk

/-- The checks of every registered bundle. -/
def checks (g : NodeGuard) (schedule : CheckSchedule) : List (String × ℤ × ShardReads) :=
  g.store.bundleIds.map fun id ↦ (id, schedule id)

/-- `admin_teardown`: zeroize and stop serving. -/
def adminTeardown (g : NodeGuard) (call : AdminCall) : NodeGuard :=
  if g.permits T E call (.teardown call.reason) then { g with state := g.state.enterZeroized }
  else g

/-- `admin_recover`: resume serving, if every bundle passes its check. -/
def adminRecover (g : NodeGuard) (call : AdminCall) (schedule : CheckSchedule) : NodeGuard :=
  if g.permits T E call (.recover call.reason) then
    match g.store.checkAll H E (g.checks schedule) with
    | (store, true) =>
      -- whatever the state was: quarantined, locked or zeroized
      { g with store, tamperDetected := false, state := g.state.goOperational }
    | (store, false) => { g with store }
  else g

/-- `admin_quarantine`: stop serving until an operator recovers. -/
def adminQuarantine (g : NodeGuard) (call : AdminCall) : NodeGuard :=
  if g.permits T E call (.quarantine call.reason) then { g with state := g.state.enterQuarantine }
  else g

/-- `IntegrityMonitor::run_check`: check the bundles, and halt the node at each that fails. A check
that cannot be made is passed over. -/
def runCheck (g : NodeGuard) : List (String × ℤ × ShardReads) → NodeGuard
  | [] => g
  | (bundleId, now, read) :: checks =>
    match g.store.runIntegrityCheck H E now read bundleId with
    | (store, .ok false) =>
      if g.haltOnTamper then
        { g with store, tamperDetected := true, state := g.state.enterQuarantine }.runCheck checks
      else { g with store }.runCheck checks
    | (store, _) => { g with store }.runCheck checks

/-- One event. -/
def step (g : NodeGuard) : GuardEvent → NodeGuard
  | .adminTeardown call => g.adminTeardown T E call
  | .adminRecover call schedule => g.adminRecover T H E call schedule
  | .adminQuarantine call => g.adminQuarantine T E call
  | .runCheck schedule => g.runCheck H E (g.checks schedule)
  | .degrade => { g with state := g.state.degrade }
  | .recoverFromDegraded => { g with state := g.state.recoverFromDegraded }

/-! ### Teardown is final until a recovery -/

/-- **The node is down**: it cannot serve, and it is neither healthy nor degraded. -/
def Down (g : NodeGuard) : Prop :=
  g.state.canServe = false ∧ g.state.status ≠ .healthy ∧ g.state.status ≠ .degraded

/-- **No recovery goes through**: it is not authorized, or one of the bundles does not pass. -/
def NoRecovery (g : NodeGuard) : GuardEvent → Prop
  | .adminRecover call schedule => g.permits T E call (.recover call.reason) = true →
      (g.store.checkAll H E (g.checks schedule)).2 = false
  | _ => True

variable {T H E} {g : NodeGuard} {call : AdminCall}

/-- The status says it all. -/
theorem down_iff : g.Down ↔ g.state.status ≠ .healthy ∧ g.state.status ≠ .degraded := by
  refine ⟨fun h ↦ h.2, fun h ↦ ⟨?_, h⟩⟩
  simp [NodeState.canServe, h.1, h.2]

theorem Down.of_status {g' : NodeGuard} (h : g.Down) (hstatus : g'.state.status = g.state.status) :
    g'.Down := by
  rw [down_iff, hstatus]
  exact down_iff.1 h

theorem down_enterQuarantine (g : NodeGuard) :
    Down { g with state := g.state.enterQuarantine } :=
  down_iff.2 ⟨by simp [NodeState.enterQuarantine], by simp [NodeState.enterQuarantine]⟩

theorem down_enterZeroized (g : NodeGuard) : Down { g with state := g.state.enterZeroized } :=
  down_iff.2 ⟨by simp [NodeState.enterZeroized], by simp [NodeState.enterZeroized]⟩

/-- A fault does not lift a node that is down, and neither does its end. -/
theorem Down.degrade (h : g.Down) : Down { g with state := g.state.degrade } := by
  obtain ⟨hhealthy, hdegraded⟩ := down_iff.1 h
  refine h.of_status ?_
  simp [NodeState.degrade, hhealthy, hdegraded]

theorem Down.recoverFromDegraded (h : g.Down) :
    Down { g with state := g.state.recoverFromDegraded } := by
  refine h.of_status ?_
  simp [NodeState.recoverFromDegraded, (down_iff.1 h).2]

/-- The monitor only ever quarantines. -/
theorem Down.runCheck (h : g.Down) (checks : List (String × ℤ × ShardReads)) :
    (g.runCheck H E checks).Down := by
  induction checks generalizing g with
  | nil => exact h
  | cons check checks ih =>
    obtain ⟨bundleId, now, read⟩ := check
    rw [NodeGuard.runCheck]
    split
    · -- a finding writes quarantine over the status, also over zeroized
      split
      · exact ih (down_iff.2 ⟨by simp [NodeState.enterQuarantine],
          by simp [NodeState.enterQuarantine]⟩)
      · exact ih (h.of_status rfl)
    · exact ih (h.of_status rfl)

/-- **One event keeps the node down**, unless a recovery goes through. -/
theorem Down.step (h : g.Down) {event : GuardEvent} (hnone : g.NoRecovery T H E event) :
    (g.step T H E event).Down := by
  rcases event with call | ⟨call, schedule⟩ | call | schedule | - | -
  · rw [NodeGuard.step, adminTeardown]
    split
    · exact down_enterZeroized g
    · exact h
  · rw [NodeGuard.step, adminRecover]
    split
    · next hpermits =>
      have hfails := hnone hpermits
      split
      · next hchecks =>
        rw [hchecks] at hfails
        exact absurd hfails (by simp)
      · exact h.of_status rfl
    · exact h
  · rw [NodeGuard.step, adminQuarantine]
    split
    · exact down_enterQuarantine g
    · exact h
  · exact h.runCheck _
  · exact h.degrade
  · exact h.recoverFromDegraded

/-- **A recovery that goes through lifts any node.** -/
theorem not_down_step {event : GuardEvent} (h : ¬g.NoRecovery T H E event) :
    ¬(g.step T H E event).Down := by
  rcases event with call | ⟨call, schedule⟩ | call | schedule | - | -
  · exact absurd trivial h
  · simp only [NoRecovery, Classical.not_imp, Bool.not_eq_false] at h
    obtain ⟨hpermits, hpassed⟩ := h
    rcases hchecks : g.store.checkAll H E (g.checks schedule) with ⟨store, passed⟩
    rw [hchecks] at hpassed
    obtain rfl : passed = true := hpassed
    rw [NodeGuard.step, adminRecover, if_pos hpermits, hchecks]
    intro hdown
    exact hdown.2.1 rfl
  · exact absurd trivial h
  · exact absurd trivial h
  · exact absurd trivial h
  · exact absurd trivial h

end NodeGuard

/-- **When a teardown is final.** After a teardown that was authorized, and whatever then happens,
the node never serves again and is never healthy or degraded again **exactly if** no recovery goes
through: none is authorized at a time when every registered bundle passes its check. -/
theorem zeroized_is_terminal_iff (T : HostText) (H : BundleHost) (E : Ed25519) (g : NodeGuard)
    (call : AdminCall) (hteardown : g.permits T E call (.teardown call.reason) = true)
    (run : List GuardEvent) :
    Always (NodeGuard.step T H E) NodeGuard.Down (g.step T H E (.adminTeardown call)) run ↔
      AllSteps (NodeGuard.step T H E) (NodeGuard.NoRecovery T H E)
        (g.step T H E (.adminTeardown call)) run := by
  have hdown : (g.step T H E (.adminTeardown call)).Down := by
    rw [NodeGuard.step, NodeGuard.adminTeardown, if_pos hteardown]
    exact NodeGuard.down_enterZeroized g
  have hall : AllSteps (NodeGuard.step T H E) (fun _ _ ↦ True)
      (g.step T H E (.adminTeardown call)) run := AllSteps.trivial
  exact always_iff_allSteps NodeGuard.Down (fun _ h ↦ h)
    (fun _ _ h _ hnone ↦ h.step hnone) (fun _ _ _ _ ↦ NodeGuard.not_down_step) hdown hall

/-! ### A node that comes back -/

namespace SampleNode

/-- A primitive under which the operator's signatures verify. -/
def ed25519 : Ed25519 where
  publicKey _ := []
  sign _ _ := ⟨List.replicate 64 0, Signature.length_zeros⟩
  decodePoint _ := .ok ()
  verify _ _ _ := true

/-- A healthy node with an admin key, and with no bundles: it serves a plain model file. -/
def guard : NodeGuard where
  state := ⟨.healthy, .active⟩
  store := SampleBundle.store
  tamperDetected := false
  haltOnTamper := true
  keys := SampleCommand.adminKeys
  identity := ⟨∅, ∅, .allowWithDefaults⟩

/-- The operator's call. -/
def operatorCall : AdminCall where
  client := sampleClient
  now := 5
  reason := "incident-4471"
  adminSignature := SampleCommand.signature

/-- The operator's calls are permitted, whatever they ask for. -/
theorem permits_eq_true {g : NodeGuard} (hkeys : g.keys = SampleCommand.adminKeys)
    (hidentity : g.identity = ⟨∅, ∅, .allowWithDefaults⟩) (request : AdminRequest) :
    g.permits asciiHost ed25519 operatorCall request = true := by
  have hauthorized : request.authorize ed25519 g.keys operatorCall.adminSignature = .ok () := by
    rw [hkeys]
    exact SampleCommand.authorize_of_verify rfl
  rw [NodeGuard.permits, hauthorized, hidentity]
  rfl

end SampleNode

open SampleNode in
/-- After a teardown, a quarantine and a runtime that comes back, the node is still down. -/
theorem zeroized_is_terminal_iff_sample :
    guard.permits asciiHost ed25519 operatorCall (.teardown operatorCall.reason) = true ∧
      Always (NodeGuard.step asciiHost SampleBundle.host ed25519) NodeGuard.Down
        (guard.step asciiHost SampleBundle.host ed25519 (.adminTeardown operatorCall))
        [.adminQuarantine operatorCall, .recoverFromDegraded] :=
  ⟨permits_eq_true rfl rfl _, (zeroized_is_terminal_iff asciiHost SampleBundle.host ed25519 guard
    operatorCall (permits_eq_true rfl rfl _) _).2 ⟨trivial, trivial, trivial⟩⟩

open SampleNode in
/-- **A zeroized node serves again** after an ordinary recovery. -/
theorem zeroized_node_recovers :
    ¬∀ (T : HostText) (H : BundleHost) (E : Ed25519) (g : NodeGuard) (call : AdminCall)
      (run : List GuardEvent), g.permits T E call (.teardown call.reason) = true →
      Always (NodeGuard.step T H E) NodeGuard.Down (g.step T H E (.adminTeardown call)) run := by
  intro hall
  have hdown := hall asciiHost SampleBundle.host ed25519 guard operatorCall
    [.adminRecover operatorCall fun _ ↦ (5, SampleBundle.intact)] (permits_eq_true rfl rfl _)
  have hzeroized : guard.adminTeardown asciiHost ed25519 operatorCall =
      { guard with state := guard.state.enterZeroized } :=
    if_pos (permits_eq_true rfl rfl _)
  refine NodeGuard.not_down_step (fun hnone ↦ ?_) hdown.2
  rw [NodeGuard.step, hzeroized] at hnone
  exact absurd (hnone (permits_eq_true rfl rfl _)) (by decide)

end Cordon
