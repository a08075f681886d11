import Cordon.Core.Lifecycle

/-!
# Recoveries and quarantines, interleaved

A recovery checks every bundle, then resets the tamper flag, then makes the node operational. The
integrity monitor checks a bundle, then sets the flag, then quarantines the node. These are separate
steps on three separately locked pieces of state, and nothing ties a recovery's last step to what
its checks have seen.

`history` is what has happened, most recent first. A quarantine is **answered** by a check that a
recovery makes of the affected bundle after it; an operator's quarantine, which affects no bundle,
by a recovery that finishes its checks after it. `QuarantineStands` says that a node whose history
owes an answer does not serve. It holds exactly in the runs in which no recovery makes the node
operational while a quarantine that took effect after its own check is unanswered
(`quarantine_stands_iff`).

Bundles are neither registered nor removed here. A check is one step: no other step reads or writes
what it reads and writes before it records its verdict.

The invariant has a clause for the part of a recovery that is still to come
(`RecoveryState.Traced`): every bundle has been checked by it, or will be. So a quarantine that is
owed and that no recovery is going to answer has overtaken each recovery that is past its checks
(`Traced.overtaken`), and making the node operational then is the step that breaks the promise, at
once.
-/

namespace Cordon

open Transition

/-- What happens, as far as quarantines and recoveries go. A recovery is known by its position. -/
inductive GuardFact
  /-- A recovery has checked a bundle. -/
  | checked (recovery : ℕ) (bundleId : String)
  /-- A recovery has made the last of its checks, and all have passed. -/
  | checksDone (recovery : ℕ)
  /-- The monitor has found a bundle that fails, and has quarantined the node. -/
  | found (bundleId : String)
  /-- An operator has quarantined the node. -/
  | operatorQuarantine
  /-- A recovery has made the node operational. -/
  | operational (recovery : ℕ)
  deriving DecidableEq

namespace GuardFact

/-- Whether the node enters quarantine. -/
def IsQuarantine : GuardFact → Prop
  | found _ => True
  | operatorQuarantine => True
  | _ => False

/-- Whether what a recovery does answers a quarantine, coming after it. -/
def Answers : GuardFact → GuardFact → Prop
  | checked _ bundleId, found bundleId' => bundleId = bundleId'
  | checksDone _, operatorQuarantine => True
  | _, _ => False

/-- The recovery whose doing a fact is. -/
def recovery? : GuardFact → Option ℕ
  | checked i _ => some i
  | checksDone i => some i
  | operational i => some i
  | _ => none

end GuardFact

/-- Where a recovery is. -/
inductive RecoveryPhase
  /-- Bundles still to be checked. -/
  | checking (remaining : List String)
  | resetting
  | operating
  | done
  deriving DecidableEq

/-- Where a cycle of the monitor is. -/
inductive MonitorPhase
  | checking (remaining : List String)
  /-- A bundle has failed: set the flag, then quarantine, then go on. -/
  | flagging (bundleId : String) (remaining : List String)
  | quarantining (bundleId : String) (remaining : List String)
  | done
  deriving DecidableEq

/-- A node with its recoveries and its monitor's cycles. -/
structure RecoveryState where
  state : NodeState
  store : BundleStore
  tamperDetected : Bool
  haltOnTamper : Bool
  recoveries : List RecoveryPhase
  monitors : List MonitorPhase
  history : List GuardFact

/-- The steps. -/
inductive RecoveryStep
  /-- An authorized `admin_recover`. -/
  | beginRecover
  | recover (i : ℕ) (now : ℤ) (read : ShardReads)
  | beginRunCheck
  | runCheck (i : ℕ) (now : ℤ) (read : ShardReads)
  /-- An authorized `admin_quarantine`. -/
  | adminQuarantine

namespace RecoveryState

variable (H : BundleHost) (E : Ed25519)

/-- The next step of the recovery at position `i`. -/
def recover (s : RecoveryState) (i : ℕ) (now : ℤ) (read : ShardReads) :
    RecoveryPhase → RecoveryState
  | .checking [] =>
    { s with recoveries := s.recoveries.set i .resetting, history := .checksDone i :: s.history }
  | .checking (bundleId :: remaining) =>
    match s.store.runIntegrityCheck H E now read bundleId with
    | (store, .ok true) =>
      { s with
        store
        recoveries := s.recoveries.set i (.checking remaining)
        history := .checked i bundleId :: s.history }
    -- the recovery is refused
    | (store, _) =>
      { s with
        store
        recoveries := s.recoveries.set i .done
        history := .checked i bundleId :: s.history }
  | .resetting => { s with tamperDetected := false, recoveries := s.recoveries.set i .operating }
  | .operating =>
    -- neither the tamper flag nor the state is looked at again
    { s with
      state := s.state.goOperational
      recoveries := s.recoveries.set i .done
      history := .operational i :: s.history }
  | .done => s

/-- The next step of the monitor's cycle at position `i`. -/
def runCheck (s : RecoveryState) (i : ℕ) (now : ℤ) (read : ShardReads) :
    MonitorPhase → RecoveryState
  | .checking [] => { s with monitors := s.monitors.set i .done }
  | .checking (bundleId :: remaining) =>
    match s.store.runIntegrityCheck H E now read bundleId with
    | (store, .ok false) =>
      { s with
        store
        monitors := s.monitors.set i
          (if s.haltOnTamper then .flagging bundleId remaining else .checking remaining) }
    -- a check that cannot be made halts nothing
    | (store, _) => { s with store, monitors := s.monitors.set i (.checking remaining) }
  | .flagging bundleId remaining =>
    { s with
      tamperDetected := true
      monitors := s.monitors.set i (.quarantining bundleId remaining) }
  | .quarantining bundleId remaining =>
    { s with
      state := s.state.enterQuarantine
      monitors := s.monitors.set i (.checking remaining)
      history := .found bundleId :: s.history }
  | .done => s

/-- One step. -/
def step (s : RecoveryState) : RecoveryStep → RecoveryState
  | .beginRecover => { s with recoveries := s.recoveries ++ [.checking s.store.bundleIds] }
  | .recover i now read =>
    match s.recoveries[i]? with
    | none => s
    | some phase => s.recover H E i now read phase
  | .beginRunCheck => { s with monitors := s.monitors ++ [.checking s.store.bundleIds] }
  | .runCheck i now read =>
    match s.monitors[i]? with
    | none => s
    | some phase => s.runCheck H E i now read phase
  | .adminQuarantine =>
    { s with state := s.state.enterQuarantine, history := .operatorQuarantine :: s.history }

/-- A node with nothing under way. -/
def idle (state : NodeState) (store : BundleStore) (haltOnTamper : Bool) : RecoveryState :=
  ⟨state, store, false, haltOnTamper, [], [], []⟩

end RecoveryState

/-! ### Quarantines that are owed an answer -/

/-- A quarantine that nothing after it has answered; `since` is what was before it. -/
def UnansweredAfter (history : List GuardFact) (quarantine : GuardFact) (since : List GuardFact) :
    Prop :=
  ∃ later, history = later ++ quarantine :: since ∧ quarantine.IsQuarantine ∧
    ∀ fact ∈ later, ¬fact.Answers quarantine

/-- **A quarantine stands**: while one is unanswered, the node does not serve. -/
def RecoveryState.QuarantineStands (s : RecoveryState) : Prop :=
  ∀ quarantine since, UnansweredAfter s.history quarantine since → s.state.canServe = false

/-- **A recovery is overtaken** by a quarantine that took effect after the recovery's own check of
the affected bundle, and that is unanswered. -/
def RecoveryState.Overtaken (s : RecoveryState) (i : ℕ) : Prop :=
  ∃ quarantine since, UnansweredAfter s.history quarantine since ∧
    ∃ fact ∈ since, fact.recovery? = some i ∧ fact.Answers quarantine

/-- **No recovery that has been overtaken makes the node operational.** -/
def RecoveryState.NotOvertaken (s : RecoveryState) : RecoveryStep → Prop
  | .recover i _ _ => s.recoveries[i]? = some .operating → ¬s.Overtaken i
  | _ => True

/-- What is owed after one more fact was owed before, or is that fact itself. -/
theorem UnansweredAfter.of_cons {fact quarantine : GuardFact} {history since : List GuardFact}
    (h : UnansweredAfter (fact :: history) quarantine since) :
    fact.IsQuarantine ∨ UnansweredAfter history quarantine since := by
  obtain ⟨later, hsplit, hquarantine, hlater⟩ := h
  rcases later with - | ⟨x, later⟩
  · obtain ⟨rfl, rfl⟩ := List.cons.inj hsplit
    exact Or.inl hquarantine
  · obtain ⟨rfl, rfl⟩ := List.cons.inj hsplit
    exact Or.inr ⟨later, rfl, hquarantine, fun y hy ↦ hlater y (List.mem_cons_of_mem _ hy)⟩

theorem UnansweredAfter.cons {fact quarantine : GuardFact} {history since : List GuardFact}
    (h : UnansweredAfter history quarantine since) (hfact : ¬fact.Answers quarantine) :
    UnansweredAfter (fact :: history) quarantine since := by
  obtain ⟨later, rfl, hquarantine, hlater⟩ := h
  refine ⟨fact :: later, rfl, hquarantine, fun x hx ↦ ?_⟩
  rcases List.mem_cons.1 hx with rfl | hx
  · exact hfact
  · exact hlater x hx

/-! ### What a recovery has checked -/

/-- The bundles that a cycle of the monitor has in hand. -/
def MonitorPhase.bundles : MonitorPhase → List String
  | .checking remaining => remaining
  | .flagging bundleId remaining => bundleId :: remaining
  | .quarantining bundleId remaining => bundleId :: remaining
  | .done => []

/-- Every registered bundle has been checked by the recovery, or is still to be. -/
def RecoveryPhase.Covered (registered : String → Prop) (history : List GuardFact) (i : ℕ) :
    RecoveryPhase → Prop
  | .checking remaining => ∀ b, registered b → .checked i b ∈ history ∨ b ∈ remaining
  | .resetting => (∀ b, registered b → .checked i b ∈ history) ∧ .checksDone i ∈ history
  | .operating => (∀ b, registered b → .checked i b ∈ history) ∧ .checksDone i ∈ history
  | .done => True

theorem RecoveryPhase.Covered.mono {registered : String → Prop} {history history' : List GuardFact}
    {i : ℕ} {phase : RecoveryPhase} (h : phase.Covered registered history i)
    (hhistory : history ⊆ history') : phase.Covered registered history' i := by
  rcases phase with remaining | - | - | -
  · exact fun b hb ↦ (h b hb).imp_left fun hmem ↦ hhistory hmem
  · exact ⟨fun b hb ↦ hhistory (h.1 b hb), hhistory h.2⟩
  · exact ⟨fun b hb ↦ hhistory (h.1 b hb), hhistory h.2⟩
  · trivial

/-- Whether the store holds a bundle. -/
def BundleStore.Registered (store : BundleStore) (id : String) : Prop :=
  id ∈ store.bundleIds

/-- A check neither registers a bundle nor removes one. -/
theorem BundleStore.registered_runIntegrityCheck {H : BundleHost} {E : Ed25519}
    {store store' : BundleStore} {now : ℤ} {read : ShardReads} {bundleId : String}
    {result : Except CordonError Bool}
    (h : store.runIntegrityCheck H E now read bundleId = (store', result)) :
    store'.Registered = store.Registered := by
  rcases runIntegrityCheck_cases h with ⟨e, -, rfl⟩ | ⟨b, passed, -, -, -, rfl⟩
  · rfl
  · funext id
    refine propext ?_
    rw [Registered, Registered, mem_bundleIds, mem_bundleIds, lookup_recordVerdict]
    split
    · simp
    · rfl

/-- **The invariant.** Every quarantine stands, the monitor is about registered bundles, and every
recovery has checked, or will check, all of them. -/
structure RecoveryState.Traced (s : RecoveryState) : Prop where
  stands : s.QuarantineStands
  found : ∀ b, .found b ∈ s.history → s.store.Registered b
  monitors : ∀ phase ∈ s.monitors, ∀ b ∈ MonitorPhase.bundles phase, s.store.Registered b
  recoveries : ∀ i (phase : RecoveryPhase), s.recoveries[i]? = some phase →
    phase.Covered s.store.Registered s.history i

namespace RecoveryState

variable {H : BundleHost} {E : Ed25519} {s s' : RecoveryState} {i : ℕ} {now : ℤ}
  {read : ShardReads}

/-- A fact that is no quarantine, on a node whose state is kept. -/
theorem QuarantineStands.cons (h : s.QuarantineStands) (fact : GuardFact)
    (hfact : ¬fact.IsQuarantine) (hstate : s'.state = s.state)
    (hhistory : s'.history = fact :: s.history) : s'.QuarantineStands := by
  intro quarantine since howed
  rw [hhistory] at howed
  rw [hstate]
  exact h quarantine since (howed.of_cons.resolve_left hfact)

theorem quarantineStands_enterQuarantine (h : s'.state = s.state.enterQuarantine) :
    s'.QuarantineStands := by
  intro _ _ _
  rw [h]
  rfl

/-- **A quarantine that is owed has overtaken every recovery that is about to make the node
operational**: each has made its checks, and none of them answers it. -/
theorem Traced.overtaken (h : s.Traced) (hphase : s.recoveries[i]? = some .operating)
    {quarantine : GuardFact} {since : List GuardFact}
    (howed : UnansweredAfter s.history quarantine since) : s.Overtaken i := by
  obtain ⟨hchecked, hdone⟩ := h.recoveries i _ hphase
  obtain ⟨later, hsplit, hquarantine, hlater⟩ := id howed
  -- the recovery's answer is in the history and not after the quarantine, so it is before it
  have hbefore : ∀ fact, fact ∈ s.history → fact.Answers quarantine → fact ≠ quarantine →
      fact ∈ since := by
    intro fact hmem hanswers hne
    rw [hsplit] at hmem
    rcases List.mem_append.1 hmem with hmem | hmem
    · exact absurd hanswers (hlater fact hmem)
    · exact (List.mem_cons.1 hmem).resolve_left hne
  refine ⟨quarantine, since, howed, ?_⟩
  rcases quarantine with ⟨j, b⟩ | j | b | - | j
  · exact absurd hquarantine id
  · exact absurd hquarantine id
  · have hregistered : s.store.Registered b := h.found b (hsplit ▸ by simp)
    exact ⟨.checked i b, hbefore _ (hchecked b hregistered) rfl (by simp), rfl, rfl⟩
  · exact ⟨.checksDone i, hbefore _ hdone trivial (by simp), rfl, trivial⟩
  · exact absurd hquarantine id

/-- A step of a recovery: it moves one phase, and may add one fact. -/
theorem Traced.setRecovery (h : s.Traced) {new : RecoveryPhase} (hstands : s'.QuarantineStands)
    (hstore : s'.store.Registered = s.store.Registered) (hmonitors : s'.monitors = s.monitors)
    (hrecoveries : s'.recoveries = s.recoveries.set i new)
    (hhistory : ∀ fact, fact ∈ s.history → fact ∈ s'.history)
    (hfound : ∀ b, .found b ∈ s'.history → .found b ∈ s.history)
    (hnew : new.Covered s.store.Registered s'.history i) : s'.Traced where
  stands := hstands
  found := fun b hb ↦ hstore ▸ h.found b (hfound b hb)
  monitors := by
    rw [hmonitors, hstore]
    exact h.monitors
  recoveries := by
    intro j phase hphase
    rw [hrecoveries, List.getElem?_set] at hphase
    rw [hstore]
    split at hphase
    · next hij =>
      subst hij
      split at hphase
      · obtain rfl := Option.some.inj hphase
        exact hnew
      · simp at hphase
    · exact (h.recoveries j phase hphase).mono fun fact hfact ↦ hhistory fact hfact

/-- A step of the monitor: it moves one phase, and may add that it has found something. -/
theorem Traced.setMonitor (h : s.Traced) {new : MonitorPhase} (hstands : s'.QuarantineStands)
    (hstore : s'.store.Registered = s.store.Registered)
    (hrecoveries : s'.recoveries = s.recoveries) (hmonitors : s'.monitors = s.monitors.set i new)
    (hhistory : ∀ fact, fact ∈ s.history → fact ∈ s'.history)
    (hfound : ∀ b, .found b ∈ s'.history → s.store.Registered b)
    (hnew : ∀ b ∈ new.bundles, s.store.Registered b) : s'.Traced where
  stands := hstands
  found := fun b hb ↦ hstore ▸ hfound b hb
  monitors := by
    intro phase hphase b hb
    rw [hmonitors] at hphase
    rw [hstore]
    rcases List.mem_or_eq_of_mem_set hphase with hold | rfl
    · exact h.monitors phase hold b hb
    · exact hnew b hb
  recoveries := by
    intro j phase hphase
    rw [hrecoveries] at hphase
    rw [hstore]
    exact (h.recoveries j phase hphase).mono fun fact hfact ↦ hhistory fact hfact

/-- **One step of a recovery.** -/
theorem Traced.recover (h : s.Traced) {phase : RecoveryPhase}
    (hphase : s.recoveries[i]? = some phase) (hnot : phase = .operating → ¬s.Overtaken i) :
    (s.recover H E i now read phase).Traced := by
  have hcovered := h.recoveries i phase hphase
  rcases phase with (- | ⟨bundleId, remaining⟩) | - | - | -
  · refine h.setRecovery (h.stands.cons (.checksDone i) id rfl rfl) rfl rfl rfl
      (fun fact hfact ↦ List.mem_cons_of_mem _ hfact) (fun b hb ↦ by simpa [RecoveryState.recover]
        using hb) ⟨fun b hb ↦ List.mem_cons_of_mem _ ?_, List.mem_cons_self⟩
    exact (hcovered b hb).resolve_right List.not_mem_nil
  · rcases hcall : s.store.runIntegrityCheck H E now read bundleId with ⟨store, result⟩
    have hstore := BundleStore.registered_runIntegrityCheck hcall
    rw [RecoveryState.recover, hcall]
    split
    · next heq =>
      obtain ⟨rfl, -⟩ := Prod.mk.inj heq
      refine h.setRecovery (h.stands.cons (.checked i bundleId) id rfl rfl) hstore rfl rfl
        (fun fact hfact ↦ List.mem_cons_of_mem _ hfact) (fun b hb ↦ by simpa using hb) ?_
      intro b hb
      -- the bundle that has just been checked leaves the list and enters the history
      rcases hcovered b hb with hmem | hmem
      · exact Or.inl (List.mem_cons_of_mem _ hmem)
      · rcases List.mem_cons.1 hmem with rfl | hmem
        · exact Or.inl List.mem_cons_self
        · exact Or.inr hmem
    · next heq =>
      obtain ⟨rfl, -⟩ := Prod.mk.inj heq
      exact h.setRecovery (h.stands.cons (.checked i bundleId) id rfl rfl) hstore rfl rfl
        (fun fact hfact ↦ List.mem_cons_of_mem _ hfact) (fun b hb ↦ by simpa using hb) trivial
  · exact h.setRecovery h.stands rfl rfl rfl (fun fact hfact ↦ hfact) (fun b hb ↦ hb) hcovered
  · -- going operational: a quarantine that is owed would have overtaken this recovery
    refine h.setRecovery ?_ rfl rfl rfl (fun fact hfact ↦ List.mem_cons_of_mem _ hfact)
      (fun b hb ↦ by simpa [RecoveryState.recover] using hb) trivial
    intro quarantine since howed
    exact absurd (h.overtaken hphase (howed.of_cons.resolve_left id)) (hnot rfl)
  · exact h

/-- **One step of the monitor.** -/
theorem Traced.runCheck (h : s.Traced) {phase : MonitorPhase}
    (hphase : s.monitors[i]? = some phase) : (s.runCheck H E i now read phase).Traced := by
  have hbundles := h.monitors phase (List.mem_of_getElem? hphase)
  rcases phase with (- | ⟨bundleId, remaining⟩) | ⟨bundleId, remaining⟩ | ⟨bundleId, remaining⟩ | -
  · exact h.setMonitor h.stands rfl rfl rfl (fun fact hfact ↦ hfact) h.found
      fun b hb ↦ absurd hb List.not_mem_nil
  · have hremaining : ∀ b ∈ remaining, s.store.Registered b := fun b hb ↦
      hbundles b (List.mem_cons_of_mem _ hb)
    rcases hcall : s.store.runIntegrityCheck H E now read bundleId with ⟨store, result⟩
    have hstore := BundleStore.registered_runIntegrityCheck hcall
    rw [RecoveryState.runCheck, hcall]
    split
    · next heq =>
      obtain ⟨rfl, -⟩ := Prod.mk.inj heq
      refine h.setMonitor h.stands hstore rfl rfl (fun fact hfact ↦ hfact) h.found ?_
      split
      · exact hbundles
      · exact hremaining
    · next heq =>
      obtain ⟨rfl, -⟩ := Prod.mk.inj heq
      exact h.setMonitor h.stands hstore rfl rfl (fun fact hfact ↦ hfact) h.found hremaining
  · exact h.setMonitor h.stands rfl rfl rfl (fun fact hfact ↦ hfact) h.found hbundles
  · refine h.setMonitor (quarantineStands_enterQuarantine rfl) rfl rfl rfl
      (fun fact hfact ↦ List.mem_cons_of_mem _ hfact) (fun b hb ↦ ?_)
      fun b hb ↦ hbundles b (List.mem_cons_of_mem _ hb)
    rcases List.mem_cons.1 hb with hb | hb
    · obtain rfl : b = bundleId := by simpa using hb
      exact hbundles b List.mem_cons_self
    · exact h.found b hb
  · exact h

/-- **One step keeps every quarantine standing**, unless an overtaken recovery takes it. -/
theorem Traced.step (h : s.Traced) {a : RecoveryStep} (hnot : s.NotOvertaken a) :
    (s.step H E a).Traced := by
  rcases a with - | ⟨i, now, read⟩ | - | ⟨i, now, read⟩ | -
  · refine ⟨h.stands, h.found, h.monitors, fun j phase hphase ↦ ?_⟩
    simp only [RecoveryState.step, List.getElem?_append] at hphase
    split at hphase
    · exact h.recoveries j phase hphase
    · obtain rfl := List.mem_singleton.1 (List.mem_of_getElem? hphase)
      exact fun b hb ↦ Or.inr hb
  · rw [RecoveryState.step]
    split
    · exact h
    · next phase hphase =>
      refine h.recover hphase ?_
      rintro rfl
      exact hnot hphase
  · refine ⟨h.stands, h.found, fun phase hphase ↦ ?_, h.recoveries⟩
    rcases List.mem_append.1 hphase with hold | hnew
    · exact h.monitors phase hold
    · obtain rfl := List.mem_singleton.1 hnew
      exact fun b hb ↦ hb
  · rw [RecoveryState.step]
    split
    · exact h
    · next phase hphase => exact h.runCheck hphase
  · refine ⟨quarantineStands_enterQuarantine rfl, fun b hb ↦ ?_, h.monitors,
      fun j phase hphase ↦ ?_⟩
    · exact h.found b (by simpa [RecoveryState.step] using hb)
    · exact (h.recoveries j phase hphase).mono fun fact hfact ↦ List.mem_cons_of_mem _ hfact

/-- **An overtaken recovery lifts the quarantine at once.** -/
theorem not_quarantineStands_step {a : RecoveryStep} (h : ¬s.NotOvertaken a) :
    ¬(s.step H E a).QuarantineStands := by
  rcases a with - | ⟨i, now, read⟩ | - | ⟨i, now, read⟩ | -
  · exact absurd trivial h
  · simp only [NotOvertaken, Classical.not_imp, not_not] at h
    obtain ⟨hphase, quarantine, since, howed, -⟩ := h
    simp only [RecoveryState.step, hphase, RecoveryState.recover]
    intro hstands
    -- the step itself answers nothing, so the quarantine is still owed after it
    have hfact : ¬(GuardFact.operational i).Answers quarantine := id
    have hserves : s.state.goOperational.canServe = true := rfl
    exact absurd (hstands quarantine since (howed.cons hfact)) (by simp [hserves])
  · exact absurd trivial h
  · exact absurd trivial h
  · exact absurd trivial h

theorem traced_idle (state : NodeState) (store : BundleStore) (haltOnTamper : Bool) :
    (idle state store haltOnTamper).Traced where
  stands := by
    rintro quarantine since ⟨later, hsplit, -⟩
    exact absurd hsplit (by simp [idle])
  found := fun b hb ↦ absurd hb List.not_mem_nil
  monitors := fun phase hphase ↦ absurd hphase List.not_mem_nil
  recoveries := fun i phase hphase ↦ absurd hphase (by simp [idle])

end RecoveryState

/-- **When a quarantine is never lost to a recovery.** In every interleaving of recoveries, cycles
of the monitor and operators' quarantines, the node does not serve while a quarantine is unanswered
**exactly if** no recovery makes the node operational while a quarantine that took effect after its
own check of the affected bundle, or after all of its checks, is unanswered. -/
theorem quarantine_stands_iff (H : BundleHost) (E : Ed25519) (state : NodeState)
    (store : BundleStore) (haltOnTamper : Bool) (run : List RecoveryStep) :
    Always (RecoveryState.step H E) RecoveryState.QuarantineStands
        (.idle state store haltOnTamper) run ↔
      AllSteps (RecoveryState.step H E) RecoveryState.NotOvertaken
        (.idle state store haltOnTamper) run :=
  always_iff_allSteps RecoveryState.Traced (fun _ h ↦ h.stands)
    (fun _ _ h _ hnot ↦ h.step hnot) (fun _ _ _ _ ↦ RecoveryState.not_quarantineStands_step)
    (RecoveryState.traced_idle _ _ _) AllSteps.trivial

/-! ### A finding that comes too late -/

namespace SampleBundle

/-- A store that holds the sample bundle. -/
def holding : BundleStore :=
  { store with
    bundles := (∅ : StringMap StoredBundle).insert "sample" (BundleStore.registered manifest dir) }

/-- A recovery has made its checks when the monitor finds the bundle's shard missing, and
quarantines the node; then the recovery goes on. -/
def lateFinding : List RecoveryStep :=
  [.beginRecover, .recover 0 0 intact, .recover 0 0 intact,
    .beginRunCheck, .runCheck 0 0 lost, .runCheck 0 0 lost, .runCheck 0 0 lost, .runCheck 0 0 lost,
    .recover 0 0 intact, .recover 0 0 intact]

/-- Where that ends. -/
def lateEnd : RecoveryState :=
  final (RecoveryState.step host ed25519) (.idle ⟨.quarantine, .active⟩ holding true) lateFinding

theorem lateEnd_eq :
    (lateEnd.recoveries, lateEnd.monitors, lateEnd.history, lateEnd.state.canServe) =
      ([.done], [.done],
        [.operational 0, .found "sample", .checksDone 0, .checked 0 "sample"], true) := by
  decide +kernel

end SampleBundle

open SampleBundle in
/-- **A node serves although its bundle has been found to fail.** All steps have finished, the
finding came after the recovery's own check, and no recovery has made a check since. -/
theorem late_finding_is_lost :
    ¬∀ (H : BundleHost) (E : Ed25519) (state : NodeState) (store : BundleStore)
      (haltOnTamper : Bool) (run : List RecoveryStep) (s : RecoveryState),
      s = final (RecoveryState.step H E) (.idle state store haltOnTamper) run →
      (∀ phase ∈ s.recoveries, phase = .done) → (∀ phase ∈ s.monitors, phase = .done) →
      ∀ quarantine since, UnansweredAfter s.history quarantine since →
        (∃ fact ∈ since, ∃ i, fact.recovery? = some i ∧ fact.Answers quarantine) →
        s.state.canServe = false := by
  intro hall
  obtain ⟨hrecoveries, hrest⟩ := Prod.mk.inj lateEnd_eq
  obtain ⟨hmonitors, hrest⟩ := Prod.mk.inj hrest
  obtain ⟨hhistory, hserves⟩ := Prod.mk.inj hrest
  have hdown := hall host ed25519 ⟨.quarantine, .active⟩ holding true lateFinding lateEnd rfl
    (by simp [hrecoveries]) (by simp [hmonitors]) (.found "sample")
    [.checksDone 0, .checked 0 "sample"] ⟨[.operational 0], hhistory, trivial, ?_⟩
    ⟨.checked 0 "sample", by simp, 0, rfl, rfl⟩
  · rw [hserves] at hdown
    exact absurd hdown (by decide)
  · intro fact hfact
    obtain rfl := List.mem_singleton.1 hfact
    exact id

end Cordon
