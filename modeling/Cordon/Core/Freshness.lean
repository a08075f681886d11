import Cordon.Core.Lifecycle

/-!
# How fresh the integrity monitor keeps its verdicts

The monitor checks every bundle once in an interval, and a verdict is usable for **one interval**
from the moment at which it was recorded. It is recorded when the check ends, so what decides
whether a bundle is ever without a usable verdict is how long after its tick the check ends, in one
cycle and in the next: if that comes later than the time before, the old verdict runs out before the
new one is there (`stale_of_offset_lt`).

A `MonitorRun` gives the ticks and, for each cycle, the bundles in the order in which they are
checked with the time each check takes. `guardAt` is the node at an instant: the checks that have
ended by then have been made.

The equivalence is a matter of when things happen, and rests on knowing the verdict a bundle has at
every instant: that of the current cycle once its check has ended (`lastCheck_of_recordedAt_le`),
and before that the one of the cycle before (`lastCheck_of_lt_recordedAt`). A verdict lives for one
interval because the store's time and the monitor's are read from one setting
(`verdictTtl_eq_monitorInterval`).
-/

namespace Cordon

/-- The time between two ticks of the monitor, in nanoseconds. -/
def monitorInterval (intervalMinutes : ℕ) : ℤ :=
  (max intervalMinutes 1 * 60 : ℕ) * 1000000000

/-- **A verdict lives for one interval** on a node that is built from its configuration. -/
theorem verdictTtl_eq_monitorInterval (vendorVk : Option VerifyingKey) (intervalMinutes : ℕ) :
    (BundleStore.withVerdictTtl vendorVk intervalMinutes).verdictTtl =
      monitorInterval intervalMinutes := by
  show max (intervalMinutes : ℤ) 1 * 60000000000 =
    ((max intervalMinutes 1 * 60 : ℕ) : ℤ) * 1000000000
  push_cast
  ring

/-- One check of a cycle: the bundle, how long it takes, and what it reads. -/
abbrev TimedCheck : Type :=
  String × ℤ × ShardReads

/-- A run of the monitor. -/
structure MonitorRun where
  firstTick : ℤ
  /-- The time from each tick to the next. -/
  interval : ℤ
  /-- The checks of each cycle, in the order in which they are made. -/
  cycles : ℕ → List TimedCheck

namespace MonitorRun

/-- The checks of a cycle that begins at an instant, each with the instant at which it ends. -/
def endings : ℤ → List TimedCheck → List TimedCheck
  | _, [] => []
  | now, (bundleId, duration, read) :: checks =>
    (bundleId, now + duration, read) :: endings (now + duration) checks

/-- How long after the beginning of a cycle the check of a bundle ends. -/
def offsetIn (id : String) : List TimedCheck → ℤ
  | [] => 0
  | (bundleId, duration, _) :: checks =>
    if bundleId = id then duration else duration + offsetIn id checks

variable (run : MonitorRun)

/-- The instant of a tick. -/
def tick (k : ℕ) : ℤ :=
  run.firstTick + k * run.interval

/-- How long after its tick the check of a bundle ends, in each cycle. -/
def offset (id : String) (k : ℕ) : ℤ :=
  offsetIn id (run.cycles k)

/-- When the verdict of a bundle is recorded, in each cycle. -/
def recordedAt (id : String) (k : ℕ) : ℤ :=
  run.tick k + run.offset id k

/-- The checks of the first cycles, with the instants at which they end. -/
def recordings (n : ℕ) : List TimedCheck :=
  (List.range n).flatMap fun k ↦ endings (run.tick k) (run.cycles k)

/-- The number of ticks up to an instant. -/
def ticksBy (now : ℤ) : ℕ :=
  ((now - run.firstTick) / run.interval + 1).toNat

/-- The node at an instant. -/
def guardAt (H : BundleHost) (E : Ed25519) (g : NodeGuard) (now : ℤ) : NodeGuard :=
  g.runCheck H E ((run.recordings (run.ticksBy now)).filter fun check ↦ check.2.1 ≤ now)

/-- **The monitor is healthy**: every cycle checks every bundle once and is done before the next
tick, and every check passes. -/
structure Healthy (H : BundleHost) (E : Ed25519) (store : BundleStore) : Prop where
  interval_pos : 0 < run.interval
  bundles : ∀ k, ((run.cycles k).map Prod.fst).Perm store.bundleIds
  duration_nonneg : ∀ k, ∀ check ∈ run.cycles k, 0 ≤ check.2.1
  done_in_time : ∀ k, ((run.cycles k).map fun check ↦ check.2.1).sum < run.interval
  passes : ∀ k, ∀ check ∈ run.cycles k, ∀ b, store.bundles.lookup check.1 = some b →
    checkShards H E store.vendorVk check.2.2 b.manifest b.bundleDir = .ok true

end MonitorRun

/-! ### The verdict a bundle has -/

namespace NodeGuard

variable {H : BundleHost} {E : Ed25519} {g : NodeGuard} {id : String}

/-- Every check of a list passes, on the bundles as they are registered. -/
def PassesAll (H : BundleHost) (E : Ed25519) (store : BundleStore) (checks : List TimedCheck) :
    Prop :=
  ∀ check ∈ checks, ∀ b, store.bundles.lookup check.1 = some b →
    checkShards H E store.vendorVk check.2.2 b.manifest b.bundleDir = .ok true

/-- When a bundle is checked last in a list of checks. -/
def lastCheck (id : String) (checks : List TimedCheck) : Option ℤ :=
  ((checks.filter fun check ↦ check.1 = id).map fun check ↦ check.2.1).getLast?

theorem lastCheck_cons (check : TimedCheck) (checks : List TimedCheck) :
    lastCheck id (check :: checks) =
      (lastCheck id checks).or (if check.1 = id then some check.2.1 else none) := by
  by_cases h : check.1 = id
  · rw [lastCheck, List.filter_cons_of_pos (by simpa using h), List.map_cons, if_pos h,
      List.getLast?_cons]
    rcases hlast : lastCheck id checks with - | last
    · rw [lastCheck] at hlast
      simp [hlast]
    · rw [lastCheck] at hlast
      simp [hlast]
  · rw [lastCheck, List.filter_cons_of_neg (by simpa using h), if_neg h, Option.or_none]
    rfl

/-- A check that passes writes its verdict, and leaves everything else. -/
theorem lookup_runIntegrityCheck_of_passes {store : BundleStore} {check : TimedCheck}
    (h : ∀ b, store.bundles.lookup check.1 = some b →
      checkShards H E store.vendorVk check.2.2 b.manifest b.bundleDir = .ok true) (id : String) :
    (store.runIntegrityCheck H E check.2.1 check.2.2 check.1).2 ≠ .ok false ∧
      (store.runIntegrityCheck H E check.2.1 check.2.2 check.1).1.vendorVk = store.vendorVk ∧
      (store.runIntegrityCheck H E check.2.1 check.2.2 check.1).1.bundles.lookup id =
        if check.1 = id then
          (store.bundles.lookup id).map (BundleStore.withVerdict check.2.1 true)
        else store.bundles.lookup id := by
  rw [BundleStore.runIntegrityCheck]
  rcases hb : store.bundles.lookup check.1 with - | b
  · refine ⟨by simp, rfl, ?_⟩
    by_cases hid : check.1 = id
    · rw [if_pos hid, ← hid, hb]
      rfl
    · rw [if_neg hid]
  · simp only [h b hb]
    refine ⟨by simp, rfl, ?_⟩
    rw [BundleStore.lookup_recordVerdict]
    simp only [eq_comm (a := id)]

/-- **After checks that pass, a bundle has the verdict of the last of them.** -/
theorem lookup_runCheck_of_passesAll {checks : List TimedCheck}
    (h : PassesAll H E g.store checks) (id : String) :
    (g.runCheck H E checks).store.bundles.lookup id =
      match lastCheck id checks with
      | none => g.store.bundles.lookup id
      | some last => (g.store.bundles.lookup id).map (BundleStore.withVerdict last true) := by
  induction checks generalizing g with
  | nil => rfl
  | cons check checks ih =>
    obtain ⟨hpassed, hvk, -⟩ :=
      lookup_runIntegrityCheck_of_passes (h check List.mem_cons_self) id
    set store' := (g.store.runIntegrityCheck H E check.2.1 check.2.2 check.1).1 with hstore'
    have hlookup : ∀ id, store'.bundles.lookup id =
        if check.1 = id then
          (g.store.bundles.lookup id).map (BundleStore.withVerdict check.2.1 true)
        else g.store.bundles.lookup id := fun id ↦
      (lookup_runIntegrityCheck_of_passes (h check List.mem_cons_self) id).2.2
    have hstep : g.runCheck H E (check :: checks) =
        { g with store := store' }.runCheck H E checks := by
      rw [runCheck]
      split
      · next heq => exact absurd (congrArg Prod.snd heq) hpassed
      · next heq => rw [hstore', heq]
    have hrest : PassesAll H E store' checks := by
      intro later hlater b hb
      rw [hlookup] at hb
      rw [hvk]
      split at hb
      · obtain ⟨b', hb', rfl⟩ := Option.map_eq_some_iff.1 hb
        exact h later (List.mem_cons_of_mem _ hlater) b' hb'
      · exact h later (List.mem_cons_of_mem _ hlater) b hb
    rw [hstep, ih hrest, lastCheck_cons]
    by_cases hid : check.1 = id
    · rcases lastCheck id checks with - | last
      · simp only [hlookup, if_pos hid, Option.none_or]
      · simp only [hlookup, if_pos hid, Option.some_or]
        rcases g.store.bundles.lookup id with - | b <;> rfl
    · rcases lastCheck id checks with - | last
      · simp only [hlookup, if_neg hid, Option.none_or]
      · simp only [hlookup, if_neg hid, Option.some_or]

end NodeGuard

/-! ### When the verdicts are recorded -/

namespace MonitorRun

variable {run : MonitorRun} {H : BundleHost} {E : Ed25519} {store : BundleStore} {id : String}

theorem offsetIn_nonneg {checks : List TimedCheck} (h : ∀ check ∈ checks, 0 ≤ check.2.1)
    (id : String) : 0 ≤ offsetIn id checks := by
  induction checks with
  | nil => exact le_rfl
  | cons check checks ih =>
    obtain ⟨hfirst, hrest⟩ := List.forall_mem_cons.1 h
    have htail := ih hrest
    obtain ⟨bundleId, duration, read⟩ := check
    rw [offsetIn]
    simp only at hfirst
    split <;> omega

theorem offsetIn_le_sum {checks : List TimedCheck} (h : ∀ check ∈ checks, 0 ≤ check.2.1)
    (id : String) :
    offsetIn id checks ≤ (checks.map fun check ↦ check.2.1).sum := by
  induction checks with
  | nil => exact le_rfl
  | cons check checks ih =>
    obtain ⟨hfirst, hrest⟩ := List.forall_mem_cons.1 h
    have htail := ih hrest
    have hsum := (offsetIn_nonneg hrest id).trans htail
    obtain ⟨bundleId, duration, read⟩ := check
    rw [offsetIn, List.map_cons, List.sum_cons]
    simp only at hfirst ⊢
    split <;> omega

theorem map_fst_endings (now : ℤ) (checks : List TimedCheck) :
    (endings now checks).map Prod.fst = checks.map Prod.fst := by
  induction checks generalizing now with
  | nil => rfl
  | cons check checks ih => exact congrArg (check.1 :: ·) (ih _)

/-- An ending is one of a check of the cycle. -/
theorem exists_mem_of_mem_endings {now : ℤ} {checks : List TimedCheck} {check : TimedCheck}
    (h : check ∈ endings now checks) : ∃ duration, (check.1, duration, check.2.2) ∈ checks := by
  induction checks generalizing now with
  | nil => simp [endings] at h
  | cons first checks ih =>
    rcases List.mem_cons.1 h with rfl | h
    · exact ⟨first.2.1, List.mem_cons_self⟩
    · obtain ⟨duration, hmem⟩ := ih h
      exact ⟨duration, List.mem_cons_of_mem _ hmem⟩

/-- Where the identifiers are distinct, a bundle has one ending in a cycle. -/
theorem filter_endings {checks : List TimedCheck} (hids : (checks.map Prod.fst).Nodup)
    (hid : id ∈ checks.map Prod.fst) (now : ℤ) :
    ((endings now checks).filter fun check ↦ check.1 = id).map (fun check ↦ check.2.1) =
      [now + offsetIn id checks] := by
  induction checks generalizing now with
  | nil => simp at hid
  | cons check checks ih =>
    obtain ⟨bundleId, duration, read⟩ := check
    obtain ⟨hfresh, hrest⟩ := List.nodup_cons.1 hids
    rw [endings, offsetIn]
    by_cases h : bundleId = id
    · subst h
      have hnone : (endings (now + duration) checks).filter (fun check ↦ check.1 = bundleId) =
          [] := by
        refine List.filter_eq_nil_iff.2 fun check hcheck heq ↦ hfresh ?_
        rw [← map_fst_endings (now + duration)]
        exact List.mem_map.2 ⟨check, hcheck, of_decide_eq_true heq⟩
      rw [List.filter_cons_of_pos (by simp), hnone, if_pos rfl]
      rfl
    · have hmem : id ∈ checks.map Prod.fst := by
        rcases List.mem_cons.1 hid with heq | hmem
        · exact absurd heq.symm h
        · exact hmem
      rw [List.filter_cons_of_neg (by simpa using h), ih hrest hmem, if_neg h]
      simp only [List.cons.injEq, and_true]
      ring

theorem tick_succ (m : ℕ) : run.tick (m + 1) = run.tick m + run.interval := by
  rw [tick, tick, Nat.cast_add, Nat.cast_one]
  ring

/-! What a healthy monitor does about one bundle. -/

section Healthy

variable (h : run.Healthy H E store) (hid : id ∈ store.bundleIds)
include h

theorem offset_nonneg (id : String) (k : ℕ) : 0 ≤ run.offset id k :=
  offsetIn_nonneg (h.duration_nonneg k) id

theorem offset_lt_interval (id : String) (k : ℕ) : run.offset id k < run.interval :=
  (offsetIn_le_sum (h.duration_nonneg k) id).trans_lt (h.done_in_time k)

include hid in
theorem map_recordings (n : ℕ) :
    ((run.recordings n).filter fun check ↦ check.1 = id).map (fun check ↦ check.2.1) =
      (List.range n).map (run.recordedAt id) := by
  induction n with
  | zero => rfl
  | succ n ih =>
    have hcycle := h.bundles n
    rw [recordings, List.range_succ, List.flatMap_append, List.filter_append, List.map_append,
      List.map_append]
    refine congrArg₂ (· ++ ·) ih ?_
    rw [List.flatMap_singleton]
    exact filter_endings (hcycle.nodup_iff.2 store.bundleIds_nodup) (hcycle.mem_iff.2 hid) _

include hid in
/-- At an instant, the last check of a bundle is the last of its recordings up to then. -/
theorem lastCheck_recordings (n : ℕ) (now : ℤ) :
    NodeGuard.lastCheck id ((run.recordings n).filter fun check ↦ check.2.1 ≤ now) =
      (((List.range n).map (run.recordedAt id)).filter fun r ↦ r ≤ now).getLast? := by
  rw [NodeGuard.lastCheck, List.filter_comm, ← map_recordings h hid, List.filter_map]
  rfl

theorem ticksBy_eq {m : ℕ} {now : ℤ} (hlo : run.tick m ≤ now) (hhi : now < run.tick (m + 1)) :
    run.ticksBy now = m + 1 := by
  have hpos := h.interval_pos
  simp only [tick, Nat.cast_add, Nat.cast_one, add_mul, one_mul] at hlo hhi
  have hle : (m : ℤ) ≤ (now - run.firstTick) / run.interval :=
    (Int.le_ediv_iff_mul_le hpos).2 (by omega)
  have hlt : (now - run.firstTick) / run.interval < m + 1 :=
    (Int.ediv_lt_iff_lt_mul hpos).2 (by rw [add_mul, one_mul]; omega)
  rw [ticksBy]
  omega

/-- Every instant from the first tick on lies between two ticks. -/
theorem exists_tick {now : ℤ} (hstart : run.firstTick ≤ now) :
    ∃ m, run.tick m ≤ now ∧ now < run.tick (m + 1) := by
  have hpos := h.interval_pos
  have hq : 0 ≤ (now - run.firstTick) / run.interval :=
    Int.ediv_nonneg (by omega) hpos.le
  refine ⟨((now - run.firstTick) / run.interval).toNat, ?_, ?_⟩
  · have hle := Int.ediv_mul_le (now - run.firstTick) hpos.ne'
    rw [tick, Int.toNat_of_nonneg hq]
    omega
  · have hlt := Int.lt_ediv_add_one_mul_self (now - run.firstTick) hpos
    rw [tick, Nat.cast_add, Nat.cast_one, Int.toNat_of_nonneg hq]
    omega

/-- What was recorded in a cycle is recorded by the next tick. -/
theorem recordedAt_lt_tick (id : String) {j m : ℕ} (hjm : j < m) :
    run.recordedAt id j < run.tick m := by
  have hpos := h.interval_pos
  have hoffset := offset_lt_interval h id j
  have hle : ((j + 1 : ℕ) : ℤ) * run.interval ≤ m * run.interval :=
    mul_le_mul_of_nonneg_right (by exact_mod_cast hjm) hpos.le
  rw [Nat.cast_add, Nat.cast_one, add_mul, one_mul] at hle
  rw [recordedAt, tick, tick]
  omega

include hid in
/-- **The verdict a bundle has**, once the check of the current cycle has ended. -/
theorem lastCheck_of_recordedAt_le {m : ℕ} {now : ℤ} (hhi : now < run.tick (m + 1))
    (hrecorded : run.recordedAt id m ≤ now) :
    NodeGuard.lastCheck id ((run.recordings (run.ticksBy now)).filter fun check ↦
      check.2.1 ≤ now) = some (run.recordedAt id m) := by
  have hoffset := offset_nonneg h id m
  have hlo : run.tick m ≤ now := by
    rw [recordedAt] at hrecorded
    omega
  rw [lastCheck_recordings h hid, ticksBy_eq h hlo hhi, List.range_succ, List.map_append,
    List.filter_append]
  simp [hrecorded]

include hid in
/-- **The verdict a bundle has**, while the check of the current cycle is still to end. -/
theorem lastCheck_of_lt_recordedAt {m : ℕ} {now : ℤ} (hlo : run.tick (m + 1) ≤ now)
    (hhi : now < run.tick (m + 2)) (hpending : now < run.recordedAt id (m + 1)) :
    NodeGuard.lastCheck id ((run.recordings (run.ticksBy now)).filter fun check ↦
      check.2.1 ≤ now) = some (run.recordedAt id m) := by
  have hprevious : run.recordedAt id m ≤ now :=
    ((recordedAt_lt_tick h id (Nat.lt_succ_self m)).le).trans hlo
  rw [lastCheck_recordings h hid, ticksBy_eq h hlo hhi, List.range_succ, List.range_succ,
    List.map_append, List.map_append, List.filter_append, List.filter_append]
  simp [hprevious, not_le.2 hpending]

end Healthy

/-! ### Stale verdicts -/

/-- What the gate says of a registered bundle that is not withdrawn. -/
theorem ensureServable_ne_stale_iff {store : BundleStore} {b : StoredBundle} {v : IntegrityVerdict}
    {now : ℤ} (hb : store.bundles.lookup id = some b) (hstatus : b.status ≠ .tampered)
    (hv : b.verdict = some v) (hpassed : v.passed = true) (allowUnregistered : Bool) :
    store.gate.ensureServable now id allowUnregistered ≠ .error (staleVerdict id) ↔
      now - v.checkedAt < store.verdictTtl := by
  rw [ModelStore.ensureServable, BundleStore.lookup_gate, hb]
  simp only [Option.map_some, StoredBundle.gate, hv, if_neg hstatus, IntegrityVerdict.isFresh,
    hpassed, Bool.true_and, decide_eq_true_eq]
  by_cases hfresh : now - v.checkedAt < store.verdictTtl
  · simp [BundleStore.gate, hfresh]
  · simp [BundleStore.gate, hfresh]

theorem verdictTtl_runCheck (g : NodeGuard) (checks : List TimedCheck) :
    (g.runCheck H E checks).store.verdictTtl = g.store.verdictTtl := by
  induction checks generalizing g with
  | nil => rfl
  | cons check checks ih =>
    have hkept := g.store.verdictTtl_runIntegrityCheck (H := H) (E := E) check.2.1 check.2.2
      check.1
    rw [NodeGuard.runCheck]
    split
    · next heq =>
      rw [heq] at hkept
      split
      · exact (ih _).trans hkept
      · exact (ih _).trans hkept
    · next heq =>
      rw [heq] at hkept
      exact (ih _).trans hkept

section Stale

variable {g : NodeGuard} {b : StoredBundle} (h : run.Healthy H E g.store)
  (httl : g.store.verdictTtl = run.interval) (hb : g.store.bundles.lookup id = some b)
  (hstatus : b.status ≠ .tampered)
include h httl hb hstatus

/-- The gate at an instant, by the time of the last check up to then. -/
theorem ne_stale_iff_of_lastCheck {now last : ℤ}
    (hlast : NodeGuard.lastCheck id ((run.recordings (run.ticksBy now)).filter fun check ↦
      check.2.1 ≤ now) = some last) (allowUnregistered : Bool) :
    (run.guardAt H E g now).store.gate.ensureServable now id allowUnregistered ≠
        .error (staleVerdict id) ↔ now - last < run.interval := by
  have hpasses : NodeGuard.PassesAll H E g.store
      ((run.recordings (run.ticksBy now)).filter fun check ↦ check.2.1 ≤ now) := by
    intro check hcheck
    obtain ⟨k, -, hending⟩ := List.mem_flatMap.1 (List.mem_of_mem_filter hcheck)
    obtain ⟨duration, hmem⟩ := exists_mem_of_mem_endings hending
    exact h.passes k (check.1, duration, check.2.2) hmem
  have hlookup := NodeGuard.lookup_runCheck_of_passesAll hpasses id
  rw [hlast, hb] at hlookup
  rw [guardAt, ensureServable_ne_stale_iff (v := ⟨last, true⟩) hlookup hstatus rfl rfl,
    verdictTtl_runCheck, httl]

/-- **A verdict that takes longer to replace than it took to make runs out.** -/
theorem stale_of_offset_lt {k : ℕ} (hlater : run.offset id k < run.offset id (k + 1))
    (allowUnregistered : Bool) :
    (run.guardAt H E g (run.recordedAt id k + run.interval)).store.gate.ensureServable
        (run.recordedAt id k + run.interval) id allowUnregistered =
      .error (staleVerdict id) := by
  have hid := BundleStore.mem_bundleIds.2 ⟨b, hb⟩
  have hnonneg := offset_nonneg h id k
  have hlt := offset_lt_interval h id k
  have hlo : run.tick (k + 1) ≤ run.recordedAt id k + run.interval := by
    rw [tick_succ, recordedAt]
    omega
  have hhi : run.recordedAt id k + run.interval < run.tick (k + 2) := by
    rw [tick_succ, tick_succ, recordedAt]
    omega
  have hlast := lastCheck_of_lt_recordedAt h hid hlo hhi (by
    rw [recordedAt, recordedAt, tick_succ]
    omega)
  by_contra hne
  have hfresh := (ne_stale_iff_of_lastCheck h httl hb hstatus hlast allowUnregistered).1 hne
  omega

/-- **A verdict that is replaced in time never runs out.** -/
theorem ne_stale_of_offset_le (hsooner : ∀ k, run.offset id (k + 1) ≤ run.offset id k) {now : ℤ}
    (hnow : run.recordedAt id 0 ≤ now) (allowUnregistered : Bool) :
    (run.guardAt H E g now).store.gate.ensureServable now id allowUnregistered ≠
      .error (staleVerdict id) := by
  have hid := BundleStore.mem_bundleIds.2 ⟨b, hb⟩
  have hnonneg := offset_nonneg h id
  have hstart : run.firstTick ≤ now := by
    have hzero := hnonneg 0
    simp only [recordedAt, tick, Nat.cast_zero, zero_mul] at hnow
    omega
  obtain ⟨m, hlo, hhi⟩ := exists_tick h hstart
  rcases le_or_gt (run.recordedAt id m) now with hrecorded | hpending
  · -- the verdict is of the current cycle, which is not over
    have hlast := lastCheck_of_recordedAt_le h hid hhi hrecorded
    refine (ne_stale_iff_of_lastCheck h httl hb hstatus hlast allowUnregistered).2 ?_
    have hm := hnonneg m
    rw [tick_succ] at hhi
    rw [recordedAt]
    omega
  · -- the verdict is of the cycle before, and there is one
    rcases m with - | m
    · exact absurd hnow (not_le.2 hpending)
    · have hlast := lastCheck_of_lt_recordedAt h hid hlo hhi hpending
      refine (ne_stale_iff_of_lastCheck h httl hb hstatus hlast allowUnregistered).2 ?_
      have hm := hsooner m
      rw [recordedAt, tick_succ] at hpending
      rw [recordedAt]
      omega

end Stale

end MonitorRun

/-- **When a healthy monitor keeps a bundle in service.** On a node whose store and monitor are
configured with the same number of minutes, a bundle is never refused as stale from its first
verdict on **exactly if** in no cycle its check ends later after the tick than in the cycle
before. -/
theorem never_stale_iff (H : BundleHost) (E : Ed25519) (g : NodeGuard)
    (vendorVk : Option VerifyingKey) (intervalMinutes : ℕ) (run : MonitorRun)
    (hstore : g.store.verdictTtl =
      (BundleStore.withVerdictTtl vendorVk intervalMinutes).verdictTtl)
    (hmonitor : run.interval = monitorInterval intervalMinutes)
    (hhealthy : run.Healthy H E g.store) (id : String) (b : StoredBundle)
    (hb : g.store.bundles.lookup id = some b) (hstatus : b.status ≠ .tampered)
    (allowUnregistered : Bool) :
    (∀ now, run.recordedAt id 0 ≤ now →
      (run.guardAt H E g now).store.gate.ensureServable now id allowUnregistered ≠
        .error (staleVerdict id)) ↔
      ∀ k, run.offset id (k + 1) ≤ run.offset id k := by
  have httl : g.store.verdictTtl = run.interval := by
    rw [hstore, verdictTtl_eq_monitorInterval, hmonitor]
  constructor
  · intro hnever k
    by_contra hlater
    refine hnever (run.recordedAt id k + run.interval) ?_
      (MonitorRun.stale_of_offset_lt hhealthy httl hb hstatus (not_le.1 hlater) allowUnregistered)
    have hfirst := MonitorRun.recordedAt_lt_tick hhealthy id (Nat.succ_pos k)
    have hoffset := MonitorRun.offset_nonneg hhealthy id k
    rw [MonitorRun.tick_succ] at hfirst
    have htick : run.recordedAt id k = run.tick k + run.offset id k := rfl
    omega
  · intro hsooner now hnow
    exact MonitorRun.ne_stale_of_offset_le hhealthy httl hb hstatus hsooner hnow allowUnregistered

/-! ### A node with one bundle -/

namespace SampleMonitor

/-- A node that has registered the sample bundle, with a check every fifteen minutes. -/
def guard : NodeGuard where
  state := ⟨.healthy, .active⟩
  store := { SampleBundle.store with
    bundles := SampleBundle.store.bundles.insert "sample"
      (BundleStore.registered SampleBundle.manifest SampleBundle.dir) }
  tamperDetected := false
  haltOnTamper := true
  keys := ⟨none, false⟩
  identity := ⟨∅, ∅, .deny⟩

/-- A monitor whose checks find the shard intact, and take as long as they are said to. -/
def run (durations : ℕ → ℤ) : MonitorRun where
  firstTick := 0
  interval := monitorInterval 15
  cycles k := [("sample", durations k, SampleBundle.intact)]

theorem lookup_guard : guard.store.bundles.lookup "sample" =
    some (BundleStore.registered SampleBundle.manifest SampleBundle.dir) :=
  AList.lookup_insert _

theorem healthy {durations : ℕ → ℤ} (hnonneg : ∀ k, 0 ≤ durations k)
    (hlt : ∀ k, durations k < monitorInterval 15) :
    (run durations).Healthy SampleBundle.host SampleBundle.ed25519 guard.store where
  interval_pos := by
    show 0 < monitorInterval 15
    decide
  bundles k := List.Perm.refl _
  duration_nonneg k check hcheck := by
    obtain rfl := List.mem_singleton.1 hcheck
    exact hnonneg k
  done_in_time k := by
    show durations k + 0 < monitorInterval 15
    rw [add_zero]
    exact hlt k
  passes k check hcheck b hb := by
    obtain rfl := List.mem_singleton.1 hcheck
    obtain rfl := Option.some.inj (lookup_guard.symm.trans hb)
    exact SampleBundle.checkShards_intact

end SampleMonitor

open SampleMonitor in
/-- Checks that all take a second keep the bundle in service, an hour after the start for one. -/
theorem never_stale_iff_steady :
    ((run fun _ ↦ 1000000000).guardAt SampleBundle.host SampleBundle.ed25519 guard
      3600000000000).store.gate.ensureServable 3600000000000 "sample" false ≠
        .error (staleVerdict "sample") := by
  refine (never_stale_iff _ _ guard none 15 (run fun _ ↦ 1000000000) rfl rfl
    (healthy (fun _ ↦ by decide) fun _ ↦ by decide) "sample" _ lookup_guard (by decide) false).2 ?_
      3600000000000 (by decide)
  intro k
  exact le_rfl

open SampleMonitor in
/-- **A check that takes a second, after one that took no time**, leaves the bundle without a usable
verdict for that second. -/
theorem slower_check_leaves_a_gap :
    (run fun k ↦ if k = 0 then 0 else 1000000000).Healthy SampleBundle.host SampleBundle.ed25519
        guard.store ∧
      (run fun k ↦ if k = 0 then 0 else 1000000000).recordedAt "sample" 0 ≤ monitorInterval 15 ∧
      ((run fun k ↦ if k = 0 then 0 else 1000000000).guardAt SampleBundle.host
        SampleBundle.ed25519 guard (monitorInterval 15)).store.gate.ensureServable
          (monitorInterval 15) "sample" false = .error (staleVerdict "sample") := by
  have hhealthy : (run fun k ↦ if k = 0 then 0 else 1000000000).Healthy SampleBundle.host
      SampleBundle.ed25519 guard.store := by
    refine healthy (fun k ↦ ?_) fun k ↦ ?_
    · split <;> decide
    · split <;> decide
  refine ⟨hhealthy, by decide, ?_⟩
  exact MonitorRun.stale_of_offset_lt hhealthy rfl lookup_guard (by decide) (k := 0) (by decide)
    false

end Cordon
