import Cordon.Core.WindowCounts

/-!
# Counters that share a map

The detector keeps the counters of many keys in one bounded map, which drops a counter when all it
stores has lapsed, and makes a new one when the key comes back. To a caller **the map is as many
separate counters as there are keys**: a counter that is dropped is one that pruning would have made
new (`WindowCounter.InOrder.prune_of_lapsed`), and pruning at one time is forgotten when it is
pruned at a later one. So the simulation is of what the counters are once they are pruned.

The map refuses a key only when it holds 16384 others, and it never drops a counter that stores an
event in its window. It does drop counters whose events in the window are all in the tally, as
`WindowCounter.prune` takes the tally back (`shared_counters_iff`).

`Matches` is the relation of the simulation, and `Matches.step` is one call: the key that it counts
is admitted in both or in neither, and no other key changes. Every clause of the theorem is read off
it, and none of them has a hypothesis but that time does not go back; when an eviction loses an
event is decided at the counter that is dropped (`Matches.keepsCounted_iff`).
-/

namespace Cordon

open Transition SlidingWindow

/-- A call of a bounded map. -/
inductive MapCall (K : Type)
  | record (key : K)
  | pruneLapsed
  | sweepIfDue

/-- The key that a call counts an event under. -/
def MapCall.key? {K : Type} : MapCall K → Option K
  | .record key => some key
  | _ => none

/-- The distinct keys of a run. -/
def distinctKeys {K : Type} [DecidableEq K] (run : List (ℤ × MapCall K)) : Finset K :=
  (run.filterMap fun call ↦ call.2.key?).toFinset

/-- A bounded map, beside it a separate counter for each key, with the events that the map admitted
under the key. -/
structure MapRun (K : Type) where
  map : BoundedCounters K
  clock : ℤ
  separate : K → CounterRun

namespace MapRun

variable {K : Type}

/-- A map that has counted nothing. -/
def start (windowSeconds now : ℤ) : MapRun K :=
  ⟨.new now windowSeconds, now, fun _ ↦ .start windowSeconds now⟩

variable [DecidableEq K]

/-- What a call makes of the map; the counter of a key is given what the map admits. -/
def step (s : MapRun K) : ℤ × MapCall K → MapRun K
  | (now, .record key) =>
    { map := (s.map.record now key).1
      clock := now
      separate :=
        if (s.map.record now key).2.isSome then
          Function.update s.separate key ((s.separate key).step (now, .increment))
        else s.separate }
  | (now, .pruneLapsed) => { s with map := s.map.pruneLapsed now, clock := now }
  | (now, .sweepIfDue) => { s with map := s.map.sweepIfDue now, clock := now }

/-- Time does not go back. -/
def Legal (s : MapRun K) (call : ℤ × MapCall K) : Prop :=
  s.clock ≤ call.1

/-- What is answered is what the separate counter of the key answers. -/
def AnswersAsSeparate (s : MapRun K) : ℤ × MapCall K → Prop
  | (now, .record key) => ∀ total, (s.map.record now key).2 = some total →
      ((s.separate key).counter.call (now, .increment)).2 = some total
  | _ => True

/-- A key is refused only if the map holds 16384 others. -/
def RefusesWhenFull (s : MapRun K) : ℤ × MapCall K → Prop
  | (now, .record key) => (s.map.record now key).2 = none →
      s.map.counters.lookup key = none ∧ s.map.len = maxTrackedKeys
  | _ => True

/-- No key is refused. -/
def Admits (s : MapRun K) : ℤ × MapCall K → Prop
  | (now, .record key) => (s.map.record now key).2 ≠ none
  | _ => True

/-- The last moment that has fallen out of the window. -/
def cutoff (s : MapRun K) (now : ℤ) : ℤ :=
  WindowCounter.cutoff s.map.windowSeconds now

/-- A counter that stores an event in the window is not evicted. -/
def KeepsStored (s : MapRun K) (call : ℤ × MapCall K) : Prop :=
  ∀ key counter, s.map.counters.lookup key = some counter →
    (∃ t ∈ counter.events, s.cutoff call.1 < t) →
      ((s.step call).map.counters.lookup key).isSome

/-- A counter with any event in the window is not evicted: one that it has counted, whether it
stores it or not. -/
def KeepsCounted (s : MapRun K) (call : ℤ × MapCall K) : Prop :=
  ∀ key, (s.map.counters.lookup key).isSome →
    (∃ t ∈ (s.separate key).made, s.cutoff call.1 < t) →
      ((s.step call).map.counters.lookup key).isSome

/-- A call drops the counters that have lapsed: it is due, and if it is for a new key, the map is
full. -/
def Sweeps (s : MapRun K) : ℤ × MapCall K → Prop
  | (_, .pruneLapsed) => True
  | (now, .sweepIfDue) => sweepIntervalSeconds ≤ (now - s.map.lastSweep).tdiv 1000000000
  | (now, .record key) => s.map.counters.lookup key = none ∧ maxTrackedKeys ≤ s.map.len ∧
      sweepIntervalSeconds ≤ (now - s.map.lastSweep).tdiv 1000000000

/-- **When no event is lost by eviction.** If a call sweeps, and all that a counter stores has left
the window, then so have the events that it did not store because it was full. -/
def TalliesLapse (s : MapRun K) (call : ℤ × MapCall K) : Prop :=
  s.Sweeps call → ∀ key counter, s.map.counters.lookup key = some counter →
    (∀ t ∈ counter.events, t ≤ s.cutoff call.1) →
      ∀ t ∈ (s.separate key).tallied ++ (s.separate key).forgotten, t ≤ s.cutoff call.1

end MapRun

/-! ### What a call can do -/

namespace BoundedCounters

variable {K : Type} {b : BoundedCounters K} {now : ℤ}

theorem sweepIfDue_of_due (h : sweepIntervalSeconds ≤ (now - b.lastSweep).tdiv 1000000000) :
    b.sweepIfDue now = b.pruneLapsed now :=
  if_neg (not_lt.2 h)

theorem sweepIfDue_of_not_due
    (h : ¬sweepIntervalSeconds ≤ (now - b.lastSweep).tdiv 1000000000) : b.sweepIfDue now = b :=
  if_pos (not_le.1 h)

variable [DecidableEq K]

/-- **A key is refused or admitted**, in a map that may have been swept before. -/
theorem record_cases (b : BoundedCounters K) (now : ℤ) (key : K) :
    (b.counters.lookup key = none ∧ maxTrackedKeys ≤ b.len ∧
      b.record now key = (b.sweepIfDue now, none)) ∨
    (b.counters.lookup key = none ∧ maxTrackedKeys ≤ b.len ∧
      b.record now key = (b.sweepIfDue now).admitKey now key) ∨
    (¬(b.counters.lookup key = none ∧ maxTrackedKeys ≤ b.len) ∧
      b.record now key = b.admitKey now key) := by
  rw [record]
  simp only [Option.isNone_iff_eq_none]
  split
  · next hnew =>
    split
    · exact Or.inl ⟨hnew.1, hnew.2, rfl⟩
    · exact Or.inr (Or.inl ⟨hnew.1, hnew.2, rfl⟩)
  · next hnew => exact Or.inr (Or.inr ⟨hnew, rfl⟩)

theorem lookup_pruneLapsed (key : K) : (b.pruneLapsed now).counters.lookup key =
    (b.counters.lookup key).bind (WindowCounter.retained now) :=
  AList.lookup_filterMapValues _ _

end BoundedCounters

namespace MapRun

variable {K : Type} [DecidableEq K] {s : MapRun K} {now : ℤ} {key : K} {call : ℤ × MapCall K}

/-- Time passes. -/
def wait (s : MapRun K) (now : ℤ) : MapRun K :=
  { s with clock := now }

/-- The counters that have lapsed are dropped. -/
def sweep (s : MapRun K) (now : ℤ) : MapRun K :=
  { s with map := s.map.pruneLapsed now, clock := now }

/-- An event is counted under a key. -/
def tally (s : MapRun K) (key : K) : MapRun K where
  map := (s.map.admitKey s.clock key).1
  clock := s.clock
  separate :=
    Function.update s.separate key ((s.separate key).step (s.clock, .increment))

/-- What a call makes of the map before it counts anything. -/
def IsReady (s : MapRun K) (call : ℤ × MapCall K) (ready : MapRun K) : Prop :=
  (s.Sweeps call ∧ ready = s.sweep call.1) ∨ (¬s.Sweeps call ∧ ready = s.wait call.1)

/-- Where a call sweeps if it is due, `sweepIfDue` makes the map ready. -/
theorem isReady_sweepIfDue
    (hdue : s.Sweeps call ↔ sweepIntervalSeconds ≤ (call.1 - s.map.lastSweep).tdiv 1000000000) :
    s.IsReady call ⟨s.map.sweepIfDue call.1, call.1, s.separate⟩ := by
  rw [IsReady, hdue]
  by_cases h : sweepIntervalSeconds ≤ (call.1 - s.map.lastSweep).tdiv 1000000000
  · rw [BoundedCounters.sweepIfDue_of_due h]
    exact Or.inl ⟨h, rfl⟩
  · rw [BoundedCounters.sweepIfDue_of_not_due h]
    exact Or.inr ⟨h, rfl⟩

/-- **A call sweeps or does not, and then it counts an event or does not.** -/
theorem step_cases (s : MapRun K) (call : ℤ × MapCall K) :
    ∃ ready, s.IsReady call ready ∧
      ((s.step call = ready ∧ ∀ key, call.2 = .record key →
          s.map.counters.lookup key = none ∧ maxTrackedKeys ≤ s.map.len ∧
            (s.map.record call.1 key).2 = none) ∨
        ∃ key, call.2 = .record key ∧ s.step call = ready.tally key ∧
          s.map.record call.1 key = ready.map.admitKey call.1 key ∧
          (s.Sweeps call → s.map.counters.lookup key = none)) := by
  obtain ⟨now, key | - | -⟩ := call
  · have hstep : s.step (now, .record key) = ⟨(s.map.record now key).1, now,
        if (s.map.record now key).2.isSome then
          Function.update s.separate key ((s.separate key).step (now, .increment))
        else s.separate⟩ := rfl
    obtain ⟨hnew, hfull, hrecord⟩ | ⟨hnew, hfull, hrecord⟩ | ⟨hroom, hrecord⟩ :=
      s.map.record_cases now key
    · refine ⟨_, isReady_sweepIfDue ⟨fun h ↦ h.2.2, fun h ↦ ⟨hnew, hfull, h⟩⟩, Or.inl ⟨?_, ?_⟩⟩
      · rw [hstep, hrecord]
        rfl
      · rintro _ ⟨⟩
        exact ⟨hnew, hfull, congrArg Prod.snd hrecord⟩
    · refine ⟨_, isReady_sweepIfDue ⟨fun h ↦ h.2.2, fun h ↦ ⟨hnew, hfull, h⟩⟩,
        Or.inr ⟨key, rfl, ?_, hrecord, fun _ ↦ hnew⟩⟩
      rw [hstep, hrecord]
      rfl
    · have hnot : ¬s.Sweeps (now, .record key) := fun h ↦ hroom ⟨h.1, h.2.1⟩
      refine ⟨s.wait now, Or.inr ⟨hnot, rfl⟩, Or.inr ⟨key, rfl, ?_, hrecord,
        fun h ↦ absurd h hnot⟩⟩
      rw [hstep, hrecord]
      rfl
  · exact ⟨s.sweep now, Or.inl ⟨trivial, rfl⟩, Or.inl ⟨rfl, nofun⟩⟩
  · exact ⟨_, isReady_sweepIfDue Iff.rfl, Or.inl ⟨rfl, nofun⟩⟩

/-! ### The simulation -/

/-- The counter of a key: the one in the map, or a new one. -/
def counterOf (s : MapRun K) (windowSeconds : ℤ) (key : K) : WindowCounter :=
  (s.map.counters.lookup key).getD (.new windowSeconds)

/-- **The map and the separate counters agree**: from now on, the counters of a key are the same
once they are pruned. -/
structure Matches (windowSeconds : ℤ) (s : MapRun K) : Prop where
  windowSeconds_eq : s.map.windowSeconds = windowSeconds
  within : s.map.Within
  inOrder : ∀ key, (s.counterOf windowSeconds key).InOrder s.clock
  window : ∀ key, (s.counterOf windowSeconds key).windowSeconds = windowSeconds
  kept : ∀ key, (s.separate key).Kept windowSeconds
  clock_le : ∀ key, (s.separate key).clock ≤ s.clock
  agrees : ∀ key now, s.clock ≤ now →
    (s.counterOf windowSeconds key).prune now = (s.separate key).counter.prune now

variable {windowSeconds : ℤ}

theorem matches_start (windowSeconds now : ℤ) :
    (start windowSeconds now : MapRun K).Matches windowSeconds where
  windowSeconds_eq := rfl
  within := BoundedCounters.within_new _ _
  inOrder := fun _ ↦ WindowCounter.inOrder_new _ _
  window := fun _ ↦ rfl
  kept := fun _ ↦ CounterRun.kept_start _ _
  clock_le := fun _ ↦ le_rfl
  agrees := fun _ _ _ ↦ rfl

theorem Matches.wait (h : s.Matches windowSeconds) (hnow : s.clock ≤ now) :
    (s.wait now).Matches windowSeconds where
  windowSeconds_eq := h.windowSeconds_eq
  within := h.within
  inOrder := fun key ↦ (h.inOrder key).mono hnow
  window := h.window
  kept := h.kept
  clock_le := fun key ↦ (h.clock_le key).trans hnow
  agrees := fun key later hlater ↦ h.agrees key later (hnow.trans hlater)

/-- A sweep prunes the counter of every key. -/
theorem Matches.counterOf_sweep (h : s.Matches windowSeconds) (now : ℤ) (key : K) :
    (s.sweep now).counterOf windowSeconds key = (s.counterOf windowSeconds key).prune now := by
  have horder := h.inOrder key
  have hwindow := h.window key
  show ((s.map.pruneLapsed now).counters.lookup key).getD _ = _
  rw [BoundedCounters.lookup_pruneLapsed]
  rcases hfound : s.map.counters.lookup key with - | counter
  · rw [counterOf, hfound]
    rfl
  · rw [counterOf, hfound, Option.getD_some] at horder hwindow ⊢
    rw [Option.bind_some, WindowCounter.retained]
    split
    · next hempty =>
      rw [horder.prune_of_lapsed (List.isEmpty_iff.1 hempty), hwindow]
      rfl
    · rfl

theorem Matches.sweep (h : s.Matches windowSeconds) (hnow : s.clock ≤ now) :
    (s.sweep now).Matches windowSeconds where
  windowSeconds_eq := h.windowSeconds_eq
  within := h.within.pruneLapsed now
  inOrder := fun key ↦ by
    rw [h.counterOf_sweep]
    exact (h.inOrder key).prune hnow
  window := fun key ↦ by
    rw [h.counterOf_sweep, WindowCounter.windowSeconds_prune]
    exact h.window key
  kept := h.kept
  clock_le := fun key ↦ (h.clock_le key).trans hnow
  agrees := fun key later hlater ↦ by
    rw [h.counterOf_sweep, (h.inOrder key).prune_prune hnow hlater]
    exact h.agrees key later (hnow.trans hlater)

theorem counterOf_tally_ne {other : K} (h : other ≠ key) :
    (s.tally key).counterOf windowSeconds other = s.counterOf windowSeconds other := by
  show ((s.map.counters.insert key _).lookup other).getD _ = _
  rw [AList.lookup_insert_ne h]
  rfl

/-- The counter of a key that is admitted, after pruning, is the separate one. -/
theorem Matches.increment_eq (h : s.Matches windowSeconds) (key : K) :
    (s.counterOf windowSeconds key).increment s.clock =
      (s.separate key).counter.increment s.clock := by
  rw [WindowCounter.increment_eq, WindowCounter.increment_eq, h.agrees key s.clock le_rfl]

theorem Matches.admitKey_eq (h : s.Matches windowSeconds) (key : K) :
    s.map.admitKey s.clock key =
      ({ s.map with
          counters := s.map.counters.insert key ((s.separate key).counter.increment s.clock) },
        some ((s.separate key).counter.increment s.clock).total) := by
  obtain rfl := h.windowSeconds_eq
  rw [← h.increment_eq]
  rfl

/-- Counting an event changes the counter of its key on both sides, in the same way, and no other.
-/
theorem Matches.tally (h : s.Matches windowSeconds) (hwithin : (s.tally key).map.Within) :
    (s.tally key).Matches windowSeconds := by
  have hkeys : ∀ other, ((s.tally key).counterOf windowSeconds other).InOrder s.clock ∧
      ((s.tally key).counterOf windowSeconds other).windowSeconds = windowSeconds ∧
      ((s.tally key).separate other).Kept windowSeconds ∧
      ((s.tally key).separate other).clock ≤ s.clock ∧
      ∀ now, s.clock ≤ now → ((s.tally key).counterOf windowSeconds other).prune now =
        ((s.tally key).separate other).counter.prune now := by
    intro other
    by_cases heq : other = key
    · subst heq
      have hcounter : (s.tally other).counterOf windowSeconds other =
          (s.separate other).counter.increment s.clock := by
        rw [counterOf, MapRun.tally, h.admitKey_eq, AList.lookup_insert, Option.getD_some]
      have hself : (s.tally other).separate other =
          (s.separate other).step (s.clock, .increment) := Function.update_self _ _ _
      have hlegal : (s.separate other).Legal (s.clock, .increment) := h.clock_le other
      rw [hcounter, hself]
      refine ⟨?_, ?_, (h.kept other).step hlegal, CounterRun.clock_prune.le, fun now _ ↦ ?_⟩
      · rw [← h.increment_eq, WindowCounter.increment_eq]
        exact ((h.inOrder other).prune le_rfl).push
      · rw [WindowCounter.increment_eq, WindowCounter.windowSeconds_push,
          WindowCounter.windowSeconds_prune]
        exact (h.kept other).windowSeconds_eq
      · rw [CounterRun.counter_step]
        rfl
    · have hother : (s.tally key).separate other = s.separate other :=
        Function.update_of_ne heq _ _
      rw [counterOf_tally_ne heq, hother]
      exact ⟨h.inOrder other, h.window other, h.kept other, h.clock_le other, h.agrees other⟩
  exact ⟨h.windowSeconds_eq, hwithin, fun other ↦ (hkeys other).1, fun other ↦ (hkeys other).2.1,
    fun other ↦ (hkeys other).2.2.1, fun other ↦ (hkeys other).2.2.2.1,
    fun other ↦ (hkeys other).2.2.2.2⟩

theorem Matches.isReady (h : s.Matches windowSeconds) (hlegal : s.Legal call) {ready : MapRun K}
    (hready : s.IsReady call ready) : ready.Matches windowSeconds ∧ ready.clock = call.1 ∧
      ready.separate = s.separate := by
  rcases hready with ⟨-, rfl⟩ | ⟨-, rfl⟩
  · exact ⟨h.sweep hlegal, rfl, rfl⟩
  · exact ⟨h.wait hlegal, rfl, rfl⟩

/-- **The simulation.** -/
theorem Matches.step (h : s.Matches windowSeconds) (hlegal : s.Legal call) :
    (s.step call).Matches windowSeconds := by
  obtain ⟨ready, hready, hcase⟩ := s.step_cases call
  obtain ⟨hmatches, hclock, -⟩ := h.isReady hlegal hready
  rcases hcase with ⟨hstep, -⟩ | ⟨key, -, hstep, hrecord, -⟩
  · rw [hstep]
    exact hmatches
  · rw [hstep]
    refine hmatches.tally ?_
    have hwithin := h.within.record call.1 key
    rw [hrecord, ← hclock] at hwithin
    exact hwithin

/-! ### What callers see -/

theorem Matches.answersAsSeparate (h : s.Matches windowSeconds) (hlegal : s.Legal call) :
    s.AnswersAsSeparate call := by
  obtain ⟨ready, hready, hcase⟩ := s.step_cases call
  obtain ⟨hmatches, hclock, hseparate⟩ := h.isReady hlegal hready
  obtain ⟨now, key | - | -⟩ := call
  · intro total htotal
    rcases hcase with ⟨-, hrefused⟩ | ⟨_, ⟨⟩, -, hrecord, -⟩
    · rw [(hrefused key rfl).2.2] at htotal
      exact nomatch htotal
    · have hadmit : (ready.map.admitKey ready.clock key).2 =
          some ((ready.separate key).counter.increment ready.clock).total :=
        congrArg Prod.snd (hmatches.admitKey_eq key)
      rw [hclock, hseparate] at hadmit
      rw [hrecord] at htotal
      exact hadmit.symm.trans htotal
  · trivial
  · trivial

theorem Matches.refusesWhenFull (h : s.Matches windowSeconds) : s.RefusesWhenFull call := by
  obtain ⟨ready, hready, hcase⟩ := s.step_cases call
  obtain ⟨now, key | - | -⟩ := call
  · intro hnone
    rcases hcase with ⟨-, hrefused⟩ | ⟨_, ⟨⟩, -, hrecord, -⟩
    · obtain ⟨hnew, hfull, -⟩ := hrefused key rfl
      exact ⟨hnew, le_antisymm h.within.keys hfull⟩
    · rw [hrecord] at hnone
      exact nomatch hnone
  · trivial
  · trivial

/-- A key that is in the map after a call was there before, or is the call's own. -/
theorem isSome_or_of_step {other : K} (h : ((s.step call).map.counters.lookup other).isSome) :
    (s.map.counters.lookup other).isSome ∨ call.2 = .record other := by
  obtain ⟨ready, hready, hcase⟩ := s.step_cases call
  have hbefore : (ready.map.counters.lookup other).isSome →
      (s.map.counters.lookup other).isSome := by
    rcases hready with ⟨-, rfl⟩ | ⟨-, rfl⟩
    · intro hswept
      have hbind : ((s.map.counters.lookup other).bind (WindowCounter.retained call.1)).isSome := by
        rw [← BoundedCounters.lookup_pruneLapsed]
        exact hswept
      exact Option.isSome_of_isSome_bind hbind
    · exact id
  rcases hcase with ⟨hstep, -⟩ | ⟨key, hcall, hstep, -⟩
  · rw [hstep] at h
    exact Or.inl (hbefore h)
  · by_cases heq : other = key
    · exact Or.inr (heq ▸ hcall)
    · rw [hstep] at h
      refine Or.inl (hbefore ?_)
      have hinsert : ((ready.map.counters.insert key _).lookup other).isSome := h
      rwa [AList.lookup_insert_ne heq] at hinsert

/-- **What is evicted**: a counter in the map stays there unless the call sweeps and nothing that
the counter stores is in the window. -/
theorem Matches.isSome_step_iff (h : s.Matches windowSeconds) {counter : WindowCounter}
    (hfound : s.map.counters.lookup key = some counter) :
    ((s.step call).map.counters.lookup key).isSome ↔
      (s.Sweeps call → ∃ t ∈ counter.events, s.cutoff call.1 < t) := by
  have horder := h.inOrder key
  have hwindow := h.window key
  rw [counterOf, hfound, Option.getD_some] at horder hwindow
  have hswept : ((s.map.pruneLapsed call.1).counters.lookup key).isSome ↔
      ∃ t ∈ counter.events, s.cutoff call.1 < t := by
    have hevents : (counter.prune call.1).events = live (s.cutoff call.1) counter.events := by
      rw [horder.prune_eq, hwindow, ← h.windowSeconds_eq]
      rfl
    rw [BoundedCounters.lookup_pruneLapsed, hfound, Option.bind_some, WindowCounter.retained,
      hevents]
    by_cases hnone : live (s.cutoff call.1) counter.events = []
    · rw [if_pos (List.isEmpty_iff.2 hnone)]
      refine iff_of_false (by simp) ?_
      rintro ⟨t, ht, hlive⟩
      exact absurd hlive (not_lt.2 (live_eq_nil_iff.1 hnone t ht))
    · rw [if_neg (mt List.isEmpty_iff.1 hnone)]
      refine iff_of_true rfl ?_
      obtain ⟨t, ht⟩ := List.exists_mem_of_ne_nil _ hnone
      exact ⟨t, mem_live.1 ht⟩
  obtain ⟨ready, hready, hcase⟩ := s.step_cases call
  have hthere : (ready.map.counters.lookup key).isSome ↔
      (s.Sweeps call → ∃ t ∈ counter.events, s.cutoff call.1 < t) := by
    rcases hready with ⟨hsweeps, rfl⟩ | ⟨hnot, rfl⟩
    · exact hswept.trans ⟨fun hlive _ ↦ hlive, fun hlive ↦ hlive hsweeps⟩
    · exact iff_of_true (by rw [MapRun.wait, hfound]; rfl) fun hsweeps ↦ absurd hsweeps hnot
  rcases hcase with ⟨hstep, -⟩ | ⟨other, -, hstep, -, hnew⟩
  · rw [hstep]
    exact hthere
  · rw [hstep]
    show ((ready.map.counters.insert other _).lookup key).isSome ↔ _
    by_cases heq : key = other
    · -- a key that is there is counted without a sweep
      subst heq
      rw [AList.lookup_insert]
      refine iff_of_true rfl fun hsweeps ↦ ?_
      rw [hnew hsweeps] at hfound
      cases hfound
    · rw [AList.lookup_insert_ne heq]
      exact hthere

theorem Matches.keepsStored (h : s.Matches windowSeconds) : s.KeepsStored call :=
  fun _ _ hfound hlive ↦ (h.isSome_step_iff hfound).2 fun _ ↦ hlive

/-- When nothing that a counter stores is in the window, what it has counted is in the window only
if it was tallied. -/
theorem Matches.made_lapsed_iff (h : s.Matches windowSeconds) (hlegal : s.Legal call)
    {counter : WindowCounter} (hfound : s.map.counters.lookup key = some counter)
    (hlapsed : ∀ t ∈ counter.events, t ≤ s.cutoff call.1) :
    (∀ t ∈ (s.separate key).made, t ≤ s.cutoff call.1) ↔
      ∀ t ∈ (s.separate key).tallied ++ (s.separate key).forgotten, t ≤ s.cutoff call.1 := by
  have horder := h.inOrder key
  have hwindow := h.window key
  have hagree := h.agrees key call.1 hlegal
  have hkept := h.kept key
  have hcount := hkept.count call.1 ((h.clock_le key).trans hlegal)
  rw [counterOf, hfound, Option.getD_some] at horder hwindow hagree
  rw [horder.prune_eq, hkept.inOrder.prune_eq, hwindow, hkept.windowSeconds_eq] at hagree
  obtain rfl := h.windowSeconds_eq
  have hstored : live (s.cutoff call.1) (s.separate key).counter.events = [] :=
    (congrArg WindowCounter.events hagree).symm.trans (live_eq_nil_iff.2 hlapsed)
  have hsum : (live (s.cutoff call.1) (s.separate key).made).length =
      (live (s.cutoff call.1) (s.separate key).counter.events).length +
        (live (s.cutoff call.1) (s.separate key).tallied).length +
        (live (s.cutoff call.1) (s.separate key).forgotten).length := hcount
  rw [← live_eq_nil_iff, ← live_eq_nil_iff, ← List.length_eq_zero_iff, ← List.length_eq_zero_iff,
    live_append, List.length_append, hsum, hstored, List.length_nil, Nat.zero_add]

/-- **An eviction loses an event exactly if the tally has one in the window.** -/
theorem Matches.keepsCounted_iff (h : s.Matches windowSeconds) (hlegal : s.Legal call) :
    s.KeepsCounted call ↔ s.TalliesLapse call := by
  constructor
  · intro hkeeps hsweeps key counter hfound hlapsed
    rw [← h.made_lapsed_iff hlegal hfound hlapsed]
    intro t ht
    by_contra hlive
    have hthere := hkeeps key (by rw [hfound]; rfl) ⟨t, ht, not_le.1 hlive⟩
    obtain ⟨t', ht', hlive'⟩ := (h.isSome_step_iff hfound).1 hthere hsweeps
    exact absurd hlive' (not_lt.2 (hlapsed t' ht'))
  · intro htallies key hthere hlive
    obtain ⟨counter, hfound⟩ := Option.isSome_iff_exists.1 hthere
    refine (h.isSome_step_iff hfound).2 fun hsweeps ↦ ?_
    by_contra hnone
    have hlapsed : ∀ t ∈ counter.events, t ≤ s.cutoff call.1 :=
      fun t ht ↦ not_lt.1 fun hlt ↦ hnone ⟨t, ht, hlt⟩
    obtain ⟨t, ht, hlt⟩ := hlive
    have hmade := (h.made_lapsed_iff hlegal hfound hlapsed).2
      (htallies hsweeps key counter hfound hlapsed)
    exact absurd hlt (not_lt.2 (hmade t ht))

/-- While the keys are few, none is refused. -/
theorem Matches.admits (h : s.Matches windowSeconds) {S : Finset K}
    (hcard : S.card ≤ maxTrackedKeys)
    (hkeys : ∀ key, (s.map.counters.lookup key).isSome → key ∈ S)
    (hcall : ∀ key, call.2 = .record key → key ∈ S) : s.Admits call := by
  have hfull : s.RefusesWhenFull call := h.refusesWhenFull
  obtain ⟨now, key | - | -⟩ := call
  · intro hnone
    obtain ⟨hnew, hlen⟩ := hfull hnone
    have hlt := AList.length_entries_lt_card hkeys (hcall key rfl) hnew
    have hmax : s.map.counters.entries.length = maxTrackedKeys := hlen
    omega
  · trivial
  · trivial

end MapRun

theorem mem_distinctKeys {K : Type} [DecidableEq K] {run : List (ℤ × MapCall K)}
    {call : ℤ × MapCall K} (hmem : call ∈ run) {key : K} (hcall : call.2 = .record key) :
    key ∈ distinctKeys run := by
  refine List.mem_toFinset.2 (List.mem_filterMap.2 ⟨call, hmem, ?_⟩)
  rw [hcall]
  rfl

/-- **What sharing a map changes.** Along a run of calls at times that do not go back:

* what is answered under a key is what a separate counter answers that is given the events admitted
  under the key;
* a key is refused only if the map holds 16384 others, and if the run has no more keys than that,
  none is refused;
* a counter that stores an event in its window is not evicted;
* and a counter that has counted one, stored or not, is not evicted **exactly if no call sweeps
  while a counter without stored events in the window has one that it did not store**. -/
theorem shared_counters_iff {K : Type} [DecidableEq K] (windowSeconds begun : ℤ)
    (run : List (ℤ × MapCall K))
    (hlegal : AllSteps MapRun.step MapRun.Legal (.start windowSeconds begun) run) :
    (AllSteps MapRun.step MapRun.AnswersAsSeparate (.start windowSeconds begun) run ∧
      AllSteps MapRun.step MapRun.RefusesWhenFull (.start windowSeconds begun) run ∧
      ((distinctKeys run).card ≤ maxTrackedKeys →
        AllSteps MapRun.step MapRun.Admits (.start windowSeconds begun) run) ∧
      AllSteps MapRun.step MapRun.KeepsStored (.start windowSeconds begun) run) ∧
    (AllSteps MapRun.step MapRun.KeepsCounted (.start windowSeconds begun) run ↔
      AllSteps MapRun.step MapRun.TalliesLapse (.start windowSeconds begun) run) := by
  have hstart : (MapRun.start windowSeconds begun : MapRun K).Matches windowSeconds :=
    MapRun.matches_start windowSeconds begun
  have hkeep : ∀ (s : MapRun K) call, s.Matches windowSeconds → s.Legal call →
      (s.step call).Matches windowSeconds := fun _ _ h hlegal ↦ h.step hlegal
  refine ⟨⟨?_, ?_, fun hfew ↦ ?_, ?_⟩, ?_⟩
  · exact hlegal.of_invariant (MapRun.Matches windowSeconds) hkeep
      (fun _ _ h hlegal ↦ h.answersAsSeparate hlegal) hstart
  · exact hlegal.of_invariant (MapRun.Matches windowSeconds) hkeep
      (fun _ _ h _ ↦ h.refusesWhenFull) hstart
  · -- all the keys in the map are keys of the run
    have hknown := hlegal.and_of_forall_mem
      (q := fun call ↦ ∀ key, call.2 = .record key → key ∈ distinctKeys run)
      fun _ hmem _ hcall ↦ mem_distinctKeys hmem hcall
    refine hknown.of_invariant (fun s ↦ s.Matches windowSeconds ∧
      ∀ key, (s.map.counters.lookup key).isSome → key ∈ distinctKeys run) ?_ ?_ ⟨hstart, ?_⟩
    · intro s call hinv hok
      refine ⟨hinv.1.step hok.1, fun key hthere ↦ ?_⟩
      rcases MapRun.isSome_or_of_step hthere with hbefore | hcall
      · exact hinv.2 key hbefore
      · exact hok.2 key hcall
    · exact fun s call hinv hok ↦ hinv.1.admits hfew hinv.2 hok.2
    · exact fun key hthere ↦ nomatch hthere
  · exact hlegal.of_invariant (MapRun.Matches windowSeconds) hkeep
      (fun _ _ h _ ↦ h.keepsStored) hstart
  · exact AllSteps.congr_of_invariant (MapRun.Matches windowSeconds) hkeep
      (fun _ _ h hlegal ↦ h.keepsCounted_iff hlegal) hstart hlegal

/-! Two sources of one map, and one source that fills its counter. -/

namespace MapRun

/-- Two failures of one source, one of another, and a sweep when all have lapsed. -/
def visits : List (ℤ × MapCall String) :=
  [(0, .record "a"), (1000000000, .record "b"), (2000000000, .record "a"),
    (99000000000, .pruneLapsed)]

end MapRun

/-- No counter has tallied anything that it does not store before the sweep. -/
theorem MapRun.tallied_visits (key : String) :
    let s := final MapRun.step (.start 60 0) (MapRun.visits.take 3)
    (s.separate key).tallied ++ (s.separate key).forgotten = [] := by
  intro s
  by_cases hfirst : key = "a"
  · subst hfirst
    decide +kernel
  · by_cases hsecond : key = "b"
    · subst hsecond
      decide +kernel
    · have hseparate : s.separate key = .start 60 0 := by
        show Function.update (Function.update (Function.update _ "a" _) "b" _) "a" _ key = _
        rw [Function.update_of_ne hfirst, Function.update_of_ne hsecond,
          Function.update_of_ne hfirst]
        rfl
      rw [hseparate]
      rfl

/-- Neither source is refused, each is counted as if it were alone, and the sweep takes nothing that
is in the window. -/
theorem shared_counters_iff_sample :
    AllSteps MapRun.step MapRun.Admits (.start 60 0) MapRun.visits ∧
      AllSteps MapRun.step MapRun.AnswersAsSeparate (.start 60 0) MapRun.visits ∧
      AllSteps MapRun.step MapRun.KeepsStored (.start 60 0) MapRun.visits ∧
      AllSteps MapRun.step MapRun.KeepsCounted (.start 60 0) MapRun.visits := by
  have hlegal : AllSteps MapRun.step MapRun.Legal (.start 60 0) MapRun.visits :=
    ⟨le_refl (0 : ℤ), show (0 : ℤ) ≤ 1000000000 by decide,
      show (1000000000 : ℤ) ≤ 2000000000 by decide, show (2000000000 : ℤ) ≤ 99000000000 by decide,
      trivial⟩
  obtain ⟨⟨hanswers, -, hadmits, hstored⟩, hcounted⟩ :=
    shared_counters_iff 60 0 MapRun.visits hlegal
  refine ⟨hadmits (by decide +kernel), hanswers, hstored, hcounted.2 ?_⟩
  refine ⟨fun h ↦ absurd h.2.1 (by decide +kernel), fun h ↦ absurd h.2.1 (by decide +kernel),
    fun h ↦ absurd h.2.1 (by decide +kernel), fun _ key counter _ _ t ht ↦ ?_, trivial⟩
  exact absurd ht ((MapRun.tallied_visits key).symm ▸ List.not_mem_nil)

namespace MapRun

/-- A number of failures of one source, at time 0. -/
def burst (n : ℕ) : List (ℤ × MapCall String) :=
  List.replicate n (0, .record "a")

/-- A map with a counter that has counted them. -/
def filled (n : ℕ) : MapRun String :=
  ⟨⟨(∅ : AList fun _ : String ↦ WindowCounter).insert "a" (CounterRun.filled n).counter, 60, 0⟩, 0,
    Function.update (fun _ ↦ .start 60 0) "a" (CounterRun.filled n)⟩

theorem record_filled {n : ℕ} (hn : n < WindowCounter.maxEvents) :
    (filled n).map.record 0 "a" =
      ((filled (n + 1)).map, some (CounterRun.filled (n + 1)).counter.total) := by
  have hfound : (filled n).map.counters.lookup "a" = some (CounterRun.filled n).counter :=
    AList.lookup_insert _
  have hincrement : (CounterRun.filled n).counter.increment 0 =
      (CounterRun.filled (n + 1)).counter := by
    have hstep := CounterRun.counter_step (.filled n) (0, .increment)
    rw [CounterRun.step_filled hn] at hstep
    exact hstep.symm
  have hrecord : (filled n).map.record 0 "a" = (filled n).map.admitKey 0 "a" := by
    obtain ⟨hnew, -, -⟩ | ⟨hnew, -, -⟩ | ⟨-, hrecord⟩ := (filled n).map.record_cases 0 "a"
    · exact nomatch hfound.symm.trans hnew
    · exact nomatch hfound.symm.trans hnew
    · exact hrecord
  rw [hrecord, BoundedCounters.admitKey, hfound, Option.getD_some, hincrement]
  show ((⟨((∅ : AList fun _ : String ↦ WindowCounter).insert "a" _).insert "a" _, 60, 0⟩ :
    BoundedCounters String), _) = _
  rw [AList.insert_insert]
  rfl

theorem step_filled {n : ℕ} (hn : n < WindowCounter.maxEvents) :
    (filled n).step (0, .record "a") = filled (n + 1) := by
  have hseparate : (filled n).separate "a" = CounterRun.filled n :=
    Function.update_self (β := fun _ : String ↦ CounterRun) "a" (CounterRun.filled n)
      fun _ ↦ .start 60 0
  rw [step, record_filled hn]
  simp only [Option.isSome_some, if_true]
  rw [hseparate, CounterRun.step_filled hn]
  show (⟨_, 0, Function.update (Function.update _ "a" _) "a" _⟩ : MapRun String) = _
  rw [Function.update_idem]
  rfl

/-- The burst takes no time, and fills the counter. -/
theorem burst_fills {n : ℕ} (hn : n < WindowCounter.maxEvents) :
    AllSteps step Legal (start 60 0) (burst (n + 1)) ∧
      final step (start 60 0) (burst (n + 1)) = filled (n + 1) := by
  induction n with
  | zero => exact ⟨⟨le_refl (0 : ℤ), trivial⟩, rfl⟩
  | succ n ih =>
    obtain ⟨hlegal, hfinal⟩ := ih (by omega)
    rw [burst, List.replicate_succ']
    refine ⟨allSteps_append.2 ⟨hlegal, ?_, trivial⟩, ?_⟩
    · rw [← burst, hfinal]
      exact le_refl (0 : ℤ)
    · rw [final, List.foldl_append]
      show step (final step (start 60 0) (burst (n + 1))) (0, .record "a") = _
      rw [hfinal, step_filled hn]

end MapRun

/-- **A counter is evicted with an event in its window**, if it is one that the counter has only
tallied: the 513th of a source, when the other 512 have lapsed. -/
theorem tallied_counter_is_evicted :
    ¬∀ (windowSeconds begun : ℤ) (run : List (ℤ × MapCall String)),
      AllSteps MapRun.step MapRun.Legal (.start windowSeconds begun) run →
      AllSteps MapRun.step MapRun.KeepsCounted (.start windowSeconds begun) run := by
  intro hall
  obtain ⟨hlegal, hfinal⟩ := MapRun.burst_fills (show 511 < WindowCounter.maxEvents by decide)
  have hkeeps := hall 60 0 (MapRun.burst 512 ++
    [(1000000000, .record "a"), (60000000000, .pruneLapsed)]) (allSteps_append.2 ⟨hlegal, by
      rw [hfinal]
      exact ⟨show (0 : ℤ) ≤ 1000000000 by decide,
        show (1000000000 : ℤ) ≤ 60000000000 by decide, trivial⟩⟩)
  rw [allSteps_append, hfinal] at hkeeps
  obtain ⟨-, -, hlast, -⟩ := hkeeps
  have hthere := hlast "a" (by decide +kernel) ⟨1000000000, by decide +kernel, by decide +kernel⟩
  revert hthere
  decide +kernel

end Cordon
