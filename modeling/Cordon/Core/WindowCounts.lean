import Cordon.Core.AttackDetector
import Cordon.Lib.SlidingWindow

/-!
# What a saturated counter counts

A counter stores the times of up to 512 events. Any further event is only **tallied**, and the tally
is kept as long as any stored event is in the window: it is taken back when the last of them lapses.
Both are right as long as the counter has never been full, and while it is full. In between they
are not: events that are stored outlast tallied ones when the window is refilled, and tallied ones
outlast those that are stored when it is not.

`prune_eq` says what pruning does to a counter whose times are in order. A run of a counter notes
beside it every event that was counted, which of them are in the tally, and which were in a tally
that was taken back. `saturated_counter_counts_iff` compares what is reported with what is in the
window, at each call of a run.

The equivalence rests on a relation between a counter and its history (`Kept`), which a call keeps
whether its report is right or not. At each call the two numbers can be compared: they differ by
what is tallied and has lapsed, and by what was forgotten and has not (`Kept.min_total_eq_iff`). So
the condition is on the history at that call, and has no part in which the counter is run.
-/

namespace Cordon

open Transition SlidingWindow

namespace WindowCounter

/-- The last moment that has fallen out of the window. -/
def cutoff (windowSeconds now : ℤ) : ℤ :=
  now - windowSeconds * 1000000000

/-- The number of events in the window. -/
def totalInWindow (counter : WindowCounter) (now : ℤ) : WindowCounter × ℕ :=
  let counter := counter.prune now
  (counter, counter.total)

/-- Whether no event is in the window, so that the counter can be evicted. -/
def isLapsed (counter : WindowCounter) (now : ℤ) : WindowCounter × Bool :=
  let counter := counter.prune now
  (counter, counter.events.isEmpty)

/-- The times of a counter are in order and not after the clock, and a counter without any has no
tally. -/
structure InOrder (clock : ℤ) (counter : WindowCounter) : Prop where
  sorted : counter.events.Pairwise (· ≤ ·)
  events_le : ∀ t ∈ counter.events, t ≤ clock
  saturatedBy_eq : counter.events = [] → counter.saturatedBy = 0

/-- What `increment` does to a counter that is pruned. -/
def push (counter : WindowCounter) (now : ℤ) : WindowCounter :=
  if maxEvents ≤ counter.events.length then
    { counter with saturatedBy := min (counter.saturatedBy + 1) (2 ^ 32 - 1) }
  else { counter with events := counter.events ++ [now] }

variable {counter : WindowCounter} {clock now : ℤ}

theorem cutoff_mono {windowSeconds later : ℤ} (h : now ≤ later) :
    cutoff windowSeconds now ≤ cutoff windowSeconds later :=
  sub_le_sub_right h _

theorem increment_eq (counter : WindowCounter) (now : ℤ) :
    counter.increment now = (counter.prune now).push now :=
  rfl

theorem inOrder_new (clock windowSeconds : ℤ) : (new windowSeconds).InOrder clock :=
  ⟨List.Pairwise.nil, fun _ ht ↦ absurd ht List.not_mem_nil, fun _ ↦ rfl⟩

@[simp]
theorem windowSeconds_prune : (counter.prune now).windowSeconds = counter.windowSeconds := by
  rw [prune]
  split <;> rfl

@[simp]
theorem windowSeconds_push : (counter.push now).windowSeconds = counter.windowSeconds := by
  rw [push]
  split <;> rfl

theorem InOrder.mono (h : counter.InOrder clock) (hnow : clock ≤ now) : counter.InOrder now :=
  ⟨h.sorted, fun t ht ↦ (h.events_le t ht).trans hnow, h.saturatedBy_eq⟩

/-- **What pruning does**: the events in the window stay, and the tally stays with them. -/
theorem InOrder.prune_eq (h : counter.InOrder clock) (now : ℤ) :
    counter.prune now =
      { counter with
        events := live (cutoff counter.windowSeconds now) counter.events
        saturatedBy :=
          if live (cutoff counter.windowSeconds now) counter.events = [] then 0
          else counter.saturatedBy } := by
  have hlive : (counter.events.dropWhile fun t ↦
      decide (t ≤ now - counter.windowSeconds * 1000000000)) =
        live (cutoff counter.windowSeconds now) counter.events := dropWhile_eq_live h.sorted
  rw [prune]
  simp only [hlive, List.isEmpty_iff]
  split
  · next hall =>
    -- nothing has lapsed
    have hsame := live_eq_self_iff.2 (length_live_eq_iff.1 hall)
    rw [hsame]
    split
    · next hempty => rw [← h.saturatedBy_eq hempty]
    · rfl
  · rfl

theorem InOrder.prune (h : counter.InOrder clock) (hnow : clock ≤ now) :
    (counter.prune now).InOrder now := by
  rw [h.prune_eq]
  refine ⟨pairwise_live h.sorted, fun t ht ↦ ?_, fun hempty ↦ if_pos hempty⟩
  exact (h.events_le t (mem_live.1 ht).1).trans hnow

/-- Pruning once more later is pruning later. -/
theorem InOrder.prune_prune (h : counter.InOrder clock) (hnow : clock ≤ now) {later : ℤ}
    (hlater : now ≤ later) : (counter.prune now).prune later = counter.prune later := by
  have hlive : live (cutoff counter.windowSeconds later)
      (live (cutoff counter.windowSeconds now) counter.events) =
        live (cutoff counter.windowSeconds later) counter.events := live_live (cutoff_mono hlater)
  rw [(h.prune hnow).prune_eq, h.prune_eq, h.prune_eq, hlive]
  congr 1
  -- a counter that was empty before is empty now
  split
  · rfl
  · next hsome =>
    refine if_neg fun hempty ↦ hsome ?_
    rw [← hlive, hempty, live_nil]

/-- A counter that is pruned to nothing is a new one. -/
theorem InOrder.prune_of_lapsed (h : counter.InOrder clock)
    (hempty : (counter.prune now).events = []) :
    counter.prune now = new counter.windowSeconds := by
  rw [h.prune_eq] at hempty ⊢
  have hlive : live (cutoff counter.windowSeconds now) counter.events = [] := hempty
  rw [hlive, if_pos rfl]
  rfl

/-- The events that are left are in the window. -/
theorem InOrder.cutoff_lt (h : counter.InOrder clock) {t : ℤ}
    (ht : t ∈ (counter.prune now).events) : cutoff counter.windowSeconds now < t := by
  rw [h.prune_eq] at ht
  exact (mem_live.1 ht).2

theorem InOrder.push (h : counter.InOrder now) : (counter.push now).InOrder now := by
  rw [WindowCounter.push]
  split
  · next hfull =>
    refine ⟨h.sorted, h.events_le, fun hempty ↦ ?_⟩
    have hevents : counter.events = [] := hempty
    rw [hevents, maxEvents] at hfull
    exact absurd hfull (by decide)
  · refine ⟨?_, fun t ht ↦ ?_, fun hempty ↦ absurd hempty (by simp)⟩
    · rw [List.pairwise_append]
      refine ⟨h.sorted, List.pairwise_singleton _ _, fun t ht t' ht' ↦ ?_⟩
      rw [List.mem_singleton.1 ht']
      exact h.events_le t ht
    · rcases List.mem_append.1 ht with hold | hnew
      · exact h.events_le t hold
      · exact (List.mem_singleton.1 hnew).le

end WindowCounter

/-! ### A run of a counter -/

/-- A call of a counter. -/
inductive CounterCall
  | increment
  | totalInWindow
  | isLapsed
  deriving DecidableEq, Repr

/-- What a call at a time makes of a counter, and the total it reports. -/
def WindowCounter.call (counter : WindowCounter) : ℤ × CounterCall → WindowCounter × Option ℕ
  | (now, .increment) => (counter.increment now, some (counter.increment now).total)
  | (now, .totalInWindow) => ((counter.totalInWindow now).1, some (counter.totalInWindow now).2)
  | (now, .isLapsed) => ((counter.isLapsed now).1, none)

/-- A counter with its history. -/
structure CounterRun where
  counter : WindowCounter
  clock : ℤ
  /-- When events were counted. -/
  made : List ℤ
  /-- Those in the tally. -/
  tallied : List ℤ
  /-- Those in a tally that was taken back. -/
  forgotten : List ℤ
  deriving DecidableEq

namespace CounterRun

/-- A counter that has counted nothing. -/
def start (windowSeconds now : ℤ) : CounterRun :=
  ⟨.new windowSeconds, now, [], [], []⟩

/-- A counter is pruned. -/
def prune (s : CounterRun) (now : ℤ) : CounterRun :=
  let s := { s with counter := s.counter.prune now, clock := now }
  if s.counter.events.isEmpty then
    { s with tallied := [], forgotten := s.tallied ++ s.forgotten }
  else s

/-- An event is counted in a counter that is pruned. -/
def push (s : CounterRun) : CounterRun :=
  { s with
    counter := s.counter.push s.clock
    made := s.clock :: s.made
    tallied :=
      if WindowCounter.maxEvents ≤ s.counter.events.length then s.clock :: s.tallied
      else s.tallied }

/-- What a call makes of a counter and its history. -/
def step (s : CounterRun) : ℤ × CounterCall → CounterRun
  | (now, .increment) => (s.prune now).push
  | (now, _) => s.prune now

/-- Time does not go back. -/
def Legal (s : CounterRun) (call : ℤ × CounterCall) : Prop :=
  s.clock ≤ call.1

instance (s : CounterRun) (call : ℤ × CounterCall) : Decidable (s.Legal call) :=
  inferInstanceAs (Decidable (_ ≤ _))

/-- The true number of events in the window. -/
def inWindow (s : CounterRun) (now : ℤ) : ℕ :=
  s.made.countP fun t ↦ decide (now - s.counter.windowSeconds * 1000000000 < t ∧ t ≤ now)

/-- What a call reports is the true number of events in the window with this one, as far as 512. -/
def ReportsRightly (s : CounterRun) (call : ℤ × CounterCall) : Prop :=
  ∀ total, (s.counter.call call).2 = some total →
    min total 512 = min ((s.step call).inWindow call.1) 512

/-- **When a report is right.** Once what has lapsed is pruned, every event in the tally is in the
window, and none that was in a tally before; or those in the window that are stored or in the tally
are 512 already. -/
def TallyFits (s : CounterRun) : ℤ × CounterCall → Prop
  | (_, .isLapsed) => True
  | (now, call) =>
    let pruned := s.prune now
    let cutoff := WindowCounter.cutoff s.counter.windowSeconds now
    ((∀ t ∈ pruned.tallied, cutoff < t) ∧ ∀ t ∈ pruned.forgotten, t ≤ cutoff) ∨
      512 ≤ pruned.counter.events.length + (live cutoff pruned.tallied).length +
        if call = .increment then 1 else 0

variable {s : CounterRun} {now : ℤ} {call : ℤ × CounterCall}

/-- The two ways pruning goes: the counter is empty, and its tally forgotten, or it is not. -/
theorem prune_cases (s : CounterRun) (now : ℤ) :
    ((s.counter.prune now).events = [] ∧
      s.prune now = ⟨s.counter.prune now, now, s.made, [], s.tallied ++ s.forgotten⟩) ∨
    ((s.counter.prune now).events ≠ [] ∧
      s.prune now = ⟨s.counter.prune now, now, s.made, s.tallied, s.forgotten⟩) := by
  rw [prune]
  simp only [List.isEmpty_iff]
  split
  · next hempty => exact Or.inl ⟨hempty, rfl⟩
  · next hsome => exact Or.inr ⟨hsome, rfl⟩

theorem counter_prune : (s.prune now).counter = s.counter.prune now := by
  obtain ⟨-, heq⟩ | ⟨-, heq⟩ := s.prune_cases now
  all_goals rw [heq]

@[simp]
theorem clock_prune : (s.prune now).clock = now := by
  obtain ⟨-, heq⟩ | ⟨-, heq⟩ := s.prune_cases now
  all_goals rw [heq]

/-- The history follows the counter. -/
theorem counter_step (s : CounterRun) (call : ℤ × CounterCall) :
    (s.step call).counter = (s.counter.call call).1 := by
  obtain ⟨now, - | - | -⟩ := call
  · show (s.prune now).counter.push (s.prune now).clock = _
    rw [counter_prune, clock_prune]
    rfl
  · exact counter_prune
  · exact counter_prune

/-- **What a counter and its history have in common.** The events in the window are those that are
stored, tallied or forgotten, and what was forgotten is older than what is tallied. -/
structure Kept (windowSeconds : ℤ) (s : CounterRun) : Prop where
  windowSeconds_eq : s.counter.windowSeconds = windowSeconds
  inOrder : s.counter.InOrder s.clock
  saturatedBy_eq : s.counter.saturatedBy = min s.tallied.length (2 ^ 32 - 1)
  tallied_eq : s.counter.events = [] → s.tallied = []
  made_le : ∀ t ∈ s.made, t ≤ s.clock
  tallied_le : ∀ t ∈ s.tallied, t ≤ s.clock
  forgotten_le : ∀ t ∈ s.forgotten, t ≤ s.clock
  older : ∀ f ∈ s.forgotten, ∀ t ∈ s.tallied, f ≤ t
  count : ∀ now, s.clock ≤ now →
    (live (WindowCounter.cutoff windowSeconds now) s.made).length =
      (live (WindowCounter.cutoff windowSeconds now) s.counter.events).length +
        (live (WindowCounter.cutoff windowSeconds now) s.tallied).length +
        (live (WindowCounter.cutoff windowSeconds now) s.forgotten).length

variable {windowSeconds : ℤ}

theorem kept_start (windowSeconds now : ℤ) : (start windowSeconds now).Kept windowSeconds where
  windowSeconds_eq := rfl
  inOrder := WindowCounter.inOrder_new _ _
  saturatedBy_eq := rfl
  tallied_eq := fun _ ↦ rfl
  made_le := fun _ ht ↦ absurd ht List.not_mem_nil
  tallied_le := fun _ ht ↦ absurd ht List.not_mem_nil
  forgotten_le := fun _ ht ↦ absurd ht List.not_mem_nil
  older := fun _ hf ↦ absurd hf List.not_mem_nil
  count := fun _ _ ↦ rfl

theorem Kept.prune (h : s.Kept windowSeconds) (hnow : s.clock ≤ now) :
    (s.prune now).Kept windowSeconds := by
  have horder := h.inOrder.prune hnow
  have hpruned := h.inOrder.prune_eq now
  rw [h.windowSeconds_eq] at hpruned
  -- what was stored and has lapsed is not missed later
  have hcount : ∀ later, now ≤ later →
      (live (WindowCounter.cutoff windowSeconds later) s.made).length =
        (live (WindowCounter.cutoff windowSeconds later) (s.counter.prune now).events).length +
          (live (WindowCounter.cutoff windowSeconds later) s.tallied).length +
          (live (WindowCounter.cutoff windowSeconds later) s.forgotten).length := by
    intro later hlater
    rw [hpruned, live_live (WindowCounter.cutoff_mono hlater)]
    exact h.count later (hnow.trans hlater)
  have hmade : ∀ t ∈ s.made, t ≤ now := fun t ht ↦ (h.made_le t ht).trans hnow
  have htallied : ∀ t ∈ s.tallied, t ≤ now := fun t ht ↦ (h.tallied_le t ht).trans hnow
  have hforgotten : ∀ t ∈ s.forgotten, t ≤ now := fun t ht ↦ (h.forgotten_le t ht).trans hnow
  have hwindow : (s.counter.prune now).windowSeconds = windowSeconds :=
    WindowCounter.windowSeconds_prune.trans h.windowSeconds_eq
  obtain ⟨hempty, heq⟩ | ⟨hsome, heq⟩ := s.prune_cases now
  · rw [heq]
    refine ⟨hwindow, horder, horder.saturatedBy_eq hempty, fun _ ↦ rfl, hmade,
      fun _ ht ↦ absurd ht List.not_mem_nil, fun t ht ↦ ?_,
      fun _ _ _ ht ↦ absurd ht List.not_mem_nil, fun later hlater ↦ ?_⟩
    · exact (List.mem_append.1 ht).elim (htallied t) (hforgotten t)
    · rw [hcount later hlater]
      simp only [live_append, List.length_append, live_nil, List.length_nil]
      omega
  · rw [heq]
    refine ⟨hwindow, horder, ?_, fun hempty ↦ absurd hempty hsome, hmade, htallied, hforgotten,
      h.older, hcount⟩
    show (s.counter.prune now).saturatedBy = _
    rw [hpruned] at hsome ⊢
    exact (if_neg hsome).trans h.saturatedBy_eq

/-- One more event is stored, or tallied. -/
theorem Kept.push (h : s.Kept windowSeconds) : s.push.Kept windowSeconds := by
  have hmade : ∀ t ∈ s.clock :: s.made, t ≤ s.clock := List.forall_mem_cons.2 ⟨le_rfl, h.made_le⟩
  have hwindow : (s.counter.push s.clock).windowSeconds = windowSeconds :=
    WindowCounter.windowSeconds_push.trans h.windowSeconds_eq
  have horder := h.inOrder.push
  by_cases hfull : WindowCounter.maxEvents ≤ s.counter.events.length
  · have hsaturated := h.saturatedBy_eq
    rw [CounterRun.push, if_pos hfull]
    refine ⟨hwindow, horder, ?_, fun hempty ↦ ?_, hmade,
      List.forall_mem_cons.2 ⟨le_rfl, h.tallied_le⟩, h.forgotten_le, fun f hf t ht ↦ ?_,
      fun later hlater ↦ ?_⟩
    · rw [WindowCounter.push, if_pos hfull, List.length_cons]
      show min (s.counter.saturatedBy + 1) _ = _
      omega
    · rw [WindowCounter.push, if_pos hfull] at hempty
      have hnone : s.counter.events = [] := hempty
      rw [hnone, WindowCounter.maxEvents] at hfull
      exact absurd hfull (by decide)
    · rcases List.mem_cons.1 ht with rfl | hold
      · exact h.forgotten_le f hf
      · exact h.older f hf t hold
    · have hcount := h.count later hlater
      rw [WindowCounter.push, if_pos hfull, length_live_cons _ _ s.made,
        length_live_cons _ _ s.tallied]
      show _ + _ = (live _ s.counter.events).length + (_ + _) + (live _ s.forgotten).length
      omega
  · rw [CounterRun.push, if_neg hfull]
    refine ⟨hwindow, horder, ?_, fun hempty ↦ ?_, hmade, h.tallied_le, h.forgotten_le, h.older,
      fun later hlater ↦ ?_⟩
    · rw [WindowCounter.push, if_neg hfull]
      exact h.saturatedBy_eq
    · rw [WindowCounter.push, if_neg hfull] at hempty
      exact absurd hempty (by simp)
    · have hcount := h.count later hlater
      rw [WindowCounter.push, if_neg hfull, length_live_cons _ _ s.made, live_append,
        List.length_append]
      show _ + _ = _ + _ + (live _ s.tallied).length + (live _ s.forgotten).length
      omega

theorem Kept.step (h : s.Kept windowSeconds) (hlegal : s.Legal call) :
    (s.step call).Kept windowSeconds := by
  obtain ⟨now, - | - | -⟩ := call
  · exact (h.prune hlegal).push
  · exact h.prune hlegal
  · exact h.prune hlegal

/-! ### What is reported, and what is in the window -/

/-- The true number of events, as the history has it. -/
theorem Kept.inWindow_eq (h : s.Kept windowSeconds) :
    s.inWindow s.clock = (live (WindowCounter.cutoff windowSeconds s.clock) s.made).length := by
  rw [inWindow, h.windowSeconds_eq, live, List.countP_eq_length_filter]
  refine congrArg List.length (List.filter_congr fun t ht ↦ ?_)
  exact decide_eq_decide.2 (and_iff_left (h.made_le t ht))

/-- A counter that is pruned, with one more event or without. -/
theorem Kept.total_push (h : s.Kept windowSeconds) : (s.counter.push s.clock).total =
    min (s.counter.events.length + 1 + s.tallied.length) (2 ^ 32 - 1) := by
  have hsaturated := h.saturatedBy_eq
  rw [WindowCounter.push, WindowCounter.total]
  split
  · show min (s.counter.events.length + min (s.counter.saturatedBy + 1) _) _ = _
    omega
  · show min ((s.counter.events ++ [s.clock]).length + s.counter.saturatedBy) _ = _
    rw [List.length_append, List.length_singleton]
    omega

theorem Kept.total_eq (h : s.Kept windowSeconds) : s.counter.total =
    min (s.counter.events.length + 0 + s.tallied.length) (2 ^ 32 - 1) := by
  have hsaturated := h.saturatedBy_eq
  rw [WindowCounter.total]
  omega

/-- If anything forgotten is in the window, so is the whole tally. -/
theorem Kept.length_live_tallied (h : s.Kept windowSeconds) (cutoff : ℤ)
    (hforgotten : 0 < (live cutoff s.forgotten).length) :
    (live cutoff s.tallied).length = s.tallied.length := by
  obtain ⟨f, hf⟩ := List.exists_mem_of_length_pos hforgotten
  obtain ⟨hmem, hlive⟩ := mem_live.1 hf
  exact length_live_eq_iff.2 fun t ht ↦ hlive.trans_le (h.older f hmem t ht)

/-- **What decides whether a total is right**: the numbers of events in a pruned counter and its
history, and whether one more is counted. -/
theorem Kept.min_total_eq_iff (h : s.Kept windowSeconds)
    (hevents : ∀ t ∈ s.counter.events, WindowCounter.cutoff windowSeconds s.clock < t)
    (further : ℕ) :
    min (min (s.counter.events.length + further + s.tallied.length) (2 ^ 32 - 1)) 512 =
        min ((live (WindowCounter.cutoff windowSeconds s.clock) s.made).length + further) 512 ↔
      ((∀ t ∈ s.tallied, WindowCounter.cutoff windowSeconds s.clock < t) ∧
          ∀ t ∈ s.forgotten, t ≤ WindowCounter.cutoff windowSeconds s.clock) ∨
        512 ≤ s.counter.events.length +
          (live (WindowCounter.cutoff windowSeconds s.clock) s.tallied).length + further := by
  have holder := h.length_live_tallied (WindowCounter.cutoff windowSeconds s.clock)
  rw [← length_live_eq_iff, ← live_eq_nil_iff, ← List.length_eq_zero_iff, h.count s.clock le_rfl,
    length_live_eq_iff.2 hevents]
  have hlive : (live (WindowCounter.cutoff windowSeconds s.clock) s.tallied).length ≤
      s.tallied.length := length_live_le
  omega

/-- One more event at the time of the clock is one more in the window. -/
theorem Kept.inWindow_push (h : s.Kept windowSeconds) (hwindow : 0 < windowSeconds) :
    s.push.inWindow s.clock =
      (live (WindowCounter.cutoff windowSeconds s.clock) s.made).length + 1 := by
  have hlt : WindowCounter.cutoff windowSeconds s.clock < s.clock := by
    rw [WindowCounter.cutoff]
    omega
  rw [← @List.length_cons _ s.clock, ← live_cons_of_lt hlt]
  exact h.push.inWindow_eq

/-- What it takes for a report to be right. -/
theorem reportsRightly_iff_of_some {total : ℕ} (htotal : (s.counter.call call).2 = some total) :
    s.ReportsRightly call ↔ min total 512 = min ((s.step call).inWindow call.1) 512 := by
  rw [ReportsRightly, htotal]
  exact ⟨fun h ↦ h total rfl, fun h _ heq ↦ Option.some.inj heq ▸ h⟩

/-- **One report is right exactly if the tally fits.** -/
theorem Kept.reportsRightly_iff (h : s.Kept windowSeconds) (hwindow : 0 < windowSeconds)
    (hlegal : s.Legal call) : s.ReportsRightly call ↔ s.TallyFits call := by
  obtain ⟨now, call⟩ := call
  have hpruned : (s.prune now).Kept windowSeconds := h.prune hlegal
  have hclock : (s.prune now).clock = now := clock_prune
  have hevents : ∀ t ∈ (s.prune now).counter.events,
      WindowCounter.cutoff windowSeconds (s.prune now).clock < t := by
    intro t ht
    rw [counter_prune] at ht
    rw [hclock, ← h.windowSeconds_eq]
    exact h.inOrder.cutoff_lt ht
  have hiff := hpruned.min_total_eq_iff hevents
  obtain rfl := h.windowSeconds_eq
  cases call with
  | increment =>
    have htotal := hpruned.total_push
    have hin := hpruned.inWindow_push hwindow
    rw [hclock] at hiff htotal hin
    refine Iff.trans ?_ (hiff 1)
    rw [← htotal, ← hin, counter_prune]
    exact reportsRightly_iff_of_some rfl
  | totalInWindow =>
    have htotal := hpruned.total_eq
    have hin := hpruned.inWindow_eq
    rw [hclock] at hiff hin
    refine Iff.trans ?_ (hiff 0)
    rw [← htotal, Nat.add_zero, ← hin, counter_prune]
    exact reportsRightly_iff_of_some rfl
  | isLapsed => exact iff_of_true nofun trivial

end CounterRun

/-- **When a counter that is full still counts.** Along a run of calls at times that do not go back,
every total that is reported is the true number of events in the window, as far as 512, exactly if
at each report the tally fits. -/
theorem saturated_counter_counts_iff (windowSeconds : ℤ) (hwindow : 0 < windowSeconds) (begun : ℤ)
    (run : List (ℤ × CounterCall))
    (hlegal : AllSteps CounterRun.step CounterRun.Legal (.start windowSeconds begun) run) :
    AllSteps CounterRun.step CounterRun.ReportsRightly (.start windowSeconds begun) run ↔
      AllSteps CounterRun.step CounterRun.TallyFits (.start windowSeconds begun) run := by
  refine AllSteps.congr_of_invariant (CounterRun.Kept windowSeconds) ?_ ?_
    (CounterRun.kept_start windowSeconds begun) hlegal
  · exact fun s call h hlegal ↦ h.step hlegal
  · exact fun s call h hlegal ↦ h.reportsRightly_iff hwindow hlegal

/-! A counter that is filled at once, with one more event a second later. -/

namespace CounterRun

/-- A number of events at time 0. -/
def burst (n : ℕ) : List (ℤ × CounterCall) :=
  List.replicate n (0, .increment)

/-- A counter with as many events. -/
def filled (n : ℕ) : CounterRun :=
  ⟨⟨List.replicate n 0, 0, 60⟩, 0, List.replicate n 0, [], []⟩

theorem prune_filled (n : ℕ) : (filled n).prune 0 = filled n := by
  have horder : (filled n).counter.InOrder 0 := by
    refine ⟨List.pairwise_replicate.2 (Or.inr le_rfl), fun t ht ↦ ?_, fun _ ↦ rfl⟩
    exact (List.eq_of_mem_replicate ht).le
  have hlive : live (WindowCounter.cutoff 60 0) (List.replicate n 0) = List.replicate n 0 := by
    refine live_eq_self_iff.2 fun t ht ↦ ?_
    rw [List.eq_of_mem_replicate ht]
    decide
  have hpruned : (filled n).counter.prune 0 = (filled n).counter := by
    rw [horder.prune_eq]
    show (⟨live (WindowCounter.cutoff 60 0) (List.replicate n 0), ite _ 0 0, 60⟩ :
      WindowCounter) = _
    rw [hlive, ite_self]
    rfl
  obtain ⟨-, heq⟩ | ⟨-, heq⟩ := (filled n).prune_cases 0
  · rw [heq, hpruned]
    rfl
  · rw [heq, hpruned]
    rfl

theorem step_filled {n : ℕ} (hn : n < WindowCounter.maxEvents) :
    (filled n).step (0, .increment) = filled (n + 1) := by
  have hroom : ¬WindowCounter.maxEvents ≤ (filled n).counter.events.length := by
    show ¬WindowCounter.maxEvents ≤ (List.replicate n (0 : ℤ)).length
    rw [List.length_replicate]
    omega
  show ((filled n).prune 0).push = _
  rw [prune_filled, push, WindowCounter.push, if_neg hroom, if_neg hroom]
  show (⟨⟨List.replicate n 0 ++ [0], 0, 60⟩, 0, 0 :: List.replicate n 0, [], []⟩ : CounterRun) = _
  rw [← List.replicate_succ', ← List.replicate_succ]
  rfl

/-- The burst takes no time, tallies nothing and fills the counter. -/
theorem burst_fills {n : ℕ} (hn : n ≤ WindowCounter.maxEvents) :
    AllSteps step Legal (start 60 0) (burst n) ∧ AllSteps step TallyFits (start 60 0) (burst n) ∧
      final step (start 60 0) (burst n) = filled n := by
  induction n with
  | zero => exact ⟨trivial, trivial, rfl⟩
  | succ n ih =>
    obtain ⟨hlegal, hfits, hfinal⟩ := ih (by omega)
    rw [burst, List.replicate_succ']
    refine ⟨allSteps_append.2 ⟨hlegal, ?_, trivial⟩, allSteps_append.2 ⟨hfits, ?_, trivial⟩, ?_⟩
    · rw [← burst, hfinal]
      exact le_refl 0
    · have htallied : ((filled n).prune 0).tallied = [] := by rw [prune_filled]; rfl
      have hforgotten : ((filled n).prune 0).forgotten = [] := by rw [prune_filled]; rfl
      rw [← burst, hfinal]
      exact Or.inl ⟨by simp only [htallied, List.not_mem_nil, false_implies, implies_true],
        by simp only [hforgotten, List.not_mem_nil, false_implies, implies_true]⟩
    · rw [final, List.foldl_append]
      show step (final step (start 60 0) (burst n)) (0, .increment) = _
      rw [hfinal, step_filled (by omega)]

/-- A full counter, one event more, and a report while all of them are in the window. -/
def overfull : List (ℤ × CounterCall) :=
  burst WindowCounter.maxEvents ++ [(1000000000, .increment), (59000000000, .totalInWindow)]

end CounterRun

/-- A counter that stores 512 events and tallies one reports the 512 that it can while they last. -/
theorem saturated_counter_counts_iff_sample :
    (final CounterRun.step (.start 60 0) CounterRun.overfull).counter.saturatedBy = 1 ∧
      AllSteps CounterRun.step CounterRun.ReportsRightly (.start 60 0) CounterRun.overfull := by
  obtain ⟨hlegal, hfits, hfinal⟩ := CounterRun.burst_fills (le_refl WindowCounter.maxEvents)
  constructor
  · rw [CounterRun.overfull, final_append, hfinal]
    decide +kernel
  · refine (saturated_counter_counts_iff 60 (by decide) 0 _ (allSteps_append.2 ⟨hlegal, ?_⟩)).2
      (allSteps_append.2 ⟨hfits, ?_⟩)
    · rw [hfinal]
      exact ⟨by decide, by decide +kernel, trivial⟩
    · rw [hfinal]
      exact ⟨Or.inr (by decide +kernel), Or.inr (by decide +kernel), trivial⟩

/-- **A counter forgets events that it has only tallied**: of 513 events it stores 512, and when
these lapse it reports nothing, with one event in the window. -/
theorem tallied_event_is_forgotten :
    ¬∀ (windowSeconds begun : ℤ) (run : List (ℤ × CounterCall)), 0 < windowSeconds →
      AllSteps CounterRun.step CounterRun.Legal (.start windowSeconds begun) run →
      AllSteps CounterRun.step CounterRun.ReportsRightly (.start windowSeconds begun) run := by
  intro hall
  obtain ⟨hlegal, -, hfinal⟩ := CounterRun.burst_fills (le_refl WindowCounter.maxEvents)
  have hreports := hall 60 0 (CounterRun.burst WindowCounter.maxEvents ++
    [(1000000000, .increment), (60000000000, .totalInWindow)]) (by decide)
    (allSteps_append.2 ⟨hlegal, by rw [hfinal]; exact ⟨by decide, by decide +kernel, trivial⟩⟩)
  rw [allSteps_append, hfinal] at hreports
  obtain ⟨-, -, hlast, -⟩ := hreports
  have hright := hlast 0 (by decide +kernel)
  revert hright
  decide +kernel

end Cordon