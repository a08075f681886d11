import Mathlib.Order.Basic

/-!
# Runs of a transition system

A system is a state and a function that says what each action makes of it. `ok` says which actions a
run may take, and in which states, so one system has as many notions of run as there are assumptions
about its environment. The invariant rule is the only induction over reachable states.

A run can also be held in the hand, as the list of its actions. Then **a property can be compared
with a condition on the steps**: `always_iff_allSteps` says that the runs along which the property
always holds are exactly those whose steps all meet the condition, from what one step does when it
meets the condition and when it does not.

The simulation rule carries what is proved about one system over to another, and `AllSteps` is
decided by going along the actions, so that a condition on the steps can be evaluated on a run that
is given.
-/

namespace Transition

variable {σ α : Type*}

/-- The states that runs of allowed actions reach. -/
inductive Reachable (step : σ → α → σ) (ok : σ → α → Prop) (init : σ) : σ → Prop
  | start : Reachable step ok init init
  | next {s : σ} (a : α) (run : Reachable step ok init s) (allowed : ok s a) :
      Reachable step ok init (step s a)

variable {step : σ → α → σ} {ok ok' : σ → α → Prop} {init s : σ}

/-- **The invariant rule.** The step may use that its state is itself reached. -/
theorem Reachable.invariant (Inv : σ → Prop) (hinit : Inv init)
    (hstep : ∀ s a, Reachable step ok init s → ok s a → Inv s → Inv (step s a))
    (h : Reachable step ok init s) : Inv s := by
  induction h with
  | start => exact hinit
  | next a run allowed ih => exact hstep _ a run allowed ih

/-- What every run of one kind does, every run of a more restricted kind does. The restriction may
be shown to imply the other on reached states only. -/
theorem Reachable.mono
    (himp : ∀ s a, Reachable step ok init s → ok s a → ok' s a)
    (h : Reachable step ok init s) : Reachable step ok' init s := by
  induction h with
  | start => exact .start
  | next a run allowed ih => exact .next a ih (himp _ a run allowed)

/-- **The simulation rule.** Where every allowed step of one system is an allowed step of another,
or none, each state the one reaches stands for a state the other reaches. -/
theorem Reachable.simulated {τ β : Type*} {step' : τ → β → τ} {allowed' : τ → β → Prop} {init' : τ}
    (R : σ → τ → Prop) (hinit : R init init')
    (hsim : ∀ s t a, R s t → ok s a →
      R (step s a) t ∨ ∃ b, allowed' t b ∧ R (step s a) (step' t b))
    (h : Reachable step ok init s) : ∃ t, Reachable step' allowed' init' t ∧ R s t := by
  induction h with
  | start => exact ⟨init', .start, hinit⟩
  | next a run allowed ih =>
    obtain ⟨t, hreach, hrel⟩ := ih
    rcases hsim _ _ _ hrel allowed with hstutter | ⟨b, hb, hrel'⟩
    · exact ⟨t, hreach, hstutter⟩
    · exact ⟨step' t b, .next b hreach hb, hrel'⟩

/-! ### Runs as lists of actions -/

/-- The state at the end of a run. -/
def final (step : σ → α → σ) (s : σ) (run : List α) : σ :=
  run.foldl step s

/-- A run in two parts. -/
theorem final_append (s : σ) (first second : List α) :
    final step s (first ++ second) = final step (final step s first) second :=
  List.foldl_append

/-- A property of every state along a run, the first and the last included. -/
def Always (step : σ → α → σ) (P : σ → Prop) : σ → List α → Prop
  | s, [] => P s
  | s, a :: run => P s ∧ Always step P (step s a) run

/-- A property of every step of a run, in the state in which it is taken. -/
def AllSteps (step : σ → α → σ) (ok : σ → α → Prop) : σ → List α → Prop
  | _, [] => True
  | s, a :: run => ok s a ∧ AllSteps step ok (step s a) run

variable {P : σ → Prop} {run : List α}

/-- A run in two parts. -/
theorem allSteps_append {first second : List α} : AllSteps step ok s (first ++ second) ↔
    AllSteps step ok s first ∧ AllSteps step ok (final step s first) second := by
  induction first generalizing s with
  | nil => exact (and_iff_right True.intro).symm
  | cons a first ih => exact (and_congr_right fun _ ↦ ih).trans and_assoc.symm

/-- Whether a run that is held in the hand is allowed can be computed. -/
def AllSteps.decide [∀ s a, Decidable (ok s a)] :
    ∀ (s : σ) (run : List α), Decidable (AllSteps step ok s run)
  | _, [] => .isTrue True.intro
  | s, a :: run => @instDecidableAnd _ _ _ (AllSteps.decide (step s a) run)

instance [∀ s a, Decidable (ok s a)] : Decidable (AllSteps step ok s run) :=
  AllSteps.decide s run

/-- A condition on the steps may be weakened. -/
theorem AllSteps.mono (himp : ∀ s a, ok s a → ok' s a) (h : AllSteps step ok s run) :
    AllSteps step ok' s run := by
  induction run generalizing s with
  | nil => trivial
  | cons a run ih => exact ⟨himp s a h.1, ih h.2⟩

/-- Where everything is allowed, every run is. -/
theorem AllSteps.trivial : AllSteps step (fun _ _ ↦ True) s run := by
  induction run generalizing s with
  | nil => exact True.intro
  | cons a run ih => exact ⟨True.intro, ih⟩

/-- What holds of every action of a run holds of every step. -/
theorem AllSteps.and_of_forall_mem {q : α → Prop} (h : AllSteps step ok s run)
    (hq : ∀ a ∈ run, q a) : AllSteps step (fun s a ↦ ok s a ∧ q a) s run := by
  induction run generalizing s with
  | nil => trivial
  | cons a run ih =>
    exact ⟨⟨h.1, hq a (List.mem_cons_self ..)⟩, ih h.2 fun b hb ↦ hq b (List.mem_cons_of_mem _ hb)⟩

/-- A run of allowed actions reaches its final state. -/
theorem reachable_final {init : σ} (h : AllSteps step ok s run) (hs : Reachable step ok init s) :
    Reachable step ok init (final step s run) := by
  induction run generalizing s with
  | nil => exact hs
  | cons a run ih => exact ih h.2 (.next a hs h.1)

/-- What holds of every state along a run holds of the last. -/
theorem Always.of_final (h : Always step P s run) : P (final step s run) := by
  induction run generalizing s with
  | nil => exact h
  | cons a run ih => exact ih h.2

/-- The invariant rule for runs as lists: what every step keeps holds at the end. -/
theorem final_invariant (Inv : σ → Prop) (hkeep : ∀ s a, Inv s → Inv (step s a)) (hinit : Inv s)
    (run : List α) : Inv (final step s run) := by
  induction run generalizing s with
  | nil => exact hinit
  | cons a run ih => exact ih (hkeep s a hinit)

/-- What an invariant makes of the allowed steps of a run. -/
theorem AllSteps.of_invariant (Inv : σ → Prop) (hkeep : ∀ s a, Inv s → ok s a → Inv (step s a))
    (himp : ∀ s a, Inv s → ok s a → ok' s a) (hinit : Inv s) (h : AllSteps step ok s run) :
    AllSteps step ok' s run := by
  induction run generalizing s with
  | nil => trivial
  | cons a run ih => exact ⟨himp s a hinit h.1, ih (hkeep s a hinit h.1) h.2⟩

/-- Two properties that agree on the allowed steps from where an invariant holds agree on runs. -/
theorem AllSteps.congr_of_invariant {P Q : σ → α → Prop} (Inv : σ → Prop)
    (hkeep : ∀ s a, Inv s → ok s a → Inv (step s a))
    (hiff : ∀ s a, Inv s → ok s a → (P s a ↔ Q s a))
    (hinit : Inv s) (h : AllSteps step ok s run) :
    AllSteps step P s run ↔ AllSteps step Q s run := by
  induction run generalizing s with
  | nil => exact Iff.rfl
  | cons a run ih =>
    exact and_congr (hiff s a hinit h.1) (ih (hkeep s a hinit h.1) h.2)

/-- **The comparison rule.** A step that meets the condition keeps the invariant, which gives the
property; a step that does not meet it breaks the property at once. -/
theorem always_iff_allSteps (Inv : σ → Prop) (hprop : ∀ s, Inv s → P s)
    (hkeep : ∀ s a, Inv s → ok s a → ok' s a → Inv (step s a))
    (hbreak : ∀ s a, Inv s → ok s a → ¬ok' s a → ¬P (step s a))
    (hinit : Inv s) (hok : AllSteps step ok s run) :
    Always step P s run ↔ AllSteps step ok' s run := by
  induction run generalizing s with
  | nil => exact iff_of_true (hprop s hinit) trivial
  | cons a run ih =>
    obtain ⟨hallowed, hrest⟩ := hok
    by_cases hmet : ok' s a
    · have hnext := ih (hkeep s a hinit hallowed hmet) hrest
      exact ⟨fun h ↦ ⟨hmet, hnext.1 h.2⟩, fun h ↦ ⟨hprop s hinit, hnext.2 h.2⟩⟩
    · refine ⟨fun h ↦ absurd ?_ (hbreak s a hinit hallowed hmet), fun h ↦ absurd h.1 hmet⟩
      -- the state after the step is the first one of the rest of the run
      rcases run with - | ⟨b, run⟩
      · exact h.2
      · exact h.2.1

end Transition
