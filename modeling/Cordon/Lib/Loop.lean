import Mathlib.Data.Nat.Basic
import Mathlib.Data.Option.Basic

/-!
# Loops that may panic

A loop is the turn it takes: from a state it goes on in another state, or it leaves with a result,
or it panics. `Loop.run` allows a number of turns and has no value where they run out or one of them
panics, so **that it has a value is what it means for the loop to end well**.

`Loop.exists_run` is the rule by which loops are verified: where each turn keeps an invariant and
makes a variant smaller, or leaves with a result that is as it should be, the loop ends well within
more turns than the variant says.

The invariant is a predicate on states and the variant a number, and both are free; the
postcondition is about the result alone. The induction over the turns is in the rule and nowhere
else: whoever uses it proves one turn.
-/

namespace Loop

variable {σ α : Type*}

/-- The result of a loop that is given `fuel` turns. -/
def run (turn : σ → Option (σ ⊕ α)) : ℕ → σ → Option α
  | 0, _ => none
  | fuel + 1, s =>
    match turn s with
    | some (.inl s) => run turn fuel s
    | some (.inr a) => some a
    | none => none

variable {turn : σ → Option (σ ⊕ α)} {s s' : σ} {a : α} {fuel : ℕ}

theorem run_of_next (h : turn s = some (.inl s')) : run turn (fuel + 1) s = run turn fuel s' := by
  rw [run, h]

theorem run_of_leave (h : turn s = some (.inr a)) : run turn (fuel + 1) s = some a := by
  rw [run, h]

/-- **The rule of loops.** -/
theorem exists_run {Inv : σ → Prop} {Post : α → Prop} {variant : σ → ℕ}
    (hturn : ∀ s, Inv s →
      (∃ s', turn s = some (.inl s') ∧ Inv s' ∧ variant s' < variant s) ∨
        ∃ a, turn s = some (.inr a) ∧ Post a)
    (hs : Inv s) (hfuel : variant s < fuel) : ∃ a, run turn fuel s = some a ∧ Post a := by
  induction fuel generalizing s with
  | zero => exact absurd hfuel (Nat.not_lt_zero _)
  | succ fuel ih =>
    rcases hturn s hs with ⟨s', hnext, hs', hlt⟩ | ⟨a, hleave, ha⟩
    · obtain ⟨a, hrun, ha⟩ := ih hs' (by omega)
      exact ⟨a, (run_of_next hnext).trans hrun, ha⟩
    · exact ⟨a, run_of_leave hleave, ha⟩

end Loop
