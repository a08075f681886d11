import Mathlib.Algebra.Order.Field.Basic
import Mathlib.Algebra.Order.Floor.Semiring
import Mathlib.Order.WithBot
import Mathlib.Tactic.Linarith
import Mathlib.Tactic.Ring

/-!
# A vessel that fills with time

A level rises at a constant rate and stops at a ceiling. Filling for one stretch of time and then
for another is filling for both (`after_after`): the ceiling loses nothing that a longer stretch
would have kept. So a demand has **a waiting time**, in whole units, and it is covered from then on
(`le_level_after_iff`).

Time is another matter when it is counted in whole units. A stretch that is counted piece by piece
counts for no more than when it is counted at once, and each piece may lose the better part of a
unit (`counted_le_between`).

Levels and rates are elements of an ordered field, and times are whole units where a demand waits.
The waiting time (`wait`) is infinite where the ceiling is below the demand or the level does not
rise, so the equivalence needs no hypothesis but that the rate is not negative. Nothing here knows
of a program: a bucket of a rate limiter is a vessel whose demand is one request.
-/

variable {K : Type*} [Field K] [LinearOrder K]

/-- A level that rises at a rate, up to a ceiling. -/
structure Vessel (K : Type*) where
  level : K
  rate : K
  ceiling : K
  deriving DecidableEq

namespace Vessel

/-- The vessel after some time. -/
def after (v : Vessel K) (t : K) : Vessel K :=
  { v with level := min (v.level + v.rate * t) v.ceiling }

/-- For how many whole units of time a demand has to wait. -/
def wait [FloorSemiring K] (v : Vessel K) (demand : K) : WithTop ℕ :=
  if v.ceiling < demand then ⊤
  else if demand ≤ v.level then 0
  else if v.rate ≤ 0 then ⊤
  else (⌈(demand - v.level) / v.rate⌉₊ : ℕ)

variable [IsStrictOrderedRing K] {v : Vessel K} {demand s t : K}

/-- **Two stretches of filling are one.** -/
theorem after_after (v : Vessel K) (hrate : 0 ≤ v.rate) (hs : 0 ≤ s) :
    (v.after t).after s = v.after (t + s) := by
  have hrise : 0 ≤ v.rate * s := mul_nonneg hrate hs
  have hlevel : min (min (v.level + v.rate * t) v.ceiling + v.rate * s) v.ceiling =
      min (v.level + v.rate * (t + s)) v.ceiling := by
    rw [← min_add_add_right, min_assoc, min_eq_right (le_add_of_nonneg_right hrise), mul_add,
      add_assoc]
  exact congrArg (fun level ↦ (⟨level, v.rate, v.ceiling⟩ : Vessel K)) hlevel

/-- **A demand is covered from its waiting time on.** -/
theorem le_level_after_iff [FloorSemiring K] (hrate : 0 ≤ v.rate) (n : ℕ) :
    demand ≤ (v.after n).level ↔ v.wait demand ≤ n := by
  have hn : (0 : K) ≤ n := Nat.cast_nonneg n
  show demand ≤ min (v.level + v.rate * n) v.ceiling ↔ _
  rw [le_min_iff, wait]
  by_cases hceiling : v.ceiling < demand
  · rw [if_pos hceiling]
    exact iff_of_false (fun h ↦ absurd h.2 (not_le.2 hceiling)) (WithTop.coe_lt_top n).not_ge
  · rw [if_neg hceiling, and_iff_left (not_lt.1 hceiling)]
    by_cases hlevel : demand ≤ v.level
    · rw [if_pos hlevel]
      exact iff_of_true (le_add_of_le_of_nonneg hlevel (mul_nonneg hrate hn)) zero_le
    · rw [if_neg hlevel]
      rcases hrate.eq_or_lt with hzero | hpos
      · -- the level does not rise
        rw [if_pos hzero.ge, ← hzero, zero_mul, add_zero]
        exact iff_of_false hlevel (WithTop.coe_lt_top n).not_ge
      · rw [if_neg (not_le.2 hpos), Nat.cast_le, Nat.ceil_le, div_le_iff₀ hpos,
          sub_le_iff_le_add', mul_comm (n : K)]

/-- A demand that the ceiling allows is covered when the vessel is full. -/
theorem wait_le_of_full [FloorSemiring K] (hrate : 0 ≤ v.rate) {n : ℕ}
    (hfull : v.ceiling ≤ v.level + v.rate * n) (hdemand : demand ≤ v.ceiling) :
    v.wait demand ≤ n :=
  (le_level_after_iff hrate n).1 (le_min (hdemand.trans hfull) hdemand)

end Vessel

namespace Ticks

variable {unit start stop : ℤ}

/-- The whole units of time between two moments. -/
def between (unit start stop : ℤ) : ℕ :=
  ((stop - start) / unit).toNat

/-- The whole units of time that count if a stretch is counted piece by piece. -/
def counted (unit : ℤ) : ℤ → List ℤ → ℤ → ℕ
  | start, [], stop => between unit start stop
  | start, t :: times, stop => between unit start t + counted unit t times stop

theorem between_add_le (hunit : 0 < unit) {middle : ℤ} (hstart : start ≤ middle)
    (hstop : middle ≤ stop) :
    between unit start middle + between unit middle stop ≤ between unit start stop := by
  have hfirst : 0 ≤ (middle - start) / unit := Int.ediv_nonneg (by omega) hunit.le
  have hsecond : 0 ≤ (stop - middle) / unit := Int.ediv_nonneg (by omega) hunit.le
  have hwhole : (middle - start) / unit + (stop - middle) / unit ≤ (stop - start) / unit := by
    rw [Int.le_ediv_iff_mul_le hunit, add_mul]
    have h₁ := Int.ediv_mul_le (middle - start) hunit.ne'
    have h₂ := Int.ediv_mul_le (stop - middle) hunit.ne'
    omega
  rw [between, between, between]
  omega

/-- **Counting piece by piece only loses time.** -/
theorem counted_le_between (hunit : 0 < unit) {times : List ℤ}
    (hsorted : (start :: (times ++ [stop])).Pairwise (· ≤ ·)) :
    counted unit start times stop ≤ between unit start stop := by
  induction times generalizing start with
  | nil => exact le_rfl
  | cons t times ih =>
    obtain ⟨hstart, hrest⟩ := List.pairwise_cons.1 hsorted
    have hmiddle : start ≤ t := hstart t (List.mem_cons_self ..)
    have hstop : t ≤ stop := (List.pairwise_cons.1 hrest).1 stop (by simp)
    exact (Nat.add_le_add_left (ih hrest) _).trans (between_add_le hunit hmiddle hstop)

end Ticks
