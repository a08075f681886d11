import Mathlib.Order.Lattice
import Mathlib.Tactic.Common

/-!
# Times in a sliding window

What a list of times holds after a cutoff. In a list that is in order it is a suffix, so it is found
by dropping a prefix (`dropWhile_eq_live`); and as the cutoff only moves forward, what has been
dropped is never missed (`live_live`).

Nothing is assumed about the cutoffs beyond their order. A window that is asked at earlier times
than before has already dropped what it would need, which is why the results that use this module
are about times that do not go back.
-/

namespace SlidingWindow

variable {α : Type*} [LinearOrder α]

/-- The times after a cutoff. -/
def live (cutoff : α) (times : List α) : List α :=
  times.filter fun t ↦ decide (cutoff < t)

variable {cutoff cutoff' t : α} {times : List α}

@[simp]
theorem mem_live : t ∈ live cutoff times ↔ t ∈ times ∧ cutoff < t := by
  simp [live]

@[simp]
theorem live_nil : live cutoff [] = [] :=
  rfl

@[simp]
theorem live_append (times times' : List α) :
    live cutoff (times ++ times') = live cutoff times ++ live cutoff times' :=
  List.filter_append ..

/-- A time in front counts by itself. -/
theorem length_live_cons (cutoff t : α) (times : List α) : (live cutoff (t :: times)).length =
    (live cutoff [t]).length + (live cutoff times).length := by
  rw [← List.length_append, ← live_append, List.singleton_append]

theorem live_cons_of_lt (h : cutoff < t) : live cutoff (t :: times) = t :: live cutoff times :=
  List.filter_cons_of_pos (by simpa using h)

/-- A later cutoff needs only what an earlier one has left. -/
theorem live_live (h : cutoff ≤ cutoff') :
    live cutoff' (live cutoff times) = live cutoff' times := by
  rw [live, live, List.filter_filter]
  refine List.filter_congr fun t _ ↦ ?_
  by_cases ht : cutoff' < t
  · simp [ht, h.trans_lt ht]
  · simp [ht]

theorem live_eq_self_iff : live cutoff times = times ↔ ∀ t ∈ times, cutoff < t := by
  simp [live, List.filter_eq_self]

theorem live_eq_nil_iff : live cutoff times = [] ↔ ∀ t ∈ times, t ≤ cutoff := by
  simp [live, List.filter_eq_nil_iff]

theorem length_live_le : (live cutoff times).length ≤ times.length :=
  List.length_filter_le _ _

/-- All the times are after the cutoff exactly if none is lost. -/
theorem length_live_eq_iff :
    (live cutoff times).length = times.length ↔ ∀ t ∈ times, cutoff < t := by
  rw [live, List.length_filter_eq_length_iff]
  simp

theorem pairwise_live (h : times.Pairwise (· ≤ ·)) : (live cutoff times).Pairwise (· ≤ ·) :=
  h.sublist List.filter_sublist

/-- **What has lapsed is a prefix.** -/
theorem dropWhile_eq_live (h : times.Pairwise (· ≤ ·)) :
    (times.dropWhile fun t ↦ decide (t ≤ cutoff)) = live cutoff times := by
  induction times with
  | nil => rfl
  | cons t times ih =>
    obtain ⟨hfirst, hrest⟩ := List.pairwise_cons.1 h
    by_cases hlapsed : t ≤ cutoff
    · rw [List.dropWhile_cons_of_pos (by simpa using hlapsed), ih hrest, live, live,
        List.filter_cons_of_neg (by simpa using hlapsed)]
    · rw [List.dropWhile_cons_of_neg (by simpa using hlapsed)]
      -- the first that is live is followed by live ones only
      refine (live_eq_self_iff.2 fun t' ht' ↦ ?_).symm
      rcases List.mem_cons.1 ht' with rfl | hlater
      · exact not_le.1 hlapsed
      · exact (not_le.1 hlapsed).trans_le (hfirst t' hlater)

end SlidingWindow
