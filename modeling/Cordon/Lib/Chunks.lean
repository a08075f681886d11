import Mathlib.Data.List.Basic

/-!
# Cutting a list into pieces of one size

`Chunks.cut n` cuts a list into pieces of `n` elements. The last piece may be shorter, and no piece
is empty: a list whose length is a multiple of `n` ends with a full piece.

Both facts are all that is needed of a cut: the pieces in a row are the list (`flatten_cut`), and
none of them is empty or too long (`length_of_mem_cut`). What is made of each piece is the business
of whoever cuts.
-/

namespace Chunks

variable {α : Type*}

/-- The pieces of a list. -/
def cut (n : ℕ) (l : List α) : List (List α) :=
  if _h : l = [] ∨ n = 0 then [] else l.take n :: cut n (l.drop n)
termination_by l.length
decreasing_by
  have hpos := List.length_pos_iff.2 fun hnil ↦ _h (Or.inl hnil)
  rw [List.length_drop]
  omega

variable {n : ℕ} {l : List α}

@[simp]
theorem cut_nil (n : ℕ) : cut n ([] : List α) = [] := by
  rw [cut, dif_pos (Or.inl rfl)]

theorem cut_of_ne_nil (hn : 0 < n) (hl : l ≠ []) : cut n l = l.take n :: cut n (l.drop n) := by
  rw [cut, dif_neg (not_or.2 ⟨hl, Nat.pos_iff_ne_zero.1 hn⟩)]

/-- A list that fits into one piece. -/
theorem cut_of_short (hl : l ≠ []) (hshort : l.length ≤ n) : cut n l = [l] := by
  have hn : 0 < n := Nat.lt_of_lt_of_le (List.length_pos_iff.2 hl) hshort
  rw [cut_of_ne_nil hn hl, List.take_of_length_le hshort, List.drop_of_length_le hshort, cut_nil]

/-- **Nothing is lost, added or moved.** -/
theorem flatten_cut (hn : 0 < n) (l : List α) : (cut n l).flatten = l := by
  fun_induction cut n l with
  | case1 l hnone =>
    rcases hnone with rfl | rfl
    · rfl
    · exact absurd hn (Nat.lt_irrefl 0)
  | case2 l _ ih => rw [List.flatten_cons, ih, List.take_append_drop]

/-- No piece is empty or too long. -/
theorem length_of_mem_cut {piece : List α} (h : piece ∈ cut n l) :
    0 < piece.length ∧ piece.length ≤ n := by
  fun_induction cut n l with
  | case1 l hnone => simp at h
  | case2 l hsome ih =>
    rcases List.mem_cons.1 h with rfl | h
    · have hpos := List.length_pos_iff.2 fun hnil ↦ hsome (Or.inl hnil)
      have hn : n ≠ 0 := fun hzero ↦ hsome (Or.inr hzero)
      rw [List.length_take]
      omega
    · exact ih h

end Chunks
