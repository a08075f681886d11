import Mathlib.Data.List.Basic
import Mathlib.Data.List.Infix

/-!
# Finding and replacing a word in a text

A text is a list over an arbitrary alphabet. `find` is the first position a word occurs at and
`replace` rewrites its occurrences from left to right without overlap.

What a scan of a growing text has to know is **how far back an extension reaches**. An occurrence
that lies in the text is found at the same place in every extension (`find_append`); one that an
extension completes starts in the last `w.length - 1` characters, or after them
(`lt_of_find_eq_none`). For the replacement this becomes `replace_append`: but for as many
characters at its end as the word has after its first, the rewritten text is the beginning of every
rewritten extension.

Two texts with a common beginning are rewritten **side by side** for as long as the rewriting
decides the same in both, and `shared` is what both rewritten texts then begin with. If one of the
two texts is the other cut short, `length_replaceFrom_le_shared` and `shared_stop` say where it
ends: at most one character less than a word before the end of the shorter, or at a letter that one
rewriting keeps and the other replaces.
-/

namespace Occurrence

variable {α : Type*}

/-- An occurrence stays one when the text grows. -/
theorem isPrefix_drop_append {w s : List α} {q : ℕ} (t : List α) (hq : w <+: s.drop q) :
    w <+: (s ++ t).drop q := by
  rw [List.drop_append]
  exact hq.trans (List.prefix_append _ _)

/-- An occurrence in an extension that ends within the text is an occurrence in the text. -/
theorem isPrefix_drop_of_append {w s t : List α} {q : ℕ} (hq : w <+: (s ++ t).drop q)
    (hle : q + w.length ≤ s.length) : w <+: s.drop q := by
  rw [List.drop_append_of_le_length (by omega)] at hq
  exact List.prefix_of_prefix_length_le hq (List.prefix_append _ _) (by simp; omega)

/-- A word that only an extension completes at the front is longer than the text. -/
theorem length_lt_of_isPrefix_append {w s t : List α} (h : ¬w <+: s) (ht : w <+: s ++ t) :
    s.length < w.length := by
  by_contra hle
  exact h (List.prefix_of_prefix_length_le ht (List.prefix_append s t) (by omega))

/-- A word is an infix where it occurs. -/
theorem isInfix_iff_exists_drop {w s : List α} : w <:+: s ↔ ∃ q, w <+: s.drop q := by
  rw [List.infix_iff_prefix_suffix]
  constructor
  · intro h
    obtain ⟨t, hpre, hsuf⟩ := h
    exact ⟨s.length - t.length, by rwa [← List.suffix_iff_eq_drop.1 hsuf]⟩
  · intro h
    obtain ⟨q, hq⟩ := h
    exact ⟨s.drop q, hq, List.drop_suffix q s⟩

/-- Holding back behind a common beginning keeps that beginning. -/
theorem take_append_isPrefix {r x y : List α} {n : ℕ}
    (h : x.take (x.length - n) <+: y) : (r ++ x).take ((r ++ x).length - n) <+: r ++ y := by
  rw [List.take_append, List.length_append]
  rcases Nat.lt_or_ge x.length n with hx | hx
  · have hzero : r.length + x.length - n - r.length = 0 := by omega
    rw [hzero, List.take_zero, List.append_nil]
    exact (List.take_prefix _ _).trans (List.prefix_append _ _)
  · rw [List.take_of_length_le (by omega), show r.length + x.length - n - r.length = x.length - n by
      omega]
    exact (List.prefix_append_right_inj r).2 h

variable [DecidableEq α]

/-- The first position at which `w` occurs. -/
def find (w : List α) : List α → Option ℕ
  | [] => if w = [] then some 0 else none
  | a :: s => if w <+: a :: s then some 0 else (find w s).map (· + 1)

theorem find_of_isPrefix {w s : List α} (h : w <+: s) : find w s = some 0 := by
  rcases s with - | ⟨a, s⟩
  · rw [find, if_pos (List.prefix_nil.1 h)]
  · rw [find, if_pos h]

theorem find_cons_of_not_isPrefix {w s : List α} {a : α} (h : ¬w <+: a :: s) :
    find w (a :: s) = (find w s).map (· + 1) := by
  rw [find, if_neg h]

/-- **A word is found exactly when it occurs.** -/
theorem find_eq_none {w s : List α} : find w s = none ↔ ∀ q, ¬w <+: s.drop q := by
  induction s with
  | nil => simp [find]
  | cons a s ih =>
    by_cases h : w <+: a :: s
    · rw [find_of_isPrefix h]
      refine iff_of_false (by simp) fun hall ↦ hall 0 h
    · rw [find_cons_of_not_isPrefix h, Option.map_eq_none_iff, ih]
      refine ⟨fun hall q ↦ ?_, fun hall q ↦ hall (q + 1)⟩
      rcases q with - | q
      · exact h
      · exact hall q

theorem find_eq_none_iff_not_isInfix {w s : List α} : find w s = none ↔ ¬w <:+: s := by
  rw [find_eq_none, isInfix_iff_exists_drop, not_exists]

theorem find_eq_none_of_isInfix {w s t : List α} (h : s <:+: t) (ht : find w t = none) :
    find w s = none :=
  find_eq_none_iff_not_isInfix.2 fun hw ↦ find_eq_none_iff_not_isInfix.1 ht (hw.trans h)

/-- The position found is an occurrence. -/
theorem isPrefix_drop_of_find {w s : List α} {i : ℕ} (h : find w s = some i) :
    w <+: s.drop i := by
  induction s generalizing i with
  | nil =>
    rw [find] at h
    split at h
    · next hw => simp [hw]
    · simp at h
  | cons a s ih =>
    by_cases hp : w <+: a :: s
    · rw [find_of_isPrefix hp, Option.some.injEq] at h
      subst h
      exact hp
    · rw [find_cons_of_not_isPrefix hp, Option.map_eq_some_iff] at h
      obtain ⟨j, hj, rfl⟩ := h
      exact ih hj

/-- The position found is the first one. -/
theorem find_le {w s : List α} {i q : ℕ} (h : find w s = some i) (hq : w <+: s.drop q) : i ≤ q := by
  induction s generalizing i q with
  | nil =>
    rw [find] at h
    split at h
    · rw [Option.some.injEq] at h
      omega
    · simp at h
  | cons a s ih =>
    by_cases hp : w <+: a :: s
    · rw [find_of_isPrefix hp, Option.some.injEq] at h
      omega
    · rw [find_cons_of_not_isPrefix hp, Option.map_eq_some_iff] at h
      obtain ⟨j, hj, rfl⟩ := h
      rcases q with - | q
      · exact absurd hq hp
      · exact Nat.succ_le_succ (ih hj hq)

/-- **What lies before a cut**: a word occurs there exactly when its first occurrence ends there. -/
theorem isInfix_take_iff {w s : List α} (hw : w ≠ []) (n : ℕ) :
    w <:+: s.take n ↔ ∃ q, find w s = some q ∧ q + w.length ≤ n := by
  have hpos := List.length_pos_iff.2 hw
  rw [isInfix_iff_exists_drop]
  constructor
  · intro h
    obtain ⟨i, hi⟩ := h
    rw [List.drop_take] at hi
    obtain ⟨hocc, hlen⟩ := List.prefix_take_iff.1 hi
    rcases hfind : find w s with - | q
    · exact absurd hocc (find_eq_none.1 hfind i)
    · have hq := find_le hfind hocc
      exact ⟨q, rfl, by omega⟩
  · intro h
    obtain ⟨q, hfind, hlen⟩ := h
    refine ⟨q, ?_⟩
    rw [List.drop_take]
    exact List.prefix_take_iff.2 ⟨isPrefix_drop_of_find hfind, by omega⟩

/-- **A word that is found stays where it is** when the text grows. -/
theorem find_append {w s : List α} {i : ℕ} (h : find w s = some i) (t : List α) :
    find w (s ++ t) = some i := by
  have hocc := isPrefix_drop_of_find h
  rcases hfind : find w (s ++ t) with - | j
  · exact absurd (isPrefix_drop_append t hocc) (find_eq_none.1 hfind i)
  · have hji : j ≤ i := find_le hfind (isPrefix_drop_append t hocc)
    have hlen := hocc.length_le
    rw [List.length_drop] at hlen
    have hij : i ≤ j := by
      rcases Nat.lt_or_ge s.length i with hi | hi
      · exact absurd (find_le h (show w <+: s.drop s.length by
          have hw : w = [] := List.eq_nil_of_length_eq_zero (by omega)
          simp [hw])) (by omega)
      · exact find_le h (isPrefix_drop_of_append (isPrefix_drop_of_find hfind) (by omega))
    rw [show j = i by omega]

/-- **What an extension completes starts near the end** of the text it extends. -/
theorem lt_of_find_eq_none {w s t : List α} {q : ℕ} (h : find w s = none)
    (hq : w <+: (s ++ t).drop q) : s.length < q + w.length := by
  by_contra hle
  exact find_eq_none.1 h q (isPrefix_drop_of_append hq (by omega))

/-- **A word is found where it was put**, unless what stands before completes it earlier. -/
theorem find_append_self {w e : List α} (hw : w ≠ []) (h : find w (e ++ w.dropLast) = none)
    (rest : List α) : find w (e ++ (w ++ rest)) = some e.length := by
  have hocc : w <+: (e ++ (w ++ rest)).drop e.length := by
    rw [List.drop_left]
    exact List.prefix_append w rest
  rcases hfind : find w (e ++ (w ++ rest)) with - | j
  · exact absurd hocc (find_eq_none.1 hfind _)
  · have hle := find_le hfind hocc
    rcases hle.lt_or_eq with hlt | rfl
    · have hcut : e ++ (w ++ rest) = (e ++ w.dropLast) ++ (w.getLast hw :: rest) := by
        nth_rewrite 1 [← List.dropLast_concat_getLast hw]
        simp
      have hearly := isPrefix_drop_of_find hfind
      rw [hcut] at hearly
      have hlen := List.length_pos_iff.2 hw
      exact absurd (isPrefix_drop_of_append hearly (by simp; omega)) (find_eq_none.1 h j)
    · rfl

/-- A letter the word does not have completes no occurrence. -/
theorem find_append_singleton {w s : List α} {a : α} (ha : a ∉ w) (h : find w s = none) :
    find w (s ++ [a]) = none := by
  rw [find_eq_none]
  intro q hq
  have hlate := lt_of_find_eq_none h hq
  have hlen := hq.length_le
  rw [List.length_drop, List.length_append, List.length_singleton] at hlen
  rcases List.eq_nil_or_concat w with rfl | ⟨v, b, rfl⟩
  · exact absurd hq (by simpa using find_eq_none.1 h q)
  · rw [List.concat_eq_append] at hq ha hlen hlate
    rw [List.length_append, List.length_singleton] at hlen hlate
    have heq : v ++ [b] = s.drop q ++ [a] := by
      rw [← List.drop_append_of_le_length (by omega)]
      exact hq.eq_of_length (by simp; omega)
    have hba := (List.append_inj' heq rfl).2
    obtain rfl := List.singleton_inj.1 hba
    simp at ha

/-! ### Replacing -/

/-- Rewrite the occurrences of `w` to `r`, after skipping the rest of an occurrence that was just
rewritten. -/
def replaceFrom (w r : List α) : ℕ → List α → List α
  | _, [] => []
  | k + 1, _ :: s => replaceFrom w r k s
  | 0, a :: s =>
    if w <+: a :: s then r ++ replaceFrom w r (w.length - 1) s else a :: replaceFrom w r 0 s

/-- Rewrite the occurrences of a word that is not empty, from left to right and without overlap. -/
def replace (w r s : List α) : List α :=
  replaceFrom w r 0 s

theorem replaceFrom_nil (w r : List α) (k : ℕ) : replaceFrom w r k [] = [] := by
  rcases k with - | k <;> rfl

/-- A text shorter than the word is left as it is. -/
theorem replaceFrom_of_short {w s : List α} (r : List α) (h : s.length < w.length) :
    replaceFrom w r 0 s = s := by
  induction s with
  | nil => rfl
  | cons a s ih =>
    have hno : ¬w <+: a :: s := fun hp ↦ absurd hp.length_le (by omega)
    rw [replaceFrom, if_neg hno, ih (by simp at h; omega)]

/-- A beginning that cuts the word short is left as it is. -/
theorem length_replaceFrom_lt {w s q : List α} (r : List α) (hs : w <+: s) (hq : q <+: s)
    (h : ¬w <+: q) : (replaceFrom w r 0 q).length < w.length := by
  obtain ⟨t, rfl⟩ := hq
  have hshort := length_lt_of_isPrefix_append h hs
  rwa [replaceFrom_of_short r hshort]

/-- Without an occurrence there is nothing to rewrite. -/
theorem replace_of_find_eq_none {w s : List α} (r : List α) (h : find w s = none) :
    replace w r s = s := by
  induction s with
  | nil => rfl
  | cons a s ih =>
    have hno : ¬w <+: a :: s := find_eq_none.1 h 0
    have hrest : find w s = none := find_eq_none.2 fun q ↦ find_eq_none.1 h (q + 1)
    rw [replace, replaceFrom, if_neg hno]
    exact congrArg (a :: ·) (ih hrest)

theorem replaceFrom_append {w : List α} (r : List α) {n : ℕ} (hw : w.length ≤ n + 1) (k : ℕ)
    (s t : List α) :
    (replaceFrom w r k s).take ((replaceFrom w r k s).length - n) <+:
      replaceFrom w r k (s ++ t) := by
  induction s generalizing k with
  | nil => simp [replaceFrom_nil]
  | cons a s ih =>
    rcases k with - | k
    · by_cases hp : w <+: a :: s
      · -- the same occurrence is rewritten in both texts
        rw [List.cons_append, replaceFrom, replaceFrom, if_pos hp,
          if_pos (hp.trans (List.prefix_append (a :: s) t) : w <+: a :: (s ++ t))]
        exact take_append_isPrefix (ih _)
      · by_cases hpt : w <+: a :: (s ++ t)
        · -- an occurrence that `t` completes: the text is too short to release anything of it
          have hshort := length_lt_of_isPrefix_append (s := a :: s) hp hpt
          rw [replaceFrom_of_short r hshort, show (a :: s).length - n = 0 by omega]
          exact List.nil_prefix
        · rw [List.cons_append, replaceFrom, replaceFrom, if_neg hp, if_neg hpt]
          exact take_append_isPrefix (r := [a]) (ih 0)
    · exact ih k

/-- **The rewritten text is settled** but for as many characters at its end as the word has after
its first. -/
theorem replace_append {w : List α} (r : List α) {n : ℕ} (hw : w.length ≤ n + 1) (s t : List α) :
    (replace w r s).take ((replace w r s).length - n) <+: replace w r (s ++ t) :=
  replaceFrom_append r hw 0 s t

/-! ### Two texts side by side -/

/-- What the rewritten texts `c ++ a` and `c ++ b` both begin with: the rewriting goes through `c`
for as long as it decides the same in both texts. -/
def shared (w r : List α) : ℕ → List α → List α → List α → List α
  | _, [], _, _ => []
  | k + 1, _ :: c, a, b => shared w r k c a b
  | 0, x :: c, a, b =>
    if w <+: x :: (c ++ a) ∧ w <+: x :: (c ++ b) then r ++ shared w r (w.length - 1) c a b
    else if w <+: x :: (c ++ a) ∨ w <+: x :: (c ++ b) then []
    else x :: shared w r 0 c a b

theorem shared_comm (w r : List α) (k : ℕ) (c a b : List α) :
    shared w r k c a b = shared w r k c b a := by
  induction c generalizing k with
  | nil => rcases k with - | k <;> rfl
  | cons x c ih =>
    rcases k with - | k
    · simp only [shared, ih, and_comm (a := w <+: x :: (c ++ a)),
        or_comm (a := w <+: x :: (c ++ a))]
    · exact ih k

theorem shared_isPrefix (w r : List α) (k : ℕ) (c a b : List α) :
    shared w r k c a b <+: replaceFrom w r k (c ++ a) := by
  induction c generalizing k with
  | nil => rcases k with - | k <;> exact List.nil_prefix
  | cons x c ih =>
    rcases k with - | k
    · rw [List.cons_append, shared, replaceFrom]
      by_cases ha : w <+: x :: (c ++ a)
      · rw [if_pos ha]
        split
        · exact (List.prefix_append_right_inj r).2 (ih _)
        · rw [if_pos (Or.inl ha)]
          exact List.nil_prefix
      · rw [if_neg ha, if_neg fun h ↦ ha h.1]
        split
        · exact List.nil_prefix
        · exact (List.prefix_append_right_inj [x]).2 (ih 0)
    · exact ih k

theorem shared_isPrefix_replace (w r : List α) {c x : List α} (hx : c <+: x) (b : List α) :
    shared w r 0 c (x.drop c.length) b <+: replace w r x := by
  obtain ⟨a, rfl⟩ := hx
  rw [List.drop_left]
  exact shared_isPrefix w r 0 c a b

/-- A text that the other continues is shared but for less than a word at its end. -/
theorem length_replaceFrom_le_shared {w : List α} (r : List α) {n : ℕ} (hw : w.length ≤ n + 1)
    (k : ℕ) (c b : List α) :
    (replaceFrom w r k c).length ≤ (shared w r k c [] b).length + n := by
  induction c generalizing k with
  | nil => simp [replaceFrom_nil]
  | cons x c ih =>
    rcases k with - | k
    · by_cases hc : w <+: x :: c
      · have hb : w <+: x :: (c ++ b) := hc.trans (List.prefix_append (x :: c) b)
        rw [shared, List.append_nil, if_pos ⟨hc, hb⟩, replaceFrom, if_pos hc, List.length_append,
          List.length_append]
        have hrest := ih (w.length - 1)
        omega
      · by_cases hb : w <+: x :: (c ++ b)
        · rw [replaceFrom_of_short r (length_lt_of_isPrefix_append (s := x :: c) hc hb)]
          have hshort := length_lt_of_isPrefix_append (s := x :: c) hc hb
          omega
        · rw [shared, List.append_nil, if_neg fun h ↦ hc h.1, if_neg fun h ↦ h.elim hc hb,
            replaceFrom, if_neg hc, List.length_cons, List.length_cons]
          have hrest := ih 0
          omega
    · exact ih k

/-- A text shorter than the word is shared as it is. -/
theorem shared_of_short {w c a b : List α} (r : List α) (ha : (c ++ a).length < w.length)
    (hb : (c ++ b).length < w.length) : shared w r 0 c a b = c := by
  induction c with
  | nil => rfl
  | cons x c ih =>
    have hno : ∀ t, (x :: c ++ t).length < w.length → ¬w <+: x :: (c ++ t) := fun t ht h ↦
      absurd h.length_le (Nat.not_le.2 ht)
    rw [shared, if_neg fun h ↦ hno a ha h.1, if_neg fun h ↦ h.elim (hno a ha) (hno b hb),
      ih (Nat.lt_of_succ_lt ha) (Nat.lt_of_succ_lt hb)]

/-- **Where a text cut short parts from the text**: nowhere, or at a letter that begins the word in
the text and is kept in what was cut. Every text that begins like the text then has the replacement
there, or is too short to have settled it. -/
theorem shared_stop {w r : List α} (hw : w ≠ []) (hr : r ≠ []) {n : ℕ} (hlen : w.length ≤ n + 1)
    (k : ℕ) (c a t : List α) :
    shared w r k c a [] = replaceFrom w r k c ∨
      (replaceFrom w r k c)[(shared w r k c a []).length]? = w.head? ∧
        ∀ q, q <+: c ++ a ++ t →
          (replaceFrom w r k q)[(shared w r k c a []).length]? = r.head? ∨
            (replaceFrom w r k q).length ≤ (shared w r k c a []).length + n := by
  induction c generalizing k with
  | nil => exact Or.inl (by rw [replaceFrom_nil]; rcases k with - | k <;> rfl)
  | cons x c ih =>
    rcases k with - | k
    · by_cases ha : w <+: x :: (c ++ a)
      · have hat : w <+: x :: (c ++ a) ++ t := ha.trans (List.prefix_append _ t)
        by_cases hc : w <+: x :: c
        · -- the same occurrence is rewritten in both texts
          rw [shared, List.append_nil, if_pos ⟨ha, hc⟩, replaceFrom, if_pos hc,
            List.append_right_inj, List.length_append]
          refine (ih (w.length - 1)).imp_right fun hstop ↦ ⟨?_, fun q hq ↦ ?_⟩
          · rw [List.getElem?_append_right (by omega), Nat.add_sub_cancel_left]
            exact hstop.1
          · by_cases hwq : w <+: q
            · rcases q with - | ⟨y, q⟩
              · exact absurd (List.prefix_nil.1 hwq) hw
              · rw [replaceFrom, if_pos hwq, List.getElem?_append_right (by omega),
                  Nat.add_sub_cancel_left, List.length_append]
                exact (hstop.2 q (List.cons_prefix_cons.1 hq).2).imp_right fun hle ↦ by omega
            · have hshort := length_replaceFrom_lt r hat hq hwq
              exact Or.inr (by omega)
        · -- the word is cut short: here the two texts part
          rw [shared, List.append_nil, if_neg fun h ↦ hc h.2, if_pos (Or.inl ha), replaceFrom,
            if_neg hc]
          obtain ⟨v, w', rfl⟩ := List.exists_cons_of_ne_nil hw
          obtain ⟨z, r', rfl⟩ := List.exists_cons_of_ne_nil hr
          obtain ⟨rfl, -⟩ := List.cons_prefix_cons.1 ha
          refine Or.inr ⟨rfl, fun q hq ↦ ?_⟩
          by_cases hwq : v :: w' <+: q
          · rcases q with - | ⟨y, q⟩
            · exact absurd (List.prefix_nil.1 hwq) hw
            · rw [replaceFrom, if_pos hwq]
              exact Or.inl rfl
          · have hshort := length_replaceFrom_lt (z :: r') hat hq hwq
            exact Or.inr (by rw [List.length_nil]; omega)
      · -- both texts keep the letter
        have hc : ¬w <+: x :: c := fun h ↦ ha (h.trans (List.prefix_append (x :: c) a))
        by_cases hshort : (x :: c ++ a).length < w.length
        · have hcut : (x :: c).length < w.length :=
            lt_of_le_of_lt (by simp) hshort
          rw [shared_of_short r hshort (by rwa [List.append_nil]), replaceFrom_of_short r hcut]
          exact Or.inl rfl
        · rw [shared, List.append_nil, if_neg fun h ↦ ha h.1, if_neg fun h ↦ h.elim ha hc,
            replaceFrom, if_neg hc, List.cons_inj_right, List.length_cons]
          refine (ih 0).imp_right fun hstop ↦ ⟨hstop.1, fun q hq ↦ ?_⟩
          rcases q with - | ⟨y, q⟩
          · exact Or.inr (by simp [replaceFrom_nil])
          · have hwq : ¬w <+: y :: q := fun h ↦ ha
              (List.prefix_of_prefix_length_le (h.trans hq) (List.prefix_append _ t)
                (Nat.not_lt.1 hshort))
            rw [replaceFrom, if_neg hwq, List.length_cons]
            exact (hstop.2 q (List.cons_prefix_cons.1 hq).2).imp_right fun hle ↦ by omega
    · refine (ih k).imp_right fun hstop ↦ ⟨hstop.1, fun q hq ↦ ?_⟩
      rcases q with - | ⟨y, q⟩
      · exact Or.inr (by simp [replaceFrom_nil])
      · exact hstop.2 q (List.cons_prefix_cons.1 hq).2

/-- **Where two texts part** that agree as far as both go, if more of the first is settled than is
shared: at the end of the second, or at a letter of it that the first has replaced. -/
theorem shared_stop_of_lt {w r : List α} (hw : w ≠ []) (hr : r ≠ []) {n : ℕ}
    (hlen : w.length ≤ n + 1) {c x y : List α} (hcx : c <+: x) (hcy : c <+: y)
    (hclen : c.length = min x.length y.length)
    (hlt : (shared w r 0 c (x.drop c.length) (y.drop c.length)).length + n <
      (replace w r x).length) (t : List α) :
    let d := shared w r 0 c (x.drop c.length) (y.drop c.length)
    d = replace w r y ∨ (replace w r y)[d.length]? = w.head? ∧ ∀ q, q <+: x ++ t →
      (replace w r q)[d.length]? = r.head? ∨ (replace w r q).length ≤ d.length + n := by
  intro d
  rcases Nat.lt_or_ge y.length x.length with hshort | hge
  · obtain rfl := hcy.eq_of_length (by omega)
    have hx := List.prefix_iff_eq_append.1 hcx
    have hstop := shared_stop hw hr hlen 0 c (x.drop c.length) t
    rw [hx] at hstop
    simp only [d, List.drop_length]
    exact hstop
  · -- the second text goes on where the first ends, so what is settled is shared
    obtain rfl := hcx.eq_of_length (by omega)
    have hle := length_replaceFrom_le_shared r hlen 0 c (y.drop c.length)
    rw [List.drop_length] at hlt
    rw [replace] at hlt
    omega

end Occurrence
