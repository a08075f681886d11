import Cordon.Lib.Occurrence

/-!
# Texts that remember what was inserted

Rewriting puts characters into a text that were not there before. A text of pairs `α × Origin`
carries, beside each character, whether it was kept from the original or inserted since, and
`replace` on such texts is `Occurrence.replace` on the characters (`chars_replace`).

Two facts make the occurrences of kept characters manageable. What `replace` leaves of them was
there already (`KeptOccurs.of_replace`): between two kept neighbours nothing was inserted, so
they were neighbours before. And of the word that is replaced **no occurrence of kept characters
remains** (`not_keptOccurs_replace`). Both need something to be inserted in place of a word.

The idea is to prove about marked texts what cannot be said of plain ones: in a plain text an
occurrence of a word does not tell whether its characters were neighbours before. `original` marks a
plain text as kept, `insertion` marks what is put in, and `chars` takes the marks off again.
-/

namespace Provenance

/-- Where a character of a rewritten text comes from. -/
inductive Origin
  | kept
  | inserted
  deriving DecidableEq, Repr

variable {α : Type*}

/-- A text nothing was inserted into. -/
def original (s : List α) : List (α × Origin) :=
  s.map (·, .kept)

/-- A text all of which was inserted. -/
def insertion (r : List α) : List (α × Origin) :=
  r.map (·, .inserted)

/-- The characters, without where they come from. -/
def chars (s : List (α × Origin)) : List α :=
  s.map Prod.fst

/-- Every character was kept. -/
def AllKept (s : List (α × Origin)) : Prop :=
  ∀ x ∈ s, x.2 = .kept

/-- `w` occurs, and nothing of the occurrence was inserted. -/
def KeptOccurs (w : List α) (s : List (α × Origin)) : Prop :=
  ∃ u, u <:+: s ∧ chars u = w ∧ AllKept u

@[simp] theorem chars_original (s : List α) : chars (original s) = s := by
  simp [chars, original, Function.comp_def]

@[simp] theorem chars_insertion (r : List α) : chars (insertion r) = r := by
  simp [chars, insertion, Function.comp_def]

@[simp] theorem chars_append (s t : List (α × Origin)) : chars (s ++ t) = chars s ++ chars t :=
  List.map_append

@[simp] theorem chars_cons (x : α × Origin) (s : List (α × Origin)) :
    chars (x :: s) = x.1 :: chars s :=
  rfl

theorem chars_take (n : ℕ) (s : List (α × Origin)) : chars (s.take n) = (chars s).take n :=
  List.map_take

theorem allKept_original (s : List α) : AllKept (original s) := by
  intro x hx
  obtain ⟨a, -, rfl⟩ := List.mem_map.1 hx
  rfl

theorem AllKept.of_isInfix {u s : List (α × Origin)} (hs : AllKept s) (h : u <:+: s) : AllKept u :=
  fun x hx ↦ hs x (h.subset hx)

/-- In a text nothing was inserted into, every occurrence is one of kept characters. -/
theorem keptOccurs_iff_of_allKept {w : List α} {s : List (α × Origin)} (hs : AllKept s) :
    KeptOccurs w s ↔ w <:+: chars s := by
  constructor
  · intro h
    obtain ⟨u, hu, rfl, -⟩ := h
    exact hu.map Prod.fst
  · intro h
    obtain ⟨a, b, hab⟩ := h
    obtain ⟨s₁, s₂, rfl, h₁, h₂⟩ := List.map_eq_append_iff.1 hab.symm
    obtain ⟨t₁, t₂, rfl, h₃, h₄⟩ := List.map_eq_append_iff.1 h₁
    exact ⟨t₂, ⟨t₁, s₂, rfl⟩, h₄, hs.of_isInfix ⟨t₁, s₂, rfl⟩⟩

/-- A run of kept characters that begins with an inserted text is empty. -/
theorem eq_nil_of_isPrefix_insertion {u s : List (α × Origin)} {r : List α} (hu : AllKept u)
    (hr : r ≠ []) (h : u <+: insertion r ++ s) : u = [] := by
  rcases r with - | ⟨c, r⟩
  · exact absurd rfl hr
  · rcases u with - | ⟨x, u⟩
    · rfl
    · have hx : x = (c, .inserted) := (List.cons_prefix_cons.1 h).1
      have hkept := hu x List.mem_cons_self
      rw [hx] at hkept
      simp at hkept

/-- A run of kept characters lies behind an inserted text or before it, never across. -/
theorem isInfix_of_isInfix_insertion {u s : List (α × Origin)} {r : List α} (hu : AllKept u)
    (hne : u ≠ []) (h : u <:+: insertion r ++ s) : u <:+: s := by
  induction r with
  | nil => exact h
  | cons c r ih =>
    rcases List.infix_cons_iff.1 h with hp | hi
    · exact absurd (eq_nil_of_isPrefix_insertion hu (List.cons_ne_nil c r) hp) hne
    · exact ih hi

variable [DecidableEq α]

/-- `Occurrence.replaceFrom`, with the replacement marked as inserted. -/
def replaceFrom (w r : List α) : ℕ → List (α × Origin) → List (α × Origin)
  | _, [] => []
  | k + 1, _ :: s => replaceFrom w r k s
  | 0, x :: s =>
    if w <+: chars (x :: s) then insertion r ++ replaceFrom w r (w.length - 1) s
    else x :: replaceFrom w r 0 s

/-- `Occurrence.replace`, with the replacement marked as inserted. -/
def replace (w r : List α) (s : List (α × Origin)) : List (α × Origin) :=
  replaceFrom w r 0 s

theorem chars_replaceFrom (w r : List α) (k : ℕ) (s : List (α × Origin)) :
    chars (replaceFrom w r k s) = Occurrence.replaceFrom w r k (chars s) := by
  induction s generalizing k with
  | nil => rcases k with - | k <;> rfl
  | cons x s ih =>
    rcases k with - | k
    · by_cases hp : w <+: chars (x :: s)
      · rw [replaceFrom, if_pos hp, chars_append, chars_insertion, ih, chars_cons,
          Occurrence.replaceFrom, if_pos (show w <+: x.1 :: chars s from hp)]
      · rw [replaceFrom, if_neg hp, chars_cons, chars_cons, ih, Occurrence.replaceFrom,
          if_neg (show ¬w <+: x.1 :: chars s from hp)]
    · exact ih k

/-- **The marks do not change what is rewritten.** -/
theorem chars_replace (w r : List α) (s : List (α × Origin)) :
    chars (replace w r s) = Occurrence.replace w r (chars s) :=
  chars_replaceFrom w r 0 s

/-- Kept characters at the beginning of a rewritten text stood at the beginning of the text. -/
theorem isPrefix_of_isPrefix_replaceFrom {w r : List α} (hr : r ≠ []) {u s : List (α × Origin)}
    (hu : AllKept u) (h : u <+: replaceFrom w r 0 s) : u <+: s := by
  induction s generalizing u with
  | nil => exact h
  | cons x s ih =>
    by_cases hp : w <+: chars (x :: s)
    · rw [replaceFrom, if_pos hp] at h
      rw [eq_nil_of_isPrefix_insertion hu hr h]
      exact List.nil_prefix
    · rw [replaceFrom, if_neg hp] at h
      rcases u with - | ⟨y, u⟩
      · exact List.nil_prefix
      · obtain ⟨rfl, htail⟩ := List.cons_prefix_cons.1 h
        have hu' : AllKept u := fun z hz ↦ hu z (List.mem_cons_of_mem y hz)
        exact List.cons_prefix_cons.2 ⟨rfl, ih hu' htail⟩

/-- A run of kept characters of a rewritten text is a run of the text, and is not the word. -/
theorem isInfix_and_ne_of_isInfix_replaceFrom {w r : List α} (hr : r ≠ []) {k : ℕ}
    {u s : List (α × Origin)} (hu : AllKept u) (hne : u ≠ [])
    (h : u <:+: replaceFrom w r k s) : u <:+: s ∧ chars u ≠ w := by
  induction s generalizing k with
  | nil =>
    rw [show replaceFrom w r k [] = [] by rcases k with - | k <;> rfl, List.infix_nil] at h
    exact absurd h hne
  | cons x s ih =>
    rcases k with - | k
    · by_cases hp : w <+: chars (x :: s)
      · rw [replaceFrom, if_pos hp] at h
        obtain ⟨hi, hw⟩ := ih (isInfix_of_isInfix_insertion hu hne h)
        exact ⟨List.infix_cons hi, hw⟩
      · -- a run that starts here stands here in the text, where the word does not occur
        rw [replaceFrom, if_neg hp] at h
        rcases List.infix_cons_iff.1 h with hpre | hi
        · have hpre' : u <+: x :: s := isPrefix_of_isPrefix_replaceFrom (w := w) hr hu (by
            rw [replaceFrom, if_neg hp]
            exact hpre)
          refine ⟨hpre'.isInfix, fun hw ↦ hp ?_⟩
          rw [← hw]
          exact hpre'.map Prod.fst
        · obtain ⟨hi', hw⟩ := ih hi
          exact ⟨List.infix_cons hi', hw⟩
    · obtain ⟨hi, hw⟩ := ih h
      exact ⟨List.infix_cons hi, hw⟩

/-- **Rewriting makes no new run of kept characters.** -/
theorem KeptOccurs.of_replace {v w r : List α} (hr : r ≠ []) (hv : v ≠ []) {s : List (α × Origin)}
    (h : KeptOccurs v (replace w r s)) : KeptOccurs v s := by
  obtain ⟨u, hu, rfl, hkept⟩ := h
  have hne : u ≠ [] := fun hnil ↦ hv (by rw [hnil]; rfl)
  exact ⟨u, (isInfix_and_ne_of_isInfix_replaceFrom hr hkept hne hu).1, rfl, hkept⟩

/-- **Of the word that is replaced no occurrence of kept characters remains.** -/
theorem not_keptOccurs_replace {w r : List α} (hr : r ≠ []) (hw : w ≠ []) (s : List (α × Origin)) :
    ¬KeptOccurs w (replace w r s) := by
  intro h
  obtain ⟨u, hu, hchars, hkept⟩ := h
  have hne : u ≠ [] := fun hnil ↦ hw (by rw [← hchars, hnil]; rfl)
  exact (isInfix_and_ne_of_isInfix_replaceFrom hr hkept hne hu).2 hchars

end Provenance
