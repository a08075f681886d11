import Cordon.Lib.Text

/-!
# Text cut at a byte

The bytes of a text, from some byte on, and what the lossy decoder makes of them. The byte lies
between two characters or inside one (`between_or_inside`). In the first case the decoder reads the
rest of the text; in the second **each byte left of the character that was cut becomes one
replacement character** and the rest of the text follows (`decodeLossy_drop_inside`), because a
continuation byte on its own is an ill-formed sequence of length one.

The proofs go through the machine of `Lib.Utf8`: the state behind the first bytes of a character
owes the others (`State.Owes`), and a machine that starts afresh at one of these refuses it and is
afresh again. That a text is cut at a byte and not between characters is what a reader of the last
block of a file does.
-/

namespace Utf8

theorem length_encodeChar_pos (c : Char) : 0 < (encodeChar c).length := by
  simp only [encodeChar]
  split_ifs <;> simp

/-- A character of more than one byte is no line feed. -/
theorem ne_newline_of_length {c : Char} (h : 1 < (encodeChar c).length) : c ≠ '\n' := by
  rintro rfl
  exact absurd h (by decide)

/-- Every byte of a character but the first continues it. -/
theorem continuation_of_mem_drop {c : Char} {i : ℕ} (hi : 0 < i) {b : UInt8}
    (hb : b ∈ (encodeChar c).drop i) : 0x80 ≤ b.toNat ∧ b.toNat < 0xC0 := by
  obtain ⟨j, rfl⟩ : ∃ j, i = j + 1 := ⟨i - 1, by omega⟩
  have hvalid := toNat_valid c
  simp only [encodeChar] at hb
  split_ifs at hb
  · simp at hb
  · have hmem := List.mem_of_mem_drop (List.drop_succ_cons ▸ hb)
    simp only [List.mem_singleton] at hmem
    subst hmem
    simp
    omega
  · have hmem := List.mem_of_mem_drop (List.drop_succ_cons ▸ hb)
    simp only [List.mem_cons, List.not_mem_nil, or_false] at hmem
    rcases hmem with rfl | rfl <;> simp <;> omega
  · have hmem := List.mem_of_mem_drop (List.drop_succ_cons ▸ hb)
    simp only [List.mem_cons, List.not_mem_nil, or_false] at hmem
    rcases hmem with rfl | rfl | rfl <;> simp <;> omega

/-- Continuation bytes between characters are ill-formed one by one. -/
theorem decodeLossy_continuation_append {stray : Bytes}
    (h : ∀ b ∈ stray, 0x80 ≤ b.toNat ∧ b.toNat < 0xC0) (rest : Bytes) :
    decodeLossy (stray ++ rest) = List.replicate stray.length '\uFFFD' ++ decodeLossy rest := by
  induction stray with
  | nil => rfl
  | cons b stray ih =>
    obtain ⟨hlo, hhi⟩ := h b List.mem_cons_self
    have hstep : step .ground b.toNat = ([none], .ground) := by
      rw [step, lead, if_neg (by omega), if_pos (by omega)]
    have ih' := ih fun x hx ↦ h x (List.mem_cons_of_mem _ hx)
    rw [decodeLossy] at ih' ⊢
    rw [List.cons_append, decodeItems_cons, hstep, List.map_append, ih', List.length_cons,
      List.replicate_succ]
    rfl

/-- **A byte position lies between two characters or inside one.** -/
theorem between_or_inside (text : List Char) {p : ℕ} (hp : p ≤ (encode text).length) :
    (∃ u v, text = u ++ v ∧ p = (encode u).length) ∨
      ∃ u c v i, text = u ++ c :: v ∧ p = (encode u).length + i ∧ 0 < i ∧
        i < (encodeChar c).length := by
  induction text generalizing p with
  | nil => exact Or.inl ⟨[], [], rfl, by simpa using hp⟩
  | cons c text ih =>
    rcases Nat.eq_zero_or_pos p with rfl | hpos
    · exact Or.inl ⟨[], c :: text, rfl, rfl⟩
    rcases Nat.lt_or_ge p (encodeChar c).length with hlt | hge
    · exact Or.inr ⟨[], c, text, p, rfl, by simp, hpos, hlt⟩
    -- the position lies behind the first character
    rw [encode_cons, List.length_append] at hp
    rcases ih (p := p - (encodeChar c).length) (by omega) with
      ⟨u, v, rfl, hu⟩ | ⟨u, d, v, i, rfl, hu, hi, hlt⟩
    · exact Or.inl ⟨c :: u, v, rfl, by rw [encode_cons, List.length_append]; omega⟩
    · exact Or.inr ⟨c :: u, d, v, i, rfl, by rw [encode_cons, List.length_append]; omega, hi, hlt⟩

theorem drop_encode_append (u v : List Char) :
    (encode (u ++ v)).drop (encode u).length = encode v := by
  rw [encode_append, List.drop_left]

/-- Text cut between two characters. -/
theorem decodeLossy_drop_between (u v : List Char) :
    decodeLossy ((encode (u ++ v)).drop (encode u).length) = v := by
  rw [drop_encode_append, decodeLossy_encode]

/-- **Text cut inside a character.** -/
theorem decodeLossy_drop_inside (u v : List Char) {c : Char} {i : ℕ} (hi : 0 < i)
    (hlt : i < (encodeChar c).length) :
    decodeLossy ((encode (u ++ c :: v)).drop ((encode u).length + i)) =
      List.replicate ((encodeChar c).length - i) '\uFFFD' ++ v := by
  rw [← List.drop_drop, drop_encode_append, encode_cons, List.drop_append_of_le_length hlt.le,
    decodeLossy_continuation_append fun b hb ↦ continuation_of_mem_drop hi hb, List.length_drop,
    decodeLossy_encode]

end Utf8

namespace Text

/-! ### The last line that is not blank -/

theorem isBlank_append (a b : List Char) : isBlank (a ++ b) = (isBlank a && isBlank b) :=
  List.all_append

/-- A carriage return can only be stripped off the last part of a text. -/
theorem stripCr_append (a : List Char) {b : List Char} (hb : b ≠ []) :
    stripCr (a ++ b) = a ++ stripCr b := by
  rw [stripCr, stripCr, List.getLast?_append_of_ne_nil _ hb]
  split_ifs
  · rw [List.dropLast_append_of_ne_nil hb]
  · rfl

/-- Stripping a carriage return leaves a blank line blank, and no other. -/
theorem isBlank_stripCr (l : List Char) : isBlank (stripCr l) = isBlank l := by
  rw [stripCr]
  split_ifs with h
  · obtain ⟨init, rfl⟩ := List.getLast?_eq_some_iff.1 h
    rw [List.dropLast_concat, isBlank_append, show isBlank ['\r'] = true by decide, Bool.and_true]
  · rfl

/-- The end of a list that ends in `c` does. -/
theorem EndsWith.of_append {α : Type*} {c : α} {a b : List α} (h : EndsWith c (a ++ b)) :
    EndsWith c b := by
  have := h.drop a.length
  rwa [List.drop_left] at this

theorem EndsWith.mem {α : Type*} {c : α} {a : List α} (h : EndsWith c a) (hne : a ≠ []) :
    c ∈ a := by
  obtain ⟨b, rfl⟩ := h.resolve_left hne
  simp

/-- The first line of a text that ends in a line feed. -/
theorem exists_first_line {v : List Char} (hend : EndsWith '\n' v) (hne : v ≠ []) :
    ∃ y z, v = y ++ '\n' :: z ∧ '\n' ∉ y := by
  obtain ⟨y, z, hv, hy⟩ := List.eq_append_cons_of_mem (hend.mem hne)
  exact ⟨y, z, hv, hy⟩

/-- Every line of a text is blank exactly if the text is. -/
theorem forall_mem_lines_isBlank (text : List Char) :
    (∀ l ∈ lines text, isBlank l = true) ↔ isBlank text = true := by
  have hnewline : isWhitespace '\n' = true := by decide
  induction hn : text.length using Nat.strong_induction_on generalizing text with
  | _ n ih =>
    by_cases hmem : '\n' ∈ text
    · obtain ⟨y, z, rfl, hy⟩ := List.eq_append_cons_of_mem hmem
      have hlt : z.length < n := by
        rw [← hn, List.length_append, List.length_cons]
        omega
      have hcons : isBlank ('\n' :: z) = isBlank z := by
        rw [isBlank, List.all_cons, hnewline, Bool.true_and, isBlank]
      have hz : (∀ l ∈ lines z, isBlank l = true) ↔ isBlank z = true := ih _ hlt z rfl
      rw [lines_append_newline z hy, List.forall_mem_cons, hz, isBlank_stripCr, isBlank_append,
        hcons, Bool.and_eq_true]
    · rcases eq_or_ne text [] with rfl | hne
      · simp [isBlank]
      · rw [lines_of_not_mem hmem hne, List.forall_mem_singleton]

/-- A text has a line that is not blank exactly if it is not blank. -/
theorem lastLine_eq_none_iff {text : List Char} : lastLine text = none ↔ isBlank text = true := by
  rw [← forall_mem_lines_isBlank, lastLine, List.find?_eq_none]
  simp

/-- Lines before the end do not matter as long as the end is not blank. -/
theorem lastLine_append_of_endsWith {a b : List Char} (ha : EndsWith '\n' a)
    (hb : isBlank b = false) : lastLine (a ++ b) = lastLine b := by
  obtain ⟨l, hl⟩ : ∃ l, lastLine b = some l := by
    rw [← Option.isSome_iff_exists, ← Option.ne_none_iff_isSome, Ne, lastLine_eq_none_iff, hb]
    decide
  rw [hl]
  rw [lastLine] at hl ⊢
  rw [lines_append_of_endsWith ha, List.reverse_append, List.find?_append, hl, Option.some_or]

/-- Nor do blank lines behind a line that is not. -/
theorem lastLine_append_blank {l z : List Char} (hl : '\n' ∉ l) (hblank : isBlank l = false)
    (hz : isBlank z = true) : lastLine (l ++ '\n' :: z) = some (stripCr l) := by
  have hnone : (lines z).reverse.find? (fun l ↦ !isBlank l) = none := lastLine_eq_none_iff.2 hz
  rw [lastLine, lines_append_newline z hl, List.reverse_cons, List.find?_append, hnone,
    Option.none_or]
  simp [isBlank_stripCr, hblank]

end Text
