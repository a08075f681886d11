import Cordon.Lib.Utf8

/-!
# Strict decoding accepts encodings only

The converse of `decode_encode`. In the middle of a character the machine has read some bytes and
still owes some; `Completes` says that whatever bytes it goes on to accept, they and the ones before
are the encoding of the character it then emits. Leading bytes establish it, and a continuation byte
keeps it, so a character that is emitted stands for exactly the bytes that were read.

The range that the next byte must lie in is never empty (`State.Open`), so what has been read of a
character that is not complete is the beginning of one (`Incomplete`).

`decode_eq_some_iff` is then an induction along the bytes, with the state of the machine as its
invariant. What a strict decoder accepts is used where a text is read from a file and written again:
such a text has the bytes that it was read from.
-/

namespace Utf8

/-- The bytes read so far, with any bytes that are accepted after them, are the encoding of the
character that is emitted. -/
def Completes (read : Bytes) : ℕ → ℕ → ℕ → ℕ → Prop
  | 0, acc, lo, hi => ∀ b : UInt8, lo ≤ b.toNat → b.toNat ≤ hi →
      encodeChar (Char.ofNat (acc * 64 + (b.toNat - 0x80))) = read ++ [b]
  | need + 1, acc, lo, hi => ∀ b : UInt8, lo ≤ b.toNat → b.toNat ≤ hi →
      Completes (read ++ [b]) need (acc * 64 + (b.toNat - 0x80)) 0x80 0xBF

theorem toNat_ofNat {v : ℕ} (h : v < 0xD800 ∨ (0xDFFF < v ∧ v < 0x110000)) :
    (Char.ofNat v).toNat = v := by
  rw [Char.ofNat, dif_pos h]
  rfl

/-- A byte is given by its value. -/
theorem ofNat_eq {n : ℕ} {b : UInt8} (h : n = b.toNat) : UInt8.ofNat n = b := by
  rw [h, UInt8.ofNat_toNat]

theorem encodeChar_one {b : UInt8} (h : b.toNat < 0x80) :
    encodeChar (Char.ofNat b.toNat) = [b] := by
  simp only [encodeChar, toNat_ofNat (by omega : b.toNat < 0xD800 ∨ _)]
  rw [if_pos h, UInt8.ofNat_toNat]

theorem completes_two {b : UInt8} (h : 0xC2 ≤ b.toNat) (h' : b.toNat < 0xE0) :
    Completes [b] 0 (b.toNat - 0xC0) 0x80 0xBF := by
  intro c hlo hhi
  generalize hv : (b.toNat - 0xC0) * 64 + (c.toNat - 0x80) = v
  simp only [encodeChar, toNat_ofNat (by omega : v < 0xD800 ∨ _)]
  rw [if_neg (by omega), if_pos (by omega), ofNat_eq (by omega : _ = b.toNat),
    ofNat_eq (by omega : _ = c.toNat)]
  rfl

theorem completes_three {b : UInt8} {lo hi : ℕ} (h : 0xE0 ≤ b.toNat) (h' : b.toNat < 0xF0)
    (hlo : 0x80 ≤ lo) (hhi : hi ≤ 0xBF) (hfirst : b.toNat = 0xE0 → 0xA0 ≤ lo)
    (hsurrogate : b.toNat = 0xED → hi ≤ 0x9F) : Completes [b] 1 (b.toNat - 0xE0) lo hi := by
  intro c hclo hchi d hdlo hdhi
  generalize hv : ((b.toNat - 0xE0) * 64 + (c.toNat - 0x80)) * 64 + (d.toNat - 0x80) = v
  simp only [encodeChar, toNat_ofNat (by omega : v < 0xD800 ∨ _)]
  rw [if_neg (by omega), if_neg (by omega), if_pos (by omega), ofNat_eq (by omega : _ = b.toNat),
    ofNat_eq (by omega : _ = c.toNat), ofNat_eq (by omega : _ = d.toNat)]
  rfl

theorem completes_four {b : UInt8} {lo hi : ℕ} (h : 0xF0 ≤ b.toNat) (h' : b.toNat ≤ 0xF4)
    (hlo : 0x80 ≤ lo) (hhi : hi ≤ 0xBF) (hfirst : b.toNat = 0xF0 → 0x90 ≤ lo)
    (hlast : b.toNat = 0xF4 → hi ≤ 0x8F) : Completes [b] 2 (b.toNat - 0xF0) lo hi := by
  intro c hclo hchi d hdlo hdhi e helo hehi
  generalize hv : (((b.toNat - 0xF0) * 64 + (c.toNat - 0x80)) * 64 + (d.toNat - 0x80)) * 64 +
    (e.toNat - 0x80) = v
  simp only [encodeChar, toNat_ofNat (by omega : v < 0xD800 ∨ _)]
  rw [if_neg (by omega), if_neg (by omega), if_neg (by omega), ofNat_eq (by omega : _ = b.toNat),
    ofNat_eq (by omega : _ = c.toNat), ofNat_eq (by omega : _ = d.toNat),
    ofNat_eq (by omega : _ = e.toNat)]
  rfl

/-- **What a leading byte does**: it is a character of its own, it is refused, or it is completed by
whatever is accepted after it. -/
theorem lead_cases (b : UInt8) :
    (∃ c, lead b.toNat = ([some c], .ground) ∧ encodeChar c = [b]) ∨
      none ∈ (lead b.toNat).1 ∨
      ∃ need acc lo hi, lead b.toNat = ([], .pending need acc lo hi) ∧
        Completes [b] need acc lo hi := by
  have hbyte : b.toNat < 256 := b.toNat_lt
  generalize hlead : lead b.toNat = emitted
  rw [lead] at hlead
  split_ifs at hlead with h1 h2 h3 h4 h5 h6 h7 h8 h9
  all_goals subst hlead
  · exact Or.inl ⟨_, rfl, encodeChar_one h1⟩
  · exact Or.inr (Or.inl List.mem_cons_self)
  · exact Or.inr (Or.inr ⟨_, _, _, _, rfl, completes_two (by omega) h3⟩)
  · have hthree : Completes [b] 1 (b.toNat - 0xE0) 0xA0 0xBF :=
      completes_three (by omega) (by omega) (by omega) (by omega) (by omega) (by omega)
    rw [h4] at hthree
    exact Or.inr (Or.inr ⟨_, _, _, _, rfl, hthree⟩)
  · have hthree : Completes [b] 1 (b.toNat - 0xE0) 0x80 0x9F :=
      completes_three (by omega) (by omega) (by omega) (by omega) (by omega) (by omega)
    rw [h5] at hthree
    exact Or.inr (Or.inr ⟨_, _, _, _, rfl, hthree⟩)
  · exact Or.inr (Or.inr ⟨_, _, _, _, rfl,
      completes_three (by omega) (by omega) (by omega) (by omega) (by omega) (by omega)⟩)
  · have hfour : Completes [b] 2 (b.toNat - 0xF0) 0x90 0xBF :=
      completes_four (by omega) (by omega) (by omega) (by omega) (by omega) (by omega)
    rw [h7] at hfour
    exact Or.inr (Or.inr ⟨_, _, _, _, rfl, hfour⟩)
  · exact Or.inr (Or.inr ⟨_, _, _, _, rfl,
      completes_four (by omega) (by omega) (by omega) (by omega) (by omega) (by omega)⟩)
  · have hfour : Completes [b] 2 (b.toNat - 0xF0) 0x80 0x8F :=
      completes_four (by omega) (by omega) (by omega) (by omega) (by omega) (by omega)
    rw [h9] at hfour
    exact Or.inr (Or.inr ⟨_, _, _, _, rfl, hfour⟩)
  · exact Or.inr (Or.inl List.mem_cons_self)

/-- What the machine has read and not yet emitted. -/
def State.Owes (read : Bytes) : State → Prop
  | .ground => read = []
  | .pending need acc lo hi => Completes read need acc lo hi

/-- What one byte does: it completes a character, it is refused, or it is kept. -/
theorem step_cases {s : State} {read : Bytes} (hs : s.Owes read) (b : UInt8) :
    (∃ c, step s b.toNat = ([some c], .ground) ∧ encodeChar c = read ++ [b]) ∨
      none ∈ (step s b.toNat).1 ∨
      ∃ s', step s b.toNat = ([], s') ∧ s'.Owes (read ++ [b]) := by
  rcases s with - | ⟨need, acc, lo, hi⟩
  · obtain rfl : read = [] := hs
    rcases lead_cases b with hchar | hnone | ⟨need, acc, lo, hi, hpending, hcompletes⟩
    · exact Or.inl hchar
    · exact Or.inr (Or.inl hnone)
    · exact Or.inr (Or.inr ⟨_, hpending, hcompletes⟩)
  · have hs : Completes read need acc lo hi := hs
    by_cases hrange : lo ≤ b.toNat ∧ b.toNat ≤ hi
    · rcases need with - | need
      · exact Or.inl ⟨_, step_last hrange, hs b hrange.1 hrange.2⟩
      · exact Or.inr (Or.inr ⟨_, step_more hrange, hs b hrange.1 hrange.2⟩)
    · refine Or.inr (Or.inl ?_)
      rw [step_refused hrange]
      exact List.mem_cons_self

/-- **Without a refusal, the items are the characters of the bytes.** -/
theorem append_eq_encode {s : State} {read bs : Bytes} {cs : List Char} (hs : s.Owes read)
    (h : decodeItems s bs = cs.map some) : read ++ bs = encode cs := by
  have hnone : none ∉ decodeItems s bs := by
    rw [h]
    simp
  induction bs generalizing s read cs with
  | nil =>
    rcases s with - | ⟨need, acc, lo, hi⟩
    · obtain rfl : cs = [] := List.map_eq_nil_iff.1 h.symm
      obtain rfl : read = [] := hs
      rfl
    · exact absurd List.mem_cons_self hnone
  | cons b bs ih =>
    rw [decodeItems_cons] at h hnone
    rcases step_cases hs b with ⟨c, hstep, hchar⟩ | hmem | ⟨s', hstep, hs'⟩
    · rw [hstep] at h hnone
      obtain ⟨c', cs, rfl⟩ := List.exists_cons_of_ne_nil fun hnil : cs = [] ↦ by simp [hnil] at h
      simp only [List.singleton_append, List.map_cons, List.cons.injEq, Option.some.injEq] at h
      obtain ⟨rfl, hrest⟩ := h
      have howes : State.ground.Owes [] := rfl
      have hread := ih howes hrest fun hmem ↦ hnone (List.mem_append_right _ hmem)
      rw [encode_cons, hchar, ← hread]
      simp
    · exact absurd (List.mem_append_left _ hmem) hnone
    · rw [hstep, List.nil_append] at h hnone
      have hread := ih hs' h hnone
      rw [List.append_assoc] at hread
      exact hread

/-- Nothing is missing from a list of items that are all there. -/
theorem eq_map_some_of_mapM {α : Type*} {items : List (Option α)} {l : List α}
    (h : items.mapM id = some l) : items = l.map some := by
  induction items generalizing l with
  | nil =>
    obtain rfl : [] = l := Option.some.inj h
    rfl
  | cons item items ih =>
    rw [List.mapM_cons] at h
    rcases item with - | a
    · simp at h
    · rcases hrest : items.mapM id with - | rest
      · simp [hrest] at h
      · obtain rfl : a :: rest = l := by simpa [hrest] using h
        rw [ih hrest, List.map_cons]

/-- **The strict decoder accepts exactly the encodings.** -/
theorem decode_eq_some_iff {bs : Bytes} {cs : List Char} :
    decode bs = some cs ↔ bs = encode cs := by
  constructor
  · intro h
    have howes : State.ground.Owes [] := rfl
    exact append_eq_encode howes (eq_map_some_of_mapM h)
  · rintro rfl
    exact decode_encode cs

/-! ### Bytes that can still be completed -/

/-- There is a byte that the machine accepts next. -/
def State.Open : State → Prop
  | .ground => True
  | .pending _ _ lo hi => lo ≤ hi ∧ hi ≤ 0xBF

theorem lead_open (b : ℕ) : (lead b).2.Open := by
  rcases lead_outcome b with ⟨-, h⟩ | h | ⟨need, acc, lo, hi, h, -, hle, hhi, -⟩
  · rw [h]
    trivial
  · rw [h]
    trivial
  · rw [h]
    exact ⟨hle, hhi⟩

theorem step_open (s : State) (b : ℕ) : (step s b).2.Open := by
  rcases s with - | ⟨need, acc, lo, hi⟩
  · exact lead_open b
  · by_cases h : lo ≤ b ∧ b ≤ hi
    · rcases need with - | need
      · rw [step_last h]
        trivial
      · rw [step_more h]
        exact ⟨by decide, le_refl _⟩
    · rw [step_refused h]
      exact lead_open b

/-- The beginning of a character that is not all of it. -/
def Incomplete (bs : Bytes) : Prop :=
  ∃ c, bs <+: encodeChar c ∧ bs.length < (encodeChar c).length

theorem length_encodeChar_le (c : Char) : (encodeChar c).length ≤ 4 := by
  simp only [encodeChar]
  split_ifs <;> simp

theorem Incomplete.length_le {bs : Bytes} (h : Incomplete bs) : bs.length ≤ 3 := by
  obtain ⟨c, -, hlt⟩ := h
  have := length_encodeChar_le c
  omega

theorem incomplete_nil : Incomplete [] :=
  ⟨'a', List.nil_prefix, by decide⟩

/-- A byte after which the bytes begin a character shows that they begin one. -/
theorem incomplete_of_append {bs : Bytes} {b : UInt8} {c : Char} (h : bs ++ [b] <+: encodeChar c) :
    Incomplete bs := by
  refine ⟨c, (List.prefix_append bs [b]).trans h, ?_⟩
  have := h.length_le
  rw [List.length_append, List.length_singleton] at this
  omega

/-- The least byte of each range completes what has been read. -/
theorem Completes.incomplete {read : Bytes} {need acc lo hi : ℕ} (h : Completes read need acc lo hi)
    (hle : lo ≤ hi) (hhi : hi ≤ 0xBF) : Incomplete read := by
  have hlo : (UInt8.ofNat lo).toNat = lo := UInt8.toNat_ofNat_of_lt' (show lo < 256 by omega)
  induction need generalizing read acc lo hi with
  | zero =>
    have hchar := h (UInt8.ofNat lo) hlo.ge (hlo.trans_le hle)
    exact incomplete_of_append (hchar.symm.subst List.prefix_rfl)
  | succ need ih =>
    have hnext := h (UInt8.ofNat lo) hlo.ge (hlo.trans_le hle)
    obtain ⟨c, hprefix, -⟩ := ih hnext (by decide) (le_refl _) rfl
    exact incomplete_of_append hprefix

/-- **What has been read of a character begins one.** -/
theorem State.Owes.incomplete {s : State} {read : Bytes} (h : s.Owes read) (hopen : s.Open) :
    Incomplete read := by
  rcases s with - | ⟨need, acc, lo, hi⟩
  · obtain rfl : read = [] := h
    exact incomplete_nil
  · exact Completes.incomplete h hopen.1 hopen.2

end Utf8
