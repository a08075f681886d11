import Cordon.Lib.Bytes

/-!
# Self-delimiting encoders

An encoder is self-delimiting on a set of values if an encoding and whatever follows it determine
the value and what follows. Fields of one width are self-delimiting, and so is a string behind its
length. A format that writes such fields one after the other is read back one field at a time, so
injectivity of a format is a list of applications of these lemmas, in the order of its fields.

A list of self-delimiting fields is **not** self-delimiting: nothing says where it ends. Behind its
length it is (`counted`), and where nothing follows it need not be (`flatMap_inj`).

The definition is an equation and not a decoder, so nothing has to be read for it to be used. It is
relative to a set of values, because a length fits its field only for some of them; `prod` composes
two encoders, `flatMap` and `counted` go along a list, and `inj` is what a format is used for in the
end.
-/

namespace Bytes

/-! ### Lists of fields -/

/-- A list of fields that are not empty is no longer than its encoding. -/
theorem length_le_of_flatMap {α : Type*} {encode : α → Bytes} (hpos : ∀ a, 0 < (encode a).length)
    (l : List α) : l.length ≤ (l.flatMap encode).length := by
  induction l with
  | nil => exact Nat.zero_le _
  | cons a l ih =>
    have ha := hpos a
    rw [List.flatMap_cons, List.length_append, List.length_cons]
    omega

/-- A field is no longer than the list it stands in. -/
theorem length_le_length_flatMap {α : Type*} {encode : α → Bytes} {l : List α} {a : α}
    (h : a ∈ l) : (encode a).length ≤ (l.flatMap encode).length := by
  obtain ⟨s, t, rfl⟩ := List.append_of_mem h
  simp only [List.flatMap_append, List.flatMap_cons, List.length_append]
  omega

/-! ### Encoders -/

/-- An encoding and what follows it determine the value and what follows it. -/
def SelfDelimiting {α : Type*} (D : Set α) (encode : α → Bytes) : Prop :=
  ∀ ⦃a⦄, a ∈ D → ∀ ⦃b⦄, b ∈ D → ∀ ⦃x y : Bytes⦄, encode a ++ x = encode b ++ y → a = b ∧ x = y

namespace SelfDelimiting

variable {α β : Type*} {D : Set α} {D' : Set β} {encode : α → Bytes} {encode' : β → Bytes}

/-- Nothing has to follow. -/
theorem inj (h : SelfDelimiting D encode) {a b : α} (ha : a ∈ D) (hb : b ∈ D)
    (heq : encode a = encode b) : a = b :=
  (h ha hb (congrArg (· ++ []) heq)).1

/-- Fields of one width. -/
theorem of_length {width : ℕ} (hlength : ∀ a, (encode a).length = width)
    (hinj : Set.InjOn encode D) : SelfDelimiting D encode := by
  intro a ha b hb x y h
  obtain ⟨hhead, hrest⟩ := List.append_inj h (by rw [hlength, hlength])
  exact ⟨hinj ha hb hhead, hrest⟩

/-- Strings behind their length. -/
theorem blob {encode : α → Bytes} (hshort : ∀ a ∈ D, (encode a).length < 2 ^ 32)
    (hinj : Set.InjOn encode D) : SelfDelimiting D fun a ↦ Bytes.blob (encode a) := by
  intro a ha b hb x y h
  obtain ⟨hhead, hrest⟩ := blob_append_inj (hshort a ha) (hshort b hb) h
  exact ⟨hinj ha hb hhead, hrest⟩

/-- Strings behind their length as a little-endian integer of some width. -/
theorem sized {encode : α → Bytes} {width : ℕ} (hshort : ∀ a ∈ D, (encode a).length < 256 ^ width)
    (hinj : Set.InjOn encode D) :
    SelfDelimiting D fun a ↦ leBytes width (encode a).length ++ encode a := by
  intro a ha b hb x y h
  simp only [List.append_assoc] at h
  obtain ⟨hcount, hrest⟩ := List.append_inj h (by rw [length_leBytes, length_leBytes])
  obtain ⟨hhead, htail⟩ := List.append_inj hrest (leBytes_inj (hshort a ha) (hshort b hb) hcount)
  exact ⟨hinj ha hb hhead, htail⟩

/-- One field after the other. -/
theorem prod (h : SelfDelimiting D encode) (h' : SelfDelimiting D' encode') :
    SelfDelimiting (D ×ˢ D') fun p ↦ encode p.1 ++ encode' p.2 := by
  rintro ⟨a, a'⟩ ⟨ha, ha'⟩ ⟨b, b'⟩ ⟨hb, hb'⟩ x y heq
  simp only [List.append_assoc] at heq
  obtain ⟨hfirst, hrest⟩ := h ha hb heq
  obtain ⟨hsecond, hend⟩ := h' ha' hb' hrest
  exact ⟨Prod.ext hfirst hsecond, hend⟩

/-- Lists of one length. -/
theorem flatMap (h : SelfDelimiting D encode) {l l' : List α} (hl : ∀ a ∈ l, a ∈ D)
    (hl' : ∀ a ∈ l', a ∈ D) (hlength : l.length = l'.length) {x y : Bytes}
    (heq : l.flatMap encode ++ x = l'.flatMap encode ++ y) : l = l' ∧ x = y := by
  induction l generalizing l' with
  | nil =>
    obtain rfl := List.length_eq_zero_iff.1 hlength.symm
    exact ⟨rfl, heq⟩
  | cons a l ih =>
    obtain ⟨b, l', rfl⟩ := List.exists_cons_of_length_eq_add_one hlength.symm
    obtain ⟨ha, hl⟩ := List.forall_mem_cons.1 hl
    obtain ⟨hb, hl'⟩ := List.forall_mem_cons.1 hl'
    rw [List.flatMap_cons, List.flatMap_cons, List.append_assoc, List.append_assoc] at heq
    obtain ⟨hfirst, hrest⟩ := h ha hb heq
    obtain ⟨hsecond, hend⟩ := ih hl hl' (by simpa using hlength) hrest
    exact ⟨congrArg₂ List.cons hfirst hsecond, hend⟩

/-- **Lists with nothing behind them**: fields that are not empty are read back until nothing is
left. -/
theorem flatMap_inj (h : SelfDelimiting D encode) (hpos : ∀ a, 0 < (encode a).length)
    {l l' : List α} (hl : ∀ a ∈ l, a ∈ D) (hl' : ∀ a ∈ l', a ∈ D)
    (heq : l.flatMap encode = l'.flatMap encode) : l = l' := by
  have hnonempty : ∀ a (l : List α), [] ≠ (a :: l).flatMap encode := by
    intro a l hnil
    have hlength := congrArg List.length hnil
    have ha := hpos a
    rw [List.flatMap_cons, List.length_append, List.length_nil] at hlength
    omega
  induction l generalizing l' with
  | nil =>
    rcases l' with - | ⟨b, l'⟩
    · rfl
    · exact absurd heq (hnonempty b l')
  | cons a l ih =>
    rcases l' with - | ⟨b, l'⟩
    · exact absurd heq.symm (hnonempty a l)
    · obtain ⟨ha, hl⟩ := List.forall_mem_cons.1 hl
      obtain ⟨hb, hl'⟩ := List.forall_mem_cons.1 hl'
      rw [List.flatMap_cons, List.flatMap_cons] at heq
      obtain ⟨hfirst, hrest⟩ := h ha hb heq
      exact congrArg₂ List.cons hfirst (ih hl hl' hrest)

/-- **Lists behind their length.** -/
theorem counted (h : SelfDelimiting D encode) :
    SelfDelimiting {l : List α | l.length < 2 ^ 32 ∧ ∀ a ∈ l, a ∈ D}
      fun l ↦ beBytes 4 l.length ++ l.flatMap encode := by
  rintro l ⟨hshort, hl⟩ l' ⟨hshort', hl'⟩ x y heq
  simp only [List.append_assoc] at heq
  obtain ⟨hcount, hrest⟩ := List.append_inj heq (by rw [length_beBytes, length_beBytes])
  have hlength : l.length = l'.length :=
    beBytes_inj (by norm_num at hshort ⊢; omega) (by norm_num at hshort' ⊢; omega) hcount
  exact h.flatMap hl hl' hlength hrest

/-- A list of fields that are not empty is longer than its fields and than it has fields, so it is
enough that it is not too long itself. -/
theorem counted_of_short (h : SelfDelimiting {a | (encode a).length < 2 ^ 32} encode)
    (hpos : ∀ a, 0 < (encode a).length) :
    SelfDelimiting {l : List α | (l.flatMap encode).length < 2 ^ 32}
      fun l ↦ beBytes 4 l.length ++ l.flatMap encode := by
  have hdomain : ∀ l : List α, (l.flatMap encode).length < 2 ^ 32 →
      l.length < 2 ^ 32 ∧ ∀ a ∈ l, (encode a).length < 2 ^ 32 := by
    intro l hl
    have hcount := length_le_of_flatMap hpos l
    exact ⟨hcount.trans_lt hl, fun a ha ↦ (length_le_length_flatMap ha).trans_lt hl⟩
  intro l hl l' hl' x y heq
  exact h.counted (hdomain l hl) (hdomain l' hl') heq

end SelfDelimiting

end Bytes
