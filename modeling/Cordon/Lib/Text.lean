import Cordon.Lib.Utf8
import Mathlib.Data.List.TakeWhile

/-!
# Strings as the standard library sees them: bytes, lines, blank lines, hexadecimal

`asBytes` is the byte view of a string that digests and files are computed over, and it is
injective, so two equal byte views are one string.

`lines` follows the usual contract: a line feed ends a line, the last line need not have one, and a
carriage return is dropped only together with the line feed after it. `lines_append_newline` is the
one fact proofs need: a text that starts with a complete line splits off exactly that line.

Hexadecimal is written in lower case and read in either case, so reading undoes writing
(`hexDecode_hexEncode`) while writing does not undo reading.

The rest of the module follows those functions of the standard library whose results are compared
with one another: trimming, splitting once, cutting at separators, and lowering. What depends on
tables of Unicode is asked for on ASCII only (`LowersCase`), and is otherwise a parameter of whoever
uses it.
-/

namespace Text

/-! ### Bytes of a string -/

/-- The bytes of a string. -/
def asBytes (s : String) : Bytes :=
  Utf8.encode s.toList

theorem asBytes_injective : Function.Injective asBytes := fun _ _ h ↦
  String.toList_inj.1 (Utf8.encode_injective h)

/-- Whether the bytes of a text can be cut after so many of them, between two characters. -/
def isCharBoundary (bs : Bytes) (n : ℕ) : Bool :=
  match bs[n]? with
  | some b => b < 0x80 || 0xC0 ≤ b
  | none => n = bs.length

/-! ### White space and blank lines -/

/-- The Unicode `White_Space` property. -/
def isWhitespace (c : Char) : Bool :=
  let v := c.toNat
  (9 ≤ v && v ≤ 13) || v == 0x20 || v == 0x85 || v == 0xA0 || v == 0x1680 ||
    (0x2000 ≤ v && v ≤ 0x200A) || v == 0x2028 || v == 0x2029 || v == 0x202F || v == 0x205F ||
    v == 0x3000

/-- Whether nothing is left of a text once white space is trimmed from both ends. -/
def isBlank (cs : List Char) : Bool :=
  cs.all isWhitespace

/-- A text without the white space at its two ends. -/
def trim (cs : List Char) : List Char :=
  ((cs.dropWhile isWhitespace).reverse.dropWhile isWhitespace).reverse

/-- A text without white space has none to lose. -/
theorem trim_eq_self {cs : List Char} (h : ∀ c ∈ cs, isWhitespace c = false) : trim cs = cs := by
  have hdrop : ∀ l : List Char, (∀ c ∈ l, isWhitespace c = false) →
      l.dropWhile isWhitespace = l := by
    intro l hl
    rcases l with - | ⟨c, l⟩
    · rfl
    · rw [List.dropWhile_cons_of_neg (by simp [hl c List.mem_cons_self])]
  rw [trim, hdrop cs h, hdrop cs.reverse fun c hc ↦ h c (List.mem_reverse.1 hc),
    List.reverse_reverse]

/-- White space at the end is trimmed away. -/
theorem trim_append_whitespace (cs : List Char) {c : Char} (hc : isWhitespace c) :
    trim (cs ++ [c]) = trim cs := by
  rw [trim, trim]
  by_cases hall : ∀ d ∈ cs, isWhitespace d
  · have hcs : ∀ d ∈ cs ++ [c], isWhitespace d := by
      simpa [or_imp, forall_and] using And.intro hall hc
    rw [List.dropWhile_eq_nil_iff.2 hcs, List.dropWhile_eq_nil_iff.2 hall]
  · have hne : ¬(cs.dropWhile isWhitespace).isEmpty := by
      rw [List.isEmpty_iff, List.dropWhile_eq_nil_iff]
      exact hall
    rw [List.dropWhile_append, if_neg hne, List.reverse_append, List.reverse_singleton,
      List.singleton_append, List.dropWhile_cons_of_pos hc]

/-- **White space at both ends** is what is trimmed away. -/
theorem trim_eq_of_ends {pre suf cs t u : List Char} {c d : Char}
    (hpre : ∀ a ∈ pre, isWhitespace a = true) (hsuf : ∀ a ∈ suf, isWhitespace a = true)
    (hfront : cs = c :: t) (hc : isWhitespace c = false) (hback : cs = u ++ [d])
    (hd : isWhitespace d = false) : trim (pre ++ cs ++ suf) = cs := by
  have hdrop : (pre ++ cs ++ suf).dropWhile isWhitespace = cs ++ suf := by
    rw [List.append_assoc, List.dropWhile_append_of_pos hpre, hfront]
    exact List.dropWhile_cons_of_neg (by simpa using hc)
  have hreverse : (suf.reverse ++ cs.reverse).dropWhile isWhitespace = cs.reverse := by
    rw [List.dropWhile_append_of_pos fun a ha ↦ hsuf a (List.mem_reverse.1 ha), hback,
      List.reverse_append]
    exact List.dropWhile_cons_of_neg (by simpa using hd)
  rw [trim, hdrop, List.reverse_append, hreverse, List.reverse_reverse]

/-- A text without white space, out of white space at both ends. -/
theorem trim_padded {pre suf cs : List Char} (hpre : ∀ a ∈ pre, isWhitespace a = true)
    (hsuf : ∀ a ∈ suf, isWhitespace a = true) (hne : cs ≠ [])
    (hcs : ∀ a ∈ cs, isWhitespace a = false) : trim (pre ++ cs ++ suf) = cs := by
  obtain ⟨c, t, hfront⟩ := List.exists_cons_of_ne_nil hne
  obtain ⟨u, d, hback⟩ := (List.eq_nil_or_concat cs).resolve_left hne
  rw [List.concat_eq_append] at hback
  exact trim_eq_of_ends hpre hsuf hfront (hcs c (hfront ▸ List.mem_cons_self)) hback
    (hcs d (hback ▸ by simp))

/-- Letters and digits of ASCII are between `0` and `z`. -/
theorem toNat_of_isAlphanum {c : Char} (h : c.isAlphanum = true) :
    48 ≤ c.toNat ∧ c.toNat ≤ 122 := by
  have hletter : (decide ('A'.val ≤ c.val ∧ c.val ≤ 'Z'.val) ||
      (decide ('a'.val ≤ c.val) && decide (c.val ≤ 'z'.val)) ||
      (decide ('0'.val ≤ c.val) && decide (c.val ≤ '9'.val))) = true := h
  have htoNat : c.toNat = c.val.toNat := rfl
  simp [UInt32.le_iff_toNat_le] at hletter
  omega

theorem isWhitespace_of_isAlphanum {c : Char} (h : c.isAlphanum = true) :
    isWhitespace c = false := by
  have hrange := toNat_of_isAlphanum h
  simp only [isWhitespace]
  simp
  omega

/-! ### Lines -/

/-- Drop one trailing carriage return. -/
def stripCr (cs : List Char) : List Char :=
  if cs.getLast? = some '\r' then cs.dropLast else cs

/-- The lines of a text, given the characters of the current line read so far, last first. -/
def linesFrom : List Char → List Char → List (List Char)
  | [], [] => []
  | acc@(_ :: _), [] => [acc.reverse]
  | acc, '\n' :: cs => stripCr acc.reverse :: linesFrom [] cs
  | acc, c :: cs => linesFrom (c :: acc) cs

/-- The lines of a text. -/
def lines (cs : List Char) : List (List Char) :=
  linesFrom [] cs

@[simp] theorem lines_nil : lines [] = [] := rfl

theorem linesFrom_append_newline (acc l rest : List Char) (hl : '\n' ∉ l) :
    linesFrom acc (l ++ '\n' :: rest) = stripCr (acc.reverse ++ l) :: linesFrom [] rest := by
  induction l generalizing acc with
  | nil => simp [linesFrom]
  | cons c l ih =>
    have hc : c ≠ '\n' := fun h ↦ hl (h ▸ List.mem_cons_self)
    have hl' : '\n' ∉ l := fun h ↦ hl (List.mem_cons_of_mem _ h)
    rw [List.cons_append, linesFrom, ih _ hl']
    · simp
    · exact fun h ↦ hc h

/-- **A complete first line splits off**, with the carriage return before its line feed. -/
theorem lines_append_newline {l : List Char} (rest : List Char) (hl : '\n' ∉ l) :
    lines (l ++ '\n' :: rest) = stripCr l :: lines rest := by
  simpa [lines] using linesFrom_append_newline [] l rest hl

theorem linesFrom_of_not_mem (acc l : List Char) (hl : '\n' ∉ l) (hne : acc ≠ [] ∨ l ≠ []) :
    linesFrom acc l = [acc.reverse ++ l] := by
  induction l generalizing acc with
  | nil =>
    rcases acc with - | ⟨a, acc⟩
    · simp at hne
    · simp [linesFrom]
  | cons c l ih =>
    have hc : c ≠ '\n' := fun h ↦ hl (h ▸ List.mem_cons_self)
    have hl' : '\n' ∉ l := fun h ↦ hl (List.mem_cons_of_mem _ h)
    rw [linesFrom, ih _ hl' (Or.inl (by simp))]
    · simp
    · exact fun h ↦ hc h

/-- A last line without a line feed is a line too. -/
theorem lines_of_not_mem {l : List Char} (hl : '\n' ∉ l) (hne : l ≠ []) : lines l = [l] := by
  simpa [lines] using linesFrom_of_not_mem [] l hl (Or.inr hne)

theorem linesFrom_append_newline_append (acc a b : List Char) :
    linesFrom acc (a ++ '\n' :: b) = linesFrom acc (a ++ ['\n']) ++ lines b := by
  induction a generalizing acc with
  | nil => simp [linesFrom, lines]
  | cons c a ih =>
    by_cases hc : c = '\n'
    · subst hc
      simp only [List.cons_append, linesFrom, ih]
    · rw [List.cons_append, List.cons_append, linesFrom, linesFrom, ih]
      · exact hc
      · exact hc

/-- A list that is empty or ends in `c`: what stands before a line, with `c` the line feed. -/
def EndsWith {α : Type*} (c : α) (a : List α) : Prop :=
  a = [] ∨ ∃ a', a = a' ++ [c]

theorem EndsWith.drop {α : Type*} {c : α} {a : List α} (h : EndsWith c a) (n : ℕ) :
    EndsWith c (a.drop n) := by
  rcases h with rfl | ⟨a', rfl⟩
  · exact Or.inl (by simp)
  · by_cases hn : n ≤ a'.length
    · exact Or.inr ⟨a'.drop n, List.drop_append_of_le_length hn⟩
    · exact Or.inl (List.drop_eq_nil_of_le (by simp; omega))

/-- **Lines split at a line boundary.** -/
theorem lines_append_of_endsWith {a : List Char} (h : EndsWith '\n' a) (b : List Char) :
    lines (a ++ b) = lines a ++ lines b := by
  rcases h with rfl | ⟨a', rfl⟩
  · simp
  · simpa [lines] using linesFrom_append_newline_append [] a' b

/-- Every text is complete lines and a last line that is not complete. -/
theorem exists_last_line (a : List Char) : ∃ b l, a = b ++ l ∧ EndsWith '\n' b ∧ '\n' ∉ l := by
  induction a using List.reverseRecOn with
  | nil => exact ⟨[], [], rfl, Or.inl rfl, by simp⟩
  | append_singleton a c ih =>
    by_cases hc : c = '\n'
    · exact ⟨a ++ [c], [], by simp, Or.inr ⟨a, by rw [hc]⟩, by simp⟩
    · obtain ⟨b, l, rfl, hb, hl⟩ := ih
      exact ⟨b, l ++ [c], by simp, hb, by simp [hl, Ne.symm hc]⟩

/-- The last line of a text that is not blank. -/
def lastLine (text : List Char) : Option (List Char) :=
  (lines text).reverse.find? fun l ↦ !isBlank l

theorem lastLine_append {a b l : List Char} (h : EndsWith '\n' a) (hb : lines b = [l])
    (hl : isBlank l = false) : lastLine (a ++ b) = some l := by
  rw [lastLine, lines_append_of_endsWith h, hb, List.reverse_append]
  simp [hl]

/-- Lossy decoding splits at a line boundary too. -/
theorem decodeLossy_append_of_endsWith {a : Bytes} (h : EndsWith Utf8.newline a) (b : Bytes) :
    Utf8.decodeLossy (a ++ b) = Utf8.decodeLossy a ++ Utf8.decodeLossy b ∧
      EndsWith '\n' (Utf8.decodeLossy a) := by
  rcases h with rfl | ⟨a', rfl⟩
  · exact ⟨rfl, Or.inl rfl⟩
  · have hend : Utf8.decodeLossy (a' ++ [Utf8.newline]) = Utf8.decodeLossy a' ++ ['\n'] :=
      Utf8.decodeLossy_append_newline a' []
    refine ⟨?_, Or.inr ⟨_, hend⟩⟩
    rw [hend, List.append_assoc, List.append_assoc]
    exact Utf8.decodeLossy_append_newline a' b

/-! ### The order of texts -/

/-- Between texts of one length, what follows does not matter. -/
theorem append_lt_append {α : Type} [LT α] {a b : List α} (hlen : a.length = b.length)
    (h : a < b) (x y : List α) : a ++ x < b ++ y := by
  induction h with
  | nil => simp at hlen
  | cons _ ih => exact List.Lex.cons (ih (by simpa using hlen))
  | rel h => exact List.Lex.rel h

/-- A common beginning does not matter. -/
theorem append_left_lt {α : Type} [LT α] (p : List α) {a b : List α} (h : a < b) :
    p ++ a < p ++ b := by
  induction p with
  | nil => exact h
  | cons c p ih => exact List.Lex.cons ih

/-! ### Cutting a text at a separator -/

/-- What stands before the first separator, and after it, is given by the text. -/
theorem cut_inj {α : Type*} {c : α} {x x' z z' : List α} (hx : c ∉ x) (hx' : c ∉ x')
    (h : x ++ c :: z = x' ++ c :: z') : x = x' ∧ z = z' := by
  induction x generalizing x' with
  | nil =>
    rcases x' with - | ⟨d, x'⟩
    · exact ⟨rfl, (List.cons.inj h).2⟩
    · exact absurd ((List.cons.inj h).1 ▸ List.mem_cons_self) hx'
  | cons d x ih =>
    rcases x' with - | ⟨d', x'⟩
    · exact absurd ((List.cons.inj h).1.symm ▸ List.mem_cons_self) hx
    · obtain ⟨rfl, hrest⟩ := List.cons.inj h
      obtain ⟨rfl, hz⟩ := ih (fun hmem ↦ hx (List.mem_cons_of_mem _ hmem))
        (fun hmem ↦ hx' (List.mem_cons_of_mem _ hmem)) hrest
      exact ⟨rfl, hz⟩

/-- What stands after the last separator, and before it, is given by the text. -/
theorem cut_last_inj {α : Type*} {c : α} {x x' z z' : List α} (hz : c ∉ z) (hz' : c ∉ z')
    (h : x ++ c :: z = x' ++ c :: z') : x = x' ∧ z = z' := by
  have hreverse : z.reverse ++ c :: x.reverse = z'.reverse ++ c :: x'.reverse := by
    simpa using congrArg List.reverse h
  obtain ⟨hzz, hxx⟩ := cut_inj (mt List.mem_reverse.1 hz) (mt List.mem_reverse.1 hz') hreverse
  exact ⟨List.reverse_inj.1 hxx, List.reverse_inj.1 hzz⟩

/-- Where the parts may hold separators themselves, two ways of cutting a text differ by a piece
that moves from one side of the separator to the other. -/
theorem cut_cases {α : Type*} {c : α} {x x' z z' : List α} (h : x ++ c :: z = x' ++ c :: z') :
    (x = x' ∧ z = z') ∨ (∃ s, x' = x ++ c :: s ∧ z = s ++ c :: z') ∨
      ∃ s, x = x' ++ c :: s ∧ z' = s ++ c :: z := by
  have hlonger : ∀ {x x' z z' s : List α}, x' = x ++ s → c :: z = s ++ c :: z' →
      (x = x' ∧ z = z') ∨ ∃ s, x' = x ++ c :: s ∧ z = s ++ c :: z' := by
    intro x x' z z' s hx hz
    rcases s with - | ⟨d, s⟩
    · exact Or.inl ⟨by rw [hx, List.append_nil], (List.cons.inj hz).2⟩
    · obtain ⟨rfl, hrest⟩ := List.cons.inj hz
      exact Or.inr ⟨s, hx, hrest⟩
  rcases List.append_eq_append_iff.1 h with ⟨s, hx, hz⟩ | ⟨s, hx, hz⟩
  · exact (hlonger hx hz).imp_right Or.inl
  · rcases hlonger hx hz with ⟨hx, hz⟩ | hs
    · exact Or.inl ⟨hx.symm, hz.symm⟩
    · exact Or.inr (Or.inr hs)

/-- A text cut at the first separator. -/
def splitOnce (c : Char) (cs : List Char) : Option (List Char × List Char) :=
  match cs.dropWhile (· != c) with
  | [] => none
  | _ :: tail => some (cs.takeWhile (· != c), tail)

/-- A text cut at the last separator. -/
def rsplitOnce (c : Char) (cs : List Char) : Option (List Char × List Char) :=
  (splitOnce c cs.reverse).map fun pieces ↦ (pieces.2.reverse, pieces.1.reverse)

theorem splitOnce_of_not_mem {c : Char} {cs : List Char} (h : c ∉ cs) : splitOnce c cs = none := by
  have hdrop : cs.dropWhile (· != c) = [] :=
    List.dropWhile_eq_nil_iff.2 fun d hd ↦ bne_iff_ne.2 fun heq ↦ h (heq ▸ hd)
  rw [splitOnce, hdrop]

theorem splitOnce_append {c : Char} {a : List Char} (h : c ∉ a) (b : List Char) :
    splitOnce c (a ++ c :: b) = some (a, b) := by
  have hne : ∀ d ∈ a, (d != c) = true := fun d hd ↦ bne_iff_ne.2 fun heq ↦ h (heq ▸ hd)
  have hdrop : (a ++ c :: b).dropWhile (· != c) = c :: b := by
    rw [List.dropWhile_append_of_pos hne, List.dropWhile_cons_of_neg (by simp)]
  have htake : (a ++ c :: b).takeWhile (· != c) = a := by
    rw [List.takeWhile_append_of_pos hne, List.takeWhile_cons_of_neg (by simp), List.append_nil]
  rw [splitOnce, hdrop, htake]

theorem rsplitOnce_of_not_mem {c : Char} {cs : List Char} (h : c ∉ cs) :
    rsplitOnce c cs = none := by
  rw [rsplitOnce, splitOnce_of_not_mem (mt List.mem_reverse.1 h), Option.map_none]

theorem rsplitOnce_append {c : Char} {b : List Char} (h : c ∉ b) (a : List Char) :
    rsplitOnce c (a ++ c :: b) = some (a, b) := by
  have hreverse : (a ++ c :: b).reverse = b.reverse ++ c :: a.reverse := by
    simp
  rw [rsplitOnce, hreverse, splitOnce_append (mt List.mem_reverse.1 h)]
  simp

/-- Cutting takes the separator out and nothing else. -/
theorem eq_of_splitOnce {c : Char} {cs a b : List Char} (h : splitOnce c cs = some (a, b)) :
    cs = a ++ c :: b := by
  by_cases hmem : c ∈ cs
  · obtain ⟨x, y, rfl, hx⟩ := List.eq_append_cons_of_mem hmem
    rw [splitOnce_append hx, Option.some.injEq, Prod.mk.injEq] at h
    rw [h.1, h.2]
  · rw [splitOnce_of_not_mem hmem] at h
    cases h

theorem eq_of_rsplitOnce {c : Char} {cs a b : List Char} (h : rsplitOnce c cs = some (a, b)) :
    cs = a ++ c :: b := by
  obtain ⟨⟨y, x⟩, hsplit, hpieces⟩ := Option.map_eq_some_iff.1 h
  obtain ⟨rfl, rfl⟩ := Prod.mk.inj hpieces
  have hreverse := congrArg List.reverse (eq_of_splitOnce hsplit)
  simpa using hreverse

/-! ### Joining with a doubled separator -/

section Joined

variable {α : Type*} (c : α)

/-- The second of two pairs is cut further to the right: by one separator character, or by a piece
with a doubled separator before it. -/
def CutFurther (a x b y : List α) : Prop :=
  (b = a ++ [c] ∧ x = c :: y) ∨ ∃ m, b = a ++ c :: c :: m ∧ x = m ++ c :: c :: y

/-- Two pairs are the same, or one is cut further to the right. -/
def SameCut (a x b y : List α) : Prop :=
  (a = b ∧ x = y) ∨ CutFurther c a x b y ∨ CutFurther c b y a x

/-- **Two pairs joined by a doubled separator are one text exactly if they are the same or a piece
moves across the separator.** -/
theorem joined_eq_iff {a x b y : List α} :
    a ++ c :: c :: x = b ++ c :: c :: y ↔ SameCut c a x b y := by
  have hlonger : ∀ {a x b y t : List α}, b = a ++ t → c :: c :: x = t ++ c :: c :: y →
      (a = b ∧ x = y) ∨ CutFurther c a x b y := by
    intro a x b y t hb hx
    rcases t with - | ⟨d, - | ⟨e, m⟩⟩
    · exact Or.inl ⟨by simpa using hb.symm, by simpa using hx⟩
    · rw [List.singleton_append, List.cons.injEq, List.cons.injEq] at hx
      exact Or.inr (Or.inl ⟨hx.1 ▸ hb, hx.2.2⟩)
    · rw [List.cons_append, List.cons_append, List.cons.injEq, List.cons.injEq] at hx
      exact Or.inr (Or.inr ⟨m, by rw [hb, ← hx.1, ← hx.2.1], hx.2.2⟩)
  have hjoins : ∀ {a x b y : List α}, CutFurther c a x b y →
      a ++ c :: c :: x = b ++ c :: c :: y := by
    rintro a x b y (⟨rfl, rfl⟩ | ⟨m, rfl, rfl⟩)
    · simp
    · simp
  constructor
  · intro h
    rcases List.append_eq_append_iff.1 h with ⟨t, hb, hx⟩ | ⟨t, ha, hy⟩
    · exact (hlonger hb hx).imp_right Or.inl
    · rcases hlonger ha hy with ⟨hba, hyx⟩ | hfurther
      · exact Or.inl ⟨hba.symm, hyx.symm⟩
      · exact Or.inr (Or.inr hfurther)
  · rintro (⟨rfl, rfl⟩ | h | h)
    · rfl
    · exact hjoins h
    · exact (hjoins h).symm

/-- The second of two triples is cut further to the right at the first separator, and what is left
is cut in two as the pairs are. -/
def CutFurther₃ (a x p b y q : List α) : Prop :=
  (b = a ++ [c] ∧ SameCut c x p (c :: y) q) ∨
    ∃ m, b = a ++ c :: c :: m ∧ SameCut c x p m (y ++ c :: c :: q)

/-- Two triples have the same first part and the same cut of the rest, or one is cut further to the
right at the first separator. -/
def SameCut₃ (a x p b y q : List α) : Prop :=
  (a = b ∧ SameCut c x p y q) ∨ CutFurther₃ c a x p b y q ∨ CutFurther₃ c b y q a x p

/-- **So it is with three parts.** -/
theorem joined₃_eq_iff {a x p b y q : List α} :
    a ++ c :: c :: (x ++ c :: c :: p) = b ++ c :: c :: (y ++ c :: c :: q) ↔
      SameCut₃ c a x p b y q := by
  have hfurther : ∀ {a x p b y q : List α},
      CutFurther c a (x ++ c :: c :: p) b (y ++ c :: c :: q) ↔ CutFurther₃ c a x p b y q := by
    intro a x p b y q
    simp only [CutFurther, CutFurther₃, ← joined_eq_iff, List.cons_append]
  rw [joined_eq_iff, SameCut, SameCut₃, hfurther, hfurther, joined_eq_iff]

end Joined

/-! ### Numbers in decimal -/

theorem toString_nat_injective : Function.Injective fun n : ℕ ↦ toString n := by
  intro m n h
  have hdigits : Nat.toDigits 10 m = Nat.toDigits 10 n := by
    simp only [Nat.toString_eq_ofList_toDigits] at h
    exact String.ofList_injective h
  have hvalue := congrArg (fun digits ↦ Nat.ofDigitChars 10 digits 0) hdigits
  simpa using hvalue

theorem isDigit_of_mem_toString {n : ℕ} {c : Char} (h : c ∈ (toString n).toList) :
    c.isDigit = true := by
  rw [Nat.toString_eq_ofList_toDigits, String.toList_ofList] at h
  exact Nat.isDigit_of_mem_toDigits (by decide) (by decide) h

/-! ### Hexadecimal -/

/-- The lower-case digit of a value below sixteen. -/
def hexDigit (n : ℕ) : Char :=
  if n < 10 then Char.ofNat (48 + n) else Char.ofNat (87 + n)

/-- The value of a hexadecimal digit, in either case. -/
def hexValue (c : Char) : Option ℕ :=
  let v := c.toNat
  if 48 ≤ v ∧ v ≤ 57 then some (v - 48)
  else if 97 ≤ v ∧ v ≤ 102 then some (v - 87)
  else if 65 ≤ v ∧ v ≤ 70 then some (v - 55)
  else none

/-- The characters of a byte string in lower-case hexadecimal. -/
def hexChars (bs : Bytes) : List Char :=
  bs.flatMap fun b ↦ [hexDigit (b.toNat / 16), hexDigit (b.toNat % 16)]

/-- A byte string in lower-case hexadecimal. -/
def hexEncode (bs : Bytes) : String :=
  String.ofList (hexChars bs)

/-- Read pairs of hexadecimal digits; an odd digit or a foreign character refuses the text. -/
def hexDecodeChars : List Char → Option Bytes
  | [] => some []
  | [_] => none
  | c :: d :: cs => do
    let hi ← hexValue c
    let lo ← hexValue d
    let rest ← hexDecodeChars cs
    return UInt8.ofNat (hi * 16 + lo) :: rest

/-- The byte string a hexadecimal text denotes. -/
def hexDecode (s : String) : Option Bytes :=
  hexDecodeChars s.toList

/-- A character below 256 as a debugging format prints it: in quotes, with escapes for what is not
printable. -/
def debugLatin (n : ℕ) : String :=
  let escaped :=
    if n = 0 then "\\0"
    else if n = 9 then "\\t"
    else if n = 10 then "\\n"
    else if n = 13 then "\\r"
    else if n = 39 then "\\'"
    else if n = 92 then "\\\\"
    else if n < 32 ∨ 127 ≤ n ∧ n ≤ 160 ∨ n = 173 then
      "\\u\x7b" ++ String.ofList (Nat.toDigits 16 n) ++ "\x7d"
    else String.singleton (Char.ofNat n)
  "'" ++ escaped ++ "'"

/-- The first byte that is no hexadecimal digit, with its position. -/
def foreignByte (bytes : Bytes) : Option (UInt8 × ℕ) :=
  bytes.zipIdx.find? fun b ↦ (hexValue (Char.ofNat b.1.toNat)).isNone

/-- Why a text is not hexadecimal: an odd digit is reported before a foreign byte. -/
def hexError (s : String) : String :=
  if (asBytes s).length % 2 = 1 then "Odd number of digits"
  else
    match foreignByte (asBytes s) with
    | some (b, index) =>
      "Invalid character " ++ debugLatin b.toNat ++ " at position " ++ toString index
    | none => ""

@[simp] theorem toList_hexEncode (bs : Bytes) : (hexEncode bs).toList = hexChars bs := by
  simp [hexEncode]

@[simp] theorem hexChars_nil : hexChars [] = [] := rfl

@[simp]
theorem hexChars_cons (b : UInt8) (bs : Bytes) :
    hexChars (b :: bs) = hexDigit (b.toNat / 16) :: hexDigit (b.toNat % 16) :: hexChars bs :=
  rfl

theorem hexValue_hexDigit {n : ℕ} (hn : n < 16) : hexValue (hexDigit n) = some n := by
  revert n
  decide

theorem hexDecodeChars_hexChars (bs : Bytes) : hexDecodeChars (hexChars bs) = some bs := by
  induction bs with
  | nil => rfl
  | cons b bs ih =>
    have hb : b.toNat < 256 := b.toNat_lt
    rw [hexChars_cons, hexDecodeChars, hexValue_hexDigit (by omega), hexValue_hexDigit (by omega),
      ih]
    have hsum : b.toNat / 16 * 16 + b.toNat % 16 = b.toNat := by omega
    show some (UInt8.ofNat (b.toNat / 16 * 16 + b.toNat % 16) :: bs) = some (b :: bs)
    rw [hsum, UInt8.ofNat_toNat]

/-- **Reading undoes writing.** -/
theorem hexDecode_hexEncode (bs : Bytes) : hexDecode (hexEncode bs) = some bs := by
  rw [hexDecode, toList_hexEncode, hexDecodeChars_hexChars]

theorem length_hexChars (bs : Bytes) : (hexChars bs).length = 2 * bs.length := by
  induction bs with
  | nil => rfl
  | cons b bs ih =>
    rw [hexChars_cons, List.length_cons, List.length_cons, List.length_cons, ih]
    omega

/-- What holds of the sixteen digits holds of every character of a hexadecimal text. -/
theorem forall_mem_hexChars {P : Char → Prop} (h : ∀ n < 16, P (hexDigit n)) {bs : Bytes} {c : Char}
    (hc : c ∈ hexChars bs) : P c := by
  obtain ⟨b, -, hb⟩ := List.mem_flatMap.1 hc
  have hb16 : b.toNat / 16 < 16 := by
    have := b.toNat_lt
    omega
  rcases List.mem_cons.1 hb with rfl | hb
  · exact h _ hb16
  · obtain rfl := List.mem_singleton.1 hb
    exact h _ (Nat.mod_lt _ (by decide))

theorem isSome_hexValue_of_mem_hexChars {bs : Bytes} {c : Char} (h : c ∈ hexChars bs) :
    (hexValue c).isSome :=
  forall_mem_hexChars (P := fun c ↦ (hexValue c).isSome) (by decide) h

/-- Hexadecimal is written in lower case. -/
theorem map_toLower_hexChars {bs : Bytes} {cs : List Char} (h : ∀ c ∈ cs, c ∈ hexChars bs) :
    cs.map Char.toLower = cs :=
  (List.map_congr_left fun _ hc ↦
    forall_mem_hexChars (P := fun c ↦ c.toLower = c) (by decide) (h _ hc)).trans (List.map_id _)

/-- Hexadecimal has no white space. -/
theorem trim_hexChars (bs : Bytes) : trim (hexChars bs) = hexChars bs :=
  trim_eq_self fun _ hc ↦ forall_mem_hexChars (P := fun c ↦ isWhitespace c = false) (by decide) hc

theorem hexEncode_injective : Function.Injective hexEncode := fun _ _ h ↦ by
  have h' := congrArg hexDecode h
  rwa [hexDecode_hexEncode, hexDecode_hexEncode, Option.some.injEq] at h'

@[simp]
theorem isEmpty_hexEncode (bs : Bytes) : (hexEncode bs).isEmpty = bs.isEmpty := by
  have hempty : hexEncode [] = "" := rfl
  rw [Bool.eq_iff_iff, String.isEmpty_iff, List.isEmpty_iff, ← hempty, hexEncode_injective.eq_iff]

/-- Every hexadecimal digit is one byte. -/
theorem encodeChar_hexDigit_length {n : ℕ} (hn : n < 16) :
    (Utf8.encodeChar (hexDigit n)).length = 1 := by
  revert n
  decide

/-- A byte string takes two bytes of hexadecimal for each of its own. -/
theorem length_asBytes_hexEncode (bs : Bytes) :
    (asBytes (hexEncode bs)).length = 2 * bs.length := by
  rw [asBytes, toList_hexEncode]
  induction bs with
  | nil => rfl
  | cons b bs ih =>
    have hb : b.toNat < 256 := b.toNat_lt
    rw [hexChars_cons, Utf8.encode_cons, Utf8.encode_cons, List.length_append, List.length_append,
      encodeChar_hexDigit_length (by omega), encodeChar_hexDigit_length (by omega), ih,
      List.length_cons]
    omega

/-- A number in upper-case hexadecimal, padded with zeroes to `width` digits. -/
def hexUpper (width n : ℕ) : String :=
  let digits := (Nat.toDigits 16 n).map Char.toUpper
  String.ofList (List.replicate (width - digits.length) '0' ++ digits)

/-! ### Hexadecimal in either case -/

theorem toLower_eq_self {c : Char} (hc : 128 ≤ c.toNat) : c.toLower = c := by
  have hnot : ¬ (c.val ≥ 'A'.val ∧ c.val ≤ 'Z'.val) := by
    rintro ⟨-, hle⟩
    have hlt : c.toNat < 128 := Nat.lt_of_le_of_lt hle (by decide)
    omega
  exact dif_neg hnot

/-- A digit is read, in either case, as its lower-case form is written. -/
theorem hexValue_eq_some_iff {c : Char} {n : ℕ} :
    hexValue c = some n ↔ n < 16 ∧ c.toLower = hexDigit n := by
  have hascii : ∀ k < 128, ∀ n < 16, hexValue (Char.ofNat k) = some n ↔
      (Char.ofNat k).toLower = hexDigit n := by
    decide +kernel
  have hdigit : ∀ n < 16, (hexDigit n).toNat < 128 := by
    decide
  have hlt : hexValue c = some n → n < 16 := by
    intro h
    simp only [hexValue] at h
    split_ifs at h <;> simp only [Option.some.injEq] at h <;> omega
  by_cases hc : c.toNat < 128
  · have h := hascii c.toNat hc n
    rw [Char.ofNat_toNat] at h
    exact ⟨fun hvalue ↦ ⟨hlt hvalue, (h (hlt hvalue)).1 hvalue⟩, fun ⟨hn, heq⟩ ↦ (h hn).2 heq⟩
  · constructor
    · intro h
      simp only [hexValue] at h
      split_ifs at h <;> omega
    · rintro ⟨hn, heq⟩
      rw [toLower_eq_self (Nat.le_of_not_lt hc)] at heq
      exact absurd (heq ▸ hdigit n hn) hc

theorem hexDecodeChars_eq_some_iff {cs : List Char} {bs : Bytes} :
    hexDecodeChars cs = some bs ↔ cs.map Char.toLower = hexChars bs := by
  induction cs using hexDecodeChars.induct generalizing bs with
  | case1 =>
    cases bs with
    | nil => simp [hexDecodeChars]
    | cons b bs => simp [hexDecodeChars]
  | case2 c =>
    cases bs with
    | nil => simp [hexDecodeChars]
    | cons b bs => simp [hexDecodeChars]
  | case3 c d cs ih =>
    cases bs with
    | nil => simp [hexDecodeChars, Option.bind_eq_some_iff]
    | cons b bs =>
      have hb : b.toNat < 256 := b.toNat_lt
      simp only [hexDecodeChars, Option.bind_eq_bind, Option.bind_eq_some_iff, Option.pure_def,
        Option.some.injEq, List.cons.injEq, List.map_cons, hexChars_cons, ih]
      constructor
      · rintro ⟨hi, hhi, lo, hlo, rest, hrest, rfl, rfl⟩
        obtain ⟨hhi16, hhi⟩ := hexValue_eq_some_iff.1 hhi
        obtain ⟨hlo16, hlo⟩ := hexValue_eq_some_iff.1 hlo
        have hvalue : (UInt8.ofNat (hi * 16 + lo)).toNat = hi * 16 + lo :=
          UInt8.toNat_ofNat_of_lt' (by show hi * 16 + lo < 256; omega)
        rw [hvalue, show (hi * 16 + lo) / 16 = hi by omega, show (hi * 16 + lo) % 16 = lo by omega]
        exact ⟨hhi, hlo, hrest⟩
      · rintro ⟨hhi, hlo, hrest⟩
        refine ⟨_, hexValue_eq_some_iff.2 ⟨by omega, hhi⟩, _,
          hexValue_eq_some_iff.2 ⟨by omega, hlo⟩, bs, hrest, ?_, rfl⟩
        rw [show b.toNat / 16 * 16 + b.toNat % 16 = b.toNat by omega, UInt8.ofNat_toNat]

/-- What is used of a lower-case mapping of Unicode. ASCII text is lowered letter by letter, and
text with another character does not become hexadecimal: such a character leaves one that is not a
digit, be it the `k` of the Kelvin sign. -/
structure LowersCase (toLowercase : String → String) : Prop where
  ascii : ∀ s, (∀ c ∈ s.toList, c.toNat < 128) →
    toLowercase s = String.ofList (s.toList.map Char.toLower)
  foreign : ∀ s, (∃ c ∈ s.toList, 128 ≤ c.toNat) →
    ∃ c ∈ (toLowercase s).toList, hexValue c = none

/-- The mapping that lowers ASCII letters and leaves the rest is one. -/
theorem lowersCase_map : LowersCase fun s ↦ String.ofList (s.toList.map Char.toLower) where
  ascii _ _ := rfl
  foreign s := by
    rintro ⟨c, hc, hforeign⟩
    refine ⟨c, ?_, ?_⟩
    · rw [String.toList_ofList, ← toLower_eq_self hforeign]
      exact List.mem_map_of_mem hc
    · rw [Option.eq_none_iff_forall_ne_some]
      intro n hn
      simp only [hexValue] at hn
      split_ifs at hn <;> omega

/-- **Comparing in lower case compares what the texts denote.** -/
theorem LowersCase.eq_hexEncode_iff {toLowercase : String → String} (h : LowersCase toLowercase)
    {s : String} {bs : Bytes} : toLowercase s = hexEncode bs ↔ hexDecode s = some bs := by
  rw [hexDecode, hexDecodeChars_eq_some_iff]
  by_cases hascii : ∀ c ∈ s.toList, c.toNat < 128
  · rw [h.ascii s hascii, hexEncode, String.ofList_inj]
  · simp only [not_forall, Nat.not_lt] at hascii
    obtain ⟨c, hc, hforeign⟩ := hascii
    constructor
    · intro heq
      obtain ⟨d, hd, hnone⟩ := h.foreign s ⟨c, hc, hforeign⟩
      rw [heq, toList_hexEncode] at hd
      have hsome := isSome_hexValue_of_mem_hexChars hd
      simp [hnone] at hsome
    · intro heq
      have hmem : c ∈ hexChars bs := by
        rw [← heq, ← toLower_eq_self hforeign]
        exact List.mem_map.2 ⟨c, hc, rfl⟩
      have hlt : c.toNat < 128 :=
        forall_mem_hexChars (P := fun c ↦ c.toNat < 128) (by decide) hmem
      omega

end Text
