import Cordon.Audit.Agreement
import Cordon.Lib.Utf8Cut

/-!
# The last line of a segment

`readLastEntry` reads a segment backwards in blocks until "a complete final line is in hand", and
takes a line feed anywhere in what it has read as the sign of one. A segment of complete lines ends
in a line feed, so the sign is there from the first block on: the line returned is the last one in
the **first block that shows a line at all**, wherever that block begins.

So everything depends on where the blocks begin. A beginning does no harm if it lies before the last
line that is not blank, or if only white space stands behind it; otherwise it `Damages` the line. It
lies inside the line, or inside a character of white space behind the line, and the half of that
character shows as a line of its own.

The exact condition has one more clause, for a cut that happens to put back what it took: every byte
left of a character that was cut is read as a replacement character, and the line may have begun
with just as many of them (`Restores`).
-/

namespace Cordon

/-! ### Where a block may begin -/

/-- A byte position behind the beginning of the last line that is not blank. -/
def BehindLastLine (text : List Char) (p : ℕ) : Prop :=
  ∀ pre rest, text = pre ++ rest → Text.EndsWith '\n' pre → Text.isBlank rest = false →
    (Utf8.encode pre).length < p

/-- A byte position inside a character, with `i` bytes of the character before it. -/
structure CutsAt (text : List Char) (p : ℕ) (u : List Char) (c : Char) (v : List Char) (i : ℕ) :
    Prop where
  text_eq : text = u ++ c :: v
  position : p = (Utf8.encode u).length + i
  pos : 0 < i
  lt : i < (Utf8.encodeChar c).length

/-- A byte position from which the last line cannot be read: behind its beginning, with part of a
character or some text that is not white space to come. -/
structure Damages (text : List Char) (p : ℕ) : Prop where
  behind : BehindLastLine text p
  cut : (∃ u c v i, CutsAt text p u c v i) ∨
    ∃ u v, text = u ++ v ∧ p = (Utf8.encode u).length ∧ Text.isBlank v = false

/-- A byte position inside a character from which the last line is read all the same: what is left
of the character reads as replacement characters, and with them the rest of the line is the line. -/
def Restores (text : List Char) (p : ℕ) : Prop :=
  ∃ u c y z i, CutsAt text p u c (y ++ '\n' :: z) i ∧ '\n' ∉ y ∧
    Text.lastLine text = some (Text.stripCr
      (List.replicate ((Utf8.encodeChar c).length - i) '\uFFFD' ++ y))

/-- Where block number `j` from the end of a text begins. -/
def blockStart (text : List Char) (j : ℕ) : ℕ :=
  (Utf8.encode text).length - j * block

/-- **No block begins where it damages the last line**, or the first that does restores it. -/
def LastLineClear (text : List Char) : Prop :=
  ∀ j, 1 ≤ j → Damages text (blockStart text j) →
    (∀ i, 1 ≤ i → i < j → ¬Damages text (blockStart text i)) → Restores text (blockStart text j)

/-- The last line of a segment is found, whatever is to be read from lines. -/
def FindsLastLine (text : List Char) : Prop :=
  ∀ (J : AuditJson) (path : String), readLastEntry J path (Utf8.encode text) =
    match Text.lastLine text with
    | none => .ok none
    | some line => parseLast J path line

/-! ### What a block shows -/

/-- The last line shown by the bytes of a text from `p` on. -/
def lastLineFrom (text : List Char) (p : ℕ) : Option (List Char) :=
  Text.lastLine (Utf8.decodeLossy ((Utf8.encode text).drop p))

theorem lastLineFrom_zero (text : List Char) : lastLineFrom text 0 = Text.lastLine text := by
  rw [lastLineFrom, List.drop_zero, Utf8.decodeLossy_encode]

theorem endsWith_encode {text : List Char} (h : Text.EndsWith '\n' text) :
    Text.EndsWith Utf8.newline (Utf8.encode text) := by
  rcases h with rfl | ⟨a, rfl⟩
  · exact Or.inl rfl
  · exact Or.inr ⟨Utf8.encode a, by simp⟩

/-- From a position that damages nothing, nothing is shown or the last line is. -/
theorem lastLineFrom_of_not_damages {text : List Char} {p : ℕ} (hp : p ≤ (Utf8.encode text).length)
    (h : ¬Damages text p) :
    lastLineFrom text p = none ∨
      ¬BehindLastLine text p ∧ lastLineFrom text p = Text.lastLine text := by
  by_cases hbehind : BehindLastLine text p
  · left
    rcases Utf8.between_or_inside text hp with ⟨u, v, rfl, rfl⟩ | ⟨u, c, v, i, htext, hpos, hi, hlt⟩
    · rw [lastLineFrom, Utf8.decodeLossy_drop_between, Text.lastLine_eq_none_iff]
      by_contra hblank
      exact h ⟨hbehind, Or.inr ⟨u, v, rfl, rfl, by simpa using hblank⟩⟩
    · exact absurd ⟨hbehind, Or.inl ⟨u, c, v, i, htext, hpos, hi, hlt⟩⟩ h
  · refine Or.inr ⟨hbehind, ?_⟩
    simp only [BehindLastLine, not_forall, Nat.not_lt] at hbehind
    obtain ⟨pre, rest, rfl, hpre, hblank, hle⟩ := hbehind
    obtain ⟨hsplit, hend⟩ :=
      Text.decodeLossy_append_of_endsWith ((endsWith_encode hpre).drop p) (Utf8.encode rest)
    rw [lastLineFrom, Utf8.encode_append, List.drop_append_of_le_length hle, hsplit,
      Utf8.decodeLossy_encode, Text.lastLine_append_of_endsWith hend hblank,
      Text.lastLine_append_of_endsWith hpre hblank]

theorem BehindLastLine.mono {text : List Char} {p q : ℕ} (h : BehindLastLine text p)
    (hpq : p ≤ q) : BehindLastLine text q := fun pre rest htext hpre hblank ↦
  (h pre rest htext hpre hblank).trans_le hpq

/-- Behind the beginning of the last line that is not blank, what follows a line feed is blank. -/
theorem BehindLastLine.isBlank {text pre rest : List Char} {p : ℕ} (h : BehindLastLine text p)
    (htext : text = pre ++ rest) (hpre : Text.EndsWith '\n' pre)
    (hle : p ≤ (Utf8.encode pre).length) : Text.isBlank rest = true := by
  by_contra hblank
  exact absurd (h pre rest htext hpre (by simpa using hblank)) (Nat.not_lt.2 hle)

/-- **From inside a character**, the half of the character and the rest of its line are shown. -/
theorem lastLineFrom_of_cutsAt {text u y z : List Char} {c : Char} {p i : ℕ}
    (hbehind : BehindLastLine text p) (h : CutsAt text p u c (y ++ '\n' :: z) i) (hy : '\n' ∉ y) :
    lastLineFrom text p = some (Text.stripCr
      (List.replicate ((Utf8.encodeChar c).length - i) '\uFFFD' ++ y)) := by
  obtain ⟨htext, hpos, hi, hlt⟩ := h
  have hz : Text.isBlank z = true := by
    have hsplit : text = u ++ c :: (y ++ ['\n']) ++ z := by simp [htext]
    refine hbehind.isBlank hsplit (Or.inr ⟨u ++ c :: y, by simp⟩) ?_
    rw [hpos, Utf8.encode_append, Utf8.encode_cons, List.length_append, List.length_append]
    omega
  obtain ⟨k, hk⟩ : ∃ k, (Utf8.encodeChar c).length - i = k + 1 :=
    ⟨(Utf8.encodeChar c).length - i - 1, by omega⟩
  rw [lastLineFrom, hpos, htext, Utf8.decodeLossy_drop_inside u _ hi hlt, ← List.append_assoc, hk]
  refine Text.lastLine_append_blank ?_ ?_ hz
  · rw [List.mem_append, List.mem_replicate]
    rintro (⟨-, hc⟩ | hmem)
    · exact absurd hc (by decide)
    · exact hy hmem
  · rw [List.replicate_succ, List.cons_append, Text.isBlank, List.all_cons,
      show Text.isWhitespace '\uFFFD' = false by decide, Bool.false_and]

/-- **From inside the last line**, between two of its characters, less than the line is shown. -/
theorem lastLineFrom_between {u v : List Char} (hend : Text.EndsWith '\n' (u ++ v))
    (hbehind : BehindLastLine (u ++ v) (Utf8.encode u).length) (hblank : Text.isBlank v = false) :
    ∃ line, lastLineFrom (u ++ v) (Utf8.encode u).length = some line ∧
      Text.lastLine (u ++ v) ≠ some line := by
  have hv : v ≠ [] := by
    rintro rfl
    exact absurd hblank (by decide)
  obtain ⟨y, z, rfl, hy⟩ := Text.exists_first_line hend.of_append hv
  -- the line that was cut is the last that is not blank
  have hz : Text.isBlank z = true := by
    have hsplit : u ++ (y ++ '\n' :: z) = u ++ (y ++ ['\n']) ++ z := by simp
    refine hbehind.isBlank hsplit (Or.inr ⟨u ++ y, by simp⟩) ?_
    rw [Utf8.encode_append, List.length_append]
    omega
  have hyblank : Text.isBlank y = false := by
    rw [Text.isBlank_append, show Text.isBlank ('\n' :: z) = Text.isBlank z by rfl, hz,
      Bool.and_true] at hblank
    exact hblank
  have hyne : y ≠ [] := by
    rintro rfl
    exact absurd hyblank (by decide)
  -- and something of it stands before the cut
  obtain ⟨b, m, rfl, hb, hm⟩ := Text.exists_last_line u
  have hmne : m ≠ [] := by
    rintro rfl
    rw [List.append_nil] at hbehind
    exact absurd (hbehind b _ rfl hb hblank) (Nat.lt_irrefl _)
  refine ⟨Text.stripCr y, ?_, ?_⟩
  · rw [lastLineFrom, Utf8.decodeLossy_drop_between]
    exact Text.lastLine_append_blank hy hyblank hz
  · have hmy : Text.isBlank (m ++ y) = false := by
      rw [Text.isBlank_append, hyblank, Bool.and_false]
    have hline : Text.lastLine (b ++ m ++ (y ++ '\n' :: z)) = some (m ++ Text.stripCr y) := by
      rw [List.append_assoc, ← List.append_assoc m, Text.lastLine_append_of_endsWith hb,
        Text.lastLine_append_blank _ hmy hz, Text.stripCr_append m hyne]
      · simp [hm, hy]
      · rw [Text.isBlank_append, hmy, Bool.false_and]
    rw [hline]
    intro heq
    exact hmne (List.append_left_eq_self.1 (Option.some.inj heq))

/-- **A position that damages the last line shows some line**, and the last line only if it restores
it. -/
theorem lastLineFrom_of_damages {text : List Char} {p : ℕ} (hend : Text.EndsWith '\n' text)
    (h : Damages text p) :
    ∃ line, lastLineFrom text p = some line ∧
      (Text.lastLine text = some line ↔ Restores text p) := by
  have hrestores : ∀ line, lastLineFrom text p = some line → Restores text p →
      Text.lastLine text = some line := by
    intro line hline hr
    obtain ⟨u, c, y, z, i, hcut, hy, hlast⟩ := hr
    rw [hlast, ← hline, lastLineFrom_of_cutsAt h.behind hcut hy]
  rcases h.cut with ⟨u, c, v, i, hcut⟩ | ⟨u, v, rfl, rfl, hblank⟩
  · have hc : c ≠ '\n' := Utf8.ne_newline_of_length (Nat.lt_of_le_of_lt hcut.pos hcut.lt)
    rw [hcut.text_eq] at hend
    have hv : v ≠ [] := by
      rintro rfl
      obtain ⟨a, ha⟩ := hend.resolve_left (by simp)
      exact hc (List.singleton_inj.1 (List.append_inj' ha rfl).2)
    have hvend : Text.EndsWith '\n' v := (List.append_cons u c v ▸ hend).of_append
    obtain ⟨y, z, rfl, hy⟩ := Text.exists_first_line hvend hv
    have hline := lastLineFrom_of_cutsAt h.behind hcut hy
    exact ⟨_, hline, fun hlast ↦ ⟨u, c, y, z, i, hcut, hy, hlast⟩, hrestores _ hline⟩
  · obtain ⟨line, hline, hne⟩ := lastLineFrom_between hend h.behind hblank
    exact ⟨line, hline, fun hl ↦ absurd hl hne, hrestores line hline⟩

/-! ### What the reader returns -/

section Reader

variable {J : AuditJson} {path : String} {text : List Char}

theorem blockStart_le (text : List Char) (j : ℕ) :
    blockStart text j ≤ (Utf8.encode text).length :=
  Nat.sub_le _ _

theorem blockStart_anti (text : List Char) {i j : ℕ} (h : i ≤ j) :
    blockStart text j ≤ blockStart text i :=
  Nat.sub_le_sub_left (Nat.mul_le_mul_right block h) _

theorem blockStart_succ (text : List Char) (j : ℕ) :
    blockStart text (j + 1) = blockStart text j - min block (blockStart text j) := by
  rw [blockStart, blockStart, Nat.add_mul, Nat.one_mul]
  omega

/-- A block in which nothing is shown is passed over. -/
theorem readLastLoop_of_none {content : Bytes} {readFrom start : ℕ}
    (hstart : start = readFrom - min block readFrom)
    (hline : Text.lastLine (Utf8.decodeLossy (content.drop start)) = none) :
    readLastLoop J path content readFrom (content.drop readFrom) =
      if start = 0 then .ok none else readLastLoop J path content start (content.drop start) := by
  have hsum : start + min block readFrom = readFrom := by omega
  rw [readLastLoop]
  simp only [← hstart, take_drop_append_drop content hsum, hline, dite_eq_ite]

/-- The reader gets past blocks in which nothing is shown. -/
theorem readLastEntry_of_blank {n : ℕ} (hpos : 0 < blockStart text n)
    (hblank : ∀ i, 1 ≤ i → i ≤ n → lastLineFrom text (blockStart text i) = none) :
    readLastEntry J path (Utf8.encode text) =
      readLastLoop J path (Utf8.encode text) (blockStart text n)
        ((Utf8.encode text).drop (blockStart text n)) := by
  induction n with
  | zero =>
    rw [blockStart, Nat.zero_mul, Nat.sub_zero] at hpos ⊢
    rw [readLastEntry, if_neg hpos.ne', List.drop_length]
  | succ n ih =>
    have hle := blockStart_anti text (Nat.le_succ n)
    rw [ih (hpos.trans_le hle) fun i hi hin ↦ hblank i hi (by omega),
      readLastLoop_of_none (blockStart_succ text n) (hblank (n + 1) (by omega) le_rfl),
      if_neg (by omega)]

/-- **The first block in which a line is shown decides.** -/
theorem readLastEntry_of_first {n : ℕ} {line : List Char} (hend : Text.EndsWith '\n' text)
    (hpos : 0 < blockStart text n)
    (hblank : ∀ i, 1 ≤ i → i ≤ n → lastLineFrom text (blockStart text i) = none)
    (hline : lastLineFrom text (blockStart text (n + 1)) = some line) :
    readLastEntry J path (Utf8.encode text) = parseLast J path line := by
  have hnewline : Utf8.newline ∈ (Utf8.encode text).drop (blockStart text (n + 1)) := by
    refine ((endsWith_encode hend).drop _).mem ?_
    rw [Ne, List.drop_eq_nil_iff, Nat.not_le, blockStart_succ]
    have hblock : 0 < block := by decide
    have hle := blockStart_le text n
    omega
  rw [readLastEntry_of_blank hpos hblank]
  exact readLastLoop_of_line path (blockStart_succ text n) hline (Or.inl hnewline)

/-- If no block shows a line, there is no last entry. -/
theorem readLastEntry_of_none (hblank : ∀ i, 1 ≤ i → lastLineFrom text (blockStart text i) = none) :
    readLastEntry J path (Utf8.encode text) = .ok none := by
  rcases Nat.eq_zero_or_pos (Utf8.encode text).length with hzero | hpos
  · rw [readLastEntry, if_pos hzero]
  -- the last round is the one that reads the first block of the file
  obtain ⟨n, hn⟩ : ∃ n, n = ((Utf8.encode text).length - 1) / block := ⟨_, rfl⟩
  have hblock : block = 65536 := rfl
  have hlast : 0 < blockStart text n ∧ blockStart text (n + 1) = 0 := by
    rw [hblock] at hn
    rw [blockStart, blockStart, hblock, hn]
    omega
  rw [readLastEntry_of_blank hlast.1 fun i hi _ ↦ hblank i hi,
    readLastLoop_of_none (blockStart_succ text n) (hblank (n + 1) (by omega)), if_pos hlast.2]

/-- A position at the beginning of a text damages nothing. -/
theorem Damages.pos {p : ℕ} (h : Damages text p) : 0 < p := by
  rcases h.cut with ⟨u, c, v, i, hcut⟩ | ⟨u, v, rfl, hp, hblank⟩
  · rw [hcut.position]
    exact Nat.add_pos_right _ hcut.pos
  · rcases u with - | ⟨c, u⟩
    · simpa using h.behind [] v rfl (Or.inl rfl) hblank
    · rw [hp, Utf8.encode_cons, List.length_append]
      exact Nat.add_pos_left (Utf8.length_encodeChar_pos c) _

/-- A reader of lines that refuses each with its text. -/
def refusingJson : AuditJson where
  eventToVec _ := .error "refused"
  entryToString _ := .error "refused"
  entryFromStr s := .error s

theorem parseLast_refusingJson_injective (path : String) :
    Function.Injective (parseLast refusingJson path) := by
  intro a b h
  simp only [parseLast, refusingJson, Except.error.injEq, AuditError.serializationError.injEq] at h
  have htext := congrArg String.toList h
  simp only [String.toList_append, String.toList_ofList] at htext
  exact List.append_cancel_left htext

/-- The first block that shows a line, if any does. -/
theorem exists_first_shown (h : ¬∀ i, 1 ≤ i → lastLineFrom text (blockStart text i) = none) :
    ∃ n line, 0 < blockStart text n ∧ lastLineFrom text (blockStart text (n + 1)) = some line ∧
      ∀ i, 1 ≤ i → i ≤ n → lastLineFrom text (blockStart text i) = none := by
  have hex : ∃ i, 1 ≤ i ∧ lastLineFrom text (blockStart text i) ≠ none := by simpa using h
  obtain ⟨hj, hsome⟩ := Nat.find_spec hex
  obtain ⟨n, hn⟩ : ∃ n, Nat.find hex = n + 1 := ⟨Nat.find hex - 1, by omega⟩
  obtain ⟨line, hline⟩ := Option.ne_none_iff_exists'.1 hsome
  rw [hn] at hline
  have hblank : ∀ i, 1 ≤ i → i ≤ n → lastLineFrom text (blockStart text i) = none := by
    intro i hi hin
    by_contra hne
    exact Nat.find_min hex (m := i) (by omega) ⟨hi, hne⟩
  refine ⟨n, line, ?_, hline, hblank⟩
  -- otherwise the block before it has read the whole text, and shown nothing
  by_contra hpos
  have hzero : blockStart text n = 0 := by omega
  have hsucc : blockStart text (n + 1) = 0 :=
    Nat.le_zero.1 (hzero ▸ blockStart_anti text (Nat.le_succ n))
  rw [hsucc] at hline
  rcases n with - | n
  · rw [blockStart, Nat.zero_mul, Nat.sub_zero, List.length_eq_zero_iff] at hzero
    rw [lastLineFrom, hzero] at hline
    cases hline
  · rw [← hzero, hblank (n + 1) (by omega) le_rfl] at hline
    cases hline

theorem lastLineClear_of_findsLastLine (hend : Text.EndsWith '\n' text) (h : FindsLastLine text) :
    LastLineClear text := by
  intro j hj hdamages hbefore
  obtain ⟨n, rfl⟩ : ∃ n, j = n + 1 := ⟨j - 1, by omega⟩
  obtain ⟨line, hline, hiff⟩ := lastLineFrom_of_damages hend hdamages
  have hpos : 0 < blockStart text n :=
    hdamages.pos.trans_le (blockStart_anti text (Nat.le_succ n))
  -- a block before the first that damages the line shows nothing: it begins behind the line too
  have hblank : ∀ i, 1 ≤ i → i ≤ n → lastLineFrom text (blockStart text i) = none := by
    intro i hi hin
    rcases lastLineFrom_of_not_damages (blockStart_le text i) (hbefore i hi (by omega)) with
      hnone | ⟨hnot, -⟩
    · exact hnone
    · exact absurd (hdamages.behind.mono (blockStart_anti text (by omega))) hnot
  have hread := h refusingJson ""
  rw [readLastEntry_of_first hend hpos hblank hline] at hread
  refine hiff.1 ?_
  rcases hlast : Text.lastLine text with - | last
  · rw [hlast] at hread
    cases hread
  · rw [hlast] at hread
    rw [parseLast_refusingJson_injective "" hread]

theorem LastLineClear.findsLastLine (hend : Text.EndsWith '\n' text) (h : LastLineClear text) :
    FindsLastLine text := by
  intro J path
  by_cases hall : ∀ i, 1 ≤ i → lastLineFrom text (blockStart text i) = none
  · -- the last block is the whole text
    have hzero : blockStart text ((Utf8.encode text).length + 1) = 0 := by
      have hblock : block = 65536 := rfl
      rw [blockStart, hblock]
      omega
    have hnone := hall ((Utf8.encode text).length + 1) (by omega)
    rw [hzero, lastLineFrom_zero] at hnone
    rw [readLastEntry_of_none hall, hnone]
  · obtain ⟨n, line, hpos, hline, hblank⟩ := exists_first_shown hall
    have hlast : Text.lastLine text = some line := by
      by_cases hdamages : Damages text (blockStart text (n + 1))
      · obtain ⟨line', hline', hiff⟩ := lastLineFrom_of_damages hend hdamages
        obtain rfl : line = line' := Option.some.inj (hline.symm.trans hline')
        refine hiff.2 (h (n + 1) (by omega) hdamages fun i hi hin hbefore ↦ ?_)
        obtain ⟨shown, hshown, -⟩ := lastLineFrom_of_damages hend hbefore
        rw [hblank i hi (by omega)] at hshown
        cases hshown
      · rcases lastLineFrom_of_not_damages (blockStart_le text (n + 1)) hdamages with
          hnone | ⟨-, heq⟩
        · rw [hnone] at hline
          cases hline
        · rw [← heq, hline]
    rw [readLastEntry_of_first hend hpos hblank hline, hlast]

/-- **The last line of a segment is found exactly if no block begins where it damages the line**, or
the first that does restores it. -/
theorem findsLastLine_iff (hend : Text.EndsWith '\n' text) :
    FindsLastLine text ↔ LastLineClear text :=
  ⟨lastLineClear_of_findsLastLine hend, LastLineClear.findsLastLine hend⟩

end Reader

/-! ### Segments that appends have written -/

/-- A last line within one block is clear. -/
theorem lastLineClear_of_short {pre rest : List Char} (hpre : Text.EndsWith '\n' pre)
    (hblank : Text.isBlank rest = false) (hshort : (Utf8.encode rest).length ≤ block) :
    LastLineClear (pre ++ rest) := by
  intro j hj hdamages _
  have hbehind := hdamages.behind pre rest rfl hpre hblank
  have hle := blockStart_anti (pre ++ rest) hj
  rw [blockStart, blockStart, Utf8.encode_append, List.length_append] at hle
  rw [blockStart, Utf8.encode_append, List.length_append] at hbehind
  omega

theorem lastLineClear_nil : LastLineClear [] := fun _ _ hdamages _ ↦ by
  have hpos := hdamages.pos
  simp [blockStart] at hpos

section Segment

variable {J : AuditJson} {es : List AuditEntry}

/-- The text of a segment. -/
def segmentText (J : AuditJson) (es : List AuditEntry) : List Char :=
  es.flatMap fun e ↦ J.text e ++ ['\n']

theorem segmentText_append_singleton (e : AuditEntry) :
    segmentText J (es ++ [e]) = segmentText J es ++ (J.text e ++ ['\n']) := by
  rw [segmentText, List.flatMap_append, List.flatMap_singleton, segmentText]

theorem endsWith_segmentText (es : List AuditEntry) :
    Text.EndsWith '\n' (segmentText J es) := by
  rcases es.eq_nil_or_concat with rfl | ⟨init, e, rfl⟩
  · exact Or.inl rfl
  · rw [List.concat_eq_append, segmentText_append_singleton]
    exact Or.inr ⟨segmentText J init ++ J.text e, by rw [List.append_assoc]⟩

/-- The last line of a segment is that of its last entry. -/
theorem lastLine_segmentText (h : ∀ e ∈ es, J.RoundTrips e) :
    Text.lastLine (segmentText J es) = es.getLast?.map J.text := by
  rcases es.eq_nil_or_concat with rfl | ⟨init, e, rfl⟩
  · rfl
  · rw [List.concat_eq_append] at h ⊢
    have he := h e (by simp)
    rw [segmentText_append_singleton, Text.lastLine_append_of_endsWith (endsWith_segmentText init),
      Text.lastLine_append_blank he.newline_not_mem he.isBlank_text rfl, he.stripCr_text,
      List.getLast?_append_of_ne_nil _ (List.cons_ne_nil e []), List.getLast?_singleton,
      Option.map_some]
    rw [Text.isBlank_append, he.isBlank_text, Bool.false_and]

/-- **A segment of appended entries can be resumed from exactly if its last line is clear.** -/
theorem exists_readLastEntry_iff (path : String) (h : ∀ e ∈ es, J.Faithful e) :
    (∃ last, readLastEntry J path (segmentBytes J es) = .ok last) ↔
      LastLineClear (segmentText J es) := by
  constructor
  · intro hread
    rcases es.eq_nil_or_concat with rfl | ⟨init, e, rfl⟩
    · exact lastLineClear_nil
    · rw [List.concat_eq_append] at h hread ⊢
      have he := h e (by simp)
      rcases Nat.lt_or_ge block (J.line e).length with hlong | hshort
      · obtain ⟨err, herr⟩ := readLastEntry_of_long path he hlong
        rw [herr] at hread
        obtain ⟨last, hlast⟩ := hread
        cases hlast
      · rw [segmentText_append_singleton]
        refine lastLineClear_of_short (endsWith_segmentText init) ?_ ?_
        · rw [Text.isBlank_append, he.roundTrips.isBlank_text, Bool.false_and]
        · rwa [Utf8.encode_append, show Utf8.encode ['\n'] = [Utf8.newline] by decide]
  · intro hclear
    have hfinds := hclear.findsLastLine (endsWith_segmentText es) J path
    rw [segmentBytes_eq_encode]
    rw [lastLine_segmentText fun e he ↦ (h e he).roundTrips, segmentText] at hfinds
    rw [hfinds]
    rcases hlast : es.getLast? with - | e
    · exact ⟨none, rfl⟩
    · have he := h e (List.mem_of_getLast? hlast)
      refine ⟨some e, ?_⟩
      rw [Option.map_some]
      show parseLast J path (J.text e) = _
      rw [parseLast, he.roundTrips.text_spec.2.1]

end Segment

/-! ### Opening a directory again -/

section Opening

variable {E : Ed25519} {J : AuditJson} {key : SigningKey} {deploymentId : String}

/-- Without errors, a directory with entries opens exactly if each of its segments can be resumed
from. -/
theorem Good.exists_openLog_iff {s : System} {es : List AuditEntry}
    (h : Good E J key deploymentId s es) (hfaith : ∀ e ∈ s.attempted, J.Faithful e)
    (hlog : s.log = none) (hne : es ≠ []) {config : LogConfig} {io : OpenIo}
    (hdep : config.deploymentId = deploymentId) (hio : io.Clean) :
    (∃ d log, AuditLog.openLog E J config key s.dir io = (d, .ok log)) ↔
      ∀ f ∈ s.dir.logFiles, ∃ last,
        readLastEntry J (config.path f) (s.dir.content f) = .ok last := by
  constructor
  · intro hopen f hf
    obtain ⟨d, log, hopen⟩ := hopen
    rcases hclaim : AuditLog.claimAndResume J config key s.dir io with - | ⟨log0, d1⟩
    · obtain ⟨d', err, herr, -⟩ := AuditLog.openLog_of_none (E := E) hclaim
      rw [herr] at hopen
      cases hopen
    · obtain ⟨-, -, -, d0, existing, st, hsame, -, hfind, -⟩ :=
        AuditLog.claimAndResume_eq_some hclaim
      rw [← hsame.2 f hf]
      rcases hread : readLastEntry J (config.path f) (d0.content f) with err | last
      · simp only [findExistingLogFile, hio.readDir] at hfind
        obtain ⟨err', herr⟩ := newestOf_error config io.readFile (hsame.1 ▸ hf) ⟨err, hread⟩ none
        rw [herr] at hfind
        cases hfind
      · exact ⟨last, rfl⟩
  · intro hread
    obtain ⟨log, d1, hclaim⟩ :
        ∃ log d1, AuditLog.claimAndResume J config key s.dir io = some (log, d1) := by
      refine AuditLog.claimAndResume_of_clean hio (h.unlocked hlog) fun d0 hsame ↦ ?_
      simp only [findExistingLogFile, hio.readDir]
      refine exists_newestOf_eq_ok hio.readFile (fun f hf ↦ ?_) none
      rw [hsame.1] at hf
      rw [hsame.2 f hf]
      exact hread f hf
    obtain ⟨hholds, hatt⟩ := attached_of_claimAndResume h.holds (h.faithful hfaith)
      h.run.sealedChain hdep hclaim
    have hseq : log.sequence ≠ 0 := by
      rw [hatt.sequence_eq]
      exact fun hzero ↦ hne (List.length_eq_zero_iff.1 hzero)
    exact ⟨d1, log, (openLog_of_resumed (E := E) hclaim hseq).1⟩

/-- **The last line of every segment is found, and every directory opens again**, exactly as long as
no block begins where it damages the last line of a segment. -/
theorem last_entry_found_iff :
    (∀ text, Text.EndsWith '\n' text → (FindsLastLine text ↔ LastLineClear text)) ∧
      ∀ {s : System}, Transition.Reachable (System.step E J key) (ErrorFree E J key deploymentId)
          System.init s → (∀ e ∈ s.attempted, J.Faithful e) → s.log = none → s.returned ≠ [] →
        ∀ {config : LogConfig} {io : OpenIo}, config.deploymentId = deploymentId → io.Clean →
          ((∃ d log, AuditLog.openLog E J config key s.dir io = (d, .ok log)) ↔
            ∀ f ∈ s.dir.logFiles, ∀ text, s.dir.content f = Utf8.encode text →
              LastLineClear text) := by
  refine ⟨fun text hend ↦ findsLastLine_iff hend, ?_⟩
  intro s hreach hfaith hlog hne config io hdep hio
  have hgood := good_returned (hreach.mono fun _ _ hr ha ↦ harmless_of_errorFree hr ha) hfaith
  rw [hgood.exists_openLog_iff hfaith hlog hne hdep hio]
  obtain ⟨seg, hlayout, -⟩ := hgood.holds
  refine forall₂_congr fun f hf ↦ ?_
  have hfaithful : ∀ e ∈ seg f, J.Faithful e := fun e he ↦
    hgood.faithful hfaith e (hlayout.mem hf he)
  have hcontent : s.dir.content f = Utf8.encode (segmentText J (seg f)) := by
    rw [hlayout.content f hf, segmentBytes_eq_encode, segmentText]
  rw [hlayout.content f hf, exists_readLastEntry_iff _ hfaithful, ← hlayout.content f hf, hcontent]
  constructor
  · intro hclear text htext
    rwa [← Utf8.encode_injective htext]
  · intro hclear
    exact hclear _ rfl

end Opening

/-- The system once the log that rotated is dropped. -/
def sampleStopped : System :=
  sampleRotated.step zeroEd25519 sampleJson sampleKey (.drop .done)

/-- A directory of two segments opens again, and so no block damages the last line of either. -/
theorem last_entry_found_iff_sample :
    newLogFileName 4 sampleNow ⟨4⟩ ∈ sampleStopped.dir.logFiles ∧
      ∀ f ∈ sampleStopped.dir.logFiles, ∀ text,
        sampleStopped.dir.content f = Utf8.encode text → LastLineClear text := by
  obtain ⟨hreach, hlive, hsegment⟩ := sampleRotated_spec
  have hspec : sampleStopped.log = none ∧ sampleStopped.attempted = sampleRotated.attempted ∧
      sampleStopped.returned = [sampleFirst, sampleSecond, sampleThird] ∧
      sampleStopped.dir.logFiles = sampleRotated.dir.logFiles := hlive.drop_spec
  obtain ⟨hlog, hattempted, hreturned, hfiles⟩ := hspec
  have hstopped : Transition.Reachable (System.step zeroEd25519 sampleJson sampleKey)
      (ErrorFree zeroEd25519 sampleJson sampleKey "deployment-1") System.init sampleStopped := by
    have hdrop : ErrorFree zeroEd25519 sampleJson sampleKey "deployment-1" sampleRotated
        (.drop .done) := rfl
    unfold sampleStopped
    exact .next _ hreach hdrop
  have hfaithful : ∀ e ∈ sampleStopped.attempted, sampleJson.Faithful e := by
    rw [hattempted]
    exact hlive.faithful
  have hopens : ∃ d log, AuditLog.openLog zeroEd25519 sampleJson rotatingConfig sampleKey
      sampleStopped.dir sampleOpenIo = (d, .ok log) := by
    have hshort : ∀ e ∈ [sampleFirst, sampleSecond, sampleThird],
        (sampleJson.line e).length ≤ block := by
      intro e he
      simp only [List.mem_cons, List.not_mem_nil, or_false] at he
      rw [length_sampleLine (by rcases he with rfl | rfl | rfl <;> simp [sampleEntries])]
      decide
    obtain ⟨⟨log, hopen⟩, -⟩ :=
      hlive.reopen rotatingConfig clean_sampleOpenIo rfl (List.cons_ne_nil _ _) hshort
    exact ⟨_, log, Prod.ext rfl hopen⟩
  have hiff := @last_entry_found_iff zeroEd25519 sampleJson sampleKey "deployment-1"
  refine ⟨hfiles ▸ hsegment, (hiff.2 hstopped hfaithful hlog ?_ rfl clean_sampleOpenIo).1 hopens⟩
  rw [hreturned]
  exact List.cons_ne_nil _ _

/-! ### An entry longer than a block -/

/-- A node identifier as long as a block. -/
def longNodeId : String :=
  String.ofList (List.replicate block 'a')

def longConfig : LogConfig := { sampleConfig with nodeId := longNodeId }

/-- The lifecycle event of a genesis entry, as `genesisEvent` has it. -/
def longLifecycle : Audit.LifecycleEvent where
  event := .boot
  cordonVersion := "2.1.0"
  teeType := "initialized"
  nodeId := longNodeId

/-- The genesis entry of a node with a long identifier. -/
def longEntry : AuditEntry :=
  sealWith zeroEd25519 sampleKey (computeGenesisHash "deployment-1") 0 (.lifecycle longLifecycle)
    (Utf8.encode (lifecycleText longLifecycle)) sampleNow ⟨1⟩

def longJson : AuditJson := lifecycleJson [longEntry]

theorem length_longNodeId : longNodeId.toList.length = 65536 := by
  rw [longNodeId, String.toList_ofList, List.length_replicate, block]

theorem length_longLifecycle : (lifecycleText longLifecycle).length = 65640 := by
  have hlits : (lifecycleTypeName longLifecycle.event).toList.length = 4 ∧
      longLifecycle.cordonVersion.toList.length = 5 ∧
      longLifecycle.teeType.toList.length = 11 := by decide
  obtain ⟨h1, h2, h3⟩ := hlits
  have hnode : longLifecycle.nodeId.toList.length = 65536 := length_longNodeId
  rw [length_lifecycleText, h1, h2, h3, hnode]

/-- Its text is printable, and longer than a block. -/
theorem entryText_longEntry : ∃ t, entryText longEntry = some t ∧ t.length = 66053 ∧ Plain t := by
  have hplain : Plain (lifecycleText longLifecycle) := by
    refine plain_lifecycleText (show Plain "2.1.0".toList by decide)
      (show Plain "initialized".toList by decide) ?_
    intro c hc
    rw [longLifecycle, longNodeId, String.toList_ofList, List.mem_replicate] at hc
    rw [hc.2]
    decide
  have hstamp : Plain (stampText sampleNow) := by decide +kernel
  obtain ⟨t, ht, hlen, htplain⟩ := entryText_sealWith zeroEd25519 sampleKey
    (computeGenesisHash "deployment-1") (Utf8.encode (lifecycleText longLifecycle)) ⟨1⟩ hplain
    hstamp (show 0 + 1 < 10 by decide)
  refine ⟨t, ht, ?_, htplain⟩
  rw [hlen, length_longLifecycle, show (stampText sampleNow).length = 20 by decide +kernel]

theorem uniform_longEntry : Uniform [longEntry] 66053 := by
  refine ⟨fun e he ↦ ?_, fun a ha b hb _ ↦ ?_⟩
  · rw [List.mem_singleton.1 he]
    exact entryText_longEntry
  · rw [List.mem_singleton.1 ha, List.mem_singleton.1 hb]

theorem faithful_longEntry : ∀ e ∈ [longEntry], longJson.Faithful e := fun _ he ↦
  lifecycleJson_faithful uniform_longEntry he

theorem length_line_longEntry : (longJson.line longEntry).length = 66054 :=
  uniform_longEntry.length_line (by simp)

/-- The system once a node with a long identifier has started for the first time and stopped. -/
def longStopped : System :=
  (System.init.step zeroEd25519 longJson sampleKey (.openLog longConfig sampleOpenIo)).step
    zeroEd25519 longJson sampleKey (.drop .done)

/-- Nothing goes wrong on the way there. -/
theorem longStopped_spec :
    Transition.Reachable (System.step zeroEd25519 longJson sampleKey)
        (ErrorFree zeroEd25519 longJson sampleKey "deployment-1") System.init longStopped ∧
      longStopped.log = none ∧ longStopped.attempted = [longEntry] ∧
      longStopped.returned = [longEntry] ∧
      ∃ f ∈ longStopped.dir.logFiles, longStopped.dir.content f = longJson.line longEntry := by
  obtain ⟨text, htext, -⟩ := (faithful_longEntry longEntry (by simp)).roundTrips
  have hdue : (lineBytes text).length < longConfig.maxFileSizeBytes := by
    rw [lineBytes_eq_line htext, length_line_longEntry]
    decide
  have hfsync : longConfig.fsyncOnWrite = true := rfl
  have hevent : longJson.eventToVec (genesisEvent longConfig.nodeId) =
      .ok (Utf8.encode (lifecycleText longLifecycle)) := rfl
  have hsealed : longEntry = sealWith zeroEd25519 sampleKey
      (computeGenesisHash longConfig.deploymentId) 0 (genesisEvent longConfig.nodeId)
      (Utf8.encode (lifecycleText longLifecycle)) sampleOpenIo.genesis.now
      sampleOpenIo.genesis.logId := rfl
  obtain ⟨log, d, f, hopen, hattempt, -, -, -, hatt, hfiles, hcontent⟩ :=
    openLog_empty sampleKey clean_sampleOpenIo hfsync hevent hsealed htext hdue
  have hfirst := System.step_openLog_ok (s := System.init) hopen
  have hattempt' : openAttempt zeroEd25519 longJson sampleKey longConfig System.init.dir
      sampleOpenIo = some longEntry := hattempt
  rw [hattempt'] at hfirst
  have hok : ErrorFree zeroEd25519 longJson sampleKey "deployment-1" System.init
      (.openLog longConfig sampleOpenIo) :=
    ⟨rfl, rfl, clean_sampleOpenIo, log, congrArg Prod.snd hopen⟩
  have hdrop : longStopped = { System.init with
      dir := { d with locked := false }, log := none, attempted := [longEntry]
      returned := [longEntry], opened := true } := by
    rw [← hatt.drop .done, longStopped, hfirst]
    rfl
  refine ⟨(Transition.Reachable.start.next _ hok).next _ rfl, ?_⟩
  rw [hdrop]
  refine ⟨rfl, rfl, rfl, f, ?_, hcontent⟩
  show f ∈ d.logFiles
  rw [hfiles]
  exact List.mem_singleton_self f

/-- **A node with a long identifier starts once.** Its genesis entry is longer than a block, so its
last line is not found, and the directory does not open again. -/
theorem long_entry_locks_the_log_out :
    Text.EndsWith '\n' (segmentText longJson [longEntry]) ∧
    ¬FindsLastLine (segmentText longJson [longEntry]) ∧
    ∃ s, Transition.Reachable (System.step zeroEd25519 longJson sampleKey)
        (ErrorFree zeroEd25519 longJson sampleKey "deployment-1") System.init s ∧
      s.log = none ∧ s.returned = [longEntry] ∧
      ∀ config io, config.deploymentId = "deployment-1" → OpenIo.Clean io →
        ¬∃ d log, AuditLog.openLog zeroEd25519 longJson config sampleKey s.dir io =
          (d, .ok log) := by
  have hlong : ∀ path, ∃ err,
      readLastEntry longJson path (longJson.line longEntry) = .error err := by
    intro path
    rw [← segmentBytes_singleton, ← List.nil_append [longEntry]]
    refine readLastEntry_of_long path (faithful_longEntry _ (by simp)) ?_
    rw [length_line_longEntry]
    decide
  refine ⟨endsWith_segmentText _, fun hfinds ↦ ?_, longStopped, ?_⟩
  · obtain ⟨last, hlast⟩ := (exists_readLastEntry_iff "" faithful_longEntry).2
      (lastLineClear_of_findsLastLine (endsWith_segmentText _) hfinds)
    obtain ⟨err, herr⟩ := hlong ""
    rw [segmentBytes_singleton, herr] at hlast
    cases hlast
  · obtain ⟨hreach, hlog, hattempted, hreturned, f, hf, hcontent⟩ := longStopped_spec
    have hfaith : ∀ e ∈ longStopped.attempted, longJson.Faithful e := by
      rw [hattempted]
      exact faithful_longEntry
    have hgood := good_returned
      (hreach.mono fun _ _ hr ha ↦ harmless_of_errorFree hr ha) hfaith
    refine ⟨hreach, hlog, hreturned, fun config io hdep hio hopen ↦ ?_⟩
    obtain ⟨last, hlast⟩ :=
      (hgood.exists_openLog_iff hfaith hlog (by rw [hreturned]; simp) hdep hio).1 hopen f hf
    obtain ⟨err, herr⟩ := hlong (config.path f)
    rw [hcontent, herr] at hlast
    cases hlast

end Cordon
