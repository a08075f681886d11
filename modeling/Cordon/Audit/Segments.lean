import Cordon.Audit.Log

/-!
# Reading segments back

What the two readers of a segment, the verifier and the writer that resumes, get from the bytes an
append put there. A segment is a sequence of **lines** (`segmentBytes`), possibly followed by an
unterminated rest that a crash left behind.

The resuming writer reads backwards in blocks and decodes each block on its own, so it may start in
the middle of a line, or of a character. Two facts describe all it can get:

* `readLastEntry_segmentBytes`: after complete lines it returns the last entry, or an error when the
  last line is longer than a block. It never returns anything else, which is where it matters that
  no fragment of a line reads as an entry.
* `readLastEntry_unterminated`: an unterminated rest is always read whole, however long it is.

Both rest on where the reader stops. It has a complete last line in hand as soon as a line feed is
in what it has read, and a block that holds one behind the last line's beginning is enough for it;
whether that line is whole then depends on its length alone. `Audit.LastEntry` says of every text
what it finds.
-/

namespace Cordon

/-- The text of an entry. -/
def AuditJson.text (J : AuditJson) (e : AuditEntry) : List Char :=
  match J.entryToString e with
  | .ok s => s.toList
  | .error _ => []

/-- The line of an entry: its text and a line feed. -/
def AuditJson.line (J : AuditJson) (e : AuditEntry) : Bytes :=
  Utf8.encode (J.text e) ++ [Utf8.newline]

/-- The bytes of a segment that holds the given entries. -/
def segmentBytes (J : AuditJson) (es : List AuditEntry) : Bytes :=
  es.flatMap J.line

section

variable {J : AuditJson}

/-- The line an append writes is the line of its entry. -/
theorem lineBytes_eq_line {e : AuditEntry} {s : String} (h : J.entryToString e = .ok s) :
    lineBytes s = J.line e := by
  simp [lineBytes, AuditJson.line, AuditJson.text, h, Text.asBytes, Utf8.encode]

@[simp]
theorem segmentBytes_nil : segmentBytes J [] = [] := rfl

theorem segmentBytes_append (es fs : List AuditEntry) :
    segmentBytes J (es ++ fs) = segmentBytes J es ++ segmentBytes J fs :=
  List.flatMap_append

@[simp]
theorem segmentBytes_singleton (e : AuditEntry) : segmentBytes J [e] = J.line e := by
  simp [segmentBytes]

theorem segmentBytes_append_singleton (es : List AuditEntry) (e : AuditEntry) :
    segmentBytes J (es ++ [e]) = segmentBytes J es ++ J.line e := by
  rw [segmentBytes_append, segmentBytes_singleton]

/-- A segment of complete lines ends in a line feed. -/
theorem endsWith_segmentBytes (es : List AuditEntry) :
    Text.EndsWith Utf8.newline (segmentBytes J es) := by
  rcases es.eq_nil_or_concat with rfl | ⟨fs, e, rfl⟩
  · exact Or.inl rfl
  · exact Or.inr ⟨segmentBytes J fs ++ Utf8.encode (J.text e), by
      rw [List.concat_eq_append, segmentBytes_append_singleton, AuditJson.line,
        List.append_assoc]⟩

/-! ### The text of one entry -/

namespace AuditJson.RoundTrips

variable {e : AuditEntry} (h : J.RoundTrips e)
include h

/-- The text of an entry is an object, on one line, that reads back. -/
theorem text_spec : J.entryToString e = .ok (String.ofList (J.text e)) ∧
    J.entryFromStr (String.ofList (J.text e)) = .ok e ∧ '\n' ∉ J.text e ∧
    ∃ mid, J.text e = '{' :: (mid ++ ['}']) := by
  obtain ⟨s, hto, hfrom, hnl, hobj⟩ := h
  have htext : J.text e = s.toList := by rw [AuditJson.text, hto]
  rw [htext, String.ofList_toList]
  exact ⟨hto, hfrom, hnl, hobj⟩

theorem newline_not_mem : '\n' ∉ J.text e :=
  h.text_spec.2.2.1

/-- The opening brace keeps the text, and any beginning of it, from being blank. -/
theorem isBlank_text : Text.isBlank (J.text e) = false := by
  obtain ⟨mid, hmid⟩ := h.text_spec.2.2.2
  rw [hmid, Text.isBlank, List.all_cons]
  have hbrace : Text.isWhitespace '{' = false := by decide
  rw [hbrace, Bool.false_and]

theorem stripCr_text : Text.stripCr (J.text e) = J.text e := by
  obtain ⟨mid, hmid⟩ := h.text_spec.2.2.2
  have hlast : (J.text e).getLast? = some '}' := by simp [hmid, List.getLast?_cons]
  rw [Text.stripCr, hlast, if_neg (by decide)]

/-- The bytes of the text hold no line feed. -/
theorem newline_not_mem_bytes : Utf8.newline ∉ Utf8.encode (J.text e) := by
  have hmem : ∀ cs : List Char, '\n' ∉ cs → Utf8.newline ∉ Utf8.encode cs := by
    intro cs hcs hnl
    obtain ⟨a, b, hab⟩ := List.append_of_mem hnl
    have hdec := Utf8.decodeLossy_append_newline a b
    rw [← hab, Utf8.decodeLossy_encode] at hdec
    exact hcs (by rw [hdec]; simp)
  exact hmem _ h.newline_not_mem

/-- The closing brace is the last byte of the text. -/
theorem exists_bytes_eq_append_brace :
    ∃ init, Utf8.encode (J.text e) = init ++ [0x7D] := by
  obtain ⟨mid, hmid⟩ := h.text_spec.2.2.2
  have hbrace : Utf8.encodeChar '}' = [0x7D] := by decide
  refine ⟨Utf8.encode ('{' :: mid), ?_⟩
  rw [hmid, ← List.cons_append, Utf8.encode, Utf8.encode, List.flatMap_append,
    List.flatMap_singleton, hbrace]

end AuditJson.RoundTrips

/-! ### The verifier's reader -/

/-- Parsing complete lines gives their entries, and goes on with what follows. -/
theorem loadLines_flatMap_append {es : List AuditEntry} (h : ∀ e ∈ es, J.RoundTrips e) (n : ℕ)
    (rest : List Char) :
    loadLines J n (Text.lines (es.flatMap (fun e ↦ J.text e ++ ['\n']) ++ rest)) =
      (es ++ ·) <$> loadLines J (n + es.length) (Text.lines rest) := by
  induction es generalizing n with
  | nil => simp
  | cons e es ih =>
    have he := h e List.mem_cons_self
    rw [List.flatMap_cons, List.append_assoc, List.append_assoc, List.singleton_append,
      Text.lines_append_newline _ he.newline_not_mem, he.stripCr_text, loadLines,
      if_neg (by rw [he.isBlank_text]; decide), he.text_spec.2.1,
      ih fun f hf ↦ h f (List.mem_cons_of_mem _ hf)]
    have hn : n + 1 + es.length = n + (e :: es).length := by
      rw [List.length_cons]
      omega
    rw [hn]
    cases loadLines J (n + (e :: es).length) (Text.lines rest) <;> rfl

theorem segmentBytes_eq_encode (es : List AuditEntry) :
    segmentBytes J es = Utf8.encode (es.flatMap fun e ↦ J.text e ++ ['\n']) := by
  induction es with
  | nil => rfl
  | cons e es ih =>
    have hnl : Utf8.encode ['\n'] = [Utf8.newline] := by decide
    rw [List.flatMap_cons, Utf8.encode, List.flatMap_append, ← Utf8.encode, ← Utf8.encode, ← ih]
    rw [Utf8.encode, List.flatMap_append, ← Utf8.encode, ← Utf8.encode, hnl]
    rfl

/-- **The verifier reads back what was appended.** -/
theorem loadEntriesFromFile_segmentBytes {es : List AuditEntry} (h : ∀ e ∈ es, J.RoundTrips e) :
    loadEntriesFromFile J (segmentBytes J es) = .ok es := by
  have hload := loadLines_flatMap_append h 0 []
  rw [List.append_nil] at hload
  rw [loadEntriesFromFile, segmentBytes_eq_encode, Utf8.decode_encode]
  simp only [hload, Text.lines_nil, loadLines, Except.map_ok, List.append_nil]

/-- **Two records on one line are refused**, as soon as their texts do not read as one entry. -/
theorem loadEntriesFromFile_joined {es : List AuditEntry} {a b : AuditEntry}
    (h : ∀ e ∈ es, J.RoundTrips e) (ha : J.RoundTrips a) (hb : J.RoundTrips b)
    (hjoin : ∀ e, J.entryFromStr (String.ofList (J.text a ++ J.text b)) ≠ .ok e) :
    ∃ err, loadEntriesFromFile J (segmentBytes J es ++ Utf8.encode (J.text a) ++ J.line b) =
      .error err := by
  have hbytes : segmentBytes J es ++ Utf8.encode (J.text a) ++ J.line b =
      Utf8.encode (es.flatMap (fun e ↦ J.text e ++ ['\n']) ++
        (J.text a ++ J.text b ++ ['\n'])) := by
    have hnl : Utf8.encode ['\n'] = [Utf8.newline] := by decide
    rw [segmentBytes_eq_encode, AuditJson.line, ← hnl]
    simp only [Utf8.encode, List.flatMap_append, List.append_assoc]
  have hnot : '\n' ∉ J.text a ++ J.text b := by
    rw [List.mem_append]
    rintro (hin | hin)
    · exact ha.newline_not_mem hin
    · exact hb.newline_not_mem hin
  have hstrip : Text.stripCr (J.text a ++ J.text b) = J.text a ++ J.text b := by
    obtain ⟨mid, hmid⟩ := hb.text_spec.2.2.2
    have hlast : (J.text a ++ J.text b).getLast? = some '}' := by simp [hmid, List.getLast?_cons]
    rw [Text.stripCr, hlast, if_neg (by decide)]
  have hblank : Text.isBlank (J.text a ++ J.text b) = false := by
    rw [Text.isBlank, List.all_append, ← Text.isBlank, ha.isBlank_text, Bool.false_and]
  rw [loadEntriesFromFile, hbytes, Utf8.decode_encode]
  simp only [loadLines_flatMap_append h]
  rw [Text.lines_append_newline [] hnot, hstrip, loadLines, if_neg (by rw [hblank]; decide)]
  cases hparse : J.entryFromStr (String.ofList (J.text a ++ J.text b)) with
  | ok e => exact absurd hparse (hjoin e)
  | error err => exact ⟨_, rfl⟩

/-! ### The resuming writer's reader -/

/-- One round of the backward loop sees the file from `start` on. -/
theorem take_drop_append_drop (content : Bytes) {readFrom start : ℕ}
    (h : start + min block readFrom = readFrom) :
    (content.drop start).take (min block readFrom) ++ content.drop readFrom =
      content.drop start := by
  conv_rhs => rw [← List.take_append_drop (min block readFrom) (content.drop start)]
  rw [List.drop_drop, h]

/-- What the reader makes of a line it accepts as complete. -/
def parseLast (J : AuditJson) (path : String) (line : List Char) :
    Except AuditError (Option AuditEntry) :=
  match J.entryFromStr (String.ofList line) with
  | .ok entry => .ok (some entry)
  | .error e =>
    .error (.serializationError ("last entry of \"" ++ path ++ "\" is unreadable: " ++ e))

/-- One round that finds a complete line returns it. -/
theorem readLastLoop_of_line (path : String) {content : Bytes} {readFrom start : ℕ}
    {line : List Char} (hstart : start = readFrom - min block readFrom)
    (hline : Text.lastLine (Utf8.decodeLossy (content.drop start)) = some line)
    (hcomplete : Utf8.newline ∈ content.drop start ∨ start = 0) :
    readLastLoop J path content readFrom (content.drop readFrom) = parseLast J path line := by
  have hsum : start + min block readFrom = readFrom := by omega
  have hc : ((content.drop start).contains Utf8.newline || start == 0) = true := by
    rcases hcomplete with h | h
    · simp [h]
    · simp [h]
  rw [readLastLoop]
  simp only [← hstart, take_drop_append_drop content hsum, hline, hc]
  rfl

/-- One round without a complete line reads on. -/
theorem readLastLoop_of_incomplete (path : String) {content : Bytes} {readFrom start : ℕ}
    (hstart : start = readFrom - min block readFrom) (hpos : start ≠ 0)
    (hnl : Utf8.newline ∉ content.drop start) :
    readLastLoop J path content readFrom (content.drop readFrom) =
      readLastLoop J path content start (content.drop start) := by
  have hsum : start + min block readFrom = readFrom := by omega
  have hc : ((content.drop start).contains Utf8.newline || start == 0) = false := by
    simp [hnl, hpos]
  rw [readLastLoop]
  simp only [← hstart, take_drop_append_drop content hsum, hc, dif_neg hpos]
  cases Text.lastLine (Utf8.decodeLossy (content.drop start)) <;> rfl

/-- **An unterminated rest is read whole.** Blocks are added until one holds the line feed before
the rest, or the file begins: only then does the reader take its last line. -/
theorem readLastEntry_unterminated (path : String) {pre rest : Bytes}
    (hpre : Text.EndsWith Utf8.newline pre) (hne : rest ≠ []) (hnl : Utf8.newline ∉ rest)
    (hblank : Text.isBlank (Utf8.decodeLossy rest) = false) :
    readLastEntry J path (pre ++ rest) = parseLast J path (Utf8.decodeLossy rest) := by
  have hlines : Text.lines (Utf8.decodeLossy rest) = [Utf8.decodeLossy rest] := by
    refine Text.lines_of_not_mem (Utf8.not_mem_decodeLossy_newline hnl) ?_
    rintro h
    rw [h] at hblank
    exact absurd hblank (by decide)
  -- whenever the rest is in hand with the line feed before it, it is the last line
  have hlast : ∀ n ≤ pre.length, Text.lastLine (Utf8.decodeLossy ((pre ++ rest).drop n)) =
      some (Utf8.decodeLossy rest) := by
    intro n hn
    obtain ⟨hsplit, hend⟩ := Text.decodeLossy_append_of_endsWith (hpre.drop n) rest
    rw [List.drop_append_of_le_length hn, hsplit]
    exact Text.lastLine_append hend hlines hblank
  have hloop : ∀ readFrom ≤ (pre ++ rest).length, 0 < readFrom →
      readLastLoop J path (pre ++ rest) readFrom ((pre ++ rest).drop readFrom) =
        parseLast J path (Utf8.decodeLossy rest) := by
    intro readFrom
    induction readFrom using Nat.strong_induction_on with
    | _ readFrom ih =>
      intro hle hpos
      have hblock : 0 < block := by decide
      obtain ⟨start, hstart⟩ : ∃ start, start = readFrom - min block readFrom := ⟨_, rfl⟩
      by_cases hin : Utf8.newline ∈ (pre ++ rest).drop start
      · have hlt : start ≤ pre.length := by
          by_contra hgt
          rw [List.drop_append, List.drop_eq_nil_of_le (by omega), List.nil_append] at hin
          exact hnl (List.mem_of_mem_drop hin)
        exact readLastLoop_of_line path hstart (hlast start hlt) (Or.inl hin)
      · by_cases hzero : start = 0
        · exact readLastLoop_of_line path hstart (hlast start (by omega)) (Or.inr hzero)
        · rw [readLastLoop_of_incomplete path hstart hzero hin]
          exact ih start (by omega) (by omega) (by omega)
  have hlen : 0 < (pre ++ rest).length := by
    have := List.length_pos_iff.2 hne
    simp; omega
  rw [readLastEntry, if_neg (by omega)]
  simpa using hloop _ le_rfl hlen

/-- After complete lines, a last line within one block is read back. -/
theorem readLastEntry_of_short (path : String) {es : List AuditEntry} {e : AuditEntry}
    (h : J.RoundTrips e) (hshort : (J.line e).length ≤ block) :
    readLastEntry J path (segmentBytes J (es ++ [e])) = .ok (some e) := by
  set content := segmentBytes J (es ++ [e])
  have hsplit : content = segmentBytes J es ++ J.line e := segmentBytes_append_singleton es e
  have hlen : content.length = (segmentBytes J es).length + (J.line e).length := by
    rw [hsplit, List.length_append]
  have hline : 0 < (J.line e).length := by simp [AuditJson.line]
  obtain ⟨start, hstart⟩ : ∃ start, start = content.length - min block content.length := ⟨_, rfl⟩
  have hle : start ≤ (segmentBytes J es).length := by omega
  have hdrop : content.drop start = (segmentBytes J es).drop start ++ J.line e := by
    rw [hsplit, List.drop_append_of_le_length hle]
  have hdec : Utf8.decodeLossy (J.line e) = J.text e ++ ['\n'] := by
    rw [AuditJson.line, Utf8.decodeLossy_encode_append]
    rfl
  have hlines : Text.lines (J.text e ++ ['\n']) = [J.text e] := by
    rw [Text.lines_append_newline [] h.newline_not_mem, h.stripCr_text, Text.lines_nil]
  have hlast : Text.lastLine (Utf8.decodeLossy (content.drop start)) = some (J.text e) := by
    obtain ⟨hsp, hend⟩ :=
      Text.decodeLossy_append_of_endsWith ((endsWith_segmentBytes es).drop start) (J.line e)
    rw [hdrop, hsp, hdec]
    exact Text.lastLine_append hend hlines h.isBlank_text
  have hnl : Utf8.newline ∈ content.drop start := by
    rw [hdrop, AuditJson.line]
    simp
  rw [readLastEntry, if_neg (by omega)]
  have := readLastLoop_of_line (J := J) path hstart hlast (Or.inl hnl)
  rw [List.drop_length] at this
  rw [this, parseLast, h.text_spec.2.1]

/-- A proper beginning or end of a line's text is refused. -/
theorem AuditJson.Faithful.parseLast_fragment {e : AuditEntry} (h : J.Faithful e) (path : String)
    {b : Bytes} (hlen : b.length < (Utf8.encode (J.text e)).length)
    (hfrag : b <+: Utf8.encode (J.text e) ∨ b <:+ Utf8.encode (J.text e)) :
    ∃ err, parseLast J path (Utf8.decodeLossy b) = .error err := by
  have hbytes : Text.asBytes (String.ofList (J.text e)) = Utf8.encode (J.text e) := by
    rw [Text.asBytes, String.toList_ofList]
  have hne : b ≠ Text.asBytes (String.ofList (J.text e)) := by
    rw [hbytes]
    rintro rfl
    exact Nat.lt_irrefl _ hlen
  have hno := h.noFragment _ h.roundTrips.text_spec.1 b hne (by rwa [hbytes])
  rw [parseLast]
  rcases hparse : J.entryFromStr (String.ofList (Utf8.decodeLossy b)) with err | e'
  · exact ⟨_, rfl⟩
  · exact absurd hparse (hno e')

/-- What a block that begins inside the text of a line shows of the line. -/
theorem AuditJson.RoundTrips.lastLine_fragment {e : AuditEntry} (h : J.RoundTrips e) {k : ℕ}
    (hk : k < (Utf8.encode (J.text e)).length) :
    Text.lastLine (Utf8.decodeLossy ((Utf8.encode (J.text e)).drop k ++ [Utf8.newline])) =
      some (Utf8.decodeLossy ((Utf8.encode (J.text e)).drop k)) := by
  -- the fragment still ends in the closing brace
  obtain ⟨init, hinit⟩ := h.exists_bytes_eq_append_brace
  have hfrag : (Utf8.encode (J.text e)).drop k = init.drop k ++ [0x7D] := by
    rw [hinit, List.length_append, List.length_singleton] at hk
    rw [hinit, List.drop_append_of_le_length (by omega)]
  have hdec : Utf8.decodeLossy ((Utf8.encode (J.text e)).drop k) =
      Utf8.decodeLossy (init.drop k) ++ ['}'] := by
    rw [hfrag]
    exact Utf8.decodeLossy_append_ascii (by decide) _ []
  have hnl : '\n' ∉ Utf8.decodeLossy ((Utf8.encode (J.text e)).drop k) :=
    Utf8.not_mem_decodeLossy_newline fun hmem ↦ h.newline_not_mem_bytes (List.mem_of_mem_drop hmem)
  have hlines : Text.lines (Utf8.decodeLossy ((Utf8.encode (J.text e)).drop k ++ [Utf8.newline])) =
      [Utf8.decodeLossy ((Utf8.encode (J.text e)).drop k)] := by
    rw [Utf8.decodeLossy_append_newline, Text.lines_append_newline _ hnl, Text.stripCr, hdec,
      if_neg (by simp)]
    rfl
  have hblank : Text.isBlank (Utf8.decodeLossy ((Utf8.encode (J.text e)).drop k)) = false := by
    rw [hdec, Text.isBlank, List.all_append]
    simp [show Text.isWhitespace '}' = false by decide]
  rw [Text.lastLine, hlines]
  simp [hblank]

/-- After complete lines, a last line longer than one block is refused: its last block begins inside
the line, and no end of the line reads as an entry. -/
theorem readLastEntry_of_long (path : String) {es : List AuditEntry} {e : AuditEntry}
    (h : J.Faithful e) (hlong : block < (J.line e).length) :
    ∃ err, readLastEntry J path (segmentBytes J (es ++ [e])) = .error err := by
  set content := segmentBytes J (es ++ [e])
  have hsplit : content = segmentBytes J es ++ J.line e := segmentBytes_append_singleton es e
  have hlen : content.length = (segmentBytes J es).length + (J.line e).length := by
    rw [hsplit, List.length_append]
  obtain ⟨start, hstart⟩ : ∃ start, start = content.length - min block content.length := ⟨_, rfl⟩
  -- the block begins `k` bytes into the text of the last line
  obtain ⟨k, hk⟩ : ∃ k, start = (segmentBytes J es).length + k :=
    ⟨start - (segmentBytes J es).length, by omega⟩
  have hblock : block = 65536 := rfl
  have hline : (J.line e).length = (Utf8.encode (J.text e)).length + 1 := by
    simp [AuditJson.line]
  have hk0 : 0 < k := by omega
  have hklt : k < (Utf8.encode (J.text e)).length := by omega
  have hdrop : content.drop start = (Utf8.encode (J.text e)).drop k ++ [Utf8.newline] := by
    rw [hsplit, hk, ← List.drop_drop, List.drop_left, AuditJson.line,
      List.drop_append_of_le_length (by omega)]
  have hlast : Text.lastLine (Utf8.decodeLossy (content.drop start)) =
      some (Utf8.decodeLossy ((Utf8.encode (J.text e)).drop k)) := by
    rw [hdrop]
    exact h.roundTrips.lastLine_fragment hklt
  have hmem : Utf8.newline ∈ content.drop start := by
    rw [hdrop]
    simp
  have hread := readLastLoop_of_line (J := J) path hstart hlast (Or.inl hmem)
  rw [List.drop_length] at hread
  rw [readLastEntry, if_neg (by omega), hread]
  refine h.parseLast_fragment path ?_ (Or.inr (List.drop_suffix _ _))
  rw [List.length_drop]
  omega

/-- **After complete lines the resuming writer reads the last entry or refuses the segment.** -/
theorem readLastEntry_segmentBytes (path : String) {es : List AuditEntry}
    (h : ∀ e ∈ es, J.Faithful e) :
    readLastEntry J path (segmentBytes J es) = .ok es.getLast? ∨
      ∃ err, readLastEntry J path (segmentBytes J es) = .error err := by
  rcases es.eq_nil_or_concat with rfl | ⟨fs, e, rfl⟩
  · exact Or.inl rfl
  · rw [List.concat_eq_append] at h ⊢
    have he := h e (by simp)
    rcases Nat.lt_or_ge block (J.line e).length with hlong | hshort
    · exact Or.inr (readLastEntry_of_long path he hlong)
    · left
      rw [readLastEntry_of_short path he.roundTrips hshort]
      simp

/-- **A torn line is refused.** What a crash leaves of a line, short of its last text byte, does not
read as an entry. -/
theorem readLastEntry_torn (path : String) {pre : Bytes} {e : AuditEntry} {k : ℕ}
    (hpre : Text.EndsWith Utf8.newline pre) (h : J.Faithful e) (hk : 0 < k)
    (hlt : k < (Utf8.encode (J.text e)).length) :
    ∃ err, readLastEntry J path (pre ++ (Utf8.encode (J.text e)).take k) = .error err := by
  have hrt := h.roundTrips
  obtain ⟨mid, hmid⟩ := hrt.text_spec.2.2.2
  have hopen : Utf8.encode (J.text e) = 0x7B :: Utf8.encode (mid ++ ['}']) := by
    rw [hmid]
    rfl
  obtain ⟨j, rfl⟩ : ∃ j, k = j + 1 := ⟨k - 1, by omega⟩
  have htake : (Utf8.encode (J.text e)).take (j + 1) =
      Utf8.encode ['{'] ++ (Utf8.encode (mid ++ ['}'])).take j := by
    rw [hopen, List.take_succ_cons]
    rfl
  have hblank :
      Text.isBlank (Utf8.decodeLossy ((Utf8.encode (J.text e)).take (j + 1))) = false := by
    rw [htake, Utf8.decodeLossy_encode_append, List.singleton_append, Text.isBlank, List.all_cons,
      show Text.isWhitespace '{' = false by decide, Bool.false_and]
  have hnl : Utf8.newline ∉ (Utf8.encode (J.text e)).take (j + 1) := fun hmem ↦
    hrt.newline_not_mem_bytes (List.mem_of_mem_take hmem)
  rw [readLastEntry_unterminated path hpre (by rw [htake]; simp [Utf8.encode, Utf8.encodeChar]) hnl
    hblank]
  refine h.parseLast_fragment path ?_ (Or.inl (List.take_prefix _ _))
  rw [List.length_take]
  omega

end

end Cordon
