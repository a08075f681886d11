import Cordon.Audit.SegmentOrder
import Cordon.Audit.LastEntry

/-!
# The tail of the log

Two readers of a whole log. `readAllEntries` reads every segment and sorts what it finds by
sequence. `readTailEntries` visits the segments from the last by name to the first, each from its
last line to its first, and stops as soon as it has `n` entries: **it never looks at what it leaves
out**, so it returns the newest `n` only if the order of the names is the order of the chain. That
is the ordering invariant of runs, and with it the fast reader returns the end of what the slow one
does (`tail_eq_drop`).

The fast reader sets room for `n` entries aside before it reads any, however few there are. A
request for more than fit into memory is a panic.

The ordering invariant is the subject of `Audit.SegmentOrder`, and is all that this module knows of
runs. What is left is about lists: that taking from the end of each segment, from the last to the
first, takes from the end of their concatenation (`collectFiles_of_clean`), and that the slow
reader's sort leaves a chain in order as it is.
-/

namespace Cordon

/-- The system calls of reading a log, and the memory there is for it. -/
structure ReadIo where
  readDir : Option String
  readFile : String → Option String
  /-- The size of an entry in memory, which the compiler decides. -/
  entrySize : ℕ
  /-- Whether so many bytes can be allocated. -/
  allocates : ℕ → Bool

/-- Why there is no list of entries. -/
inductive ReadHalt where
  | error (e : AuditError)
  /-- The room for a list cannot be allocated. -/
  | capacity

/-- `isize::MAX`, which no allocation exceeds. -/
def maxAllocation : ℕ := 2 ^ 63 - 1

/-- `usize::MAX`. -/
def maxRequest : ℕ := 2 ^ 64 - 1

/-- Whether a list can be created with room for `n` entries. -/
def ReadIo.fits (io : ReadIo) (n : ℕ) : Bool :=
  io.entrySize * n ≤ maxAllocation && io.allocates (io.entrySize * n)

section

variable (J : AuditJson)

/-- `log_files`. -/
def listLogFiles (d : Dir) (io : ReadIo) : Except AuditError (List String) :=
  match io.readDir with
  | some e => .error (.ioError e)
  | none => .ok d.logFiles

/-- The text of a segment. -/
def readToString (d : Dir) (io : ReadIo) (file : String) : Except AuditError (List Char) :=
  match io.readFile file with
  | some e => .error (.ioError e)
  | none =>
    match Utf8.decode (d.content file) with
    | none => .error (.ioError "stream did not contain valid UTF-8")
    | some text => .ok text

/-- Parse lines; blank ones are skipped. -/
def parseLines : List (List Char) → Except AuditError (List AuditEntry)
  | [] => .ok []
  | line :: lines =>
    if Text.isBlank line then parseLines lines
    else
      match J.entryFromStr (String.ofList line) with
      | .error e => .error (.serializationError e)
      | .ok entry => (entry :: ·) <$> parseLines lines

/-- Every entry of a list of segments, in the order of the list. -/
def readFiles (d : Dir) (io : ReadIo) : List String → Except AuditError (List AuditEntry)
  | [] => .ok []
  | file :: files => do
    let text ← readToString d io file
    let here ← parseLines J (Text.lines text)
    let rest ← readFiles d io files
    return here ++ rest

/-- Read every entry from every log segment, in chain order. -/
def readAllEntries (d : Dir) (io : ReadIo) : Except AuditError (List AuditEntry) := do
  let files ← listLogFiles d io
  sortBySequence <$> readFiles J d io files

/-- Collect entries from lines until there are `n`; lines that do not parse are skipped. -/
def collectLines (n : ℕ) : List AuditEntry → List (List Char) → List AuditEntry
  | collected, [] => collected
  | collected, line :: lines =>
    if Text.isBlank line then collectLines n collected lines
    else
      let collected := match J.entryFromStr (String.ofList line) with
        | .ok entry => collected ++ [entry]
        | .error _ => collected
      if n ≤ collected.length then collected else collectLines n collected lines

/-- Collect entries from segments until there are `n`, the last line of each first. -/
def collectFiles (d : Dir) (io : ReadIo) (n : ℕ) :
    List AuditEntry → List String → Except AuditError (List AuditEntry)
  | collected, [] => .ok collected
  | collected, file :: files => do
    let text ← readToString d io file
    let collected := collectLines J n collected (Text.lines text).reverse
    if n ≤ collected.length then .ok collected else collectFiles d io n collected files

/-- Read the most recent `n` entries without loading the whole log. -/
def readTailEntries (d : Dir) (io : ReadIo) (n : ℕ) : Except ReadHalt (List AuditEntry) :=
  if n = 0 then .ok []
  else do
    let files ← (listLogFiles d io).mapError .error
    if io.fits n then
      let collected ← (collectFiles J d io n [] files.reverse).mapError .error
      return sortBySequence collected
    else .error .capacity

end

/-- Every system call of reading succeeds. -/
structure ReadIo.Clean (io : ReadIo) : Prop where
  readDir : io.readDir = none
  readFile : ∀ f, io.readFile f = none

/-! ### Reading a segment -/

section Segment

variable {J : AuditJson} {d : Dir} {io : ReadIo} {es : List AuditEntry}

/-- The lines of a segment are the texts of its entries. -/
theorem lines_segmentText (h : ∀ e ∈ es, J.RoundTrips e) :
    Text.lines (segmentText J es) = es.map J.text := by
  induction es with
  | nil => rfl
  | cons e es ih =>
    have he := h e List.mem_cons_self
    have hcons : segmentText J (e :: es) = J.text e ++ '\n' :: segmentText J es := by
      rw [segmentText, List.flatMap_cons, List.append_assoc, List.singleton_append, segmentText]
    rw [hcons, Text.lines_append_newline _ he.newline_not_mem, he.stripCr_text,
      ih fun a ha ↦ h a (List.mem_cons_of_mem _ ha), List.map_cons]

theorem readToString_of_clean (hio : io.Clean) {f : String}
    (hcontent : d.content f = segmentBytes J es) :
    readToString d io f = .ok (segmentText J es) := by
  rw [readToString, hio.readFile f, hcontent, segmentBytes_eq_encode, Utf8.decode_encode,
    segmentText]

/-- Every line of a segment is parsed. -/
theorem parseLines_map_text (h : ∀ e ∈ es, J.RoundTrips e) :
    parseLines J (es.map J.text) = .ok es := by
  induction es with
  | nil => rfl
  | cons e es ih =>
    have he := h e List.mem_cons_self
    rw [List.map_cons, parseLines, if_neg (by rw [he.isBlank_text]; decide), he.text_spec.2.1,
      ih fun a ha ↦ h a (List.mem_cons_of_mem _ ha)]
    rfl

/-- **Lines are collected** until there are enough. -/
theorem collectLines_map_text (h : ∀ e ∈ es, J.RoundTrips e) {n : ℕ} {collected : List AuditEntry}
    (hn : collected.length < n) :
    collectLines J n collected (es.map J.text) =
      collected ++ es.take (n - collected.length) := by
  induction es generalizing collected with
  | nil => rw [List.map_nil, collectLines, List.take_nil, List.append_nil]
  | cons e es ih =>
    have he := h e List.mem_cons_self
    obtain ⟨k, hk⟩ : ∃ k, n - collected.length = k + 1 := ⟨n - collected.length - 1, by omega⟩
    rw [List.map_cons, collectLines, if_neg (by rw [he.isBlank_text]; decide), he.text_spec.2.1,
      hk, List.take_succ_cons]
    show (if n ≤ (collected ++ [e]).length then collected ++ [e]
      else collectLines J n (collected ++ [e]) (es.map J.text)) = _
    have hlen : (collected ++ [e]).length = collected.length + 1 := by simp
    split_ifs with hfull
    · obtain rfl : k = 0 := by omega
      rw [List.take_zero]
    · have hrest : n - (collected ++ [e]).length = k := by omega
      rw [ih (fun a ha ↦ h a (List.mem_cons_of_mem _ ha)) (by omega), hrest, List.append_assoc,
        List.singleton_append]

end Segment

/-! ### Reading the segments -/

section Files

variable {J : AuditJson} {d : Dir} {io : ReadIo} {seg : String → List AuditEntry}
  {fs : List String}

theorem readFiles_of_clean (hio : io.Clean)
    (hcontent : ∀ f ∈ fs, d.content f = segmentBytes J (seg f))
    (h : ∀ f ∈ fs, ∀ e ∈ seg f, J.RoundTrips e) :
    readFiles J d io fs = .ok (fs.flatMap seg) := by
  induction fs with
  | nil => rfl
  | cons f fs ih =>
    have hf := h f List.mem_cons_self
    rw [readFiles, readToString_of_clean hio (hcontent f List.mem_cons_self), Except.ok_bind,
      lines_segmentText hf, parseLines_map_text hf, Except.ok_bind,
      ih (fun g hg ↦ hcontent g (List.mem_cons_of_mem _ hg))
        (fun g hg ↦ h g (List.mem_cons_of_mem _ hg)), Except.ok_bind, List.flatMap_cons]
    rfl

/-- **Segments are collected** until there are enough entries, each from its end. -/
theorem collectFiles_of_clean (hio : io.Clean) {n : ℕ} {collected : List AuditEntry}
    (hcontent : ∀ f ∈ fs, d.content f = segmentBytes J (seg f))
    (h : ∀ f ∈ fs, ∀ e ∈ seg f, J.RoundTrips e) (hn : collected.length < n) :
    collectFiles J d io n collected fs =
      .ok (collected ++ (fs.flatMap fun f ↦ (seg f).reverse).take (n - collected.length)) := by
  induction fs generalizing collected with
  | nil => rw [collectFiles, List.flatMap_nil, List.take_nil, List.append_nil]
  | cons f fs ih =>
    have hf := h f List.mem_cons_self
    have hreverse : ∀ e ∈ (seg f).reverse, J.RoundTrips e := fun e he ↦ hf e (List.mem_reverse.1 he)
    rw [collectFiles, readToString_of_clean hio (hcontent f List.mem_cons_self), Except.ok_bind,
      lines_segmentText hf, ← List.map_reverse, collectLines_map_text hreverse hn,
      List.flatMap_cons, List.take_append, List.length_reverse, ← List.append_assoc]
    obtain ⟨here, hhere⟩ :
      ∃ here, here = (seg f).reverse.take (n - collected.length) := ⟨_, rfl⟩
    have hlen : (collected ++ here).length =
        collected.length + min (n - collected.length) (seg f).length := by
      rw [hhere, List.length_append, List.length_take, List.length_reverse]
    rw [← hhere]
    show (if n ≤ (collected ++ here).length then .ok (collected ++ here)
      else collectFiles J d io n (collected ++ here) fs) = _
    split_ifs with hfull
    · have hzero : n - collected.length - (seg f).length = 0 := by omega
      rw [hzero, List.take_zero, List.append_nil]
    · have hrest : n - (collected ++ here).length =
        n - collected.length - (seg f).length := by omega
      rw [ih (fun g hg ↦ hcontent g (List.mem_cons_of_mem _ hg))
        (fun g hg ↦ h g (List.mem_cons_of_mem _ hg)) (by omega), hrest]

end Files

/-! ### The two readers -/

section Readers

variable {E : Ed25519} {J : AuditJson} {key : SigningKey} {deploymentId : String} {d : Dir}
  {io : ReadIo} {es : List AuditEntry} {seg : String → List AuditEntry}

/-- The slow reader returns the chain. -/
theorem InOrder.readAllEntries (h : InOrder J d es seg) (hio : io.Clean)
    (hrt : ∀ e ∈ es, J.RoundTrips e) (hsorted : es.Pairwise fun a b ↦ a.sequence < b.sequence) :
    readAllEntries J d io = .ok es := by
  have hlayout : Layout J d es seg := ⟨h.content, h.entries ▸ List.Perm.refl _⟩
  rw [Cordon.readAllEntries, listLogFiles, hio.readDir, Except.ok_bind,
    readFiles_of_clean hio h.content fun f hf e he ↦ hrt e (hlayout.mem hf he), h.entries,
    Except.map_ok, sortBySequence_of_perm (List.Perm.refl es) hsorted]

/-- **The fast reader returns the end of the chain.** -/
theorem InOrder.readTailEntries (h : InOrder J d es seg) (hio : io.Clean)
    (hrt : ∀ e ∈ es, J.RoundTrips e) (hsorted : es.Pairwise fun a b ↦ a.sequence < b.sequence)
    {n : ℕ} (hfits : n ≠ 0 → io.fits n = true) :
    readTailEntries J d io n = .ok (es.drop (es.length - n)) := by
  have hlayout : Layout J d es seg := ⟨h.content, h.entries ▸ List.Perm.refl _⟩
  rcases Nat.eq_zero_or_pos n with rfl | hpos
  · rw [Nat.sub_zero, List.drop_length]
    rfl
  have hreverse : (d.logFiles.reverse.flatMap fun f ↦ (seg f).reverse) = es.reverse := by
    rw [← h.entries, List.reverse_flatMap]
    rfl
  have hcollect : collectFiles J d io n [] d.logFiles.reverse =
      .ok (es.drop (es.length - n)).reverse := by
    rw [collectFiles_of_clean hio (fun f hf ↦ h.content f (List.mem_reverse.1 hf))
      (fun f hf e he ↦ hrt e (hlayout.mem (List.mem_reverse.1 hf) he)) hpos, hreverse,
      List.nil_append, List.length_nil, Nat.sub_zero, List.take_reverse]
  rw [Cordon.readTailEntries, if_neg hpos.ne', listLogFiles, hio.readDir]
  show (if io.fits n = true then
    (collectFiles J d io n [] d.logFiles.reverse).mapError ReadHalt.error >>= fun collected ↦
      pure (sortBySequence collected) else .error .capacity) = _
  rw [if_pos (hfits hpos.ne'), hcollect]
  show Except.ok (sortBySequence (es.drop (es.length - n)).reverse) = _
  rw [sortBySequence_of_perm (List.reverse_perm _) (hsorted.sublist (List.drop_sublist _ _))]

/-- **The fast tail is the end of the slow one.** In every run without errors, as long as sequences
fit into 64 bits and `n` entries into memory, the two readers agree on the last `n` entries: all
that appends returned, in sequence order. -/
theorem tail_eq_drop {s : System}
    (h : Transition.Reachable (System.step E J key) (ErrorFree E J key deploymentId) System.init s)
    (hfaith : ∀ e ∈ s.attempted, J.Faithful e) (hsequences : s.returned.length < 2 ^ 64)
    {io : ReadIo} (hio : io.Clean) {n : ℕ} (hfits : n ≠ 0 → io.fits n = true) :
    ∃ all, readAllEntries J s.dir io = .ok all ∧ all = s.returned ∧
      readTailEntries J s.dir io n = .ok (all.drop (all.length - n)) ∧
      (all.drop (all.length - n)).length = min n all.length ∧
      all.Pairwise fun a b ↦ a.sequence < b.sequence := by
  have hgood := good_returned (h.mono fun _ _ hr ha ↦ harmless_of_errorFree hr ha) hfaith
  have hsorted := hgood.run.sealedChain.pairwise_sequence
  have hrt : ∀ e ∈ s.returned, J.RoundTrips e := fun e he ↦
    (hgood.faithful hfaith e he).roundTrips
  obtain ⟨seg, horder, -⟩ := (ordered_of_errorFree h hfaith hsequences).order
  refine ⟨s.returned, horder.readAllEntries hio hrt hsorted, rfl,
    horder.readTailEntries hio hrt hsorted hfits, ?_, hsorted⟩
  rw [List.length_drop]
  omega

end Readers

/-! ### A log to read -/

/-- Reading with all the memory there can be, for entries of some size. -/
def roomyIo (entrySize : ℕ) : ReadIo where
  readDir := none
  readFile _ := none
  entrySize
  allocates _ := true

theorem clean_roomyIo (entrySize : ℕ) : (roomyIo entrySize).Clean :=
  ⟨rfl, fun _ ↦ rfl⟩

theorem returned_sampleOpened : sampleOpened.returned = [sampleFirst] := by
  obtain ⟨log, d, f, -, hs, -⟩ := sampleOpened_spec
  rw [hs]

/-- The last two of three entries, in a log whose newest segment is empty. -/
theorem sample_tail_of_two :
    readTailEntries sampleJson sampleRotated.dir (roomyIo 512) 2 =
      .ok [sampleSecond, sampleThird] := by
  obtain ⟨hreach, hlive, -⟩ := sampleRotated_spec
  obtain ⟨all, -, hall, htail, -⟩ := tail_eq_drop hreach hlive.faithful
    (by rw [hlive.returned]; decide) (clean_roomyIo 512) (n := 2) (fun _ ↦ by decide)
  rw [hall, hlive.returned] at htail
  exact htail

/-- **A request for as many entries as a number can name panics**, whatever the size of an entry and
however much memory there is. -/
theorem huge_tail_panics :
    Transition.Reachable (System.step zeroEd25519 sampleJson sampleKey)
        (ErrorFree zeroEd25519 sampleJson sampleKey "deployment-1") System.init sampleOpened ∧
      ∀ entrySize, 0 < entrySize →
        readAllEntries sampleJson sampleOpened.dir (roomyIo entrySize) = .ok [sampleFirst] ∧
        readTailEntries sampleJson sampleOpened.dir (roomyIo entrySize) maxRequest =
          .error .capacity := by
  refine ⟨reachable_sampleOpened, fun entrySize hsize ↦ ⟨?_, ?_⟩⟩
  · have hgood := good_returned reachable_sampleOpened_harmless sampleOpened_faithful
    obtain ⟨seg, horder, -⟩ := (ordered_of_errorFree reachable_sampleOpened sampleOpened_faithful
      (by rw [returned_sampleOpened]; decide)).order
    rw [horder.readAllEntries (clean_roomyIo entrySize)
      (fun e he ↦ (hgood.faithful sampleOpened_faithful e he).roundTrips)
      hgood.run.sealedChain.pairwise_sequence, returned_sampleOpened]
  · have hfits : (roomyIo entrySize).fits maxRequest = false := by
      have hle : maxRequest ≤ entrySize * maxRequest := Nat.le_mul_of_pos_left _ hsize
      have hlt : ¬entrySize * maxRequest ≤ maxAllocation := by
        have hbig : maxAllocation < maxRequest := by decide
        omega
      rw [ReadIo.fits, roomyIo, decide_eq_false hlt, Bool.false_and]
    rw [readTailEntries, if_neg (by decide), hfits]
    rfl

end Cordon
