import Cordon.Core.Bundles
import Cordon.Core.HubDownload

/-!
# References to models on the Hub

`ModelRef.parse` reads `owner/repo@revision:quant`, with a host in front or not, and `display`
writes it. What stands behind the host is read by `parseRest`, and there printing and parsing are
inverse to each other on every reference that the checks admit (`parseRest_display`).

Two things are lost elsewhere. **An owner that is called as the Hub itself is taken for the host
when the printed form is read again** (`display_parses_back_iff`). And the local identifier joins
three of the four parts with a separator that the parts may hold, so **different references can have
one identifier, and then they have the same files** (`localIds_differ_iff`).

`display_parses_back_iff` rests on the round trip behind the host and on where the owner of an
accepted text stands (`owner_of_parse`): if the host has been discarded once, the owner is what
follows it, and it is called as the host exactly if the text names the host again.
`localIds_differ_iff` is decided on the joined strings (`localId_eq_iff`), of which the revision is
no part; that identifiers in common are files in common, and no others, rests on the suffixes of the
files (`fileNames_inj`).
-/

namespace Cordon

namespace Hub

/-- A parsed model reference. -/
structure ModelRef where
  owner : String
  repo : String
  /-- Git revision. -/
  revision : String
  /-- Requested quantisation, if the caller named one. -/
  quant : Option String
  deriving DecidableEq, Repr

/-! ### Segments -/

/-- The characters of a segment. -/
def isSegmentChar (c : Char) : Bool :=
  c.isAlphanum || c = '-' || c = '_' || c = '.'

/-- Reject anything that could escape the intended URL path. -/
def validatePathSegment (segment what : String) : Except CordonError Unit := do
  .ensure (segment ≠ "") (.validationFailed ("empty " ++ what))
  .ensure (!(segment = "." ∨ segment = ".." ∨ "..".toList <:+: segment.toList))
    (.validationFailed (what ++ " '" ++ segment ++ "' contains a path traversal"))
  .ensure (segment.toList.all isSegmentChar)
    (.validationFailed (what ++ " '" ++ segment ++ "' contains characters outside [A-Za-z0-9._-]"))

/-- What a segment is. -/
structure IsSegment (s : String) : Prop where
  ne_empty : s ≠ ""
  ne_dot : s ≠ "."
  no_dots : ¬"..".toList <:+: s.toList
  chars : ∀ c ∈ s.toList, isSegmentChar c = true

theorem validatePathSegment_eq_ok {segment what : String} :
    validatePathSegment segment what = .ok () ↔ IsSegment segment := by
  simp only [validatePathSegment, Except.unit_bind_eq_ok, Except.ensure_eq_ok, decide_eq_true_eq,
    Bool.not_eq_true', decide_eq_false_iff_not, not_or, List.all_eq_true]
  constructor
  · rintro ⟨hempty, ⟨hdot, -, hdots⟩, hchars⟩
    exact ⟨hempty, hdot, hdots, hchars⟩
  · intro h
    refine ⟨h.ne_empty, ⟨h.ne_dot, ?_, h.no_dots⟩, h.chars⟩
    rintro rfl
    exact h.no_dots List.infix_rfl

theorem isSegmentChar_cases {c : Char} (h : isSegmentChar c = true) :
    c.isAlphanum = true ∨ c = '-' ∨ c = '_' ∨ c = '.' := by
  simpa [isSegmentChar, or_assoc] using h

/-- A segment is ASCII. -/
theorem IsSegment.ascii {s : String} (h : IsSegment s) : ∀ c ∈ s.toList, c.toNat < 128 := by
  intro c hc
  rcases isSegmentChar_cases (h.chars c hc) with hletter | rfl | rfl | rfl
  · have hrange := Text.toNat_of_isAlphanum hletter
    omega
  all_goals decide

theorem IsSegment.toList_ne_nil {s : String} (h : IsSegment s) : s.toList ≠ [] :=
  fun hnil ↦ h.ne_empty (String.toList_eq_nil_iff.1 hnil)

/-- What is no character of a segment is not in one. -/
theorem IsSegment.not_mem {s : String} (h : IsSegment s) {c : Char} (hc : isSegmentChar c = false) :
    c ∉ s.toList := by
  intro hmem
  rw [h.chars c hmem] at hc
  cases hc

/-! ### Parsing -/

/-- The hosts that a reference may start with. -/
def hostPrefixes : List String :=
  ["https://huggingface.co/", "http://huggingface.co/", "hf.co/", "huggingface.co/"]

/-- A hub host in front is discarded. -/
def stripHost (cs : List Char) : List Char :=
  match hostPrefixes.find? fun host ↦ host.toList.isPrefixOf cs with
  | some host => cs.drop host.toList.length
  | none => cs

/-- `:quant` comes last and cannot contain `/` or `@`. -/
def splitQuant (rest : List Char) : List Char × Option String :=
  match Text.rsplitOnce ':' rest with
  | some (head, tail) =>
    if '/' ∉ tail ∧ '@' ∉ tail ∧ tail ≠ [] then (head, some (String.ofList tail)) else (rest, none)
  | none => (rest, none)

/-- The revision stands behind the first `@`. -/
def splitRevision (rest : List Char) : List Char × String :=
  match Text.splitOnce '@' rest with
  | some (head, tail) => if tail ≠ [] then (head, String.ofList tail) else (rest, "main")
  | none => (rest, "main")

/-- What stands between slashes, where it is not empty. -/
def segments (path : List Char) : List String :=
  ((path.splitOn '/').filter fun p ↦ !p.isEmpty).map String.ofList

/-- A quantisation is a segment too, where there is one. -/
def validateQuant : Option String → Except CordonError Unit
  | some q => validatePathSegment q "quantisation"
  | none => .ok ()

theorem validateQuant_eq_ok {quant : Option String} :
    validateQuant quant = .ok () ↔ ∀ q ∈ quant, IsSegment q := by
  cases quant with
  | none => simp [validateQuant]
  | some q => simp [validateQuant, validatePathSegment_eq_ok]

namespace ModelRef

/-- The path is `owner/repo`, and every part is a segment. -/
def ofPath (input path : List Char) (revision : String) (quant : Option String) :
    Except CordonError ModelRef :=
  match segments path with
  | [] =>
    .error (.validationFailed ("model reference '" ++ String.ofList input ++ "' has no owner"))
  | [_] =>
    .error (.validationFailed ("model reference '" ++ String.ofList input ++
      "' must be owner/repo (for example HuggingFaceTB/SmolLM2-360M-Instruct-GGUF)"))
  | [owner, repo] => do
    validatePathSegment owner "owner"
    validatePathSegment repo "repository"
    validatePathSegment revision "revision"
    validateQuant quant
    .ok ⟨owner, repo, revision, quant⟩
  | _ =>
    .error (.validationFailed
      ("model reference '" ++ String.ofList input ++ "' has too many path segments"))

/-- What stands behind the host. Errors name the whole input. -/
def parseRest (input rest : List Char) : Except CordonError ModelRef :=
  let (rest, quant) := splitQuant rest
  let (path, revision) := splitRevision rest
  ofPath input path revision quant

theorem parseRest_eq (input rest : List Char) :
    parseRest input rest = ofPath input (splitRevision (splitQuant rest).1).1
      (splitRevision (splitQuant rest).1).2 (splitQuant rest).2 :=
  rfl

/-- Parse a reference. -/
def parse (s : String) : Except CordonError ModelRef := do
  let input := Text.trim s.toList
  .ensure (!input.isEmpty) (.validationFailed "empty model reference")
  parseRest input (stripHost input)

/-- The revision and the quantisation as they are displayed. -/
def displayTail (r : ModelRef) : String :=
  (if r.revision ≠ "main" then "@" ++ r.revision else "") ++
    match r.quant with
    | some q => ":" ++ q
    | none => ""

/-- `Display`. -/
def display (r : ModelRef) : String :=
  r.owner ++ "/" ++ r.repo ++ r.displayTail

/-- `local_id`. -/
def localId (toLowercase : String → String) (r : ModelRef) : String :=
  let quant := r.quant.getD "auto"
  toLowercase r.owner ++ "--" ++ toLowercase r.repo ++ "--" ++ toLowercase quant

/-- The parts of a reference are segments. -/
structure Valid (r : ModelRef) : Prop where
  owner : IsSegment r.owner
  repo : IsSegment r.repo
  revision : IsSegment r.revision
  quant : ∀ q ∈ r.quant, IsSegment q

theorem ofPath_eq_ok {input path : List Char} {revision : String} {quant : Option String}
    {r : ModelRef} : ofPath input path revision quant = .ok r ↔
      segments path = [r.owner, r.repo] ∧ r.revision = revision ∧ r.quant = quant ∧ r.Valid := by
  unfold ofPath
  rcases hpath : segments path with - | ⟨owner, - | ⟨repo, - | ⟨more, rest⟩⟩⟩
  · simp
  · simp
  · simp only [Except.unit_bind_eq_ok, validatePathSegment_eq_ok, validateQuant_eq_ok,
      Except.ok.injEq, List.cons.injEq, and_true]
    constructor
    · rintro ⟨howner, hrepo, hrevision, hquant, rfl⟩
      exact ⟨⟨rfl, rfl⟩, rfl, rfl, howner, hrepo, hrevision, hquant⟩
    · rintro ⟨⟨rfl, rfl⟩, rfl, rfl, hr⟩
      exact ⟨hr.owner, hr.repo, hr.revision, hr.quant, rfl⟩
  · simp

/-! ### Printing and parsing -/

theorem toList_display (r : ModelRef) :
    r.display.toList = r.owner.toList ++ '/' :: (r.repo.toList ++ r.displayTail.toList) := by
  simp [display]

/-- What is displayed of the revision, and then of the quantisation. -/
theorem toList_displayTail (r : ModelRef) : r.displayTail.toList =
    (if r.revision ≠ "main" then '@' :: r.revision.toList else []) ++
      r.quant.elim [] fun q ↦ ':' :: q.toList := by
  rw [displayTail, String.toList_append]
  congr 1
  · split_ifs
    · simp
    · rfl
  · cases r.quant with
    | none => rfl
    | some q => simp

theorem segments_owner_repo {owner repo : String} (ho : IsSegment owner) (hr : IsSegment repo) :
    segments (owner.toList ++ '/' :: repo.toList) = [owner, repo] := by
  have hcut : (owner.toList ++ '/' :: repo.toList).splitOn '/' = [owner.toList, repo.toList] := by
    rw [List.splitOn_append_cons_self_of_not_mem (ho.not_mem (by decide)),
      List.splitOn_eq_singleton (hr.not_mem (by decide))]
  simp [segments, hcut, ho.ne_empty, hr.ne_empty]

theorem segments_repo {repo : String} (hr : IsSegment repo) : segments repo.toList = [repo] := by
  rw [segments, List.splitOn_eq_singleton (hr.not_mem (by decide))]
  simp [hr.ne_empty]

/-- **Behind a path, what is displayed of the revision and of the quantisation is read back.** -/
theorem parseRest_append_displayTail {r : ModelRef} (h : r.Valid) (input : List Char)
    {path : List Char} (hcolon : ':' ∉ path) (hat : '@' ∉ path) :
    parseRest input (path ++ r.displayTail.toList) = ofPath input path r.revision r.quant := by
  -- the text before the quantisation, and what is made of it
  let before := path ++ if r.revision ≠ "main" then '@' :: r.revision.toList else []
  have hbefore : ':' ∉ before := by
    rcases eq_or_ne r.revision "main" with heq | hne
    · simpa [before, heq] using hcolon
    · simpa [before, hne] using ⟨hcolon, h.revision.not_mem (by decide)⟩
  have hsplit : splitRevision before = (path, r.revision) := by
    rcases eq_or_ne r.revision "main" with heq | hne
    · simp [before, heq, splitRevision, Text.splitOnce_of_not_mem hat]
    · simp [before, hne, splitRevision, Text.splitOnce_append hat, h.revision.ne_empty]
  have hquant : splitQuant (path ++ r.displayTail.toList) = (before, r.quant) := by
    rcases hq : r.quant with - | q
    · have htext : path ++ r.displayTail.toList = before := by
        rw [toList_displayTail, hq, ← List.append_assoc]
        exact List.append_nil before
      rw [htext, splitQuant, Text.rsplitOnce_of_not_mem hbefore]
    · have htext : path ++ r.displayTail.toList = before ++ ':' :: q.toList := by
        rw [toList_displayTail, hq, ← List.append_assoc]
        rfl
      have hsegment : IsSegment q := h.quant q hq
      have htail : '/' ∉ q.toList ∧ '@' ∉ q.toList ∧ q.toList ≠ [] :=
        ⟨hsegment.not_mem (by decide), hsegment.not_mem (by decide), hsegment.toList_ne_nil⟩
      rw [htext, splitQuant, Text.rsplitOnce_append (hsegment.not_mem (by decide))]
      simp only [if_pos htail, String.ofList_toList]
  rw [parseRest_eq, hquant, hsplit]

/-- **Printing and parsing are inverse behind the host.** -/
theorem parseRest_display {r : ModelRef} (h : r.Valid) (input : List Char) :
    parseRest input r.display.toList = .ok r := by
  have htext : r.display.toList = (r.owner.toList ++ '/' :: r.repo.toList) ++
      r.displayTail.toList := by
    rw [toList_display]
    simp
  have hnot : ∀ c, isSegmentChar c = false → c ≠ '/' →
      c ∉ r.owner.toList ++ '/' :: r.repo.toList := by
    intro c hc hslash
    simpa [hslash] using ⟨h.owner.not_mem hc, h.repo.not_mem hc⟩
  rw [htext, parseRest_append_displayTail h input (hnot ':' (by decide) (by decide))
    (hnot '@' (by decide) (by decide)), ofPath_eq_ok]
  exact ⟨segments_owner_repo h.owner h.repo, rfl, rfl, h⟩

/-- **Among references that the checks admit, the printed form tells which it is.** -/
theorem display_injOn : Set.InjOn display {r | r.Valid} := by
  intro r hr s hs h
  have hread := parseRest_display hr []
  rw [show r.display = s.display from h, parseRest_display hs, Except.ok.injEq] at hread
  exact hread.symm

/-- What `parse` accepts. -/
theorem parse_eq_ok {s : String} {r : ModelRef} :
    parse s = .ok r ↔ Text.trim s.toList ≠ [] ∧
      parseRest (Text.trim s.toList) (stripHost (Text.trim s.toList)) = .ok r := by
  simp [parse, Except.unit_bind_eq_ok]

theorem parse_valid {s : String} {r : ModelRef} (h : parse s = .ok r) : r.Valid := by
  have hparse := (parse_eq_ok.1 h).2
  rw [parseRest_eq, ofPath_eq_ok] at hparse
  exact hparse.2.2.2

/-! ### The host -/

/-- A host in front of a path is the owner. -/
theorem prefix_slash_iff {host more owner rest : List Char} (hh : '/' ∉ host) (ho : '/' ∉ owner) :
    host ++ '/' :: more <+: owner ++ '/' :: rest ↔ host = owner ∧ more <+: rest := by
  constructor
  · rintro ⟨t, ht⟩
    rw [List.append_assoc, List.cons_append] at ht
    obtain ⟨hhost, hrest⟩ := Text.cut_inj hh ho ht
    exact ⟨hhost, t, hrest⟩
  · rintro ⟨rfl, t, rfl⟩
    exact ⟨t, by simp⟩

theorem stripHost_hf (rest : List Char) : stripHost ("hf.co".toList ++ '/' :: rest) = rest :=
  rfl

theorem stripHost_huggingface (rest : List Char) :
    stripHost ("huggingface.co".toList ++ '/' :: rest) = rest :=
  rfl

theorem stripHost_eq_self {owner rest : List Char} (ho : '/' ∉ owner) (hcolon : ':' ∉ owner)
    (hhf : owner ≠ "hf.co".toList) (hhub : owner ≠ "huggingface.co".toList) :
    stripHost (owner ++ '/' :: rest) = owner ++ '/' :: rest := by
  have hscheme : ∀ scheme more : List Char, ':' ∈ scheme → '/' ∉ scheme →
      ¬scheme ++ '/' :: more <+: owner ++ '/' :: rest := by
    intro scheme more hmem hslash hprefix
    exact hcolon (((prefix_slash_iff hslash ho).1 hprefix).1 ▸ hmem)
  have hhost : ∀ host : List Char, '/' ∉ host → owner ≠ host →
      ¬host ++ ['/'] <+: owner ++ '/' :: rest :=
    fun host hslash hne hprefix ↦ hne ((prefix_slash_iff hslash ho).1 hprefix).1.symm
  have hnone : hostPrefixes.find? (fun host ↦ host.toList.isPrefixOf (owner ++ '/' :: rest)) =
      none := by
    simp only [hostPrefixes, List.find?_eq_none, List.forall_mem_cons, List.isPrefixOf_iff_prefix]
    exact ⟨hscheme "https:".toList "/huggingface.co/".toList (by decide) (by decide),
      hscheme "http:".toList "/huggingface.co/".toList (by decide) (by decide),
      hhost "hf.co".toList (by decide) hhf, hhost "huggingface.co".toList (by decide) hhub,
      by simp⟩
  rw [stripHost, hnone]

theorem not_mem_displayTail {r : ModelRef} (h : r.Valid) {c : Char} (hc : isSegmentChar c = false)
    (hat : c ≠ '@') (hcolon : c ≠ ':') : c ∉ r.displayTail.toList := by
  have hrevision : c ∉ (if r.revision ≠ "main" then '@' :: r.revision.toList else []) := by
    split_ifs
    · exact List.not_mem_cons_of_ne_of_not_mem hat (h.revision.not_mem hc)
    · exact List.not_mem_nil
  have hquant : c ∉ r.quant.elim [] fun q ↦ ':' :: q.toList := by
    rcases hq : r.quant with - | q
    · exact List.not_mem_nil
    · exact List.not_mem_cons_of_ne_of_not_mem hcolon ((h.quant q hq).not_mem hc)
  rw [toList_displayTail]
  exact List.not_mem_append hrevision hquant

/-- What is displayed has no white space. -/
theorem trim_display {r : ModelRef} (h : r.Valid) :
    Text.trim r.display.toList = r.display.toList := by
  have hspace : ∀ c, Text.isWhitespace c = true → isSegmentChar c = false := by
    intro c hc
    by_contra hsegment
    have hchar := isSegmentChar_cases (Bool.eq_true_of_not_eq_false hsegment)
    rcases hchar with hletter | rfl | rfl | rfl
    · rw [Text.isWhitespace_of_isAlphanum hletter] at hc
      cases hc
    all_goals exact absurd hc (by decide)
  refine Text.trim_eq_self fun c hc ↦ Bool.eq_false_of_not_eq_true fun hwhite ↦ ?_
  have hne : ∀ d, Text.isWhitespace d = false → c ≠ d := by
    rintro d hd rfl
    rw [hwhite] at hd
    cases hd
  rw [toList_display, List.mem_append, List.mem_cons, List.mem_append] at hc
  rcases hc with hc | hc | hc | hc
  · exact h.owner.not_mem (hspace c hwhite) hc
  · exact hne '/' (by decide) hc
  · exact h.repo.not_mem (hspace c hwhite) hc
  · exact not_mem_displayTail h (hspace c hwhite) (hne '@' (by decide)) (hne ':' (by decide)) hc

theorem parse_display {r : ModelRef} (h : r.Valid) :
    parse r.display = parseRest r.display.toList (stripHost r.display.toList) := by
  have hne : r.display.toList ≠ [] := by
    rw [toList_display]
    simp
  simp [parse, trim_display h, Except.ensure, hne]

/-- An owner that is called as a host does not survive. -/
theorem parseRest_repo_ne_ok {r : ModelRef} (h : r.Valid) (input : List Char) :
    parseRest input (r.repo.toList ++ r.displayTail.toList) ≠ .ok r := by
  rw [parseRest_append_displayTail h input (h.repo.not_mem (by decide))
    (h.repo.not_mem (by decide)), Ne, ofPath_eq_ok, segments_repo h.repo]
  simp

/-- **A reference is printed and read back, unless its owner is called as a host.** -/
theorem parse_display_eq_ok_iff {r : ModelRef} (h : r.Valid) :
    parse r.display = .ok r ↔ ¬(r.owner = "hf.co" ∨ r.owner = "huggingface.co") := by
  rw [parse_display h]
  constructor
  · rintro hparse (hhost | hhost)
    · rw [toList_display, hhost, stripHost_hf] at hparse
      exact parseRest_repo_ne_ok h _ hparse
    · rw [toList_display, hhost, stripHost_huggingface] at hparse
      exact parseRest_repo_ne_ok h _ hparse
  · rintro hhost
    have hself : stripHost r.display.toList = r.display.toList := by
      rw [toList_display]
      exact stripHost_eq_self (h.owner.not_mem (by decide)) (h.owner.not_mem (by decide))
        (fun heq ↦ hhost (Or.inl (String.toList_inj.1 heq)))
        fun heq ↦ hhost (Or.inr (String.toList_inj.1 heq))
    rw [hself, parseRest_display h]

/-! ### Where the owner stands -/

theorem segments_of_not_mem {path : List Char} (h : '/' ∉ path) : (segments path).length ≤ 1 := by
  rw [segments, List.splitOn_eq_singleton h, List.length_map]
  exact List.length_filter_le _ _

theorem segments_slash (path : List Char) : segments ('/' :: path) = segments path := by
  have hcut : ('/' :: path).splitOn '/' = [] :: path.splitOn '/' :=
    List.splitOn_append_cons_self_of_not_mem (List.not_mem_nil (a := '/')) path
  simp [segments, hcut]

theorem segments_append_slash {a : List Char} (hmem : '/' ∉ a) (hne : a ≠ []) (path : List Char) :
    segments (a ++ '/' :: path) = String.ofList a :: segments path := by
  have hempty : (!a.isEmpty) = true := by
    simpa using hne
  rw [segments, List.splitOn_append_cons_self_of_not_mem hmem, List.filter_cons, if_pos hempty,
    List.map_cons, segments]

/-- The first of two segments or more stands before a slash, behind other slashes at most. -/
theorem dropWhile_of_segments {owner repo : String} {path : List Char} {more : List String}
    (h : segments path = owner :: repo :: more) :
    ∃ rest, path.dropWhile (· == '/') = owner.toList ++ '/' :: rest ∧ '/' ∉ owner.toList := by
  induction path with
  | nil => simp [segments] at h
  | cons c path ih =>
    rcases eq_or_ne c '/' with rfl | hne
    · rw [segments_slash] at h
      rw [List.dropWhile_cons_of_pos (by simp)]
      exact ih h
    · by_cases hmem : '/' ∈ c :: path
      · obtain ⟨a, b, hab, ha⟩ := List.eq_append_cons_of_mem hmem
        rcases a with - | ⟨d, a⟩
        · exact absurd (List.cons.inj hab).1 hne
        · rw [hab, segments_append_slash ha (by simp), List.cons.injEq] at h
          refine ⟨b, ?_, ?_⟩
          · rw [List.dropWhile_cons_of_neg (by simpa using hne), hab, ← h.1, String.toList_ofList]
          · rwa [← h.1, String.toList_ofList]
      · have hlength := segments_of_not_mem hmem
        rw [h] at hlength
        simp at hlength

theorem splitQuant_fst_isPrefix (rest : List Char) : (splitQuant rest).1 <+: rest := by
  rw [splitQuant]
  rcases hcut : Text.rsplitOnce ':' rest with - | ⟨head, tail⟩
  · exact List.prefix_rfl
  · show (if _ then (head, some (String.ofList tail)) else (rest, none)).1 <+: rest
    split_ifs
    · exact ⟨':' :: tail, (Text.eq_of_rsplitOnce hcut).symm⟩
    · exact List.prefix_rfl

theorem splitRevision_fst_isPrefix (rest : List Char) : (splitRevision rest).1 <+: rest := by
  rw [splitRevision]
  rcases hcut : Text.splitOnce '@' rest with - | ⟨head, tail⟩
  · exact List.prefix_rfl
  · show (if _ then (head, String.ofList tail) else (rest, "main")).1 <+: rest
    split_ifs
    · exact ⟨'@' :: tail, (Text.eq_of_splitOnce hcut).symm⟩
    · exact List.prefix_rfl

/-- **The owner of an accepted text stands behind the host**, before a slash. -/
theorem owner_of_parse {s : String} {r : ModelRef} (h : parse s = .ok r) :
    ∃ rest, (stripHost (Text.trim s.toList)).dropWhile (· == '/') =
      r.owner.toList ++ '/' :: rest := by
  have hparse := (parse_eq_ok.1 h).2
  rw [parseRest_eq, ofPath_eq_ok] at hparse
  obtain ⟨hsegments, -⟩ := hparse
  obtain ⟨rest, hdrop, -⟩ := dropWhile_of_segments hsegments
  obtain ⟨tail, htail⟩ := (splitRevision_fst_isPrefix _).trans
    (splitQuant_fst_isPrefix (stripHost (Text.trim s.toList)))
  refine ⟨rest ++ tail, ?_⟩
  rw [← htail, List.dropWhile_append, if_neg (by rw [hdrop]; simp), hdrop]
  simp

/-- The host is named once more behind the host that is discarded. -/
def RepeatsHost (s : String) : Prop :=
  let rest := (stripHost (Text.trim s.toList)).dropWhile (· == '/')
  "hf.co/".toList <+: rest ∨ "huggingface.co/".toList <+: rest

theorem repeatsHost_iff {s : String} {r : ModelRef} (h : parse s = .ok r) :
    RepeatsHost s ↔ r.owner = "hf.co" ∨ r.owner = "huggingface.co" := by
  obtain ⟨rest, hrest⟩ := owner_of_parse h
  have howner : '/' ∉ r.owner.toList := (parse_valid h).owner.not_mem (by decide)
  have hhost : ∀ host : String, '/' ∉ host.toList →
      (host.toList ++ ['/'] <+: r.owner.toList ++ '/' :: rest ↔ r.owner = host) := by
    intro host hslash
    rw [prefix_slash_iff hslash howner, String.toList_inj, eq_comm]
    simp
  rw [RepeatsHost, hrest]
  exact or_congr (hhost "hf.co" (by decide)) (hhost "huggingface.co" (by decide))

/-- **The reference that is read from a text is printed and read back, and its printed form tells it
from every other, exactly if the text does not name the host twice.** -/
theorem display_parses_back_iff {s : String} {r : ModelRef} (h : parse s = .ok r) :
    (parse r.display = .ok r ∧
      ∀ t r', parse t = .ok r' → r'.display = r.display → r' = r) ↔ ¬RepeatsHost s := by
  rw [repeatsHost_iff h, ← parse_display_eq_ok_iff (parse_valid h)]
  constructor
  · rintro ⟨hparse, -⟩
    exact hparse
  · intro hparse
    exact ⟨hparse, fun t r' ht heq ↦ display_injOn (parse_valid ht) (parse_valid h) heq⟩

theorem display_parses_back_iff_sample :
    parse (display ⟨"owner", "repo", "dev", some "Q8_0"⟩) =
      .ok ⟨"owner", "repo", "dev", some "Q8_0"⟩ :=
  ((display_parses_back_iff (s := "owner/repo@dev:Q8_0") (by decide +kernel)).2
    (by unfold RepeatsHost; decide +kernel)).1

/-- **Behind a host that is named twice, the owner is lost.** -/
theorem host_named_twice_is_lost :
    parse "hf.co/hf.co/repo" = .ok ⟨"hf.co", "repo", "main", none⟩ ∧
      display ⟨"hf.co", "repo", "main", none⟩ = "hf.co/repo" ∧
      parse "hf.co/repo" = .error (.validationFailed ("model reference 'hf.co/repo' must be " ++
        "owner/repo (for example HuggingFaceTB/SmolLM2-360M-Instruct-GGUF)")) := by
  decide +kernel

/-! ### Local identifiers -/

/-- The letters of a text, without their case. -/
def lowered (s : String) : List Char :=
  s.toList.map Char.toLower

/-- Two references differ, whatever the case of letters, in one of their parts. -/
def DiffersFrom (r s : ModelRef) : Prop :=
  lowered r.owner ≠ lowered s.owner ∨ lowered r.repo ≠ lowered s.repo ∨
    lowered r.revision ≠ lowered s.revision ∨ r.quant.map lowered ≠ s.quant.map lowered

/-- Owner, repository and quantisation, with `auto` for none, agree whatever the case of letters, or
a dash or a piece with two dashes moves across the two dashes that join them. -/
def Merges (r s : ModelRef) : Prop :=
  Text.SameCut₃ '-' (lowered r.owner) (lowered r.repo) (lowered (r.quant.getD "auto"))
    (lowered s.owner) (lowered s.repo) (lowered (s.quant.getD "auto"))

/-- The files that are named after a local identifier. -/
def fileNames (localId : String) : List String :=
  [finalName localId, partialName localId, recordName localId]

section LocalId

variable {toLowercase : String → String}

theorem toList_toLowercase (h : Text.LowersCase toLowercase) {s : String} (hs : IsSegment s) :
    (toLowercase s).toList = lowered s := by
  rw [h.ascii s hs.ascii, String.toList_ofList, lowered]

theorem toList_localId (h : Text.LowersCase toLowercase) {r : ModelRef} (hr : r.Valid) :
    (r.localId toLowercase).toList = lowered r.owner ++ '-' :: '-' ::
      (lowered r.repo ++ '-' :: '-' :: lowered (r.quant.getD "auto")) := by
  have hquant : IsSegment (r.quant.getD "auto") := by
    rcases hq : r.quant with - | q
    · exact (@validatePathSegment_eq_ok "auto" "").1 (by decide +kernel)
    · exact hr.quant q hq
  simp [localId, toList_toLowercase h hr.owner, toList_toLowercase h hr.repo,
    toList_toLowercase h hquant]

theorem localId_eq_iff (h : Text.LowersCase toLowercase) {r s : ModelRef} (hr : r.Valid)
    (hs : s.Valid) : r.localId toLowercase = s.localId toLowercase ↔ r.Merges s := by
  rw [← String.toList_inj, toList_localId h hr, toList_localId h hs, Text.joined₃_eq_iff, Merges]

/-- Identifiers have a file in common only if they are the same. -/
theorem fileNames_inj {a b name : String} (ha : name ∈ fileNames a) (hb : name ∈ fileNames b) :
    a = b := by
  have hends : ∀ {x y : String}, a ++ x = b ++ y → x.toList.getLast? ≠ none →
      y.toList.getLast? ≠ none → x.toList.getLast? = y.toList.getLast? := by
    intro x y h hx hy
    have hlast := congrArg (fun s : String ↦ s.toList.getLast?) h
    simpa [List.getLast?_append, Option.or_of_isSome, Option.isSome_iff_ne_none.2 hx,
      Option.isSome_iff_ne_none.2 hy] using hlast
  simp only [fileNames, finalName, partialName, recordName, List.mem_cons, List.not_mem_nil,
    or_false] at ha hb
  rcases ha with rfl | rfl | rfl <;> rcases hb with hb | hb | hb
  all_goals first
    | exact (String.append_left_inj _).1 hb
    | exact absurd (hends hb (by decide) (by decide)) (by decide)

/-- **References that differ have identifiers that differ, and no file in common, exactly if what
the identifiers are made of does not merge.** The revision is no part of it. -/
theorem localIds_differ_iff (h : Text.LowersCase toLowercase) {a b : String} {r s : ModelRef}
    (hr : parse a = .ok r) (hs : parse b = .ok s) :
    (r.DiffersFrom s → r.localId toLowercase ≠ s.localId toLowercase ∧
        ∀ name ∈ fileNames (r.localId toLowercase), name ∉ fileNames (s.localId toLowercase)) ↔
      (r.DiffersFrom s → ¬r.Merges s) := by
  have hmerges := localId_eq_iff h (parse_valid hr) (parse_valid hs)
  refine imp_congr_right fun _ ↦ ?_
  constructor
  · rintro ⟨hne, -⟩ hmerge
    exact hne (hmerges.2 hmerge)
  · intro hmerge
    exact ⟨mt hmerges.1 hmerge, fun name hname hname' ↦
      hmerge (hmerges.1 (fileNames_inj hname hname'))⟩

end LocalId

theorem localIds_differ_iff_sample :
    "owner--repo--q8_0" ≠ "owner--repo--auto" ∧
      ∀ name ∈ fileNames "owner--repo--q8_0", name ∉ fileNames "owner--repo--auto" :=
  (localIds_differ_iff Text.lowersCase_map (a := "Owner/repo:Q8_0") (b := "owner/repo")
    (r := ⟨"Owner", "repo", "main", some "Q8_0"⟩) (s := ⟨"owner", "repo", "main", none⟩)
    (by decide +kernel) (by decide +kernel)).2
      (fun _ ↦ mt (localId_eq_iff Text.lowersCase_map (parse_valid (s := "Owner/repo:Q8_0")
        (by decide +kernel)) (parse_valid (s := "owner/repo") (by decide +kernel))).2
        (by decide +kernel)) (by unfold DiffersFrom; decide +kernel)

/-- **Two revisions of a model have one identifier.** -/
theorem revisions_share_a_localId :
    parse "owner/repo@a" = .ok ⟨"owner", "repo", "a", none⟩ ∧
      parse "owner/repo@b" = .ok ⟨"owner", "repo", "b", none⟩ ∧
      DiffersFrom ⟨"owner", "repo", "a", none⟩ ⟨"owner", "repo", "b", none⟩ ∧
      ∀ toLowercase, localId toLowercase ⟨"owner", "repo", "a", none⟩ =
        localId toLowercase ⟨"owner", "repo", "b", none⟩ :=
  ⟨by decide +kernel, by decide +kernel, by unfold DiffersFrom; decide +kernel, fun _ ↦ rfl⟩

end ModelRef

end Hub

end Cordon
