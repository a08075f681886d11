import Cordon.Core.HubDownload
import Cordon.Crypto.Attestation

/-!
# Reading a TPM through its tools

The node drives a TPM by running `tpm2-tools`. What the tools answer is an input (`TpmTools`); what
the node makes of it is modelled: the selection it asks for, the values it parses out of what
`tpm2_pcrread` prints, and the quote it assembles from the files `tpm2_quote` writes.

`parsePcrread_pcrreadText` is the round trip: out of the listing that the tool documents, the parser
reads **exactly the registers that were asked for**, in the form that attestation reports carry.

It rests on the shape of a printed line. The index is a number below 256 in decimal, which `parseU8`
reads back; the value is hexadecimal, so nothing but the `0x` in front of it is trimmed
(`trimStartOx_upperHex`), and in lower case it is what reports carry (`toLowercase_upperHex`), for
every host that lowers the case of ASCII as `Text.LowersCase` says. No printed line holds a line
feed, so the listing falls into the lines that were printed (`lines_pcrreadText`).
-/

namespace Cordon

/-! ### The registers -/

namespace PcrAllocations

def cordonRuntime : UInt8 := 11
def cordonConfig : UInt8 := 12
def modelManifest : UInt8 := 13

/-- Every allocated index, in order. -/
def all : List UInt8 := [0, 1, 2, 3, 4, 5, 7, 8, 9, 11, 12, 13, 14]

theorem pairwise_all : all.Pairwise (· < ·) := by
  decide

end PcrAllocations

/-- The selection of registers of the SHA-256 bank, as the tools take it. -/
def pcrSelection (indices : List UInt8) : String :=
  "sha256:" ++ String.intercalate "," (indices.map toString)

/-! ### What `tpm2_pcrread` prints -/

/-- `str::parse::<u8>`. -/
def parseU8 (cs : List Char) : Option UInt8 :=
  match Hub.parseU64 cs with
  | some value => if value < 256 then some (UInt8.ofNat value) else none
  | none => none

/-- `trim_start_matches("0x")`: every copy at the start goes. -/
def trimStartOx : List Char → List Char
  | '0' :: 'x' :: rest => trimStartOx rest
  | cs => cs

/-- What one line says of a register, if it says anything. -/
def parsePcrLine (X : PlatformEngine) (line : List Char) : Option (UInt8 × String) := do
  let (indexPart, valuePart) ← Text.splitOnce ':' (Text.trim line)
  let index ← parseU8 (Text.trim indexPart)
  let value := X.toLowercase (String.ofList (trimStartOx (Text.trim valuePart)))
  if value ≠ "" ∧ value.toList.all fun c ↦ (Text.hexValue c).isSome then
    some (index, "sha256:" ++ value)
  else none

/-- `parse_pcrread`: parse the lines of the form `  4 : 0x<HEX>`. -/
def parsePcrread (X : PlatformEngine) (text : List Char) : IndexMap String :=
  IndexMap.ofList ((Text.lines text).filterMap (parsePcrLine X))

/-- The line `tpm2_pcrread` prints for a register: the index is padded to two places, the value is
in upper-case hexadecimal. -/
def pcrreadLine (index : UInt8) (value : Bytes) : List Char :=
  "    ".toList ++ ((toString index).toList ++ (if index < 10 then [' '] else []) ++
    ": 0x".toList ++ (Text.hexChars value).map Char.toUpper)

/-- The line that names the bank. -/
def pcrreadBank : List Char :=
  "  sha256:".toList

/-- What `tpm2_pcrread` prints for a selection of registers. -/
def pcrreadText (indices : List UInt8) (pcr : UInt8 → Bytes) : List Char :=
  pcrreadBank ++ '\n' :: indices.flatMap fun index ↦ pcrreadLine index (pcr index) ++ ['\n']

/-! ### Reading what was printed -/

theorem parseU64_toString {n : ℕ} (hn : n < 2 ^ 64) :
    Hub.parseU64 (toString n).toList = some n := by
  have hdigits : ∀ c ∈ (toString n).toList, c.isDigit = true := fun c hc ↦
    Text.isDigit_of_mem_toString hc
  have hlist : (toString n).toList = Nat.toDigits 10 n := by
    rw [Nat.toString_eq_ofList_toDigits, String.toList_ofList]
  have hne : (toString n).toList ≠ [] := hlist ▸ Nat.toDigits_ne_nil
  -- the first character is a digit, so there is no sign to drop
  have hsign : ∀ rest, (toString n).toList = '+' :: rest → False := fun rest heq ↦
    absurd (hdigits '+' (heq ▸ List.mem_cons_self)) (by decide)
  have hvalue : (toString n).toList.foldl (fun acc c ↦ acc * 10 + (c.toNat - '0'.toNat)) 0 = n := by
    have h := Nat.ofDigitChars_ten_toDigits (n := n)
    rw [Nat.ofDigitChars_eq_foldl] at h
    rw [hlist]
    simpa only [Nat.mul_comm] using h
  rw [Hub.parseU64]
  · simp only [hvalue]
    exact if_pos ⟨hne, List.all_eq_true.2 hdigits, hn⟩
  · exact hsign

theorem parseU8_toString (index : UInt8) : parseU8 (toString index).toList = some index := by
  have hlt : index.toNat < 256 := index.toNat_lt
  have htext : (toString index).toList = (toString index.toNat).toList := rfl
  rw [parseU8, htext, parseU64_toString (by omega)]
  simp [hlt]

/-- Upper-case hexadecimal, as the tool prints it. -/
def upperHex (value : Bytes) : List Char :=
  (Text.hexChars value).map Char.toUpper

theorem forall_mem_upperHex {P : Char → Prop} (h : ∀ n < 16, P (Text.hexDigit n).toUpper)
    {value : Bytes} {c : Char} (hc : c ∈ upperHex value) : P c := by
  obtain ⟨d, hd, rfl⟩ := List.mem_map.1 hc
  exact Text.forall_mem_hexChars (P := fun d ↦ P d.toUpper) h hd

theorem upperHex_ne_nil {value : Bytes} (hne : value ≠ []) : upperHex value ≠ [] := by
  rcases value with - | ⟨b, bs⟩
  · exact absurd rfl hne
  · simp [upperHex]

theorem isWhitespace_upperHex {value : Bytes} {c : Char} (hc : c ∈ upperHex value) :
    Text.isWhitespace c = false :=
  forall_mem_upperHex (P := fun c ↦ Text.isWhitespace c = false) (by decide) hc

/-- Hexadecimal holds no `x`, so nothing more is taken off its start. -/
theorem trimStartOx_upperHex (value : Bytes) : trimStartOx (upperHex value) = upperHex value := by
  rw [trimStartOx]
  intro rest heq
  have hx : 'x' ∈ upperHex value := heq ▸ by simp
  exact forall_mem_upperHex (P := fun c ↦ c ≠ 'x') (by decide) hx rfl

/-- What the tool prints in upper case is, lowered, what reports carry. -/
theorem toLowercase_upperHex {toLowercase : String → String} (h : Text.LowersCase toLowercase)
    (value : Bytes) : toLowercase (String.ofList (upperHex value)) = Text.hexEncode value := by
  have hascii : ∀ c ∈ (String.ofList (upperHex value)).toList, c.toNat < 128 := by
    rw [String.toList_ofList]
    exact fun c hc ↦ forall_mem_upperHex (P := fun c ↦ c.toNat < 128) (by decide) hc
  have hlower : (upperHex value).map Char.toLower = Text.hexChars value := by
    rw [upperHex, List.map_map]
    refine (List.map_congr_left fun c hc ↦ ?_).trans (List.map_id _)
    exact Text.forall_mem_hexChars (P := fun c ↦ c.toUpper.toLower = c) (by decide) hc
  rw [h.ascii _ hascii, String.toList_ofList, hlower, Text.hexEncode]

section Line

variable {X : PlatformEngine} (hlower : Text.LowersCase X.toLowercase) (index : UInt8)
  {value : Bytes} (hne : value ≠ [])

include hlower hne

/-- **One register**, out of the line it is printed on. -/
theorem parsePcrLine_pcrreadLine :
    parsePcrLine X (pcrreadLine index value) = some (index, pcrText value) := by
  have htext : (toString index).toList = (toString index.toNat).toList := rfl
  have hdigits : ∀ c ∈ (toString index).toList, c.isDigit = true := fun c hc ↦
    Text.isDigit_of_mem_toString (htext ▸ hc)
  have hspace : ∀ c ∈ (toString index).toList, Text.isWhitespace c = false := fun c hc ↦
    Text.isWhitespace_of_isAlphanum (by simp [Char.isAlphanum, hdigits c hc])
  have hindex : (toString index).toList ≠ [] := by
    rw [htext, Nat.toString_eq_ofList_toDigits, String.toList_ofList]
    exact Nat.toDigits_ne_nil
  have hpad : ∀ c ∈ (if index < 10 then [' '] else []), Text.isWhitespace c = true := by
    split_ifs
    · exact List.all_eq_true.1 (by decide)
    · exact List.all_eq_true.1 (by decide)
  have hcolon : ':' ∉ (toString index).toList ++ (if index < 10 then [' '] else []) := by
    rw [List.mem_append]
    rintro (hmem | hmem)
    · exact absurd (hdigits _ hmem) (by decide)
    · exact absurd (hpad _ hmem) (by decide)
  obtain ⟨c, t, hfirst⟩ := List.exists_cons_of_ne_nil hindex
  obtain ⟨u, d, hlast⟩ := (List.eq_nil_or_concat _).resolve_left (upperHex_ne_nil hne)
  rw [List.concat_eq_append] at hlast
  -- the line without its indentation, in two parts at the colon
  have hline : Text.trim (pcrreadLine index value) =
      ((toString index).toList ++ (if index < 10 then [' '] else [])) ++
        ':' :: (' ' :: '0' :: 'x' :: upperHex value) := by
    have hfront : ((toString index).toList ++ (if index < 10 then [' '] else [])) ++
        ':' :: (' ' :: '0' :: 'x' :: upperHex value) =
        c :: (t ++ (if index < 10 then [' '] else []) ++
          ':' :: (' ' :: '0' :: 'x' :: upperHex value)) := by
      rw [hfirst]
      rfl
    have hback : ((toString index).toList ++ (if index < 10 then [' '] else [])) ++
        ':' :: (' ' :: '0' :: 'x' :: upperHex value) =
        ((toString index).toList ++ (if index < 10 then [' '] else []) ++
          ':' :: (' ' :: '0' :: 'x' :: u)) ++ [d] := by
      rw [hlast]
      simp
    have hc : Text.isWhitespace c = false := hspace c (hfirst ▸ List.mem_cons_self)
    have hd : Text.isWhitespace d = false :=
      @isWhitespace_upperHex value d (by simp [hlast])
    have h := @Text.trim_eq_of_ends "    ".toList [] _ _ _ c d
      (List.all_eq_true.1 (by decide)) (by simp) hfront hc hback hd
    refine Eq.trans ?_ h
    simp [pcrreadLine, upperHex]
  have hindexPart : Text.trim ((toString index).toList ++
      (if index < 10 then [' '] else [])) = (toString index).toList :=
    @Text.trim_padded [] _ _ (by simp) hpad hindex hspace
  have hvaluePart : Text.trim (' ' :: '0' :: 'x' :: upperHex value) =
      '0' :: 'x' :: upperHex value := by
    have h := @Text.trim_padded [' '] [] ('0' :: 'x' :: upperHex value)
      (List.all_eq_true.1 (by decide)) (by simp) (by simp) ?_
    · rwa [List.append_nil] at h
    · intro a ha
      rcases List.mem_cons.1 ha with rfl | ha
      · decide
      rcases List.mem_cons.1 ha with rfl | ha
      · decide
      · exact isWhitespace_upperHex ha
  have hhex : Text.hexEncode value ≠ "" ∧
      ((Text.hexEncode value).toList.all fun c ↦ (Text.hexValue c).isSome) = true := by
    refine ⟨fun hempty ↦ hne ?_, ?_⟩
    · have h := Text.isEmpty_hexEncode value
      rw [hempty] at h
      exact List.isEmpty_iff.1 h.symm
    · rw [Text.toList_hexEncode, List.all_eq_true]
      exact fun c hc ↦ Text.isSome_hexValue_of_mem_hexChars hc
  rw [parsePcrLine, hline, Text.splitOnce_append hcolon]
  simp only [Option.bind_eq_bind, Option.bind_some, hindexPart, parseU8_toString, hvaluePart,
    trimStartOx, trimStartOx_upperHex, toLowercase_upperHex hlower]
  exact if_pos hhex

end Line

/-- A printed line holds no line feed, and no carriage return at its end. -/
theorem mem_pcrreadLine {index : UInt8} {value : Bytes} {c : Char}
    (hc : c ∈ pcrreadLine index value) : c ≠ '\n' ∧ c ≠ '\r' := by
  have htext : (toString index).toList = (toString index.toNat).toList := rfl
  simp only [pcrreadLine, List.mem_append] at hc
  rcases hc with hc | (((hc | hc) | hc) | hc)
  · have hall : ("    ".toList.all fun c ↦ c ≠ '\n' ∧ c ≠ '\r') = true := by decide
    simpa using List.all_eq_true.1 hall c hc
  · have hdigit := Text.isDigit_of_mem_toString (htext ▸ hc)
    constructor <;> rintro rfl <;> exact absurd hdigit (by decide)
  · split_ifs at hc
    · rw [List.mem_singleton.1 hc]
      decide
    · cases hc
  · have hall : (": 0x".toList.all fun c ↦ c ≠ '\n' ∧ c ≠ '\r') = true := by decide
    simpa using List.all_eq_true.1 hall c hc
  · exact forall_mem_upperHex (P := fun c ↦ c ≠ '\n' ∧ c ≠ '\r') (by decide) hc

theorem stripCr_pcrreadLine (index : UInt8) (value : Bytes) :
    Text.stripCr (pcrreadLine index value) = pcrreadLine index value := by
  rw [Text.stripCr, if_neg]
  intro hlast
  exact (mem_pcrreadLine (List.mem_of_getLast? hlast)).2 rfl

/-- The lines of what the tool prints. -/
theorem lines_pcrreadText (indices : List UInt8) (pcr : UInt8 → Bytes) :
    Text.lines (pcrreadText indices pcr) =
      pcrreadBank :: indices.map fun index ↦ pcrreadLine index (pcr index) := by
  have hbody : Text.lines (indices.flatMap fun index ↦ pcrreadLine index (pcr index) ++ ['\n']) =
      indices.map fun index ↦ pcrreadLine index (pcr index) := by
    induction indices with
    | nil => rfl
    | cons index indices ih =>
      have hnot : '\n' ∉ pcrreadLine index (pcr index) := fun hmem ↦ (mem_pcrreadLine hmem).1 rfl
      rw [List.flatMap_cons, List.append_assoc, List.singleton_append,
        Text.lines_append_newline _ hnot, stripCr_pcrreadLine, ih, List.map_cons]
  have hstrip : Text.stripCr pcrreadBank = pcrreadBank := by
    decide
  rw [pcrreadText, Text.lines_append_newline _ (by decide), hstrip, hbody]

/-- **Parsing undoes printing**: every register that was asked for, and nothing else. -/
theorem parsePcrread_pcrreadText {X : PlatformEngine} (hlower : Text.LowersCase X.toLowercase)
    {indices : List UInt8} (hasc : indices.Pairwise (· < ·)) {pcr : UInt8 → Bytes}
    (hne : ∀ index ∈ indices, pcr index ≠ []) :
    (parsePcrread X (pcrreadText indices pcr)).entries =
      indices.map fun index ↦ (index, pcrText (pcr index)) := by
  -- the name of the bank is not an index
  have hheader : parsePcrLine X pcrreadBank = none := by
    have hsplit : Text.splitOnce ':' (Text.trim pcrreadBank) =
        some ("sha256".toList, []) := by
      decide
    have hnone : parseU8 (Text.trim "sha256".toList) = none := by
      decide
    rw [parsePcrLine, hsplit]
    simp only [Option.bind_eq_bind, Option.bind_some, hnone, Option.bind_none]
  have hlines : (indices.map fun index ↦ pcrreadLine index (pcr index)).filterMap
      (parsePcrLine X) = indices.map fun index ↦ (index, pcrText (pcr index)) := by
    induction indices with
    | nil => rfl
    | cons index indices ih =>
      have hfirst := parsePcrLine_pcrreadLine hlower index (hne index List.mem_cons_self)
      rw [List.map_cons, List.filterMap_cons_some hfirst, List.map_cons,
        ih (List.pairwise_cons.1 hasc).2 fun i hi ↦ hne i (List.mem_cons_of_mem _ hi)]
  rw [parsePcrread, lines_pcrreadText, List.filterMap_cons_none hheader, hlines]
  exact IndexMap.entries_ofList (List.pairwise_map.2 hasc)

/-! ### The tools -/

/-- A signed quote read back from the TPM. -/
structure TpmQuoteResult where
  messageHex : String
  signatureHex : String
  aikPublicKeyHex : String
  ekCertChain : List String

/-- What running the tools answers. Commands that fail give the error the node makes of it. -/
structure TpmTools where
  /-- `tpm2_pcrread` for a selection: what it prints. -/
  pcrread : String → Except CordonError (List Char)
  /-- `CORDON_TPM_AK_CTX`, if it names a file that exists. -/
  akContextPath : Option String
  /-- `tpm2_quote` with a key context, a selection and the qualifying data in hexadecimal: the
  message and the signature it writes. -/
  runQuote : String → String → String → Except CordonError (Bytes × Bytes)
  /-- `tpm2_readpublic` of a key context. -/
  readAkPublic : String → Option Bytes
  /-- The endorsement key certificate in NV storage. -/
  ekCertificate : Option Bytes

namespace TpmTools

variable (X : PlatformEngine) (base64Encode : Bytes → String) (tools : TpmTools)

/-- Whether a usable TPM stack is present. -/
def isAvailable : Bool :=
  (tools.pcrread "sha256:0").isOk

/-- Read the given PCR indices from the SHA-256 bank. -/
def readPcrs (indices : List UInt8) : Except CordonError (IndexMap String) :=
  if indices = [] then .ok .empty
  else do
    let output ← tools.pcrread (pcrSelection indices)
    return parsePcrread X output

/-- Produce a signed quote over the standard PCR selection, committing to `challenge`. -/
def quote (challenge : Bytes) : Except CordonError TpmQuoteResult :=
  match tools.akContextPath with
  | none => .error (.attestationInvalid
      ("CORDON_TPM_AK_CTX is unset or points at a missing file. Provision an Attestation Key " ++
        "with tpm2_createak and set the variable to its context file; without one the TPM " ++
        "cannot sign a quote."))
  | some akCtx => do
    let (message, signature) ←
      tools.runQuote akCtx (pcrSelection PcrAllocations.all) (Text.hexEncode challenge)
    return {
      messageHex := Text.hexEncode message
      signatureHex := Text.hexEncode signature
      aikPublicKeyHex := ((tools.readAkPublic akCtx).map Text.hexEncode).getD ""
      ekCertChain := (tools.ekCertificate.map fun der ↦ [base64Encode der]).getD [] }

end TpmTools

end Cordon
