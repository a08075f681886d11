import Cordon.Crypto.Attestation
import Cordon.Lib.SelfDelimiting

/-!
# What the digest of a report commits to

`compute_combined_hash` digests three nested sections. A section is a tag and fields, each behind
its length or of a fixed width, and lists behind their length, so a section can be read in one way
only. The kind of platform evidence is a field of its section and decides which fields follow.

The writer cuts a length to 32 bits without a word. A section is longer than everything in it, so
what has to be assumed is that the three sections fit (`InRange`): their strings and lists then do.

`combinedPreimage_inj` is put together section by section, by the rules of `Lib.SelfDelimiting`:
fields one behind the other are self-delimiting if each is, so is a list behind its number, and what
is self-delimiting is read in one way. The kinds of enclave and of evidence are told apart by their
names alone (`TeeType.display_injective`). Nothing is asked of the digest, which has no part in the
encoding.
-/

namespace Cordon

open Bytes (SelfDelimiting)

/-! ### Fields -/

namespace Canonical

@[simp]
theorem length_writeStr (s : String) : (writeStr s).length = 4 + (Text.asBytes s).length :=
  Bytes.length_blob _

/-- Strings that the length prefix can hold. -/
theorem selfDelimiting_writeStr :
    SelfDelimiting {s : String | (writeStr s).length < 2 ^ 32} writeStr := by
  refine SelfDelimiting.blob (fun s (hs : (writeStr s).length < 2 ^ 32) ↦ ?_)
    Text.asBytes_injective.injOn
  rw [length_writeStr] at hs
  omega

theorem selfDelimiting_writeU8 : SelfDelimiting Set.univ writeU8 :=
  SelfDelimiting.of_length (fun _ ↦ (rfl : _ = 1)) fun _ _ _ _ h ↦ (List.cons.inj h).1

theorem selfDelimiting_writeU16 : SelfDelimiting {n | n < 2 ^ 16} writeU16 := by
  refine SelfDelimiting.of_length (fun _ ↦ Bytes.length_beBytes 2 _) fun m hm n hn h ↦ ?_
  exact Bytes.beBytes_inj hm hn h

theorem selfDelimiting_writeI64 :
    SelfDelimiting {t : ℤ | -2 ^ 63 ≤ t ∧ t < 2 ^ 63} writeI64 := by
  refine SelfDelimiting.of_length (fun _ ↦ Bytes.length_beBytes 8 _) ?_
  rintro s ⟨hs, hs'⟩ t ⟨ht, ht'⟩ h
  have hrange : ∀ t : ℤ, (t % 2 ^ 64).toNat < 256 ^ 8 := by
    intro t
    omega
  have hvalue := Bytes.beBytes_inj (hrange s) (hrange t) h
  omega

/-- Certificates behind their number. -/
theorem selfDelimiting_writeStrs :
    SelfDelimiting {l : List String | (l.flatMap writeStr).length < 2 ^ 32}
      fun l ↦ writeU32 l.length ++ l.flatMap writeStr :=
  selfDelimiting_writeStr.counted_of_short fun _ ↦ by simp

/-- One PCR value. -/
def writePcr (entry : UInt8 × String) : Bytes :=
  writeU8 entry.1 ++ writeStr entry.2

@[simp]
theorem length_writePcr (entry : UInt8 × String) :
    (writePcr entry).length = 5 + (Text.asBytes entry.2).length := by
  rw [writePcr, List.length_append, length_writeStr]
  show 1 + _ = _
  omega

theorem selfDelimiting_writePcr :
    SelfDelimiting {entry | (writePcr entry).length < 2 ^ 32} writePcr := by
  intro a ha b hb x y h
  have hdomain : ∀ entry, (writePcr entry).length < 2 ^ 32 →
      (writeStr entry.2).length < 2 ^ 32 := by
    intro entry hentry
    rw [length_writePcr] at hentry
    rw [length_writeStr]
    omega
  exact selfDelimiting_writeU8.prod selfDelimiting_writeStr ⟨trivial, hdomain a ha⟩
    ⟨trivial, hdomain b hb⟩ h

/-- PCR values behind their number. -/
theorem selfDelimiting_writePcrs :
    SelfDelimiting {l : List (UInt8 × String) | (l.flatMap writePcr).length < 2 ^ 32}
      fun l ↦ writeU32 l.length ++ l.flatMap writePcr :=
  selfDelimiting_writePcr.counted_of_short fun _ ↦ by simp

end Canonical

/-! ### Sections -/

theorem canonicalPcrSet_eq (set : TpmPcrSet) :
    canonicalPcrSet set = Canonical.new "pcr_set" ++ (Canonical.writeU32 set.entries.length ++
      set.entries.flatMap Canonical.writePcr) := by
  rw [canonicalPcrSet, List.append_assoc]
  rfl

/-- **A PCR section determines the PCR map.** -/
theorem canonicalPcrSet_inj {a b : TpmPcrSet} (ha : (canonicalPcrSet a).length < 2 ^ 32)
    (hb : (canonicalPcrSet b).length < 2 ^ 32) (h : canonicalPcrSet a = canonicalPcrSet b) :
    a = b := by
  have hdomain : ∀ set : TpmPcrSet, (canonicalPcrSet set).length < 2 ^ 32 →
      (set.entries.flatMap Canonical.writePcr).length < 2 ^ 32 := by
    intro set hset
    rw [canonicalPcrSet_eq, List.length_append, List.length_append] at hset
    omega
  rw [canonicalPcrSet_eq, canonicalPcrSet_eq] at h
  have hentries := Canonical.selfDelimiting_writePcrs.inj (hdomain a ha) (hdomain b hb)
    (List.append_cancel_left h)
  rcases a with ⟨a, _⟩
  rcases b with ⟨b, _⟩
  obtain rfl : a = b := hentries
  rfl

/-- What a quote has to be for its section to fit. The timestamp is a 64-bit integer. -/
structure TpmQuote.InRange (quote : TpmQuote) : Prop where
  timestamp : -2 ^ 63 ≤ quote.timestampMillis ∧ quote.timestampMillis < 2 ^ 63
  section_short : quote.canonical.length < 2 ^ 32

/-- What an enclave measurement has to be for its section to fit. The security version is a 16-bit
integer. -/
structure TeeQuote.InRange (quote : TeeQuote) : Prop where
  isvSvn : quote.isvSvn < 2 ^ 16
  section_short : quote.canonical.length < 2 ^ 32

/-- Platform evidence whose section fits. -/
def PlatformEvidence.InRange (evidence : PlatformEvidence) : Prop :=
  evidence.canonical.length < 2 ^ 32

theorem TpmQuote.canonical_inj {a b : TpmQuote} (ha : a.InRange) (hb : b.InRange)
    (h : a.canonical = b.canonical) : a = b := by
  have hshort : ∀ quote : TpmQuote, quote.InRange →
      (canonicalPcrSet quote.pcrValues).length < 2 ^ 32 ∧
      (Canonical.writeStr quote.aikPublicKeyHex).length < 2 ^ 32 ∧
      (Canonical.writeStr quote.attestMessageHex).length < 2 ^ 32 ∧
      (Canonical.writeStr quote.quoteSignatureHex).length < 2 ^ 32 ∧
      (Canonical.writeStr quote.nonce).length < 2 ^ 32 ∧
      (quote.ekCertChain.flatMap Canonical.writeStr).length < 2 ^ 32 := by
    intro quote hquote
    have hlength := hquote.section_short
    simp only [canonical, List.length_append, Bytes.length_blob] at hlength
    omega
  obtain ⟨hpcrs, haik, hattest, hsignature, hnonce, hchain⟩ := hshort a ha
  obtain ⟨hpcrs', haik', hattest', hsignature', hnonce', hchain'⟩ := hshort b hb
  simp only [canonical, List.append_assoc] at h
  -- field by field, in the order in which they are written
  obtain ⟨h1, h⟩ := Bytes.blob_append_inj hpcrs hpcrs' (List.append_cancel_left h)
  obtain ⟨h2, h⟩ := Canonical.selfDelimiting_writeStr haik haik' h
  obtain ⟨h3, h⟩ := Canonical.selfDelimiting_writeStr hattest hattest' h
  obtain ⟨h4, h⟩ := Canonical.selfDelimiting_writeStr hsignature hsignature' h
  obtain ⟨h5, h⟩ := Canonical.selfDelimiting_writeStr hnonce hnonce' h
  obtain ⟨h6, h⟩ := Canonical.selfDelimiting_writeI64 ha.timestamp hb.timestamp h
  have h7 := Canonical.selfDelimiting_writeStrs.inj hchain hchain' h
  have h1 := canonicalPcrSet_inj hpcrs hpcrs' h1
  rcases a with ⟨_, _, _, _, _, _, _⟩
  rcases b with ⟨_, _, _, _, _, _, _⟩
  simp only at h1 h2 h3 h4 h5 h6 h7
  rw [h1, h2, h3, h4, h5, h6, h7]

theorem TeeType.display_injective : Function.Injective TeeType.display := by
  intro a b h
  cases a <;> cases b
  all_goals first | rfl | exact absurd h (by decide)

theorem TeeQuote.canonical_inj {a b : TeeQuote} (ha : a.InRange) (hb : b.InRange)
    (h : a.canonical = b.canonical) : a = b := by
  have hshort : ∀ quote : TeeQuote, quote.InRange →
      (Canonical.writeStr quote.teeType.display).length < 2 ^ 32 ∧
      (Canonical.writeStr quote.mrenclave).length < 2 ^ 32 ∧
      (Canonical.writeStr quote.mrsigner).length < 2 ^ 32 ∧
      (Canonical.writeStr quote.rawReportB64).length < 2 ^ 32 ∧
      (Canonical.writeStr quote.reportSignatureB64).length < 2 ^ 32 ∧
      (Canonical.writeStr quote.measurementSource).length < 2 ^ 32 ∧
      (Canonical.writeStr quote.enclaveSigningKeyHex).length < 2 ^ 32 := by
    intro quote hquote
    have hlength := hquote.section_short
    simp only [canonical, List.length_append] at hlength
    omega
  obtain ⟨htype, henclave, hsigner, hreport, hsignature, hsource, hkey⟩ := hshort a ha
  obtain ⟨htype', henclave', hsigner', hreport', hsignature', hsource', hkey'⟩ := hshort b hb
  simp only [canonical, List.append_assoc] at h
  obtain ⟨h1, h⟩ := Canonical.selfDelimiting_writeStr htype htype' (List.append_cancel_left h)
  obtain ⟨h2, h⟩ := Canonical.selfDelimiting_writeStr henclave henclave' h
  obtain ⟨h3, h⟩ := Canonical.selfDelimiting_writeStr hsigner hsigner' h
  obtain ⟨h4, h⟩ := Canonical.selfDelimiting_writeU16 ha.isvSvn hb.isvSvn h
  obtain ⟨h5, h⟩ := Canonical.selfDelimiting_writeStr hreport hreport' h
  obtain ⟨h6, h⟩ := Canonical.selfDelimiting_writeStr hsignature hsignature' h
  obtain ⟨h7, h⟩ := Canonical.selfDelimiting_writeStr hsource hsource' h
  have h8 := Canonical.selfDelimiting_writeStr.inj hkey hkey' h
  have h1 := TeeType.display_injective h1
  rcases a with ⟨_, _, _, _, _, _, _, _⟩
  rcases b with ⟨_, _, _, _, _, _, _, _⟩
  simp only at h1 h2 h3 h4 h5 h6 h7 h8
  rw [h1, h2, h3, h4, h5, h6, h7, h8]

/-- The fields of platform evidence after its kind. -/
def PlatformEvidence.fields : PlatformEvidence → Bytes
  | .none => []
  | .sevSnp reportB64 vcekDerB64 certificateChainB64 =>
    Canonical.writeStr reportB64 ++ (Canonical.writeStr vcekDerB64 ++
      (Canonical.writeU32 certificateChainB64.length ++
        certificateChainB64.flatMap Canonical.writeStr))
  | .nitro documentB64 => Canonical.writeStr documentB64

theorem PlatformEvidence.canonical_eq (evidence : PlatformEvidence) :
    evidence.canonical = Canonical.new "platform_evidence" ++
      (Canonical.writeStr evidence.kind ++ evidence.fields) := by
  cases evidence <;> simp [canonical, fields]

/-- Which fields follow is decided by the kind, and the kinds have different names. -/
theorem PlatformEvidence.fields_inj {a b : PlatformEvidence} (ha : a.fields.length < 2 ^ 32)
    (hb : b.fields.length < 2 ^ 32) (hkind : a.kind = b.kind) (h : a.fields = b.fields) :
    a = b := by
  cases a <;> cases b
  case none.none => rfl
  case sevSnp.sevSnp r v c r' v' c' =>
    have hshort : ∀ (r v : String) (c : List String), (sevSnp r v c).fields.length < 2 ^ 32 →
        (Canonical.writeStr r).length < 2 ^ 32 ∧ (Canonical.writeStr v).length < 2 ^ 32 ∧
        (c.flatMap Canonical.writeStr).length < 2 ^ 32 := by
      intro r v c hlength
      simp only [fields, List.length_append] at hlength
      omega
    obtain ⟨hr, hv, hc⟩ := hshort r v c ha
    obtain ⟨hr', hv', hc'⟩ := hshort r' v' c' hb
    obtain ⟨h1, h⟩ := Canonical.selfDelimiting_writeStr hr hr' h
    obtain ⟨h2, h⟩ := Canonical.selfDelimiting_writeStr hv hv' h
    rw [h1, h2, Canonical.selfDelimiting_writeStrs.inj hc hc' h]
  case nitro.nitro => rw [Canonical.selfDelimiting_writeStr.inj ha hb h]
  all_goals exact absurd hkind (by simp only [kind]; decide)

theorem PlatformEvidence.canonical_inj {a b : PlatformEvidence} (ha : a.InRange) (hb : b.InRange)
    (h : a.canonical = b.canonical) : a = b := by
  have hshort : ∀ evidence : PlatformEvidence, evidence.InRange →
      (Canonical.writeStr evidence.kind).length < 2 ^ 32 ∧ evidence.fields.length < 2 ^ 32 := by
    intro evidence hevidence
    rw [InRange, canonical_eq, List.length_append, List.length_append] at hevidence
    omega
  obtain ⟨hkind, hfields⟩ := hshort a ha
  obtain ⟨hkind', hfields'⟩ := hshort b hb
  rw [canonical_eq, canonical_eq] at h
  obtain ⟨h1, h2⟩ :=
    Canonical.selfDelimiting_writeStr hkind hkind' (List.append_cancel_left h)
  exact fields_inj hfields hfields' h1 h2

/-! ### Reports -/

/-- The byte string that `compute_combined_hash` digests. -/
def combinedPreimage (tpmQuote : TpmQuote) (teeQuote : TeeQuote)
    (platformEvidence : PlatformEvidence) : Bytes :=
  Canonical.new "combined_attestation" ++ Bytes.blob tpmQuote.canonical ++
    Bytes.blob teeQuote.canonical ++ Bytes.blob platformEvidence.canonical

theorem computeCombinedHash_eq (tpmQuote : TpmQuote) (teeQuote : TeeQuote)
    (platformEvidence : PlatformEvidence) :
    computeCombinedHash tpmQuote teeQuote platformEvidence =
      Sha256.digestHex (combinedPreimage tpmQuote teeQuote platformEvidence) :=
  rfl

/-- **The canonical encoding is injective.** Two reports whose sections fit and whose encodings are
the same have the same TPM quote, enclave measurement and platform evidence. -/
theorem combinedPreimage_inj {tpmQuote tpmQuote' : TpmQuote} {teeQuote teeQuote' : TeeQuote}
    {platformEvidence platformEvidence' : PlatformEvidence} (htpm : tpmQuote.InRange)
    (htpm' : tpmQuote'.InRange) (htee : teeQuote.InRange) (htee' : teeQuote'.InRange)
    (hplatform : platformEvidence.InRange) (hplatform' : platformEvidence'.InRange)
    (h : combinedPreimage tpmQuote teeQuote platformEvidence =
      combinedPreimage tpmQuote' teeQuote' platformEvidence') :
    tpmQuote = tpmQuote' ∧ teeQuote = teeQuote' ∧ platformEvidence = platformEvidence' := by
  simp only [combinedPreimage, List.append_assoc] at h
  obtain ⟨h1, h⟩ := Bytes.blob_append_inj htpm.section_short htpm'.section_short
    (List.append_cancel_left h)
  obtain ⟨h2, h⟩ := Bytes.blob_append_inj htee.section_short htee'.section_short h
  have h3 := Bytes.blob_inj hplatform hplatform' h
  exact ⟨TpmQuote.canonical_inj htpm htpm' h1, TeeQuote.canonical_inj htee htee' h2,
    PlatformEvidence.canonical_inj hplatform hplatform' h3⟩

/-- A quote without evidence, with the given PCR values and certificates. -/
def plainTpmQuote (pcrValues : TpmPcrSet) (ekCertChain : List String) : TpmQuote :=
  ⟨pcrValues, "", "", "", "nonce", 0, ekCertChain⟩

/-- A measurement of software only. -/
def plainTeeQuote : TeeQuote :=
  ⟨.simulation, "00", "00", 1, "", "", "software_measurement", "00"⟩

/-- One report written down twice is one report, and where the certificates end matters. -/
theorem combinedPreimage_inj_plain :
    plainTpmQuote (IndexMap.single 0 "sha256:00") ["ab", "c"] =
        plainTpmQuote ⟨[(0, "sha256:00")], by simp⟩ (["ab"] ++ ["c"]) ∧
      combinedPreimage (plainTpmQuote IndexMap.empty ["ab", "c"]) plainTeeQuote .none ≠
        combinedPreimage (plainTpmQuote IndexMap.empty ["a", "bc"]) plainTeeQuote .none := by
  have htpm : ∀ set ∈ [IndexMap.empty, IndexMap.single 0 "sha256:00"],
      ∀ chain ∈ [["ab", "c"], ["a", "bc"]], (plainTpmQuote set chain).InRange := by
    intro set hset chain hchain
    refine ⟨(by decide : -2 ^ 63 ≤ (0 : ℤ) ∧ (0 : ℤ) < 2 ^ 63), ?_⟩
    revert set chain
    decide +kernel
  have htee : plainTeeQuote.InRange := ⟨by decide, by decide +kernel⟩
  have hnone : PlatformEvidence.none.InRange := by
    rw [PlatformEvidence.InRange]
    decide +kernel
  refine ⟨(combinedPreimage_inj (htpm _ (by simp) _ (by simp)) (htpm _ (by simp) _ (by simp)) htee
    htee hnone hnone rfl).1, fun h ↦ ?_⟩
  have hsame := combinedPreimage_inj (htpm _ (by simp) _ (by simp)) (htpm _ (by simp) _ (by simp))
    htee htee hnone hnone h
  exact absurd (congrArg TpmQuote.ekCertChain hsame.1) (by decide)

end Cordon
