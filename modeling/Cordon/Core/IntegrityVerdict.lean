import Cordon.Core.SealedReaders
import Cordon.Lib.HexNumber

/-!
# What an integrity check says of a bundle

The manifest names the digest of every shard as a hexadecimal text. `validateDigest` asks of that
text for sixty-four digits **in either case**; `checkShards` compares it, letter by letter, with a
digest that it has spelled **in lower case**. The two agree about what a text denotes if it has no
letter in upper case (`integrity_verdict_iff`), and about an intact bundle they disagree otherwise:
the check fails, and the bundle is withdrawn.

The result rests on what one text can be. A text that the validator accepts is a number of
sixty-four digits (`validateDigest_eq_ok`), and the check finds its own spelling there exactly if
the shard has the digest that the number denotes and the text is in lower case (`spelledAs_iff`).
`checkShardsFrom_eq` makes the whole list of it; it asks that every shard can be read or is missing,
since any other error of the file system is neither verdict. Nothing is assumed about SHA-256:
intact means that the digest is the one denoted.
-/

namespace Cordon

/-! ### What the validator accepts as a digest -/

/-- A text of ASCII characters has a byte for each of them. -/
theorem length_encode_of_ascii {cs : List Char} (h : ∀ c ∈ cs, c.toNat < 0x80) :
    (Utf8.encode cs).length = cs.length := by
  induction cs with
  | nil => rfl
  | cons c cs ih =>
    obtain ⟨hc, hcs⟩ := List.forall_mem_cons.1 h
    have hone : (Utf8.encodeChar c).length = 1 := by
      rw [Utf8.encodeChar]
      simp only [if_pos hc]
      rfl
    rw [Utf8.encode_cons, List.length_append, ih hcs, hone, List.length_cons, Nat.add_comm]

theorem toNat_lt_of_isAsciiHexdigit {c : Char} (h : isAsciiHexdigit c = true) : c.toNat < 0x80 := by
  simp only [isAsciiHexdigit, Bool.or_eq_true, Bool.and_eq_true, decide_eq_true_eq] at h
  rcases h with (hdigit | ⟨-, hle⟩) | ⟨-, hle⟩
  · have hle : c.toNat ≤ '9'.toNat := Char.isDigit_iff_toNat.1 hdigit |>.2
    exact Nat.lt_of_le_of_lt hle (by decide)
  · exact Nat.lt_of_le_of_lt (show c.toNat ≤ 'f'.toNat from hle) (by decide)
  · exact Nat.lt_of_le_of_lt (show c.toNat ≤ 'F'.toNat from hle) (by decide)

theorem isSome_hexValue_of_isAsciiHexdigit {c : Char} (h : isAsciiHexdigit c = true) :
    (Text.hexValue c).isSome := by
  have hascii : ∀ k < 0x80, isAsciiHexdigit (Char.ofNat k) = true →
      (Text.hexValue (Char.ofNat k)).isSome := by
    decide +kernel
  have hc := hascii c.toNat (toNat_lt_of_isAsciiHexdigit h)
  rw [Char.ofNat_toNat] at hc
  exact hc h

/-- **What the validator accepts**: sixty-four digits, in either case. -/
theorem validateDigest_eq_ok {value what : String} (h : validateDigest value what = .ok ()) :
    value.toList.length = 64 ∧ ∀ c ∈ value.toList, (Text.hexValue c).isSome := by
  rw [validateDigest, Except.ensure_eq_ok, Bool.and_eq_true, decide_eq_true_eq, List.all_eq_true]
    at h
  obtain ⟨hlength, hall⟩ := h
  refine ⟨?_, fun c hc ↦ isSome_hexValue_of_isAsciiHexdigit (hall c hc)⟩
  rw [← hlength, Text.asBytes, length_encode_of_ascii fun c hc ↦
    toNat_lt_of_isAsciiHexdigit (hall c hc)]

/-! ### What the check compares -/

/-- A listed shard is there, and its bytes have the digest that the manifest denotes. -/
def ShardIntact (read : ShardReads) (bundleDir : String) (shard : ShardDescriptor × ℕ) : Prop :=
  ∃ contents, read shard.2 (UnixPath.join bundleDir shard.1.path) = .file contents ∧
    HexNumber.value shard.1.ciphertextSha256.toList = Bytes.ofBe (Sha256.digest contents)

/-- A listed shard can be read, or is not there. -/
def ReadableOrMissing (read : ShardReads) (bundleDir : String) (shard : ShardDescriptor × ℕ) :
    Prop :=
  read shard.2 (UnixPath.join bundleDir shard.1.path) = .missing ∨
    ∃ contents, read shard.2 (UnixPath.join bundleDir shard.1.path) = .file contents

/-- What the check asks of a shard: the spelling of its digest. -/
def SpelledAs (read : ShardReads) (bundleDir : String) (shard : ShardDescriptor × ℕ) : Prop :=
  ∃ contents, read shard.2 (UnixPath.join bundleDir shard.1.path) = .file contents ∧
    Sha256.digestHex contents = shard.1.ciphertextSha256

variable {H : BundleHost} {E : Ed25519} {read : ShardReads} {bundleDir bundleId : String}

/-- **The check compares spellings**, shard by shard, and has an answer if every shard can be read
or is missing. -/
theorem checkShardsFrom_eq {k : ℕ} {shards : List ShardDescriptor}
    (hreads : ∀ shard ∈ shards.zipIdx k, ReadableOrMissing read bundleDir shard) :
    ((∀ shard ∈ shards.zipIdx k, SpelledAs read bundleDir shard) →
        checkShardsFrom read bundleDir k shards = .ok true) ∧
      ((¬∀ shard ∈ shards.zipIdx k, SpelledAs read bundleDir shard) →
        checkShardsFrom read bundleDir k shards = .ok false) := by
  induction shards generalizing k with
  | nil => exact ⟨fun _ ↦ rfl, fun h ↦ absurd (fun _ hmem ↦ absurd hmem List.not_mem_nil) h⟩
  | cons shard shards ih =>
    rw [List.zipIdx_cons, List.forall_mem_cons] at hreads
    rw [List.zipIdx_cons, List.forall_mem_cons, checkShardsFrom]
    obtain ⟨hall, hsome⟩ := ih hreads.2
    rcases hreads.1 with hmissing | ⟨contents, hfile⟩
    · have hnot : ¬SpelledAs read bundleDir (shard, k) := by
        rintro ⟨contents, hfile, -⟩
        cases hmissing.symm.trans hfile
      have hread : read k (UnixPath.join bundleDir shard.path) = .missing := hmissing
      rw [hread]
      exact ⟨fun h ↦ absurd h.1 hnot, fun _ ↦ rfl⟩
    · have hread : read k (UnixPath.join bundleDir shard.path) = .file contents := hfile
      have hspelled : SpelledAs read bundleDir (shard, k) ↔
          Sha256.digestHex contents = shard.ciphertextSha256 := by
        constructor
        · rintro ⟨contents', hfile', h⟩
          obtain rfl := DiskFile.file.inj (hfile.symm.trans hfile')
          exact h
        · exact fun h ↦ ⟨contents, hfile, h⟩
      rw [hread, hspelled]
      simp only [DiskFile.hash, Except.ok_bind, ctEq_asBytes_iff]
      split
      · next hsame =>
        exact ⟨fun h ↦ hall h.2, fun h ↦ hsome fun hrest ↦ h ⟨hsame, hrest⟩⟩
      · next hother => exact ⟨fun h ↦ absurd h.1 hother, fun _ ↦ rfl⟩

/-- A shard with a digest of sixty-four digits is spelled as the check spells it exactly if it is
intact and its digest is in lower case. -/
theorem spelledAs_iff {shard : ShardDescriptor × ℕ}
    (hvalid : ∃ what, validateDigest shard.1.ciphertextSha256 what = .ok ()) :
    SpelledAs read bundleDir shard ↔ ShardIntact read bundleDir shard ∧
      HexNumber.IsLower shard.1.ciphertextSha256.toList := by
  obtain ⟨what, hvalid⟩ := hvalid
  obtain ⟨hlength, hdigits⟩ := validateDigest_eq_ok hvalid
  have hspelling : ∀ contents, Sha256.digestHex contents = shard.1.ciphertextSha256 ↔
      HexNumber.value shard.1.ciphertextSha256.toList = Bytes.ofBe (Sha256.digest contents) ∧
        HexNumber.IsLower shard.1.ciphertextSha256.toList := by
    intro contents
    rw [← HexNumber.hexChars_eq_iff hdigits (by rw [hlength, Sha256.length_digest]),
      ← String.toList_inj, Sha256.digestHex, Text.toList_hexEncode]
  constructor
  · rintro ⟨contents, hfile, hspelled⟩
    obtain ⟨hvalue, hlower⟩ := (hspelling contents).1 hspelled
    exact ⟨⟨contents, hfile, hvalue⟩, hlower⟩
  · rintro ⟨⟨contents, hfile, hvalue⟩, hlower⟩
    exact ⟨contents, hfile, (hspelling contents).2 ⟨hvalue, hlower⟩⟩

/-- Every listed digest has been validated. -/
theorem exists_validateDigest {m : BundleManifest} (hvalid : m.validateStructure H = .ok ())
    {shard : ShardDescriptor × ℕ} (hshard : shard ∈ m.shards.zipIdx) :
    ∃ what, validateDigest shard.1.ciphertextSha256 what = .ok () := by
  simp only [BundleManifest.validateStructure, Except.bind_eq_ok] at hvalid
  obtain ⟨_, -, _, -, _, -, _, -, _, -, _, hshards, -⟩ := hvalid
  have hone := validateShards_eq_ok.1 hshards shard hshard
  simp only [validateShard, Except.bind_eq_ok] at hone
  obtain ⟨_, -, _, -, _, hcipher, -⟩ := hone
  exact ⟨_, hcipher⟩

/-! ### The verdict -/

/-- **The verdict on a bundle is the truth about its digests**: a pass is returned and recorded if
every listed shard is intact, and otherwise the check answers no and the bundle is withdrawn. -/
structure VerdictIsTrue (H : BundleHost) (E : Ed25519) (store : BundleStore) (now : ℤ)
    (read : ShardReads) (bundleId : String) (b : StoredBundle) : Prop where
  passed : (∀ shard ∈ b.manifest.shards.zipIdx, ShardIntact read b.bundleDir shard) →
    (store.runIntegrityCheck H E now read bundleId).2 = .ok true ∧
      (store.runIntegrityCheck H E now read bundleId).1.bundles.lookup bundleId =
        some { b with verdict := some ⟨now, true⟩ }
  withdrawn : (¬∀ shard ∈ b.manifest.shards.zipIdx, ShardIntact read b.bundleDir shard) →
    (store.runIntegrityCheck H E now read bundleId).2 = .ok false ∧
      (store.runIntegrityCheck H E now read bundleId).1.bundles.lookup bundleId =
        some { b with verdict := some ⟨now, false⟩, status := .tampered }

section Verdict

variable {store : BundleStore} {now : ℤ} {b : StoredBundle}
  (hlookup : store.bundles.lookup bundleId = some b) (hvendor : store.vendorVk = none)
include hlookup hvendor

/-- Without a vendor key the verdict is what the check finds. -/
theorem runIntegrityCheck_eq {passed : Bool}
    (hcheck : checkShardsFrom read b.bundleDir 0 b.manifest.shards = .ok passed) :
    (store.runIntegrityCheck H E now read bundleId).2 = .ok passed ∧
      (store.runIntegrityCheck H E now read bundleId).1.bundles.lookup bundleId =
        some (BundleStore.withVerdict now passed b) := by
  have hshards : checkShards H E none read b.manifest b.bundleDir = .ok passed := by
    rw [checkShards, hcheck]
    cases passed with
    | false => rfl
    | true => rfl
  simp only [BundleStore.runIntegrityCheck, hlookup, hvendor, hshards]
  refine ⟨trivial, ?_⟩
  rw [BundleStore.lookup_recordVerdict, if_pos rfl, hlookup, Option.map_some]

/-- The verdict is true where the check finds what there is. -/
theorem verdictIsTrue_iff {passed : Bool}
    (hcheck : checkShardsFrom read b.bundleDir 0 b.manifest.shards = .ok passed) :
    VerdictIsTrue H E store now read bundleId b ↔
      (passed = true ↔ ∀ shard ∈ b.manifest.shards.zipIdx, ShardIntact read b.bundleDir shard) := by
  obtain ⟨hresult, hstored⟩ := @runIntegrityCheck_eq H E read bundleId store now b hlookup hvendor
    passed hcheck
  constructor
  · intro h
    constructor
    · intro hpassed
      by_contra hnot
      have hfalse := hresult.symm.trans (h.withdrawn hnot).1
      rw [hpassed] at hfalse
      exact nomatch hfalse
    · intro hintact
      exact Except.ok.inj (hresult.symm.trans (h.passed hintact).1)
  · intro h
    refine ⟨fun hintact ↦ ?_, fun hnot ↦ ?_⟩
    · rw [h.2 hintact] at hresult hstored
      exact ⟨hresult, hstored⟩
    · rw [Bool.eq_false_iff.2 (mt h.1 hnot)] at hresult hstored
      exact ⟨hresult, hstored⟩

end Verdict

/-- **When the integrity verdict is digest equality**: some listed shard is not intact, or every
listed digest is spelled in lower case. -/
theorem integrity_verdict_iff (H : BundleHost) (E : Ed25519) (store : BundleStore) (now : ℤ)
    (read : ShardReads) (bundleId : String) (b : StoredBundle)
    (hlookup : store.bundles.lookup bundleId = some b) (hvendor : store.vendorVk = none)
    (hvalid : b.manifest.validateStructure H = .ok ())
    (hreads : ∀ shard ∈ b.manifest.shards.zipIdx, ReadableOrMissing read b.bundleDir shard) :
    VerdictIsTrue H E store now read bundleId b ↔
      (∃ shard ∈ b.manifest.shards.zipIdx, ¬ShardIntact read b.bundleDir shard) ∨
        ∀ shard ∈ b.manifest.shards.zipIdx,
          HexNumber.IsLower shard.1.ciphertextSha256.toList := by
  have hone : ∀ shard ∈ b.manifest.shards.zipIdx, (SpelledAs read b.bundleDir shard ↔
      ShardIntact read b.bundleDir shard ∧
        HexNumber.IsLower shard.1.ciphertextSha256.toList) :=
    fun shard hshard ↦ spelledAs_iff (exists_validateDigest hvalid hshard)
  obtain ⟨hall, hsome⟩ := checkShardsFrom_eq hreads
  by_cases hspelled : ∀ shard ∈ b.manifest.shards.zipIdx, SpelledAs read b.bundleDir shard
  · -- the check passes, and rightly
    rw [verdictIsTrue_iff hlookup hvendor (hall hspelled)]
    refine iff_of_true ⟨fun _ shard hshard ↦ ?_, fun _ ↦ rfl⟩ (Or.inr fun shard hshard ↦ ?_)
    · exact ((hone shard hshard).1 (hspelled shard hshard)).1
    · exact ((hone shard hshard).1 (hspelled shard hshard)).2
  · rw [verdictIsTrue_iff hlookup hvendor (hsome hspelled)]
    constructor
    · intro h
      left
      by_contra hintact
      exact Bool.false_ne_true (h.2 fun shard hshard ↦ by_contra fun hnot ↦
        hintact ⟨shard, hshard, hnot⟩)
    · rintro (⟨shard, hshard, hnot⟩ | hlower)
      · exact ⟨nofun, fun hintact ↦ absurd (hintact shard hshard) hnot⟩
      · refine ⟨nofun, fun hintact ↦ absurd (fun shard hshard ↦ ?_) hspelled⟩
        exact (hone shard hshard).2 ⟨hintact shard hshard, hlower shard hshard⟩

/-! ### One digest, spelled in two ways -/

namespace SampleBundle

/-- The sample bundle with its digest in upper case. -/
def upperCase : BundleManifest :=
  { manifest with shards := [⟨"shard-0.enc",
    "e3b0c44298fc1c149afbf4c8996fb92427ae41e4649b934ca495991b7852b855",
    "BA7816BF8F01CFEA414140DE5DAE2223B00361A396177A9CB410FF61F20015AD",
    "AAECAwQFBgcICQoL", 0, 0⟩] }

/-- A store in which a bundle has been registered. -/
def storeOf (m : BundleManifest) : BundleStore :=
  { store with bundles := store.bundles.insert "sample" (BundleStore.registered m dir) }

theorem intact_reads (m : BundleManifest) (shard : ShardDescriptor × ℕ) :
    ReadableOrMissing intact (BundleStore.registered m dir).bundleDir shard :=
  Or.inr ⟨_, rfl⟩

theorem manifest_valid : manifest.validateStructure host = .ok () := by
  decide +kernel

theorem upperCase_valid : upperCase.validateStructure host = .ok () := by
  decide +kernel

/-- In either case it is the number of the digest of the shard. -/
theorem shardIntact_upperCase :
    ∀ shard ∈ upperCase.shards.zipIdx, ShardIntact intact dir shard := by
  have hvalue : ∀ shard ∈ upperCase.shards.zipIdx,
      HexNumber.value shard.1.ciphertextSha256.toList =
        Bytes.ofBe (Sha256.digest [97, 98, 99]) := by
    decide +kernel
  exact fun shard hshard ↦ ⟨_, rfl, hvalue shard hshard⟩

theorem runIntegrityCheck_upperCase :
    ((storeOf upperCase).runIntegrityCheck host ed25519 0 intact "sample").2 = .ok false := by
  decide +kernel

end SampleBundle

open SampleBundle in
/-- The sample bundle is spelled in lower case. -/
theorem integrity_verdict_lower_case :
    VerdictIsTrue host ed25519 (storeOf manifest) 0 intact "sample"
      (BundleStore.registered manifest dir) :=
  (integrity_verdict_iff host ed25519 (storeOf manifest) 0 intact "sample"
    (BundleStore.registered manifest dir) (AList.lookup_insert _) rfl manifest_valid
    fun shard _ ↦ intact_reads manifest shard).2 (Or.inr (by decide +kernel))

open SampleBundle in
/-- **A digest in upper case** is accepted, and then withdraws an intact bundle. -/
theorem upper_case_digest_is_withdrawn :
    (upperCase.validateStructure host = .ok () ∧
      (∀ shard ∈ upperCase.shards.zipIdx, ShardIntact intact dir shard) ∧
      ((storeOf upperCase).runIntegrityCheck host ed25519 0 intact "sample").2 = .ok false) ∧
      ¬VerdictIsTrue host ed25519 (storeOf upperCase) 0 intact "sample"
        (BundleStore.registered upperCase dir) := by
  refine ⟨⟨upperCase_valid, shardIntact_upperCase, runIntegrityCheck_upperCase⟩, fun h ↦ ?_⟩
  have hpassed := (h.passed shardIntact_upperCase).1
  rw [runIntegrityCheck_upperCase] at hpassed
  exact nomatch hpassed

end Cordon
