import Cordon.Crypto.Tpm2

/-!
# The layout of a TPM quote, and what its parser makes of it

`QuoteLayout` is a `TPMS_ATTEST` that carries a quote, and `encode` lays it out. A reader *delimits*
an encoding if it reads exactly that, whatever stands before it and behind it, and refuses every
proper prefix of it. Delimiting composes along binds (`Delimits.bind`), so that the parser delimits
every layout is a list of the fields in their order (`delimits_readAttest`).

Everything that is reported is what was laid out, but for the indices of a selection: these are
bytes, and **a bit behind the 256th is reported as one of the first 256**
(`quote_reported_exactly_iff`). The text of the parser is written once more over primitives, so that
it can be run with slices that panic; it never does (`Panicking.parse_eq`).

An ECDSA signature is two numbers. The parser writes both with the width of the wider one, which is
the width of the curve **only if one of the two has it** (`ecdsa_normalised_iff`).

What the first rests on is that a length stands before every field whose size varies, so that a
proper prefix lacks bytes that were announced; and that bits and indices are in order, which makes
the table from bits to indices one to one on 32 bytes (`namesBits_iff`). The second compares two
texts of the parser step by step, one relation for each primitive. The third is about numbers as
they are written without leading zeros, and asks nothing of the curve but its width.
-/

namespace Cordon

namespace Tpm2

/-! ### Layouts -/

/-- A selection as it is laid out. -/
structure PcrMask where
  hashAlg : UInt16
  mask : Bytes
  short : mask.length < 256

/-- A `TPMS_ATTEST` of the quote type. -/
structure QuoteLayout where
  qualifiedSigner : Bytes
  extraData : Bytes
  clock : UInt64
  resetCount : UInt32
  restartCount : UInt32
  safe : UInt8
  firmwareVersion : UInt64
  selections : List PcrMask
  pcrDigest : Bytes
  qualifiedSigner_short : qualifiedSigner.length < 2 ^ 16
  extraData_short : extraData.length < 2 ^ 16
  selections_few : selections.length ≤ 16
  pcrDigest_short : pcrDigest.length < 2 ^ 16

/-- A `TPM2B_*`. -/
def sized (bs : Bytes) : Bytes :=
  Bytes.beBytes 2 bs.length ++ bs

/-- A `TPMS_PCR_SELECTION`. -/
def PcrMask.encode (p : PcrMask) : Bytes :=
  Bytes.beBytes 2 p.hashAlg.toNat ++ (Bytes.beBytes 1 p.mask.length ++ p.mask)

/-- The bytes of a layout. -/
def QuoteLayout.encode (q : QuoteLayout) : Bytes :=
  Bytes.beBytes 4 tpmGeneratedValue ++ (Bytes.beBytes 2 tpmStAttestQuote ++
    (sized q.qualifiedSigner ++ (sized q.extraData ++
      (Bytes.beBytes 8 q.clock.toNat ++ (Bytes.beBytes 4 q.resetCount.toNat ++
        (Bytes.beBytes 4 q.restartCount.toNat ++ (Bytes.beBytes 1 q.safe.toNat ++
          (Bytes.beBytes 8 q.firmwareVersion.toNat ++
            (Bytes.beBytes 4 q.selections.length ++
              (q.selections.flatMap PcrMask.encode ++ sized q.pcrDigest))))))))))

/-! ### Delimiting -/

section Steps

variable {α β : Type} {p : Read α} {f : α → Read β} {r r' : Reader} {a : α} {e : CryptoError}

theorem bind_of_ok (h : p r = .ok (a, r')) : (p >>= f) r = f a r' := by
  show Except.bind (p r) _ = _
  rw [h]
  rfl

theorem bind_of_error (h : p r = .error e) : (p >>= f) r = .error e := by
  show Except.bind (p r) _ = _
  rw [h]
  rfl

/-- Taking refuses where there is too little, and is a slice of the bytes otherwise. -/
theorem take_eq (n : ℕ) (what : String) (r : Reader) : take n what r =
    if r.remaining < n then
      .error (.attestationFailed ("TPM structure truncated: wanted " ++ toString n ++
        " bytes for " ++ what ++ " at offset " ++ toString r.offset ++ ", " ++
        toString r.remaining ++ " remain"))
    else .ok ((r.bytes.drop r.offset).take n, { r with offset := r.offset + n }) := by
  show (if r.remaining < n then _ else _ : Read Bytes) r = _
  split_ifs
  · rfl
  · rfl

end Steps

/-- A reader reads exactly an encoding, whatever stands before it and behind it, and refuses every
proper prefix of it. -/
structure Delimits {α : Type} (p : Read α) (enc : Bytes) (a : α) : Prop where
  reads : ∀ before after : Bytes, p ⟨before ++ (enc ++ after), before.length⟩ =
    .ok (a, ⟨before ++ (enc ++ after), before.length + enc.length⟩)
  refuses : ∀ before cut : Bytes, cut <+: enc → cut ≠ enc →
    ∃ e, p ⟨before ++ cut, before.length⟩ = .error e

namespace Delimits

variable {α β : Type} {a : α} {b : β} {enc enc' : Bytes}

theorem pure (a : α) : Delimits (Pure.pure a) [] a where
  reads _ _ := rfl
  refuses _ _ hcut hne := absurd (List.prefix_nil.1 hcut) hne

/-- **One after the other.** -/
theorem bind {p : Read α} {f : α → Read β} (hp : Delimits p enc a) (hf : Delimits (f a) enc' b) :
    Delimits (p >>= f) (enc ++ enc') b where
  reads before after := by
    have hfirst := hp.reads before (enc' ++ after)
    have hsecond := hf.reads (before ++ enc) after
    rw [List.append_assoc, List.length_append] at hsecond
    rw [List.append_assoc, List.length_append, bind_of_ok hfirst, hsecond, Nat.add_assoc]
  refuses before cut hcut hne := by
    -- what is cut reaches into the second encoding
    have hsecond : ∀ more, more <+: enc' → more ≠ enc' →
        ∃ e, (p >>= f) ⟨before ++ (enc ++ more), before.length⟩ = .error e := by
      intro more hmore hproper
      obtain ⟨e, he⟩ := hf.refuses (before ++ enc) more hmore hproper
      rw [List.append_assoc, List.length_append] at he
      exact ⟨e, (bind_of_ok (hp.reads before more)).trans he⟩
    obtain ⟨left, hleft⟩ := hcut
    rcases List.append_eq_append_iff.1 hleft with ⟨missing, henc, -⟩ | ⟨more, rfl, henc'⟩
    · rcases eq_or_ne cut enc with rfl | hproper
      · have hnil : [] ≠ enc' := by
          rintro rfl
          exact hne (List.append_nil cut).symm
        simpa using hsecond [] (List.nil_prefix) hnil
      · obtain ⟨e, he⟩ := hp.refuses before cut ⟨missing, henc.symm⟩ hproper
        exact ⟨e, bind_of_error he⟩
    · exact hsecond more ⟨left, henc'.symm⟩ fun h ↦ hne (h ▸ rfl)

/-- Nothing is read by what follows. -/
theorem bind_pure {p : Read α} {f : α → Read β} (hp : Delimits p enc a)
    (hf : f a = Pure.pure b) : Delimits (p >>= f) enc b := by
  have h := hp.bind (hf ▸ Delimits.pure b)
  rwa [List.append_nil] at h

/-- A check that does not refuse. -/
theorem of_not {c : Prop} [Decidable c] {p q : Read α} (hc : ¬c) (h : Delimits q enc a) :
    Delimits (if c then p else q) enc a := by
  rwa [if_neg hc]

/-- A case that is met. -/
theorem of_pos {c : Prop} [Decidable c] {p q : Read α} (hc : c) (h : Delimits p enc a) :
    Delimits (if c then p else q) enc a := by
  rwa [if_pos hc]

/-- Bytes of a known number. -/
theorem take (bs : Bytes) (what : String) : Delimits (Tpm2.take bs.length what) bs bs where
  reads before after := by
    have hroom : ¬(⟨before ++ (bs ++ after), before.length⟩ : Reader).remaining < bs.length := by
      simp [Reader.remaining]
    rw [take_eq, if_neg hroom, List.drop_left, List.take_left]
  refuses before cut hcut hne := by
    have hlt : cut.length < bs.length :=
      lt_of_le_of_ne hcut.length_le fun h ↦ hne (hcut.eq_of_length h)
    have hroom : (⟨before ++ cut, before.length⟩ : Reader).remaining < bs.length := by
      simpa [Reader.remaining] using hlt
    rw [take_eq, if_pos hroom]
    exact ⟨_, rfl⟩

/-- An integer that fits its width. -/
theorem uint {width n : ℕ} (hn : n < 256 ^ width) (what : String) :
    Delimits (Tpm2.uint width what) (Bytes.beBytes width n) n := by
  have hbytes := Delimits.take (Bytes.beBytes width n) what
  rw [Bytes.length_beBytes] at hbytes
  refine hbytes.bind_pure ?_
  rw [Bytes.ofBe_beBytes, Nat.mod_eq_of_lt hn]

/-- A buffer behind its length. -/
theorem sizedBuffer {bs : Bytes} (hshort : bs.length < 2 ^ 16) (what : String) :
    Delimits (Tpm2.sizedBuffer what) (sized bs) bs :=
  (Delimits.uint (by norm_num at hshort ⊢; omega) what).bind (Delimits.take bs what)

/-- Nothing stands around the encoding. -/
theorem run'_eq {p : Read α} (hp : Delimits p enc a) : p.run' ⟨enc, 0⟩ = .ok a := by
  have hread := hp.reads [] []
  rw [List.append_nil, List.nil_append] at hread
  show Except.map Prod.fst (p ⟨enc, 0⟩) = _
  rw [show p ⟨enc, 0⟩ = _ from hread]
  rfl

/-- An encoding that is cut is refused. -/
theorem run'_cut {p : Read α} (hp : Delimits p enc a) {cut : Bytes} (hcut : cut <+: enc)
    (hne : cut ≠ enc) : ∃ e, p.run' ⟨cut, 0⟩ = .error e := by
  obtain ⟨e, he⟩ := hp.refuses [] cut hcut hne
  refine ⟨e, ?_⟩
  show Except.map Prod.fst (p ⟨cut, 0⟩) = _
  rw [show p ⟨cut, 0⟩ = _ from he]
  rfl

end Delimits

/-! ### The parser -/

/-- What the parser makes of a selection. -/
def PcrMask.parsed (p : PcrMask) : PcrSelection :=
  ⟨p.hashAlg.toNat, maskIndices p.mask⟩

theorem delimits_readSelections (l : List PcrMask) :
    Delimits (readSelections l.length) (l.flatMap PcrMask.encode) (l.map PcrMask.parsed) := by
  induction l with
  | nil => exact Delimits.pure []
  | cons p l ih =>
    have hhash : p.hashAlg.toNat < 256 ^ 2 := p.hashAlg.toNat_lt
    have hsize : p.mask.length < 256 ^ 1 := p.short
    rw [List.flatMap_cons, PcrMask.encode, List.append_assoc, List.append_assoc]
    refine (Delimits.uint hhash _).bind ?_
    refine (Delimits.uint hsize _).bind ?_
    refine (Delimits.take p.mask _).bind ?_
    exact ih.bind_pure rfl

/-- What the parser makes of a layout. -/
def QuoteLayout.parsed (q : QuoteLayout) : AttestQuote where
  qualifiedSigner := q.qualifiedSigner
  extraData := q.extraData
  clock := q.clock.toNat
  resetCount := q.resetCount.toNat
  restartCount := q.restartCount.toNat
  clockSafe := q.safe.toNat ≠ 0
  firmwareVersion := q.firmwareVersion.toNat
  pcrSelections := q.selections.map PcrMask.parsed
  pcrDigest := q.pcrDigest

/-- **The parser delimits every layout**, field by field. -/
theorem delimits_readAttest (q : QuoteLayout) : Delimits readAttest q.encode q.parsed := by
  have hcount : q.selections.length < 256 ^ 4 := by
    have hfew := q.selections_few
    norm_num
    omega
  refine (Delimits.uint (by decide) _).bind (Delimits.of_not (not_not.2 rfl) ?_)
  refine (Delimits.uint (by decide) _).bind (Delimits.of_not (not_not.2 rfl) ?_)
  refine (Delimits.sizedBuffer q.qualifiedSigner_short _).bind ?_
  refine (Delimits.sizedBuffer q.extraData_short _).bind ?_
  refine (Delimits.uint q.clock.toNat_lt _).bind ?_
  refine (Delimits.uint q.resetCount.toNat_lt _).bind ?_
  refine (Delimits.uint q.restartCount.toNat_lt _).bind ?_
  refine (Delimits.uint q.safe.toNat_lt _).bind ?_
  refine (Delimits.uint q.firmwareVersion.toNat_lt _).bind ?_
  refine (Delimits.uint hcount _).bind (Delimits.of_not (Nat.not_lt.2 q.selections_few) ?_)
  refine (delimits_readSelections q.selections).bind ?_
  exact (Delimits.sizedBuffer q.pcrDigest_short _).bind_pure rfl

theorem parse_encode (q : QuoteLayout) : AttestQuote.parse q.encode = .ok q.parsed :=
  (delimits_readAttest q).run'_eq

/-! ### The indices of a selection -/

/-- A list of indices names the set bits of a mask, in ascending order and each once: bit `i` of
byte `j` is index `8 * j + i`. -/
structure NamesBits (mask : Bytes) (indices : List UInt8) : Prop where
  mem_iff : ∀ k : ℕ, k ∈ indices.map UInt8.toNat ↔
    ∃ byte, mask[k / 8]? = some byte ∧ byte.toNat.testBit (k % 8) = true
  ascending : indices.Pairwise (· < ·)
  distinct : indices.Nodup

theorem mem_maskIndices {mask : Bytes} {x : UInt8} :
    x ∈ maskIndices mask ↔ ∃ j byte bit, mask[j]? = some byte ∧ bit < 8 ∧
      byte.toNat.testBit bit = true ∧ UInt8.ofNat (j * 8) + UInt8.ofNat bit = x := by
  simp only [maskIndices, List.mem_flatMap, Prod.exists, List.mk_mem_zipIdx_iff_getElem?,
    List.mem_map, List.mem_filter, List.mem_range]
  constructor
  · rintro ⟨byte, j, hbyte, bit, ⟨hlt, hbit⟩, rfl⟩
    exact ⟨j, byte, bit, hbyte, hlt, hbit, rfl⟩
  · rintro ⟨j, byte, bit, hbyte, hlt, hbit, rfl⟩
    exact ⟨byte, j, hbyte, bit, ⟨hlt, hbit⟩, rfl⟩

/-- Within the first 32 bytes the arithmetic of bytes is exact. -/
theorem toNat_index {j bit : ℕ} (hj : j < 32) (hbit : bit < 8) :
    (UInt8.ofNat (j * 8) + UInt8.ofNat bit).toNat = 8 * j + bit := by
  simp
  omega

/-- A byte that is not zero has a bit. -/
theorem exists_testBit {byte : UInt8} (h : byte ≠ 0) :
    ∃ bit < 8, byte.toNat.testBit bit = true := by
  obtain ⟨bit, hbit⟩ := Nat.exists_testBit_of_ne_zero fun hzero ↦ h (UInt8.toNat_inj.1 hzero)
  refine ⟨bit, Nat.lt_of_not_le fun hge ↦ ?_, hbit⟩
  have hlt : byte.toNat < 2 ^ bit :=
    byte.toNat_lt.trans_le (Nat.pow_le_pow_right (by decide) hge)
  rw [Nat.testBit_lt_two_pow hlt] at hbit
  cases hbit

/-- The bits of a mask behind its first 32 bytes are not set. -/
def Narrow (mask : Bytes) : Prop :=
  ∀ byte ∈ mask.drop 32, byte = 0

theorem Narrow.lt {mask : Bytes} (h : Narrow mask) {j bit : ℕ} {byte : UInt8}
    (hbyte : mask[j]? = some byte) (hbit : byte.toNat.testBit bit = true) : j < 32 := by
  by_contra hge
  have hdrop : (mask.drop 32)[j - 32]? = some byte := by
    rw [List.getElem?_drop, Nat.add_sub_cancel' (Nat.le_of_not_lt hge), hbyte]
  rw [h byte (List.mem_of_getElem? hdrop)] at hbit
  simp at hbit

/-- The indices come in the order of the bytes, and in a byte in the order of its bits. -/
theorem pairwise_maskIndices {mask : Bytes} (h : Narrow mask) :
    (maskIndices mask).Pairwise (· < ·) := by
  have horder : mask.zipIdx.Pairwise fun a b ↦ a.2 < b.2 := by
    rw [← List.pairwise_map (f := Prod.snd) (R := (· < ·)), List.zipIdx_map_snd]
    exact List.pairwise_lt_range'
  have hmem : ∀ p ∈ mask.zipIdx, mask[p.2]? = some p.1 :=
    fun p hp ↦ List.mem_zipIdx_iff_getElem?.1 hp
  refine List.pairwise_flatMap.2 ⟨?_, ?_⟩
  · rintro ⟨byte, j⟩ hp
    refine List.pairwise_map.2 ?_
    refine ((List.pairwise_lt_range.filter _).imp_of_mem ?_)
    intro a b ha hb hlt
    obtain ⟨ha, hbit⟩ := List.mem_filter.1 ha
    obtain ⟨hb, -⟩ := List.mem_filter.1 hb
    have hj : j < 32 := h.lt (hmem _ hp) hbit
    rw [UInt8.lt_iff_toNat_lt, toNat_index hj (List.mem_range.1 ha),
      toNat_index hj (List.mem_range.1 hb)]
    omega
  · refine horder.imp_of_mem ?_
    rintro ⟨byte, j⟩ ⟨byte', j'⟩ hp hp' (hlt : j < j') x hx y hy
    obtain ⟨a, ha, rfl⟩ := List.mem_map.1 hx
    obtain ⟨b, hb, rfl⟩ := List.mem_map.1 hy
    obtain ⟨ha, hbit⟩ := List.mem_filter.1 ha
    obtain ⟨hb, hbit'⟩ := List.mem_filter.1 hb
    rw [List.mem_range] at ha hb
    rw [UInt8.lt_iff_toNat_lt, toNat_index (h.lt (hmem _ hp) hbit) ha,
      toNat_index (h.lt (hmem _ hp') hbit') hb]
    omega

/-- **The parser names the bits of a mask exactly if none is set behind the first 32 bytes**: an
index is one byte. -/
theorem namesBits_iff {mask : Bytes} : NamesBits mask (maskIndices mask) ↔ Narrow mask := by
  constructor
  · intro h byte hbyte
    by_contra hzero
    obtain ⟨j, hj⟩ := List.mem_iff_getElem?.1 hbyte
    obtain ⟨bit, hlt, hbit⟩ := exists_testBit hzero
    rw [List.getElem?_drop] at hj
    -- the bit's position does not fit into a byte
    have hmem : 8 * (32 + j) + bit ∈ (maskIndices mask).map UInt8.toNat := by
      refine (h.mem_iff _).2 ⟨byte, ?_, ?_⟩
      · rwa [show (8 * (32 + j) + bit) / 8 = 32 + j by omega]
      · rwa [show (8 * (32 + j) + bit) % 8 = bit by omega]
    obtain ⟨x, -, hx⟩ := List.mem_map.1 hmem
    have hx256 := x.toNat_lt
    omega
  · intro h
    have hpairwise := pairwise_maskIndices h
    refine ⟨fun k ↦ ?_, hpairwise, hpairwise.imp fun hlt ↦ UInt8.ne_of_lt hlt⟩
    rw [List.mem_map]
    constructor
    · rintro ⟨x, hx, rfl⟩
      obtain ⟨j, byte, bit, hbyte, hlt, hbit, rfl⟩ := mem_maskIndices.1 hx
      rw [toNat_index (h.lt hbyte hbit) hlt, show (8 * j + bit) / 8 = j by omega,
        show (8 * j + bit) % 8 = bit by omega]
      exact ⟨byte, hbyte, hbit⟩
    · rintro ⟨byte, hbyte, hbit⟩
      have hlt : k % 8 < 8 := Nat.mod_lt _ (by decide)
      refine ⟨_, mem_maskIndices.2 ⟨k / 8, byte, k % 8, hbyte, hlt, hbit, rfl⟩, ?_⟩
      rw [toNat_index (h.lt hbyte hbit) hlt]
      omega

/-! ### Slices that panic -/

/-- What the parser is written with. -/
structure Primitives (m : Type → Type) where
  take : ℕ → String → m Bytes
  uint : ℕ → String → m ℕ
  refuse : {α : Type} → String → m α

section Text

variable {m : Type → Type} [Monad m] (P : Primitives m)

/-- `Reader::sized_buffer`, whatever it is written with. -/
def sizedBufferText (what : String) : m Bytes := do
  P.take (← P.uint 2 what) what

/-- The loop over the selections, whatever it is written with. -/
def readSelectionsText : ℕ → m (List PcrSelection)
  | 0 => return []
  | count + 1 => do
    let hashAlg ← P.uint 2 "selection hashAlg"
    let sizeOfSelect ← P.uint 1 "sizeofSelect"
    let mask ← P.take sizeOfSelect "pcrSelect"
    let rest ← readSelectionsText count
    return ⟨hashAlg, maskIndices mask⟩ :: rest

/-- The text of the parser, whatever it is written with. -/
def readAttestText : m AttestQuote := do
  let magic ← P.uint 4 "magic"
  if magic ≠ tpmGeneratedValue then
    P.refuse ("not a TPM-generated attestation: magic is 0x" ++ Text.hexUpper 8 magic ++
      ", expected 0x" ++ Text.hexUpper 8 tpmGeneratedValue)
  let structureType ← P.uint 2 "type"
  if structureType ≠ tpmStAttestQuote then
    P.refuse ("attestation is type 0x" ++ Text.hexUpper 4 structureType ++
      ", expected a PCR quote (0x" ++ Text.hexUpper 4 tpmStAttestQuote ++ ")")
  let qualifiedSigner ← sizedBufferText P "qualifiedSigner"
  let extraData ← sizedBufferText P "extraData"
  let clock ← P.uint 8 "clock"
  let resetCount ← P.uint 4 "resetCount"
  let restartCount ← P.uint 4 "restartCount"
  let clockSafe := (← P.uint 1 "safe") ≠ 0
  let firmwareVersion ← P.uint 8 "firmwareVersion"
  let selectionCount ← P.uint 4 "pcrSelect count"
  if 16 < selectionCount then
    P.refuse ("implausible PCR selection count " ++ toString selectionCount)
  let pcrSelections ← readSelectionsText P selectionCount
  let pcrDigest ← sizedBufferText P "pcrDigest"
  return { qualifiedSigner, extraData, clock, resetCount, restartCount, clockSafe,
           firmwareVersion, pcrSelections, pcrDigest }

end Text

/-- The primitives of `Read`. -/
def totalPrimitives : Primitives Read :=
  ⟨take, uint, refuse⟩

theorem readSelectionsText_eq (count : ℕ) :
    readSelectionsText totalPrimitives count = readSelections count := by
  induction count with
  | zero => rfl
  | succ count ih =>
    rw [readSelectionsText, ih]
    rfl

/-- **The parser is that text.** -/
theorem readAttestText_eq : readAttestText totalPrimitives = readAttest := by
  unfold readAttestText
  simp only [readSelectionsText_eq]
  rfl

/-- Reading, refusing, or panicking. -/
abbrev Panicking (α : Type) : Type :=
  StateT Reader (ExceptT CryptoError Option) α

namespace Panicking

/-- Refuse with a message. -/
def refuse {α : Type} (message : String) : Panicking α :=
  fun _ ↦ some (.error (.attestationFailed message))

/-- `Reader::take`. A slice outside the bytes is a panic. -/
def take (n : ℕ) (what : String) : Panicking Bytes := fun r ↦
  if r.remaining < n then
    refuse ("TPM structure truncated: wanted " ++ toString n ++ " bytes for " ++ what ++
      " at offset " ++ toString r.offset ++ ", " ++ toString r.remaining ++ " remain") r
  else (r.bytes.slice r.offset (r.offset + n)).map fun bs ↦
    .ok (bs, { r with offset := r.offset + n })

/-- `Reader::{u8, u16, u32, u64}`. An index outside the bytes that were taken is a panic. -/
def uint (width : ℕ) (what : String) : Panicking ℕ := do
  let b ← take width what
  fun r ↦ ((List.range width).mapM fun i ↦ b[i]?).map fun word ↦ .ok (Bytes.ofBe word, r)

/-- The primitives, with panics. -/
def primitives : Primitives Panicking :=
  ⟨take, uint, refuse⟩

/-- `AttestQuote::parse`, with panics. -/
def parse (bytes : Bytes) : Option (Except CryptoError AttestQuote) :=
  (readAttestText primitives).run' ⟨bytes, 0⟩

/-- From a cursor within the bytes, a reader does not panic and does what the other one does, and
the cursor stays within the bytes. -/
def Lifts {α : Type} (p : Panicking α) (q : Read α) : Prop :=
  ∀ r : Reader, r.offset ≤ r.bytes.length →
    p r = some (q r) ∧ ∀ a r', q r = .ok (a, r') → r'.offset ≤ r'.bytes.length

theorem length_of_take {n : ℕ} {what : String} {r r' : Reader} {bs : Bytes}
    (h : Tpm2.take n what r = .ok (bs, r')) : bs.length = n := by
  rw [take_eq] at h
  split_ifs at h with hroom
  obtain ⟨rfl, -⟩ := Prod.mk.inj (Except.ok.inj h)
  rw [Reader.remaining] at hroom
  rw [List.length_take, List.length_drop]
  omega

/-- Looking at every byte finds every byte. -/
theorem mapM_getElem? (bs : Bytes) : ((List.range bs.length).mapM fun i ↦ bs[i]?) = some bs := by
  induction bs with
  | nil => rfl
  | cons b bs ih =>
    rw [List.length_cons, List.range_succ_eq_map, List.mapM_cons, List.mapM_map]
    simp only [Function.comp_def, List.getElem?_cons_zero, List.getElem?_cons_succ, ih]
    rfl

namespace Lifts

variable {α β : Type} {p p' : Panicking α} {q q' : Read α}

theorem pure (a : α) : Lifts (Pure.pure a) (Pure.pure a) := by
  intro r hr
  refine ⟨rfl, ?_⟩
  rintro _ _ ⟨⟩
  exact hr

theorem refuse (message : String) : Lifts (@Panicking.refuse α message) (Tpm2.refuse message) := by
  intro r _
  refine ⟨rfl, ?_⟩
  rintro _ _ ⟨⟩

theorem bind {f : α → Panicking β} {g : α → Read β} (hp : Lifts p q)
    (hf : ∀ a, Lifts (f a) (g a)) : Lifts (p >>= f) (q >>= g) := by
  intro r hr
  obtain ⟨heq, hoffset⟩ := hp r hr
  rcases hq : q r with e | ⟨a, r'⟩
  · have hbind : (p >>= f) r = some (.error e) := by
      show ExceptT.bind (p r) _ = _
      rw [heq, hq]
      rfl
    rw [hbind, bind_of_error hq]
    exact ⟨rfl, by simp⟩
  · have hbind : (p >>= f) r = f a r' := by
      show ExceptT.bind (p r) _ = _
      rw [heq, hq]
      rfl
    rw [hbind, bind_of_ok hq]
    exact hf a r' (hoffset a r' hq)

theorem ite {c : Prop} [Decidable c] (h : Lifts p q) (h' : Lifts p' q') :
    Lifts (if c then p else p') (if c then q else q') := by
  split_ifs
  · exact h
  · exact h'

/-- **What is taken lies within the bytes.** -/
theorem take (n : ℕ) (what : String) : Lifts (Panicking.take n what) (Tpm2.take n what) := by
  intro r hr
  rw [Panicking.take, take_eq]
  split_ifs with hroom
  · exact ⟨rfl, by simp⟩
  · have hfits : r.offset + n ≤ r.bytes.length := by
      rw [Reader.remaining] at hroom
      omega
    rw [Bytes.slice_of_le hfits]
    refine ⟨rfl, ?_⟩
    rintro _ _ ⟨⟩
    exact hfits

/-- As many bytes as are looked at were taken. -/
theorem uint (width : ℕ) (what : String) :
    Lifts (Panicking.uint width what) (Tpm2.uint width what) := by
  intro r hr
  obtain ⟨heq, hoffset⟩ := Lifts.take width what r hr
  rcases hq : Tpm2.take width what r with e | ⟨b, r'⟩
  · have hpanicking : Panicking.uint width what r = some (.error e) := by
      show ExceptT.bind (Panicking.take width what r) _ = _
      rw [heq, hq]
      rfl
    rw [hpanicking, Tpm2.uint, bind_of_error hq]
    exact ⟨rfl, by simp⟩
  · have hlength : b.length = width := length_of_take hq
    have hpanicking : Panicking.uint width what r = some (.ok (Bytes.ofBe b, r')) := by
      show ExceptT.bind (Panicking.take width what r) _ = _
      rw [heq, hq]
      show ((List.range width).mapM fun i ↦ b[i]?).map _ = _
      rw [← hlength, mapM_getElem?]
      rfl
    rw [hpanicking, Tpm2.uint, bind_of_ok hq]
    refine ⟨rfl, ?_⟩
    rintro _ _ ⟨⟩
    exact hoffset b r' hq

end Lifts

theorem lifts_sizedBufferText (what : String) :
    Lifts (sizedBufferText primitives what) (sizedBufferText totalPrimitives what) :=
  (Lifts.uint 2 what).bind fun n ↦ Lifts.take n what

theorem lifts_readSelectionsText (count : ℕ) :
    Lifts (readSelectionsText primitives count) (readSelectionsText totalPrimitives count) := by
  induction count with
  | zero => exact Lifts.pure []
  | succ count ih =>
    refine (Lifts.uint 2 _).bind fun hashAlg ↦ ?_
    refine (Lifts.uint 1 _).bind fun size ↦ ?_
    refine (Lifts.take size _).bind fun mask ↦ ?_
    exact ih.bind fun rest ↦ Lifts.pure _

/-- **The text of the parser does not panic.** -/
theorem lifts_readAttestText :
    Lifts (readAttestText primitives) (readAttestText totalPrimitives) := by
  have hrefuse : ∀ message, Lifts (primitives.refuse message : Panicking PUnit)
      (totalPrimitives.refuse message) := fun message ↦ Lifts.refuse message
  -- what follows a check that may refuse
  have hcheck : ∀ {c : Prop} [Decidable c] {message : String} {p : PUnit → Panicking AttestQuote}
      {q : PUnit → Read AttestQuote}, Lifts (p ⟨⟩) (q ⟨⟩) →
      Lifts (if c then primitives.refuse message >>= p else p ⟨⟩)
        (if c then totalPrimitives.refuse message >>= q else q ⟨⟩) :=
    fun h ↦ Lifts.ite ((hrefuse _).bind fun _ ↦ h) h
  refine (Lifts.uint 4 _).bind fun magic ↦ hcheck ?_
  refine (Lifts.uint 2 _).bind fun structureType ↦ hcheck ?_
  refine (lifts_sizedBufferText _).bind fun qualifiedSigner ↦ ?_
  refine (lifts_sizedBufferText _).bind fun extraData ↦ ?_
  refine (Lifts.uint 8 _).bind fun clock ↦ ?_
  refine (Lifts.uint 4 _).bind fun resetCount ↦ ?_
  refine (Lifts.uint 4 _).bind fun restartCount ↦ ?_
  refine (Lifts.uint 1 _).bind fun safe ↦ ?_
  refine (Lifts.uint 8 _).bind fun firmwareVersion ↦ ?_
  refine (Lifts.uint 4 _).bind fun selectionCount ↦ hcheck ?_
  refine (lifts_readSelectionsText _).bind fun pcrSelections ↦ ?_
  exact (lifts_sizedBufferText _).bind fun pcrDigest ↦ Lifts.pure _

/-- **No input makes the parser look outside the bytes.** -/
theorem parse_eq (bytes : Bytes) : parse bytes = some (AttestQuote.parse bytes) := by
  obtain ⟨heq, -⟩ := lifts_readAttestText ⟨bytes, 0⟩ (Nat.zero_le _)
  rw [readAttestText_eq] at heq
  show ExceptT.map Prod.fst (readAttestText primitives ⟨bytes, 0⟩) = _
  rw [heq]
  show _ = some (Except.map Prod.fst (readAttest ⟨bytes, 0⟩))
  rcases readAttest ⟨bytes, 0⟩ with e | ⟨attest, r⟩
  · rfl
  · rfl

end Panicking

/-! ### What is reported of a quote -/

/-- What is reported is what was laid out, and the indices name the bits of the masks. -/
structure Reports (q : QuoteLayout) (attest : AttestQuote) : Prop where
  qualifiedSigner : attest.qualifiedSigner = q.qualifiedSigner
  extraData : attest.extraData = q.extraData
  clock : attest.clock = q.clock.toNat
  resetCount : attest.resetCount = q.resetCount.toNat
  restartCount : attest.restartCount = q.restartCount.toNat
  clockSafe : attest.clockSafe = decide (q.safe ≠ 0)
  firmwareVersion : attest.firmwareVersion = q.firmwareVersion.toNat
  selections : List.Forall₂ (fun s (p : PcrMask) ↦
    s.hashAlg = p.hashAlg.toNat ∧ NamesBits p.mask s.indices) attest.pcrSelections q.selections
  pcrDigest : attest.pcrDigest = q.pcrDigest

theorem reports_parsed_iff {q : QuoteLayout} :
    Reports q q.parsed ↔ ∀ p ∈ q.selections, Narrow p.mask := by
  have hselections : List.Forall₂ (fun s (p : PcrMask) ↦
      s.hashAlg = p.hashAlg.toNat ∧ NamesBits p.mask s.indices) q.parsed.pcrSelections
      q.selections ↔ ∀ p ∈ q.selections, Narrow p.mask := by
    show List.Forall₂ _ (q.selections.map PcrMask.parsed) q.selections ↔ _
    rw [List.forall₂_map_left_iff, List.forall₂_same]
    exact forall₂_congr fun p _ ↦ (and_iff_right rfl).trans namesBits_iff
  rw [← hselections]
  constructor
  · exact Reports.selections
  · intro h
    have hsafe : q.safe.toNat ≠ 0 ↔ q.safe ≠ 0 :=
      not_congr (UInt8.toNat_inj (b := 0))
    exact ⟨rfl, rfl, rfl, rfl, rfl, decide_eq_decide.2 hsafe, rfl, h, rfl⟩

/-- **A quote is refused or reported as it was laid out, no proper prefix of it is accepted, and
nothing is read outside the bytes, exactly if no mask has a bit behind its first 32 bytes.** -/
theorem quote_reported_exactly_iff (q : QuoteLayout) :
    ((∀ attest, AttestQuote.parse q.encode = .ok attest → Reports q attest) ∧
        (∀ cut, cut <+: q.encode → cut ≠ q.encode → ∃ e, AttestQuote.parse cut = .error e) ∧
        ∀ bytes, Panicking.parse bytes = some (AttestQuote.parse bytes)) ↔
      ∀ p ∈ q.selections, Narrow p.mask := by
  rw [← reports_parsed_iff]
  constructor
  · rintro ⟨hreports, -⟩
    exact hreports q.parsed (parse_encode q)
  · intro h
    refine ⟨fun attest hattest ↦ ?_, fun cut hcut hne ↦ ?_, Panicking.parse_eq⟩
    · obtain rfl := Except.ok.inj ((parse_encode q).symm.trans hattest)
      exact h
    · exact (delimits_readAttest q).run'_cut hcut hne

/-- A quote with one selection, whose mask has the first bit of its 33rd byte. -/
def wideQuote : QuoteLayout where
  qualifiedSigner := []
  extraData := []
  clock := 0
  resetCount := 0
  restartCount := 0
  safe := 1
  firmwareVersion := 0
  selections := [⟨0x000B, List.replicate 32 0 ++ [1], by decide⟩]
  pcrDigest := []
  qualifiedSigner_short := by decide
  extraData_short := by decide
  selections_few := by decide
  pcrDigest_short := by decide

/-- **The 257th bit is reported as the first.** -/
theorem wide_bit_is_reported_as_first :
    AttestQuote.parse wideQuote.encode = .ok wideQuote.parsed ∧
      wideQuote.parsed.sha256Indices = [0] ∧ ¬Reports wideQuote wideQuote.parsed := by
  refine ⟨parse_encode wideQuote, by decide +kernel, fun h ↦ ?_⟩
  have hnarrow := reports_parsed_iff.1 h _ (List.mem_singleton.2 rfl)
  exact absurd (hnarrow 1 (by decide)) (by decide)

/-! ### ECDSA signatures -/

/-- Zeroes in front of a number, up to a width. -/
def padTo (width : ℕ) (bs : Bytes) : Bytes :=
  List.replicate (width - bs.length) 0 ++ bs

/-- A `TPMT_SIGNATURE` with an ECDSA signature. -/
def ecdsaSignature (hashAlg : UInt16) (r s : Bytes) : Bytes :=
  Bytes.beBytes 2 tpmAlgEcdsa ++ (Bytes.beBytes 2 hashAlg.toNat ++ (sized r ++ sized s))

theorem delimits_ecdsaSignature (hashAlg : UInt16) {r s : Bytes} (hr : r.length < 2 ^ 16)
    (hs : s.length < 2 ^ 16) : Delimits readSignature (ecdsaSignature hashAlg r s)
      ⟨tpmAlgEcdsa, hashAlg.toNat,
        padTo (max r.length s.length) r ++ padTo (max r.length s.length) s⟩ := by
  refine (Delimits.uint (by decide) _).bind ?_
  refine (Delimits.uint hashAlg.toNat_lt _).bind ?_
  refine Delimits.of_not (by decide) (Delimits.of_pos rfl ?_)
  refine (Delimits.sizedBuffer hr _).bind ?_
  refine (Delimits.sizedBuffer hs _).bind_pure ?_
  simp only [padTo, List.append_assoc]

theorem length_padTo {width : ℕ} {bs : Bytes} (h : bs.length ≤ width) :
    (padTo width bs).length = width := by
  rw [padTo, List.length_append, List.length_replicate]
  omega

/-- **A signature is brought to the width of the curve exactly if one of its numbers has it.** -/
theorem ecdsa_normalised_iff (hashAlg : UInt16) {r s : Bytes} (hr : r.length ≤ 32)
    (hs : s.length ≤ 32) :
    TpmSignature.parse (ecdsaSignature hashAlg r s) =
        .ok ⟨tpmAlgEcdsa, hashAlg.toNat, padTo 32 r ++ padTo 32 s⟩ ↔
      r.length = 32 ∨ s.length = 32 := by
  have hread : TpmSignature.parse (ecdsaSignature hashAlg r s) = .ok ⟨tpmAlgEcdsa, hashAlg.toNat,
      padTo (max r.length s.length) r ++ padTo (max r.length s.length) s⟩ :=
    (delimits_ecdsaSignature hashAlg (by omega) (by omega)).run'_eq
  rw [hread, Except.ok.injEq, TpmSignature.mk.injEq, and_iff_right rfl, and_iff_right rfl]
  constructor
  · intro h
    have hlength := congrArg List.length h
    rw [List.length_append, List.length_append, length_padTo (le_max_left _ _),
      length_padTo (le_max_right _ _), length_padTo hr, length_padTo hs] at hlength
    omega
  · intro h
    rw [show max r.length s.length = 32 by omega]

theorem ecdsa_normalised_iff_sample :
    TpmSignature.parse (ecdsaSignature 0x000B (List.replicate 32 1) (List.replicate 30 2)) =
      .ok ⟨tpmAlgEcdsa, 0x000B, List.replicate 32 1 ++ ([0, 0] ++ List.replicate 30 2)⟩ :=
  (ecdsa_normalised_iff 0x000B (by decide) (by decide)).2 (Or.inl (by decide))

/-- **Two short numbers make a short signature.** -/
theorem short_numbers_make_a_short_signature :
    TpmSignature.parse (ecdsaSignature 0x000B (List.replicate 31 1) (List.replicate 31 2)) =
        .ok ⟨tpmAlgEcdsa, 0x000B, List.replicate 31 1 ++ List.replicate 31 2⟩ ∧
      (List.replicate 31 (1 : UInt8) ++ List.replicate 31 2).length ≠ 64 :=
  ⟨(delimits_ecdsaSignature 0x000B (by decide) (by decide)).run'_eq, by decide⟩

end Tpm2

end Cordon
