import Cordon.Crypto.NitroSoundness

/-!
# The keys that a Nitro document is read by

A map that was read may carry a key twice, and a reader that takes one of the two entries leaves
open which one was meant. Three routines look keys up. Text keys go through `get`, and PCR indices
through the loop of `readPcrs`; both refuse a key that comes again. The algorithm goes through
`getInt`, which stops at the first entry.

So in a document that is accepted every key of the payload occurs once, or at most once where it may
be missing, and the algorithm occurs. **It occurs once exactly where the check that `get` makes
would have passed** (`keys_occur_once_iff`).

The proof is by the three routines. For `get` and `readPcrs` an accepted document is enough, since a
repeated key is an error of theirs; for `getInt` nothing is known beyond the first entry, which is
why the check is in the condition. The header and the payload are two maps, and the document is
accepted with both of them decoded.
-/

namespace Cordon

namespace Nitro

open Association

/-- The keys of a payload that `parse` requires. -/
def requiredKeys : List String :=
  ["module_id", "timestamp", "digest", "pcrs", "certificate", "cabundle"]

/-- The keys of a payload that may be missing. -/
def optionalKeys : List String :=
  ["public_key", "user_data", "nonce"]

/-- Every key that is looked up occurs once in its map, or at most once where it may be missing. -/
structure KeysOccurOnce (header fields : List (CborValue × CborValue)) : Prop where
  /-- The label of the algorithm. -/
  alg : ∃ v, OccursOnce header (.unsigned 1) v
  required : ∀ key ∈ requiredKeys, ∃ v, OccursOnce fields (.text key) v
  optional : ∀ key ∈ optionalKeys, OccursAtMostOnce fields (.text key)
  pcrs : ∃ pcrs, OccursOnce fields (.text "pcrs") (.map pcrs) ∧
    ∀ index, OccursAtMostOnce pcrs (.unsigned index)

/-! ### The payload -/

theorem occursAtMostOnce_of_optionalBytes {fields : List (CborValue × CborValue)} {key : String}
    {max : ℕ} {found : Option Bytes} (h : optionalBytes (.map fields) key max = .ok found) :
    OccursAtMostOnce fields (.text key) := by
  obtain ⟨_, hget, -⟩ := Except.bind_eq_ok.1 h
  exact CborValue.occursAtMostOnce_of_get hget

namespace NitroAttestationDoc.ReadFrom

variable {fields : List (CborValue × CborValue)} {doc : NitroAttestationDoc}

theorem required (h : doc.ReadFrom fields) :
    ∀ key ∈ requiredKeys, ∃ v, OccursOnce fields (.text key) v := by
  simp only [requiredKeys, List.forall_mem_cons]
  exact ⟨⟨_, h.moduleId⟩, ⟨_, h.timestampMs⟩, ⟨_, h.digest⟩, ⟨_, h.pcrs⟩, ⟨_, h.certificate⟩,
    ⟨_, h.cabundle⟩, nofun⟩

theorem optional (h : doc.ReadFrom fields) :
    ∀ key ∈ optionalKeys, OccursAtMostOnce fields (.text key) := by
  simp only [optionalKeys, List.forall_mem_cons]
  exact ⟨occursAtMostOnce_of_optionalBytes h.publicKey,
    occursAtMostOnce_of_optionalBytes h.userData, occursAtMostOnce_of_optionalBytes h.nonce, nofun⟩

/-- The indices that were kept differ, and they are the keys as they stand in the map. -/
theorem occursAtMostOnce_pcr (h : doc.ReadFrom fields) (index : ℕ) :
    OccursAtMostOnce (doc.pcrs.map pcrEntry) (.unsigned index) := by
  refine occursAtMostOnce_of_nodup ?_ _
  have hkeys : (doc.pcrs.map pcrEntry).map Prod.fst =
      (doc.pcrs.map Prod.fst).map fun index ↦ .unsigned index.toNat := by
    rw [List.map_map, List.map_map]
    rfl
  rw [hkeys]
  exact h.nodup_pcrs.map pcrKey_injective

end NitroAttestationDoc.ReadFrom

/-! ### The protected header -/

section Header

variable {header : List (CborValue × CborValue)} {bs : Bytes}

/-- In a map that was decoded, the label of the algorithm has one form. -/
theorem isInt_coseHeaderAlg_iff (h : Cbor.decode bs = .ok (.map header))
    {e : CborValue × CborValue} (he : e ∈ header) :
    CborValue.isInt coseHeaderAlg e.1 = true ↔ e.1 = .unsigned 1 := by
  obtain ⟨body, hbody⟩ := (Cbor.decode_iff_encodes.1 h).1.exists_key_of_mem_map he
  exact Cbor.isInt_iff_of_encodes hbody (by decide)

/-- A label that is found is the only one exactly where a filter finds no second one. -/
theorem exists_occursOnce_alg_iff (h : Cbor.decode bs = .ok (.map header))
    {alg : CborValue × CborValue}
    (halg : (header.find? fun e ↦ CborValue.isInt coseHeaderAlg e.1) = some alg) :
    (∃ v, OccursOnce header (.unsigned 1) v) ↔
      (header.filter fun e ↦ CborValue.isInt coseHeaderAlg e.1).length ≤ 1 := by
  rw [length_filter_le_one_iff fun e he ↦ isInt_coseHeaderAlg_iff h he]
  constructor
  · rintro ⟨v, hv⟩
    exact hv.occursAtMostOnce
  · intro honce
    have hmem : alg ∈ header := List.mem_of_find?_eq_some halg
    have hfound := List.find?_some halg
    have hkey : alg.1 = .unsigned 1 := (isInt_coseHeaderAlg_iff h hmem).1 hfound
    refine ⟨alg.2, honce.occursOnce ?_⟩
    rw [← hkey]
    exact hmem

end Header

/-- **Every key occurs once exactly where the algorithm is not repeated.** The header and the
payload of a document that is accepted are maps. All that the two parsers look up occurs in them
once, or at most once where it may be missing, if and only if no second entry of the header passes
the test by which `getInt` found the first. -/
theorem keys_occur_once_iff {document : Bytes} {envelope : CoseSign1} {doc : NitroAttestationDoc}
    (henvelope : CoseSign1.parse document = .ok envelope)
    (hdoc : NitroAttestationDoc.parse envelope.payload = .ok doc) :
    ∃ header fields, Cbor.decode envelope.protectedHeader = .ok (.map header) ∧
      Cbor.decode envelope.payload = .ok (.map fields) ∧
      (KeysOccurOnce header fields ↔
        (header.filter fun e ↦ CborValue.isInt coseHeaderAlg e.1).length ≤ 1) := by
  obtain ⟨_, header, alg, -, hheader, halg⟩ := CoseSign1.exists_of_parse henvelope
  obtain ⟨fields, hpayload, hread⟩ := NitroAttestationDoc.exists_of_parse hdoc
  refine ⟨header, fields, hheader, hpayload, ?_⟩
  rw [← exists_occursOnce_alg_iff hheader halg]
  constructor
  · exact KeysOccurOnce.alg
  · intro hv
    exact ⟨hv, hread.required, hread.optional, _, hread.pcrs, hread.occursAtMostOnce_pcr⟩

namespace Sample

/-- What a payload has to hold, with one PCR. -/
def smallFields : List (CborValue × CborValue) :=
  [(.text "module_id", .text "i-0"), (.text "digest", .text "SHA384"),
    (.text "timestamp", .unsigned 0),
    (.text "pcrs", .map [(.unsigned 0, .bytes (List.replicate 48 0xAB))]),
    (.text "certificate", .bytes [0x30]), (.text "cabundle", .array [.bytes [0x30]])]

def smallPayload : Bytes :=
  Cbor.writeHeader 5 6 ++ [Cbor.writeText "module_id", Cbor.writeText "i-0",
    Cbor.writeText "digest", Cbor.writeText "SHA384",
    Cbor.writeText "timestamp", Cbor.writeHeader 0 0,
    Cbor.writeText "pcrs",
    Cbor.writeHeader 5 1 ++ [Cbor.writeHeader 0 0,
      Cbor.writeBytes (List.replicate 48 0xAB)].flatten,
    Cbor.writeText "certificate", Cbor.writeBytes [0x30],
    Cbor.writeText "cabundle", Cbor.writeHeader 4 1 ++ [Cbor.writeBytes [0x30]].flatten].flatten

/-- The payload under a protected header. -/
def documentUnder (protectedHeader : Bytes) : Bytes :=
  Cbor.writeHeader 4 4 ++ Cbor.writeBytes protectedHeader ++ Cbor.writeHeader 5 0 ++
    Cbor.writeBytes smallPayload ++ Cbor.writeBytes (List.replicate 96 0)

/-- The label of the algorithm twice, for `ES384` and for `ES256`. -/
def repeatedHeader : Bytes :=
  Cbor.writeHeader 5 2 ++ [Cbor.writeHeader 0 1, Cbor.writeHeader 1 34, Cbor.writeHeader 0 1,
    Cbor.writeHeader 1 6].flatten

theorem parse_documentUnder :
    ∀ header ∈ [protectedHeader, repeatedHeader], CoseSign1.parse (documentUnder header) =
      .ok ⟨header, smallPayload, List.replicate 96 0⟩ := by
  decide +kernel

/-! The items are put together from what the grammar says of their parts. -/

theorem decode_repeatedHeader : Cbor.decode repeatedHeader =
    .ok (.map [(.unsigned 1, .negative (-35)), (.unsigned 1, .negative (-7))]) := by
  refine Cbor.decode_iff_encodes.2 ⟨?_, by decide, by decide⟩
  exact .map (@Cbor.head_writeHeader 5 2 (by decide) (by decide))
    (.cons encodes_label (.cons (encodes_alg (n := 34) (by decide))
      (.cons encodes_label (.cons (encodes_alg (n := 6) (by decide)) .nil))))

theorem decode_smallPayload : Cbor.decode smallPayload = .ok (.map smallFields) := by
  have hhead : ∀ major < 8, ∀ n < 24, Cbor.Head major n (Cbor.writeHeader (UInt8.ofNat major) n) :=
    fun major hmajor n hn ↦ Cbor.head_writeHeader hmajor (hn.trans (by decide))
  have hlength : ∀ s ∈ ["module_id", "i-0", "digest", "SHA384", "timestamp", "pcrs", "certificate",
      "cabundle"], (Text.asBytes s).length < 2 ^ 64 := by decide
  have htext : ∀ s ∈ ["module_id", "i-0", "digest", "SHA384", "timestamp", "pcrs", "certificate",
      "cabundle"], Cbor.Encodes (.text s) (Cbor.writeText s) :=
    fun s hs ↦ Cbor.encodes_writeText (hlength s hs)
  have hzero : Cbor.Encodes (.unsigned 0) (Cbor.writeHeader 0 0) :=
    .unsigned (hhead 0 (by decide) 0 (by decide))
  have hder : Cbor.Encodes (.bytes [0x30]) (Cbor.writeBytes [0x30]) :=
    Cbor.encodes_writeBytes (by decide)
  have hpcr : Cbor.Encodes (.bytes (List.replicate 48 0xAB))
      (Cbor.writeBytes (List.replicate 48 0xAB)) := Cbor.encodes_writeBytes (by decide)
  refine Cbor.decode_iff_encodes.2 ⟨.map (hhead 5 (by decide) 6 (by decide)) ?_, by decide,
    by decide⟩
  refine .cons (htext _ (by simp)) <| .cons (htext _ (by simp)) <| .cons (htext _ (by simp)) <|
    .cons (htext _ (by simp)) <| .cons (htext _ (by simp)) <| .cons hzero <|
    .cons (htext _ (by simp)) <| .cons ?_ <| .cons (htext _ (by simp)) <| .cons hder <|
    .cons (htext _ (by simp)) <| .cons ?_ .nil
  · exact .map (hhead 5 (by decide) 1 (by decide)) (.cons hzero (.cons hpcr .nil))
  · exact .array (hhead 4 (by decide) 1 (by decide)) (.cons hder .nil)

theorem parse_smallPayload :
    NitroAttestationDoc.parse smallPayload =
      .ok ⟨"i-0", 0, "SHA384", [(0, List.replicate 48 0xAB)], [0x30], [[0x30]], none, none,
        none⟩ := by
  rw [NitroAttestationDoc.parse, decode_smallPayload]
  rfl

end Sample

/-- A document with the algorithm once. -/
theorem keys_occur_once_iff_sample :
    KeysOccurOnce [(.unsigned 1, .negative (-35))] Sample.smallFields := by
  obtain ⟨header, fields, hheader, hpayload, hiff⟩ := keys_occur_once_iff
    (Sample.parse_documentUnder _ List.mem_cons_self) Sample.parse_smallPayload
  rw [Sample.decode_protectedHeader, Except.ok.injEq, CborValue.map.injEq] at hheader
  rw [Sample.decode_smallPayload, Except.ok.injEq, CborValue.map.injEq] at hpayload
  subst hheader hpayload
  exact hiff.2 (by decide)

/-- **An algorithm that is repeated is accepted.** The header names `ES384` and, under the same
label, `ES256`. -/
theorem repeated_algorithm_is_accepted :
    ¬∀ (document : Bytes) (envelope : CoseSign1) (doc : NitroAttestationDoc),
      CoseSign1.parse document = .ok envelope →
      NitroAttestationDoc.parse envelope.payload = .ok doc →
      ∃ header fields, Cbor.decode envelope.protectedHeader = .ok (.map header) ∧
        Cbor.decode envelope.payload = .ok (.map fields) ∧ KeysOccurOnce header fields := by
  intro h
  obtain ⟨header, fields, hheader, -, honce⟩ :=
    h _ _ _ (Sample.parse_documentUnder _ (List.mem_cons_of_mem _ List.mem_cons_self))
      Sample.parse_smallPayload
  rw [Sample.decode_repeatedHeader, Except.ok.injEq, CborValue.map.injEq] at hheader
  subst hheader
  obtain ⟨v, hv⟩ := honce.alg
  exact (List.pairwise_cons.1 hv.occursAtMostOnce).1 _ (List.mem_singleton_self _) ⟨rfl, rfl⟩

end Nitro

end Cordon
