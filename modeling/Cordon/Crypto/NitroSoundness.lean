import Cordon.Crypto.Nitro
import Cordon.Crypto.SigStructure
import Cordon.Lib.Association

/-!
# What a verified Nitro document establishes

A document is two CBOR items, one inside the other, and a verification reports six facts about them.
`SignedDocument` is what stands in the two items, in their own terms: which bytes are the protected
header, the payload and the signature, and which values the payload has under which keys, each of
which it has once. A document has at most one such reading.

`Verified` says of it what the verifier is for, with the signature and the certificates as
predicates of the engine. **A verification without a failure is one in which all of it holds**, and
every certificate is within its validity window (`verifyDocument_passes_iff`). Nothing is assumed of
the engine, but that its lower-case mapping is one (`Text.LowersCase`): a pin may be written in
either case.

The proof goes from the outside in. A document that is decoded is an encoding of its items and of
nothing else, by the grammar; what is read under a key stands there once, because a key that occurs
twice is refused (`readPcrs_spec` for the PCRs, `exists_readAs` for the rest); and with the reading
fixed each of the six facts is its own predicate. So the equivalence has no part in which the parser
is trusted.
-/

namespace Cordon

open Association

/-! ### Values and fields -/

namespace CborValue

variable {v : CborValue} {field key : String}

theorem asBytes_eq_ok {bs : Bytes} : v.asBytes field = .ok bs ↔ v = .bytes bs := by
  cases v <;> simp [asBytes]

theorem asText_eq_ok {s : String} : v.asText field = .ok s ↔ v = .text s := by
  cases v <;> simp [asText]

theorem asU64_eq_ok {n : ℕ} : v.asU64 field = .ok n ↔ v = .unsigned n := by
  cases v <;> simp [asU64]

theorem asArray_eq_ok {items : List CborValue} :
    v.asArray field = .ok items ↔ v = .array items := by
  cases v <;> simp [asArray]

theorem asMap_eq_ok {entries : List (CborValue × CborValue)} :
    v.asMap field = .ok entries ↔ v = .map entries := by
  cases v <;> simp [asMap]

theorem isText_iff (k : CborValue) : isText key k = true ↔ k = .text key := by
  cases k <;> simp [isText]

/-- A field is found exactly when its key occurs once. -/
theorem get_eq_some_iff {doc : CborValue} :
    doc.get key = .ok (some v) ↔ ∃ fields, doc = .map fields ∧ OccursOnce fields (.text key) v := by
  rw [get, Except.bind_eq_ok]
  refine exists_congr fun fields ↦ ?_
  rw [asMap_eq_ok]
  refine and_congr_right fun _ ↦ ?_
  have honce : OccursOnce fields (.text key) v ↔
      (fields.filter fun e ↦ isText key e.1) = [(.text key, v)] := by
    rw [filter_eq_singleton_iff isText_iff]
    exact (and_iff_right rfl).symm
  rw [honce]
  rcases hfilter : fields.filter fun e ↦ isText key e.1 with - | ⟨⟨k, w⟩, - | ⟨e, rest⟩⟩
  · simp [hfilter]
  · have hk : (k, w) ∈ fields.filter fun e ↦ isText key e.1 := by
      rw [hfilter]
      exact List.mem_singleton_self _
    obtain rfl := (isText_iff k).1 (List.mem_filter.1 hk).2
    simp [hfilter]
  · simp [hfilter, throw, throwThe, MonadExceptOf.throw]

/-- A lookup that comes back has seen no second entry. -/
theorem occursAtMostOnce_of_get {fields : List (CborValue × CborValue)} {found : Option CborValue}
    (h : (CborValue.map fields).get key = .ok found) : OccursAtMostOnce fields (.text key) := by
  refine (length_filter_le_one_iff fun e _ ↦ isText_iff e.1).1 ?_
  obtain ⟨_, hmap, hfound⟩ := Except.bind_eq_ok.1 h
  obtain rfl := CborValue.map.inj (asMap_eq_ok.1 hmap)
  split at hfound
  · next hfilter => simp [hfilter]
  · next hfilter => simp [hfilter]
  · simp [throw, throwThe, MonadExceptOf.throw] at hfound

theorem require_eq_ok_iff {doc : CborValue} :
    doc.require key = .ok v ↔
      (∃ fields, doc = .map fields ∧ OccursOnce fields (.text key) v) ∧ v ≠ .null := by
  rw [require, Except.bind_eq_ok, ← get_eq_some_iff]
  constructor
  · rintro ⟨found, hget, h⟩
    split at h
    · simp [throw, throwThe, MonadExceptOf.throw] at h
    · next w hnull =>
      obtain rfl := Except.pure_eq_ok.1 h
      exact ⟨hget, fun hv ↦ hnull hv⟩
    · simp [throw, throwThe, MonadExceptOf.throw] at h
  · rintro ⟨hget, hnull⟩
    refine ⟨some v, hget, ?_⟩
    split
    · next h => exact absurd (Option.some.inj h) hnull
    · next h => rw [Option.some.inj h, Except.pure_eq_ok]
    · next h => cases h

end CborValue

namespace Nitro

/-- An optional field is there exactly when its key occurs once, with bytes that are not empty. -/
theorem optionalBytes_eq_some_iff {fields : List (CborValue × CborValue)} {key : String} {max : ℕ}
    {found : Option Bytes} (h : optionalBytes (.map fields) key max = .ok found) {bs : Bytes} :
    found = some bs ↔ OccursOnce fields (.text key) (.bytes bs) ∧ bs ≠ [] := by
  obtain ⟨value, hget, h⟩ := Except.bind_eq_ok.1 h
  have hvalue : ∀ w, value = some w ↔ OccursOnce fields (.text key) w := by
    intro w
    have hiff : (CborValue.map fields).get key = .ok (some w) ↔ _ := CborValue.get_eq_some_iff
    rw [hget, Except.ok.injEq] at hiff
    simpa using hiff
  rw [← hvalue]
  split at h
  · obtain rfl := Except.pure_eq_ok.1 h
    simp
  · obtain rfl := Except.pure_eq_ok.1 h
    simp
  · next w _ =>
    obtain ⟨bytes, hbytes, hrest⟩ := Except.bind_eq_ok.1 h
    obtain ⟨_, -, hfound⟩ := Except.bind_eq_ok.1 hrest
    obtain rfl := CborValue.asBytes_eq_ok.1 hbytes
    obtain rfl := Except.pure_eq_ok.1 hfound
    rcases bytes with - | ⟨b, bytes⟩
    · simp
    · simp only [List.isEmpty_cons, Bool.false_eq_true, if_false, Option.some.injEq,
        CborValue.bytes.injEq]
      constructor
      · rintro rfl
        exact ⟨rfl, List.cons_ne_nil _ _⟩
      · exact And.left

/-- A PCR as it stands in a document. -/
def pcrEntry : UInt8 × Bytes → CborValue × CborValue :=
  Prod.map (fun index ↦ .unsigned index.toNat) .bytes

theorem pcrKey_injective :
    Function.Injective fun index : UInt8 ↦ CborValue.unsigned index.toNat :=
  fun _ _ h ↦ UInt8.toNat_inj.1 (CborValue.unsigned.inj h)

/-- **The PCRs that are read are those that stand in the map**, at their indices, each index once.
The loop keeps what it has read and adds to it. -/
theorem readPcrs_spec {entries : List (CborValue × CborValue)} {pcrs result : List (UInt8 × Bytes)}
    (h : readPcrs entries pcrs = .ok result) :
    ∃ new, result = pcrs ++ new ∧ entries = new.map pcrEntry ∧
      (∀ pcr ∈ new, pcr.2.length = pcrLen) ∧
      ((pcrs.map Prod.fst).Nodup → (result.map Prod.fst).Nodup) := by
  induction entries generalizing pcrs with
  | nil =>
    obtain rfl := Except.ok.inj h
    exact ⟨[], by simp, rfl, by simp, id⟩
  | cons entry entries ih =>
    obtain ⟨key, value⟩ := entry
    simp only [readPcrs, Except.bind_eq_ok, Except.ensure_eq_ok] at h
    obtain ⟨index, hindex, -, hbound, bytes, hbytes, -, hlength, -, hnone, hloop⟩ := h
    obtain rfl := CborValue.asU64_eq_ok.1 hindex
    obtain rfl := CborValue.asBytes_eq_ok.1 hbytes
    simp only [decide_eq_true_eq, beq_iff_eq, Option.isNone_iff_eq_none, List.lookup_eq_none_iff,
      bne_iff_ne] at hbound hlength hnone
    obtain ⟨new, rfl, rfl, hnew, hnodup⟩ := ih hloop
    have htoNat : (UInt8.ofNat index).toNat = index :=
      UInt8.toNat_ofNat_of_lt' (Nat.lt_trans hbound (by decide))
    refine ⟨(UInt8.ofNat index, bytes) :: new, by simp, ?_, ?_, fun hpcrs ↦ hnodup ?_⟩
    · rw [List.map_cons, pcrEntry, Prod.map_apply, htoNat]
    · intro pcr hpcr
      rcases List.mem_cons.1 hpcr with rfl | hpcr
      · exact hlength
      · exact hnew pcr hpcr
    · -- the index was not there before
      have hnot : UInt8.ofNat index ∉ pcrs.map Prod.fst := by
        intro hmem
        obtain ⟨pcr, hpcr, heq⟩ := List.mem_map.1 hmem
        exact hnone pcr hpcr heq.symm
      rw [List.map_append, List.map_singleton, ← List.concat_eq_append]
      exact hpcrs.concat hnot

theorem readCabundle_spec {entries : List CborValue} {i : ℕ} {cabundle : List Bytes}
    (h : readCabundle entries i = .ok cabundle) : entries = cabundle.map .bytes := by
  induction entries generalizing i cabundle with
  | nil =>
    obtain rfl := Except.ok.inj h
    rfl
  | cons entry entries ih =>
    simp only [readCabundle, Except.bind_eq_ok, Except.pure_eq_ok] at h
    obtain ⟨der, hder, -, -, rest, hrest, rfl⟩ := h
    obtain rfl := CborValue.asBytes_eq_ok.1 hder
    rw [List.map_cons, ih hrest]

/-! ### What stands in a document -/

/-- The two items of a document, and the fields of the inner one that every document has. Each of
their keys occurs once. -/
structure SignedDocument (document : Bytes) where
  protectedHeader : Bytes
  /-- Covered by no signature, and not used. -/
  unprotectedHeader : CborValue
  payload : Bytes
  signature : Bytes
  /-- The entries of the payload. -/
  fields : List (CborValue × CborValue)
  timestampMs : ℕ
  /-- The entries of its map of PCRs. -/
  pcrs : List (CborValue × CborValue)
  certificate : Bytes
  cabundle : List Bytes
  decode_document : Cbor.decode document =
    .ok (.array [.bytes protectedHeader, unprotectedHeader, .bytes payload, .bytes signature])
  decode_payload : Cbor.decode payload = .ok (.map fields)
  timestamp_once : OccursOnce fields (.text "timestamp") (.unsigned timestampMs)
  pcrs_once : OccursOnce fields (.text "pcrs") (.map pcrs)
  certificate_once : OccursOnce fields (.text "certificate") (.bytes certificate)
  cabundle_once : OccursOnce fields (.text "cabundle") (.array (cabundle.map .bytes))

namespace SignedDocument

variable {document : Bytes} (s : SignedDocument document)

/-- **A document has at most one reading.** -/
instance : Subsingleton (SignedDocument document) := by
  constructor
  intro s t
  obtain ⟨_, _, _, _, _, _, _, _, _, hdocument, hpayload, htimestamp, hpcrs, hcertificate,
    hcabundle⟩ := s
  obtain ⟨_, _, _, _, _, _, _, _, _, hdocument', hpayload', htimestamp', hpcrs', hcertificate',
    hcabundle'⟩ := t
  rw [hdocument] at hdocument'
  simp only [Except.ok.injEq, CborValue.array.injEq, List.cons.injEq, CborValue.bytes.injEq,
    and_true] at hdocument'
  obtain ⟨rfl, rfl, rfl, rfl⟩ := hdocument'
  rw [hpayload] at hpayload'
  obtain rfl := CborValue.map.inj (Except.ok.inj hpayload')
  obtain rfl := CborValue.unsigned.inj (htimestamp.unique htimestamp')
  obtain rfl := CborValue.map.inj (hpcrs.unique hpcrs')
  obtain rfl := CborValue.bytes.inj (hcertificate.unique hcertificate')
  have hmap := CborValue.array.inj (hcabundle.unique hcabundle')
  obtain rfl := List.map_injective_iff.2 (fun _ _ ↦ CborValue.bytes.inj) hmap
  rfl

/-- A time in a document is a number of 64 bits. -/
theorem timestampMs_lt : s.timestampMs < 2 ^ 64 := by
  have hencodes := (Cbor.decode_iff_encodes.1 s.decode_payload).1
  obtain ⟨body, hbody⟩ := hencodes.exists_of_mem_map s.timestamp_once.mem
  exact hbody.unsigned_lt

/-- The signature covers the protected header and the payload, each as its own item. -/
theorem encodes_signedBytes :
    Cbor.Encodes (.array [.text "Signature1", .bytes s.protectedHeader, .bytes [],
      .bytes s.payload]) (Cbor.sigStructureSingleSigner s.protectedHeader [] s.payload) := by
  have hencodes := (Cbor.decode_iff_encodes.1 s.decode_document).1
  obtain ⟨header, hheader⟩ := hencodes.exists_of_mem_array (v := .bytes s.protectedHeader) (by simp)
  obtain ⟨payload, hpayload⟩ := hencodes.exists_of_mem_array (v := .bytes s.payload) (by simp)
  exact (Cbor.shortest_sigStructure hheader.length_lt (by decide) hpayload.length_lt).encodes

/-- What the parser makes of a document. -/
structure ReadAs (envelope : CoseSign1) (doc : NitroAttestationDoc) : Prop where
  protectedHeader : envelope.protectedHeader = s.protectedHeader
  payload : envelope.payload = s.payload
  signature : envelope.signature = s.signature
  timestampMs : doc.timestampMs = s.timestampMs
  certificate : doc.certificate = s.certificate
  cabundle : doc.cabundle = s.cabundle
  pcrs : s.pcrs = doc.pcrs.map pcrEntry
  nodup_pcrs : (doc.pcrs.map Prod.fst).Nodup
  length_pcr : ∀ pcr ∈ doc.pcrs, pcr.2.length = pcrLen
  nonce : ∀ bs, doc.nonce = some bs ↔ OccursOnce s.fields (.text "nonce") (.bytes bs) ∧ bs ≠ []

end SignedDocument

/-- An envelope that is parsed is an array of four items, and the first of them holds a map in which
the algorithm is found. -/
theorem CoseSign1.exists_of_parse {document : Bytes} {envelope : CoseSign1}
    (h : CoseSign1.parse document = .ok envelope) :
    ∃ unprotectedHeader header alg, Cbor.decode document = .ok (.array
        [.bytes envelope.protectedHeader, unprotectedHeader, .bytes envelope.payload,
          .bytes envelope.signature]) ∧
      Cbor.decode envelope.protectedHeader = .ok (.map header) ∧
      (header.find? fun entry ↦ CborValue.isInt coseHeaderAlg entry.1) = some alg := by
  obtain ⟨value, hdecode, harray⟩ := Except.bind_eq_ok.1 h
  obtain ⟨items, hitems, hparse⟩ := Except.bind_eq_ok.1 harray
  obtain rfl := CborValue.asArray_eq_ok.1 hitems
  split at hparse
  · next protectedItem unprotectedItem payloadItem signatureItem =>
    simp only [Except.bind_eq_ok] at hparse
    obtain ⟨protectedHeader, hprotected, payload, hpayload, signature, hsignature, item, hheader,
      found, hfound, hchecks⟩ := hparse
    obtain rfl := CborValue.asBytes_eq_ok.1 hprotected
    obtain rfl := CborValue.asBytes_eq_ok.1 hpayload
    obtain rfl := CborValue.asBytes_eq_ok.1 hsignature
    cases found with
    | none => simp [refuse] at hchecks
    | some algItem =>
      simp only [Except.bind_eq_ok, Except.pure_eq_ok] at hchecks
      obtain ⟨-, -, -, -, -, -, -, -, rfl⟩ := hchecks
      obtain ⟨header, hmap, hfind⟩ := Except.bind_eq_ok.1 hfound
      obtain rfl := CborValue.asMap_eq_ok.1 hmap
      obtain ⟨alg, halg, -⟩ := Option.map_eq_some_iff.1 (Except.pure_eq_ok.1 hfind)
      exact ⟨unprotectedItem, header, alg, hdecode, hheader, halg⟩
  · simp [refuse] at hparse

/-- What the parser reads from the entries of a payload, and how often their keys occur. -/
structure NitroAttestationDoc.ReadFrom (fields : List (CborValue × CborValue))
    (doc : NitroAttestationDoc) : Prop where
  moduleId : OccursOnce fields (.text "module_id") (.text doc.moduleId)
  timestampMs : OccursOnce fields (.text "timestamp") (.unsigned doc.timestampMs)
  digest : OccursOnce fields (.text "digest") (.text doc.digest)
  pcrs : OccursOnce fields (.text "pcrs") (.map (doc.pcrs.map pcrEntry))
  nodup_pcrs : (doc.pcrs.map Prod.fst).Nodup
  length_pcr : ∀ pcr ∈ doc.pcrs, pcr.2.length = pcrLen
  certificate : OccursOnce fields (.text "certificate") (.bytes doc.certificate)
  cabundle : OccursOnce fields (.text "cabundle") (.array (doc.cabundle.map .bytes))
  publicKey : optionalBytes (.map fields) "public_key" maxPublicKeyLen = .ok doc.publicKey
  userData : optionalBytes (.map fields) "user_data" maxUserDataLen = .ok doc.userData
  nonce : optionalBytes (.map fields) "nonce" maxNonceLen = .ok doc.nonce

/-- A payload that is parsed is a map. -/
theorem NitroAttestationDoc.exists_of_parse {payload : Bytes} {doc : NitroAttestationDoc}
    (h : NitroAttestationDoc.parse payload = .ok doc) :
    ∃ fields, Cbor.decode payload = .ok (.map fields) ∧ doc.ReadFrom fields := by
  simp only [NitroAttestationDoc.parse, Except.bind_eq_ok, Except.pure_eq_ok,
    Except.ensure_eq_ok, CborValue.asBytes_eq_ok, CborValue.asText_eq_ok, CborValue.asU64_eq_ok,
    CborValue.asMap_eq_ok, CborValue.asArray_eq_ok, CborValue.require_eq_ok_iff] at h
  obtain ⟨_, hpayload, _, ⟨⟨fields, rfl, hmoduleId⟩, -⟩, hfields⟩ := h
  simp only [CborValue.map.injEq, exists_eq_left'] at hfields
  obtain ⟨moduleId, rfl, -, -, _, ⟨htimestamp, -⟩, timestampMs, rfl, _, ⟨hdigest, -⟩, digest, rfl,
    -, -, _, ⟨hpcrs, -⟩, pcrEntries, rfl, pcrs, hreadPcrs, -, -, _, ⟨hcertificate, -⟩, certificate,
    rfl, -, -, _, ⟨hcabundle, -⟩, ders, rfl, cabundle, hreadCabundle, -, -, publicKey, hpublicKey,
    userData, huserData, nonce, hnonce, rfl⟩ := hfields
  obtain ⟨new, rfl, rfl, hlength, hnodup⟩ := readPcrs_spec hreadPcrs
  obtain rfl := readCabundle_spec hreadCabundle
  exact ⟨fields, hpayload,
    { moduleId := hmoduleId
      timestampMs := htimestamp
      digest := hdigest
      pcrs := hpcrs
      nodup_pcrs := hnodup List.nodup_nil
      length_pcr := hlength
      certificate := hcertificate
      cabundle := hcabundle
      publicKey := hpublicKey
      userData := huserData
      nonce := hnonce }⟩

/-- **What is parsed is what stands in the document.** -/
theorem exists_readAs {document : Bytes} {envelope : CoseSign1} {doc : NitroAttestationDoc}
    (henvelope : CoseSign1.parse document = .ok envelope)
    (hdoc : NitroAttestationDoc.parse envelope.payload = .ok doc) :
    ∃ s : SignedDocument document, s.ReadAs envelope doc := by
  obtain ⟨unprotectedHeader, _, _, hdecode, -, -⟩ := CoseSign1.exists_of_parse henvelope
  obtain ⟨fields, hpayload, hread⟩ := NitroAttestationDoc.exists_of_parse hdoc
  exact ⟨⟨_, unprotectedHeader, _, _, fields, _, _, _, _, hdecode, hpayload, hread.timestampMs,
      hread.pcrs, hread.certificate, hread.cabundle⟩,
    { protectedHeader := rfl
      payload := rfl
      signature := rfl
      timestampMs := rfl
      certificate := rfl
      cabundle := rfl
      pcrs := rfl
      nodup_pcrs := hread.nodup_pcrs
      length_pcr := hread.length_pcr
      nonce := fun _ ↦ optionalBytes_eq_some_iff hread.nonce }⟩

/-! ### What a verification says -/

/-- **What a verified document establishes.** -/
structure SignedDocument.Verified {document : Bytes} (s : SignedDocument document)
    (X : PlatformEngine) (expectedChallenge : Bytes) (expectations : NitroExpectations)
    (nowMs : ℕ) : Prop where
  /-- The signature holds under the key of the leaf. -/
  signature : ∃ leaf, X.fromDer s.certificate = .ok leaf ∧
    X.verifyKey .ecdsaP384Sha384Fixed (X.subjectPublicKey leaf)
      (Cbor.sigStructureSingleSigner s.protectedHeader [] s.payload) s.signature = true
  root : expectations.rootDer ≠ []
  /-- The leaf chains to the pinned root. The document's own first certificate is no part of it. -/
  chain : (s.certificate :: (s.cabundle.drop 1).reverse ++ [expectations.rootDer]).IsChain
    (SignedBy X)
  challenge : expectedChallenge ≠ []
  nonce : OccursOnce s.fields (.text "nonce") (.bytes expectedChallenge)
  pinned : expectations.pcrs.entries ≠ []
  /-- Every pinned index occurs once, with the value that the pin spells in hexadecimal. -/
  pcrs : ∀ pin ∈ expectations.pcrs.entries, ∃ value,
    OccursOnce s.pcrs (.unsigned pin.1.toNat) (.bytes value) ∧ value.length = pcrLen ∧
      Text.hexDecode pin.2 = some value
  fresh : expectations.maxAgeSeconds = 0 ∨
    |(nowMs : ℤ) - s.timestampMs| ≤ 1000 * expectations.maxAgeSeconds

/-- The leaf and every certificate of the bundle are within their validity windows. -/
def SignedDocument.IsCurrentlyValid {document : Bytes} (s : SignedDocument document)
    (X : PlatformEngine) : Prop :=
  ∀ der ∈ s.certificate :: s.cabundle, ∃ cert, X.fromDer der = .ok cert ∧ X.isValid cert = true

section Checks

variable {X : PlatformEngine}

theorem chainToPinnedRoot_eq_true_iff {doc : NitroAttestationDoc} {rootDer : Bytes} :
    chainToPinnedRoot X doc rootDer = .ok true ↔ rootDer ≠ [] ∧
      (doc.certificate :: doc.intermediates ++ [rootDer]).IsChain (SignedBy X) := by
  rw [chainToPinnedRoot]
  split
  · next h => simp [List.isEmpty_iff.1 h]
  · next h =>
    rw [List.isEmpty_iff] at h
    rw [verifyChainToRoot_eq_true_iff, and_iff_right h]

theorem allCurrentlyValid_eq_true_iff {ders : List Bytes} :
    allCurrentlyValid X ders = .ok true ↔
      ∀ der ∈ ders, ∃ cert, X.fromDer der = .ok cert ∧ X.isValid cert = true := by
  induction ders with
  | nil => simp [allCurrentlyValid]
  | cons der ders ih =>
    rw [List.forall_mem_cons, ← ih, ← isCurrentlyValid_eq_ok]
    simp only [allCurrentlyValid, Except.bind_eq_ok, Except.pure_eq_ok, Bool.and_eq_true]
    constructor
    · rintro ⟨_, hvalid, _, hothers, rfl, rfl⟩
      exact ⟨hvalid, hothers⟩
    · rintro ⟨hvalid, hothers⟩
      exact ⟨true, hvalid, true, hothers, rfl, rfl⟩

/-- Saturating does not matter: no two times are further apart than the widest window. -/
theorem isFresh_iff {maxAgeSeconds nowMs timestampMs : ℕ} (hnow : nowMs < 2 ^ 64)
    (htimestamp : timestampMs < 2 ^ 64) :
    isFresh maxAgeSeconds nowMs timestampMs = true ↔
      maxAgeSeconds = 0 ∨ |(nowMs : ℤ) - timestampMs| ≤ 1000 * maxAgeSeconds := by
  rw [isFresh, Bool.or_eq_true, beq_iff_eq, decide_eq_true_eq, abs_le]
  refine or_congr_right ?_
  omega

variable {document : Bytes} {s : SignedDocument document} {envelope : CoseSign1}
  {doc : NitroAttestationDoc}

theorem signatureValid_iff (hs : s.ReadAs envelope doc) {key : Bytes}
    (hkey : publicKeyBytes X doc.certificate = .ok key) :
    X.verifyKey .ecdsaP384Sha384Fixed key envelope.signedBytes envelope.signature = true ↔
      ∃ leaf, X.fromDer s.certificate = .ok leaf ∧
        X.verifyKey .ecdsaP384Sha384Fixed (X.subjectPublicKey leaf)
          (Cbor.sigStructureSingleSigner s.protectedHeader [] s.payload) s.signature = true := by
  obtain ⟨leaf, hleaf, rfl⟩ := publicKeyBytes_eq_ok.1 hkey
  rw [hs.certificate] at hleaf
  simp [CoseSign1.signedBytes, hs.protectedHeader, hs.payload, hs.signature, hleaf]

/-- **A pinned PCR that is found is the only one at its index**, and the pin spells its value. -/
theorem pcrsMatch_iff_occursOnce (hs : s.ReadAs envelope doc) (hX : Text.LowersCase X.toLowercase)
    {pins : IndexMap String} :
    pcrsMatch X doc pins = true ↔ pins.entries ≠ [] ∧ ∀ pin ∈ pins.entries, ∃ value,
      OccursOnce s.pcrs (.unsigned pin.1.toNat) (.bytes value) ∧ value.length = pcrLen ∧
        Text.hexDecode pin.2 = some value := by
  rw [pcrsMatch_iff]
  refine and_congr_right fun _ ↦ forall₂_congr fun pin _ ↦ exists_congr fun value ↦ ?_
  have honce : OccursOnce s.pcrs (.unsigned pin.1.toNat) (.bytes value) ↔
      OccursOnce doc.pcrs pin.1 value := by
    rw [hs.pcrs]
    refine (occursOnce_map_iff pcrKey_injective hs.nodup_pcrs).trans ?_
    simp
  rw [lookup_eq_some_iff hs.nodup_pcrs, honce, eq_comm, hX.eq_hexEncode_iff]
  exact and_congr_right fun h ↦ (and_iff_right (hs.length_pcr _ h.mem)).symm

end Checks

/-- **Nitro verification is sound, and refuses nothing that holds.** Where a verification comes
back, the document has its one reading; and no check failed exactly if everything is established and
every certificate is within its validity window. -/
theorem verifyDocument_passes_iff {X : PlatformEngine} (hX : Text.LowersCase X.toLowercase)
    {document expectedChallenge : Bytes} {expectations : NitroExpectations} {nowMs : UInt64}
    {doc : NitroAttestationDoc} {verification : NitroVerification}
    (h : verifyDocument X document expectedChallenge expectations nowMs.toNat =
      .ok (doc, verification)) :
    ∃ s : SignedDocument document, (verification.firstFailure = none ↔
      s.Verified X expectedChallenge expectations nowMs.toNat ∧ s.IsCurrentlyValid X) ∧
      Cbor.Encodes (.array [.text "Signature1", .bytes s.protectedHeader, .bytes [],
        .bytes s.payload]) (Cbor.sigStructureSingleSigner s.protectedHeader [] s.payload) := by
  obtain ⟨envelope, key, chainValid, currentlyValid, henvelope, hdoc, hkey, hchain, hcurrent,
    rfl⟩ := exists_of_verifyDocument h
  obtain ⟨s, hs⟩ := exists_readAs henvelope hdoc
  refine ⟨s, ?_, s.encodes_signedBytes⟩
  have hchainValid : chainValid = true ↔ expectations.rootDer ≠ [] ∧
      (s.certificate :: (s.cabundle.drop 1).reverse ++ [expectations.rootDer]).IsChain
        (SignedBy X) := by
    rw [← hs.certificate, ← hs.cabundle]
    refine Iff.trans ?_ chainToPinnedRoot_eq_true_iff
    rw [hchain, Except.ok.injEq]
  have hcurrentlyValid : currentlyValid = true ↔ s.IsCurrentlyValid X := by
    rw [SignedDocument.IsCurrentlyValid, ← hs.certificate, ← hs.cabundle,
      ← allCurrentlyValid_eq_true_iff, hcurrent, Except.ok.injEq]
  have hnonce : nonceMatches doc.nonce expectedChallenge = true ↔
      expectedChallenge ≠ [] ∧ OccursOnce s.fields (.text "nonce") (.bytes expectedChallenge) := by
    rw [nonceMatches_iff, hs.nonce]
    tauto
  have hfresh : isFresh expectations.maxAgeSeconds nowMs.toNat doc.timestampMs = true ↔
      expectations.maxAgeSeconds = 0 ∨
        |(nowMs.toNat : ℤ) - s.timestampMs| ≤ 1000 * expectations.maxAgeSeconds := by
    rw [hs.timestampMs]
    exact isFresh_iff nowMs.toNat_lt s.timestampMs_lt
  rw [NitroVerification.firstFailure_eq_none, NitroVerification.mk.injEq, hchainValid,
    hcurrentlyValid, hnonce, signatureValid_iff hs hkey, pcrsMatch_iff_occursOnce hs hX, hfresh]
  constructor
  · rintro ⟨hsignature, ⟨hroot, hchain⟩, hvalid, ⟨hchallenge, hnonce⟩, ⟨hpinned, hpcrs⟩, hfresh⟩
    exact ⟨⟨hsignature, hroot, hchain, hchallenge, hnonce, hpinned, hpcrs, hfresh⟩, hvalid⟩
  · rintro ⟨⟨hsignature, hroot, hchain, hchallenge, hnonce, hpinned, hpcrs, hfresh⟩, hvalid⟩
    exact ⟨hsignature, ⟨hroot, hchain⟩, hvalid, ⟨hchallenge, hnonce⟩, ⟨hpinned, hpcrs⟩, hfresh⟩

/-! ### A document that passes -/

namespace Sample

/-- A certificate for a P-384 key, signed by that key. -/
def certificate : Bytes :=
  [0x308201473081cd020101300a06082a8648ce3d0403033010310e300c06035504030c056e6974726f,
    0x3020170d3230303130313030303030305a180f32313230303130313030303030305a3010310e300c,
    0x06035504030c056e6974726f3076301006072a8648ce3d020106052b8104002203620004fd9e971e,
    0x87642ddc7beb441b6dfb077f984dbd5bd4ca937dce0f40168cdb3e3ecb58ce08f5de6dd154b0fd9a,
    0x8e4950e543377ddae4c1892c82ea6d3d3a2c479f1f350cad55a38492b255f1a4bd97807be5ec28b5,
    0x1328373ce34d41101ead6f59300a06082a8648ce3d0403030369003066023100f2faff3609f7b464,
    0x32174d490583acf98abd450cda456ec4f4460b8a3fc39e1336a4439e5cd090fe429d150bbfc28da7,
    0x023100b22299e7dbcb6a57108c61aa2fae32e281bc68a9e8812b89d74957f502734d47b7b0d095a4].flatMap
      (Bytes.beBytes 40) ++ Bytes.beBytes 11 0x818b4ad7e2c32a01699296

/-- The header names `ES384`. -/
def protectedHeader : Bytes :=
  [0xA1, 0x01, 0x38, 0x22]

/-- The challenge that the document answers. -/
def challenge : Bytes :=
  [1, 2, 3]

/-- A payload with one PCR, at the start of 2026. -/
def payload : Bytes :=
  Cbor.writeHeader 5 7 ++ Cbor.writeText "module_id" ++ Cbor.writeText "i-0" ++
    Cbor.writeText "digest" ++ Cbor.writeText "SHA384" ++
    Cbor.writeText "timestamp" ++ Cbor.writeHeader 0 1767225600000 ++
    Cbor.writeText "pcrs" ++ Cbor.writeHeader 5 1 ++ Cbor.writeHeader 0 0 ++
    Cbor.writeBytes (List.replicate 48 0xAB) ++
    Cbor.writeText "certificate" ++ Cbor.writeBytes certificate ++
    Cbor.writeText "cabundle" ++ Cbor.writeHeader 4 1 ++ Cbor.writeBytes certificate ++
    Cbor.writeText "nonce" ++ Cbor.writeBytes challenge

/-- The signature under the certificate's key. -/
def signature : Bytes :=
  [0x9c51defb72ca0c567e940761e0442e87bca93fd11c3ff82fba94c60be77b524f,
    0xef5116e9f23b783694cfa9ff05e65163a99d73b9e1373ba778ffde07b5c4e75d,
    0xc67354a13bb00e631f5ce9a1f3c2a547e7c7ab4453ea61d233f16dbd4de43be6].flatMap (Bytes.beBytes 32)

def document : Bytes :=
  Cbor.writeHeader 4 4 ++ Cbor.writeBytes protectedHeader ++ Cbor.writeHeader 5 0 ++
    Cbor.writeBytes payload ++ Cbor.writeBytes signature

/-- The certificate is the pinned root, and the PCR is pinned in upper case. -/
def expectations : NitroExpectations :=
  ⟨certificate, .single 0 (String.ofList (List.replicate 48 ['A', 'B']).flatten), 300⟩

/-- The engine as far as this document needs it: the certificate parses, and its own signature and
the document's are those that hold. -/
def engine : PlatformEngine where
  verifyKey alg key message sig := decide (key = (certificate.drop 115).take 97 ∧
    (alg = .ecdsaP384Sha384Asn1 ∧ message = (certificate.drop 4).take 208 ∧
        sig = certificate.drop 227 ∨
      alg = .ecdsaP384Sha384Fixed ∧
        message = Cbor.sigStructureSingleSigner protectedHeader [] payload ∧ sig = signature))
  verifyRsa _ _ _ _ _ := false
  Certificate := Unit
  fromDer der := if der = certificate then .ok () else .error "NomError(Eof)"
  issuer _ := (certificate.drop 22).take 18
  subject _ := (certificate.drop 74).take 18
  tbsCertificate _ := (certificate.drop 4).take 208
  signatureValue _ := certificate.drop 227
  signatureAlgorithm _ := "1.2.840.10045.4.3.3"
  subjectPublicKey _ := (certificate.drop 115).take 97
  isValid _ := true
  base64Decode _ := .error "Invalid padding"
  hexError _ := "Odd number of digits"
  toLowercase s := String.ofList (s.toList.map Char.toLower)

theorem lowersCase : Text.LowersCase engine.toLowercase :=
  Text.lowersCase_map

/-- The document as it is read. -/
def doc : NitroAttestationDoc :=
  ⟨"i-0", 1767225600000, "SHA384", [(0, List.replicate 48 0xAB)], certificate, [certificate], none,
    none, some challenge⟩

/-! The items are put together from what the grammar says of their parts. -/

theorem encodes_label : Cbor.Encodes (.unsigned 1) (Cbor.writeHeader 0 1) :=
  .unsigned (@Cbor.head_writeHeader 0 1 (by decide) (by decide))

theorem encodes_alg {n : ℕ} (hn : n < 2 ^ 63) :
    Cbor.Encodes (.negative (-1 - n)) (Cbor.writeHeader 1 n) :=
  .negative (@Cbor.head_writeHeader 1 n (by decide) (hn.trans (by decide))) hn

theorem decode_protectedHeader :
    Cbor.decode protectedHeader = .ok (.map [(.unsigned 1, .negative (-35))]) := by
  refine Cbor.decode_iff_encodes.2 ⟨?_, by decide, by decide⟩
  show Cbor.Encodes (.map [(.unsigned 1, .negative (-1 - (34 : ℕ)))])
    (Cbor.writeHeader 5 1 ++ [Cbor.writeHeader 0 1, Cbor.writeHeader 1 34].flatten)
  exact .map (@Cbor.head_writeHeader 5 1 (by decide) (by decide))
    (.cons encodes_label (.cons (encodes_alg (by decide)) .nil))

/-- The entries of the payload. -/
def fields : List (CborValue × CborValue) :=
  [(.text "module_id", .text "i-0"), (.text "digest", .text "SHA384"),
    (.text "timestamp", .unsigned 1767225600000),
    (.text "pcrs", .map [(.unsigned 0, .bytes (List.replicate 48 0xAB))]),
    (.text "certificate", .bytes certificate), (.text "cabundle", .array [.bytes certificate]),
    (.text "nonce", .bytes challenge)]

theorem encodes_text : ∀ s ∈ ["module_id", "i-0", "digest", "SHA384", "timestamp", "pcrs",
    "certificate", "cabundle", "nonce"], Cbor.Encodes (.text s) (Cbor.writeText s) := by
  have hlength : ∀ s ∈ ["module_id", "i-0", "digest", "SHA384", "timestamp", "pcrs",
      "certificate", "cabundle", "nonce"], (Text.asBytes s).length < 2 ^ 64 := by decide
  exact fun s hs ↦ Cbor.encodes_writeText (hlength s hs)

theorem encodes_pcrs : Cbor.Encodes (.map [(.unsigned 0, .bytes (List.replicate 48 0xAB))])
    (Cbor.writeHeader 5 1 ++
      [Cbor.writeHeader 0 0, Cbor.writeBytes (List.replicate 48 0xAB)].flatten) :=
  .map (@Cbor.head_writeHeader 5 1 (by decide) (by decide))
    (.cons (.unsigned (@Cbor.head_writeHeader 0 0 (by decide) (by decide)))
      (.cons (Cbor.encodes_writeBytes (by decide)) .nil))

theorem length_certificate : certificate.length = 331 := by
  simp [certificate]

theorem length_signature : signature.length = es384SignatureLen := by
  simp [signature, es384SignatureLen]

theorem length_payload_lt : payload.length < 2 ^ 64 := by
  unfold payload
  simp only [Cbor.writeBytes, Cbor.writeText, List.length_append, List.length_replicate,
    length_certificate]
  decide

theorem decode_payload : Cbor.decode payload = .ok (.map fields) := by
  have hpayload : payload = Cbor.writeHeader 5 7 ++ [Cbor.writeText "module_id",
      Cbor.writeText "i-0", Cbor.writeText "digest", Cbor.writeText "SHA384",
      Cbor.writeText "timestamp", Cbor.writeHeader 0 1767225600000, Cbor.writeText "pcrs",
      Cbor.writeHeader 5 1 ++
        [Cbor.writeHeader 0 0, Cbor.writeBytes (List.replicate 48 0xAB)].flatten,
      Cbor.writeText "certificate", Cbor.writeBytes certificate, Cbor.writeText "cabundle",
      Cbor.writeHeader 4 1 ++ [Cbor.writeBytes certificate].flatten, Cbor.writeText "nonce",
      Cbor.writeBytes challenge].flatten := by
    unfold payload
    simp only [List.flatten_cons, List.flatten_nil, List.append_nil, List.append_assoc]
  have hcertificate : Cbor.Encodes (.bytes certificate) (Cbor.writeBytes certificate) :=
    Cbor.encodes_writeBytes (by simp [length_certificate])
  rw [hpayload]
  refine Cbor.decode_iff_encodes.2
    ⟨.map (@Cbor.head_writeHeader 5 7 (by decide) (by decide)) ?_, by decide, by decide⟩
  refine .cons (encodes_text _ (by simp)) <| .cons (encodes_text _ (by simp)) <|
    .cons (encodes_text _ (by simp)) <| .cons (encodes_text _ (by simp)) <|
    .cons (encodes_text _ (by simp)) <| .cons ?_ <| .cons (encodes_text _ (by simp)) <|
    .cons encodes_pcrs <| .cons (encodes_text _ (by simp)) <| .cons hcertificate <|
    .cons (encodes_text _ (by simp)) <| .cons ?_ <| .cons (encodes_text _ (by simp)) <|
    .cons (Cbor.encodes_writeBytes (by decide)) .nil
  · exact .unsigned (@Cbor.head_writeHeader 0 1767225600000 (by decide) (by decide))
  · exact .array (@Cbor.head_writeHeader 4 1 (by decide) (by decide)) (.cons hcertificate .nil)

theorem parse_payload : NitroAttestationDoc.parse payload = .ok doc := by
  rw [NitroAttestationDoc.parse, decode_payload]
  rfl

theorem decode_document : Cbor.decode document = .ok (.array
    [.bytes protectedHeader, .map [], .bytes payload, .bytes signature]) := by
  have hdocument : document = Cbor.writeHeader 4 4 ++ [Cbor.writeBytes protectedHeader,
      Cbor.writeHeader 5 0 ++ ([] : List Bytes).flatten, Cbor.writeBytes payload,
      Cbor.writeBytes signature].flatten := by
    unfold document
    simp only [List.flatten_cons, List.flatten_nil, List.append_nil, List.append_assoc]
  rw [hdocument]
  refine Cbor.decode_iff_encodes.2
    ⟨.array (@Cbor.head_writeHeader 4 4 (by decide) (by decide)) ?_, by decide, by decide⟩
  have hsignature : signature.length < 2 ^ 64 := length_signature.trans_lt (by decide)
  refine .cons (Cbor.encodes_writeBytes (by decide)) <| .cons ?_ <|
    .cons (Cbor.encodes_writeBytes length_payload_lt) <|
    .cons (Cbor.encodes_writeBytes hsignature) .nil
  exact .map (@Cbor.head_writeHeader 5 0 (by decide) (by decide)) .nil

theorem parse_document :
    CoseSign1.parse document = .ok ⟨protectedHeader, payload, signature⟩ := by
  have hpayload : payload.isEmpty = false := by decide +kernel
  simp only [CoseSign1.parse, decode_document, CborValue.asArray, CborValue.asBytes,
    decode_protectedHeader, Except.ok_bind, length_signature, hpayload]
  rfl

/-- The certificate names itself as its issuer. -/
theorem signedBy_certificate : SignedBy engine certificate certificate :=
  ⟨(), (), .ecdsaP384Sha384Asn1, by simp [engine], by simp [engine], by decide +kernel, by decide,
    by simp [engine]⟩

theorem verifyDocument_document :
    verifyDocument engine document challenge expectations (1767225601000 : UInt64).toNat =
      .ok (doc, ⟨true, true, true, true, true, true⟩) := by
  have hkey : publicKeyBytes engine certificate = .ok ((certificate.drop 115).take 97) :=
    publicKeyBytes_eq_ok.2 ⟨(), by simp [engine], rfl⟩
  have hsignature : engine.verifyKey .ecdsaP384Sha384Fixed ((certificate.drop 115).take 97)
      (CoseSign1.signedBytes ⟨protectedHeader, payload, signature⟩) signature = true :=
    by simp [engine, CoseSign1.signedBytes]
  have hchain : chainToPinnedRoot engine doc certificate = .ok true :=
    chainToPinnedRoot_eq_true_iff.2 ⟨List.cons_ne_nil _ _, List.isChain_pair.2 signedBy_certificate⟩
  have hcurrent : allCurrentlyValid engine [certificate, certificate] = .ok true :=
    allCurrentlyValid_eq_true_iff.2 fun der hder ↦
      ⟨(), if_pos (by simpa using hder), rfl⟩
  have hnonce : nonceMatches doc.nonce challenge = true := by decide
  have hpcrs : pcrsMatch engine doc expectations.pcrs = true := by decide +kernel
  have hfresh : isFresh expectations.maxAgeSeconds (1767225601000 : UInt64).toNat
      doc.timestampMs = true := by decide +kernel
  have hcertificate : doc.certificate = certificate := rfl
  simp only [verifyDocument, parse_document, parse_payload, hcertificate, hkey, hsignature,
    show expectations.rootDer = certificate from rfl, hchain, Except.ok_bind]
  show (allCurrentlyValid engine [certificate, certificate] >>= _) = _
  rw [hcurrent, Except.ok_bind, hnonce, hpcrs, hfresh]
  rfl

end Sample

/-- A document signed under the pinned root itself. -/
theorem verifyDocument_passes_iff_sample :
    ∃ s : SignedDocument Sample.document,
      s.Verified Sample.engine Sample.challenge Sample.expectations
        (1767225601000 : UInt64).toNat ∧ s.IsCurrentlyValid Sample.engine := by
  obtain ⟨s, hiff, -⟩ :=
    verifyDocument_passes_iff Sample.lowersCase Sample.verifyDocument_document
  exact ⟨s, hiff.1 rfl⟩

end Nitro

end Cordon
