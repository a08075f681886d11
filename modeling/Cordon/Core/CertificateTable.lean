import Cordon.Lib.Bytes
import Cordon.Lib.Chunks
import Cordon.Lib.Loop

/-!
# The certificate table of a confidential VM

The host of a SEV-SNP guest hands over the certificates it has cached as one blob: a table of
entries, each a GUID with an offset and a length, then an entry whose GUID is all zero, and the
certificates that the entries point into. The host is the party that the guest does not trust.

`parseCertificateTable` is a loop over a cursor that cuts slices out of the blob. Its value is
missing where a slice does not lie inside the blob, and where the loop takes more turns than the
blob has room for entries; it never is (`parseCertificateTable_eq`). What it returns is read off the
entries before the first GUID that is all zero: the last one wins among those under one GUID that
point inside the blob (`under_foldl_store`).

`FirmwareTable` is a table as the firmware writes it, wherever it puts the certificates.

Exactness and containment rest on different facts. No entry of a firmware's table carries the GUID
that is all zero, so its entries are what stands before the first such GUID, and its certificates
lie inside the blob by what it is to be one. Of any other blob all that is known is what a turn does
(`tableTurn_eq`): it stores a certificate if its whole range is inside, and moves on by the width of
an entry, so that the turns run out after the entries.
-/

namespace Cordon

namespace ConfidentialVm

/-- The certificates a platform caches alongside its reports, each DER. -/
structure CachedCertificates where
  /-- The chip's key, which signs reports. -/
  vcek : Option Bytes := none
  /-- The key that signs the chip's key. -/
  ask : Option Bytes := none
  /-- The root key. A verifier pins its own. -/
  ark : Option Bytes := none
  deriving DecidableEq, Repr

/-- Size of an entry: a GUID, an offset and a length. -/
def certTableEntryLen : ℕ := 24

/-- The GUID of the chip's key. -/
def guidVcek : Bytes :=
  [0x8d, 0x75, 0xda, 0x63, 0x64, 0xe6, 0x64, 0x45, 0xad, 0xc5, 0xf4, 0xb9, 0x3b, 0xe8, 0xac, 0xcd]

/-- The GUID of the signing key. -/
def guidAsk : Bytes :=
  [0x79, 0xb3, 0xb7, 0x4a, 0xac, 0xbb, 0xe4, 0x4f, 0xa0, 0x2f, 0x05, 0xae, 0xf3, 0x27, 0xc7, 0x82]

/-- The GUID of the root key. -/
def guidArk : Bytes :=
  [0xa4, 0x06, 0xb4, 0xc0, 0x03, 0xa8, 0x52, 0x49, 0x97, 0x43, 0x3f, 0xb6, 0x01, 0x4c, 0xd0, 0xae]

/-- Keep a certificate if its GUID is one of the three. -/
def CachedCertificates.store (certs : CachedCertificates) (guid der : Bytes) : CachedCertificates :=
  if guid = guidVcek then { certs with vcek := some der }
  else if guid = guidAsk then { certs with ask := some der }
  else if guid = guidArk then { certs with ark := some der }
  else certs

/-- `usize::checked_add`. -/
def checkedAdd (a b : ℕ) : Option ℕ :=
  if a + b < 2 ^ 64 then some (a + b) else none

/-- Where the loop stands, and what it has found. -/
structure TableCursor where
  offset : ℕ
  certs : CachedCertificates

/-- One turn: look at the entry at the cursor. -/
def tableTurn (blob : Bytes) (s : TableCursor) : Option (TableCursor ⊕ CachedCertificates) := do
  if blob.length < s.offset + certTableEntryLen then
    return .inr s.certs
  let entry ← Bytes.slice blob s.offset (s.offset + certTableEntryLen)
  let guid ← Bytes.slice entry 0 16
  if guid.all (· == 0) then
    return .inr s.certs
  let blobOffset := Bytes.ofLe (← Bytes.slice entry 16 20)
  let blobLen := Bytes.ofLe (← Bytes.slice entry 20 24)
  match (checkedAdd blobOffset blobLen).filter fun stop ↦ decide (stop ≤ blob.length) with
  | some stop =>
    let der ← Bytes.slice blob blobOffset stop
    return .inl ⟨s.offset + certTableEntryLen, s.certs.store guid der⟩
  | none => return .inl ⟨s.offset + certTableEntryLen, s.certs⟩

/-- `parse_certificate_table`. The loop is given a turn for each entry that fits into the blob, and
one more. -/
def parseCertificateTable (blob : Bytes) : Option CachedCertificates :=
  if blob.isEmpty then some {}
  else Loop.run (tableTurn blob) (blob.length / certTableEntryLen + 1) ⟨0, {}⟩

/-! ### The entries of a blob -/

/-- What an entry names, and where it says that is. -/
structure TableEntry where
  guid : Bytes
  offset : ℕ
  len : ℕ
  deriving DecidableEq, Repr

/-- The fields of an entry. -/
def TableEntry.ofBytes (entry : Bytes) : TableEntry where
  guid := entry.take 16
  offset := Bytes.ofLe ((entry.drop 16).take 4)
  len := Bytes.ofLe ((entry.drop 20).take 4)

/-- Whether some bytes are an entry that does not end the table. -/
def isEntry (entry : Bytes) : Bool :=
  decide (entry.length = certTableEntryLen) && !(entry.take 16).all (· == 0)

/-- **The entries before the first GUID that is all zero.** -/
def tableEntries (blob : Bytes) : List TableEntry :=
  ((Chunks.cut certTableEntryLen blob).takeWhile isEntry).map .ofBytes

/-- What an entry points to, if it points inside the blob. -/
def TableEntry.der (blob : Bytes) (e : TableEntry) : Option Bytes :=
  Bytes.slice blob e.offset (e.offset + e.len)

/-- What an entry points to, under its GUID. -/
def TableEntry.named (blob : Bytes) (e : TableEntry) : Option (Bytes × Bytes) :=
  (e.der blob).map fun der ↦ (e.guid, der)

theorem tableEntries_eq (blob : Bytes) :
    tableEntries blob =
      if isEntry (blob.take certTableEntryLen) then
        .ofBytes (blob.take certTableEntryLen) :: tableEntries (blob.drop certTableEntryLen)
      else [] := by
  rcases eq_or_ne blob [] with rfl | hne
  · rw [tableEntries, Chunks.cut_nil]
    rfl
  · rw [tableEntries, Chunks.cut_of_ne_nil (by decide) hne, List.takeWhile_cons]
    split
    · rfl
    · rfl

/-- Offsets and lengths are too short for their sum not to fit. -/
theorem filter_checkedAdd {blob a b : Bytes} (ha : a.length = 4) (hb : b.length = 4) :
    ((checkedAdd (Bytes.ofLe a) (Bytes.ofLe b)).filter fun stop ↦ decide (stop ≤ blob.length)) =
      if Bytes.ofLe a + Bytes.ofLe b ≤ blob.length then some (Bytes.ofLe a + Bytes.ofLe b)
      else none := by
  have hfits : Bytes.ofLe a + Bytes.ofLe b < 2 ^ 64 := by
    have hlta := Bytes.ofLe_lt a
    have hltb := Bytes.ofLe_lt b
    rw [ha] at hlta
    rw [hb] at hltb
    omega
  rw [checkedAdd, if_pos hfits]
  simp [Option.filter, decide_eq_true_eq]

/-- What a turn finds is kept. -/
def collect (blob : Bytes) (certs : CachedCertificates) (e : TableEntry) : CachedCertificates :=
  match e.der blob with
  | some der => certs.store e.guid der
  | none => certs

/-- **What a turn does.** No slice is cut that is not there. -/
theorem tableTurn_eq (blob : Bytes) (s : TableCursor) :
    tableTurn blob s =
      if isEntry ((blob.drop s.offset).take certTableEntryLen) then
        some (.inl ⟨s.offset + certTableEntryLen,
          collect blob s.certs (.ofBytes ((blob.drop s.offset).take certTableEntryLen))⟩)
      else some (.inr s.certs) := by
  obtain ⟨offset, certs⟩ := s
  have hwidth : certTableEntryLen = 24 := rfl
  rw [tableTurn]
  rcases Nat.lt_or_ge blob.length (offset + certTableEntryLen) with hshort | hfits
  · have hlast : isEntry ((blob.drop offset).take certTableEntryLen) = false := by
      rw [isEntry, List.length_take, List.length_drop, decide_eq_false (by omega), Bool.false_and]
    rw [if_pos hshort, hlast]
    rfl
  · have hentry : Bytes.slice blob offset (offset + certTableEntryLen) =
        some ((blob.drop offset).take certTableEntryLen) := Bytes.slice_of_le hfits
    have hlength : ((blob.drop offset).take certTableEntryLen).length = 24 := by
      rw [List.length_take, List.length_drop]
      omega
    rw [if_neg (Nat.not_lt.2 hfits)]
    simp only [hentry]
    generalize (blob.drop offset).take certTableEntryLen = entry at hlength
    have hguid : Bytes.slice entry 0 16 = some (entry.take 16) :=
      @Bytes.slice_of_le entry 0 16 (by omega)
    have hoffset : Bytes.slice entry 16 20 = some ((entry.drop 16).take 4) :=
      @Bytes.slice_of_le entry 16 4 (by omega)
    have hlen : Bytes.slice entry 20 24 = some ((entry.drop 20).take 4) :=
      @Bytes.slice_of_le entry 20 4 (by omega)
    have hwhole : decide (entry.length = certTableEntryLen) = true := decide_eq_true hlength
    have hstop := @filter_checkedAdd blob ((entry.drop 16).take 4) ((entry.drop 20).take 4)
      (by simp [hlength]) (by simp [hlength])
    rw [isEntry, hwhole, Bool.true_and]
    cases hzero : (entry.take 16).all (· == 0) with
    | true =>
      simp only [hguid, Option.bind_eq_bind, Option.bind_some, hzero]
      rfl
    | false =>
      have hcollect : collect blob certs (.ofBytes entry) =
          match Bytes.slice blob (Bytes.ofLe ((entry.drop 16).take 4))
            (Bytes.ofLe ((entry.drop 16).take 4) + Bytes.ofLe ((entry.drop 20).take 4)) with
          | some der => certs.store (entry.take 16) der
          | none => certs := rfl
      simp only [hguid, hoffset, hlen, Option.bind_eq_bind, Option.bind_some, hzero, hstop,
        hcollect]
      generalize Bytes.ofLe ((entry.drop 16).take 4) = start
      generalize Bytes.ofLe ((entry.drop 20).take 4) = len
      rcases Nat.lt_or_ge blob.length (start + len) with hout | hin
      · have hnone : Bytes.slice blob start (start + len) = none :=
          if_neg fun h ↦ absurd h.2 (Nat.not_le.2 hout)
        rw [if_neg (Nat.not_le.2 hout), hnone]
        rfl
      · simp only [if_pos hin, Bytes.slice_of_le hin, Option.bind_some]
        rfl

/-- **The loop ends, and cuts no slice that is not there**: what it returns is collected from the
entries. -/
theorem parseCertificateTable_eq (blob : Bytes) :
    parseCertificateTable blob = some ((tableEntries blob).foldl (collect blob) {}) := by
  have hwidth : certTableEntryLen = 24 := rfl
  have hturn : ∀ s : TableCursor,
      (tableEntries (blob.drop s.offset)).foldl (collect blob) s.certs =
        (tableEntries blob).foldl (collect blob) {} →
      (∃ s', tableTurn blob s = some (.inl s') ∧
        (tableEntries (blob.drop s'.offset)).foldl (collect blob) s'.certs =
          (tableEntries blob).foldl (collect blob) {} ∧
        (blob.length - s'.offset) / certTableEntryLen <
          (blob.length - s.offset) / certTableEntryLen) ∨
      ∃ certs, tableTurn blob s = some (.inr certs) ∧
        certs = (tableEntries blob).foldl (collect blob) {} := by
    rintro ⟨offset, certs⟩ hinv
    rw [tableEntries_eq] at hinv
    rw [tableTurn_eq]
    cases hentry : isEntry ((blob.drop offset).take certTableEntryLen) with
    | true =>
      rw [hentry, if_pos rfl, List.foldl_cons, List.drop_drop] at hinv
      refine Or.inl ⟨_, rfl, hinv, ?_⟩
      rw [isEntry, Bool.and_eq_true, decide_eq_true_eq, List.length_take,
        List.length_drop] at hentry
      show (blob.length - (offset + certTableEntryLen)) / 24 < (blob.length - offset) / 24
      omega
    | false =>
      rw [hentry] at hinv
      exact Or.inr ⟨certs, rfl, hinv⟩
  rw [parseCertificateTable]
  split
  · next hempty =>
    obtain rfl := List.isEmpty_iff.1 hempty
    rw [tableEntries_eq]
    rfl
  · obtain ⟨certs, hrun, rfl⟩ := Loop.exists_run (s := ⟨0, {}⟩) hturn rfl (Nat.lt_succ_self _)
    exact hrun

/-! ### The last one wins -/

/-- The certificate that a list has last under a GUID. -/
def lastUnder (guid : Bytes) (listed : List (Bytes × Bytes)) : Option Bytes :=
  ((listed.filter fun p ↦ decide (p.1 = guid)).getLast?).map Prod.snd

/-- What is kept under each of the three GUIDs. -/
def CachedCertificates.under (certs : CachedCertificates) (guid : Bytes) : Option Bytes :=
  if guid = guidVcek then certs.vcek
  else if guid = guidAsk then certs.ask
  else if guid = guidArk then certs.ark
  else none

@[simp]
theorem CachedCertificates.under_vcek (certs : CachedCertificates) :
    certs.under guidVcek = certs.vcek :=
  if_pos rfl

@[simp]
theorem CachedCertificates.under_ask (certs : CachedCertificates) :
    certs.under guidAsk = certs.ask :=
  (if_neg (by decide)).trans (if_pos rfl)

@[simp]
theorem CachedCertificates.under_ark (certs : CachedCertificates) :
    certs.under guidArk = certs.ark :=
  (if_neg (by decide)).trans ((if_neg (by decide)).trans (if_pos rfl))

theorem CachedCertificates.under_store {guid : Bytes} (hguid : guid ∈ [guidVcek, guidAsk, guidArk])
    (certs : CachedCertificates) (g der : Bytes) :
    (certs.store g der).under guid = if g = guid then some der else certs.under guid := by
  have hask : guidAsk ≠ guidVcek := by decide
  have hark : guidArk ≠ guidVcek := by decide
  have hark' : guidArk ≠ guidAsk := by decide
  simp only [List.mem_cons, List.not_mem_nil, or_false] at hguid
  rw [store]
  rcases hguid with rfl | rfl | rfl
  · split_ifs <;> simp_all
  · split_ifs <;> simp_all
  · split_ifs <;> simp_all [Ne.symm hark]

theorem under_foldl_store {guid : Bytes} (hguid : guid ∈ [guidVcek, guidAsk, guidArk])
    (listed : List (Bytes × Bytes)) :
    (listed.foldl (fun (certs : CachedCertificates) p ↦ certs.store p.1 p.2) {}).under guid =
      lastUnder guid listed := by
  induction listed using List.reverseRecOn with
  | nil =>
    simp only [List.mem_cons, List.not_mem_nil, or_false] at hguid
    rcases hguid with rfl | rfl | rfl
    · rfl
    · rfl
    · rfl
  | append_singleton listed p ih =>
    rw [List.foldl_append, List.foldl_cons, List.foldl_nil, CachedCertificates.under_store hguid,
      ih, lastUnder, lastUnder, List.filter_append]
    split
    · next h => simp [h]
    · next h => simp [h]

/-- What is returned, in terms of the entries that point inside the blob. -/
theorem exists_parseCertificateTable (blob : Bytes) :
    ∃ certs, parseCertificateTable blob = some certs ∧
      ∀ guid ∈ [guidVcek, guidAsk, guidArk],
        certs.under guid =
          lastUnder guid ((tableEntries blob).filterMap (TableEntry.named blob)) := by
  refine ⟨_, parseCertificateTable_eq blob, fun guid hguid ↦ ?_⟩
  rw [← under_foldl_store hguid, List.foldl_filterMap]
  congr 2
  funext certs e
  rw [collect, TableEntry.named]
  cases e.der blob with
  | none => rfl
  | some der => rfl

theorem exists_of_lastUnder {guid der : Bytes} {listed : List (Bytes × Bytes)}
    (h : lastUnder guid listed = some der) : (guid, der) ∈ listed := by
  obtain ⟨⟨g, d⟩, hlast, rfl⟩ := Option.map_eq_some_iff.1 h
  obtain ⟨hmem, hg⟩ := List.mem_filter.1 (List.mem_of_getLast? hlast)
  rw [← of_decide_eq_true hg]
  exact hmem

/-! ### Tables as the firmware writes them -/

/-- A certificate of a table, and where it stands. -/
structure Placed where
  guid : Bytes
  der : Bytes
  offset : ℕ
  deriving DecidableEq, Repr

/-- The entry of a certificate. -/
def Placed.entry (p : Placed) : Bytes :=
  p.guid ++ Bytes.leBytes 4 p.offset ++ Bytes.leBytes 4 p.der.length

/-- Entries, the entry that ends the table, and what they point into. -/
def tableBytes (placed : List Placed) (body : Bytes) : Bytes :=
  placed.flatMap Placed.entry ++ (List.replicate certTableEntryLen 0 ++ body)

/-- **A table as the firmware lays it out**, with the certificates at the offsets that the entries
state. -/
structure FirmwareTable where
  placed : List Placed
  body : Bytes
  length_guid : ∀ p ∈ placed, p.guid.length = 16
  guid_ne_zero : ∀ p ∈ placed, p.guid.all (· == 0) = false
  stands : ∀ p ∈ placed,
    Bytes.slice (tableBytes placed body) p.offset (p.offset + p.der.length) = some p.der
  short : (tableBytes placed body).length < 2 ^ 32

/-- The blob. -/
def FirmwareTable.blob (t : FirmwareTable) : Bytes :=
  tableBytes t.placed t.body

/-- What the table lists. -/
def FirmwareTable.listed (t : FirmwareTable) : List (Bytes × Bytes) :=
  t.placed.map fun p ↦ (p.guid, p.der)

theorem Placed.length_entry {p : Placed} (h : p.guid.length = 16) :
    p.entry.length = certTableEntryLen := by
  rw [entry, List.length_append, List.length_append, h, Bytes.length_leBytes, Bytes.length_leBytes]
  rfl

theorem Placed.isEntry_entry {p : Placed} (h : p.guid.length = 16)
    (hzero : p.guid.all (· == 0) = false) : isEntry p.entry = true := by
  rw [isEntry, decide_eq_true (length_entry h), entry, List.append_assoc, List.take_left' h, hzero]
  rfl

theorem Placed.ofBytes_entry {p : Placed} (h : p.guid.length = 16) (hoffset : p.offset < 2 ^ 32)
    (hlength : p.der.length < 2 ^ 32) :
    TableEntry.ofBytes p.entry = ⟨p.guid, p.offset, p.der.length⟩ := by
  have hguid : p.entry.take 16 = p.guid := by
    rw [entry, List.append_assoc, List.take_left' h]
  have hrest : p.entry.drop 16 = Bytes.leBytes 4 p.offset ++ Bytes.leBytes 4 p.der.length := by
    rw [entry, List.append_assoc, List.drop_left' h]
  have hlast : p.entry.drop 20 = Bytes.leBytes 4 p.der.length := by
    rw [show 20 = 16 + 4 from rfl, ← List.drop_drop, hrest,
      List.drop_left' (Bytes.length_leBytes 4 _)]
  rw [TableEntry.ofBytes, hguid, hrest, hlast, List.take_left' (Bytes.length_leBytes 4 _),
    List.take_of_length_le (Bytes.length_leBytes 4 _).le, Bytes.ofLe_leBytes, Bytes.ofLe_leBytes,
    Nat.mod_eq_of_lt (hoffset.trans_le (by norm_num)),
    Nat.mod_eq_of_lt (hlength.trans_le (by norm_num))]

/-- The entries of a table are read back. -/
theorem tableEntries_tableBytes {placed : List Placed} {body : Bytes}
    (hlength : ∀ p ∈ placed, p.guid.length = 16)
    (hzero : ∀ p ∈ placed, p.guid.all (· == 0) = false)
    (hfits : ∀ p ∈ placed, p.offset < 2 ^ 32 ∧ p.der.length < 2 ^ 32) :
    tableEntries (tableBytes placed body) =
      placed.map fun p ↦ ⟨p.guid, p.offset, p.der.length⟩ := by
  induction placed with
  | nil =>
    rw [tableEntries_eq, tableBytes, List.flatMap_nil, List.nil_append,
      List.take_left' List.length_replicate]
    rfl
  | cons p placed ih =>
    have hp := hlength p List.mem_cons_self
    have hbytes : tableBytes (p :: placed) body = p.entry ++ tableBytes placed body := by
      rw [tableBytes, tableBytes, List.flatMap_cons, List.append_assoc]
    have hwidth : p.entry.length = certTableEntryLen := Placed.length_entry hp
    rw [tableEntries_eq, hbytes, List.take_left' hwidth, List.drop_left' hwidth,
      Placed.isEntry_entry hp (hzero p List.mem_cons_self), if_pos rfl, List.map_cons,
      Placed.ofBytes_entry hp (hfits p List.mem_cons_self).1 (hfits p List.mem_cons_self).2,
      ih (fun q hq ↦ hlength q (List.mem_cons_of_mem p hq))
        (fun q hq ↦ hzero q (List.mem_cons_of_mem p hq))
        (fun q hq ↦ hfits q (List.mem_cons_of_mem p hq))]

theorem length_entries {placed : List Placed} (h : ∀ p ∈ placed, p.guid.length = 16) :
    (placed.flatMap Placed.entry).length = placed.length * certTableEntryLen := by
  induction placed with
  | nil => rfl
  | cons p placed ih =>
    rw [List.flatMap_cons, List.length_append, Placed.length_entry (h p List.mem_cons_self),
      ih fun q hq ↦ h q (List.mem_cons_of_mem p hq), List.length_cons, Nat.succ_mul, Nat.add_comm]

/-- Certificates one after the other, from an offset on. -/
def place : ℕ → List (Bytes × Bytes) → List Placed
  | _, [] => []
  | start, (guid, der) :: listed => ⟨guid, der, start⟩ :: place (start + der.length) listed

theorem length_place (start : ℕ) (listed : List (Bytes × Bytes)) :
    (place start listed).length = listed.length := by
  induction listed generalizing start with
  | nil => rfl
  | cons p listed ih => rw [place, List.length_cons, List.length_cons, ih]

theorem map_place (start : ℕ) (listed : List (Bytes × Bytes)) :
    ((place start listed).map fun p ↦ (p.guid, p.der)) = listed := by
  induction listed generalizing start with
  | nil => rfl
  | cons p listed ih => rw [place, List.map_cons, ih]

theorem slice_of_mem_place {start : ℕ} {listed : List (Bytes × Bytes)} {before : Bytes}
    (hstart : before.length = start) {p : Placed} (hp : p ∈ place start listed) :
    Bytes.slice (before ++ listed.flatMap Prod.snd) p.offset (p.offset + p.der.length) =
      some p.der := by
  induction listed generalizing start before with
  | nil => simp [place] at hp
  | cons q listed ih =>
    obtain ⟨guid, der⟩ := q
    rw [List.flatMap_cons]
    rcases List.mem_cons.1 hp with rfl | hp
    · rw [← hstart]
      exact Bytes.slice_append before der _
    · rw [← List.append_assoc]
      exact ih (by rw [List.length_append, hstart]) hp

/-- `build_table`: the certificates one after the other behind the entries. -/
def buildTable (listed : List (Bytes × Bytes)) : Bytes :=
  tableBytes (place ((listed.length + 1) * certTableEntryLen) listed) (listed.flatMap Prod.snd)

theorem length_guid_of_mem_place {listed : List (Bytes × Bytes)} {start : ℕ}
    (hguid : ∀ p ∈ listed, p.1.length = 16 ∧ p.1.all (· == 0) = false) {p : Placed}
    (hp : p ∈ place start listed) : p.guid.length = 16 ∧ p.guid.all (· == 0) = false := by
  have hmem := List.mem_map_of_mem (f := fun p : Placed ↦ (p.guid, p.der)) hp
  rw [map_place] at hmem
  exact hguid _ hmem

/-- Every list of certificates under GUIDs that are not zero is laid out so, as long as offsets fit
their field. -/
def FirmwareTable.contiguous (listed : List (Bytes × Bytes))
    (hguid : ∀ p ∈ listed, p.1.length = 16 ∧ p.1.all (· == 0) = false)
    (hshort : (buildTable listed).length < 2 ^ 32) : FirmwareTable where
  placed := place ((listed.length + 1) * certTableEntryLen) listed
  body := listed.flatMap Prod.snd
  length_guid p hp := (length_guid_of_mem_place hguid hp).1
  guid_ne_zero p hp := (length_guid_of_mem_place hguid hp).2
  stands p hp := by
    rw [tableBytes, ← List.append_assoc]
    refine slice_of_mem_place ?_ hp
    rw [List.length_append, List.length_replicate,
      length_entries fun q hq ↦ (length_guid_of_mem_place hguid hq).1, length_place, Nat.succ_mul]
  short := hshort

/-- What the entries of a table name is what the table lists. -/
theorem FirmwareTable.named_tableEntries (t : FirmwareTable) :
    (tableEntries t.blob).filterMap (TableEntry.named t.blob) = t.listed := by
  have hfits : ∀ p ∈ t.placed, p.offset < 2 ^ 32 ∧ p.der.length < 2 ^ 32 := by
    intro p hp
    obtain ⟨-, hstop, -⟩ := Bytes.slice_eq_some_iff.1 (t.stands p hp)
    have := t.short
    omega
  rw [blob, tableEntries_tableBytes t.length_guid t.guid_ne_zero hfits, List.filterMap_map, listed,
    ← List.filterMap_eq_map]
  refine List.filterMap_congr fun p hp ↦ ?_
  show (Bytes.slice _ p.offset (p.offset + p.der.length)).map _ = _
  rw [t.stands p hp]
  rfl

/-- **The parser is exact on every honest table, and contained on every blob.** From a table that
the firmware laid out it returns, for each of the three GUIDs, the last certificate listed under it.
On any blob it ends without a slice outside it, and what it returns is a slice of the blob that an
entry before the first GUID that is all zero names under that GUID. -/
theorem certificate_table_exact_and_contained :
    (∀ t : FirmwareTable, parseCertificateTable t.blob =
      some ⟨lastUnder guidVcek t.listed, lastUnder guidAsk t.listed, lastUnder guidArk t.listed⟩) ∧
    ∀ blob, ∃ certs, parseCertificateTable blob = some certs ∧
      ∀ guid der, (guid, some der) ∈
          [(guidVcek, certs.vcek), (guidAsk, certs.ask), (guidArk, certs.ark)] →
        ∃ e ∈ tableEntries blob, e.guid = guid ∧
          Bytes.slice blob e.offset (e.offset + e.len) = some der := by
  constructor
  · intro t
    obtain ⟨certs, hparse, hunder⟩ := exists_parseCertificateTable t.blob
    rw [t.named_tableEntries] at hunder
    rw [hparse, ← hunder guidVcek (by simp), ← hunder guidAsk (by simp), ← hunder guidArk (by simp)]
    simp
  · intro blob
    obtain ⟨certs, hparse, hunder⟩ := exists_parseCertificateTable blob
    refine ⟨certs, hparse, fun guid der hder ↦ ?_⟩
    have hlast : lastUnder guid ((tableEntries blob).filterMap (TableEntry.named blob)) =
        some der := by
      simp only [List.mem_cons, Prod.mk.injEq, List.not_mem_nil, or_false] at hder
      rcases hder with ⟨rfl, hder⟩ | ⟨rfl, hder⟩ | ⟨rfl, hder⟩
      · rw [← hunder _ (by simp), hder, CachedCertificates.under_vcek]
      · rw [← hunder _ (by simp), hder, CachedCertificates.under_ask]
      · rw [← hunder _ (by simp), hder, CachedCertificates.under_ark]
    obtain ⟨e, he, hnamed⟩ := List.mem_filterMap.1 (exists_of_lastUnder hlast)
    obtain ⟨d, hd, hpair⟩ := Option.map_eq_some_iff.1 hnamed
    obtain ⟨rfl, rfl⟩ := Prod.mk.inj hpair
    exact ⟨e, he, rfl, hd⟩

/-- Of two certificates under one GUID, the second is returned. -/
theorem certificate_table_exact_and_contained_sample :
    parseCertificateTable (buildTable [(guidVcek, [1, 2, 3]), (guidVcek, [4])]) =
      some ⟨some [4], none, none⟩ :=
  certificate_table_exact_and_contained.1
    (.contiguous [(guidVcek, [1, 2, 3]), (guidVcek, [4])] (by decide) (by decide))

end ConfidentialVm

end Cordon
