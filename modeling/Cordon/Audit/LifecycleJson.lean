import Cordon.Audit.Segments

/-!
# A serializer for lifecycle entries

The JSON serializer is a parameter of the log. This is one that a run can be executed with: it
writes entries with lifecycle payloads, field by field in declaration order, for strings that need
no escaping, and reads back the texts of the entries it was given. It refuses everything else.

`lifecycleJson_faithful` is its one result: it does what the log relies on for every entry it knows,
as soon as the known texts are distinct and of **one length**. A proper fragment of such a text is
shorter than every known text, so it reads as nothing.

It is what the assumptions about a serializer are tested on. A run that is given as a sample
executes the log with it, so the hypotheses of a result about runs hold of something, and the
entries, hashes and signatures in it are computed.
-/

namespace Cordon

/-- A printable ASCII character. -/
def isPlain (c : Char) : Bool :=
  0x20 ≤ c.toNat && c.toNat < 0x7F

/-- A text of printable ASCII characters. -/
def Plain (cs : List Char) : Prop :=
  ∀ c ∈ cs, isPlain c = true

instance (cs : List Char) : Decidable (Plain cs) :=
  decidable_of_iff (cs.all isPlain = true) List.all_eq_true

theorem Plain.append {a b : List Char} (ha : Plain a) (hb : Plain b) : Plain (a ++ b) := by
  intro c hc
  rcases List.mem_append.1 hc with h | h
  · exact ha c h
  · exact hb c h

theorem Plain.newline_not_mem {cs : List Char} (h : Plain cs) : '\n' ∉ cs := fun hmem ↦
  absurd (h _ hmem) (by decide)

/-- A printable text has one byte for each character. -/
theorem Plain.length_encode {cs : List Char} (h : Plain cs) :
    (Utf8.encode cs).length = cs.length := by
  induction cs with
  | nil => rfl
  | cons c cs ih =>
    have hc := h c List.mem_cons_self
    simp only [isPlain, Bool.and_eq_true, decide_eq_true_eq] at hc
    have hone : (Utf8.encodeChar c).length = 1 := by
      rw [Utf8.encodeChar, if_pos (by omega)]
      rfl
    rw [Utf8.encode_cons, List.length_append, hone, ih fun d hd ↦ h d (List.mem_cons_of_mem _ hd),
      List.length_cons]
    omega

theorem plain_hexChars (bs : Bytes) : Plain (Text.hexChars bs) := fun _ hc ↦
  Text.forall_mem_hexChars (P := fun c ↦ isPlain c = true) (by decide) hc

theorem length_hexChars (bs : Bytes) : (Text.hexChars bs).length = 2 * bs.length := by
  induction bs with
  | nil => rfl
  | cons b bs ih =>
    rw [Text.hexChars_cons, List.length_cons, List.length_cons, ih, List.length_cons]
    omega

/-! ### Texts -/

/-- The name a lifecycle event type is written with. -/
def lifecycleTypeName : Audit.LifecycleEventType → String
  | .boot => "boot"
  | .shutdown => "shutdown"
  | .quarantineEnter => "quarantine_enter"
  | .quarantineExit => "quarantine_exit"
  | .enclaveRestart => "enclave_restart"

/-- A named string field, after the field before it. -/
def stringField (name : String) (value : List Char) : List Char :=
  ",\"".toList ++ name.toList ++ "\":\"".toList ++ value ++ ['"']

theorem plain_stringField (name : String) {value : List Char} (hname : Plain name.toList)
    (hvalue : Plain value) : Plain (stringField name value) :=
  ((((show Plain ",\"".toList by decide).append hname).append
    (show Plain "\":\"".toList by decide)).append hvalue).append (by decide)

/-- A timestamp as it is serialized. -/
def stampText (t : DateTime) : List Char :=
  t.dateField ++ 'T' :: (t.timeField ++ ['Z'])

/-- The text of a lifecycle event. -/
def lifecycleText (e : Audit.LifecycleEvent) : List Char :=
  '{' :: ("\"event_type\":\"lifecycle\"".toList ++
    stringField "event" (lifecycleTypeName e.event).toList ++
    stringField "cordon_version" e.cordonVersion.toList ++
    stringField "tee_type" e.teeType.toList ++ stringField "node_id" e.nodeId.toList ++ ['}'])

theorem length_stringField (name : String) (value : List Char) :
    (stringField name value).length = name.toList.length + value.length + 6 := by
  have hlits : ",\"".toList.length = 2 ∧ "\":\"".toList.length = 3 := by decide
  simp only [stringField, List.length_append, List.length_singleton, hlits.1, hlits.2]
  omega

theorem length_lifecycleText (e : Audit.LifecycleEvent) :
    (lifecycleText e).length = 84 + (lifecycleTypeName e.event).toList.length +
      e.cordonVersion.toList.length + e.teeType.toList.length + e.nodeId.toList.length := by
  have hlits : "\"event_type\":\"lifecycle\"".toList.length = 24 ∧ "event".toList.length = 5 ∧
      "cordon_version".toList.length = 14 ∧ "tee_type".toList.length = 8 ∧
      "node_id".toList.length = 7 := by decide
  obtain ⟨h1, h2, h3, h4, h5⟩ := hlits
  simp only [lifecycleText, List.length_cons, List.length_append, length_stringField,
    List.length_nil, h1, h2, h3, h4, h5]
  omega

/-- The text of a lifecycle event is printable if the strings in it are. -/
theorem plain_lifecycleText {e : Audit.LifecycleEvent} (hversion : Plain e.cordonVersion.toList)
    (htee : Plain e.teeType.toList) (hnode : Plain e.nodeId.toList) : Plain (lifecycleText e) := by
  have htype : Plain (lifecycleTypeName e.event).toList := by
    cases e.event <;> decide
  have hevent := plain_stringField "event" (by decide) htype
  have hversion' := plain_stringField "cordon_version" (by decide) hversion
  have htee' := plain_stringField "tee_type" (by decide) htee
  have hnode' := plain_stringField "node_id" (by decide) hnode
  exact (show Plain ['{'] by decide).append ((((((show Plain
    "\"event_type\":\"lifecycle\"".toList by decide).append hevent).append hversion').append
    htee').append hnode').append (by decide))

/-- The text of an event, if it is a lifecycle event. -/
def eventText : AuditEvent → Option (List Char)
  | .lifecycle e => some (lifecycleText e)
  | _ => none

/-- The text of an entry, given that of its payload. -/
def entryTextWith (payload : List Char) (e : AuditEntry) : List Char :=
  '{' :: (("\"log_id\":\"".toList ++ (e.logId.display.toList ++ ('"' ::
    (stringField "timestamp" (stampText e.timestamp) ++
    stringField "payload_hash" e.payloadHash.toList ++
    stringField "entry_hash" e.entryHash.toList ++ stringField "signature" e.signature.toList ++
    ",\"payload\":".toList ++ payload ++ ",\"sequence\":".toList ++
    (toString e.sequence).toList)))) ++ ['}'])

/-- The text of an entry, if its payload is a lifecycle event. -/
def entryText (e : AuditEntry) : Option (List Char) :=
  (eventText e.payload).map fun payload ↦ entryTextWith payload e

/-- A serializer that knows how to read the entries of a list. -/
def lifecycleJson (known : List AuditEntry) : AuditJson where
  eventToVec event :=
    match eventText event with
    | some t => .ok (Utf8.encode t)
    | none => .error "not a lifecycle event"
  entryToString e :=
    match entryText e with
    | some t => .ok (String.ofList t)
    | none => .error "not a lifecycle event"
  entryFromStr s :=
    match known.find? fun e ↦ entryText e == some s.toList with
    | some e => .ok e
    | none => .error "expected value at line 1 column 1"

/-- The identifier of an entry is written with 36 characters. -/
theorem Uuid.length_display (u : Uuid) : u.display.toList.length = 36 := by
  have h : (Text.hexChars (Bytes.beBytes 16 u.value.toNat)).length = 32 := by
    rw [length_hexChars, Bytes.length_beBytes]
  simp [Uuid.display, h]

/-- Entries with one text have one identifier. -/
theorem logId_eq_of_entryText {a b : AuditEntry} {t : List Char} (ha : entryText a = some t)
    (hb : entryText b = some t) : a.logId.display = b.logId.display := by
  obtain ⟨p, -, hp⟩ := Option.map_eq_some_iff.1 ha
  obtain ⟨q, -, hq⟩ := Option.map_eq_some_iff.1 hb
  rw [← hq, entryTextWith, entryTextWith, List.cons.injEq] at hp
  have hid := List.append_inj (List.append_cancel_left (List.append_cancel_right hp.2))
    (by rw [Uuid.length_display, Uuid.length_display])
  exact String.toList_inj.1 hid.1

theorem Uuid.plain_display (u : Uuid) : Plain u.display.toList := by
  have h := plain_hexChars (Bytes.beBytes 16 u.value.toNat)
  have htake : ∀ n (l : List Char), Plain l → Plain (l.take n) := fun n l hl c hc ↦
    hl c (List.mem_of_mem_take hc)
  have hdrop : ∀ n, Plain ((Text.hexChars (Bytes.beBytes 16 u.value.toNat)).drop n) := fun n c hc ↦
    h c (List.mem_of_mem_drop hc)
  have hdash : ∀ l : List Char, Plain l → Plain ('-' :: l) := fun l hl ↦
    (show Plain ['-'] by decide).append hl
  rw [Uuid.display, String.toList_ofList]
  exact (((htake 8 _ h).append (hdash _ (htake 4 _ (hdrop 8)))).append
    (hdash _ (htake 4 _ (hdrop 12)))).append (hdash _ (htake 4 _ (hdrop 16))) |>.append
    (hdash _ (hdrop 20))

/-- **The text of a sealed lifecycle entry** is printable, and its length does not depend on the
hashes in it. -/
theorem entryText_sealWith (E : Ed25519) (key : SigningKey) (lastHash : String) {sequence : ℕ}
    {ev : Audit.LifecycleEvent} (bytes : Bytes) {now : DateTime} (logId : Uuid)
    (hev : Plain (lifecycleText ev)) (hnow : Plain (stampText now)) (hseq : sequence + 1 < 10) :
    ∃ t, entryText (sealWith E key lastHash sequence (.lifecycle ev) bytes now logId) = some t ∧
      t.length = 393 + (lifecycleText ev).length + (stampText now).length ∧ Plain t := by
  have hdigit : ∀ n < 10, (toString n).toList.length = 1 ∧ Plain (toString n).toList := by decide
  have hhash : ∀ b, (Sha256.digestHex b).toList.length = 64 ∧
      Plain (Sha256.digestHex b).toList := by
    intro b
    rw [Sha256.digestHex, Text.toList_hexEncode, length_hexChars, Sha256.length_digest]
    exact ⟨rfl, plain_hexChars _⟩
  have hsig : ∀ s : Signature, s.toHex.toList.length = 128 ∧ Plain s.toHex.toList := by
    intro s
    rw [Signature.toHex, Text.toList_hexEncode, length_hexChars, s.length_eq]
    exact ⟨rfl, plain_hexChars _⟩
  refine ⟨_, rfl, ?_, ?_⟩
  · simp only [entryTextWith, stringField, sealWith, chainHash, List.length_cons,
      List.length_append, Uuid.length_display, (hhash _).1, (hsig _).1, (hdigit _ hseq).1,
      List.length_nil]
    have hlits : "\"log_id\":\"".toList.length = 10 ∧ ",\"".toList.length = 2 ∧
        "\":\"".toList.length = 3 ∧ "timestamp".toList.length = 9 ∧
        "payload_hash".toList.length = 12 ∧ "entry_hash".toList.length = 10 ∧
        "signature".toList.length = 9 ∧ ",\"payload\":".toList.length = 11 ∧
        ",\"sequence\":".toList.length = 12 := by decide
    obtain ⟨h1, h2, h3, h4, h5, h6, h7, h8, h9⟩ := hlits
    omega
  · have hcons : ∀ (c : Char) (l : List Char), isPlain c = true → Plain l → Plain (c :: l) :=
      fun c l hc hl d hd ↦ by
        rcases List.mem_cons.1 hd with rfl | hd
        · exact hc
        · exact hl d hd
    refine hcons _ _ (by decide) (Plain.append (Plain.append (by decide) (Plain.append
      (Uuid.plain_display _) (hcons _ _ (by decide) ?_))) (by decide))
    have hstamp := plain_stringField "timestamp" (by decide) hnow
    have hpay := plain_stringField "payload_hash" (by decide) (hhash bytes).2
    have hentry := plain_stringField "entry_hash" (by decide)
      (hhash (entryPreimage lastHash now (Sha256.digestHex bytes))).2
    have hsign := plain_stringField "signature" (by decide)
      (hsig (key.sign E (Text.asBytes (chainHash lastHash now (Sha256.digestHex bytes))))).2
    exact ((((((hstamp.append hpay).append hentry).append hsign).append (by decide)).append
      hev).append (by decide)).append (hdigit _ hseq).2

/-! ### What the serializer does -/

/-- The known entries can be told apart by their texts, and no text is part of another. -/
structure Uniform (known : List AuditEntry) (length : ℕ) : Prop where
  text : ∀ e ∈ known, ∃ t, entryText e = some t ∧ t.length = length ∧ Plain t
  distinct : ∀ a ∈ known, ∀ b ∈ known, a.logId.display = b.logId.display → a = b

/-- Sealed entries of one event and one time are uniform, as long as their identifiers differ. -/
theorem uniform_of_sealed (E : Ed25519) (key : SigningKey) {ev : Audit.LifecycleEvent}
    {now : DateTime} {known : List AuditEntry} (hev : Plain (lifecycleText ev))
    (hnow : Plain (stampText now))
    (hsealed : ∀ e ∈ known, ∃ lastHash sequence bytes logId, sequence + 1 < 10 ∧
      e = sealWith E key lastHash sequence (.lifecycle ev) bytes now logId)
    (hids : (known.map fun e ↦ e.logId.display).Nodup) :
    Uniform known (393 + (lifecycleText ev).length + (stampText now).length) where
  text e he := by
    obtain ⟨lastHash, sequence, bytes, logId, hseq, rfl⟩ := hsealed e he
    exact entryText_sealWith E key lastHash bytes logId hev hnow hseq
  distinct a ha b hb hab := List.inj_on_of_nodup_map hids ha hb hab

section

variable {known : List AuditEntry} {length : ℕ}

/-- A text of the wrong length is not read. -/
theorem Uniform.entryFromStr_ne_ok (h : Uniform known length) {s : String}
    (hs : s.toList.length ≠ length) (e : AuditEntry) :
    (lifecycleJson known).entryFromStr s ≠ .ok e := by
  have hfind : known.find? (fun e ↦ entryText e == some s.toList) = none := by
    rw [List.find?_eq_none]
    intro a ha heq
    obtain ⟨t, ht, hlen, -⟩ := h.text a ha
    rw [ht, beq_iff_eq, Option.some.injEq] at heq
    exact hs (heq ▸ hlen)
  simp [lifecycleJson, hfind]

theorem Uniform.entryFromStr_text (h : Uniform known length) {e : AuditEntry} (he : e ∈ known)
    {t : List Char} (ht : entryText e = some t) :
    (lifecycleJson known).entryFromStr (String.ofList t) = .ok e := by
  obtain ⟨a, ha⟩ : ∃ a, known.find? (fun e ↦ entryText e == some t) = some a := by
    rw [← Option.isSome_iff_exists, List.find?_isSome]
    exact ⟨e, he, by simp [ht]⟩
  have hat : entryText a = some t := by simpa using List.find?_some ha
  have hae : a = e :=
    h.distinct a (List.mem_of_find?_eq_some ha) e he (logId_eq_of_entryText hat ht)
  simp [lifecycleJson, ha, hae]

theorem Uniform.text_eq (h : Uniform known length) {e : AuditEntry} (he : e ∈ known) :
    entryText e = some ((lifecycleJson known).text e) := by
  obtain ⟨t, ht, -⟩ := h.text e he
  simp [AuditJson.text, lifecycleJson, ht]

/-- Every known entry has a line of one length. -/
theorem Uniform.length_line (h : Uniform known length) {e : AuditEntry} (he : e ∈ known) :
    ((lifecycleJson known).line e).length = length + 1 := by
  obtain ⟨t, ht, hlen, hplain⟩ := h.text e he
  have htext : (lifecycleJson known).text e = t := Option.some.inj ((h.text_eq he).symm.trans ht)
  rw [AuditJson.line, htext, List.length_append, hplain.length_encode, hlen, List.length_singleton]

/-- **The serializer does what the log relies on** for every entry it knows. -/
theorem lifecycleJson_faithful (h : Uniform known length) {e : AuditEntry} (he : e ∈ known) :
    (lifecycleJson known).Faithful e := by
  obtain ⟨t, ht, hlen, hplain⟩ := h.text e he
  have hto : (lifecycleJson known).entryToString e = .ok (String.ofList t) := by
    simp [lifecycleJson, ht]
  refine ⟨⟨String.ofList t, hto, h.entryFromStr_text he ht, ?_, ?_⟩, ?_⟩
  · rw [String.toList_ofList]
    exact hplain.newline_not_mem
  · obtain ⟨p, -, rfl⟩ := Option.map_eq_some_iff.1 ht
    rw [String.toList_ofList]
    exact ⟨_, rfl⟩
  · -- a fragment has fewer bytes than the text, hence fewer characters than any known text
    intro s hs b hb hfrag e'
    have hst : s = String.ofList t := by
      rw [hto] at hs
      exact (Except.ok.inj hs).symm
    subst hst
    have hbytes : (Text.asBytes (String.ofList t)).length = length := by
      rw [Text.asBytes, String.toList_ofList, hplain.length_encode, hlen]
    have hlt : b.length < length := by
      rw [← hbytes]
      rcases hfrag with hpre | hsuf
      · exact lt_of_le_of_ne hpre.length_le fun heq ↦ hb (hpre.eq_of_length heq)
      · exact lt_of_le_of_ne hsuf.length_le fun heq ↦ hb (hsuf.eq_of_length heq)
    refine h.entryFromStr_ne_ok ?_ e'
    have := Utf8.length_decodeLossy_le b
    rw [String.toList_ofList]
    omega

end

end Cordon
