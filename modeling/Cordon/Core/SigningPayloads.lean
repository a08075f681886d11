import Cordon.Audit.Events
import Cordon.Crypto.Signing

/-!
# What the enclave key signs

The enclave key signs three kinds of strings: a response, an attestation report and an anchor of
the audit log. Each is a tag and its fields with bars between them. The fields that a caller
chooses are not escaped, and may hold bars of their own, and even the text of a whole message.

There is **one such field in each kind**, so a string is read from both ends: from the left as far
as the free field, and from the right back to it. What stands on the way never has a bar
(`SignedMessage.WellFormed`), and the tags differ, so the string determines the message
(`signed_messages_distinct`).

The result rests on these two readings and on what the fields between are made of: identifiers in
their printed form, digests, numbers and dates, none of which has a bar. `WellFormed` asks for that
and for nothing else of what a caller chooses. Nothing is said of the signature: that different
strings have different signatures is the business of the key, and the results which need it assume
it of the key (`VerifyingKey.BindsMessages`).
-/

namespace Cordon

/-- The bytes signed for an inference response. -/
def responseSigningPayload (requestId : Uuid) (outputHash modelId : String) (timestampMs : ℤ)
    (mrenclave : String) : String :=
  "CORDON_RESPONSE_v1|" ++ requestId.display ++ "|" ++ outputHash ++ "|" ++ modelId ++ "|" ++
    toString timestampMs ++ "|" ++ mrenclave

/-- The payload of `sign_attestation`. -/
def attestationSigningPayload (combinedHash clientNonce : String) : String :=
  "CORDON_ATTESTATION_v1|" ++ combinedHash ++ "|" ++ clientNonce

/-- The payload of `audit_anchor`. -/
def anchorSigningPayload (deploymentId : String) (sequence : ℕ) (tailHash : String)
    (timestampMs : ℤ) : String :=
  "CORDON_ANCHOR_v1|" ++ deploymentId ++ "|" ++ toString sequence ++ "|" ++ tailHash ++ "|" ++
    toString timestampMs

/-- A message for the enclave key, by its fields. -/
inductive SignedMessage
  | response (requestId : Uuid) (outputHash modelId : String) (timestampMs : ℤ) (mrenclave : String)
  | attestation (combinedHash clientNonce : String)
  | anchor (deploymentId : String) (sequence : ℕ) (tailHash : String) (timestampMs : ℤ)
  deriving DecidableEq

namespace SignedMessage

/-- The string that is signed. -/
def payload : SignedMessage → String
  | response requestId outputHash modelId timestampMs mrenclave =>
    responseSigningPayload requestId outputHash modelId timestampMs mrenclave
  | attestation combinedHash clientNonce => attestationSigningPayload combinedHash clientNonce
  | anchor deploymentId sequence tailHash timestampMs =>
    anchorSigningPayload deploymentId sequence tailHash timestampMs

/-- The bytes that `sign_enclave` is given. -/
def signedBytes (m : SignedMessage) : Bytes :=
  Text.asBytes m.payload

end SignedMessage

/-- A text of hexadecimal digits, or of none. -/
def IsHex (s : String) : Prop :=
  ∀ c ∈ s.toList, (Text.hexValue c).isSome

instance (s : String) : Decidable (IsHex s) :=
  decidable_of_iff ((s.toList.all fun c ↦ (Text.hexValue c).isSome) = true) List.all_eq_true

/-- What the node puts into the fields that no caller chooses. The model identifier, the nonce and
the deployment identifier are arbitrary. -/
def SignedMessage.WellFormed : SignedMessage → Prop
  | .response _ outputHash _ _ mrenclave => IsHex outputHash ∧ '|' ∉ mrenclave.toList
  | .attestation combinedHash _ => IsHex combinedHash
  | .anchor _ _ tailHash _ => IsHex tailHash

/-! ### Fields without a bar -/

theorem IsHex.bar_notMem {s : String} (h : IsHex s) : '|' ∉ s.toList := by
  intro hmem
  have hdigit := h _ hmem
  simp [Text.hexValue] at hdigit

theorem bar_notMem_toString_nat (n : ℕ) : '|' ∉ (toString n).toList := by
  intro hmem
  have hdigit := Text.isDigit_of_mem_toString hmem
  simp at hdigit

theorem bar_notMem_toString_int (z : ℤ) : '|' ∉ (toString z).toList := by
  rcases z with n | n
  · exact bar_notMem_toString_nat n
  · show '|' ∉ ("-" ++ toString (n + 1)).toList
    rw [String.toList_append, List.mem_append, not_or]
    exact ⟨by decide, bar_notMem_toString_nat (n + 1)⟩

theorem toString_int_injective : Function.Injective fun z : ℤ ↦ toString z := by
  have hsign : ∀ m n : ℕ, toString m ≠ "-" ++ toString n := by
    intro m n h
    have hmem : '-' ∈ (toString m).toList := by
      rw [h, String.toList_append]
      exact List.mem_append_left _ (by decide)
    have hdigit := Text.isDigit_of_mem_toString hmem
    simp at hdigit
  rintro (m | m) (n | n) h
  · exact congrArg Int.ofNat (Text.toString_nat_injective h)
  · exact absurd h (hsign m (n + 1))
  · exact absurd h.symm (hsign n (m + 1))
  · have hdigits : toString (m + 1) = toString (n + 1) :=
      (String.append_right_inj "-").1 h
    exact congrArg Int.negSucc (Nat.succ_injective (Text.toString_nat_injective hdigits))

/-- Taking the hyphens out of an identifier leaves its digits. -/
theorem filter_display (u : Uuid) :
    u.display.toList.filter (· ≠ '-') = Text.hexChars (Bytes.beBytes 16 u.value.toNat) := by
  set h := Text.hexChars (Bytes.beBytes 16 u.value.toNat) with hh
  have hkeep : ∀ l : List Char, l ⊆ h → l.filter (· ≠ '-') = l := by
    intro l hl
    refine List.filter_eq_self.2 fun c hc ↦ ?_
    have hdigit := Text.isSome_hexValue_of_mem_hexChars (hl hc)
    simp only [decide_eq_true_eq]
    rintro rfl
    simp [Text.hexValue] at hdigit
  have htake : ∀ i n, (h.drop i).take n ⊆ h := fun i n c hc ↦
    List.mem_of_mem_drop (List.mem_of_mem_take hc)
  rw [Uuid.display, String.toList_ofList]
  simp only [← hh, List.filter_append, List.filter_cons, hkeep _ (htake _ _),
    hkeep _ (List.take_subset 8 h), hkeep _ (List.drop_subset 20 h)]
  simp only [ne_eq, not_true_eq_false, decide_false, Bool.false_eq_true, if_false]
  -- the five groups of digits, back to back
  have hsplit : ∀ i n, (h.drop i).take n ++ h.drop (i + n) = h.drop i := fun i n ↦ by
    rw [← List.drop_drop, List.take_append_drop]
  simp only [List.append_assoc]
  rw [hsplit 16 4, hsplit 12 4, hsplit 8 4, List.take_append_drop]

theorem display_injective : Function.Injective Uuid.display := by
  intro u v h
  have hdigits : Text.hexChars (Bytes.beBytes 16 u.value.toNat) =
      Text.hexChars (Bytes.beBytes 16 v.value.toNat) := by
    rw [← filter_display, h, filter_display]
  have hbytes := congrArg Text.hexDecodeChars hdigits
  rw [Text.hexDecodeChars_hexChars, Text.hexDecodeChars_hexChars, Option.some.injEq] at hbytes
  have hvalue : u.value.toNat = v.value.toNat :=
    Bytes.beBytes_inj (by simpa using u.value.isLt) (by simpa using v.value.isLt) hbytes
  rcases u with ⟨u⟩
  rcases v with ⟨v⟩
  exact congrArg Uuid.mk (BitVec.eq_of_toNat_eq hvalue)

theorem bar_notMem_display (u : Uuid) : '|' ∉ u.display.toList := by
  intro hmem
  have hdigit : '|' ∈ Text.hexChars (Bytes.beBytes 16 u.value.toNat) := by
    rw [← filter_display]
    exact List.mem_filter.2 ⟨hmem, by decide⟩
  have hvalue := Text.isSome_hexValue_of_mem_hexChars hdigit
  simp [Text.hexValue] at hvalue

/-! ### Reading a message back -/

/-- The families of messages. -/
inductive Family
  | response | attestation | anchor
  deriving DecidableEq

/-- What stands before the first bar. -/
def Family.tag : Family → String
  | response => "CORDON_RESPONSE_v1"
  | attestation => "CORDON_ATTESTATION_v1"
  | anchor => "CORDON_ANCHOR_v1"

theorem Family.tag_injective : Function.Injective Family.tag := by
  rintro (- | - | -) (- | - | -) h
  all_goals first | rfl | exact absurd h (by decide)

theorem Family.bar_notMem_tag (family : Family) : '|' ∉ family.tag.toList := by
  rcases family with - | - | -
  all_goals decide

namespace SignedMessage

/-- The family of a message. -/
def family : SignedMessage → Family
  | response .. => .response
  | attestation .. => .attestation
  | anchor .. => .anchor

/-- What stands after the first bar, cut at the bars around the free field. -/
def body : SignedMessage → List Char
  | response requestId outputHash modelId timestampMs mrenclave =>
    requestId.display.toList ++ '|' :: (outputHash.toList ++ '|' ::
      ((modelId.toList ++ '|' :: (toString timestampMs).toList) ++ '|' :: mrenclave.toList))
  | attestation combinedHash clientNonce => combinedHash.toList ++ '|' :: clientNonce.toList
  | anchor deploymentId sequence tailHash timestampMs =>
    ((deploymentId.toList ++ '|' :: (toString sequence).toList) ++ '|' :: tailHash.toList) ++
      '|' :: (toString timestampMs).toList

theorem toList_payload (m : SignedMessage) :
    m.payload.toList = m.family.tag.toList ++ '|' :: m.body := by
  have hbar : "|".toList = ['|'] := rfl
  rcases m with ⟨requestId, outputHash, modelId, timestampMs, mrenclave⟩ |
    ⟨combinedHash, clientNonce⟩ | ⟨deploymentId, sequence, tailHash, timestampMs⟩
  · have hresponse : "CORDON_RESPONSE_v1|".toList = Family.response.tag.toList ++ ['|'] := by
      decide
    show (responseSigningPayload _ _ _ _ _).toList = Family.response.tag.toList ++ '|' :: body _
    unfold responseSigningPayload body
    rw [String.toList_append, String.toList_append, String.toList_append, String.toList_append,
      String.toList_append, String.toList_append, String.toList_append, String.toList_append,
      String.toList_append, hresponse, hbar]
    -- left in place, the literal would be unfolded to its characters
    generalize Family.response.tag.toList = tag
    simp
  · have hattestation : "CORDON_ATTESTATION_v1|".toList =
        Family.attestation.tag.toList ++ ['|'] := by
      decide
    show (attestationSigningPayload _ _).toList = Family.attestation.tag.toList ++ '|' :: body _
    unfold attestationSigningPayload body
    rw [String.toList_append, String.toList_append, String.toList_append, hattestation, hbar]
    generalize Family.attestation.tag.toList = tag
    simp
  · have hanchor : "CORDON_ANCHOR_v1|".toList = Family.anchor.tag.toList ++ ['|'] := by
      decide
    show (anchorSigningPayload _ _ _ _).toList = Family.anchor.tag.toList ++ '|' :: body _
    unfold anchorSigningPayload body
    rw [String.toList_append, String.toList_append, String.toList_append, String.toList_append,
      String.toList_append, String.toList_append, String.toList_append, hanchor, hbar]
    generalize Family.anchor.tag.toList = tag
    simp

/-- A response is read from the left up to the model, and from the right back to it. -/
theorem response_body_inj {id id' : Uuid} {hash hash' model model' mre mre' : String} {ts ts' : ℤ}
    (hm : (response id hash model ts mre).WellFormed)
    (hm' : (response id' hash' model' ts' mre').WellFormed)
    (h : (response id hash model ts mre).body = (response id' hash' model' ts' mre').body) :
    response id hash model ts mre = response id' hash' model' ts' mre' := by
  obtain ⟨hhash, hmre⟩ := hm
  obtain ⟨hhash', hmre'⟩ := hm'
  obtain ⟨hid, hrest⟩ := Text.cut_inj (bar_notMem_display id) (bar_notMem_display id') h
  obtain ⟨hhash, hrest⟩ := Text.cut_inj hhash.bar_notMem hhash'.bar_notMem hrest
  obtain ⟨hrest, hmre⟩ := Text.cut_last_inj hmre hmre' hrest
  obtain ⟨hmodel, hts⟩ := Text.cut_last_inj (bar_notMem_toString_int ts)
    (bar_notMem_toString_int ts') hrest
  rw [display_injective (String.toList_injective hid), String.toList_injective hhash,
    String.toList_injective hmodel, toString_int_injective (String.toList_injective hts),
    String.toList_injective hmre]

/-- An anchor is read from the right alone: the deployment is its first field. -/
theorem anchor_body_inj {deployment deployment' tail tail' : String} {seq seq' : ℕ} {ts ts' : ℤ}
    (hm : (anchor deployment seq tail ts).WellFormed)
    (hm' : (anchor deployment' seq' tail' ts').WellFormed)
    (h : (anchor deployment seq tail ts).body = (anchor deployment' seq' tail' ts').body) :
    anchor deployment seq tail ts = anchor deployment' seq' tail' ts' := by
  obtain ⟨hrest, hts⟩ := Text.cut_last_inj (bar_notMem_toString_int ts)
    (bar_notMem_toString_int ts') h
  obtain ⟨hrest, htail⟩ := Text.cut_last_inj (IsHex.bar_notMem hm) (IsHex.bar_notMem hm') hrest
  obtain ⟨hdeployment, hseq⟩ := Text.cut_last_inj (bar_notMem_toString_nat seq)
    (bar_notMem_toString_nat seq') hrest
  rw [String.toList_injective hdeployment,
    Text.toString_nat_injective (String.toList_injective hseq), String.toList_injective htail,
    toString_int_injective (String.toList_injective hts)]

/-- A body determines the message, within a family. -/
theorem eq_of_body {m m' : SignedMessage} (hm : m.WellFormed) (hm' : m'.WellFormed)
    (hfamily : m.family = m'.family) (hbody : m.body = m'.body) : m = m' := by
  rcases m with ⟨id, hash, model, ts, mre⟩ | ⟨hash, nonce⟩ | ⟨deployment, seq, tail, ts⟩ <;>
    rcases m' with ⟨id', hash', model', ts', mre'⟩ | ⟨hash', nonce'⟩ |
      ⟨deployment', seq', tail', ts'⟩ <;>
    cases hfamily
  · exact response_body_inj hm hm' hbody
  · obtain ⟨hhash, hnonce⟩ := Text.cut_inj (IsHex.bar_notMem hm) (IsHex.bar_notMem hm') hbody
    rw [String.toList_injective hhash, String.toList_injective hnonce]
  · exact anchor_body_inj hm hm' hbody

end SignedMessage

/-- **A signature is on one message only.** Whatever the caller puts into the model identifier, the
nonce and the deployment identifier, two messages whose signed bytes are equal are of the same
family and agree in every field. -/
theorem signed_messages_distinct (m m' : SignedMessage) (hm : m.WellFormed) (hm' : m'.WellFormed)
    (h : m.signedBytes = m'.signedBytes) : m = m' := by
  have hpayload :
      m.family.tag.toList ++ '|' :: m.body = m'.family.tag.toList ++ '|' :: m'.body := by
    rw [← m.toList_payload, ← m'.toList_payload, Text.asBytes_injective h]
  obtain ⟨htag, hbody⟩ := Text.cut_inj m.family.bar_notMem_tag m'.family.bar_notMem_tag hpayload
  exact SignedMessage.eq_of_body hm hm' (Family.tag_injective (String.toList_injective htag)) hbody

/-- A nonce that forges the rest of a response does not make a report into one. -/
theorem signed_messages_distinct_forged :
    (SignedMessage.attestation "ab" "m|1700000000000|mre").signedBytes ≠
      (SignedMessage.response ⟨0⟩ "ab" "m" 1700000000000 "mre").signedBytes := by
  intro h
  have hreport : (SignedMessage.attestation "ab" "m|1700000000000|mre").WellFormed := by
    show IsHex "ab"
    decide
  have hresponse : (SignedMessage.response ⟨0⟩ "ab" "m" 1700000000000 "mre").WellFormed := by
    show IsHex "ab" ∧ '|' ∉ "mre".toList
    decide
  exact SignedMessage.noConfusion (signed_messages_distinct _ _ hreport hresponse h)

end Cordon
