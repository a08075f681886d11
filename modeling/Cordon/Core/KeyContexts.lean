import Cordon.Core.Bundles
import Cordon.Crypto.KeyHierarchy

/-!
# Which contexts share a key

A key is derived for a purpose, an identifier and a client, and the info string is to be unique for
the three. The purposes have different tags without a colon, so purposes never mix. Within one
purpose the identifier and the client stand on two sides of a colon, and **neither is escaped**:
where a deployment identifier may hold a colon, a piece can move from one side to the other.

A bundle identifier is safe only without colons. A deployment identifier is only asked not to be
blank.

When two contexts have one info string is decided on the strings (`KeyContext.info_eq_iff`): the tag
ends at the first colon, so the purposes are the same, and the rest is one text with two places to
cut it. That keys differ where info strings do rests on HKDF not colliding on these two strings.
Where the strings are the same nothing has to be assumed: the keys are one, whatever HKDF is
(`deployments_share_a_log_key`).
-/

namespace Cordon

/-- What `CordonConfig::validate` asks of a deployment identifier. -/
def validateDeploymentId (deploymentId : String) : Except CordonError Unit :=
  .ensure (!Text.isBlank deploymentId.toList)
    (.configError "deployment_id must not be empty; it is an input to every derived key")

/-- What a key of the hierarchy is for. -/
inductive KeyPurpose
  | bundle | session | log | admin | enclave
  deriving DecidableEq

/-- What a key is derived for. -/
structure KeyContext where
  purpose : KeyPurpose
  identifier : String
  client : String
  deriving DecidableEq

namespace KeyPurpose

def tag : KeyPurpose → String
  | bundle => DomainSeparation.bundleKey
  | session => DomainSeparation.sessionKey
  | log => DomainSeparation.logKey
  | admin => DomainSeparation.adminKey
  | enclave => DomainSeparation.enclaveKey

theorem colon_notMem_tag (purpose : KeyPurpose) : ':' ∉ purpose.tag.toList := by
  cases purpose <;> decide

theorem tag_injective : Function.Injective tag := by
  intro a b h
  cases a <;> cases b
  all_goals first | rfl | exact absurd h (by decide)

end KeyPurpose

namespace KeyContext

/-- The identifiers and clients that occur. -/
def Admissible (c : KeyContext) : Prop :=
  (match c.purpose with
    | .bundle => isSafeBundleId c.identifier = true
    | _ => validateDeploymentId c.identifier = .ok ()) ∧ c.client ≠ ""

/-- The info string of a context. -/
def info (c : KeyContext) : String :=
  match c.purpose with
  | .bundle => bundleKeyInfo c.identifier c.client
  | .session => sessionKeyInfo c.identifier c.client
  | .log => logKeyInfo c.identifier c.client
  | .admin => adminKeyInfo c.identifier c.client
  | .enclave => enclaveKeyInfo c.identifier c.client

/-- The key of a context: the key itself, or the seed of a signing key. -/
def derive (hkdf : Hkdf) (master : MasterKey) (c : KeyContext) : Except CryptoError Bytes :=
  match c.purpose with
  | .bundle => master.deriveBundleKey hkdf c.identifier c.client
  | .session => master.deriveSessionKey hkdf c.identifier c.client
  | .log => (master.deriveLogSigningKey hkdf c.identifier c.client).map SigningKey.seed
  | .admin => (master.deriveAdminKey hkdf c.identifier c.client).map SigningKey.seed
  | .enclave => (master.deriveEnclaveKey hkdf c.identifier c.client).map SigningKey.seed

theorem info_eq (c : KeyContext) : c.info = keyInfo c.purpose.tag c.identifier c.client := by
  rcases c with ⟨_ | _ | _ | _ | _, _, _⟩ <;> rfl

/-- **Every key is HKDF of the master key and the info string.** -/
theorem derive_eq (hkdf : Hkdf) (master : MasterKey) (c : KeyContext) :
    c.derive hkdf master = derive32ByteKey hkdf master.bytes c.info := by
  have hseed : ∀ key : Except CryptoError Bytes, (key.map SigningKey.mk).map SigningKey.seed =
      key := by
    rintro (e | key)
    · rfl
    · rfl
  rcases c with ⟨_ | _ | _ | _ | _, _, _⟩
  · rfl
  · rfl
  all_goals exact hseed _

/-- A piece behind a colon at the end of one identifier stands before a colon at the start of the
other client. -/
def Shifts (c c' : KeyContext) : Prop :=
  c.purpose = c'.purpose ∧
    ∃ s, c'.identifier = c.identifier ++ ":" ++ s ∧ c.client = s ++ ":" ++ c'.client

variable {c c' : KeyContext}

theorem toList_info (c : KeyContext) :
    c.info.toList =
      c.purpose.tag.toList ++ ':' :: (c.identifier.toList ++ ':' :: c.client.toList) := by
  have hcolon : ":".toList = [':'] := rfl
  simp [info_eq, keyInfo, hcolon]

/-- A shift has the same info string. -/
theorem Shifts.info_eq (h : c.Shifts c') : c.info = c'.info := by
  obtain ⟨hpurpose, s, hid, hclient⟩ := h
  rw [KeyContext.info_eq, KeyContext.info_eq, hpurpose, keyInfo, keyInfo, hid, hclient]
  simp only [String.append_assoc]

/-- And it is another context. -/
theorem Shifts.ne (h : c.Shifts c') : c ≠ c' := by
  rintro rfl
  obtain ⟨-, s, hid, -⟩ := h
  have hlength := congrArg String.length hid
  rw [String.length_append, String.length_append] at hlength
  have hcolon : ":".length = 1 := rfl
  omega

/-- **When info strings are equal.** -/
theorem info_eq_iff : c.info = c'.info ↔ c = c' ∨ c.Shifts c' ∨ c'.Shifts c := by
  constructor
  · intro h
    have hlist := congrArg String.toList h
    rw [toList_info, toList_info] at hlist
    -- the tag ends at the first colon
    obtain ⟨htag, hrest⟩ :=
      Text.cut_inj c.purpose.colon_notMem_tag c'.purpose.colon_notMem_tag hlist
    have hpurpose := KeyPurpose.tag_injective (String.toList_inj.1 htag)
    have hshift : ∀ {a b a' b' : String} {s : List Char}, a'.toList = a.toList ++ ':' :: s →
        b.toList = s ++ ':' :: b'.toList →
        a' = a ++ ":" ++ String.ofList s ∧ b = String.ofList s ++ ":" ++ b' := by
      intro a b a' b' s ha hb
      have hcolon : ":".toList = [':'] := rfl
      refine ⟨String.toList_inj.1 ?_, String.toList_inj.1 ?_⟩
      · simp [ha, hcolon]
      · simp [hb, hcolon]
    rcases Text.cut_cases hrest with ⟨hid, hclient⟩ | ⟨s, hid, hclient⟩ | ⟨s, hid, hclient⟩
    · left
      rcases c with ⟨purpose, identifier, client⟩
      rcases c' with ⟨purpose', identifier', client'⟩
      obtain rfl : purpose = purpose' := hpurpose
      obtain rfl : identifier = identifier' := String.toList_inj.1 hid
      obtain rfl : client = client' := String.toList_inj.1 hclient
      rfl
    · exact Or.inr (Or.inl ⟨hpurpose, _, hshift hid hclient⟩)
    · exact Or.inr (Or.inr ⟨hpurpose.symm, _, hshift hid hclient⟩)
  · rintro (rfl | h | h)
    · rfl
    · exact h.info_eq
    · exact h.info_eq.symm

/-- Bundle identifiers have no colon, so nothing moves. -/
theorem Admissible.not_shifts (h : c'.Admissible) (hbundle : c'.purpose = .bundle) :
    ¬c.Shifts c' := by
  rintro ⟨-, s, hid, -⟩
  have hsafe : isSafeBundleId c'.identifier = true := by
    have hboth := h.1
    rwa [hbundle] at hboth
  have hcolon : ':' ∈ c'.identifier.toList := by
    have hlist : ":".toList = [':'] := rfl
    simp [hid, hlist]
  simp only [isSafeBundleId, Bool.and_eq_true, List.all_eq_true] at hsafe
  have hchar := hsafe.2 ':' hcolon
  simp at hchar

end KeyContext

/-! ### Shards -/

theorem shardKeyInfo_injective : Function.Injective shardKeyInfo := fun _ _ h ↦
  Text.toString_nat_injective ((String.append_right_inj _).1 h)

/-- The key of a shard has a purpose of its own. -/
theorem shardKeyInfo_ne_info (shardIndex : ℕ) (c : KeyContext) :
    shardKeyInfo shardIndex ≠ c.info := by
  intro h
  have hlist := congrArg String.toList h
  have hshard : (shardKeyInfo shardIndex).toList =
      DomainSeparation.shardKey.toList ++ ':' :: (toString shardIndex).toList := by
    have hcolon : ":".toList = [':'] := rfl
    simp only [shardKeyInfo, String.toList_append, hcolon, List.append_assoc, List.singleton_append]
  rw [hshard, KeyContext.toList_info] at hlist
  obtain ⟨htag, -⟩ := Text.cut_inj (by decide) c.purpose.colon_notMem_tag hlist
  revert htag
  generalize c.purpose = purpose
  cases purpose <;> decide

/-! ### Separation -/

/-- HKDF without collisions on some info strings. -/
def Hkdf.CollisionFreeOn (hkdf : Hkdf) (ikm : Bytes) (infos : Set String) : Prop :=
  ∀ info ∈ infos, ∀ info' ∈ infos,
    hkdf ikm (Text.asBytes info) = hkdf ikm (Text.asBytes info') → info = info'

/-- **What separation means** for two contexts of one master key: an info string and a key are for
one of them only, and shards have info strings of their own. -/
structure KeyContext.Separated (hkdf : Hkdf) (master : MasterKey) (c c' : KeyContext) : Prop where
  info : c.info = c'.info → c = c'
  key : ∀ key, c.derive hkdf master = .ok key → c'.derive hkdf master = .ok key → c = c'
  shard : Function.Injective shardKeyInfo
  shard_ne : ∀ shardIndex, shardKeyInfo shardIndex ≠ c.info ∧ shardKeyInfo shardIndex ≠ c'.info

/-- **When two contexts are separated**: exactly if they are bundle keys, or neither is a shift of
the other. -/
theorem key_contexts_separated_iff (hkdf : Hkdf) (master : MasterKey) (c c' : KeyContext)
    (hc : c.Admissible) (hc' : c'.Admissible)
    (hhkdf : hkdf.CollisionFreeOn master.bytes {c.info, c'.info}) :
    c.Separated hkdf master c' ↔ c.purpose = .bundle ∨ ¬c.Shifts c' ∧ ¬c'.Shifts c := by
  have hinfo : (c.info = c'.info → c = c') ↔
      c.purpose = .bundle ∨ ¬c.Shifts c' ∧ ¬c'.Shifts c := by
    rw [KeyContext.info_eq_iff]
    constructor
    · intro h
      exact Or.inr ⟨fun hshift ↦ hshift.ne (h (Or.inr (Or.inl hshift))),
        fun hshift ↦ hshift.ne (h (Or.inr (Or.inr hshift))).symm⟩
    · rintro (hbundle | ⟨hfirst, hsecond⟩) (rfl | hshift | hshift)
      · rfl
      · exact absurd hshift (hc'.not_shifts (hshift.1 ▸ hbundle))
      · exact absurd hshift (hc.not_shifts hbundle)
      · rfl
      · exact absurd hshift hfirst
      · exact absurd hshift hsecond
  rw [← hinfo]
  refine ⟨fun h ↦ h.info, fun h ↦ ⟨h, fun key hkey hkey' ↦ ?_, shardKeyInfo_injective,
    fun i ↦ ⟨shardKeyInfo_ne_info i c, shardKeyInfo_ne_info i c'⟩⟩⟩
  -- one key comes from one info string
  have hderived : ∀ c : KeyContext, c.derive hkdf master = .ok key →
      hkdf master.bytes (Text.asBytes c.info) = .ok key := by
    intro c hkey
    rw [KeyContext.derive_eq, derive32ByteKey, Except.mapError_eq_ok] at hkey
    exact hkey
  exact h (hhkdf _ (by simp) _ (by simp) ((hderived c hkey).trans (hderived c' hkey').symm))

/-- An expansion by one digest: a key of 32 bytes. -/
def digestHkdf : Hkdf := fun ikm info ↦ .ok (Sha256.digest (ikm ++ info))

/-- The master key of the samples. -/
def sampleMaster : MasterKey :=
  ⟨List.replicate 32 7⟩

theorem digestHkdf_collisionFree {ikm : Bytes} {info info' : String}
    (h : Sha256.digest (ikm ++ Text.asBytes info) = Sha256.digest (ikm ++ Text.asBytes info') →
      info = info') :
    digestHkdf.CollisionFreeOn ikm {info, info'} := by
  rintro a (rfl | rfl) b (rfl | rfl) heq
  · rfl
  · exact h (Except.ok.inj heq)
  · exact (h (Except.ok.inj heq).symm).symm
  · rfl

/-- Two deployments whose identifiers have no colon. -/
theorem key_contexts_separated_plain :
    KeyContext.Separated digestHkdf sampleMaster ⟨.log, "eu", "acme"⟩ ⟨.log, "us", "acme"⟩ := by
  have hshort : ∀ id id' : String, id'.length < id.length + 1 → ∀ client client',
      ¬KeyContext.Shifts ⟨.log, id, client⟩ ⟨.log, id', client'⟩ := by
    rintro id id' hlt client client' ⟨-, s, hid, -⟩
    have hlength := congrArg String.length hid
    have hcolon : ":".length = 1 := rfl
    simp only [String.length_append, hcolon] at hlength
    omega
  refine (key_contexts_separated_iff digestHkdf sampleMaster ⟨.log, "eu", "acme"⟩
    ⟨.log, "us", "acme"⟩ ⟨by decide, by decide⟩ ⟨by decide, by decide⟩
    (digestHkdf_collisionFree (by decide +kernel))).2 (Or.inr ?_)
  exact ⟨hshort _ _ (by decide) _ _, hshort _ _ (by decide) _ _⟩

/-- **Two deployments sign their logs with one key**: the deployment `eu` of the client `west:acme`
and the deployment `eu:west` of the client `acme`. -/
theorem deployments_share_a_log_key :
    ¬∀ (hkdf : Hkdf) (master : MasterKey) (c c' : KeyContext), c.Admissible → c'.Admissible →
      hkdf.CollisionFreeOn master.bytes {c.info, c'.info} → c.Separated hkdf master c' := by
  intro hall
  have hseparated := hall digestHkdf sampleMaster ⟨.log, "eu", "west:acme"⟩
    ⟨.log, "eu:west", "acme"⟩ ⟨by decide, by decide⟩ ⟨by decide, by decide⟩
    (digestHkdf_collisionFree fun _ ↦ by decide)
  exact absurd (hseparated.info (by decide)) (by decide)

end Cordon
