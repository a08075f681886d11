import Cordon.Core.Bundles
import Cordon.Crypto.KeyHierarchy

/-!
# The provisioning verifier

`bundle::verify` checks a bundle before it is given to a node: every shard against its digests and,
with a key, decrypted, and then the whole model against its digest. The serving path makes the same
checks while it stages (`stagePlaintext`), but **in another order**: staging concatenates by
`layer_index`, and the verifier by position in the manifest.

Shard by shard the two cannot disagree, since both derive the key of a shard from its position and
compare digests as they are spelled. So they agree exactly if the two concatenations agree about the
digest of the whole model (`verifier_agrees_with_staging_iff`), and they do where the manifest lists
the shards in the order of `layer_index` (`ordersAgree_of_sorted`).

The comparison rests on four equivalences, two for each reader: what it accepts of one shard
(`checkShard_eq_ok`, `stageShard_eq_ok`), and what its loop makes of all of them
(`verifyShards_eq_ok`, `stageShards_eq_ok`). The first two are the same condition, `Opens`. What is
left to disagree about is the order, and `OrdersAgree` speaks of nothing else; the manifest is asked
to be well formed, so that each shard has an index of its own.
-/

namespace Cordon

/-- What provisioning calls that is not part of this repository, besides what the store calls. -/
structure ProvisionHost extends BundleHost where
  hkdf : Hkdf
  base64Encode : Bytes → String
  /-- AES-256-GCM encryption under a key and a nonce. -/
  encryptShard : Bytes → Bytes → Bytes → Except String Bytes
  /-- `serde_json::to_vec_pretty` of a manifest. -/
  manifestPretty : BundleManifest → Except String Bytes
  /-- `serde_json::from_str` of a manifest. -/
  manifestFromStr : String → Except String BundleManifest

/-- What the paths hold. -/
abbrev Disk : Type :=
  String → DiskFile

/-- What the system says of a file that is not there. -/
def notFound : String :=
  "No such file or directory (os error 2)"

/-- An error of the file system, as the bundle tools word it. -/
def ioError (verb path reason : String) : CordonError :=
  .internal ("cannot " ++ verb ++ " " ++ path ++ ": " ++ reason)

/-- The outcome of `verify`. -/
structure VerifyReport where
  bundleId : String
  shards : ℕ
  decrypted : Bool
  /-- One line for each shard that failed, and one for the whole-model digest. -/
  failures : List String
  deriving DecidableEq

/-- Whether every check passed. -/
def VerifyReport.passed (report : VerifyReport) : Bool :=
  report.failures.isEmpty

section Verify

variable (H : ProvisionHost)

/-- Read `manifest.json` from a bundle directory. -/
def readManifest (disk : Disk) (bundleDir : String) : Except CordonError BundleManifest :=
  let path := UnixPath.join bundleDir "manifest.json"
  match disk path with
  | .missing => .error (ioError "read" path notFound)
  | .unopenable reason | .unreadable reason => .error (ioError "read" path reason)
  | .file contents =>
    match Utf8.decode contents with
    | none => .error (ioError "read" path "stream did not contain valid UTF-8")
    | some text =>
      (H.manifestFromStr (String.ofList text)).mapError fun e ↦
        .validationFailed (path ++ " is not a bundle manifest: " ++ e)

/-- Decode a shard nonce from the manifest. -/
def decodeNonce (ivBase64 : String) : Except String Bytes :=
  match H.base64Decode ivBase64 with
  | .error _ => .error "the nonce is not valid base64"
  | .ok bytes =>
    if bytes.length = 12 then .ok bytes
    else .error ("the nonce must be 12 bytes, not " ++ toString bytes.length)

/-- `std::fs::read` of a shard, as the verifier words its errors. -/
def DiskFile.shardContents : DiskFile → Except String Bytes
  | .missing => .error "missing"
  | .unopenable reason | .unreadable reason => .error ("unreadable: " ++ reason)
  | .file contents => .ok contents

/-- Check one shard. With a key, returns its plaintext for the running digest. -/
def checkShard (disk : Disk) (bundleDir : String) (index : ℕ) (shard : ShardDescriptor)
    (bundleKey : Option Bytes) : Except String (Option Bytes) := do
  let ciphertext ← (disk (UnixPath.join bundleDir shard.path)).shardContents
  .ensure (Sha256.digestHex ciphertext == shard.ciphertextSha256)
    "ciphertext does not match the manifest"
  match bundleKey with
  | none => return none
  | some bundleKey =>
    let shardKey ← H.deriveShardKey bundleKey (index % 2 ^ 32)
    let nonce ← decodeNonce H shard.ivBase64
    match H.decryptShard shardKey ciphertext nonce with
    | none => .error "cannot be decrypted: wrong key or principal, or tampered"
    | some plaintext =>
      .ensure (Sha256.digestHex plaintext == shard.plaintextSha256)
        "plaintext does not match the manifest"
      return some plaintext

/-- The shards one after the other, in the order of the manifest: what the running digest has been
given, and the failures. `cancelled` says whether the flag is set when a shard is reached. -/
def verifyShards (disk : Disk) (bundleDir : String) (bundleKey : Option Bytes)
    (cancelled : ℕ → Bool) (hashed : Bytes) (failures : List String) :
    ℕ → List ShardDescriptor → Except CordonError (Bytes × List String)
  | _, [] => .ok (hashed, failures)
  | index, shard :: shards =>
    if cancelled index then .error (.internal "cancelled")
    else
      match checkShard H disk bundleDir index shard bundleKey with
      | .ok (some plaintext) =>
        verifyShards disk bundleDir bundleKey cancelled (hashed ++ plaintext) failures (index + 1)
          shards
      | .ok none =>
        verifyShards disk bundleDir bundleKey cancelled hashed failures (index + 1) shards
      | .error problem =>
        verifyShards disk bundleDir bundleKey cancelled hashed
          (failures ++ ["shard " ++ toString index ++ " (" ++ shard.path ++ "): " ++ problem])
          (index + 1) shards

/-- The failures with that of the whole-model digest, which is compared only if there are none. -/
def withTotalDigest (decrypted : Bool) (hashed : Bytes) (totalPlaintextSha256 : String)
    (failures : List String) : List String :=
  if decrypted && failures.isEmpty && Sha256.digestHex hashed != totalPlaintextSha256 then
    failures ++ ["the whole-model digest does not match the manifest"]
  else failures

/-- Check a bundle's ciphertext against its manifest and, given a key, decrypt every shard and check
the plaintext too. -/
def verify (disk : Disk) (bundleDir : String) (key : Option (MasterKey × String))
    (cancelled : ℕ → Bool) : Except CordonError VerifyReport := do
  let manifest ← readManifest H disk bundleDir
  manifest.validateStructure H.toBundleHost
  let bundleKey ← match key with
    | none => .ok none
    | some (master, principal) =>
      match master.deriveBundleKey H.hkdf manifest.bundleId principal with
      | .error e => .error (.keyError e.display)
      | .ok bytes => .ok (some bytes)
  let (hashed, failures) ←
    verifyShards H disk bundleDir bundleKey cancelled [] [] 0 manifest.shards
  return ⟨manifest.bundleId, manifest.shards.length, bundleKey.isSome,
    withTotalDigest bundleKey.isSome hashed manifest.totalPlaintextSha256 failures⟩

end Verify

/-! ### What both ask of a shard -/

/-- A shard of a bundle opens to a plaintext: there is a file with its digest, it decrypts under the
key of the shard's position, and the plaintext has its digest. The digests are compared as they are
spelled. -/
structure Opens (H : BundleHost) (disk : Disk) (bundleDir : String) (bundleKey : Bytes)
    (shard : ShardDescriptor × ℕ) (plaintext : Bytes) : Prop where
  opens : ∃ ciphertext shardKey nonce,
    disk (UnixPath.join bundleDir shard.1.path) = .file ciphertext ∧
    Sha256.digestHex ciphertext = shard.1.ciphertextSha256 ∧
    H.deriveShardKey bundleKey (shard.2 % 2 ^ 32) = .ok shardKey ∧
    H.base64Decode shard.1.ivBase64 = .ok nonce ∧ nonce.length = 12 ∧
    H.decryptShard shardKey ciphertext nonce = some plaintext
  plaintextSha256 : Sha256.digestHex plaintext = shard.1.plaintextSha256

section Shards

variable {H : ProvisionHost} {disk : Disk} {bundleDir : String} {bundleKey : Bytes}

/-- A shard opens to one plaintext. -/
theorem opens_rightUnique {H : BundleHost} :
    Relator.RightUnique (Opens H disk bundleDir bundleKey) := by
  rintro shard p q ⟨⟨c, k, n, hfile, -, hkey, hnonce, -, hp⟩, -⟩
    ⟨⟨c', k', n', hfile', -, hkey', hnonce', -, hq⟩, -⟩
  obtain rfl : c = c' := DiskFile.file.inj (hfile.symm.trans hfile')
  obtain rfl : k = k' := Except.ok.inj (hkey.symm.trans hkey')
  obtain rfl : n = n' := Except.ok.inj (hnonce.symm.trans hnonce')
  exact Option.some.inj (hp.symm.trans hq)

/-- The two readers of nonces word their errors differently, and accept the same. -/
theorem nonce_eq_ok {decoded : Except String Bytes} {badText : String → String}
    {badLength : Bytes → String} {nonce : Bytes} :
    (match decoded with
      | .error e => .error (badText e)
      | .ok bytes => if bytes.length = 12 then .ok bytes else .error (badLength bytes)) =
        Except.ok nonce ↔ decoded = .ok nonce ∧ nonce.length = 12 := by
  rcases decoded with e | bytes
  · simp
  · by_cases hlength : bytes.length = 12
    · simp only [hlength, if_true, Except.ok.injEq]
      exact ⟨fun h ↦ ⟨h, h ▸ hlength⟩, And.left⟩
    · simp only [hlength, if_false, Except.ok.injEq]
      exact ⟨fun h ↦ absurd h (by simp), fun h ↦ absurd (h.1 ▸ h.2) hlength⟩

theorem decodeNonce_eq_ok {ivBase64 : String} {nonce : Bytes} :
    decodeNonce H ivBase64 = .ok nonce ↔
      H.base64Decode ivBase64 = .ok nonce ∧ nonce.length = 12 :=
  nonce_eq_ok

theorem decodeIv_eq_ok {H : BundleHost} {ivBase64 : String} {nonce : Bytes} :
    decodeIv H ivBase64 = .ok nonce ↔ H.base64Decode ivBase64 = .ok nonce ∧ nonce.length = 12 :=
  nonce_eq_ok

theorem DiskFile.shardContents_eq_ok {f : DiskFile} {contents : Bytes} :
    f.shardContents = .ok contents ↔ f = .file contents := by
  rcases f with - | r | r | bytes <;> simp [shardContents]

theorem DiskFile.contents_eq_ok {f : DiskFile} {shardPath : String} {contents : Bytes} :
    f.contents shardPath = .ok contents ↔ f = .file contents := by
  rcases f with - | r | r | bytes <;> simp [DiskFile.contents]

/-- **What the verifier accepts.** With a key, it has the plaintext of every shard that passes. -/
theorem checkShard_eq_ok {shard : ShardDescriptor} {index : ℕ} {plaintext : Option Bytes} :
    checkShard H disk bundleDir index shard (some bundleKey) = .ok plaintext ↔
      ∃ p, plaintext = some p ∧
        Opens H.toBundleHost disk bundleDir bundleKey (shard, index) p := by
  simp only [checkShard, Except.bind_eq_ok, Except.ensure_eq_ok, beq_iff_eq]
  constructor
  · rintro ⟨ciphertext, hread, -, hcipher, shardKey, hkey, nonce, hnonce, hrest⟩
    have hfile := DiskFile.shardContents_eq_ok.1 hread
    obtain ⟨hbase, hlength⟩ := decodeNonce_eq_ok.1 hnonce
    rcases hdecrypt : H.decryptShard shardKey ciphertext nonce with - | p
    · simp [hdecrypt] at hrest
    · simp only [hdecrypt, Except.bind_eq_ok, Except.ensure_eq_ok, beq_iff_eq,
        Except.pure_eq_ok] at hrest
      obtain ⟨-, hplain, rfl⟩ := hrest
      exact ⟨p, rfl, ⟨ciphertext, shardKey, nonce, hfile, hcipher, hkey, hbase, hlength, hdecrypt⟩,
        hplain⟩
  · rintro ⟨p, rfl, ⟨ciphertext, shardKey, nonce, hfile, hcipher, hkey, hbase, hlength, hdecrypt⟩,
      hplain⟩
    refine ⟨ciphertext, DiskFile.shardContents_eq_ok.2 hfile, (), hcipher, shardKey, hkey, nonce,
      decodeNonce_eq_ok.2 ⟨hbase, hlength⟩, ?_⟩
    simp only [hdecrypt, Except.bind_eq_ok, Except.ensure_eq_ok, beq_iff_eq, Except.pure_eq_ok]
    exact ⟨(), hplain, trivial⟩

/-- **What staging accepts** is the same. -/
theorem stageShard_eq_ok {H : BundleHost} {io : StagingIo} (hread : ∀ k, io.read k = disk)
    {bundleId : String} {k : ℕ} {shard : ShardDescriptor} {index : ℕ} {plaintext : Bytes} :
    stageShard H io bundleId bundleDir k shard index = .ok plaintext ↔
      Opens H disk bundleDir io.bundleKey (shard, index) plaintext := by
  simp only [stageShard, Except.bind_eq_ok, Except.ensure_eq_ok, Except.mapError_eq_ok, hread,
    ctEq_asBytes_iff]
  constructor
  · rintro ⟨ciphertext, hcontents, -, hcipher, shardKey, hkey, nonce, hnonce, hrest⟩
    have hfile := DiskFile.contents_eq_ok.1 hcontents
    obtain ⟨hbase, hlength⟩ := decodeIv_eq_ok.1 hnonce
    rcases hdecrypt : H.decryptShard shardKey ciphertext nonce with - | p
    · simp [hdecrypt, throw, throwThe, MonadExceptOf.throw] at hrest
    · simp only [hdecrypt, Except.bind_eq_ok, Except.ensure_eq_ok, ctEq_asBytes_iff,
        Except.pure_eq_ok] at hrest
      obtain ⟨-, hplain, rfl⟩ := hrest
      exact ⟨⟨ciphertext, shardKey, nonce, hfile, hcipher, hkey, hbase, hlength, hdecrypt⟩, hplain⟩
  · rintro ⟨⟨ciphertext, shardKey, nonce, hfile, hcipher, hkey, hbase, hlength, hdecrypt⟩, hplain⟩
    refine ⟨ciphertext, DiskFile.contents_eq_ok.2 hfile, (), hcipher, shardKey, hkey, nonce,
      decodeIv_eq_ok.2 ⟨hbase, hlength⟩, ?_⟩
    simp only [hdecrypt, Except.bind_eq_ok, Except.ensure_eq_ok, ctEq_asBytes_iff,
      Except.pure_eq_ok]
    exact ⟨(), hplain, trivial⟩

/-! ### From shards to bundles -/

/-- **The shards in the order of the manifest**: no failure is added exactly if every shard opens,
and then the digest runs over the plaintexts in that order. -/
theorem verifyShards_eq_ok (shards : List ShardDescriptor) (index : ℕ) (hashed : Bytes)
    (failures : List String) :
    ∃ hashed' failures', verifyShards H disk bundleDir (some bundleKey) (fun _ ↦ false) hashed
        failures index shards = .ok (hashed', failures') ∧
      (failures' = [] ↔ failures = [] ∧ ∃ ps,
          List.Forall₂ (Opens H.toBundleHost disk bundleDir bundleKey) (shards.zipIdx index) ps) ∧
      ∀ ps, List.Forall₂ (Opens H.toBundleHost disk bundleDir bundleKey) (shards.zipIdx index) ps →
        hashed' = hashed ++ ps.flatten := by
  induction shards generalizing index hashed failures with
  | nil =>
    refine ⟨hashed, failures, rfl, ⟨fun h ↦ ⟨h, [], .nil⟩, And.left⟩, fun ps hps ↦ ?_⟩
    obtain rfl := List.forall₂_nil_left_iff.1 hps
    simp
  | cons shard shards ih =>
    rw [List.zipIdx_cons]
    rcases hcheck : checkShard H disk bundleDir index shard (some bundleKey) with problem | found
    · -- the shard does not open, and its failure stays to the end
      obtain ⟨hashed', failures', hrest, hiff, -⟩ := ih (index + 1) hashed
        (failures ++ ["shard " ++ toString index ++ " (" ++ shard.path ++ "): " ++ problem])
      have hclosed : ∀ ps, ¬List.Forall₂ (Opens H.toBundleHost disk bundleDir bundleKey)
          ((shard, index) :: shards.zipIdx (index + 1)) ps := by
        intro ps hps
        obtain ⟨p, ps, hopen, -, -⟩ := List.forall₂_cons_left_iff.1 hps
        rw [checkShard_eq_ok.2 ⟨p, rfl, hopen⟩] at hcheck
        simp at hcheck
      have hfailed : failures' ≠ [] := fun h ↦ by simpa using (hiff.1 h).1
      refine ⟨hashed', failures', ?_, ?_, fun ps hps ↦ ?_⟩
      · rw [verifyShards, if_neg (by simp), hcheck]
        exact hrest
      · exact ⟨fun h ↦ absurd h hfailed, fun ⟨_, ps, hps⟩ ↦ absurd hps (hclosed ps)⟩
      · exact absurd hps (hclosed ps)
    · obtain ⟨p, rfl, hopen⟩ := checkShard_eq_ok.1 hcheck
      obtain ⟨hashed', failures', hrest, hiff, hhashed⟩ :=
        ih (index + 1) (hashed ++ p) failures
      refine ⟨hashed', failures', ?_, ?_, fun ps hps ↦ ?_⟩
      · rw [verifyShards, if_neg (by simp), hcheck]
        exact hrest
      · rw [hiff]
        refine and_congr_right fun _ ↦ ⟨fun ⟨ps, hps⟩ ↦ ⟨p :: ps, .cons hopen hps⟩, ?_⟩
        rintro ⟨ps, hps⟩
        obtain ⟨q, qs, -, hqs, rfl⟩ := List.forall₂_cons_left_iff.1 hps
        exact ⟨qs, hqs⟩
      · obtain ⟨q, qs, hopen', hqs, rfl⟩ := List.forall₂_cons_left_iff.1 hps
        obtain rfl := opens_rightUnique hopen hopen'
        rw [hhashed qs hqs, List.flatten_cons, List.append_assoc]

/-- **The shards in the order of staging**: they are staged exactly if every one opens, and then the
file is their plaintexts in that order. -/
theorem stageShards_eq_ok {H : BundleHost} {io : StagingIo} (hread : ∀ k, io.read k = disk)
    (hwrite : ∀ k, io.write k = .ok ()) (bundleId : String) (shards : List (ShardDescriptor × ℕ))
    (written : Bytes) (k : ℕ) (staged : Bytes) :
    stageShards H io bundleId bundleDir written k shards = (staged, .ok ()) ↔
      ∃ ps, List.Forall₂ (Opens H disk bundleDir io.bundleKey) shards ps ∧
        staged = written ++ ps.flatten := by
  induction shards generalizing written k with
  | nil =>
    rw [stageShards, Prod.mk.injEq]
    constructor
    · rintro ⟨rfl, -⟩
      exact ⟨[], .nil, by simp⟩
    · rintro ⟨ps, hps, rfl⟩
      obtain rfl := List.forall₂_nil_left_iff.1 hps
      simp
  | cons shard shards ih =>
    obtain ⟨shard, index⟩ := shard
    rw [stageShards]
    rcases hstage : stageShard H io bundleId bundleDir k shard index with e | p
    · simp only [Prod.mk.injEq, reduceCtorEq, and_false, false_iff]
      rintro ⟨ps, hps, -⟩
      obtain ⟨p, ps, hopen, -, -⟩ := List.forall₂_cons_left_iff.1 hps
      rw [(stageShard_eq_ok hread).2 hopen] at hstage
      simp at hstage
    · have hopen := (stageShard_eq_ok hread).1 hstage
      simp only [hwrite]
      rw [ih]
      constructor
      · rintro ⟨ps, hps, rfl⟩
        exact ⟨p :: ps, .cons hopen hps, by simp⟩
      · rintro ⟨ps, hps, rfl⟩
        obtain ⟨q, qs, hopen', hqs, rfl⟩ := List.forall₂_cons_left_iff.1 hps
        have hsame : p = q := by
          have hq : stageShard H io bundleId bundleDir k shard index = .ok q :=
            (stageShard_eq_ok hread).2 hopen'
          exact Except.ok.inj (hstage.symm.trans hq)
        exact ⟨qs, hqs, by simp [hsame]⟩

theorem withTotalDigest_eq_nil {hashed : Bytes} {total : String} {failures : List String} :
    withTotalDigest true hashed total failures = [] ↔
      failures = [] ∧ Sha256.digestHex hashed = total := by
  rw [withTotalDigest]
  rcases failures with - | ⟨failure, failures⟩
  · by_cases htotal : Sha256.digestHex hashed = total <;> simp [htotal]
  · simp

/-- **When the verifier passes a bundle**, with the key. -/
theorem verify_eq_ok {m : BundleManifest} (hmanifest : readManifest H disk bundleDir = .ok m)
    (hvalid : m.validateStructure H.toBundleHost = .ok ()) {master : MasterKey} {principal : String}
    (hkey : master.deriveBundleKey H.hkdf m.bundleId principal = .ok bundleKey) :
    ∃ report, verify H disk bundleDir (some (master, principal)) (fun _ ↦ false) = .ok report ∧
      (report.failures = [] ↔ ∃ ps,
        List.Forall₂ (Opens H.toBundleHost disk bundleDir bundleKey) m.shards.zipIdx ps ∧
          Sha256.digestHex ps.flatten = m.totalPlaintextSha256) := by
  obtain ⟨hashed, failures, hshards, hiff, hhashed⟩ : ∃ hashed failures, verifyShards H disk
      bundleDir (some bundleKey) (fun _ ↦ false) [] [] 0 m.shards = .ok (hashed, failures) ∧ _ :=
    verifyShards_eq_ok m.shards 0 [] []
  refine ⟨⟨m.bundleId, m.shards.length, true,
    withTotalDigest true hashed m.totalPlaintextSha256 failures⟩, ?_, ?_⟩
  · simp only [verify, hmanifest, hvalid, hkey, hshards, Except.ok_bind]
    rfl
  · rw [withTotalDigest_eq_nil, hiff]
    constructor
    · rintro ⟨⟨-, ps, hps⟩, htotal⟩
      rw [hhashed ps hps] at htotal
      exact ⟨ps, hps, htotal⟩
    · rintro ⟨ps, hps, htotal⟩
      refine ⟨⟨rfl, ps, hps⟩, ?_⟩
      rw [hhashed ps hps]
      exact htotal

/-- **When a bundle is staged**, and as what. -/
theorem decryptBundle_eq_ok {H : BundleHost} {io : StagingIo} (hread : ∀ k, io.read k = disk)
    (hcreate : io.create = .ok ()) (hwrite : ∀ k, io.write k = .ok ()) (hflush : io.flush = .ok ())
    {bundleId : String} {m : BundleManifest} {staged : Bytes} :
    decryptBundle H io bundleId m bundleDir = (staged, .ok ()) ↔ ∃ ps,
      List.Forall₂ (Opens H disk bundleDir io.bundleKey) m.stagingOrder ps ∧
        Sha256.digestHex ps.flatten = m.totalPlaintextSha256 ∧ staged = ps.flatten := by
  simp only [decryptBundle, hcreate, hflush, ctEq_asBytes_iff]
  rcases hstage : stageShards H io bundleId bundleDir [] 0 m.stagingOrder with ⟨written, e | ⟨⟩⟩
  · simp only [Prod.mk.injEq, reduceCtorEq, and_false, false_iff]
    rintro ⟨ps, hps, -, -⟩
    have hok : stageShards H io bundleId bundleDir [] 0 m.stagingOrder = (ps.flatten, .ok ()) :=
      (stageShards_eq_ok hread hwrite ..).2 ⟨ps, hps, by simp⟩
    rw [hok] at hstage
    simp at hstage
  · obtain ⟨ps, hps, hwritten⟩ := (stageShards_eq_ok hread hwrite ..).1 hstage
    have hwritten : written = ps.flatten := hwritten
    simp only
    constructor
    · intro h
      split_ifs at h with htotal
      · exact ⟨ps, hps, hwritten ▸ htotal, hwritten ▸ (Prod.ext_iff.1 h).1.symm⟩
      · simp at h
    · rintro ⟨qs, hqs, htotal, rfl⟩
      obtain rfl := opens_rightUnique.forall₂ hps hqs
      rw [if_pos (hwritten ▸ htotal), hwritten]

end Shards

/-- What staging a registered bundle comes to. -/
theorem stagePlaintext_eq_ok {H : BundleHost} {store : BundleStore} {b : StoredBundle}
    {bundleId : String} (hlookup : store.bundles.lookup bundleId = some b) (now : ℤ)
    (io : StagingIo) (staged : Bytes) :
    (store.stagePlaintext H now io bundleId).2 = (staged, .ok ()) ↔
      decryptBundle H io bundleId b.manifest b.bundleDir = (staged, .ok ()) := by
  simp only [BundleStore.stagePlaintext, hlookup]
  rcases decryptBundle H io bundleId b.manifest b.bundleDir with ⟨written, e | ⟨⟩⟩
  · rfl
  · rfl

/-- A registered bundle whose files can all be written is staged exactly if its shards open in the
order of staging, to what the manifest says the model is. -/
theorem stagePlaintext_ok_iff {H : BundleHost} {store : BundleStore} {b : StoredBundle}
    {bundleId : String} (hlookup : store.bundles.lookup bundleId = some b) (now : ℤ) (disk : Disk)
    (bundleKey : Bytes) :
    (store.stagePlaintext H now ⟨bundleKey, fun _ ↦ disk, .ok (), fun _ ↦ .ok (), .ok ()⟩
        bundleId).2.2 = .ok () ↔
      ∃ qs, List.Forall₂ (Opens H disk b.bundleDir bundleKey) b.manifest.stagingOrder qs ∧
        Sha256.digestHex qs.flatten = b.manifest.totalPlaintextSha256 := by
  constructor
  · intro hok
    have hpair := (stagePlaintext_eq_ok hlookup now _ _).1 (Prod.ext rfl hok)
    obtain ⟨qs, hqs, htotal, -⟩ :=
      (decryptBundle_eq_ok (fun _ ↦ rfl) rfl (fun _ ↦ rfl) rfl).1 hpair
    exact ⟨qs, hqs, htotal⟩
  · rintro ⟨qs, hqs, htotal⟩
    have hpair : decryptBundle H ⟨bundleKey, fun _ ↦ disk, .ok (), fun _ ↦ .ok (), .ok ()⟩ bundleId
        b.manifest b.bundleDir = (qs.flatten, .ok ()) :=
      (decryptBundle_eq_ok (fun _ ↦ rfl) rfl (fun _ ↦ rfl) rfl).2 ⟨qs, hqs, htotal, rfl⟩
    exact congrArg Prod.snd ((stagePlaintext_eq_ok hlookup now _ _).2 hpair)

/-- Shards that open do so to one list of plaintexts. -/
theorem exists_opens_and_iff {H : BundleHost} {disk : Disk} {bundleDir : String} {bundleKey : Bytes}
    {shards : List (ShardDescriptor × ℕ)} {ps : List Bytes}
    (hps : List.Forall₂ (Opens H disk bundleDir bundleKey) shards ps) (P : List Bytes → Prop) :
    (∃ ps', List.Forall₂ (Opens H disk bundleDir bundleKey) shards ps' ∧ P ps') ↔ P ps := by
  refine ⟨?_, fun h ↦ ⟨ps, hps, h⟩⟩
  rintro ⟨ps', hps', h⟩
  rwa [opens_rightUnique.forall₂ hps hps']

/-! ### The two orders -/

/-- Lists of shards that open, one for one. -/
theorem exists_forall₂_iff {α β : Type} {R : α → β → Prop} {l : List α} :
    (∃ bs, List.Forall₂ R l bs) ↔ ∀ a ∈ l, ∃ b, R a b := by
  induction l with
  | nil => simp
  | cons a l ih =>
    rw [List.forall_mem_cons, ← ih]
    constructor
    · rintro ⟨bs, hbs⟩
      obtain ⟨b, bs, hb, hrest, -⟩ := List.forall₂_cons_left_iff.1 hbs
      exact ⟨⟨b, hb⟩, bs, hrest⟩
    · rintro ⟨⟨b, hb⟩, bs, hrest⟩
      exact ⟨b :: bs, .cons hb hrest⟩

/-- **When the two orders agree** about a bundle: if every shard opens, then the plaintexts in the
order of the manifest have the digest of the whole model if and only if they have it in the order of
`layer_index`. -/
def OrdersAgree (H : BundleHost) (disk : Disk) (bundleDir : String) (bundleKey : Bytes)
    (m : BundleManifest) : Prop :=
  ∀ ps qs, List.Forall₂ (Opens H disk bundleDir bundleKey) m.shards.zipIdx ps →
    List.Forall₂ (Opens H disk bundleDir bundleKey) m.stagingOrder qs →
    (Sha256.digestHex ps.flatten = m.totalPlaintextSha256 ↔
      Sha256.digestHex qs.flatten = m.totalPlaintextSha256)

/-- Where the manifest lists the shards by `layer_index`, staging takes them as they stand. -/
theorem BundleManifest.stagingOrder_of_sorted {m : BundleManifest}
    (h : m.shards.Pairwise fun a b ↦ a.layerIndex ≤ b.layerIndex) :
    m.stagingOrder = m.shards.zipIdx := by
  refine List.mergeSort_of_pairwise ?_
  have hmap : (m.shards.zipIdx.map Prod.fst).Pairwise fun a b ↦ a.layerIndex ≤ b.layerIndex := by
    rwa [List.zipIdx_map_fst]
  rw [List.pairwise_map] at hmap
  exact hmap.imp fun hle ↦ decide_eq_true hle

theorem ordersAgree_of_sorted {H : BundleHost} {disk : Disk} {bundleDir : String}
    {bundleKey : Bytes} {m : BundleManifest}
    (h : m.shards.Pairwise fun a b ↦ a.layerIndex ≤ b.layerIndex) :
    OrdersAgree H disk bundleDir bundleKey m := by
  intro ps qs hps hqs
  rw [BundleManifest.stagingOrder_of_sorted h] at hqs
  rw [opens_rightUnique.forall₂ hps hqs]

/-- **When the verifier and the serving path agree.** For every manifest that is well formed, every
set of files, every master key and principal: the verifier makes its report, and it is without
failures exactly if staging the bundle succeeds, **exactly if** the two orders agree. -/
theorem verifier_agrees_with_staging_iff (H : ProvisionHost) (disk : Disk) (bundleDir : String)
    (m : BundleManifest) (hmanifest : readManifest H disk bundleDir = .ok m)
    (hvalid : m.validateStructure H.toBundleHost = .ok ()) (master : MasterKey) (principal : String)
    (bundleKey : Bytes) (hkey : master.deriveBundleKey H.hkdf m.bundleId principal = .ok bundleKey)
    (store : BundleStore) (b : StoredBundle)
    (hregistered : store.bundles.lookup m.bundleId = some b) (hstored : b.manifest = m)
    (hdir : b.bundleDir = bundleDir) (now : ℤ) :
    ∃ report, verify H disk bundleDir (some (master, principal)) (fun _ ↦ false) = .ok report ∧
      ((report.failures = [] ↔ (store.stagePlaintext H.toBundleHost now
          ⟨bundleKey, fun _ ↦ disk, .ok (), fun _ ↦ .ok (), .ok ()⟩ m.bundleId).2.2 = .ok ()) ↔
        OrdersAgree H.toBundleHost disk bundleDir bundleKey m) := by
  obtain ⟨report, hreport, hpassed⟩ := verify_eq_ok hmanifest hvalid hkey
  refine ⟨report, hreport, ?_⟩
  have hstaged := stagePlaintext_ok_iff (H := H.toBundleHost) hregistered now disk bundleKey
  rw [hstored, hdir] at hstaged
  rw [hpassed, hstaged]
  -- the shards that are asked to open are the same ones
  have hsame : (∃ ps, List.Forall₂ (Opens H.toBundleHost disk bundleDir bundleKey)
      m.shards.zipIdx ps) ↔ ∃ qs,
      List.Forall₂ (Opens H.toBundleHost disk bundleDir bundleKey) m.stagingOrder qs := by
    rw [exists_forall₂_iff, exists_forall₂_iff, BundleManifest.stagingOrder]
    simp only [(List.mergeSort_perm _ _).mem_iff]
  by_cases hopen : ∃ ps, List.Forall₂ (Opens H.toBundleHost disk bundleDir bundleKey)
      m.shards.zipIdx ps
  · obtain ⟨qs, hqs⟩ := hsame.1 hopen
    obtain ⟨ps, hps⟩ := hopen
    rw [exists_opens_and_iff hps fun ps ↦ Sha256.digestHex ps.flatten = m.totalPlaintextSha256,
      exists_opens_and_iff hqs fun qs ↦ Sha256.digestHex qs.flatten = m.totalPlaintextSha256]
    refine ⟨fun h ps' qs' hps' hqs' ↦ ?_, fun h ↦ h ps qs hps hqs⟩
    rwa [← opens_rightUnique.forall₂ hps hps', ← opens_rightUnique.forall₂ hqs hqs']
  · -- some shard does not open: neither passes
    refine iff_of_true (iff_of_false ?_ ?_) fun ps qs hps _ ↦ absurd ⟨ps, hps⟩ hopen
    · rintro ⟨ps, hps, -⟩
      exact hopen ⟨ps, hps⟩
    · rintro ⟨qs, hqs, -⟩
      exact hopen (hsame.2 ⟨qs, hqs⟩)

/-! ### A bundle of two shards -/

namespace SampleProvision

/-- A manifest of two shards of one byte each, at the given places of the concatenation. -/
def manifest (first second : ℕ) : BundleManifest :=
  { SampleBundle.manifest with
    shards :=
      [⟨"shard-0.enc", Sha256.digestHex [97], Sha256.digestHex (97 :: List.replicate 16 0),
        "AAECAwQFBgcICQoL", 1, first⟩,
      ⟨"shard-1.enc", Sha256.digestHex [98], Sha256.digestHex (98 :: List.replicate 16 0),
        "AQIDBAUGBwgJCgsM", 1, second⟩]
    totalPlaintextSha256 := Sha256.digestHex [97, 98] }

/-- A host for two nonces and one manifest, whose cipher only adds a tag. -/
def host (first second : ℕ) : ProvisionHost where
  base64Decode s :=
    if s = "AAECAwQFBgcICQoL" then .ok [0, 1, 2, 3, 4, 5, 6, 7, 8, 9, 10, 11]
    else if s = "AQIDBAUGBwgJCgsM" then .ok [1, 2, 3, 4, 5, 6, 7, 8, 9, 10, 11, 12]
    else .error "Invalid padding"
  manifestJson _ := .ok []
  deriveShardKey key _ := .ok key
  decryptShard _ ciphertext _ :=
    if 16 ≤ ciphertext.length then some (ciphertext.take (ciphertext.length - 16)) else none
  hkdf ikm _ := .ok ikm
  base64Encode nonce :=
    if nonce.head? = some 0 then "AAECAwQFBgcICQoL" else "AQIDBAUGBwgJCgsM"
  encryptShard _ plaintext _ := .ok (plaintext ++ List.replicate 16 0)
  manifestPretty _ := .ok [123, 125]
  manifestFromStr _ := .ok (manifest first second)

/-- The files of the bundle. -/
def disk : Disk := fun path ↦
  if path = "/models/sample/manifest.json" then .file [123, 125]
  else if path = "/models/sample/shard-0.enc" then .file (97 :: List.replicate 16 0)
  else if path = "/models/sample/shard-1.enc" then .file (98 :: List.replicate 16 0)
  else .missing

/-- A store in which the bundle is registered. -/
def store (first second : ℕ) : BundleStore :=
  { SampleBundle.store with
    bundles := SampleBundle.store.bundles.insert "sample"
      (BundleStore.registered (manifest first second) SampleBundle.dir) }

/-- A staging that meets no error of the file system. -/
def staging : StagingIo :=
  ⟨[], fun _ ↦ disk, .ok (), fun _ ↦ .ok (), .ok ()⟩

theorem disk_shards : disk (UnixPath.join SampleBundle.dir "shard-0.enc") =
      .file (97 :: List.replicate 16 0) ∧
    disk (UnixPath.join SampleBundle.dir "shard-1.enc") = .file (98 :: List.replicate 16 0) := by
  decide +kernel

theorem digests_ne : Sha256.digest [97] ≠ Sha256.digest (97 :: List.replicate 16 0) ∧
    Sha256.digest [98] ≠ Sha256.digest (98 :: List.replicate 16 0) ∧
    Sha256.digest [98, 97] ≠ Sha256.digest [97, 98] := by
  decide +kernel

theorem paths_valid : validateRelativePath "shard-0.enc" "sample" = .ok () ∧
    validateRelativePath "shard-1.enc" "sample" = .ok () := by
  decide +kernel

/-- The two shards are as they should be wherever they stand. -/
theorem manifest_valid (first second : ℕ) :
    (manifest first second).validateStructure (host first second).toBundleHost = .ok () := by
  have hne : ∀ {a b : Bytes}, Sha256.digest a ≠ Sha256.digest b →
      Sha256.digestHex a ≠ Sha256.digestHex b := fun h heq ↦ h (Text.hexEncode_injective heq)
  have hfirst : decodeIv (host first second).toBundleHost "AAECAwQFBgcICQoL" = .ok _ := rfl
  have hsecond : decodeIv (host first second).toBundleHost "AQIDBAUGBwgJCgsM" = .ok _ := rfl
  have hshards : validateShards (host first second).toBundleHost "sample" 0
      (manifest first second).shards = .ok () := by
    simp only [manifest, validateShards,
      validateShard_digestHex paths_valid.1 (hne digests_ne.1) hfirst rfl,
      validateShard_digestHex paths_valid.2 (hne digests_ne.2.1) hsecond rfl, Except.ok_bind]
  have hnonces : checkNonces "sample" [] 0 (manifest first second).shards = .ok () := rfl
  have hid : (manifest first second).bundleId = "sample" := rfl
  have htotal : (manifest first second).totalPlaintextSha256 = Sha256.digestHex [97, 98] := rfl
  have hblank : Text.isBlank "sample".toList = false := by decide +kernel
  have hsafe : isSafeBundleId "sample" = true := by decide +kernel
  have halgorithm : eqIgnoreAsciiCase (manifest first second).encryptionAlgorithm
      requiredEncryptionAlgorithm = true := decide_eq_true rfl
  have hderivation : eqIgnoreAsciiCase (manifest first second).keyDerivation
      requiredKeyDerivation = true := decide_eq_true rfl
  simp only [BundleManifest.validateStructure, hid, hblank, hsafe, halgorithm, hderivation, hshards,
    hnonces, htotal, validateDigest_digestHex, Except.ok_bind]
  rfl

/-- Against the order of the manifest, staging takes the second shard first. -/
theorem stagingOrder_swapped :
    (manifest 1 0).stagingOrder = (manifest 1 0).shards.zipIdx.reverse := by
  simp [BundleManifest.stagingOrder, manifest, List.mergeSort, List.MergeSort.Internal.splitInTwo]

theorem opens_shards (first second : ℕ) :
    List.Forall₂ (Opens (host first second).toBundleHost disk SampleBundle.dir [])
      (manifest first second).shards.zipIdx [[97], [98]] := by
  refine .cons ⟨⟨_, _, _, disk_shards.1, rfl, rfl, rfl, rfl, rfl⟩, rfl⟩ ?_
  exact .cons ⟨⟨_, _, _, disk_shards.2, rfl, rfl, rfl, rfl, rfl⟩, rfl⟩ .nil

end SampleProvision

open SampleProvision in
/-- Listed in the order of `layer_index`, the two agree. -/
theorem verifier_agrees_with_staging_sorted :
    ∃ report, verify (host 0 1) disk SampleBundle.dir (some (⟨[]⟩, "operator")) (fun _ ↦ false) =
        .ok report ∧
      (report.failures = [] ↔ ((SampleProvision.store 0 1).stagePlaintext (host 0 1).toBundleHost 0
        staging "sample").2.2 = .ok ()) := by
  obtain ⟨report, hreport, hagree⟩ := verifier_agrees_with_staging_iff (host 0 1) disk
    SampleBundle.dir (SampleProvision.manifest 0 1) rfl (manifest_valid 0 1) ⟨[]⟩ "operator" [] rfl
    (SampleProvision.store 0 1) _ rfl rfl rfl 0
  refine ⟨report, hreport, hagree.2 (ordersAgree_of_sorted ?_)⟩
  show List.Pairwise _ [_, _]
  simp

open SampleProvision in
/-- **Listed against it, the verifier passes a bundle that no node can stage.** -/
theorem verifier_passes_what_staging_refuses :
    ¬∀ (H : ProvisionHost) (disk : Disk) (bundleDir : String) (m : BundleManifest),
      readManifest H disk bundleDir = .ok m → m.validateStructure H.toBundleHost = .ok () →
      ∀ (master : MasterKey) (principal : String) (bundleKey : Bytes),
        master.deriveBundleKey H.hkdf m.bundleId principal = .ok bundleKey →
        ∀ (store : BundleStore) (b : StoredBundle), store.bundles.lookup m.bundleId = some b →
          b.manifest = m → b.bundleDir = bundleDir → ∀ now : ℤ,
          ∃ report, verify H disk bundleDir (some (master, principal)) (fun _ ↦ false) =
              .ok report ∧
            (report.failures = [] ↔ (store.stagePlaintext H.toBundleHost now
              ⟨bundleKey, fun _ ↦ disk, .ok (), fun _ ↦ .ok (), .ok ()⟩ m.bundleId).2.2 =
                .ok ()) := by
  intro hall
  obtain ⟨report, hreport, hagree⟩ := hall (host 1 0) disk SampleBundle.dir
    (SampleProvision.manifest 1 0) rfl (manifest_valid 1 0) ⟨[]⟩ "operator" [] rfl
    (SampleProvision.store 1 0) _ rfl rfl rfl 0
  obtain ⟨report', hreport', hpassed⟩ := @verify_eq_ok (host 1 0) disk SampleBundle.dir []
    (SampleProvision.manifest 1 0) rfl (manifest_valid 1 0) ⟨[]⟩ "operator" rfl
  obtain rfl : report' = report := Except.ok.inj (hreport'.symm.trans hreport)
  have hstaged := hagree.1 (hpassed.2 ⟨_, opens_shards 1 0, rfl⟩)
  have hlookup : (SampleProvision.store 1 0).bundles.lookup "sample" =
      some (BundleStore.registered (SampleProvision.manifest 1 0) SampleBundle.dir) := rfl
  obtain ⟨qs, hqs, htotal⟩ := (stagePlaintext_ok_iff hlookup 0 disk []).1 hstaged
  -- the shards that staging opens are the same, the other way round
  have horder : (SampleProvision.manifest 1 0).stagingOrder.Forall₂
      (Opens (host 1 0).toBundleHost disk SampleBundle.dir []) [[98], [97]] := by
    rw [stagingOrder_swapped]
    exact List.forall₂_reverse_iff.2 (opens_shards 1 0)
  obtain rfl := opens_rightUnique.forall₂ hqs horder
  exact digests_ne.2.2 (Text.hexEncode_injective htotal)

end Cordon
