import Cordon.Core.ModelStore
import Cordon.Crypto.Signing
import Cordon.Lib.Sha256
import Cordon.Lib.Table
import Cordon.Lib.UnixPath

/-!
# Bundles and what is done to them

A bundle is a manifest and a directory of encrypted shards. `BundleStore` is the model store in
full: what `ModelStore` shows of it is what the serving gate reads (`BundleStore.gate`).

Four operations change it. `registerBundle` puts an entry in, with no verdict; `runIntegrityCheck`
hashes the shards and records a verdict; `stagePlaintext` decrypts them and records a pass;
`removeBundle` takes the entry out. A verdict is written **by identifier**, into whatever entry then
stands there, and a pass does not touch the status that a failure has set (`recordVerdict`).

What a check reads is an input: `read k path` is what the path holds when the shard at position `k`
is read, so files may change while a check runs. Base64, JSON, key derivation and AES-GCM are the
`BundleHost`.

Each operation has a specification by cases, and the results about verdicts, recoveries and stagings
are proved from these. Most of them speak of the gate alone: which bundles there are, with which
status and which verdict, and when that verdict runs out.
-/

namespace Cordon

/-! ### Manifests -/

/-- Shard descriptor in the model manifest. -/
structure ShardDescriptor where
  /-- Path to the encrypted shard, relative to the bundle directory. -/
  path : String
  plaintextSha256 : String
  ciphertextSha256 : String
  ivBase64 : String
  sizeBytes : ℕ
  /-- Shards are concatenated in this order. -/
  layerIndex : ℕ
  deriving DecidableEq

/-- Hardware requirements declared by a bundle. -/
structure HardwareRequirements where
  minGpuVramGb : ℕ
  minRamGb : ℕ
  eccMemoryRequired : Bool
  deriving DecidableEq

/-- TEE requirements declared by a bundle. -/
structure TeeRequirements where
  sgxIsvSvnMin : Option ℕ
  sevSnpApiMin : Option String
  deriving DecidableEq

/-- Minimum requirements for running a bundle. -/
structure MinimumRequirements where
  cordonVersion : String
  tee : TeeRequirements
  hardware : HardwareRequirements
  deriving DecidableEq

/-- Plaintext metadata describing an encrypted bundle. -/
structure BundleManifest where
  bundleId : String
  modelName : String
  modelVersion : String
  createdAt : ℤ
  encryptionAlgorithm : String
  keyDerivation : String
  clientKeyId : String
  shards : List ShardDescriptor
  totalPlaintextSha256 : String
  minimumRequirements : MinimumRequirements
  policyHash : String
  /-- Vendor Ed25519 signature in hexadecimal. Empty when unsigned. -/
  vendorSignature : String
  clientApprovalSignature : String
  deriving DecidableEq

/-- What the store calls that is not part of this repository. -/
structure BundleHost where
  base64Decode : String → Except String Bytes
  /-- `serde_json::to_vec` of a manifest. -/
  manifestJson : BundleManifest → Except String Bytes
  /-- The key of a shard, from the bundle's key and the shard's index. -/
  deriveShardKey : Bytes → ℕ → Except String Bytes
  /-- AES-256-GCM decryption under a key and a nonce. -/
  decryptShard : Bytes → Bytes → Bytes → Option Bytes

/-- Whether a bundle ID is safe to use as a file and directory name component. -/
def isSafeBundleId (id : String) : Bool :=
  !id.isEmpty && decide ((Text.asBytes id).length ≤ 128) && id ≠ "." && id ≠ ".." &&
    id.toList.all fun c ↦ c.isAlphanum || c = '-' || c = '_' || c = '.'

/-- The encryption algorithm a bundle must declare. -/
def requiredEncryptionAlgorithm : String :=
  "AES-256-GCM"

/-- The key-derivation algorithm a bundle must declare. -/
def requiredKeyDerivation : String :=
  "HKDF-SHA256"

/-- Whether two texts agree up to the case of ASCII letters. -/
def eqIgnoreAsciiCase (a b : String) : Bool :=
  a.toList.map Char.toLower = b.toList.map Char.toLower

/-- Whether a character is a hexadecimal digit. -/
def isAsciiHexdigit (c : Char) : Bool :=
  c.isDigit || (decide ('a' ≤ c) && decide (c ≤ 'f')) || (decide ('A' ≤ c) && decide (c ≤ 'F'))

/-- `validate_digest`. -/
def validateDigest (value what : String) : Except CordonError Unit :=
  .ensure (decide ((Text.asBytes value).length = 64) && value.toList.all isAsciiHexdigit)
    (.validationFailed (what ++ " is not a SHA-256 hex digest"))

/-- Reject shard paths that could escape the bundle directory. -/
def validateRelativePath (path bundleId : String) : Except CordonError Unit := do
  .ensure (!UnixPath.isAbsolute path)
    (.validationFailed
      ("bundle '" ++ bundleId ++ "' names an absolute shard path '" ++ path ++ "'"))
  .ensure ((UnixPath.components path).all UnixPath.Component.isNormal)
    (.validationFailed ("bundle '" ++ bundleId ++ "' shard path '" ++ path ++
      "' escapes the bundle directory"))

section Validation

variable (H : BundleHost)

/-- `decode_iv`: the twelve bytes of a nonce. -/
def decodeIv (ivBase64 : String) : Except String Bytes :=
  match H.base64Decode ivBase64 with
  | .error e => .error ("invalid base64 nonce: " ++ e)
  | .ok bytes =>
    if bytes.length = 12 then .ok bytes
    else .error ("nonce must be 12 bytes, got " ++ toString bytes.length)

/-- What is asked of one shard of a manifest. -/
def validateShard (bundleId : String) (shard : ShardDescriptor) (idx : ℕ) :
    Except CordonError Unit := do
  validateRelativePath shard.path bundleId
  validateDigest shard.plaintextSha256 ("shard " ++ toString idx ++ " plaintext")
  validateDigest shard.ciphertextSha256 ("shard " ++ toString idx ++ " ciphertext")
  .ensure (!eqIgnoreAsciiCase shard.plaintextSha256 shard.ciphertextSha256)
    (.validationFailed ("bundle '" ++ bundleId ++ "' shard " ++ toString idx ++
      " has identical plaintext and ciphertext digests; the shard is not encrypted"))
  let iv ← (decodeIv H shard.ivBase64).mapError fun e ↦
    .validationFailed ("bundle '" ++ bundleId ++ "' shard " ++ toString idx ++ ": " ++ e)
  .ensure (!iv.all fun b ↦ b = 0)
    (.validationFailed ("bundle '" ++ bundleId ++ "' shard " ++ toString idx ++
      " uses an all-zero nonce. Nonce reuse under AES-GCM is catastrophic; re-encrypt the bundle."))

/-- The shards of a manifest, each at its position. -/
def validateShards (bundleId : String) : ℕ → List ShardDescriptor → Except CordonError Unit
  | _, [] => .ok ()
  | idx, shard :: shards => do
    validateShard H bundleId shard idx
    validateShards bundleId (idx + 1) shards

/-- No nonce may be used twice; `seen` are those of the shards before. -/
def checkNonces (bundleId : String) (seen : List String) :
    ℕ → List ShardDescriptor → Except CordonError Unit
  | _, [] => .ok ()
  | idx, shard :: shards => do
    .ensure (!seen.contains shard.ivBase64)
      (.validationFailed ("bundle '" ++ bundleId ++ "' reuses a nonce at shard " ++ toString idx))
    checkNonces bundleId (shard.ivBase64 :: seen) (idx + 1) shards

/-- Reject a manifest that does not describe a genuinely encrypted bundle. -/
def BundleManifest.validateStructure (m : BundleManifest) : Except CordonError Unit := do
  .ensure (!Text.isBlank m.bundleId.toList) (.validationFailed "bundle_id must not be empty")
  .ensure (isSafeBundleId m.bundleId)
    (.validationFailed ("bundle_id '" ++ m.bundleId ++
      "' may contain only letters, digits, '.', '-' and '_'"))
  .ensure (eqIgnoreAsciiCase m.encryptionAlgorithm requiredEncryptionAlgorithm)
    (.validationFailed ("bundle '" ++ m.bundleId ++ "' declares encryption_algorithm '" ++
      m.encryptionAlgorithm ++ "'; Cordon serves only " ++ requiredEncryptionAlgorithm ++
      " bundles. Re-encrypt it with `cordon-provision encrypt`."))
  .ensure (eqIgnoreAsciiCase m.keyDerivation requiredKeyDerivation)
    (.validationFailed ("bundle '" ++ m.bundleId ++ "' declares key_derivation '" ++
      m.keyDerivation ++ "'; expected " ++ requiredKeyDerivation))
  .ensure (!m.shards.isEmpty)
    (.validationFailed ("bundle '" ++ m.bundleId ++ "' declares no shards"))
  validateShards H m.bundleId 0 m.shards
  checkNonces m.bundleId [] 0 m.shards
  validateDigest m.totalPlaintextSha256 "total_plaintext_sha256"

variable (E : Ed25519)

/-- Canonical bytes for signing: the manifest with both signature fields cleared. -/
def BundleManifest.signableBytes (m : BundleManifest) : Except CordonError Bytes :=
  (H.manifestJson { m with vendorSignature := "", clientApprovalSignature := "" }).mapError
    .internal

/-- Check one of a manifest's two signatures; `whose` names it in the errors. -/
def BundleManifest.verifySignature (m : BundleManifest) (vk : VerifyingKey)
    (signature whose : String) : Except CordonError Unit := do
  let bytes ← m.signableBytes H
  let sig ← (Signature.fromHex signature).mapError fun _ ↦
    .validationFailed ("malformed " ++ whose ++ " signature")
  (vk.verify E bytes sig).mapError fun _ ↦
    .validationFailed (whose ++ " signature invalid on bundle manifest")

/-- Verify the vendor signature. -/
def BundleManifest.verifyVendorSignature (m : BundleManifest) (vendorVk : VerifyingKey) :
    Except CordonError Unit :=
  m.verifySignature H E vendorVk m.vendorSignature "vendor"

/-- Verify the client approval signature. -/
def BundleManifest.verifyClientSignature (m : BundleManifest) (clientVk : VerifyingKey) :
    Except CordonError Unit :=
  m.verifySignature H E clientVk m.clientApprovalSignature "client approval"

end Validation

/-! ### Digests as they are written -/

theorem validateDigest_digestHex (bs : Bytes) (what : String) :
    validateDigest (Sha256.digestHex bs) what = .ok () := by
  have hdigits : ∀ c ∈ (Sha256.digestHex bs).toList, isAsciiHexdigit c = true := by
    intro c hc
    rw [Sha256.digestHex, Text.toList_hexEncode] at hc
    exact Text.forall_mem_hexChars (P := fun c ↦ isAsciiHexdigit c = true) (by decide) hc
  rw [validateDigest, Except.ensure_eq_ok, Sha256.length_asBytes_digestHex]
  simpa using hdigits

/-- Digests are written in lower case, so case is no matter. -/
theorem eqIgnoreAsciiCase_digestHex {a b : Bytes}
    (h : eqIgnoreAsciiCase (Sha256.digestHex a) (Sha256.digestHex b) = true) :
    Sha256.digestHex a = Sha256.digestHex b := by
  have hlower : ∀ bs, (Sha256.digestHex bs).toList.map Char.toLower =
      (Sha256.digestHex bs).toList := by
    intro bs
    rw [Sha256.digestHex, Text.toList_hexEncode]
    refine (List.map_congr_left fun c hc ↦ ?_).trans (List.map_id _)
    exact Text.forall_mem_hexChars (P := fun c ↦ c.toLower = c) (by decide) hc
  rw [eqIgnoreAsciiCase, decide_eq_true_eq, hlower, hlower] at h
  exact String.toList_inj.1 h

/-- A shard with the digests of two strings is as it should be if they differ, its path stays inside
and its nonce is not all zero. -/
theorem validateShard_digestHex {H : BundleHost} {bundleId path ivBase64 : String}
    {plaintext ciphertext nonce : Bytes} (hpath : validateRelativePath path bundleId = .ok ())
    (hdigests : Sha256.digestHex plaintext ≠ Sha256.digestHex ciphertext)
    (hnonce : decodeIv H ivBase64 = .ok nonce) (hzero : nonce.all (fun b ↦ b = 0) = false)
    (sizeBytes layerIndex idx : ℕ) :
    validateShard H bundleId ⟨path, Sha256.digestHex plaintext, Sha256.digestHex ciphertext,
      ivBase64, sizeBytes, layerIndex⟩ idx = .ok () := by
  have hdiffer :
      eqIgnoreAsciiCase (Sha256.digestHex plaintext) (Sha256.digestHex ciphertext) = false :=
    Bool.eq_false_iff.2 (mt eqIgnoreAsciiCase_digestHex hdigests)
  simp only [validateShard, hpath, validateDigest_digestHex, hdiffer, hnonce, hzero,
    Except.mapError, Except.ok_bind]
  rfl

/-! ### Reading shards -/

/-- What is found at a path. -/
inductive DiskFile
  | missing
  | unopenable (reason : String)
  | unreadable (reason : String)
  | file (contents : Bytes)
  deriving DecidableEq

/-- `hash_file_streaming`, and whether there is a file at all. -/
def DiskFile.hash (path : String) : DiskFile → Except CordonError (Option String)
  | .missing => .ok none
  | .unopenable reason => .error (.internal ("cannot open " ++ path ++ ": " ++ reason))
  | .unreadable reason => .error (.internal ("cannot read " ++ path ++ ": " ++ reason))
  | .file contents => .ok (some (Sha256.digestHex contents))

/-- What the paths hold when the shard at each position is read. -/
abbrev ShardReads : Type :=
  ℕ → String → DiskFile

/-- The shards of a bundle against their digests, from a position on. -/
def checkShardsFrom (read : ShardReads) (bundleDir : String) :
    ℕ → List ShardDescriptor → Except CordonError Bool
  | _, [] => .ok true
  | k, shard :: shards => do
    let path := UnixPath.join bundleDir shard.path
    match ← (read k path).hash path with
    -- a shard that is gone is a finding; one that cannot be read is an error
    | none => return false
    | some computed =>
      if ctEq (Text.asBytes computed) (Text.asBytes shard.ciphertextSha256) then
        checkShardsFrom read bundleDir (k + 1) shards
      else return false

section Operations

variable (H : BundleHost) (E : Ed25519)

/-- `ModelStore::check_shards`. -/
def checkShards (vendorVk : Option VerifyingKey) (read : ShardReads) (m : BundleManifest)
    (bundleDir : String) : Except CordonError Bool := do
  if !(← checkShardsFrom read bundleDir 0 m.shards) then return false
  match vendorVk with
  | none => return true
  | some vk =>
    match m.verifyVendorSignature H E vk with
    | .ok () => return true
    | .error _ => return false

/-! ### Staging -/

/-- What a staging works with besides the bundle: its key, the shards as they are read, and how the
file system answers. -/
structure StagingIo where
  bundleKey : Bytes
  read : ShardReads
  /-- `create_private_dir` and `create_private_file`. -/
  create : Except CordonError Unit
  /-- Writing the shard at a position. -/
  write : ℕ → Except String Unit
  flush : Except String Unit

/-- `std::fs::read` of a shard. -/
def DiskFile.contents (shardPath : String) : DiskFile → Except CordonError Bytes
  | .missing => .error (.internal
      ("cannot read shard " ++ shardPath ++ ": No such file or directory (os error 2)"))
  | .unopenable reason | .unreadable reason =>
    .error (.internal ("cannot read shard " ++ shardPath ++ ": " ++ reason))
  | .file contents => .ok contents

/-- Decrypt one shard, verifying both digests. -/
def stageShard (io : StagingIo) (bundleId bundleDir : String) (k : ℕ) (shard : ShardDescriptor)
    (index : ℕ) : Except CordonError Bytes := do
  let ciphertext ← (io.read k (UnixPath.join bundleDir shard.path)).contents shard.path
  .ensure (ctEq (Text.asBytes (Sha256.digestHex ciphertext)) (Text.asBytes shard.ciphertextSha256))
    (.modelIntegrityViolation bundleId)
  -- the index in the manifest, whatever the order of concatenation
  let shardKey ← (H.deriveShardKey io.bundleKey (index % 2 ^ 32)).mapError .keyError
  let iv ← (decodeIv H shard.ivBase64).mapError .validationFailed
  match H.decryptShard shardKey ciphertext iv with
  | none => throw (.modelIntegrityViolation bundleId)
  | some plaintext =>
    .ensure (ctEq (Text.asBytes (Sha256.digestHex plaintext)) (Text.asBytes shard.plaintextSha256))
      (.modelIntegrityViolation bundleId)
    return plaintext

/-- The shards in the order in which they are concatenated, each with its index in the manifest. -/
def BundleManifest.stagingOrder (m : BundleManifest) : List (ShardDescriptor × ℕ) :=
  m.shards.zipIdx.mergeSort fun a b ↦ decide (a.1.layerIndex ≤ b.1.layerIndex)

/-- Decrypt the shards one after the other onto what has been written. -/
def stageShards (io : StagingIo) (bundleId bundleDir : String) (written : Bytes) :
    ℕ → List (ShardDescriptor × ℕ) → Bytes × Except CordonError Unit
  | _, [] => (written, .ok ())
  | k, (shard, index) :: shards =>
    match stageShard H io bundleId bundleDir k shard index with
    | .error e => (written, .error e)
    | .ok plaintext =>
      match io.write k with
      | .error e => (written, .error (.internal ("cannot write staged weights: " ++ e)))
      | .ok () => stageShards io bundleId bundleDir (written ++ plaintext) (k + 1) shards

/-- The staged file and whether staging it went through: everything `ModelStore::stage_plaintext`
does between marking the bundle as staging and recording its verdict. -/
def decryptBundle (io : StagingIo) (bundleId : String) (m : BundleManifest) (bundleDir : String) :
    Bytes × Except CordonError Unit :=
  match io.create with
  | .error e => ([], .error e)
  | .ok () =>
    match stageShards H io bundleId bundleDir [] 0 m.stagingOrder with
    | (written, .error e) => (written, .error e)
    | (written, .ok ()) =>
      match io.flush with
      | .error e => (written, .error (.internal ("cannot flush staged weights: " ++ e)))
      | .ok () =>
        if ctEq (Text.asBytes (Sha256.digestHex written)) (Text.asBytes m.totalPlaintextSha256) then
          (written, .ok ())
        -- only here is the file removed; the errors above leave what was written
        else ([], .error (.modelIntegrityViolation bundleId))

end Operations

/-! ### The store -/

/-- `BundleEntry` in full. -/
structure StoredBundle where
  manifest : BundleManifest
  bundleDir : String
  status : BundleStatus
  verdict : Option IntegrityVerdict
  deriving DecidableEq

/-- What the gate reads of a bundle. -/
def StoredBundle.gate (b : StoredBundle) : BundleEntry :=
  ⟨b.status, b.verdict⟩

/-- `ModelStore` in full, its locks apart. -/
structure BundleStore where
  bundles : StringMap StoredBundle
  vendorVk : Option VerifyingKey
  /-- How long an integrity verdict remains usable on the serving path. -/
  verdictTtl : ℤ
  /-- It is at least a minute. -/
  verdictTtl_pos : 0 < verdictTtl

namespace BundleStore

/-- An empty store with an explicit integrity-verdict lifetime, in minutes. -/
def withVerdictTtl (vendorVk : Option VerifyingKey) (verdictTtlMinutes : ℤ) : BundleStore where
  bundles := ∅
  vendorVk := vendorVk
  verdictTtl := max verdictTtlMinutes 1 * 60000000000
  verdictTtl_pos := by
    have hle : 1 ≤ max verdictTtlMinutes 1 := le_max_right _ _
    omega

/-- **What the serving gate sees of the store.** -/
def gate (store : BundleStore) : ModelStore :=
  ⟨store.bundles.mapValues StoredBundle.gate, store.verdictTtl⟩

/-- Every registered bundle ID. -/
def bundleIds (store : BundleStore) : List String :=
  store.bundles.entries.map fun e ↦ e.1

/-- A bundle as it is when it has just been registered. -/
def registered (m : BundleManifest) (bundleDir : String) : StoredBundle :=
  ⟨m, bundleDir, .encrypted, none⟩

/-- The verdict of a check on a bundle. A failure sets the status, a pass leaves it. -/
def withVerdict (now : ℤ) (passed : Bool) (b : StoredBundle) : StoredBundle :=
  { b with
    verdict := some ⟨now, passed⟩
    status := if passed then b.status else .tampered }

/-- `ModelStore::record_verdict`. -/
def recordVerdict (store : BundleStore) (now : ℤ) (bundleId : String) (passed : Bool) :
    BundleStore :=
  { store with bundles := store.bundles.update (withVerdict now passed) bundleId }

/-- Set the status of a bundle, if it is there. -/
def setStatus (store : BundleStore) (bundleId : String) (status : BundleStatus) : BundleStore :=
  { store with bundles := store.bundles.update (fun b ↦ { b with status := status }) bundleId }

variable (H : BundleHost) (E : Ed25519)

/-- What a registration asks of a manifest. -/
def checkManifest (store : BundleStore) (m : BundleManifest) (clientVk : Option VerifyingKey) :
    Except CordonError Unit := do
  m.validateStructure H
  if let some vk := store.vendorVk then m.verifyVendorSignature H E vk
  if let some vk := clientVk then m.verifyClientSignature H E vk

/-- Register a bundle, validating its structure and any signatures first. -/
def registerBundle (store : BundleStore) (m : BundleManifest) (bundleDir : String)
    (clientVk : Option VerifyingKey) : BundleStore × Except CordonError Unit :=
  match store.checkManifest H E m clientVk with
  | .error e => (store, .error e)
  | .ok () =>
    -- an entry under the same identifier is replaced, and its verdict with it
    ({ store with bundles := store.bundles.insert m.bundleId (registered m bundleDir) }, .ok ())

/-- Verify a bundle's ciphertext against its manifest and record the verdict. -/
def runIntegrityCheck (store : BundleStore) (now : ℤ) (read : ShardReads) (bundleId : String) :
    BundleStore × Except CordonError Bool :=
  match store.bundles.lookup bundleId with
  | none => (store, .error (.modelNotFound bundleId))
  | some b =>
    match checkShards H E store.vendorVk read b.manifest b.bundleDir with
    | .error e => (store, .error e)
    | .ok passed => (store.recordVerdict now bundleId passed, .ok passed)

/-- Decrypt an entire bundle into a file the runtime can load. The file is the second part. -/
def stagePlaintext (store : BundleStore) (now : ℤ) (io : StagingIo) (bundleId : String) :
    BundleStore × Bytes × Except CordonError Unit :=
  match store.bundles.lookup bundleId with
  | none => (store, [], .error (.modelNotFound bundleId))
  | some b =>
    -- the status moves before anything is decrypted, and an error leaves it there
    let store := store.setStatus bundleId .staging
    match decryptBundle H io bundleId b.manifest b.bundleDir with
    | (written, .error e) => (store, written, .error e)
    | (written, .ok ()) =>
      ((store.recordVerdict now bundleId true).setStatus bundleId .ready, written, .ok ())

/-- Remove a bundle from the store. -/
def removeBundle (store : BundleStore) (bundleId : String) :
    BundleStore × Except CordonError Unit :=
  match store.bundles.lookup bundleId with
  | none => (store, .error (.modelNotFound bundleId))
  | some _ => ({ store with bundles := store.bundles.erase bundleId }, .ok ())

/-- Check bundles one after the other, stopping at the first that does not pass: what a recovery
does to every bundle. Each check has its own reads and records its verdict at its own time. -/
def checkAll (store : BundleStore) : List (String × ℤ × ShardReads) → BundleStore × Bool
  | [] => (store, true)
  | (bundleId, now, read) :: checks =>
    match store.runIntegrityCheck H E now read bundleId with
    | (store, .ok true) => store.checkAll checks
    | (store, _) => (store, false)

/-! ### What each operation can do -/

variable {H E} {store store' : BundleStore} {m : BundleManifest} {bundleDir id bundleId : String}
  {clientVk : Option VerifyingKey} {now : ℤ} {read : ShardReads} {io : StagingIo}

theorem registerBundle_cases {result : Except CordonError Unit}
    (h : store.registerBundle H E m bundleDir clientVk = (store', result)) :
    (∃ e, result = .error e ∧ store' = store) ∨
      result = .ok () ∧ store.checkManifest H E m clientVk = .ok () ∧
        store' = { store with
          bundles := store.bundles.insert m.bundleId (registered m bundleDir) } := by
  rcases hcheck : store.checkManifest H E m clientVk with e | ⟨⟩
  · simp only [registerBundle, hcheck, Prod.mk.injEq] at h
    exact Or.inl ⟨e, h.2.symm, h.1.symm⟩
  · simp only [registerBundle, hcheck, Prod.mk.injEq] at h
    exact Or.inr ⟨h.2.symm, rfl, h.1.symm⟩

theorem runIntegrityCheck_cases {result : Except CordonError Bool}
    (h : store.runIntegrityCheck H E now read bundleId = (store', result)) :
    (∃ e, result = .error e ∧ store' = store) ∨
      ∃ b passed, store.bundles.lookup bundleId = some b ∧
        checkShards H E store.vendorVk read b.manifest b.bundleDir = .ok passed ∧
        result = .ok passed ∧ store' = store.recordVerdict now bundleId passed := by
  rcases hlookup : store.bundles.lookup bundleId with - | b
  · simp only [runIntegrityCheck, hlookup, Prod.mk.injEq] at h
    exact Or.inl ⟨_, h.2.symm, h.1.symm⟩
  · rcases hcheck : checkShards H E store.vendorVk read b.manifest b.bundleDir with e | passed
    · simp only [runIntegrityCheck, hlookup, hcheck, Prod.mk.injEq] at h
      exact Or.inl ⟨e, h.2.symm, h.1.symm⟩
    · simp only [runIntegrityCheck, hlookup, hcheck, Prod.mk.injEq] at h
      exact Or.inr ⟨b, passed, rfl, hcheck, h.2.symm, h.1.symm⟩

/-- A check leaves the lifetime of verdicts alone. -/
theorem verdictTtl_runIntegrityCheck (store : BundleStore) (now : ℤ) (read : ShardReads)
    (bundleId : String) :
    (store.runIntegrityCheck H E now read bundleId).1.verdictTtl = store.verdictTtl := by
  rcases hcall : store.runIntegrityCheck H E now read bundleId with ⟨store', result⟩
  rcases runIntegrityCheck_cases hcall with ⟨e, -, rfl⟩ | ⟨b, passed, -, -, -, rfl⟩
  · rfl
  · rfl

/-- A staging that fails has still marked the bundle as staging. -/
theorem stagePlaintext_cases {written : Bytes} {result : Except CordonError Unit}
    (h : store.stagePlaintext H now io bundleId = (store', written, result)) :
    (∃ e, result = .error e ∧ store' = store) ∨
      ∃ b, store.bundles.lookup bundleId = some b ∧
        ((∃ e, result = .error e ∧ store' = store.setStatus bundleId .staging) ∨
          decryptBundle H io bundleId b.manifest b.bundleDir = (written, .ok ()) ∧
          result = .ok () ∧
          store' = ((store.setStatus bundleId .staging).recordVerdict now bundleId true).setStatus
            bundleId .ready) := by
  rcases hlookup : store.bundles.lookup bundleId with - | b
  · simp only [stagePlaintext, hlookup, Prod.mk.injEq] at h
    exact Or.inl ⟨_, h.2.2.symm, h.1.symm⟩
  · rcases hdecrypt : decryptBundle H io bundleId b.manifest b.bundleDir with ⟨file, e | ⟨⟩⟩
    · simp only [stagePlaintext, hlookup, hdecrypt, Prod.mk.injEq] at h
      exact Or.inr ⟨b, rfl, Or.inl ⟨e, h.2.2.symm, h.1.symm⟩⟩
    · simp only [stagePlaintext, hlookup, hdecrypt, Prod.mk.injEq] at h
      obtain ⟨rfl, rfl, rfl⟩ := h
      exact Or.inr ⟨b, rfl, Or.inr ⟨hdecrypt, rfl, rfl⟩⟩

theorem removeBundle_cases {result : Except CordonError Unit}
    (h : store.removeBundle bundleId = (store', result)) :
    (∃ e, result = .error e ∧ store' = store) ∨
      result = .ok () ∧ store' = { store with bundles := store.bundles.erase bundleId } := by
  rcases hlookup : store.bundles.lookup bundleId with - | b
  · simp only [removeBundle, hlookup, Prod.mk.injEq] at h
    exact Or.inl ⟨_, h.2.symm, h.1.symm⟩
  · simp only [removeBundle, hlookup, Prod.mk.injEq] at h
    exact Or.inr ⟨h.2.symm, h.1.symm⟩

theorem lookup_recordVerdict (store : BundleStore) (now : ℤ) (bundleId id : String)
    (passed : Bool) :
    (store.recordVerdict now bundleId passed).bundles.lookup id =
      if id = bundleId then (store.bundles.lookup id).map (withVerdict now passed)
      else store.bundles.lookup id := by
  split
  · next h => rw [h, recordVerdict, AList.lookup_update_self]
  · next h => rw [recordVerdict, AList.lookup_update_of_ne _ h]

theorem lookup_setStatus (store : BundleStore) (bundleId id : String) (status : BundleStatus) :
    (store.setStatus bundleId status).bundles.lookup id =
      if id = bundleId then (store.bundles.lookup id).map fun b ↦ { b with status := status }
      else store.bundles.lookup id := by
  split
  · next h => rw [h, setStatus, AList.lookup_update_self]
  · next h => rw [setStatus, AList.lookup_update_of_ne _ h]

/-- A bundle that has been staged is ready, with a passing verdict. -/
theorem lookup_staged (store : BundleStore) (now : ℤ) (bundleId id : String) :
    (((store.setStatus bundleId .staging).recordVerdict now bundleId true).setStatus
        bundleId .ready).bundles.lookup id =
      if id = bundleId then (store.bundles.lookup id).map fun b ↦
        { b with status := .ready, verdict := some ⟨now, true⟩ }
      else store.bundles.lookup id := by
  rw [lookup_setStatus, lookup_recordVerdict, lookup_setStatus]
  split
  · rw [Option.map_map, Option.map_map]
    rfl
  · rfl

/-- What the gate finds is the gate's view of what the store holds. -/
theorem lookup_gate (store : BundleStore) (id : String) :
    store.gate.bundles.lookup id = (store.bundles.lookup id).map StoredBundle.gate :=
  AList.lookup_mapValues _ _

theorem mem_bundleIds : id ∈ store.bundleIds ↔ ∃ b, store.bundles.lookup id = some b := by
  simp only [bundleIds, List.mem_map]
  constructor
  · rintro ⟨⟨key, b⟩, hmem, rfl⟩
    exact ⟨b, AList.mem_lookup_iff.2 hmem⟩
  · rintro ⟨b, hb⟩
    exact ⟨⟨id, b⟩, AList.mem_lookup_iff.1 hb, rfl⟩

/-- No bundle is registered twice. -/
theorem bundleIds_nodup (store : BundleStore) : store.bundleIds.Nodup :=
  store.bundles.nodupKeys

end BundleStore

/-! ### A bundle of one shard -/

namespace SampleBundle

/-- Just enough of a host for one nonce. -/
def host : BundleHost where
  base64Decode s :=
    if s = "AAECAwQFBgcICQoL" then .ok [0, 1, 2, 3, 4, 5, 6, 7, 8, 9, 10, 11]
    else .error "Invalid padding"
  manifestJson _ := .ok []
  deriveShardKey key _ := .ok key
  decryptShard _ _ _ := none

/-- A signature primitive that accepts nothing. -/
def ed25519 : Ed25519 where
  publicKey _ := []
  sign _ _ := ⟨List.replicate 64 0, Signature.length_zeros⟩
  decodePoint _ := .ok ()
  verify _ _ _ := false

/-- A manifest whose one shard is the three bytes `abc`. -/
def manifest : BundleManifest where
  bundleId := "sample"
  modelName := "Sample"
  modelVersion := "1"
  createdAt := 0
  encryptionAlgorithm := "AES-256-GCM"
  keyDerivation := "HKDF-SHA256"
  clientKeyId := "client"
  shards := [⟨"shard-0.enc",
    "e3b0c44298fc1c149afbf4c8996fb92427ae41e4649b934ca495991b7852b855",
    "ba7816bf8f01cfea414140de5dae2223b00361a396177a9cb410ff61f20015ad",
    "AAECAwQFBgcICQoL", 0, 0⟩]
  totalPlaintextSha256 := "e3b0c44298fc1c149afbf4c8996fb92427ae41e4649b934ca495991b7852b855"
  minimumRequirements := ⟨"0.1.0", ⟨none, none⟩, ⟨0, 0, false⟩⟩
  policyHash := ""
  vendorSignature := ""
  clientApprovalSignature := ""

/-- The directory it is registered with. -/
def dir : String :=
  "/models/sample"

/-- The shard as it should be. -/
def intact : ShardReads := fun _ _ ↦
  .file [97, 98, 99]

/-- The shard is gone. -/
def lost : ShardReads := fun _ _ ↦
  .missing

/-- A store without a vendor key and with a verdict lifetime of fifteen minutes. -/
def store : BundleStore :=
  .withVerdictTtl none 15

theorem checkManifest_eq : store.checkManifest host ed25519 manifest none = .ok () := by
  decide +kernel

theorem checkShards_intact :
    checkShards host ed25519 none intact manifest dir = .ok true := by
  decide +kernel

theorem checkShards_lost : checkShards host ed25519 none lost manifest dir = .ok false := by
  decide +kernel

end SampleBundle

end Cordon
