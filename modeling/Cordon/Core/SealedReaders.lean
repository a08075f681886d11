import Cordon.Audit.LifecycleJson
import Cordon.Core.SealedBundles
import Cordon.Core.SigningPayloads

/-!
# The readers of a sealed bundle

The structural check, the provisioning verifier, the integrity check and staging, each on what
`seal_into` has written. The structural check is the one with most to ask of a shard: a path inside
the bundle directory, two digests that differ, and a nonce that no other shard has. The others open
the shards, and `Opens` says what that takes.

`sealed_bundle_stages` composes them, and each of its parts rests on something else.

* The manifest is well formed because a shard has its index in its path and a nonce that no other
  has (`PiecesSealed.nonces`), which is asked of the nonces that are drawn, and because its two
  digests are those of strings of different length, which is asked of SHA-256 on these strings only.
* Every shard opens because decryption undoes encryption under the key and the nonce of its index
  (`SealedShard.opens`); the key is derived again from the index, by every reader.
* The plaintext is the files in their order because the pieces are cuts of them (`flatten_pieces`),
  and the manifest lists the shards in the order of their indices (`PiecesSealed.sorted`).
-/

namespace Cordon

/-! ### The structural check -/

theorem parts_shardPath (shardIndex : ℕ) (name : String) :
    UnixPath.parts (shardPath shardIndex name) = ["shards", shardName shardIndex name] := by
  have hlist : (shardPath shardIndex name).toList =
      "shards".toList ++ '/' :: (shardName shardIndex name).toList := by
    rw [shardPath, String.toList_append]
    rfl
  rw [UnixPath.parts, hlist, List.splitOn_append_cons_self_of_not_mem (by decide),
    List.splitOn_eq_singleton (slash_notMem_shardName shardIndex name)]
  simp

/-- The path of a shard stays inside the bundle directory. -/
theorem validateRelativePath_shardPath (shardIndex : ℕ) (name bundleId : String) :
    validateRelativePath (shardPath shardIndex name) bundleId = .ok () := by
  have hhyphen : '-' ∈ (shardName shardIndex name).toList := by
    rw [toList_shardName]
    simp
  have hname : UnixPath.component (shardName shardIndex name) =
      some (.normal (shardName shardIndex name)) := by
    have hdots : ∀ s ∈ ["", ".", ".."], shardName shardIndex name ≠ s := by
      intro s hs heq
      rw [heq] at hhyphen
      exact absurd hhyphen ((by decide : ∀ s ∈ ["", ".", ".."], '-' ∉ s.toList) s hs)
    rw [UnixPath.component, if_neg, if_neg]
    · exact hdots _ (by simp)
    · exact not_or.2 ⟨hdots _ (by simp), hdots _ (by simp)⟩
  have hcomponents : UnixPath.components (shardPath shardIndex name) =
      [.normal "shards", .normal (shardName shardIndex name)] := by
    rw [UnixPath.components, if_neg (by simp [isAbsolute_shardPath]), parts_shardPath]
    show ["shards", shardName shardIndex name].filterMap UnixPath.component = _
    rw [List.filterMap_cons_some (b := .normal "shards") (by decide),
      List.filterMap_cons_some hname, List.filterMap_nil]
  rw [validateRelativePath, isAbsolute_shardPath, hcomponents]
  rfl

section Validation

variable {H : BundleHost} {bundleId : String}

/-- What is asked of the shards, each at its position. -/
theorem validateShards_eq_ok {shards : List ShardDescriptor} {idx : ℕ} :
    validateShards H bundleId idx shards = .ok () ↔
      ∀ e ∈ shards.zipIdx idx, validateShard H bundleId e.1 e.2 = .ok () := by
  induction shards generalizing idx with
  | nil => simp [validateShards]
  | cons shard shards ih =>
    simp only [validateShards, Except.bind_eq_ok, ih, List.zipIdx_cons, List.forall_mem_cons]
    constructor
    · rintro ⟨_, hshard, hrest⟩
      exact ⟨hshard, hrest⟩
    · rintro ⟨hshard, hrest⟩
      exact ⟨(), hshard, hrest⟩

/-- Nonces are compared as they are written. -/
theorem checkNonces_eq_ok {shards : List ShardDescriptor} {seen : List String} {idx : ℕ} :
    checkNonces bundleId seen idx shards = .ok () ↔
      (shards.Pairwise fun a b ↦ a.ivBase64 ≠ b.ivBase64) ∧
        ∀ shard ∈ shards, shard.ivBase64 ∉ seen := by
  induction shards generalizing seen idx with
  | nil => simp [checkNonces]
  | cons shard shards ih =>
    rw [List.pairwise_cons, List.forall_mem_cons]
    simp only [checkNonces, Except.bind_eq_ok, Except.ensure_eq_ok, ih, List.mem_cons, not_or]
    constructor
    · rintro ⟨-, hnew, hpairs, hrest⟩
      exact ⟨⟨fun b hb ↦ Ne.symm (hrest b hb).1, hpairs⟩, by simpa using hnew,
        fun b hb ↦ (hrest b hb).2⟩
    · rintro ⟨⟨hfirst, hpairs⟩, hnew, hrest⟩
      exact ⟨(), by simpa using hnew, hpairs, fun b hb ↦ ⟨Ne.symm (hfirst b hb), hrest b hb⟩⟩

end Validation

/-! ### Identifiers -/

theorem isSafeBundleId_iff {id : String} :
    isSafeBundleId id = true ↔ (id ≠ "" ∧ (Text.asBytes id).length ≤ 128 ∧ id ≠ "." ∧ id ≠ "..") ∧
      ∀ c ∈ id.toList, c.isAlphanum = true ∨ c = '-' ∨ c = '_' ∨ c = '.' := by
  simp [isSafeBundleId, and_assoc, or_assoc]

/-- A safe identifier has no white space. -/
theorem isWhitespace_of_safe {c : Char} (h : c.isAlphanum = true ∨ c = '-' ∨ c = '_' ∨ c = '.') :
    Text.isWhitespace c = false := by
  rcases h with h | rfl | rfl | rfl
  · exact Text.isWhitespace_of_isAlphanum h
  all_goals decide

/-- A new identifier is safe. -/
theorem isSafeBundleId_display (u : Uuid) : isSafeBundleId u.display = true := by
  have hchars : ∀ c ∈ u.display.toList, c.isAlphanum = true ∨ c = '-' := by
    intro c hc
    rcases eq_or_ne c '-' with rfl | hne
    · exact Or.inr rfl
    · have hdigit : c ∈ Text.hexChars (Bytes.beBytes 16 u.value.toNat) := by
        rw [← filter_display]
        exact List.mem_filter.2 ⟨hc, decide_eq_true hne⟩
      exact Or.inl (Text.forall_mem_hexChars (P := fun c ↦ c.isAlphanum = true) (by decide) hdigit)
  have hlength : (Text.asBytes u.display).length = 36 := by
    rw [Text.asBytes, u.plain_display.length_encode, u.length_display]
  have hne : ∀ s : String, s.toList.length < 36 → u.display ≠ s := by
    rintro s hs rfl
    rw [u.length_display] at hs
    omega
  refine isSafeBundleId_iff.2 ⟨⟨hne _ (by decide), by omega, hne _ (by decide),
    hne _ (by decide)⟩, fun c hc ↦ ?_⟩
  rcases hchars c hc with h | h
  · exact Or.inl h
  · exact Or.inr (Or.inl h)

/-- The identifier of a sealing is safe: a requested one is used as it is, white space or not. -/
theorem isSafeBundleId_sealedId (request : SealRequest) (io : SealIo)
    (h : ∀ id, request.bundleId = some id → isSafeBundleId id = true) :
    isSafeBundleId (sealedId request io) = true := by
  rcases hid : request.bundleId with - | id
  · rw [sealedId, hid]
    exact isSafeBundleId_display _
  · have hsafe := h id hid
    obtain ⟨⟨hne, -⟩, hchars⟩ := isSafeBundleId_iff.1 hsafe
    have htrim : String.ofList (Text.trim id.toList) = id := by
      rw [Text.trim_eq_self fun c hc ↦ isWhitespace_of_safe (hchars c hc), String.ofList_toList]
    have hkept : sealedId request io = id := by
      rw [sealedId, hid, Option.map_some, htrim, Option.filter_some, if_pos (by simpa using hne),
        Option.getD_some]
    rw [hkept]
    exact hsafe

/-! ### What is sealed is valid and opens -/

section Sealed

variable (H : ProvisionHost) (io : SealIo) (bundleKey : Bytes)

/-- The strings whose digests a manifest holds: the pieces and their ciphertexts. -/
def sealedStrings (ps : List Bytes) : Set Bytes :=
  {b | b ∈ ps ∨ ∃ i p key, ps[i]? = some p ∧ H.deriveShardKey bundleKey i = .ok key ∧
    H.encryptShard key p (io.nonce i) = .ok b}

variable {H io bundleKey} {request : SealRequest} {st : SealState} {ps : List Bytes} {i : ℕ}
  {p : Bytes} {name : String} {key ciphertext : Bytes}

/-- **A sealed shard passes the structural check.** Its digests differ because its ciphertext is
longer. -/
theorem SealedShard.validateShard_eq_ok
    (h : SealedShard H request io bundleKey st i p name key ciphertext) (hp : ps[i]? = some p)
    (hcrypto : H.Encrypts request.shardSize) (hfresh : io.Fresh H ps.length)
    (hhash : Sha256.CollisionFreeOn (sealedStrings H io bundleKey ps))
    (hsize : p.length ≤ request.shardSize) (bundleId : String) :
    validateShard H.toBundleHost bundleId (shardDescriptor H i name p ciphertext (io.nonce i)) i =
      .ok () := by
  obtain ⟨hi, -⟩ := List.getElem?_eq_some_iff.1 hp
  obtain ⟨ciphertext', hencrypt, hlength, -⟩ :=
    hcrypto.encryptShard key p (io.nonce i) hsize (hfresh.length i)
  obtain rfl : ciphertext = ciphertext' := Except.ok.inj (h.encrypted.symm.trans hencrypt)
  have hdigests : Sha256.digestHex p ≠ Sha256.digestHex ciphertext := by
    intro heq
    have hsame := hhash.eq_of_digestHex (Or.inl (List.mem_of_getElem? hp))
      (Or.inr ⟨i, p, key, hp, h.derived, h.encrypted⟩) heq
    rw [← hsame] at hlength
    omega
  have hnonce : decodeIv H.toBundleHost (H.base64Encode (io.nonce i)) = .ok (io.nonce i) :=
    decodeIv_eq_ok.2 ⟨hfresh.base64 i hi, hfresh.length i⟩
  have hzero : (io.nonce i).all (fun b ↦ b = 0) = false := by
    obtain ⟨b, hb, hne⟩ := hfresh.nonzero i hi
    exact List.all_eq_false.2 ⟨b, hb, by simpa using hne⟩
  exact validateShard_digestHex (validateRelativePath_shardPath _ _ _) hdigests hnonce hzero _ _ _

/-- **A sealed shard opens** to its piece. -/
theorem SealedShard.opens (h : SealedShard H request io bundleKey st i p name key ciphertext)
    (hp : ps[i]? = some p) (hcrypto : H.Encrypts request.shardSize) (hfresh : io.Fresh H ps.length)
    (hcount : ps.length ≤ 2 ^ 32) (hsize : p.length ≤ request.shardSize) {disk : Disk}
    (hdisk : disk (UnixPath.join request.output (shardPath i name)) = .file ciphertext) :
    Opens H.toBundleHost disk request.output bundleKey
      (shardDescriptor H i name p ciphertext (io.nonce i), i) p := by
  obtain ⟨hi, -⟩ := List.getElem?_eq_some_iff.1 hp
  obtain ⟨ciphertext', hencrypt, -, hdecrypt⟩ :=
    hcrypto.encryptShard key p (io.nonce i) hsize (hfresh.length i)
  obtain rfl : ciphertext = ciphertext' := Except.ok.inj (h.encrypted.symm.trans hencrypt)
  refine ⟨⟨ciphertext, key, io.nonce i, hdisk, rfl, ?_, hfresh.base64 i hi, hfresh.length i,
    hdecrypt⟩, rfl⟩
  rw [Nat.mod_eq_of_lt (by omega)]
  exact h.derived

/-- Every entry of the manifest is that of a sealed piece. -/
theorem PiecesSealed.of_entry (h : PiecesSealed H request io bundleKey st ps)
    {shard : ShardDescriptor} (hshard : st.shards[i]? = some shard) :
    ∃ p name key ciphertext, ps[i]? = some p ∧
      SealedShard H request io bundleKey st i p name key ciphertext ∧
      shard = shardDescriptor H i name p ciphertext (io.nonce i) := by
  obtain ⟨hi, -⟩ := List.getElem?_eq_some_iff.1 hshard
  rw [h.length_shards] at hi
  obtain ⟨name, key, ciphertext, hsealed⟩ := h.shard i _ (List.getElem?_eq_getElem hi)
  exact ⟨_, name, key, ciphertext, List.getElem?_eq_getElem hi, hsealed,
    Option.some.inj (hshard.symm.trans hsealed.entry)⟩

/-- The shards are listed in the order of their indices. -/
theorem PiecesSealed.sorted (h : PiecesSealed H request io bundleKey st ps) :
    st.shards.Pairwise fun a b ↦ a.layerIndex ≤ b.layerIndex := by
  refine List.pairwise_iff_getElem.2 fun i j hi hj hij ↦ ?_
  obtain ⟨_, _, _, _, -, -, hfirst⟩ := h.of_entry (List.getElem?_eq_getElem hi)
  obtain ⟨_, _, _, _, -, -, hsecond⟩ := h.of_entry (List.getElem?_eq_getElem hj)
  rw [hfirst, hsecond]
  exact hij.le

/-- No two shards have the same nonce. -/
theorem PiecesSealed.nonces (h : PiecesSealed H request io bundleKey st ps)
    (hfresh : io.Fresh H ps.length) :
    st.shards.Pairwise fun a b ↦ a.ivBase64 ≠ b.ivBase64 := by
  refine List.pairwise_iff_getElem.2 fun i j hi hj hij hsame ↦ ?_
  obtain ⟨_, _, _, _, -, -, hfirst⟩ := h.of_entry (List.getElem?_eq_getElem hi)
  obtain ⟨_, _, _, _, -, -, hsecond⟩ := h.of_entry (List.getElem?_eq_getElem hj)
  rw [h.length_shards] at hi hj
  have hencoded : H.base64Encode (io.nonce i) = H.base64Encode (io.nonce j) := by
    rw [hfirst, hsecond] at hsame
    exact hsame
  have hdecoded := hfresh.base64 i hi
  rw [hencoded, hfresh.base64 j hj] at hdecoded
  exact absurd (hfresh.distinct j hj i hi (Except.ok.inj hdecoded)) hij.ne'

/-- **The manifest of a sealing is well formed.** -/
theorem PiecesSealed.validateStructure_eq_ok (h : PiecesSealed H request io bundleKey st ps)
    (hcrypto : H.Encrypts request.shardSize) (hfresh : io.Fresh H ps.length)
    (hhash : Sha256.CollisionFreeOn (sealedStrings H io bundleKey ps))
    (hsize : ∀ p ∈ ps, p.length ≤ request.shardSize) (hne : ps ≠ [])
    (hid : isSafeBundleId (sealedId request io) = true) (principal modelName : String) :
    (sealedManifest request io principal modelName st).validateStructure H.toBundleHost =
      .ok () := by
  have hblank : Text.isBlank (sealedId request io).toList = false := by
    obtain ⟨⟨hempty, -⟩, hchars⟩ := isSafeBundleId_iff.1 hid
    obtain ⟨c, cs, hcs⟩ := List.exists_cons_of_ne_nil fun hnil ↦
      hempty (String.toList_eq_nil_iff.1 hnil)
    have hc := isWhitespace_of_safe (hchars c (by rw [hcs]; exact List.mem_cons_self))
    rw [hcs, Text.isBlank, List.all_cons, hc, Bool.false_and]
  have hshards : validateShards H.toBundleHost (sealedId request io) 0 st.shards = .ok () := by
    refine validateShards_eq_ok.2 ?_
    rintro ⟨shard, i⟩ he
    obtain ⟨p, name, key, ciphertext, hp, hsealed, rfl⟩ :=
      h.of_entry (List.mk_mem_zipIdx_iff_getElem?.1 he)
    exact hsealed.validateShard_eq_ok hp hcrypto hfresh hhash (hsize p (List.mem_of_getElem? hp)) _
  have hnonces : checkNonces (sealedId request io) [] 0 st.shards = .ok () :=
    checkNonces_eq_ok.2 ⟨h.nonces hfresh, by simp⟩
  have hsome : st.shards.isEmpty = false := by
    rw [List.isEmpty_eq_false_iff, ← List.length_pos_iff, h.length_shards]
    exact List.length_pos_iff.2 hne
  have halgorithm : eqIgnoreAsciiCase requiredEncryptionAlgorithm requiredEncryptionAlgorithm :=
    decide_eq_true rfl
  have hderivation : eqIgnoreAsciiCase requiredKeyDerivation requiredKeyDerivation :=
    decide_eq_true rfl
  simp only [BundleManifest.validateStructure, sealedManifest, hblank, hid, hshards, hnonces, hsome,
    halgorithm, hderivation, validateDigest_digestHex, Except.ok_bind]
  rfl

/-- **Every shard of a sealing opens**, as long as its file is there. -/
theorem PiecesSealed.opens (h : PiecesSealed H request io bundleKey st ps)
    (hcrypto : H.Encrypts request.shardSize) (hfresh : io.Fresh H ps.length)
    (hcount : ps.length ≤ 2 ^ 32) (hsize : ∀ p ∈ ps, p.length ≤ request.shardSize) {disk : Disk}
    (hdisk : ∀ i name, disk (UnixPath.join request.output (shardPath i name)) =
      st.disk (UnixPath.join request.output (shardPath i name))) :
    List.Forall₂ (Opens H.toBundleHost disk request.output bundleKey) st.shards.zipIdx ps := by
  refine List.forall₂_iff_get.2 ⟨by simp [h.length_shards], fun i hi hi' ↦ ?_⟩
  have hlt : i < st.shards.length := by simpa using hi
  obtain ⟨p, name, key, ciphertext, hp, hsealed, hshard⟩ :=
    h.of_entry (List.getElem?_eq_getElem hlt)
  have hpiece : ps.get ⟨i, hi'⟩ = p :=
    Option.some.inj ((List.getElem?_eq_getElem hi').symm.trans hp)
  have hentry : st.shards.zipIdx.get ⟨i, hi⟩ =
      (shardDescriptor H i name p ciphertext (io.nonce i), i) := by
    rw [← hshard]
    simp
  rw [hpiece, hentry]
  exact hsealed.opens hp hcrypto hfresh hcount (hsize p (List.mem_of_getElem? hp))
    ((hdisk i name).trans hsealed.file)

end Sealed

/-! ### From weights to weights -/

/-- The integrity check passes where every shard opens. -/
theorem checkShardsFrom_of_opens {H : BundleHost} {disk : Disk} {bundleDir : String}
    {bundleKey : Bytes} {shards : List ShardDescriptor} {ps : List Bytes} {k : ℕ}
    (h : List.Forall₂ (Opens H disk bundleDir bundleKey) (shards.zipIdx k) ps) :
    checkShardsFrom (fun _ ↦ disk) bundleDir k shards = .ok true := by
  induction shards generalizing k ps with
  | nil => rfl
  | cons shard shards ih =>
    rw [List.zipIdx_cons] at h
    obtain ⟨p, ps, hopen, hrest, rfl⟩ := List.forall₂_cons_left_iff.1 h
    obtain ⟨⟨ciphertext, shardKey, nonce, hfile, hdigest, -⟩, -⟩ := hopen
    have hfile : disk (UnixPath.join bundleDir shard.path) = .file ciphertext := hfile
    have hsame : ctEq (Text.asBytes (Sha256.digestHex ciphertext))
        (Text.asBytes shard.ciphertextSha256) = true :=
      ctEq_asBytes_iff.2 hdigest
    simp only [checkShardsFrom, hfile, DiskFile.hash, Except.ok_bind, hsame, if_true]
    exact ih hrest

section RoundTrip

variable {H : ProvisionHost} {request : SealRequest} {io : SealIo} {principal modelName : String}
  {files : List WeightFile} {disk : Disk} {bundleKey : Bytes}

/-- The pieces are what the files hold, one after the other. -/
theorem flatten_pieces {shardSize : ℕ} (hsize : 0 < shardSize) (files : List WeightFile) :
    (pieces shardSize files).flatten = files.flatMap WeightFile.contents := by
  induction files with
  | nil => rfl
  | cons file files ih =>
    have hpieces : pieces shardSize (file :: files) =
        Chunks.cut shardSize file.contents ++ pieces shardSize files := rfl
    rw [hpieces, List.flatten_append, Chunks.flatten_cut hsize, ih, List.flatMap_cons]

theorem length_le_of_mem_pieces {shardSize : ℕ} {files : List WeightFile} {p : Bytes}
    (h : p ∈ pieces shardSize files) : p.length ≤ shardSize := by
  obtain ⟨file, -, hmem⟩ := List.mem_flatMap.1 h
  exact (Chunks.length_of_mem_cut hmem).2

/-- **The shards are written and the manifest is accepted.** -/
theorem sealContents_eq_ok (hsize : 0 < request.shardSize)
    (hid : ∀ id, request.bundleId = some id → isSafeBundleId id = true)
    (hfiles : ∃ file ∈ files, file.contents ≠ [])
    (hcount : (pieces request.shardSize files).length < 2 ^ 32) (hio : io.Clean)
    (hcrypto : H.Encrypts request.shardSize)
    (hfresh : io.Fresh H (pieces request.shardSize files).length)
    (hkey : request.master.deriveBundleKey H.hkdf (sealedId request io) principal = .ok bundleKey)
    (hhash : Sha256.CollisionFreeOn
      (sealedStrings H io bundleKey (pieces request.shardSize files))) :
    ∃ st, sealContents H request io principal modelName files disk =
        .ok (sealedManifest request io principal modelName st, st.disk) ∧
      PiecesSealed H request io bundleKey st (pieces request.shardSize files) ∧
      (sealedManifest request io principal modelName st).validateStructure H.toBundleHost =
        .ok () := by
  have hempty : PiecesSealed H request io bundleKey ⟨disk, [], [], 0, 0⟩ [] :=
    ⟨rfl, rfl, rfl, fun i p hp ↦ by simp at hp⟩
  obtain ⟨st, hst, hsealed⟩ :=
    hempty.sealFiles hio hcrypto hfresh.length hsize files 0 (by rw [List.length_nil]; omega)
  rw [List.nil_append] at hsealed
  have hne : pieces request.shardSize files ≠ [] := by
    obtain ⟨file, hmem, hcontents⟩ := hfiles
    intro hnil
    have hflat := flatten_pieces hsize files
    rw [hnil, List.flatten_nil] at hflat
    exact hcontents (List.flatMap_eq_nil_iff.1 hflat.symm file hmem)
  have hsafe := isSafeBundleId_sealedId request io hid
  have hvalid := hsealed.validateStructure_eq_ok hcrypto hfresh hhash
    (fun p ↦ length_le_of_mem_pieces) hne hsafe principal modelName
  refine ⟨st, ?_, hsealed, hvalid⟩
  simp only [sealContents, hsafe, hkey, hio.createDir, hst, hvalid, Except.mapError, Except.ok_bind]
  rfl

/-- The manifest comes from the shards. -/
theorem sealContents_manifest {m : BundleManifest} {written : Disk}
    (h : sealContents H request io principal modelName files disk = .ok (m, written)) :
    ∃ bundleKey st, request.master.deriveBundleKey H.hkdf (sealedId request io) principal =
        .ok bundleKey ∧
      sealFiles H request io bundleKey 0 files ⟨disk, [], [], 0, 0⟩ = .ok st ∧
      m = sealedManifest request io principal modelName st := by
  simp only [sealContents, Except.bind_eq_ok, Except.mapError_eq_ok] at h
  obtain ⟨-, -, bundleKey, hkey, h⟩ := h
  rcases hdir : io.createDir with - | e
  · simp only [hdir, Except.bind_eq_ok, Except.pure_eq_ok, Prod.mk.injEq] at h
    obtain ⟨st, hst, -, -, rfl, -⟩ := h
    exact ⟨bundleKey, st, hkey, hst, rfl⟩
  · simp [hdir] at h

/-- What sealing relies on of the serializer: a manifest is read back as it was written. -/
def ProvisionHost.ReadsBack (H : ProvisionHost) (m : BundleManifest) : Prop :=
  ∃ text, H.manifestPretty m = .ok (Utf8.encode text) ∧
    H.manifestFromStr (String.ofList text) = .ok m

/-- The files of a bundle once its manifest is in place. -/
def withManifest (disk : Disk) (output : String) (bytes : Bytes) : Disk :=
  Function.update (Function.update disk (UnixPath.join output "manifest.json.tmp") .missing)
    (UnixPath.join output "manifest.json") (.file bytes)

/-- Writing the manifest leaves the shards alone. -/
theorem withManifest_shardPath (disk : Disk) (output : String) (bytes : Bytes) (i : ℕ)
    (name : String) :
    withManifest disk output bytes (UnixPath.join output (shardPath i name)) =
      disk (UnixPath.join output (shardPath i name)) := by
  have hslash : '/' ∈ (shardPath i name).toList := by
    rw [shardPath, String.toList_append]
    exact List.mem_append_left _ (by decide)
  have hne : ∀ file ∈ ["manifest.json", "manifest.json.tmp"],
      UnixPath.join output (shardPath i name) ≠ UnixPath.join output file := by
    intro file hfile hpath
    have hrelative : ∀ file ∈ ["manifest.json", "manifest.json.tmp"],
        UnixPath.isAbsolute file = false ∧ '/' ∉ file.toList := by decide
    obtain ⟨hfileRelative, hnone⟩ := hrelative file hfile
    rw [UnixPath.join_inj (isAbsolute_shardPath i name) hfileRelative hpath] at hslash
    exact hnone hslash
  rw [withManifest, Function.update_of_ne (hne _ (by simp)),
    Function.update_of_ne (hne _ (by simp))]

theorem sealInto_eq_ok {m : BundleManifest} {written : Disk} {bytes : Bytes} (hio : io.Clean)
    (hcontents : sealContents H request io principal modelName files disk = .ok (m, written))
    (hpretty : H.manifestPretty m = .ok bytes) :
    sealInto H request io principal modelName files disk =
      .ok (m, withManifest written request.output bytes) := by
  simp only [sealInto, hcontents, hpretty, hio.createManifest, hio.writeManifest,
    hio.renameManifest, Except.mapError, Except.ok_bind]
  rfl

theorem readManifest_withManifest {m : BundleManifest} {text : List Char}
    (hread : H.manifestFromStr (String.ofList text) = .ok m) (output : String) :
    readManifest H (withManifest disk output (Utf8.encode text)) output = .ok m := by
  have hfile : withManifest disk output (Utf8.encode text) (UnixPath.join output "manifest.json") =
      .file (Utf8.encode text) := Function.update_self ..
  simp only [readManifest, hfile, Utf8.decode_encode, hread]
  rfl

end RoundTrip

/-- A bundle whose shards open in the order of the manifest, to the plaintext it promises, stages to
that plaintext. -/
theorem stagePlaintext_of_opens {H : BundleHost} {current : BundleStore} {b : StoredBundle}
    {bundleId : String} {disk : Disk} {bundleKey : Bytes} {ps : List Bytes}
    (hlookup : current.bundles.lookup bundleId = some b)
    (hsorted : b.manifest.shards.Pairwise fun a b ↦ a.layerIndex ≤ b.layerIndex)
    (hopens : List.Forall₂ (Opens H disk b.bundleDir bundleKey) b.manifest.shards.zipIdx ps)
    (htotal : Sha256.digestHex ps.flatten = b.manifest.totalPlaintextSha256) (stagedAt : ℤ) :
    (current.stagePlaintext H stagedAt
      ⟨bundleKey, fun _ ↦ disk, .ok (), fun _ ↦ .ok (), .ok ()⟩ bundleId).2 =
        (ps.flatten, .ok ()) := by
  refine (stagePlaintext_eq_ok hlookup stagedAt _ _).2 ?_
  refine (decryptBundle_eq_ok (fun _ ↦ rfl) rfl (fun _ ↦ rfl) rfl).2 ⟨ps, ?_, htotal, rfl⟩
  rw [BundleManifest.stagingOrder_of_sorted hsorted]
  exact hopens

/-- **Sealing and staging returns the model.** Whatever the weight files are, as long as they are
not all empty, whatever the shard size and however the reads are split: sealing succeeds, the
manifest is well formed, the verifier has no failure to report, and a node that asks for no
signature registers the bundle, finds it intact and stages exactly the weight files in their
order, whether or not it has been checked before. -/
theorem sealed_bundle_stages (H : ProvisionHost) (E : Ed25519) (request : SealRequest) (io : SealIo)
    (principal modelName : String) (files : List WeightFile) (disk : Disk) (bundleKey : Bytes)
    (hsize : 0 < request.shardSize)
    (hid : ∀ id, request.bundleId = some id → isSafeBundleId id = true)
    (hfiles : ∃ file ∈ files, file.contents ≠ [])
    (hcount : (pieces request.shardSize files).length < 2 ^ 32) (hio : io.Clean)
    (hcrypto : H.Encrypts request.shardSize)
    (hfresh : io.Fresh H (pieces request.shardSize files).length)
    (hkey : request.master.deriveBundleKey H.hkdf (sealedId request io) principal = .ok bundleKey)
    (hhash : Sha256.CollisionFreeOn
      (sealedStrings H io bundleKey (pieces request.shardSize files)))
    (hjson : ∀ m written,
      sealContents H request io principal modelName files disk = .ok (m, written) →
        H.ReadsBack m) :
    ∃ m sealed, sealInto H request io principal modelName files disk = .ok (m, sealed) ∧
      m.validateStructure H.toBundleHost = .ok () ∧
      (∃ report, verify H sealed request.output (some (request.master, principal)) (fun _ ↦ false) =
        .ok report ∧ report.failures = []) ∧
      ∀ store : BundleStore, store.vendorVk = none → ∃ registered,
        store.registerBundle H.toBundleHost E m request.output none = (registered, .ok ()) ∧
        ∀ checkedAt stagedAt, ∃ checked,
          registered.runIntegrityCheck H.toBundleHost E checkedAt (fun _ ↦ sealed) m.bundleId =
            (checked, .ok true) ∧
          ∀ current ∈ [registered, checked], (current.stagePlaintext H.toBundleHost stagedAt
              ⟨bundleKey, fun _ ↦ sealed, .ok (), fun _ ↦ .ok (), .ok ()⟩ m.bundleId).2 =
            (files.flatMap WeightFile.contents, .ok ()) := by
  obtain ⟨st, hcontents, hsealed, hvalid⟩ :=
    sealContents_eq_ok hsize hid hfiles hcount hio hcrypto hfresh hkey hhash
  obtain ⟨text, hpretty, hread⟩ := hjson _ _ hcontents
  set m := sealedManifest request io principal modelName st with hm
  set sealed := withManifest st.disk request.output (Utf8.encode text) with hsealedDisk
  have hopens : List.Forall₂ (Opens H.toBundleHost sealed request.output bundleKey)
      m.shards.zipIdx (pieces request.shardSize files) :=
    hsealed.opens hcrypto hfresh hcount.le (fun p ↦ length_le_of_mem_pieces)
      (withManifest_shardPath _ _ _)
  have htotal : Sha256.digestHex (pieces request.shardSize files).flatten =
      m.totalPlaintextSha256 := by
    rw [← hsealed.hashed, hm]
    rfl
  refine ⟨m, sealed, sealInto_eq_ok hio hcontents hpretty, hvalid, ?_, fun store hvendor ↦ ?_⟩
  · obtain ⟨report, hreport, hpassed⟩ :=
      verify_eq_ok (readManifest_withManifest hread request.output) hvalid hkey
    exact ⟨report, hreport, hpassed.2 ⟨_, hopens, htotal⟩⟩
  · have hcheck : store.checkManifest H.toBundleHost E m none = .ok () := by
      simp only [BundleStore.checkManifest, hvalid, hvendor, Except.ok_bind]
      rfl
    refine ⟨_, by rw [BundleStore.registerBundle, hcheck], fun checkedAt stagedAt ↦ ?_⟩
    set registered : BundleStore := { store with
      bundles := store.bundles.insert m.bundleId (BundleStore.registered m request.output) }
    have hlookup : registered.bundles.lookup m.bundleId =
        some (BundleStore.registered m request.output) := AList.lookup_insert _
    have hintact : checkShards H.toBundleHost E registered.vendorVk (fun _ ↦ sealed) m
        request.output = .ok true := by
      have hkeys : registered.vendorVk = none := hvendor
      simp only [checkShards, checkShardsFrom_of_opens hopens, Except.ok_bind, hkeys]
      rfl
    refine ⟨registered.recordVerdict checkedAt m.bundleId true, ?_, fun current hcurrent ↦ ?_⟩
    · simp only [BundleStore.runIntegrityCheck, hlookup, BundleStore.registered, hintact]
    · rw [← flatten_pieces hsize files]
      rcases List.mem_pair.1 hcurrent with rfl | rfl
      · exact stagePlaintext_of_opens hlookup hsealed.sorted hopens htotal stagedAt
      · have hchecked : (registered.recordVerdict checkedAt m.bundleId true).bundles.lookup
            m.bundleId = some (BundleStore.withVerdict checkedAt true
              (BundleStore.registered m request.output)) := by
          rw [BundleStore.lookup_recordVerdict, if_pos rfl, hlookup, Option.map_some]
        exact stagePlaintext_of_opens hchecked hsealed.sorted hopens htotal stagedAt

/-! ### A file of two shards -/

namespace SampleSeal

/-- The key of the operator, which is also that of the bundle. -/
def key : Bytes :=
  List.replicate 32 7

def request : SealRequest :=
  ⟨⟨key⟩, some "sample", "1.0", "/models/sample", 4⟩

def files : List WeightFile :=
  [⟨"/weights/model.bin", some "model.bin", [97, 98, 99, 100, 101]⟩]

/-- A text and the tag that the cipher adds. -/
def tagged (plaintext : Bytes) : Bytes :=
  plaintext ++ List.replicate 16 0

def io : SealIo where
  generatedId := ⟨0⟩
  createDir := none
  openFile _ := none
  cancelled _ := false
  read _ := .ok 1
  nonce i :=
    if i = 0 then [0, 1, 2, 3, 4, 5, 6, 7, 8, 9, 10, 11]
    else [1, 2, 3, 4, 5, 6, 7, 8, 9, 10, 11, 12]
  writeShard _ := none
  now := 0
  createManifest := none
  writeManifest := none
  renameManifest := none

/-- The entry of a shard in the manifest. -/
def entry (i : ℕ) (plaintext : Bytes) : ShardDescriptor :=
  shardDescriptor (SampleProvision.host 0 1) i "model.bin" plaintext (tagged plaintext) (io.nonce i)

/-- The manifest that sealing the file comes to. -/
def manifest : BundleManifest :=
  sealedManifest request io "operator" "model" ⟨fun _ ↦ .missing,
    [entry 0 [97, 98, 99, 100], entry 1 [101]], [97, 98, 99, 100, 101], 2, 0⟩

/-- A host whose cipher only adds a tag and whose serializer knows one manifest. -/
def host : ProvisionHost :=
  { SampleProvision.host 0 1 with manifestFromStr := fun _ ↦ .ok manifest }

theorem pieces_eq : pieces request.shardSize files = [[97, 98, 99, 100], [101]] := by
  rw [pieces, files, List.flatMap_singleton, Chunks.cut_of_ne_nil (by decide) (by decide)]
  exact congrArg _ (Chunks.cut_of_short (by decide) (by decide))

theorem clean : io.Clean :=
  ⟨rfl, fun _ ↦ rfl, fun _ ↦ rfl, fun _ ↦ ⟨1, rfl⟩, fun _ ↦ rfl, rfl, rfl, rfl⟩

theorem encrypts : host.Encrypts request.shardSize := by
  refine ⟨fun key _ ↦ ⟨key, rfl⟩, fun key plaintext nonce _ _ ↦ ?_⟩
  refine ⟨tagged plaintext, rfl, by simp [tagged], ?_⟩
  show (if 16 ≤ (tagged plaintext).length then _ else _) = _
  rw [if_pos (by simp [tagged])]
  simp [tagged]

/-- The two nonces are distinct and read back as they were written. -/
theorem fresh : io.Fresh host (pieces request.shardSize files).length := by
  have hcases : ∀ i < 2, i = 0 ∨ i = 1 := by omega
  rw [pieces_eq]
  refine ⟨fun i ↦ ?_, fun i hi j hj h ↦ ?_, fun i hi ↦ ?_, fun i hi ↦ ?_⟩
  · simp only [io]
    split <;> rfl
  · rcases hcases i hi with rfl | rfl <;> rcases hcases j hj with rfl | rfl
    · rfl
    · exact absurd h (by decide)
    · exact absurd h (by decide)
    · rfl
  · rcases hcases i hi with rfl | rfl <;> exact ⟨1, by decide, by decide⟩
  · rcases hcases i hi with rfl | rfl <;> rfl

/-- The strings hashed for the manifest have distinct digests. -/
theorem digests_nodup : ([[97, 98, 99, 100], [101], tagged [97, 98, 99, 100],
    tagged [101]].map Sha256.digest).Nodup := by
  decide +kernel

theorem collisionFree :
    Sha256.CollisionFreeOn (sealedStrings host io key (pieces request.shardSize files)) := by
  have hstrings : ∀ b ∈ sealedStrings host io key (pieces request.shardSize files),
      b ∈ [[97, 98, 99, 100], [101], tagged [97, 98, 99, 100], tagged [101]] := by
    rw [pieces_eq]
    rintro b (hb | ⟨i, p, shardKey, hp, -, hb⟩)
    · exact List.mem_append_left _ hb
    · obtain rfl : tagged p = b := Except.ok.inj hb
      rcases List.mem_pair.1 (List.mem_of_getElem? hp) with rfl | rfl <;> simp
  exact fun x hx y hy hxy ↦
    List.inj_on_of_nodup_map digests_nodup (hstrings x hx) (hstrings y hy) hxy

/-- A file of five bytes is a shard of four bytes and one of one byte. -/
theorem sealFiles_eq (disk : Disk) :
    ∃ st, sealFiles host request io key 0 files ⟨disk, [], [], 0, 0⟩ = .ok st ∧
      sealedManifest request io "operator" "model" st = manifest := by
  obtain ⟨reads, hfirst⟩ : ∃ reads, fillBuffer request io "/weights/model.bin"
      [97, 98, 99, 100, 101] 0 = _ :=
    fillBuffer_of_clean clean "/weights/model.bin" [97, 98, 99, 100, 101] 0
  obtain ⟨reads', hsecond⟩ : ∃ reads', fillBuffer request io "/weights/model.bin" [101] reads = _ :=
    fillBuffer_of_clean clean "/weights/model.bin" [101] reads
  let first : SealState := SealState.withShard host request "model.bin" [97, 98, 99, 100]
    (tagged [97, 98, 99, 100]) (io.nonce 0) ⟨disk, [], [], 0, reads⟩
  refine ⟨SealState.withShard host request "model.bin" [101] (tagged [101]) (io.nonce 1)
    { first with reads := reads' }, ?_, ?_⟩
  swap
  · have hentry : ∀ i plaintext, shardDescriptor host i "model.bin" plaintext (tagged plaintext)
        (io.nonce i) = entry i plaintext := fun _ _ ↦ rfl
    simp only [manifest, sealedManifest, first, SealState.withShard, List.nil_append, hentry]
    rfl
  have hrest : sealFile host request io key "/weights/model.bin" "model.bin" [101] first =
      .ok (SealState.withShard host request "model.bin" [101] (tagged [101]) (io.nonce 1)
        { first with reads := reads' }) := by
    rw [sealFile]
    split
    · next e herror => exact absurd (hsecond.symm.trans herror) (by simp)
    · next plaintext rest later hok =>
      obtain ⟨rfl, rfl, rfl⟩ : [101] = plaintext ∧ [] = rest ∧ reads' = later := by
        simpa [request] using hsecond.symm.trans hok
      rfl
  rw [files, sealFiles, clean.openFile]
  show (sealFile host request io key "/weights/model.bin" "model.bin" [97, 98, 99, 100, 101] _ >>=
    _) = _
  rw [sealFile]
  split
  · next e herror => exact absurd (hfirst.symm.trans herror) (by simp)
  · next plaintext rest later hok =>
    obtain ⟨rfl, rfl, rfl⟩ : [97, 98, 99, 100] = plaintext ∧ [101] = rest ∧ reads = later := by
      simpa [request] using hfirst.symm.trans hok
    show (sealFile host request io key "/weights/model.bin" "model.bin" [101] first >>= _) = _
    rw [hrest]
    rfl

theorem manifest_eq {disk : Disk} {m : BundleManifest} {written : Disk}
    (h : sealContents host request io "operator" "model" files disk = .ok (m, written)) :
    m = manifest := by
  obtain ⟨st, hfiles, hmanifest⟩ := sealFiles_eq disk
  obtain ⟨bundleKey, st', hkey, hfiles', rfl⟩ := sealContents_manifest h
  obtain rfl : key = bundleKey := Except.ok.inj hkey
  obtain rfl : st = st' := Except.ok.inj (hfiles.symm.trans hfiles')
  exact hmanifest

theorem readsBack (m : BundleManifest) (written : Disk)
    (h : sealContents host request io "operator" "model" files (fun _ ↦ .missing) =
      .ok (m, written)) : host.ReadsBack m := by
  rw [manifest_eq h]
  exact ⟨['{', '}'], rfl, rfl⟩

end SampleSeal

open SampleSeal in
/-- Five bytes, sealed in two shards and staged. -/
theorem sealed_bundle_stages_sample :
    ∃ m sealed, sealInto host request io "operator" "model" files (fun _ ↦ .missing) =
        .ok (m, sealed) ∧ m.shards.length = 2 ∧
      ∃ registered, (BundleStore.withVerdictTtl none 60).registerBundle host.toBundleHost
          SampleBundle.ed25519 m request.output none = (registered, .ok ()) ∧
        (registered.stagePlaintext host.toBundleHost 0
          ⟨key, fun _ ↦ sealed, .ok (), fun _ ↦ .ok (), .ok ()⟩ m.bundleId).2 =
            ([97, 98, 99, 100, 101], .ok ()) := by
  obtain ⟨m, sealed, hseal, -, -, hstages⟩ := sealed_bundle_stages host SampleBundle.ed25519 request
    io "operator" "model" files (fun _ ↦ .missing) key (by decide)
    (by rintro id hid; obtain rfl := Option.some.inj hid; decide)
    ⟨_, List.mem_singleton_self _, by decide⟩ (by rw [pieces_eq]; decide) clean encrypts fresh rfl
    collisionFree readsBack
  obtain ⟨registered, hregistered, hchecked⟩ := hstages (BundleStore.withVerdictTtl none 60) rfl
  obtain ⟨checked, -, hstage⟩ := hchecked 0 0
  refine ⟨m, sealed, hseal, ?_, registered, hregistered, hstage registered List.mem_cons_self⟩
  rw [sealInto, Except.bind_eq_ok] at hseal
  obtain ⟨⟨m', written⟩, hcontents, hrest⟩ := hseal
  obtain rfl := manifest_eq hcontents
  obtain rfl : manifest = m := (Prod.mk.inj (Except.ok.inj hrest)).1
  rfl

end Cordon
