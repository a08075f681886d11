import Cordon.Core.BundleSeal
import Cordon.Lib.Chunks

/-!
# A sealed bundle opens to what was sealed

Three readers work on what `seal_into` leaves behind: the structural check of the manifest, the
provisioning verifier and the serving path. Here the writer is followed to its end when nothing
interferes, and each reader is shown to accept the result.

However the file system splits its reads, a file is cut into pieces of the shard size
(`fillBuffer_of_clean`), so the shards of a sealing are known in advance (`pieces`). What the loop
keeps true is `PiecesSealed`: for every piece so far there is an entry in the manifest and a file
that opens to it. The index of a shard in its file name keeps a later shard from overwriting an
earlier one.

The loop is three loops, one inside the other, and each has a lemma of its own: a shard more
(`PiecesSealed.sealShard`), a file piece by piece (`PiecesSealed.sealFile`), and the files one after
the other (`PiecesSealed.sealFiles`). They rest on reads that do not fail (`SealIo.Clean`), on
encryption that adds a tag and can be undone, and on nonces that are read back as they were written.
-/

namespace Cordon

/-! ### Reads -/

/-- Nothing interferes: no call fails, and nobody cancels. -/
structure SealIo.Clean (io : SealIo) : Prop where
  createDir : io.createDir = none
  openFile : ∀ i, io.openFile i = none
  cancelled : ∀ k, io.cancelled k = false
  read : ∀ k, ∃ willing, io.read k = .ok willing
  writeShard : ∀ i, io.writeShard i = none
  createManifest : io.createManifest = none
  writeManifest : io.writeManifest = none
  renameManifest : io.renameManifest = none

section Reads

variable {request : SealRequest} {io : SealIo}

/-- **The buffer is filled from the file**, as far as either goes, however the reads are split. -/
theorem fillBufferBy_of_clean (hio : io.Clean) {chunk : ℕ} (hchunk : 0 < chunk) (path : String)
    (buffer rest : Bytes) (reads : ℕ) (hbuffer : buffer.length ≤ request.shardSize) :
    ∃ reads', fillBufferBy request io chunk path buffer rest reads =
      .ok (buffer ++ rest.take (request.shardSize - buffer.length),
        rest.drop (request.shardSize - buffer.length), reads') := by
  fun_induction fillBufferBy request io chunk path buffer rest reads with
  | case1 buffer rest reads hroom hcancelled => simp [hio.cancelled] at hcancelled
  | case2 buffer rest reads hroom _ e hread =>
    obtain ⟨willing, hok⟩ := hio.read reads
    rw [hok] at hread
    simp at hread
  | case3 buffer rest reads hlt _ willing _ room n hn =>
    -- there is room, so the file is at its end
    have hrest : rest = [] := by
      refine List.eq_nil_of_length_eq_zero ?_
      omega
    exact ⟨reads + 1, by simp [hrest]⟩
  | case4 buffer rest reads hlt _ willing _ room n hn ih =>
    have hlength : (buffer ++ rest.take n).length = buffer.length + n := by
      rw [List.length_append, List.length_take]
      omega
    obtain ⟨reads', hreads⟩ := ih (by omega)
    refine ⟨reads', ?_⟩
    rw [hreads, hlength, List.append_assoc, List.drop_drop, ← List.take_add]
    have hsplit : n + (request.shardSize - (buffer.length + n)) =
        request.shardSize - buffer.length := by
      omega
    rw [hsplit]
  | case5 buffer rest reads hfull =>
    have hzero : request.shardSize - buffer.length = 0 := by omega
    exact ⟨reads, by simp [hzero]⟩

theorem fillBuffer_of_clean (hio : io.Clean) (path : String) (rest : Bytes) (reads : ℕ) :
    ∃ reads', fillBuffer request io path rest reads =
      .ok (rest.take request.shardSize, rest.drop request.shardSize, reads') := by
  obtain ⟨reads', hreads⟩ : ∃ reads', fillBufferBy request io readChunk path [] rest reads = _ :=
    fillBufferBy_of_clean hio readChunk_pos path [] rest reads (Nat.zero_le _)
  exact ⟨reads', hreads⟩

end Reads

/-! ### Names -/

/-- The digits of a shard's index, as its file name has them. -/
def indexDigits (shardIndex : ℕ) : List Char :=
  List.replicate (5 - (toString shardIndex).length) '0' ++ (toString shardIndex).toList

theorem toList_shardName (shardIndex : ℕ) (name : String) :
    (shardName shardIndex name).toList =
      indexDigits shardIndex ++ '-' :: ((sanitize name).toList ++ ".enc".toList) := by
  have hhyphen : "-".toList = ['-'] := rfl
  simp only [shardName, indexDigits, String.toList_append, String.toList_ofList, hhyphen]
  simp

theorem isDigit_of_mem_indexDigits {shardIndex : ℕ} {c : Char} (h : c ∈ indexDigits shardIndex) :
    c.isDigit = true := by
  rcases List.mem_append.1 h with h | h
  · rw [List.eq_of_mem_replicate h]
    decide
  · exact Text.isDigit_of_mem_toString h

/-- The leading zeros of an index say nothing. -/
theorem indexDigits_injective : Function.Injective indexDigits := by
  have hzeros : ∀ (k : ℕ) (digits : List Char),
      Nat.ofDigitChars 10 (List.replicate k '0' ++ digits) 0 = Nat.ofDigitChars 10 digits 0 := by
    intro k digits
    induction k with
    | zero => simp
    | succ k ih =>
      rw [List.replicate_succ, List.cons_append, Nat.ofDigitChars_cons]
      exact ih
  have hvalue : ∀ n, Nat.ofDigitChars 10 (indexDigits n) 0 = n := by
    intro n
    rw [indexDigits, hzeros, Nat.toString_eq_ofList_toDigits]
    simp
  intro m n h
  rw [← hvalue m, h, hvalue]

theorem mem_sanitize {name : String} {c : Char} (h : c ∈ (sanitize name).toList) :
    c.isAlphanum = true ∨ c = '-' ∨ c = '_' ∨ c = '.' := by
  rw [sanitize] at h
  split at h
  · exact Or.inl (List.all_eq_true.1 (by decide : "shard".toList.all Char.isAlphanum = true) c h)
  · rw [String.toList_ofList] at h
    obtain ⟨a, -, rfl⟩ := List.mem_map.1 (List.mem_of_mem_take h)
    split_ifs with hsafe
    · simpa [or_assoc] using hsafe
    · simp

/-- Shards of different indices have files of different names. -/
theorem shardName_inj {i j : ℕ} {name name' : String} (h : shardName i name = shardName j name') :
    i = j := by
  have hlist := congrArg String.toList h
  rw [toList_shardName, toList_shardName] at hlist
  have hdigits : ∀ k, '-' ∉ indexDigits k := fun k hmem ↦ by
    have hdigit := isDigit_of_mem_indexDigits hmem
    simp at hdigit
  exact indexDigits_injective (Text.cut_inj (hdigits i) (hdigits j) hlist).1

theorem slash_notMem_shardName (shardIndex : ℕ) (name : String) :
    '/' ∉ (shardName shardIndex name).toList := by
  rw [toList_shardName]
  intro hmem
  rcases List.mem_append.1 hmem with hmem | hmem
  · have hdigit := isDigit_of_mem_indexDigits hmem
    simp at hdigit
  · rcases List.mem_cons.1 hmem with hmem | hmem
    · simp at hmem
    · rcases List.mem_append.1 hmem with hmem | hmem
      · rcases mem_sanitize hmem with halnum | h | h | h
        all_goals simp_all
      · revert hmem
        decide

theorem isAbsolute_shardPath (shardIndex : ℕ) (name : String) :
    UnixPath.isAbsolute (shardPath shardIndex name) = false := by
  rw [shardPath, UnixPath.isAbsolute, String.toList_append,
    List.head?_append_of_ne_nil _ (by decide)]
  decide

/-- The writer and the readers mean the same file. -/
theorem join_shardPath (output : String) (shardIndex : ℕ) (name : String) :
    UnixPath.join (UnixPath.join output "shards") (shardName shardIndex name) =
      UnixPath.join output (shardPath shardIndex name) := by
  have hrelative : UnixPath.isAbsolute (shardName shardIndex name) = false := by
    rw [UnixPath.isAbsolute, decide_eq_false_iff_not]
    exact fun hhead ↦ slash_notMem_shardName shardIndex name (List.mem_of_head? hhead)
  exact UnixPath.join_join (by decide) (by decide) (by decide) hrelative output

/-- Shards of different indices have different files. -/
theorem join_shardPath_ne (output : String) {i j : ℕ} (h : i ≠ j) (name name' : String) :
    UnixPath.join output (shardPath i name) ≠ UnixPath.join output (shardPath j name') := by
  intro hpath
  have hname := UnixPath.join_inj (isAbsolute_shardPath i name) (isAbsolute_shardPath j name') hpath
  rw [shardPath, shardPath] at hname
  exact h (shardName_inj ((String.append_right_inj _).1 hname))

/-! ### Shards -/

/-- The pieces that the weight files are cut into. -/
def pieces (shardSize : ℕ) (files : List WeightFile) : List Bytes :=
  files.flatMap fun file ↦ Chunks.cut shardSize file.contents

/-- **What sealing relies on of the cryptography**: keys are derived, and decryption undoes
encryption, which adds a tag of 16 bytes. -/
structure ProvisionHost.Encrypts (H : ProvisionHost) (shardSize : ℕ) : Prop where
  deriveShardKey : ∀ bundleKey index, ∃ key, H.deriveShardKey bundleKey index = .ok key
  encryptShard : ∀ key plaintext nonce, plaintext.length ≤ shardSize → nonce.length = 12 →
    ∃ ciphertext, H.encryptShard key plaintext nonce = .ok ciphertext ∧
      ciphertext.length = plaintext.length + 16 ∧
      H.decryptShard key ciphertext nonce = some plaintext

/-- **What sealing relies on of the nonces it draws**: the first `n` of them are distinct and not
zero, and they are read back as they were written. -/
structure SealIo.Fresh (io : SealIo) (H : ProvisionHost) (n : ℕ) : Prop where
  length : ∀ i, (io.nonce i).length = 12
  distinct : ∀ i < n, ∀ j < n, io.nonce i = io.nonce j → i = j
  nonzero : ∀ i < n, ∃ b ∈ io.nonce i, b ≠ 0
  base64 : ∀ i < n, H.base64Decode (H.base64Encode (io.nonce i)) = .ok (io.nonce i)

section Sealed

variable (H : ProvisionHost) (request : SealRequest) (io : SealIo) (bundleKey : Bytes)

/-- The shard of a piece: its key, its ciphertext, its entry in the manifest and its file. -/
structure SealedShard (st : SealState) (i : ℕ) (plaintext : Bytes) (name : String)
    (key ciphertext : Bytes) : Prop where
  derived : H.deriveShardKey bundleKey i = .ok key
  encrypted : H.encryptShard key plaintext (io.nonce i) = .ok ciphertext
  entry : st.shards[i]? = some (shardDescriptor H i name plaintext ciphertext (io.nonce i))
  file : st.disk (UnixPath.join request.output (shardPath i name)) = .file ciphertext

/-- **What the loop keeps true**: every piece so far is sealed. -/
structure PiecesSealed (st : SealState) (ps : List Bytes) : Prop where
  shardIndex : st.shardIndex = ps.length % 2 ^ 32
  hashed : st.hashed = ps.flatten
  length_shards : st.shards.length = ps.length
  shard : ∀ i p, ps[i]? = some p →
    ∃ name key ciphertext, SealedShard H request io bundleKey st i p name key ciphertext

variable {H request io bundleKey} {st : SealState} {ps : List Bytes}

/-- **One more shard.** Its file has a name that no file so far has. -/
theorem PiecesSealed.sealShard (h : PiecesSealed H request io bundleKey st ps) (hio : io.Clean)
    (hcrypto : H.Encrypts request.shardSize) (hnonces : ∀ i, (io.nonce i).length = 12)
    (hcount : ps.length < 2 ^ 32) (name : String) {plaintext : Bytes}
    (hsize : plaintext.length ≤ request.shardSize) :
    ∃ st', sealShard H request io bundleKey name plaintext st = .ok st' ∧
      PiecesSealed H request io bundleKey st' (ps ++ [plaintext]) := by
  have hindex : st.shardIndex = ps.length := by rw [h.shardIndex, Nat.mod_eq_of_lt hcount]
  obtain ⟨key, hkey⟩ := hcrypto.deriveShardKey bundleKey ps.length
  obtain ⟨ciphertext, hencrypt, -, -⟩ :=
    hcrypto.encryptShard key plaintext (io.nonce ps.length) hsize (hnonces _)
  refine ⟨st.withShard H request name plaintext ciphertext (io.nonce ps.length), ?_, ?_⟩
  · simp only [Cordon.sealShard, hindex, hkey, hencrypt, hio.writeShard, Except.mapError,
      Except.ok_bind]
    rfl
  have hdisk : (st.withShard H request name plaintext ciphertext (io.nonce ps.length)).disk =
      Function.update st.disk (UnixPath.join request.output (shardPath ps.length name))
        (.file ciphertext) := by
    rw [SealState.withShard, hindex, join_shardPath]
  refine ⟨by simp [SealState.withShard, hindex], by simp [SealState.withShard, h.hashed],
    by simp [SealState.withShard, h.length_shards], fun i p hp ↦ ?_⟩
  rcases Nat.lt_or_ge i ps.length with hi | hi
  · -- an earlier shard is left alone
    rw [List.getElem?_append_left hi] at hp
    obtain ⟨name', key', ciphertext', hshard⟩ := h.shard i p hp
    refine ⟨name', key', ciphertext', hshard.derived, hshard.encrypted, ?_, ?_⟩
    · rw [SealState.withShard, List.getElem?_append_left (by rwa [h.length_shards])]
      exact hshard.entry
    · rw [hdisk, Function.update_of_ne (join_shardPath_ne _ hi.ne _ _), hshard.file]
  · obtain ⟨rfl, rfl⟩ : i = ps.length ∧ p = plaintext := by
      rw [List.getElem?_append_right hi, List.getElem?_singleton] at hp
      split_ifs at hp with hzero
      exact ⟨by omega, (Option.some.inj hp).symm⟩
    refine ⟨name, key, ciphertext, hkey, hencrypt, ?_, by rw [hdisk, Function.update_self]⟩
    rw [SealState.withShard, ← h.length_shards, List.getElem?_concat_length, hindex,
      h.length_shards]

/-- The number of reads has nothing to do with what is sealed. -/
theorem PiecesSealed.withReads (h : PiecesSealed H request io bundleKey st ps) (reads : ℕ) :
    PiecesSealed H request io bundleKey { st with reads := reads } ps := by
  refine ⟨h.shardIndex, h.hashed, h.length_shards, fun i p hp ↦ ?_⟩
  obtain ⟨name, key, ciphertext, hshard⟩ := h.shard i p hp
  exact ⟨name, key, ciphertext, hshard.derived, hshard.encrypted, hshard.entry, hshard.file⟩

/-- **A file is sealed piece by piece**, and a multiple of the shard size ends with a full piece. -/
theorem PiecesSealed.sealFile (h : PiecesSealed H request io bundleKey st ps) (hio : io.Clean)
    (hcrypto : H.Encrypts request.shardSize) (hnonces : ∀ i, (io.nonce i).length = 12)
    (hsize : 0 < request.shardSize) (path name : String) (rest : Bytes)
    (hcount : ps.length + (Chunks.cut request.shardSize rest).length ≤ 2 ^ 32) :
    ∃ st', sealFile H request io bundleKey path name rest st = .ok st' ∧
      PiecesSealed H request io bundleKey st' (ps ++ Chunks.cut request.shardSize rest) := by
  induction hlength : rest.length using Nat.strong_induction_on generalizing rest st ps with
  | _ n ih =>
    obtain ⟨reads, hfill⟩ : ∃ reads, fillBuffer request io path rest st.reads = _ :=
      fillBuffer_of_clean hio path rest st.reads
    rw [Cordon.sealFile]
    split
    · next e herror =>
      rw [hfill] at herror
      simp at herror
    · next plaintext rest' reads' hok =>
      obtain ⟨rfl, rfl, rfl⟩ : rest.take request.shardSize = plaintext ∧
          rest.drop request.shardSize = rest' ∧ reads = reads' := by
        simpa [hfill] using hok
      rcases eq_or_ne rest [] with rfl | hne
      · exact ⟨_, by rw [dif_pos (by simp)], by simpa using h.withReads reads⟩
      have htake : rest.take request.shardSize ≠ [] := by
        rw [Ne, List.take_eq_nil_iff, not_or]
        exact ⟨hsize.ne', hne⟩
      rw [Chunks.cut_of_ne_nil hsize hne, List.length_cons] at hcount
      have hpiece : (rest.take request.shardSize).length ≤ request.shardSize :=
        List.length_take_le ..
      obtain ⟨st', hshard, hsealed⟩ :=
        (h.withReads reads).sealShard hio hcrypto hnonces (by omega) name hpiece
      rw [dif_neg htake, hshard, Chunks.cut_of_ne_nil hsize hne, List.append_cons]
      by_cases hshort : (rest.take request.shardSize).length < request.shardSize
      · -- the file ended in this piece
        have hdrop : rest.drop request.shardSize = [] := by
          rw [List.length_take] at hshort
          exact List.drop_of_length_le (by omega)
        refine ⟨st', if_pos hshort, ?_⟩
        rw [hdrop, Chunks.cut_nil, List.append_nil]
        exact hsealed
      · have hless : (rest.drop request.shardSize).length < n := by
          have hpos := List.length_pos_iff.2 hne
          rw [List.length_drop]
          omega
        obtain ⟨st'', hrest, hsealed'⟩ := ih _ hless hsealed (rest.drop request.shardSize)
          (by rw [List.length_append, List.length_singleton]; omega) rfl
        exact ⟨st'', (if_neg hshort).trans hrest, hsealed'⟩

/-- **The files one after the other.** -/
theorem PiecesSealed.sealFiles (h : PiecesSealed H request io bundleKey st ps) (hio : io.Clean)
    (hcrypto : H.Encrypts request.shardSize) (hnonces : ∀ i, (io.nonce i).length = 12)
    (hsize : 0 < request.shardSize) (files : List WeightFile) (i : ℕ)
    (hcount : ps.length + (pieces request.shardSize files).length ≤ 2 ^ 32) :
    ∃ st', sealFiles H request io bundleKey i files st = .ok st' ∧
      PiecesSealed H request io bundleKey st' (ps ++ pieces request.shardSize files) := by
  induction files generalizing st ps i with
  | nil => exact ⟨st, rfl, by simpa [pieces] using h⟩
  | cons file files ih =>
    have hpieces : pieces request.shardSize (file :: files) =
        Chunks.cut request.shardSize file.contents ++ pieces request.shardSize files := rfl
    rw [hpieces, List.length_append] at hcount
    obtain ⟨st', hfile, hsealed⟩ := h.sealFile hio hcrypto hnonces hsize file.path
      (file.fileName.getD "weights") file.contents (by omega)
    obtain ⟨st'', hrest, hsealed'⟩ := ih hsealed (i + 1) (by rw [List.length_append]; omega)
    refine ⟨st'', ?_, ?_⟩
    · rw [Cordon.sealFiles, hio.openFile, hfile]
      exact hrest
    · rw [hpieces, ← List.append_assoc]
      exact hsealed'

end Sealed

end Cordon
