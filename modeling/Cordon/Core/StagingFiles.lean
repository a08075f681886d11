import Cordon.Core.BundleVerify
import Cordon.Lib.BufferedWriter

/-!
# What a staging leaves in the staging directory

`BundleStore.stagePlaintext` with the files it works on: a stale staged file is removed, a new one
is created, and the shards are written to it through a buffered writer as they are decrypted.

There are three ways to leave. One that fails before the file is created leaves whatever stood at
its path. One that fails while the shards are written leaves **everything decrypted so far**: what
the writer still holds is handed on when it is dropped (`writeBundle_fst`). Only the last check, of
the digest of the whole model, removes the file. And none of them takes back the status.

`failed_staging_leaves_nothing_iff` rests on `stageToDisk_cases`, which says once in which of these
ways a staging can end and with what in the directory; whether it leaves nothing is then read off
each. That the writer is buffered is what makes the second way hard, and it is dealt with in
`Lib.BufferedWriter`: what a dropped writer has handed on is what it was given, up to the room of
the file. `stagePlaintext_of_answers` ties this staging to the one without files.
-/

namespace Cordon

/-- The buffer of the writer and of the reader of shards. -/
def ioBufferBytes : ℕ :=
  4 * 1024 * 1024

/-- A file of the staging directory. -/
structure StagedFile where
  contents : Bytes
  /-- The bundle whose decrypted weights have been written to it, if any have. -/
  bundleId : Option String
  deriving DecidableEq

/-- The files of the staging directory, by name. -/
abbrev StagingDir : Type :=
  String → Option StagedFile

namespace StagingDir

/-- The directory without a file. -/
def remove (dir : StagingDir) (name : String) : StagingDir :=
  Function.update dir name none

/-- The directory with the plaintext of a bundle in a file. -/
def put (dir : StagingDir) (name bundleId : String) (plaintext : Bytes) : StagingDir :=
  Function.update dir name (some ⟨plaintext, some bundleId⟩)

/-- A file holds some of the plaintext of a bundle. -/
def Exposes (dir : StagingDir) (bundleId name : String) : Prop :=
  ∃ file, dir name = some file ∧ file.bundleId = some bundleId ∧ file.contents ≠ []

end StagingDir

/-- The name of the file a bundle is staged to. -/
def stagedName (bundleId : String) : String :=
  bundleId ++ ".staged"

/-- What a staging works with besides the bundle: its key, the shards as they are read, and how the
file system answers each request. -/
structure StagingDisk where
  bundleKey : Bytes
  read : ShardReads
  stagingDir : String
  /-- `create_dir_all`. -/
  createDir : Except String Unit
  /-- Removing what stands at the staged path; that nothing stands there is no error. -/
  clear : Except String Unit
  /-- Creating the staged file, which fails if something has come to stand there. -/
  create : Except String Unit
  /-- The length the staged file can grow to, and the error it meets then. -/
  room : ℕ
  refusal : String
  /-- Removing the staged file at the end. -/
  remove : Except String Unit

namespace StagingDisk

/-- The key and the shards, which is all that opening a shard needs. -/
def source (d : StagingDisk) : StagingIo where
  bundleKey := d.bundleKey
  read := d.read
  create := .ok ()
  write _ := .ok ()
  flush := .ok ()

/-- `create_private_file`. -/
def createPrivateFile (d : StagingDisk) (dir : StagingDir) (bundleId : String) :
    StagingDir × Except CordonError Unit :=
  let path := UnixPath.join d.stagingDir (stagedName bundleId)
  match d.clear with
  | .error e =>
    (dir, .error (.internal ("cannot clear the staging path " ++ path ++ ": " ++ e)))
  | .ok () =>
    let dir := dir.remove (stagedName bundleId)
    match d.create with
    | .error e =>
      (dir, .error (.internal ("cannot create the staging file " ++ path ++ ": " ++ e)))
    | .ok () => (dir, .ok ())

variable (H : BundleHost)

/-- Decrypt the shards one after the other into the writer; `hashed` is what the running digest has
been given. -/
def writeShards (d : StagingDisk) (bundleId bundleDir : String)
    (writer : BufferedWriter UInt8 ioBufferBytes) (hashed : Bytes) :
    ℕ → List (ShardDescriptor × ℕ) → BufferedWriter UInt8 ioBufferBytes × Except CordonError Bytes
  | _, [] => (writer, .ok hashed)
  | k, (shard, index) :: shards =>
    match stageShard H d.source bundleId bundleDir k shard index with
    | .error e => (writer, .error e)
    | .ok plaintext =>
      match writer.writeAll plaintext with
      | (writer, false) =>
        (writer, .error (.internal ("cannot write staged weights: " ++ d.refusal)))
      | (writer, true) =>
        writeShards d bundleId bundleDir writer (hashed ++ plaintext) (k + 1) shards

/-- Write a bundle to the new file: what the file holds when the writer has been dropped, and what
has been hashed if nothing has failed. -/
def writeBundle (d : StagingDisk) (bundleId : String) (m : BundleManifest) (bundleDir : String) :
    Bytes × Except CordonError Bytes :=
  match d.writeShards H bundleId bundleDir (.new _ (.empty d.room)) [] 0 m.stagingOrder with
  | (writer, .error e) => (writer.dropped, .error e)
  | (writer, .ok hashed) =>
    match writer.flush with
    | (writer, false) =>
      (writer.dropped, .error (.internal ("cannot flush staged weights: " ++ d.refusal)))
    | (writer, true) => (writer.dropped, .ok hashed)

end StagingDisk

/-- `ModelStore::stage_plaintext`, with the staging directory. -/
def BundleStore.stageToDisk (H : BundleHost) (store : BundleStore) (dir : StagingDir) (now : ℤ)
    (d : StagingDisk) (bundleId : String) :
    BundleStore × StagingDir × Except CordonError Unit :=
  match store.bundles.lookup bundleId with
  | none => (store, dir, .error (.modelNotFound bundleId))
  | some b =>
    let store := store.setStatus bundleId .staging
    match d.createDir with
    | .error e =>
      (store, dir, .error (.internal ("cannot create staging directory: " ++ e)))
    | .ok () =>
      match d.createPrivateFile dir bundleId with
      | (dir, .error e) => (store, dir, .error e)
      | (dir, .ok ()) =>
        let put (contents : Bytes) : StagingDir := dir.put (stagedName bundleId) bundleId contents
        match d.writeBundle H bundleId b.manifest b.bundleDir with
        | (contents, .error e) => (store, put contents, .error e)
        | (contents, .ok hashed) =>
          if ctEq (Text.asBytes (Sha256.digestHex hashed))
              (Text.asBytes b.manifest.totalPlaintextSha256) then
            ((store.recordVerdict now bundleId true).setStatus bundleId .ready, put contents,
              .ok ())
          else
            -- the one exit that removes the file, if it can
            match d.remove with
            | .error _ => (store, put contents, .error (.modelIntegrityViolation bundleId))
            | .ok () => (store, dir.remove (stagedName bundleId),
              .error (.modelIntegrityViolation bundleId))

/-! ### What is written -/

namespace StagingDisk

variable {H : BundleHost} {d : StagingDisk} {bundleId bundleDir : String}

variable (H) in
/-- The plaintexts of the shards before the first one that does not open. -/
def openedShards (d : StagingDisk) (bundleId bundleDir : String) :
    ℕ → List (ShardDescriptor × ℕ) → List Bytes
  | _, [] => []
  | k, (shard, index) :: shards =>
    match stageShard H d.source bundleId bundleDir k shard index with
    | .error _ => []
    | .ok plaintext => plaintext :: openedShards d bundleId bundleDir (k + 1) shards

/-- **The shards one after the other.** Whether the loop ends or leaves, what stays behind of it is
what has been decrypted, up to the room of the file. It ends if every shard opens and none is
refused. -/
theorem writeShards_spec (writer : BufferedWriter UInt8 ioBufferBytes) (hashed : Bytes) (k : ℕ)
    (shards : List (ShardDescriptor × ℕ)) {writer' : BufferedWriter UInt8 ioBufferBytes}
    {result : Except CordonError Bytes}
    (h : d.writeShards H bundleId bundleDir writer hashed k shards = (writer', result)) :
    writer'.file.room = writer.file.room ∧
      writer'.dropped = (writer.given ++
        (d.openedShards H bundleId bundleDir k shards).flatten).take writer.file.room ∧
      ((∃ e, result = .error e ∧
          ((d.openedShards H bundleId bundleDir k shards).length ≠ shards.length ∨
            writer.file.room < (writer.given ++
              (d.openedShards H bundleId bundleDir k shards).flatten).length)) ∨
        result = .ok (hashed ++ (d.openedShards H bundleId bundleDir k shards).flatten) ∧
          (d.openedShards H bundleId bundleDir k shards).length = shards.length ∧
          writer'.given =
            writer.given ++ (d.openedShards H bundleId bundleDir k shards).flatten) := by
  induction shards generalizing writer hashed k with
  | nil =>
    obtain ⟨rfl, rfl⟩ := Prod.mk.inj h
    rw [openedShards, List.flatten_nil, List.append_nil, List.append_nil]
    exact ⟨rfl, BufferedWriter.dropped_eq _, Or.inr ⟨rfl, rfl, rfl⟩⟩
  | cons shard shards ih =>
    obtain ⟨shard, index⟩ := shard
    rw [writeShards] at h
    rw [openedShards]
    rcases hstage : stageShard H d.source bundleId bundleDir k shard index with e | plaintext
    · rw [hstage] at h
      obtain ⟨rfl, rfl⟩ := Prod.mk.inj h
      rw [List.flatten_nil, List.append_nil]
      exact ⟨rfl, BufferedWriter.dropped_eq _, Or.inl ⟨e, rfl, Or.inl (by simp)⟩⟩
    · rw [hstage] at h
      simp only [List.flatten_cons, List.length_cons] at h ⊢
      obtain ⟨hroom, hok, hfailed⟩ := BufferedWriter.writeAll_spec writer plaintext
      rcases hcall : writer.writeAll plaintext with ⟨writer₁, - | -⟩
      · -- refused: the rest would not have fitted either
        have hdropped := BufferedWriter.dropped_writeAll writer plaintext
        rw [hcall] at h hroom hfailed hdropped
        obtain ⟨rfl, rfl⟩ := Prod.mk.inj h
        have hover := (hfailed rfl).1
        rw [← List.append_assoc]
        refine ⟨hroom, ?_, Or.inl ⟨_, rfl, Or.inr ?_⟩⟩
        · rw [List.take_append_of_le_length hover.le]
          exact hdropped
        · rw [List.length_append]
          exact hover.trans_le (Nat.le_add_right _ _)
      · rw [hcall] at h hroom hok
        have hgiven : writer₁.given = writer.given ++ plaintext := hok rfl
        have hroom : writer₁.file.room = writer.file.room := hroom
        have hrest := ih writer₁ (hashed ++ plaintext) (k + 1) h
        rw [hgiven, hroom, List.append_assoc, List.append_assoc] at hrest
        simpa only [Nat.add_right_cancel_iff, ne_eq] using hrest

variable {m : BundleManifest}

variable (H) in
/-- The plaintexts a staging of a bundle comes to. -/
def opened (d : StagingDisk) (bundleId : String) (m : BundleManifest) (bundleDir : String) :
    List Bytes :=
  d.openedShards H bundleId bundleDir 0 m.stagingOrder

/-- **What stays behind of a write is everything that was decrypted**, up to the room of the file,
whatever it was that failed. -/
theorem writeBundle_fst (d : StagingDisk) (bundleId : String) (m : BundleManifest)
    (bundleDir : String) :
    (d.writeBundle H bundleId m bundleDir).1 =
      (d.opened H bundleId m bundleDir).flatten.take d.room := by
  rw [writeBundle]
  rcases hloop : d.writeShards H bundleId bundleDir (.new _ (.empty d.room)) [] 0 m.stagingOrder
    with ⟨writer, e | hashed⟩
  · exact (writeShards_spec _ _ _ _ hloop).2.1
  · have hdropped : writer.dropped = (d.opened H bundleId m bundleDir).flatten.take d.room :=
      (writeShards_spec _ _ _ _ hloop).2.1
    rw [← hdropped]
    have hflush := BufferedWriter.dropped_flush writer
    rcases hcall : writer.flush with ⟨writer', - | -⟩
    · simp only [hcall] at hflush ⊢
      exact hflush
    · simp only [hcall] at hflush ⊢
      exact hflush

/-- **When a bundle is written**: every shard opens and the file has room for all of them. -/
theorem writeBundle_snd_eq_ok {hashed : Bytes} :
    (d.writeBundle H bundleId m bundleDir).2 = .ok hashed ↔
      (d.opened H bundleId m bundleDir).length = m.stagingOrder.length ∧
        (d.opened H bundleId m bundleDir).flatten.length ≤ d.room ∧
        hashed = (d.opened H bundleId m bundleDir).flatten := by
  rw [writeBundle]
  rcases hloop : d.writeShards H bundleId bundleDir (.new _ (.empty d.room)) [] 0 m.stagingOrder
    with ⟨writer, result⟩
  obtain ⟨hroom, -, hcases⟩ := writeShards_spec _ _ _ _ hloop
  have hroom : writer.file.room = d.room := hroom
  rcases hcases with ⟨e, rfl, hwhy⟩ | ⟨rfl, hall, hgiven⟩
  · refine iff_of_false nofun ?_
    rintro ⟨hall, hfits, -⟩
    rcases hwhy with hshort | hover
    · exact hshort hall
    · exact absurd hfits (not_le.2 hover)
  · have hgiven : writer.given = (d.opened H bundleId m bundleDir).flatten := hgiven
    have hflush := BufferedWriter.flush_eq_true_iff (w := writer)
    rw [hgiven, hroom] at hflush
    rcases hcall : writer.flush with ⟨writer', - | -⟩
    · simp only [hcall] at hflush ⊢
      exact iff_of_false nofun fun h ↦ Bool.false_ne_true (hflush.2 h.2.1)
    · simp only [hcall] at hflush ⊢
      show Except.ok (d.opened H bundleId m bundleDir).flatten = Except.ok hashed ↔ _
      rw [Except.ok.injEq, eq_comm]
      exact ⟨fun h ↦ ⟨hall, hflush.1 trivial, h⟩, fun h ↦ h.2.2⟩

/-! ### As a staging without files -/

/-- How the writes of a staging are answered: the first chunk the writer cannot take is refused. -/
def writeAnswers (d : StagingDisk) :
    BufferedWriter UInt8 ioBufferBytes → List Bytes → ℕ → Except String Unit
  | _, [], _ => .ok ()
  | writer, plaintext :: _, 0 =>
    if (writer.writeAll plaintext).2 then .ok () else .error d.refusal
  | writer, plaintext :: plaintexts, k + 1 =>
    writeAnswers d (writer.writeAll plaintext).1 plaintexts k

variable (H) in
/-- The answers of the file system as `stagePlaintext` is given them. -/
def answers (d : StagingDisk) (bundleId : String) (m : BundleManifest) (bundleDir : String) :
    StagingIo where
  bundleKey := d.bundleKey
  read := d.read
  create :=
    match d.createDir with
    | .error e => .error (.internal ("cannot create staging directory: " ++ e))
    | .ok () => (d.createPrivateFile (fun _ ↦ none) bundleId).2
  write := d.writeAnswers (.new _ (.empty d.room)) (d.opened H bundleId m bundleDir)
  flush := if (d.opened H bundleId m bundleDir).flatten.length ≤ d.room then .ok ()
    else .error d.refusal

/-- With these answers, staging shard by shard leaves the loop where writing them does. -/
theorem stageShards_of_answers {io : StagingIo} (hread : io.read = d.read)
    (hkey : io.bundleKey = d.bundleKey) (writer : BufferedWriter UInt8 ioBufferBytes)
    (written hashed : Bytes) (k : ℕ) (shards : List (ShardDescriptor × ℕ))
    (hwrite : ∀ j, io.write (k + j) =
      d.writeAnswers writer (d.openedShards H bundleId bundleDir k shards) j) :
    (∃ e, (d.writeShards H bundleId bundleDir writer hashed k shards).2 = .error e ∧
        (stageShards H io bundleId bundleDir written k shards).2 = .error e) ∨
      (d.writeShards H bundleId bundleDir writer hashed k shards).2 =
          .ok (hashed ++ (d.openedShards H bundleId bundleDir k shards).flatten) ∧
        stageShards H io bundleId bundleDir written k shards =
          (written ++ (d.openedShards H bundleId bundleDir k shards).flatten, .ok ()) := by
  induction shards generalizing writer written hashed k with
  | nil => exact Or.inr ⟨by simp [writeShards, openedShards], by simp [stageShards, openedShards]⟩
  | cons shard shards ih =>
    obtain ⟨shard, index⟩ := shard
    have hsame : stageShard H io bundleId bundleDir k shard index =
        stageShard H d.source bundleId bundleDir k shard index := by
      rw [stageShard, stageShard, hread, hkey]
      rfl
    rw [writeShards, stageShards, hsame]
    rw [openedShards] at hwrite ⊢
    rcases hstage : stageShard H d.source bundleId bundleDir k shard index with e | plaintext
    · exact Or.inl ⟨e, rfl, rfl⟩
    · rw [hstage] at hwrite
      have hfirst : io.write k = if (writer.writeAll plaintext).2 then .ok () else
          .error d.refusal := hwrite 0
      have hrest : ∀ j, io.write (k + 1 + j) = d.writeAnswers (writer.writeAll plaintext).1
          (d.openedShards H bundleId bundleDir (k + 1) shards) j := by
        intro j
        rw [Nat.add_assoc, Nat.add_comm 1 j]
        exact hwrite (j + 1)
      rw [hfirst]
      rcases hcall : writer.writeAll plaintext with ⟨writer₁, - | -⟩
      · simp only [hcall]
        exact Or.inl ⟨_, rfl, rfl⟩
      · rw [hcall] at hrest
        simp only [hcall]
        have hih := ih writer₁ (written ++ plaintext) (hashed ++ plaintext) (k + 1) hrest
        rw [List.append_assoc, List.append_assoc] at hih
        exact hih

/-- With these answers, the part of a staging that writes fails as writing the bundle does, and
otherwise has it all. -/
theorem stageShards_of_writeBundle (d : StagingDisk) (bundleId : String) (m : BundleManifest)
    (bundleDir : String) :
    (∃ e, (d.writeBundle H bundleId m bundleDir).2 = .error e ∧
        ((stageShards H (d.answers H bundleId m bundleDir) bundleId bundleDir [] 0
            m.stagingOrder).2 = .error e ∨
          (stageShards H (d.answers H bundleId m bundleDir) bundleId bundleDir [] 0
            m.stagingOrder).2 = .ok () ∧
          (d.answers H bundleId m bundleDir).flush = .error d.refusal ∧
          e = .internal ("cannot flush staged weights: " ++ d.refusal))) ∨
      (d.writeBundle H bundleId m bundleDir).2 = .ok (d.opened H bundleId m bundleDir).flatten ∧
        stageShards H (d.answers H bundleId m bundleDir) bundleId bundleDir [] 0 m.stagingOrder =
          ((d.opened H bundleId m bundleDir).flatten, .ok ()) ∧
        (d.answers H bundleId m bundleDir).flush = .ok () := by
  have hwrite : ∀ j, (d.answers H bundleId m bundleDir).write (0 + j) =
      d.writeAnswers (.new _ (.empty d.room))
        (d.openedShards H bundleId bundleDir 0 m.stagingOrder) j := by
    intro j
    rw [Nat.zero_add]
    rfl
  have hloop := @stageShards_of_answers H d bundleId bundleDir (d.answers H bundleId m bundleDir)
    rfl rfl (.new _ (.empty d.room)) [] [] 0 m.stagingOrder hwrite
  rw [writeBundle]
  rcases hwrite : d.writeShards H bundleId bundleDir (.new _ (.empty d.room)) [] 0 m.stagingOrder
    with ⟨writer, result⟩
  obtain ⟨hroom, -, hcases⟩ := writeShards_spec _ _ _ _ hwrite
  rw [hwrite] at hloop
  rcases hloop with ⟨e, rfl, hstage⟩ | ⟨rfl, hstage⟩
  · exact Or.inl ⟨e, rfl, Or.inl hstage⟩
  · obtain ⟨e, habsurd, -⟩ | ⟨-, -, hgiven⟩ := hcases
    · exact nomatch habsurd
    have hgiven : writer.given = (d.opened H bundleId m bundleDir).flatten := hgiven
    have hroom : writer.file.room = d.room := hroom
    have hflush := BufferedWriter.flush_eq_true_iff (w := writer)
    rw [hgiven, hroom] at hflush
    rcases hcall : writer.flush with ⟨writer', - | -⟩
    · rw [hcall] at hflush
      have hanswer : (d.answers H bundleId m bundleDir).flush = .error d.refusal :=
        if_neg fun hfits ↦ Bool.false_ne_true (hflush.2 hfits)
      simp only [hcall]
      exact Or.inl ⟨_, rfl, Or.inr ⟨congrArg Prod.snd hstage, hanswer, rfl⟩⟩
    · rw [hcall] at hflush
      simp only [hcall]
      exact Or.inr ⟨rfl, hstage, if_pos (hflush.1 rfl)⟩

/-! ### When it leaves nothing -/

variable {dir : StagingDir} {b : StoredBundle}

variable (H) in
/-- The whole bundle gets written: every shard opens and the file has room for all of them. -/
structure Writes (d : StagingDisk) (bundleId : String) (b : StoredBundle) : Prop where
  all_open :
    (d.opened H bundleId b.manifest b.bundleDir).length = b.manifest.stagingOrder.length
  fits : (d.opened H bundleId b.manifest b.bundleDir).flatten.length ≤ d.room

variable (H) in
/-- The staging of a bundle meets no failure. -/
structure Completes (d : StagingDisk) (bundleId : String) (b : StoredBundle) : Prop where
  createDir : d.createDir = .ok ()
  clear : d.clear = .ok ()
  create : d.create = .ok ()
  writes : d.Writes H bundleId b
  total : Sha256.digestHex (d.opened H bundleId b.manifest b.bundleDir).flatten =
    b.manifest.totalPlaintextSha256

variable (H) in
/-- What a staging that does not complete leaves at the staged path holds nothing of the bundle: the
path is not reached, and held nothing before; or no byte has been decrypted, or the file takes none;
or all of it has been written, so that only the digest is wrong, and the file can be removed. -/
structure LeavesPathClean (d : StagingDisk) (dir : StagingDir) (bundleId : String)
    (b : StoredBundle) : Prop where
  not_reached : ¬(d.createDir = .ok () ∧ d.clear = .ok ()) →
    ¬dir.Exposes bundleId (stagedName bundleId)
  reached : d.createDir = .ok () → d.clear = .ok () → d.create = .ok () →
    (d.opened H bundleId b.manifest b.bundleDir).flatten = [] ∨ d.room = 0 ∨
      d.Writes H bundleId b ∧ d.remove = .ok ()

end StagingDisk

/-! ### Files -/

namespace StagingDir

variable {dir : StagingDir} {bundleId name path : String} {contents : Bytes}

theorem put_self (dir : StagingDir) (name bundleId : String) (plaintext : Bytes) :
    dir.put name bundleId plaintext name = some ⟨plaintext, some bundleId⟩ :=
  Function.update_self ..

theorem remove_remove (dir : StagingDir) (name : String) :
    (dir.remove name).remove name = dir.remove name :=
  Function.update_idem ..

theorem forall_not_exposes_remove :
    (∀ name, ¬(dir.remove path).Exposes bundleId name) ↔
      ∀ name, name ≠ path → ¬dir.Exposes bundleId name := by
  refine forall_congr' fun name ↦ ?_
  rcases eq_or_ne name path with rfl | hne
  · refine iff_of_true ?_ fun h ↦ absurd rfl h
    rintro ⟨file, hfile, -⟩
    rw [remove, Function.update_self] at hfile
    exact Option.some_ne_none file hfile.symm
  · rw [Exposes, remove, Function.update_of_ne hne]
    exact ⟨fun h _ ↦ h, fun h ↦ h hne⟩

theorem forall_not_exposes_put :
    (∀ name, ¬(dir.put path bundleId contents).Exposes bundleId name) ↔
      contents = [] ∧ ∀ name, name ≠ path → ¬dir.Exposes bundleId name := by
  constructor
  · intro h
    refine ⟨?_, fun name hne hexposes ↦ h name ?_⟩
    · by_contra hcontents
      exact h path ⟨_, put_self .., rfl, hcontents⟩
    · rwa [Exposes, put, Function.update_of_ne hne]
  · rintro ⟨rfl, hothers⟩ name
    rcases eq_or_ne name path with rfl | hne
    · rintro ⟨file, hfile, -, hcontents⟩
      rw [put_self] at hfile
      obtain rfl := Option.some.inj hfile
      exact hcontents rfl
    · rw [Exposes, put, Function.update_of_ne hne]
      exact hothers name hne

end StagingDir

/-! ### What a staging leaves -/

/-- **Nothing is left behind** of a staging: no file of the directory holds plaintext of the bundle,
and the store has its status and verdict as it had them. -/
def NothingLeft (bundleId : String) (store store' : BundleStore) (dir' : StagingDir) : Prop :=
  (∀ name, ¬dir'.Exposes bundleId name) ∧
    (store'.bundles.lookup bundleId).map StoredBundle.gate =
      (store.bundles.lookup bundleId).map StoredBundle.gate

/-- The status that a staging sets is the one that its bundle is left with. -/
theorem gate_setStatus_staging_iff {store : BundleStore} {bundleId : String} {b : StoredBundle}
    (hlookup : store.bundles.lookup bundleId = some b) :
    ((store.setStatus bundleId .staging).bundles.lookup bundleId).map StoredBundle.gate =
      (store.bundles.lookup bundleId).map StoredBundle.gate ↔ b.status = .staging := by
  rw [BundleStore.lookup_setStatus, if_pos rfl, hlookup, Option.map_some, Option.map_some,
    Option.map_some, Option.some.injEq]
  show (⟨.staging, b.verdict⟩ : BundleEntry) = ⟨b.status, b.verdict⟩ ↔ _
  rw [BundleEntry.mk.injEq, eq_self_iff_true, and_true, eq_comm]

section Outcome

variable {H : BundleHost} {store : BundleStore} {dir : StagingDir} {d : StagingDisk}
  {bundleId : String} {b : StoredBundle} (hlookup : store.bundles.lookup bundleId = some b)
include hlookup

/-- **The ways a staging of a registered bundle can end**: before it has reached the file, without a
file, with a file of what was decrypted, and well. Only the last gives the bundle a status other
than that of a staging under way. -/
theorem stageToDisk_cases (now : ℤ) :
    ((∃ e, store.stageToDisk H dir now d bundleId =
          (store.setStatus bundleId .staging, dir, .error e)) ∧
        ¬(d.createDir = .ok () ∧ d.clear = .ok ())) ∨
      ((∃ e, store.stageToDisk H dir now d bundleId =
          (store.setStatus bundleId .staging, dir.remove (stagedName bundleId), .error e)) ∧
        d.createDir = .ok () ∧ d.clear = .ok () ∧ ¬d.Completes H bundleId b ∧
          (d.create = .ok () → d.Writes H bundleId b ∧ d.remove = .ok ())) ∨
      ((∃ e, store.stageToDisk H dir now d bundleId =
          (store.setStatus bundleId .staging, (dir.remove (stagedName bundleId)).put
            (stagedName bundleId) bundleId
            ((d.opened H bundleId b.manifest b.bundleDir).flatten.take d.room), .error e)) ∧
        d.createDir = .ok () ∧ d.clear = .ok () ∧ d.create = .ok () ∧
          ¬d.Completes H bundleId b ∧ ¬(d.Writes H bundleId b ∧ d.remove = .ok ())) ∨
      (store.stageToDisk H dir now d bundleId).2.2 = .ok () ∧ d.Completes H bundleId b := by
  rcases hdir : d.createDir with e | ⟨⟩
  · refine Or.inl ⟨⟨.internal ("cannot create staging directory: " ++ e), ?_⟩, fun h ↦ nomatch h.1⟩
    simp only [BundleStore.stageToDisk, hlookup, hdir]
  rcases hclear : d.clear with e | ⟨⟩
  · refine Or.inl ⟨⟨.internal ("cannot clear the staging path " ++
      UnixPath.join d.stagingDir (stagedName bundleId) ++ ": " ++ e), ?_⟩, fun h ↦ nomatch h.2⟩
    simp only [BundleStore.stageToDisk, hlookup, hdir, StagingDisk.createPrivateFile, hclear]
  rcases hcreate : d.create with e | ⟨⟩
  · have hfailed : ¬d.Completes H bundleId b := fun h ↦ nomatch hcreate.symm.trans h.create
    refine Or.inr (Or.inl ⟨⟨.internal ("cannot create the staging file " ++
      UnixPath.join d.stagingDir (stagedName bundleId) ++ ": " ++ e), ?_⟩, rfl, rfl, hfailed,
        nofun⟩)
    simp only [BundleStore.stageToDisk, hlookup, hdir, StagingDisk.createPrivateFile, hclear,
      hcreate]
  have hfile := StagingDisk.writeBundle_fst (H := H) d bundleId b.manifest b.bundleDir
  have hresult := @StagingDisk.writeBundle_snd_eq_ok H d bundleId b.bundleDir b.manifest
  rcases hwrite : d.writeBundle H bundleId b.manifest b.bundleDir with ⟨contents, e | hashed⟩
  · -- a shard did not open or was refused
    rw [hwrite] at hfile hresult
    have hwrites : ¬d.Writes H bundleId b :=
      fun h ↦ nomatch (@hresult _).2 ⟨h.all_open, h.fits, rfl⟩
    refine Or.inr (Or.inr (Or.inl ⟨⟨e, ?_⟩, rfl, rfl, rfl, fun h ↦ hwrites h.writes,
      fun h ↦ hwrites h.1⟩))
    rw [← hfile]
    simp only [BundleStore.stageToDisk, hlookup, hdir, StagingDisk.createPrivateFile, hclear,
      hcreate, hwrite]
  · rw [hwrite] at hfile hresult
    obtain ⟨hall, hfits, hhashed⟩ := (@hresult hashed).1 rfl
    have hwrites : d.Writes H bundleId b := ⟨hall, hfits⟩
    by_cases htotal : Sha256.digestHex hashed = b.manifest.totalPlaintextSha256
    · refine Or.inr (Or.inr (Or.inr ⟨?_, hdir, hclear, hcreate, hwrites, hhashed ▸ htotal⟩))
      simp only [BundleStore.stageToDisk, hlookup, hdir, StagingDisk.createPrivateFile, hclear,
        hcreate, hwrite, ctEq_asBytes_iff, if_pos htotal]
    · have hfailed : ¬d.Completes H bundleId b := fun h ↦ htotal (hhashed ▸ h.total)
      rcases hremove : d.remove with e | ⟨⟩
      · refine Or.inr (Or.inr (Or.inl ⟨⟨.modelIntegrityViolation bundleId, ?_⟩, rfl, rfl, rfl,
          hfailed, fun h ↦ nomatch h.2⟩))
        rw [← hfile]
        simp only [BundleStore.stageToDisk, hlookup, hdir, StagingDisk.createPrivateFile, hclear,
          hcreate, hwrite, ctEq_asBytes_iff, if_neg htotal, hremove]
      · refine Or.inr (Or.inl ⟨⟨.modelIntegrityViolation bundleId, ?_⟩, rfl, rfl, hfailed,
          fun _ ↦ ⟨hwrites, rfl⟩⟩)
        simp only [BundleStore.stageToDisk, hlookup, hdir, StagingDisk.createPrivateFile, hclear,
          hcreate, hwrite, ctEq_asBytes_iff, if_neg htotal, hremove, StagingDir.remove_remove]

/-- A staging of a registered bundle leaves nothing exactly if it completes, or the bundle counted
as being staged already and no plaintext of it is, or stays, in the directory. -/
theorem stageToDisk_nothingLeft_iff (now : ℤ) :
    (∀ e, (store.stageToDisk H dir now d bundleId).2.2 = .error e →
      NothingLeft bundleId store (store.stageToDisk H dir now d bundleId).1
        (store.stageToDisk H dir now d bundleId).2.1) ↔
      d.Completes H bundleId b ∨ b.status = .staging ∧
        (∀ name, name ≠ stagedName bundleId → ¬dir.Exposes bundleId name) ∧
          d.LeavesPathClean H dir bundleId b := by
  have hgate := gate_setStatus_staging_iff hlookup
  rcases @stageToDisk_cases H store dir d bundleId b hlookup now with
    ⟨⟨e, hcall⟩, hstop⟩ | ⟨⟨e, hcall⟩, hdir, hclear, hfailed, hremoved⟩ |
    ⟨⟨e, hcall⟩, hdir, hclear, hcreate, hfailed, hkept⟩ | ⟨hcall, hcompletes⟩
  · -- the file is not reached
    have hfailed : ¬d.Completes H bundleId b := fun h ↦ hstop ⟨h.createDir, h.clear⟩
    rw [hcall, NothingLeft, hgate, or_iff_right hfailed]
    constructor
    · intro h
      obtain ⟨hclean, hstatus⟩ := h e rfl
      refine ⟨hstatus, fun name _ ↦ hclean name, fun _ ↦ hclean _, fun hdir hclear _ ↦ ?_⟩
      exact absurd ⟨hdir, hclear⟩ hstop
    · rintro ⟨hstatus, hothers, hpath⟩ _ -
      refine ⟨fun name ↦ ?_, hstatus⟩
      rcases eq_or_ne name (stagedName bundleId) with rfl | hne
      · exact hpath.not_reached hstop
      · exact hothers name hne
  · -- the file is not there any more
    rw [hcall, NothingLeft, hgate, or_iff_right hfailed, StagingDir.forall_not_exposes_remove]
    constructor
    · intro h
      obtain ⟨hothers, hstatus⟩ := h e rfl
      refine ⟨hstatus, hothers, fun hstop ↦ absurd ⟨hdir, hclear⟩ hstop, fun _ _ hcreate ↦ ?_⟩
      exact Or.inr (Or.inr (hremoved hcreate))
    · rintro ⟨hstatus, hothers, -⟩ _ -
      exact ⟨hothers, hstatus⟩
  · -- the file is there, with what has been decrypted
    rw [hcall, NothingLeft, hgate, or_iff_right hfailed, StagingDir.forall_not_exposes_put,
      List.take_eq_nil_iff]
    constructor
    · intro h
      obtain ⟨⟨hempty, hothers⟩, hstatus⟩ := h e rfl
      refine ⟨hstatus, fun name hne hexposes ↦ hothers name hne ?_, ?_⟩
      · rwa [StagingDir.Exposes, StagingDir.remove, Function.update_of_ne hne]
      · refine ⟨fun hstop ↦ absurd ⟨hdir, hclear⟩ hstop, fun _ _ _ ↦ ?_⟩
        rcases hempty with hroom | hnone
        · exact Or.inr (Or.inl hroom)
        · exact Or.inl hnone
    · rintro ⟨hstatus, hothers, hpath⟩ _ -
      refine ⟨⟨?_, fun name hne hexposes ↦ hothers name hne ?_⟩, hstatus⟩
      · rcases hpath.reached hdir hclear hcreate with hnone | hroom | hremoved
        · exact Or.inr hnone
        · exact Or.inl hroom
        · exact absurd hremoved hkept
      · rwa [StagingDir.Exposes, StagingDir.remove, Function.update_of_ne hne] at hexposes
  · refine iff_of_true (fun e he ↦ ?_) (Or.inl hcompletes)
    exact nomatch hcall.symm.trans he

/-- **The staging without files is this one**, given the answers of the file system: the same
result, the same store, and the same file where there is a result. -/
theorem stagePlaintext_of_answers (now : ℤ) :
    (store.stagePlaintext H now (d.answers H bundleId b.manifest b.bundleDir) bundleId).1 =
        (store.stageToDisk H dir now d bundleId).1 ∧
      (store.stagePlaintext H now (d.answers H bundleId b.manifest b.bundleDir) bundleId).2.2 =
        (store.stageToDisk H dir now d bundleId).2.2 ∧
      ((store.stageToDisk H dir now d bundleId).2.2 = .ok () →
        (store.stageToDisk H dir now d bundleId).2.1 (stagedName bundleId) =
          some ⟨(store.stagePlaintext H now (d.answers H bundleId b.manifest b.bundleDir)
            bundleId).2.1, some bundleId⟩) := by
  simp only [BundleStore.stagePlaintext, BundleStore.stageToDisk, hlookup]
  rcases hdir : d.createDir with e | ⟨⟩
  · simp only [decryptBundle, StagingDisk.answers, hdir]
    exact ⟨trivial, trivial, by simp⟩
  rcases hclear : d.clear with e | ⟨⟩
  · simp only [decryptBundle, StagingDisk.answers, hdir, StagingDisk.createPrivateFile, hclear]
    exact ⟨trivial, trivial, by simp⟩
  rcases hcreate : d.create with e | ⟨⟩
  · simp only [decryptBundle, StagingDisk.answers, hdir, StagingDisk.createPrivateFile, hclear,
      hcreate]
    exact ⟨trivial, trivial, by simp⟩
  have hanswer : (d.answers H bundleId b.manifest b.bundleDir).create = .ok () := by
    simp only [StagingDisk.answers, hdir, StagingDisk.createPrivateFile, hclear, hcreate]
  have hfile := StagingDisk.writeBundle_fst (H := H) d bundleId b.manifest b.bundleDir
  have hresult := @StagingDisk.writeBundle_snd_eq_ok H d bundleId b.bundleDir b.manifest
  have hloops := StagingDisk.stageShards_of_writeBundle (H := H) d bundleId b.manifest b.bundleDir
  simp only [decryptBundle, hanswer, StagingDisk.createPrivateFile, hclear, hcreate,
    ctEq_asBytes_iff]
  rcases hwrite : d.writeBundle H bundleId b.manifest b.bundleDir with ⟨contents, result⟩
  rw [hwrite] at hfile hresult hloops
  rcases hloops with ⟨e, rfl, hstage⟩ | ⟨rfl, hstage, hflush⟩
  · rcases hcall : stageShards H (d.answers H bundleId b.manifest b.bundleDir) bundleId b.bundleDir
      [] 0 b.manifest.stagingOrder with ⟨written, outcome⟩
    rw [hcall] at hstage
    rcases hstage with rfl | ⟨rfl, hflush, rfl⟩
    · exact ⟨rfl, rfl, by simp⟩
    · simp only [hflush]
      exact ⟨trivial, trivial, by simp⟩
  · by_cases htotal : Sha256.digestHex (d.opened H bundleId b.manifest b.bundleDir).flatten =
      b.manifest.totalPlaintextSha256
    · simp only [hstage, hflush, if_pos htotal]
      refine ⟨trivial, trivial, fun _ ↦ ?_⟩
      have hfits := ((@hresult _).1 rfl).2.1
      have hcontents : contents = _ := hfile
      rw [StagingDir.put_self, hcontents, List.take_of_length_le hfits]
    · simp only [hstage, hflush, if_neg htotal]
      rcases d.remove with e | ⟨⟩
      · exact ⟨rfl, rfl, by simp⟩
      · exact ⟨rfl, rfl, by simp⟩

end Outcome

/-- **When a failed staging leaves nothing behind**: for every bundle, key, staging directory and
way in which files and shards answer. -/
theorem failed_staging_leaves_nothing_iff (H : BundleHost) (store : BundleStore) (dir : StagingDir)
    (now : ℤ) (d : StagingDisk) (bundleId : String) :
    (∀ e, (store.stageToDisk H dir now d bundleId).2.2 = .error e →
      NothingLeft bundleId store (store.stageToDisk H dir now d bundleId).1
        (store.stageToDisk H dir now d bundleId).2.1) ↔
      (store.bundles.lookup bundleId = none ∧ ∀ name, ¬dir.Exposes bundleId name) ∨
        ∃ b, store.bundles.lookup bundleId = some b ∧
          (d.Completes H bundleId b ∨ b.status = .staging ∧
            (∀ name, name ≠ stagedName bundleId → ¬dir.Exposes bundleId name) ∧
              d.LeavesPathClean H dir bundleId b) := by
  rcases hlookup : store.bundles.lookup bundleId with - | b
  · have hcall : store.stageToDisk H dir now d bundleId =
        (store, dir, .error (.modelNotFound bundleId)) := by
      simp only [BundleStore.stageToDisk, hlookup]
    rw [hcall]
    constructor
    · intro h
      exact Or.inl ⟨rfl, (h _ rfl).1⟩
    · rintro (⟨-, hclean⟩ | ⟨b, hb, -⟩) _ -
      · exact ⟨hclean, rfl⟩
      · exact nomatch hb
  · rw [stageToDisk_nothingLeft_iff hlookup now]
    constructor
    · intro h
      exact Or.inr ⟨b, rfl, h⟩
    · rintro (⟨hnone, -⟩ | ⟨b', hb', h⟩)
      · exact nomatch hnone
      · obtain rfl := Option.some.inj hb'
        exact h

/-! ### A bundle whose second shard is lost -/

namespace SampleStaging

/-- The files of the sample bundle, the second shard apart. -/
def lostShard : ShardReads := fun _ path ↦
  if path = "/models/sample/shard-1.enc" then .missing else SampleProvision.disk path

/-- A file system that answers every request, on a disk with room. -/
def disk (read : ShardReads) : StagingDisk where
  bundleKey := []
  read := read
  stagingDir := "/dev/shm"
  createDir := .ok ()
  clear := .ok ()
  create := .ok ()
  room := 1000
  refusal := "No space left on device (os error 28)"
  remove := .ok ()

/-- The directory before the staging. -/
def dir : StagingDir := fun _ ↦
  none

/-- The first shard has been given to the writer when the second one is not found. -/
theorem writeShards_lostShard :
    ((disk lostShard).writeShards (SampleProvision.host 0 1).toBundleHost "sample" SampleBundle.dir
        (.new _ (.empty 1000)) [] 0 (SampleProvision.manifest 0 1).shards.zipIdx).1.dropped = [97] ∧
      ((disk lostShard).writeShards (SampleProvision.host 0 1).toBundleHost "sample"
        SampleBundle.dir (.new _ (.empty 1000)) [] 0
          (SampleProvision.manifest 0 1).shards.zipIdx).2 = .error (.internal
        "cannot read shard shard-1.enc: No such file or directory (os error 2)") := by
  decide +kernel

theorem writeBundle_lostShard :
    (disk lostShard).writeBundle (SampleProvision.host 0 1).toBundleHost "sample"
        (SampleProvision.manifest 0 1) SampleBundle.dir =
      ([97], .error (.internal
        "cannot read shard shard-1.enc: No such file or directory (os error 2)")) := by
  have horder : (SampleProvision.manifest 0 1).stagingOrder =
      (SampleProvision.manifest 0 1).shards.zipIdx := by
    refine BundleManifest.stagingOrder_of_sorted ?_
    show List.Pairwise _ [_, _]
    simp
  obtain ⟨hdropped, hresult⟩ := writeShards_lostShard
  rw [StagingDisk.writeBundle, horder, show (disk lostShard).room = 1000 from rfl]
  rcases hloop : (disk lostShard).writeShards (SampleProvision.host 0 1).toBundleHost "sample"
    SampleBundle.dir (.new _ (.empty 1000)) [] 0 (SampleProvision.manifest 0 1).shards.zipIdx
    with ⟨writer, result⟩
  rw [hloop] at hdropped hresult
  obtain rfl : result = _ := hresult
  show (writer.dropped, _) = _
  rw [show writer.dropped = [97] from hdropped]

end SampleStaging

open SampleStaging in
/-- **A bundle whose second shard is lost** leaves its first one in the clear, and itself marked as
being staged. -/
theorem lost_shard_leaves_plaintext :
    (SampleProvision.store 0 1).stageToDisk (SampleProvision.host 0 1).toBundleHost dir 0
        (disk lostShard) "sample" =
      ((SampleProvision.store 0 1).setStatus "sample" .staging,
        (dir.remove "sample.staged").put "sample.staged" "sample" [97], .error (.internal
          "cannot read shard shard-1.enc: No such file or directory (os error 2)")) ∧
      ¬∀ e, ((SampleProvision.store 0 1).stageToDisk (SampleProvision.host 0 1).toBundleHost dir 0
          (disk lostShard) "sample").2.2 = .error e →
        NothingLeft "sample" (SampleProvision.store 0 1)
          ((SampleProvision.store 0 1).stageToDisk (SampleProvision.host 0 1).toBundleHost dir 0
            (disk lostShard) "sample").1
          ((SampleProvision.store 0 1).stageToDisk (SampleProvision.host 0 1).toBundleHost dir 0
            (disk lostShard) "sample").2.1 := by
  have hlookup : (SampleProvision.store 0 1).bundles.lookup "sample" =
      some (BundleStore.registered (SampleProvision.manifest 0 1) SampleBundle.dir) := rfl
  have hcall : (SampleProvision.store 0 1).stageToDisk (SampleProvision.host 0 1).toBundleHost dir 0
      (disk lostShard) "sample" =
        ((SampleProvision.store 0 1).setStatus "sample" .staging,
          (dir.remove "sample.staged").put "sample.staged" "sample" [97], .error (.internal
            "cannot read shard shard-1.enc: No such file or directory (os error 2)")) := by
    have hdir : (disk lostShard).createDir = .ok () := rfl
    have hfile : (disk lostShard).createPrivateFile dir "sample" =
        (dir.remove "sample.staged", .ok ()) := rfl
    simp only [BundleStore.stageToDisk, hlookup, hdir, hfile]
    rw [show (BundleStore.registered (SampleProvision.manifest 0 1) SampleBundle.dir).manifest =
      SampleProvision.manifest 0 1 from rfl,
      show (BundleStore.registered (SampleProvision.manifest 0 1) SampleBundle.dir).bundleDir =
      SampleBundle.dir from rfl, writeBundle_lostShard]
    rfl
  refine ⟨hcall, fun h ↦ ?_⟩
  rw [hcall] at h
  refine (h _ rfl).1 "sample.staged" ⟨⟨[97], some "sample"⟩, ?_, rfl, List.cons_ne_nil _ _⟩
  show ((dir.remove "sample.staged").put "sample.staged" "sample" [97]) "sample.staged" = _
  exact StagingDir.put_self _ _ _ _

end Cordon
