import Cordon.Audit.Events
import Cordon.Core.BundleVerify

/-!
# Sealing weights into a bundle

`bundle::seal_into` reads the weight files one after the other, fills a buffer of one shard's size
from however many reads the file system takes for it, and encrypts what it has into a file of its
own. A file ends with a short shard, or with none where its length is a multiple of the shard size,
so no shard holds bytes of two files. The index of a shard gives it its key, the name of its file
and its place in the concatenation.

Reads are an input: `SealIo.read` says how many bytes the file system is willing to return each
time. Progress events are left out.

Nothing is proved here. The writer is followed to its end in `Core.SealedBundles`, and what is made
of its output in `Core.SealedReaders`; both know of this module what a fill returns, what a shard's
entry says, and where the file of a shard is.
-/

namespace Cordon

/-- What to seal and how, as far as `seal_into` reads it. -/
structure SealRequest where
  master : MasterKey
  /-- Generated when absent. -/
  bundleId : Option String
  modelVersion : String
  /-- Directory to write the bundle into. -/
  output : String
  /-- Plaintext bytes per shard. -/
  shardSize : ℕ

/-- A weight file: its path, its name if that is valid Unicode, and what it holds. -/
structure WeightFile where
  path : String
  fileName : Option String
  contents : Bytes

/-- The clock, the randomness and the system calls of a sealing. An `Option String` is the error of
a call that fails. -/
structure SealIo where
  generatedId : Uuid
  createDir : Option String
  /-- Opening the weight file at a position. -/
  openFile : ℕ → Option String
  /-- Whether the flag is set at a read. -/
  cancelled : ℕ → Bool
  /-- How many bytes a read would return if there were no end to the buffer and the file. -/
  read : ℕ → Except String ℕ
  /-- The nonce drawn for a shard. -/
  nonce : ℕ → Bytes
  writeShard : ℕ → Option String
  now : ℤ
  createManifest : Option String
  writeManifest : Option String
  renameManifest : Option String

/-- Bytes read from a weight file at a time. -/
@[irreducible]
def readChunk : ℕ :=
  8 * 1024 * 1024

theorem readChunk_pos : 0 < readChunk := by
  unfold readChunk
  norm_num

/-- Reduce a filename to characters that are safe in a path and a manifest. -/
def sanitize (name : String) : String :=
  let cleaned := (name.toList.map fun c ↦
    if c.isAlphanum || c = '-' || c = '_' || c = '.' then c else '_').take 64
  if cleaned.isEmpty then "shard" else String.ofList cleaned

/-- The name of a shard's file. The index has at least five digits. -/
def shardName (shardIndex : ℕ) (name : String) : String :=
  let digits := toString shardIndex
  String.ofList (List.replicate (5 - digits.length) '0') ++ digits ++ "-" ++ sanitize name ++ ".enc"

/-- The path of a shard's file, relative to the bundle directory. -/
def shardPath (shardIndex : ℕ) (name : String) : String :=
  "shards/" ++ shardName shardIndex name

section Seal

variable (H : ProvisionHost)

/-- The manifest's entry for a shard. -/
def shardDescriptor (shardIndex : ℕ) (name : String) (plaintext ciphertext nonce : Bytes) :
    ShardDescriptor where
  path := shardPath shardIndex name
  plaintextSha256 := Sha256.digestHex plaintext
  ciphertextSha256 := Sha256.digestHex ciphertext
  ivBase64 := H.base64Encode nonce
  sizeBytes := plaintext.length
  layerIndex := shardIndex

/-- A sealing under way: the files, the shards so far, what the running digest has been given, and
how many reads there were. -/
structure SealState where
  disk : Disk
  shards : List ShardDescriptor
  hashed : Bytes
  shardIndex : ℕ
  reads : ℕ

variable (request : SealRequest) (io : SealIo)

/-- Fill the buffer with what is left of a file, reading at most `chunk` bytes at a time. Returns
the buffer, the rest of the file and the number of reads. -/
def fillBufferBy (chunk : ℕ) (path : String) (buffer rest : Bytes) (reads : ℕ) :
    Except CordonError (Bytes × Bytes × ℕ) :=
  if buffer.length < request.shardSize then
    if io.cancelled reads then .error (.internal "cancelled")
    else
      match io.read reads with
      | .error e => .error (ioError "read" path e)
      | .ok willing =>
        let room := min (buffer.length + chunk) request.shardSize - buffer.length
        -- a read returns something unless there is no room or nothing left
        let n := min (max willing 1) (min room rest.length)
        if n = 0 then .ok (buffer, rest, reads + 1)
        else fillBufferBy chunk path (buffer ++ rest.take n) (rest.drop n) (reads + 1)
  else .ok (buffer, rest, reads)
termination_by request.shardSize - buffer.length
decreasing_by
  rw [List.length_append, List.length_take]
  omega

/-- Fill the buffer, as the source does. -/
def fillBuffer (path : String) (rest : Bytes) (reads : ℕ) :
    Except CordonError (Bytes × Bytes × ℕ) :=
  fillBufferBy request io readChunk path [] rest reads

variable {request io} in
/-- Filling the buffer only moves bytes from the file to it. -/
theorem fillBufferBy_append {chunk : ℕ} {path : String} {buffer rest buffer' rest' : Bytes}
    {reads reads' : ℕ}
    (h : fillBufferBy request io chunk path buffer rest reads = .ok (buffer', rest', reads')) :
    buffer' ++ rest' = buffer ++ rest := by
  fun_induction fillBufferBy request io chunk path buffer rest reads with
  | case1 => simp at h
  | case2 => simp at h
  | case3 buffer rest reads =>
    simp only [Except.ok.injEq, Prod.mk.injEq] at h
    rw [h.1, h.2.1]
  | case4 buffer rest reads _ _ willing _ room n _ ih =>
    rw [ih h, List.append_assoc, List.take_append_drop]
  | case5 buffer rest reads =>
    simp only [Except.ok.injEq, Prod.mk.injEq] at h
    rw [h.1, h.2.1]

/-- The state with one more shard: its file, its entry and its bytes in the running digest. -/
def SealState.withShard (name : String) (plaintext ciphertext nonce : Bytes) (st : SealState) :
    SealState where
  disk := Function.update st.disk
    (UnixPath.join (UnixPath.join request.output "shards") (shardName st.shardIndex name))
    (.file ciphertext)
  shards := st.shards ++ [shardDescriptor H st.shardIndex name plaintext ciphertext nonce]
  hashed := st.hashed ++ plaintext
  shardIndex := (st.shardIndex + 1) % 2 ^ 32
  reads := st.reads

/-- Encrypt a buffer into a shard of its own. -/
def sealShard (bundleKey : Bytes) (name : String) (plaintext : Bytes) (st : SealState) :
    Except CordonError SealState := do
  let shardKey ← (H.deriveShardKey bundleKey st.shardIndex).mapError .keyError
  let nonce := io.nonce st.shardIndex
  let ciphertext ← (H.encryptShard shardKey plaintext nonce).mapError fun e ↦
    .internal ("encryption failed: " ++ e)
  match io.writeShard st.shardIndex with
  | some e =>
    .error (ioError "write" (UnixPath.join (UnixPath.join request.output "shards")
      (shardName st.shardIndex name)) e)
  | none => return st.withShard H request name plaintext ciphertext nonce

/-- Seal what is left of a file, shard after shard. -/
def sealFile (bundleKey : Bytes) (path name : String) (rest : Bytes) (st : SealState) :
    Except CordonError SealState :=
  match _hfill : fillBuffer request io path rest st.reads with
  | .error e => .error e
  | .ok (plaintext, rest', reads) =>
    if _hfilled : plaintext = [] then .ok { st with reads := reads }
    else
      match sealShard H request io bundleKey name plaintext { st with reads := reads } with
      | .error e => .error e
      | .ok st' =>
        if plaintext.length < request.shardSize then .ok st'
        else sealFile bundleKey path name rest' st'
termination_by rest.length
decreasing_by
  have happend : plaintext ++ rest' = [] ++ rest := fillBufferBy_append _hfill
  have hpos := List.length_pos_iff.2 _hfilled
  have hlength := congrArg List.length happend
  simp only [List.length_append, List.length_nil] at hlength
  omega

/-- Seal the weight files one after the other. -/
def sealFiles (bundleKey : Bytes) : ℕ → List WeightFile → SealState → Except CordonError SealState
  | _, [], st => .ok st
  | i, file :: files, st =>
    match io.openFile i with
    | some e => .error (ioError "open" file.path e)
    | none => do
      let st ← sealFile H request io bundleKey file.path (file.fileName.getD "weights")
        file.contents st
      sealFiles bundleKey (i + 1) files st

/-- The identifier of a bundle: the requested one without surrounding white space, or a new one. -/
def sealedId : String :=
  ((request.bundleId.map fun id ↦ String.ofList (Text.trim id.toList)).filter fun id ↦
    !id.isEmpty).getD io.generatedId.display

/-- The manifest of the shards. Signatures are applied later, by others. -/
def sealedManifest (principal modelName : String) (st : SealState) : BundleManifest where
  bundleId := sealedId request io
  modelName := modelName
  modelVersion := String.ofList (Text.trim request.modelVersion.toList)
  createdAt := io.now
  encryptionAlgorithm := requiredEncryptionAlgorithm
  keyDerivation := requiredKeyDerivation
  clientKeyId := principal
  totalPlaintextSha256 := Sha256.digestHex st.hashed
  shards := st.shards
  minimumRequirements := ⟨"2.1.0", ⟨none, none⟩, ⟨0, 4, false⟩⟩
  policyHash := Sha256.digestHex (Text.asBytes "cordon-default-policy-v1")
  vendorSignature := ""
  clientApprovalSignature := ""

/-- Everything of `seal_into` before the manifest is written: the shards, and a manifest that the
node would accept. -/
def sealContents (principal modelName : String) (files : List WeightFile) (disk : Disk) :
    Except CordonError (BundleManifest × Disk) := do
  let bundleId := sealedId request io
  .ensure (isSafeBundleId bundleId)
    (.validationFailed "a bundle ID may contain only letters, digits, '.', '-' and '_'")
  let bundleKey ← (request.master.deriveBundleKey H.hkdf bundleId principal).mapError fun e ↦
    .keyError e.display
  match io.createDir with
  | some e => .error (ioError "create" (UnixPath.join request.output "shards") e)
  | none =>
    let st ← sealFiles H request io bundleKey 0 files ⟨disk, [], [], 0, 0⟩
    let manifest := sealedManifest request io principal modelName st
    -- a manifest the node would reject is not emitted
    manifest.validateStructure H.toBundleHost
    return (manifest, st.disk)

/-- Seal weights into a bundle directory: the shards first, `manifest.json` last. Returns the
manifest and the files. -/
def sealInto (principal modelName : String) (files : List WeightFile) (disk : Disk) :
    Except CordonError (BundleManifest × Disk) := do
  let (manifest, disk) ← sealContents H request io principal modelName files disk
  let manifestPath := UnixPath.join request.output "manifest.json"
  let tmp := UnixPath.join request.output "manifest.json.tmp"
  let bytes ← (H.manifestPretty manifest).mapError fun e ↦
    .internal ("cannot serialise the manifest: " ++ e)
  match io.createManifest, io.writeManifest, io.renameManifest with
  | some e, _, _ => .error (ioError "create" tmp e)
  | none, some e, _ => .error (ioError "write" tmp e)
  | none, none, some e => .error (ioError "write" manifestPath e)
  | none, none, none =>
    -- the temporary file becomes the manifest
    let disk := Function.update disk tmp .missing
    return (manifest, Function.update disk manifestPath (.file bytes))

end Seal

end Cordon
