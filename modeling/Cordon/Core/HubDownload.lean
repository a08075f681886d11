import Cordon.Core.Error
import Cordon.Crypto.Kdf
import Cordon.Lib.Loop
import Cordon.Lib.Sha256
import Cordon.Lib.UnixPath
import Mathlib.Logic.Function.Basic

/-!
# Downloading a model, and going on with a download

`download` fetches a model file into a directory. It writes under a name of its own first and
renames at the end, so what an interrupted download leaves is the beginning of the file under that
name, and the next download asks for the rest of it.

Every step that the system may refuse is asked of a `PullIo`, the server is a function from the
range asked for to the answer, and the body of an answer is the list of what arrives. What the hash
of the prefix reads is what is read piece by piece (`hashPrefix_eq`).

`FollowsRanges` is what a server does that keeps to the rules for byte ranges, which let it send the
whole file, any part of the range, or, where there is nothing in the range, a refusal. The client
takes what it is sent for the rest of the file, and a refusal for a failure. So a download that is
not disturbed leaves the remote file and its record exactly where the server **sends the whole
rest** of what was left, and what the Hub publishes, if anything, is the digest of the file
(`resumed_download_iff`): not where the whole file was there already and the server refuses the
empty rest.

What comes of the two sides is said once for any answer (`exec_fetch`): the file is what was there
and what arrived, and it is kept unless another digest is published. The theorem then compares that
file with the remote one.
-/

namespace Cordon

namespace Hub

/-- A file selected for download. -/
structure ResolvedModel where
  repoId : String
  revision : String
  filename : String
  quant : Option String
  deriving DecidableEq, Repr

/-- The record of a downloaded model. -/
structure DownloadedModel where
  id : String
  repoId : String
  revision : String
  filename : String
  quant : Option String
  path : String
  sizeBytes : ℕ
  sha256 : String
  /-- Whether the digest was checked against one that the Hub publishes. -/
  digestVerified : Bool
  downloadedAt : ℤ
  deriving DecidableEq, Repr

/-- Progress during a download. -/
structure Progress where
  /-- Bytes written so far, with the prefix that was there. -/
  downloaded : ℕ
  total : Option ℕ
  deriving DecidableEq, Repr

/-! ### The Hub -/

/-- The answer to a HEAD. A header is there or not, and its value is text or not. -/
structure HeadAnswer where
  isRedirection : Bool
  xLinkedEtag : Option (Option String)
  etag : Option (Option String)

/-- `trim_matches('"')`. -/
def trimQuotes (cs : List Char) : List Char :=
  ((cs.dropWhile (· == '"')).reverse.dropWhile (· == '"')).reverse

/-- `published_digest`: the SHA-256 that the Hub publishes for a file, from its answer to a HEAD. A
header's text is visible ASCII. -/
def publishedDigest (head : Option HeadAnswer) : Option String := do
  let answer ← head
  let value ← match answer.xLinkedEtag with
    | some linked => linked
    | none => if answer.isRedirection then none else answer.etag.join
  let etag := (trimQuotes value.toList).map Char.toLower
  if etag.length = 64 ∧ etag.all fun c ↦ (Text.hexValue c).isSome then some (String.ofList etag)
  else none

/-- The answer to a GET. -/
structure Response where
  status : ℕ
  contentLength : Option ℕ
  /-- The header `Content-Range`, if its value is text. -/
  contentRange : Option String
  /-- The body as it arrives: chunks, or the error that ends it. -/
  body : List (Except String Bytes)

/-- `str::parse::<u64>`. -/
def parseU64 (cs : List Char) : Option ℕ :=
  let digits : List Char := match cs with
    | '+' :: rest => rest
    | _ => cs
  let value := digits.foldl (fun acc c ↦ acc * 10 + (c.toNat - '0'.toNat)) 0
  if digits ≠ [] ∧ digits.all Char.isDigit ∧ value < 2 ^ 64 then some value else none

/-- `parse_content_range_total`: what stands behind the last slash. -/
def parseContentRangeTotal (response : Response) : Option ℕ := do
  let header ← response.contentRange
  parseU64 (header.toList.reverse.takeWhile (· != '/')).reverse

/-- What is asked of the Hub. -/
structure HubServer where
  /-- The answer to a HEAD of the file, if there is one. -/
  head : Option HeadAnswer
  /-- The answer to a GET of the file from an offset on, or of the whole file. -/
  get : Option ℕ → Except String Response

/-- What the client takes from elsewhere. -/
structure HubHost where
  /-- How a status is displayed. -/
  displayStatus : ℕ → String
  /-- `serde_json::to_vec_pretty`. -/
  recordJson : DownloadedModel → Except String Bytes

/-! ### The directory of models -/

/-- The files of a directory, by name. -/
abbrev ModelDir : Type :=
  String → Option Bytes

/-- The name of a model's file. -/
def finalName (localId : String) : String :=
  localId ++ ".gguf"

/-- The name of a file that is being downloaded. -/
def partialName (localId : String) : String :=
  localId ++ ".gguf.partial"

/-- The name of a model's record. -/
def recordName (localId : String) : String :=
  localId ++ ".json"

theorem finalName_ne_partialName (localId : String) : finalName localId ≠ partialName localId :=
  fun h ↦ absurd ((String.append_right_inj _).1 h) (by decide)

theorem finalName_ne_recordName (localId : String) : finalName localId ≠ recordName localId :=
  fun h ↦ absurd ((String.append_right_inj _).1 h) (by decide)

/-- The steps of a download that the system may refuse. -/
inductive IoStep
  | createDir
  | openExisting
  | readExisting
  | existingMetadata
  | partialMetadata
  | openPartial
  | seekPartial
  | reopenPartial
  | readPrefix (k : ℕ)
  | writeChunk (k : ℕ)
  | flush
  | sync
  | removePartial
  | rename
  | finalMetadata
  | writeRecord
  deriving DecidableEq

/-- How the system answers. -/
structure PullIo where
  /-- The error of a step, if it is refused. -/
  refuses : IoStep → Option String
  /-- How much of a chunk is written where writing it is refused. -/
  torn : ℕ → ℕ
  /-- How much a read of the prefix returns, if there is as much. -/
  reads : ℕ → ℕ
  now : ℤ

/-- What a call changes: the files, and what it has reported of its progress. -/
structure PullState where
  dir : ModelDir
  progress : List Progress

/-- A call changes the state, and returns a value or an error. -/
abbrev Pull (α : Type) : Type :=
  ExceptT CordonError (StateM PullState) α

/-- Take a step, or fail with its error. -/
def attempt (io : PullIo) (step : IoStep) (describe : String → CordonError) : Pull Unit :=
  match io.refuses step with
  | some e => throw (describe e)
  | none => return

/-- Put a file under a name, or nothing. -/
def setFile (name : String) (file : Option Bytes) : Pull Unit :=
  modify fun s ↦ { s with dir := Function.update s.dir name file }

/-- Return what a computation returns. -/
def liftExcept {α : Type} : Except CordonError α → Pull α
  | .ok a => return a
  | .error e => throw e

/-- A file after a write at a position. A gap is filled with zeroes. -/
def writeAt (contents : Bytes) (position : ℕ) (chunk : Bytes) : Bytes :=
  contents.take position ++ List.replicate (position - contents.length) 0 ++ chunk ++
    contents.drop (position + chunk.length)

/-- The record of a model's file. -/
def recordOf (io : PullIo) (resolved : ResolvedModel) (localId destDir sha256 : String)
    (sizeBytes : ℕ) (digestVerified : Bool) : DownloadedModel where
  id := localId
  repoId := resolved.repoId
  revision := resolved.revision
  filename := resolved.filename
  quant := resolved.quant
  path := UnixPath.join destDir (finalName localId)
  sizeBytes := sizeBytes
  sha256 := sha256
  digestVerified := digestVerified
  downloadedAt := io.now

/-- `sha256_file` and the comparison of `reuse_existing`: the record of a file under the model's
name, if it is the one whose digest is published. -/
def reuseExisting (io : PullIo) (resolved : ResolvedModel) (localId destDir : String)
    (expected : Option String) (existing : Bytes) : Pull (Option DownloadedModel) :=
  match expected with
  | none => return none
  | some expected => do
    let path := UnixPath.join destDir (finalName localId)
    attempt io .openExisting fun e ↦ .internal ("cannot open " ++ path ++ ": " ++ e)
    attempt io .readExisting fun e ↦ .internal ("cannot read " ++ path ++ ": " ++ e)
    let actual := Sha256.digestHex existing
    if ctEq (Text.asBytes actual) (Text.asBytes expected) then
      let sizeBytes := if (io.refuses .existingMetadata).isSome then 0 else existing.length
      return some (recordOf io resolved localId destDir actual sizeBytes true)
    else return none

/-- Ask for the file, or for the rest of it. -/
def request (H : HubHost) (server : HubServer) (resolved : ResolvedModel) (resumeFrom : ℕ) :
    Pull Response :=
  match server.get (if 0 < resumeFrom then some resumeFrom else none) with
  | .error e => throw (.modelDownloadFailed ("download failed to start: " ++ e))
  | .ok response =>
    if 200 ≤ response.status ∧ response.status < 300 then return response
    else throw (.modelDownloadFailed ("the Hub returned HTTP " ++ H.displayStatus response.status ++
      " downloading " ++ resolved.filename))

/-- Where reading the prefix stands. -/
structure PrefixCursor where
  position : ℕ
  remaining : ℕ
  /-- What the hasher has been given. -/
  hashed : Bytes
  /-- How many reads there have been. -/
  reads : ℕ

/-- The buffer a file is read through. -/
def hashBufferLen : ℕ :=
  1024 * 1024

/-- One turn of the loop: a read that may be short, of nothing only where the file ends. -/
def hashTurn (io : PullIo) (file : Bytes) (s : PrefixCursor) :
    Option (PrefixCursor ⊕ Except CordonError Bytes) :=
  if s.remaining = 0 then some (.inr (.ok s.hashed))
  else
    let want := min hashBufferLen s.remaining
    match io.refuses (.readPrefix s.reads) with
    | some e =>
      some (.inr (.error (.modelDownloadFailed ("cannot re-read partial download: " ++ e))))
    | none =>
      let read := (file.drop s.position).take (min want (max 1 (io.reads s.reads)))
      if read.length = 0 then some (.inr (.ok s.hashed))
      else some (.inl
        ⟨s.position + read.length, s.remaining - read.length, s.hashed ++ read, s.reads + 1⟩)

/-- `hash_prefix`: what the hasher is given of a file. Every turn but the last reads a byte. -/
def hashPrefix (io : PullIo) (file : Bytes) (len : ℕ) : Option (Except CordonError Bytes) :=
  Loop.run (hashTurn io file) (len + 1) ⟨0, len, [], 0⟩

/-- Where writing stands. -/
structure Writing where
  position : ℕ
  /-- What the hasher has been given. -/
  hashed : Bytes
  downloaded : ℕ

/-- Open the file that is being downloaded: from its start, or where the download goes on, in which
case the hasher is given what is there. -/
def openPartial (io : PullIo) (localId destDir : String) (resuming : Bool) (startOffset : ℕ) :
    Pull Writing := do
  let path := UnixPath.join destDir (partialName localId)
  attempt io .openPartial fun e ↦ .modelDownloadFailed ("cannot open " ++ path ++ ": " ++ e)
  let left := ((← get).dir (partialName localId)).getD []
  let contents := if resuming then left else []
  setFile (partialName localId) (some contents)
  if resuming then
    attempt io .seekPartial fun e ↦ .modelDownloadFailed ("cannot seek partial file: " ++ e)
    attempt io .reopenPartial fun e ↦
      .modelDownloadFailed ("cannot re-read partial download: " ++ e)
    -- the loop ends, so there is a result
    let hashed ← liftExcept ((hashPrefix io contents startOffset).getD (.ok []))
    return ⟨startOffset, hashed, startOffset⟩
  else return ⟨0, [], startOffset⟩

/-- Write at the position, in the file that is being downloaded. -/
def writePartial (localId : String) (position : ℕ) (chunk : Bytes) : Pull Unit := do
  let contents := ((← get).dir (partialName localId)).getD []
  setFile (partialName localId) (some (writeAt contents position chunk))

/-- The loop over the body: chunks are hashed, written and reported. -/
def receive (io : PullIo) (localId : String) (total : Option ℕ) :
    ℕ → List (Except String Bytes) → Writing → Pull Writing
  | _, [], w => return w
  | _, .error e :: _, w =>
    throw (.modelDownloadFailed ("download interrupted after " ++ toString w.downloaded ++
      " bytes: " ++ e ++ " (rerun `cordon pull` to resume)"))
  | k, .ok chunk :: body, w => do
    match io.refuses (.writeChunk k) with
    | some e =>
      writePartial localId w.position (chunk.take (io.torn k))
      throw (.modelDownloadFailed ("cannot write model file: " ++ e))
    | none =>
      writePartial localId w.position chunk
      let downloaded := w.downloaded + chunk.length
      modify fun s ↦ { s with progress := s.progress ++ [⟨downloaded, total⟩] }
      receive io localId total (k + 1) body
        ⟨w.position + chunk.length, w.hashed ++ chunk, downloaded⟩

/-- Compare the digest with the one that is published. On a mismatch the file is removed. -/
def verifyDigest (io : PullIo) (resolved : ResolvedModel) (localId sha256 : String)
    (expected : Option String) : Pull Bool :=
  match expected with
  | none => return false
  | some published => do
    if ctEq (Text.asBytes published) (Text.asBytes sha256) then return true
    else
      -- that removing it fails is passed over
      if io.refuses .removePartial = none then setFile (partialName localId) none
      throw (.modelDownloadFailed ("digest mismatch for " ++ resolved.filename ++
        ": the Hub published " ++ published ++ " but " ++ sha256 ++
        " was received. The download was discarded."))

/-- The end of a download: what has arrived is made durable, compared, renamed and recorded. -/
def finish (H : HubHost) (io : PullIo) (resolved : ResolvedModel) (localId destDir : String)
    (expected : Option String) (w : Writing) : Pull DownloadedModel := do
  attempt io .flush fun e ↦ .modelDownloadFailed ("cannot flush: " ++ e)
  attempt io .sync fun e ↦ .modelDownloadFailed ("cannot fsync: " ++ e)
  let sha256 := Sha256.digestHex w.hashed
  let digestVerified ← verifyDigest io resolved localId sha256 expected
  attempt io .rename fun e ↦ .modelDownloadFailed ("cannot finalise download: " ++ e)
  let contents := ((← get).dir (partialName localId)).getD []
  setFile (finalName localId) (some contents)
  setFile (partialName localId) none
  let sizeBytes :=
    if (io.refuses .finalMetadata).isSome then w.downloaded else contents.length
  let record := recordOf io resolved localId destDir sha256 sizeBytes digestVerified
  match H.recordJson record with
  | .error e => throw (.internal ("cannot serialise model record: " ++ e))
  | .ok json =>
    attempt io .writeRecord fun e ↦ .modelDownloadFailed ("cannot write model record: " ++ e)
    setFile (recordName localId) (some json)
    return record

/-- Fetch the file: all of it, or what is missing of it. -/
def fetch (H : HubHost) (io : PullIo) (server : HubServer) (resolved : ResolvedModel)
    (localId destDir : String) (expected : Option String) : Pull DownloadedModel := do
  let left := (← get).dir (partialName localId)
  let resumeFrom :=
    if (io.refuses .partialMetadata).isSome then 0 else (left.map List.length).getD 0
  let response ← request H server resolved resumeFrom
  let resuming := response.status == 206 && decide (0 < resumeFrom)
  let startOffset := if resuming then resumeFrom else 0
  let total := (response.contentLength.map (· + startOffset)).or (parseContentRangeTotal response)
  let w ← openPartial io localId destDir resuming startOffset
  let w ← receive io localId total 0 response.body w
  finish H io resolved localId destDir expected w

/-- `HubClient::download`. -/
def download (H : HubHost) (io : PullIo) (server : HubServer) (resolved : ResolvedModel)
    (localId destDir : String) : Pull DownloadedModel := do
  attempt io .createDir fun e ↦ .modelDownloadFailed ("cannot create " ++ destDir ++ ": " ++ e)
  let expected := publishedDigest server.head
  match (← get).dir (finalName localId) with
  | none => fetch H io server resolved localId destDir expected
  | some existing =>
    match ← reuseExisting io resolved localId destDir expected existing with
    | some model => return model
    | none => fetch H io server resolved localId destDir expected

/-! ### Running a call -/

/-- What a call returns, and the state it leaves. -/
def exec {α : Type} (m : Pull α) (s : PullState) : Except CordonError α × PullState :=
  Id.run (m.run.run s)

section Exec

variable {α β : Type} {s s' : PullState}

@[simp]
theorem exec_pure (a : α) : exec (pure a) s = (.ok a, s) :=
  rfl

@[simp]
theorem exec_throw (e : CordonError) : exec (throw e : Pull α) s = (.error e, s) :=
  rfl

@[simp]
theorem exec_get : exec (get : Pull PullState) s = (.ok s, s) :=
  rfl

@[simp]
theorem exec_modify (f : PullState → PullState) :
    exec (modify f : Pull PUnit) s = (.ok ⟨⟩, f s) :=
  rfl

@[simp]
theorem exec_setFile (name : String) (file : Option Bytes) :
    exec (setFile name file) s = (.ok (), { s with dir := Function.update s.dir name file }) :=
  rfl

theorem exec_bind_of_ok {m : Pull α} {f : α → Pull β} {a : α} (h : exec m s = (.ok a, s')) :
    exec (m >>= f) s = exec (f a) s' := by
  have h' : m.run.run s = (.ok a, s') := h
  simp only [exec, ExceptT.run_bind, StateT.run_bind, h']
  rfl

theorem exec_bind_of_error {m : Pull α} {f : α → Pull β} {e : CordonError}
    (h : exec m s = (.error e, s')) : exec (m >>= f) s = (.error e, s') := by
  have h' : m.run.run s = (.error e, s') := h
  simp only [exec, ExceptT.run_bind, StateT.run_bind, h']
  rfl

end Exec

/-- Nothing is refused. -/
def PullIo.Quiet (io : PullIo) : Prop :=
  ∀ step, io.refuses step = none

theorem exec_attempt {io : PullIo} (hio : io.Quiet) (step : IoStep)
    (describe : String → CordonError) (s : PullState) :
    exec (attempt io step describe) s = (.ok (), s) := by
  rw [attempt, hio step]
  rfl

/-! ### The prefix that is there -/

/-- **Reading the prefix ends**, and where no read fails it is read whole, however short the reads
are. -/
theorem hashPrefix_eq (io : PullIo) (file : Bytes) (len : ℕ) :
    ∃ result, hashPrefix io file len = some result ∧
      ((∀ k, io.refuses (.readPrefix k) = none) → len ≤ file.length →
        result = .ok (file.take len)) := by
  have hturn : ∀ s : PrefixCursor,
      (s.position + s.remaining = len ∧ s.hashed = file.take s.position) →
      (∃ s', hashTurn io file s = some (.inl s') ∧
        (s'.position + s'.remaining = len ∧ s'.hashed = file.take s'.position) ∧
        s'.remaining < s.remaining) ∨
      ∃ result, hashTurn io file s = some (.inr result) ∧
        ((∀ k, io.refuses (.readPrefix k) = none) → len ≤ file.length →
          result = .ok (file.take len)) := by
    rintro ⟨position, remaining, hashed, k⟩ ⟨hlen, hhashed⟩
    replace hlen : position + remaining = len := hlen
    obtain rfl : hashed = file.take position := hhashed
    rcases Nat.eq_zero_or_pos remaining with rfl | hmore
    · exact Or.inr ⟨_, rfl, fun _ _ ↦ by rw [← hlen, Nat.add_zero]⟩
    rw [hashTurn, if_neg (Nat.ne_of_gt hmore)]
    rcases hrefuses : io.refuses (.readPrefix k) with - | e
    · dsimp only
      generalize hn : min (min hashBufferLen remaining) (max 1 (io.reads k)) = n
      have hread : ((file.drop position).take n).length = min n (file.length - position) := by
        rw [List.length_take, List.length_drop]
      have hbuffer : 0 < hashBufferLen := by decide
      split
      · next hend => exact Or.inr ⟨_, rfl, fun _ _ ↦ by omega⟩
      · next hsome =>
        refine Or.inl ⟨_, rfl, ⟨?_, ?_⟩, ?_⟩
        · show position + _ + (remaining - _) = len
          omega
        · show file.take position ++ _ = file.take (position + _)
          rw [List.take_add, List.append_cancel_left_eq, List.take_eq_take_iff, hread,
            List.length_drop]
          omega
        · show remaining - _ < remaining
          omega
    · exact Or.inr ⟨_, rfl, fun hquiet ↦ absurd (hquiet k) (by simp [hrefuses])⟩
  exact Loop.exists_run hturn ⟨Nat.zero_add _, rfl⟩ (Nat.lt_succ_self _)

/-! ### What the steps of a download do where nothing is refused -/

theorem writeAt_length (contents chunk : Bytes) :
    writeAt contents contents.length chunk = contents ++ chunk := by
  rw [writeAt, List.take_length, Nat.sub_self, List.drop_of_length_le (Nat.le_add_right _ _)]
  simp

theorem exec_writePartial {localId : String} {contents : Bytes} {s : PullState}
    (hcontents : s.dir (partialName localId) = some contents) (chunk : Bytes) :
    exec (writePartial localId contents.length chunk) s =
      (.ok (), { s with
        dir := Function.update s.dir (partialName localId) (some (contents ++ chunk)) }) := by
  rw [writePartial, exec_bind_of_ok exec_get]
  simp only [hcontents, Option.getD_some, writeAt_length, exec_setFile]

/-- A body that arrives whole: chunks, which together are some bytes. -/
def Response.Carries (response : Response) (bytes : Bytes) : Prop :=
  ∃ chunks : List Bytes, response.body = chunks.map .ok ∧ chunks.flatten = bytes

/-- Something is left only in a file that is there. -/
theorem eq_some_of_getD {file : Option Bytes} {left : Bytes} (h : file.getD [] = left)
    (hne : left ≠ []) : file = some left := by
  rcases file with - | contents
  · exact absurd h.symm hne
  · exact congrArg some h

/-- No digest is published, or this one is. -/
def Accepts (expected : Option String) (sha256 : String) : Prop :=
  ∀ published, expected = some published → published = sha256

theorem exec_verifyDigest (io : PullIo) (resolved : ResolvedModel) (localId : String)
    {sha256 : String} {expected : Option String} (haccepts : Accepts expected sha256)
    (s : PullState) :
    ∃ verified, exec (verifyDigest io resolved localId sha256 expected) s = (.ok verified, s) := by
  rcases expected with - | published
  · exact ⟨false, rfl⟩
  · obtain rfl := haccepts published rfl
    refine ⟨true, ?_⟩
    rw [verifyDigest, if_pos (ctEq_asBytes_iff.2 rfl)]
    rfl

/-- Where another digest is published, the download is discarded. -/
theorem exec_verifyDigest_of_not_accepts (io : PullIo) (resolved : ResolvedModel)
    (localId : String) {sha256 : String} {expected : Option String}
    (haccepts : ¬Accepts expected sha256) (s : PullState) :
    ∃ e s', exec (verifyDigest io resolved localId sha256 expected) s = (.error e, s') := by
  rcases expected with - | published
  · exact absurd (fun _ h ↦ by cases h) haccepts
  · have hne : ¬ctEq (Text.asBytes published) (Text.asBytes sha256) := by
      rw [ctEq_asBytes_iff]
      rintro rfl
      exact haccepts fun _ h ↦ (Option.some.inj h).symm
    rw [verifyDigest, if_neg hne]
    by_cases hremove : io.refuses .removePartial = none
    · rw [if_pos hremove]
      exact ⟨_, _, exec_bind_of_ok (exec_setFile _ _)⟩
    · rw [if_neg hremove]
      exact ⟨_, _, exec_bind_of_ok (exec_pure _)⟩

/-- The file is under the model's name, its record is beside it, and the record is returned. -/
def Leaves (H : HubHost) (localId : String) (file : Bytes)
    (outcome : Except CordonError DownloadedModel × PullState) : Prop :=
  ∃ model json, outcome.1 = .ok model ∧ model.sha256 = Sha256.digestHex file ∧
    H.recordJson model = .ok json ∧ outcome.2.dir (finalName localId) = some file ∧
    outcome.2.dir (recordName localId) = some json

section Quiet

variable {io : PullIo} (hio : io.Quiet)

include hio

/-- **Chunks are appended**, to the file and to what is hashed. -/
theorem exec_receive (localId : String) (total : Option ℕ) {k : ℕ} {chunks : List Bytes}
    {w : Writing} {s : PullState} {contents : Bytes}
    (hcontents : s.dir (partialName localId) = some contents)
    (hposition : w.position = contents.length) :
    ∃ s' w', exec (receive io localId total k (chunks.map .ok) w) s = (.ok w', s') ∧
      w'.hashed = w.hashed ++ chunks.flatten ∧
      s'.dir = Function.update s.dir (partialName localId) (some (contents ++ chunks.flatten)) := by
  induction chunks generalizing k w s contents with
  | nil =>
    refine ⟨s, w, rfl, (List.append_nil _).symm, ?_⟩
    rw [List.flatten_nil, List.append_nil, ← hcontents, Function.update_eq_self]
  | cons chunk chunks ih =>
    obtain ⟨position, hashed, downloaded⟩ := w
    obtain rfl : position = contents.length := hposition
    rw [List.map_cons, receive]
    simp only [hio (.writeChunk k)]
    rw [exec_bind_of_ok (exec_writePartial hcontents chunk), exec_bind_of_ok (exec_modify _)]
    obtain ⟨s', w', hexec, hhashed, hdir⟩ := @ih (k + 1)
      ⟨contents.length + chunk.length, hashed ++ chunk, downloaded + chunk.length⟩
      ⟨Function.update s.dir (partialName localId) (some (contents ++ chunk)),
        s.progress ++ [⟨downloaded + chunk.length, total⟩]⟩ (contents ++ chunk)
      (Function.update_self ..) List.length_append.symm
    refine ⟨s', w', hexec, ?_, ?_⟩
    · rw [hhashed, List.append_assoc, List.flatten_cons]
    · rw [hdir, Function.update_idem, List.append_assoc, List.flatten_cons]

/-- A download goes on behind what is there, or starts with nothing. -/
theorem exec_openPartial (localId destDir : String) {resuming : Bool} {left : Bytes}
    {s : PullState} (hleft : resuming = true → s.dir (partialName localId) = some left) :
    ∃ s' w, exec (openPartial io localId destDir resuming (if resuming then left.length else 0)) s =
        (.ok w, s') ∧
      w.hashed = (if resuming then left else []) ∧ w.position = w.hashed.length ∧
      s'.dir = Function.update s.dir (partialName localId) (some w.hashed) := by
  rw [openPartial, exec_bind_of_ok (exec_attempt hio _ _ s)]
  cases resuming with
  | false => exact ⟨_, _, rfl, rfl, rfl, rfl⟩
  | true =>
    obtain ⟨result, hhashed, hresult⟩ := hashPrefix_eq io left left.length
    obtain rfl := hresult (fun k ↦ hio _) le_rfl
    rw [List.take_length] at hhashed
    rw [exec_bind_of_ok exec_get]
    simp only [hleft rfl, Option.getD_some, if_true]
    rw [exec_bind_of_ok (exec_setFile _ _), exec_bind_of_ok (exec_attempt hio _ _ _),
      exec_bind_of_ok (exec_attempt hio _ _ _), hhashed]
    exact ⟨_, _, rfl, rfl, rfl, rfl⟩

/-- The file is renamed, and its record is put beside it. -/
theorem exec_finish {H : HubHost} (hjson : ∀ model, ∃ json, H.recordJson model = .ok json)
    (resolved : ResolvedModel) (localId destDir : String) {expected : Option String} {w : Writing}
    {s : PullState} (haccepts : Accepts expected (Sha256.digestHex w.hashed))
    (hfile : s.dir (partialName localId) = some w.hashed) :
    Leaves H localId w.hashed (exec (finish H io resolved localId destDir expected w) s) := by
  obtain ⟨verified, hverified⟩ := exec_verifyDigest io resolved localId haccepts s
  rw [finish, exec_bind_of_ok (exec_attempt hio _ _ s), exec_bind_of_ok (exec_attempt hio _ _ s)]
  simp only [exec_bind_of_ok hverified, exec_bind_of_ok (exec_attempt hio _ _ s),
    exec_bind_of_ok exec_get, exec_bind_of_ok (exec_setFile _ _), hfile, Option.getD_some]
  generalize (if (io.refuses .finalMetadata).isSome then w.downloaded else w.hashed.length) = size
  obtain ⟨json, hrecord⟩ := hjson
    (recordOf io resolved localId destDir (Sha256.digestHex w.hashed) size verified)
  simp only [hrecord, exec_bind_of_ok (exec_attempt hio _ _ _), exec_bind_of_ok (exec_setFile _ _),
    exec_pure]
  refine ⟨_, json, rfl, rfl, hrecord, ?_, Function.update_self ..⟩
  show Function.update (Function.update _ _ _) _ _ (finalName localId) = _
  rw [Function.update_of_ne (finalName_ne_recordName localId),
    Function.update_of_ne (finalName_ne_partialName localId), Function.update_self]

/-- A file whose digest is not the published one is not renamed. -/
theorem exec_finish_of_not_accepts (H : HubHost) (resolved : ResolvedModel)
    (localId destDir : String) {expected : Option String} {w : Writing}
    (haccepts : ¬Accepts expected (Sha256.digestHex w.hashed)) (s : PullState) :
    ∃ e s', exec (finish H io resolved localId destDir expected w) s = (.error e, s') := by
  obtain ⟨e, s', hverified⟩ :=
    exec_verifyDigest_of_not_accepts io resolved localId haccepts s
  rw [finish, exec_bind_of_ok (exec_attempt hio _ _ s), exec_bind_of_ok (exec_attempt hio _ _ s)]
  exact ⟨e, s', exec_bind_of_error hverified⟩

/-- **What a download leaves that is answered with some bytes**: what was there, if the server goes
on behind it, and then those bytes; or an error, if they are not what is published. -/
theorem exec_fetch {H : HubHost} (hjson : ∀ model, ∃ json, H.recordJson model = .ok json)
    {server : HubServer} (resolved : ResolvedModel) {localId : String} (destDir : String)
    (expected : Option String) {s : PullState} {left bytes file : Bytes} {response : Response}
    (hleft : (s.dir (partialName localId)).getD [] = left)
    (hget : server.get (if 0 < left.length then some left.length else none) = .ok response)
    (hstatus : 200 ≤ response.status ∧ response.status < 300) (hbody : response.Carries bytes)
    (hfile : (if response.status == 206 && decide (0 < left.length) then left else []) ++ bytes =
      file) :
    (Accepts expected (Sha256.digestHex file) →
        Leaves H localId file (exec (fetch H io server resolved localId destDir expected) s)) ∧
      (¬Accepts expected (Sha256.digestHex file) →
        ∃ e s', exec (fetch H io server resolved localId destDir expected) s = (.error e, s')) := by
  obtain ⟨chunks, hchunks, rfl⟩ := hbody
  have hlength : ((s.dir (partialName localId)).map List.length).getD 0 = left.length := by
    rw [← hleft]
    rcases s.dir (partialName localId) with - | l
    · rfl
    · rfl
  have hrequest : exec (request H server resolved left.length) s = (.ok response, s) := by
    rw [request, hget]
    simp only [hstatus, and_self, if_true]
    rfl
  rw [fetch, exec_bind_of_ok exec_get]
  simp only [hio .partialMetadata, Option.isSome_none, Bool.false_eq_true, if_false, hlength]
  rw [exec_bind_of_ok hrequest]
  generalize hresuming : (response.status == 206 && decide (0 < left.length)) = resuming at hfile
  have hthere : resuming = true → s.dir (partialName localId) = some left := by
    rintro rfl
    obtain ⟨-, hpos⟩ := Bool.and_eq_true_iff.1 hresuming
    exact eq_some_of_getD hleft (List.length_pos_iff.1 (of_decide_eq_true hpos))
  obtain ⟨s₁, w₁, hopen, hhashed₁, hposition₁, hdir₁⟩ :=
    exec_openPartial hio localId destDir hthere
  rw [exec_bind_of_ok hopen, hchunks]
  have hcontents : s₁.dir (partialName localId) = some w₁.hashed := by
    rw [hdir₁, Function.update_self]
  obtain ⟨s₂, w₂, hreceive, hhashed₂, hdir₂⟩ :=
    exec_receive hio localId _ hcontents hposition₁ (k := 0)
  rw [exec_bind_of_ok hreceive]
  have hw₂ : w₂.hashed = file := by rw [hhashed₂, hhashed₁, hfile]
  rw [← hw₂]
  refine ⟨fun haccepts ↦ exec_finish hio hjson resolved localId destDir haccepts ?_,
    fun haccepts ↦ exec_finish_of_not_accepts hio H resolved localId destDir haccepts s₂⟩
  rw [hdir₂, Function.update_self, hhashed₂]

end Quiet

/-! ### Servers that keep to the rules for byte ranges -/

/-- **The rules for byte ranges.** The file is sent whole where no range is asked for. A range may
be passed over; otherwise a part of the bytes from there on is sent, and a range that starts at the
end or past it is refused. Bodies may be cut into chunks in any way. -/
structure FollowsRanges (get : Option ℕ → Except String Response) (remote : Bytes) : Prop where
  whole : ∃ response, get none = .ok response ∧ response.status = 200 ∧ response.Carries remote
  range : ∀ start, ∃ response, get (some start) = .ok response ∧
    ((response.status = 200 ∧ response.Carries remote) ∨
      (start < remote.length ∧ response.status = 206 ∧
        ∃ bytes, bytes <:+: remote.drop start ∧ bytes ≠ [] ∧ response.Carries bytes) ∨
      (remote.length ≤ start ∧ response.status = 416))

/-- The record of a model gives a digest. -/
def Recorded (H : HubHost) (dir : ModelDir) (localId sha256 : String) : Prop :=
  ∃ model json, H.recordJson model = .ok json ∧ model.sha256 = sha256 ∧
    dir (recordName localId) = some json

/-- The call returns; the file of the model is the remote file, and the digest that is returned and
recorded is that of the remote file. -/
structure Fetched (H : HubHost) (remote : Bytes) (localId : String)
    (outcome : Except CordonError DownloadedModel × PullState) : Prop where
  returned : ∃ model, outcome.1 = .ok model ∧ model.sha256 = Sha256.digestHex remote
  file : outcome.2.dir (finalName localId) = some remote
  recorded : Recorded H outcome.2.dir localId (Sha256.digestHex remote)

/-- A file in place is taken as it is: its digest is the one that the Hub publishes. -/
def Reusable (server : HubServer) (dir : ModelDir) (localId : String) (existing : Bytes) : Prop :=
  dir (finalName localId) = some existing ∧
    publishedDigest server.head = some (Sha256.digestHex existing)

/-- The server answers what was left with the whole file, or with all that comes after it. -/
def SendsRest (server : HubServer) (dir : ModelDir) (localId : String) (remote : Bytes) : Prop :=
  ∀ left, dir (partialName localId) = some left → left ≠ [] →
    ∃ response, server.get (some left.length) = .ok response ∧
      (response.status = 200 ∨
        response.status = 206 ∧ response.Carries (remote.drop left.length))

section Download

variable {H : HubHost} {io : PullIo} {server : HubServer} {resolved : ResolvedModel}
  {localId destDir : String} {s : PullState} {remote : Bytes}

theorem exec_download_of_reusable (hio : io.Quiet) {existing : Bytes}
    (h : Reusable server s.dir localId existing) :
    exec (download H io server resolved localId destDir) s =
      (.ok (recordOf io resolved localId destDir (Sha256.digestHex existing) existing.length true),
        s) := by
  have hreuse : exec (reuseExisting io resolved localId destDir
        (some (Sha256.digestHex existing)) existing) s =
      (.ok (some (recordOf io resolved localId destDir (Sha256.digestHex existing)
        existing.length true)), s) := by
    rw [reuseExisting, exec_bind_of_ok (exec_attempt hio _ _ s),
      exec_bind_of_ok (exec_attempt hio _ _ s)]
    simp only [ctEq_asBytes_iff.2, hio .existingMetadata, if_true]
    rfl
  rw [download, exec_bind_of_ok (exec_attempt hio _ _ s), exec_bind_of_ok exec_get]
  simp only [h.1, h.2, exec_bind_of_ok hreuse]
  rfl

theorem exec_download_of_not_reusable (hio : io.Quiet)
    (h : ¬∃ existing, Reusable server s.dir localId existing) :
    exec (download H io server resolved localId destDir) s =
      exec (fetch H io server resolved localId destDir (publishedDigest server.head)) s := by
  rw [download, exec_bind_of_ok (exec_attempt hio _ _ s), exec_bind_of_ok exec_get]
  rcases hfinal : s.dir (finalName localId) with - | existing
  · rfl
  · have hreuse : exec (reuseExisting io resolved localId destDir (publishedDigest server.head)
        existing) s = (.ok none, s) := by
      rcases hpublished : publishedDigest server.head with - | published
      · rfl
      · have hne : ¬ctEq (Text.asBytes (Sha256.digestHex existing)) (Text.asBytes published) := by
          rw [ctEq_asBytes_iff]
          rintro rfl
          exact h ⟨existing, hfinal, hpublished⟩
        rw [reuseExisting, exec_bind_of_ok (exec_attempt hio _ _ s),
          exec_bind_of_ok (exec_attempt hio _ _ s)]
        simp only [hne]
        rfl
    exact exec_bind_of_ok hreuse

/-- The server's refusal is a failure, and the file stays where it is. -/
theorem exec_fetch_of_refused (hio : io.Quiet) (expected : Option String) {left : Bytes}
    (hleft : s.dir (partialName localId) = some left) (hne : left ≠ []) {response : Response}
    (hget : server.get (some left.length) = .ok response) (hstatus : response.status = 416) :
    exec (fetch H io server resolved localId destDir expected) s =
      (.error (.modelDownloadFailed ("the Hub returned HTTP " ++ H.displayStatus 416 ++
        " downloading " ++ resolved.filename)), s) := by
  have hrequest : exec (request H server resolved left.length) s =
      (.error (.modelDownloadFailed ("the Hub returned HTTP " ++ H.displayStatus 416 ++
        " downloading " ++ resolved.filename)), s) := by
    rw [request, if_pos (List.length_pos_iff.2 hne), hget]
    simp only [hstatus]
    rfl
  rw [fetch, exec_bind_of_ok exec_get]
  simp only [hio .partialMetadata, hleft]
  exact exec_bind_of_error hrequest

/-- No error is a fetched file. -/
theorem not_fetched_of_error {outcome : Except CordonError DownloadedModel × PullState}
    {e : CordonError} (h : outcome.1 = .error e) : ¬Fetched H remote localId outcome := by
  intro hfetched
  obtain ⟨model, hok, -⟩ := hfetched.returned
  rw [h] at hok
  cases hok

/-- **A download that is answered fetches the remote file** just if what was there and what arrived
make it up, and its digest is accepted. -/
theorem fetched_iff_of_answer (hio : io.Quiet)
    (hjson : ∀ model, ∃ json, H.recordJson model = .ok json) (expected : Option String)
    {left bytes : Bytes} {response : Response}
    (hleft : (s.dir (partialName localId)).getD [] = left)
    (hget : server.get (if 0 < left.length then some left.length else none) = .ok response)
    (hstatus : 200 ≤ response.status ∧ response.status < 300) (hbody : response.Carries bytes) :
    Fetched H remote localId (exec (fetch H io server resolved localId destDir expected) s) ↔
      Accepts expected (Sha256.digestHex remote) ∧
        (if response.status == 206 && decide (0 < left.length) then left else []) ++ bytes =
          remote := by
  obtain ⟨hkept, hdiscarded⟩ :=
    exec_fetch hio hjson resolved destDir expected hleft hget hstatus hbody rfl
  constructor
  · intro hfetched
    by_cases haccepts : Accepts expected (Sha256.digestHex
        ((if response.status == 206 && decide (0 < left.length) then left else []) ++ bytes))
    · obtain ⟨-, -, -, -, -, hfile, -⟩ := hkept haccepts
      have hsame := Option.some.inj (hfile.symm.trans hfetched.file)
      exact ⟨hsame ▸ haccepts, hsame⟩
    · obtain ⟨e, s', herror⟩ := hdiscarded haccepts
      exact absurd hfetched (not_fetched_of_error (by rw [herror]))
  · rintro ⟨haccepts, hsame⟩
    rw [hsame] at hkept
    obtain ⟨model, json, hok, hsha, hrecord, hfile, hwritten⟩ := hkept haccepts
    exact ⟨⟨model, hok, hsha⟩, hfile, model, json, hrecord, hsha, hwritten⟩

/-- A body carries one byte string. -/
theorem Response.Carries.unique {response : Response} {bytes bytes' : Bytes}
    (h : response.Carries bytes) (h' : response.Carries bytes') : bytes = bytes' := by
  obtain ⟨chunks, hchunks, rfl⟩ := h
  obtain ⟨chunks', hchunks', rfl⟩ := h'
  exact congrArg List.flatten (List.map_injective_iff.2 (fun _ _ ↦ Except.ok.inj)
    (hchunks.symm.trans hchunks'))

/-- **Fetching** leaves the remote file just if its digest is accepted and the server sends all the
rest. -/
theorem fetched_fetch_iff (hio : io.Quiet)
    (hjson : ∀ model, ∃ json, H.recordJson model = .ok json)
    (hserver : FollowsRanges server.get remote)
    (hleft : ∀ left, s.dir (partialName localId) = some left → left <+: remote)
    (expected : Option String) :
    Fetched H remote localId (exec (fetch H io server resolved localId destDir expected) s) ↔
      Accepts expected (Sha256.digestHex remote) ∧ SendsRest server s.dir localId remote := by
  rcases hthere : (s.dir (partialName localId)).getD [] with - | ⟨b, left⟩
  · -- nothing was left, so the whole file is asked for
    obtain ⟨response, hget, hstatus, hbody⟩ := hserver.whole
    rw [fetched_iff_of_answer hio hjson expected hthere hget (by omega) hbody]
    refine and_congr_right fun _ ↦ iff_of_true (by simp [hstatus]) fun left hdir hne ↦ ?_
    rw [hdir] at hthere
    exact absurd hthere hne
  · have hdir := eq_some_of_getD hthere (List.cons_ne_nil b left)
    generalize hcons : b :: left = left' at hthere hdir
    have hne : left' ≠ [] := hcons ▸ List.cons_ne_nil b left
    have hpos := List.length_pos_iff.2 hne
    obtain ⟨response, hget, hanswer⟩ := hserver.range left'.length
    have hsends : SendsRest server s.dir localId remote ↔ (response.status = 200 ∨
        response.status = 206 ∧ response.Carries (remote.drop left'.length)) := by
      constructor
      · intro h
        obtain ⟨response', hget', hrest⟩ := h left' hdir hne
        obtain rfl : response = response' := Except.ok.inj (hget.symm.trans hget')
        exact hrest
      · intro h left'' hdir' _
        obtain rfl : left' = left'' := Option.some.inj (hdir.symm.trans hdir')
        exact ⟨response, hget, h⟩
    have hget' : server.get (if 0 < left'.length then some left'.length else none) =
        .ok response := by rw [if_pos hpos, hget]
    rw [hsends]
    rcases hanswer with ⟨hstatus, hbody⟩ | ⟨-, hstatus, bytes, -, -, hbody⟩ | ⟨-, hstatus⟩
    · -- the range is passed over, and the file is written anew
      rw [fetched_iff_of_answer hio hjson expected hthere hget' (by omega) hbody]
      exact and_congr_right fun _ ↦ iff_of_true (by simp [hstatus]) (.inl hstatus)
    · -- a part of the range arrives, and is taken for all of it
      rw [fetched_iff_of_answer hio hjson expected hthere hget' (by omega) hbody]
      obtain ⟨rest, rfl⟩ := hleft left' hdir
      simp only [hstatus, decide_eq_true hpos, List.drop_left, List.append_cancel_left_eq,
        beq_self_eq_true, Bool.and_self, if_true]
      exact and_congr_right fun _ ↦ ⟨fun h ↦ .inr ⟨trivial, h ▸ hbody⟩,
        fun h ↦ hbody.unique (h.resolve_left (by decide)).2⟩
    · -- nothing is in the range, which is taken for a failure
      rw [exec_fetch_of_refused hio expected hdir hne hget hstatus]
      refine iff_of_false (not_fetched_of_error rfl) fun h ↦ ?_
      rcases h.2 with h | ⟨h, -⟩
      · omega
      · omega

/-- **Exactly when a download leaves the remote file and its record.** A file in place with the
published digest is taken as it is, with the record it has. Otherwise the published digest, if there
is one, has to be that of the remote file, and the server has to send the whole rest of what was
left. -/
theorem resumed_download_iff (hio : io.Quiet)
    (hjson : ∀ model, ∃ json, H.recordJson model = .ok json)
    (hserver : FollowsRanges server.get remote)
    (hleft : ∀ left, s.dir (partialName localId) = some left → left <+: remote) :
    Fetched H remote localId (exec (download H io server resolved localId destDir) s) ↔
      (∀ existing, Reusable server s.dir localId existing →
        existing = remote ∧ Recorded H s.dir localId (Sha256.digestHex remote)) ∧
      ((∀ existing, ¬Reusable server s.dir localId existing) →
        Accepts (publishedDigest server.head) (Sha256.digestHex remote) ∧
          SendsRest server s.dir localId remote) := by
  by_cases hreuse : ∃ existing, Reusable server s.dir localId existing
  · obtain ⟨existing, hexisting⟩ := hreuse
    rw [exec_download_of_reusable hio hexisting]
    have hfetches : ¬∀ existing, ¬Reusable server s.dir localId existing := fun h ↦
      h existing hexisting
    constructor
    · intro hfetched
      have hsame : existing = remote := Option.some.inj (hexisting.1.symm.trans hfetched.file)
      refine ⟨fun other hother ↦ ⟨?_, hfetched.recorded⟩, fun h ↦ absurd h hfetches⟩
      exact Option.some.inj (hother.1.symm.trans (hexisting.1.trans (congrArg some hsame)))
    · rintro ⟨hsame, -⟩
      obtain ⟨rfl, hrecorded⟩ := hsame existing hexisting
      exact ⟨⟨_, rfl, rfl⟩, hexisting.1, hrecorded⟩
  · rw [exec_download_of_not_reusable hio hreuse, fetched_fetch_iff hio hjson hserver hleft]
    have hnone : ∀ existing, ¬Reusable server s.dir localId existing := fun existing h ↦
      hreuse ⟨existing, h⟩
    exact ⟨fun h ↦ ⟨fun existing hexisting ↦ absurd hexisting (hnone existing), fun _ ↦ h⟩,
      fun h ↦ h.2 hnone⟩

end Download

/-! ### A server that honours ranges -/

namespace Sample

/-- A file of three bytes. -/
def remote : Bytes :=
  [1, 2, 3]

def host : HubHost where
  displayStatus status := if status = 416 then "416 Range Not Satisfiable" else toString status
  recordJson model := .ok (Text.asBytes model.sha256)

def io : PullIo where
  refuses _ := none
  torn _ := 0
  reads _ := 2
  now := 0

/-- Every range is honoured, and every byte is a chunk. -/
def server : HubServer where
  head := none
  get
    | none => .ok ⟨200, some 3, none, remote.map fun b ↦ .ok [b]⟩
    | some start =>
      if start < 3 then
        .ok ⟨206, some (3 - start), none, (remote.drop start).map fun b ↦ .ok [b]⟩
      else .ok ⟨416, some 0, some "bytes */3", []⟩

def resolved : ResolvedModel :=
  ⟨"owner/repo", "abc123", "m.gguf", none⟩

/-- An interrupted download has left so many bytes. -/
def state (left : ℕ) : PullState :=
  ⟨Function.update (fun _ ↦ none) (partialName "m") (some (remote.take left)), []⟩

theorem carries (bytes : Bytes) (status : ℕ) (length : Option ℕ) (range : Option String) :
    Response.Carries ⟨status, length, range, bytes.map fun b ↦ .ok [b]⟩ bytes :=
  ⟨bytes.map fun b ↦ [b], by rw [List.map_map]; rfl, by induction bytes <;> simp_all⟩

theorem followsRanges : FollowsRanges server.get remote where
  whole := ⟨_, rfl, rfl, carries _ _ _ _⟩
  range start := by
    rcases Nat.lt_or_ge start 3 with hlt | hge
    · have hrest : remote.drop start ≠ [] := by
        simpa [remote, List.drop_eq_nil_iff] using hlt
      exact ⟨⟨206, some (3 - start), none, (remote.drop start).map fun b ↦ .ok [b]⟩, if_pos hlt,
        .inr (.inl ⟨hlt, rfl, _, List.infix_rfl, hrest, carries _ _ _ _⟩)⟩
    · exact ⟨⟨416, some 0, some "bytes */3", []⟩, if_neg (Nat.not_lt.2 hge),
        .inr (.inr ⟨hge, rfl⟩)⟩

theorem dir_partialName (left : ℕ) :
    (state left).dir (partialName "m") = some (remote.take left) :=
  @Function.update_self String (fun _ ↦ Option Bytes) _ (partialName "m")
    (some (remote.take left)) fun _ ↦ none

theorem not_reusable (left : ℕ) : ¬∃ existing, Reusable server (state left).dir "m" existing := by
  rintro ⟨existing, -, hpublished⟩
  cases hpublished

end Sample

/-- After one byte of three, the other two are fetched. -/
theorem resumed_download_iff_sample :
    Fetched Sample.host Sample.remote "m"
      (exec (download Sample.host Sample.io Sample.server Sample.resolved "m" "models")
        (Sample.state 1)) := by
  have hdir {left : Bytes} (hleft : (Sample.state 1).dir (partialName "m") = some left) :
      left = [1] := Option.some.inj (hleft.symm.trans (Sample.dir_partialName 1))
  refine (resumed_download_iff (s := Sample.state 1) (fun _ ↦ rfl) (fun _ ↦ ⟨_, rfl⟩)
    Sample.followsRanges fun left hleft ↦ ?_).2
      ⟨fun existing h ↦ absurd ⟨existing, h⟩ (Sample.not_reusable 1), fun _ ↦ ⟨?_, ?_⟩⟩
  · rw [hdir hleft]
    exact List.take_prefix 1 Sample.remote
  · intro published h
    cases h
  · intro left hleft _
    rw [hdir hleft]
    exact ⟨_, rfl, .inr ⟨rfl, Sample.carries [2, 3] 206 (some 2) none⟩⟩

/-- **A download that had only to be renamed fails**: all three bytes are there, nothing is refused
by the system, the server keeps to the rules, no digest is published, and the call returns an error.
-/
theorem whole_file_left_is_refused :
    FollowsRanges Sample.server.get Sample.remote ∧ Sample.io.Quiet ∧
      (Sample.state 3).dir (partialName "m") = some Sample.remote ∧
      publishedDigest Sample.server.head = none ∧
      ¬Fetched Sample.host Sample.remote "m"
        (exec (download Sample.host Sample.io Sample.server Sample.resolved "m" "models")
          (Sample.state 3)) := by
  refine ⟨Sample.followsRanges, fun _ ↦ rfl, Sample.dir_partialName 3, rfl, ?_⟩
  rw [exec_download_of_not_reusable (fun _ ↦ rfl) (Sample.not_reusable 3),
    exec_fetch_of_refused (fun _ ↦ rfl) _ (Sample.dir_partialName 3) (by decide) rfl rfl]
  exact not_fetched_of_error rfl

end Hub

end Cordon
