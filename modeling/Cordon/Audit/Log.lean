import Cordon.Audit.Verify

/-!
# The writer

`AuditLog` as the source has it: a configuration, the signing key, and the state a mutex guards.
Time, identifiers and the outcome of every system call are inputs (`AppendIo`, `OpenIo`), so each
operation is a function of the directory, the log and those inputs, and returns the directory and
the log it leaves behind **also when it fails**: a failed append is exactly where the two can drift
apart.

The one piece of the standard library with a state of its own is the buffered writer. It is modelled
with its buffer: a line shorter than the free capacity is only buffered, a longer one first drains
the buffer, and a line of at least the capacity bypasses it. A failed drain keeps what it did not
write, and dropping a writer drains it once more.

The Rust name `open` is `openLog` here.

Nothing is proved of an append here. `Audit.Append` specifies its calls one outcome at a time, and
what is known of the files they work on is in `Audit.Contents`; the proofs about runs use these two
and do not unfold an append again.
-/

namespace Cordon

/-! ### Outcomes of system calls -/

/-- How a write to a file goes: all of it, or an error after some of its bytes. -/
inductive WriteOutcome where
  | done
  | fails (written : ℕ) (reason : String)
  deriving DecidableEq

/-- Write bytes to a file: the directory left behind, what was not written, and the result. A write
cannot fail once its last byte is written. -/
def writeFile (d : Dir) (file : String) (bytes : Bytes) :
    WriteOutcome → Dir × Bytes × Except String Unit
  | .done => (d.append file bytes, [], .ok ())
  | .fails written reason =>
    if written < bytes.length then
      (d.append file (bytes.take written), bytes.drop written, .error reason)
    else (d.append file bytes, [], .ok ())

/-- A buffered writer on a file opened for appending. -/
structure BufWriter where
  file : String
  buf : Bytes

namespace BufWriter

/-- The capacity a buffered writer is created with. -/
def capacity : ℕ := 8192

/-- Drain the buffer into the file. -/
def flush (w : BufWriter) (d : Dir) (o : WriteOutcome) : BufWriter × Dir × Except String Unit :=
  match writeFile d w.file w.buf o with
  | (d, rest, r) => ({ w with buf := rest }, d, r)

/-- Write bytes through the buffer. -/
def writeAll (w : BufWriter) (d : Dir) (bytes : Bytes) (drain direct : WriteOutcome) :
    BufWriter × Dir × Except String Unit :=
  if bytes.length < capacity - w.buf.length then ({ w with buf := w.buf ++ bytes }, d, .ok ())
  else
    match if capacity - w.buf.length < bytes.length then w.flush d drain else (w, d, .ok ()) with
    | (w, d, .error e) => (w, d, .error e)
    | (w, d, .ok ()) =>
      if capacity ≤ bytes.length then
        match writeFile d w.file bytes direct with
        | (d, _, r) => (w, d, r)
      else ({ w with buf := w.buf ++ bytes }, d, .ok ())

end BufWriter

/-- The system calls of a rotation: draining the old writer, naming the new segment, opening it. -/
structure RotateIo where
  flush : WriteOutcome
  ts : DateTime
  unique : Uuid
  openFile : Option String

/-- The clock, the identifier and the system calls of one append. -/
structure AppendIo where
  now : DateTime
  logId : Uuid
  drain : WriteOutcome
  direct : WriteOutcome
  flush : WriteOutcome
  sync : Option String
  rotate : RotateIo

/-- The system calls of opening a log. An `Option String` is the error of a call that fails. -/
structure OpenIo where
  createDir : Option String
  openLock : Option String
  tryLock : Option String
  pid : ℕ
  since : DateTime
  infoFails : Bool
  readDir : Option String
  readFile : String → Option String
  ts : DateTime
  unique : Uuid
  openFile : Option String
  metadataFails : Bool
  genesis : AppendIo
  /-- Draining the writer when a log that failed to open is dropped. -/
  dropFlush : WriteOutcome

/-! ### Configuration and state -/

/-- Configuration for the audit log. -/
structure LogConfig where
  logDir : String
  deploymentId : String
  nodeId : String
  maxFileSizeBytes : ℕ
  fsyncOnWrite : Bool

/-- A log config with sane defaults. -/
def LogConfig.new (logDir deploymentId nodeId : String) : LogConfig where
  logDir := logDir
  deploymentId := deploymentId
  nodeId := nodeId
  maxFileSizeBytes := 512 * 1024 * 1024
  fsyncOnWrite := true

/-- Internal write state for the audit log. -/
structure LogState where
  writer : BufWriter
  lastHash : String
  sequence : ℕ
  currentFile : String
  bytesWritten : ℕ

/-- Merkle-chained audit log. -/
structure AuditLog where
  config : LogConfig
  signingKey : SigningKey
  state : Option LogState

namespace AuditLog

/-- The current tail hash. -/
def tailHash (log : AuditLog) : Option String :=
  log.state.map LogState.lastHash

/-- The current sequence number. -/
def sequence (log : AuditLog) : ℕ :=
  (log.state.map LogState.sequence).getD 0

/-- The verifying key for this log. -/
def verifyingKey (E : Ed25519) (log : AuditLog) : VerifyingKey :=
  log.signingKey.verifyingKey E

end AuditLog

/-- The full path of a file of the log directory. -/
def LogConfig.path (config : LogConfig) (name : String) : String :=
  config.logDir ++ "/" ++ name

/-- The name of a new segment beginning at `firstSequence`. -/
def newLogFileName (firstSequence : ℕ) (ts : DateTime) (unique : Uuid) : String :=
  String.ofList ("cordon-audit-".toList ++ DateTime.pad 20 firstSequence ++ '-' ::
    (ts.compactChars ++ '-' :: (Text.hexChars (Bytes.beBytes 16 unique.value.toNat)).take 8) ++
    ".jsonl".toList)

/-- Whatever the clock and the identifier, the name is that of a segment. -/
theorem isSegment_newLogFileName (firstSequence : ℕ) (ts : DateTime) (unique : Uuid) :
    isSegment (newLogFileName firstSequence ts unique) = true :=
  isSegment_of_stem (by simp)

/-- Open a log file for appending. -/
def openLogFile (config : LogConfig) (d : Dir) (name : String) (fails : Option String) :
    Dir × Except AuditError Unit :=
  match fails with
  | some e =>
    (d, .error (.ioError ("Cannot open log file \"" ++ config.path name ++ "\": " ++ e)))
  | none => (d.create name, .ok ())

/-! ### Appending -/

/-- Rotate the log file. The state is left as it was when a step fails, except for what the drain
took out of the buffer. -/
def rotateLogFile (config : LogConfig) (s : LogState) (d : Dir) (io : RotateIo) :
    LogState × Dir × Except AuditError Unit :=
  match s.writer.flush d io.flush with
  | (writer, d, .error e) => ({ s with writer }, d, .error (.writeFailed e))
  | (writer, d, .ok ()) =>
    let newPath := newLogFileName (s.sequence + 1) io.ts io.unique
    match openLogFile config d newPath io.openFile with
    | (d, .error e) => ({ s with writer }, d, .error e)
    | (d, .ok ()) =>
      ({ s with writer := ⟨newPath, []⟩, currentFile := newPath, bytesWritten := 0 }, d, .ok ())

/-- Put the bytes of a line where the configuration wants them before an append returns. -/
def persistLine (config : LogConfig) (writer : BufWriter) (d : Dir) (bytes : Bytes)
    (io : AppendIo) : BufWriter × Dir × Except AuditError Unit :=
  match writer.writeAll d bytes io.drain io.direct with
  | (writer, d, .error e) => (writer, d, .error (.writeFailed e))
  | (writer, d, .ok ()) =>
    if config.fsyncOnWrite then
      match writer.flush d io.flush with
      | (writer, d, .error e) => (writer, d, .error (.writeFailed e))
      | (writer, d, .ok ()) =>
        match io.sync with
        | some e => (writer, d, .error (.writeFailed ("cannot fsync the audit log: " ++ e)))
        | none => (writer, d, .ok ())
    else (writer, d, .ok ())

/-- The line of an entry's text. -/
def lineBytes (text : String) : Bytes :=
  Text.asBytes (text.push '\n')

/-- The state once a line is written: the chain has moved on to the entry. -/
def LogState.commit (s : LogState) (writer : BufWriter) (bytes : Bytes) (entry : AuditEntry) :
    LogState :=
  { s with
    writer
    bytesWritten := s.bytesWritten + bytes.length
    lastHash := entry.entryHash
    sequence := entry.sequence }

section Writer

variable (E : Ed25519) (J : AuditJson)

/-- Append an event to the audit log. -/
def AuditLog.append (log : AuditLog) (d : Dir) (event : AuditEvent) (io : AppendIo) :
    AuditLog × Dir × Except AuditError AuditEntry :=
  match log.state with
  | none => (log, d, .error (.writeFailed "Log not initialized"))
  | some s =>
    match sealEntry E J log.signingKey s.lastHash s.sequence event io.now io.logId with
    | .error e => (log, d, .error e)
    | .ok entry =>
      match J.entryToString entry with
      | .error e => (log, d, .error (.serializationError e))
      | .ok text =>
        let bytes := lineBytes text
        match persistLine log.config s.writer d bytes io with
        -- the line may be in the file by now, and the chain has not moved
        | (writer, d, .error e) => ({ log with state := some { s with writer } }, d, .error e)
        | (writer, d, .ok ()) =>
          let s := s.commit writer bytes entry
          if log.config.maxFileSizeBytes ≤ s.bytesWritten then
            match rotateLogFile log.config s d io.rotate with
            -- the entry is committed, and its append reports an error all the same
            | (s, d, .error e) => ({ log with state := some s }, d, .error e)
            | (s, d, .ok ()) => ({ log with state := some s }, d, .ok entry)
          else ({ log with state := some s }, d, .ok entry)

/-- The event of a genesis entry. -/
def genesisEvent (nodeId : String) : AuditEvent :=
  .lifecycle { event := .boot, cordonVersion := "2.1.0", teeType := "initialized", nodeId }

/-- Write a genesis lifecycle entry. -/
def AuditLog.writeGenesis (log : AuditLog) (d : Dir) (io : AppendIo) :
    AuditLog × Dir × Except AuditError AuditEntry :=
  log.append E J d (genesisEvent log.config.nodeId) io

/-! ### Opening -/

/-- The size of the blocks a segment is read backwards in. -/
def block : ℕ := 64 * 1024

/-- Read a segment backwards from `readFrom`, until a complete final line is in hand. `tail` is what
has been read so far. -/
def readLastLoop (path : String) (content : Bytes) (readFrom : ℕ) (tail : Bytes) :
    Except AuditError (Option AuditEntry) :=
  let start := readFrom - min block readFrom
  let tail := (content.drop start).take (min block readFrom) ++ tail
  -- any line feed in the block counts, also the one that ends the last line
  let haveCompleteLine := tail.contains Utf8.newline || start == 0
  match Text.lastLine (Utf8.decodeLossy tail), haveCompleteLine with
  | some line, true =>
    match J.entryFromStr (String.ofList line) with
    | .ok entry => .ok (some entry)
    | .error e =>
      .error (.serializationError ("last entry of \"" ++ path ++ "\" is unreadable: " ++ e))
  | _, _ =>
    if _h : start = 0 then .ok none
    else readLastLoop path content start tail
termination_by readFrom
decreasing_by
  have hblock : 0 < block := by decide
  omega

/-- Read the last entry of a segment without loading the whole file. -/
def readLastEntry (path : String) (content : Bytes) : Except AuditError (Option AuditEntry) :=
  if content.length = 0 then .ok none
  else readLastLoop J path content content.length []

/-- Take the last entry of each segment in turn, keeping the greatest sequence. -/
def newestOf (config : LogConfig) (d : Dir) (readFile : String → Option String) :
    Option (String × String × ℕ) → List String →
    Except AuditError (Option (String × String × ℕ))
  | newest, [] => .ok newest
  | newest, path :: paths =>
    match readFile path with
    | some e => .error (.ioError e)
    | none =>
      match readLastEntry J (config.path path) (d.content path) with
      | .error e => .error e
      | .ok none => newestOf config d readFile newest paths
      | .ok (some entry) =>
        let replace := match newest with
          | some (_, _, seq) => decide (seq < entry.sequence)
          | none => true
        newestOf config d readFile
          (if replace then some (path, entry.entryHash, entry.sequence) else newest) paths

/-- Find the segment holding the highest sequence number. -/
def findExistingLogFile (config : LogConfig) (d : Dir) (io : OpenIo) :
    Except AuditError (Option (String × String × ℕ)) :=
  match io.readDir with
  | some e => .error (.ioError e)
  | none => newestOf J config d io.readFile none d.logFiles

/-- Name of the file a live writer holds an operating-system lock on. -/
def writerLock : String := ".cordon-writer.lock"

/-- Who holds the claim, for the refusal message. -/
def writerInfo : String := ".cordon-writer.info"

/-- Claim the directory, or explain who already has it. -/
def acquireWriterLock (config : LogConfig) (d : Dir) (io : OpenIo) : Dir × Except AuditError Unit :=
  match io.openLock with
  | some e =>
    (d, .error (.ioError ("cannot claim the audit log at " ++ config.logDir ++ ": " ++ e)))
  | none =>
    let d := d.create writerLock
    match io.tryLock with
    | some e =>
      (d, .error (.ioError ("cannot lock the audit log at " ++ config.logDir ++ ": " ++ e)))
    | none =>
      if d.locked then
        let holder := Text.trim ((Utf8.decode (d.content writerInfo)).getD [])
        (d, .error (.alreadyLocked ("another Cordon node is already writing to the audit log at " ++
          config.logDir ++ ".\n\n" ++ String.ofList holder ++
          "\n                     Two writers fork the hash chain: both continue from the same " ++
          "                     sequence, and the log then fails verification as though it had " ++
          "been                      tampered with. Stop the other node, or point this one at " ++
          "its own                      audit directory.")))
      else
        let info := "node_id=" ++ config.nodeId ++ "\npid=" ++ toString io.pid ++ "\nsince=" ++
          io.since.toRfc3339 ++ "\n"
        let d := if io.infoFails then d else d.replace writerInfo (Text.asBytes info)
        ({ d with locked := true }, .ok ())

/-- The half of `initialize` (here `initLog`) before the genesis entry: resume from an existing
segment, or set up a new one. -/
def AuditLog.resume (log : AuditLog) (d : Dir) (io : OpenIo) :
    AuditLog × Dir × Except AuditError Unit :=
  match findExistingLogFile J log.config d io with
  | .error e => (log, d, .error e)
  | .ok existing =>
    let (filePath, lastHash, sequence) := existing.getD
      (newLogFileName 1 io.ts io.unique, computeGenesisHash log.config.deploymentId, 0)
    match openLogFile log.config d filePath io.openFile with
    | (d, .error e) => (log, d, .error e)
    | (d, .ok ()) =>
      let state := {
        writer := ⟨filePath, []⟩
        lastHash
        sequence
        currentFile := filePath
        bytesWritten := if io.metadataFails then 0 else (d.content filePath).length }
      ({ log with state := some state }, d, .ok ())

/-- Initialize the log: resume from an existing segment, or write the genesis entry. -/
def AuditLog.initLog (log : AuditLog) (d : Dir) (io : OpenIo) :
    AuditLog × Dir × Except AuditError Unit :=
  match log.resume J d io with
  | (log, d, .error e) => (log, d, .error e)
  | (log, d, .ok ()) =>
    if log.sequence = 0 then
      match log.writeGenesis E J d io.genesis with
      | (log, d, .error e) => (log, d, .error e)
      | (log, d, .ok _) => (log, d, .ok ())
    else (log, d, .ok ())

/-- Drop a log: its writer is drained once more, whatever comes of it, and the directory released.
-/
def AuditLog.drop (log : AuditLog) (d : Dir) (o : WriteOutcome) : Dir :=
  match log.state with
  | none => { d with locked := false }
  | some s => { (s.writer.flush d o).2.1 with locked := false }

/-- Create or open an audit log. -/
def AuditLog.openLog (config : LogConfig) (key : SigningKey) (d : Dir) (io : OpenIo) :
    Dir × Except AuditError AuditLog :=
  match io.createDir with
  | some e => (d, .error (.ioError ("Cannot create log dir: " ++ e)))
  | none =>
    match acquireWriterLock config d io with
    | (d, .error e) => (d, .error e)
    | (d, .ok ()) =>
      match (AuditLog.mk config key none).initLog E J d io with
      | (log, d, .error e) => (log.drop d io.dropFlush, .error e)
      | (log, d, .ok ()) => (d, .ok log)

end Writer

end Cordon
