import Cordon.Audit.Contents

/-!
# What one call of the writer does

Specifications of `append` and `openLog` for a log whose **buffer is empty**, which is the state
every call that returned leaves behind as long as lines reach the file before an append returns.

`AppendIo.Completes` and `AppendIo.FailsCleanly` name the system-call outcomes under which an append
is all or nothing, as conditions on what goes in: either the line leaves the buffer and nothing
fails, a rotation that becomes due included, or the one write that bypasses the buffer fails before
its first byte. A line leaves the buffer by being as long as it, by the flush of a log that syncs,
or **by the rotation it makes due**, which drains the old segment before it opens the new one. The
outcomes outside both are those where an early return separates the bytes from the chain state;
`append_of_sync_fails` describes one of them.

All of it rests on the buffer being empty: a line then leaves it in one write or in none, and no
earlier line can be lost with it. `Appended` says what an append that completes leaves, whether it
rotated or not. The proofs about runs use that and the two conditions, and never look at a buffer or
a system call.
-/

namespace Cordon

/-! ### Writes that succeed -/

/-- A write of `n` bytes succeeds. -/
def WriteOutcome.Succeeds (n : ℕ) : WriteOutcome → Prop
  | .done => True
  | .fails written _ => n ≤ written

/-- A write of `n` bytes fails before its first byte. -/
def WriteOutcome.FailsAtOnce (n : ℕ) : WriteOutcome → Prop
  | .done => False
  | .fails written _ => written = 0 ∧ 0 < n

theorem writeFile_of_succeeds {d : Dir} {file : String} {bytes : Bytes} {o : WriteOutcome}
    (h : o.Succeeds bytes.length) :
    writeFile d file bytes o = (d.append file bytes, [], .ok ()) := by
  cases o with
  | done => rfl
  | fails written reason => rw [writeFile, if_neg (by simpa [WriteOutcome.Succeeds] using h)]

theorem writeFile_of_failsAtOnce (d : Dir) (file : String) {bytes : Bytes} {o : WriteOutcome}
    (h : o.FailsAtOnce bytes.length) :
    ∃ reason, writeFile d file bytes o = (d, bytes, .error reason) := by
  cases o with
  | done => exact h.elim
  | fails written reason =>
    obtain ⟨rfl, hpos⟩ := h
    exact ⟨reason, by rw [writeFile, if_pos hpos]; simp⟩

/-- Draining an empty buffer does nothing, whatever the disk would have done. -/
theorem BufWriter.flush_of_nil {w : BufWriter} (hw : w.buf = []) (d : Dir) (o : WriteOutcome) :
    w.flush d o = (w, d, .ok ()) := by
  have hsucc : o.Succeeds w.buf.length := by
    cases o <;> simp [WriteOutcome.Succeeds, hw]
  rw [BufWriter.flush, writeFile_of_succeeds hsucc, hw, Dir.append_nil]
  cases w
  simp_all

/-! ### Appending to a log with an empty buffer -/

/-- The line reaches the file before the append returns, and nothing fails. -/
structure AppendIo.Completes (config : LogConfig) (s : LogState) (line : Bytes) (io : AppendIo) :
    Prop where
  buffered : line.length < BufWriter.capacity →
    (config.fsyncOnWrite = true ∧ io.flush.Succeeds line.length ∧ io.sync = none) ∨
      (config.fsyncOnWrite = false ∧ config.maxFileSizeBytes ≤ s.bytesWritten + line.length ∧
        io.rotate.flush.Succeeds line.length)
  direct : BufWriter.capacity ≤ line.length →
    io.direct.Succeeds line.length ∧ (config.fsyncOnWrite = true → io.sync = none)
  rotation : config.maxFileSizeBytes ≤ s.bytesWritten + line.length → io.rotate.openFile = none

/-- The line is too long for the buffer, and writing it fails before its first byte. -/
def AppendIo.FailsCleanly (line : Bytes) (io : AppendIo) : Prop :=
  BufWriter.capacity ≤ line.length ∧ io.direct.FailsAtOnce line.length

/-- The outcomes under which an append of `line` is all or nothing. -/
def AppendIo.Harmless (config : LogConfig) (s : LogState) (line : Bytes) (io : AppendIo) : Prop :=
  io.Completes config s line ∨ io.FailsCleanly line

section Persist

variable {config : LogConfig} {s : LogState} {line : Bytes} {io : AppendIo}

/-- A line shorter than the capacity is only buffered. -/
theorem writeAll_of_short (hbuf : s.writer.buf = []) (hlt : line.length < BufWriter.capacity)
    (d : Dir) : s.writer.writeAll d line io.drain io.direct =
      ({ s.writer with buf := line }, d, .ok ()) := by
  rw [BufWriter.writeAll, if_pos (by simpa [hbuf] using hlt), hbuf, List.nil_append]

/-- A longer line bypasses the buffer, which is drained first and is empty. -/
theorem writeAll_of_long (hbuf : s.writer.buf = []) (hge : BufWriter.capacity ≤ line.length)
    (d : Dir) : s.writer.writeAll d line io.drain io.direct =
      match writeFile d s.writer.file line io.direct with
      | (d, _, r) => (s.writer, d, r) := by
  have hdrained : (if BufWriter.capacity - s.writer.buf.length < line.length then
      s.writer.flush d io.drain else (s.writer, d, .ok ())) = (s.writer, d, .ok ()) := by
    split_ifs
    · exact BufWriter.flush_of_nil hbuf d io.drain
    · rfl
  have hspare : ¬ line.length < BufWriter.capacity - s.writer.buf.length := by
    simpa [hbuf] using hge
  rw [BufWriter.writeAll, if_neg hspare, hdrained]
  simp only [if_pos hge]

/-- Draining a buffer that holds one line writes it. -/
theorem flush_of_line (hbuf : s.writer.buf = []) {o : WriteOutcome} (ho : o.Succeeds line.length)
    (d : Dir) : BufWriter.flush { s.writer with buf := line } d o =
      (s.writer, d.append s.writer.file line, .ok ()) := by
  simp only [BufWriter.flush, writeFile_of_succeeds ho]
  rw [← hbuf]

/-- A line that is to reach the file is in it at once, or is left to the rotation that it makes due.
-/
theorem persistLine_of_completes (hbuf : s.writer.buf = []) (h : io.Completes config s line)
    (d : Dir) :
    persistLine config s.writer d line io = (s.writer, d.append s.writer.file line, .ok ()) ∨
      (config.maxFileSizeBytes ≤ s.bytesWritten + line.length ∧
        io.rotate.flush.Succeeds line.length ∧
        persistLine config s.writer d line io = ({ s.writer with buf := line }, d, .ok ())) := by
  rcases Nat.lt_or_ge line.length BufWriter.capacity with hlt | hge
  · rcases h.buffered hlt with ⟨hsync, hflush, hnone⟩ | ⟨hsync, hdue, hflush⟩
    · left
      simp only [persistLine, writeAll_of_short hbuf hlt, hsync, if_true,
        flush_of_line hbuf hflush, hnone]
    · refine .inr ⟨hdue, hflush, ?_⟩
      simp only [persistLine, writeAll_of_short hbuf hlt, hsync, Bool.false_eq_true, if_false]
  · left
    obtain ⟨hsucc, hsync⟩ := h.direct hge
    simp only [persistLine, writeAll_of_long hbuf hge, writeFile_of_succeeds hsucc,
      BufWriter.flush_of_nil hbuf]
    by_cases hf : config.fsyncOnWrite = true
    · simp only [hf, if_true, hsync hf]
    · rw [if_neg hf]

theorem persistLine_of_failsCleanly (config : LogConfig) (hbuf : s.writer.buf = [])
    (h : io.FailsCleanly line) (d : Dir) :
    ∃ e, persistLine config s.writer d line io = (s.writer, d, .error e) := by
  obtain ⟨reason, hw⟩ := writeFile_of_failsAtOnce d s.writer.file h.2
  exact ⟨.writeFailed reason, by simp only [persistLine, writeAll_of_long hbuf h.1, hw]⟩

end Persist

/-- A rotation that drains its buffer opens the new segment. -/
theorem rotateLogFile_of_flushes (config : LogConfig) {s : LogState} {d d' : Dir} {io : RotateIo}
    {writer : BufWriter} (hflush : s.writer.flush d io.flush = (writer, d', .ok ()))
    (hopen : io.openFile = none) {name : String}
    (hname : name = newLogFileName (s.sequence + 1) io.ts io.unique) :
    rotateLogFile config s d io =
      ({ s with writer := ⟨name, []⟩, currentFile := name, bytesWritten := 0 }, d'.create name,
        .ok ()) := by
  simp only [rotateLogFile, hflush, openLogFile, hopen, hname]

section Prepare

variable (E : Ed25519) (J : AuditJson)

/-- The state an append starts from, the entry it seals and that entry's text, when it gets as far
as writing. -/
def AuditLog.prepare (log : AuditLog) (event : AuditEvent) (io : AppendIo) :
    Option (LogState × AuditEntry × String) :=
  match log.state with
  | none => none
  | some s =>
    match sealEntry E J log.signingKey s.lastHash s.sequence event io.now io.logId with
    | .error _ => none
    | .ok entry =>
      match J.entryToString entry with
      | .error _ => none
      | .ok text => some (s, entry, text)

variable {E J} {log : AuditLog} {d : Dir} {event : AuditEvent} {io : AppendIo}

theorem AuditLog.prepare_eq_some {s : LogState} {entry : AuditEntry} {text : String}
    (h : log.prepare E J event io = some (s, entry, text)) :
    log.state = some s ∧
      sealEntry E J log.signingKey s.lastHash s.sequence event io.now io.logId = .ok entry ∧
      J.entryToString entry = .ok text := by
  unfold AuditLog.prepare at h
  split at h
  · cases h
  · rename_i s' hs
    split at h
    · cases h
    · rename_i e he
      split at h
      · cases h
      · rename_i t ht
        cases h
        exact ⟨hs, he, ht⟩

/-- An append that does not get as far as writing changes nothing. -/
theorem AuditLog.append_of_prepare_none (h : log.prepare E J event io = none) (d : Dir) :
    ∃ e, log.append E J d event io = (log, d, .error e) := by
  unfold AuditLog.prepare at h
  unfold AuditLog.append
  cases hs : log.state with
  | none => exact ⟨_, rfl⟩
  | some s =>
    simp only [hs] at h ⊢
    cases hseal : sealEntry E J log.signingKey s.lastHash s.sequence event io.now io.logId with
    | error e => exact ⟨_, rfl⟩
    | ok entry =>
      simp only [hseal] at h ⊢
      cases htext : J.entryToString entry with
      | error e => exact ⟨_, rfl⟩
      | ok text => simp [htext] at h

/-- What a successful append leaves behind. -/
structure Appended (d d' : Dir) (s s' : LogState) (line : Bytes) (e : AuditEntry) : Prop where
  buf : s'.writer.buf = []
  lastHash : s'.lastHash = e.entryHash
  sequence : s'.sequence = e.sequence
  dir : (d' = d.append s.writer.file line ∧ s'.writer.file = s.writer.file) ∨
    ∃ name, isSegment name = true ∧ d' = (d.append s.writer.file line).create name ∧
      s'.writer.file = name

section Outcomes

variable {s : LogState} {entry : AuditEntry} {text : String}
  (hprep : log.prepare E J event io = some (s, entry, text)) (hbuf : s.writer.buf = [])

include hprep hbuf

/-- An append that completes without a rotation falling due. -/
theorem AuditLog.append_of_not_due (h : io.Completes log.config s (lineBytes text))
    (hdue : s.bytesWritten + (lineBytes text).length < log.config.maxFileSizeBytes) (d : Dir) :
    log.append E J d event io =
      ({ log with state := some (s.commit s.writer (lineBytes text) entry) },
        d.append s.writer.file (lineBytes text), .ok entry) := by
  obtain ⟨hs, hseal, htext⟩ := AuditLog.prepare_eq_some hprep
  have hnot : ¬ log.config.maxFileSizeBytes ≤
      (s.commit s.writer (lineBytes text) entry).bytesWritten := Nat.not_le_of_lt hdue
  have hpersisted := (persistLine_of_completes hbuf h d).resolve_right fun hleft ↦ hnot hleft.1
  simp only [AuditLog.append, hs, hseal, htext, hpersisted]
  rw [if_neg hnot]

/-- An append that completes and rotates to the segment called `name`. -/
theorem AuditLog.append_of_due (h : io.Completes log.config s (lineBytes text))
    (hdue : log.config.maxFileSizeBytes ≤ s.bytesWritten + (lineBytes text).length) {name : String}
    (hname : name = newLogFileName (entry.sequence + 1) io.rotate.ts io.rotate.unique) (d : Dir) :
    log.append E J d event io =
      ({ log with
          state := some { s.commit s.writer (lineBytes text) entry with
            writer := ⟨name, []⟩, currentFile := name, bytesWritten := 0 } },
        (d.append s.writer.file (lineBytes text)).create name, .ok entry) := by
  obtain ⟨hs, hseal, htext⟩ := AuditLog.prepare_eq_some hprep
  have hdue' (writer : BufWriter) : log.config.maxFileSizeBytes ≤
    (s.commit writer (lineBytes text) entry).bytesWritten := hdue
  -- the rotation finds the line in the file, or drains it there
  rcases persistLine_of_completes hbuf h d with hpersisted | ⟨-, hdrains, hpersisted⟩
  · have hr := rotateLogFile_of_flushes log.config
      (s := s.commit s.writer (lineBytes text) entry)
      (BufWriter.flush_of_nil hbuf (d.append s.writer.file (lineBytes text)) io.rotate.flush)
      (h.rotation hdue) hname
    simp only [AuditLog.append, hs, hseal, htext, hpersisted]
    rw [if_pos (hdue' _), hr]
  · have hr := rotateLogFile_of_flushes log.config
      (s := s.commit { s.writer with buf := lineBytes text } (lineBytes text) entry)
      (flush_of_line hbuf hdrains d) (h.rotation hdue) hname
    simp only [AuditLog.append, hs, hseal, htext, hpersisted]
    rw [if_pos (hdue' _), hr]
    rfl

/-- **An append that completes** returns the entry, with its line in the file and the chain state
moved on to it. -/
theorem AuditLog.append_of_completes (h : io.Completes log.config s (lineBytes text)) (d : Dir) :
    ∃ s' d', log.append E J d event io = ({ log with state := some s' }, d', .ok entry) ∧
      Appended d d' s s' (lineBytes text) entry := by
  rcases Nat.lt_or_ge (s.bytesWritten + (lineBytes text).length) log.config.maxFileSizeBytes with
    hdue | hdue
  · exact ⟨_, _, AuditLog.append_of_not_due hprep hbuf h hdue d, hbuf, rfl, rfl,
      Or.inl ⟨rfl, rfl⟩⟩
  · exact ⟨_, _, AuditLog.append_of_due hprep hbuf h hdue rfl d, rfl, rfl, rfl,
      Or.inr ⟨_, isSegment_newLogFileName _ _ _, rfl, rfl⟩⟩

/-- **An append that fails cleanly** changes nothing. -/
theorem AuditLog.append_of_failsCleanly (h : io.FailsCleanly (lineBytes text)) (d : Dir) :
    ∃ e, log.append E J d event io = (log, d, .error e) := by
  obtain ⟨hs, hseal, htext⟩ := AuditLog.prepare_eq_some hprep
  have hlog : { log with state := some s } = log := by rw [← hs]
  obtain ⟨e, hp⟩ := persistLine_of_failsCleanly log.config hbuf h d
  refine ⟨e, ?_⟩
  simp only [AuditLog.append, hs, hseal, htext, hp]
  rw [hlog]

/-- **An append whose fsync fails** returns an error although its line is in the file, and leaves
the chain state where it was. -/
theorem AuditLog.append_of_sync_fails {reason : String}
    (hshort : (lineBytes text).length < BufWriter.capacity)
    (hfsync : log.config.fsyncOnWrite = true)
    (hflush : io.flush.Succeeds (lineBytes text).length) (hsync : io.sync = some reason) (d : Dir) :
    ∃ e, log.append E J d event io =
      (log, d.append s.writer.file (lineBytes text), .error e) := by
  obtain ⟨hs, hseal, htext⟩ := AuditLog.prepare_eq_some hprep
  have hlog : { log with state := some s } = log := by rw [← hs]
  refine ⟨.writeFailed ("cannot fsync the audit log: " ++ reason), ?_⟩
  simp only [AuditLog.append, hs, hseal, htext, persistLine, writeAll_of_short hbuf hshort, hfsync,
    if_true, flush_of_line hbuf hflush, hsync]
  rw [hlog]

end Outcomes

/-- No append changes the configuration or the key of a log. -/
theorem AuditLog.append_config (log : AuditLog) (d : Dir) (event : AuditEvent) (io : AppendIo) :
    (log.append E J d event io).1.config = log.config ∧
      (log.append E J d event io).1.signingKey = log.signingKey := by
  unfold AuditLog.append
  split
  · exact ⟨rfl, rfl⟩
  split
  · exact ⟨rfl, rfl⟩
  split
  · exact ⟨rfl, rfl⟩
  dsimp only
  split
  · exact ⟨rfl, rfl⟩
  split_ifs
  · split <;> exact ⟨rfl, rfl⟩
  · exact ⟨rfl, rfl⟩

end Prepare

/-! ### Opening -/

section Opening

variable (E : Ed25519) (J : AuditJson)

/-- The log and directory with which opening reaches the genesis decision, if it does. -/
def AuditLog.claimAndResume (config : LogConfig) (key : SigningKey) (d : Dir) (io : OpenIo) :
    Option (AuditLog × Dir) :=
  match io.createDir with
  | some _ => none
  | none =>
    match acquireWriterLock config d io with
    | (_, .error _) => none
    | (d, .ok ()) =>
      match (AuditLog.mk config key none).resume J d io with
      | (_, _, .error _) => none
      | (log, d, .ok ()) => some (log, d)

variable {E J} {config : LogConfig} {key : SigningKey} {d : Dir} {io : OpenIo}

/-- Claiming the directory leaves its segments alone, and succeeds only if nobody holds it. -/
theorem acquireWriterLock_spec (config : LogConfig) (d : Dir) (io : OpenIo) :
    SameSegments d (acquireWriterLock config d io).1 ∧
      (((acquireWriterLock config d io).2 = .ok () ∧ d.locked = false ∧
          (acquireWriterLock config d io).1.locked = true) ∨
        ((∃ e, (acquireWriterLock config d io).2 = .error e) ∧
          (acquireWriterLock config d io).1.locked = d.locked)) := by
  have hlockName : isSegment writerLock = false := by decide
  have hinfoName : isSegment writerInfo = false := by decide
  unfold acquireWriterLock
  split
  · exact ⟨SameSegments.refl d, Or.inr ⟨⟨_, rfl⟩, rfl⟩⟩
  · have hcreate : SameSegments d (d.create writerLock) := SameSegments.create hlockName
    split
    · exact ⟨hcreate, Or.inr ⟨⟨_, rfl⟩, Dir.create_locked _ _⟩⟩
    · dsimp only
      split_ifs with hl hi
      · exact ⟨hcreate, Or.inr ⟨⟨_, rfl⟩, Dir.create_locked _ _⟩⟩
      · rw [Dir.create_locked] at hl
        exact ⟨hcreate.trans (SameSegments.setLocked true), Or.inl ⟨rfl, by simpa using hl, rfl⟩⟩
      · rw [Dir.create_locked] at hl
        exact ⟨(hcreate.trans (SameSegments.replace hinfoName)).trans (SameSegments.setLocked true),
          Or.inl ⟨rfl, by simpa using hl, rfl⟩⟩

/-- **Opening that fails before the genesis decision leaves the segments alone.** -/
theorem AuditLog.openLog_of_none (h : AuditLog.claimAndResume J config key d io = none) :
    ∃ d' e, AuditLog.openLog E J config key d io = (d', .error e) ∧ SameSegments d d' ∧
      d'.locked = d.locked := by
  unfold AuditLog.claimAndResume at h
  unfold AuditLog.openLog
  cases hdir : io.createDir with
  | some e => exact ⟨d, _, rfl, SameSegments.refl d, rfl⟩
  | none =>
    simp only [hdir] at h ⊢
    obtain ⟨hsame, hspec⟩ := acquireWriterLock_spec config d io
    obtain ⟨⟨d1, r⟩, hacq⟩ : ∃ p, acquireWriterLock config d io = p := ⟨_, rfl⟩
    rw [hacq] at h hsame hspec ⊢
    rcases hspec with ⟨hok, hunlocked, hlocked⟩ | ⟨⟨e, he⟩, hlocked⟩
    · subst hok
      -- the log that failed to resume has no writer yet, so dropping it only releases the lock
      have hresume : ∃ e, (AuditLog.mk config key none).resume J d1 io =
          (AuditLog.mk config key none, d1, .error e) := by
        simp only [AuditLog.resume] at h ⊢
        cases hfind : Cordon.findExistingLogFile J config d1 io with
        | error e => exact ⟨e, rfl⟩
        | ok existing =>
          simp only [hfind] at h ⊢
          cases hopen : io.openFile with
          | some e => exact ⟨_, rfl⟩
          | none => simp [hopen, openLogFile] at h
      obtain ⟨e, he⟩ := hresume
      refine ⟨{ d1 with locked := false }, e, ?_, hsame.trans (SameSegments.setLocked false), ?_⟩
      · simp only [AuditLog.initLog, he, AuditLog.drop]
      · rw [hunlocked]
    · subst he
      exact ⟨d1, e, rfl, hsame, hlocked⟩

/-- After the genesis decision, opening is the genesis append or nothing more. -/
theorem AuditLog.openLog_of_some {log : AuditLog} {d1 : Dir}
    (h : AuditLog.claimAndResume J config key d io = some (log, d1)) :
    AuditLog.openLog E J config key d io =
      if log.sequence = 0 then
        match log.writeGenesis E J d1 io.genesis with
        | (log, d, .error e) => (log.drop d io.dropFlush, .error e)
        | (log, d, .ok _) => (d, .ok log)
      else (d1, .ok log) := by
  unfold AuditLog.claimAndResume at h
  unfold AuditLog.openLog
  cases hdir : io.createDir with
  | some e => simp [hdir] at h
  | none =>
    simp only [hdir] at h ⊢
    obtain ⟨⟨d0, r⟩, hacq⟩ : ∃ p, acquireWriterLock config d io = p := ⟨_, rfl⟩
    rw [hacq] at h ⊢
    cases r with
    | error e => cases h
    | ok _ =>
      obtain ⟨⟨log', d', r'⟩, hres⟩ :
        ∃ p, (AuditLog.mk config key none).resume J d0 io = p := ⟨_, rfl⟩
      simp only [AuditLog.initLog, hres] at h ⊢
      cases r' with
      | error e => cases h
      | ok _ =>
        cases h
        dsimp only
        split_ifs
        · obtain ⟨⟨log'', d'', r''⟩, hgen⟩ : ∃ p, log.writeGenesis E J d1 io.genesis = p := ⟨_, rfl⟩
          simp only [hgen]
          cases r'' <;> rfl
        · rfl

/-- What a log that reached the genesis decision was set up from. -/
theorem AuditLog.claimAndResume_eq_some {log : AuditLog} {d1 : Dir}
    (h : AuditLog.claimAndResume J config key d io = some (log, d1)) :
    d.locked = false ∧ log.config = config ∧ log.signingKey = key ∧
      ∃ d0 existing s, SameSegments d d0 ∧ d0.locked = true ∧
        findExistingLogFile J config d0 io = .ok existing ∧ log.state = some s ∧
        s.writer = ⟨(existing.getD (newLogFileName 1 io.ts io.unique,
          computeGenesisHash config.deploymentId, 0)).1, []⟩ ∧
        s.lastHash = (existing.getD (newLogFileName 1 io.ts io.unique,
          computeGenesisHash config.deploymentId, 0)).2.1 ∧
        s.sequence = (existing.getD (newLogFileName 1 io.ts io.unique,
          computeGenesisHash config.deploymentId, 0)).2.2 ∧
        d1 = d0.create s.writer.file ∧
        s.bytesWritten = if io.metadataFails then 0 else (d1.content s.writer.file).length := by
  unfold AuditLog.claimAndResume at h
  cases hdir : io.createDir with
  | some e => simp [hdir] at h
  | none =>
    simp only [hdir] at h
    obtain ⟨hsame, hspec⟩ := acquireWriterLock_spec config d io
    obtain ⟨⟨d0, r⟩, hacq⟩ : ∃ p, acquireWriterLock config d io = p := ⟨_, rfl⟩
    rw [hacq] at h hsame hspec
    rcases hspec with ⟨hok, hunlocked, hlocked⟩ | ⟨⟨e, he⟩, -⟩
    · subst hok
      simp only [AuditLog.resume] at h
      cases hfind : Cordon.findExistingLogFile J config d0 io with
      | error e => simp [hfind] at h
      | ok existing =>
        cases hopen : io.openFile with
        | some e => simp [hfind, hopen, openLogFile] at h
        | none =>
          simp only [hfind, hopen, openLogFile, Option.some.injEq, Prod.mk.injEq] at h
          obtain ⟨rfl, rfl⟩ := h
          exact ⟨hunlocked, rfl, rfl, d0, existing, _, hsame, hlocked, hfind, rfl, rfl, rfl, rfl,
            rfl, rfl⟩
    · subst he
      cases h

/-! ### Without input or output errors -/

/-- Every system call of an append succeeds. -/
structure AppendIo.Clean (io : AppendIo) : Prop where
  drain : io.drain = .done
  direct : io.direct = .done
  flush : io.flush = .done
  sync : io.sync = none
  rotateFlush : io.rotate.flush = .done
  rotateOpen : io.rotate.openFile = none

/-- Every system call of an opening succeeds. -/
structure OpenIo.Clean (io : OpenIo) : Prop where
  createDir : io.createDir = none
  openLock : io.openLock = none
  tryLock : io.tryLock = none
  info : io.infoFails = false
  readDir : io.readDir = none
  readFile : ∀ f, io.readFile f = none
  openFile : io.openFile = none
  metadata : io.metadataFails = false
  genesis : io.genesis.Clean
  dropFlush : io.dropFlush = .done

/-- An append that syncs and meets no error completes. -/
theorem AppendIo.Clean.completes {io : AppendIo} (h : io.Clean) {config : LogConfig}
    (hfsync : config.fsyncOnWrite = true) (s : LogState) (line : Bytes) :
    io.Completes config s line where
  buffered := fun _ ↦ .inl ⟨hfsync, by rw [h.flush]; trivial, h.sync⟩
  direct := fun _ ↦ ⟨by rw [h.direct]; trivial, fun _ ↦ h.sync⟩
  rotation := fun _ ↦ h.rotateOpen

/-- Without errors, opening a directory nobody holds gets as far as its segments can be read. -/
theorem AuditLog.claimAndResume_of_clean (hio : io.Clean) (hl : d.locked = false)
    (hfind : ∀ d0, SameSegments d d0 →
      ∃ existing, findExistingLogFile J config d0 io = .ok existing) :
    ∃ log d1, AuditLog.claimAndResume J config key d io = some (log, d1) := by
  obtain ⟨hsame, hspec⟩ := acquireWriterLock_spec config d io
  have hacq : (acquireWriterLock config d io).2 = .ok () := by
    rcases hspec with ⟨hok, -⟩ | ⟨⟨e, he⟩, -⟩
    · exact hok
    · simp [acquireWriterLock, hio.openLock, hio.tryLock, Dir.create_locked, hl] at he
  obtain ⟨⟨d0, r⟩, hp⟩ : ∃ p, acquireWriterLock config d io = p := ⟨_, rfl⟩
  rw [hp] at hsame hacq
  subst hacq
  obtain ⟨existing, hex⟩ := hfind d0 hsame
  simp only [AuditLog.claimAndResume, hio.createDir, hp, AuditLog.resume, hex, openLogFile,
    hio.openFile]
  exact ⟨_, _, rfl⟩

end Opening

end Cordon
