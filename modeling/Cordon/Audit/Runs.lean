import Cordon.Lib.Transition
import Cordon.Audit.Append

/-!
# Whole runs of one audit directory

The system is a directory and at most one live log on it. Its actions are everything that can happen
to the two: a log is opened, appended to and dropped, and the process dies, in the middle of an
append or of the genesis append of an opening. Every system call in an action has the outcome the
action says.

Four **history variables** record what no code reads: the entries an append sealed, the entries
appends returned, whether a crash has happened, and whether a log has been opened since.

`Harmless` is the one condition on the environment, per action and state. The invariant is that the
directory `Holds` one unforked run of appends, that a live log stands at its end, and that what was
returned is in it, or else that the directory is `Torn`, and then no log opens any more. Everything
proved about whole runs is read off `reachable_inv`.

The two lemmas that carry it are `AuditLog.append_of_completes` and
`AuditLog.append_of_failsCleanly`: a harmless append is one of these. A crash is dealt with at the
bytes, since it may cut a line anywhere (`Attached.crash`), and whether a log opens afterwards
depends on where: nothing of the line, all of it, or a part that no reader accepts.
-/

namespace Cordon

/-- An audit directory, the live log on it, and the history of both. -/
structure System where
  dir : Dir
  log : Option AuditLog
  /-- Entries that were sealed and serialized by an append, whatever came of it. -/
  attempted : List AuditEntry
  /-- Entries that an append returned. -/
  returned : List AuditEntry
  crashed : Bool
  /-- A log has been opened since the last crash. -/
  opened : Bool

/-- A new, empty directory. -/
def System.init : System where
  dir := Dir.empty
  log := none
  attempted := []
  returned := []
  crashed := false
  opened := false

/-- What can happen to an audit directory. -/
inductive Action where
  | openLog (config : LogConfig) (io : OpenIo)
  | append (event : AuditEvent) (io : AppendIo)
  | drop (flush : WriteOutcome)
  /-- The process dies in an append that has got `written` bytes onto the disk. -/
  | crash (event : AuditEvent) (io : AppendIo) (written : ℕ)
  /-- The process dies when an append has done all its work and not yet returned. -/
  | crashAfter (event : AuditEvent) (io : AppendIo)
  /-- The process dies while opening, `written` bytes into the genesis entry if one is due. -/
  | crashOpening (config : LogConfig) (io : OpenIo) (written : ℕ)

section Step

variable (E : Ed25519) (J : AuditJson) (key : SigningKey)

/-- The directory after a crash in an append: the first `written` bytes of what was on its way to
the file are in it, and the lock is gone with the process. -/
def AuditLog.crash (log : AuditLog) (d : Dir) (event : AuditEvent) (io : AppendIo) (written : ℕ) :
    Dir :=
  match log.prepare E J event io with
  | none => { d with locked := false }
  | some (s, _, text) =>
    { d.append s.writer.file ((s.writer.buf ++ lineBytes text).take written) with locked := false }

/-- The entry an append seals and serializes. -/
def AuditLog.attempt (log : AuditLog) (event : AuditEvent) (io : AppendIo) : Option AuditEntry :=
  (log.prepare E J event io).map fun p ↦ p.2.1

/-- The genesis entry opening a log seals and serializes, if one is due. -/
def openAttempt (config : LogConfig) (d : Dir) (io : OpenIo) : Option AuditEntry :=
  match AuditLog.claimAndResume J config key d io with
  | none => none
  | some (log, _) =>
    if log.sequence = 0 then log.attempt E J (genesisEvent log.config.nodeId) io.genesis else none

/-- What an action makes of the system. -/
def System.step (s : System) : Action → System
  | .openLog config io =>
    let attempt := (openAttempt E J key config s.dir io).toList
    match AuditLog.openLog E J config key s.dir io with
    | (d, .ok log) =>
      { s with
        dir := d, log := some log, attempted := s.attempted ++ attempt
        returned := s.returned ++ attempt, opened := true }
    | (d, .error _) => { s with dir := d, attempted := s.attempted ++ attempt }
  | .append event io =>
    match s.log with
    | none => s
    | some log =>
      let attempt := (log.attempt E J event io).toList
      match log.append E J s.dir event io with
      | (log, d, .ok e) =>
        { s with
          dir := d, log := some log, attempted := s.attempted ++ attempt
          returned := s.returned ++ [e] }
      | (log, d, .error _) =>
        { s with dir := d, log := some log, attempted := s.attempted ++ attempt }
  | .drop flush =>
    match s.log with
    | none => s
    | some log => { s with dir := log.drop s.dir flush, log := none }
  | .crash event io written =>
    match s.log with
    | none => s
    | some log =>
      { s with
        dir := log.crash E J s.dir event io written, log := none
        attempted := s.attempted ++ (log.attempt E J event io).toList
        crashed := true, opened := false }
  | .crashAfter event io =>
    match s.log with
    | none => s
    | some log =>
      { s with
        dir := { (log.append E J s.dir event io).2.1 with locked := false }, log := none
        attempted := s.attempted ++ (log.attempt E J event io).toList
        crashed := true, opened := false }
  | .crashOpening config io written =>
    match AuditLog.claimAndResume J config key s.dir io with
    | none => s
    | some (log, d) =>
      { s with
        dir :=
          if log.sequence = 0 then
            log.crash E J d (genesisEvent log.config.nodeId) io.genesis written
          else { d with locked := false }
        log := none
        attempted := s.attempted ++ (openAttempt E J key config s.dir io).toList
        crashed := true, opened := false }

section Outcomes

variable {E J key} {s : System}

theorem System.step_openLog_ok {config : LogConfig} {io : OpenIo} {d : Dir} {log : AuditLog}
    (h : AuditLog.openLog E J config key s.dir io = (d, .ok log)) :
    s.step E J key (.openLog config io) = { s with
      dir := d, log := some log
      attempted := s.attempted ++ (openAttempt E J key config s.dir io).toList
      returned := s.returned ++ (openAttempt E J key config s.dir io).toList, opened := true } := by
  simp only [System.step, h]

/-- Opening a log that needs no genesis entry. -/
theorem openLog_of_resumed {config : LogConfig} {io : OpenIo} {d d1 : Dir} {log : AuditLog}
    (h : AuditLog.claimAndResume J config key d io = some (log, d1)) (hseq : log.sequence ≠ 0) :
    AuditLog.openLog E J config key d io = (d1, .ok log) ∧
      openAttempt E J key config d io = none := by
  refine ⟨?_, ?_⟩
  · rw [AuditLog.openLog_of_some h, if_neg hseq]
  · simp only [openAttempt, h, if_neg hseq]

/-- Opening a log that needs no genesis entry, field by field. -/
theorem System.step_openLog_resumes {config : LogConfig} {io : OpenIo} {d : Dir} {log : AuditLog}
    (h : AuditLog.openLog E J config key s.dir io = (d, .ok log))
    (hnone : openAttempt E J key config s.dir io = none) :
    (s.step E J key (.openLog config io)).dir = d ∧
      (s.step E J key (.openLog config io)).log = some log ∧
      (s.step E J key (.openLog config io)).attempted = s.attempted ∧
      (s.step E J key (.openLog config io)).returned = s.returned ∧
      (s.step E J key (.openLog config io)).opened = true := by
  rw [System.step_openLog_ok h, hnone, Option.toList_none, List.append_nil, List.append_nil]
  exact ⟨rfl, rfl, rfl, rfl, rfl⟩

variable {log : AuditLog} (hlog : s.log = some log)

include hlog

theorem System.step_append_ok {event : AuditEvent} {io : AppendIo} {d : Dir} {log' : AuditLog}
    {e : AuditEntry} (h : log.append E J s.dir event io = (log', d, .ok e)) :
    s.step E J key (.append event io) = { s with
      dir := d, log := some log'
      attempted := s.attempted ++ (log.attempt E J event io).toList
      returned := s.returned ++ [e] } := by
  simp only [System.step, hlog, h]

/-- A successful append, field by field. -/
theorem System.step_append_returns {event : AuditEvent} {io : AppendIo} {d : Dir}
    {log' : AuditLog} {e : AuditEntry} (h : log.append E J s.dir event io = (log', d, .ok e)) :
    (s.step E J key (.append event io)).dir = d ∧
      (s.step E J key (.append event io)).returned = s.returned ++ [e] ∧
      (s.step E J key (.append event io)).opened = s.opened := by
  rw [System.step_append_ok hlog h]
  exact ⟨rfl, rfl, rfl⟩

theorem System.step_append_error {event : AuditEvent} {io : AppendIo} {d : Dir} {log' : AuditLog}
    {err : AuditError} (h : log.append E J s.dir event io = (log', d, .error err)) :
    s.step E J key (.append event io) = { s with
      dir := d, log := some log'
      attempted := s.attempted ++ (log.attempt E J event io).toList } := by
  simp only [System.step, hlog, h]

theorem System.step_crash (event : AuditEvent) (io : AppendIo) (written : ℕ) :
    s.step E J key (.crash event io written) = { s with
      dir := log.crash E J s.dir event io written, log := none
      attempted := s.attempted ++ (log.attempt E J event io).toList
      crashed := true, opened := false } := by
  simp only [System.step, hlog]

end Outcomes

/-! ### The condition on the environment -/

/-- An append is all or nothing under the outcomes `io`. -/
def AuditLog.AppendsHarmlessly (log : AuditLog) (event : AuditEvent) (io : AppendIo) : Prop :=
  ∀ s entry text, log.prepare E J event io = some (s, entry, text) →
    io.Harmless log.config s (lineBytes text)

/-- A crash after `written` bytes does not lose exactly the line feed. -/
def AuditLog.CrashesHarmlessly (log : AuditLog) (event : AuditEvent) (io : AppendIo)
    (written : ℕ) : Prop :=
  ∀ s entry text, log.prepare E J event io = some (s, entry, text) →
    written + 1 ≠ (lineBytes text).length

/-- The actions under which the directory stays a log: logs are opened for one deployment, every
append is all or nothing, and no crash loses exactly a line feed. -/
def Harmless (deploymentId : String) (s : System) : Action → Prop
  | .openLog config io => config.deploymentId = deploymentId ∧
      ∀ log d, AuditLog.claimAndResume J config key s.dir io = some (log, d) → log.sequence = 0 →
        log.AppendsHarmlessly E J (genesisEvent log.config.nodeId) io.genesis
  | .append event io | .crashAfter event io =>
    ∀ log, s.log = some log → log.AppendsHarmlessly E J event io
  | .drop _ => True
  | .crash event io written =>
    ∀ log, s.log = some log → log.CrashesHarmlessly E J event io written
  | .crashOpening config io written => config.deploymentId = deploymentId ∧
      ∀ log d, AuditLog.claimAndResume J config key s.dir io = some (log, d) → log.sequence = 0 →
        log.CrashesHarmlessly E J (genesisEvent log.config.nodeId) io.genesis written

end Step

/-! ### A log at the end of the chain -/

variable {E : Ed25519} {J : AuditJson} {key : SigningKey} {deploymentId : String}

/-- A log stands at the end of the entries `es` of a directory, with nothing in its buffer. -/
structure Attached (key : SigningKey) (deploymentId : String) (d : Dir) (es : List AuditEntry)
    (log : AuditLog) : Prop where
  deployment : log.config.deploymentId = deploymentId
  signingKey : log.signingKey = key
  locked : d.locked = true
  state : ∃ s, log.state = some s ∧ s.writer.buf = [] ∧ s.writer.file ∈ d.logFiles ∧
    s.lastHash = logTail deploymentId es ∧ s.sequence = es.length

namespace Attached

variable {d : Dir} {es : List AuditEntry} {log : AuditLog} {event : AuditEvent} {io : AppendIo}

theorem sequence_eq (h : Attached key deploymentId d es log) : log.sequence = es.length := by
  obtain ⟨s, hs, -, -, -, hseq⟩ := h.state
  rw [AuditLog.sequence, hs, Option.map_some, Option.getD_some, hseq]

/-- What an append on an attached log seals continues the run. -/
theorem prepare_spec (h : Attached key deploymentId d es log)
    (run : AppendRun E J key deploymentId es) {s : LogState} {entry : AuditEntry} {text : String}
    (hprep : log.prepare E J event io = some (s, entry, text)) :
    s.writer.buf = [] ∧ s.writer.file ∈ d.logFiles ∧
      AppendRun E J key deploymentId (es ++ [entry]) ∧ lineBytes text = J.line entry ∧
      entry.sequence = es.length + 1 ∧ ∀ a ∈ es, a.sequence < entry.sequence := by
  obtain ⟨hs, hseal, htext⟩ := AuditLog.prepare_eq_some hprep
  obtain ⟨s', hs', hbuf, hfile, hlast, hseq⟩ := h.state
  obtain rfl : s = s' := Option.some.inj (hs.symm.trans hs')
  rw [h.signingKey, hlast, hseq] at hseal
  have hrun : AppendRun E J key deploymentId (es ++ [entry]) := run.snoc hseal
  have hentry : entry.sequence = es.length + 1 := (sealEntry_eq_ok hseal).choose_spec.2.2.2.2
  refine ⟨hbuf, hfile, hrun, lineBytes_eq_line htext, hentry, fun a ha ↦ ?_⟩
  exact (List.pairwise_append.1 hrun.sealedChain.pairwise_sequence).2.2 a ha entry (by simp)

/-- An append on an attached log whose event and entry serialize gets as far as writing. -/
theorem prepare_of_serializes (io : AppendIo) (h : Attached key deploymentId d es log)
    {bytes : Bytes} {text : String} (hevent : J.eventToVec event = .ok bytes)
    (htext : J.entryToString (sealWith E key (logTail deploymentId es) es.length event bytes io.now
      io.logId) = .ok text) :
    ∃ s, log.state = some s ∧ log.prepare E J event io = some (s, sealWith E key
      (logTail deploymentId es) es.length event bytes io.now io.logId, text) := by
  obtain ⟨s, hs, -, -, hlast, hseq⟩ := h.state
  refine ⟨s, hs, ?_⟩
  simp only [AuditLog.prepare, hs, sealEntry, hevent, h.signingKey, hlast, hseq, htext]

/-- **One append that completes** adds its entry and leaves the log at the new end. -/
theorem append_of_completes (h : Attached key deploymentId d es log) (hholds : Holds J d es)
    (run : AppendRun E J key deploymentId es) {s : LogState} {entry : AuditEntry} {text : String}
    (hprep : log.prepare E J event io = some (s, entry, text))
    (hio : io.Completes log.config s (lineBytes text)) :
    ∃ log' d', log.append E J d event io = (log', d', .ok entry) ∧
      AppendRun E J key deploymentId (es ++ [entry]) ∧ Holds J d' (es ++ [entry]) ∧
      Attached key deploymentId d' (es ++ [entry]) log' := by
  obtain ⟨hbuf, hfile, hrun, hline, hseq, hnew⟩ := h.prepare_spec run hprep
  obtain ⟨s', d', happ, hres⟩ := AuditLog.append_of_completes hprep hbuf hio d
  have hline' : Holds J (d.append s.writer.file (lineBytes text)) (es ++ [entry]) := by
    rw [hline]
    exact hholds.append_line hfile hnew
  have hstate : s'.lastHash = logTail deploymentId (es ++ [entry]) ∧
      s'.sequence = (es ++ [entry]).length := by
    rw [hres.lastHash, hres.sequence, logTail_append_singleton, hseq]
    simp
  refine ⟨_, d', happ, hrun, ?_⟩
  -- the segment was not full, or the append has rotated to a new one
  rcases hres.dir with ⟨rfl, hsame⟩ | ⟨name, hname, rfl, hmoved⟩
  · exact ⟨hline', h.deployment, h.signingKey, h.locked, s', rfl, hres.buf,
      by rw [hsame]; exact hfile, hstate.1, hstate.2⟩
  · refine ⟨hline'.create hname, h.deployment, h.signingKey, ?_, s', rfl, hres.buf, ?_, hstate.1,
      hstate.2⟩
    · rw [Dir.create_locked]
      exact h.locked
    · rw [hmoved]
      exact Dir.mem_logFiles.2 ⟨Dir.mem_names_create _ _, hname⟩

/-- **One harmless append**: an error and nothing changed, or one more entry and the log at the new
end. -/
theorem append (h : Attached key deploymentId d es log) (hholds : Holds J d es)
    (run : AppendRun E J key deploymentId es) (hharm : log.AppendsHarmlessly E J event io) :
    (∃ err, log.append E J d event io = (log, d, .error err)) ∨
      ∃ log' d' e, log.append E J d event io = (log', d', .ok e) ∧
        log.attempt E J event io = some e ∧ AppendRun E J key deploymentId (es ++ [e]) ∧
        Holds J d' (es ++ [e]) ∧ Attached key deploymentId d' (es ++ [e]) log' := by
  cases hprep : log.prepare E J event io with
  | none => exact Or.inl (AuditLog.append_of_prepare_none hprep d)
  | some p =>
    obtain ⟨s, entry, text⟩ := p
    rcases hharm s entry text hprep with hio | hio
    · obtain ⟨log', d', happ, hrest⟩ := h.append_of_completes hholds run hprep hio
      exact Or.inr ⟨log', d', entry, happ, by rw [AuditLog.attempt, hprep]; rfl, hrest⟩
    · exact Or.inl (AuditLog.append_of_failsCleanly hprep (h.prepare_spec run hprep).1 hio d)

/-- Dropping an attached log writes nothing. -/
theorem drop (h : Attached key deploymentId d es log) (o : WriteOutcome) :
    log.drop d o = { d with locked := false } := by
  obtain ⟨s, hs, hbuf, -⟩ := h.state
  rw [AuditLog.drop, hs]
  simp only [BufWriter.flush_of_nil hbuf]

end Attached

/-- **A log that resumes stands at the end of what the directory holds.** -/
theorem attached_of_claimAndResume {d d1 : Dir} {es : List AuditEntry} {log : AuditLog}
    {config : LogConfig} {io : OpenIo} (hholds : Holds J d es) (hfaith : ∀ e ∈ es, J.Faithful e)
    (hchain : SealedChain J (computeGenesisHash deploymentId) 0 es)
    (hdep : config.deploymentId = deploymentId)
    (h : AuditLog.claimAndResume J config key d io = some (log, d1)) :
    Holds J d1 es ∧ Attached key deploymentId d1 es log := by
  obtain ⟨-, hconfig, hkey, d0, existing, s, hsame, hlocked, hfind, hs, hwriter, hlast, hseq, rfl,
    -⟩ := AuditLog.claimAndResume_eq_some h
  have hholds0 := hholds.of_sameSegments hsame
  have hbuf : s.writer.buf = [] := by rw [hwriter]
  -- an empty directory gets its first segment; otherwise the newest one is continued
  rcases hholds0.findExistingLogFile hfaith hchain hfind with ⟨rfl, rfl⟩ | ⟨f, hf, -, rfl⟩
  · have hfile : isSegment s.writer.file = true := by
      rw [hwriter]
      exact isSegment_newLogFileName _ _ _
    refine ⟨hholds0.create hfile, by rw [hconfig, hdep], hkey, by rw [Dir.create_locked, hlocked],
      s, hs, hbuf, Dir.mem_logFiles.2 ⟨Dir.mem_names_create _ _, hfile⟩, ?_, hseq⟩
    rw [hlast, Option.getD_none, hdep, logTail_nil]
  · have hfile : s.writer.file = f := by rw [hwriter, Option.getD_some]
    have hcreate : d0.create s.writer.file = d0 := by
      rw [hfile, Dir.create_of_mem (Dir.mem_logFiles.1 hf).1]
    rw [hcreate]
    exact ⟨hholds0, by rw [hconfig, hdep], hkey, hlocked, s, hs, hbuf, by rwa [hfile], hlast, hseq⟩

/-! ### Torn directories -/

/-- Some segment ends in a line that is cut short inside its text. -/
def TornIn (J : AuditJson) (attempted : List AuditEntry) (d : Dir) : Prop :=
  ∃ f ∈ d.logFiles, ∃ pre, ∃ e ∈ attempted, ∃ k, Text.EndsWith Utf8.newline pre ∧ 0 < k ∧
    k < (Utf8.encode (J.text e)).length ∧ d.content f = pre ++ (Utf8.encode (J.text e)).take k

theorem TornIn.of_sameSegments {attempted : List AuditEntry} {d d' : Dir}
    (h : TornIn J attempted d) (hs : SameSegments d d') : TornIn J attempted d' := by
  obtain ⟨f, hf, pre, e, he, k, hpre, hk, hlt, hcontent⟩ := h
  exact ⟨f, by rwa [hs.1], pre, e, he, k, hpre, hk, hlt, by rw [hs.2 f hf, hcontent]⟩

theorem TornIn.mono {attempted more : List AuditEntry} {d : Dir} (h : TornIn J attempted d) :
    TornIn J (attempted ++ more) d := by
  obtain ⟨f, hf, pre, e, he, rest⟩ := h
  exact ⟨f, hf, pre, e, List.mem_append_left _ he, rest⟩

/-- The scan for the newest segment stops at a segment it cannot read. -/
theorem newestOf_error (config : LogConfig) {d : Dir} (readFile : String → Option String)
    {fs : List String} {f : String} (hf : f ∈ fs)
    (herr : ∃ err, readLastEntry J (config.path f) (d.content f) = .error err)
    (newest : Option (String × String × ℕ)) :
    ∃ err, newestOf J config d readFile newest fs = .error err := by
  induction fs generalizing newest with
  | nil => cases hf
  | cons g fs ih =>
    rw [newestOf]
    cases hread : readFile g with
    | some e => exact ⟨_, rfl⟩
    | none =>
      dsimp only
      rcases List.mem_cons.1 hf with rfl | hf
      · obtain ⟨err, herr⟩ := herr
        rw [herr]
        exact ⟨err, rfl⟩
      · cases readLastEntry J (config.path g) (d.content g) with
        | error e => exact ⟨e, rfl⟩
        | ok last =>
          cases last with
          | none => exact ih hf newest
          | some entry => exact ih hf _

/-- **Nothing opens a torn directory.** -/
theorem TornIn.claimAndResume_eq_none {attempted : List AuditEntry} {d : Dir}
    (h : TornIn J attempted d) (hfaith : ∀ e ∈ attempted, J.Faithful e) (key : SigningKey)
    (config : LogConfig) (io : OpenIo) : AuditLog.claimAndResume J config key d io = none := by
  cases hclaim : AuditLog.claimAndResume J config key d io with
  | none => rfl
  | some p =>
    exfalso
    obtain ⟨log, d1⟩ := p
    obtain ⟨-, -, -, d0, existing, s, hsame, -, hfind, -⟩ := AuditLog.claimAndResume_eq_some hclaim
    obtain ⟨f, hf, pre, e, he, k, hpre, hk, hlt, hcontent⟩ := h.of_sameSegments hsame
    rw [findExistingLogFile] at hfind
    cases hdir : io.readDir with
    | some err => simp [hdir] at hfind
    | none =>
      simp only [hdir] at hfind
      obtain ⟨err, herr⟩ := newestOf_error (J := J) config io.readFile hf
        (by rw [hcontent]; exact readLastEntry_torn _ hpre (hfaith e he) hk hlt) none
      rw [herr] at hfind
      cases hfind

/-- A crash in an append leaves a beginning of its line. -/
theorem AuditLog.crash_of_prepare {log : AuditLog} {event : AuditEvent} {io : AppendIo}
    {s : LogState} {entry : AuditEntry} {text : String}
    (hprep : log.prepare E J event io = some (s, entry, text)) (hbuf : s.writer.buf = []) (d : Dir)
    (written : ℕ) : log.crash E J d event io written =
      { d.append s.writer.file ((lineBytes text).take written) with locked := false } := by
  rw [AuditLog.crash, hprep]
  simp only [hbuf, List.nil_append]

/-- **What a crash in an append leaves**, unless it loses exactly the line feed: nothing of the
line, all of it, or a torn segment. -/
theorem Attached.crash (attempted : List AuditEntry) {d : Dir} {es : List AuditEntry}
    {log : AuditLog} {event : AuditEvent} {io : AppendIo} {written : ℕ}
    (h : Attached key deploymentId d es log)
    (hholds : Holds J d es) (run : AppendRun E J key deploymentId es)
    (hharm : log.CrashesHarmlessly E J event io written)
    (hfaith : ∀ e ∈ log.attempt E J event io, J.Faithful e) :
    Holds J (log.crash E J d event io written) es ∨
      (∃ e ∈ log.attempt E J event io, AppendRun E J key deploymentId (es ++ [e]) ∧
        Holds J (log.crash E J d event io written) (es ++ [e])) ∨
      TornIn J (attempted ++ (log.attempt E J event io).toList)
        (log.crash E J d event io written) := by
  cases hprep : log.prepare E J event io with
  | none =>
    left
    rw [AuditLog.crash, hprep]
    exact hholds.of_sameSegments (SameSegments.setLocked false)
  | some p =>
    obtain ⟨s, entry, text⟩ := p
    obtain ⟨hbuf, hfile, hrun, hline, hseq, hnew⟩ := h.prepare_spec run hprep
    have hattempt : log.attempt E J event io = some entry := by rw [AuditLog.attempt, hprep]; rfl
    have hf := hfaith entry (by rw [hattempt]; rfl)
    have hcrash : log.crash E J d event io written =
        { d.append s.writer.file ((J.line entry).take written) with locked := false } := by
      rw [AuditLog.crash_of_prepare hprep hbuf, hline]
    have hne : written + 1 ≠ (J.line entry).length := by
      rw [← hline]
      exact hharm s entry text hprep
    have hlen : (J.line entry).length = (Utf8.encode (J.text entry)).length + 1 := by
      simp [AuditJson.line]
    rw [hcrash]
    rcases Nat.eq_zero_or_pos written with rfl | hpos
    · left
      rw [List.take_zero, Dir.append_nil]
      exact hholds.of_sameSegments (SameSegments.setLocked false)
    rcases Nat.lt_or_ge written (J.line entry).length with hlt | hge
    · -- cut inside the text: the segment before it ends at a line boundary
      right; right
      obtain ⟨seg, hlayout, -⟩ := hholds
      refine ⟨s.writer.file, hfile, segmentBytes J (seg s.writer.file), entry, ?_, written,
        endsWith_segmentBytes _, hpos, by omega, ?_⟩
      · rw [hattempt]
        simp
      · show (d.append s.writer.file ((J.line entry).take written)).content s.writer.file = _
        rw [Dir.content_append_self, hlayout.content _ hfile, AuditJson.line,
          List.take_append_of_le_length (by omega)]
    · right; left
      refine ⟨entry, by rw [hattempt]; rfl, hrun, ?_⟩
      rw [List.take_of_length_le hge]
      exact (hholds.append_line hfile hnew).of_sameSegments (SameSegments.setLocked false)

/-! ### The invariant -/

/-- The directory holds one unforked run of appends, with everything that was returned in it. -/
structure Good (E : Ed25519) (J : AuditJson) (key : SigningKey) (deploymentId : String) (s : System)
    (es : List AuditEntry) : Prop where
  run : AppendRun E J key deploymentId es
  holds : Holds J s.dir es
  attempted : ∀ e ∈ es, e ∈ s.attempted
  attached : ∀ log, s.log = some log → es ≠ [] ∧ Attached key deploymentId s.dir es log
  unlocked : s.log = none → s.dir.locked = false
  returned : s.returned.Sublist es
  complete : s.crashed = false → s.returned = es

/-- The directory is torn, and nothing has opened it since. -/
structure Torn (J : AuditJson) (s : System) : Prop where
  log : s.log = none
  opened : s.opened = false
  crashed : s.crashed = true
  torn : TornIn J s.attempted s.dir

/-- The invariant of every run: as long as the serializer does what it should on what was written.
-/
def Inv (E : Ed25519) (J : AuditJson) (key : SigningKey) (deploymentId : String) (s : System) :
    Prop :=
  (∀ e ∈ s.attempted, J.Faithful e) → (∃ es, Good E J key deploymentId s es) ∨ Torn J s

theorem good_init : Good E J key deploymentId System.init [] where
  run := .nil
  holds := Holds.empty
  attempted := by simp
  attached := by simp [System.init]
  unlocked := fun _ ↦ rfl
  returned := List.Sublist.refl _
  complete := fun _ ↦ rfl

/-- What was attempted stays attempted. -/
theorem attempted_subset_step (s : System) (a : Action) {e : AuditEntry} (h : e ∈ s.attempted) :
    e ∈ (s.step E J key a).attempted := by
  cases a <;> simp only [System.step] <;> split <;> try split
  all_goals first
    | exact h
    | exact List.mem_append_left _ h

/-- What was returned stays returned. -/
theorem returned_prefix_step (s : System) (a : Action) :
    s.returned <+: (s.step E J key a).returned := by
  cases a <;> simp only [System.step] <;> split <;> try split
  all_goals first
    | exact List.prefix_rfl
    | exact List.prefix_append _ _

namespace Good

variable {s : System} {es : List AuditEntry}

theorem faithful (h : Good E J key deploymentId s es) (hf : ∀ e ∈ s.attempted, J.Faithful e) :
    ∀ e ∈ es, J.Faithful e := fun e he ↦
  hf e (h.attempted e he)

/-- A live log holds the lock. -/
theorem log_eq_none (h : Good E J key deploymentId s es) (hl : s.dir.locked = false) :
    s.log = none := by
  cases hlog : s.log with
  | none => rfl
  | some log =>
    have := (h.attached log hlog).2.locked
    rw [hl] at this
    cases this

/-- An action that touches no segment and loses no log keeps everything. -/
theorem of_sameSegments (h : Good E J key deploymentId s es) {d : Dir} (more : List AuditEntry)
    (hs : SameSegments s.dir d) (hl : d.locked = s.dir.locked) :
    Good E J key deploymentId { s with dir := d, attempted := s.attempted ++ more } es where
  run := h.run
  holds := h.holds.of_sameSegments hs
  attempted := fun e he ↦ List.mem_append_left _ (h.attempted e he)
  attached := fun log hlog ↦ by
    obtain ⟨hne, hatt⟩ := h.attached log hlog
    obtain ⟨t, ht, hbuf, hfile, hlast, hseq⟩ := hatt.state
    exact ⟨hne, hatt.deployment, hatt.signingKey, hl.trans hatt.locked, t, ht, hbuf,
      by rw [hs.1]; exact hfile, hlast, hseq⟩
  unlocked := fun hlog ↦ hl.trans (h.unlocked hlog)
  returned := h.returned
  complete := h.complete

/-- An entry that is returned stands at the end of the run, and the log stands behind it. -/
theorem appended (h : Good E J key deploymentId s es) {d : Dir} {log : AuditLog} {e : AuditEntry}
    (hrun : AppendRun E J key deploymentId (es ++ [e])) (hholds : Holds J d (es ++ [e]))
    (hatt : Attached key deploymentId d (es ++ [e]) log) (opened : Bool) :
    Good E J key deploymentId
      { s with
        dir := d, log := some log, attempted := s.attempted ++ [e]
        returned := s.returned ++ [e], opened } (es ++ [e]) where
  run := hrun
  holds := hholds
  attempted := fun a ha ↦ by
    rcases List.mem_append.1 ha with ha | ha
    · exact List.mem_append_left _ (h.attempted a ha)
    · exact List.mem_append_right _ ha
  attached := fun l hl ↦ by
    cases hl
    exact ⟨by simp, hatt⟩
  unlocked := fun hl ↦ by cases hl
  returned := h.returned.append (List.Sublist.refl _)
  complete := fun hc ↦ by rw [h.complete hc]

/-- **Opening a log**, harmlessly. -/
theorem step_openLog (h : Good E J key deploymentId s es)
    (hfaith : ∀ e ∈ s.attempted, J.Faithful e) {config : LogConfig} {io : OpenIo}
    (hok : Harmless E J key deploymentId s (.openLog config io)) :
    ∃ es', Good E J key deploymentId (s.step E J key (.openLog config io)) es' := by
  obtain ⟨hdep, hharm⟩ := hok
  cases hclaim : AuditLog.claimAndResume J config key s.dir io with
  | none =>
    obtain ⟨d', err, hopen, hsame, hlocked⟩ := AuditLog.openLog_of_none (E := E) hclaim
    refine ⟨es, ?_⟩
    simp only [System.step, hopen]
    exact h.of_sameSegments _ hsame hlocked
  | some p =>
    obtain ⟨log, d1⟩ := p
    have hlog : s.log = none := h.log_eq_none (AuditLog.claimAndResume_eq_some hclaim).1
    obtain ⟨hholds, hatt⟩ := attached_of_claimAndResume h.holds (h.faithful hfaith)
      h.run.sealedChain hdep hclaim
    have hopen := AuditLog.openLog_of_some (E := E) hclaim
    by_cases hzero : log.sequence = 0
    · -- a new log: the genesis entry is appended
      rw [if_pos hzero] at hopen
      have hattempt : openAttempt E J key config s.dir io =
          log.attempt E J (genesisEvent log.config.nodeId) io.genesis := by
        simp only [openAttempt, hclaim, if_pos hzero]
      rcases hatt.append hholds h.run (hharm log d1 hclaim hzero) with
        ⟨err, happ⟩ | ⟨log', d', e, happ, he, hrun, hholds', hatt'⟩
      · rw [AuditLog.writeGenesis, happ] at hopen
        refine ⟨es, ?_⟩
        simp only [System.step, hopen, hatt.drop]
        exact {
          run := h.run
          holds := hholds.of_sameSegments (SameSegments.setLocked false)
          attempted := fun e he ↦ List.mem_append_left _ (h.attempted e he)
          attached := fun log hl ↦ by rw [hlog] at hl; cases hl
          unlocked := fun _ ↦ rfl
          returned := h.returned
          complete := h.complete }
      · rw [AuditLog.writeGenesis, happ] at hopen
        refine ⟨es ++ [e], ?_⟩
        rw [System.step_openLog_ok hopen, hattempt, he, Option.toList_some]
        exact h.appended hrun hholds' hatt' true
    · -- an old log: it stands at the end of the chain already
      obtain ⟨hopen, hattempt⟩ := openLog_of_resumed (E := E) hclaim hzero
      have hne : es ≠ [] := by
        rintro rfl
        exact hzero hatt.sequence_eq
      refine ⟨es, ?_⟩
      rw [System.step_openLog_ok hopen, hattempt, Option.toList_none, List.append_nil,
        List.append_nil]
      exact {
        run := h.run
        holds := hholds
        attempted := h.attempted
        attached := fun l hl ↦ by
          cases hl
          exact ⟨hne, hatt⟩
        unlocked := fun hl ↦ by cases hl
        returned := h.returned
        complete := h.complete }

/-- **Appending**, harmlessly. -/
theorem step_append (h : Good E J key deploymentId s es) {event : AuditEvent} {io : AppendIo}
    (hok : Harmless E J key deploymentId s (.append event io)) :
    ∃ es', Good E J key deploymentId (s.step E J key (.append event io)) es' := by
  cases hlog : s.log with
  | none => exact ⟨es, by simpa only [System.step, hlog] using h⟩
  | some log =>
    obtain ⟨hne, hatt⟩ := h.attached log hlog
    rcases hatt.append h.holds h.run (hok log hlog) with
      ⟨err, happ⟩ | ⟨log', d', e, happ, he, hrun, hholds', hatt'⟩
    · refine ⟨es, ?_⟩
      rw [System.step_append_error hlog happ]
      have := h.of_sameSegments (log.attempt E J event io).toList
        (SameSegments.refl s.dir) rfl
      simpa only [hlog] using this
    · refine ⟨es ++ [e], ?_⟩
      rw [System.step_append_ok hlog happ, he, Option.toList_some]
      exact h.appended hrun hholds' hatt' s.opened

/-- Dropping the log releases the directory and writes nothing. -/
theorem step_drop (h : Good E J key deploymentId s es) (o : WriteOutcome) :
    Good E J key deploymentId (s.step E J key (.drop o)) es := by
  cases hlog : s.log with
  | none => simpa only [System.step, hlog] using h
  | some log =>
    simp only [System.step, hlog, (h.attached log hlog).2.drop]
    exact {
      run := h.run
      holds := h.holds.of_sameSegments (SameSegments.setLocked false)
      attempted := h.attempted
      attached := fun l hl ↦ by cases hl
      unlocked := fun _ ↦ rfl
      returned := h.returned
      complete := h.complete }

/-- The state after a crash that left the directory `d` behind, holding `es` and perhaps the entry
that was being written. -/
theorem after_crash (h : Good E J key deploymentId s es) {d : Dir} {es' more : List AuditEntry}
    (hrun : AppendRun E J key deploymentId es') (hholds : Holds J d es') (hd : d.locked = false)
    (hes : es <+: es') (hmore : ∀ e ∈ es', e ∈ es ∨ e ∈ more) :
    Good E J key deploymentId
      { s with
        dir := d, log := none, attempted := s.attempted ++ more, crashed := true,
        opened := false } es' where
  run := hrun
  holds := hholds
  attempted := fun e he ↦ by
    rcases hmore e he with he | he
    · exact List.mem_append_left _ (h.attempted e he)
    · exact List.mem_append_right _ he
  attached := fun l hl ↦ by cases hl
  unlocked := fun _ ↦ hd
  returned := h.returned.trans hes.sublist
  complete := fun hc ↦ by cases hc

/-- **A crash in an append to `d`**, whose log is attached there. -/
theorem crash (h : Good E J key deploymentId s es) {d : Dir} {log : AuditLog} {event : AuditEvent}
    {io : AppendIo} {written : ℕ} (hatt : Attached key deploymentId d es log)
    (hholds : Holds J d es)
    (hharm : log.CrashesHarmlessly E J event io written)
    (hfaith : ∀ e ∈ log.attempt E J event io, J.Faithful e) {s' : System}
    (hs' : s' = { s with
      dir := log.crash E J d event io written, log := none
      attempted := s.attempted ++ (log.attempt E J event io).toList
      crashed := true, opened := false }) :
    (∃ es', Good E J key deploymentId s' es') ∨ Torn J s' := by
  subst hs'
  have hunlocked : (log.crash E J d event io written).locked = false := by
    unfold AuditLog.crash
    split <;> rfl
  rcases hatt.crash s.attempted hholds h.run hharm hfaith with
    hold | ⟨e, he, hrun, hnew⟩ | htorn
  · exact Or.inl ⟨es, h.after_crash h.run hold hunlocked List.prefix_rfl fun e he ↦ Or.inl he⟩
  · refine Or.inl ⟨es ++ [e], h.after_crash hrun hnew hunlocked (List.prefix_append _ _) ?_⟩
    intro a ha
    rcases List.mem_append.1 ha with ha | ha
    · exact Or.inl ha
    · rw [List.mem_singleton.1 ha]
      exact Or.inr (Option.mem_toList.2 he)
  · exact Or.inr ⟨rfl, rfl, rfl, htorn⟩

/-- **A crash in an append.** -/
theorem step_crash (h : Good E J key deploymentId s es) {event : AuditEvent} {io : AppendIo}
    {written : ℕ} (hok : Harmless E J key deploymentId s (.crash event io written))
    (hfaith : ∀ e ∈ (s.step E J key (.crash event io written)).attempted, J.Faithful e) :
    (∃ es', Good E J key deploymentId (s.step E J key (.crash event io written)) es') ∨
      Torn J (s.step E J key (.crash event io written)) := by
  cases hlog : s.log with
  | none => exact Or.inl ⟨es, by simpa only [System.step, hlog] using h⟩
  | some log =>
    have hstep : s.step E J key (.crash event io written) = _ :=
      System.step_crash hlog event io written
    refine h.crash (h.attached log hlog).2 h.holds (hok log hlog) ?_ hstep
    intro e he
    refine hfaith e ?_
    rw [hstep]
    exact List.mem_append_right _ (Option.mem_toList.2 he)

/-- **A crash after an append**, whose entry nobody was told of. -/
theorem step_crashAfter (h : Good E J key deploymentId s es) {event : AuditEvent} {io : AppendIo}
    (hok : Harmless E J key deploymentId s (.crashAfter event io)) :
    ∃ es', Good E J key deploymentId (s.step E J key (.crashAfter event io)) es' := by
  cases hlog : s.log with
  | none => exact ⟨es, by simpa only [System.step, hlog] using h⟩
  | some log =>
    rcases (h.attached log hlog).2.append h.holds h.run (hok log hlog) with
      ⟨err, happ⟩ | ⟨log', d', e, happ, he, hrun, hholds', -⟩
    · refine ⟨es, ?_⟩
      simp only [System.step, hlog, happ]
      exact h.after_crash h.run (h.holds.of_sameSegments (SameSegments.setLocked false)) rfl
        List.prefix_rfl fun e he ↦ Or.inl he
    · refine ⟨es ++ [e], ?_⟩
      simp only [System.step, hlog, happ, he]
      exact h.after_crash hrun (hholds'.of_sameSegments (SameSegments.setLocked false)) rfl
        (List.prefix_append _ _) fun a ha ↦ List.mem_append.1 ha

/-- **A crash while a log is opened**, in its genesis entry if it has one to write. -/
theorem step_crashOpening (h : Good E J key deploymentId s es)
    (hfaith : ∀ e ∈ s.attempted, J.Faithful e) {config : LogConfig} {io : OpenIo} {written : ℕ}
    (hok : Harmless E J key deploymentId s (.crashOpening config io written))
    (hfaith' : ∀ e ∈ (s.step E J key (.crashOpening config io written)).attempted,
      J.Faithful e) :
    (∃ es', Good E J key deploymentId (s.step E J key (.crashOpening config io written)) es') ∨
      Torn J (s.step E J key (.crashOpening config io written)) := by
  obtain ⟨hdep, hharm⟩ := hok
  cases hclaim : AuditLog.claimAndResume J config key s.dir io with
  | none => exact Or.inl ⟨es, by simpa only [System.step, hclaim] using h⟩
  | some p =>
    obtain ⟨log, d1⟩ := p
    obtain ⟨hholds, hatt⟩ := attached_of_claimAndResume h.holds (h.faithful hfaith)
      h.run.sealedChain hdep hclaim
    by_cases hzero : log.sequence = 0
    · have hstep : s.step E J key (.crashOpening config io written) = { s with
          dir := log.crash E J d1 (genesisEvent log.config.nodeId) io.genesis written, log := none
          attempted := s.attempted ++
            (log.attempt E J (genesisEvent log.config.nodeId) io.genesis).toList
          crashed := true, opened := false } := by
        simp only [System.step, openAttempt, hclaim, if_pos hzero]
      refine h.crash hatt hholds (hharm log d1 hclaim hzero) ?_ hstep
      intro e he
      refine hfaith' e ?_
      rw [hstep]
      exact List.mem_append_right _ (Option.mem_toList.2 he)
    · left
      refine ⟨es, ?_⟩
      simp only [System.step, hclaim, if_neg hzero]
      exact h.after_crash h.run (hholds.of_sameSegments (SameSegments.setLocked false))
        rfl List.prefix_rfl fun e he ↦ Or.inl he

end Good

/-- A torn directory stays torn: no log opens on it, so nothing is written to it. -/
theorem Torn.step {s : System} (h : Torn J s) (hfaith : ∀ e ∈ s.attempted, J.Faithful e)
    (a : Action) : Torn J (s.step E J key a) := by
  have hclaim := fun config io ↦
    h.torn.claimAndResume_eq_none hfaith key config io
  cases a with
  | openLog config io =>
    obtain ⟨d', err, hopen, hsame, -⟩ := AuditLog.openLog_of_none (E := E) (hclaim config io)
    simp only [System.step, hopen]
    exact ⟨h.log, h.opened, h.crashed, (h.torn.of_sameSegments hsame).mono⟩
  | append event io => simpa only [System.step, h.log] using h
  | drop flush => simpa only [System.step, h.log] using h
  | crash event io written => simpa only [System.step, h.log] using h
  | crashAfter event io => simpa only [System.step, h.log] using h
  | crashOpening config io written => simpa only [System.step, hclaim config io] using h

/-- **One harmless action keeps the invariant.** -/
theorem inv_step {s : System} (h : Inv E J key deploymentId s) {a : Action}
    (hok : Harmless E J key deploymentId s a) : Inv E J key deploymentId (s.step E J key a) := by
  intro hfaith'
  have hfaith : ∀ e ∈ s.attempted, J.Faithful e := fun e he ↦
    hfaith' e (attempted_subset_step s a he)
  rcases h hfaith with ⟨es, hgood⟩ | htorn
  swap
  · exact Or.inr (htorn.step hfaith a)
  cases a with
  | openLog config io => exact Or.inl (hgood.step_openLog hfaith hok)
  | append event io => exact Or.inl (hgood.step_append hok)
  | drop flush => exact Or.inl ⟨es, hgood.step_drop flush⟩
  | crash event io written => exact hgood.step_crash hok hfaith'
  | crashAfter event io => exact Or.inl (hgood.step_crashAfter hok)
  | crashOpening config io written => exact hgood.step_crashOpening hfaith hok hfaith'

/-- **Every harmless run keeps the invariant.** -/
theorem reachable_inv {s : System}
    (h : Transition.Reachable (System.step E J key) (Harmless E J key deploymentId) System.init s) :
    Inv E J key deploymentId s :=
  h.invariant _ (fun _ ↦ Or.inl ⟨[], good_init⟩) fun _ _ _ hok hinv ↦ inv_step hinv hok

end Cordon
