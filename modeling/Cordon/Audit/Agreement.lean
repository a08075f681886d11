import Cordon.Audit.Runs
import Cordon.Audit.LifecycleJson

/-!
# Writer and verifier agree over whole runs

Three results about every run of one audit directory, for three environments.

* **No errors** (`writer_and_verifier_agree`): every system call succeeds, every opening succeeds,
  and appends sync. At every point the verifier accepts the directory, finds exactly the entries
  that appends returned, and ends where the live log stands.
* **Failing appends** (`failed_appends_leave_no_entry`): system calls may fail, as long as each
  append completes or fails before any byte of its line is under way. The proof is the same, because
  such an append changes nothing. Without that proviso the statement is false
  (`failed_fsync_breaks_the_chain`): `append` returns as soon as a call fails, and by then the line
  may be in the file while the chain state has not moved, so the next append repeats a sequence.
* **Crashes** (`crash_recovery`): the process may also die at any byte of a line except right before
  its line feed. There the resuming writer accepts the record as complete and appends to the same
  line (`lost_line_feed_breaks_the_log`).
-/

namespace Cordon

variable {E : Ed25519} {J : AuditJson} {key : SigningKey} {deploymentId : String}

/-! ### What the verifier says of a good state -/

/-- The verifier accepts the directory, and finds the entries `es` in it. -/
def Verifies (E : Ed25519) (J : AuditJson) (key : SigningKey) (deploymentId : String) (d : Dir)
    (es : List AuditEntry) : Prop :=
  loadEntries J (.directory d) = .ok es ∧
    ∃ r, verifyLogChain E J (key.verifyingKey E) (.directory d) deploymentId = .ok r ∧
      r.valid = true ∧ r.entriesVerified = es.length ∧
      r.logTailHash = es.getLast?.map AuditEntry.entryHash

theorem Good.verifies {s : System} {es : List AuditEntry} (h : Good E J key deploymentId s es)
    (hkey : E.SignsFor key) (hfaith : ∀ e ∈ s.attempted, J.Faithful e) :
    Verifies E J key deploymentId s.dir es := by
  have hrt : ∀ e ∈ es, J.RoundTrips e := fun e he ↦ (h.faithful hfaith e he).roundTrips
  exact ⟨h.holds.loadEntries hrt h.run.sealedChain, _,
    h.holds.verifyLogChain hrt hkey h.run, rfl, rfl, rfl⟩

/-! ### Runs without a crash -/

/-- The process does not die. -/
def Action.Survives : Action → Prop
  | .crash _ _ _ | .crashAfter _ _ | .crashOpening _ _ _ => False
  | _ => True

/-- No run of surviving actions records a crash. -/
theorem crashed_eq_false {ok : System → Action → Prop} (hok : ∀ s a, ok s a → a.Survives)
    {s : System} (h : Transition.Reachable (System.step E J key) ok System.init s) :
    s.crashed = false := by
  refine h.invariant (fun s ↦ s.crashed = false) rfl fun s a _ ha hs ↦ ?_
  have hsurv := hok s a ha
  cases a with
  | openLog config io =>
    simp only [System.step]
    split <;> exact hs
  | append event io =>
    simp only [System.step]
    split
    · exact hs
    · split <;> exact hs
  | drop flush =>
    simp only [System.step]
    split <;> exact hs
  | crash event io written => exact hsurv.elim
  | crashAfter event io => exact hsurv.elim
  | crashOpening config io written => exact hsurv.elim

/-- **In a harmless run without a crash, the directory holds exactly what was returned.** -/
theorem good_returned {s : System}
    (h : Transition.Reachable (System.step E J key)
      (fun s a ↦ Harmless E J key deploymentId s a ∧ a.Survives) System.init s)
    (hfaith : ∀ e ∈ s.attempted, J.Faithful e) : Good E J key deploymentId s s.returned := by
  have hcrash := crashed_eq_false (fun _ _ ha ↦ ha.2) h
  rcases reachable_inv (h.mono fun _ _ _ ha ↦ ha.1) hfaith with ⟨es, hgood⟩ | htorn
  · rw [hgood.complete hcrash]
    exact hgood
  · rw [htorn.crashed] at hcrash
    cases hcrash

/-! ### Runs without errors -/

variable (E J key deploymentId) in
/-- No input or output error, every opening succeeds, and appends sync. The size limit and the node
may change from one opening to the next. -/
def ErrorFree (s : System) : Action → Prop
  | .openLog config io => config.deploymentId = deploymentId ∧ config.fsyncOnWrite = true ∧
      io.Clean ∧ ∃ log, (AuditLog.openLog E J config key s.dir io).2 = .ok log
  | .append _ io => io.Clean
  | .drop flush => flush = .done
  | .crash _ _ _ | .crashAfter _ _ | .crashOpening _ _ _ => False

/-- A log that opens has the configuration it was opened with. -/
theorem openLog_config {config : LogConfig} {d d' : Dir} {io : OpenIo} {log : AuditLog}
    (h : AuditLog.openLog E J config key d io = (d', .ok log)) : log.config = config := by
  cases hclaim : AuditLog.claimAndResume J config key d io with
  | none =>
    obtain ⟨_, _, herr, -⟩ := AuditLog.openLog_of_none (E := E) hclaim
    rw [herr] at h
    cases h
  | some p =>
    obtain ⟨log0, d1⟩ := p
    have hconfig := (AuditLog.claimAndResume_eq_some hclaim).2.1
    rw [AuditLog.openLog_of_some hclaim] at h
    split_ifs at h
    · have hkept := (AuditLog.append_config (E := E) (J := J) log0 d1
        (genesisEvent log0.config.nodeId) io.genesis).1
      rw [AuditLog.writeGenesis] at h
      split at h
      · cases h
      · rename_i heq
        cases h
        rw [heq, hconfig] at hkept
        exact hkept
    · cases h
      exact hconfig

/-- In a run without errors the live log syncs. -/
theorem fsyncOnWrite_of_reachable {s : System}
    (h : Transition.Reachable (System.step E J key) (ErrorFree E J key deploymentId)
      System.init s) : ∀ log, s.log = some log → log.config.fsyncOnWrite = true := by
  refine h.invariant (fun s ↦ ∀ log, s.log = some log → log.config.fsyncOnWrite = true)
    (fun log hl ↦ by cases hl) fun s a _ ha hs ↦ ?_
  cases a with
  | openLog config io =>
    intro log hlog
    simp only [System.step] at hlog
    split at hlog
    · rename_i heq
      cases hlog
      rw [openLog_config heq]
      exact ha.2.1
    · exact hs log hlog
  | append event io =>
    intro log hlog
    cases hold : s.log with
    | none =>
      simp only [System.step, hold] at hlog
      cases hlog
    | some log0 =>
      have hkept := (AuditLog.append_config (E := E) (J := J) log0 s.dir event io).1
      simp only [System.step, hold] at hlog
      split at hlog <;> rename_i heq <;> cases hlog <;> rw [heq] at hkept <;>
        exact hkept ▸ hs log0 hold
  | drop flush =>
    intro log hlog
    cases hold : s.log with
    | none =>
      simp only [System.step, hold] at hlog
      cases hlog
    | some log0 =>
      simp only [System.step, hold] at hlog
      cases hlog
  | crash event io written => exact ha.elim
  | crashAfter event io => exact ha.elim
  | crashOpening config io written => exact ha.elim

/-- A run without errors is harmless. -/
theorem harmless_of_errorFree {s : System} {a : Action}
    (h : Transition.Reachable (System.step E J key) (ErrorFree E J key deploymentId) System.init s)
    (ha : ErrorFree E J key deploymentId s a) :
    Harmless E J key deploymentId s a ∧ a.Survives := by
  cases a with
  | openLog config io =>
    refine ⟨⟨ha.1, fun log d hclaim _ st entry text _ ↦ Or.inl ?_⟩, trivial⟩
    refine ha.2.2.1.genesis.completes ?_ st _
    rw [(AuditLog.claimAndResume_eq_some hclaim).2.1]
    exact ha.2.1
  | append event io =>
    exact ⟨fun log hlog st entry text _ ↦
      Or.inl (AppendIo.Clean.completes ha (fsyncOnWrite_of_reachable h log hlog) st _), trivial⟩
  | drop flush => exact ⟨trivial, trivial⟩
  | crash event io written => exact ha.elim
  | crashAfter event io => exact ha.elim
  | crashOpening config io written => exact ha.elim

/-- **Writer and verifier agree.** At every point of every run without errors the verifier accepts
the directory, its entries are exactly those that appends returned, with sequences `1, …, n`, and
the live log stands at the last of them. -/
theorem writer_and_verifier_agree (hkey : E.SignsFor key) {s : System}
    (h : Transition.Reachable (System.step E J key) (ErrorFree E J key deploymentId) System.init s)
    (hfaith : ∀ e ∈ s.attempted, J.Faithful e) :
    ∃ r, verifyLogChain E J (key.verifyingKey E) (.directory s.dir) deploymentId = .ok r ∧
      r.valid = true ∧ r.entriesVerified = s.returned.length ∧
      loadEntries J (.directory s.dir) = .ok s.returned ∧
      s.returned.map AuditEntry.sequence = List.range' 1 s.returned.length ∧
      ∀ log, s.log = some log →
        r.logTailHash = log.tailHash ∧ log.sequence = s.returned.length := by
  have hgood := good_returned (h.mono fun _ _ hr ha ↦ harmless_of_errorFree hr ha) hfaith
  obtain ⟨hload, r, hr, hvalid, hcount, htail⟩ := hgood.verifies hkey hfaith
  refine ⟨r, hr, hvalid, hcount, hload, hgood.run.map_sequence, fun log hlog ↦ ?_⟩
  obtain ⟨hne, hatt⟩ := hgood.attached log hlog
  refine ⟨?_, hatt.sequence_eq⟩
  obtain ⟨st, hst, -, -, hlast, -⟩ := hatt.state
  obtain ⟨init, e, he⟩ := List.eq_nil_or_concat s.returned |>.resolve_left hne
  rw [htail, AuditLog.tailHash, hst, Option.map_some, hlast, he, List.concat_eq_append,
    logTail_append_singleton]
  simp

/-! ### Opening -/

/-- Without errors, a directory that nobody holds opens again, as long as no line in it is longer
than a block. -/
theorem claimAndResume_of_holds (config : LogConfig) (key : SigningKey) {io : OpenIo} {d : Dir}
    {es : List AuditEntry} (hio : io.Clean) (hl : d.locked = false) (h : Holds J d es)
    (hshort : ∀ e ∈ es, J.RoundTrips e ∧ (J.line e).length ≤ block) :
    ∃ log d1, AuditLog.claimAndResume J config key d io = some (log, d1) := by
  refine AuditLog.claimAndResume_of_clean hio hl fun d0 hsame ↦ ?_
  obtain ⟨seg, hlayout, -⟩ := h.of_sameSegments hsame
  simp only [findExistingLogFile, hio.readDir]
  refine exists_newestOf_eq_ok hio.readFile (fun f hf ↦ ?_) none
  rw [hlayout.content f hf]
  exact exists_readLastEntry_eq_ok _ fun e he ↦ hshort e (hlayout.mem hf he)

/-- **A directory that holds a run opens again** at its end, without errors and as long as no line
is longer than a block. -/
theorem openLog_of_holds (key : SigningKey) {config : LogConfig} {io : OpenIo} {d : Dir}
    {es : List AuditEntry} (hio : io.Clean) (hl : d.locked = false) (h : Holds J d es)
    (hfaith : ∀ e ∈ es, J.Faithful e) (hshort : ∀ e ∈ es, (J.line e).length ≤ block)
    (run : AppendRun E J key config.deploymentId es) (hne : es ≠ []) :
    ∃ log d1, AuditLog.openLog E J config key d io = (d1, .ok log) ∧
      openAttempt E J key config d io = none ∧ Holds J d1 es ∧
      Attached key config.deploymentId d1 es log := by
  obtain ⟨log, d1, hclaim⟩ := claimAndResume_of_holds config key hio hl h fun e he ↦
    ⟨(hfaith e he).roundTrips, hshort e he⟩
  obtain ⟨hholds, hatt⟩ := attached_of_claimAndResume h hfaith run.sealedChain rfl hclaim
  have hseq : log.sequence ≠ 0 := by
    rw [hatt.sequence_eq]
    exact fun h0 ↦ hne (List.length_eq_zero_iff.1 h0)
  obtain ⟨hopen, hnone⟩ := openLog_of_resumed (E := E) hclaim hseq
  exact ⟨log, d1, hopen, hnone, hholds, hatt⟩

/-- **Opening an empty directory** writes the genesis entry to the one segment it creates. -/
theorem openLog_empty (key : SigningKey) {config : LogConfig} {io : OpenIo} {bytes : Bytes}
    {text : String}
    {e : AuditEntry} (hio : io.Clean) (hfsync : config.fsyncOnWrite = true)
    (hevent : J.eventToVec (genesisEvent config.nodeId) = .ok bytes)
    (he : e = sealWith E key (computeGenesisHash config.deploymentId) 0 (genesisEvent config.nodeId)
      bytes io.genesis.now io.genesis.logId)
    (htext : J.entryToString e = .ok text)
    (hdue : (lineBytes text).length < config.maxFileSizeBytes) :
    ∃ log d f, AuditLog.openLog E J config key Dir.empty io = (d, .ok log) ∧
      openAttempt E J key config Dir.empty io = some e ∧ log.config = config ∧
      AppendRun E J key config.deploymentId [e] ∧ Holds J d [e] ∧
      Attached key config.deploymentId d [e] log ∧ d.logFiles = [f] ∧
      d.content f = J.line e := by
  obtain ⟨log0, d1, hclaim⟩ := claimAndResume_of_holds config key hio rfl
    (Holds.empty (J := J)) (by simp)
  obtain ⟨hholds, hatt⟩ := attached_of_claimAndResume (Holds.empty (J := J)) (by simp)
    (show SealedChain J (computeGenesisHash config.deploymentId) 0 [] from trivial) rfl hclaim
  obtain ⟨-, hconfig, -, d0, existing, st, hsame, -, hfind, hst, hwriter, -, -, hd1, hbytes⟩ :=
    AuditLog.claimAndResume_eq_some hclaim
  -- the directory had no segment, so the new one is its only one and is empty
  have hnone : d0.logFiles = [] := hsame.1
  have hnew : st.writer.file ∉ d0.names ∧ isSegment st.writer.file = true := by
    have hexisting : existing = none := by
      simp only [findExistingLogFile, hio.readDir, hnone, newestOf, Except.ok.injEq] at hfind
      exact hfind.symm
    have hseg : isSegment st.writer.file = true := by
      rw [hwriter, hexisting]
      exact isSegment_newLogFileName _ _ _
    refine ⟨fun hmem ↦ ?_, hseg⟩
    have : st.writer.file ∈ d0.logFiles := Dir.mem_logFiles.2 ⟨hmem, hseg⟩
    rw [hnone] at this
    cases this
  have hfiles : d1.logFiles = [st.writer.file] := by
    have := Dir.logFiles_create_perm hnew.1 hnew.2
    rw [hnone, ← hd1] at this
    exact List.perm_singleton.1 this
  have hcontent : d1.content st.writer.file = [] := by
    rw [hd1, Dir.content_create_of_not_mem hnew.1]
  have hzero : log0.sequence = 0 := hatt.sequence_eq
  obtain ⟨st', hst', hprep⟩ := hatt.prepare_of_serializes (E := E) io.genesis hevent
    (by rw [logTail_nil]; exact he ▸ htext)
  obtain rfl : st = st' := Option.some.inj (hst.symm.trans hst')
  rw [logTail_nil, List.length_nil, ← he] at hprep
  have hcompletes : io.genesis.Completes log0.config st (lineBytes text) :=
    hio.genesis.completes (by rw [hconfig]; exact hfsync) st _
  have hbuf : st.writer.buf = [] := by rw [hwriter]
  have happ := AuditLog.append_of_not_due hprep hbuf hcompletes
    (by rw [hbytes, hio.metadata, hcontent, hconfig]; simpa using hdue) d1
  obtain ⟨log', d', happ', hrun, hholds', hatt'⟩ :=
    hatt.append_of_completes hholds .nil hprep hcompletes
  rw [happ] at happ'
  cases happ'
  have hopen := AuditLog.openLog_of_some (E := E) hclaim
  rw [if_pos hzero, AuditLog.writeGenesis, hconfig, happ] at hopen
  refine ⟨_, _, st.writer.file, hopen, ?_, hconfig, hrun, hholds', hatt', hfiles, ?_⟩
  · simp only [openAttempt, hclaim, if_pos hzero, AuditLog.attempt, hconfig, hprep]
    rfl
  · rw [Dir.content_append_self, hcontent, List.nil_append, lineBytes_eq_line htext]

/-! ### Runs that get somewhere -/

/-- **An append without errors by an attached log that syncs** returns the entry it sealed, and
leaves the log at the new end. If the line fills the segment, the next segment is there. -/
theorem Attached.append_of_clean {d : Dir} {es : List AuditEntry} {log : AuditLog}
    {event : AuditEvent} {io : AppendIo} {bytes : Bytes} {e : AuditEntry}
    (h : Attached key deploymentId d es log) (hholds : Holds J d es)
    (run : AppendRun E J key deploymentId es) (hio : io.Clean)
    (hfsync : log.config.fsyncOnWrite = true) (hevent : J.eventToVec event = .ok bytes)
    (he : e = sealWith E key (logTail deploymentId es) es.length event bytes io.now io.logId)
    (hfaith : J.Faithful e) :
    ∃ log' d', log.append E J d event io = (log', d', .ok e) ∧
      log.attempt E J event io = some e ∧ log'.config = log.config ∧
      AppendRun E J key deploymentId (es ++ [e]) ∧ Holds J d' (es ++ [e]) ∧
      Attached key deploymentId d' (es ++ [e]) log' ∧
      (log.config.maxFileSizeBytes ≤ (J.line e).length →
        newLogFileName (e.sequence + 1) io.rotate.ts io.rotate.unique ∈ d'.logFiles) := by
  obtain ⟨text, htext, -⟩ := hfaith.roundTrips
  obtain ⟨st, -, hprep⟩ := h.prepare_of_serializes (E := E) io hevent (he ▸ htext)
  rw [← he] at hprep
  have hcompletes : io.Completes log.config st (lineBytes text) := hio.completes hfsync st _
  obtain ⟨log', d', happ, hrun, hholds', hatt'⟩ := h.append_of_completes hholds run hprep hcompletes
  have hconfig := (AuditLog.append_config (E := E) (J := J) log d event io).1
  rw [happ] at hconfig
  refine ⟨log', d', happ, by rw [AuditLog.attempt, hprep]; rfl, hconfig, hrun, hholds', hatt',
    fun hfull ↦ ?_⟩
  have hdue : log.config.maxFileSizeBytes ≤ st.bytesWritten + (lineBytes text).length := by
    rw [lineBytes_eq_line htext]
    omega
  have hrotated := AuditLog.append_of_due hprep (h.prepare_spec run hprep).1 hcompletes hdue rfl d
  rw [happ] at hrotated
  obtain ⟨-, rfl, -⟩ := hrotated
  exact Dir.mem_logFiles.2 ⟨Dir.mem_names_create _ _, isSegment_newLogFileName _ _ _⟩

/-- A run without crashes has got as far as the entries `es`: its appends returned them, the
directory holds them, and a log with the configuration `config` stands at the last of them. -/
structure LiveAt (E : Ed25519) (J : AuditJson) (key : SigningKey) (config : LogConfig) (s : System)
    (es : List AuditEntry) : Prop where
  log : ∃ log, s.log = some log ∧ log.config = config ∧
    Attached key config.deploymentId s.dir es log
  run : AppendRun E J key config.deploymentId es
  holds : Holds J s.dir es
  returned : s.returned = es
  attempted : ∀ e ∈ es, e ∈ s.attempted
  faithful : ∀ e ∈ s.attempted, J.Faithful e

namespace LiveAt

variable {config : LogConfig} {s : System} {es : List AuditEntry}

/-- An append without errors by a log that syncs is harmless. -/
theorem harmless_append (h : LiveAt E J key config s es) {event : AuditEvent} {io : AppendIo}
    (hio : io.Clean) (hfsync : config.fsyncOnWrite = true) :
    Harmless E J key config.deploymentId s (.append event io) := by
  intro log hlog st entry text _
  obtain ⟨log', hlog', hconfig, -⟩ := h.log
  obtain rfl : log' = log := Option.some.inj (hlog'.symm.trans hlog)
  exact .inl (hio.completes (by rw [hconfig]; exact hfsync) st _)

variable {event : AuditEvent} {io : AppendIo} {bytes : Bytes} {e : AuditEntry}
  (hevent : J.eventToVec event = .ok bytes)
  (he : e = sealWith E key (logTail config.deploymentId es) es.length event bytes io.now io.logId)
  (hfaith : J.Faithful e)

include hevent he hfaith

/-- **An append without errors** gets one entry further. If its line fills the segment, the next
segment is there. -/
theorem append (h : LiveAt E J key config s es) (hio : io.Clean)
    (hfsync : config.fsyncOnWrite = true) :
    LiveAt E J key config (s.step E J key (.append event io)) (es ++ [e]) ∧
      (config.maxFileSizeBytes ≤ (J.line e).length →
        newLogFileName (e.sequence + 1) io.rotate.ts io.rotate.unique ∈
          (s.step E J key (.append event io)).dir.logFiles) := by
  obtain ⟨log, hlog, hconfig, hatt⟩ := h.log
  obtain ⟨log', d', happ, hattempt, hconfig', hrun, hholds, hatt', hsegment⟩ :=
    hatt.append_of_clean h.holds h.run hio (by rw [hconfig]; exact hfsync) hevent he hfaith
  rw [System.step_append_ok hlog happ, hattempt]
  refine ⟨{
    log := ⟨log', rfl, hconfig'.trans hconfig, hatt'⟩
    run := hrun
    holds := hholds
    returned := by rw [h.returned]
    attempted := fun a ha ↦ ?_
    faithful := fun a ha ↦ ?_ }, hconfig ▸ hsegment⟩
  · rcases List.mem_append.1 ha with ha | ha
    · exact List.mem_append_left _ (h.attempted a ha)
    · exact List.mem_append_right _ ha
  · rcases List.mem_append.1 ha with ha | ha
    · exact h.faithful a ha
    · rw [List.mem_singleton.1 ha]
      exact hfaith

/-- **An append that fails cleanly** stays where it is, although its entry was sealed. -/
theorem append_fails (h : LiveAt E J key config s es) (hio : io.FailsCleanly (J.line e)) :
    Harmless E J key config.deploymentId s (.append event io) ∧
      e ∈ (s.step E J key (.append event io)).attempted ∧
      LiveAt E J key config (s.step E J key (.append event io)) es := by
  obtain ⟨log, hlog, hconfig, hatt⟩ := h.log
  obtain ⟨text, htext, -⟩ := hfaith.roundTrips
  obtain ⟨st, -, hprep⟩ := hatt.prepare_of_serializes (E := E) io hevent (he ▸ htext)
  rw [← he] at hprep
  rw [← lineBytes_eq_line htext] at hio
  obtain ⟨err, happ⟩ :=
    AuditLog.append_of_failsCleanly hprep (hatt.prepare_spec h.run hprep).1 hio s.dir
  constructor
  · intro log' hlog' st' entry' text' hprep'
    obtain rfl : log = log' := Option.some.inj (hlog.symm.trans hlog')
    rw [hprep] at hprep'
    cases hprep'
    exact .inr hio
  · have hattempt : log.attempt E J event io = some e := by rw [AuditLog.attempt, hprep]; rfl
    rw [System.step_append_error hlog happ, hattempt]
    refine ⟨List.mem_append_right _ (List.mem_singleton_self e), ⟨log, rfl, hconfig, hatt⟩, h.run,
      h.holds, h.returned, fun a ha ↦ List.mem_append_left _ (h.attempted a ha), fun a ha ↦ ?_⟩
    rcases List.mem_append.1 ha with ha | ha
    · exact h.faithful a ha
    · rw [List.mem_singleton.1 ha]
      exact hfaith

omit hevent he hfaith

/-- Dropping a live log releases the lock and writes nothing. -/
theorem step_drop (h : LiveAt E J key config s es) : s.step E J key (.drop .done) =
    { s with dir := { s.dir with locked := false }, log := none } := by
  obtain ⟨log, hlog, -, hatt⟩ := h.log
  simp only [System.step, hlog, hatt.drop]

theorem drop_spec (h : LiveAt E J key config s es) : (s.step E J key (.drop .done)).log = none ∧
    (s.step E J key (.drop .done)).attempted = s.attempted ∧
    (s.step E J key (.drop .done)).returned = es ∧
    (s.step E J key (.drop .done)).dir.logFiles = s.dir.logFiles := by
  rw [h.step_drop]
  exact ⟨rfl, rfl, h.returned, rfl⟩

/-- **Dropping the log and opening the directory again** stays where it is, whatever the new limit
and node. -/
theorem reopen (h : LiveAt E J key config s es) (config' : LogConfig) {io : OpenIo}
    (hio : io.Clean) (hdep : config'.deploymentId = config.deploymentId) (hne : es ≠ [])
    (hshort : ∀ e ∈ es, (J.line e).length ≤ block) :
    (∃ log, (AuditLog.openLog E J config' key (s.step E J key (.drop .done)).dir io).2 = .ok log) ∧
      LiveAt E J key config' ((s.step E J key (.drop .done)).step E J key (.openLog config' io))
        es := by
  set s' := s.step E J key (.drop .done) with hs'
  have hstep : s' = { s with dir := { s.dir with locked := false }, log := none } := h.step_drop
  have hholds : Holds J s'.dir es := by
    rw [hstep]
    exact h.holds.of_sameSegments (SameSegments.setLocked false)
  obtain ⟨log', d', hopen, hnone, hholds', hatt'⟩ := openLog_of_holds key hio
    (by rw [hstep]) hholds (fun e he ↦ h.faithful e (h.attempted e he)) hshort
    (by rw [hdep]; exact h.run) hne
  obtain ⟨hdir, hlog', hattempted, hreturned, -⟩ := System.step_openLog_resumes hopen hnone
  refine ⟨⟨log', by rw [hopen]⟩, ?_⟩
  exact {
    log := ⟨log', hlog', openLog_config hopen, by rw [hdir]; exact hatt'⟩
    run := by rw [hdep]; exact h.run
    holds := by rw [hdir]; exact hholds'
    returned := by rw [hreturned, hstep]; exact h.returned
    attempted := by rw [hattempted, hstep]; exact h.attempted
    faithful := by rw [hattempted, hstep]; exact h.faithful }

end LiveAt

/-! ### A run to execute

One node opens an empty directory and appends the genesis event again and again. The signature
primitive is a stand-in that signs with zeros and accepts what it signed; the serializer knows the
entries of the runs below. -/

/-- A signature primitive that accepts its own constant signature. -/
def zeroEd25519 : Ed25519 where
  publicKey := id
  sign _ _ := ⟨List.replicate 64 0, Signature.length_zeros⟩
  decodePoint _ := .ok ()
  verify _ _ sig := sig.bytes == List.replicate 64 0

def sampleKey : SigningKey := ⟨[]⟩

def sampleConfig : LogConfig := LogConfig.new "/var/lib/cordon/audit" "deployment-1" "node-1"

def sampleNow : DateTime := .startOf2026

/-- An append at which every system call succeeds. -/
def sampleAppendIo (id : BitVec 128) : AppendIo where
  now := sampleNow
  logId := ⟨id⟩
  drain := .done
  direct := .done
  flush := .done
  sync := none
  rotate := { flush := .done, ts := sampleNow, unique := ⟨id⟩, openFile := none }

/-- An opening at which every system call succeeds. -/
def sampleOpenIo : OpenIo where
  createDir := none
  openLock := none
  tryLock := none
  pid := 1
  since := sampleNow
  infoFails := false
  readDir := none
  readFile _ := none
  ts := sampleNow
  unique := ⟨1⟩
  openFile := none
  metadataFails := false
  genesis := sampleAppendIo 1
  dropFlush := .done

def sampleLifecycle : Audit.LifecycleEvent where
  event := .boot
  cordonVersion := "2.1.0"
  teeType := "initialized"
  nodeId := "node-1"

/-- The entry appended after `sequence` others, the last of which has hash `lastHash`. -/
def sampleEntry (lastHash : String) (sequence : ℕ) (id : BitVec 128) : AuditEntry :=
  sealWith zeroEd25519 sampleKey lastHash sequence (.lifecycle sampleLifecycle)
    (Utf8.encode (lifecycleText sampleLifecycle)) sampleNow ⟨id⟩

def sampleFirst : AuditEntry := sampleEntry (computeGenesisHash "deployment-1") 0 1
def sampleSecond : AuditEntry := sampleEntry sampleFirst.entryHash 1 2
/-- A second entry at the place of `sampleSecond`. -/
def sampleRival : AuditEntry := sampleEntry sampleFirst.entryHash 1 3
def sampleThird : AuditEntry := sampleEntry sampleSecond.entryHash 2 4

def sampleEntries : List AuditEntry := [sampleFirst, sampleSecond, sampleRival, sampleThird]

def sampleJson : AuditJson := lifecycleJson sampleEntries

/-- The length of every text of the run. -/
def sampleLength : ℕ := 393 + (lifecycleText sampleLifecycle).length + (stampText sampleNow).length

theorem sampleLength_eq : sampleLength = 523 := by decide +kernel

/-- Four different identifiers. -/
theorem nodup_sampleIds :
    [Uuid.display ⟨1⟩, Uuid.display ⟨2⟩, Uuid.display ⟨3⟩, Uuid.display ⟨4⟩].Nodup := by
  decide

theorem plain_stamp_sampleNow : Plain (stampText sampleNow) := by
  decide +kernel

theorem length_stamp_sampleNow : (stampText sampleNow).length = 20 := by
  decide +kernel

theorem uniform_sampleEntries : Uniform sampleEntries sampleLength := by
  refine uniform_of_sealed zeroEd25519 sampleKey (by decide +kernel)
    plain_stamp_sampleNow (fun e he ↦ ?_) nodup_sampleIds
  simp only [sampleEntries, List.mem_cons, List.not_mem_nil, or_false] at he
  rcases he with rfl | rfl | rfl | rfl
  · exact ⟨_, 0, _, _, by decide, rfl⟩
  · exact ⟨_, 1, _, _, by decide, rfl⟩
  · exact ⟨_, 1, _, _, by decide, rfl⟩
  · exact ⟨_, 2, _, _, by decide, rfl⟩

theorem sampleSecond_sequence : sampleSecond.sequence = 2 := rfl

theorem sample_faithful {e : AuditEntry} (he : e ∈ sampleEntries) : sampleJson.Faithful e :=
  lifecycleJson_faithful uniform_sampleEntries he

theorem sample_eventToVec :
    sampleJson.eventToVec (genesisEvent sampleConfig.nodeId) =
      .ok (Utf8.encode (lifecycleText sampleLifecycle)) :=
  rfl

/-- Every entry of the run serializes to a line of one length. -/
theorem sample_entryToString {e : AuditEntry} (he : e ∈ sampleEntries) :
    ∃ text, sampleJson.entryToString e = .ok text ∧ lineBytes text = sampleJson.line e ∧
      (lineBytes text).length = 524 := by
  obtain ⟨text, htext, -⟩ := (sample_faithful he).roundTrips
  refine ⟨text, htext, lineBytes_eq_line htext, ?_⟩
  rw [lineBytes_eq_line htext]
  exact (uniform_sampleEntries.length_line he).trans (by rw [sampleLength_eq])

theorem signsFor_sampleKey : zeroEd25519.SignsFor sampleKey := fun _ ↦ by
  simp [VerifyingKey.verify, SigningKey.sign, SigningKey.verifyingKey, zeroEd25519]

theorem clean_sampleAppendIo (id : BitVec 128) : (sampleAppendIo id).Clean :=
  ⟨rfl, rfl, rfl, rfl, rfl, rfl⟩

theorem clean_sampleOpenIo : sampleOpenIo.Clean :=
  ⟨rfl, rfl, rfl, rfl, rfl, fun _ ↦ rfl, rfl, rfl, clean_sampleAppendIo 1, rfl⟩

/-- The system once the directory has been opened. -/
def sampleOpened : System :=
  System.init.step zeroEd25519 sampleJson sampleKey (.openLog sampleConfig sampleOpenIo)

theorem sampleOpened_spec : ∃ log d f,
    AuditLog.openLog zeroEd25519 sampleJson sampleConfig sampleKey Dir.empty sampleOpenIo =
      (d, .ok log) ∧
    sampleOpened = { System.init with
      dir := d, log := some log, attempted := [sampleFirst], returned := [sampleFirst]
      opened := true } ∧
    log.config = sampleConfig ∧
    AppendRun zeroEd25519 sampleJson sampleKey "deployment-1" [sampleFirst] ∧
    Holds sampleJson d [sampleFirst] ∧ Attached sampleKey "deployment-1" d [sampleFirst] log ∧
    d.logFiles = [f] ∧ d.content f = sampleJson.line sampleFirst := by
  obtain ⟨text, htext, -, hlen⟩ := sample_entryToString (e := sampleFirst) (by simp [sampleEntries])
  obtain ⟨log, d, f, hopen, hattempt, hrest⟩ :=
    openLog_empty (E := zeroEd25519) sampleKey clean_sampleOpenIo rfl sample_eventToVec
      (e := sampleFirst) rfl htext (by rw [hlen]; decide)
  refine ⟨log, d, f, hopen, ?_, hrest⟩
  have hattempt' : openAttempt zeroEd25519 sampleJson sampleKey sampleConfig System.init.dir
      sampleOpenIo = some sampleFirst := hattempt
  rw [sampleOpened, System.step_openLog_ok (s := System.init) hopen, hattempt']
  rfl

theorem reachable_sampleOpened :
    Transition.Reachable (System.step zeroEd25519 sampleJson sampleKey)
      (ErrorFree zeroEd25519 sampleJson sampleKey "deployment-1") System.init sampleOpened := by
  obtain ⟨log, d, f, hopen, -⟩ := sampleOpened_spec
  have hinit : System.init.dir = Dir.empty := rfl
  have hok : ErrorFree zeroEd25519 sampleJson sampleKey "deployment-1" System.init
      (.openLog sampleConfig sampleOpenIo) := by
    refine ⟨rfl, rfl, clean_sampleOpenIo, log, ?_⟩
    rw [hinit, hopen]
  unfold sampleOpened
  exact .next _ .start hok

theorem sampleOpened_faithful : ∀ e ∈ sampleOpened.attempted, sampleJson.Faithful e := by
  obtain ⟨log, d, f, -, hs, -⟩ := sampleOpened_spec
  rw [hs]
  intro e he
  rw [List.mem_singleton.1 he]
  exact sample_faithful (by simp [sampleEntries])

theorem liveAt_sampleOpened :
    LiveAt zeroEd25519 sampleJson sampleKey sampleConfig sampleOpened [sampleFirst] := by
  obtain ⟨log, d, f, -, hs, hconfig, hrun, hholds, hatt, -⟩ := sampleOpened_spec
  have hfaithful := sampleOpened_faithful
  rw [hs] at hfaithful ⊢
  exact ⟨⟨log, rfl, hconfig, hatt⟩, hrun, hholds, rfl, fun e he ↦ he, hfaithful⟩

/-- The configuration of the second start: a segment is full as soon as it has an entry. -/
def rotatingConfig : LogConfig := { sampleConfig with maxFileSizeBytes := 524 }

/-- The system once a second entry has been appended. -/
def sampleAppended : System :=
  sampleOpened.step zeroEd25519 sampleJson sampleKey
    (.append (genesisEvent sampleConfig.nodeId) (sampleAppendIo 2))

/-- The system once the node has stopped and started again under the smaller limit. -/
def sampleRestarted : System :=
  (sampleAppended.step zeroEd25519 sampleJson sampleKey (.drop .done)).step zeroEd25519 sampleJson
    sampleKey (.openLog rotatingConfig sampleOpenIo)

/-- The system once a third entry has been appended, and the log rotated. -/
def sampleRotated : System :=
  sampleRestarted.step zeroEd25519 sampleJson sampleKey
    (.append (genesisEvent rotatingConfig.nodeId) (sampleAppendIo 4))

/-- A line of the run. -/
theorem length_sampleLine {e : AuditEntry} (he : e ∈ sampleEntries) :
    (sampleJson.line e).length = 524 := by
  obtain ⟨text, -, hline, hlen⟩ := sample_entryToString he
  rw [← hline, hlen]

/-- Nothing goes wrong on the way there. -/
theorem sampleRotated_spec :
    Transition.Reachable (System.step zeroEd25519 sampleJson sampleKey)
        (ErrorFree zeroEd25519 sampleJson sampleKey "deployment-1") System.init sampleRotated ∧
      LiveAt zeroEd25519 sampleJson sampleKey rotatingConfig sampleRotated
        [sampleFirst, sampleSecond, sampleThird] ∧
      newLogFileName 4 sampleNow ⟨4⟩ ∈ sampleRotated.dir.logFiles := by
  have happended := (liveAt_sampleOpened.append (e := sampleSecond) sample_eventToVec rfl
    (sample_faithful (by simp [sampleEntries])) (clean_sampleAppendIo 2) rfl).1
  obtain ⟨hopens, hrestarted⟩ := happended.reopen rotatingConfig clean_sampleOpenIo rfl
    (by simp) fun e he ↦ by
      rw [length_sampleLine (by
        simp only [List.cons_append, List.nil_append, List.mem_cons, List.not_mem_nil,
          or_false] at he
        rcases he with rfl | rfl <;> simp [sampleEntries])]
      decide
  have hthird : sampleThird ∈ sampleEntries := by simp [sampleEntries]
  obtain ⟨hrotated, hsegment⟩ := hrestarted.append (e := sampleThird) sample_eventToVec rfl
    (sample_faithful hthird) (clean_sampleAppendIo 4) rfl
  refine ⟨?_, hrotated, hsegment (length_sampleLine hthird).ge⟩
  have hopenLog : ErrorFree zeroEd25519 sampleJson sampleKey "deployment-1"
      (sampleAppended.step zeroEd25519 sampleJson sampleKey (.drop .done))
      (.openLog rotatingConfig sampleOpenIo) := ⟨rfl, rfl, clean_sampleOpenIo, hopens⟩
  have happend (s : System) (event : AuditEvent) (id : BitVec 128) :
      ErrorFree zeroEd25519 sampleJson sampleKey "deployment-1" s
        (.append event (sampleAppendIo id)) := clean_sampleAppendIo id
  have hdrop : ErrorFree zeroEd25519 sampleJson sampleKey "deployment-1" sampleAppended
      (.drop .done) := rfl
  exact (((reachable_sampleOpened.next _ (happend _ _ 2)).next _ hdrop).next _ hopenLog).next _
    (happend _ _ 4)

/-- A node opens an empty directory, appends, stops, starts again with a smaller limit and appends,
which rotates: the verifier accepts the two segments and finds the three entries. -/
theorem writer_and_verifier_agree_after_rotation :
    newLogFileName 4 sampleNow ⟨4⟩ ∈ sampleRotated.dir.logFiles ∧
      ∃ r, verifyLogChain zeroEd25519 sampleJson (sampleKey.verifyingKey zeroEd25519)
          (.directory sampleRotated.dir) "deployment-1" = .ok r ∧
        r.valid = true ∧ r.entriesVerified = 3 ∧
        loadEntries sampleJson (.directory sampleRotated.dir) =
          .ok [sampleFirst, sampleSecond, sampleThird] ∧
        ∃ log, sampleRotated.log = some log ∧ r.logTailHash = log.tailHash ∧
          log.sequence = 3 := by
  obtain ⟨hreach, hlive, hsegment⟩ := sampleRotated_spec
  obtain ⟨r, hr, hvalid, hcount, hload, -, htail⟩ :=
    writer_and_verifier_agree signsFor_sampleKey hreach hlive.faithful
  rw [hlive.returned] at hcount hload htail
  obtain ⟨log, hlog, -⟩ := hlive.log
  exact ⟨hsegment, r, hr, hvalid, hcount, hload, log, hlog, htail log hlog⟩

/-! ### Runs in which appends fail -/

/-- **A failed append leaves no entry.** In every run whose appends complete or fail before any byte
of their line is under way, the log is exactly the entries that appends returned and verifies. -/
theorem failed_appends_leave_no_entry (hkey : E.SignsFor key) {s : System}
    (h : Transition.Reachable (System.step E J key)
      (fun s a ↦ Harmless E J key deploymentId s a ∧ a.Survives) System.init s)
    (hfaith : ∀ e ∈ s.attempted, J.Faithful e) :
    Verifies E J key deploymentId s.dir s.returned :=
  (good_returned h hfaith).verifies hkey hfaith

/-- An opening is harmless, and a log opens under a harmless run too. -/
theorem reachable_sampleOpened_harmless :
    Transition.Reachable (System.step zeroEd25519 sampleJson sampleKey)
      (fun s a ↦ Harmless zeroEd25519 sampleJson sampleKey "deployment-1" s a ∧ a.Survives)
      System.init sampleOpened :=
  reachable_sampleOpened.mono fun _ _ hr ha ↦ harmless_of_errorFree hr ha

/-! A node with an identifier that fills a buffer: its lines go to the disk directly, and the disk
is full for one of them. -/

def bulkyLifecycle : Audit.LifecycleEvent :=
  { sampleLifecycle with nodeId := String.ofList (List.replicate BufWriter.capacity 'n') }

def bulkyConfig : LogConfig := LogConfig.new "/var/lib/cordon/audit" "deployment-1"
  bulkyLifecycle.nodeId

/-- The entry appended after `sequence` others, the last of which has hash `lastHash`. -/
def bulkyEntry (lastHash : String) (sequence : ℕ) (id : BitVec 128) : AuditEntry :=
  sealWith zeroEd25519 sampleKey lastHash sequence (.lifecycle bulkyLifecycle)
    (Utf8.encode (lifecycleText bulkyLifecycle)) sampleNow ⟨id⟩

def bulkyFirst : AuditEntry := bulkyEntry (computeGenesisHash "deployment-1") 0 1
/-- The entry whose write fails. -/
def bulkyLost : AuditEntry := bulkyEntry bulkyFirst.entryHash 1 2
def bulkySecond : AuditEntry := bulkyEntry bulkyFirst.entryHash 1 3
def bulkyThird : AuditEntry := bulkyEntry bulkySecond.entryHash 2 4

def bulkyEntries : List AuditEntry := [bulkyFirst, bulkyLost, bulkySecond, bulkyThird]

def bulkyJson : AuditJson := lifecycleJson bulkyEntries

theorem length_bulkyLifecycle : (lifecycleText bulkyLifecycle).length = 8296 := by
  have hlits : (lifecycleTypeName bulkyLifecycle.event).toList.length = 4 ∧
      bulkyLifecycle.cordonVersion.toList.length = 5 ∧
      bulkyLifecycle.teeType.toList.length = 11 := by decide
  obtain ⟨h1, h2, h3⟩ := hlits
  have hnode : bulkyLifecycle.nodeId.toList.length = 8192 := by
    simp only [bulkyLifecycle, String.toList_ofList, List.length_replicate, BufWriter.capacity]
  rw [length_lifecycleText, h1, h2, h3, hnode]

theorem uniform_bulkyEntries : Uniform bulkyEntries (393 + 8296 + 20) := by
  have hplain : Plain (lifecycleText bulkyLifecycle) := by
    refine plain_lifecycleText (show Plain "2.1.0".toList by decide)
      (show Plain "initialized".toList by decide) fun c hc ↦ ?_
    rw [bulkyLifecycle, String.toList_ofList] at hc
    rw [(List.mem_replicate.1 hc).2]
    decide
  have huniform : Uniform bulkyEntries (393 + (lifecycleText bulkyLifecycle).length +
      (stampText sampleNow).length) := by
    refine uniform_of_sealed zeroEd25519 sampleKey hplain plain_stamp_sampleNow
      (fun e he ↦ ?_) nodup_sampleIds
    simp only [bulkyEntries, List.mem_cons, List.not_mem_nil, or_false] at he
    rcases he with rfl | rfl | rfl | rfl
    · exact ⟨_, 0, _, _, by decide, rfl⟩
    · exact ⟨_, 1, _, _, by decide, rfl⟩
    · exact ⟨_, 1, _, _, by decide, rfl⟩
    · exact ⟨_, 2, _, _, by decide, rfl⟩
  rwa [length_bulkyLifecycle, length_stamp_sampleNow] at huniform

theorem bulky_faithful {e : AuditEntry} (he : e ∈ bulkyEntries) : bulkyJson.Faithful e :=
  lifecycleJson_faithful uniform_bulkyEntries he

theorem bulky_eventToVec :
    bulkyJson.eventToVec (genesisEvent bulkyConfig.nodeId) =
      .ok (Utf8.encode (lifecycleText bulkyLifecycle)) :=
  rfl

/-- An append whose line does not fit on the disk. -/
def fullDiskIo : AppendIo := { sampleAppendIo 2 with direct := .fails 0 "No space left on device" }

theorem failsCleanly_fullDiskIo : fullDiskIo.FailsCleanly (bulkyJson.line bulkyLost) := by
  have hlen : (bulkyJson.line bulkyLost).length = 8710 :=
    uniform_bulkyEntries.length_line (by simp [bulkyEntries])
  refine ⟨?_, rfl, ?_⟩ <;> rw [hlen] <;> decide

def bulkyOpened : System :=
  System.init.step zeroEd25519 bulkyJson sampleKey (.openLog bulkyConfig sampleOpenIo)

/-- The system once the disk was full for an append. -/
def bulkyFailed : System :=
  bulkyOpened.step zeroEd25519 bulkyJson sampleKey
    (.append (genesisEvent bulkyConfig.nodeId) fullDiskIo)

/-- The system once two more appends have succeeded. -/
def bulkyRecovered : System :=
  (bulkyFailed.step zeroEd25519 bulkyJson sampleKey
    (.append (genesisEvent bulkyConfig.nodeId) (sampleAppendIo 3))).step zeroEd25519 bulkyJson
    sampleKey (.append (genesisEvent bulkyConfig.nodeId) (sampleAppendIo 4))

theorem bulkyOpened_spec :
    Transition.Reachable (System.step zeroEd25519 bulkyJson sampleKey)
        (ErrorFree zeroEd25519 bulkyJson sampleKey "deployment-1") System.init bulkyOpened ∧
      LiveAt zeroEd25519 bulkyJson sampleKey bulkyConfig bulkyOpened [bulkyFirst] := by
  have hfirst : bulkyFirst ∈ bulkyEntries := by simp [bulkyEntries]
  obtain ⟨text, htext, -⟩ := (bulky_faithful hfirst).roundTrips
  have hdue : (lineBytes text).length < bulkyConfig.maxFileSizeBytes := by
    rw [lineBytes_eq_line htext, bulkyJson, uniform_bulkyEntries.length_line hfirst]
    decide
  obtain ⟨log, d, f, hopen, hattempt, hconfig, hrun, hholds, hatt, -⟩ :=
    openLog_empty (E := zeroEd25519) sampleKey clean_sampleOpenIo rfl bulky_eventToVec
      (e := bulkyFirst) rfl htext hdue
  have hok : ErrorFree zeroEd25519 bulkyJson sampleKey "deployment-1" System.init
      (.openLog bulkyConfig sampleOpenIo) :=
    ⟨rfl, rfl, clean_sampleOpenIo, log, congrArg Prod.snd hopen⟩
  refine ⟨.next _ .start hok, ?_⟩
  have hattempt' : openAttempt zeroEd25519 bulkyJson sampleKey bulkyConfig System.init.dir
      sampleOpenIo = some bulkyFirst := hattempt
  rw [bulkyOpened, System.step_openLog_ok (s := System.init) hopen, hattempt']
  refine ⟨⟨log, rfl, hconfig, hatt⟩, hrun, hholds, rfl, fun e he ↦ he, fun e he ↦ ?_⟩
  rw [List.mem_singleton.1 he]
  exact bulky_faithful hfirst

/-- A node appends to a full disk, which fails, and then twice with success: the directory has one
entry for each success, and verifies. -/
theorem failed_append_leaves_no_entry_on_full_disk :
    bulkyFailed.returned = [bulkyFirst] ∧ bulkyLost ∈ bulkyFailed.attempted ∧
      bulkyRecovered.returned = [bulkyFirst, bulkySecond, bulkyThird] ∧
      Verifies zeroEd25519 bulkyJson sampleKey "deployment-1" bulkyRecovered.dir
        bulkyRecovered.returned := by
  obtain ⟨hopened, hlive⟩ := bulkyOpened_spec
  obtain ⟨hfails, hlost, hfailed⟩ := hlive.append_fails (e := bulkyLost) bulky_eventToVec rfl
    (bulky_faithful (by simp [bulkyEntries])) failsCleanly_fullDiskIo
  have hsecond := (hfailed.append (e := bulkySecond) bulky_eventToVec rfl
    (bulky_faithful (by simp [bulkyEntries])) (clean_sampleAppendIo 3) rfl).1
  have hthird := (hsecond.append (e := bulkyThird) bulky_eventToVec rfl
    (bulky_faithful (by simp [bulkyEntries])) (clean_sampleAppendIo 4) rfl).1
  have hreach : Transition.Reachable (System.step zeroEd25519 bulkyJson sampleKey)
      (fun s a ↦ Harmless zeroEd25519 bulkyJson sampleKey "deployment-1" s a ∧ a.Survives)
      System.init bulkyRecovered :=
    (((hopened.mono fun _ _ hr ha ↦ harmless_of_errorFree hr ha).next _ ⟨hfails, trivial⟩).next _
      ⟨hfailed.harmless_append (clean_sampleAppendIo 3) rfl, trivial⟩).next _
      ⟨hsecond.harmless_append (clean_sampleAppendIo 4) rfl, trivial⟩
  exact ⟨hfailed.returned, hlost, hthird.returned,
    failed_appends_leave_no_entry signsFor_sampleKey hreach hthird.faithful⟩

/-- A verdict of `valid` on a directory that holds `es` needs distinct sequences. -/
theorem not_valid_of_duplicate {d : Dir} {es : List AuditEntry} {seg : String → List AuditEntry}
    (h : Layout J d es seg) (hrt : ∀ e ∈ es, J.RoundTrips e)
    (hdup : ¬ (es.map AuditEntry.sequence).Nodup) (vk : VerifyingKey) {r : VerificationResult}
    (hr : verifyLogChain E J vk (.directory d) deploymentId = .ok r) : r.valid = false := by
  rw [verifyLogChain, loadEntries, h.loadFiles hrt, Except.map_ok, Except.ok_bind] at hr
  by_contra hvalid
  have hchain := (chainOk_of_valid hr (by simpa using hvalid)).1
  have hnodup : ((sortBySequence (d.logFiles.flatMap seg)).map AuditEntry.sequence).Nodup := by
    rw [hchain.map_sequence]
    exact List.nodup_range'
  have hperm : (sortBySequence (d.logFiles.flatMap seg)).Perm es :=
    (List.perm_insertionSort _ _).trans h.perm
  exact hdup ((hperm.map _).nodup_iff.1 hnodup)

/-- The append after the opening, with an fsync that fails. -/
def sampleFailing : AppendIo := { sampleAppendIo 2 with sync := some "Input/output error" }

/-- The system once an append has failed and another has succeeded. -/
def sampleForked : System :=
  (sampleOpened.step zeroEd25519 sampleJson sampleKey
    (.append (genesisEvent sampleConfig.nodeId) sampleFailing)).step zeroEd25519 sampleJson
    sampleKey (.append (genesisEvent sampleConfig.nodeId) (sampleAppendIo 3))

/-- The directory after the failed append holds its entry, and the next takes the same sequence. -/
theorem sampleForked_spec : sampleForked.returned = [sampleFirst, sampleRival] ∧
    ∃ seg, Layout sampleJson sampleForked.dir [sampleFirst, sampleSecond, sampleRival] seg := by
  obtain ⟨log, d, f, -, hs, hconfig, hrun, hholds, hatt, -⟩ := sampleOpened_spec
  have hlog : sampleOpened.log = some log := by rw [hs]
  have hdir : sampleOpened.dir = d := by rw [hs]
  obtain ⟨text2, htext2, hline2, hlen2⟩ :=
    sample_entryToString (e := sampleSecond) (by simp [sampleEntries])
  obtain ⟨text3, htext3, hline3, hlen3⟩ :=
    sample_entryToString (e := sampleRival) (by simp [sampleEntries])
  -- the failing append writes its line and leaves the log where it was
  obtain ⟨st, hst, hprep2⟩ := hatt.prepare_of_serializes (E := zeroEd25519) sampleFailing
    sample_eventToVec htext2
  obtain ⟨hbuf, hfile, -⟩ := hatt.prepare_spec hrun hprep2
  obtain ⟨err, happ2⟩ := AuditLog.append_of_sync_fails hprep2 hbuf
    (by rw [hlen2]; decide) (by rw [hconfig]; rfl) (by trivial) rfl d
  rw [← hdir] at happ2
  have hstep2 : sampleOpened.step zeroEd25519 sampleJson sampleKey
      (.append (genesisEvent sampleConfig.nodeId) sampleFailing) = _ :=
    System.step_append_error hlog happ2
  rw [hdir] at hstep2
  set s2 := sampleOpened.step zeroEd25519 sampleJson sampleKey
    (.append (genesisEvent sampleConfig.nodeId) sampleFailing) with hs2
  have hlog2 : s2.log = some log := by rw [hstep2]
  have hdir2 : s2.dir = d.append st.writer.file (lineBytes text2) := by rw [hstep2]
  -- the next append starts from the same state
  obtain ⟨st', hst', hprep3⟩ := hatt.prepare_of_serializes (E := zeroEd25519) (sampleAppendIo 3)
    sample_eventToVec htext3
  obtain rfl : st = st' := Option.some.inj (hst.symm.trans hst')
  obtain ⟨st3, d3, happ3, hres⟩ := AuditLog.append_of_completes hprep3 hbuf
    ((clean_sampleAppendIo 3).completes (by rw [hconfig]; rfl) st _) s2.dir
  have hforked : sampleForked = _ := System.step_append_ok hlog2 happ3
  refine ⟨?_, ?_⟩
  · rw [hforked, hstep2, hs]
    rfl
  · obtain ⟨seg, hlayout, -⟩ := hholds
    have h2 := hlayout.append_line hfile sampleSecond
    have h3 := h2.append_line (f := st.writer.file) (by simpa using hfile) sampleRival
    rw [← hline2, ← hline3, ← hdir2] at h3
    have hdir3 : sampleForked.dir = d3 := by rw [hforked]
    rw [hdir3]
    rcases hres.dir with ⟨heq, -⟩ | ⟨name, hname, heq, -⟩
    · rw [heq]
      exact ⟨_, h3⟩
    · rw [heq]
      obtain ⟨seg', h4, -⟩ := h3.create hname
      exact ⟨seg', h4⟩

/-- **A failed fsync breaks the chain.** The append that failed left its line in the file; the
append after it succeeds, takes the same sequence, and the directory no longer verifies. -/
theorem failed_fsync_breaks_the_chain :
    sampleForked.returned = [sampleFirst, sampleRival] ∧
      ¬ Verifies zeroEd25519 sampleJson sampleKey "deployment-1" sampleForked.dir
        sampleForked.returned ∧
      ∀ r, verifyLogChain zeroEd25519 sampleJson (sampleKey.verifyingKey zeroEd25519)
        (.directory sampleForked.dir) "deployment-1" = .ok r → r.valid = false := by
  obtain ⟨hreturned, seg, hlayout⟩ := sampleForked_spec
  have hrt : ∀ e ∈ [sampleFirst, sampleSecond, sampleRival], sampleJson.RoundTrips e := by
    intro e he
    refine (sample_faithful ?_).roundTrips
    simp only [List.mem_cons, List.not_mem_nil, or_false] at he
    rcases he with rfl | rfl | rfl <;> simp [sampleEntries]
  have hdup : ¬ ([sampleFirst, sampleSecond, sampleRival].map AuditEntry.sequence).Nodup := by
    have hseq : [sampleFirst, sampleSecond, sampleRival].map AuditEntry.sequence = [1, 2, 2] := rfl
    rw [hseq]
    decide
  have hinvalid : ∀ r, verifyLogChain zeroEd25519 sampleJson (sampleKey.verifyingKey zeroEd25519)
      (.directory sampleForked.dir) "deployment-1" = .ok r → r.valid = false := fun r hr ↦
    not_valid_of_duplicate hlayout hrt hdup _ hr
  refine ⟨hreturned, ?_, hinvalid⟩
  rintro ⟨-, r, hr, hvalid, -⟩
  rw [hinvalid r hr] at hvalid
  cases hvalid

/-! ### Runs in which the process dies -/

/-- **Crash recovery.** In every run whose crashes do not lose exactly a line feed, once a log has
been opened again the directory verifies, and every entry an append ever returned is in it. -/
theorem crash_recovery (hkey : E.SignsFor key) {s : System}
    (h : Transition.Reachable (System.step E J key) (Harmless E J key deploymentId) System.init s)
    (hfaith : ∀ e ∈ s.attempted, J.Faithful e) (hopened : s.opened = true) :
    ∃ es, Verifies E J key deploymentId s.dir es ∧ ∀ e ∈ s.returned, e ∈ es := by
  rcases reachable_inv h hfaith with ⟨es, hgood⟩ | htorn
  · exact ⟨es, hgood.verifies hkey hfaith, fun e he ↦ hgood.returned.subset he⟩
  · rw [htorn.opened] at hopened
    cases hopened

/-- The system once the process has died in the second append, `written` bytes into its line. -/
def sampleCrashed (written : ℕ) : System :=
  sampleOpened.step zeroEd25519 sampleJson sampleKey
    (.crash (genesisEvent sampleConfig.nodeId) (sampleAppendIo 2) written)

theorem sampleCrashed_spec (written : ℕ) :
    (written + 1 ≠ 524 → Harmless zeroEd25519 sampleJson sampleKey "deployment-1" sampleOpened
      (.crash (genesisEvent sampleConfig.nodeId) (sampleAppendIo 2) written)) ∧
    (sampleCrashed written).attempted = [sampleFirst, sampleSecond] ∧
    (sampleCrashed written).returned = [sampleFirst] ∧
    AppendRun zeroEd25519 sampleJson sampleKey "deployment-1" [sampleFirst] ∧
    ∃ d f, (sampleCrashed written).dir =
        { d.append f ((sampleJson.line sampleSecond).take written) with locked := false } ∧
      Holds sampleJson d [sampleFirst] ∧ d.logFiles = [f] ∧
      d.content f = sampleJson.line sampleFirst := by
  obtain ⟨log, d, f, -, hs, -, hrun, hholds, hatt, hfiles, hcontent⟩ := sampleOpened_spec
  have hlog : sampleOpened.log = some log := by rw [hs]
  obtain ⟨text, htext, hline, hlen⟩ :=
    sample_entryToString (e := sampleSecond) (by simp [sampleEntries])
  obtain ⟨st, -, hprep⟩ := hatt.prepare_of_serializes (E := zeroEd25519) (sampleAppendIo 2)
    sample_eventToVec htext
  obtain ⟨hbuf, hfile, -⟩ := hatt.prepare_spec hrun hprep
  rw [hfiles, List.mem_singleton] at hfile
  have hattempt : log.attempt zeroEd25519 sampleJson (genesisEvent sampleConfig.nodeId)
      (sampleAppendIo 2) = some sampleSecond := by rw [AuditLog.attempt, hprep]; rfl
  have hcrash : sampleCrashed written = _ := System.step_crash hlog _ _ written
  rw [AuditLog.crash_of_prepare hprep hbuf, hattempt, hfile, hline, hs] at hcrash
  refine ⟨fun hne l hl st' entry' text' hprep' ↦ ?_, by rw [hcrash]; rfl, by rw [hcrash], hrun, d,
    f, by rw [hcrash], hholds, hfiles, hcontent⟩
  rw [hlog, Option.some.injEq] at hl
  subst hl
  rw [hprep] at hprep'
  cases hprep'
  rwa [hlen]

/-- The system once a crash has lost a whole line and the directory has been opened again. -/
def sampleReopened : System :=
  (sampleCrashed 0).step zeroEd25519 sampleJson sampleKey (.openLog sampleConfig sampleOpenIo)

theorem crash_recovery_after_lost_line :
    ∃ es, Verifies zeroEd25519 sampleJson sampleKey "deployment-1" sampleReopened.dir es ∧
      sampleFirst ∈ es := by
  obtain ⟨hharm, hatt, hret, hrun, d, f, hdir, hholds, -⟩ := sampleCrashed_spec 0
  rw [List.take_zero, Dir.append_nil] at hdir
  have hholds1 : Holds sampleJson (sampleCrashed 0).dir [sampleFirst] := by
    rw [hdir]
    exact hholds.of_sameSegments (SameSegments.setLocked false)
  have hfirst : sampleFirst ∈ sampleEntries := by simp [sampleEntries]
  have hshort : ∀ e ∈ [sampleFirst], (sampleJson.line e).length ≤ block := by
    intro e he
    rw [List.mem_singleton.1 he, sampleJson, uniform_sampleEntries.length_line hfirst,
      sampleLength_eq]
    decide
  obtain ⟨log', d1, hopen, hnone, -⟩ :
      ∃ log d1, AuditLog.openLog zeroEd25519 sampleJson sampleConfig sampleKey
        (sampleCrashed 0).dir sampleOpenIo = (d1, .ok log) ∧
        openAttempt zeroEd25519 sampleJson sampleKey sampleConfig (sampleCrashed 0).dir
          sampleOpenIo = none ∧ _ :=
    openLog_of_holds sampleKey clean_sampleOpenIo (by rw [hdir]) hholds1
      (by simpa using sample_faithful hfirst) hshort hrun (by simp)
  obtain ⟨-, -, hatt', hret', hopened⟩ := System.step_openLog_resumes hopen hnone
  have hok : Harmless zeroEd25519 sampleJson sampleKey "deployment-1" (sampleCrashed 0)
      (.openLog sampleConfig sampleOpenIo) := by
    refine ⟨rfl, fun l d' hclaim _ st' entry' text' _ ↦ Or.inl ?_⟩
    exact clean_sampleOpenIo.genesis.completes
      (by rw [(AuditLog.claimAndResume_eq_some hclaim).2.1]; rfl) st' _
  have hreach : Transition.Reachable (System.step zeroEd25519 sampleJson sampleKey)
      (Harmless zeroEd25519 sampleJson sampleKey "deployment-1") System.init sampleReopened :=
    .next _ (.next _ (reachable_sampleOpened_harmless.mono fun _ _ _ ha ↦ ha.1)
      (hharm (by decide))) hok
  have hfaith : ∀ e ∈ sampleReopened.attempted, sampleJson.Faithful e := by
    intro e he
    have he : e ∈ (sampleCrashed 0).attempted := hatt' ▸ he
    rw [hatt] at he
    simp only [List.mem_cons, List.not_mem_nil, or_false] at he
    rcases he with rfl | rfl <;> exact sample_faithful (by simp [sampleEntries])
  have hfirst' : sampleFirst ∈ sampleReopened.returned := by
    rw [sampleReopened, hret', hret]
    simp
  obtain ⟨es, hver, hmem⟩ := crash_recovery signsFor_sampleKey hreach hfaith hopened
  exact ⟨es, hver, hmem _ hfirst'⟩

/-! ### The crash that loses a line feed -/

/-- **A record that lacks only its line feed is resumed from**, as if it were complete. -/
theorem findExistingLogFile_unterminated {config : LogConfig} {io : OpenIo} {d : Dir} {f : String}
    {es : List AuditEntry} {e : AuditEntry} (hio : io.Clean) (h : J.RoundTrips e)
    (hfiles : d.logFiles = [f])
    (hcontent : d.content f = segmentBytes J es ++ Utf8.encode (J.text e)) :
    findExistingLogFile J config d io = .ok (some (f, e.entryHash, e.sequence)) := by
  have hne : Utf8.encode (J.text e) ≠ [] := by
    obtain ⟨init, hinit⟩ := h.exists_bytes_eq_append_brace
    rw [hinit]
    simp
  have hread : readLastEntry J (config.path f) (d.content f) = .ok (some e) := by
    rw [hcontent, readLastEntry_unterminated _ (endsWith_segmentBytes es) hne
      h.newline_not_mem_bytes (by rw [Utf8.decodeLossy_encode]; exact h.isBlank_text),
      Utf8.decodeLossy_encode, parseLast, h.text_spec.2.1]
  simp only [findExistingLogFile, hio.readDir, hfiles, newestOf, hio.readFile, hread]
  rfl

/-- A crash adds bytes to one segment and releases the lock. -/
theorem crashed_segments (d : Dir) (f : String) (bytes : Bytes) :
    Dir.logFiles { d.append f bytes with locked := false } = d.logFiles ∧
      Dir.content { d.append f bytes with locked := false } f = d.content f ++ bytes :=
  ⟨rfl, Dir.content_append_self d f bytes⟩

/-- The system once a crash has lost exactly a line feed and the directory has been opened again. -/
def sampleResumed : System :=
  (sampleCrashed 523).step zeroEd25519 sampleJson sampleKey (.openLog sampleConfig sampleOpenIo)

/-- The log that opens stands behind the record without a line feed. -/
theorem sampleResumed_spec : ∃ log d st f, sampleResumed.log = some log ∧ sampleResumed.dir = d ∧
    sampleResumed.opened = true ∧ sampleResumed.returned = [sampleFirst] ∧
    log.config = sampleConfig ∧ log.signingKey = sampleKey ∧ log.state = some st ∧
    st.writer = ⟨f, []⟩ ∧ st.lastHash = sampleSecond.entryHash ∧ st.sequence = 2 ∧
    st.bytesWritten = (d.content f).length ∧ d.logFiles = [f] ∧ d.content f =
      segmentBytes sampleJson [sampleFirst] ++ Utf8.encode (sampleJson.text sampleSecond) := by
  obtain ⟨-, -, hret, -, d, f, hdir, -, hfiles, hcontent⟩ := sampleCrashed_spec 523
  have hsecond : sampleSecond ∈ sampleEntries := by simp [sampleEntries]
  have hcut : (sampleJson.line sampleSecond).take 523 =
      Utf8.encode (sampleJson.text sampleSecond) := by
    have hl : (sampleJson.line sampleSecond).length = 524 :=
      (uniform_sampleEntries.length_line hsecond).trans (by rw [sampleLength_eq])
    rw [AuditJson.line, List.length_append, List.length_singleton] at hl
    have htext : (Utf8.encode (sampleJson.text sampleSecond)).length = 523 := by omega
    rw [AuditJson.line, List.take_append_of_le_length htext.ge,
      List.take_of_length_le htext.le]
  rw [hcut] at hdir
  obtain ⟨hcutFiles, hcutContent⟩ :=
    crashed_segments d f (Utf8.encode (sampleJson.text sampleSecond))
  rw [← hdir] at hcutFiles hcutContent
  have hfiles1 : (sampleCrashed 523).dir.logFiles = [f] := hcutFiles.trans hfiles
  have hcontent1 : (sampleCrashed 523).dir.content f =
      segmentBytes sampleJson [sampleFirst] ++ Utf8.encode (sampleJson.text sampleSecond) := by
    rw [hcutContent, hcontent, segmentBytes_singleton]
  have hmem : f ∈ (sampleCrashed 523).dir.logFiles := by rw [hfiles1]; simp
  have hfind : ∀ d0, SameSegments (sampleCrashed 523).dir d0 →
      findExistingLogFile sampleJson sampleConfig d0 sampleOpenIo =
        .ok (some (f, sampleSecond.entryHash, sampleSecond.sequence)) := fun d0 hsame ↦
    findExistingLogFile_unterminated clean_sampleOpenIo (sample_faithful hsecond).roundTrips
      (hsame.1.trans hfiles1) ((hsame.2 f hmem).trans hcontent1)
  obtain ⟨log, d2, hclaim⟩ : ∃ log d2, AuditLog.claimAndResume sampleJson sampleConfig sampleKey
      (sampleCrashed 523).dir sampleOpenIo = some (log, d2) :=
    AuditLog.claimAndResume_of_clean clean_sampleOpenIo (by rw [hdir]) fun d0 hsame ↦
      ⟨_, hfind d0 hsame⟩
  obtain ⟨-, hconfig, hkey, d0, existing, st, hsame, -, hfound, hst, hwriter, hlast, hseq, hd2,
    hbytes⟩ := AuditLog.claimAndResume_eq_some hclaim
  rw [hfind d0 hsame, Except.ok.injEq] at hfound
  subst hfound
  simp only [Option.getD_some] at hwriter hlast hseq
  have hd2' : d2 = d0 := by
    rw [hd2, hwriter]
    exact Dir.create_of_mem (Dir.mem_logFiles.1 (by rw [hsame.1]; exact hmem)).1
  have hseq0 : log.sequence ≠ 0 := by
    rw [AuditLog.sequence, hst, Option.map_some, Option.getD_some, hseq, sampleSecond_sequence]
    decide
  obtain ⟨hopen, hnone⟩ := openLog_of_resumed (E := zeroEd25519) hclaim hseq0
  obtain ⟨hdir', hlog', -, hret', hopened'⟩ := System.step_openLog_resumes hopen hnone
  refine ⟨log, d2, st, f, hlog', hdir', hopened', hret'.trans hret, hconfig, hkey, hst, hwriter,
    hlast, hseq.trans sampleSecond_sequence, ?_, ?_, ?_⟩
  · rw [hbytes, hwriter, clean_sampleOpenIo.metadata, if_neg (by decide)]
  · rw [hd2', hsame.1, hfiles1]
  · rw [hd2', hsame.2 f hmem, hcontent1]

/-- The system once an entry has been appended after that. -/
def sampleJoined : System :=
  sampleResumed.step zeroEd25519 sampleJson sampleKey
    (.append (genesisEvent sampleConfig.nodeId) (sampleAppendIo 4))

/-- **A lost line feed breaks the log.** The directory opens again, the append after it succeeds,
and then the verifier cannot read the line that holds two records. -/
theorem lost_line_feed_breaks_the_log :
    sampleJoined.opened = true ∧ sampleJoined.returned = [sampleFirst, sampleThird] ∧
      ∃ err, verifyLogChain zeroEd25519 sampleJson (sampleKey.verifyingKey zeroEd25519)
        (.directory sampleJoined.dir) "deployment-1" = .error err := by
  obtain ⟨log, d, st, f, hlog, hdir, hopened, hret, hconfig, hkey, hst, hwriter, hlast, hseq,
    hbytes, hfiles, hcontent⟩ := sampleResumed_spec
  have hfirst : sampleFirst ∈ sampleEntries := by simp [sampleEntries]
  have hsecond : sampleSecond ∈ sampleEntries := by simp [sampleEntries]
  have hthird : sampleThird ∈ sampleEntries := by simp [sampleEntries]
  have hrt : ∀ e ∈ sampleEntries, sampleJson.RoundTrips e := fun e he ↦
    (sample_faithful he).roundTrips
  have htext : ∀ e ∈ sampleEntries, (sampleJson.text e).length = 523 := by
    intro e he
    obtain ⟨t, ht, hl, -⟩ := uniform_sampleEntries.text e he
    have htt : sampleJson.text e = t :=
      Option.some.inj ((uniform_sampleEntries.text_eq he).symm.trans ht)
    rw [htt, hl, sampleLength_eq]
  -- the append goes to the line the crash left open
  obtain ⟨text, htext3, hline, hlen⟩ := sample_entryToString hthird
  have hprep : log.prepare zeroEd25519 sampleJson (genesisEvent sampleConfig.nodeId)
      (sampleAppendIo 4) = some (st, sampleThird, text) := by
    have hseal : sealEntry zeroEd25519 sampleJson log.signingKey st.lastHash st.sequence
        (genesisEvent sampleConfig.nodeId) (sampleAppendIo 4).now (sampleAppendIo 4).logId =
          .ok sampleThird := by
      rw [hkey, hlast, hseq, sealEntry, sample_eventToVec]
      rfl
    simp only [AuditLog.prepare, hst, hseal, htext3]
  have hsize : st.bytesWritten + (lineBytes text).length < log.config.maxFileSizeBytes := by
    have h1 : (sampleJson.line sampleFirst).length = 524 :=
      (uniform_sampleEntries.length_line hfirst).trans (by rw [sampleLength_eq])
    have h2 : (sampleJson.line sampleSecond).length = 524 :=
      (uniform_sampleEntries.length_line hsecond).trans (by rw [sampleLength_eq])
    rw [AuditJson.line, List.length_append, List.length_singleton] at h2
    have h3 : (Utf8.encode (sampleJson.text sampleSecond)).length = 523 := by omega
    rw [hbytes, hcontent, segmentBytes_singleton, List.length_append, hlen, hconfig, h1, h3]
    decide
  have happ := AuditLog.append_of_not_due hprep (by rw [hwriter])
    ((clean_sampleAppendIo 4).completes (by rw [hconfig]; rfl) st _) hsize sampleResumed.dir
  rw [hwriter, hdir] at happ
  obtain ⟨hdir3, hret3, hopened3⟩ :
      sampleJoined.dir = d.append f (lineBytes text) ∧
        sampleJoined.returned = sampleResumed.returned ++ [sampleThird] ∧
        sampleJoined.opened = sampleResumed.opened :=
    System.step_append_returns hlog (by rw [hdir]; exact happ)
  refine ⟨hopened3.trans hopened, by rw [hret3, hret]; rfl, ?_⟩
  have hfiles3 : sampleJoined.dir.logFiles = [f] := by
    rw [hdir3, Dir.logFiles_append, hfiles]
  have hcontent3 : sampleJoined.dir.content f =
      segmentBytes sampleJson [sampleFirst] ++ Utf8.encode (sampleJson.text sampleSecond) ++
        sampleJson.line sampleThird := by
    rw [hdir3, Dir.content_append_self, hcontent, hline]
  obtain ⟨err, herr⟩ : ∃ err, loadEntriesFromFile sampleJson (sampleJoined.dir.content f) =
      .error err := by
    rw [hcontent3]
    refine loadEntriesFromFile_joined (by simpa using hrt _ hfirst) (hrt _ hsecond) (hrt _ hthird)
      fun e ↦ uniform_sampleEntries.entryFromStr_ne_ok ?_ e
    rw [String.toList_ofList, List.length_append, htext _ hsecond, htext _ hthird, sampleLength_eq]
    decide
  refine ⟨err, ?_⟩
  rw [verifyLogChain, loadEntries, hfiles3, loadFiles, herr]
  rfl

end Cordon
