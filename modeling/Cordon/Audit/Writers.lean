import Cordon.Audit.Agreement

/-!
# Any number of writers on one audit directory

`Audit.Runs` lets one log live on a directory at a time. Here **any number of writers** take turns
in any order, and opening a log is not one step: a writer claims the directory, then reads it, then
writes the genesis entry of a new log, and the others move, and may be killed, between any two of
these.

The bridge is a simulation. As long as one writer holds the directory, no other gets further than
asking for it, so its steps can be taken together: every step of the many writers is an action of
the one-log system, or none at all (`Refines.step`). What is proved about whole runs of one log
therefore holds of every interleaving of many, and only that: `Writers.Harmless` is the condition of
the one-log system turn by turn, without which a single writer already breaks its own chain
(`failed_fsync_breaks_the_chain`, `lost_line_feed_breaks_the_log`).

That one writer at most holds the directory is an invariant of the claim (`Refines`): the lock is
taken and given up in one step each, and a kill gives it up. Nothing is assumed about the order of
the turns, nor about how many writers there are. A writer that asks while another holds the
directory is refused, which changes nothing.
-/

namespace Cordon

open Function (update)

/-- Where a writer stands with the audit directory. -/
inductive Phase where
  | idle
  /-- The directory is claimed, and not read yet. -/
  | claimed (config : LogConfig) (io : OpenIo)
  /-- The state of a new log is set up, and its genesis entry not written. -/
  | fresh (config : LogConfig) (io : OpenIo) (log : AuditLog)
  | live (log : AuditLog)

/-- The audit directory, where each writer stands with it, and the history of both. -/
structure Writers (ι : Type*) where
  dir : Dir
  phase : ι → Phase
  /-- Entries that were sealed and serialized by an append, whatever came of it. -/
  attempted : List AuditEntry
  /-- Entries that an append returned. -/
  returned : List AuditEntry
  /-- A writer was killed with an entry under way. -/
  crashed : Bool

/-- A new, empty directory that nobody writes to. -/
def Writers.init (ι : Type*) : Writers ι where
  dir := Dir.empty
  phase := fun _ ↦ .idle
  attempted := []
  returned := []
  crashed := false

/-- What one writer does when it gets a turn. -/
inductive Turn where
  | claim (config : LogConfig) (io : OpenIo)
  | resume
  | writeGenesis
  | append (event : AuditEvent) (io : AppendIo)
  | drop (flush : WriteOutcome)
  /-- The writer is killed outside an append, or `written` bytes into its genesis entry. -/
  | kill (written : ℕ)
  /-- The writer is killed in an append that has got `written` bytes onto the disk. -/
  | killAppending (event : AuditEvent) (io : AppendIo) (written : ℕ)
  /-- The writer is killed when an append has done all its work and not yet returned. -/
  | killReturning (event : AuditEvent) (io : AppendIo)

variable {ι : Type*} [DecidableEq ι]

section Step

variable (E : Ed25519) (J : AuditJson) (key : SigningKey)

/-- A writer without a log asks for the directory. -/
def Writers.claim (w : Writers ι) (i : ι) (config : LogConfig) (io : OpenIo) : Writers ι :=
  match io.createDir with
  | some _ => w
  | none =>
    match acquireWriterLock config w.dir io with
    | (d, .error _) => { w with dir := d }
    | (d, .ok ()) => { w with dir := d, phase := update w.phase i (.claimed config io) }

/-- The writer that holds the directory reads it. -/
def Writers.resume (w : Writers ι) (i : ι) (config : LogConfig) (io : OpenIo) : Writers ι :=
  match (AuditLog.mk config key none).resume J w.dir io with
  | (log, d, .error _) =>
    { w with dir := log.drop d io.dropFlush, phase := update w.phase i .idle }
  | (log, d, .ok ()) =>
    { w with
      dir := d
      phase := update w.phase i (if log.sequence = 0 then .fresh config io log else .live log) }

/-- The writer of a new log writes its genesis entry. -/
def Writers.writeGenesis (w : Writers ι) (i : ι) (io : OpenIo) (log : AuditLog) : Writers ι :=
  let attempt := (log.attempt E J (genesisEvent log.config.nodeId) io.genesis).toList
  match log.writeGenesis E J w.dir io.genesis with
  | (log, d, .error _) =>
    { w with
      dir := log.drop d io.dropFlush, phase := update w.phase i .idle
      attempted := w.attempted ++ attempt }
  | (log, d, .ok _) =>
    { w with
      dir := d, phase := update w.phase i (.live log), attempted := w.attempted ++ attempt
      returned := w.returned ++ attempt }

/-- A writer with a log appends to it. -/
def Writers.append (w : Writers ι) (i : ι) (log : AuditLog) (event : AuditEvent) (io : AppendIo) :
    Writers ι :=
  let attempt := (log.attempt E J event io).toList
  match log.append E J w.dir event io with
  | (log, d, .ok e) =>
    { w with
      dir := d, phase := update w.phase i (.live log), attempted := w.attempted ++ attempt
      returned := w.returned ++ [e] }
  | (log, d, .error _) =>
    { w with
      dir := d, phase := update w.phase i (.live log), attempted := w.attempted ++ attempt }

/-- The directory a writer leaves behind when it goes, and with it its lock. -/
def Writers.leave (w : Writers ι) (i : ι) (d : Dir) : Writers ι :=
  { w with dir := { d with locked := false }, phase := update w.phase i .idle }

/-- A writer is killed with the entry `e` under way, which leaves the directory `d` behind. -/
def Writers.die (w : Writers ι) (i : ι) (d : Dir) (e : Option AuditEntry) : Writers ι :=
  { w with
    dir := { d with locked := false }, phase := update w.phase i .idle
    attempted := w.attempted ++ e.toList, crashed := true }

/-- What a turn of the writer `i` makes of the system. A turn its phase does not allow does
nothing. -/
def Writers.step (w : Writers ι) (a : ι × Turn) : Writers ι :=
  match w.phase a.1 with
  | .idle =>
    match a.2 with
    | .claim config io => w.claim a.1 config io
    | _ => w
  | .claimed config io =>
    match a.2 with
    | .resume => w.resume J key a.1 config io
    | .kill _ => w.leave a.1 w.dir
    | _ => w
  | .fresh _ io log =>
    match a.2 with
    | .writeGenesis => w.writeGenesis E J a.1 io log
    | .kill written =>
      let event := genesisEvent log.config.nodeId
      w.die a.1 (log.crash E J w.dir event io.genesis written) (log.attempt E J event io.genesis)
    | _ => w
  | .live log =>
    match a.2 with
    | .append event io => w.append E J a.1 log event io
    | .drop flush => w.leave a.1 (log.drop w.dir flush)
    | .kill _ => w.leave a.1 w.dir
    | .killAppending event io written =>
      w.die a.1 (log.crash E J w.dir event io written) (log.attempt E J event io)
    | .killReturning event io =>
      w.die a.1 (log.append E J w.dir event io).2.1 (log.attempt E J event io)
    | _ => w

/-- The turns under which the directory stays a log: every writer has the same deployment, every
append is all or nothing, and no writer is killed right before a line feed. -/
def Writers.Harmless (deploymentId : String) (w : Writers ι) (a : ι × Turn) : Prop :=
  match w.phase a.1, a.2 with
  | .idle, .claim config _ => config.deploymentId = deploymentId
  | .fresh _ io log, .writeGenesis =>
    log.AppendsHarmlessly E J (genesisEvent log.config.nodeId) io.genesis
  | .fresh _ io log, .kill written =>
    log.CrashesHarmlessly E J (genesisEvent log.config.nodeId) io.genesis written
  | .live log, .append event io | .live log, .killReturning event io =>
    log.AppendsHarmlessly E J event io
  | .live log, .killAppending event io written => log.CrashesHarmlessly E J event io written
  | _, _ => True

end Step

/-! ### The lock -/

theorem writeFile_locked (d : Dir) (file : String) (bytes : Bytes) (o : WriteOutcome) :
    (writeFile d file bytes o).1.locked = d.locked := by
  cases o with
  | done => rfl
  | fails written reason =>
    simp only [writeFile]
    split_ifs <;> rfl

theorem BufWriter.flush_locked (w : BufWriter) (d : Dir) (o : WriteOutcome) :
    (w.flush d o).2.1.locked = d.locked :=
  writeFile_locked d w.file w.buf o

theorem BufWriter.writeAll_locked (w : BufWriter) (d : Dir) (bytes : Bytes)
    (drain direct : WriteOutcome) : (w.writeAll d bytes drain direct).2.1.locked = d.locked := by
  have hdrained : (if capacity - w.buf.length < bytes.length then w.flush d drain
      else (w, d, .ok ())).2.1.locked = d.locked := by
    split_ifs
    · exact w.flush_locked d drain
    · rfl
  rw [writeAll]
  generalize (if capacity - w.buf.length < bytes.length then w.flush d drain
    else (w, d, .ok ())) = drained at hdrained ⊢
  obtain ⟨w', d', e | ⟨⟩⟩ := drained
  · dsimp only
    split_ifs
    · rfl
    · exact hdrained
  · dsimp only
    split_ifs
    · rfl
    · exact (writeFile_locked d' w'.file bytes direct).trans hdrained
    · exact hdrained

theorem persistLine_locked (config : LogConfig) (w : BufWriter) (d : Dir) (bytes : Bytes)
    (io : AppendIo) : (persistLine config w d bytes io).2.1.locked = d.locked := by
  have hwrite := w.writeAll_locked d bytes io.drain io.direct
  unfold persistLine
  obtain ⟨⟨w', d', r⟩, hw⟩ : ∃ p, w.writeAll d bytes io.drain io.direct = p := ⟨_, rfl⟩
  rw [hw] at hwrite ⊢
  rcases r with e | ⟨⟩
  · exact hwrite
  · have hflush := w'.flush_locked d' io.flush
    obtain ⟨⟨w'', d'', r'⟩, hf⟩ : ∃ p, w'.flush d' io.flush = p := ⟨_, rfl⟩
    rw [hf] at hflush
    dsimp only
    split_ifs
    · rw [hf]
      rcases r' with e | ⟨⟩
      · exact hflush.trans hwrite
      · cases io.sync <;> exact hflush.trans hwrite
    · exact hwrite

theorem rotateLogFile_locked (config : LogConfig) (s : LogState) (d : Dir) (io : RotateIo) :
    (rotateLogFile config s d io).2.1.locked = d.locked := by
  have hflush := s.writer.flush_locked d io.flush
  unfold rotateLogFile
  obtain ⟨⟨w, d', r⟩, hf⟩ : ∃ p, s.writer.flush d io.flush = p := ⟨_, rfl⟩
  rw [hf] at hflush ⊢
  rcases r with e | ⟨⟩
  · exact hflush
  · cases hopen : io.openFile with
    | some e => simpa only [openLogFile, hopen] using hflush
    | none => simpa only [openLogFile, hopen, Dir.create_locked] using hflush

/-- An append neither takes nor gives back the lock. -/
theorem AuditLog.append_locked (E : Ed25519) (J : AuditJson) (log : AuditLog) (d : Dir)
    (event : AuditEvent) (io : AppendIo) :
    (log.append E J d event io).2.1.locked = d.locked := by
  unfold AuditLog.append
  split
  · rfl
  next s hs =>
    split
    · rfl
    next entry hseal =>
      split
      · rfl
      next text htext =>
        have hpersist := persistLine_locked log.config s.writer d (lineBytes text) io
        obtain ⟨⟨w, d', r⟩, hp⟩ :
          ∃ p, persistLine log.config s.writer d (lineBytes text) io = p := ⟨_, rfl⟩
        rw [hp] at hpersist
        simp only [hp]
        rcases r with e | ⟨⟩
        · exact hpersist
        · have hrot := rotateLogFile_locked log.config (s.commit w (lineBytes text) entry) d'
            io.rotate
          obtain ⟨⟨s', d'', r'⟩, hr⟩ : ∃ p, rotateLogFile log.config
            (s.commit w (lineBytes text) entry) d' io.rotate = p := ⟨_, rfl⟩
          rw [hr] at hrot
          dsimp only
          split_ifs
          · rw [hr]
            rcases r' with e | ⟨⟩ <;> exact hrot.trans hpersist
          · exact hpersist

section Claims

variable {config : LogConfig} {io : OpenIo} {d d' : Dir}

theorem Dir.mem_names_create_of_mem {d : Dir} {name : String} (h : name ∈ d.names)
    (other : String) : name ∈ (d.create other).names := by
  unfold Dir.create
  split_ifs
  · exact h
  · exact List.mem_append_left _ h

/-- A claim that is granted takes the lock of a free directory. -/
theorem acquireWriterLock_of_ok (h : acquireWriterLock config d io = (d', .ok ())) :
    d.locked = false ∧ d'.locked = true ∧ writerLock ∈ d'.names := by
  obtain ⟨-, hspec⟩ := acquireWriterLock_spec config d io
  have hnames : writerLock ∈ (acquireWriterLock config d io).1.names := by
    have hmem := Dir.mem_names_create d writerLock
    simp only [acquireWriterLock] at h ⊢
    split at h
    · cases h
    split at h
    · cases h
    split_ifs at h ⊢
    · cases h
    · exact hmem
    · exact Dir.mem_names_create_of_mem hmem _
  rw [h] at hspec hnames
  rcases hspec with ⟨-, hfree, hlocked⟩ | ⟨⟨e, he⟩, -⟩
  · exact ⟨hfree, hlocked, hnames⟩
  · cases he

/-- A claim that is refused changes nothing where the lock file exists. -/
theorem acquireWriterLock_of_error {e : AuditError} (hmem : writerLock ∈ d.names)
    (h : acquireWriterLock config d io = (d', .error e)) : d' = d := by
  simp only [acquireWriterLock, Dir.create_of_mem hmem] at h
  split at h
  · cases h
    rfl
  split at h
  · cases h
    rfl
  split_ifs at h <;> cases h
  rfl

/-- Reading the directory fails with nothing changed, or opens a segment. -/
theorem AuditLog.resume_eq (log : AuditLog) (d : Dir) (io : OpenIo) {log' : AuditLog}
    {r : Except AuditError Unit} {J : AuditJson} (h : log.resume J d io = (log', d', r)) :
    (log' = log ∧ d' = d ∧ ∃ e, r = .error e) ∨ (r = .ok () ∧ ∃ name, d' = d.create name) := by
  unfold AuditLog.resume at h
  split at h
  · cases h
    exact Or.inl ⟨rfl, rfl, _, rfl⟩
  · cases hopen : io.openFile with
    | some e =>
      simp only [openLogFile, hopen] at h
      cases h
      exact Or.inl ⟨rfl, rfl, _, rfl⟩
    | none =>
      simp only [openLogFile, hopen] at h
      cases h
      exact Or.inr ⟨rfl, _, rfl⟩

/-- A write that fails before its first byte writes nothing. -/
theorem writeFile_fails_zero (d : Dir) (file : String) (bytes : Bytes) (reason : String) :
    (writeFile d file bytes (.fails 0 reason)).1 = d := by
  simp only [writeFile]
  split_ifs with hpos
  · exact Dir.append_nil d file
  · rw [List.length_eq_zero_iff.1 (Nat.eq_zero_of_not_pos hpos)]
    exact Dir.append_nil d file

/-- A log that goes without draining its buffer only releases the directory. -/
theorem AuditLog.drop_undrained (log : AuditLog) (d : Dir) :
    log.drop d (.fails 0 "") = { d with locked := false } := by
  unfold AuditLog.drop
  split
  · rfl
  · next s _ =>
    exact congrArg (fun d : Dir ↦ { d with locked := false })
      (writeFile_fails_zero d s.writer.file s.writer.buf "")

theorem AuditLog.drop_unlocked (log : AuditLog) (d : Dir) (o : WriteOutcome) :
    { log.drop d o with locked := false } = log.drop d o := by
  unfold AuditLog.drop
  split <;> rfl

theorem AuditLog.crash_unlocked (E : Ed25519) (J : AuditJson) (log : AuditLog) (d : Dir)
    (event : AuditEvent) (io : AppendIo) (written : ℕ) :
    { log.crash E J d event io written with locked := false } =
      log.crash E J d event io written := by
  unfold AuditLog.crash
  split <;> rfl

end Claims

/-! ### The simulation -/

section Simulation

variable {E : Ed25519} {J : AuditJson} {key : SigningKey} {deploymentId : String}

/-- How the writer that holds the directory `d` stands to the one-log system: until its log is open,
the system has not seen the directory claimed. -/
def Stands (J : AuditJson) (key : SigningKey) (deploymentId : String) (s : System) (d : Dir) :
    Phase → Prop
  | .idle => False
  | .claimed config io => config.deploymentId = deploymentId ∧ io.createDir = none ∧
      s.log = none ∧ acquireWriterLock config s.dir io = (d, .ok ())
  | .fresh config io log => config.deploymentId = deploymentId ∧ writerLock ∈ d.names ∧
      s.log = none ∧ AuditLog.claimAndResume J config key s.dir io = some (log, d) ∧
      log.sequence = 0
  | .live log => s.log = some log ∧ s.dir = d

/-- The writers do what the one-log system does: nobody holds the directory, or one writer does and
all others are idle. -/
structure Refines (J : AuditJson) (key : SigningKey) (deploymentId : String) (w : Writers ι)
    (s : System) : Prop where
  attempted : s.attempted = w.attempted
  returned : s.returned = w.returned
  crashed : s.crashed = w.crashed
  holder : (w.dir.locked = false ∧ s.log = none ∧ s.dir = w.dir ∧ ∀ i, w.phase i = .idle) ∨
    ∃ i, w.dir.locked = true ∧ Stands J key deploymentId s w.dir (w.phase i) ∧
      ∀ j, j ≠ i → w.phase j = .idle

omit [DecidableEq ι] in
theorem refines_init : Refines J key deploymentId (Writers.init ι) System.init where
  attempted := rfl
  returned := rfl
  crashed := rfl
  holder := Or.inl ⟨rfl, rfl, rfl, fun _ ↦ rfl⟩

namespace Refines

variable {w : Writers ι} {s : System} {i : ι} {config : LogConfig} {io : OpenIo} {d : Dir}
  {e : AuditError}

/-- A writer that is not idle is the one that holds the directory. -/
theorem of_active (h : Refines J key deploymentId w s) (hi : w.phase i ≠ .idle) :
    w.dir.locked = true ∧ Stands J key deploymentId s w.dir (w.phase i) ∧
      ∀ j, j ≠ i → w.phase j = .idle := by
  rcases h.holder with ⟨-, -, -, hidle⟩ | ⟨k, hlocked, hstands, hothers⟩
  · exact absurd (hidle i) hi
  · obtain rfl : i = k := by
      by_contra hne
      exact hi (hothers i hne)
    exact ⟨hlocked, hstands, hothers⟩

/-- The holder moves on, and keeps the directory. -/
theorem keep {w' : Writers ι} {s' : System} {p : Phase}
    (hothers : ∀ j, j ≠ i → w.phase j = .idle) (hphase : w'.phase = update w.phase i p)
    (hlocked : w'.dir.locked = true) (hstands : Stands J key deploymentId s' w'.dir p)
    (hattempted : s'.attempted = w'.attempted) (hreturned : s'.returned = w'.returned)
    (hcrashed : s'.crashed = w'.crashed) : Refines J key deploymentId w' s' where
  attempted := hattempted
  returned := hreturned
  crashed := hcrashed
  holder := Or.inr ⟨i, hlocked, by rwa [hphase, Function.update_self], fun j hj ↦ by
    rw [hphase, Function.update_of_ne hj, hothers j hj]⟩

/-- The holder goes, and the directory is free. -/
theorem release {w' : Writers ι} {s' : System} (hothers : ∀ j, j ≠ i → w.phase j = .idle)
    (hphase : w'.phase = update w.phase i .idle) (hlocked : w'.dir.locked = false)
    (hlog : s'.log = none) (hdir : s'.dir = w'.dir)
    (hattempted : s'.attempted = w'.attempted) (hreturned : s'.returned = w'.returned)
    (hcrashed : s'.crashed = w'.crashed) : Refines J key deploymentId w' s' where
  attempted := hattempted
  returned := hreturned
  crashed := hcrashed
  holder := by
    refine Or.inl ⟨hlocked, hlog, hdir, fun j ↦ ?_⟩
    rcases eq_or_ne j i with rfl | hj
    · rw [hphase, Function.update_self]
    · rw [hphase, Function.update_of_ne hj, hothers j hj]

/-- The one-log system sees a log that is refused, or that fails before its genesis decision. -/
theorem openLog_refused (hdep : config.deploymentId = deploymentId)
    (hclaim : AuditLog.claimAndResume J config key s.dir io = none)
    (hopen : AuditLog.openLog E J config key s.dir io = (d, .error e)) :
    Harmless E J key deploymentId s (.openLog config io) ∧
      s.step E J key (.openLog config io) = { s with dir := d } := by
  refine ⟨⟨hdep, fun log d' h ↦ ?_⟩, ?_⟩
  · rw [hclaim] at h
    cases h
  · simp only [System.step, openAttempt, hclaim, hopen, Option.toList_none, List.append_nil]

/-- **A claim**: it is granted on a free directory, and refused on one that is held. -/
theorem claim (h : Refines J key deploymentId w s) (hdep : config.deploymentId = deploymentId) :
    Refines J key deploymentId (w.claim i config io) s ∨
      ∃ b, Harmless E J key deploymentId s b ∧
        Refines J key deploymentId (w.claim i config io) (s.step E J key b) := by
  unfold Writers.claim
  cases hdir : io.createDir with
  | some e => exact Or.inl h
  | none =>
    obtain ⟨⟨d, r⟩, hacq⟩ : ∃ p, acquireWriterLock config w.dir io = p := ⟨_, rfl⟩
    simp only [hacq]
    rcases r with e | ⟨⟩
    · -- refused: the one-log system opens a log and fails, unless it has yet to see the holder
      obtain ⟨-, ⟨hok, -⟩ | ⟨-, hsame⟩⟩ := acquireWriterLock_spec config w.dir io
      · rw [hacq] at hok
        cases hok
      rw [hacq] at hsame
      dsimp only at hsame ⊢
      have hseen (heq : s.dir = w.dir) : Harmless E J key deploymentId s (.openLog config io) ∧
          s.step E J key (.openLog config io) = { s with dir := d } := by
        refine openLog_refused (e := e) hdep ?_ ?_
        · rw [AuditLog.claimAndResume, heq]
          simp only [hdir, hacq]
        · rw [AuditLog.openLog, heq]
          simp only [hdir, hacq]
      rcases h.holder with ⟨hfree, hlog, heq, hidle⟩ | ⟨k, hlocked, hstands, hothers⟩
      · obtain ⟨hharm, hstep⟩ := hseen heq
        refine Or.inr ⟨_, hharm, ?_⟩
        rw [hstep]
        exact ⟨h.attempted, h.returned, h.crashed, Or.inl ⟨hsame.trans hfree, hlog, rfl, hidle⟩⟩
      · cases hk : w.phase k with
        | idle =>
          rw [hk] at hstands
          exact hstands.elim
        | claimed config' io' =>
          left
          rw [hk] at hstands
          have hmem := (acquireWriterLock_of_ok hstands.2.2.2).2.2
          rw [acquireWriterLock_of_error hmem hacq]
          exact h
        | fresh config' io' log =>
          left
          rw [hk] at hstands
          rw [acquireWriterLock_of_error hstands.2.1 hacq]
          exact h
        | live log =>
          rw [hk] at hstands
          obtain ⟨hharm, hstep⟩ := hseen hstands.2
          refine Or.inr ⟨_, hharm, ?_⟩
          rw [hstep]
          refine ⟨h.attempted, h.returned, h.crashed, Or.inr ⟨k, hsame.trans hlocked, ?_, hothers⟩⟩
          show Stands J key deploymentId _ d (w.phase k)
          rw [hk]
          exact ⟨hstands.1, rfl⟩
    · -- granted: nobody holds the directory, and the one-log system sees nothing yet
      obtain ⟨hfree, hlocked, -⟩ := acquireWriterLock_of_ok hacq
      rcases h.holder with ⟨-, hlog, heq, hidle⟩ | ⟨k, hheld, -, -⟩
      · left
        refine keep (fun j _ ↦ hidle j) rfl hlocked ⟨hdep, hdir, hlog, ?_⟩ h.attempted h.returned
          h.crashed
        rw [heq]
        exact hacq
      · rw [hfree] at hheld
        cases hheld

/-- **Reading the directory**: a log is open, or has a genesis entry to write, or the directory is
given back. -/
theorem resume (h : Refines J key deploymentId w s) (hi : w.phase i = .claimed config io) :
    Refines J key deploymentId (w.resume J key i config io) s ∨
      ∃ b, Harmless E J key deploymentId s b ∧
        Refines J key deploymentId (w.resume J key i config io) (s.step E J key b) := by
  obtain ⟨hlocked, hstands, hothers⟩ := h.of_active (i := i) (by simp [hi])
  rw [hi] at hstands
  obtain ⟨hdep, hdir, hlog, hacq⟩ := hstands
  obtain ⟨⟨log, d, r⟩, hres⟩ :
    ∃ p, (AuditLog.mk config key none).resume J w.dir io = p := ⟨_, rfl⟩
  unfold Writers.resume
  simp only [hres]
  rcases AuditLog.resume_eq _ _ _ hres with ⟨rfl, rfl, e, rfl⟩ | ⟨rfl, name, rfl⟩
  · have hclaim : AuditLog.claimAndResume J config key s.dir io = none := by
      rw [AuditLog.claimAndResume]
      simp only [hdir, hacq, hres]
    have hopen : AuditLog.openLog E J config key s.dir io =
        ((AuditLog.mk config key none).drop w.dir io.dropFlush, .error e) := by
      rw [AuditLog.openLog]
      simp only [hdir, hacq, AuditLog.initLog, hres]
    obtain ⟨hharm, hstep⟩ := openLog_refused hdep hclaim hopen
    refine Or.inr ⟨_, hharm, ?_⟩
    rw [hstep]
    exact release hothers rfl rfl hlog rfl h.attempted h.returned h.crashed
  · have hclaim : AuditLog.claimAndResume J config key s.dir io =
        some (log, w.dir.create name) := by
      rw [AuditLog.claimAndResume]
      simp only [hdir, hacq, hres]
    have hheld : (w.dir.create name).locked = true := (Dir.create_locked _ _).trans hlocked
    dsimp only
    by_cases hzero : log.sequence = 0
    · left
      rw [if_pos hzero]
      have hmem := Dir.mem_names_create_of_mem (acquireWriterLock_of_ok hacq).2.2 name
      exact keep hothers rfl hheld ⟨hdep, hmem, hlog, hclaim, hzero⟩ h.attempted h.returned
        h.crashed
    · right
      rw [if_neg hzero]
      obtain ⟨hopen, hnone⟩ := openLog_of_resumed (E := E) hclaim hzero
      refine ⟨.openLog config io, ⟨hdep, fun log' d' h' hzero' ↦ ?_⟩, ?_⟩
      · rw [hclaim] at h'
        cases h'
        exact absurd hzero' hzero
      · rw [System.step_openLog_ok hopen, hnone, Option.toList_none, List.append_nil,
          List.append_nil]
        exact keep hothers rfl hheld ⟨rfl, rfl⟩ h.attempted h.returned h.crashed

/-- **A kill before the directory is read** is, to the one-log system, an opening that could not
read the directory. -/
theorem killClaimed (h : Refines J key deploymentId w s) (hi : w.phase i = .claimed config io) :
    ∃ b, Harmless E J key deploymentId s b ∧
      Refines J key deploymentId (w.leave i w.dir) (s.step E J key b) := by
  obtain ⟨hlocked, hstands, hothers⟩ := h.of_active (i := i) (by simp [hi])
  rw [hi] at hstands
  obtain ⟨hdep, hdir, hlog, hacq⟩ := hstands
  let unreadable : OpenIo := { io with readDir := some "" }
  have hres : (AuditLog.mk config key none).resume J w.dir unreadable =
      (AuditLog.mk config key none, w.dir, .error (.ioError "")) := rfl
  have hdir' : unreadable.createDir = none := hdir
  have hacq' : acquireWriterLock config s.dir unreadable = (w.dir, .ok ()) := hacq
  have hclaim : AuditLog.claimAndResume J config key s.dir unreadable = none := by
    rw [AuditLog.claimAndResume]
    simp only [hdir', hacq', hres]
  have hopen : AuditLog.openLog E J config key s.dir unreadable =
      ({ w.dir with locked := false }, .error (.ioError "")) := by
    rw [AuditLog.openLog]
    simp only [hdir', hacq', AuditLog.initLog, hres, AuditLog.drop]
  obtain ⟨hharm, hstep⟩ := openLog_refused hdep hclaim hopen
  refine ⟨_, hharm, ?_⟩
  rw [hstep]
  exact release hothers rfl rfl hlog rfl h.attempted h.returned h.crashed

/-- **The genesis entry**: the log is open, or the directory is given back. -/
theorem writeGenesis {log : AuditLog} (h : Refines J key deploymentId w s)
    (hi : w.phase i = .fresh config io log)
    (hharm : log.AppendsHarmlessly E J (genesisEvent log.config.nodeId) io.genesis) :
    ∃ b, Harmless E J key deploymentId s b ∧
      Refines J key deploymentId (w.writeGenesis E J i io log) (s.step E J key b) := by
  obtain ⟨hlocked, hstands, hothers⟩ := h.of_active (i := i) (by simp [hi])
  rw [hi] at hstands
  obtain ⟨hdep, -, hlog, hclaim, hzero⟩ := hstands
  have hattempt : openAttempt E J key config s.dir io =
      log.attempt E J (genesisEvent log.config.nodeId) io.genesis := by
    simp only [openAttempt, hclaim, if_pos hzero]
  have hopen := AuditLog.openLog_of_some (E := E) hclaim
  rw [if_pos hzero] at hopen
  refine ⟨.openLog config io, ⟨hdep, fun log' d' h' _ ↦ ?_⟩, ?_⟩
  · rw [hclaim] at h'
    cases h'
    exact hharm
  have hheld := log.append_locked E J w.dir (genesisEvent log.config.nodeId) io.genesis
  obtain ⟨⟨log', d', r⟩, hgen⟩ : ∃ p, log.writeGenesis E J w.dir io.genesis = p := ⟨_, rfl⟩
  rw [← AuditLog.writeGenesis, hgen, hlocked] at hheld
  rw [hgen] at hopen
  unfold Writers.writeGenesis
  rw [hgen]
  rcases r with e | entry
  · have hstep : s.step E J key (.openLog config io) = { s with
        dir := log'.drop d' io.dropFlush
        attempted := s.attempted ++ (openAttempt E J key config s.dir io).toList } := by
      simp only [System.step, hopen]
    rw [hstep, hattempt, h.attempted]
    refine release hothers rfl ?_ hlog rfl rfl h.returned h.crashed
    show (log'.drop d' io.dropFlush).locked = false
    unfold AuditLog.drop
    split <;> rfl
  · rw [System.step_openLog_ok hopen, hattempt, h.attempted, h.returned]
    exact keep hothers rfl hheld ⟨rfl, rfl⟩ rfl rfl h.crashed

/-- **A kill in the genesis entry.** -/
theorem killFresh {log : AuditLog} {written : ℕ} (h : Refines J key deploymentId w s)
    (hi : w.phase i = .fresh config io log)
    (hharm : log.CrashesHarmlessly E J (genesisEvent log.config.nodeId) io.genesis written) :
    ∃ b, Harmless E J key deploymentId s b ∧
      Refines J key deploymentId
        (w.die i (log.crash E J w.dir (genesisEvent log.config.nodeId) io.genesis written)
          (log.attempt E J (genesisEvent log.config.nodeId) io.genesis)) (s.step E J key b) := by
  obtain ⟨-, hstands, hothers⟩ := h.of_active (i := i) (by simp [hi])
  rw [hi] at hstands
  obtain ⟨hdep, -, -, hclaim, hzero⟩ := hstands
  refine ⟨.crashOpening config io written, ⟨hdep, fun log' d' h' _ ↦ ?_⟩, ?_⟩
  · rw [hclaim] at h'
    cases h'
    exact hharm
  · simp only [System.step, openAttempt, hclaim, if_pos hzero, h.attempted]
    refine release hothers rfl rfl rfl ?_ rfl h.returned rfl
    exact (AuditLog.crash_unlocked _ _ _ _ _ _ _).symm

section Live

variable {log : AuditLog} {event : AuditEvent} {aio : AppendIo}
  (h : Refines J key deploymentId w s) (hi : w.phase i = .live log)

include h hi

/-- A live log is the one-log system's. -/
theorem of_live : s.log = some log ∧ s.dir = w.dir ∧ w.dir.locked = true ∧
    ∀ j, j ≠ i → w.phase j = .idle := by
  obtain ⟨hlocked, hstands, hothers⟩ := h.of_active (i := i) (by simp [hi])
  rw [hi] at hstands
  exact ⟨hstands.1, hstands.2, hlocked, hothers⟩

/-- **An append.** -/
theorem append (hharm : log.AppendsHarmlessly E J event aio) :
    ∃ b, Harmless E J key deploymentId s b ∧
      Refines J key deploymentId (w.append E J i log event aio) (s.step E J key b) := by
  obtain ⟨hlog, hdir, hlocked, hothers⟩ := h.of_live hi
  refine ⟨.append event aio, fun log' h' ↦ ?_, ?_⟩
  · rw [hlog] at h'
    cases h'
    exact hharm
  have hheld := log.append_locked E J w.dir event aio
  obtain ⟨⟨log', d', r⟩, happ⟩ : ∃ p, log.append E J w.dir event aio = p := ⟨_, rfl⟩
  rw [happ, hlocked] at hheld
  unfold Writers.append
  rw [happ]
  rw [← hdir] at happ
  rcases r with e | entry
  · rw [System.step_append_error hlog happ, h.attempted]
    exact keep hothers rfl hheld ⟨rfl, rfl⟩ rfl h.returned h.crashed
  · rw [System.step_append_ok hlog happ, h.attempted, h.returned]
    exact keep hothers rfl hheld ⟨rfl, rfl⟩ rfl rfl h.crashed

/-- **Dropping the log.** -/
theorem drop (flush : WriteOutcome) :
    ∃ b, Harmless E J key deploymentId s b ∧
      Refines J key deploymentId (w.leave i (log.drop w.dir flush)) (s.step E J key b) := by
  obtain ⟨hlog, hdir, -, hothers⟩ := h.of_live hi
  refine ⟨.drop flush, True.intro, ?_⟩
  simp only [System.step, hlog, hdir]
  refine release hothers rfl rfl rfl ?_ h.attempted h.returned h.crashed
  exact (AuditLog.drop_unlocked _ _ _).symm

/-- **A kill between appends** is, to the one-log system, a drop that drains nothing. -/
theorem killLive : ∃ b, Harmless E J key deploymentId s b ∧
    Refines J key deploymentId (w.leave i w.dir) (s.step E J key b) := by
  obtain ⟨b, hharm, hrel⟩ := h.drop (E := E) hi (.fails 0 "")
  refine ⟨b, hharm, ?_⟩
  rw [AuditLog.drop_undrained] at hrel
  exact hrel

/-- **A kill in an append.** -/
theorem killAppending {written : ℕ} (hharm : log.CrashesHarmlessly E J event aio written) :
    ∃ b, Harmless E J key deploymentId s b ∧
      Refines J key deploymentId
        (w.die i (log.crash E J w.dir event aio written) (log.attempt E J event aio))
        (s.step E J key b) := by
  obtain ⟨hlog, hdir, -, hothers⟩ := h.of_live hi
  refine ⟨.crash event aio written, fun log' h' ↦ ?_, ?_⟩
  · rw [hlog] at h'
    cases h'
    exact hharm
  · rw [System.step_crash hlog, h.attempted, hdir]
    refine release hothers rfl rfl rfl ?_ rfl h.returned rfl
    exact (AuditLog.crash_unlocked _ _ _ _ _ _ _).symm

/-- **A kill after an append**, of which nobody was told. -/
theorem killReturning (hharm : log.AppendsHarmlessly E J event aio) :
    ∃ b, Harmless E J key deploymentId s b ∧
      Refines J key deploymentId
        (w.die i (log.append E J w.dir event aio).2.1 (log.attempt E J event aio))
        (s.step E J key b) := by
  obtain ⟨hlog, hdir, -, hothers⟩ := h.of_live hi
  refine ⟨.crashAfter event aio, fun log' h' ↦ ?_, ?_⟩
  · rw [hlog] at h'
    cases h'
    exact hharm
  · simp only [System.step, hlog, h.attempted, hdir]
    exact release hothers rfl rfl rfl rfl rfl h.returned rfl

end Live

/-- **Every turn of a writer is an action of the one-log system, or none.** -/
theorem step (h : Refines J key deploymentId w s) {a : ι × Turn}
    (hok : w.Harmless E J deploymentId a) :
    Refines J key deploymentId (w.step E J key a) s ∨
      ∃ b, Harmless E J key deploymentId s b ∧
        Refines J key deploymentId (w.step E J key a) (s.step E J key b) := by
  obtain ⟨i, turn⟩ := a
  unfold Writers.Harmless at hok
  unfold Writers.step
  cases hi : w.phase i with
  | idle =>
    simp only [hi] at hok ⊢
    cases turn with
    | claim config io => exact h.claim hok
    | resume | writeGenesis | append | drop | kill | killAppending | killReturning =>
      exact Or.inl h
  | claimed config io =>
    cases turn with
    | resume => exact h.resume hi
    | kill written => exact Or.inr (h.killClaimed hi)
    | claim | writeGenesis | append | drop | killAppending | killReturning => exact Or.inl h
  | fresh config io log =>
    simp only [hi] at hok ⊢
    cases turn with
    | writeGenesis => exact Or.inr (h.writeGenesis hi hok)
    | kill written => exact Or.inr (h.killFresh hi hok)
    | claim | resume | append | drop | killAppending | killReturning => exact Or.inl h
  | live log =>
    simp only [hi] at hok ⊢
    cases turn with
    | append event io => exact Or.inr (h.append hi hok)
    | drop flush => exact Or.inr (h.drop hi flush)
    | kill written => exact Or.inr (h.killLive hi)
    | killAppending event io written => exact Or.inr (h.killAppending hi hok)
    | killReturning event io => exact Or.inr (h.killReturning hi hok)
    | claim | resume | writeGenesis => exact Or.inl h

end Refines

/-! ### What holds of every interleaving -/

/-- What a writer finds at the end of the chain `es`. -/
def FindsTail (deploymentId : String) (es : List AuditEntry) : Phase → Prop
  | .live log => log.sequence = es.length ∧ log.tailHash = some (logTail deploymentId es)
  | .fresh _ _ log => es = [] ∧ log.tailHash = some (logTail deploymentId es)
  | _ => True

/-- The chain stands at the end of what one run of appends left in the directory. -/
structure Unforked (E : Ed25519) (J : AuditJson) (key : SigningKey) (deploymentId : String)
    (w : Writers ι) (es : List AuditEntry) : Prop where
  run : AppendRun E J key deploymentId es
  verifies : Verifies E J key deploymentId w.dir es
  returned : w.returned.Sublist es
  complete : w.crashed = false → w.returned = es
  findsTail : ∀ i, FindsTail deploymentId es (w.phase i)

theorem Attached.tailHash_eq {d : Dir} {es : List AuditEntry} {log : AuditLog}
    (h : Attached key deploymentId d es log) : log.tailHash = some (logTail deploymentId es) := by
  obtain ⟨st, hst, -, -, hlast, -⟩ := h.state
  rw [AuditLog.tailHash, hst, Option.map_some, hlast]

namespace Refines

variable {w : Writers ι} {s : System} {es : List AuditEntry}

omit [DecidableEq ι] in
/-- What the one-log system holds, the directory of the writers holds. -/
theorem unforked (h : Refines J key deploymentId w s) (hgood : Good E J key deploymentId s es)
    (hkey : E.SignsFor key) (hfaith : ∀ e ∈ s.attempted, J.Faithful e) :
    Unforked E J key deploymentId w es := by
  have hes := hgood.faithful hfaith
  -- between a claim and an open log the directory has only gained a file, or an empty segment
  have hholds : Holds J w.dir es ∧ ∀ i, FindsTail deploymentId es (w.phase i) := by
    rcases h.holder with ⟨-, -, heq, hidle⟩ | ⟨k, -, hstands, hothers⟩
    · exact ⟨heq ▸ hgood.holds, fun i ↦ by rw [hidle i]; trivial⟩
    · have hsplit (hk : FindsTail deploymentId es (w.phase k)) (i : ι) :
          FindsTail deploymentId es (w.phase i) := by
        rcases eq_or_ne i k with rfl | hne
        · exact hk
        · rw [hothers i hne]
          trivial
      cases hk : w.phase k with
      | idle =>
        rw [hk] at hstands
        exact hstands.elim
      | claimed config io =>
        rw [hk] at hstands
        have hsame := (acquireWriterLock_spec config s.dir io).1
        rw [hstands.2.2.2] at hsame
        exact ⟨hgood.holds.of_sameSegments hsame, hsplit (by rw [hk]; trivial)⟩
      | fresh config io log =>
        rw [hk] at hstands
        obtain ⟨hdep, -, -, hclaim, hzero⟩ := hstands
        obtain ⟨hholds, hatt⟩ := attached_of_claimAndResume hgood.holds hes hgood.run.sealedChain
          hdep hclaim
        refine ⟨hholds, hsplit ?_⟩
        rw [hk]
        exact ⟨List.length_eq_zero_iff.1 (hatt.sequence_eq.symm.trans hzero), hatt.tailHash_eq⟩
      | live log =>
        rw [hk] at hstands
        refine ⟨hstands.2 ▸ hgood.holds, hsplit ?_⟩
        have hatt := (hgood.attached log hstands.1).2
        rw [hk]
        exact ⟨hatt.sequence_eq, hatt.tailHash_eq⟩
  have hrt : ∀ e ∈ es, J.RoundTrips e := fun e he ↦ (hes e he).roundTrips
  exact {
    run := hgood.run
    verifies := ⟨hholds.1.loadEntries hrt hgood.run.sealedChain, _,
      hholds.1.verifyLogChain hrt hkey hgood.run, rfl, rfl, rfl⟩
    returned := h.returned ▸ hgood.returned
    complete := fun hc ↦ h.returned ▸ hgood.complete (h.crashed.trans hc)
    findsTail := hholds.2 }

omit [DecidableEq ι] in
/-- A torn directory is torn for the writers too, and none of them has a log. -/
theorem torn (h : Refines J key deploymentId w s) (htorn : Torn J s)
    (hfaith : ∀ e ∈ s.attempted, J.Faithful e) :
    TornIn J w.attempted w.dir ∧ ∀ i log, w.phase i ≠ .live log := by
  have hattempted := h.attempted ▸ htorn.torn
  rcases h.holder with ⟨-, -, heq, hidle⟩ | ⟨k, -, hstands, hothers⟩
  · exact ⟨heq ▸ hattempted, fun i log hi ↦ by rw [hidle i] at hi; cases hi⟩
  cases hk : w.phase k with
  | idle =>
    rw [hk] at hstands
    exact hstands.elim
  | claimed config io =>
    rw [hk] at hstands
    have hsame := (acquireWriterLock_spec config s.dir io).1
    rw [hstands.2.2.2] at hsame
    refine ⟨hattempted.of_sameSegments hsame, fun i log hi ↦ ?_⟩
    rcases eq_or_ne i k with rfl | hne
    · rw [hk] at hi
      cases hi
    · rw [hothers i hne] at hi
      cases hi
  | fresh config io log =>
    rw [hk] at hstands
    have hnone := htorn.torn.claimAndResume_eq_none hfaith key config io
    rw [hstands.2.2.2.1] at hnone
    cases hnone
  | live log =>
    rw [hk] at hstands
    have hlog := hstands.1
    rw [htorn.log] at hlog
    cases hlog

end Refines

/-- **Any number of writers keep one chain**, as long as every turn is harmless. Whatever the order
in which writers claim the directory, read it, append, drop their logs and are killed, at most one
is past its claim, the directory is locked exactly while one is, and what is in it is one run of
appends that verifies and at whose end the writer stands, or a kill has torn a line and no writer
has a log. -/
theorem writers_never_fork (hkey : E.SignsFor key) {w : Writers ι}
    (hrun : Transition.Reachable (Writers.step E J key) (Writers.Harmless E J deploymentId)
      (Writers.init ι) w)
    (hfaith : ∀ e ∈ w.attempted, J.Faithful e) :
    (∀ i j, w.phase i ≠ .idle → w.phase j ≠ .idle → i = j) ∧
      (w.dir.locked = true ↔ ∃ i, w.phase i ≠ .idle) ∧
      ((∃ es, Unforked E J key deploymentId w es) ∨
        (w.crashed = true ∧ TornIn J w.attempted w.dir ∧ ∀ i log, w.phase i ≠ .live log)) := by
  obtain ⟨s, hreach, hrel⟩ := hrun.simulated (Refines J key deploymentId) refines_init
    fun w s a h hok ↦ h.step hok
  refine ⟨fun i j hi hj ↦ ?_, ?_, ?_⟩
  · by_contra hne
    exact hi ((hrel.of_active hj).2.2 i hne)
  · rcases hrel.holder with ⟨hfree, -, -, hidle⟩ | ⟨k, hlocked, hstands, -⟩
    · simp [hfree, hidle]
    · refine iff_of_true hlocked ⟨k, fun hk ↦ ?_⟩
      rw [hk] at hstands
      exact hstands
  · rw [← hrel.attempted] at hfaith
    rcases reachable_inv hreach hfaith with ⟨es, hgood⟩ | htorn
    · exact Or.inl ⟨es, hrel.unforked hgood hkey hfaith⟩
    · exact Or.inr ⟨hrel.crashed ▸ htorn.crashed, hrel.torn htorn hfaith⟩

end Simulation

section Outcomes

variable {E : Ed25519} {J : AuditJson} {w : Writers ι} {i : ι} {log log' : AuditLog} {d : Dir}
  {e : AuditEntry}

/-- A genesis append that succeeds. -/
theorem Writers.writeGenesis_of_ok {io : OpenIo}
    (h : log.append E J w.dir (genesisEvent log.config.nodeId) io.genesis = (log', d, .ok e))
    (hattempt : log.attempt E J (genesisEvent log.config.nodeId) io.genesis = some e) :
    w.writeGenesis E J i io log = { w with
      dir := d, phase := update w.phase i (.live log'), attempted := w.attempted ++ [e]
      returned := w.returned ++ [e] } := by
  simp only [Writers.writeGenesis, AuditLog.writeGenesis, h, hattempt, Option.toList_some]

/-- An append that succeeds. -/
theorem Writers.append_of_ok {event : AuditEvent} {io : AppendIo}
    (h : log.append E J w.dir event io = (log', d, .ok e))
    (hattempt : log.attempt E J event io = some e) :
    w.append E J i log event io = { w with
      dir := d, phase := update w.phase i (.live log'), attempted := w.attempted ++ [e]
      returned := w.returned ++ [e] } := by
  simp only [Writers.append, h, hattempt, Option.toList_some]

end Outcomes

/-- A writer claims the directory, another is refused, the first is killed, and the second claims
the directory and reads it. -/
def contendedTurns : List (Bool × Turn) :=
  [(false, .claim sampleConfig sampleOpenIo), (true, .claim sampleConfig sampleOpenIo),
    (false, .kill 0), (true, .claim sampleConfig sampleOpenIo), (true, .resume)]

def contendedWriters : Writers Bool :=
  Transition.final (Writers.step zeroEd25519 sampleJson sampleKey) (Writers.init Bool)
    contendedTurns

/-- The second has started a log. -/
def contendedStarted : Writers Bool :=
  contendedWriters.step zeroEd25519 sampleJson sampleKey (true, .writeGenesis)

/-- And it has appended to it. -/
def contendedAppended : Writers Bool :=
  contendedStarted.step zeroEd25519 sampleJson sampleKey
    (true, .append (genesisEvent sampleConfig.nodeId) (sampleAppendIo 2))

/-- The second stands before a new log, in a directory without entries. -/
theorem contendedWriters_spec : ∃ log,
    contendedWriters.phase true = .fresh sampleConfig sampleOpenIo log ∧
      log.config = sampleConfig ∧ Holds sampleJson contendedWriters.dir [] ∧
      Attached sampleKey "deployment-1" contendedWriters.dir [] log := by
  obtain ⟨d, log, hfree, hclaim, hphase⟩ : ∃ d log, SameSegments Dir.empty d ∧
      AuditLog.claimAndResume sampleJson sampleConfig sampleKey d sampleOpenIo =
        some (log, contendedWriters.dir) ∧
      contendedWriters.phase true = .fresh sampleConfig sampleOpenIo log :=
    ⟨{ (acquireWriterLock sampleConfig Dir.empty sampleOpenIo).1 with locked := false }, _,
      (acquireWriterLock_spec sampleConfig Dir.empty sampleOpenIo).1.trans
        (SameSegments.setLocked false), rfl, rfl⟩
  obtain ⟨hholds, hatt⟩ := attached_of_claimAndResume (Holds.empty.of_sameSegments hfree)
    (by simp) trivial rfl hclaim
  exact ⟨log, hphase, (AuditLog.claimAndResume_eq_some hclaim).2.1, hholds, hatt⟩

/-- The turns that follow are harmless, and the appends in them succeed. -/
theorem contendedAppended_spec :
    Writers.Harmless zeroEd25519 sampleJson "deployment-1" contendedWriters (true, .writeGenesis) ∧
      Writers.Harmless zeroEd25519 sampleJson "deployment-1" contendedStarted
        (true, .append (genesisEvent sampleConfig.nodeId) (sampleAppendIo 2)) ∧
      contendedAppended.attempted = [sampleFirst, sampleSecond] ∧
      contendedAppended.returned = [sampleFirst, sampleSecond] ∧
      contendedAppended.crashed = false ∧ ∃ log, contendedAppended.phase true = .live log := by
  obtain ⟨log, hphase, hconfig, hholds, hatt⟩ := contendedWriters_spec
  have hclean {log : AuditLog} (hlog : log.config = sampleConfig) (event : AuditEvent)
      (id : BitVec 128) :
      log.AppendsHarmlessly zeroEd25519 sampleJson event (sampleAppendIo id) := fun st _ _ _ ↦
    .inl ((clean_sampleAppendIo id).completes (by rw [hlog]; rfl) st _)
  -- the genesis entry
  obtain ⟨log', d', happ, hattempt, hconfig', hrun, hholds', hatt', -⟩ :=
    hatt.append_of_clean (E := zeroEd25519) (e := sampleFirst) hholds .nil (clean_sampleAppendIo 1)
      (by rw [hconfig]; rfl) sample_eventToVec rfl (sample_faithful (by simp [sampleEntries]))
  have hstarted : contendedStarted = { contendedWriters with
      dir := d', phase := update contendedWriters.phase true (.live log')
      attempted := [sampleFirst], returned := [sampleFirst] } := by
    simp only [contendedStarted, Writers.step, hphase]
    exact Writers.writeGenesis_of_ok (by rw [hconfig]; exact happ) (by rw [hconfig]; exact hattempt)
  -- the entry behind it
  obtain ⟨log'', d'', happ', hattempt', -⟩ :=
    hatt'.append_of_clean (E := zeroEd25519) (e := sampleSecond) hholds' hrun
      (clean_sampleAppendIo 2) (by rw [hconfig', hconfig]; rfl) sample_eventToVec rfl
      (sample_faithful (by simp [sampleEntries]))
  have happend : contendedAppended = { contendedWriters with
      dir := d''
      phase := update (update contendedWriters.phase true (.live log')) true (.live log'')
      attempted := [sampleFirst, sampleSecond], returned := [sampleFirst, sampleSecond] } := by
    rw [contendedAppended, hstarted]
    simp only [Writers.step, Function.update_self]
    exact Writers.append_of_ok happ' hattempt'
  refine ⟨?_, ?_, ?_⟩
  · simp only [Writers.Harmless, hphase]
    exact hclean hconfig _ 1
  · rw [hstarted]
    simp only [Writers.Harmless, Function.update_self]
    exact hclean (hconfig'.trans hconfig) _ 2
  · rw [happend]
    exact ⟨rfl, rfl, rfl, log'', by simp⟩

/-- Two writers contend for a directory: one is left, and what it appended is the one chain. -/
theorem contended_writers_never_fork :
    (∀ i, contendedAppended.phase i ≠ .idle → i = true) ∧
      Unforked zeroEd25519 sampleJson sampleKey "deployment-1" contendedAppended
        [sampleFirst, sampleSecond] := by
  obtain ⟨hgenesis, happend, hattempted, hreturned, hcrashed, log, hlive⟩ := contendedAppended_spec
  have hcontended : Transition.Reachable (Writers.step zeroEd25519 sampleJson sampleKey)
      (Writers.Harmless zeroEd25519 sampleJson "deployment-1") (Writers.init Bool)
      contendedWriters :=
    Transition.reachable_final ⟨rfl, rfl, trivial, rfl, trivial, trivial⟩ .start
  have hrun : Transition.Reachable (Writers.step zeroEd25519 sampleJson sampleKey)
      (Writers.Harmless zeroEd25519 sampleJson "deployment-1") (Writers.init Bool)
      contendedAppended :=
    (hcontended.next _ hgenesis).next _ happend
  have hfaith : ∀ e ∈ contendedAppended.attempted, sampleJson.Faithful e := by
    intro e he
    rw [hattempted] at he
    refine sample_faithful ?_
    simp only [List.mem_cons, List.not_mem_nil, or_false] at he
    rcases he with rfl | rfl <;> simp [sampleEntries]
  obtain ⟨hone, -, hchain⟩ := writers_never_fork signsFor_sampleKey hrun hfaith
  refine ⟨fun i hi ↦ hone i true hi (by rw [hlive]; simp), ?_⟩
  obtain ⟨es, hes⟩ := hchain.resolve_right fun hcrash ↦ by simp [hcrashed] at hcrash
  exact hreturned ▸ hes.complete hcrashed ▸ hes

end Cordon
