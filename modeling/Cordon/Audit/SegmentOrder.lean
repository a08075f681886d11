import Cordon.Audit.Agreement

/-!
# The order of the segments

The name of a segment begins with the sequence it was to begin at, in twenty digits, so segments
sort by that number. What a run makes of it is an ordering invariant (`Ordered`): **in the order of
their names, the segments hold the chain in one piece**, and every segment behind the writer's is
empty.

The second half is what makes the first survive. A rotation leaves an empty segment behind until
something is written to it, and a log that is opened again resumes into the segment with the newest
entry, which is then not the last one by name. Entries go on there; and the next rotation takes a
greater number than any name so far, because an append has come in between.

Sequences fit into 64 bits, so the twenty digits are always enough: the invariant is stated for runs
that have returned fewer than `2 ^ 64` entries.

`ordered_of_errorFree` is the invariant rule over the actions of `Audit.Runs`, with a lemma each for
an append, a rotation and an opening. Runs with errors and crashes are left out: what is read off
the order is a property of runs without any.
-/

namespace Cordon

/-! ### Names -/

/-- A name that begins with the number `n`. -/
def NamedBy (f : String) (n : ℕ) : Prop :=
  ∃ ts unique, f = newLogFileName n ts unique

/-- The sequence leads the name, with a fixed number of digits. -/
theorem toList_newLogFileName (n : ℕ) (ts : DateTime) (unique : Uuid) :
    ∃ rest, (newLogFileName n ts unique).toList =
      "cordon-audit-".toList ++ (DateTime.pad 20 n ++ rest) := by
  have h : (newLogFileName n ts unique).toList = _ := String.toList_ofList
  rw [h, List.append_assoc, List.append_assoc]
  generalize "cordon-audit-".toList = lead
  generalize DateTime.pad 20 n = digits
  exact ⟨_, rfl⟩

/-- **Names sort by their numbers.** -/
theorem NamedBy.lt {f g : String} {m n : ℕ} (hf : NamedBy f m) (hg : NamedBy g n) (h : m < n)
    (hn : n < 10 ^ 20) : f < g := by
  obtain ⟨ts, unique, rfl⟩ := hf
  obtain ⟨ts', unique', rfl⟩ := hg
  obtain ⟨a, ha⟩ := toList_newLogFileName m ts unique
  obtain ⟨b, hb⟩ := toList_newLogFileName n ts' unique'
  have hlen : (DateTime.pad 20 m).length = (DateTime.pad 20 n).length := by
    rw [DateTime.length_pad, DateTime.length_pad]
  have hlt := Text.append_left_lt "cordon-audit-".toList
    (Text.append_lt_append hlen (DateTime.pad_lt_pad h hn) a b)
  rw [← ha, ← hb] at hlt
  exact hlt

/-- No segment of the directory is named for a sequence beyond `k`. -/
def NamedUpTo (d : Dir) (k : ℕ) : Prop :=
  ∀ f ∈ d.logFiles, ∃ n ≤ k, NamedBy f n

/-! ### Contents -/

/-- The segments of a directory, in the order of their names, hold the entries `es` in one piece. -/
structure InOrder (J : AuditJson) (d : Dir) (es : List AuditEntry)
    (seg : String → List AuditEntry) : Prop where
  content : ∀ f ∈ d.logFiles, d.content f = segmentBytes J (seg f)
  entries : d.logFiles.flatMap seg = es

/-- Nothing has been written to the segments behind `f`. -/
def LastWritten (d : Dir) (seg : String → List AuditEntry) (f : String) : Prop :=
  ∃ before behind, d.logFiles = before ++ f :: behind ∧ ∀ g ∈ behind, seg g = []

section

variable {J : AuditJson} {d d' : Dir} {es : List AuditEntry} {seg : String → List AuditEntry}
  {f : String}

theorem LastWritten.mem (h : LastWritten d seg f) : f ∈ d.logFiles := by
  obtain ⟨before, behind, hfiles, -⟩ := h
  rw [hfiles]
  simp

theorem InOrder.of_sameSegments (h : InOrder J d es seg) (hs : SameSegments d d') :
    InOrder J d' es seg := by
  refine ⟨fun f hf ↦ ?_, by rw [hs.1, h.entries]⟩
  rw [hs.1] at hf
  rw [hs.2 f hf, h.content f hf]

theorem LastWritten.of_sameSegments (h : LastWritten d seg f) (hs : SameSegments d d') :
    LastWritten d' seg f := by
  obtain ⟨before, behind, hfiles, hbehind⟩ := h
  exact ⟨before, behind, hs.1.trans hfiles, hbehind⟩

theorem NamedUpTo.of_sameSegments {k : ℕ} (h : NamedUpTo d k) (hs : SameSegments d d') :
    NamedUpTo d' k := fun f hf ↦ h f (hs.1 ▸ hf)

/-- **A line appended to the last segment written to** extends the chain. -/
theorem InOrder.append_line (h : InOrder J d es seg) (hf : LastWritten d seg f) (e : AuditEntry) :
    InOrder J (d.append f (J.line e)) (es ++ [e]) (Function.update seg f (seg f ++ [e])) ∧
      LastWritten (d.append f (J.line e)) (Function.update seg f (seg f ++ [e])) f := by
  have hlayout : Layout J d es seg := ⟨h.content, h.entries ▸ List.Perm.refl _⟩
  have hcontent := (hlayout.append_line hf.mem e).content
  obtain ⟨before, behind, hfiles, hbehind⟩ := hf
  have hnodup := d.nodup_logFiles
  rw [hfiles, List.nodup_append] at hnodup
  obtain ⟨-, hcons, hdisjoint⟩ := hnodup
  have hnot : f ∉ behind := (List.nodup_cons.1 hcons).1
  have hsame : ∀ g ≠ f, Function.update seg f (seg f ++ [e]) g = seg g := fun g hg ↦
    Function.update_of_ne hg _ _
  have hbefore : before.flatMap (Function.update seg f (seg f ++ [e])) = before.flatMap seg :=
    List.flatMap_congr fun g hg ↦ hsame g fun heq ↦
      hdisjoint g hg f List.mem_cons_self heq
  have hnew : ∀ g ∈ behind, Function.update seg f (seg f ++ [e]) g = [] := fun g hg ↦ by
    rw [hsame g (ne_of_mem_of_not_mem hg hnot), hbehind g hg]
  refine ⟨⟨hcontent, ?_⟩, before, behind, by rw [Dir.logFiles_append, hfiles], hnew⟩
  have hentries := h.entries
  rw [hfiles, List.flatMap_append, List.flatMap_cons, List.flatMap_eq_nil_iff.2 hbehind,
    List.append_nil] at hentries
  rw [Dir.logFiles_append, hfiles, List.flatMap_append, List.flatMap_cons, hbefore,
    Function.update_self, List.flatMap_eq_nil_iff.2 hnew, List.append_nil, ← List.append_assoc,
    hentries]

/-- **A new segment with a greater number than any** comes last, and holds nothing. -/
theorem InOrder.create (h : InOrder J d es seg) {k n : ℕ} (hnames : NamedUpTo d k) (hk : k < n)
    (hn : n < 10 ^ 20) (hf : NamedBy f n) :
    ∃ seg', InOrder J (d.create f) es seg' ∧ LastWritten (d.create f) seg' f ∧
      NamedUpTo (d.create f) n := by
  have hsegment : isSegment f = true := by
    obtain ⟨ts, unique, rfl⟩ := hf
    exact isSegment_newLogFileName _ _ _
  have hless : ∀ g ∈ d.logFiles, g < f := by
    intro g hg
    obtain ⟨m, hm, hg⟩ := hnames g hg
    exact hg.lt hf (by omega) hn
  have hfiles := Dir.logFiles_create_last hsegment hless
  have hnot : f ∉ d.logFiles := fun hmem ↦ List.lt_irrefl f.toList (hless f hmem)
  have hnew : f ∉ d.names := fun hmem ↦ hnot (Dir.mem_logFiles.2 ⟨hmem, hsegment⟩)
  have hsame : ∀ g ∈ d.logFiles, Function.update seg f [] g = seg g := fun g hg ↦
    Function.update_of_ne (ne_of_mem_of_not_mem hg hnot) _ _
  refine ⟨Function.update seg f [], ⟨fun g hg ↦ ?_, ?_⟩, ⟨d.logFiles, [], hfiles, by simp⟩,
    fun g hg ↦ ?_⟩
  · rw [hfiles] at hg
    rcases List.mem_append.1 hg with hg | hg
    · rw [Dir.content_create_of_ne d (ne_of_mem_of_not_mem hg hnot), hsame g hg, h.content g hg]
    · rw [List.mem_singleton.1 hg, Dir.content_create_of_not_mem hnew, Function.update_self,
        segmentBytes_nil]
  · rw [hfiles, List.flatMap_append, List.flatMap_congr hsame, h.entries, List.flatMap_singleton,
      Function.update_self, List.append_nil]
  · rw [hfiles] at hg
    rcases List.mem_append.1 hg with hg | hg
    · obtain ⟨m, hm, hg⟩ := hnames g hg
      exact ⟨m, by omega, hg⟩
    · rw [List.mem_singleton.1 hg]
      exact ⟨n, le_rfl, hf⟩

/-- The segment with the newest entry is the last one written to. -/
theorem InOrder.lastWritten (h : InOrder J d es seg)
    (hsorted : es.Pairwise fun a b ↦ a.sequence < b.sequence) {hash : String} {sequence : ℕ}
    (hnewest : NewestAmong seg d.logFiles (some (f, hash, sequence))) : LastWritten d seg f := by
  obtain ⟨hf, e, he, -, rfl, hmax⟩ := hnewest
  obtain ⟨before, behind, hfiles⟩ := List.append_of_mem hf
  refine ⟨before, behind, hfiles, fun g hg ↦ ?_⟩
  rw [← h.entries, hfiles, List.pairwise_flatMap] at hsorted
  have hafter := (List.pairwise_cons.1 (List.pairwise_append.1 hsorted.2).2.1).1 g hg
  refine List.eq_nil_iff_forall_not_mem.2 fun a ha ↦ ?_
  have hlt := hafter e (List.mem_of_getLast? he) a ha
  have hle := hmax g (by rw [hfiles]; simp [hg]) a ha
  omega

/-- Each segment of a chain holds its share in increasing sequence. -/
theorem InOrder.pairwise (h : InOrder J d es seg)
    (hsorted : es.Pairwise fun a b ↦ a.sequence < b.sequence) :
    ∀ f ∈ d.logFiles, (seg f).Pairwise fun a b ↦ a.sequence < b.sequence := by
  rw [← h.entries, List.pairwise_flatMap] at hsorted
  exact hsorted.1

end

/-! ### The invariant -/

/-- **The ordering invariant** of a directory that holds the entries `es`, and of the log on it. -/
structure Ordered (J : AuditJson) (d : Dir) (es : List AuditEntry) (log : Option AuditLog) :
    Prop where
  order : ∃ seg, InOrder J d es seg ∧
    ∀ l st, log = some l → l.state = some st → LastWritten d seg st.writer.file
  names : NamedUpTo d (es.length + 1)
  /-- There is no segment before the first entry is written. -/
  fresh : es = [] → log = none → d.logFiles = []

namespace Ordered

variable {E : Ed25519} {J : AuditJson} {key : SigningKey} {deploymentId : String} {d : Dir}
  {es : List AuditEntry} {log : AuditLog}

theorem init : Ordered J Dir.empty [] none where
  order := ⟨fun _ ↦ [], ⟨by simp [Dir.empty, Dir.logFiles], by simp [Dir.empty, Dir.logFiles]⟩,
    fun _ _ hnone ↦ by cases hnone⟩
  names := by simp [NamedUpTo, Dir.empty, Dir.logFiles]
  fresh := fun _ _ ↦ rfl

/-- **An append** keeps the order, whether it rotates or not. -/
theorem append (h : Ordered J d es (some log)) (hatt : Attached key deploymentId d es log)
    (run : AppendRun E J key deploymentId es) {event : AuditEvent} {io : AppendIo} {s : LogState}
    {entry : AuditEntry} {text : String}
    (hprep : log.prepare E J event io = some (s, entry, text))
    (hio : io.Completes log.config s (lineBytes text)) (hfits : es.length + 2 < 10 ^ 20) :
    ∃ log' d', log.append E J d event io = (log', d', .ok entry) ∧
      Ordered J d' (es ++ [entry]) (some log') := by
  obtain ⟨hbuf, -, -, hline, hseq, -⟩ := hatt.prepare_spec run hprep
  obtain ⟨seg, horder, hwriter⟩ := h.order
  have hs : log.state = some s := (AuditLog.prepare_eq_some hprep).1
  obtain ⟨horder', hlast⟩ := horder.append_line (hwriter log s rfl hs) entry
  rw [← hline] at horder' hlast
  have hlen : (es ++ [entry]).length = es.length + 1 := by simp
  rcases Nat.lt_or_ge (s.bytesWritten + (lineBytes text).length) log.config.maxFileSizeBytes with
    hdue | hdue
  · refine ⟨_, _, AuditLog.append_of_not_due hprep hbuf hio hdue d, ⟨_, horder', ?_⟩, ?_, by simp⟩
    · intro l st hl hst
      obtain rfl := Option.some.inj hl
      obtain rfl := Option.some.inj hst
      exact hlast
    · intro f hf
      obtain ⟨n, hn, hname⟩ := h.names f hf
      exact ⟨n, by omega, hname⟩
  · obtain ⟨name, hname⟩ : ∃ name, name =
        newLogFileName (entry.sequence + 1) io.rotate.ts io.rotate.unique := ⟨_, rfl⟩
    have hnamed : NamedBy name (es.length + 2) := by
      rw [hseq] at hname
      exact ⟨_, _, hname⟩
    have hnames : NamedUpTo (d.append s.writer.file (lineBytes text)) (es.length + 1) := h.names
    obtain ⟨seg', hcreated, hlast', hnames'⟩ :=
      horder'.create hnames (Nat.lt_succ_self _) hfits hnamed
    refine ⟨_, _, AuditLog.append_of_due hprep hbuf hio hdue hname d, ⟨seg', hcreated, ?_⟩, ?_,
      by simp⟩
    · intro l st hl hst
      obtain rfl := Option.some.inj hl
      obtain rfl := Option.some.inj hst
      exact hlast'
    · rw [hlen]
      exact hnames'

/-- **Resuming** keeps the order: a directory without entries gets its first segment, and otherwise
the last segment written to is continued. -/
theorem resume (h : Ordered J d es none) (hfaith : ∀ e ∈ es, J.Faithful e)
    (hsorted : es.Pairwise fun a b ↦ a.sequence < b.sequence) {config : LogConfig} {io : OpenIo}
    {d1 : Dir} (hclaim : AuditLog.claimAndResume J config key d io = some (log, d1)) :
    Ordered J d1 es (some log) := by
  obtain ⟨-, -, -, d0, existing, st, hsame, -, hfind, hst, hwriter, -, -, rfl, -⟩ :=
    AuditLog.claimAndResume_eq_some hclaim
  obtain ⟨seg, horder, -⟩ := h.order
  have horder0 := horder.of_sameSegments hsame
  have hnames0 := h.names.of_sameSegments hsame
  have hlayout : Layout J d0 es seg := ⟨horder0.content, horder0.entries ▸ List.Perm.refl _⟩
  have hnewest := hlayout.newestAmong hfaith (horder0.pairwise hsorted) hfind
  rcases existing with - | ⟨f, hash, sequence⟩
  · have hnil : es = [] := by
      rw [← horder0.entries]
      exact List.flatMap_eq_nil_iff.2 hnewest
    have hnone : NamedUpTo d0 0 := by
      intro f hf
      rw [hsame.1, h.fresh hnil rfl] at hf
      cases hf
    have hnamed : NamedBy st.writer.file 1 := by
      rw [hwriter]
      exact ⟨_, _, rfl⟩
    obtain ⟨seg', hcreated, hlast, hnames⟩ :=
      horder0.create hnone Nat.one_pos (by decide) hnamed
    refine ⟨⟨seg', hcreated, ?_⟩, ?_, by simp⟩
    · intro l st' hl hst'
      obtain rfl := Option.some.inj hl
      obtain rfl := Option.some.inj (hst.symm.trans hst')
      exact hlast
    · rw [hnil]
      exact hnames
  · have hfile : st.writer.file = f := by rw [hwriter, Option.getD_some]
    have hlast := horder0.lastWritten hsorted hnewest
    have hcreate : d0.create st.writer.file = d0 := by
      rw [hfile, Dir.create_of_mem (Dir.mem_logFiles.1 hlast.mem).1]
    rw [hcreate]
    refine ⟨⟨seg, horder0, ?_⟩, hnames0, by simp⟩
    intro l st' hl hst'
    obtain rfl := Option.some.inj hl
    obtain rfl := Option.some.inj (hst.symm.trans hst')
    rw [hfile]
    exact hlast

/-- Only the segments matter to the order. -/
theorem of_sameSegments {l : Option AuditLog} {d' : Dir} (h : Ordered J d es l)
    (hs : SameSegments d d') : Ordered J d' es l := by
  obtain ⟨seg, horder, hwriter⟩ := h.order
  exact ⟨⟨seg, horder.of_sameSegments hs, fun l' st hl hst ↦
    (hwriter l' st hl hst).of_sameSegments hs⟩, h.names.of_sameSegments hs,
    fun hnil hnone ↦ by rw [hs.1, h.fresh hnil hnone]⟩

/-- A log that goes away leaves the order behind, once it has written an entry. -/
theorem detach (h : Ordered J d es (some log)) (hne : es ≠ []) : Ordered J d es none := by
  obtain ⟨seg, horder, -⟩ := h.order
  exact ⟨⟨seg, horder, fun _ _ hnone ↦ by cases hnone⟩, h.names, fun hnil ↦ absurd hnil hne⟩

end Ordered

/-! ### Whole runs -/

section Runs

variable {E : Ed25519} {J : AuditJson} {key : SigningKey} {deploymentId : String} {s : System}

/-- An opening that succeeds keeps the order. -/
theorem Ordered.step_openLog (h : Ordered J s.dir s.returned s.log)
    (hgood : Good E J key deploymentId s s.returned) (hfaith : ∀ e ∈ s.attempted, J.Faithful e)
    {config : LogConfig} {io : OpenIo}
    (hok : ErrorFree E J key deploymentId s (.openLog config io))
    (hfits : s.returned.length + 2 < 10 ^ 20) :
    Ordered J (s.step E J key (.openLog config io)).dir
      (s.step E J key (.openLog config io)).returned (s.step E J key (.openLog config io)).log := by
  obtain ⟨hdep, hfsync, hclean, log, hopened⟩ := hok
  rcases hclaim : AuditLog.claimAndResume J config key s.dir io with - | ⟨log0, d1⟩
  · obtain ⟨d', err, herr, -⟩ := AuditLog.openLog_of_none (E := E) hclaim
    rw [herr] at hopened
    cases hopened
  obtain ⟨hunlocked, hconfig, -⟩ := AuditLog.claimAndResume_eq_some hclaim
  rw [hgood.log_eq_none hunlocked] at h
  have hfaith' := hgood.faithful hfaith
  have hresumed := h.resume hfaith' hgood.run.sealedChain.pairwise_sequence hclaim
  obtain ⟨hholds, hatt⟩ := attached_of_claimAndResume hgood.holds hfaith' hgood.run.sealedChain
    hdep hclaim
  by_cases hzero : log0.sequence = 0
  · -- the genesis entry is appended
    have hopen := AuditLog.openLog_of_some (E := E) hclaim
    rw [if_pos hzero, AuditLog.writeGenesis] at hopen
    have hattempt : openAttempt E J key config s.dir io =
        log0.attempt E J (genesisEvent log0.config.nodeId) io.genesis := by
      simp only [openAttempt, hclaim, if_pos hzero]
    rcases hprep : log0.prepare E J (genesisEvent log0.config.nodeId) io.genesis with
      - | ⟨st, entry, text⟩
    · obtain ⟨err, happ⟩ := AuditLog.append_of_prepare_none hprep d1
      rw [happ] at hopen
      rw [hopen] at hopened
      cases hopened
    · obtain ⟨log', d', happ, hordered⟩ := hresumed.append hatt hgood.run hprep
        (hclean.genesis.completes (by rw [hconfig, hfsync]) st _) hfits
      rw [happ] at hopen
      rw [System.step_openLog_ok hopen, hattempt, AuditLog.attempt, hprep]
      exact hordered
  · obtain ⟨hopen, hnone⟩ := openLog_of_resumed (E := E) hclaim hzero
    obtain ⟨hdir, hlog, -, hreturned, -⟩ := System.step_openLog_resumes hopen hnone
    rw [hdir, hlog, hreturned]
    exact hresumed

/-- **In every run without errors the segments are in order**, as long as sequences fit into 64
bits. -/
theorem ordered_of_errorFree
    (h : Transition.Reachable (System.step E J key) (ErrorFree E J key deploymentId)
      System.init s) :
    (∀ e ∈ s.attempted, J.Faithful e) → s.returned.length < 2 ^ 64 →
      Ordered J s.dir s.returned s.log := by
  refine h.invariant (fun s ↦ (∀ e ∈ s.attempted, J.Faithful e) → s.returned.length < 2 ^ 64 →
    Ordered J s.dir s.returned s.log) (fun _ _ ↦ Ordered.init) ?_
  intro s a hreach ha ih hfaith hfits
  have hfaith' : ∀ e ∈ s.attempted, J.Faithful e := fun e he ↦
    hfaith e (attempted_subset_step s a he)
  have hshorter : s.returned.length ≤ (s.step E J key a).returned.length :=
    (returned_prefix_step s a).length_le
  have hfits' : s.returned.length + 2 < 10 ^ 20 := by omega
  have hord := ih hfaith' (by omega)
  have hgood := good_returned (hreach.mono fun _ _ hr ha ↦ harmless_of_errorFree hr ha) hfaith'
  cases a with
  | openLog config io => exact hord.step_openLog hgood hfaith' ha hfits'
  | append event io =>
    rcases hlog : s.log with - | log
    · simp only [System.step, hlog]
      rw [hlog] at hord
      exact hord
    · obtain ⟨-, hatt⟩ := hgood.attached log hlog
      rw [hlog] at hord
      rcases hprep : log.prepare E J event io with - | ⟨st, entry, text⟩
      · obtain ⟨err, happ⟩ := AuditLog.append_of_prepare_none hprep s.dir
        rw [System.step_append_error hlog happ]
        exact hord
      · obtain ⟨log', d', happ, hordered⟩ := hord.append hatt hgood.run hprep
          (AppendIo.Clean.completes ha (fsyncOnWrite_of_reachable hreach log hlog) st _) hfits'
        rw [System.step_append_ok hlog happ]
        exact hordered
  | drop flush =>
    rcases hlog : s.log with - | log
    · simp only [System.step, hlog]
      rw [hlog] at hord
      exact hord
    · obtain ⟨hne, hatt⟩ := hgood.attached log hlog
      rw [hlog] at hord
      simp only [System.step, hlog, hatt.drop]
      exact (hord.detach hne).of_sameSegments (SameSegments.setLocked false)
  | crash event io written => exact ha.elim
  | crashAfter event io => exact ha.elim
  | crashOpening config io written => exact ha.elim

end Runs

end Cordon
