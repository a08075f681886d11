import Cordon.Audit.Segments

/-!
# What a log directory holds

`Holds J d es` is the abstract view of a directory: its segments, **in whatever order their names
sort**, together hold the entries `es`, and each segment holds its share in increasing sequence. It
is the only thing the results about whole runs say of a directory's bytes.

The operations of the writer are described by how they change that view (`Holds.append_line`,
`Holds.create`, `Holds.of_sameSegments`), and the two readers by what they get from it: the verifier
all entries in sequence order (`Holds.loadEntries`), the resuming writer the end of the chain
(`Holds.findExistingLogFile`). A segment that was rotated to and never written is a segment with no
entries, and needs no case of its own.

The view rests on two facts about the bytes, which `Audit.Segments` proves of one segment: complete
lines are read back, and the last of them is found or the segment is refused. Everything else about
segments is a matter of lists: a line that is appended goes to the end of one share, and sorting the
shares by sequence gives the run back, because its sequences increase.
-/

namespace Cordon

/-- How the entries `es` lie in the segments of a directory. -/
structure Layout (J : AuditJson) (d : Dir) (es : List AuditEntry)
    (seg : String → List AuditEntry) : Prop where
  content : ∀ f ∈ d.logFiles, d.content f = segmentBytes J (seg f)
  perm : (d.logFiles.flatMap seg).Perm es

/-- The segments of a directory hold exactly the entries `es`, each in increasing sequence. -/
def Holds (J : AuditJson) (d : Dir) (es : List AuditEntry) : Prop :=
  ∃ seg, Layout J d es seg ∧
    ∀ f ∈ d.logFiles, (seg f).Pairwise fun a b ↦ a.sequence < b.sequence

/-- Two directories with the same segments and the same bytes in them. -/
def SameSegments (d d' : Dir) : Prop :=
  d'.logFiles = d.logFiles ∧ ∀ f ∈ d.logFiles, d'.content f = d.content f

section Layout

variable {J : AuditJson} {d d' : Dir} {es : List AuditEntry} {seg : String → List AuditEntry}

theorem Layout.mem (h : Layout J d es seg) {f : String} (hf : f ∈ d.logFiles) {e : AuditEntry}
    (he : e ∈ seg f) : e ∈ es :=
  h.perm.subset (List.mem_flatMap.2 ⟨f, hf, he⟩)

theorem Holds.empty : Holds J Dir.empty [] :=
  ⟨fun _ ↦ [], ⟨by simp [Dir.empty, Dir.logFiles], by simp [Dir.empty, Dir.logFiles]⟩,
    by simp [Dir.empty, Dir.logFiles]⟩

theorem SameSegments.refl (d : Dir) : SameSegments d d :=
  ⟨rfl, fun _ _ ↦ rfl⟩

theorem SameSegments.trans {d'' : Dir} (h : SameSegments d d') (h' : SameSegments d' d'') :
    SameSegments d d'' :=
  ⟨h'.1.trans h.1, fun f hf ↦ (h'.2 f (h.1 ▸ hf)).trans (h.2 f hf)⟩

/-- Files that are not segments do not matter. -/
theorem Holds.of_sameSegments (h : Holds J d es) (hs : SameSegments d d') : Holds J d' es := by
  obtain ⟨seg, h, hsorted⟩ := h
  refine ⟨seg, ⟨?_, ?_⟩, ?_⟩
  · intro f hf
    rw [hs.1] at hf
    rw [hs.2 f hf, h.content f hf]
  · rw [hs.1]
    exact h.perm
  · rw [hs.1]
    exact hsorted

theorem SameSegments.create {name : String} (hs : isSegment name = false) :
    SameSegments d (d.create name) := by
  refine ⟨Dir.logFiles_create_of_not_segment hs, fun f hf ↦ ?_⟩
  refine Dir.content_create_of_ne d fun heq ↦ ?_
  rw [heq, Dir.mem_logFiles, hs] at hf
  exact absurd hf.2 (by decide)

theorem SameSegments.replace {name : String} {bytes : Bytes} (hs : isSegment name = false) :
    SameSegments d (d.replace name bytes) := by
  refine (SameSegments.create hs).trans ⟨rfl, fun f hf ↦ ?_⟩
  have hne : f ≠ name := by
    rintro rfl
    rw [Dir.mem_logFiles, hs] at hf
    exact absurd hf.2 (by decide)
  simp [Dir.replace, hne]

theorem SameSegments.setLocked (b : Bool) : SameSegments d { d with locked := b } :=
  ⟨rfl, fun _ _ ↦ rfl⟩

/-- A new segment takes no entry from another, and creating one that exists changes nothing. -/
theorem Layout.create (h : Layout J d es seg) {name : String} (hs : isSegment name = true) :
    ∃ seg', Layout J (d.create name) es seg' ∧ ∀ f ∈ (d.create name).logFiles,
      (f ∈ d.logFiles ∧ seg' f = seg f) ∨ seg' f = [] := by
  by_cases hmem : name ∈ d.names
  · rw [Dir.create_of_mem hmem]
    exact ⟨seg, h, fun f hf ↦ Or.inl ⟨hf, rfl⟩⟩
  have hnot : name ∉ d.logFiles := fun hin ↦ hmem (Dir.mem_logFiles.1 hin).1
  have hperm := Dir.logFiles_create_perm hmem hs
  have hsame : ∀ f ∈ d.logFiles, Function.update seg name [] f = seg f := by
    intro f hf
    exact Function.update_of_ne (ne_of_mem_of_not_mem hf hnot) _ _
  refine ⟨Function.update seg name [], ⟨?_, ?_⟩, ?_⟩
  · intro f hf
    rcases List.mem_cons.1 (hperm.subset hf) with rfl | hf
    · rw [Dir.content_create_of_not_mem hmem, Function.update_self, segmentBytes_nil]
    · rw [Dir.content_create_of_ne d (ne_of_mem_of_not_mem hf hnot), hsame f hf, h.content f hf]
  · refine (hperm.flatMap_right _).trans ?_
    rw [List.flatMap_cons, Function.update_self, List.nil_append, List.flatMap_congr hsame]
    exact h.perm
  · intro f hf
    rcases List.mem_cons.1 (hperm.subset hf) with rfl | hf
    · exact Or.inr (Function.update_self _ _ _)
    · exact Or.inl ⟨hf, hsame f hf⟩

/-- **A new segment holds nothing.** -/
theorem Holds.create (h : Holds J d es) {name : String} (hs : isSegment name = true) :
    Holds J (d.create name) es := by
  obtain ⟨seg, h, hsorted⟩ := h
  obtain ⟨seg', h', hsplit⟩ := h.create hs
  refine ⟨seg', h', fun f hf ↦ ?_⟩
  rcases hsplit f hf with ⟨hin, heq⟩ | hnil
  · rw [heq]
    exact hsorted f hin
  · rw [hnil]
    exact List.Pairwise.nil

/-- Appending a line adds its entry to the segment it goes to. -/
theorem Layout.append_line (h : Layout J d es seg) {f : String} (hf : f ∈ d.logFiles)
    (e : AuditEntry) :
    Layout J (d.append f (J.line e)) (es ++ [e]) (Function.update seg f (seg f ++ [e])) := by
  have hother : ∀ g ≠ f, Function.update seg f (seg f ++ [e]) g = seg g := fun g hg ↦
    Function.update_of_ne hg _ _
  refine ⟨?_, ?_⟩
  · intro g hg
    by_cases hgf : g = f
    · subst hgf
      rw [Dir.content_append_self, Function.update_self, segmentBytes_append_singleton,
        h.content g hf]
    · rw [Dir.content_append_of_ne d _ hgf, hother g hgf, h.content g hg]
  · -- split the segments at `f`, which occurs once
    rw [Dir.logFiles_append]
    obtain ⟨as, bs, hab⟩ := List.append_of_mem hf
    have hnd := d.nodup_logFiles
    rw [hab, List.nodup_append] at hnd
    obtain ⟨-, hbs, has⟩ := hnd
    have hmap : ∀ cs : List String, f ∉ cs →
        cs.flatMap (Function.update seg f (seg f ++ [e])) = cs.flatMap seg := fun cs hcs ↦
      List.flatMap_congr fun g hg ↦ hother g (ne_of_mem_of_not_mem hg hcs)
    have hperm := h.perm
    rw [hab, List.flatMap_append, List.flatMap_cons] at hperm ⊢
    rw [hmap as fun hin ↦ has f hin f List.mem_cons_self rfl,
      hmap bs (List.nodup_cons.1 hbs).1, Function.update_self]
    calc (as.flatMap seg ++ ((seg f ++ [e]) ++ bs.flatMap seg)).Perm
          ((as.flatMap seg ++ (seg f ++ bs.flatMap seg)) ++ [e]) := by
          rw [List.append_assoc, List.append_assoc (as.flatMap seg),
            List.append_assoc (seg f) (bs.flatMap seg)]
          exact (List.Perm.append_left (seg f) List.perm_append_comm).append_left _
      _ |>.Perm (es ++ [e]) := hperm.append_right _

/-- **Appending a line adds its entry**, to whichever segment it goes, if its sequence is beyond
those already held. -/
theorem Holds.append_line (h : Holds J d es) {f : String} (hf : f ∈ d.logFiles) {e : AuditEntry}
    (hnew : ∀ a ∈ es, a.sequence < e.sequence) : Holds J (d.append f (J.line e)) (es ++ [e]) := by
  obtain ⟨seg, h, hsorted⟩ := h
  refine ⟨_, h.append_line hf e, fun g hg ↦ ?_⟩
  by_cases hgf : g = f
  · subst hgf
    rw [Function.update_self, List.pairwise_append]
    refine ⟨hsorted g hf, List.pairwise_singleton _ _, fun a ha b hb ↦ ?_⟩
    rw [List.mem_singleton.1 hb]
    exact hnew a (h.mem hf ha)
  · rw [Function.update_of_ne hgf]
    exact hsorted g hg

end Layout

/-! ### What the verifier reads -/

section Read

variable {J : AuditJson} {d : Dir} {es : List AuditEntry}

theorem loadFiles_eq_ok {seg : String → List AuditEntry} {fs : List String}
    (hcontent : ∀ f ∈ fs, d.content f = segmentBytes J (seg f))
    (h : ∀ f ∈ fs, ∀ e ∈ seg f, J.RoundTrips e) :
    loadFiles J d fs = .ok (fs.flatMap seg) := by
  induction fs with
  | nil => rfl
  | cons f fs ih =>
    rw [loadFiles, hcontent f List.mem_cons_self,
      loadEntriesFromFile_segmentBytes (h f List.mem_cons_self),
      ih (fun g hg ↦ hcontent g (List.mem_cons_of_mem _ hg))
        (fun g hg ↦ h g (List.mem_cons_of_mem _ hg))]
    rfl

theorem Layout.loadFiles {seg : String → List AuditEntry} (h : Layout J d es seg)
    (hrt : ∀ e ∈ es, J.RoundTrips e) :
    loadFiles J d d.logFiles = .ok (d.logFiles.flatMap seg) :=
  loadFiles_eq_ok h.content fun _ hf e he ↦ hrt e (h.mem hf he)

theorem pairwise_sortBySequence (l : List AuditEntry) :
    (sortBySequence l).Pairwise fun a b ↦ a.sequence ≤ b.sequence := by
  let r : AuditEntry → AuditEntry → Prop := fun a b ↦ a.sequence ≤ b.sequence
  have htotal : Std.Total r := ⟨fun a b ↦ Nat.le_total _ _⟩
  have htrans : IsTrans AuditEntry r := ⟨fun _ _ _ ↦ Nat.le_trans⟩
  exact List.pairwise_insertionSort r l

/-- Entries in strictly increasing sequence are what any order of them sorts to. -/
theorem sortBySequence_of_perm {l : List AuditEntry} (hperm : l.Perm es)
    (hsorted : es.Pairwise fun a b ↦ a.sequence < b.sequence) : sortBySequence l = es := by
  let r : AuditEntry → AuditEntry → Prop := fun a b ↦ a.sequence ≤ b.sequence
  have hl : (sortBySequence l).Pairwise r := pairwise_sortBySequence l
  have hle : es.Pairwise r := hsorted.imp Nat.le_of_lt
  have hp : (sortBySequence l).Perm es := (List.perm_insertionSort _ l).trans hperm
  refine List.Perm.eq_of_pairwise ?_ hl hle hp
  intro a b ha hb hab hba
  have ha' : a ∈ es := hp.subset ha
  by_contra hne
  rcases (List.pairwise_iff_getElem.1 hsorted) with hget
  obtain ⟨i, hi, rfl⟩ := List.getElem_of_mem ha'
  obtain ⟨j, hj, rfl⟩ := List.getElem_of_mem hb
  rcases Nat.lt_trichotomy i j with hij | hij | hij
  · have := hget i j hi hj hij
    simp only [r] at hba
    omega
  · subst hij
    exact hne rfl
  · have := hget j i hj hi hij
    simp only [r] at hab
    omega

theorem SealedChain.pairwise_sequence {prevHash : String} {sequence : ℕ}
    (h : SealedChain J prevHash sequence es) :
    es.Pairwise fun a b ↦ a.sequence < b.sequence := by
  have hp : (List.range' (sequence + 1) es.length).Pairwise (· < ·) := List.pairwise_lt_range'
  rw [← h.map_sequence] at hp
  exact List.pairwise_map.1 hp

/-- **The verifier loads the chain in order**, whatever the segments are called. -/
theorem Holds.loadEntries (h : Holds J d es) (hrt : ∀ e ∈ es, J.RoundTrips e) {prevHash : String}
    {sequence : ℕ} (hchain : SealedChain J prevHash sequence es) :
    loadEntries J (.directory d) = .ok es := by
  obtain ⟨seg, h, -⟩ := h
  rw [Cordon.loadEntries, h.loadFiles hrt, Except.map_ok,
    sortBySequence_of_perm h.perm hchain.pairwise_sequence]

/-- **A directory that holds a run verifies.** -/
theorem Holds.verifyLogChain {E : Ed25519} {key : SigningKey} {deploymentId : String}
    (h : Holds J d es) (hrt : ∀ e ∈ es, J.RoundTrips e) (hkey : E.SignsFor key)
    (run : AppendRun E J key deploymentId es) :
    verifyLogChain E J (key.verifyingKey E) (.directory d) deploymentId = .ok {
      valid := true
      entriesVerified := es.length
      firstEntry := es.head?.map AuditEntry.timestamp
      lastEntry := es.getLast?.map AuditEntry.timestamp
      logTailHash := es.getLast?.map AuditEntry.entryHash
      violations := [] } := by
  rw [Cordon.verifyLogChain, h.loadEntries hrt run.sealedChain, Except.ok_bind]
  refine verifyEntries_of_chainOk ⟨run.sealedChain, fun e he ↦ ?_⟩
  refine ⟨key.sign E (Text.asBytes e.entryHash), ?_, hkey _⟩
  rw [run.signature_eq he, Signature.fromHex_toHex]

/-! ### What the resuming writer finds -/

/-- What the scan for the newest segment knows after some of the segments. -/
def NewestAmong (seg : String → List AuditEntry) (fs : List String) :
    Option (String × String × ℕ) → Prop
  | none => ∀ f ∈ fs, seg f = []
  | some (p, hash, seq) => p ∈ fs ∧ ∃ e, (seg p).getLast? = some e ∧ hash = e.entryHash ∧
      seq = e.sequence ∧ ∀ f ∈ fs, ∀ a ∈ seg f, a.sequence ≤ seq

theorem le_getLast_of_pairwise {l : List AuditEntry} {e : AuditEntry}
    (h : l.Pairwise fun a b ↦ a.sequence < b.sequence) (he : l.getLast? = some e) :
    ∀ a ∈ l, a.sequence ≤ e.sequence := by
  obtain ⟨init, rfl⟩ := List.getLast?_eq_some_iff.1 he
  intro a ha
  rcases List.mem_append.1 ha with ha | ha
  · exact Nat.le_of_lt ((List.pairwise_append.1 h).2.2 a ha e (by simp))
  · rw [List.mem_singleton.1 ha]

/-- A segment without entries carries no chain state. -/
theorem NewestAmong.append_empty {seg : String → List AuditEntry} {done : List String} {f : String}
    {newest : Option (String × String × ℕ)} (h : NewestAmong seg done newest)
    (hnil : seg f = []) : NewestAmong seg (done ++ [f]) newest := by
  rcases newest with - | ⟨p, hash, seq⟩
  · intro g hg
    rcases List.mem_append.1 hg with hg | hg
    · exact h g hg
    · rw [List.mem_singleton.1 hg, hnil]
  · obtain ⟨hp, e, he, hh, hq, hmax⟩ := h
    refine ⟨List.mem_append_left _ hp, e, he, hh, hq, fun g hg a ha ↦ ?_⟩
    rcases List.mem_append.1 hg with hg | hg
    · exact hmax g hg a ha
    · rw [List.mem_singleton.1 hg, hnil] at ha
      cases ha

/-- A segment replaces the newest so far if its last entry has a greater sequence. -/
theorem NewestAmong.append_last {seg : String → List AuditEntry} {done : List String} {f : String}
    {newest : Option (String × String × ℕ)} (h : NewestAmong seg done newest) {e : AuditEntry}
    (hlast : (seg f).getLast? = some e) (hle : ∀ a ∈ seg f, a.sequence ≤ e.sequence) :
    NewestAmong seg (done ++ [f])
      (if newest.all fun n ↦ decide (n.2.2 < e.sequence) then some (f, e.entryHash, e.sequence)
        else newest) := by
  rcases newest with - | ⟨p, hash, seq⟩
  · refine ⟨by simp, e, hlast, rfl, rfl, fun g hg a ha ↦ ?_⟩
    rcases List.mem_append.1 hg with hg | hg
    · rw [h g hg] at ha
      cases ha
    · rw [List.mem_singleton.1 hg] at ha
      exact hle a ha
  · obtain ⟨hp, e', he', hh, hq, hmax⟩ := h
    rw [Option.all_some]
    by_cases hlt : seq < e.sequence
    · rw [if_pos (by simpa using hlt)]
      refine ⟨by simp, e, hlast, rfl, rfl, fun g hg a ha ↦ ?_⟩
      rcases List.mem_append.1 hg with hg | hg
      · exact (hmax g hg a ha).trans (Nat.le_of_lt hlt)
      · rw [List.mem_singleton.1 hg] at ha
        exact hle a ha
    · rw [if_neg (by simpa using hlt)]
      refine ⟨List.mem_append_left _ hp, e', he', hh, hq, fun g hg a ha ↦ ?_⟩
      rcases List.mem_append.1 hg with hg | hg
      · exact hmax g hg a ha
      · rw [List.mem_singleton.1 hg] at ha
        exact (hle a ha).trans (Nat.le_of_not_lt hlt)

/-- The scan keeps the greatest sequence seen. The induction is on the segments still to come. -/
theorem newestAmong_of_newestOf {config : LogConfig} {readFile : String → Option String}
    {seg : String → List AuditEntry} (done : List String) {fs : List String}
    {newest result : Option (String × String × ℕ)}
    (hcontent : ∀ f ∈ fs, d.content f = segmentBytes J (seg f))
    (hfaith : ∀ f ∈ fs, ∀ e ∈ seg f, J.Faithful e)
    (hsorted : ∀ f ∈ fs, (seg f).Pairwise fun a b ↦ a.sequence < b.sequence)
    (hnewest : NewestAmong seg done newest)
    (h : newestOf J config d readFile newest fs = .ok result) :
    NewestAmong seg (done ++ fs) result := by
  induction fs generalizing done newest with
  | nil =>
    cases h
    rwa [List.append_nil]
  | cons f fs ih =>
    have hstep : ∀ {newest'}, NewestAmong seg (done ++ [f]) newest' →
        newestOf J config d readFile newest' fs = .ok result →
        NewestAmong seg (done ++ f :: fs) result := by
      intro newest' hn hr
      have := ih _ (fun g hg ↦ hcontent g (List.mem_cons_of_mem _ hg))
        (fun g hg ↦ hfaith g (List.mem_cons_of_mem _ hg))
        (fun g hg ↦ hsorted g (List.mem_cons_of_mem _ hg)) hn hr
      rwa [List.append_assoc] at this
    rw [newestOf, hcontent f List.mem_cons_self] at h
    rcases hread : readFile f with - | err
    · simp only [hread] at h
      rcases readLastEntry_segmentBytes (config.path f) (hfaith f List.mem_cons_self)
        with hlast | ⟨err, herr⟩
      · rw [hlast] at h
        rcases hl : (seg f).getLast? with - | e
        · rw [hl] at h
          exact hstep (hnewest.append_empty (List.getLast?_eq_none_iff.1 hl)) h
        · rw [hl] at h
          refine hstep (hnewest.append_last hl
            (le_getLast_of_pairwise (hsorted f List.mem_cons_self) hl)) ?_
          rcases newest with - | ⟨p, hash, seq⟩
          · exact h
          · exact h
      · rw [herr] at h
        cases h
    · simp [hread] at h

/-- A segment in which no line is longer than a block can be resumed from. -/
theorem exists_readLastEntry_eq_ok (path : String)
    (hshort : ∀ e ∈ es, J.RoundTrips e ∧ (J.line e).length ≤ block) :
    ∃ last, readLastEntry J path (segmentBytes J es) = .ok last := by
  rcases es.eq_nil_or_concat with rfl | ⟨init, e, rfl⟩
  · exact ⟨none, rfl⟩
  · rw [List.concat_eq_append] at hshort ⊢
    obtain ⟨hrt, hle⟩ := hshort e (by simp)
    exact ⟨some e, readLastEntry_of_short _ hrt hle⟩

/-- The scan succeeds when every file can be read and resumed from. -/
theorem exists_newestOf_eq_ok {config : LogConfig} {readFile : String → Option String}
    {fs : List String} (hread : ∀ f, readFile f = none)
    (hlast : ∀ f ∈ fs, ∃ last, readLastEntry J (config.path f) (d.content f) = .ok last)
    (newest : Option (String × String × ℕ)) :
    ∃ result, newestOf J config d readFile newest fs = .ok result := by
  induction fs generalizing newest with
  | nil => exact ⟨newest, rfl⟩
  | cons f fs ih =>
    obtain ⟨last, hf⟩ := hlast f List.mem_cons_self
    have ih' := ih fun g hg ↦ hlast g (List.mem_cons_of_mem _ hg)
    simp only [newestOf, hread f, hf]
    cases last with
    | none => exact ih' newest
    | some entry => exact ih' _

/-- What a resuming writer finds is the newest entry of all segments. -/
theorem Layout.newestAmong {seg : String → List AuditEntry} (h : Layout J d es seg)
    (hfaith : ∀ e ∈ es, J.Faithful e)
    (hsorted : ∀ f ∈ d.logFiles, (seg f).Pairwise fun a b ↦ a.sequence < b.sequence)
    {config : LogConfig} {io : OpenIo} {result : Option (String × String × ℕ)}
    (hfind : Cordon.findExistingLogFile J config d io = .ok result) :
    NewestAmong seg d.logFiles result := by
  rw [Cordon.findExistingLogFile] at hfind
  cases hdir : io.readDir with
  | some err => simp [hdir] at hfind
  | none =>
    simp only [hdir] at hfind
    have := newestAmong_of_newestOf [] h.content
      (fun f hf e he ↦ hfaith e (h.mem hf he)) hsorted
      (show NewestAmong seg [] none from fun f hf ↦ by cases hf) hfind
    rwa [List.nil_append] at this

/-- **A resuming writer finds the end of the chain**: no segment with entries when nothing was ever
appended, and otherwise a segment of the directory with the last entry's hash and sequence. -/
theorem Holds.findExistingLogFile (h : Holds J d es) (hfaith : ∀ e ∈ es, J.Faithful e)
    {deploymentId : String} {config : LogConfig} {io : OpenIo}
    {result : Option (String × String × ℕ)}
    (hchain : SealedChain J (computeGenesisHash deploymentId) 0 es)
    (hfind : findExistingLogFile J config d io = .ok result) :
    (es = [] ∧ result = none) ∨
      ∃ f ∈ d.logFiles, es ≠ [] ∧ result = some (f, logTail deploymentId es, es.length) := by
  obtain ⟨seg, h, hsorted⟩ := h
  have hmem : ∀ e, e ∈ es ↔ ∃ f ∈ d.logFiles, e ∈ seg f := fun e ↦ by
    rw [← h.perm.mem_iff, List.mem_flatMap]
  have hnew := h.newestAmong hfaith hsorted hfind
  cases result with
  | none =>
    left
    refine ⟨List.eq_nil_iff_forall_not_mem.2 fun e he ↦ ?_, rfl⟩
    obtain ⟨f, hf, hef⟩ := (hmem e).1 he
    rw [hnew f hf] at hef
    cases hef
  | some n =>
    obtain ⟨p, hash, seq⟩ := n
    obtain ⟨hp, e, he, rfl, rfl, hmax⟩ := hnew
    right
    have hees : e ∈ es := (hmem e).2 ⟨p, hp, List.mem_of_getLast? he⟩
    -- the entry found has the greatest sequence, and only the last entry of the chain does
    rcases es.eq_nil_or_concat with hnil | ⟨init, last, hconcat⟩
    · rw [hnil] at hees
      cases hees
    rw [List.concat_eq_append] at hconcat
    have hlast : e = last := by
      have hlastmem : last ∈ es := by rw [hconcat]; simp
      obtain ⟨f, hf, hlf⟩ := (hmem last).1 hlastmem
      have hge := hmax f hf last hlf
      have hp := hchain.pairwise_sequence
      rw [hconcat] at hp hees
      rcases List.mem_append.1 hees with hin | hin
      · have := (List.pairwise_append.1 hp).2.2 e hin last (by simp)
        omega
      · exact List.mem_singleton.1 hin
    have hseq : e.sequence = es.length := by
      have hch := hchain
      rw [hconcat] at hch
      have := (sealedChain_append_singleton.1 hch).2.sequence_eq
      rw [hlast, this, hconcat]
      simp
    refine ⟨p, hp, by rw [hconcat]; simp, ?_⟩
    rw [hseq, hlast, hconcat, logTail_append_singleton]

end Read

end Cordon
