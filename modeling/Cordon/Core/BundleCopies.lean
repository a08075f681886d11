import Cordon.Core.BundleJobs

/-!
# Folders that look like bundles

An import and an export copy the shards of a bundle one after the other and its manifest last, and
remove the folder where that fails. The application may end at any point of it, even while it
removes what it has copied, and is then started again on what is left.

**A folder only reads as a bundle once it is complete** (`copied_bundle_is_complete`). Whether the
target is there is looked at before a job begins and not as it begins, so a copy may begin onto a
folder that another has made in between, write over it, and remove it if it fails; the result is
about the runs in which that does not happen (`Uncontended`). The folders that sealing makes, each
under an identifier with random digits, are left out of it. The manifest of the source has to end
with its last brace, as sealing writes it, so that no part of it reads as a manifest.
-/

namespace Cordon

open Transition

variable {reads : Bytes → Bool} {job : CopyJob} {folder : BundleFolder}

/-- Sources that can be told apart from parts of them: no shard is where the manifest is, and no
part of the manifest reads as one. -/
structure CopyJob.WellPlaced (reads : Bytes → Bool) (job : CopyJob) : Prop where
  apart : manifestLocation ∉ job.shards
  whole : ∀ bytes, job.source manifestLocation = some bytes →
    ∀ n < bytes.length, reads (bytes.take n) = false

/-- A folder that does not look like a bundle. -/
def BundleFolder.Unread (reads : Bytes → Bool) (folder : BundleFolder) : Prop :=
  ∀ bytes, folder manifestLocation = some bytes → reads bytes = false

theorem BundleFolder.Unread.of_none (h : folder manifestLocation = none) :
    folder.Unread reads := by
  intro bytes hbytes
  rw [h] at hbytes
  cases hbytes

namespace CopyJob

theorem fileAt_eq_some {k : ℕ} {file : List String} {bytes : Bytes} :
    job.fileAt k = some (file, bytes) ↔
      job.files[k]? = some file ∧ job.source file = some bytes := by
  simp only [fileAt, Option.bind_eq_some_iff, Option.map_eq_some_iff, Prod.mk.injEq]
  constructor
  · rintro ⟨file', hfile, bytes', hbytes, rfl, rfl⟩
    exact ⟨hfile, hbytes⟩
  · rintro ⟨hfile, hbytes⟩
    exact ⟨file, hfile, bytes, hbytes, rfl, rfl⟩

/-- The files in front of the last are the shards. -/
theorem mem_shards_of_getElem? {k : ℕ} {file : List String} (h : job.files[k]? = some file)
    (hk : k < job.shards.length) : file ∈ job.shards := by
  rw [files, List.getElem?_append_left hk] at h
  exact List.mem_of_getElem? h

/-- The last is the manifest. -/
theorem eq_manifest_of_getElem? {k : ℕ} {file : List String} (h : job.files[k]? = some file)
    (hk : ¬k < job.shards.length) : k = job.shards.length ∧ file = manifestLocation := by
  have hlt := (List.getElem?_eq_some_iff.1 h).1
  rw [length_files] at hlt
  obtain rfl : k = job.shards.length := by omega
  rw [files, List.getElem?_concat_length] at h
  exact ⟨rfl, (Option.some.inj h).symm⟩

/-- What a copy has made of its target, by how far it is. -/
def Progress (reads : Bytes → Bool) (job : CopyJob) :
    CallStage → Option BundleFolder → Prop
  | .begun, there => there = none
  | .copying k, there => ∃ folder, there = some folder ∧
      (∀ file ∈ job.files.take k, job.Copied folder file) ∧
      (k ≤ job.shards.length → folder manifestLocation = none)
  | .writing k n, there => ∃ folder file bytes, there = some folder ∧
      job.fileAt k = some (file, bytes) ∧ folder file = some (bytes.take n) ∧
      (∀ other ∈ job.files.take k, other ≠ file → job.Copied folder other) ∧
      (k < job.shards.length → folder manifestLocation = none)
  | .failing _, there => ∀ folder, there = some folder → folder.Unread reads
  | .worked (.ok _), there => ∃ folder, there = some folder ∧ job.CopiedTo folder
  | .recorded (.ok _) _, there => ∃ folder, there = some folder ∧ job.CopiedTo folder
  | _, _ => True

/-- A call without a worker that has copied nothing says nothing of its target. -/
theorem Progress.of_rest {stage : CallStage} {there : Option BundleFolder}
    (hlive : stage.isLive = false)
    (hrecorded : ∀ outcome cancelled, stage ≠ .recorded (.ok outcome) cancelled) :
    job.Progress reads stage there := by
  cases stage with
  | idle => trivial
  | checked => trivial
  | refused message => trivial
  | gone => trivial
  | recorded outcome cancelled =>
    rcases outcome with e | outcome
    · trivial
    · exact absurd rfl (hrecorded outcome cancelled)
  | _ => cases hlive

/-- **A file in the making makes no bundle**, unless it is the manifest and all there. -/
theorem copiedTo_of_writing (hplaced : job.WellPlaced reads) {k n : ℕ} {bytes : Bytes}
    (h : job.Progress reads (.writing k n) (some folder))
    (hbytes : folder manifestLocation = some bytes) (hread : reads bytes = true) :
    job.CopiedTo folder := by
  obtain ⟨folder', file, contents, hsome, hfile, hwritten, hothers, hnone⟩ := h
  obtain rfl := Option.some.inj hsome
  obtain ⟨hat, hsource⟩ := fileAt_eq_some.1 hfile
  by_cases hk : k < job.shards.length
  · rw [hnone hk] at hbytes
    cases hbytes
  · obtain ⟨rfl, rfl⟩ := eq_manifest_of_getElem? hat hk
    obtain rfl := Option.some.inj (hwritten.symm.trans hbytes)
    by_cases hn : n < contents.length
    · rw [hplaced.whole contents hsource n hn] at hread
      cases hread
    · rw [List.take_of_length_le (not_lt.1 hn)] at hwritten
      intro other hother
      rw [files, List.mem_append, List.mem_singleton] at hother
      rcases hother with hshard | rfl
      · refine hothers other ?_ fun heq ↦ hplaced.apart (heq ▸ hshard)
        rw [files, List.take_left]
        exact hshard
      · exact ⟨by rw [hsource]; rfl, hwritten.trans hsource.symm⟩

/-- A file that is not all there leaves a folder that does not look like a bundle. -/
theorem unread_of_writing (hplaced : job.WellPlaced reads) {k n : ℕ} {file : List String}
    {bytes : Bytes} (h : job.Progress reads (.writing k n) (some folder))
    (hfile : job.fileAt k = some (file, bytes)) (hn : n < bytes.length) :
    folder.Unread reads := by
  obtain ⟨folder', file', bytes', hsome, hfile', hwritten, -, hnone⟩ := h
  obtain rfl := Option.some.inj hsome
  obtain ⟨rfl, rfl⟩ := Prod.mk.inj (Option.some.inj (hfile.symm.trans hfile'))
  obtain ⟨hat, hsource⟩ := fileAt_eq_some.1 hfile
  by_cases hk : k < job.shards.length
  · exact .of_none (hnone hk)
  · obtain ⟨-, rfl⟩ := eq_manifest_of_getElem? hat hk
    intro contents hcontents
    obtain rfl := Option.some.inj (hwritten.symm.trans hcontents)
    exact hplaced.whole bytes hsource n hn

/-- More of a file is written. -/
theorem Progress.putFile {k n : ℕ} {file : List String} {bytes : Bytes}
    (hplaced : job.WellPlaced reads) (hfile : job.fileAt k = some (file, bytes))
    (hothers : ∀ other ∈ job.files.take k, other ≠ file → job.Copied folder other)
    (hnone : k < job.shards.length → folder manifestLocation = none) :
    job.Progress reads (.writing k n)
      (some (Function.update folder file (some (bytes.take n)))) := by
  refine ⟨_, file, bytes, rfl, hfile, Function.update_self .., fun other hother hne ↦ ?_,
    fun hk ↦ ?_⟩
  · obtain ⟨hsome, heq⟩ := hothers other hother hne
    exact ⟨hsome, (Function.update_of_ne hne ..).trans heq⟩
  · have hshard := mem_shards_of_getElem? (fileAt_eq_some.1 hfile).1 hk
    have hne : manifestLocation ≠ file := fun heq ↦ hplaced.apart (heq ▸ hshard)
    exact (Function.update_of_ne hne ..).trans (hnone hk)

/-- A file that is all there is copied. -/
theorem Progress.close {k : ℕ} {file : List String} {bytes : Bytes} {there : Option BundleFolder}
    (h : job.Progress reads (.writing k bytes.length) there)
    (hfile : job.fileAt k = some (file, bytes)) : job.Progress reads (.copying (k + 1)) there := by
  obtain ⟨folder, file', bytes', rfl, hfile', hwritten, hothers, hnone⟩ := h
  obtain ⟨rfl, rfl⟩ := Prod.mk.inj (Option.some.inj (hfile.symm.trans hfile'))
  obtain ⟨hat, hsource⟩ := fileAt_eq_some.1 hfile
  rw [List.take_length] at hwritten
  have hcopied : job.Copied folder file := ⟨by rw [hsource]; rfl, hwritten.trans hsource.symm⟩
  refine ⟨folder, rfl, fun other hother ↦ ?_, fun hk ↦ hnone (by omega)⟩
  rw [List.take_add_one, hat, Option.toList_some, List.mem_append, List.mem_singleton] at hother
  rcases hother with hother | rfl
  · by_cases heq : other = file
    · rw [heq]
      exact hcopied
    · exact hothers other hother heq
  · exact hcopied

end CopyJob

namespace BundleJobs

variable {ι : Type} [DecidableEq ι] {calls : ι → BundleCall} {dirs : String → Option BundleFolder}
  {s : BundleJobs ι} {i : ι}

/-- A copy begins only while its target is not there. -/
def Uncontended (calls : ι → BundleCall) (s : BundleJobs ι) (a : JobsAction ι) : Prop :=
  ∀ i job, (calls i).work = .copy job → s.stage i = .checked → (s.step calls a).stage i = .begun →
    s.dirs job.target = none

/-- A folder looks like a bundle only if a copy has made it one. -/
def Truthful (reads : Bytes → Bool) (calls : ι → BundleCall) (target : String)
    (folder : BundleFolder) : Prop :=
  ∀ bytes, folder manifestLocation = some bytes → reads bytes = true →
    ∃ i job, (calls i).work = .copy job ∧ job.target = target ∧ job.CopiedTo folder

/-- What holds of the folders, in whatever order things happen. -/
structure CopyInv (reads : Bytes → Bool) (calls : ι → BundleCall)
    (dirs : String → Option BundleFolder) (s : BundleJobs ι) : Prop where
  /-- What was there at first is as it was. -/
  kept : ∀ target folder, dirs target = some folder → s.dirs target = some folder
  truthful : ∀ target folder, dirs target = none → s.dirs target = some folder →
    Truthful reads calls target folder
  progress : ∀ i job, (calls i).work = .copy job →
    job.Progress reads (s.stage i) (s.dirs job.target)
  /-- A copy under way has its target to itself. -/
  fresh : ∀ i job, (calls i).work = .copy job → s.Live i → dirs job.target = none
  alone : ∀ i j job other outcome cancelled, (calls i).work = .copy job →
    (calls j).work = .copy other → s.Live i → s.stage j = .recorded (.ok outcome) cancelled →
      other.target ≠ job.target

omit [DecidableEq ι] in
theorem live_of_stage {stage : CallStage} (hi : s.stage i = stage) (hlive : stage.isLive = true) :
    s.Live i :=
  (congrArg CallStage.isLive hi).trans hlive

namespace CopyInv

omit [DecidableEq ι] in
/-- What a copy has made of its target, at the stage that it is at. -/
theorem progressAt (h : s.CopyInv reads calls dirs) {job : CopyJob} {stage : CallStage}
    (hwork : (calls i).work = .copy job) (hi : s.stage i = stage) :
    job.Progress reads stage (s.dirs job.target) :=
  hi ▸ h.progress i job hwork

omit [DecidableEq ι] in
theorem init (dirs : String → Option BundleFolder) :
    (init dirs : BundleJobs ι).CopyInv reads calls dirs where
  kept _ _ h := h
  truthful target folder hnone hsome := by
    have hdirs : (BundleJobs.init dirs : BundleJobs ι).dirs target = dirs target := rfl
    rw [hdirs, hnone] at hsome
    cases hsome
  progress _ _ _ := trivial
  fresh _ _ _ hi := by cases hi
  alone _ _ _ _ _ _ _ _ hi := by cases hi

/-- A call without a worker stays without. -/
theorem rest (h : s.CopyInv reads calls dirs) {stage : CallStage} (hlive : stage.isLive = false)
    (hrecorded : ∀ outcome cancelled, stage ≠ .recorded outcome cancelled) :
    (s.enter i stage).CopyInv reads calls dirs := by
  have hold : ∀ j, (s.enter i stage).Live j → s.Live j := fun j hj ↦ by
    rw [Live, stage_enter] at hj
    split at hj
    · rw [hlive] at hj
      cases hj
    · exact hj
  refine ⟨h.kept, h.truthful, fun j job hwork ↦ ?_,
    fun j job hwork hj ↦ h.fresh j job hwork (hold j hj),
    fun j k job other outcome cancelled hwork hother hj hk ↦ ?_⟩
  · rw [stage_enter]
    split
    · exact .of_rest hlive fun outcome ↦ hrecorded (.ok outcome)
    · exact h.progress j job hwork
  · rw [stage_enter] at hk
    split at hk
    · exact absurd hk (hrecorded _ _)
    · exact h.alone j k job other outcome cancelled hwork hother (hold j hj) hk

/-- **A worker moves on**, and what it does to its target is all that is done. -/
theorem work (h : s.CopyInv reads calls dirs) (hjobs : s.JobInv) {job : CopyJob}
    {stage : CallStage} {there : Option BundleFolder} (hi : s.Live i)
    (hwork : (calls i).work = .copy job) (hlive : stage.isLive = true)
    (hprogress : job.Progress reads stage there)
    (htruthful : ∀ folder, there = some folder → Truthful reads calls job.target folder) :
    ((s.enter i stage).put job.target there).CopyInv reads calls dirs := by
  have hfresh := h.fresh i job hwork hi
  have hput : ∀ target, ((s.enter i stage).put job.target there).dirs target =
      if target = job.target then there else s.dirs target := fun target ↦
    Function.update_apply s.dirs job.target there target
  have hstage : ∀ j, ((s.enter i stage).put job.target there).stage j =
      if j = i then stage else s.stage j := fun j ↦ stage_enter s i j stage
  have hlives : ∀ j, ((s.enter i stage).put job.target there).Live j → j = i := fun j hj ↦ by
    by_contra hne
    rw [Live, hstage, if_neg hne] at hj
    exact hne (hjobs.unique j i hj hi)
  refine ⟨fun target folder hsome ↦ ?_, fun target folder hnone hsome ↦ ?_,
    fun j other hother ↦ ?_, fun j other hother hj ↦ ?_,
    fun j k mine other outcome cancelled hmine hother hj hk ↦ ?_⟩
  · have hne : target ≠ job.target := by
      rintro rfl
      rw [hfresh] at hsome
      cases hsome
    rw [hput, if_neg hne]
    exact h.kept target folder hsome
  · rw [hput] at hsome
    split at hsome
    · next heq =>
      rw [heq]
      exact htruthful folder hsome
    · exact h.truthful target folder hnone hsome
  · rw [hstage, hput]
    split
    · next hji =>
      obtain rfl := hji
      obtain rfl := BundleWork.copy.inj (hwork.symm.trans hother)
      rw [if_pos rfl]
      exact hprogress
    · next hji =>
      split
      · next heq =>
        -- another call with this target has no worker, and has copied nothing to it
        have hidle : (s.stage j).isLive = false := by
          rw [← Bool.not_eq_true]
          exact fun hj ↦ hji (hjobs.unique j i hj hi)
        exact .of_rest hidle fun outcome cancelled hj ↦
          h.alone i j job other outcome cancelled hwork hother hi hj heq
      · exact h.progress j other hother
  · obtain rfl := hlives j hj
    exact h.fresh j other hother hi
  · obtain rfl := hlives j hj
    rw [hstage] at hk
    split at hk
    · rw [hk] at hlive
      cases hlive
    · exact h.alone j k mine other outcome cancelled hmine hother hi hk

/-- **A worker moves on** and leaves its target alone. -/
theorem advance (h : s.CopyInv reads calls dirs) (hjobs : s.JobInv) {job : CopyJob}
    {stage : CallStage} (hi : s.Live i) (hwork : (calls i).work = .copy job)
    (hlive : stage.isLive = true) (hprogress : job.Progress reads stage (s.dirs job.target)) :
    (s.enter i stage).CopyInv reads calls dirs := by
  have hput : (s.enter i stage).put job.target (s.dirs job.target) = s.enter i stage := by
    rw [put]
    simp only [enter, Function.update_eq_self]
  rw [← hput]
  exact h.work hjobs hi hwork hlive hprogress fun folder hfolder ↦
    h.truthful job.target folder (h.fresh i job hwork hi) hfolder

/-- A worker writes to a file of its target. -/
theorem putFile (h : s.CopyInv reads calls dirs) (hjobs : s.JobInv) {job : CopyJob}
    (hplaced : job.WellPlaced reads) (hi : s.Live i) (hwork : (calls i).work = .copy job) {k n : ℕ}
    {file : List String} {bytes : Bytes} (hfile : job.fileAt k = some (file, bytes))
    (hfolder : s.dirs job.target = some folder)
    (hothers : ∀ other ∈ job.files.take k, other ≠ file → job.Copied folder other)
    (hnone : k < job.shards.length → folder manifestLocation = none) :
    ((s.enter i (.writing k n)).putFile job.target file (bytes.take n)).CopyInv reads calls
      dirs := by
  have hprogress := CopyJob.Progress.putFile (n := n) hplaced hfile hothers hnone
  have hput : (s.enter i (.writing k n)).putFile job.target file (bytes.take n) =
      (s.enter i (.writing k n)).put job.target
        (some (Function.update folder file (some (bytes.take n)))) := by
    show BundleJobs.put _ _ ((s.dirs job.target).map _) = _
    rw [hfolder, Option.map_some]
  rw [hput]
  refine h.work hjobs hi hwork rfl hprogress fun made hmade contents hcontents hread ↦ ?_
  obtain rfl := Option.some.inj hmade
  exact ⟨i, job, hwork, rfl, CopyJob.copiedTo_of_writing hplaced hprogress hcontents hread⟩

/-- A worker that copies nothing is done. -/
theorem workOther (h : s.CopyInv reads calls dirs) (hwork : (calls i).work = .other)
    (hi : s.Live i) (outcome : JobOutcome) :
    (s.enter i (.worked outcome)).CopyInv reads calls dirs := by
  have hne : ∀ {j job}, (calls j).work = .copy job → j ≠ i := by
    rintro j job hcopy rfl
    rw [hwork] at hcopy
    cases hcopy
  have hlives : ∀ {j job}, (calls j).work = .copy job → (s.enter i (.worked outcome)).Live j →
      s.Live j := fun hcopy hj ↦ by
    rwa [Live, stage_enter_of_ne s (hne hcopy)] at hj
  refine ⟨h.kept, h.truthful, fun j job hcopy ↦ ?_,
    fun j job hcopy hj ↦ h.fresh j job hcopy (hlives hcopy hj),
    fun j k job other result cancelled hcopy hother hj hk ↦ ?_⟩
  · rw [stage_enter_of_ne s (hne hcopy)]
    exact h.progress j job hcopy
  · rw [stage_enter_of_ne s (hne hother)] at hk
    exact h.alone j k job other result cancelled hcopy hother (hlives hcopy hj) hk

/-- A job begins. -/
theorem begin (h : s.CopyInv reads calls dirs) (hjobs : s.JobInv)
    (hfree : ∀ v, s.view = some v → v.stage ≠ .running)
    (hnone : ∀ job, (calls i).work = .copy job → s.dirs job.target = none) :
    (s.begin i (calls i)).CopyInv reads calls dirs := by
  have hbegun := hjobs.begin (i := i) hfree (calls i)
  have hself : (s.begin i (calls i)).Live i :=
    congrArg CallStage.isLive (stage_enter_self s i .begun)
  have hstage : ∀ j, (s.begin i (calls i)).stage j = if j = i then .begun else s.stage j :=
    fun j ↦ stage_enter s i j .begun
  refine ⟨h.kept, h.truthful, fun j job hwork ↦ ?_, fun j job hwork hj ↦ ?_,
    fun j k job other outcome cancelled hwork hother hj hk heq ↦ ?_⟩
  · rw [hstage]
    split
    · next hji =>
      obtain rfl := hji
      exact hnone job hwork
    · exact h.progress j job hwork
  · obtain rfl := hbegun.unique j i hj hself
    rcases hthere : dirs job.target with - | folder
    · rfl
    · have hsome := h.kept job.target folder hthere
      rw [hnone job hwork] at hsome
      cases hsome
  · obtain rfl := hbegun.unique j i hj hself
    rw [hstage] at hk
    split at hk
    · cases hk
    · -- what was copied is there, where this copy has found nothing
      have hcopied := h.progress k other hother
      rw [hk] at hcopied
      obtain ⟨folder, hfolder, -⟩ := hcopied
      rw [heq, hnone job hwork] at hfolder
      cases hfolder

/-- A worker's outcome is put in view. -/
theorem record (h : s.CopyInv reads calls dirs) (hjobs : s.JobInv) {outcome : JobOutcome}
    (hi : s.stage i = .worked outcome) :
    ({ s.enter i (.recorded outcome s.cancel) with
      view := s.view.map (·.settle outcome s.cancel) } : BundleJobs ι).CopyInv reads calls
        dirs := by
  have hlive : s.Live i := live_of_stage hi rfl
  have hnobody : ∀ j, ¬(s.enter i (.recorded outcome s.cancel)).Live j := by
    intro j hj
    rcases eq_or_ne j i with rfl | hne
    · rw [Live, stage_enter_self] at hj
      cases hj
    · rw [Live, stage_enter_of_ne s hne] at hj
      exact hne (hjobs.unique j i hj hlive)
  refine ⟨h.kept, h.truthful, fun j job hwork ↦ ?_, fun j _ _ hj ↦ (hnobody j hj).elim,
    fun j _ _ _ _ _ _ _ hj ↦ (hnobody j hj).elim⟩
  have hprogress := h.progress j job hwork
  show job.Progress reads ((s.enter i (.recorded outcome s.cancel)).stage j) (s.dirs job.target)
  rw [stage_enter]
  split
  · next hji =>
    rw [hji, hi] at hprogress
    rcases outcome with e | outcome
    · trivial
    · exact hprogress
  · exact hprogress

/-- **One step of one call.** -/
theorem move (hplaced : ∀ i job, (calls i).work = .copy job → job.WellPlaced reads)
    (h : s.CopyInv reads calls dirs) (hjobs : s.JobInv) {s' : BundleJobs ι}
    (hbegin : ∀ job, (calls i).work = .copy job → s.stage i = .checked → s'.stage i = .begun →
      s.dirs job.target = none)
    (hmove : Move (calls i) s i s') : s'.CopyInv reads calls dirs := by
  cases hmove with
  | refuse message hi => exact h.rest rfl (by simp)
  | check hi => exact h.rest rfl (by simp)
  | begin hi hfree =>
    exact h.begin hjobs hfree fun job hwork ↦ hbegin job hwork hi (stage_enter_self s i .begun)
  | work outcome hi hother => exact h.workOther hother (live_of_stage hi rfl) outcome
  | create job hi hwork =>
    have hnone : s.dirs job.target = none := h.progressAt hwork hi
    rw [hnone]
    refine h.work hjobs (live_of_stage hi rfl) hwork rfl ⟨_, rfl, fun file hfile ↦ ?_, fun _ ↦ rfl⟩
      fun folder hfolder bytes hbytes ↦ ?_
    · cases hfile
    · obtain rfl := Option.some.inj hfolder
      cases hbytes
  | createFailed job message folder hi hwork hfolder =>
    have hnone : s.dirs job.target = none := h.progressAt hwork hi
    have hempty : ∀ made, folder = some made → made manifestLocation = none := by
      rintro made rfl
      rw [hnone] at hfolder
      rcases hfolder with hfolder | hfolder
      · cases hfolder
      · obtain rfl := Option.some.inj hfolder
        rfl
    refine h.work hjobs (live_of_stage hi rfl) hwork rfl
      (fun made hmade ↦ .of_none (hempty made hmade))
      fun made hmade bytes hbytes ↦ ?_
    rw [hempty made hmade] at hbytes
    cases hbytes
  | halt job k message hi hwork hk =>
    obtain ⟨folder, hfolder, -, hnone⟩ := h.progressAt hwork hi
    refine h.advance hjobs (live_of_stage hi rfl) hwork rfl fun made hmade ↦ ?_
    obtain rfl := Option.some.inj (hfolder.symm.trans hmade)
    rw [CopyJob.length_files] at hk
    exact .of_none (hnone (by omega))
  | «open» job k file bytes hi hwork hfile =>
    obtain ⟨folder, hfolder, hcopied, hnone⟩ := h.progressAt hwork hi
    exact h.putFile (n := 0) hjobs (hplaced i job hwork) (live_of_stage hi rfl) hwork hfile hfolder
      (fun other hother _ ↦ hcopied other hother) fun hk ↦ hnone hk.le
  | write job k m n file bytes hi hwork hfile hn =>
    obtain ⟨folder, file', bytes', hfolder, hfile', -, hothers, hnone⟩ := h.progressAt hwork hi
    obtain ⟨rfl, rfl⟩ := Prod.mk.inj (Option.some.inj (hfile.symm.trans hfile'))
    exact h.putFile hjobs (hplaced i job hwork) (live_of_stage hi rfl) hwork hfile hfolder hothers
      hnone
  | close job k file bytes hi hwork hfile =>
    exact h.advance hjobs (live_of_stage hi rfl) hwork rfl ((h.progressAt hwork hi).close hfile)
  | fail job k n file bytes message hi hwork hfile hn =>
    have hprogress := h.progressAt hwork hi
    refine h.advance hjobs (live_of_stage hi rfl) hwork rfl fun made hmade ↦ ?_
    rw [hmade] at hprogress
    exact CopyJob.unread_of_writing (hplaced i job hwork) hprogress hfile hn
  | finish job hi hwork =>
    obtain ⟨folder, hfolder, hcopied, -⟩ := h.progressAt hwork hi
    rw [List.take_length] at hcopied
    exact h.advance hjobs (live_of_stage hi rfl) hwork rfl ⟨folder, hfolder, hcopied⟩
  | remove job message folder hi hwork hfolder =>
    have hprogress := h.progressAt hwork hi
    have hunread : ∀ made, folder = some made → made.Unread reads := by
      intro made hmade bytes hbytes
      obtain ⟨old, hold, hless⟩ := hfolder made hmade
      rcases hless manifestLocation with heq | hnone
      · exact hprogress old hold bytes (heq ▸ hbytes)
      · rw [hnone] at hbytes
        cases hbytes
    refine h.work hjobs (live_of_stage hi rfl) hwork rfl trivial
      fun made hmade bytes hbytes hread ↦ ?_
    rw [hunread made hmade bytes hbytes] at hread
    cases hread
  | report event hi => exact ⟨h.kept, h.truthful, h.progress, h.fresh, h.alone⟩
  | record outcome hi => exact h.record hjobs hi

/-- **One action.** -/
theorem step (hplaced : ∀ i job, (calls i).work = .copy job → job.WellPlaced reads)
    (h : s.CopyInv reads calls dirs) (hjobs : s.JobInv) {a : JobsAction ι}
    (hok : Uncontended calls s a) : (s.step calls a).CopyInv reads calls dirs := by
  rcases a with ⟨i, a⟩ | - | - | -
  · have hcases : s.callStep i (calls i) a = s ∨ Move (calls i) s i (s.callStep i (calls i) a) :=
      callStep_cases a
    rcases hcases with hsame | hmove
    · rw [BundleJobs.step, hsame]
      exact h
    · exact h.move hplaced hjobs (fun job hwork hi hi' ↦ hok i job hwork hi hi') hmove
  · exact ⟨h.kept, h.truthful, h.progress, h.fresh, h.alone⟩
  · exact ⟨h.kept, h.truthful, h.progress, h.fresh, h.alone⟩
  · have hnobody : ∀ i, ¬(s.stage i).afterRestart.isLive = true := fun i ↦ by
      rw [CallStage.isLive_afterRestart]
      decide
    refine ⟨h.kept, h.truthful, fun i job hwork ↦ ?_, fun i _ _ hi ↦ absurd hi (hnobody i),
      fun i _ _ _ _ _ _ _ hi ↦ absurd hi (hnobody i)⟩
    have hprogress := h.progress i job hwork
    show job.Progress reads (s.stage i).afterRestart (s.dirs job.target)
    cases hi : s.stage i with
    | recorded outcome cancelled =>
      rw [hi] at hprogress
      exact hprogress
    | _ => trivial

end CopyInv

/-- **A folder only reads as a bundle once it is complete.** Wherever copies stop, fail and are
removed, and wherever the application ends, as long as no copy begins onto a folder that is there:
what was there at first is as it was; any other folder that reads as a bundle holds all the files of
a bundle that was copied to it, each as the source has it; and a copy that is said to be done is
there and complete. -/
theorem copied_bundle_is_complete
    (hplaced : ∀ i job, (calls i).work = .copy job → job.WellPlaced reads)
    (h : s.Reached calls dirs (Uncontended calls)) :
    (∀ target folder, dirs target = some folder → s.dirs target = some folder) ∧
    (∀ target folder bytes, dirs target = none → s.dirs target = some folder →
      folder manifestLocation = some bytes → reads bytes = true →
        ∃ i job, (calls i).work = .copy job ∧ job.target = target ∧ job.CopiedTo folder) ∧
    ∀ i job outcome cancelled, (calls i).work = .copy job →
      s.stage i = .recorded (.ok outcome) cancelled →
        ∃ folder, s.dirs job.target = some folder ∧ job.CopiedTo folder := by
  have hinv : s.CopyInv reads calls dirs :=
    h.invariant (CopyInv reads calls dirs) (.init dirs) fun t a hreach hok hcopies ↦
      hcopies.step hplaced (Reached.jobInv hreach) hok
  refine ⟨hinv.kept, fun target folder bytes hnone hsome hbytes hread ↦
    hinv.truthful target folder hnone hsome bytes hbytes hread,
    fun i job outcome cancelled hwork hi ↦ ?_⟩
  have hprogress := hinv.progress i job hwork
  rw [hi] at hprogress
  exact hprogress

/-! ### A sample: an import that is stopped, and an export -/

namespace SampleCopy

/-- A bundle of two shards. -/
def manifest : BundleManifest :=
  { SampleBundle.manifest with
    shards := SampleBundle.manifest.shards.flatMap fun shard ↦
      [shard, { shard with path := "shard-1.enc" }] }

/-- The folder that both calls copy. -/
def source : BundleFolder := fun file ↦
  if file = manifestLocation then some [0x7b, 0x7d]
  else if file = ["shard-0.enc"] then some [0x61, 0x62]
  else some [0x63]

/-- What ends with a brace reads as a manifest. -/
def endsWithBrace (bytes : Bytes) : Bool :=
  bytes.getLast? = some 0x7d

/-- An import into the store, and an export to a disk. -/
def clicks : Bool → BundleCall
  | false => .import "/cordon/bundles" source manifest
  | true => .export "/media/disk" source manifest

/-- What each of them copies. -/
def copies : Bool → CopyJob
  | false =>
    { source, manifest
      target := "/cordon/bundles/sample"
      taken := "A bundle with this ID is already in the store."
      result := "Imported into the store" }
  | true =>
    { source, manifest
      target := "/media/disk/sample.bundle"
      taken := "/media/disk/sample.bundle already exists."
      result := "Exported" }

/-- The import has copied one shard when it is asked to stop, and its folder is not removed to the
end; the application ends and is started again, and the export runs through. -/
def run : List (JobsAction Bool) :=
  [.check none, .begin, .create none, .open none, .write 1, .write 2, .close].map (.call false) ++
    [.cancel] ++
    [.open none, .remove (some (· = ["shard-0.enc"])), .record].map (.call false) ++
    [.restart] ++
    [.check none, .begin, .create none, .open none, .write 2, .close, .open none, .write 1, .close,
      .open none, .write 1, .write 2, .close, .finish, .record].map (.call true)

/-- Where it ends. -/
def copied : BundleJobs Bool :=
  final (step clicks) (init fun _ ↦ none) run

theorem work_clicks (i : Bool) : (clicks i).work = .copy (copies i) := by
  cases i <;> rfl

theorem wellPlaced (i : Bool) : (copies i).WellPlaced endsWithBrace where
  apart := by
    rw [show (copies i).shards = [["shard-0.enc"], ["shard-1.enc"]] by cases i <;> rfl]
    simp [manifestLocation]
  whole bytes hbytes n hn := by
    have hmanifest : (copies i).source manifestLocation = some [0x7b, 0x7d] := by cases i <;> rfl
    obtain rfl := Option.some.inj (hmanifest.symm.trans hbytes)
    rcases n with - | - | n
    · rfl
    · rfl
    · exact absurd hn (by simp)

/-- No call is about to begin whose target is there. -/
def isClear (s : BundleJobs Bool) (i : Bool) : Bool :=
  match s.stage i with
  | .checked => (s.dirs (copies i).target).isNone
  | _ => true

theorem reached_copied : copied.Reached clicks (fun _ ↦ none) (Uncontended clicks) := by
  have hclear : AllSteps (step clicks) (fun s _ ↦ isClear s false ∧ isClear s true)
      (init fun _ ↦ none) run := by decide
  refine reachable_final (hclear.mono fun s a h i copy hwork hchecked _ ↦ ?_) .start
  obtain rfl := BundleWork.copy.inj ((work_clicks i).symm.trans hwork)
  have hi : isClear s i := by
    cases i
    · exact h.1
    · exact h.2
  rw [isClear, hchecked] at hi
  exact Option.isNone_iff_eq_none.1 hi

end SampleCopy

/-- The import leaves a folder that does not look like a bundle, the export one that is there and
complete. -/
theorem copied_bundle_is_complete_sample :
    (∃ left, SampleCopy.copied.dirs "/cordon/bundles/sample" = some left ∧
      left ["shard-0.enc"] = some [0x61, 0x62] ∧ left.Unread SampleCopy.endsWithBrace) ∧
    ∃ folder, SampleCopy.copied.dirs "/media/disk/sample.bundle" = some folder ∧
      (SampleCopy.copies true).CopiedTo folder := by
  have hplaced : ∀ i copy, (SampleCopy.clicks i).work = .copy copy →
      copy.WellPlaced SampleCopy.endsWithBrace := by
    intro i copy hwork
    obtain rfl := BundleWork.copy.inj ((SampleCopy.work_clicks i).symm.trans hwork)
    exact SampleCopy.wellPlaced i
  obtain ⟨-, htruthful, hdone⟩ := copied_bundle_is_complete hplaced SampleCopy.reached_copied
  refine ⟨⟨_, rfl, rfl, fun bytes hbytes ↦ ?_⟩, hdone true _ _ _ (SampleCopy.work_clicks true) rfl⟩
  by_contra hread
  -- the folder would hold the second shard too
  obtain ⟨i, copy, hwork, htarget, hcopied⟩ :=
    htruthful "/cordon/bundles/sample" _ bytes rfl rfl hbytes (by simpa using hread)
  obtain rfl := BundleWork.copy.inj ((SampleCopy.work_clicks i).symm.trans hwork)
  obtain ⟨hsome, heq⟩ := hcopied ["shard-1.enc"] (by cases i <;> decide)
  rw [← heq] at hsome
  cases hsome

end BundleJobs

end Cordon
