import Cordon.Core.Bundles
import Cordon.Lib.PathLocation
import Cordon.Lib.Transition
import Mathlib.Logic.Function.Basic

/-!
# Bundle jobs

The desktop application seals, verifies, imports and exports bundles one at a time: a call begins
under a lock that turns it away while a job is running, a worker does the work, and its outcome is
put in view until it is dismissed or another job begins. Calls, workers, the buttons to stop and to
dismiss, and the application's own end interleave in any order (`BundleJobs.step`).

**One job runs at a time, and none is lost from view** (`bundle_jobs_one_at_a_time`): there is a
worker exactly while the view says so, and what the view then says is what the worker came to.

An import and an export copy a folder, the shards first and the manifest last. What that makes of
the folders is a matter of its own.

The invariant `JobInv` has a clause for each direction of that, and one for the flag. It rests on
the lock being held while the view is looked at and changed, so that `begin` is one step, and on a
worker's last act being to put its outcome in view. `callStep_cases` says once what a step can do,
and nothing after it looks at the steps.
-/

namespace Cordon

open Transition

/-! ### Jobs in view -/

/-- How far a job is. -/
inductive JobStage
  | running
  | done
  | failed
  | cancelled
  deriving DecidableEq, Repr

/-- A job in progress, or the last one to finish. -/
structure JobState where
  kind : String
  label : String
  bundleId : Option String
  done : ℕ
  total : ℕ
  stage : JobStage
  error : Option String
  result : Option String
  output : Option String
  deriving DecidableEq, Repr

/-- What a worker reports. -/
inductive BundleEvent
  | started (bundleId : String) (totalBytes : ℕ)
  | progress (doneBytes totalBytes : ℕ)
  | shard
  deriving DecidableEq, Repr

/-- What a job comes to: the outcome in words and where the result was written, or what went
wrong. -/
abbrev JobOutcome : Type :=
  Except String (String × Option String)

namespace JobState

/-- A job that has just begun. -/
def begun (kind label : String) : JobState :=
  ⟨kind, label, none, 0, 0, .running, none, none, none⟩

def isRunning (v : JobState) : Bool :=
  v.stage = .running

/-- The reporter of `Jobs::run`. -/
def report (v : JobState) : BundleEvent → JobState
  | .started bundleId totalBytes => { v with bundleId := some bundleId, total := totalBytes }
  | .progress doneBytes totalBytes => { v with done := doneBytes, total := totalBytes }
  | .shard => v

/-- The end of `Jobs::run`: an error counts as a cancellation if the flag is set by then. -/
def settle (v : JobState) (outcome : JobOutcome) (cancelled : Bool) : JobState :=
  match outcome with
  | .ok (result, output) => { v with stage := .done, result := some result, output := output }
  | .error e =>
    if cancelled then { v with stage := .cancelled }
    else { v with stage := .failed, error := some e }

/-- What a view says of a job that is over. -/
def Shows (v : JobState) (outcome : JobOutcome) (cancelled : Bool) : Prop :=
  match outcome with
  | .ok (result, output) => v.stage = .done ∧ v.result = some result ∧ v.output = output
  | .error e => if cancelled then v.stage = .cancelled else v.stage = .failed ∧ v.error = some e

theorem isRunning_iff {v : JobState} : v.isRunning = true ↔ v.stage = .running := by
  simp [isRunning]

@[simp]
theorem stage_report (v : JobState) (event : BundleEvent) : (v.report event).stage = v.stage := by
  rcases event with ⟨bundleId, totalBytes⟩ | ⟨doneBytes, totalBytes⟩ | - <;> rfl

theorem shows_settle (v : JobState) (outcome : JobOutcome) (cancelled : Bool) :
    (v.settle outcome cancelled).Shows outcome cancelled ∧
      (v.settle outcome cancelled).stage ≠ .running := by
  rcases outcome with e | ⟨result, output⟩
  · rcases cancelled with - | - <;> simp [settle, Shows]
  · simp [settle, Shows]

end JobState

/-! ### Copies -/

/-- The files of a bundle's folder, by where they are in it. -/
abbrev BundleFolder : Type :=
  List String → Option Bytes

/-- Where the manifest is. -/
def manifestLocation : List String :=
  ["manifest.json"]

/-- A copy of a bundle's folder: an import into the store, or an export out of it. -/
structure CopyJob where
  source : BundleFolder
  target : String
  manifest : BundleManifest
  /-- What is said if the target is there. -/
  taken : String
  /-- The outcome, in words. -/
  result : String

namespace CopyJob

variable (job : CopyJob)

/-- Where the shards are. -/
def shards : List (List String) :=
  job.manifest.shards.map fun shard ↦ UnixPath.locate [] shard.path

/-- The files that `copy_bundle` copies, in its order. -/
def files : List (List String) :=
  job.shards ++ [manifestLocation]

theorem length_files : job.files.length = job.shards.length + 1 := by
  simp [files]

/-- The `k`th of the files, with what is in it. -/
def fileAt (k : ℕ) : Option (List String × Bytes) :=
  (job.files[k]?).bind fun file ↦ (job.source file).map (file, ·)

/-- A folder holds a file as the source does. -/
def Copied (folder : BundleFolder) (file : List String) : Prop :=
  (job.source file).isSome ∧ folder file = job.source file

/-- A folder holds the bundle. -/
def CopiedTo (folder : BundleFolder) : Prop :=
  ∀ file ∈ job.files, job.Copied folder file

end CopyJob

/-- What a job works on. -/
inductive BundleWork
  | copy (job : CopyJob)
  /-- Verifying, which writes nothing, or sealing. The folder that sealing writes is under an
  identifier of its own and is left out. -/
  | other

/-- A call of one of the methods of `Jobs`. -/
structure BundleCall where
  kind : String
  label : String
  work : BundleWork

/-- `Jobs::import`. -/
def BundleCall.import (store : String) (dir : BundleFolder) (manifest : BundleManifest) :
    BundleCall where
  kind := "import"
  label := "Importing " ++ manifest.modelName
  work := .copy
    { source := dir
      target := UnixPath.join store manifest.bundleId
      manifest
      taken := "A bundle with this ID is already in the store."
      result := "Imported into the store" }

/-- `Jobs::export`. -/
def BundleCall.export (folder : String) (dir : BundleFolder) (manifest : BundleManifest) :
    BundleCall where
  kind := "export"
  label := "Exporting " ++ manifest.modelName
  work := .copy
    { source := dir
      target := UnixPath.join folder (manifest.bundleId ++ ".bundle")
      manifest
      taken := UnixPath.join folder (manifest.bundleId ++ ".bundle") ++ " already exists."
      result := "Exported" }

/-! ### Any number of calls -/

/-- How far a call is. -/
inductive CallStage
  | idle
  /-- The method has looked at what it is given, and has not begun. -/
  | checked
  | refused (message : String)
  /-- The worker is there and has done nothing yet. -/
  | begun
  /-- The worker has copied the first `k` files. -/
  | copying (k : ℕ)
  /-- It has written `n` bytes of the `k`th. -/
  | writing (k n : ℕ)
  /-- The copy has failed, and its target is to be removed. -/
  | failing (message : String)
  | worked (outcome : JobOutcome)
  /-- The outcome is in view, as a cancellation or not. -/
  | recorded (outcome : JobOutcome) (cancelled : Bool)
  /-- The application has ended before the call has. -/
  | gone

namespace CallStage

/-- Whether there is a worker. -/
def isLive : CallStage → Bool
  | .begun | .copying _ | .writing _ _ | .failing _ | .worked _ => true
  | _ => false

/-- What the end of the application leaves of a call. -/
def afterRestart : CallStage → CallStage
  | .idle => .idle
  | .refused message => .refused message
  | .recorded outcome cancelled => .recorded outcome cancelled
  | _ => .gone

theorem isLive_afterRestart (stage : CallStage) : stage.afterRestart.isLive = false := by
  cases stage <;> rfl

end CallStage

/-- One step of a call. -/
inductive CallStep
  /-- Look whether the target is there; something else may be a reason to refuse, as a bundle of the
  same ID elsewhere in the store is. -/
  | check (refuses : Option String)
  | begin
  /-- All of the work of sealing or verifying. -/
  | work (outcome : JobOutcome)
  /-- Create the target; where that fails, the folder may be there all the same. -/
  | create (fails : Option (String × Bool))
  /-- Open the next file and its copy. -/
  | open (fails : Option String)
  | write (n : ℕ)
  | close
  | fail (message : String)
  | finish
  /-- Remove the target; where that fails, some of its files are kept. -/
  | remove (kept : Option (List String → Bool))
  | report (event : BundleEvent)
  | record

/-- Why a call is refused by what is at its target. -/
def BundleCall.taken (call : BundleCall) (dirs : String → Option BundleFolder) : Option String :=
  match call.work with
  | .copy job => (dirs job.target).map fun _ ↦ job.taken
  | .other => none

/-- What happens to the jobs of an application. -/
inductive JobsAction (ι : Type)
  | call (i : ι) (step : CallStep)
  | cancel
  | dismiss
  /-- The application ends at once and is started again. -/
  | restart

/-- The jobs and the folders they copy to. `asked` are the calls that have been asked to stop since
they began. -/
structure BundleJobs (ι : Type) where
  view : Option JobState
  cancel : Bool
  stage : ι → CallStage
  dirs : String → Option BundleFolder
  asked : ι → Bool

namespace BundleJobs

variable {ι : Type} [DecidableEq ι]

/-- An application that has just been started. -/
def init (dirs : String → Option BundleFolder) : BundleJobs ι :=
  ⟨none, false, fun _ ↦ .idle, dirs, fun _ ↦ false⟩

variable (s : BundleJobs ι) (i : ι)

/-- A call moves on. -/
def enter (stage : CallStage) : BundleJobs ι :=
  { s with stage := Function.update s.stage i stage }

/-- A folder comes to be as given. -/
def put (target : String) (folder : Option BundleFolder) : BundleJobs ι :=
  { s with dirs := Function.update s.dirs target folder }

/-- A file comes to hold what is given. -/
def putFile (target : String) (file : List String) (contents : Bytes) : BundleJobs ι :=
  s.put target ((s.dirs target).map fun folder ↦ Function.update folder file (some contents))

/-- `Jobs::begin`, where no job is running. -/
def begin (call : BundleCall) : BundleJobs ι :=
  { s.enter i .begun with
    view := some (.begun call.kind call.label)
    cancel := false
    asked := Function.update s.asked i false }

/-- One step of one call. -/
def callStep (call : BundleCall) : CallStep → BundleJobs ι
  | .check refuses =>
    match s.stage i with
    | .idle => s.enter i (((call.taken s.dirs).or refuses).elim .checked .refused)
    | _ => s
  | .begin =>
    match s.stage i with
    | .checked =>
      if s.view.any JobState.isRunning then
        s.enter i (.refused "Another bundle task is still running.")
      else s.begin i call
    | _ => s
  | .work outcome =>
    match s.stage i, call.work with
    | .begun, .other => s.enter i (.worked outcome)
    | _, _ => s
  | .create fails =>
    match s.stage i, call.work with
    | .begun, .copy job =>
      match fails with
      | none => (s.enter i (.copying 0)).put job.target
          (some ((s.dirs job.target).getD fun _ ↦ none))
      | some (e, there) => (s.enter i (.failing e)).put job.target
          (if there then some ((s.dirs job.target).getD fun _ ↦ none) else s.dirs job.target)
    | _, _ => s
  | .open fails =>
    match s.stage i, call.work with
    | .copying k, .copy job =>
      -- the flag is read in front of every shard, and not in front of the manifest
      if decide (k < job.shards.length) && s.cancel then s.enter i (.failing "cancelled")
      else if k < job.files.length then
        match fails, job.fileAt k with
        | none, some (file, _) => (s.enter i (.writing k 0)).putFile job.target file []
        | some e, _ => s.enter i (.failing e)
        | none, none => s.enter i (.failing "No such file or directory (os error 2)")
      else s
    | _, _ => s
  | .write n =>
    match s.stage i, call.work with
    | .writing k m, .copy job =>
      match job.fileAt k with
      | some (file, bytes) =>
        if m ≤ n ∧ n ≤ bytes.length then
          (s.enter i (.writing k n)).putFile job.target file (bytes.take n)
        else s
      | none => s
    | _, _ => s
  | .close =>
    match s.stage i, call.work with
    | .writing k n, .copy job =>
      match job.fileAt k with
      | some (_, bytes) => if n = bytes.length then s.enter i (.copying (k + 1)) else s
      | none => s
    | _, _ => s
  | .fail message =>
    match s.stage i, call.work with
    | .writing k n, .copy job =>
      match job.fileAt k with
      | some (_, bytes) => if n < bytes.length then s.enter i (.failing message) else s
      | none => s
    | _, _ => s
  | .finish =>
    match s.stage i, call.work with
    | .copying k, .copy job =>
      if k = job.files.length then s.enter i (.worked (.ok (job.result, some job.target))) else s
    | _, _ => s
  | .remove kept =>
    match s.stage i, call.work with
    | .failing message, .copy job =>
      (s.enter i (.worked (.error message))).put job.target (kept.bind fun kept ↦
        (s.dirs job.target).map fun folder file ↦ if kept file then folder file else none)
    | _, _ => s
  | .report event =>
    if (s.stage i).isLive then { s with view := s.view.map (·.report event) } else s
  | .record =>
    match s.stage i with
    | .worked outcome =>
      { s.enter i (.recorded outcome s.cancel) with
        view := s.view.map (·.settle outcome s.cancel) }
    | _ => s

/-- One action. -/
def step (calls : ι → BundleCall) (s : BundleJobs ι) : JobsAction ι → BundleJobs ι
  | .call i a => s.callStep i (calls i) a
  | .cancel => { s with cancel := true, asked := fun i ↦ s.asked i || (s.stage i).isLive }
  | .dismiss => { s with view := s.view.filter JobState.isRunning }
  | .restart =>
    { s with view := none, cancel := false, stage := fun i ↦ (s.stage i).afterRestart }

/-- The states that some order of the actions reaches. -/
abbrev Reached (calls : ι → BundleCall) (dirs : String → Option BundleFolder)
    (ok : BundleJobs ι → JobsAction ι → Prop) (s : BundleJobs ι) : Prop :=
  Reachable (step calls) ok (init dirs) s

/-! ### What one step of a call can do -/

variable {s} {i : ι} {call : BundleCall}

/-- What a step of a call makes of a state, if anything. -/
inductive Move (call : BundleCall) (s : BundleJobs ι) (i : ι) : BundleJobs ι → Prop
  | refuse (message : String) (h : s.stage i = .idle ∨ s.stage i = .checked) :
    Move call s i (s.enter i (.refused message))
  | check (h : s.stage i = .idle) : Move call s i (s.enter i .checked)
  | begin (h : s.stage i = .checked) (hfree : ∀ v, s.view = some v → v.stage ≠ .running) :
    Move call s i (s.begin i call)
  | work (outcome : JobOutcome) (h : s.stage i = .begun) (hwork : call.work = .other) :
    Move call s i (s.enter i (.worked outcome))
  | create (job : CopyJob) (h : s.stage i = .begun) (hwork : call.work = .copy job) :
    Move call s i ((s.enter i (.copying 0)).put job.target
      (some ((s.dirs job.target).getD fun _ ↦ none)))
  | createFailed (job : CopyJob) (message : String) (folder : Option BundleFolder)
      (h : s.stage i = .begun) (hwork : call.work = .copy job)
      (hfolder : folder = s.dirs job.target ∨
        folder = some ((s.dirs job.target).getD fun _ ↦ none)) :
    Move call s i ((s.enter i (.failing message)).put job.target folder)
  | halt (job : CopyJob) (k : ℕ) (message : String) (h : s.stage i = .copying k)
      (hwork : call.work = .copy job) (hk : k < job.files.length) :
    Move call s i (s.enter i (.failing message))
  | open (job : CopyJob) (k : ℕ) (file : List String) (bytes : Bytes) (h : s.stage i = .copying k)
      (hwork : call.work = .copy job) (hfile : job.fileAt k = some (file, bytes)) :
    Move call s i ((s.enter i (.writing k 0)).putFile job.target file [])
  | write (job : CopyJob) (k m n : ℕ) (file : List String) (bytes : Bytes)
      (h : s.stage i = .writing k m) (hwork : call.work = .copy job)
      (hfile : job.fileAt k = some (file, bytes)) (hn : n ≤ bytes.length) :
    Move call s i ((s.enter i (.writing k n)).putFile job.target file (bytes.take n))
  | close (job : CopyJob) (k : ℕ) (file : List String) (bytes : Bytes)
      (h : s.stage i = .writing k bytes.length) (hwork : call.work = .copy job)
      (hfile : job.fileAt k = some (file, bytes)) :
    Move call s i (s.enter i (.copying (k + 1)))
  | fail (job : CopyJob) (k n : ℕ) (file : List String) (bytes : Bytes) (message : String)
      (h : s.stage i = .writing k n) (hwork : call.work = .copy job)
      (hfile : job.fileAt k = some (file, bytes)) (hn : n < bytes.length) :
    Move call s i (s.enter i (.failing message))
  | finish (job : CopyJob) (h : s.stage i = .copying job.files.length)
      (hwork : call.work = .copy job) :
    Move call s i (s.enter i (.worked (.ok (job.result, some job.target))))
  | remove (job : CopyJob) (message : String) (folder : Option BundleFolder)
      (h : s.stage i = .failing message) (hwork : call.work = .copy job)
      (hfolder : ∀ new, folder = some new → ∃ old, s.dirs job.target = some old ∧
        ∀ file, new file = old file ∨ new file = none) :
    Move call s i ((s.enter i (.worked (.error message))).put job.target folder)
  | report (event : BundleEvent) (h : (s.stage i).isLive = true) :
    Move call s i { s with view := s.view.map (·.report event) }
  | record (outcome : JobOutcome) (h : s.stage i = .worked outcome) :
    Move call s i { s.enter i (.recorded outcome s.cancel) with
      view := s.view.map (·.settle outcome s.cancel) }

/-- **What one step of a call can do.** -/
theorem callStep_cases (a : CallStep) :
    s.callStep i call a = s ∨ Move call s i (s.callStep i call a) := by
  cases a with
  | check refuses =>
    simp only [callStep]
    split
    · next h =>
      rcases hrefuses : (call.taken s.dirs).or refuses with - | message
      · exact Or.inr (.check h)
      · exact Or.inr (.refuse message (Or.inl h))
    · exact Or.inl rfl
  | begin =>
    simp only [callStep]
    split
    · next h =>
      split
      · exact Or.inr (.refuse _ (Or.inr h))
      · next hview =>
        refine Or.inr (.begin h fun v hv hrunning ↦ hview ?_)
        rw [hv]
        exact JobState.isRunning_iff.2 hrunning
    · exact Or.inl rfl
  | work outcome =>
    simp only [callStep]
    split
    · next h hwork => exact Or.inr (.work outcome h hwork)
    · exact Or.inl rfl
  | create fails =>
    simp only [callStep]
    split
    · next job h hwork =>
      rcases fails with - | ⟨message, there⟩
      · exact Or.inr (.create job h hwork)
      · refine Or.inr (.createFailed job message _ h hwork ?_)
        rcases there with - | -
        · exact Or.inl rfl
        · exact Or.inr rfl
    · exact Or.inl rfl
  | «open» fails =>
    simp only [callStep]
    split
    · next k job h hwork =>
      split
      · next hcancel =>
        have hk : k < job.shards.length := by simpa using (Bool.and_eq_true_iff.1 hcancel).1
        have hfiles := job.length_files
        exact Or.inr (.halt job k _ h hwork (by omega))
      · split
        · next hk =>
          rcases fails with - | message
          · rcases hfile : job.fileAt k with - | ⟨file, bytes⟩
            · exact Or.inr (.halt job k _ h hwork hk)
            · exact Or.inr (.open job k file bytes h hwork hfile)
          · exact Or.inr (.halt job k message h hwork hk)
        · exact Or.inl rfl
    · exact Or.inl rfl
  | write n =>
    simp only [callStep]
    split
    · next k m job h hwork =>
      split
      · next file bytes hfile =>
        split
        · next hn => exact Or.inr (.write job k m n file bytes h hwork hfile hn.2)
        · exact Or.inl rfl
      · exact Or.inl rfl
    · exact Or.inl rfl
  | close =>
    simp only [callStep]
    split
    · next k n job h hwork =>
      split
      · next file bytes hfile =>
        split
        · next hn => exact Or.inr (.close job k file bytes (hn ▸ h) hwork hfile)
        · exact Or.inl rfl
      · exact Or.inl rfl
    · exact Or.inl rfl
  | fail message =>
    simp only [callStep]
    split
    · next k n job h hwork =>
      split
      · next file bytes hfile =>
        split
        · next hn => exact Or.inr (.fail job k n file bytes message h hwork hfile hn)
        · exact Or.inl rfl
      · exact Or.inl rfl
    · exact Or.inl rfl
  | finish =>
    simp only [callStep]
    split
    · next k job h hwork =>
      split
      · next hk => exact Or.inr (.finish job (hk ▸ h) hwork)
      · exact Or.inl rfl
    · exact Or.inl rfl
  | remove kept =>
    simp only [callStep]
    split
    · next message job h hwork =>
      refine Or.inr (.remove job message _ h hwork fun new hnew ↦ ?_)
      obtain ⟨kept, -, hkept⟩ := Option.bind_eq_some_iff.1 hnew
      obtain ⟨old, hold, rfl⟩ := Option.map_eq_some_iff.1 hkept
      refine ⟨old, hold, fun file ↦ ?_⟩
      by_cases hfile : kept file = true
      · exact Or.inl (if_pos hfile)
      · exact Or.inr (if_neg hfile)
    · exact Or.inl rfl
  | report event =>
    simp only [callStep]
    split
    · next h => exact Or.inr (.report event h)
    · exact Or.inl rfl
  | record =>
    simp only [callStep]
    split
    · next outcome h => exact Or.inr (.record outcome h)
    · exact Or.inl rfl

/-! ### One worker, and what it came to -/

/-- Whether a call has a worker. -/
def Live (s : BundleJobs ι) (i : ι) : Prop :=
  (s.stage i).isLive = true

/-- What holds of the view, in whatever order things happen. -/
structure JobInv (s : BundleJobs ι) : Prop where
  unique : ∀ i j, s.Live i → s.Live j → i = j
  /-- Where there is a worker, the view says so. -/
  running : ∀ i, s.Live i → ∃ v, s.view = some v ∧ v.stage = .running
  worker : ∀ v, s.view = some v → v.stage = .running → ∃ i, s.Live i
  /-- What the view says otherwise is what the last worker came to. -/
  shown : ∀ v, s.view = some v → v.stage ≠ .running →
    ∃ i outcome, s.stage i = .recorded outcome (s.asked i) ∧ v.Shows outcome (s.asked i)
  /-- The flag is up exactly when the worker has been asked to stop. -/
  asked : ∀ i, s.Live i → s.asked i = s.cancel

theorem stage_enter (s : BundleJobs ι) (i j : ι) (stage : CallStage) :
    (s.enter i stage).stage j = if j = i then stage else s.stage j :=
  Function.update_apply s.stage i stage j

theorem stage_enter_self (s : BundleJobs ι) (i : ι) (stage : CallStage) :
    (s.enter i stage).stage i = stage :=
  Function.update_self ..

theorem stage_enter_of_ne (s : BundleJobs ι) {i j : ι} (h : j ≠ i) (stage : CallStage) :
    (s.enter i stage).stage j = s.stage j :=
  Function.update_of_ne h ..

namespace JobInv

variable {s : BundleJobs ι} {i : ι}

omit [DecidableEq ι] in
theorem init (dirs : String → Option BundleFolder) : (init dirs : BundleJobs ι).JobInv where
  unique i j hi := by cases hi
  running i hi := by cases hi
  worker v hv := by cases hv
  shown v hv := by cases hv
  asked i hi := by cases hi

omit [DecidableEq ι] in
/-- The folders are nothing to the view. -/
theorem put (h : s.JobInv) (target : String) (folder : Option BundleFolder) :
    (s.put target folder).JobInv :=
  ⟨h.unique, h.running, h.worker, h.shown, h.asked⟩

/-- A call moves on without beginning or ending its work. -/
theorem enter (h : s.JobInv) (stage : CallStage) {old : CallStage} (hi : s.stage i = old)
    (hlive : stage.isLive = old.isLive)
    (hrecorded : ∀ outcome cancelled, old ≠ .recorded outcome cancelled) :
    (s.enter i stage).JobInv := by
  have hiff : ∀ j, (s.enter i stage).Live j ↔ s.Live j := fun j ↦ by
    rw [Live, stage_enter, Live]
    split
    · next hji => rw [hlive, hji, hi]
    · rfl
  refine ⟨fun j k hj hk ↦ h.unique j k ((hiff j).1 hj) ((hiff k).1 hk),
    fun j hj ↦ h.running j ((hiff j).1 hj), fun v hv hrunning ↦ ?_, fun v hv hover ↦ ?_,
    fun j hj ↦ h.asked j ((hiff j).1 hj)⟩
  · obtain ⟨j, hj⟩ := h.worker v hv hrunning
    exact ⟨j, (hiff j).2 hj⟩
  · obtain ⟨j, outcome, hj, hshows⟩ := h.shown v hv hover
    have hne : j ≠ i := fun heq ↦ hrecorded _ _ (hi.symm.trans (heq ▸ hj))
    exact ⟨j, outcome, (stage_enter_of_ne s hne stage).trans hj, hshows⟩

/-- **A job begins** only where none is running, so that it is the only one. -/
theorem begin (h : s.JobInv) (hfree : ∀ v, s.view = some v → v.stage ≠ .running)
    (call : BundleCall) : (s.begin i call).JobInv := by
  have hnobody : ∀ j, ¬s.Live j := fun j hj ↦ by
    obtain ⟨v, hv, hrunning⟩ := h.running j hj
    exact hfree v hv hrunning
  have honly : ∀ j, (s.begin i call).Live j → j = i := by
    intro j hj
    by_contra hne
    rw [Live] at hj
    exact hnobody j ((congrArg CallStage.isLive (stage_enter_of_ne s hne .begun)).symm.trans hj)
  refine ⟨fun j k hj hk ↦ (honly j hj).trans (honly k hk).symm, fun j hj ↦ ⟨_, rfl, rfl⟩,
    fun v hv hrunning ↦ ⟨i, ?_⟩, fun v hv hover ↦ ?_, fun j hj ↦ ?_⟩
  · exact congrArg CallStage.isLive (stage_enter_self s i .begun)
  · obtain rfl := Option.some.inj hv
    exact absurd rfl hover
  · obtain rfl := honly j hj
    exact Function.update_self ..

/-- **A worker's outcome is put in view**, and there is no worker any more. -/
theorem record (h : s.JobInv) {outcome : JobOutcome} (hi : s.stage i = .worked outcome) :
    ({ s.enter i (.recorded outcome s.cancel) with
      view := s.view.map (·.settle outcome s.cancel) } : BundleJobs ι).JobInv := by
  have hlive : s.Live i := by rw [Live, hi]; rfl
  obtain ⟨v, hv, -⟩ := h.running i hlive
  have hself : (s.enter i (.recorded outcome s.cancel)).stage i = .recorded outcome s.cancel :=
    stage_enter_self ..
  have hnobody : ∀ j, (s.enter i (.recorded outcome s.cancel)).Live j → False := by
    intro j hj
    rcases eq_or_ne j i with rfl | hne
    · rw [Live, hself] at hj
      cases hj
    · rw [Live, stage_enter_of_ne s hne] at hj
      exact hne (h.unique j i hj hlive)
  refine ⟨fun j k hj ↦ (hnobody j hj).elim, fun j hj ↦ (hnobody j hj).elim, fun w hw hrunning ↦ ?_,
    fun w hw hover ↦ ⟨i, outcome, ?_, ?_⟩, fun j hj ↦ (hnobody j hj).elim⟩
  · rw [hv] at hw
    obtain rfl := Option.some.inj hw
    exact absurd hrunning (JobState.shows_settle v outcome s.cancel).2
  · show (s.enter i (.recorded outcome s.cancel)).stage i = .recorded outcome (s.asked i)
    rw [hself, h.asked i hlive]
  · rw [hv] at hw
    obtain rfl := Option.some.inj hw
    show (v.settle outcome s.cancel).Shows outcome (s.asked i)
    rw [h.asked i hlive]
    exact (JobState.shows_settle v outcome s.cancel).1

omit [DecidableEq ι] in
theorem report (h : s.JobInv) (hi : s.Live i) (event : BundleEvent) :
    ({ s with view := s.view.map (·.report event) } : BundleJobs ι).JobInv := by
  obtain ⟨v, hv, hrunning⟩ := h.running i hi
  have hview : s.view.map (·.report event) = some (v.report event) := by rw [hv, Option.map_some]
  have hstage : (v.report event).stage = .running := by rw [JobState.stage_report, hrunning]
  refine ⟨h.unique, fun j hj ↦ ⟨_, hview, hstage⟩, fun w hw _ ↦ ⟨i, hi⟩, fun w hw hover ↦ ?_,
    h.asked⟩
  obtain rfl := Option.some.inj (hview.symm.trans hw)
  exact absurd hstage hover

/-- **One step of one call.** -/
theorem move (h : s.JobInv) {call : BundleCall} {s' : BundleJobs ι} (hmove : Move call s i s') :
    s'.JobInv := by
  cases hmove with
  | refuse message hi =>
    rcases hi with hi | hi
    · exact h.enter _ hi rfl (by simp)
    · exact h.enter _ hi rfl (by simp)
  | check hi => exact h.enter _ hi rfl (by simp)
  | begin hi hfree => exact h.begin hfree call
  | work outcome hi => exact h.enter _ hi rfl (by simp)
  | create job hi => exact (h.enter (.copying 0) hi rfl (by simp)).put ..
  | createFailed job message folder hi =>
    exact (h.enter (.failing message) hi rfl (by simp)).put ..
  | halt job k message hi => exact h.enter _ hi rfl (by simp)
  | «open» job k file bytes hi => exact (h.enter (.writing k 0) hi rfl (by simp)).put ..
  | write job k m n file bytes hi => exact (h.enter (.writing k n) hi rfl (by simp)).put ..
  | close job k file bytes hi => exact h.enter _ hi rfl (by simp)
  | fail job k n file bytes message hi => exact h.enter _ hi rfl (by simp)
  | finish job hi => exact h.enter _ hi rfl (by simp)
  | remove job message folder hi =>
    exact (h.enter (.worked (.error message)) hi rfl (by simp)).put ..
  | report event hi => exact h.report hi event
  | record outcome hi => exact h.record hi

/-- **One action.** -/
theorem step (h : s.JobInv) (calls : ι → BundleCall) (a : JobsAction ι) :
    (s.step calls a).JobInv := by
  rcases a with ⟨i, a⟩ | - | - | -
  · have hcases : s.callStep i (calls i) a = s ∨ Move (calls i) s i (s.callStep i (calls i) a) :=
      callStep_cases a
    rcases hcases with hsame | hmove
    · rw [BundleJobs.step, hsame]
      exact h
    · exact h.move hmove
  · -- the flag goes up for the one worker there is
    refine ⟨h.unique, h.running, h.worker, fun v hv hover ↦ ?_, fun i hi ↦ ?_⟩
    · obtain ⟨i, outcome, hi, hshows⟩ := h.shown v hv hover
      have hasked : (s.asked i || (s.stage i).isLive) = s.asked i := by
        rw [hi]
        exact Bool.or_false _
      exact ⟨i, outcome, by show s.stage i = .recorded outcome (s.asked i || _); rw [hasked, hi],
        by show v.Shows outcome (s.asked i || _); rw [hasked]; exact hshows⟩
    · show (s.asked i || (s.stage i).isLive) = true
      rw [show (s.stage i).isLive = true from hi, Bool.or_true]
  · -- a view of a job that is running is not dismissed
    have hview : ∀ v, s.view.filter JobState.isRunning = some v → s.view = some v ∧
        v.stage = .running := fun v hv ↦ by
      obtain ⟨hv, hrunning⟩ := Option.filter_eq_some_iff.1 hv
      exact ⟨hv, JobState.isRunning_iff.1 hrunning⟩
    refine ⟨h.unique, fun i hi ↦ ?_, fun v hv ↦ h.worker v (hview v hv).1,
      fun v hv hover ↦ absurd (hview v hv).2 hover, h.asked⟩
    obtain ⟨v, hv, hrunning⟩ := h.running i hi
    exact ⟨v, Option.filter_eq_some_iff.2 ⟨hv, JobState.isRunning_iff.2 hrunning⟩, hrunning⟩
  · have hnobody : ∀ i, ¬(s.stage i).afterRestart.isLive = true := fun i ↦ by
      rw [CallStage.isLive_afterRestart]
      decide
    exact
      { unique := fun i _ hi ↦ absurd hi (hnobody i)
        running := fun i hi ↦ absurd hi (hnobody i)
        worker := fun _ hv ↦ absurd hv.symm (Option.some_ne_none _)
        shown := fun _ hv ↦ absurd hv.symm (Option.some_ne_none _)
        asked := fun i hi ↦ absurd hi (hnobody i) }

end JobInv

variable {calls : ι → BundleCall} {dirs : String → Option BundleFolder}
  {ok : BundleJobs ι → JobsAction ι → Prop} {s : BundleJobs ι}

theorem Reached.jobInv (h : s.Reached calls dirs ok) : s.JobInv :=
  h.invariant JobInv (.init dirs) fun _ a _ _ hinv ↦ hinv.step calls a

/-- **One bundle job runs at a time, and what it comes to is never lost.** In whatever order calls
begin, workers work, jobs are asked to stop and are dismissed and the application ends: there is at
most one worker; the view says that a job is running exactly while there is one; it says anything
else only of what the last worker came to, as a cancellation only if that one was asked to stop; and
when a worker is done, its outcome comes into view. -/
theorem bundle_jobs_one_at_a_time (h : s.Reached calls dirs ok) :
    (∀ i j, s.Live i → s.Live j → i = j) ∧
    ((∃ v, s.view = some v ∧ v.stage = .running) ↔ ∃ i, s.Live i) ∧
    (∀ v, s.view = some v → v.stage ≠ .running →
      ∃ i outcome, s.stage i = .recorded outcome (s.asked i) ∧ v.Shows outcome (s.asked i)) ∧
    ∀ i outcome, s.stage i = .worked outcome →
      ∃ v, (s.step calls (.call i .record)).view = some v ∧ v.Shows outcome (s.asked i) := by
  have hinv := h.jobInv
  refine ⟨hinv.unique, ⟨?_, ?_⟩, hinv.shown, fun i outcome hi ↦ ?_⟩
  · rintro ⟨v, hv, hrunning⟩
    exact hinv.worker v hv hrunning
  · rintro ⟨i, hi⟩
    exact hinv.running i hi
  · have hlive : s.Live i := by rw [Live, hi]; rfl
    obtain ⟨v, hv, -⟩ := hinv.running i hlive
    refine ⟨v.settle outcome s.cancel, ?_, ?_⟩
    · simp only [step, callStep, hi, hv, Option.map_some]
    · rw [hinv.asked i hlive]
      exact (JobState.shows_settle v outcome s.cancel).1

/-! ### A sample: one of two calls is turned away, the other is stopped -/

namespace SampleJobs

/-- Two clicks on one bundle. -/
def clicks : Bool → BundleCall := fun _ ↦
  ⟨"verify", "Verifying acme-7b", .other⟩

/-- The state after both have tried to begin, and the one that did has been stopped. -/
def jobs : BundleJobs Bool :=
  final (step clicks) (init fun _ ↦ none)
    [.call false (.check none), .call true (.check none), .call false .begin, .call true .begin,
      .cancel, .call false (.work (.error "cancelled")), .call false .record]

theorem reached_jobs : jobs.Reached clicks (fun _ ↦ none) fun _ _ ↦ True :=
  reachable_final AllSteps.trivial .start

end SampleJobs

/-- The view of the sample says that the job was cancelled, as the one that began was. -/
theorem bundle_jobs_one_at_a_time_sample : ∃ v, SampleJobs.jobs.view = some v ∧
    v.stage = .cancelled ∧ ∃ i outcome,
      SampleJobs.jobs.stage i = .recorded outcome (SampleJobs.jobs.asked i) ∧
        v.Shows outcome (SampleJobs.jobs.asked i) :=
  ⟨_, rfl, rfl, (bundle_jobs_one_at_a_time SampleJobs.reached_jobs).2.2.1 _ rfl
    (show JobStage.cancelled ≠ .running by decide)⟩

end BundleJobs

end Cordon
