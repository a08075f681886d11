import Cordon.Core.Lifecycle

/-!
# The plaintext of a sealed bundle and the runtime that reads it

A node that serves a sealed bundle decrypts it into a file, starts the model runtime on that file
and erases it once the runtime has loaded it. From then on a loop looks after the runtime: if the
child has exited, it is launched again **on the same path**, and nothing puts the file back.

`SupervisedNode` is the part of a node that these three share: the file, the child, and the node's
status. It also notes what each launch found at the path and what each successful start left there,
so that "the plaintext is there when it is read and gone afterwards" can be said of a whole run
(`SupervisedNode.PlaintextKept`).

The equivalence rests on what one launch does. The first finds the file that building has put there,
and erases it (`build_eq_ok`); from then on the law holds as long as nothing is launched again
(`Erased.step`), and a launch breaks it at once, because it finds nothing
(`not_plaintextKept_step`). The condition is therefore that the file can be removed, and that no
tick launches the runtime again.
-/

namespace Cordon

open Transition

/-- Why a runtime is not available. -/
inductive RuntimeUnavailable
  /-- Neither the file nor the runtime's binary may be missing at the start. -/
  | binaryNotFound
  | modelNotFound
  /-- The binary lacks a flag, or there is no port or no key file for it. -/
  | notPrepared (reason : String)
  | cannotLaunch (reason : String)
  | exitedDuringStartup
  | notHealthyInTime
  | servesWebUi
  deriving DecidableEq, Repr

/-- What the operating system and the child make of a launch. -/
inductive LaunchOutcome
  /-- The system does not launch the binary. -/
  | refused (reason : String)
  /-- The child exits before it is healthy. -/
  | exits
  /-- The child is there, and not healthy before the deadline. -/
  | hangs
  /-- The child is healthy, and a web page answers at its root. -/
  | servesWebUi
  | healthy
  deriving DecidableEq, Repr

/-- The child of a supervisor. -/
inductive ChildState
  | absent
  | running
  | exited
  deriving DecidableEq, Repr

/-- The part of a node that staging, the start and the supervision loop share. -/
structure SupervisedNode where
  state : NodeState
  /-- The file at the runtime's model path. -/
  modelFile : Option Bytes
  child : ChildState
  /-- Shutdown has begun. -/
  stopping : Bool
  /-- What each launch of the runtime found at the model path. -/
  launches : List (Option Bytes)
  /-- What each successful start has left there. -/
  afterStarts : List (Option Bytes)
  deriving DecidableEq

namespace SupervisedNode

/-- `LlamaSupervisor::spawn_child`. -/
def spawnChild (s : SupervisedNode) (outcome : LaunchOutcome) :
    SupervisedNode × Except RuntimeUnavailable Unit :=
  match outcome with
  | .refused reason => (s, .error (.cannotLaunch reason))
  | _ => ({ s with child := .running, launches := s.launches ++ [s.modelFile] }, .ok ())

/-- `await_healthy` and `assert_web_ui_unreachable`. A child that is late or shows a page is left
running. -/
def awaitHealthy (s : SupervisedNode) (outcome : LaunchOutcome) :
    SupervisedNode × Except RuntimeUnavailable Unit :=
  match outcome with
  | .exits => ({ s with child := .exited }, .error .exitedDuringStartup)
  | .hangs => (s, .error .notHealthyInTime)
  | .servesWebUi => (s, .error .servesWebUi)
  | _ => (s, .ok ())

/-- A launch up to its result. -/
def launch (s : SupervisedNode) (outcome : LaunchOutcome) :
    SupervisedNode × Except RuntimeUnavailable Unit :=
  match s.spawnChild outcome with
  | (s, .error e) => (s, .error e)
  | (s, .ok ()) => s.awaitHealthy outcome

/-- What a start meets besides the model file. -/
structure StartOccasion where
  binaryExists : Bool
  /-- The flags of the binary, a port and a key file. -/
  prepared : Except String Unit
  outcome : LaunchOutcome

/-- `LlamaSupervisor::start`. -/
def start (s : SupervisedNode) (o : StartOccasion) :
    SupervisedNode × Except RuntimeUnavailable Unit :=
  if !o.binaryExists then (s, .error .binaryNotFound)
  else if s.modelFile.isNone then (s, .error .modelNotFound)
  else
    match o.prepared with
    | .error reason => (s, .error (.notPrepared reason))
    | .ok () => s.launch o.outcome

/-- `LlamaSupervisor::terminate`. -/
def terminate (s : SupervisedNode) : SupervisedNode :=
  { s with child := .absent }

/-- `LlamaSupervisor::restart`: the same launch, on the same path. -/
def restart (s : SupervisedNode) (outcome : LaunchOutcome) :
    SupervisedNode × Except RuntimeUnavailable Unit :=
  s.terminate.launch outcome

/-- `StagedModel::erase`: the file is gone, unless it cannot be removed. -/
def erase (s : SupervisedNode) (removed : Bool) : SupervisedNode :=
  if removed then { s with modelFile := none } else s

/-- Note what a successful start leaves at the model path. -/
def noteStart (s : SupervisedNode) : SupervisedNode :=
  { s with afterStarts := s.afterStarts ++ [s.modelFile] }

/-- A node with a staged file, before its runtime is started. -/
def staged (plaintext : Bytes) : SupervisedNode :=
  ⟨⟨.initializing, .uninitialized⟩, some plaintext, .absent, false, [], []⟩

/-- `CordonNode::build`, as far as a sealed bundle is concerned: stage it, start the runtime on the
staged file, erase the file. A start that fails drops the staged model, and that erases it too. -/
def build (H : BundleHost) (store : BundleStore) (now : ℤ) (io : StagingIo) (bundleId : String)
    (o : StartOccasion) (removed : Bool) :
    Except CordonError (SupervisedNode × Except RuntimeUnavailable Unit) :=
  match store.stagePlaintext H now io bundleId with
  | (_, _, .error e) => .error e
  | (_, plaintext, .ok ()) =>
    match (staged plaintext).start o with
    | (s, .error e) => .ok (s.erase removed, .error e)
    | (s, .ok ()) => .ok ((s.erase removed).noteStart, .ok ())

/-- What happens to a node that has been built. -/
inductive Event
  /-- The child exits. -/
  | childExits
  /-- A tick of the supervision loop, and what becomes of a launch if there is one. -/
  | tick (outcome : LaunchOutcome)
  /-- Shutdown, and whether the staged file can be removed if it is still there. -/
  | shutdown (removed : Bool)
  /-- The node becomes operational. -/
  | goOperational

/-- A tick of the supervision loop: a child that is not running is launched again. -/
def superviseTick (s : SupervisedNode) (outcome : LaunchOutcome) : SupervisedNode :=
  if s.stopping then s
  else if s.child = .running then s
  else
    let s := { s with state := s.state.degrade }
    match s.restart outcome with
    | (s, .ok ()) => { s.noteStart with state := s.state.recoverFromDegraded }
    | (s, .error _) => { s with state := s.state.degrade }

/-- One event. -/
def step (s : SupervisedNode) : Event → SupervisedNode
  | .childExits => if s.child = .running then { s with child := .exited } else s
  | .tick outcome => s.superviseTick outcome
  | .shutdown removed =>
    if s.stopping then s else ({ s with stopping := true } : SupervisedNode).terminate.erase removed
  | .goOperational => { s with state := s.state.goOperational }

/-! ### The law -/

/-- **The plaintext is there when it is read and gone afterwards**: every launch found the bundle's
plaintext at the model path, and no successful start has left anything there. -/
structure PlaintextKept (plaintext : Bytes) (s : SupervisedNode) : Prop where
  launches : ∀ found ∈ s.launches, found = some plaintext
  afterStarts : ∀ left ∈ s.afterStarts, left = none

/-- An event that does not launch the runtime again: each tick finds the child running, or the
system refuses the launch, or the node is stopping. -/
def NoRelaunch (s : SupervisedNode) : Event → Prop
  | .tick outcome => s.stopping = true ∨ s.child = .running ∨ ∃ reason, outcome = .refused reason
  | _ => True

/-- Nothing is at the model path, and the law holds so far. -/
structure Erased (plaintext : Bytes) (s : SupervisedNode) : Prop where
  kept : s.PlaintextKept plaintext
  gone : s.modelFile = none

variable {plaintext : Bytes} {s : SupervisedNode}

theorem Erased.mono {s' : SupervisedNode} (h : s.Erased plaintext)
    (hlaunches : s'.launches = s.launches) (hafter : s'.afterStarts = s.afterStarts)
    (hfile : s'.modelFile = s.modelFile) : s'.Erased plaintext :=
  ⟨⟨hlaunches ▸ h.kept.launches, hafter ▸ h.kept.afterStarts⟩, hfile.trans h.gone⟩

/-- A tick that launches nothing changes the status at most. -/
theorem superviseTick_of_noRelaunch {outcome : LaunchOutcome}
    (h : s.NoRelaunch (.tick outcome)) :
    (s.superviseTick outcome).launches = s.launches ∧
      (s.superviseTick outcome).afterStarts = s.afterStarts ∧
      (s.superviseTick outcome).modelFile = s.modelFile := by
  rw [superviseTick]
  split
  · exact ⟨rfl, rfl, rfl⟩
  · next hstopping =>
    split
    · exact ⟨rfl, rfl, rfl⟩
    · next hrunning =>
      obtain ⟨reason, rfl⟩ := (h.resolve_left hstopping).resolve_left hrunning
      exact ⟨rfl, rfl, rfl⟩

/-- A tick that launches the runtime reads whatever is at the model path. -/
theorem launches_superviseTick {outcome : LaunchOutcome} (h : ¬s.NoRelaunch (.tick outcome)) :
    (s.superviseTick outcome).launches = s.launches ++ [s.modelFile] := by
  have hstopping : ¬s.stopping = true := fun hs ↦ h (Or.inl hs)
  have hrunning : ¬s.child = .running := fun hr ↦ h (Or.inr (Or.inl hr))
  rw [superviseTick, if_neg hstopping, if_neg hrunning]
  rcases outcome with reason | - | - | - | -
  · exact absurd (Or.inr (Or.inr ⟨reason, rfl⟩)) h
  · rfl
  · rfl
  · rfl
  · rfl

/-- **As long as nothing is launched again, the law holds.** -/
theorem Erased.step (h : s.Erased plaintext) {a : Event} (hno : s.NoRelaunch a) :
    (s.step a).Erased plaintext := by
  rcases a with - | outcome | removed | -
  · simp only [SupervisedNode.step]
    split
    · exact h.mono rfl rfl rfl
    · exact h
  · obtain ⟨hlaunches, hafter, hfile⟩ := superviseTick_of_noRelaunch hno
    exact h.mono hlaunches hafter hfile
  · simp only [SupervisedNode.step]
    split
    · exact h
    · rcases removed with - | -
      · exact h.mono rfl rfl rfl
      · exact ⟨⟨h.kept.launches, h.kept.afterStarts⟩, rfl⟩
  · exact h.mono rfl rfl rfl

/-- **A launch after the file was erased finds nothing.** -/
theorem not_plaintextKept_step (h : s.Erased plaintext) {a : Event} (hrelaunch : ¬s.NoRelaunch a) :
    ¬(s.step a).PlaintextKept plaintext := by
  rcases a with - | outcome | removed | -
  · exact absurd trivial hrelaunch
  · intro hkept
    have hfound := hkept.launches none (by
      show none ∈ (s.superviseTick outcome).launches
      rw [launches_superviseTick hrelaunch, h.gone]
      exact List.mem_append_right _ List.mem_cons_self)
    simp at hfound
  · exact absurd trivial hrelaunch
  · exact absurd trivial hrelaunch

/-! ### Building a node -/

/-- A start that succeeds has launched the runtime once, on the file that was there. -/
theorem start_eq_ok {o : StartOccasion} {s' : SupervisedNode} (h : s.start o = (s', .ok ())) :
    s' = { s with child := .running, launches := s.launches ++ [s.modelFile] } := by
  rw [start] at h
  split at h
  · simp at h
  · split at h
    · simp at h
    · split at h
      · simp at h
      · rcases ho : o.outcome with reason | - | - | - | -
        · simp [launch, spawnChild, ho] at h
        · simp [launch, spawnChild, awaitHealthy, ho] at h
        · simp [launch, spawnChild, awaitHealthy, ho] at h
        · simp [launch, spawnChild, awaitHealthy, ho] at h
        · simp only [launch, spawnChild, awaitHealthy, ho, Prod.mk.injEq, and_true] at h
          exact h.symm

/-- **What building a node comes to**, if the runtime starts. -/
theorem build_eq_ok {H : BundleHost} {store : BundleStore} {now : ℤ} {io : StagingIo}
    {bundleId : String} {o : StartOccasion} {removed : Bool}
    (h : build H store now io bundleId o removed = .ok (s, .ok ())) :
    ∃ plaintext, (store.stagePlaintext H now io bundleId).2 = (plaintext, .ok ()) ∧
      s.launches = [some plaintext] ∧ s.afterStarts = [s.modelFile] ∧
      s.modelFile = if removed then none else some plaintext := by
  rw [build] at h
  rcases hstage : store.stagePlaintext H now io bundleId with ⟨store', plaintext, e | ⟨⟩⟩
  · simp [hstage] at h
  · simp only [hstage] at h
    rcases hstart : (staged plaintext).start o with ⟨s', e | ⟨⟩⟩
    · simp [hstart] at h
    · obtain rfl := start_eq_ok hstart
      simp only [hstart] at h
      obtain ⟨rfl, -⟩ := Prod.mk.inj (Except.ok.inj h)
      rcases removed with - | -
      · exact ⟨plaintext, rfl, rfl, rfl, rfl⟩
      · exact ⟨plaintext, rfl, rfl, rfl, rfl⟩

end SupervisedNode

/-- What is staged has the digest the manifest gives for the whole plaintext. -/
theorem digestHex_of_decryptBundle {H : BundleHost} {io : StagingIo} {bundleId bundleDir : String}
    {m : BundleManifest} {plaintext : Bytes}
    (h : decryptBundle H io bundleId m bundleDir = (plaintext, .ok ())) :
    Sha256.digestHex plaintext = m.totalPlaintextSha256 := by
  rw [decryptBundle] at h
  split at h
  · simp at h
  · split at h
    · simp at h
    · split at h
      · simp at h
      · split at h
        · next hdigest =>
          obtain ⟨rfl, -⟩ := Prod.mk.inj h
          exact ctEq_asBytes_iff.1 hdigest
        · simp at h

open SupervisedNode in
/-- **When a sealed bundle survives its runtime.** On a node that has been built, in any run of
exits, ticks and shutdowns, every launch finds the verified plaintext and every successful start
leaves none of it, **exactly if** the staged file could be removed after the first start and the
runtime is never launched again. -/
theorem sealed_bundle_survives_iff (H : BundleHost) (store : BundleStore) (now : ℤ)
    (io : StagingIo) (bundleId : String) (b : StoredBundle)
    (hb : store.bundles.lookup bundleId = some b) (o : StartOccasion) (removed : Bool)
    (s : SupervisedNode) (hbuild : build H store now io bundleId o removed = .ok (s, .ok ())) :
    ∃ plaintext, Sha256.digestHex plaintext = b.manifest.totalPlaintextSha256 ∧
      (store.stagePlaintext H now io bundleId).2 = (plaintext, .ok ()) ∧
      ∀ run, Always step (PlaintextKept plaintext) s run ↔
        removed = true ∧ AllSteps step NoRelaunch s run := by
  obtain ⟨plaintext, hstaged, hlaunches, hafter, hfile⟩ := build_eq_ok hbuild
  have hdigest : Sha256.digestHex plaintext = b.manifest.totalPlaintextSha256 := by
    rcases hcall : store.stagePlaintext H now io bundleId with ⟨store', written, result⟩
    rw [hcall] at hstaged
    obtain ⟨rfl, rfl⟩ := Prod.mk.inj hstaged
    rcases BundleStore.stagePlaintext_cases hcall with ⟨e, habsurd, -⟩ | ⟨b', hb', hcases⟩
    · simp at habsurd
    · obtain rfl := Option.some.inj (hb.symm.trans hb')
      rcases hcases with ⟨e, habsurd, -⟩ | ⟨hdecrypt, -, -⟩
      · simp at habsurd
      · exact digestHex_of_decryptBundle hdecrypt
  refine ⟨plaintext, hdigest, hstaged, fun run ↦ ?_⟩
  rcases removed with - | -
  · -- the file is still there after the first start
    refine iff_of_false (fun h ↦ ?_) fun h ↦ absurd h.1 Bool.false_ne_true
    have hkept : s.PlaintextKept plaintext := by
      rcases run with - | ⟨a, run⟩
      · exact h
      · exact h.1
    have hleft := hkept.afterStarts s.modelFile (hafter ▸ List.mem_cons_self)
    rw [hfile] at hleft
    simp at hleft
  · have herased : s.Erased plaintext := by
      refine ⟨⟨?_, ?_⟩, hfile⟩
      · rw [hlaunches]
        exact fun found hfound ↦ List.mem_singleton.1 hfound
      · rw [hafter, hfile]
        exact fun left hleft ↦ List.mem_singleton.1 hleft
    rw [always_iff_allSteps (Erased plaintext) (fun _ h ↦ h.kept) (fun _ _ h _ hno ↦ h.step hno)
      (fun _ _ h _ hre ↦ not_plaintextKept_step h hre) herased AllSteps.trivial]
    exact ⟨fun h ↦ ⟨rfl, h⟩, fun h ↦ h.2⟩

/-! ### A node with a small bundle -/

namespace SampleSupervision

open SupervisedNode

/-- A host whose cipher leaves everything as it is. -/
def host : BundleHost :=
  { SampleBundle.host with decryptShard := fun _ ciphertext _ ↦ some ciphertext }

/-- A manifest whose one shard is the three bytes `abc`, under the identity cipher. -/
def manifest : BundleManifest :=
  { SampleBundle.manifest with
    shards := [⟨"shard-0.enc",
      "ba7816bf8f01cfea414140de5dae2223b00361a396177a9cb410ff61f20015ad",
      "ba7816bf8f01cfea414140de5dae2223b00361a396177a9cb410ff61f20015ad",
      "AAECAwQFBgcICQoL", 3, 0⟩]
    totalPlaintextSha256 := "ba7816bf8f01cfea414140de5dae2223b00361a396177a9cb410ff61f20015ad" }

/-- A store in which the bundle is registered. -/
def store : BundleStore :=
  { SampleBundle.store with
    bundles := SampleBundle.store.bundles.insert "sample"
      (BundleStore.registered manifest SampleBundle.dir) }

/-- A staging that meets no error of the file system. -/
def staging : StagingIo :=
  ⟨[], SampleBundle.intact, .ok (), fun _ ↦ .ok (), .ok ()⟩

/-- A start that goes well. -/
def occasion : StartOccasion :=
  ⟨true, .ok (), .healthy⟩

/-- The node once it is built: the runtime runs, and the file is gone. -/
def node : SupervisedNode :=
  ⟨⟨.initializing, .uninitialized⟩, none, .running, false, [some [97, 98, 99]], [none]⟩

theorem lookup_store : store.bundles.lookup "sample" =
    some (BundleStore.registered manifest SampleBundle.dir) :=
  AList.lookup_insert _

theorem decryptBundle_eq :
    decryptBundle host staging "sample" manifest SampleBundle.dir = ([97, 98, 99], .ok ()) := by
  have horder : manifest.stagingOrder = manifest.shards.zipIdx := by
    simp [BundleManifest.stagingOrder, manifest]
  rw [decryptBundle, horder]
  decide +kernel

theorem stagePlaintext_eq : store.stagePlaintext host 0 staging "sample" =
    (((store.setStatus "sample" .staging).recordVerdict 0 "sample" true).setStatus "sample" .ready,
      [97, 98, 99], .ok ()) := by
  rw [BundleStore.stagePlaintext, lookup_store]
  simp only
  rw [show (BundleStore.registered manifest SampleBundle.dir).manifest = manifest from rfl,
    show (BundleStore.registered manifest SampleBundle.dir).bundleDir = SampleBundle.dir from rfl,
    decryptBundle_eq]

theorem build_eq : build host store 0 staging "sample" occasion true = .ok (node, .ok ()) := by
  rw [build, stagePlaintext_eq]
  rfl

end SampleSupervision

open SampleSupervision SupervisedNode in
/-- A runtime that keeps running is never launched again. -/
theorem sealed_bundle_survives_iff_steady :
    Always step (PlaintextKept [97, 98, 99]) node
      [.goOperational, .tick .healthy, .tick .exits, .shutdown true] := by
  obtain ⟨plaintext, -, hstaged, hiff⟩ := sealed_bundle_survives_iff host store 0 staging "sample" _
    lookup_store occasion true node build_eq
  obtain ⟨rfl, -⟩ := Prod.mk.inj (hstaged.symm.trans (congrArg Prod.snd stagePlaintext_eq))
  exact (hiff _).2 ⟨rfl, trivial, Or.inr (Or.inl rfl), Or.inr (Or.inl rfl), trivial, trivial⟩

open SampleSupervision SupervisedNode in
/-- **The first restart launches the runtime on a file that is gone.** -/
theorem restart_finds_no_file :
    build host store 0 staging "sample" occasion true = .ok (node, .ok ()) ∧
      (final step node [.goOperational, .childExits, .tick .exits]).launches =
        [some [97, 98, 99], none] ∧
      ∀ plaintext, ¬Always step (PlaintextKept plaintext) node
        [.goOperational, .childExits, .tick .exits] := by
  refine ⟨build_eq, rfl, fun plaintext h ↦ ?_⟩
  have hfound := h.2.2.2.launches none (by decide)
  simp at hfound

end Cordon
