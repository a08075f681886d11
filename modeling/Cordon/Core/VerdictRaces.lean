import Cordon.Core.Bundles
import Cordon.Lib.Transition

/-!
# Verdicts and registrations, interleaved

A check takes a copy of the manifest and the directory of a bundle, hashes for minutes without any
lock on the table, and then writes its verdict **by identifier**. Here checks, stagings,
registrations and removals are cut into the steps between which others can run, with the check locks
as the source keeps them: one for each identifier, made on demand, and forgotten when the bundle is
removed.

`VerdictsOwn` says what a passing verdict is worth: it was computed from the manifest and the
directory of the entry that holds it. The locks do not cover registration, so this holds only in
runs in which **no registration replaces what a running check or staging has copied**
(`verdicts_own_of_registersQuietly`).

The theorem rests on an invariant that says more than its conclusion (`Sound`): a task that has
copied an entry still finds that entry current while it runs, and what it has computed so far was
computed from it. A quiet registration is what keeps the first half, and the check locks are what
keeps two tasks of one identifier from writing over each other. Removals need no condition: a
verdict that is written for an identifier that is gone is written nowhere.
-/

namespace Cordon

open Transition

/-! ### The steps of the store's operations -/

/-- Where a check or a staging is, with what it has in hand. -/
inductive TaskPhase
  /-- A check that has found the lock and waits for it. -/
  | waiting (lock : ℕ)
  | locked (lock : ℕ)
  /-- A check with its copy of the manifest and the directory. -/
  | hashing (lock : ℕ) (m : BundleManifest) (bundleDir : String)
  | hashed (lock : ℕ) (m : BundleManifest) (bundleDir : String) (read : ShardReads) (passed : Bool)
  | unlocking (lock : ℕ)
  /-- A staging with its copy of the manifest and the directory. -/
  | copied (m : BundleManifest) (bundleDir : String)
  | decrypting (m : BundleManifest) (bundleDir : String)
  | decrypted (m : BundleManifest) (bundleDir : String) (io : StagingIo)
  | staged
  | done

/-- A running check or staging. -/
structure Task where
  bundleId : String
  phase : TaskPhase

/-- What a verdict was computed from. -/
inductive VerdictSource
  | check (read : ShardReads)
  | staging (io : StagingIo)

/-- Where a verdict comes from. The source keeps none of this. -/
structure Provenance where
  manifest : BundleManifest
  bundleDir : String
  source : VerdictSource

/-- The store, its check locks, and the operations that are under way. -/
structure RaceState where
  store : BundleStore
  checkLocks : StringMap ℕ
  nextLock : ℕ
  held : List ℕ
  tasks : List Task
  /-- Removals that have taken the bundle out and not yet forgotten its lock. -/
  removing : List String
  /-- Where the last verdict under each identifier comes from. -/
  provenance : String → Option Provenance

/-- The steps. -/
inductive RaceStep
  | registerBundle (m : BundleManifest) (bundleDir : String) (clientVk : Option VerifyingKey)
  | removeBundle (bundleId : String)
  | forgetLock (i : ℕ)
  | beginCheck (bundleId : String)
  | beginStaging (bundleId : String)
  /-- The next step of a task: what the clock says, what it reads, how the disk answers. -/
  | advance (i : ℕ) (now : ℤ) (read : ShardReads) (io : StagingIo)

namespace RaceState

/-- Put a task into a phase. -/
def setPhase (s : RaceState) (i : ℕ) (bundleId : String) (phase : TaskPhase) : RaceState :=
  { s with tasks := s.tasks.set i ⟨bundleId, phase⟩ }

/-- Write a verdict, and remember where it comes from. -/
def recordVerdict (s : RaceState) (now : ℤ) (bundleId : String) (passed : Bool) (p : Provenance) :
    RaceState :=
  { s with
    store := s.store.recordVerdict now bundleId passed
    provenance := Function.update s.provenance bundleId (some p) }

/-- A check gives its lock back and ends. -/
def finishCheck (s : RaceState) (i : ℕ) (bundleId : String) (lock : ℕ) : RaceState :=
  { s.setPhase i bundleId .done with held := s.held.erase lock }

/-- A check finds the lock of the bundle, or makes one. -/
def beginCheck (s : RaceState) (bundleId : String) : RaceState :=
  match s.checkLocks.lookup bundleId with
  | some lock => { s with tasks := s.tasks ++ [⟨bundleId, .waiting lock⟩] }
  | none =>
    { s with
      checkLocks := s.checkLocks.insert bundleId s.nextLock
      nextLock := s.nextLock + 1
      tasks := s.tasks ++ [⟨bundleId, .waiting s.nextLock⟩] }

/-- A staging copies the manifest and the directory, if the bundle is there. -/
def beginStaging (s : RaceState) (bundleId : String) : RaceState :=
  match s.store.bundles.lookup bundleId with
  | none => s
  | some b => { s with tasks := s.tasks ++ [⟨bundleId, .copied b.manifest b.bundleDir⟩] }

variable (H : BundleHost) (E : Ed25519)

/-- The next step of a task, from the phase it is in. -/
def advance (s : RaceState) (i : ℕ) (now : ℤ) (read : ShardReads) (io : StagingIo)
    (bundleId : String) : TaskPhase → RaceState
  | .waiting lock =>
    -- a step that has to wait changes nothing
    if lock ∈ s.held then s
    else { s.setPhase i bundleId (.locked lock) with held := lock :: s.held }
  | .locked lock =>
    match s.store.bundles.lookup bundleId with
    | none => s.finishCheck i bundleId lock
    | some b => s.setPhase i bundleId (.hashing lock b.manifest b.bundleDir)
  | .hashing lock m bundleDir =>
    match checkShards H E s.store.vendorVk read m bundleDir with
    | .error _ => s.finishCheck i bundleId lock
    | .ok passed => s.setPhase i bundleId (.hashed lock m bundleDir read passed)
  | .hashed lock m bundleDir read passed =>
    -- by identifier: the entry that is there now need not be the one that was copied
    (s.recordVerdict now bundleId passed ⟨m, bundleDir, .check read⟩).setPhase i bundleId
      (.unlocking lock)
  | .unlocking lock => s.finishCheck i bundleId lock
  | .copied m bundleDir =>
    -- a staging takes no check lock
    { s with store := s.store.setStatus bundleId .staging }.setPhase i bundleId
      (.decrypting m bundleDir)
  | .decrypting m bundleDir =>
    match (decryptBundle H io bundleId m bundleDir).2 with
    | .error _ => s.setPhase i bundleId .done
    | .ok () => s.setPhase i bundleId (.decrypted m bundleDir io)
  | .decrypted m bundleDir io =>
    (s.recordVerdict now bundleId true ⟨m, bundleDir, .staging io⟩).setPhase i bundleId .staged
  | .staged =>
    { s with store := s.store.setStatus bundleId .ready }.setPhase i bundleId .done
  | .done => s

/-- One step. -/
def step (s : RaceState) : RaceStep → RaceState
  | .registerBundle m bundleDir clientVk =>
    { s with store := (s.store.registerBundle H E m bundleDir clientVk).1 }
  | .removeBundle bundleId =>
    match s.store.removeBundle bundleId with
    | (store, .ok ()) => { s with store, removing := s.removing ++ [bundleId] }
    | (store, .error _) => { s with store }
  | .forgetLock i =>
    match s.removing[i]? with
    | none => s
    | some bundleId =>
      -- who waits on the old lock keeps it; the next check makes another
      { s with checkLocks := s.checkLocks.erase bundleId, removing := s.removing.eraseIdx i }
  | .beginCheck bundleId => s.beginCheck bundleId
  | .beginStaging bundleId => s.beginStaging bundleId
  | .advance i now read io =>
    match s.tasks[i]? with
    | none => s
    | some task => s.advance H E i now read io task.bundleId task.phase

/-- A store that nothing is being done to. -/
def quiet (store : BundleStore) : RaceState :=
  ⟨store, ∅, 0, [], [], [], fun _ ↦ none⟩

end RaceState

/-! ### What a verdict is worth -/

section

variable (H : BundleHost) (E : Ed25519)

/-- What a task has copied and not yet written a verdict for. -/
def TaskPhase.copy : TaskPhase → Option (BundleManifest × String)
  | .hashing _ m bundleDir => some (m, bundleDir)
  | .hashed _ m bundleDir _ _ => some (m, bundleDir)
  | .copied m bundleDir => some (m, bundleDir)
  | .decrypting m bundleDir => some (m, bundleDir)
  | .decrypted m bundleDir _ => some (m, bundleDir)
  | _ => none

/-- The verdict that a task is about to write is the one it has computed. -/
def TaskPhase.Computed (vendorVk : Option VerifyingKey) (bundleId : String) : TaskPhase → Prop
  | .hashed _ m bundleDir read passed => checkShards H E vendorVk read m bundleDir = .ok passed
  | .decrypted m bundleDir io => (decryptBundle H io bundleId m bundleDir).2 = .ok ()
  | _ => True

/-- A pass that was computed by hashing the shards which a manifest lists in a directory. -/
def Provenance.Passed (vendorVk : Option VerifyingKey) (bundleId : String) (p : Provenance) :
    Prop :=
  match p.source with
  | .check read => checkShards H E vendorVk read p.manifest p.bundleDir = .ok true
  | .staging io => (decryptBundle H io bundleId p.manifest p.bundleDir).2 = .ok ()

/-- **A passing verdict belongs to the entry that holds it**: it was computed by hashing the shards
that the entry's own manifest lists in the entry's own directory. -/
def RaceState.VerdictsOwn (s : RaceState) : Prop :=
  ∀ id b v, s.store.bundles.lookup id = some b → b.verdict = some v → v.passed = true →
    ∃ p, s.provenance id = some p ∧ p.manifest = b.manifest ∧ p.bundleDir = b.bundleDir ∧
      p.Passed H E s.store.vendorVk id

/-- **No registration replaces what a running check or staging has copied**, unless with the same
manifest and directory. -/
def RaceState.RegistersQuietly (s : RaceState) : RaceStep → Prop
  | .registerBundle m bundleDir clientVk =>
    s.store.checkManifest H E m clientVk = .ok () →
      ∀ task ∈ s.tasks, task.bundleId = m.bundleId →
        ∀ copy, task.phase.copy = some copy → copy = (m, bundleDir)
  | _ => True

/-- A task whose copy is of the entry that is there, if one is, and whose verdict is computed. -/
structure Task.Good (store : BundleStore) (task : Task) : Prop where
  current : ∀ m bundleDir b, task.phase.copy = some (m, bundleDir) →
    store.bundles.lookup task.bundleId = some b → b.manifest = m ∧ b.bundleDir = bundleDir
  computed : task.phase.Computed H E store.vendorVk task.bundleId

/-- **The invariant.** -/
structure RaceState.Sound (s : RaceState) : Prop where
  own : s.VerdictsOwn H E
  tasks : ∀ task ∈ s.tasks, task.Good H E s.store

end

/-- Every bundle of the one store is, up to its status and its verdict, in the other. -/
def BundleStore.CopiesOf (store' store : BundleStore) : Prop :=
  store'.vendorVk = store.vendorVk ∧ ∀ id b', store'.bundles.lookup id = some b' →
    ∃ b, store.bundles.lookup id = some b ∧ b.manifest = b'.manifest ∧ b.bundleDir = b'.bundleDir

variable {H : BundleHost} {E : Ed25519}

theorem Task.Good.mono {task : Task} {store store' : BundleStore} (h : task.Good H E store)
    (hstore : store'.CopiesOf store) : task.Good H E store' where
  current := by
    intro m bundleDir b' hcopy hb'
    obtain ⟨b, hb, hmanifest, hdir⟩ := hstore.2 _ b' hb'
    rw [← hmanifest, ← hdir]
    exact h.current m bundleDir b hcopy hb
  computed := hstore.1 ▸ h.computed

/-- A task that has copied nothing. -/
theorem Task.good_of_copy_eq_none {store : BundleStore} {bundleId : String} {phase : TaskPhase}
    (hcopy : phase.copy = none) (hcomputed : phase.Computed H E store.vendorVk bundleId) :
    Task.Good H E store ⟨bundleId, phase⟩ where
  current := by
    intro m bundleDir b hsome
    exact absurd (hcopy.symm.trans hsome) (by simp)
  computed := hcomputed

/-- A task that has just copied the entry that is there. -/
theorem Task.good_copy {store : BundleStore} {bundleId : String} {b : StoredBundle}
    {phase : TaskPhase} (hb : store.bundles.lookup bundleId = some b)
    (hcopy : phase.copy = some (b.manifest, b.bundleDir))
    (hcomputed : phase.Computed H E store.vendorVk bundleId) :
    Task.Good H E store ⟨bundleId, phase⟩ where
  current := by
    intro m bundleDir b' hsome hb'
    obtain ⟨rfl, rfl⟩ := Prod.mk.inj (Option.some.inj (hcopy.symm.trans hsome))
    obtain rfl := Option.some.inj (hb.symm.trans hb')
    exact ⟨rfl, rfl⟩
  computed := hcomputed

namespace RaceState

variable {s s' : RaceState} {i lock : ℕ} {now : ℤ} {bundleId : String} {phase : TaskPhase}
  {read : ShardReads} {io : StagingIo} {status : BundleStatus}

/-- Verdicts and tasks are all that the invariant is about. -/
theorem Sound.mono (h : s.Sound H E) (hprovenance : s'.provenance = s.provenance)
    (hstore : s'.store = s.store) (htasks : ∀ task ∈ s'.tasks, task.Good H E s.store) :
    s'.Sound H E where
  own := by
    intro id b v
    rw [hprovenance, hstore]
    exact h.own id b v
  tasks := by rwa [hstore]

theorem Sound.setPhase (h : s.Sound H E) (hnew : Task.Good H E s.store ⟨bundleId, phase⟩) :
    (s.setPhase i bundleId phase).Sound H E := by
  refine h.mono rfl rfl fun task htask ↦ ?_
  rcases List.mem_or_eq_of_mem_set htask with hold | rfl
  · exact h.tasks task hold
  · exact hnew

theorem Sound.finishCheck (h : s.Sound H E) : (s.finishCheck i bundleId lock).Sound H E := by
  have hdone : Task.Good H E s.store ⟨bundleId, .done⟩ := Task.good_of_copy_eq_none rfl trivial
  exact (h.setPhase hdone).mono rfl rfl (h.setPhase hdone).tasks

theorem copiesOf_setStatus (store : BundleStore) (bundleId : String) (status : BundleStatus) :
    (store.setStatus bundleId status).CopiesOf store := by
  refine ⟨rfl, fun id b' hb' ↦ ?_⟩
  rw [BundleStore.lookup_setStatus] at hb'
  split at hb'
  · obtain ⟨b, hb, rfl⟩ := Option.map_eq_some_iff.1 hb'
    exact ⟨b, hb, rfl, rfl⟩
  · exact ⟨b', hb', rfl, rfl⟩

theorem copiesOf_recordVerdict (store : BundleStore) (now : ℤ) (bundleId : String)
    (passed : Bool) : (store.recordVerdict now bundleId passed).CopiesOf store := by
  refine ⟨rfl, fun id b' hb' ↦ ?_⟩
  rw [BundleStore.lookup_recordVerdict] at hb'
  split at hb'
  · obtain ⟨b, hb, rfl⟩ := Option.map_eq_some_iff.1 hb'
    exact ⟨b, hb, rfl, rfl⟩
  · exact ⟨b', hb', rfl, rfl⟩

/-- A status is no part of what a verdict is about. -/
theorem Sound.setStatus (h : s.Sound H E) (bundleId : String) (status : BundleStatus) :
    Sound H E { s with store := s.store.setStatus bundleId status } where
  own := by
    intro id b' v hb' hv hpassed
    rw [BundleStore.lookup_setStatus] at hb'
    split at hb'
    · obtain ⟨b, hb, rfl⟩ := Option.map_eq_some_iff.1 hb'
      exact h.own id b v hb hv hpassed
    · exact h.own id b' v hb' hv hpassed
  tasks := fun task htask ↦ (h.tasks task htask).mono (copiesOf_setStatus _ _ _)

/-- **A verdict that its task has computed, written where the task's copy is still current.** -/
theorem Sound.recordVerdict (h : s.Sound H E) {passed : Bool} {p : Provenance}
    (hcurrent : ∀ b, s.store.bundles.lookup bundleId = some b →
      b.manifest = p.manifest ∧ b.bundleDir = p.bundleDir)
    (hpassed : passed = true → p.Passed H E s.store.vendorVk bundleId) :
    (s.recordVerdict now bundleId passed p).Sound H E where
  own := by
    intro id b' v hb' hv hpass
    rw [RaceState.recordVerdict, BundleStore.lookup_recordVerdict] at hb'
    by_cases hid : id = bundleId
    · subst hid
      rw [if_pos rfl] at hb'
      obtain ⟨b, hb, rfl⟩ := Option.map_eq_some_iff.1 hb'
      obtain ⟨hmanifest, hdir⟩ := hcurrent b hb
      obtain rfl := Option.some.inj hv
      exact ⟨p, Function.update_self _ _ _, hmanifest.symm, hdir.symm, hpassed hpass⟩
    · rw [if_neg hid] at hb'
      obtain ⟨q, hq, hrest⟩ := h.own id b' v hb' hv hpass
      exact ⟨q, (Function.update_of_ne hid _ _).trans hq, hrest⟩
  tasks := fun task htask ↦ (h.tasks task htask).mono (copiesOf_recordVerdict _ _ _ _)

/-- **One step of a task.** -/
theorem Sound.advance (h : s.Sound H E) (htask : Task.Good H E s.store ⟨bundleId, phase⟩) :
    (s.advance H E i now read io bundleId phase).Sound H E := by
  rcases phase with lock | lock | ⟨lock, m, dir⟩ | ⟨lock, m, dir, reads, passed⟩ | lock | ⟨m, dir⟩ |
    ⟨m, dir⟩ | ⟨m, dir, io'⟩ | - | -
  · rw [RaceState.advance]
    split
    · exact h
    · have hlocked : Task.Good H E s.store ⟨bundleId, .locked lock⟩ :=
        Task.good_of_copy_eq_none rfl trivial
      exact (h.setPhase hlocked).mono rfl rfl (h.setPhase hlocked).tasks
  · rw [RaceState.advance]
    split
    · exact h.finishCheck
    · next b hb => exact h.setPhase (Task.good_copy hb rfl trivial)
  · -- hashing: the lookup is long past, and only the invariant knows that the copy is current
    rw [RaceState.advance]
    split
    · exact h.finishCheck
    · next passed hcheck => exact h.setPhase ⟨htask.current, hcheck⟩
  · -- the verdict of a check, of which only a pass claims anything
    refine (h.recordVerdict (fun b ↦ htask.current m dir b rfl) ?_).setPhase
      (Task.good_of_copy_eq_none rfl trivial)
    rintro rfl
    exact htask.computed
  · exact h.finishCheck
  · exact (h.setStatus bundleId .staging).setPhase
      ⟨(htask.mono (copiesOf_setStatus _ _ _)).current, trivial⟩
  · rw [RaceState.advance]
    split
    · exact h.setPhase (Task.good_of_copy_eq_none rfl trivial)
    · next hdecrypt => exact h.setPhase ⟨htask.current, hdecrypt⟩
  · refine (h.recordVerdict (fun b ↦ htask.current m dir b rfl) ?_).setPhase
      (Task.good_of_copy_eq_none rfl trivial)
    intro _
    exact htask.computed
  · exact (h.setStatus bundleId .ready).setPhase (Task.good_of_copy_eq_none rfl trivial)
  · exact h

/-- A task that begins. -/
theorem Sound.begin (h : s.Sound H E) (hnew : Task.Good H E s.store ⟨bundleId, phase⟩) :
    Sound H E { s with tasks := s.tasks ++ [⟨bundleId, phase⟩] } := by
  refine h.mono rfl rfl fun task htask ↦ ?_
  rcases List.mem_append.1 htask with hold | hlast
  · exact h.tasks task hold
  · obtain rfl := List.mem_singleton.1 hlast
    exact hnew

theorem Sound.beginCheck (h : s.Sound H E) (bundleId : String) :
    (s.beginCheck bundleId).Sound H E := by
  rw [RaceState.beginCheck]
  split
  · exact h.begin (Task.good_of_copy_eq_none rfl trivial)
  · have hnew : Task.Good H E s.store ⟨bundleId, .waiting s.nextLock⟩ :=
      Task.good_of_copy_eq_none rfl trivial
    exact (h.begin hnew).mono rfl rfl (h.begin hnew).tasks

theorem Sound.beginStaging (h : s.Sound H E) (bundleId : String) :
    (s.beginStaging bundleId).Sound H E := by
  rw [RaceState.beginStaging]
  split
  · exact h
  · next b hb => exact h.begin (Task.good_copy hb rfl trivial)

/-- **A registration that replaces no running task's copy.** The new entry has no verdict, and what
a task has copied of it is the same. -/
theorem Sound.registerBundle (h : s.Sound H E) {m : BundleManifest} {bundleDir : String}
    {clientVk : Option VerifyingKey}
    (hquiet : s.RegistersQuietly H E (.registerBundle m bundleDir clientVk)) :
    (s.step H E (.registerBundle m bundleDir clientVk)).Sound H E := by
  rcases hcall : s.store.registerBundle H E m bundleDir clientVk with ⟨store, result⟩
  rw [RaceState.step, hcall]
  rcases BundleStore.registerBundle_cases hcall with ⟨e, -, rfl⟩ | ⟨-, hcheck, rfl⟩
  · exact h
  · constructor
    · -- the new entry has no verdict that could be another's
      intro id b v hb hv
      by_cases hid : id = m.bundleId
      · rw [hid] at hb
        obtain rfl := Option.some.inj ((AList.lookup_insert _).symm.trans hb)
        exact absurd hv (by simp [BundleStore.registered])
      · exact h.own id b v ((AList.lookup_insert_ne hid).symm.trans hb) hv
    · intro task htask
      refine ⟨fun m' dir' b hcopy hb ↦ ?_, (h.tasks task htask).computed⟩
      by_cases hid : task.bundleId = m.bundleId
      · -- what the task has copied is what is being registered
        obtain ⟨rfl, rfl⟩ := Prod.mk.inj (hquiet hcheck task htask hid _ hcopy)
        rw [hid] at hb
        obtain rfl := Option.some.inj ((AList.lookup_insert _).symm.trans hb)
        exact ⟨rfl, rfl⟩
      · exact (h.tasks task htask).current m' dir' b hcopy
          ((AList.lookup_insert_ne hid).symm.trans hb)

theorem Sound.removeBundle (h : s.Sound H E) (bundleId : String) :
    (s.step H E (.removeBundle bundleId)).Sound H E := by
  have herase : Sound H E { s with
      store := { s.store with bundles := s.store.bundles.erase bundleId } } := by
    constructor
    · intro id b v hb
      exact h.own id b v (AList.lookup_of_lookup_erase hb)
    · intro task htask
      exact (h.tasks task htask).mono
        ⟨rfl, fun id b hb ↦ ⟨b, AList.lookup_of_lookup_erase hb, rfl, rfl⟩⟩
  rcases hcall : s.store.removeBundle bundleId with ⟨store, result⟩
  rw [RaceState.step, hcall]
  rcases BundleStore.removeBundle_cases hcall with ⟨e, rfl, rfl⟩ | ⟨rfl, rfl⟩
  · exact h
  · exact herase.mono rfl rfl herase.tasks

/-- **One step keeps every verdict with its entry**, if it registers quietly. -/
theorem Sound.step (h : s.Sound H E) {a : RaceStep} (hquiet : s.RegistersQuietly H E a) :
    (s.step H E a).Sound H E := by
  rcases a with ⟨m, bundleDir, clientVk⟩ | bundleId | i | bundleId | bundleId | ⟨i, now, read, io⟩
  · exact h.registerBundle hquiet
  · exact h.removeBundle bundleId
  · rw [RaceState.step]
    split
    · exact h
    · exact h.mono rfl rfl h.tasks
  · exact h.beginCheck bundleId
  · exact h.beginStaging bundleId
  · rw [RaceState.step]
    split
    · exact h
    · next task htask => exact h.advance (h.tasks task (List.mem_of_getElem? htask))

theorem sound_quiet {store : BundleStore}
    (hstore : ∀ id b, store.bundles.lookup id = some b → b.verdict = none) :
    (quiet store).Sound H E where
  own := by
    intro id b v hb hv
    exact absurd ((hstore id b hb).symm.trans hv) (by simp)
  tasks := fun _ htask ↦ absurd htask List.not_mem_nil

end RaceState

/-- **When a verdict belongs to the manifest it was computed on.** In every interleaving in which no
registration replaces what a running check or staging of that identifier has copied, every passing
verdict in the store was computed by hashing the shards that its entry's own manifest lists in its
entry's own directory. -/
theorem verdicts_own_of_registersQuietly (H : BundleHost) (E : Ed25519) (store : BundleStore)
    (hstore : ∀ id b, store.bundles.lookup id = some b → b.verdict = none) (s : RaceState)
    (hrun : Reachable (RaceState.step H E) (RaceState.RegistersQuietly H E) (.quiet store) s) :
    s.VerdictsOwn H E :=
  (hrun.invariant (RaceState.Sound H E) (RaceState.sound_quiet hstore)
    fun _ _ _ hquiet h ↦ h.step hquiet).own

/-! ### A bundle that moves while it is checked -/

namespace SampleBundle

/-- A disk that answers everything. -/
def io : StagingIo :=
  ⟨[], intact, .ok (), fun _ ↦ .ok (), .ok ()⟩

/-- The next step of the first task. -/
def next : RaceStep :=
  .advance 0 0 intact io

/-- A bundle is registered, and registered again, from the directory `second`, while its check has
copied the first one. -/
def movedRun (second : String) : List RaceStep :=
  [.registerBundle manifest dir none, .beginCheck "sample", next, next,
    .registerBundle manifest second none, next, next]

/-- Where that run is after so many steps. -/
def movedAt (second : String) (steps : ℕ) : RaceState :=
  final (RaceState.step host ed25519) (.quiet store) ((movedRun second).take steps)

/-- Registered again from the same directory, the bundle has the verdict of its one task. Registered
from another directory, it has the verdict that was computed in the first one. -/
theorem movedAt_eq :
    (((movedAt dir 7).store.bundles.lookup "sample").bind StoredBundle.verdict = some ⟨0, true⟩ ∧
      (movedAt dir 4).tasks.map (fun task ↦ task.phase.copy) = [some (manifest, dir)]) ∧
    (movedAt "/models/other" 7).store.bundles.lookup "sample" =
        some ⟨manifest, "/models/other", .encrypted, some ⟨0, true⟩⟩ ∧
      ((movedAt "/models/other" 7).provenance "sample").map Provenance.bundleDir = some dir := by
  decide +kernel

end SampleBundle

open SampleBundle in
/-- A bundle that is registered again from the same directory keeps its own verdict. -/
theorem verdicts_own_of_registersQuietly_sample :
    ((movedAt dir 7).store.bundles.lookup "sample").bind StoredBundle.verdict = some ⟨0, true⟩ ∧
      (movedAt dir 7).VerdictsOwn host ed25519 := by
  refine ⟨movedAt_eq.1.1, verdicts_own_of_registersQuietly host ed25519 store ?_ _
    (reachable_final ⟨?_, trivial, trivial, trivial, ?_, trivial, trivial, trivial⟩ .start)⟩
  · intro id b hb
    exact absurd hb (by simp [store, BundleStore.withVerdictTtl])
  · intro _ task htask
    exact absurd htask List.not_mem_nil
  · -- at the second registration there is one task, with a copy of what is registered again
    have hcopies : (movedAt dir 4).tasks.map (fun task ↦ task.phase.copy) =
        [some (manifest, dir)] := movedAt_eq.1.2
    intro _ task htask _ copy hcopy
    have hmem : task.phase.copy ∈ (movedAt dir 4).tasks.map fun task ↦ task.phase.copy :=
      List.mem_map_of_mem htask
    rw [hcopies, hcopy] at hmem
    exact Option.some.inj (List.mem_singleton.1 hmem)

open SampleBundle in
/-- **The new entry passes on the old one's shards.** The bundle was registered again, from another
directory, between the check's copy and its verdict. -/
theorem verdict_outlives_its_bundle :
    ¬∀ (H : BundleHost) (E : Ed25519) (store : BundleStore) (s : RaceState),
      (∀ id b, store.bundles.lookup id = some b → b.verdict = none) →
      Reachable (RaceState.step H E) (fun _ _ ↦ True) (.quiet store) s → s.VerdictsOwn H E := by
  intro hall
  have hown := hall host ed25519 store (movedAt "/models/other" 7)
    (fun id b hb ↦ absurd hb (by simp [store, BundleStore.withVerdictTtl]))
    (reachable_final
      ⟨trivial, trivial, trivial, trivial, trivial, trivial, trivial, trivial⟩ .start)
  obtain ⟨hfound, hsource⟩ : (movedAt "/models/other" 7).store.bundles.lookup "sample" =
        some ⟨manifest, "/models/other", .encrypted, some ⟨0, true⟩⟩ ∧
      ((movedAt "/models/other" 7).provenance "sample").map Provenance.bundleDir = some dir :=
    movedAt_eq.2
  obtain ⟨p, hp, -, hdir, -⟩ := hown "sample" _ _ hfound rfl rfl
  rw [hp, Option.map_some, hdir] at hsource
  exact absurd hsource (by decide)

end Cordon
