import Cordon.Core.Error
import Cordon.Lib.Transition
import Mathlib.Logic.Function.Basic

/-!
# The local signing seed

A node without a Client Master Key signs with a seed that it keeps in a file of its own. The file is
created on first use and is never overwritten: every earlier audit entry was signed with the key it
stands for.

Any number of nodes may start on one data directory at once, and each of them may be killed between
any two steps. Only one of them can create the file, and it writes the seed a piece at a time, so
another may find a file that is not complete. **A seed is given out only once it is all there**
(`local_seed_agreement`): whoever gets a seed gets the one in the file, and gets the same.

The agreement rests on two facts. Creating a file is exclusive, so of any number of starts one at
most writes, and the others can only read. And no part of a seed reads as a seed
(`parseLocalSeed_take`), since its text is a number of sixty-four digits and a shorter one is
refused. A start that nobody interrupts is the function of the source (`final_solo`), which ties the
steps to it.
-/

namespace Cordon

open Transition

/-! ### One start -/

/-- Why a file was not read. -/
inductive ReadError
  | notFound
  | other (message : String)
  deriving DecidableEq, Repr

/-- `std::fs::read_to_string`, of a file that is there or not, where the reading may fail. -/
def readSeedFile (file : Option String) (fails : Option String) : Except ReadError String :=
  match fails, file with
  | some e, _ => .error (.other e)
  | none, some text => .ok text
  | none, none => .error .notFound

/-- The seed in the text of the file. -/
def parseLocalSeed (path text : String) : Except CordonError Bytes :=
  match Text.hexDecode (String.ofList (Text.trim text.toList)) with
  | none => .error (.keyError (path ++ " does not hold a hex key seed"))
  | some bytes =>
    if bytes.length = 32 then .ok bytes
    else .error (.keyError (path ++ " does not hold a 32-byte key seed"))

/-- What reading the file settles. Only if there is none, one is created. -/
def readLocalSeed (path : String) : Except ReadError String → Option (Except CordonError Bytes)
  | .ok text => some (parseLocalSeed path text)
  | .error .notFound => none
  | .error (.other e) => some (.error (.keyError ("cannot read " ++ path ++ ": " ++ e)))

/-- What the operating system answers while the file is created. -/
structure CreateIo where
  /-- The directory of the file. -/
  parent : String
  createDirAll : Except String Unit
  /-- What `create_new` says of a file that is there already. -/
  fileExists : String
  openNew : Except String Unit
  deriving DecidableEq

/-- Create the file, if there is none. -/
def createLocalSeed (path : String) (file : Option String) (io : CreateIo) :
    Except CordonError Unit :=
  match io.createDirAll with
  | .error e => .error (.keyError ("cannot create " ++ io.parent ++ ": " ++ e))
  | .ok () =>
    match if file.isSome then .error io.fileExists else io.openNew with
    | .error e => .error (.keyError ("cannot create " ++ path ++ ": " ++ e))
    | .ok () => .ok ()

/-- What a failed write or sync is reported as. -/
def seedWriteError (path e : String) : CordonError :=
  .keyError ("cannot write " ++ path ++ ": " ++ e)

/-- `load_or_create_local_seed`, and the file that it leaves. A write that fails leaves as many
characters as were written before. -/
def loadOrCreateLocalSeed (path : String) (file readFails : Option String) (io : CreateIo)
    (seed : Bytes) (writeFails : Option (ℕ × String)) : Option String × Except CordonError Bytes :=
  match readLocalSeed path (readSeedFile file readFails) with
  | some result => (file, result)
  | none =>
    match createLocalSeed path file io with
    | .error e => (file, .error e)
    | .ok () =>
      match writeFails with
      | none => (some (Text.hexEncode seed), .ok seed)
      | some (n, e) =>
        (some (String.ofList ((Text.hexChars seed).take n)), .error (seedWriteError path e))

/-! ### Any number of starts -/

/-- How far a start has come. -/
inductive SeedStage
  | reading
  | creating
  | writing (written : ℕ)
  | finished (result : Except CordonError Bytes)
  | killed

/-- One step of a start. -/
inductive SeedStep
  | read (fails : Option String)
  | create (io : CreateIo)
  /-- One more character reaches the file. -/
  | write
  /-- The last of writing and syncing. -/
  | finish (fails : Option String)
  | kill

/-- The file, and the starts that are under way. -/
structure SeedStarts (ι : Type) where
  file : Option String
  stage : ι → SeedStage

namespace SeedStarts

variable {ι : Type} [DecidableEq ι]

/-- Nobody has looked yet. -/
def init (file : Option String) : SeedStarts ι :=
  ⟨file, fun _ ↦ .reading⟩

/-- A start moves on. -/
def enter (s : SeedStarts ι) (i : ι) (stage : SeedStage) : SeedStarts ι :=
  { s with stage := Function.update s.stage i stage }

variable (path : String) (seeds : ι → Bytes)

/-- A step of one of the starts; `seeds` is what each of them draws. -/
def step (s : SeedStarts ι) : ι × SeedStep → SeedStarts ι
  | (i, .read fails) =>
    match s.stage i with
    | .reading =>
      s.enter i (match readLocalSeed path (readSeedFile s.file fails) with
        | some result => .finished result
        | none => .creating)
    | _ => s
  | (i, .create io) =>
    match s.stage i with
    | .creating =>
      match createLocalSeed path s.file io with
      | .error e => s.enter i (.finished (.error e))
      | .ok () => { s.enter i (.writing 0) with file := some "" }
    | _ => s
  | (i, .write) =>
    match s.stage i with
    | .writing n =>
      match (Text.hexChars (seeds i))[n]? with
      | some c => { s.enter i (.writing (n + 1)) with file := s.file.map (·.push c) }
      | none => s
    | _ => s
  | (i, .finish fails) =>
    match s.stage i, fails with
    | .writing _, some e => s.enter i (.finished (.error (seedWriteError path e)))
    | .writing n, none =>
      if n = (Text.hexChars (seeds i)).length then s.enter i (.finished (.ok (seeds i))) else s
    | _, _ => s
  | (i, .kill) => s.enter i .killed

/-- The states that some order of the starts' steps reaches. -/
abbrev Reached (file : Option String) (s : SeedStarts ι) : Prop :=
  Reachable (step path seeds) (fun _ _ ↦ True) (init file) s

end SeedStarts

/-! ### Pieces of a seed -/

variable {path : String} {seed : Bytes}

/-- **What has been written of a seed reads as one only when it is all there.** -/
theorem parseLocalSeed_take (hseed : seed.length = 32) {n : ℕ} {a : Bytes} :
    parseLocalSeed path (String.ofList ((Text.hexChars seed).take n)) = .ok a ↔
      (Text.hexChars seed).length ≤ n ∧ a = seed := by
  have hpiece : ∀ c ∈ (Text.hexChars seed).take n, c ∈ Text.hexChars seed := fun c hc ↦
    List.mem_of_mem_take hc
  have htrim : Text.trim ((Text.hexChars seed).take n) = (Text.hexChars seed).take n :=
    Text.trim_eq_self fun c hc ↦
      Text.forall_mem_hexChars (P := fun c ↦ Text.isWhitespace c = false) (by decide) (hpiece c hc)
  have hdecode : ∀ bs, Text.hexDecode (String.ofList ((Text.hexChars seed).take n)) = some bs ↔
      (Text.hexChars seed).take n = Text.hexChars bs := fun bs ↦ by
    rw [Text.hexDecode, String.toList_ofList, Text.hexDecodeChars_eq_some_iff,
      Text.map_toLower_hexChars hpiece]
  rw [parseLocalSeed, String.toList_ofList, htrim]
  constructor
  · intro h
    split at h
    · cases h
    · next bs hbs =>
      split at h
      · next hlen =>
        obtain rfl := Except.ok.inj h
        have htake := (hdecode bs).1 hbs
        have hlength := congrArg List.length htake
        rw [List.length_take, Text.length_hexChars, Text.length_hexChars, hseed, hlen] at hlength
        have hall : (Text.hexChars seed).length ≤ n := by
          rw [Text.length_hexChars, hseed]
          omega
        rw [List.take_of_length_le hall] at htake
        exact ⟨hall, Text.hexEncode_injective (congrArg String.ofList htake.symm)⟩
      · cases h
  · rintro ⟨hall, rfl⟩
    rw [(hdecode a).2 (List.take_of_length_le hall)]
    exact if_pos hseed

theorem createLocalSeed_eq_ok {file : Option String} {io : CreateIo}
    (h : createLocalSeed path file io = .ok ()) : file = none := by
  rcases file with - | text
  · rfl
  · simp only [createLocalSeed, Option.isSome_some, if_true] at h
    split at h <;> cases h

namespace SeedStarts

variable {ι : Type} [DecidableEq ι] {seeds : ι → Bytes} {start : Option String} {s : SeedStarts ι}

/-- What one start does to its own progress. -/
theorem stage_enter (i j : ι) (stage : SeedStage) :
    (s.enter i stage).stage j = if j = i then stage else s.stage j :=
  Function.update_apply s.stage i stage j

/-! ### Whoever gets a seed gets the one in the file -/

/-- What holds in whatever order the starts take their steps. -/
structure Inv (path : String) (seeds : ι → Bytes) (start : Option String) (s : SeedStarts ι) :
    Prop where
  /-- A file that was there at first stays as it is, and nobody writes. -/
  kept : ∀ text, start = some text → s.file = some text ∧ ∀ i n, s.stage i ≠ .writing n
  /-- The file holds what its writer has written. -/
  writing : ∀ i n, s.stage i = .writing n →
    s.file = some (String.ofList ((Text.hexChars (seeds i)).take n))
  alone : ∀ i j n m, s.stage i = .writing n → s.stage j = .writing m → i = j
  given : ∀ i a, s.stage i = .finished (.ok a) →
    ∃ text, s.file = some text ∧ parseLocalSeed path text = .ok a

/-- A start moves on and leaves the file alone. -/
theorem Inv.enter (h : s.Inv path seeds start) {i : ι} {stage : SeedStage}
    (hwriting : ∀ n, stage ≠ .writing n)
    (hgiven : ∀ a, stage = .finished (.ok a) →
      ∃ text, s.file = some text ∧ parseLocalSeed path text = .ok a) :
    (s.enter i stage).Inv path seeds start := by
  have hold : ∀ j n, (s.enter i stage).stage j = .writing n → s.stage j = .writing n := by
    intro j n hj
    rw [stage_enter] at hj
    split at hj
    · exact absurd hj (hwriting n)
    · exact hj
  refine ⟨fun text htext ↦ ⟨(h.kept text htext).1, fun j n hj ↦
    (h.kept text htext).2 j n (hold j n hj)⟩, fun j n hj ↦ h.writing j n (hold j n hj),
    fun j k n m hj hk ↦ h.alone j k n m (hold j n hj) (hold k m hk), fun j a hj ↦ ?_⟩
  rw [stage_enter] at hj
  split at hj
  · exact hgiven a hj
  · exact h.given j a hj

/-- The file is created where there was none, so that nobody has written or read one. -/
theorem Inv.create (h : s.Inv path seeds start) (hnone : s.file = none) (i : ι) :
    ({ s.enter i (.writing 0) with file := some "" } : SeedStarts ι).Inv path seeds start := by
  have hnobody : ∀ j n, s.stage j ≠ .writing n := fun j n hj ↦ by
    have hfile := h.writing j n hj
    rw [hnone] at hfile
    cases hfile
  have hwriter : ∀ j n, (s.enter i (.writing 0)).stage j = .writing n → j = i ∧ n = 0 := by
    intro j n hj
    rw [stage_enter] at hj
    split at hj
    · next hji => exact ⟨hji, (SeedStage.writing.inj hj).symm⟩
    · exact absurd hj (hnobody j n)
  refine ⟨fun text htext ↦ ?_, fun j n hj ↦ ?_, fun j k n m hj hk ↦ ?_, fun j a hj ↦ ?_⟩
  · have hfile := (h.kept text htext).1
    rw [hnone] at hfile
    cases hfile
  · obtain ⟨rfl, rfl⟩ := hwriter j n hj
    rfl
  · exact (hwriter j n hj).1.trans (hwriter k m hk).1.symm
  · change (s.enter i (.writing 0)).stage j = _ at hj
    rw [stage_enter] at hj
    split at hj
    · cases hj
    · obtain ⟨text, htext, -⟩ := h.given j a hj
      rw [hnone] at htext
      cases htext

/-- One more character of a seed that is not all there yet, which nobody can have read. -/
theorem Inv.write (hseeds : ∀ i, (seeds i).length = 32) (h : s.Inv path seeds start) {i : ι} {n : ℕ}
    {c : Char} (hi : s.stage i = .writing n) (hc : (Text.hexChars (seeds i))[n]? = some c) :
    ({ s.enter i (.writing (n + 1)) with file := s.file.map (·.push c) } : SeedStarts ι).Inv path
      seeds start := by
  have hlt : n < (Text.hexChars (seeds i)).length := (List.getElem?_eq_some_iff.1 hc).1
  have hwriter : ∀ j m, (s.enter i (.writing (n + 1))).stage j = .writing m →
      j = i ∧ m = n + 1 := by
    intro j m hj
    rw [stage_enter] at hj
    split at hj
    · next hji => exact ⟨hji, (SeedStage.writing.inj hj).symm⟩
    · next hji => exact absurd (h.alone j i m n hj hi) hji
  refine ⟨fun text htext ↦ absurd hi ((h.kept text htext).2 i n), fun j m hj ↦ ?_,
    fun j k m l hj hk ↦ (hwriter j m hj).1.trans (hwriter k l hk).1.symm, fun j a hj ↦ ?_⟩
  · obtain ⟨rfl, rfl⟩ := hwriter j m hj
    show s.file.map (·.push c) = _
    rw [h.writing j n hi, Option.map_some, Option.some.injEq, List.take_add_one, hc]
    exact String.toList_injective (by simp)
  · change (s.enter i (.writing (n + 1))).stage j = _ at hj
    rw [stage_enter] at hj
    split at hj
    · cases hj
    · obtain ⟨text, htext, hparse⟩ := h.given j a hj
      rw [h.writing i n hi] at htext
      obtain rfl := Option.some.inj htext
      exact absurd ((parseLocalSeed_take (hseeds i)).1 hparse).1 (not_le.2 hlt)

theorem Inv.step (hseeds : ∀ i, (seeds i).length = 32) (h : s.Inv path seeds start)
    (a : ι × SeedStep) : (s.step path seeds a).Inv path seeds start := by
  rcases a with ⟨i, fails | io | - | fails | -⟩
  · show Inv path seeds start (match s.stage i with | .reading => _ | _ => s)
    split
    · refine h.enter (fun n ↦ ?_) fun a ha ↦ ?_
      · split <;> simp
      · split at ha
        · next result hread =>
          obtain rfl := SeedStage.finished.inj ha
          rcases fails with - | e
          · rcases hfile : s.file with - | text
            · rw [hfile] at hread
              cases hread
            · rw [hfile] at hread
              exact ⟨text, rfl, Option.some.inj hread⟩
          · cases hread
        · cases ha
    · exact h
  · show Inv path seeds start (match s.stage i with | .creating => _ | _ => s)
    split
    · split
      · exact h.enter (fun n ↦ by simp) fun a ha ↦ by cases ha
      · next hcreate => exact h.create (createLocalSeed_eq_ok hcreate) i
    · exact h
  · show Inv path seeds start (match s.stage i with | .writing n => _ | _ => s)
    split
    · next n hi =>
      split
      · next c hc => exact h.write hseeds hi hc
      · exact h
    · exact h
  · show Inv path seeds start (match s.stage i, fails with
      | .writing _, some e => _ | .writing n, none => _ | _, _ => s)
    split
    · exact h.enter (fun n ↦ by simp) fun a ha ↦ by cases ha
    · next n hi =>
      split
      · next hall =>
        refine h.enter (fun n ↦ by simp) fun a ha ↦ ⟨_, h.writing i n hi, ?_⟩
        obtain rfl := Except.ok.inj (SeedStage.finished.inj ha)
        exact (parseLocalSeed_take (hseeds i)).2 ⟨hall.ge, rfl⟩
      · exact h
    · exact h
  · exact h.enter (fun n ↦ by simp) fun a ha ↦ by cases ha

theorem Reached.inv (hseeds : ∀ i, (seeds i).length = 32) (hs : s.Reached path seeds start) :
    s.Inv path seeds start := by
  refine Reachable.invariant _ ?_ (fun s a _ _ h ↦ h.step hseeds a) hs
  refine ⟨fun text htext ↦ ⟨htext, fun i n hi ↦ ?_⟩, fun i n hi ↦ ?_, fun i j n m hi ↦ ?_,
    fun i a hi ↦ ?_⟩
  all_goals cases hi

/-! ### A start of its own -/

/-- The steps of a start that nobody interrupts. -/
def solo (readFails : Option String) (io : CreateIo) (seed : Bytes)
    (writeFails : Option (ℕ × String)) : List SeedStep :=
  [.read readFails, .create io] ++
    List.replicate ((writeFails.map Prod.fst).getD (Text.hexChars seed).length) .write ++
    [.finish (writeFails.map Prod.snd)]

/-- The starts with one of them further on, and the file as it left it. -/
def become (s : SeedStarts ι) (i : ι) (file : Option String) (stage : SeedStage) : SeedStarts ι :=
  ⟨file, Function.update s.stage i stage⟩

theorem become_become (i : ι) (file file' : Option String) (stage stage' : SeedStage) :
    (s.become i file stage).become i file' stage' = s.become i file' stage' := by
  simp [become]

theorem stage_become (i : ι) (file : Option String) (stage : SeedStage) :
    (s.become i file stage).stage i = stage :=
  Function.update_self ..

/-- A start that is through does nothing more. -/
theorem final_finished {i : ι} {result : Except CordonError Bytes}
    (hi : s.stage i = .finished result) {steps : List SeedStep} (hsteps : .kill ∉ steps) :
    final (step path seeds) s (steps.map fun a ↦ (i, a)) = s := by
  induction steps with
  | nil => rfl
  | cons a steps ih =>
    have hstay : s.step path seeds (i, a) = s := by
      rcases a with fails | io | - | fails | -
      · simp only [step, hi]
      · simp only [step, hi]
      · simp only [step, hi]
      · simp only [step, hi]
      · exact absurd List.mem_cons_self hsteps
    show final (step path seeds) (s.step path seeds (i, a)) _ = s
    rw [hstay]
    exact ih fun hmem ↦ hsteps (List.mem_cons_of_mem _ hmem)

/-- What several characters in a row come to. -/
theorem final_write {i : ι} (k : ℕ) :
    final (step path seeds) (s.become i (some "") (.writing 0))
        ((List.replicate k SeedStep.write).map fun a ↦ (i, a)) =
      s.become i (some (String.ofList ((Text.hexChars (seeds i)).take k)))
        (.writing (min k (Text.hexChars (seeds i)).length)) := by
  induction k with
  | zero => rw [Nat.zero_min]; rfl
  | succ k ih =>
    rw [List.replicate_succ', List.map_append, final_append, ih]
    show SeedStarts.step path seeds _ (i, .write) = _
    simp only [step, stage_become]
    by_cases hlt : k < (Text.hexChars (seeds i)).length
    · rw [min_eq_left hlt.le, min_eq_left (Nat.succ_le_of_lt hlt), List.getElem?_eq_getElem hlt,
        List.take_succ_eq_append_getElem hlt]
      refine (become_become i _ _ _ _).trans (congrArg (s.become i · _) (congrArg some ?_))
      exact String.toList_injective (by simp)
    · have hall := not_lt.1 hlt
      rw [min_eq_right hall, min_eq_right (hall.trans k.le_succ), List.getElem?_eq_none le_rfl,
        List.take_of_length_le hall, List.take_of_length_le (hall.trans k.le_succ)]

theorem step_read {i : ι} (hi : s.stage i = .reading) (fails : Option String) :
    s.step path seeds (i, .read fails) = s.become i s.file
      (match readLocalSeed path (readSeedFile s.file fails) with
      | some result => .finished result
      | none => .creating) := by
  simp only [step, hi]
  rfl

theorem step_create {i : ι} (hi : s.stage i = .creating) (io : CreateIo) :
    s.step path seeds (i, .create io) = match createLocalSeed path s.file io with
      | .error e => s.become i s.file (.finished (.error e))
      | .ok () => s.become i (some "") (.writing 0) := by
  simp only [step, hi]
  rfl

/-- **A start that nobody interrupts** does what the function says, and leaves the file it says. -/
theorem final_solo {i : ι} (hi : s.stage i = .reading) (readFails : Option String) (io : CreateIo)
    (writeFails : Option (ℕ × String)) :
    final (step path seeds) s ((solo readFails io (seeds i) writeFails).map fun a ↦ (i, a)) =
      s.become i (loadOrCreateLocalSeed path s.file readFails io (seeds i) writeFails).1
        (.finished (loadOrCreateLocalSeed path s.file readFails io (seeds i) writeFails).2) := by
  have hnokill : .kill ∉ List.replicate
      ((writeFails.map Prod.fst).getD (Text.hexChars (seeds i)).length) SeedStep.write ++
        [.finish (writeFails.map Prod.snd)] := by
    simp [List.mem_replicate]
  show final (step path seeds) (s.step path seeds (i, .read readFails))
    ((.create io :: (List.replicate _ _ ++ _)).map fun a ↦ (i, a)) = _
  rw [step_read hi]
  rcases hread : readLocalSeed path (readSeedFile s.file readFails) with - | result
  · show final (step path seeds) (SeedStarts.step path seeds _ (i, .create io))
      ((List.replicate _ _ ++ _).map fun a ↦ (i, a)) = _
    rw [step_create (stage_become ..)]
    rcases hcreate : createLocalSeed path s.file io with e | ⟨⟨⟩⟩
    · show final _ (match createLocalSeed path s.file io with | .error e => _ | .ok () => _) _ = _
      rw [hcreate]
      dsimp only
      rw [become_become, final_finished (stage_become ..) hnokill]
      simp [loadOrCreateLocalSeed, hread, hcreate, become]
    · show final _ (match createLocalSeed path s.file io with | .error e => _ | .ok () => _) _ = _
      rw [hcreate]
      dsimp only
      rw [become_become, List.map_append, final_append, final_write]
      show SeedStarts.step path seeds _ (i, .finish _) = _
      simp only [step, stage_become]
      rcases writeFails with - | ⟨n, e⟩
      · simp only [Option.map_none, Option.getD_none, min_self, if_true, List.take_length]
        refine (become_become i _ _ _ _).trans ?_
        simp [loadOrCreateLocalSeed, hread, hcreate, Text.hexEncode, become]
      · simp only [Option.map_some, Option.getD_some]
        refine (become_become i _ _ _ _).trans ?_
        simp [loadOrCreateLocalSeed, hread, hcreate, become]
  · rw [final_finished (stage_become ..) (by simp [List.mem_replicate])]
    simp [loadOrCreateLocalSeed, hread]

/-- **Any number of starts agree on the seed**, whatever the order of their steps and wherever they
are killed: a file that is there is never overwritten, and all that a start can be given is the seed
in the file. -/
theorem local_seed_agreement (hseeds : ∀ i, (seeds i).length = 32)
    (hs : s.Reached path seeds start) :
    (∀ text, start = some text → s.file = some text) ∧
    (∀ i a, s.stage i = .finished (.ok a) →
      ∃ text, s.file = some text ∧ parseLocalSeed path text = .ok a) ∧
    ∀ i j a b, s.stage i = .finished (.ok a) → s.stage j = .finished (.ok b) → a = b := by
  have h := hs.inv hseeds
  refine ⟨fun text htext ↦ (h.kept text htext).1, h.given, fun i j a b hi hj ↦ ?_⟩
  obtain ⟨text, htext, ha⟩ := h.given i a hi
  obtain ⟨text', htext', hb⟩ := h.given j b hj
  obtain rfl := Option.some.inj (htext.symm.trans htext')
  exact Except.ok.inj (ha.symm.trans hb)

/-! ### A sample: the second start finds the seed of the first -/

namespace SampleSeeds

/-- Two starts draw two seeds. -/
def drawn : Bool → Bytes
  | false => List.replicate 32 7
  | true => List.replicate 32 9

def io : CreateIo := ⟨"/data", .ok (), "File exists", .ok ()⟩

/-- One start creates the file, and the other reads it. -/
def run : List (Bool × SeedStep) :=
  (solo none io (drawn false) none).map (fun a ↦ (false, a)) ++ [(true, .read none)]

def starts : SeedStarts Bool :=
  final (step "/data/node.key" drawn) (init none) run

theorem length_drawn (i : Bool) : (drawn i).length = 32 := by
  cases i <;> rfl

theorem stage_starts : starts.stage true = .finished (.ok (drawn false)) := by
  rw [starts, run, final_append, final_solo rfl, final, List.foldl_cons, List.foldl_nil,
    step_read rfl, stage_become]
  have hparse : parseLocalSeed "/data/node.key" (Text.hexEncode (drawn false)) =
      .ok (drawn false) := by
    have h : parseLocalSeed "/data/node.key" (String.ofList ((Text.hexChars (drawn false)).take
        (Text.hexChars (drawn false)).length)) = .ok (drawn false) :=
      (parseLocalSeed_take (length_drawn false)).2 ⟨le_rfl, rfl⟩
    rwa [List.take_length] at h
  show SeedStage.finished (parseLocalSeed "/data/node.key" (Text.hexEncode (drawn false))) = _
  rw [hparse]

theorem reached_starts : starts.Reached "/data/node.key" drawn none :=
  reachable_final AllSteps.trivial .start

end SampleSeeds

/-- What the second start got is what is in the file. -/
theorem local_seed_agreement_sample : ∃ text, SampleSeeds.starts.file = some text ∧
    parseLocalSeed "/data/node.key" text = .ok (List.replicate 32 7) :=
  (local_seed_agreement SampleSeeds.length_drawn SampleSeeds.reached_starts).2.1 true _
    SampleSeeds.stage_starts

end SeedStarts

end Cordon
