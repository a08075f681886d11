import Cordon.Audit.Agreement

/-!
# The verdict of the command line verifier

`cordon-verify-log` promises three exit statuses: 0 for a log that verifies, 1 for one that was
tampered with, 2 if it could not check. A log that can be read should get a verdict; what stands in
the way is decided by the entries, which whoever tampered with the log has written:

* a signature that is not 64 bytes of hexadecimal ends the walk with an error, where a signature
  that does not verify is a violation;
* the sum the next sequence is compared with does not fit into 64 bits behind the largest sequence;
* the report in text form shows the first 32 bytes of the last hash, and **a string cannot be cut
  inside a character**.

`walkEntries` is the walk with the sum as the machine computes it: an overflow is a panic where
overflow is checked for, and elsewhere a sum that wraps. `verdict_reached_iff` says that nothing
else stands in the way.

The equivalence takes the command apart into its walk, its sums and its report. The walk is that of
`Audit.Verify`, which decides every check; the sums are its sums as long as they fit
(`walkEntries_eq_ok_iff`); the report is cut at a byte, and whether that is between two characters
is a matter of the text. Whether the lines of a file can be read is decided before any of this, and
the entries are those that were loaded.
-/

namespace Cordon

/-- Why there is no verdict. -/
inductive Halt
  | error (e : AuditError)
  /-- A sum does not fit into 64 bits. -/
  | overflow
  /-- A string is cut inside a character. -/
  | sliceInsideChar

/-- `u64::MAX`. -/
def maxSequence : ℕ := 2 ^ 64 - 1

/-- What there is to say about entries and their violations. -/
def VerificationResult.of (entries : List AuditEntry) (violations : List String) :
    VerificationResult where
  valid := violations.isEmpty
  entriesVerified := entries.length
  firstEntry := entries.head?.map AuditEntry.timestamp
  lastEntry := entries.getLast?.map AuditEntry.timestamp
  logTailHash := entries.getLast?.map AuditEntry.entryHash
  violations := violations

section

variable (E : Ed25519) (J : AuditJson) (vk : VerifyingKey)

/-- The walk of `verify_log_chain`. -/
def walkEntries : ℕ → String → ℕ → List AuditEntry → Except Halt (List String)
  | _, _, _, [] => .ok []
  | i, prevHash, expectedSeq, entry :: entries =>
    if maxSequence ≤ expectedSeq then .error .overflow
    else do
      let here ← (checkEntry E J vk i prevHash expectedSeq entry).mapError .error
      let rest ← walkEntries (i + 1) entry.entryHash entry.sequence entries
      return here ++ rest

/-- `verify_log_chain`. -/
def verifyLogChainU64 (path : LogPath) (deploymentId : String) :
    Except Halt VerificationResult := do
  let entries ← (loadEntries J path).mapError .error
  if entries = [] then return .of [] []
  let violations ← walkEntries E J vk 0 (computeGenesisHash deploymentId) 0 entries
  return .of entries violations

/-- The beginning of the last hash, as the report in text form shows it. -/
def shownTail (tail : String) : Except Halt Bytes :=
  let cut := min 32 (Text.asBytes tail).length
  if Text.isCharBoundary (Text.asBytes tail) cut then .ok ((Text.asBytes tail).take cut)
  else .error .sliceInsideChar

/-- `run`, with the key already read: whether the log is valid, once that is reported. -/
def runVerifyLog (path : LogPath) (deploymentId format : String) : Except Halt Bool := do
  let result ← verifyLogChainU64 E J vk path deploymentId
  if format ≠ "json" then
    match result.logTailHash with
    | some tail => discard (shownTail tail)
    | none => pure ()
  return result.valid

/-- The exit status; `none` if the process panics. -/
def exitCode : Except Halt Bool → Option ℕ
  | .ok true => some 0
  | .ok false => some 1
  | .error (.error _) => some 2
  | .error _ => none

end

/-! ### What the walk needs -/

section

variable {E : Ed25519} {J : AuditJson} {vk : VerifyingKey}

/-- The sums of a walk fit, given the sequence before its first entry. -/
def SumsFit : ℕ → List AuditEntry → Prop
  | _, [] => True
  | expectedSeq, entry :: entries => expectedSeq < maxSequence ∧ SumsFit entry.sequence entries

/-- An entry can be checked: its payload serializes, and its signature is 64 bytes of
hexadecimal. -/
structure AuditEntry.Checkable (J : AuditJson) (e : AuditEntry) : Prop where
  payload : ∃ bytes, J.eventToVec e.payload = .ok bytes
  signature : ∃ bytes, Text.hexDecode e.signature = some bytes ∧ bytes.length = 64

theorem exists_fromHex_iff {s : String} :
    (∃ sig, Signature.fromHex s = .ok sig) ↔
      ∃ bytes, Text.hexDecode s = some bytes ∧ bytes.length = 64 := by
  rw [Signature.fromHex]
  rcases Text.hexDecode s with - | bytes
  · simp
  · by_cases h : bytes.length = 64
    · simp [h]
    · simp [h]

theorem exists_checkEntry_iff {i : ℕ} {prevHash : String} {expectedSeq : ℕ} {e : AuditEntry} :
    (∃ violations, checkEntry E J vk i prevHash expectedSeq e = .ok violations) ↔
      e.Checkable J := by
  simp only [checkEntry, Except.bind_eq_ok, Except.pure_eq_ok, Except.mapError_eq_ok]
  constructor
  · intro h
    obtain ⟨-, bytes, hbytes, sig, hsig, -⟩ := h
    exact ⟨⟨bytes, hbytes⟩, exists_fromHex_iff.1 ⟨sig, hsig⟩⟩
  · intro h
    obtain ⟨bytes, hbytes⟩ := h.payload
    obtain ⟨sig, hsig⟩ := exists_fromHex_iff.2 h.signature
    exact ⟨_, bytes, hbytes, sig, hsig, rfl⟩

theorem exists_checkEntries_iff {i : ℕ} {prevHash : String} {expectedSeq : ℕ}
    {entries : List AuditEntry} :
    (∃ violations, checkEntries E J vk i prevHash expectedSeq entries = .ok violations) ↔
      ∀ e ∈ entries, e.Checkable J := by
  induction entries generalizing i prevHash expectedSeq with
  | nil => simp [checkEntries]
  | cons entry entries ih =>
    rw [List.forall_mem_cons, ← exists_checkEntry_iff, ← ih, checkEntries]
    simp only [Except.bind_eq_ok, Except.pure_eq_ok]
    constructor
    · intro h
      obtain ⟨-, here, hhere, rest, hrest, -⟩ := h
      exact ⟨⟨here, hhere⟩, rest, hrest⟩
    · intro h
      obtain ⟨⟨here, hhere⟩, rest, hrest⟩ := h
      exact ⟨_, here, hhere, rest, hrest, rfl⟩

/-- **The walk of the machine is the walk over the numbers, as long as the sums fit.** -/
theorem walkEntries_eq_ok_iff {i : ℕ} {prevHash : String} {expectedSeq : ℕ}
    {entries : List AuditEntry} {violations : List String} :
    walkEntries E J vk i prevHash expectedSeq entries = .ok violations ↔
      checkEntries E J vk i prevHash expectedSeq entries = .ok violations ∧
        SumsFit expectedSeq entries := by
  induction entries generalizing i prevHash expectedSeq violations with
  | nil => simp [walkEntries, checkEntries, SumsFit]
  | cons entry entries ih =>
    rw [walkEntries, SumsFit]
    by_cases hfits : maxSequence ≤ expectedSeq
    · rw [if_pos hfits]
      refine iff_of_false (by simp) fun h ↦ ?_
      exact absurd h.2.1 (Nat.not_lt.2 hfits)
    · rw [if_neg hfits, checkEntries]
      simp only [Except.bind_eq_ok, Except.pure_eq_ok, Except.mapError_eq_ok, ih]
      constructor
      · intro h
        obtain ⟨here, hhere, rest, ⟨hrest, hsums⟩, rfl⟩ := h
        exact ⟨⟨here, hhere, rest, hrest, rfl⟩, Nat.lt_of_not_le hfits, hsums⟩
      · intro h
        obtain ⟨⟨here, hhere, rest, hrest, rfl⟩, -, hsums⟩ := h
        exact ⟨here, hhere, rest, ⟨hrest, hsums⟩, rfl⟩

/-- In the order of the sequences, the largest sequence can stand last only. -/
theorem sumsFit_iff {expectedSeq : ℕ} {entries : List AuditEntry}
    (hstart : expectedSeq < maxSequence)
    (hsorted : entries.Pairwise fun a b ↦ a.sequence ≤ b.sequence) :
    SumsFit expectedSeq entries ↔
      entries.countP (fun e ↦ maxSequence ≤ e.sequence) ≤ 1 := by
  induction entries generalizing expectedSeq with
  | nil => simp [SumsFit]
  | cons entry entries ih =>
    obtain ⟨hfirst, hrest⟩ := List.pairwise_cons.1 hsorted
    rw [SumsFit]
    by_cases hlast : maxSequence ≤ entry.sequence
    · have hall : entries.countP (fun e ↦ maxSequence ≤ e.sequence) = entries.length := by
        rw [List.countP_eq_length]
        intro e he
        simpa using hlast.trans (hfirst e he)
      rw [List.countP_cons_of_pos (by simpa using hlast), hall]
      rcases entries with - | ⟨next, entries⟩
      · simp [SumsFit, hstart]
      · refine iff_of_false (fun h ↦ ?_) (by simp)
        exact absurd h.2.1 (Nat.not_lt.2 hlast)
    · rw [List.countP_cons_of_neg (by simpa using hlast),
        ← ih (Nat.lt_of_not_le hlast) hrest]
      exact ⟨fun h ↦ h.2, fun h ↦ ⟨hstart, h⟩⟩

/-- The last hash can be shown. -/
def TailShown (format : String) (entries : List AuditEntry) : Prop :=
  format = "json" ∨ ∀ e, entries.getLast? = some e →
    Text.isCharBoundary (Text.asBytes e.entryHash) (min 32 (Text.asBytes e.entryHash).length)

/-- **Nothing in a log stands in the way of a verdict.** -/
structure LogCheckable (J : AuditJson) (format : String) (entries : List AuditEntry) : Prop where
  checkable : ∀ e ∈ entries, e.Checkable J
  sequences : entries.countP (fun e ↦ maxSequence ≤ e.sequence) ≤ 1
  tail : TailShown format entries

theorem pairwise_loadEntries {path : LogPath} {entries : List AuditEntry}
    (h : loadEntries J path = .ok entries) :
    entries.Pairwise fun a b ↦ a.sequence ≤ b.sequence := by
  cases path with
  | directory d =>
    obtain ⟨l, -, rfl⟩ := Except.map_eq_ok.1 h
    exact pairwise_sortBySequence l
  | file content =>
    obtain ⟨l, -, rfl⟩ := Except.map_eq_ok.1 h
    exact pairwise_sortBySequence l

/-- The verifier returns a result exactly if its walk reaches the end. -/
theorem verifyLogChainU64_eq_ok_iff {path : LogPath} {deploymentId : String}
    {entries : List AuditEntry} (hload : loadEntries J path = .ok entries)
    {r : VerificationResult} :
    verifyLogChainU64 E J vk path deploymentId = .ok r ↔
      ∃ violations, walkEntries E J vk 0 (computeGenesisHash deploymentId) 0 entries =
        .ok violations ∧ r = .of entries violations := by
  rw [verifyLogChainU64, hload]
  rcases entries with - | ⟨entry, entries⟩
  · simp only [Except.mapError, Except.ok_bind, if_true, Except.pure_eq_ok, walkEntries,
      Except.ok.injEq, exists_eq_left']
    exact eq_comm
  · simp only [Except.mapError, Except.ok_bind, reduceCtorEq, if_false, Except.bind_eq_ok,
      Except.pure_eq_ok]
    constructor
    · intro h
      obtain ⟨violations, hwalk, rfl⟩ := h
      exact ⟨violations, hwalk, rfl⟩
    · intro h
      obtain ⟨violations, hwalk, rfl⟩ := h
      exact ⟨violations, hwalk, rfl⟩

/-- The walk reaches the end exactly if every entry can be checked and the sums fit. -/
theorem exists_walkEntries_iff {path : LogPath} {prevHash : String} {entries : List AuditEntry}
    (hload : loadEntries J path = .ok entries) :
    (∃ violations, walkEntries E J vk 0 prevHash 0 entries = .ok violations) ↔
      (∀ e ∈ entries, e.Checkable J) ∧
        entries.countP (fun e ↦ maxSequence ≤ e.sequence) ≤ 1 := by
  simp only [walkEntries_eq_ok_iff]
  rw [exists_and_right, exists_checkEntries_iff,
    sumsFit_iff (by decide) (pairwise_loadEntries hload)]

theorem exists_shownTail_iff {tail : String} :
    (∃ shown, shownTail tail = .ok shown) ↔
      Text.isCharBoundary (Text.asBytes tail) (min 32 (Text.asBytes tail).length) := by
  rw [shownTail]
  split_ifs with h
  · simp [h]
  · simp [h]

/-- Once there is a result, the exit status says it exactly if the last hash can be shown. -/
theorem exitCode_eq_iff {path : LogPath} {deploymentId format : String}
    {entries : List AuditEntry} {violations : List String}
    (h : verifyLogChainU64 E J vk path deploymentId = .ok (.of entries violations)) :
    exitCode (runVerifyLog E J vk path deploymentId format) =
      some (if violations.isEmpty then 0 else 1) ↔ TailShown format entries := by
  have hcode : ∀ valid : Bool, exitCode (.ok valid) = some (if valid then 0 else 1) := by decide
  rw [runVerifyLog, h, Except.ok_bind, TailShown]
  by_cases hjson : format = "json"
  · rw [if_neg (not_not_intro hjson)]
    exact iff_of_true (hcode violations.isEmpty) (Or.inl hjson)
  rw [if_pos hjson, or_iff_right hjson]
  simp only [VerificationResult.of]
  rcases hlast : entries.getLast? with - | e
  · exact iff_of_true (hcode violations.isEmpty) (by simp)
  · simp only [Option.map_some, Option.some.injEq, forall_eq', ← exists_shownTail_iff]
    rcases hshown : shownTail e.entryHash with halt | shown
    · obtain rfl : halt = .sliceInsideChar := by
        rw [shownTail] at hshown
        split_ifs at hshown
        exact (Except.error.inj hshown).symm
      exact iff_of_false (fun hnone ↦ by cases hnone) (by simp)
    · exact iff_of_true (hcode violations.isEmpty) ⟨shown, rfl⟩

end

/-! ### The verdict -/

/-- **The verifier reaches a verdict on a log, and the right one**: the log is valid exactly if
every check passes, and the exit status says which. -/
def VerdictReached (E : Ed25519) (J : AuditJson) (vk : VerifyingKey) (path : LogPath)
    (deploymentId format : String) (entries : List AuditEntry) : Prop :=
  ∃ r, verifyLogChainU64 E J vk path deploymentId = .ok r ∧
    (r.valid = true ↔ ChainOk E J vk (computeGenesisHash deploymentId) 0 entries) ∧
    exitCode (runVerifyLog E J vk path deploymentId format) = some (if r.valid then 0 else 1)

/-- **A verdict is reached on a readable log exactly if** every signature in it is 64 bytes of
hexadecimal and every payload serializes, no two entries have the largest sequence, and the last
hash can be shown. -/
theorem verdict_reached_iff (E : Ed25519) (J : AuditJson) (vk : VerifyingKey) (path : LogPath)
    (deploymentId format : String) {entries : List AuditEntry}
    (hload : loadEntries J path = .ok entries) :
    VerdictReached E J vk path deploymentId format entries ↔ LogCheckable J format entries := by
  constructor
  · intro h
    obtain ⟨r, hr, -, hcode⟩ := h
    obtain ⟨violations, hwalk, rfl⟩ := (verifyLogChainU64_eq_ok_iff hload).1 hr
    obtain ⟨hcheckable, hsequences⟩ := (exists_walkEntries_iff hload).1 ⟨violations, hwalk⟩
    exact ⟨hcheckable, hsequences, (exitCode_eq_iff hr).1 hcode⟩
  · intro h
    obtain ⟨violations, hwalk⟩ : ∃ violations,
        walkEntries E J vk 0 (computeGenesisHash deploymentId) 0 entries = .ok violations :=
      (exists_walkEntries_iff hload).2 ⟨h.checkable, h.sequences⟩
    have hr := (verifyLogChainU64_eq_ok_iff hload).2 ⟨violations, hwalk, rfl⟩
    refine ⟨_, hr, ?_, (exitCode_eq_iff hr).2 h.tail⟩
    have hcheck := (walkEntries_eq_ok_iff.1 hwalk).1
    rw [← checkEntries_eq_ok_nil (i := 0), hcheck, Except.ok.injEq]
    exact List.isEmpty_iff

/-! ### Two logs of one entry -/

/-- A first entry that says nothing true about its hashes. -/
def forgedEntry (signature : String) : AuditEntry where
  logId := ⟨1⟩
  timestamp := sampleNow
  payloadHash := ""
  entryHash := ""
  signature := signature
  payload := .lifecycle sampleLifecycle
  sequence := 1

/-- A signature of the right form. -/
def forgedSignature : String :=
  (⟨List.replicate 64 0, Signature.length_zeros⟩ : Signature).toHex

/-- A serializer that reads the forged entry. -/
def forgedJson (signature : String) : AuditJson :=
  lifecycleJson [forgedEntry signature]

/-- The log that consists of the forged entry. -/
def forgedLog (signature : String) : LogPath :=
  .file (segmentBytes (forgedJson signature) [forgedEntry signature])

/-- A forged entry of printable text can be read, whatever its signature says. -/
theorem loadEntries_forgedLog {signature : String}
    (hplain : Plain (entryTextWith (lifecycleText sampleLifecycle) (forgedEntry signature))) :
    loadEntries (forgedJson signature) (forgedLog signature) = .ok [forgedEntry signature] := by
  have huniform : Uniform [forgedEntry signature]
      (entryTextWith (lifecycleText sampleLifecycle) (forgedEntry signature)).length := by
    refine ⟨fun e he ↦ ?_, fun a ha b hb _ ↦ ?_⟩
    · obtain rfl := List.mem_singleton.1 he
      exact ⟨_, rfl, rfl, hplain⟩
    · rw [List.mem_singleton.1 ha, List.mem_singleton.1 hb]
  have hrt : ∀ e ∈ [forgedEntry signature], (forgedJson signature).RoundTrips e := fun e he ↦
    (lifecycleJson_faithful huniform he).roundTrips
  rw [forgedLog, loadEntries, loadEntriesFromFile_segmentBytes hrt]
  rfl

/-- **A forged log whose signature is of the right form is reported as tampered with**: the exit
status is 1. -/
theorem forged_log_exits_one :
    exitCode (runVerifyLog zeroEd25519 (forgedJson forgedSignature) ⟨[]⟩
      (forgedLog forgedSignature) "deployment-1" "text") = some 1 := by
  have hload := @loadEntries_forgedLog forgedSignature (by decide +kernel)
  have hcheckable : LogCheckable (forgedJson forgedSignature) "text"
      [forgedEntry forgedSignature] := by
    refine ⟨fun e he ↦ ?_, by decide, Or.inr fun e he ↦ ?_⟩
    · obtain rfl := List.mem_singleton.1 he
      exact ⟨⟨_, rfl⟩, exists_fromHex_iff.1 ⟨_, Signature.fromHex_toHex _⟩⟩
    · obtain rfl := Option.some.inj he
      decide
  obtain ⟨r, -, hvalid, hcode⟩ :=
    (verdict_reached_iff zeroEd25519 _ ⟨[]⟩ _ "deployment-1" "text" hload).2 hcheckable
  have hinvalid : ¬r.valid = true := by
    intro h
    -- the empty text is no hash
    have hlength := congrArg (fun hash ↦ (Text.asBytes hash).length) (hvalid.1 h).1.1.link
    rw [chainHash, Sha256.length_asBytes_digestHex] at hlength
    exact absurd hlength (by decide)
  rw [hcode, if_neg hinvalid]

/-- **A forged log whose signature is no hexadecimal gets no verdict**: the exit status is 2. -/
theorem forged_log_exits_two :
    loadEntries (forgedJson "tampered") (forgedLog "tampered") = .ok [forgedEntry "tampered"] ∧
    exitCode (runVerifyLog zeroEd25519 (forgedJson "tampered") ⟨[]⟩ (forgedLog "tampered")
      "deployment-1" "text") = some 2 ∧
    ¬VerdictReached zeroEd25519 (forgedJson "tampered") ⟨[]⟩ (forgedLog "tampered")
      "deployment-1" "text" [forgedEntry "tampered"] := by
  have hload := @loadEntries_forgedLog "tampered" (by decide +kernel)
  obtain ⟨e, hwalk⟩ : ∃ e, verifyLogChainU64 zeroEd25519 (forgedJson "tampered") ⟨[]⟩
      (forgedLog "tampered") "deployment-1" = .error (.error e) := by
    rw [verifyLogChainU64, hload]
    exact ⟨_, rfl⟩
  refine ⟨hload, by rw [runVerifyLog, hwalk]; rfl, fun h ↦ ?_⟩
  obtain ⟨r, hr, -⟩ := h
  rw [hwalk] at hr
  cases hr

end Cordon
