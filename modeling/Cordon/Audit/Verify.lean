import Cordon.Lib.Result
import Cordon.Audit.Entry
import Cordon.Audit.Directory

/-!
# Verifying an exported log

`verifyLogChain` reads every entry of a path, orders the entries **by their own sequence numbers**,
and walks them once, recording a violation for each check that fails. Unreadable text, a payload
that does not serialize and a signature that is not 64 bytes of hexadecimal stop the walk with an
error instead.

The walk is `checkEntries`. `ChainOk` says what a walk without violations found, entry by entry, and
`checkEntries_eq_ok_nil` is the equivalence the results about the verifier are proved from: nothing
after it unfolds the walk again.

A recorded sequence is at most `2 ^ 64 - 1`, and the sum the verifier compares with wraps there. It
can wrap only after an entry that already is a violation, so natural numbers give the same verdict.

What `ChainOk` asks of an entry depends on the ones before it only through a hash and a number, so
the equivalence is an induction over the entries with these two as its state. The verdicts of the
digest and of the signature stand in it as they are; what they mean is left to the results that need
it, each of which names its own assumption.
-/

namespace Cordon

/-! ### Reading -/

/-- What a log path names: a directory of segments, or one segment. -/
inductive LogPath where
  | directory (d : Dir)
  | file (content : Bytes)

/-- Parse the lines of a segment, the first of which has number `lineNo + 1`; blank lines are
skipped. -/
def loadLines (J : AuditJson) : ℕ → List (List Char) → Except AuditError (List AuditEntry)
  | _, [] => .ok []
  | lineNo, line :: rest =>
    if Text.isBlank line then loadLines J (lineNo + 1) rest
    else
      match J.entryFromStr (String.ofList line) with
      | .error e =>
        .error (.serializationError ("Line " ++ toString (lineNo + 1) ++ ": " ++ e))
      | .ok entry => (entry :: ·) <$> loadLines J (lineNo + 1) rest

/-- Every entry of one segment, in file order. -/
def loadEntriesFromFile (J : AuditJson) (content : Bytes) : Except AuditError (List AuditEntry) :=
  match Utf8.decode content with
  | none => .error (.ioError "stream did not contain valid UTF-8")
  | some text => loadLines J 0 (Text.lines text)

/-- Every entry of a list of segments, in the order of the list. -/
def loadFiles (J : AuditJson) (d : Dir) : List String → Except AuditError (List AuditEntry)
  | [] => .ok []
  | file :: files => do
    let here ← loadEntriesFromFile J (d.content file)
    let rest ← loadFiles J d files
    return here ++ rest

/-- Order entries by sequence; entries of one sequence keep their order. -/
def sortBySequence (es : List AuditEntry) : List AuditEntry :=
  es.insertionSort fun a b ↦ a.sequence ≤ b.sequence

/-- Load every entry from a path, ordered by the chain's own sequence numbers. -/
def loadEntries (J : AuditJson) : LogPath → Except AuditError (List AuditEntry)
  | .directory d => sortBySequence <$> loadFiles J d d.logFiles
  | .file content => sortBySequence <$> loadEntriesFromFile J content

/-! ### Checking -/

/-- Result of a log verification. -/
structure VerificationResult where
  valid : Bool
  entriesVerified : ℕ
  firstEntry : Option DateTime
  lastEntry : Option DateTime
  logTailHash : Option String
  violations : List String

section Check

variable (E : Ed25519) (J : AuditJson) (vk : VerifyingKey)

/-- The violations of entry number `i`, given the hash and the sequence recorded before it. -/
def checkEntry (i : ℕ) (prevHash : String) (expectedSeq : ℕ) (entry : AuditEntry) :
    Except AuditError (List String) := do
  let expectedHash := chainHash prevHash entry.timestamp entry.payloadHash
  let gap :=
    if entry.sequence = expectedSeq + 1 then []
    else ["Sequence gap at entry " ++ toString i ++ " (log_id: " ++ entry.logId.display ++
      "): expected " ++ toString (expectedSeq + 1) ++ ", got " ++ toString entry.sequence]
  let link :=
    if entry.entryHash = expectedHash then []
    else if i = 0 then
      ["Genesis hash mismatch at entry 0 (log_id: " ++ entry.logId.display ++
        "): expected genesis link " ++ expectedHash ++ ", got " ++ entry.entryHash]
    else ["Chain broken at entry " ++ toString i ++ " (log_id: " ++ entry.logId.display ++
      "): hash mismatch"]
  let payloadBytes ← (J.eventToVec entry.payload).mapError .serializationError
  let payload :=
    if Sha256.digestHex payloadBytes = entry.payloadHash then []
    else ["Payload hash mismatch at entry " ++ toString i ++ " (log_id: " ++
      entry.logId.display ++ ")"]
  let sig ← (Signature.fromHex entry.signature).mapError fun e ↦ .cryptoError e.display
  let signature :=
    match vk.verify E (Text.asBytes entry.entryHash) sig with
    | .ok () => []
    | .error e => ["Signature invalid at entry " ++ toString i ++ " (log_id: " ++
        entry.logId.display ++ "): " ++ e.display]
  return gap ++ link ++ payload ++ signature

/-- The violations of a list of entries, the first of which has number `i`. -/
def checkEntries : ℕ → String → ℕ → List AuditEntry → Except AuditError (List String)
  | _, _, _, [] => .ok []
  | i, prevHash, expectedSeq, entry :: entries => do
    let here ← checkEntry E J vk i prevHash expectedSeq entry
    let rest ← checkEntries (i + 1) entry.entryHash entry.sequence entries
    return here ++ rest

/-- Verify entries that are already in the order of their sequences. -/
def verifyEntries (deploymentId : String) (entries : List AuditEntry) :
    Except AuditError VerificationResult :=
  if entries = [] then
    .ok {
      valid := true, entriesVerified := 0, firstEntry := none, lastEntry := none,
      logTailHash := none, violations := [] }
  else do
    let violations ← checkEntries E J vk 0 (computeGenesisHash deploymentId) 0 entries
    return {
      valid := violations.isEmpty
      entriesVerified := entries.length
      firstEntry := entries.head?.map AuditEntry.timestamp
      lastEntry := entries.getLast?.map AuditEntry.timestamp
      logTailHash := entries.getLast?.map AuditEntry.entryHash
      violations }

/-- Verify a complete audit log chain. -/
def verifyLogChain (path : LogPath) (deploymentId : String) :
    Except AuditError VerificationResult := do
  let entries ← loadEntries J path
  verifyEntries E J vk deploymentId entries

/-! ### What a walk without violations found -/

/-- The signature of an entry reads back and verifies over the recorded entry hash. -/
def SignatureOk (e : AuditEntry) : Prop :=
  ∃ sig, Signature.fromHex e.signature = .ok sig ∧
    vk.verify E (Text.asBytes e.entryHash) sig = .ok ()

/-- Every entry passes every check against the entry before it. -/
def ChainOk (prevHash : String) (expectedSeq : ℕ) (entries : List AuditEntry) : Prop :=
  SealedChain J prevHash expectedSeq entries ∧ ∀ e ∈ entries, SignatureOk E vk e

variable {E J vk}

theorem checkEntry_eq_ok_nil {i : ℕ} {prevHash : String} {expectedSeq : ℕ} {entry : AuditEntry} :
    checkEntry E J vk i prevHash expectedSeq entry = .ok [] ↔
      Sealed J prevHash expectedSeq entry ∧ SignatureOk E vk entry := by
  constructor
  · intro h
    simp only [checkEntry, Except.bind_eq_ok, Except.pure_eq_ok, List.append_eq_nil_iff] at h
    obtain ⟨bytes, hbytes, sig, hsig, ⟨⟨hgap, hlink⟩, hpayload⟩, hver⟩ := h
    refine ⟨⟨?_, ?_, bytes, ?_, ?_⟩, sig, ?_, ?_⟩
    · split_ifs at hgap with hs
      exact hs
    · split_ifs at hlink with hl
      exact hl
    · cases hv : J.eventToVec entry.payload <;> simp_all [Except.mapError]
    · split_ifs at hpayload with hp
      exact hp.symm
    · cases hv : Signature.fromHex entry.signature <;> simp_all [Except.mapError]
    · split at hver
      · assumption
      · cases hver
  · rintro ⟨⟨hseq, hlink, bytes, hbytes, hhash⟩, sig, hsig, hver⟩
    simp only [checkEntry, hbytes, hsig, Except.mapError, Except.ok_bind, hver, if_pos hseq,
      if_pos hlink, if_pos hhash.symm]
    rfl

/-- **The walk finds no violation exactly when every check passes.** -/
theorem checkEntries_eq_ok_nil {i : ℕ} {prevHash : String} {expectedSeq : ℕ}
    {entries : List AuditEntry} :
    checkEntries E J vk i prevHash expectedSeq entries = .ok [] ↔
      ChainOk E J vk prevHash expectedSeq entries := by
  induction entries generalizing i prevHash expectedSeq with
  | nil => simp [checkEntries, ChainOk, SealedChain]
  | cons entry entries ih =>
    have hsplit : ChainOk E J vk prevHash expectedSeq (entry :: entries) ↔
        (Sealed J prevHash expectedSeq entry ∧ SignatureOk E vk entry) ∧
          ChainOk E J vk entry.entryHash entry.sequence entries := by
      simp only [ChainOk, SealedChain, List.forall_mem_cons]
      constructor
      · rintro ⟨⟨hs, hchain⟩, hsig, hsigs⟩
        exact ⟨⟨hs, hsig⟩, by rwa [hs.sequence_eq], hsigs⟩
      · rintro ⟨⟨hs, hsig⟩, hchain, hsigs⟩
        exact ⟨⟨hs, by rwa [hs.sequence_eq] at hchain⟩, hsig, hsigs⟩
    rw [hsplit, ← checkEntry_eq_ok_nil (i := i), ← ih (i := i + 1), checkEntries]
    simp only [Except.bind_eq_ok, Except.pure_eq_ok, List.append_eq_nil_iff]
    constructor
    · rintro ⟨_, h1, _, h2, rfl, rfl⟩
      exact ⟨h1, h2⟩
    · rintro ⟨h1, h2⟩
      exact ⟨[], h1, [], h2, rfl, rfl⟩

/-- A verdict of `valid` means that every check passed. -/
theorem chainOk_of_valid {deploymentId : String} {entries : List AuditEntry}
    {r : VerificationResult} (h : verifyEntries E J vk deploymentId entries = .ok r)
    (hvalid : r.valid = true) : ChainOk E J vk (computeGenesisHash deploymentId) 0 entries := by
  unfold verifyEntries at h
  split_ifs at h with hnil
  · subst hnil
    exact ⟨trivial, by simp⟩
  · simp only [Except.bind_eq_ok, Except.pure_eq_ok] at h
    obtain ⟨violations, hcheck, rfl⟩ := h
    rw [← checkEntries_eq_ok_nil (i := 0), hcheck, List.isEmpty_iff.1 hvalid]

/-- When every check passes, the verdict is `valid` and describes the list. -/
theorem verifyEntries_of_chainOk {deploymentId : String} {entries : List AuditEntry}
    (h : ChainOk E J vk (computeGenesisHash deploymentId) 0 entries) :
    verifyEntries E J vk deploymentId entries = .ok {
      valid := true
      entriesVerified := entries.length
      firstEntry := entries.head?.map AuditEntry.timestamp
      lastEntry := entries.getLast?.map AuditEntry.timestamp
      logTailHash := entries.getLast?.map AuditEntry.entryHash
      violations := [] } := by
  unfold verifyEntries
  split_ifs with hnil
  · subst hnil
    rfl
  · rw [checkEntries_eq_ok_nil.2 h]
    rfl

end Check

end Cordon
