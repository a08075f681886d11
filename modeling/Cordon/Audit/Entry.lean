import Cordon.Lib.Sha256
import Cordon.Lib.HashChain
import Cordon.Crypto.Signing
import Cordon.Audit.Events

/-!
# Audit entries and how the writer seals one

An entry commits to its predecessor, its timestamp and its payload through
`entryHash prev timestamp payloadHash`, and carries a signature over that hash. `sealEntry` is the
part of an append that computes an entry; everything else an append does is input and output.

JSON is not part of this repository. `AuditJson` holds the three serializer calls the log makes.
What the log relies on is stated **per entry** (`AuditJson.RoundTrips`), because it is not a law of
the serializer: a score that is not a number is written as `null` and does not read back.

`AppendRun` is one unforked run of appends: each entry is sealed on the hash and the sequence the
entry before it left behind. Sequence numbers are natural numbers; the counter they model is 64 bits
wide, and a run would need `2 ^ 64` appends to tell the two apart.

Everything about sealing rests on `sealEntry_eq_ok`, an inversion: an entry that was sealed has the
digest of its payload's bytes, the hash of its fields, and a signature over that hash by the log's
key. What the hash is good for is an assumption of the results that use it.
-/

namespace Cordon

/-- Errors of audit log operations. -/
inductive AuditError where
  | writeFailed (reason : String)
  | alreadyLocked (reason : String)
  | serializationError (reason : String)
  | ioError (reason : String)
  | cryptoError (reason : String)
  deriving DecidableEq

/-- A single audit log entry. -/
structure AuditEntry where
  logId : Uuid
  timestamp : DateTime
  payloadHash : String
  entryHash : String
  signature : String
  payload : AuditEvent
  sequence : ℕ
  deriving DecidableEq

/-- The serializer calls the log makes: an event to bytes, an entry to text, and back. -/
structure AuditJson where
  eventToVec : AuditEvent → Except String Bytes
  entryToString : AuditEntry → Except String String
  entryFromStr : String → Except String AuditEntry

/-- The serializer handles `e` as a JSON serializer does: it writes an object on one line, and reads
that line back to the same entry. -/
def AuditJson.RoundTrips (J : AuditJson) (e : AuditEntry) : Prop :=
  ∃ s : String, J.entryToString e = .ok s ∧ J.entryFromStr s = .ok e ∧ '\n' ∉ s.toList ∧
    ∃ mid, s.toList = '{' :: (mid ++ ['}'])

/-- No proper beginning or end of the text of `e`, decoded as a reader of raw bytes does, reads as
an entry: a fragment of a JSON object is not a JSON object. -/
def AuditJson.NoFragment (J : AuditJson) (e : AuditEntry) : Prop :=
  ∀ s, J.entryToString e = .ok s → ∀ b, b ≠ Text.asBytes s →
    b <+: Text.asBytes s ∨ b <:+ Text.asBytes s →
    ∀ e', J.entryFromStr (String.ofList (Utf8.decodeLossy b)) ≠ .ok e'

/-- What the log relies on for an entry it writes. -/
structure AuditJson.Faithful (J : AuditJson) (e : AuditEntry) : Prop where
  roundTrips : J.RoundTrips e
  noFragment : J.NoFragment e

/-- Well-known constant that opens the genesis hash. -/
def genesisConstant : Bytes :=
  Text.asBytes "CORDON_LOG_GENESIS_V2"

/-- The bytes the genesis hash of a deployment is computed over. -/
def genesisPreimage (deploymentId : String) : Bytes :=
  genesisConstant ++ Text.asBytes deploymentId ++ Text.asBytes "GENESIS"

/-- The genesis hash of a deployment. -/
def computeGenesisHash (deploymentId : String) : String :=
  Sha256.digestHex (genesisPreimage deploymentId)

/-- The bytes an entry hash is computed over. -/
def entryPreimage (prevHash : String) (timestamp : DateTime) (payloadHash : String) : Bytes :=
  Text.asBytes prevHash ++ Text.asBytes timestamp.toRfc3339 ++ Text.asBytes payloadHash

/-- The chained hash of an entry. -/
def chainHash (prevHash : String) (timestamp : DateTime) (payloadHash : String) : String :=
  Sha256.digestHex (entryPreimage prevHash timestamp payloadHash)

/-! ### Sealing an entry -/

section Seal

variable (E : Ed25519) (J : AuditJson) (key : SigningKey)

/-- The entry made of an event and its serialization, on the chain state it starts from. -/
def sealWith (lastHash : String) (sequence : ℕ) (event : AuditEvent) (payloadBytes : Bytes)
    (now : DateTime) (logId : Uuid) : AuditEntry :=
  let payloadHash := Sha256.digestHex payloadBytes
  let entryHash := chainHash lastHash now payloadHash
  { logId
    timestamp := now
    payloadHash
    entryHash
    signature := (key.sign E (Text.asBytes entryHash)).toHex
    payload := event
    sequence := sequence + 1 }

/-- The entry an append writes, from the chain state it starts from. -/
def sealEntry (lastHash : String) (sequence : ℕ) (event : AuditEvent) (now : DateTime)
    (logId : Uuid) : Except AuditError AuditEntry :=
  match J.eventToVec event with
  | .error e => .error (.serializationError e)
  | .ok payloadBytes => .ok (sealWith E key lastHash sequence event payloadBytes now logId)

variable {E J key}

/-- **What a sealed entry is**, field by field: the one fact proofs about the writer use. -/
theorem sealEntry_eq_ok {lastHash : String} {sequence : ℕ} {event : AuditEvent} {now : DateTime}
    {logId : Uuid} {e : AuditEntry}
    (h : sealEntry E J key lastHash sequence event now logId = .ok e) :
    ∃ payloadBytes, J.eventToVec e.payload = .ok payloadBytes ∧
      e.payloadHash = Sha256.digestHex payloadBytes ∧
      e.entryHash = chainHash lastHash e.timestamp e.payloadHash ∧
      e.signature = (key.sign E (Text.asBytes e.entryHash)).toHex ∧
      e.sequence = sequence + 1 := by
  unfold sealEntry at h
  split at h
  · cases h
  · rename_i payloadBytes hp
    cases h
    exact ⟨payloadBytes, hp, rfl, rfl, rfl, rfl⟩

end Seal

/-! ### Runs of appends -/

/-- The hash the next entry of a log is chained to. -/
def logTail (deploymentId : String) (entries : List AuditEntry) : String :=
  (entries.getLast?.map AuditEntry.entryHash).getD (computeGenesisHash deploymentId)

@[simp]
theorem logTail_nil (deploymentId : String) :
    logTail deploymentId [] = computeGenesisHash deploymentId :=
  rfl

@[simp]
theorem logTail_append_singleton (deploymentId : String) (es : List AuditEntry) (e : AuditEntry) :
    logTail deploymentId (es ++ [e]) = e.entryHash := by
  simp [logTail]

/-- An entry that continues a chain: its sequence is the next one, its hash commits to the hash
before it, and its payload hash is that of its payload. -/
structure Sealed (J : AuditJson) (prevHash : String) (sequence : ℕ) (e : AuditEntry) : Prop where
  sequence_eq : e.sequence = sequence + 1
  link : e.entryHash = chainHash prevHash e.timestamp e.payloadHash
  payload : ∃ bytes, J.eventToVec e.payload = .ok bytes ∧ e.payloadHash = Sha256.digestHex bytes

/-- Entries that continue a chain one after the other. -/
def SealedChain (J : AuditJson) : String → ℕ → List AuditEntry → Prop
  | _, _, [] => True
  | prevHash, sequence, e :: es =>
    Sealed J prevHash sequence e ∧ SealedChain J e.entryHash (sequence + 1) es

/-- A chain grows at its end by an entry sealed on its tail. -/
theorem sealedChain_append_singleton {J : AuditJson} {prevHash : String} {sequence : ℕ}
    {es : List AuditEntry} {e : AuditEntry} :
    SealedChain J prevHash sequence (es ++ [e]) ↔ SealedChain J prevHash sequence es ∧
      Sealed J ((es.getLast?.map AuditEntry.entryHash).getD prevHash) (sequence + es.length) e := by
  induction es generalizing prevHash sequence with
  | nil => simp [SealedChain]
  | cons a es ih =>
    have hseq : sequence + 1 + es.length = sequence + (a :: es).length := by
      rw [List.length_cons]
      omega
    rw [List.cons_append, SealedChain, SealedChain, ih, and_assoc, hseq]
    rcases es.eq_nil_or_concat with rfl | ⟨es', b, rfl⟩
    · simp
    · simp [List.getLast?_cons]

/-- The sequences of a chain are consecutive. -/
theorem SealedChain.map_sequence {J : AuditJson} {prevHash : String} {sequence : ℕ}
    {es : List AuditEntry} (h : SealedChain J prevHash sequence es) :
    es.map AuditEntry.sequence = List.range' (sequence + 1) es.length := by
  induction es generalizing prevHash sequence with
  | nil => rfl
  | cons e es ih =>
    rw [List.map_cons, ih h.2, h.1.sequence_eq, List.length_cons, List.range'_succ]

/-- One unforked run of appends: each entry is sealed on the tail the entries before it leave. -/
inductive AppendRun (E : Ed25519) (J : AuditJson) (key : SigningKey) (deploymentId : String) :
    List AuditEntry → Prop
  | nil : AppendRun E J key deploymentId []
  | snoc {es : List AuditEntry} {e : AuditEntry} {event : AuditEvent} {now : DateTime}
      {logId : Uuid} (run : AppendRun E J key deploymentId es)
      (sealed : sealEntry E J key (logTail deploymentId es) es.length event now logId = .ok e) :
      AppendRun E J key deploymentId (es ++ [e])

namespace AppendRun

variable {E : Ed25519} {J : AuditJson} {key : SigningKey} {deploymentId : String}
  {es : List AuditEntry}

/-- The entries of a run form a chain from the genesis hash on. -/
theorem sealedChain (h : AppendRun E J key deploymentId es) :
    SealedChain J (computeGenesisHash deploymentId) 0 es := by
  induction h with
  | nil => trivial
  | snoc run hseal ih =>
    obtain ⟨bytes, hbytes, hpayload, hlink, _, hseq⟩ := sealEntry_eq_ok hseal
    exact sealedChain_append_singleton.2 ⟨ih, by rw [hseq, Nat.zero_add], hlink, bytes, hbytes,
      hpayload⟩

/-- The sequences of a run are `1, …, n`. -/
theorem map_sequence (h : AppendRun E J key deploymentId es) :
    es.map AuditEntry.sequence = List.range' 1 es.length :=
  h.sealedChain.map_sequence

/-- Every entry of a run carries the writer's signature over its hash. -/
theorem signature_eq (h : AppendRun E J key deploymentId es) {e : AuditEntry} (he : e ∈ es) :
    e.signature = (key.sign E (Text.asBytes e.entryHash)).toHex := by
  induction h with
  | nil => cases he
  | snoc run hseal ih =>
    rcases List.mem_append.1 he with he | he
    · exact ih he
    · obtain ⟨_, _, _, _, hsig, _⟩ := sealEntry_eq_ok hseal
      rw [List.mem_singleton] at he
      rw [he, hsig]

end AppendRun

/-! ### The log as a hash chain -/

/-- What an entry adds to the chain: its timestamp and its payload hash. -/
def AuditEntry.body (e : AuditEntry) : DateTime × String :=
  (e.timestamp, e.payloadHash)

/-- The link function of the log. -/
def chainLink (prevHash : String) (body : DateTime × String) : String :=
  chainHash prevHash body.1 body.2

/-- The byte strings that sealing, or verifying, a list of entries hashes: for each entry the
preimage that chains it to the hash recorded before it, and its serialized payload. -/
def hashInputs (J : AuditJson) : String → List AuditEntry → List Bytes
  | _, [] => []
  | prev, e :: es =>
    entryPreimage prev e.timestamp e.payloadHash ::
      ((J.eventToVec e.payload).toOption.toList ++ hashInputs J e.entryHash es)

end Cordon
