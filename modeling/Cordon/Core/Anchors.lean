import Cordon.Audit.Agreement
import Cordon.Core.SigningPayloads
import Cordon.Lib.Transition

/-!
# Anchors of the audit log

`GET /v1/audit/anchor` signs the sequence number and the head of the chain. It reads them **one
after the other, each under a lock of its own**, and any request may append in between. Here the
handler is cut into the steps between which others run, so a run is an interleaving of anchor
requests with each other and with appends of any kind, failed ones included.

Both values come from the last entry at the time of their reading. So the pair belongs to one entry
in every run in which **nothing is appended between the two reads** of a request, and, unless two
entries of the log share a hash, exactly the anchors of such requests do
(`anchor_of_one_entry_iff`).

Both halves rest on what an append does to the head: either it leaves it, or it moves it to the new
entry, which has the next number (`AuditLog.append_of_committed`). So what a request reads is of the
last entry at the time (`Chained`), and two readings with nothing added in between are of one entry.
The converse needs that a number and a hash each name one entry: numbers do by the invariant, and
for hashes it is asked.
-/

namespace Cordon

open Transition

section Appending

variable (E : Ed25519) (J : AuditJson)

/-- The entry with which an append moves the chain on. Its line is written and, if the log is
configured so, synced. A rotation that fails afterwards makes the append fail, and the entry is in
the log all the same. -/
def AuditLog.committed (log : AuditLog) (d : Dir) (event : AuditEvent) (io : AppendIo) :
    Option AuditEntry :=
  match log.prepare E J event io with
  | none => none
  | some (s, entry, text) =>
    match persistLine log.config s.writer d (lineBytes text) io with
    | (_, _, .error _) => none
    | (_, _, .ok ()) => some entry

variable {E J} {log : AuditLog} {d : Dir} {event : AuditEvent} {io : AppendIo}

theorem rotateLogFile_tail (config : LogConfig) (s : LogState) (d : Dir) (io : RotateIo) :
    (rotateLogFile config s d io).1.lastHash = s.lastHash ∧
      (rotateLogFile config s d io).1.sequence = s.sequence := by
  unfold rotateLogFile
  split
  · exact ⟨rfl, rfl⟩
  · dsimp only
    split <;> exact ⟨rfl, rfl⟩

/-- An append that does not move the chain leaves both of its ends in place. -/
theorem AuditLog.append_of_committed_none (h : log.committed E J d event io = none) :
    (log.append E J d event io).1.tailHash = log.tailHash ∧
      (log.append E J d event io).1.sequence = log.sequence := by
  rcases hprep : log.prepare E J event io with - | ⟨s, entry, text⟩
  · obtain ⟨e, he⟩ := AuditLog.append_of_prepare_none hprep d
    rw [he]
    exact ⟨rfl, rfl⟩
  · obtain ⟨hs, hseal, htext⟩ := AuditLog.prepare_eq_some hprep
    simp only [AuditLog.committed, hprep] at h
    rcases hpersist : persistLine log.config s.writer d (lineBytes text) io with ⟨w, d', e | ⟨⟩⟩
    · simp only [AuditLog.append, hs, hseal, htext, hpersist]
      simp [AuditLog.tailHash, AuditLog.sequence, hs]
    · simp [hpersist] at h

/-- **An append that moves the chain** leaves it at the new entry, which has the next number. -/
theorem AuditLog.append_of_committed {entry : AuditEntry}
    (h : log.committed E J d event io = some entry) :
    (log.append E J d event io).1.tailHash = some entry.entryHash ∧
      (log.append E J d event io).1.sequence = entry.sequence ∧
      entry.sequence = log.sequence + 1 := by
  rcases hprep : log.prepare E J event io with - | ⟨s, entry', text⟩
  · simp [AuditLog.committed, hprep] at h
  obtain ⟨hs, hseal, htext⟩ := AuditLog.prepare_eq_some hprep
  simp only [AuditLog.committed, hprep] at h
  rcases hpersist : persistLine log.config s.writer d (lineBytes text) io with ⟨w, d', e | ⟨⟩⟩
  · simp [hpersist] at h
  · simp only [hpersist, Option.some.injEq] at h
    subst h
    obtain ⟨-, -, -, -, -, hnext⟩ := sealEntry_eq_ok hseal
    have hsequence : log.sequence = s.sequence := by simp [AuditLog.sequence, hs]
    simp only [AuditLog.append, hs, hseal, htext, hpersist]
    set committed := s.commit w (lineBytes text) entry' with hcommitted
    obtain ⟨hhash, hseq⟩ := rotateLogFile_tail log.config committed d' io.rotate
    split_ifs
    · rcases hrotate : rotateLogFile log.config committed d' io.rotate with ⟨s', d'', e | ⟨⟩⟩
      all_goals
        rw [hrotate] at hhash hseq
        exact ⟨congrArg some hhash, hseq, by rw [hsequence, hnext]⟩
    · exact ⟨rfl, rfl, by rw [hsequence, hnext]⟩

/-- An entry that is returned is in the chain. -/
theorem AuditLog.committed_of_append_eq_ok {log' : AuditLog} {d' : Dir} {entry : AuditEntry}
    (h : log.append E J d event io = (log', d', .ok entry)) :
    log.committed E J d event io = some entry := by
  rcases hprep : log.prepare E J event io with - | ⟨s, entry', text⟩
  · obtain ⟨e, he⟩ := AuditLog.append_of_prepare_none hprep d
    rw [he] at h
    simp at h
  obtain ⟨hs, hseal, htext⟩ := AuditLog.prepare_eq_some hprep
  simp only [AuditLog.committed, hprep]
  simp only [AuditLog.append, hs, hseal, htext] at h
  rcases hpersist : persistLine log.config s.writer d (lineBytes text) io with ⟨w, d'', e | ⟨⟩⟩
  · simp [hpersist] at h
  · simp only [hpersist] at h ⊢
    split_ifs at h
    · split at h
      · simp at h
      · simp_all
    · simp_all

end Appending

/-! ### The handler, step by step -/

/-- An anchor as it is served: the message and the signature on it. -/
structure Anchor where
  message : SignedMessage
  signature : Signature
  /-- How many entries the log had when the sequence number was read. The source keeps neither
  this nor the next. -/
  sequenceReadAt : ℕ
  /-- How many entries the log had when the head was read. -/
  headReadAt : ℕ

/-- Where a request for an anchor is, with what it has read. -/
inductive AnchorPhase
  | authorized
  | sequenceRead (sequence readAt : ℕ)
  | headRead (sequence : ℕ) (tailHash : String) (timestampMs : ℤ) (readAt headReadAt : ℕ)
  | recorded (sequence : ℕ) (tailHash : String) (timestampMs : ℤ) (readAt headReadAt : ℕ)
  | served

/-- A node with its log, the requests for anchors under way, and the anchors served. -/
structure AnchorState where
  deploymentId : String
  enclaveKey : SigningKey
  log : AuditLog
  dir : Dir
  /-- The entries of the log, from the one that was its last when it was opened. -/
  entries : List AuditEntry
  requests : List AnchorPhase
  anchors : List Anchor

/-- The steps: an append of any request, a request for an anchor, or the next step of one. -/
inductive AnchorStep
  | append (event : AuditEvent) (io : AppendIo)
  | request
  | advance (i : ℕ) (clientId : String) (now : DateTime) (timestampMs : ℤ) (io : AppendIo)

namespace AnchorState

variable (E : Ed25519) (J : AuditJson)

/-- A node that has just opened its log. -/
def start (deploymentId : String) (enclaveKey : SigningKey) (log : AuditLog) (dir : Dir)
    (last : AuditEntry) : AnchorState :=
  ⟨deploymentId, enclaveKey, log, dir, [last], [], []⟩

/-- The identifier of the enclave key. -/
def enclaveKeyId (s : AnchorState) : String :=
  "enclave-" ++ String.ofList ((Text.hexChars (E.publicKey s.enclaveKey.seed)).take 16)

/-- The event with which `record_log_access` notes that a client has asked for an anchor. -/
def accessEvent (s : AnchorState) (clientId : String) (sequence : ℕ) (now : DateTime) :
    AuditEvent :=
  .logExport
    { requesterClientId := clientId
      exportMethod := "anchor"
      rangeStart := now
      rangeEnd := now
      entriesExported := sequence
      exportHash := ""
      recipientKeyId := s.enclaveKeyId E }

/-- The event that a step appends to the log, if it appends one. -/
def appends (s : AnchorState) : AnchorStep → Option (AuditEvent × AppendIo)
  | .append event io => some (event, io)
  | .request => none
  | .advance i clientId now _ io =>
    match s.requests[i]? with
    | some (.headRead sequence ..) => some (s.accessEvent E clientId sequence now, io)
    | _ => none

/-- The log and its entries after an append. Its result is ignored. -/
def append (s : AnchorState) (event : AuditEvent) (io : AppendIo) : AnchorState :=
  { s with
    log := (s.log.append E J s.dir event io).1
    dir := (s.log.append E J s.dir event io).2.1
    entries := s.entries ++ (s.log.committed E J s.dir event io).toList }

/-- The next step of a request, from the phase it is in. -/
def advance (s : AnchorState) (i : ℕ) (clientId : String) (now : DateTime) (timestampMs : ℤ)
    (io : AppendIo) : AnchorPhase → AnchorState
  | .authorized =>
    { s with requests := s.requests.set i (.sequenceRead s.log.sequence s.entries.length) }
  | .sequenceRead sequence readAt =>
    -- the lock was given back since: this need not be the head of that sequence number
    { s with
      requests := s.requests.set i
        (.headRead sequence (s.log.tailHash.getD "") timestampMs readAt s.entries.length) }
  | .headRead sequence tailHash timestampMs readAt headReadAt =>
    let s := s.append E J (s.accessEvent E clientId sequence now) io
    { s with
      requests := s.requests.set i
        (.recorded sequence tailHash timestampMs readAt headReadAt) }
  | .recorded sequence tailHash timestampMs readAt headReadAt =>
    let message := .anchor s.deploymentId sequence tailHash timestampMs
    { s with
      requests := s.requests.set i .served
      anchors := s.anchors ++ [⟨message, s.enclaveKey.sign E message.signedBytes, readAt,
        headReadAt⟩] }
  | .served => s

/-- What a step makes of the state. -/
def step (s : AnchorState) : AnchorStep → AnchorState
  | .append event io => s.append E J event io
  | .request => { s with requests := s.requests ++ [.authorized] }
  | .advance i clientId now timestampMs io =>
    match s.requests[i]? with
    | none => s
    | some phase => s.advance E J i clientId now timestampMs io phase

/-- Some request has read the sequence number and not yet the head. -/
def BetweenReads (s : AnchorState) : Prop :=
  ∃ sequence readAt, AnchorPhase.sequenceRead sequence readAt ∈ s.requests

/-- **The condition on a step**: nothing is added to the log between the two reads of a request. -/
def Undisturbed (s : AnchorState) (a : AnchorStep) : Prop :=
  s.BetweenReads → ∀ event io, s.appends E a = some (event, io) →
    s.log.committed E J s.dir event io = none

end AnchorState

/-- An anchor whose sequence number and head are those of one entry. -/
def Anchor.OfOneEntry (a : Anchor) (deploymentId : String) (entries : List AuditEntry) : Prop :=
  ∃ e ∈ entries, ∃ timestampMs,
    a.message = .anchor deploymentId e.sequence e.entryHash timestampMs

/-! ### What has been read -/

/-- An entry is the last of the first `n`. -/
def EntryAt (entries : List AuditEntry) (n : ℕ) (e : AuditEntry) : Prop :=
  ∃ k, n = k + 1 ∧ entries[k]? = some e

namespace EntryAt

variable {entries : List AuditEntry} {n m : ℕ} {e e' : AuditEntry}

theorem mem (h : EntryAt entries n e) : e ∈ entries := by
  obtain ⟨k, -, hk⟩ := h
  exact List.mem_of_getElem? hk

/-- What has been read stays where it is. -/
theorem append (h : EntryAt entries n e) (more : List AuditEntry) :
    EntryAt (entries ++ more) n e := by
  obtain ⟨k, rfl, hk⟩ := h
  obtain ⟨hlt, -⟩ := List.getElem?_eq_some_iff.1 hk
  exact ⟨k, rfl, by rw [List.getElem?_append_left hlt, hk]⟩

theorem concat (entries : List AuditEntry) (e : AuditEntry) :
    EntryAt (entries ++ [e]) (entries ++ [e]).length e :=
  ⟨entries.length, by simp, by simp⟩

theorem unique (h : EntryAt entries n e) (h' : EntryAt entries n e') : e = e' := by
  obtain ⟨k, rfl, hk⟩ := h
  obtain ⟨k', hk', hentry⟩ := h'
  obtain rfl : k = k' := by omega
  exact Option.some.inj (hk.symm.trans hentry)

/-- An entry that occurs once is at one place. -/
theorem eq_of_nodup (hnodup : entries.Nodup) (h : EntryAt entries n e) (h' : EntryAt entries m e) :
    n = m := by
  obtain ⟨k, rfl, hk⟩ := h
  obtain ⟨k', rfl, hk'⟩ := h'
  obtain ⟨hlt, -⟩ := List.getElem?_eq_some_iff.1 hk
  rw [(List.getElem?_inj hlt hnodup).1 (hk.trans hk'.symm)]

end EntryAt

/-- A sequence number and a head, each of the last entry at the time of its reading. -/
def ReadPair (entries : List AuditEntry) (sequence : ℕ) (tailHash : String)
    (readAt headReadAt : ℕ) : Prop :=
  (∃ e, EntryAt entries readAt e ∧ e.sequence = sequence) ∧
    ∃ e, EntryAt entries headReadAt e ∧ e.entryHash = tailHash

theorem ReadPair.append {entries : List AuditEntry} {sequence : ℕ} {tailHash : String}
    {readAt headReadAt : ℕ} (h : ReadPair entries sequence tailHash readAt headReadAt)
    (more : List AuditEntry) :
    ReadPair (entries ++ more) sequence tailHash readAt headReadAt := by
  obtain ⟨⟨e, he, hseq⟩, e', he', hhash⟩ := h
  exact ⟨⟨e, he.append more, hseq⟩, e', he'.append more, hhash⟩

/-- What a request has read, in every phase. -/
def AnchorPhase.Reads (entries : List AuditEntry) : AnchorPhase → Prop
  | .authorized => True
  | .sequenceRead sequence readAt => ∃ e, EntryAt entries readAt e ∧ e.sequence = sequence
  | .headRead sequence tailHash _ readAt headReadAt =>
    ReadPair entries sequence tailHash readAt headReadAt
  | .recorded sequence tailHash _ readAt headReadAt =>
    ReadPair entries sequence tailHash readAt headReadAt
  | .served => True

theorem AnchorPhase.Reads.append {entries : List AuditEntry} {phase : AnchorPhase}
    (h : phase.Reads entries) (more : List AuditEntry) : phase.Reads (entries ++ more) := by
  cases phase with
  | authorized => trivial
  | sequenceRead sequence readAt =>
    obtain ⟨e, he, hseq⟩ := h
    exact ⟨e, he.append more, hseq⟩
  | headRead sequence tailHash timestampMs readAt headReadAt => exact ReadPair.append h more
  | recorded sequence tailHash timestampMs readAt headReadAt => exact ReadPair.append h more
  | served => trivial

/-- What an anchor was made from. -/
def Anchor.Reads (a : Anchor) (deploymentId : String) (entries : List AuditEntry) : Prop :=
  ∃ sequence tailHash timestampMs,
    a.message = .anchor deploymentId sequence tailHash timestampMs ∧
      ReadPair entries sequence tailHash a.sequenceReadAt a.headReadAt

/-- **The invariant**: the log stands at the last of its entries, their numbers differ, and
everything that was read comes from the entry that was last at the time. -/
structure AnchorState.Chained (s : AnchorState) : Prop where
  last : ∃ e, EntryAt s.entries s.entries.length e ∧ s.log.sequence = e.sequence ∧
    s.log.tailHash = some e.entryHash
  bounded : ∀ e ∈ s.entries, e.sequence ≤ s.log.sequence
  distinct : (s.entries.map AuditEntry.sequence).Nodup
  requests : ∀ phase ∈ s.requests, phase.Reads s.entries
  anchors : ∀ a ∈ s.anchors, a.Reads s.deploymentId s.entries

namespace AnchorState

variable {E : Ed25519} {J : AuditJson} {s : AnchorState}

namespace Chained

theorem append (h : s.Chained) (event : AuditEvent) (io : AppendIo) :
    (s.append E J event io).Chained := by
  have hread : (∀ phase ∈ s.requests, phase.Reads (s.append E J event io).entries) ∧
      ∀ a ∈ s.anchors, a.Reads s.deploymentId (s.append E J event io).entries := by
    refine ⟨fun phase hphase ↦ (h.requests phase hphase).append _, fun a ha ↦ ?_⟩
    obtain ⟨sequence, tailHash, timestampMs, hmessage, hpair⟩ := h.anchors a ha
    exact ⟨sequence, tailHash, timestampMs, hmessage, hpair.append _⟩
  rcases hcommitted : s.log.committed E J s.dir event io with - | entry
  · obtain ⟨htail, hsequence⟩ := AuditLog.append_of_committed_none hcommitted
    have hentries : (s.append E J event io).entries = s.entries := by
      simp [AnchorState.append, hcommitted]
    refine ⟨?_, ?_, ?_, hread.1, hread.2⟩
    · show ∃ e, _ ∧ (s.log.append E J s.dir event io).1.sequence = _ ∧
        (s.log.append E J s.dir event io).1.tailHash = _
      rw [hentries, htail, hsequence]
      exact h.last
    · show ∀ e : AuditEntry, e ∈ _ → e.sequence ≤ (s.log.append E J s.dir event io).1.sequence
      rw [hentries, hsequence]
      exact h.bounded
    · rw [hentries]
      exact h.distinct
  · -- the new entry has a number that no entry has had
    obtain ⟨htail, hsequence, hnext⟩ := AuditLog.append_of_committed hcommitted
    have hentries : (s.append E J event io).entries = s.entries ++ [entry] := by
      simp [AnchorState.append, hcommitted]
    refine ⟨?_, ?_, ?_, hread.1, hread.2⟩
    · rw [hentries]
      exact ⟨entry, EntryAt.concat _ _, hsequence, htail⟩
    · intro e he
      show e.sequence ≤ (s.log.append E J s.dir event io).1.sequence
      rw [hentries, List.mem_append, List.mem_singleton] at he
      rw [hsequence]
      rcases he with he | rfl
      · have hle := h.bounded e he
        omega
      · exact le_rfl
    · rw [hentries, List.map_append, List.nodup_append]
      refine ⟨h.distinct, List.nodup_singleton _, ?_⟩
      intro n hn m hm
      obtain ⟨e, he, rfl⟩ := List.mem_map.1 hn
      obtain rfl := List.mem_singleton.1 hm
      have hle := h.bounded e he
      omega

/-- A request may be put into any phase that says what it has read. -/
theorem setRequest (h : s.Chained) (i : ℕ) (phase : AnchorPhase) (hphase : phase.Reads s.entries) :
    { s with requests := s.requests.set i phase }.Chained := by
  refine ⟨h.last, h.bounded, h.distinct, fun phase' hmem ↦ ?_, h.anchors⟩
  rcases List.mem_or_eq_of_mem_set hmem with hmem | rfl
  · exact h.requests phase' hmem
  · exact hphase

/-- **Every step keeps the invariant**, whoever takes it. -/
theorem step (h : s.Chained) (a : AnchorStep) : (s.step E J a).Chained := by
  cases a with
  | append event io => exact h.append event io
  | request =>
    refine ⟨h.last, h.bounded, h.distinct, fun phase hmem ↦ ?_, h.anchors⟩
    rcases List.mem_append.1 hmem with hmem | hmem
    · exact h.requests phase hmem
    · obtain rfl := List.mem_singleton.1 hmem
      trivial
  | advance i clientId now timestampMs io =>
    rw [AnchorState.step]
    rcases hphase : s.requests[i]? with - | phase
    · exact h
    have hreads := h.requests phase (List.mem_of_getElem? hphase)
    obtain ⟨last, hlast, hsequence, htail⟩ := h.last
    cases phase with
    | authorized => exact h.setRequest i _ ⟨last, hlast, hsequence.symm⟩
    | sequenceRead sequence readAt =>
      refine h.setRequest i _ ⟨hreads, last, hlast, ?_⟩
      rw [htail]
      rfl
    | headRead sequence tailHash timestampMs readAt headReadAt =>
      exact (h.append _ io).setRequest i _ (ReadPair.append hreads _)
    | recorded sequence tailHash timestampMs readAt headReadAt =>
      have hserved := h.setRequest i .served trivial
      refine ⟨h.last, h.bounded, h.distinct, hserved.requests, fun a ha ↦ ?_⟩
      rcases List.mem_append.1 ha with ha | ha
      · exact h.anchors a ha
      · obtain rfl := List.mem_singleton.1 ha
        exact ⟨sequence, tailHash, timestampMs, rfl, hreads⟩
    | served => exact h

end Chained

end AnchorState

theorem AnchorState.deploymentId_step {E : Ed25519} {J : AuditJson} (s : AnchorState)
    (a : AnchorStep) : (s.step E J a).deploymentId = s.deploymentId := by
  cases a with
  | append event io => rfl
  | request => rfl
  | advance i clientId now timestampMs io =>
    rw [AnchorState.step]
    rcases s.requests[i]? with - | phase
    · rfl
    · cases phase <;> rfl

/-! ### Nothing in between -/

/-- A request whose reads have seen the same log: so far, if it has made only the first. -/
def AnchorPhase.Settled (length : ℕ) : AnchorPhase → Prop
  | .authorized => True
  | .sequenceRead _ readAt => readAt = length
  | .headRead _ _ _ readAt headReadAt => readAt = headReadAt
  | .recorded _ _ _ readAt headReadAt => readAt = headReadAt
  | .served => True

/-- The requests and the anchors of a node whose log has not moved between two reads. -/
structure AnchorState.Settled (s : AnchorState) : Prop where
  requests : ∀ phase ∈ s.requests, phase.Settled s.entries.length
  anchors : ∀ a ∈ s.anchors, a.sequenceReadAt = a.headReadAt

namespace AnchorState.Settled

variable {E : Ed25519} {J : AuditJson} {s : AnchorState}

theorem append (h : s.Settled) {event : AuditEvent} {io : AppendIo}
    (hquiet : s.BetweenReads → s.log.committed E J s.dir event io = none) :
    (s.append E J event io).Settled := by
  refine ⟨fun phase hphase ↦ ?_, h.anchors⟩
  have hsettled := h.requests phase hphase
  cases phase with
  | authorized => trivial
  | sequenceRead sequence readAt =>
    have hnone := hquiet ⟨sequence, readAt, hphase⟩
    show readAt = (s.entries ++ (s.log.committed E J s.dir event io).toList).length
    rw [hnone, Option.toList_none, List.append_nil]
    exact hsettled
  | headRead sequence tailHash timestampMs readAt headReadAt => exact hsettled
  | recorded sequence tailHash timestampMs readAt headReadAt => exact hsettled
  | served => trivial

theorem setRequest (h : s.Settled) (i : ℕ) (phase : AnchorPhase)
    (hphase : phase.Settled s.entries.length) :
    { s with requests := s.requests.set i phase }.Settled := by
  refine ⟨fun phase' hmem ↦ ?_, h.anchors⟩
  rcases List.mem_or_eq_of_mem_set hmem with hmem | rfl
  · exact h.requests phase' hmem
  · exact hphase

/-- **A step that disturbs no request** leaves every pair read from one log. -/
theorem step (h : s.Settled) {a : AnchorStep} (hquiet : s.Undisturbed E J a) :
    (s.step E J a).Settled := by
  cases a with
  | append event io => exact h.append fun hbetween ↦ hquiet hbetween event io rfl
  | request =>
    refine ⟨fun phase hmem ↦ ?_, h.anchors⟩
    rcases List.mem_append.1 hmem with hmem | hmem
    · exact h.requests phase hmem
    · obtain rfl := List.mem_singleton.1 hmem
      trivial
  | advance i clientId now timestampMs io =>
    rw [AnchorState.step]
    rcases hphase : s.requests[i]? with - | phase
    · exact h
    have hsettled := h.requests phase (List.mem_of_getElem? hphase)
    cases phase with
    | authorized => exact h.setRequest i _ rfl
    | sequenceRead sequence readAt => exact h.setRequest i _ hsettled
    | headRead sequence tailHash timestampMs readAt headReadAt =>
      have happended : (s.append E J (s.accessEvent E clientId sequence now) io).Settled :=
        h.append fun hbetween ↦ hquiet hbetween _ _ (by rw [appends, hphase])
      exact happended.setRequest i _ hsettled
    | recorded sequence tailHash timestampMs readAt headReadAt =>
      have hserved := h.setRequest i .served trivial
      refine ⟨hserved.requests, fun a ha ↦ ?_⟩
      rcases List.mem_append.1 ha with ha | ha
      · exact h.anchors a ha
      · obtain rfl := List.mem_singleton.1 ha
        exact hsettled
    | served => exact h

end AnchorState.Settled

/-- **A pair read from one log is that of its last entry**, and conversely if no two entries share a
number or a hash. -/
theorem Anchor.Reads.ofOneEntry_iff {a : Anchor} {deploymentId : String}
    {entries : List AuditEntry} (h : a.Reads deploymentId entries) :
    (a.sequenceReadAt = a.headReadAt → a.OfOneEntry deploymentId entries) ∧
      ((entries.map AuditEntry.sequence).Nodup → (entries.map AuditEntry.entryHash).Nodup →
        a.OfOneEntry deploymentId entries → a.sequenceReadAt = a.headReadAt) := by
  obtain ⟨sequence, tailHash, timestampMs, hmessage, ⟨e, he, rfl⟩, e', he', rfl⟩ := h
  constructor
  · intro hsame
    rw [hsame] at he
    obtain rfl := he.unique he'
    exact ⟨e, he.mem, timestampMs, hmessage⟩
  · rintro hsequences hhashes ⟨e'', hmem, timestampMs', hmessage'⟩
    obtain ⟨-, hsequence, hhash, -⟩ := SignedMessage.anchor.inj (hmessage.symm.trans hmessage')
    obtain rfl := List.inj_on_of_nodup_map hsequences he.mem hmem hsequence
    obtain rfl := List.inj_on_of_nodup_map hhashes he'.mem hmem hhash
    exact he.eq_of_nodup (List.Nodup.of_map _ hhashes) he'

/-! ### From the opening of the log -/

section Opening

variable {E : Ed25519} {J : AuditJson}

/-- What opening finds is the last entry of some segment. -/
theorem newestOf_eq_some {config : LogConfig} {d : Dir} {readFile : String → Option String}
    {newest : Option (String × String × ℕ)} {paths : List String} {found : String × String × ℕ}
    (h : newestOf J config d readFile newest paths = .ok (some found)) :
    newest = some found ∨ ∃ path ∈ paths, ∃ e,
      readLastEntry J (config.path path) (d.content path) = .ok (some e) ∧
        found.2 = (e.entryHash, e.sequence) := by
  induction paths generalizing newest with
  | nil => exact Or.inl (Except.ok.inj h)
  | cons path paths ih =>
    rw [newestOf] at h
    rcases hread : readFile path with - | reason
    · simp only [hread] at h
      rcases hlast : readLastEntry J (config.path path) (d.content path) with e | (- | entry)
      · simp [hlast] at h
      · simp only [hlast] at h
        rcases ih h with hnewest | ⟨path', hmem, hentry⟩
        · exact Or.inl hnewest
        · exact Or.inr ⟨path', List.mem_cons_of_mem _ hmem, hentry⟩
      · simp only [hlast] at h
        rcases ih h with hnewest | ⟨path', hmem, hentry⟩
        · split_ifs at hnewest
          · obtain rfl := Option.some.inj hnewest
            exact Or.inr ⟨path, List.mem_cons_self, entry, hlast, rfl⟩
          · exact Or.inl hnewest
        · exact Or.inr ⟨path', List.mem_cons_of_mem _ hmem, hentry⟩
    · simp [hread] at h

/-- An entry that a log can stand at once it is open: the last of some segment, or the genesis entry
with which opening has just begun the log. -/
inductive StandsAt (E : Ed25519) (J : AuditJson) (config : LogConfig) (d₀ d : Dir) (io : OpenIo)
    (log : AuditLog) (e : AuditEntry) : Prop
  | resumed {d₁ : Dir} {path : String} (same : SameSegments d₀ d₁) (mem : path ∈ d₁.logFiles)
      (last : readLastEntry J (config.path path) (d₁.content path) = .ok (some e))
  | begun {log₁ : AuditLog} {d₁ : Dir}
      (genesis : log₁.writeGenesis E J d₁ io.genesis = (log, d, .ok e))

/-- **An open log stands at an entry.** -/
theorem openLog_standsAt {config : LogConfig} {key : SigningKey} {d₀ d : Dir} {io : OpenIo}
    {log : AuditLog} (h : AuditLog.openLog E J config key d₀ io = (d, .ok log)) :
    ∃ e, StandsAt E J config d₀ d io log e ∧ log.sequence = e.sequence ∧
      log.tailHash = some e.entryHash := by
  rcases hclaim : AuditLog.claimAndResume J config key d₀ io with - | ⟨log₁, d₁⟩
  · obtain ⟨d', e, herror, -⟩ := AuditLog.openLog_of_none (E := E) hclaim
    rw [herror] at h
    simp at h
  rw [AuditLog.openLog_of_some hclaim] at h
  split_ifs at h with hzero
  · rcases hgenesis : log₁.writeGenesis E J d₁ io.genesis with ⟨log₂, d₂, e | e⟩
    · simp [hgenesis] at h
    · simp only [hgenesis, Prod.mk.injEq, Except.ok.injEq] at h
      obtain ⟨rfl, rfl⟩ := h
      obtain ⟨htail, hsequence, -⟩ := AuditLog.append_of_committed
        (AuditLog.committed_of_append_eq_ok hgenesis)
      rw [AuditLog.writeGenesis] at hgenesis
      rw [hgenesis] at htail hsequence
      exact ⟨e, .begun hgenesis, hsequence, htail⟩
  · obtain ⟨rfl, rfl⟩ : d₁ = d ∧ log₁ = log := by simpa using h
    obtain ⟨-, -, -, d₁, existing, st, hsame, -, hfind, hstate, -, hhash, hsequence, -, -⟩ :=
      AuditLog.claimAndResume_eq_some hclaim
    rw [AuditLog.sequence, hstate] at hzero
    -- a log that is resumed has a number, so there was something to resume from
    rcases existing with - | found
    · exact absurd hsequence hzero
    rw [findExistingLogFile] at hfind
    rcases hdir : io.readDir with - | reason
    · simp only [hdir] at hfind
      rcases newestOf_eq_some hfind with hnone | ⟨path, hmem, e, hlast, hfound⟩
      · exact absurd hnone (by simp)
      · refine ⟨e, .resumed hsame hmem hlast, ?_, ?_⟩
        · rw [AuditLog.sequence, hstate]
          exact hsequence.trans (congrArg Prod.snd hfound)
        · rw [AuditLog.tailHash, hstate]
          exact congrArg some (hhash.trans (congrArg Prod.fst hfound))
    · simp [hdir] at hfind

end Opening

/-- A node that has just opened its log has served nothing. -/
theorem AnchorState.chained_start (deploymentId : String) (enclaveKey : SigningKey) {log : AuditLog}
    (dir : Dir) {last : AuditEntry} (hsequence : log.sequence = last.sequence)
    (htail : log.tailHash = some last.entryHash) :
    (AnchorState.start deploymentId enclaveKey log dir last).Chained := by
  refine ⟨⟨last, ⟨0, rfl, rfl⟩, hsequence, htail⟩, ?_, List.nodup_singleton _, ?_, ?_⟩
  · intro e he
    obtain rfl := List.mem_singleton.1 he
    exact hsequence.ge
  · intro phase hphase
    exact absurd hphase List.not_mem_nil
  · intro a ha
    exact absurd ha List.not_mem_nil

/-- **When an anchor is that of one entry.** From any log that was opened, however its appends
succeed or fail and however they run between the steps of the requests for anchors: in every run in
which nothing is added to the log between the two reads of a request, each anchor has the number and
the hash of one entry. And in every run at all, as long as no two entries share a hash, the anchors
that do are **exactly** those of requests that saw the log at one length. -/
theorem anchor_of_one_entry_iff (E : Ed25519) (J : AuditJson) (config : LogConfig)
    (key : SigningKey) (d₀ d : Dir) (io : OpenIo) (log : AuditLog)
    (hopen : AuditLog.openLog E J config key d₀ io = (d, .ok log)) (deploymentId : String)
    (enclaveKey : SigningKey) :
    ∃ last, StandsAt E J config d₀ d io log last ∧
      (∀ s, Reachable (AnchorState.step E J) (AnchorState.Undisturbed E J)
          (.start deploymentId enclaveKey log d last) s →
        ∀ a ∈ s.anchors, a.OfOneEntry deploymentId s.entries) ∧
      ∀ s, Reachable (AnchorState.step E J) (fun _ _ ↦ True)
          (.start deploymentId enclaveKey log d last) s →
        (s.entries.map AuditEntry.entryHash).Nodup →
        ∀ a ∈ s.anchors,
          (a.OfOneEntry deploymentId s.entries ↔ a.sequenceReadAt = a.headReadAt) := by
  obtain ⟨last, hstands, hsequence, htail⟩ := openLog_standsAt hopen
  have hstart := AnchorState.chained_start deploymentId enclaveKey d hsequence htail
  have hchained : ∀ ok s, Reachable (AnchorState.step E J) ok
      (.start deploymentId enclaveKey log d last) s →
      s.Chained ∧ s.deploymentId = deploymentId := by
    intro ok s hs
    refine hs.invariant (fun s ↦ s.Chained ∧ s.deploymentId = deploymentId) ⟨hstart, rfl⟩ ?_
    rintro s a - - ⟨h, hdeployment⟩
    exact ⟨h.step a, (AnchorState.deploymentId_step s a).trans hdeployment⟩
  refine ⟨last, hstands, fun s hs a ha ↦ ?_, fun s hs hhashes a ha ↦ ?_⟩
  · obtain ⟨hinv, rfl⟩ := hchained _ s hs
    have hsettled : s.Settled := by
      refine hs.invariant AnchorState.Settled ⟨?_, ?_⟩ fun s a _ hquiet h ↦ h.step hquiet
      · exact fun phase hphase ↦ absurd hphase List.not_mem_nil
      · exact fun a ha ↦ absurd ha List.not_mem_nil
    exact (hinv.anchors a ha).ofOneEntry_iff.1 (hsettled.anchors a ha)
  · obtain ⟨hinv, rfl⟩ := hchained _ s hs
    obtain ⟨hif, honly⟩ := (hinv.anchors a ha).ofOneEntry_iff
    exact ⟨honly hinv.distinct hhashes, hif⟩

/-- The steps of one request, with others between its two reads. -/
def servedWith (between : List AnchorStep) : List AnchorStep :=
  let next := AnchorStep.advance 0 "alice" sampleNow 0 (sampleAppendIo 9)
  .request :: next :: (between ++ [next, next, next])

/-- Without others, nothing disturbs a request: its own append comes after both of its reads. -/
theorem allSteps_servedWith_nil (E : Ed25519) (J : AuditJson) (deploymentId : String)
    (enclaveKey : SigningKey) (log : AuditLog) (d : Dir) (last : AuditEntry) :
    AllSteps (AnchorState.step E J) (AnchorState.Undisturbed E J)
      (.start deploymentId enclaveKey log d last) (servedWith []) := by
  refine ⟨?_, ?_, ?_, ?_, ?_, trivial⟩
  · rintro ⟨sequence, readAt, hmem⟩
    exact absurd hmem List.not_mem_nil
  · rintro ⟨sequence, readAt, hmem⟩
    cases List.mem_singleton.1 hmem
  · rintro - event io happends
    cases happends
  · rintro ⟨sequence, readAt, hmem⟩
    cases List.mem_singleton.1 hmem
  · rintro ⟨sequence, readAt, hmem⟩
    cases List.mem_singleton.1 hmem

/-- A request that nothing disturbs. -/
theorem anchor_of_one_entry_undisturbed :
    ∃ log d, AuditLog.openLog zeroEd25519 sampleJson sampleConfig sampleKey Dir.empty sampleOpenIo =
        (d, .ok log) ∧
      ∃ last, ∃ a ∈ (final (AnchorState.step zeroEd25519 sampleJson)
          (.start "deployment-1" sampleKey log d last) (servedWith [])).anchors,
        a.OfOneEntry "deployment-1" (final (AnchorState.step zeroEd25519 sampleJson)
          (.start "deployment-1" sampleKey log d last) (servedWith [])).entries := by
  obtain ⟨log, d, f, hopen, -⟩ := sampleOpened_spec
  obtain ⟨last, -, hquiet, -⟩ :=
    anchor_of_one_entry_iff _ _ _ _ _ _ _ _ hopen "deployment-1" sampleKey
  refine ⟨log, d, hopen, last, _, List.mem_singleton_self _, ?_⟩
  exact hquiet _ (reachable_final (allSteps_servedWith_nil ..) .start) _ (List.mem_singleton_self _)

theorem sampleHashes_ne : sampleFirst.entryHash ≠ sampleSecond.entryHash := by
  decide +kernel

/-- An append of another request. -/
def otherAppend : AnchorStep :=
  .append (genesisEvent sampleConfig.nodeId) (sampleAppendIo 2)

/-- **An append between the two reads**: the anchor has the number of the first entry and the hash
of the second. -/
theorem anchor_of_two_entries :
    ¬∀ (E : Ed25519) (J : AuditJson) (config : LogConfig) (key : SigningKey) (d₀ d : Dir)
      (io : OpenIo) (log : AuditLog) (deploymentId : String) (enclaveKey : SigningKey)
      (last : AuditEntry), AuditLog.openLog E J config key d₀ io = (d, .ok log) →
      log.sequence = last.sequence → log.tailHash = some last.entryHash →
      ∀ s, Reachable (AnchorState.step E J) (fun _ _ ↦ True)
          (.start deploymentId enclaveKey log d last) s →
        ∀ a ∈ s.anchors, a.OfOneEntry deploymentId s.entries := by
  intro hall
  obtain ⟨log, d, f, hopen, -, hconfig, hrun, hholds, hatt, -⟩ := sampleOpened_spec
  obtain ⟨text, htext, -, -⟩ := sample_entryToString (e := sampleSecond) (by simp [sampleEntries])
  obtain ⟨st, hst, hprep⟩ := hatt.prepare_of_serializes (E := zeroEd25519) (sampleAppendIo 2)
    sample_eventToVec htext
  obtain ⟨log', d', happ, -, -, -⟩ := hatt.append_of_completes hholds hrun hprep
    ((clean_sampleAppendIo 2).completes (by rw [hconfig]; rfl) st _)
  have hcommitted : log.committed zeroEd25519 sampleJson d (genesisEvent sampleConfig.nodeId)
      (sampleAppendIo 2) = some sampleSecond := AuditLog.committed_of_append_eq_ok happ
  obtain ⟨htail, hsequence, -⟩ := AuditLog.append_of_committed hcommitted
  have hlast : log.sequence = sampleFirst.sequence ∧
      log.tailHash = some sampleFirst.entryHash := by
    obtain ⟨st', hst', -, -, hhash, -⟩ := hatt.state
    refine ⟨hatt.sequence_eq, ?_⟩
    rw [AuditLog.tailHash, hst']
    exact congrArg some hhash
  have hreached : Reachable (AnchorState.step zeroEd25519 sampleJson) (fun _ _ ↦ True)
      (.start "deployment-1" sampleKey log d sampleFirst) (final (AnchorState.step zeroEd25519
        sampleJson) (.start "deployment-1" sampleKey log d sampleFirst)
        (servedWith [otherAppend])) := reachable_final AllSteps.trivial .start
  obtain ⟨e, he, timestampMs, hmessage⟩ := hall _ _ _ _ _ _ _ _ "deployment-1" sampleKey
    sampleFirst hopen hlast.1 hlast.2 _ hreached _ (List.mem_singleton_self _)
  obtain ⟨-, hnumber, hhead, -⟩ := SignedMessage.anchor.inj hmessage
  have hnumber : e.sequence = 1 := hnumber.symm.trans hlast.1
  have hhead : e.entryHash = sampleSecond.entryHash := by
    rw [← hhead]
    exact congrArg (Option.getD · "") htail
  -- the entries: the first, the one appended in between, and perhaps the note of the request
  rcases List.mem_append.1 he with he | he
  · rcases List.mem_append.1 he with he | he
    · obtain rfl := List.mem_singleton.1 he
      exact sampleHashes_ne hhead
    · obtain rfl : sampleSecond = e :=
        Option.some.inj (hcommitted.symm.trans (Option.mem_toList.1 he))
      exact absurd hnumber (by decide)
  · obtain ⟨-, -, hnext⟩ := AuditLog.append_of_committed (Option.mem_toList.1 he)
    have hthird : e.sequence = sampleSecond.sequence + 1 := by
      rw [hnext]
      exact congrArg (· + 1) hsequence
    rw [hnumber] at hthird
    exact absurd hthird (by decide)

end Cordon
