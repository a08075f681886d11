import Cordon.Core.Bundles
import Cordon.Core.RequestIdentity

/-!
# Clients on other machines

The desktop application keeps a record of each client it issued a certificate to. A start outside
Light mode, or with remote access, puts up a listener for certificates and writes a registry from
these records: each client that is neither revoked nor expired, pinned to its certificate, and the
console on loopback. A registry with entries turns away everyone else, so **revoking a client is
leaving it out**. Any other start listens on loopback alone and loads no registry, and then every
name is served with the defaults.

What a node does with a request is therefore decided by the start and by the history of the records.
A certificate is served exactly when it was issued under the name it carries, was not revoked by the
time the node started, and has not run out (`remote_client_served_iff`). A name in a header is
served under no record: where a registry was written, only as the console, and not at all where
mutual TLS is required (`console_listener_serves_iff`).

Both rest on what every run keeps of the records (`RemoteAccess.Inv`): the live ones are those that
were made and not revoked since, and each is of a certificate and a name of its own.
-/

namespace Cordon

open Transition

/-! ### Issuing certificates -/

/-- Names a certificate may not claim. -/
def reservedClientIds : List String :=
  ["console", "anonymous", "operator-console"]

/-- `validate_client_id`. -/
def validateClientId (raw : String) : Except String String :=
  let id := String.ofList (Text.trim raw.toList)
  if id.isEmpty || decide (64 < (Text.asBytes id).length) then
    .error "a client name must be 1 to 64 characters"
  else if !id.toList.all isClientIdChar then
    .error "a client name may contain only letters, digits, '-', '_', '.' and '@'"
  else if reservedClientIds.any (eqIgnoreAsciiCase · id) then
    .error ("'" ++ id ++ "' is reserved; choose another name")
  else .ok id

/-- A certificate issued to a client. -/
structure IssuedClient where
  clientId : String
  /-- The certificate. -/
  certDer : Bytes
  fingerprint : String
  serial : String
  notAfter : ℤ
  deriving DecidableEq, Repr

/-- A day, in nanoseconds. -/
def dayNanos : ℤ := 86400000000000

/-- `Pki::issue_client`: `signed` is what signing answers, a certificate with its serial number. -/
def issueClient (signed : Except String (Bytes × String)) (clientId : String) (days : ℕ) (now : ℤ) :
    Except String IssuedClient := do
  let clientId ← validateClientId clientId
  Except.ensure (decide (1 ≤ days) && decide (days ≤ 3650))
    "a client certificate must be valid for 1 to 3,650 days"
  let (certDer, serial) ← signed
  return { clientId, certDer, fingerprint := Sha256.digestHex certDer, serial,
           notAfter := now + days * dayNanos }

/-! ### Records -/

/-- A client the app issued a certificate to. -/
structure ClientRecord where
  id : String
  /-- SHA-256 of the certificate. -/
  fingerprint : String
  serial : String
  issuedAt : ℤ
  notAfter : ℤ
  revokedAt : Option ℤ
  requestsPerMinute : ℕ
  deriving DecidableEq, Repr

/-- Requests per minute an issued client may make. -/
def defaultRequestsPerMinute : ℕ := 60

/-- The record of a certificate that was just issued. -/
def IssuedClient.record (issued : IssuedClient) (now : ℤ) : ClientRecord where
  id := issued.clientId
  fingerprint := issued.fingerprint
  serial := issued.serial
  issuedAt := now
  notAfter := issued.notAfter
  revokedAt := none
  requestsPerMinute := defaultRequestsPerMinute

/-- `issue`: issue a client a certificate and record it. -/
def issue (records : List ClientRecord) (signed : Except String (Bytes × String)) (id : String)
    (days : ℕ) (now : ℤ) : Except String (IssuedClient × List ClientRecord) := do
  let id ← validateClientId id
  Except.ensure (!records.any fun r ↦ r.id == id && r.revokedAt.isNone)
    ("A client named '" ++ id ++ "' already has a certificate. Revoke it first, or choose " ++
      "another name.")
  let issued ← issueClient signed id days now
  return (issued, records ++ [issued.record now])

/-- Mark the first record of a certificate, unless it is marked already. -/
def markRevoked (fingerprint : String) (now : ℤ) : List ClientRecord → List ClientRecord
  | [] => []
  | r :: records =>
    if r.fingerprint = fingerprint then { r with revokedAt := r.revokedAt.or (some now) } :: records
    else r :: markRevoked fingerprint now records

/-- `revoke`: revoke a client's certificate. -/
def revoke (records : List ClientRecord) (fingerprint : String) (now : ℤ) :
    Except String (List ClientRecord) :=
  if records.any fun r ↦ r.fingerprint == fingerprint then
    .ok (markRevoked fingerprint now records)
  else .error "No such client."

/-- `clear_revoked`: forget revoked clients. -/
def clearRevoked (records : List ClientRecord) : List ClientRecord :=
  records.filter fun r ↦ r.revokedAt.isNone

/-! ### The registry -/

/-- The entry of a client: its certificate is pinned, for as long as it lasts. -/
def ClientRecord.policy (r : ClientRecord) : ClientPolicy :=
  { ClientPolicy.defaultFor r.id with
    active := true
    maxRequestsPerMinute := r.requestsPerMinute
    certPins := [r.fingerprint]
    policyExpiresAt := some r.notAfter }

/-- The entry of the console, which identifies itself by header and carries no pin. -/
def consolePolicy : ClientPolicy :=
  { ClientPolicy.defaultFor "console" with
    logExportAllowed := true
    maxRequestsPerMinute := 600 }

/-- Whether a client enters the registry. -/
def ClientRecord.isLiveAt (r : ClientRecord) (now : ℤ) : Bool :=
  r.revokedAt.isNone && decide (now < r.notAfter)

/-- `write_registry`: what is written for the node to enforce. -/
def writeRegistry (records : List ClientRecord) (now : ℤ) : List ClientPolicy :=
  (records.filter fun r ↦ r.isLiveAt now).map ClientRecord.policy ++ [consolePolicy]

/-- `IdentityRegistry::load_from_file`, of a file that holds the given policies: enrolling clients
is taken as intent to restrict access. -/
def IdentityRegistry.ofPolicies (policies : List ClientPolicy) : IdentityRegistry where
  policies := AList.ofValues ClientPolicy.clientId policies
  suspended := ∅
  unknownClient := if policies.isEmpty then .allowWithDefaults else .deny

/-- `IdentityRegistry::new`: nobody is enrolled, and everybody admitted. -/
def IdentityRegistry.new : IdentityRegistry :=
  ⟨∅, ∅, .allowWithDefaults⟩

/-- The registry that a start writes: none in Light mode without remote access. -/
def clientRegistry (records : List ClientRecord) (hardened remote : Bool) (now : ℤ) :
    Option (List ClientPolicy) :=
  if hardened || remote then some (writeRegistry records now) else none

/-- The registry that a node is built with. -/
def IdentityRegistry.build : Option (List ClientPolicy) → IdentityRegistry
  | some policies => .ofPolicies policies
  | none => .new

/-! ### Runs -/

/-- The records on disk and the registry of the running node, with what has happened so far: every
record as it was made, and every certificate that was revoked. -/
structure RemoteAccess where
  records : List ClientRecord
  registry : Option IdentityRegistry
  issued : List ClientRecord
  revoked : List String

/-- What happens to the records and the node. An operation that fails leaves the file as it was. -/
inductive RemoteAction
  | issue (id : String) (days : ℕ) (now : ℤ) (signed : Except String (Bytes × String))
  | revoke (fingerprint : String) (now : ℤ)
  | clearRevoked
  /-- The node starts, outside Light mode if it is hardened, with remote access or without. -/
  | start (now : ℤ) (hardened remote : Bool)
  | stop

namespace RemoteAccess

/-- Nothing was issued and nothing runs. -/
def init : RemoteAccess := ⟨[], none, [], []⟩

/-- What an action makes of the records and the node. -/
def step (s : RemoteAccess) : RemoteAction → RemoteAccess
  | .issue id days now signed =>
    match Cordon.issue s.records signed id days now with
    | .ok (issued, records) => { s with records, issued := issued.record now :: s.issued }
    | .error _ => s
  | .revoke fingerprint now =>
    match Cordon.revoke s.records fingerprint now with
    | .ok records => { s with records, revoked := fingerprint :: s.revoked }
    | .error _ => s
  | .clearRevoked => { s with records := Cordon.clearRevoked s.records }
  | .start now hardened remote =>
    { s with registry := some (.build (clientRegistry s.records hardened remote now)) }
  | .stop => { s with registry := none }

/-- No certificate is like an earlier one: each has a key and a serial number of its own. -/
def Fresh (s : RemoteAccess) : RemoteAction → Prop
  | .issue _ _ _ (.ok (certDer, _)) =>
    ∀ r ∈ s.issued, r.fingerprint ≠ Sha256.digestHex certDer
  | _ => True

/-- The states that the app can be in. -/
abbrev Reached (s : RemoteAccess) : Prop :=
  Reachable step Fresh init s

end RemoteAccess

/-! ### What the operations do -/

section Operations

variable {records records' : List ClientRecord} {fingerprint id raw : String} {days : ℕ} {now : ℤ}
  {signed : Except String (Bytes × String)} {issued : IssuedClient}

/-- What is accepted as a name: the text without the blanks around it, of harmless characters, and
not one that the node keeps for itself. -/
theorem validateClientId_eq_ok (h : validateClientId raw = .ok id) :
    id = String.ofList (Text.trim raw.toList) ∧ (∀ c ∈ id.toList, isClientIdChar c = true) ∧
      id ≠ "console" := by
  rw [validateClientId] at h
  split_ifs at h with hlength hchars hreserved
  obtain rfl := Except.ok.inj h
  refine ⟨rfl, by simpa using hchars, fun hconsole ↦ hreserved ?_⟩
  rw [hconsole]
  decide

/-- **A certificate is never issued to the console.** -/
theorem clientId_ne_console_of_issueClient
    (h : issueClient signed raw days now = .ok issued) : issued.clientId ≠ "console" := by
  simp only [issueClient, Except.bind_eq_ok, Except.ensure_eq_ok, Except.pure_eq_ok,
    exists_const, Prod.exists] at h
  obtain ⟨id, hid, -, certDer, serial, -, rfl⟩ := h
  exact (validateClientId_eq_ok hid).2.2

theorem isWhitespace_of_isClientIdChar {c : Char} (h : isClientIdChar c = true) :
    Text.isWhitespace c = false := by
  simp only [isClientIdChar, Bool.or_eq_true, beq_iff_eq] at h
  rcases h with (((h | rfl) | rfl) | rfl) | rfl
  · exact Text.isWhitespace_of_isAlphanum h
  all_goals decide

/-- A name that was accepted is accepted as it is. -/
theorem validateClientId_self {id' : String} (h : validateClientId raw = .ok id)
    (h' : validateClientId id = .ok id') : id' = id := by
  obtain ⟨-, hchars, -⟩ := validateClientId_eq_ok h
  rw [(validateClientId_eq_ok h').1,
    Text.trim_eq_self fun c hc ↦ isWhitespace_of_isClientIdChar (hchars c hc), String.ofList_toList]

/-- **What issuing takes and gives**: a name that no live record bears, and one record more. -/
theorem issue_eq_ok (h : issue records signed raw days now = .ok (issued, records')) :
    issued.clientId ≠ "console" ∧
      (∀ r ∈ records, r.revokedAt = none → r.id ≠ issued.clientId) ∧
      (∃ serial, signed = .ok (issued.certDer, serial)) ∧
      issued.fingerprint = Sha256.digestHex issued.certDer ∧
      records' = records ++ [issued.record now] := by
  simp only [issue, issueClient, Except.bind_eq_ok, Except.ensure_eq_ok, Except.pure_eq_ok,
    exists_const, Prod.exists, Prod.mk.injEq] at h
  obtain ⟨id, hid, htaken, issued', ⟨id', hid', -, certDer, serial, hsigned, rfl⟩, rfl, rfl⟩ := h
  obtain rfl := validateClientId_self hid hid'
  refine ⟨(validateClientId_eq_ok hid).2.2, fun r hr hlive hname ↦ ?_, ⟨serial, hsigned⟩, rfl, rfl⟩
  have hany : (records.any fun r ↦ r.id == id' && r.revokedAt.isNone) = true :=
    List.any_eq_true.2 ⟨r, hr, by simpa [hlive] using hname⟩
  simp [hany] at htaken

/-- Marking a record leaves its certificate and its name. -/
theorem map_fingerprint_markRevoked :
    (markRevoked fingerprint now records).map ClientRecord.fingerprint =
      records.map ClientRecord.fingerprint := by
  induction records with
  | nil => rfl
  | cons r records ih =>
    rw [markRevoked]
    split_ifs
    · rfl
    · rw [List.map_cons, ih, List.map_cons]

/-- A record that is live after a revocation was live before and is of another certificate. -/
theorem mem_markRevoked_iff (hnodup : (records.map ClientRecord.fingerprint).Nodup)
    {r : ClientRecord} : r ∈ markRevoked fingerprint now records ∧ r.revokedAt = none ↔
      (r ∈ records ∧ r.revokedAt = none) ∧ r.fingerprint ≠ fingerprint := by
  induction records with
  | nil => simp [markRevoked]
  | cons first records ih =>
    rw [List.map_cons, List.nodup_cons] at hnodup
    obtain ⟨hfirst, hnodup⟩ := hnodup
    rw [markRevoked]
    split_ifs with heq
    · -- the first record is the one that is marked, and no other is of the certificate
      have hmarked : ({ first with revokedAt := first.revokedAt.or (some now) } :
          ClientRecord).revokedAt ≠ none := by
        rcases first.revokedAt with - | t <;> simp
      constructor
      · rintro ⟨hmem, hlive⟩
        rcases List.mem_cons.1 hmem with rfl | hmem
        · exact absurd hlive hmarked
        · refine ⟨⟨List.mem_cons_of_mem _ hmem, hlive⟩, fun h ↦ hfirst ?_⟩
          rw [heq, ← h]
          exact List.mem_map_of_mem hmem
      · rintro ⟨⟨hmem, hlive⟩, hne⟩
        rcases List.mem_cons.1 hmem with rfl | hmem
        · exact absurd heq hne
        · exact ⟨List.mem_cons_of_mem _ hmem, hlive⟩
    · constructor
      · rintro ⟨hmem, hlive⟩
        rcases List.mem_cons.1 hmem with rfl | hmem
        · exact ⟨⟨List.mem_cons_self, hlive⟩, heq⟩
        · obtain ⟨⟨hmem, -⟩, hne⟩ := (ih hnodup).1 ⟨hmem, hlive⟩
          exact ⟨⟨List.mem_cons_of_mem _ hmem, hlive⟩, hne⟩
      · rintro ⟨⟨hmem, hlive⟩, hne⟩
        rcases List.mem_cons.1 hmem with rfl | hmem
        · exact ⟨List.mem_cons_self, hlive⟩
        · exact ⟨List.mem_cons_of_mem _ ((ih hnodup).2 ⟨⟨hmem, hlive⟩, hne⟩).1, hlive⟩

/-- The names of the live records after a revocation are among those before. -/
theorem liveIds_markRevoked_sublist :
    ((clearRevoked (markRevoked fingerprint now records)).map ClientRecord.id).Sublist
      ((clearRevoked records).map ClientRecord.id) := by
  induction records with
  | nil => exact List.Sublist.refl _
  | cons r records ih =>
    rw [markRevoked]
    split_ifs
    · have hmarked : (r.revokedAt.or (some now)).isNone = false := by
        rcases r.revokedAt with - | t <;> rfl
      simp only [clearRevoked, List.filter_cons, hmarked, Bool.false_eq_true, if_false]
      split_ifs
      · exact List.sublist_cons_self _ _
      · exact List.Sublist.refl _
    · simp only [clearRevoked, List.filter_cons]
      split_ifs
      · exact ih.cons_cons _
      · exact ih

end Operations

/-! ### What a run keeps -/

/-- What holds of the records in every run. -/
structure RemoteAccess.Inv (s : RemoteAccess) : Prop where
  /-- The live records are those that were made and whose certificate was not revoked. -/
  live_iff : ∀ r, r ∈ s.records ∧ r.revokedAt = none ↔
    r ∈ s.issued ∧ r.fingerprint ∉ s.revoked
  nodup : (s.records.map ClientRecord.fingerprint).Nodup
  /-- No two live records bear one name. -/
  liveIds : ((clearRevoked s.records).map ClientRecord.id).Nodup
  named : ∀ r ∈ s.issued, r.id ≠ "console"
  digest : ∀ r ∈ s.issued, ∃ certDer, r.fingerprint = Sha256.digestHex certDer
  recorded : ∀ r ∈ s.records, ∃ r' ∈ s.issued, r'.fingerprint = r.fingerprint
  revoked : ∀ fingerprint ∈ s.revoked, ∃ r ∈ s.issued, r.fingerprint = fingerprint

namespace RemoteAccess

variable {s : RemoteAccess}

theorem mem_clearRevoked {records : List ClientRecord} {r : ClientRecord} :
    r ∈ clearRevoked records ↔ r ∈ records ∧ r.revokedAt = none := by
  rw [clearRevoked, List.mem_filter, Option.isNone_iff_eq_none]

/-- What a start that writes a registry loads. -/
theorem build_clientRegistry {records : List ClientRecord} {hardened remote : Bool} {now : ℤ}
    (htls : (hardened || remote) = true) :
    IdentityRegistry.build (clientRegistry records hardened remote now) =
      .ofPolicies (writeRegistry records now) := by
  rw [clientRegistry, if_pos htls, IdentityRegistry.build]

/-- **Issuing** makes one live record, under a name and a certificate of its own. -/
theorem Inv.issue (h : s.Inv) {signed : Except String (Bytes × String)} {id : String} {days : ℕ}
    {now : ℤ} {issued : IssuedClient} {records : List ClientRecord}
    (hfresh : s.Fresh (.issue id days now signed))
    (hissue : Cordon.issue s.records signed id days now = .ok (issued, records)) :
    Inv { s with records, issued := issued.record now :: s.issued } := by
  obtain ⟨hname, hfree, ⟨serial, rfl⟩, hdigest, rfl⟩ := issue_eq_ok hissue
  have hnew : ∀ r ∈ s.issued, r.fingerprint ≠ issued.fingerprint := by
    rw [hdigest]
    exact hfresh
  have hlive : (issued.record now).revokedAt = none := rfl
  have hunrevoked : issued.fingerprint ∉ s.revoked := fun hmem ↦ by
    obtain ⟨r, hr, heq⟩ := h.revoked _ hmem
    exact hnew r hr heq
  refine ⟨fun r ↦ ?_, ?_, ?_, ?_, ?_, ?_, ?_⟩
  · rw [List.mem_append, List.mem_singleton, List.mem_cons, or_and_right, or_and_right, h.live_iff]
    refine Iff.trans ?_ or_comm
    refine or_congr_right (and_congr_right ?_)
    rintro rfl
    exact iff_of_true hlive hunrevoked
  · rw [List.map_append, List.nodup_append]
    refine ⟨h.nodup, List.nodup_singleton _, ?_⟩
    intro fingerprint hmem fingerprint' hmem' heq
    obtain ⟨r, hr, rfl⟩ := List.mem_map.1 hmem
    obtain rfl := List.mem_singleton.1 hmem'
    obtain ⟨r', hr', hsame⟩ := h.recorded r hr
    exact hnew r' hr' (hsame.trans heq)
  · have happend : clearRevoked (s.records ++ [issued.record now]) =
        clearRevoked s.records ++ [issued.record now] := by
      rw [clearRevoked, List.filter_append]
      rfl
    rw [happend, List.map_append, List.nodup_append]
    refine ⟨h.liveIds, List.nodup_singleton _, ?_⟩
    intro name hmem name' hmem' heq
    obtain ⟨r, hr, rfl⟩ := List.mem_map.1 hmem
    obtain rfl := List.mem_singleton.1 hmem'
    obtain ⟨hr, hrlive⟩ := mem_clearRevoked.1 hr
    exact hfree r hr hrlive heq
  · exact List.forall_mem_cons.2 ⟨hname, h.named⟩
  · exact List.forall_mem_cons.2 ⟨⟨_, hdigest⟩, h.digest⟩
  · intro r hr
    rcases List.mem_append.1 hr with hr | hr
    · obtain ⟨r', hr', hsame⟩ := h.recorded r hr
      exact ⟨r', List.mem_cons_of_mem _ hr', hsame⟩
    · obtain rfl := List.mem_singleton.1 hr
      exact ⟨_, List.mem_cons_self, rfl⟩
  · intro fingerprint hmem
    obtain ⟨r, hr, heq⟩ := h.revoked _ hmem
    exact ⟨r, List.mem_cons_of_mem _ hr, heq⟩

/-- **Revoking** takes the one record of a certificate out of the live ones. -/
theorem Inv.revoke (h : s.Inv) {fingerprint : String} {now : ℤ} {records : List ClientRecord}
    (hrevoke : Cordon.revoke s.records fingerprint now = .ok records) :
    Inv { s with records, revoked := fingerprint :: s.revoked } := by
  rw [Cordon.revoke] at hrevoke
  split_ifs at hrevoke with hfound
  obtain rfl := Except.ok.inj hrevoke
  obtain ⟨found, hmem, hfound⟩ := List.any_eq_true.1 hfound
  obtain rfl := beq_iff_eq.1 hfound
  refine ⟨fun r ↦ ?_, ?_, h.liveIds.sublist liveIds_markRevoked_sublist, h.named, h.digest, ?_, ?_⟩
  · rw [mem_markRevoked_iff h.nodup, h.live_iff, List.mem_cons, not_or, and_assoc]
    exact and_congr_right fun _ ↦ and_comm
  · rw [map_fingerprint_markRevoked]
    exact h.nodup
  · intro r hr
    have hmark : r.fingerprint ∈ s.records.map ClientRecord.fingerprint := by
      rw [← map_fingerprint_markRevoked]
      exact List.mem_map_of_mem hr
    obtain ⟨r', hr', hsame⟩ := List.mem_map.1 hmark
    rw [← hsame]
    exact h.recorded r' hr'
  · exact List.forall_mem_cons.2 ⟨h.recorded found hmem, h.revoked⟩

/-- **Forgetting** the revoked clients leaves the live records. -/
theorem Inv.clearRevoked (h : s.Inv) :
    Inv { s with records := Cordon.clearRevoked s.records } := by
  refine ⟨fun r ↦ ?_, ?_, ?_, h.named, h.digest, ?_, h.revoked⟩
  · rw [mem_clearRevoked, ← h.live_iff, and_assoc, and_self]
  · exact h.nodup.sublist (List.filter_sublist.map _)
  · rw [Cordon.clearRevoked, Cordon.clearRevoked, List.filter_filter]
    simpa [Cordon.clearRevoked] using h.liveIds
  · exact fun r hr ↦ h.recorded r (List.mem_of_mem_filter hr)

/-- What issuing makes of the app. -/
theorem step_issue {id : String} {days : ℕ} {now : ℤ} {signed : Except String (Bytes × String)}
    {issued : IssuedClient} {records : List ClientRecord}
    (h : Cordon.issue s.records signed id days now = .ok (issued, records)) :
    s.step (.issue id days now signed) =
      { s with records, issued := issued.record now :: s.issued } := by
  simp only [step, h]

/-- What revoking makes of it. -/
theorem step_revoke {fingerprint : String} {now : ℤ} {records : List ClientRecord}
    (h : Cordon.revoke s.records fingerprint now = .ok records) :
    s.step (.revoke fingerprint now) =
      { s with records, revoked := fingerprint :: s.revoked } := by
  simp only [step, h]

/-- **Every run keeps it.** -/
theorem Reached.inv (hs : s.Reached) : s.Inv := by
  refine hs.invariant Inv ?_ ?_
  · exact ⟨by simp [init], List.nodup_nil, List.nodup_nil, by simp [init], by simp [init],
      by simp [init], by simp [init]⟩
  · rintro s (⟨id, days, now, signed⟩ | ⟨fingerprint, now⟩ | - | ⟨now, hardened, remote⟩ | -) -
      hfresh h
    · rcases hissue : Cordon.issue s.records signed id days now with e | ⟨issued, records⟩
      · simpa only [step, hissue] using h
      · rw [step_issue hissue]
        exact h.issue hfresh hissue
    · rcases hrevoke : Cordon.revoke s.records fingerprint now with e | records
      · simpa only [step, hrevoke] using h
      · rw [step_revoke hrevoke]
        exact h.revoke hrevoke
    · exact h.clearRevoked
    · exact ⟨h.live_iff, h.nodup, h.liveIds, h.named, h.digest, h.recorded, h.revoked⟩
    · exact ⟨h.live_iff, h.nodup, h.liveIds, h.named, h.digest, h.recorded, h.revoked⟩

end RemoteAccess

/-! ### What the registry enforces -/

section Registry

variable {s : RemoteAccess} {H : HostText} {startedAt arrived now : ℤ} {policy : ClientPolicy}
  {id : String}

/-- Whether a client is out of every suspension. -/
def NotSuspended (suspended : StringMap SuspendedClient) (now : ℤ) (clientId : String) : Prop :=
  ∀ entry, suspended.lookup clientId = some entry → entry.suspendedUntil ≤ now

/-- No two entries of a written registry are for one client. -/
theorem RemoteAccess.Inv.nodup_writeRegistry (h : s.Inv) :
    ((writeRegistry s.records startedAt).map ClientPolicy.clientId).Nodup := by
  have hlive : ((s.records.filter fun r ↦ r.isLiveAt startedAt).map ClientRecord.id).Nodup := by
    refine h.liveIds.sublist (List.Sublist.map _ ?_)
    refine List.monotone_filter_right _ fun r hr ↦ ?_
    exact (Bool.and_eq_true_iff.1 hr).1
  rw [writeRegistry, List.map_append, List.map_map, List.nodup_append]
  refine ⟨hlive, List.nodup_singleton _, ?_⟩
  intro name hmem name' hmem' heq
  obtain ⟨r, hr, rfl⟩ := List.mem_map.1 hmem
  obtain rfl := List.mem_singleton.1 hmem'
  obtain ⟨hr, hisLive⟩ := List.mem_filter.1 hr
  have hrevokedAt : r.revokedAt = none :=
    Option.isNone_iff_eq_none.1 (Bool.and_eq_true_iff.1 hisLive).1
  exact h.named r ((h.live_iff r).1 ⟨hr, hrevokedAt⟩).1 heq

/-- **The entries of a written registry**: the clients that were issued a certificate, not revoked
and not expired, and the console. Nobody else has a policy. -/
theorem RemoteAccess.Inv.policyFor_iff (h : s.Inv) :
    (IdentityRegistry.ofPolicies (writeRegistry s.records startedAt)).policyFor id = .ok policy ↔
      (∃ r ∈ s.issued, r.fingerprint ∉ s.revoked ∧ startedAt < r.notAfter ∧ r.id = id ∧
        policy = r.policy) ∨ (id = "console" ∧ policy = consolePolicy) := by
  have hdeny : (IdentityRegistry.ofPolicies (writeRegistry s.records startedAt)).unknownClient =
      .deny := by
    simp [IdentityRegistry.ofPolicies, writeRegistry]
  have hlookup : (IdentityRegistry.ofPolicies (writeRegistry s.records startedAt)).policyFor id =
      .ok policy ↔ policy ∈ writeRegistry s.records startedAt ∧ policy.clientId = id := by
    have hpolicies : (IdentityRegistry.ofPolicies (writeRegistry s.records startedAt)).policies =
        AList.ofValues ClientPolicy.clientId (writeRegistry s.records startedAt) := rfl
    rw [IdentityRegistry.policyFor, hdeny, hpolicies,
      ← AList.lookup_ofValues_eq_some_iff h.nodup_writeRegistry]
    rcases (AList.ofValues ClientPolicy.clientId (writeRegistry s.records startedAt)).lookup id
      with - | found
    · simp
    · simp
  rw [hlookup, writeRegistry, List.mem_append, List.mem_singleton, List.mem_map, or_and_right]
  refine or_congr ⟨?_, ?_⟩ ⟨?_, ?_⟩
  · rintro ⟨⟨r, hr, rfl⟩, rfl⟩
    obtain ⟨hr, hisLive⟩ := List.mem_filter.1 hr
    obtain ⟨hnone, hnotAfter⟩ := Bool.and_eq_true_iff.1 hisLive
    obtain ⟨hissued, hunrevoked⟩ := (h.live_iff r).1 ⟨hr, Option.isNone_iff_eq_none.1 hnone⟩
    exact ⟨r, hissued, hunrevoked, of_decide_eq_true hnotAfter, rfl, rfl⟩
  · rintro ⟨r, hissued, hunrevoked, hnotAfter, rfl, rfl⟩
    obtain ⟨hr, hnone⟩ := (h.live_iff r).2 ⟨hissued, hunrevoked⟩
    exact ⟨⟨r, List.mem_filter.2 ⟨hr, by simp [ClientRecord.isLiveAt, hnone, hnotAfter]⟩, rfl⟩, rfl⟩
  · rintro ⟨rfl, rfl⟩
    exact ⟨rfl, rfl⟩
  · rintro ⟨rfl, rfl⟩
    exact ⟨rfl, rfl⟩

/-- The pin of an entry is met by the certificate it was issued for. -/
theorem ClientRecord.pinMatches_policy_iff {r : ClientRecord} {certDer : Bytes}
    {fingerprint : String} (hlower : ∀ bs, H.toLowercase (Text.hexChars bs) = Text.hexChars bs)
    (hdigest : r.fingerprint = Sha256.digestHex certDer) :
    r.policy.pinMatches H fingerprint = true ↔ r.fingerprint = fingerprint := by
  have hpin : H.toLowercase (Text.trim r.fingerprint.toList) = r.fingerprint.toList := by
    rw [hdigest, Sha256.digestHex, Text.toList_hexEncode, Text.trim_hexChars, hlower]
  show (([r.fingerprint] : List String).any fun pin ↦
    ctEq (Utf8.encode (H.toLowercase (Text.trim pin.toList))) (Text.asBytes fingerprint)) = true ↔ _
  rw [List.any_cons, List.any_nil, Bool.or_false, hpin]
  exact ctEq_asBytes_iff

/-- **Who passes where no registry was written**: everybody, with the defaults. -/
theorem verify_new_iff {identity : ClientIdentity} {suspended : StringMap SuspendedClient} :
    IdentityRegistry.verify H { IdentityRegistry.new with suspended } now identity = .ok policy ↔
      identity.isValidAt now = true ∧ NotSuspended suspended now identity.clientId ∧
        policy = .defaultFor identity.clientId := by
  rw [IdentityRegistry.verify_eq_ok_iff]
  refine and_congr_right fun _ ↦ and_congr_right fun _ ↦ ?_
  have hpolicyFor : IdentityRegistry.policyFor { IdentityRegistry.new with suspended }
      identity.clientId = .ok (.defaultFor identity.clientId) := rfl
  rw [hpolicyFor]
  constructor
  · rintro ⟨hpolicy, -⟩
    exact (Except.ok.inj hpolicy).symm
  · rintro rfl
    exact ⟨rfl, rfl, .inl rfl⟩

/-- **Who passes a written registry**: a client that was issued the certificate it shows, which was
not revoked and has not expired, or the console, without a certificate to show. -/
theorem RemoteAccess.Inv.verify_iff (h : s.Inv) {identity : ClientIdentity}
    {suspended : StringMap SuspendedClient}
    (hlower : ∀ bs, H.toLowercase (Text.hexChars bs) = Text.hexChars bs) :
    IdentityRegistry.verify H
        { IdentityRegistry.ofPolicies (writeRegistry s.records startedAt) with suspended } now
        identity = .ok policy ↔
      identity.isValidAt now = true ∧ NotSuspended suspended now identity.clientId ∧
      ((∃ r ∈ s.issued, r.fingerprint ∉ s.revoked ∧ r.id = identity.clientId ∧
          r.fingerprint = identity.fingerprint ∧ startedAt < r.notAfter ∧ now < r.notAfter ∧
          policy = r.policy) ∨
        (identity.clientId = "console" ∧ policy = consolePolicy)) := by
  rw [IdentityRegistry.verify_eq_ok_iff]
  refine and_congr_right fun _ ↦ and_congr_right fun _ ↦ ?_
  have hpolicyFor : IdentityRegistry.policyFor
      { IdentityRegistry.ofPolicies (writeRegistry s.records startedAt) with suspended }
        identity.clientId = .ok policy ↔ _ := h.policyFor_iff
  rw [hpolicyFor]
  constructor
  · rintro ⟨⟨r, hissued, hunrevoked, hstarted, hid, rfl⟩ | hconsole, hcurrent, hpins⟩
    · obtain ⟨certDer, hdigest⟩ := h.digest r hissued
      have hpin := (ClientRecord.pinMatches_policy_iff hlower hdigest).1
        (hpins.resolve_left (by simp [ClientRecord.policy]))
      exact .inl ⟨r, hissued, hunrevoked, hid, hpin, hstarted,
        by simpa [ClientPolicy.isValidAt, ClientRecord.policy] using hcurrent, rfl⟩
    · exact .inr hconsole
  · rintro (⟨r, hissued, hunrevoked, hid, hpin, hstarted, hnow, rfl⟩ | ⟨hid, rfl⟩)
    · obtain ⟨certDer, hdigest⟩ := h.digest r hissued
      exact ⟨.inl ⟨r, hissued, hunrevoked, hstarted, hid, rfl⟩,
        by simpa [ClientPolicy.isValidAt, ClientRecord.policy] using hnow,
        .inr ((ClientRecord.pinMatches_policy_iff hlower hdigest).2 hpin)⟩
    · exact ⟨.inr ⟨hid, rfl⟩, rfl, .inl rfl⟩

end Registry

/-! ### Two clients to try things on -/

namespace SampleRemote

/-- A certificate for a laptop. -/
@[irreducible]
def laptopCert : Bytes :=
  Bytes.beBytes 36 0x3082018b30820131a003020102020901f3a9c2e4d5b60711300a06082a8648ce3d040302 ++
    Bytes.beBytes 36 0x301c311a301806035504030c11436f72646f6e2070726976617465204341301e170d3236 ++
    Bytes.beBytes 36 0x313131383232323035375a170d3236313231383232323035375a3011310f300d06035504 ++
    Bytes.beBytes 36 0x030c066c6170746f703059301306072a8648ce3d020106082a8648ce3d03010703420004 ++
    Bytes.beBytes 36 0x40496b1e67fef1acdb63847174fa4377f7f4badf9e2928aca379a4186871caa65abdcc48 ++
    Bytes.beBytes 36 0xb9ee45de3e845b9261da04ec54b2a03dabff38ea44f3e6e239a2d9f4a3673065300e0603 ++
    Bytes.beBytes 36 0x551d0f0101ff04040302078030130603551d25040c300a06082b06010505070302301d06 ++
    Bytes.beBytes 36 0x03551d0e04160414b9261e908fa800f195e8570cd677f1d1697a4c83301f0603551d2304 ++
    Bytes.beBytes 36 0x1830168014c523562d30d74244b2e057ff8a092ca7e90bf679300a06082a8648ce3d0403 ++
    Bytes.beBytes 36 0x020348003045022100b399bbaff4a66af90b1dc3f0ee6ad06f929b77bc14f3501bc0c9b4 ++
    Bytes.beBytes 36 0x2b6bf13282022037b2be57bbf21605bf75306a8e9e20cca14438ce66edc0ab27c5574051 ++
    Bytes.beBytes 3 0x81e02c

/-- A certificate for a phone, by the same authority. -/
@[irreducible]
def phoneCert : Bytes :=
  Bytes.beBytes 36 0x3082018930820130a003020102020901f3a9c2e4d5b60712300a06082a8648ce3d040302 ++
    Bytes.beBytes 36 0x301c311a301806035504030c11436f72646f6e2070726976617465204341301e170d3236 ++
    Bytes.beBytes 36 0x313131383232323035375a170d3236313231383232323035375a3010310e300c06035504 ++
    Bytes.beBytes 36 0x030c0570686f6e653059301306072a8648ce3d020106082a8648ce3d03010703420004bd ++
    Bytes.beBytes 36 0xd1b9ebfe48dceaab791937f0d0f499262fa023bed7c9f5d8bf2c951310e1ae47a770af48 ++
    Bytes.beBytes 36 0xfc00ee7e7c5120f31b1a6f38dd04671351f0b1b7fec34f272b5a4ea3673065300e060355 ++
    Bytes.beBytes 36 0x1d0f0101ff04040302078030130603551d25040c300a06082b06010505070302301d0603 ++
    Bytes.beBytes 36 0x551d0e04160414e96e705e7531f150bde68e40d2851732ae774a4f301f0603551d230418 ++
    Bytes.beBytes 36 0x30168014c523562d30d74244b2e057ff8a092ca7e90bf679300a06082a8648ce3d040302 ++
    Bytes.beBytes 36 0x0347003044022055b4090ed9656b893192c46bca666df9505801950b24600113e3d9c958 ++
    Bytes.beBytes 36 0x1aead9022026f7ad6e92a072ff57b5cb3a06878eca4e55ad92bb41fec7c7de1d2713e3a2 ++
    Bytes.beBytes 1 0x6d

/-- The moment the certificates were made. -/
def issuedAt : ℤ := 1795040457000000000

/-- Lower case as it is for ASCII. -/
def host : HostText :=
  ⟨List.map Char.toLower, fun _ ↦ ""⟩

/-- The parser as far as these certificates need it. -/
def parser : CertificateParser where
  fromDer der :=
    if der = laptopCert then .ok ⟨[some "laptop"], none, 1795040457, 1797632457⟩
    else if der = phoneCert then .ok ⟨[some "phone"], none, 1795040457, 1797632457⟩
    else .error "NomError(Eof)"
  displayIpv6 _ := "::1"
  limits := SampleSuspension.limits

/-- What the laptop gets. -/
def laptopIssued : IssuedClient :=
  ⟨"laptop", laptopCert, Sha256.digestHex laptopCert, "01f3a9c2e4d5b60711",
    issuedAt + (30 : ℕ) * dayNanos⟩

/-- What the phone gets. -/
def phoneIssued : IssuedClient :=
  ⟨"phone", phoneCert, Sha256.digestHex phoneCert, "01f3a9c2e4d5b60712",
    issuedAt + (30 : ℕ) * dayNanos⟩

/-- The laptop's record, as it is made. -/
def laptop : ClientRecord :=
  laptopIssued.record issuedAt

/-- The phone's. -/
def phone : ClientRecord :=
  phoneIssued.record issuedAt

/-- The certificates differ from one another, and each from its client's name. -/
theorem fingerprints_ne :
    Sha256.digestHex laptopCert ≠ Sha256.digestHex phoneCert ∧
    Sha256.digestHex laptopCert ≠ Sha256.digestHex (Text.asBytes "laptop") ∧
    Sha256.digestHex phoneCert ≠ Sha256.digestHex (Text.asBytes "phone") := by
  decide +kernel

theorem issue_laptop : issue [] (.ok (laptopCert, "01f3a9c2e4d5b60711")) "laptop" 30 issuedAt =
    .ok (laptopIssued, [laptop]) := by
  have hid : validateClientId "laptop" = .ok "laptop" := rfl
  simp only [issue, issueClient, hid, Except.ok_bind]
  rfl

theorem issue_phone : issue [laptop] (.ok (phoneCert, "01f3a9c2e4d5b60712")) " phone " 30 issuedAt =
    .ok (phoneIssued, [laptop, phone]) := by
  have hid : validateClientId " phone " = .ok "phone" := rfl
  have hid' : validateClientId "phone" = .ok "phone" := rfl
  simp only [issue, issueClient, hid, hid', Except.ok_bind]
  rfl

theorem revoke_phone : revoke [laptop, phone] (Sha256.digestHex phoneCert) (issuedAt + 1) =
    .ok [laptop, { phone with revokedAt := some (issuedAt + 1) }] := by
  have hphone : phone.fingerprint = Sha256.digestHex phoneCert := rfl
  have hlaptop : laptop.fingerprint ≠ Sha256.digestHex phoneCert := fingerprints_ne.1
  rw [revoke, if_pos (by simp [hphone]), markRevoked, if_neg hlaptop, markRevoked, if_pos hphone]
  rfl

/-- Both clients were issued a certificate, and the phone's was revoked. -/
def access : RemoteAccess :=
  ⟨[laptop, { phone with revokedAt := some (issuedAt + 1) }], none, [phone, laptop],
    [Sha256.digestHex phoneCert]⟩

theorem reached_access : access.Reached := by
  have hlaptop : RemoteAccess.Reached ⟨[laptop], none, [laptop], []⟩ := by
    have hstep : RemoteAccess.init.step _ = ⟨[laptop], none, [laptop], []⟩ :=
      RemoteAccess.step_issue issue_laptop
    rw [← hstep]
    exact .next _ .start fun r hr ↦ by cases hr
  have hphone : RemoteAccess.Reached ⟨[laptop, phone], none, [phone, laptop], []⟩ := by
    have hstep : RemoteAccess.step ⟨[laptop], none, [laptop], []⟩ _ =
        ⟨[laptop, phone], none, [phone, laptop], []⟩ := RemoteAccess.step_issue issue_phone
    rw [← hstep]
    refine .next _ hlaptop fun r hr ↦ ?_
    obtain rfl := List.mem_singleton.1 hr
    exact fingerprints_ne.1
  have hstep : RemoteAccess.step ⟨[laptop, phone], none, [phone, laptop], []⟩ _ = access :=
    RemoteAccess.step_revoke revoke_phone
  rw [← hstep]
  exact .next _ hphone trivial

theorem toLowercase_hexChars (bs : Bytes) :
    host.toLowercase (Text.hexChars bs) = Text.hexChars bs := by
  refine (List.map_congr_left fun c hc ↦ ?_).trans (List.map_id _)
  exact Text.forall_mem_hexChars (P := fun c ↦ c.toLower = c) (by decide) hc

/-- The laptop, as its certificate says. -/
def laptopIdentity : ClientIdentity :=
  ⟨"laptop", issuedAt, issuedAt + 30 * dayNanos, Sha256.digestHex laptopCert⟩

/-- The phone. -/
def phoneIdentity : ClientIdentity :=
  ⟨"phone", issuedAt, issuedAt + 30 * dayNanos, Sha256.digestHex phoneCert⟩

theorem parse_of_fromDer {der : Bytes} {id : String}
    (h : parser.fromDer der = .ok ⟨[some id], none, 1795040457, 1797632457⟩) (hid : id ≠ "") :
    parser.parseClientIdentityFromCert der =
      .ok ⟨id, issuedAt, issuedAt + 30 * dayNanos, Sha256.digestHex der⟩ := by
  have hname : ((some id).filter fun s ↦ !s.isEmpty) = some id := by
    simp [Option.filter, hid]
  rw [CertificateParser.parseClientIdentityFromCert, h]
  simp only [Except.mapError, Except.ok_bind, List.head?_cons, Option.join_some, hname,
    Option.some_or]
  rfl

theorem parse_laptop : parser.parseClientIdentityFromCert laptopCert = .ok laptopIdentity :=
  parse_of_fromDer (if_pos rfl) (by decide)

theorem parse_phone : parser.parseClientIdentityFromCert phoneCert = .ok phoneIdentity := by
  refine parse_of_fromDer ?_ (by decide)
  have hne : phoneCert ≠ laptopCert := fun h ↦ fingerprints_ne.1 (congrArg Sha256.digestHex h.symm)
  exact (if_neg hne).trans (if_pos rfl)

end SampleRemote

/-! ### Who is served -/

/-- **A certificate is served exactly as its history says.** In every run of issuing, revoking,
forgetting, starting and stopping, a node that starts with a listener for certificates serves a
connection with one that can be read, whatever headers its requests carry, exactly when the
certificate was issued under the name it carries, was not revoked, and had not expired at the start
and has not expired now. The name is not the console's: none is issued to it
(`clientId_ne_console_of_issueClient`). -/
theorem remote_client_served_iff {s : RemoteAccess} (hs : s.Reached) {H : HostText}
    (hlower : ∀ bs, H.toLowercase (Text.hexChars bs) = Text.hexChars bs) {C : CertificateParser}
    {startedAt arrived now : ℤ} {registry : IdentityRegistry}
    {suspended : StringMap SuspendedClient} {hardened remote requireMtls : Bool} {der : Bytes}
    {rest : List Bytes} {header : Option Bytes} {identity : ClientIdentity} {policy : ClientPolicy}
    (htls : (hardened || remote) = true)
    (hstart : (s.step (.start startedAt hardened remote)).registry = some registry)
    (hparse : C.parseClientIdentityFromCert der = .ok identity)
    (hname : identity.clientId ≠ "console") :
    authorizeRequest H C { registry with suspended } requireMtls arrived now (der :: rest) header =
        .ok policy ↔
      identity.isValidAt now = true ∧ NotSuspended suspended now identity.clientId ∧
      ∃ r ∈ s.issued, r.fingerprint ∉ s.revoked ∧ r.id = identity.clientId ∧
        r.fingerprint = identity.fingerprint ∧ startedAt < r.notAfter ∧ now < r.notAfter ∧
        policy = r.policy := by
  obtain rfl := Option.some.inj hstart
  rw [RemoteAccess.build_clientRegistry htls, authorizeRequest_of_certificate hparse,
    hs.inv.verify_iff hlower]
  refine and_congr_right fun _ ↦ and_congr_right fun _ ↦ ⟨?_, .inl⟩
  rintro (hrecord | ⟨hconsole, -⟩)
  · exact hrecord
  · exact absurd hconsole hname

/-- The laptop is served and the phone is not, whatever name the phone gives itself. -/
theorem remote_client_served_iff_sample : ∃ registry,
    (SampleRemote.access.step (.start SampleRemote.issuedAt true true)).registry = some registry ∧
    authorizeRequest SampleRemote.host SampleRemote.parser { registry with suspended := ∅ } true
        SampleRemote.issuedAt SampleRemote.issuedAt [SampleRemote.laptopCert] none =
      .ok SampleRemote.laptop.policy ∧
    ∀ policy, authorizeRequest SampleRemote.host SampleRemote.parser
      { registry with suspended := ∅ } true SampleRemote.issuedAt SampleRemote.issuedAt
      [SampleRemote.phoneCert] (some (Text.asBytes "laptop")) ≠ .ok policy := by
  have hlaptop : SampleRemote.laptopIssued.clientId ≠ "console" :=
    (issue_eq_ok SampleRemote.issue_laptop).1
  have hphone : SampleRemote.phoneIssued.clientId ≠ "console" :=
    (issue_eq_ok SampleRemote.issue_phone).1
  refine ⟨_, rfl, (remote_client_served_iff SampleRemote.reached_access
    SampleRemote.toLowercase_hexChars rfl rfl SampleRemote.parse_laptop hlaptop).2
      ⟨by decide, by rintro _ ⟨⟩, SampleRemote.laptop, ?_, ?_, rfl, rfl, by decide, by decide, rfl⟩,
    fun policy hserved ↦ ?_⟩
  · exact List.mem_cons_of_mem _ List.mem_cons_self
  · exact fun hmem ↦ SampleRemote.fingerprints_ne.1 (List.mem_singleton.1 hmem)
  · obtain ⟨-, -, r, -, hunrevoked, -, hfingerprint, -⟩ :=
      (remote_client_served_iff SampleRemote.reached_access SampleRemote.toLowercase_hexChars rfl
        rfl SampleRemote.parse_phone hphone).1 hserved
    exact hunrevoked (List.mem_singleton.2 hfingerprint)

/-- **A header names nobody but the console.** Where the connection gives no identity, a request is
served exactly when mutual TLS is not required, the name in its header is not suspended, and the
name is the console's if the start has written a registry, whatever clients were issued
certificates. If it has not, in Light mode without remote access, every name is served with the
defaults. -/
theorem console_listener_serves_iff {s : RemoteAccess} (hs : s.Reached) {H : HostText}
    (hlower : ∀ bs, H.toLowercase (Text.hexChars bs) = Text.hexChars bs) {C : CertificateParser}
    {startedAt arrived now : ℤ} {registry : IdentityRegistry}
    {suspended : StringMap SuspendedClient} {hardened remote requireMtls : Bool}
    {peerCertificates : List Bytes} {header : Option Bytes} {policy : ClientPolicy}
    (hstart : (s.step (.start startedAt hardened remote)).registry = some registry)
    (hnone : connectionIdentity C peerCertificates = none)
    (hclock : arrived ≤ now ∧ now ≤ arrived + hourNanos)
    (hnames : ∀ r ∈ s.issued, r.fingerprint ≠ Sha256.digestHex (Text.asBytes r.id)) :
    authorizeRequest H C { registry with suspended } requireMtls arrived now peerCertificates
        header = .ok policy ↔
      requireMtls = false ∧ NotSuspended suspended now (headerClientId header) ∧
        if hardened || remote then headerClientId header = "console" ∧ policy = consolePolicy
        else policy = .defaultFor (headerClientId header) := by
  obtain rfl := Option.some.inj hstart
  have hvalid : (ClientIdentity.fromDevHeader arrived (headerClientId header)).isValidAt now =
      true := by
    have hhour : (0 : ℤ) ≤ hourNanos := by decide
    exact Bool.and_eq_true_iff.2 ⟨decide_eq_true ((Int.sub_le_self _ hhour).trans hclock.1),
      decide_eq_true hclock.2⟩
  rw [authorizeRequest_of_header hnone]
  refine and_congr_right fun _ ↦ ?_
  rcases htls : hardened || remote
  · -- no registry
    rw [if_neg (by decide), clientRegistry, if_neg (by simp [htls]), IdentityRegistry.build,
      verify_new_iff]
    exact and_iff_right hvalid
  · rw [if_pos rfl, RemoteAccess.build_clientRegistry htls, hs.inv.verify_iff hlower,
      and_iff_right hvalid]
    refine and_congr_right fun _ ↦ ⟨?_, .inr⟩
    rintro (⟨r, hissued, -, hid, hpin, -⟩ | hconsole)
    · -- an enrolled client's certificate is not the hash of its name
      refine absurd ?_ (hnames r hissued)
      rw [hpin, hid]
      rfl
    · exact hconsole

/-- With remote access, the console is served without a certificate, and nobody who claims to be the
laptop is; without it, the laptop's name gets the defaults and not the laptop's policy. -/
theorem console_listener_serves_iff_sample :
    (∃ registry,
      (SampleRemote.access.step (.start SampleRemote.issuedAt false true)).registry =
        some registry ∧
      authorizeRequest SampleRemote.host SampleRemote.parser { registry with suspended := ∅ } false
          SampleRemote.issuedAt SampleRemote.issuedAt [] (some (Text.asBytes "console")) =
        .ok consolePolicy ∧
      ∀ policy, authorizeRequest SampleRemote.host SampleRemote.parser
        { registry with suspended := ∅ } false SampleRemote.issuedAt SampleRemote.issuedAt []
        (some (Text.asBytes "laptop")) ≠ .ok policy) ∧
    ∃ registry,
      (SampleRemote.access.step (.start SampleRemote.issuedAt false false)).registry =
        some registry ∧
      ∀ policy, authorizeRequest SampleRemote.host SampleRemote.parser
        { registry with suspended := ∅ } false SampleRemote.issuedAt SampleRemote.issuedAt []
        (some (Text.asBytes "laptop")) = .ok policy ↔ policy = .defaultFor "laptop" := by
  have hclock : SampleRemote.issuedAt ≤ SampleRemote.issuedAt ∧
      SampleRemote.issuedAt ≤ SampleRemote.issuedAt + hourNanos := by decide
  have hnames : ∀ r ∈ SampleRemote.access.issued,
      r.fingerprint ≠ Sha256.digestHex (Text.asBytes r.id) := by
    refine List.forall_mem_cons.2 ⟨SampleRemote.fingerprints_ne.2.2,
      List.forall_mem_singleton.2 SampleRemote.fingerprints_ne.2.1⟩
  have hlaptop : headerClientId (some (Text.asBytes "laptop")) = "laptop" := rfl
  refine ⟨⟨_, rfl, (console_listener_serves_iff SampleRemote.reached_access
    SampleRemote.toLowercase_hexChars rfl rfl hclock hnames).2
      ⟨rfl, by rintro _ ⟨⟩, rfl, rfl⟩, fun policy hserved ↦ ?_⟩, _, rfl, fun policy ↦ ?_⟩
  · obtain ⟨-, -, hname, -⟩ := (console_listener_serves_iff SampleRemote.reached_access
      SampleRemote.toLowercase_hexChars rfl rfl hclock hnames).1 hserved
    simp [hlaptop] at hname
  · rw [console_listener_serves_iff SampleRemote.reached_access SampleRemote.toLowercase_hexChars
      rfl rfl hclock hnames, hlaptop]
    exact ⟨fun h ↦ h.2.2, fun h ↦ ⟨rfl, by rintro _ ⟨⟩, h⟩⟩

end Cordon
