import Cordon.Audit.Events
import Cordon.Core.Error
import Cordon.Lib.Table
import Cordon.Lib.Transition

/-!
# Sessions and leases

A session belongs to the client that opened it. `KvCacheManager` keeps the table of sessions under
two ceilings, one for the whole table and one for each client, and `InferenceEngine` hands every
admitted request a lease: a concurrency permit and the session the request is bound to.

There are three ways into the table (resume, claim an identifier nobody holds, take a new one), and
`openSession_cases` lists them with everything each one has checked. Both ceilings and the ownership
of a session are read off that list (`session_table_bounds`).

The table remembers an owner **only as long as the session is in it**, and a session can leave the
table while a lease on it is live: the lease of another request drops it, or the idle sweep does.
The identifier then counts as unknown, and whoever names it first owns it.
`leases_isolated_iff_claims_unleased` says that this is the only way in which two clients come to
hold leases on one session.

`Uuid::new_v4` is the `fresh` identifier of an opening. The scratch bytes of a session are left out:
they are written and wiped, never read.
-/

namespace Cordon

open Transition

/-- Per-client session state. -/
structure ClientSession where
  clientId : String
  createdAt : ℤ
  lastActive : ℤ
  turnCount : ℕ
  deriving DecidableEq

/-- The share of the table that one client may hold is this part of it. -/
def clientSessionShareDivisor : ℕ :=
  8

/-- Fewest sessions any client may hold, whatever the table size. -/
def minSessionsPerClient : ℕ :=
  8

/-- Default per-client session ceiling for a table of `maxSessions`. -/
def defaultClientShare (maxSessions : ℕ) : ℕ :=
  max (maxSessions / clientSessionShareDivisor) minSessionsPerClient

/-- Session and KV-cache isolation manager. -/
structure KvCacheManager where
  sessions : AList fun _ : Uuid ↦ ClientSession
  zeroOnEnd : Bool
  maxSessions : ℕ
  maxSessionsPerClient : ℕ
  /-- A client can always hold one session. -/
  one_le_maxSessionsPerClient : 1 ≤ maxSessionsPerClient

namespace KvCacheManager

/-- Create a manager with an explicit per-client session ceiling. -/
def withClientLimit (zeroOnEnd : Bool) (maxSessions maxSessionsPerClient : ℕ) :
    KvCacheManager where
  sessions := ∅
  zeroOnEnd := zeroOnEnd
  maxSessions := maxSessions
  maxSessionsPerClient := max maxSessionsPerClient 1
  one_le_maxSessionsPerClient := le_max_right _ _

/-- Create a manager in which each client is limited to a share of the table. -/
def new (zeroOnEnd : Bool) (maxSessions : ℕ) : KvCacheManager :=
  withClientLimit zeroOnEnd maxSessions (defaultClientShare maxSessions)

/-- Number of live sessions. -/
def sessionCount (kv : KvCacheManager) : ℕ :=
  kv.sessions.entries.length

/-- Live sessions belonging to a client. -/
def activeSessionsForClient (kv : KvCacheManager) (clientId : String) : ℕ :=
  kv.sessions.count fun s ↦ decide (s.clientId = clientId)

/-- A session's first turn. -/
def firstTurn (now : ℤ) (clientId : String) : ClientSession :=
  ⟨clientId, now, now, 1⟩

/-- A session's next turn: the counter stops at the largest 32-bit number. -/
def nextTurn (now : ℤ) (session : ClientSession) : ClientSession :=
  { session with lastActive := now, turnCount := min (session.turnCount + 1) (2 ^ 32 - 1) }

/-- Put a new session into the table, under both ceilings. -/
def insertSession (kv : KvCacheManager) (now : ℤ) (sid : Uuid) (clientId : String) :
    KvCacheManager × Except CordonError Unit :=
  -- the whole table first, so a full one answers the same to every client
  if kv.maxSessions ≤ kv.sessionCount then
    (kv, .error (.overloaded (kv.maxSessions % 2 ^ 32)))
  else if kv.maxSessionsPerClient ≤ kv.activeSessionsForClient clientId then
    (kv, .error (.rateLimitExceeded clientId))
  else ({ kv with sessions := kv.sessions.insert sid (firstTurn now clientId) }, .ok ())

/-- Open a new session, or resume one the client already owns. -/
def openSession (kv : KvCacheManager) (now : ℤ) (fresh : Uuid) (clientId : String)
    (sessionId : Option Uuid) : KvCacheManager × Except CordonError Uuid :=
  match sessionId with
  | some sid =>
    match kv.sessions.lookup sid with
    | some existing =>
      if existing.clientId = clientId then
        ({ kv with sessions := kv.sessions.insert sid (nextTurn now existing) }, .ok sid)
      else (kv, .error (.authFailed "session does not belong to this client"))
    | none =>
      -- an unknown identifier is a request to open that session for the caller
      let (kv, inserted) := kv.insertSession now sid clientId
      (kv, inserted.map fun () ↦ sid)
  | none =>
    let (kv, inserted) := kv.insertSession now fresh clientId
    (kv, inserted.map fun () ↦ fresh)

/-- End a session. -/
def endSession (kv : KvCacheManager) (sid : Uuid) : KvCacheManager :=
  { kv with sessions := kv.sessions.erase sid }

/-- The sessions idle for at least as long as `maxIdleSeconds`. -/
def expired (kv : KvCacheManager) (now maxIdleSeconds : ℤ) : List Uuid :=
  -- times are nanoseconds
  let cutoff := now - maxIdleSeconds * 1000000000
  (kv.sessions.entries.filter fun e ↦ decide (e.2.lastActive ≤ cutoff)).map fun e ↦ e.1

/-- Drop the sessions idle for at least as long as `maxIdleSeconds`. -/
def cleanupExpired (kv : KvCacheManager) (now maxIdleSeconds : ℤ) : KvCacheManager × ℕ :=
  let expired := kv.expired now maxIdleSeconds
  ({ kv with sessions := kv.sessions.eraseAll expired }, expired.length)

/-! ### What an opening can do -/

variable {kv kv' : KvCacheManager} {now maxIdleSeconds : ℤ} {fresh sid : Uuid} {clientId : String}
  {sessionId : Option Uuid} {session : ClientSession} {result : Except CordonError Uuid}

/-- Both ceilings leave room for one more session of the client. -/
def HasRoom (kv : KvCacheManager) (clientId : String) : Prop :=
  kv.sessionCount < kv.maxSessions ∧
    kv.activeSessionsForClient clientId < kv.maxSessionsPerClient

theorem insertSession_of_hasRoom (h : kv.HasRoom clientId) :
    kv.insertSession now sid clientId =
      ({ kv with sessions := kv.sessions.insert sid (firstTurn now clientId) }, .ok ()) := by
  rw [insertSession, if_neg (not_le.2 h.1), if_neg (not_le.2 h.2)]

theorem insertSession_cases (kv : KvCacheManager) (now : ℤ) (sid : Uuid) (clientId : String) :
    (∃ e, kv.insertSession now sid clientId = (kv, .error e)) ∨ kv.HasRoom clientId := by
  rw [insertSession]
  split
  · exact Or.inl ⟨_, rfl⟩
  · next htable =>
    split
    · exact Or.inl ⟨_, rfl⟩
    · next hclient => exact Or.inr ⟨not_le.1 htable, not_le.1 hclient⟩

/-- **The three ways into the table**, and the refusals: a refused opening changes nothing, a
resumed session is the client's own, and a new one has passed both ceilings. -/
theorem openSession_cases (h : kv.openSession now fresh clientId sessionId = (kv', result)) :
    (∃ e, result = .error e ∧ kv' = kv) ∨
      (∃ sid session, sessionId = some sid ∧ kv.sessions.lookup sid = some session ∧
        session.clientId = clientId ∧ result = .ok sid ∧
        kv' = { kv with sessions := kv.sessions.insert sid (nextTurn now session) }) ∨
      ∃ sid, (sessionId = some sid ∧ kv.sessions.lookup sid = none ∨
          sessionId = none ∧ sid = fresh) ∧
        kv.HasRoom clientId ∧ result = .ok sid ∧
        kv' = { kv with sessions := kv.sessions.insert sid (firstTurn now clientId) } := by
  rcases sessionId with - | sid
  · rcases insertSession_cases kv now fresh clientId with ⟨e, he⟩ | hroom
    · simp only [openSession, he, Prod.mk.injEq] at h
      exact Or.inl ⟨e, h.2.symm, h.1.symm⟩
    · simp only [openSession, insertSession_of_hasRoom hroom, Prod.mk.injEq] at h
      exact Or.inr (Or.inr ⟨fresh, Or.inr ⟨rfl, rfl⟩, hroom, h.2.symm, h.1.symm⟩)
  · rcases hlookup : kv.sessions.lookup sid with - | session
    · rcases insertSession_cases kv now sid clientId with ⟨e, he⟩ | hroom
      · simp only [openSession, hlookup, he, Prod.mk.injEq] at h
        exact Or.inl ⟨e, h.2.symm, h.1.symm⟩
      · simp only [openSession, hlookup, insertSession_of_hasRoom hroom, Prod.mk.injEq] at h
        exact Or.inr (Or.inr ⟨sid, Or.inl ⟨rfl, hlookup⟩, hroom, h.2.symm, h.1.symm⟩)
    · by_cases howner : session.clientId = clientId
      · simp only [openSession, hlookup, if_pos howner, Prod.mk.injEq] at h
        exact Or.inr (Or.inl ⟨sid, session, rfl, hlookup, howner, h.2.symm, h.1.symm⟩)
      · simp only [openSession, hlookup, if_neg howner, Prod.mk.injEq] at h
        exact Or.inl ⟨_, h.2.symm, h.1.symm⟩

/-- A named identifier that nobody holds is claimed, room permitting. -/
theorem openSession_of_unknown (hroom : kv.HasRoom clientId) (h : kv.sessions.lookup sid = none) :
    kv.openSession now fresh clientId (some sid) =
      ({ kv with sessions := kv.sessions.insert sid (firstTurn now clientId) }, .ok sid) := by
  simp only [openSession, h, insertSession_of_hasRoom hroom]
  rfl

/-- **Another client's session is refused** before anything is touched. -/
theorem openSession_of_other (h : kv.sessions.lookup sid = some session)
    (howner : session.clientId ≠ clientId) :
    kv.openSession now fresh clientId (some sid) =
      (kv, .error (.authFailed "session does not belong to this client")) := by
  simp only [openSession, h, if_neg howner]

/-! ### The table over whole runs -/

/-- The calls that change a table of sessions. -/
inductive Call
  | openSession (now : ℤ) (fresh : Uuid) (clientId : String) (sessionId : Option Uuid)
  | endSession (sid : Uuid)
  | cleanupExpired (now maxIdleSeconds : ℤ)

/-- What a call makes of the table. -/
def call (kv : KvCacheManager) : Call → KvCacheManager
  | .openSession now fresh clientId sessionId => (kv.openSession now fresh clientId sessionId).1
  | .endSession sid => kv.endSession sid
  | .cleanupExpired now maxIdleSeconds => (kv.cleanupExpired now maxIdleSeconds).1

/-- A new identifier is not one the table already holds, as a random one is not. -/
def Call.FreshIn (kv : KvCacheManager) : Call → Prop
  | .openSession _ fresh _ none => kv.sessions.lookup fresh = none
  | _ => True

/-- **Both ceilings**, which are those the manager was made with. -/
structure WithinBounds (maxSessions maxSessionsPerClient : ℕ) (kv : KvCacheManager) : Prop where
  maxSessions_eq : kv.maxSessions = maxSessions
  maxSessionsPerClient_eq : kv.maxSessionsPerClient = maxSessionsPerClient
  sessionCount_le : kv.sessionCount ≤ maxSessions
  activeSessionsForClient_le : ∀ clientId,
    kv.activeSessionsForClient clientId ≤ maxSessionsPerClient

variable {maxSessions maxSessionsPerClient : ℕ}

theorem withinBounds_withClientLimit (zeroOnEnd : Bool) (maxSessions maxSessionsPerClient : ℕ) :
    WithinBounds maxSessions (max maxSessionsPerClient 1)
      (withClientLimit zeroOnEnd maxSessions maxSessionsPerClient) :=
  ⟨rfl, rfl, Nat.zero_le _, fun _ ↦ Nat.zero_le _⟩

/-- A table in which no client has more sessions stays within its bounds. -/
theorem WithinBounds.of_count_le {sessions : AList fun _ : Uuid ↦ ClientSession}
    (h : WithinBounds maxSessions maxSessionsPerClient kv)
    (hcount : ∀ q : String → Bool,
      (sessions.count fun s ↦ q s.clientId) ≤ kv.sessions.count fun s ↦ q s.clientId) :
    WithinBounds maxSessions maxSessionsPerClient { kv with sessions := sessions } where
  maxSessions_eq := h.maxSessions_eq
  maxSessionsPerClient_eq := h.maxSessionsPerClient_eq
  sessionCount_le := by
    have hle := h.sessionCount_le
    rw [sessionCount, AList.length_entries_eq_count] at hle ⊢
    exact (hcount fun _ ↦ true).trans hle
  activeSessionsForClient_le := fun clientId ↦
    (hcount fun owner ↦ decide (owner = clientId)).trans (h.activeSessionsForClient_le clientId)

theorem WithinBounds.insert_firstTurn (h : WithinBounds maxSessions maxSessionsPerClient kv)
    (hroom : kv.HasRoom clientId) :
    WithinBounds maxSessions maxSessionsPerClient
      { kv with sessions := kv.sessions.insert sid (firstTurn now clientId) } where
  maxSessions_eq := h.maxSessions_eq
  maxSessionsPerClient_eq := h.maxSessionsPerClient_eq
  sessionCount_le := by
    have hlt := hroom.1
    rw [h.maxSessions_eq, sessionCount, AList.length_entries_eq_count] at hlt
    rw [sessionCount, AList.length_entries_eq_count]
    -- one more entry, or none where the identifier was there
    exact AList.count_insert_le.trans hlt
  activeSessionsForClient_le := fun other ↦ by
    refine AList.count_insert_le.trans ?_
    by_cases hother : clientId = other
    · subst hother
      have hlt := hroom.2
      rw [h.maxSessionsPerClient_eq] at hlt
      rw [if_pos (by simp [firstTurn])]
      exact hlt
    · rw [if_neg (by simp [firstTurn, hother])]
      exact h.activeSessionsForClient_le other

/-- **One call keeps both ceilings.** -/
theorem WithinBounds.call (h : WithinBounds maxSessions maxSessionsPerClient kv) (a : Call) :
    WithinBounds maxSessions maxSessionsPerClient (kv.call a) := by
  rcases a with ⟨now, fresh, clientId, sessionId⟩ | sid | ⟨now, maxIdleSeconds⟩
  · rcases hopen : kv.openSession now fresh clientId sessionId with ⟨kv', result⟩
    rw [KvCacheManager.call, hopen]
    rcases openSession_cases hopen with ⟨e, -, rfl⟩ | ⟨sid, session, -, hlookup, -, -, rfl⟩ |
      ⟨sid, -, hroom, -, rfl⟩
    · exact h
    · -- a turn does not change whose session it is
      refine h.of_count_le fun q ↦ ?_
      have hturn : q (nextTurn now session).clientId = q session.clientId := rfl
      exact (AList.count_insert_of_lookup_eq_some (p := fun s ↦ q s.clientId) hlookup hturn).le
    · exact h.insert_firstTurn hroom
  · exact h.of_count_le fun q ↦ AList.count_erase_le
  · exact h.of_count_le fun q ↦ AList.count_eraseAll_le _ _

/-- **One call keeps the owner** of a session that stays in the table. -/
theorem clientId_call {session' : ClientSession} {a : Call} (hfresh : a.FreshIn kv)
    (h : kv.sessions.lookup sid = some session)
    (h' : (kv.call a).sessions.lookup sid = some session') :
    session'.clientId = session.clientId := by
  rcases a with ⟨now, fresh, clientId, sessionId⟩ | other | ⟨now, maxIdleSeconds⟩
  · rcases hopen : kv.openSession now fresh clientId sessionId with ⟨kv', result⟩
    rw [KvCacheManager.call, hopen] at h'
    rcases openSession_cases hopen with ⟨e, -, rfl⟩ | ⟨sid', found, -, hfound, -, -, rfl⟩ |
      ⟨sid', hnew, -, -, rfl⟩
    · obtain rfl := Option.some.inj (h.symm.trans h')
      rfl
    · by_cases hsid : sid = sid'
      · subst hsid
        obtain rfl := Option.some.inj (h.symm.trans hfound)
        obtain rfl := Option.some.inj ((AList.lookup_insert _).symm.trans h')
        rfl
      · obtain rfl := Option.some.inj (h.symm.trans ((AList.lookup_insert_ne hsid).symm.trans h'))
        rfl
    · -- the new session is under an identifier that the table did not hold, so it is another one
      have hunknown : kv.sessions.lookup sid' = none := by
        rcases hnew with ⟨-, hnone⟩ | ⟨rfl, rfl⟩
        · exact hnone
        · exact hfresh
      have hsid : sid ≠ sid' := by
        rintro rfl
        rw [h] at hunknown
        simp at hunknown
      obtain rfl := Option.some.inj (h.symm.trans ((AList.lookup_insert_ne hsid).symm.trans h'))
      rfl
  · obtain rfl := Option.some.inj (h.symm.trans (AList.lookup_of_lookup_erase h'))
    rfl
  · obtain rfl := Option.some.inj (h.symm.trans (AList.lookup_of_lookup_eraseAll h'))
    rfl

/-- A run in which the session is never removed. -/
def KeepsSession (sid : Uuid) (kv : KvCacheManager) (a : Call) : Prop :=
  a.FreshIn kv ∧ (kv.call a).sessions.lookup sid ≠ none

/-- The owner of a session is the same as long as the session is in the table. -/
theorem clientId_of_keepsSession (h : kv.sessions.lookup sid = some session)
    (hrun : Reachable call (KeepsSession sid) kv kv') :
    ∃ session', kv'.sessions.lookup sid = some session' ∧
      session'.clientId = session.clientId := by
  refine hrun.invariant (fun kv' ↦ ∃ session', kv'.sessions.lookup sid = some session' ∧
    session'.clientId = session.clientId) ⟨session, h, rfl⟩ ?_
  rintro kv₁ a - ⟨hfresh, hkept⟩ ⟨session₁, h₁, howner⟩
  obtain ⟨session₂, h₂⟩ := Option.ne_none_iff_exists'.1 hkept
  exact ⟨session₂, h₂, (clientId_call hfresh h₁ h₂).trans howner⟩

end KvCacheManager

/-- **The session table's bounds and ownership.** After any calls at all, both ceilings hold, a
session keeps its owner until it is removed, another client's session is refused, and a refused
opening leaves the table exactly as it was. -/
theorem session_table_bounds (zeroOnEnd : Bool) (maxSessions maxSessionsPerClient : ℕ)
    (kv : KvCacheManager)
    (hrun : Reachable KvCacheManager.call (fun _ _ ↦ True)
      (.withClientLimit zeroOnEnd maxSessions maxSessionsPerClient) kv) :
    kv.sessionCount ≤ maxSessions ∧
    (∀ clientId, kv.activeSessionsForClient clientId ≤ max maxSessionsPerClient 1) ∧
    (∀ sid session kv', kv.sessions.lookup sid = some session →
      Reachable KvCacheManager.call (KvCacheManager.KeepsSession sid) kv kv' →
      ∃ session', kv'.sessions.lookup sid = some session' ∧
        session'.clientId = session.clientId) ∧
    (∀ now fresh clientId sid session, kv.sessions.lookup sid = some session →
      session.clientId ≠ clientId →
      kv.openSession now fresh clientId (some sid) =
        (kv, .error (.authFailed "session does not belong to this client"))) ∧
    ∀ now fresh clientId sessionId e,
      (kv.openSession now fresh clientId sessionId).2 = .error e →
      (kv.openSession now fresh clientId sessionId).1 = kv := by
  have hbounds : kv.WithinBounds maxSessions (max maxSessionsPerClient 1) :=
    hrun.invariant _ (KvCacheManager.withinBounds_withClientLimit _ _ _)
      fun kv a _ _ h ↦ h.call a
  refine ⟨hbounds.sessionCount_le, hbounds.activeSessionsForClient_le,
    fun sid session kv' h ↦ KvCacheManager.clientId_of_keepsSession h,
    fun now fresh clientId sid session h ↦ KvCacheManager.openSession_of_other h, ?_⟩
  intro now fresh clientId sessionId e herror
  rcases hopen : kv.openSession now fresh clientId sessionId with ⟨kv', result⟩
  rw [hopen] at herror
  rcases KvCacheManager.openSession_cases hopen with ⟨-, -, rfl⟩ | ⟨sid, session, -, -, -, rfl, -⟩ |
    ⟨sid, -, -, rfl, -⟩
  · rfl
  · simp at herror
  · simp at herror

/-- The session that the samples below are about. -/
def sampleSession : Uuid :=
  ⟨0x7d4f⟩

/-- A table of three sessions, at most two for each client, after four calls. Alice's third session
is refused, and bob's first fills the table. -/
def sampleTable : KvCacheManager :=
  ((((KvCacheManager.withClientLimit true 3 2).call
    (.openSession 0 ⟨1⟩ "alice" (some sampleSession))).call
    (.openSession 1 ⟨2⟩ "alice" none)).call
    (.openSession 2 ⟨3⟩ "alice" none)).call
    (.openSession 3 ⟨4⟩ "bob" none)

/-- Both ceilings are reached, carol's session is refused, and so is bob's use of one of alice's. -/
theorem session_table_bounds_sample :
    (sampleTable.sessionCount = 3 ∧ sampleTable.sessionCount ≤ 3) ∧
    (sampleTable.activeSessionsForClient "alice" = 2 ∧
      sampleTable.activeSessionsForClient "alice" ≤ max 2 1) ∧
    ((sampleTable.openSession 4 ⟨5⟩ "carol" none).2 = .error (.overloaded 3) ∧
      (sampleTable.openSession 4 ⟨5⟩ "carol" none).1 = sampleTable) ∧
    sampleTable.openSession 4 ⟨5⟩ "bob" (some sampleSession) =
      (sampleTable, .error (.authFailed "session does not belong to this client")) := by
  obtain ⟨htable, hclient, -, hother, hrefused⟩ := session_table_bounds true 3 2 sampleTable
    (.next _ (.next _ (.next _ (.next _ .start trivial) trivial) trivial) trivial)
  have hfull : (sampleTable.openSession 4 ⟨5⟩ "carol" none).2 = .error (.overloaded 3) := by decide
  refine ⟨⟨by decide, htable⟩, ⟨by decide, hclient "alice"⟩, ⟨hfull, hrefused _ _ _ _ _ hfull⟩, ?_⟩
  exact hother 4 ⟨5⟩ "bob" sampleSession ⟨"alice", 0, 0, 1⟩ (by decide) (by decide)

/-! ### Leases -/

/-- A held concurrency slot plus the session it belongs to. The client is the one it was granted to,
which the source does not keep. -/
structure InferenceLease where
  sessionId : Uuid
  endOnDrop : Bool
  clientId : String
  deriving DecidableEq

/-- Admission control and session tracking around a backend. -/
structure InferenceEngine where
  kvCache : KvCacheManager
  /-- Free concurrency slots. -/
  slots : ℕ
  maxConcurrent : ℕ

namespace InferenceEngine

/-- Create an engine. -/
def new (maxConcurrent : ℕ) (zeroKvOnSessionEnd : Bool) (maxSessions : ℕ) : InferenceEngine where
  kvCache := .new zeroKvOnSessionEnd maxSessions
  slots := max maxConcurrent 1
  maxConcurrent := max maxConcurrent 1

/-- `InferenceEngine::admit`: acquire a concurrency slot and open the request's session. -/
def admitRequest (engine : InferenceEngine) (now : ℤ) (fresh : Uuid) (clientId : String)
    (sessionId : Option Uuid) : InferenceEngine × Except CordonError InferenceLease :=
  if engine.slots = 0 then (engine, .error (.overloaded engine.maxConcurrent))
  else
    match engine.kvCache.openSession now fresh clientId sessionId with
    -- a refusal gives the slot back
    | (kvCache, .error e) => ({ engine with kvCache }, .error e)
    | (kvCache, .ok sid) =>
      ({ engine with kvCache, slots := engine.slots - 1 },
        .ok ⟨sid, sessionId.isNone && kvCache.zeroOnEnd, clientId⟩)

end InferenceEngine

/-- An engine and the requests that are inside it. Each holds a slot: it has not opened its session
yet, or it holds a lease, or its lease is gone and the slot is about to be returned. -/
structure EngineState where
  engine : InferenceEngine
  admitting : ℕ
  leases : List InferenceLease
  dropping : ℕ

/-- The atomic steps of requests and of the idle sweep. -/
inductive EngineStep
  | acquireSlot
  | openSession (now : ℤ) (fresh : Uuid) (clientId : String) (sessionId : Option Uuid)
  | dropLease (i : ℕ)
  | releaseSlot
  | cleanupExpired (now maxIdleSeconds : ℤ)

namespace EngineState

/-- The second half of `InferenceEngine::admit`: open the session, holding a slot. -/
def openSession (s : EngineState) (now : ℤ) (fresh : Uuid) (clientId : String)
    (sessionId : Option Uuid) : EngineState :=
  match s.engine.kvCache.openSession now fresh clientId sessionId with
  | (kvCache, .error _) =>
    { s with
      engine := { s.engine with kvCache, slots := s.engine.slots + 1 }
      admitting := s.admitting - 1 }
  | (kvCache, .ok sid) =>
    { s with
      engine := { s.engine with kvCache }
      admitting := s.admitting - 1
      leases := ⟨sid, sessionId.isNone && kvCache.zeroOnEnd, clientId⟩ :: s.leases }

/-- The first half of dropping a lease: an ephemeral session ends with it. -/
def dropLease (s : EngineState) (i : ℕ) : EngineState :=
  match s.leases[i]? with
  | none => s
  | some lease =>
    -- the permit is a field of the lease and goes after its `drop` has run
    { s with
      engine := { s.engine with
        kvCache :=
          if lease.endOnDrop then s.engine.kvCache.endSession lease.sessionId
          else s.engine.kvCache }
      leases := s.leases.eraseIdx i
      dropping := s.dropping + 1 }

/-- One step. A step whose request is not where the step needs it does nothing. -/
def step (s : EngineState) : EngineStep → EngineState
  | .acquireSlot =>
    if s.engine.slots = 0 then s
    else
      { s with
        engine := { s.engine with slots := s.engine.slots - 1 }
        admitting := s.admitting + 1 }
  | .openSession now fresh clientId sessionId =>
    if s.admitting = 0 then s else s.openSession now fresh clientId sessionId
  | .dropLease i => s.dropLease i
  | .releaseSlot =>
    if s.dropping = 0 then s
    else
      { s with
        engine := { s.engine with slots := s.engine.slots + 1 }
        dropping := s.dropping - 1 }
  | .cleanupExpired now maxIdleSeconds =>
    -- the sweep asks when a session was last opened, not whether a lease is on it
    { s with
      engine := { s.engine with
        kvCache := (s.engine.kvCache.cleanupExpired now maxIdleSeconds).1 } }

/-- An engine that no request has entered. -/
def idle (engine : InferenceEngine) : EngineState :=
  ⟨engine, 0, [], 0⟩

variable {s s' : EngineState} {now : ℤ} {fresh sid : Uuid} {clientId : String}
  {sessionId : Option Uuid} {session : ClientSession}

/-- **`admitRequest` is the two halves in a row**, on an engine with a free slot. -/
theorem admitRequest_eq (hslots : s.engine.slots ≠ 0) :
    (s.engine.admitRequest now fresh clientId sessionId).1 =
        ((s.step .acquireSlot).step (.openSession now fresh clientId sessionId)).engine ∧
      ((s.step .acquireSlot).step (.openSession now fresh clientId sessionId)).leases =
        match (s.engine.admitRequest now fresh clientId sessionId).2 with
        | .ok lease => lease :: s.leases
        | .error _ => s.leases := by
  have hslot : s.engine.slots - 1 + 1 = s.engine.slots := Nat.succ_pred hslots
  rcases hopen : s.engine.kvCache.openSession now fresh clientId sessionId with ⟨kvCache, e | sid⟩
  · simp [InferenceEngine.admitRequest, step, openSession, hslots, hopen, hslot]
  · simp [InferenceEngine.admitRequest, step, openSession, hslots, hopen]

/-- **No slot is lost**: every one is free or held by a request inside the engine. -/
theorem slots_conserved (maxConcurrent : ℕ) (zeroKvOnSessionEnd : Bool) (maxSessions : ℕ)
    (h : Reachable step (fun _ _ ↦ True)
      (idle (.new maxConcurrent zeroKvOnSessionEnd maxSessions)) s) :
    s.engine.slots + s.admitting + s.leases.length + s.dropping = max maxConcurrent 1 := by
  refine h.invariant (fun s ↦ s.engine.slots + s.admitting + s.leases.length + s.dropping =
    max maxConcurrent 1) (by simp [idle, InferenceEngine.new]) ?_
  rintro s a - - hsum
  rw [← hsum]
  rcases a with - | ⟨now, fresh, clientId, sessionId⟩ | i | - | ⟨now, maxIdleSeconds⟩
  · rw [step]
    split
    · rfl
    · simp only
      omega
  · rw [step]
    split
    · rfl
    · rw [openSession]
      split
      · simp only
        omega
      · simp only [List.length_cons]
        omega
  · rw [step, dropLease]
    split
    · rfl
    · next lease hlease =>
      obtain ⟨hi, -⟩ := List.getElem?_eq_some_iff.1 hlease
      simp only [List.length_eraseIdx_of_lt hi]
      omega
  · rw [step]
    split
    · rfl
    · simp only
      omega
  · rfl

/-! ### Two clients on one session -/

/-- **Isolation**: two live leases on one session were granted to one client. -/
def LeasesIsolated (s : EngineState) : Prop :=
  ∀ l₁ ∈ s.leases, ∀ l₂ ∈ s.leases, l₁.sessionId = l₂.sessionId → l₁.clientId = l₂.clientId

/-- A new identifier is neither in the table nor bound to a lease, as a random one is not. -/
def FreshIn (s : EngineState) : EngineStep → Prop
  | .openSession _ fresh _ none =>
    s.engine.kvCache.sessions.lookup fresh = none ∧ ∀ l ∈ s.leases, l.sessionId ≠ fresh
  | _ => True

/-- **An unknown identifier that the client claims is not leased to another.** Only a request that
holds a slot and that both ceilings let pass claims anything. -/
def ClaimsUnleased (s : EngineState) : EngineStep → Prop
  | .openSession _ _ clientId (some sid) =>
    s.admitting ≠ 0 → s.engine.kvCache.HasRoom clientId →
      s.engine.kvCache.sessions.lookup sid = none →
      ∀ l ∈ s.leases, l.sessionId = sid → l.clientId = clientId
  | _ => True

/-- Isolation, and the table does not contradict it: whoever owns a session that is in the table
owns the leases on it. -/
structure Owned (s : EngineState) : Prop where
  isolated : s.LeasesIsolated
  owner : ∀ l ∈ s.leases, ∀ session,
    s.engine.kvCache.sessions.lookup l.sessionId = some session → session.clientId = l.clientId

/-- Leases and sessions that go away take nothing from it. -/
theorem Owned.mono (h : s.Owned) (hleases : s'.leases ⊆ s.leases)
    (hsessions : ∀ sid session, s'.engine.kvCache.sessions.lookup sid = some session →
      s.engine.kvCache.sessions.lookup sid = some session) : s'.Owned where
  isolated := fun l₁ h₁ l₂ h₂ ↦ h.isolated l₁ (hleases h₁) l₂ (hleases h₂)
  owner := fun l hl session hlookup ↦ h.owner l (hleases hl) session (hsessions _ _ hlookup)

/-- A new lease on a session that no lease of another client is bound to. -/
theorem Owned.cons (h : s.Owned) {lease : InferenceLease} (hleases : s'.leases = lease :: s.leases)
    (hlease : session.clientId = lease.clientId)
    (hsessions : s'.engine.kvCache.sessions =
      s.engine.kvCache.sessions.insert lease.sessionId session)
    (hown : ∀ l ∈ s.leases, l.sessionId = lease.sessionId → l.clientId = lease.clientId) :
    s'.Owned where
  isolated := by
    intro l₁ h₁ l₂ h₂ hsame
    rw [hleases] at h₁ h₂
    rcases List.mem_cons.1 h₁ with rfl | hold₁
    · rcases List.mem_cons.1 h₂ with rfl | hold₂
      · rfl
      · exact (hown l₂ hold₂ hsame.symm).symm
    · rcases List.mem_cons.1 h₂ with rfl | hold₂
      · exact hown l₁ hold₁ hsame
      · exact h.isolated l₁ hold₁ l₂ hold₂ hsame
  owner := by
    intro l hl found hfound
    have hclient : l.sessionId = lease.sessionId → l.clientId = lease.clientId := by
      intro hsame
      rw [hleases] at hl
      rcases List.mem_cons.1 hl with rfl | hl
      · rfl
      · exact hown l hl hsame
    rw [hsessions] at hfound
    by_cases hsame : l.sessionId = lease.sessionId
    · rw [hsame, AList.lookup_insert] at hfound
      obtain rfl := Option.some.inj hfound
      exact hlease.trans (hclient hsame).symm
    · rw [AList.lookup_insert_ne hsame] at hfound
      rw [hleases] at hl
      exact h.owner l ((List.mem_cons.1 hl).resolve_left fun heq ↦ hsame (heq ▸ rfl)) found hfound

/-- The session that an opening binds its lease to is no other client's. -/
theorem Owned.openSession (h : s.Owned)
    (hfresh : s.FreshIn (.openSession now fresh clientId sessionId))
    (hclaims : s.ClaimsUnleased (.openSession now fresh clientId sessionId))
    (hadmitting : s.admitting ≠ 0) : (s.openSession now fresh clientId sessionId).Owned := by
  rcases hopen : s.engine.kvCache.openSession now fresh clientId sessionId with ⟨kvCache, result⟩
  rw [EngineState.openSession, hopen]
  rcases KvCacheManager.openSession_cases hopen with ⟨e, rfl, rfl⟩ |
    ⟨sid, session, rfl, hlookup, howner, rfl, rfl⟩ | ⟨sid, hnew, hroom, rfl, rfl⟩
  · exact h.mono (List.Subset.refl _) fun _ _ hlookup ↦ hlookup
  · -- resumed: the table says whose leases these are
    have hturn : (KvCacheManager.nextTurn now session).clientId = clientId := howner
    refine h.cons rfl hturn rfl ?_
    rintro l hl rfl
    exact (h.owner l hl session hlookup).symm.trans howner
  · -- claimed: the table says nothing about the leases on this identifier
    refine h.cons rfl rfl rfl ?_
    rcases hnew with ⟨rfl, hunknown⟩ | ⟨rfl, rfl⟩
    · exact hclaims hadmitting hroom hunknown
    · intro l hl hsame
      exact absurd hsame (hfresh.2 l hl)

/-- **One step keeps the leases apart**, if what it claims is not leased. -/
theorem Owned.step (h : s.Owned) {a : EngineStep} (hfresh : s.FreshIn a)
    (hclaims : s.ClaimsUnleased a) : (s.step a).Owned := by
  rcases a with - | ⟨now, fresh, clientId, sessionId⟩ | i | - | ⟨now, maxIdleSeconds⟩
  · rw [EngineState.step]
    split
    · exact h
    · exact h.mono (List.Subset.refl _) fun _ _ hlookup ↦ hlookup
  · rw [EngineState.step]
    split
    · exact h
    · next hadmitting => exact h.openSession hfresh hclaims hadmitting
  · rw [EngineState.step, dropLease]
    split
    · exact h
    · refine h.mono (List.eraseIdx_sublist _ _).subset fun sid session hlookup ↦ ?_
      simp only at hlookup
      split at hlookup
      · exact AList.lookup_of_lookup_erase hlookup
      · exact hlookup
  · rw [EngineState.step]
    split
    · exact h
    · exact h.mono (List.Subset.refl _) fun _ _ hlookup ↦ hlookup
  · exact h.mono (List.Subset.refl _) fun _ _ hlookup ↦ AList.lookup_of_lookup_eraseAll hlookup

/-- **A claim of a leased identifier breaks isolation at once.** -/
theorem not_leasesIsolated_step {a : EngineStep} (h : ¬s.ClaimsUnleased a) :
    ¬(s.step a).LeasesIsolated := by
  rcases a with - | ⟨now, fresh, clientId, - | sid⟩ | i | - | ⟨now, maxIdleSeconds⟩
  · exact absurd trivial h
  · exact absurd trivial h
  · simp only [ClaimsUnleased, not_forall] at h
    obtain ⟨hadmitting, hroom, hunknown, l, hl, hsame, hother⟩ := h
    intro hisolated
    rw [step, if_neg hadmitting, openSession,
      KvCacheManager.openSession_of_unknown hroom hunknown] at hisolated
    -- the old lease beside the one just granted
    exact hother (hisolated l (List.mem_cons_of_mem _ hl) _ List.mem_cons_self hsame)
  · exact absurd trivial h
  · exact absurd trivial h
  · exact absurd trivial h

theorem owned_idle (engine : InferenceEngine) : (idle engine).Owned :=
  ⟨fun _ hl ↦ absurd hl List.not_mem_nil, fun _ hl ↦ absurd hl List.not_mem_nil⟩

end EngineState

/-- **When leases are isolated.** In a run whose new identifiers are new, the live leases on one
session belong to one client at every point **exactly if** no client ever claims an identifier that
the table no longer holds and that a live lease of another client is still bound to. -/
theorem leases_isolated_iff_claims_unleased (maxConcurrent : ℕ) (zeroKvOnSessionEnd : Bool)
    (maxSessions : ℕ) (run : List EngineStep)
    (hfresh : AllSteps EngineState.step EngineState.FreshIn
      (.idle (.new maxConcurrent zeroKvOnSessionEnd maxSessions)) run) :
    Always EngineState.step EngineState.LeasesIsolated
        (.idle (.new maxConcurrent zeroKvOnSessionEnd maxSessions)) run ↔
      AllSteps EngineState.step EngineState.ClaimsUnleased
        (.idle (.new maxConcurrent zeroKvOnSessionEnd maxSessions)) run :=
  always_iff_allSteps EngineState.Owned (fun _ h ↦ h.isolated)
    (fun _ _ h ↦ h.step) (fun _ _ _ _ ↦ EngineState.not_leasesIsolated_step)
    (EngineState.owned_idle _) hfresh

namespace EngineState

variable {s : EngineState}

/-! ### Where the owner is forgotten -/

/-- **No session leaves the table under a lease**, the one that is being dropped apart. -/
def RemovesUnleased (s : EngineState) : EngineStep → Prop
  | .dropLease i => ∀ lease, s.leases[i]? = some lease → lease.endOnDrop = true →
      ∀ l ∈ s.leases.eraseIdx i, l.sessionId ≠ lease.sessionId
  | .cleanupExpired now maxIdleSeconds =>
    ∀ l ∈ s.leases, l.sessionId ∉ s.engine.kvCache.expired now maxIdleSeconds
  | _ => True

/-- Every lease is on a session that the table holds. -/
def LeasesInTable (s : EngineState) : Prop :=
  ∀ l ∈ s.leases, s.engine.kvCache.sessions.lookup l.sessionId ≠ none

theorem LeasesInTable.openSession (h : s.LeasesInTable) (now : ℤ) (fresh : Uuid)
    (clientId : String) (sessionId : Option Uuid) :
    (s.openSession now fresh clientId sessionId).LeasesInTable := by
  -- an opening puts the session of its lease in, and takes none out
  have hinsert : ∀ (sid : Uuid) (session : ClientSession) (other : Uuid),
      s.engine.kvCache.sessions.lookup other ≠ none ∨ other = sid →
        (s.engine.kvCache.sessions.insert sid session).lookup other ≠ none := by
    intro sid session other hother
    by_cases hsame : other = sid
    · rw [hsame, AList.lookup_insert]
      simp
    · rw [AList.lookup_insert_ne hsame]
      exact hother.resolve_right hsame
  rcases hopen : s.engine.kvCache.openSession now fresh clientId sessionId with ⟨kvCache, result⟩
  rw [EngineState.openSession, hopen]
  rcases KvCacheManager.openSession_cases hopen with ⟨e, rfl, rfl⟩ |
    ⟨sid, session, rfl, -, -, rfl, rfl⟩ | ⟨sid, -, -, rfl, rfl⟩
  · exact h
  · intro l hl
    exact hinsert _ _ _ ((List.mem_cons.1 hl).symm.imp (h l) (congrArg InferenceLease.sessionId))
  · intro l hl
    exact hinsert _ _ _ ((List.mem_cons.1 hl).symm.imp (h l) (congrArg InferenceLease.sessionId))

theorem LeasesInTable.step (h : s.LeasesInTable) {a : EngineStep} (hremoves : s.RemovesUnleased a) :
    (s.step a).LeasesInTable := by
  rcases a with - | ⟨now, fresh, clientId, sessionId⟩ | i | - | ⟨now, maxIdleSeconds⟩
  · rw [EngineState.step]
    split
    · exact h
    · exact h
  · rw [EngineState.step]
    split
    · exact h
    · exact h.openSession _ _ _ _
  · rw [EngineState.step, dropLease]
    split
    · exact h
    · next lease hlease =>
      intro l hl
      have hl' : l ∈ s.leases := (List.eraseIdx_sublist _ _).subset hl
      simp only
      split
      · next hend =>
        rw [KvCacheManager.endSession, AList.lookup_erase_ne (hremoves lease hlease hend l hl)]
        exact h l hl'
      · exact h l hl'
  · rw [EngineState.step]
    split
    · exact h
    · exact h
  · intro l hl
    show (s.engine.kvCache.sessions.eraseAll _).lookup l.sessionId ≠ none
    rw [AList.lookup_eraseAll_of_notMem (hremoves l hl)]
    exact h l hl

/-- **Removal under a lease is the only cause**: where none happens, what a client claims is never
leased to another. -/
theorem claimsUnleased_of_removesUnleased (engine : InferenceEngine) {run : List EngineStep}
    (h : AllSteps step RemovesUnleased (idle engine) run) :
    AllSteps step ClaimsUnleased (idle engine) run := by
  refine AllSteps.of_invariant LeasesInTable (fun s a hs ↦ hs.step) ?_
    (fun _ hl ↦ absurd hl List.not_mem_nil) h
  intro s a hs _
  rcases a with - | ⟨now, fresh, clientId, - | sid⟩ | i | - | ⟨now, maxIdleSeconds⟩
  · trivial
  · trivial
  · rintro - - hunknown l hl rfl
    exact absurd hunknown (hs l hl)
  · trivial
  · trivial
  · trivial

end EngineState

/-! ### A session that outlives its place in the table -/

/-- An engine with two slots. -/
def sampleEngine : EngineState :=
  .idle (.new 2 true 2048)

/-- Two requests, the first of which names a session and the second of which names the same one,
`gap` nanoseconds later, right after an idle sweep of fifteen minutes. -/
def sweptRun (gap : ℤ) (second : String) : List EngineStep :=
  [.acquireSlot, .acquireSlot, .openSession 0 ⟨1⟩ "alice" (some sampleSession),
    .cleanupExpired gap 900, .openSession gap ⟨2⟩ second (some sampleSession)]

/-- Alice keeps her session through a sweep, and names it again. -/
theorem leases_isolated_iff_claims_unleased_sample :
    AllSteps EngineState.step EngineState.ClaimsUnleased sampleEngine (sweptRun 1 "alice") ∧
      Always EngineState.step EngineState.LeasesIsolated sampleEngine (sweptRun 1 "alice") := by
  have hclaims : AllSteps EngineState.step EngineState.ClaimsUnleased sampleEngine
      (sweptRun 1 "alice") := by
    refine ⟨trivial, trivial, fun _ _ _ l hl ↦ ?_, trivial, fun _ _ hunknown ↦ ?_, trivial⟩
    · exact absurd hl List.not_mem_nil
    · exact absurd hunknown (by decide)
  refine ⟨hclaims, (leases_isolated_iff_claims_unleased 2 true 2048 _ ?_).2 hclaims⟩
  exact ⟨trivial, trivial, trivial, trivial, trivial, trivial⟩

/-- **Bob takes over a session that alice's request is still bound to.** Her request has run for
fifteen minutes, the sweep has dropped its session, and he names the identifier. -/
theorem swept_session_is_shared :
    ¬∀ (maxConcurrent : ℕ) (zeroKvOnSessionEnd : Bool) (maxSessions : ℕ) (run : List EngineStep),
      AllSteps EngineState.step EngineState.FreshIn
        (.idle (.new maxConcurrent zeroKvOnSessionEnd maxSessions)) run →
      Always EngineState.step EngineState.LeasesIsolated
        (.idle (.new maxConcurrent zeroKvOnSessionEnd maxSessions)) run := by
  intro hall
  have hisolated := hall 2 true 2048 (sweptRun 900000000000 "bob")
    ⟨trivial, trivial, trivial, trivial, trivial, trivial⟩
  obtain ⟨-, -, -, -, -, hlast⟩ := hisolated
  exact absurd (hlast ⟨sampleSession, false, "alice"⟩ (by decide) ⟨sampleSession, false, "bob"⟩
    (by decide) rfl) (by decide)

end Cordon
