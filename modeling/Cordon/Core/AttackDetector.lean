import Cordon.Core.Requests
import Cordon.Lib.Transition

/-!
# The attack detector and the room it takes

The detector counts events under keys that callers choose: peer fingerprints, client identifiers,
digests of prompts. Four of its maps are `BoundedCounters`, which evict what has lapsed before they
take a new key and refuse the key if nothing has. **Three are not**: the covert channel detections,
the suspended clients and the blocked sources are plain maps, which take every key they are given
and lose one only when its time is up.

So the bound on every map, which `DetectorState.Bounded` states with the bound on every counter,
holds along a run exactly as long as no call brings a new key to one of the three while that map is
at the bound (`DetectorState.Admissible`).

Every call reads the clock several times under one lock; the readings are taken as one.

One direction is an invariant. A bounded map keeps its bounds whatever it is given
(`Within.record`), and a plain one keeps them as long as no new key comes at the bound; a call
brings at most one. The other is that a new key at the bound takes the map past it at once, so the
first call that is not admissible is where the bound is lost.
-/

namespace Cordon

open Transition

/-- Most distinct keys any one detector map will hold. -/
def maxTrackedKeys : ℕ := 16384

/-- How often a full map is swept, in seconds. -/
def sweepIntervalSeconds : ℤ := 1

/-- What callbacks are told. -/
inductive AttackPattern
  | authFailureFlood (source : String) (count : ℕ)
  | globalAuthFailureFlood (count : ℕ)
  | invalidModelProbe (clientId : String) (count : ℕ)
  | replayProbe (clientId inputHash : String) (count : ℕ)
  | covertChannelSuspected (clientId : String) (count : ℕ) (maxScore : F32)
  | sessionFlood (clientId : String) (sessionsPerMinute : ℕ)
  | enclaveExceptionFlood (exceptionsPerMinute : ℕ)
  deriving DecidableEq, Repr

/-- The thresholds the detector is configured with. -/
structure AttackDetectorConfig where
  authFailureThresholdPerMinute : ℕ
  globalFailureThresholdPerMinute : ℕ
  replayProbeThreshold : ℕ

/-! ### Counters -/

/-- The counter without what has lapsed, unless that is everything. -/
def WindowCounter.retained (now : ℤ) (counter : WindowCounter) : Option WindowCounter :=
  if (counter.prune now).events.isEmpty then none else some (counter.prune now)

/-- A capacity-bounded map of sliding-window counters. -/
structure BoundedCounters (K : Type) where
  counters : AList fun _ : K ↦ WindowCounter
  windowSeconds : ℤ
  lastSweep : ℤ

namespace BoundedCounters

variable {K : Type}

def new (now windowSeconds : ℤ) : BoundedCounters K :=
  ⟨∅, windowSeconds, now⟩

def len (b : BoundedCounters K) : ℕ :=
  b.counters.entries.length

/-- Drop every counter whose window has lapsed. -/
def pruneLapsed (b : BoundedCounters K) (now : ℤ) : BoundedCounters K :=
  { b with counters := b.counters.filterMapValues (WindowCounter.retained now), lastSweep := now }

/-- Sweep, but no more than once in an interval. -/
def sweepIfDue (b : BoundedCounters K) (now : ℤ) : BoundedCounters K :=
  if (now - b.lastSweep).tdiv 1000000000 < sweepIntervalSeconds then b else b.pruneLapsed now

variable [DecidableEq K]

/-- Count one event under a key, which is added if it is new. -/
def admitKey (b : BoundedCounters K) (now : ℤ) (key : K) : BoundedCounters K × Option ℕ :=
  let counter := ((b.counters.lookup key).getD (.new b.windowSeconds)).increment now
  ({ b with counters := b.counters.insert key counter }, some counter.total)

/-- Count one event under a key, and return the total inside the window. A key that is new to a map
full of live entries is not tracked. -/
def record (b : BoundedCounters K) (now : ℤ) (key : K) : BoundedCounters K × Option ℕ :=
  if (b.counters.lookup key).isNone ∧ maxTrackedKeys ≤ b.len then
    let b := b.sweepIfDue now
    if maxTrackedKeys ≤ b.len then (b, none) else b.admitKey now key
  else b.admitKey now key

end BoundedCounters

/-! ### The detector -/

/-- Inner state of the detector. -/
structure DetectorState extends AttackDetector where
  /-- Authentication failures of each source. -/
  authFailures : BoundedCounters String
  globalAuthFailures : WindowCounter
  /-- Requests for unknown models, of each client. -/
  invalidModelProbes : BoundedCounters String
  /-- How often each client has sent each prompt. -/
  replayProbes : BoundedCounters (String × String)
  /-- Covert channel detections of each client, with the highest score. -/
  covertChannelEvents : StringMap (WindowCounter × F32)
  /-- Sessions created and torn down by each client. -/
  sessionEvents : BoundedCounters String
  enclaveExceptions : WindowCounter

namespace DetectorState

/-- `DetectorState::new`. -/
def new (now : ℤ) : DetectorState where
  suspendedClients := ∅
  blockedIps := ∅
  authFailures := .new now 60
  globalAuthFailures := .new 60
  invalidModelProbes := .new now 300
  replayProbes := .new now 3600
  covertChannelEvents := ∅
  sessionEvents := .new now 60
  enclaveExceptions := .new 60

variable (config : AttackDetectorConfig) (S : ScoreEngine)

/-- Record an authentication failure, and block a source that has too many. -/
def recordAuthFailure (s : DetectorState) (now : ℤ) (source : String) :
    DetectorState × List AttackPattern :=
  let (authFailures, recorded) := s.authFailures.record now source
  let count := recorded.getD 0
  let globalAuthFailures := s.globalAuthFailures.increment now
  let s := { s with authFailures, globalAuthFailures }
  if 0 < count ∧ config.authFailureThresholdPerMinute ≤ count then
    ({ s with blockedIps := s.blockedIps.insert source (now + 3600 * 1000000000) },
      [.authFailureFlood source count])
  else if config.globalFailureThresholdPerMinute ≤ globalAuthFailures.total then
    (s, [.globalAuthFailureFlood globalAuthFailures.total])
  else (s, [])

/-- Record a request for an unknown model, and suspend a client at the fifth. -/
def recordInvalidModel (s : DetectorState) (now : ℤ) (clientId : String) :
    DetectorState × List AttackPattern :=
  match s.invalidModelProbes.record now clientId with
  | (invalidModelProbes, none) => ({ s with invalidModelProbes }, [])
  | (invalidModelProbes, some count) =>
    let s := { s with invalidModelProbes }
    if 5 ≤ count then
      ({ s with
          suspendedClients := s.suspendedClients.insert clientId
            (now + 3600 * 1000000000, "Invalid model probe: " ++ toString count ++ " attempts") },
        [.invalidModelProbe clientId count])
    else (s, [])

/-- Record a prompt by its digest; the caller is told to limit one that comes too often. -/
def recordInputHash (s : DetectorState) (now : ℤ) (clientId inputHash : String) :
    DetectorState × List AttackPattern × Bool :=
  match s.replayProbes.record now (clientId, inputHash) with
  | (replayProbes, none) => ({ s with replayProbes }, [], false)
  | (replayProbes, some count) =>
    let s := { s with replayProbes }
    if config.replayProbeThreshold ≤ count then
      (s, [.replayProbe clientId inputHash count], true)
    else (s, [], false)

/-- A client's covert channel counter with one more detection. -/
def covertEntry (s : DetectorState) (now : ℤ) (clientId : String) (score : F32) :
    WindowCounter × F32 :=
  let (counter, highest) := (s.covertChannelEvents.lookup clientId).getD (.new 3600, F32.zero)
  ((counter.increment now).prune now, S.maxScore highest score)

/-- Record a covert channel score, and suspend the client at the third high one within an hour. -/
def recordCovertChannelScore (s : DetectorState) (now : ℤ) (clientId : String) (score : F32) :
    DetectorState × List AttackPattern × Bool :=
  if S.isBelowThreshold score then (s, [], false)
  else
    let entry := s.covertEntry S now clientId score
    let s := { s with covertChannelEvents := s.covertChannelEvents.insert clientId entry }
    if 3 ≤ entry.1.total then
      ({ s with
          suspendedClients := s.suspendedClients.insert clientId
            (now + 3600 * 1000000000, S.suspension entry.2 entry.1.total) },
        [.covertChannelSuspected clientId entry.1.total entry.2], true)
    else (s, [], false)

/-- Record a session created or torn down. -/
def recordSessionEvent (s : DetectorState) (now : ℤ) (clientId : String) :
    DetectorState × List AttackPattern :=
  match s.sessionEvents.record now clientId with
  | (sessionEvents, none) => ({ s with sessionEvents }, [])
  | (sessionEvents, some count) =>
    ({ s with sessionEvents }, if 100 ≤ count then [.sessionFlood clientId count] else [])

/-- Record an enclave exception. Over the baseline of one in two minutes, three standard deviations
are passed by the third within a minute. -/
def recordEnclaveException (s : DetectorState) (now : ℤ) : DetectorState × List AttackPattern :=
  let enclaveExceptions := s.enclaveExceptions.increment now
  ({ s with enclaveExceptions },
    if 3 ≤ enclaveExceptions.total then [.enclaveExceptionFlood enclaveExceptions.total] else [])

/-- Prune every expired entry, in every map. -/
def cleanup (s : DetectorState) (now : ℤ) : DetectorState where
  blockedIps := s.blockedIps.filterMapValues fun expiry ↦ if now < expiry then some expiry else none
  suspendedClients := s.suspendedClients.filterMapValues fun entry ↦
    if now < entry.1 then some entry else none
  authFailures := s.authFailures.pruneLapsed now
  invalidModelProbes := s.invalidModelProbes.pruneLapsed now
  replayProbes := s.replayProbes.pruneLapsed now
  sessionEvents := s.sessionEvents.pruneLapsed now
  covertChannelEvents := s.covertChannelEvents.filterMapValues fun entry ↦
    (entry.1.retained now).map fun counter ↦ (counter, entry.2)
  globalAuthFailures := s.globalAuthFailures.prune now
  enclaveExceptions := s.enclaveExceptions.prune now

/-- A call of the detector. -/
inductive Call
  | recordAuthFailure (source : String)
  | recordInvalidModel (clientId : String)
  | recordInputHash (clientId inputHash : String)
  | recordCovertChannelScore (clientId : String) (score : F32)
  | recordSessionEvent (clientId : String)
  | recordEnclaveException
  | isIpBlocked (source : String)
  | isClientSuspended (clientId : String)
  | cleanup

/-- What a call at a time makes of the detector. -/
def call (s : DetectorState) : ℤ × Call → DetectorState
  | (now, .recordAuthFailure source) => (s.recordAuthFailure config now source).1
  | (now, .recordInvalidModel clientId) => (s.recordInvalidModel now clientId).1
  | (now, .recordInputHash clientId inputHash) =>
    (s.recordInputHash config now clientId inputHash).1
  | (now, .recordCovertChannelScore clientId score) =>
    (s.recordCovertChannelScore S now clientId score).1
  | (now, .recordSessionEvent clientId) => (s.recordSessionEvent now clientId).1
  | (now, .recordEnclaveException) => (s.recordEnclaveException now).1
  | (now, .isIpBlocked source) =>
    { s with toAttackDetector := (s.toAttackDetector.isIpBlocked now source).1 }
  | (now, .isClientSuspended clientId) =>
    { s with toAttackDetector := (s.toAttackDetector.isClientSuspended now clientId).1 }
  | (now, .cleanup) => s.cleanup now

end DetectorState

/-! ### What the counters hold -/

/-- A counter holds no more events than it may. -/
def WindowCounter.Capped (counter : WindowCounter) : Prop :=
  counter.events.length ≤ WindowCounter.maxEvents

namespace WindowCounter

variable {counter : WindowCounter}

theorem capped_new (windowSeconds : ℤ) : (new windowSeconds).Capped :=
  Nat.zero_le _

theorem Capped.prune (h : counter.Capped) (now : ℤ) : (counter.prune now).Capped := by
  rw [WindowCounter.prune]
  split
  · exact h
  · exact (List.dropWhile_suffix _).length_le.trans h

/-- A full counter takes no more events. -/
theorem Capped.increment (h : counter.Capped) (now : ℤ) : (counter.increment now).Capped := by
  have hpruned := h.prune now
  rw [WindowCounter.increment]
  split
  · exact hpruned
  · next hroom =>
    rw [Capped, List.length_append, List.length_singleton]
    omega

theorem Capped.retained (h : counter.Capped) {now : ℤ} {kept : WindowCounter}
    (hkept : counter.retained now = some kept) : kept.Capped := by
  rw [WindowCounter.retained] at hkept
  split at hkept
  · simp at hkept
  · obtain rfl := Option.some.inj hkept
    exact h.prune now

end WindowCounter

/-- A map of counters is within its bounds. -/
structure BoundedCounters.Within {K : Type} (b : BoundedCounters K) : Prop where
  keys : b.len ≤ maxTrackedKeys
  events : b.counters.AllValues WindowCounter.Capped

namespace BoundedCounters

variable {K : Type} {b : BoundedCounters K}

theorem within_new (now windowSeconds : ℤ) : (new now windowSeconds : BoundedCounters K).Within :=
  ⟨Nat.zero_le _, fun _ he ↦ absurd he List.not_mem_nil⟩

theorem Within.pruneLapsed (h : b.Within) (now : ℤ) : (b.pruneLapsed now).Within :=
  ⟨(AList.length_entries_filterMapValues_le _).trans h.keys,
    AList.AllValues.filterMapValues fun e he _ hkept ↦ (h.events e he).retained hkept⟩

theorem Within.sweepIfDue (h : b.Within) (now : ℤ) : (b.sweepIfDue now).Within := by
  rw [BoundedCounters.sweepIfDue]
  split
  · exact h
  · exact h.pruneLapsed now

variable [DecidableEq K]

theorem Within.admitKey (h : b.Within) (now : ℤ) {key : K}
    (hroom : (b.counters.lookup key).isSome ∨ b.len < maxTrackedKeys) :
    (b.admitKey now key).1.Within := by
  refine ⟨(AList.length_entries_insert_le_iff h.keys).2 hroom, h.events.insert ?_⟩
  refine WindowCounter.Capped.increment ?_ now
  rcases hfound : b.counters.lookup key with - | counter
  · exact WindowCounter.capped_new _
  · exact h.events.of_lookup hfound

/-- **A bounded map stays within its bounds**, whatever keys it is given. -/
theorem Within.record (h : b.Within) (now : ℤ) (key : K) : (b.record now key).1.Within := by
  rw [BoundedCounters.record]
  split
  · have hswept := h.sweepIfDue now
    simp only
    split
    · exact hswept
    · next hroom => exact hswept.admitKey now (Or.inr (Nat.lt_of_not_le hroom))
  · next hroom =>
    refine h.admitKey now ?_
    rcases hfound : b.counters.lookup key with - | counter
    · exact Or.inr (Nat.lt_of_not_le fun hfull ↦ hroom ⟨by rw [hfound]; rfl, hfull⟩)
    · exact Or.inl rfl

/-- A key that is new has one event. -/
theorem admitKey_of_new {key : K} (now : ℤ) (hnew : b.counters.lookup key = none) :
    b.admitKey now key =
      ({ b with counters := b.counters.insert key ⟨[now], 0, b.windowSeconds⟩ }, some 1) := by
  rw [BoundedCounters.admitKey, hnew]
  rfl

/-- While there is room, such a key is admitted. -/
theorem record_of_new {key : K} (now : ℤ) (hnew : b.counters.lookup key = none)
    (hfits : ¬maxTrackedKeys ≤ b.len) :
    b.record now key =
      ({ b with counters := b.counters.insert key ⟨[now], 0, b.windowSeconds⟩ }, some 1) := by
  rw [record, if_neg fun hfull ↦ hfits hfull.2, admitKey_of_new now hnew]

end BoundedCounters

/-! ### What the detector holds -/

/-- There is room under the bound for a key, or the key is there already. -/
def HasRoomFor {V : Type} (table : StringMap V) (key : String) : Prop :=
  (table.lookup key).isSome ∨ table.entries.length < maxTrackedKeys

namespace DetectorState

variable (config : AttackDetectorConfig) (S : ScoreEngine)

/-- **The bounds**: no map holds more keys than it may, and no counter more events. -/
structure Bounded (s : DetectorState) : Prop where
  authFailures : s.authFailures.Within
  globalAuthFailures : s.globalAuthFailures.Capped
  invalidModelProbes : s.invalidModelProbes.Within
  replayProbes : s.replayProbes.Within
  covertChannelEvents : s.covertChannelEvents.entries.length ≤ maxTrackedKeys
  covertChannelCounters : s.covertChannelEvents.AllValues fun entry ↦ entry.1.Capped
  sessionEvents : s.sessionEvents.Within
  enclaveExceptions : s.enclaveExceptions.Capped
  suspendedClients : s.suspendedClients.entries.length ≤ maxTrackedKeys
  blockedIps : s.blockedIps.entries.length ≤ maxTrackedKeys

/-- One more failure of this source makes the detector block it. -/
def BlocksSource (s : DetectorState) (now : ℤ) (source : String) : Prop :=
  0 < ((s.authFailures.record now source).2).getD 0 ∧
    config.authFailureThresholdPerMinute ≤ ((s.authFailures.record now source).2).getD 0

/-- One more probe of this client makes the detector suspend it. -/
def SuspendsProber (s : DetectorState) (now : ℤ) (clientId : String) : Prop :=
  ∃ count, (s.invalidModelProbes.record now clientId).2 = some count ∧ 5 ≤ count

/-- **No call brings a new key to a plain map that is at the bound.** -/
def Admissible (s : DetectorState) : ℤ × Call → Prop
  | (now, .recordAuthFailure source) =>
    s.BlocksSource config now source → HasRoomFor s.blockedIps source
  | (now, .recordInvalidModel clientId) =>
    s.SuspendsProber now clientId → HasRoomFor s.suspendedClients clientId
  | (now, .recordCovertChannelScore clientId score) =>
    S.isBelowThreshold score = false → HasRoomFor s.covertChannelEvents clientId ∧
      (3 ≤ (s.covertEntry S now clientId score).1.total → HasRoomFor s.suspendedClients clientId)
  | _ => True

variable {config S} {s : DetectorState}

theorem bounded_new (now : ℤ) : (new now).Bounded where
  authFailures := BoundedCounters.within_new _ _
  globalAuthFailures := WindowCounter.capped_new _
  invalidModelProbes := BoundedCounters.within_new _ _
  replayProbes := BoundedCounters.within_new _ _
  covertChannelEvents := Nat.zero_le _
  covertChannelCounters := fun _ he ↦ absurd he List.not_mem_nil
  sessionEvents := BoundedCounters.within_new _ _
  enclaveExceptions := WindowCounter.capped_new _
  suspendedClients := Nat.zero_le _
  blockedIps := Nat.zero_le _

/-! Each call keeps the bounds exactly if it is admissible. -/

theorem Bounded.recordAuthFailure (h : s.Bounded) (now : ℤ) (source : String) :
    (s.recordAuthFailure config now source).1.Bounded ↔
      (s.BlocksSource config now source → HasRoomFor s.blockedIps source) := by
  have hkept : ({ s with
      authFailures := (s.authFailures.record now source).1
      globalAuthFailures := s.globalAuthFailures.increment now } : DetectorState).Bounded :=
    { h with
      authFailures := h.authFailures.record now source
      globalAuthFailures := h.globalAuthFailures.increment now }
  rw [DetectorState.recordAuthFailure]
  simp only
  by_cases hblocks : s.BlocksSource config now source
  · rw [if_pos (show 0 < _ ∧ _ ≤ _ from hblocks)]
    constructor
    · intro hbounded _
      exact (AList.length_entries_insert_le_iff h.blockedIps).1 hbounded.blockedIps
    · intro hroom
      exact { hkept with
        blockedIps := (AList.length_entries_insert_le_iff h.blockedIps).2 (hroom hblocks) }
  · rw [if_neg (show ¬(0 < _ ∧ _ ≤ _) from hblocks)]
    refine iff_of_true ?_ fun habsurd ↦ absurd habsurd hblocks
    split
    · exact hkept
    · exact hkept

theorem Bounded.recordInvalidModel (h : s.Bounded) (now : ℤ) (clientId : String) :
    (s.recordInvalidModel now clientId).1.Bounded ↔
      (s.SuspendsProber now clientId → HasRoomFor s.suspendedClients clientId) := by
  have hkept : ({ s with invalidModelProbes := (s.invalidModelProbes.record now clientId).1 } :
      DetectorState).Bounded :=
    { h with invalidModelProbes := h.invalidModelProbes.record now clientId }
  rw [DetectorState.recordInvalidModel, SuspendsProber]
  rcases hrecord : s.invalidModelProbes.record now clientId with ⟨probes, - | count⟩
  · rw [hrecord] at hkept
    exact iff_of_true hkept fun habsurd ↦ by
      obtain ⟨count, hcount, -⟩ := habsurd
      simp at hcount
  · rw [hrecord] at hkept
    simp only
    by_cases hcount : 5 ≤ count
    · rw [if_pos hcount]
      constructor
      · intro hbounded _
        exact (AList.length_entries_insert_le_iff h.suspendedClients).1 hbounded.suspendedClients
      · intro hroom
        exact { hkept with
          suspendedClients := (AList.length_entries_insert_le_iff h.suspendedClients).2
            (hroom ⟨count, rfl, hcount⟩) }
    · rw [if_neg hcount]
      refine iff_of_true hkept fun habsurd ↦ ?_
      obtain ⟨count', heq, hcount'⟩ := habsurd
      obtain rfl := Option.some.inj heq
      exact absurd hcount' hcount

theorem Bounded.capped_covertEntry (h : s.Bounded) (now : ℤ) (clientId : String) (score : F32) :
    (s.covertEntry S now clientId score).1.Capped := by
  rw [covertEntry]
  refine WindowCounter.Capped.prune (WindowCounter.Capped.increment ?_ now) now
  rcases hfound : s.covertChannelEvents.lookup clientId with - | entry
  · exact WindowCounter.capped_new _
  · exact h.covertChannelCounters.of_lookup hfound

theorem Bounded.recordCovertChannelScore (h : s.Bounded) (now : ℤ) (clientId : String)
    (score : F32) :
    (s.recordCovertChannelScore S now clientId score).1.Bounded ↔
      (S.isBelowThreshold score = false → HasRoomFor s.covertChannelEvents clientId ∧
        (3 ≤ (s.covertEntry S now clientId score).1.total →
          HasRoomFor s.suspendedClients clientId)) := by
  have hentry := h.capped_covertEntry (S := S) now clientId score
  rw [DetectorState.recordCovertChannelScore]
  rcases hscore : S.isBelowThreshold score with - | -
  · rw [if_neg Bool.false_ne_true]
    simp only
    have hcovert := AList.length_entries_insert_le_iff (a := clientId)
      (v := s.covertEntry S now clientId score) h.covertChannelEvents
    by_cases hcount : 3 ≤ (s.covertEntry S now clientId score).1.total
    · rw [if_pos hcount]
      constructor
      · intro hbounded _
        exact ⟨hcovert.1 hbounded.covertChannelEvents, fun _ ↦
          (AList.length_entries_insert_le_iff h.suspendedClients).1 hbounded.suspendedClients⟩
      · intro hroom
        obtain ⟨hevents, hclients⟩ := hroom trivial
        exact { h with
          covertChannelEvents := hcovert.2 hevents
          covertChannelCounters := h.covertChannelCounters.insert hentry
          suspendedClients :=
            (AList.length_entries_insert_le_iff h.suspendedClients).2 (hclients hcount) }
    · rw [if_neg hcount]
      constructor
      · intro hbounded _
        exact ⟨hcovert.1 hbounded.covertChannelEvents, fun habsurd ↦ absurd habsurd hcount⟩
      · intro hroom
        exact { h with
          covertChannelEvents := hcovert.2 (hroom trivial).1
          covertChannelCounters := h.covertChannelCounters.insert hentry }
  · rw [if_pos rfl]
    exact iff_of_true h fun habsurd ↦ absurd habsurd (by simp)

theorem Bounded.recordInputHash (h : s.Bounded) (now : ℤ) (clientId inputHash : String) :
    (s.recordInputHash config now clientId inputHash).1.Bounded := by
  have hkept : ({ s with replayProbes := (s.replayProbes.record now (clientId, inputHash)).1 } :
      DetectorState).Bounded :=
    { h with replayProbes := h.replayProbes.record now (clientId, inputHash) }
  rw [DetectorState.recordInputHash]
  rcases hrecord : s.replayProbes.record now (clientId, inputHash) with ⟨probes, - | count⟩
  · rwa [hrecord] at hkept
  · rw [hrecord] at hkept
    simp only
    split
    · exact hkept
    · exact hkept

theorem Bounded.recordSessionEvent (h : s.Bounded) (now : ℤ) (clientId : String) :
    (s.recordSessionEvent now clientId).1.Bounded := by
  have hkept : ({ s with sessionEvents := (s.sessionEvents.record now clientId).1 } :
      DetectorState).Bounded :=
    { h with sessionEvents := h.sessionEvents.record now clientId }
  rw [DetectorState.recordSessionEvent]
  rcases hrecord : s.sessionEvents.record now clientId with ⟨events, - | count⟩
  · rwa [hrecord] at hkept
  · rwa [hrecord] at hkept

theorem Bounded.recordEnclaveException (h : s.Bounded) (now : ℤ) :
    (s.recordEnclaveException now).1.Bounded :=
  { h with enclaveExceptions := h.enclaveExceptions.increment now }

theorem Bounded.isIpBlocked (h : s.Bounded) (now : ℤ) (source : String) :
    ({ s with toAttackDetector := (s.toAttackDetector.isIpBlocked now source).1 } :
      DetectorState).Bounded := by
  rw [AttackDetector.isIpBlocked]
  split
  · split
    · exact h
    · exact { h with blockedIps := (AList.length_entries_erase_le).trans h.blockedIps }
  · exact h

theorem Bounded.isClientSuspended (h : s.Bounded) (now : ℤ) (clientId : String) :
    ({ s with toAttackDetector := (s.toAttackDetector.isClientSuspended now clientId).1 } :
      DetectorState).Bounded := by
  rw [AttackDetector.isClientSuspended]
  split
  · split
    · exact h
    · exact { h with suspendedClients := (AList.length_entries_erase_le).trans h.suspendedClients }
  · exact h

theorem Bounded.cleanup (h : s.Bounded) (now : ℤ) : (s.cleanup now).Bounded where
  authFailures := h.authFailures.pruneLapsed now
  globalAuthFailures := h.globalAuthFailures.prune now
  invalidModelProbes := h.invalidModelProbes.pruneLapsed now
  replayProbes := h.replayProbes.pruneLapsed now
  covertChannelEvents := (AList.length_entries_filterMapValues_le _).trans h.covertChannelEvents
  covertChannelCounters := by
    show AList.AllValues _ (s.covertChannelEvents.filterMapValues fun entry ↦
      (entry.1.retained now).map fun counter ↦ (counter, entry.2))
    refine AList.AllValues.filterMapValues fun e he entry hkept ↦ ?_
    obtain ⟨counter, hcounter, rfl⟩ := Option.map_eq_some_iff.1 hkept
    exact (h.covertChannelCounters e he).retained hcounter
  sessionEvents := h.sessionEvents.pruneLapsed now
  enclaveExceptions := h.enclaveExceptions.prune now
  suspendedClients := (AList.length_entries_filterMapValues_le _).trans h.suspendedClients
  blockedIps := (AList.length_entries_filterMapValues_le _).trans h.blockedIps

/-- One call keeps the bounds exactly if it is admissible. -/
theorem Bounded.call_iff (h : s.Bounded) (c : ℤ × Call) :
    (s.call config S c).Bounded ↔ s.Admissible config S c := by
  obtain ⟨now, c⟩ := c
  cases c with
  | recordAuthFailure source => exact h.recordAuthFailure now source
  | recordInvalidModel clientId => exact h.recordInvalidModel now clientId
  | recordInputHash clientId inputHash =>
    exact iff_of_true (h.recordInputHash now clientId inputHash) trivial
  | recordCovertChannelScore clientId score => exact h.recordCovertChannelScore now clientId score
  | recordSessionEvent clientId => exact iff_of_true (h.recordSessionEvent now clientId) trivial
  | recordEnclaveException => exact iff_of_true (h.recordEnclaveException now) trivial
  | isIpBlocked source => exact iff_of_true (h.isIpBlocked now source) trivial
  | isClientSuspended clientId => exact iff_of_true (h.isClientSuspended now clientId) trivial
  | cleanup => exact iff_of_true (h.cleanup now) trivial

/-- **The detector stays within its bounds along a run exactly as long as no call brings a new key
to a plain map that is at the bound.** The times of the calls do not matter. -/
theorem detector_bounded_iff (config : AttackDetectorConfig) (S : ScoreEngine) (start : ℤ)
    (run : List (ℤ × Call)) :
    Always (call config S) Bounded (new start) run ↔
      AllSteps (call config S) (Admissible config S) (new start) run := by
  have hany : AllSteps (call config S) (fun _ _ ↦ True) (new start) run := AllSteps.trivial
  refine always_iff_allSteps Bounded (fun _ h ↦ h) ?_ ?_ (bounded_new start) hany
  · intro s c h _ hadmissible
    exact (h.call_iff c).2 hadmissible
  · intro s c h _ hnot hbounded
    exact hnot ((h.call_iff c).1 hbounded)

/-! Sources that each fail once, under a threshold of one, and one more when the first have lapsed
from the counters but not from the blocks. -/

/-- The name of a source. -/
def floodSource (i : ℕ) : String :=
  String.ofList (List.replicate i 'a')

theorem floodSource_injective : Function.Injective floodSource := by
  intro i j h
  have hlist := congrArg (fun name : String ↦ name.toList.length) h
  simpa [floodSource] using hlist

/-- One failure is enough for a block. -/
def strictConfig : AttackDetectorConfig where
  authFailureThresholdPerMinute := 1
  globalFailureThresholdPerMinute := 50
  replayProbeThreshold := 20

/-- What a number of sources leave behind that have failed once each, at time 0. -/
structure Flooded (n : ℕ) (s : DetectorState) : Prop where
  counted : s.authFailures.len = n
  countedKeys : ∀ i, n ≤ i → s.authFailures.counters.lookup (floodSource i) = none
  counters : s.authFailures.counters.AllValues fun counter ↦
    counter.events = [0] ∧ counter.windowSeconds = 60
  windowSeconds : s.authFailures.windowSeconds = 60
  lastSweep : s.authFailures.lastSweep = 0
  blocked : s.blockedIps.entries.length = n
  blockedKeys : ∀ i, n ≤ i → s.blockedIps.lookup (floodSource i) = none

theorem flooded_new : Flooded 0 (new 0) where
  counted := rfl
  countedKeys := fun _ _ ↦ rfl
  counters := fun _ he ↦ absurd he List.not_mem_nil
  windowSeconds := rfl
  lastSweep := rfl
  blocked := rfl
  blockedKeys := fun _ _ ↦ rfl

/-- At the threshold of one, the first failure blocks the source. -/
theorem recordAuthFailure_strictConfig {now : ℤ} {source : String}
    {counted : BoundedCounters String}
    (h : s.authFailures.record now source = (counted, some 1)) :
    (s.recordAuthFailure strictConfig now source).1 = { s with
      authFailures := counted
      globalAuthFailures := s.globalAuthFailures.increment now
      blockedIps := s.blockedIps.insert source (now + 3600 * 1000000000) } := by
  rw [recordAuthFailure, h]
  rfl

theorem Flooded.step {n : ℕ} (h : Flooded n s) (hroom : n < maxTrackedKeys) :
    Flooded (n + 1) (s.recordAuthFailure strictConfig 0 (floodSource n)).1 := by
  have hnew := h.countedKeys n le_rfl
  have hfits : ¬maxTrackedKeys ≤ s.authFailures.len := by
    rw [h.counted]
    omega
  have hrecord := BoundedCounters.record_of_new 0 hnew hfits
  have hother : ∀ i, n + 1 ≤ i → floodSource i ≠ floodSource n := by
    intro i hi heq
    have := floodSource_injective heq
    omega
  rw [recordAuthFailure_strictConfig hrecord]
  constructor
  · show (s.authFailures.counters.insert _ _).entries.length = n + 1
    rw [AList.length_entries_insert_of_isNone (by rw [hnew]; rfl)]
    exact congrArg (· + 1) h.counted
  · intro i hi
    show (s.authFailures.counters.insert _ _).lookup _ = none
    rw [AList.lookup_insert_ne (hother i hi)]
    exact h.countedKeys i (by omega)
  · exact h.counters.insert ⟨rfl, h.windowSeconds⟩
  · exact h.windowSeconds
  · exact h.lastSweep
  · show (s.blockedIps.insert _ _).entries.length = n + 1
    rw [AList.length_entries_insert_of_isNone (by rw [h.blockedKeys n le_rfl]; rfl), h.blocked]
  · intro i hi
    show (s.blockedIps.insert _ _).lookup _ = none
    rw [AList.lookup_insert_ne (hother i hi)]
    exact h.blockedKeys i (by omega)

/-- One failure of each of the first sources, at time 0. -/
def flood (n : ℕ) : List (ℤ × Call) :=
  (List.range n).map fun i ↦ (0, .recordAuthFailure (floodSource i))

theorem flooded_flood {n : ℕ} (hn : n ≤ maxTrackedKeys) :
    Flooded n (final (call strictConfig S) (new 0) (flood n)) := by
  induction n with
  | zero => exact flooded_new
  | succ n ih =>
    rw [flood, List.range_succ, List.map_append, final, List.foldl_append]
    exact (ih (by omega)).step hn

/-- A minute later every counter has lapsed, so the next source is counted; and it is blocked. -/
theorem Flooded.length_blockedIps (h : Flooded maxTrackedKeys s) :
    (s.recordAuthFailure strictConfig 61000000000
      (floodSource maxTrackedKeys)).1.blockedIps.entries.length = maxTrackedKeys + 1 := by
  have hswept : s.authFailures.sweepIfDue 61000000000 = s.authFailures.pruneLapsed 61000000000 := by
    rw [BoundedCounters.sweepIfDue, h.lastSweep]
    rfl
  have hempty : (s.authFailures.pruneLapsed 61000000000).counters.entries = [] := by
    refine List.filterMap_eq_nil_iff.2 fun e he ↦ ?_
    obtain ⟨hevents, hwindow⟩ := h.counters e he
    rw [Option.map_eq_none_iff, WindowCounter.retained, WindowCounter.prune, hevents, hwindow]
    rfl
  have hrecord : s.authFailures.record 61000000000 (floodSource maxTrackedKeys) =
      (s.authFailures.pruneLapsed 61000000000).admitKey 61000000000
        (floodSource maxTrackedKeys) := by
    have hfull : maxTrackedKeys ≤ s.authFailures.len := h.counted.ge
    have hroom : ¬maxTrackedKeys ≤ (s.authFailures.pruneLapsed 61000000000).len := by
      rw [BoundedCounters.len, hempty]
      decide
    have hnew : (s.authFailures.counters.lookup (floodSource maxTrackedKeys)).isNone := by
      rw [h.countedKeys _ le_rfl]
      rfl
    rw [BoundedCounters.record, if_pos ⟨hnew, hfull⟩, hswept]
    exact if_neg hroom
  rw [BoundedCounters.admitKey_of_new _ (AList.entries_eq_nil_iff.1 hempty _)] at hrecord
  rw [recordAuthFailure_strictConfig hrecord]
  show (s.blockedIps.insert _ _).entries.length = _
  rw [AList.length_entries_insert_of_isNone (by rw [h.blockedKeys _ le_rfl]; rfl), h.blocked]

/-- All the failures, with the one that comes a minute later. -/
def floodRun : List (ℤ × Call) :=
  flood maxTrackedKeys ++ [(61000000000, .recordAuthFailure (floodSource maxTrackedKeys))]

theorem pairwise_times_floodRun : (floodRun.map Prod.fst).Pairwise (· ≤ ·) := by
  have htimes : ∀ t ∈ (flood maxTrackedKeys).map Prod.fst, t = 0 := by
    intro t ht
    rw [flood, List.map_map] at ht
    obtain ⟨i, -, rfl⟩ := List.mem_map.1 ht
    rfl
  rw [floodRun, List.map_append, List.pairwise_append]
  refine ⟨List.pairwise_of_forall_mem_list fun a ha b hb ↦ ?_, List.pairwise_singleton _ _, ?_⟩
  · rw [htimes a ha, htimes b hb]
  · intro a ha b hb
    obtain rfl := List.mem_singleton.1 hb
    rw [htimes a ha]
    decide

/-- Scores that are never high. -/
def lowScores : ScoreEngine where
  analyze _ := ⟨F32.zero, false⟩
  isBelowThreshold _ := true
  maxScore highest _ := highest
  suspension _ _ := ""

/-- **The blocked sources pass the bound**: 16384 sources fail once, and one more a minute later,
while all of them are still blocked. -/
theorem blocked_sources_pass_the_bound :
    (floodRun.map Prod.fst).Pairwise (· ≤ ·) ∧
      ¬Always (call strictConfig lowScores) Bounded (new 0) floodRun := by
  refine ⟨pairwise_times_floodRun, mt Always.of_final ?_⟩
  have hflooded := flooded_flood (S := lowScores) (le_refl maxTrackedKeys)
  rw [floodRun, final, List.foldl_append]
  rw [final] at hflooded
  revert hflooded
  generalize (flood maxTrackedKeys).foldl (call strictConfig lowScores) (new 0) = s
  intro hflooded hlast
  have hlength := hlast.blockedIps
  rw [List.foldl_cons, List.foldl_nil, call, hflooded.length_blockedIps] at hlength
  omega

end DetectorState

end Cordon
