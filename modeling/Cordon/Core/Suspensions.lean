import Cordon.Core.AttestationService
import Cordon.Lib.Table
import Cordon.Lib.Transition

/-!
# Suspending clients

An operator suspends a client for a number of seconds, which the request carries as an unsigned
64-bit integer. The registry casts it to a **signed** one, makes a time span of that, and adds the
span to the clock. Spans and dates have their limits: the two steps panic outside them.

A suspension in force is never shortened, whatever is asked for (`exists_lookup_suspend`): the later
end wins. But a duration counts only if it survives the cast and the addition. One that does keeps
the client out for as long as it says, however many calls follow (`suspensions_honoured`). From
`2 ^ 63` seconds on the cast makes it negative, and the suspension ends before it begins.

`suspensions_honoured` is an invariant of the registry: whatever some call has promised a client is
still in force (`Keeps.call`). It rests on the later end winning, and on durations that pass the
cast, the span and the date with their value. A clock that does not go back is all that is asked of
time.
-/

namespace Cordon

open Transition

/-- What the date library can represent: the first and the last moment, in nanoseconds, and the
longest span of whole seconds. -/
structure ChronoLimits where
  first : ℤ
  last : ℤ
  maxSeconds : ℕ
  /-- A span counts milliseconds in a signed 64-bit integer. -/
  maxSeconds_lt : maxSeconds < 2 ^ 63

namespace ChronoLimits

variable (L : ChronoLimits)

/-- `chrono::Duration::seconds`, in nanoseconds. `none` is a panic. -/
def seconds (n : ℤ) : Option ℤ :=
  if -L.maxSeconds ≤ n ∧ n ≤ L.maxSeconds then some (n * 1000000000) else none

/-- `DateTime + Duration`. `none` is a panic. -/
def add (t span : ℤ) : Option ℤ :=
  if L.first ≤ t + span ∧ t + span ≤ L.last then some (t + span) else none

end ChronoLimits

namespace IdentityRegistry

variable (L : ChronoLimits)

/-- Suspend a client for `durationSecs`. Extends an existing suspension rather than shortening it.
`none` is a panic, which leaves the registry as it is. -/
def suspend (registry : IdentityRegistry) (now : ℤ) (clientId : String) (durationSecs : UInt64)
    (reason : String) : Option IdentityRegistry := do
  let span ← L.seconds (asI64 durationSecs.toNat)
  let suspendedUntil ← L.add now span
  let entry := (registry.suspended.lookup clientId).getD ⟨suspendedUntil, reason⟩
  let entry := if entry.suspendedUntil < suspendedUntil then ⟨suspendedUntil, reason⟩ else entry
  return { registry with suspended := registry.suspended.insert clientId entry }

/-- Drop suspensions whose window has closed. -/
def cleanupExpiredSuspensions (registry : IdentityRegistry) (now : ℤ) : IdentityRegistry :=
  { registry with
    suspended := registry.suspended.filterMapValues fun s ↦
      if now < s.suspendedUntil then some s else none }

end IdentityRegistry

/-! ### Runs -/

/-- A call of the registry. -/
inductive SuspensionCall
  | suspend (clientId : String) (durationSecs : UInt64) (reason : String)
  | cleanupExpiredSuspensions
  | verify (identity : ClientIdentity)

/-- A suspension that has been asked for. -/
structure SuspensionRequest where
  clientId : String
  requestedAt : ℤ
  durationSecs : UInt64

/-- The moment until which a request suspends, as a number. -/
def SuspensionRequest.endsAt (request : SuspensionRequest) : ℤ :=
  request.requestedAt + request.durationSecs.toNat * 1000000000

/-- A registry along a run: the time of the last call, and every suspension asked for so far. -/
structure SuspensionState where
  registry : IdentityRegistry
  clock : ℤ
  requests : List SuspensionRequest

namespace SuspensionState

variable (L : ChronoLimits)

/-- What a call at a time makes of the registry. -/
def call (s : SuspensionState) : ℤ × SuspensionCall → SuspensionState
  | (now, .suspend clientId durationSecs reason) =>
    { registry := (s.registry.suspend L now clientId durationSecs reason).getD s.registry
      clock := now
      requests := ⟨clientId, now, durationSecs⟩ :: s.requests }
  | (now, .cleanupExpiredSuspensions) =>
    { s with registry := s.registry.cleanupExpiredSuspensions now, clock := now }
  | (now, .verify _) => { s with clock := now }

/-- A duration that a request may ask for: it is a span of the date library, and the date at its end
is one of its dates. -/
def Representable (now : ℤ) : SuspensionCall → Prop
  | .suspend _ durationSecs _ =>
    durationSecs.toNat ≤ L.maxSeconds ∧ now + durationSecs.toNat * 1000000000 ≤ L.last
  | _ => True

/-- The clock moves forward among the dates of the library. -/
def Clocked (s : SuspensionState) (now : ℤ) : Prop :=
  s.clock ≤ now ∧ L.first ≤ now

/-- **What is promised of a call.** A suspension does not panic and shortens none; a verification
refuses a client that some request still suspends. -/
def Honours (T : HostText) (s : SuspensionState) : ℤ × SuspensionCall → Prop
  | (now, .suspend clientId durationSecs reason) =>
    ∃ registry, s.registry.suspend L now clientId durationSecs reason = some registry ∧
      ∀ entry, s.registry.suspended.lookup clientId = some entry →
        ∃ entry', registry.suspended.lookup clientId = some entry' ∧
          entry.suspendedUntil ≤ entry'.suspendedUntil
  | (_, .cleanupExpiredSuspensions) => True
  | (now, .verify identity) =>
    (∃ request ∈ s.requests, request.clientId = identity.clientId ∧ now < request.endsAt) →
      ∃ e, s.registry.verify T now identity = .error e

end SuspensionState

/-! ### What one call does -/

section Suspend

variable {L : ChronoLimits} {registry registry' : IdentityRegistry} {now : ℤ} {clientId id : String}
  {durationSecs : UInt64} {reason : String}

/-- **The later end wins.** A suspension that does not panic ends neither before the time computed
for it nor before the one in force. -/
theorem exists_lookup_suspend
    (h : registry.suspend L now clientId durationSecs reason = some registry') :
    ∃ span suspendedUntil entry, L.seconds (asI64 durationSecs.toNat) = some span ∧
      L.add now span = some suspendedUntil ∧
      registry' = { registry with suspended := registry.suspended.insert clientId entry } ∧
      suspendedUntil ≤ entry.suspendedUntil ∧
      ∀ old, registry.suspended.lookup clientId = some old →
        old.suspendedUntil ≤ entry.suspendedUntil := by
  simp only [IdentityRegistry.suspend, Option.bind_eq_bind, Option.bind_eq_some_iff,
    Option.pure_def, Option.some.injEq] at h
  obtain ⟨span, hspan, suspendedUntil, huntil, rfl⟩ := h
  refine ⟨span, suspendedUntil, _, hspan, huntil, rfl, ?_, ?_⟩
  · split
    · exact le_rfl
    · next hlater => exact not_lt.1 hlater
  · intro old hold
    rw [hold, Option.getD_some]
    split
    · next hlater => exact hlater.le
    · exact le_rfl

/-- A duration that the date library can represent is suspended for. -/
theorem suspend_of_representable
    (hdate : SuspensionState.Representable L now (.suspend clientId durationSecs reason))
    (hnow : L.first ≤ now) :
    ∃ entry, registry.suspend L now clientId durationSecs reason =
        some { registry with suspended := registry.suspended.insert clientId entry } ∧
      now + durationSecs.toNat * 1000000000 ≤ entry.suspendedUntil ∧
      ∀ old, registry.suspended.lookup clientId = some old →
        old.suspendedUntil ≤ entry.suspendedUntil := by
  obtain ⟨hseconds, hlast⟩ := hdate
  have hcast := asI64_eq (hseconds.trans_lt L.maxSeconds_lt)
  have hspan :
      L.seconds (asI64 durationSecs.toNat) = some ((durationSecs.toNat : ℤ) * 1000000000) := by
    rw [ChronoLimits.seconds, hcast, if_pos (by omega)]
  have hdate : L.add now (durationSecs.toNat * 1000000000) =
      some (now + durationSecs.toNat * 1000000000) := by
    rw [ChronoLimits.add, if_pos (by omega)]
  obtain ⟨registry', hcall⟩ :
      ∃ registry', registry.suspend L now clientId durationSecs reason = some registry' := by
    simp only [IdentityRegistry.suspend, hspan, hdate, Option.bind_eq_bind, Option.bind_some]
    exact ⟨_, rfl⟩
  obtain ⟨span, suspendedUntil, entry, hspan', huntil, rfl, hle, hold⟩ :=
    exists_lookup_suspend hcall
  obtain rfl := Option.some.inj (hspan.symm.trans hspan')
  obtain rfl := Option.some.inj (hdate.symm.trans huntil)
  exact ⟨entry, hcall, hle, hold⟩

/-- A client with a suspension in force is refused. -/
theorem verify_of_suspended {T : HostText} {identity : ClientIdentity} {entry : SuspendedClient}
    (hlookup : registry.suspended.lookup identity.clientId = some entry)
    (hnow : now < entry.suspendedUntil) : ∃ e, registry.verify T now identity = .error e := by
  rw [IdentityRegistry.verify]
  by_cases hvalid : identity.isValidAt now = true
  · simp only [hvalid, hlookup, hnow, if_true]
    exact ⟨_, rfl⟩
  · simp only [hvalid]
    exact ⟨_, rfl⟩

end Suspend

/-! ### What a run keeps -/

namespace SuspensionState

variable {L : ChronoLimits} {T : HostText} {s : SuspensionState} {now : ℤ}

/-- Every request that has not run out is kept by a suspension that lasts as long. -/
def Keeps (s : SuspensionState) : Prop :=
  ∀ request ∈ s.requests, request.endsAt ≤ s.clock ∨
    ∃ entry, s.registry.suspended.lookup request.clientId = some entry ∧
      request.endsAt ≤ entry.suspendedUntil

/-- **One call keeps what is to be kept.** -/
theorem Keeps.call (h : s.Keeps) {c : SuspensionCall} (hclock : s.Clocked L now)
    (hdate : Representable L now c) : (s.call L (now, c)).Keeps := by
  intro request hrequest
  rcases c with ⟨clientId, durationSecs, reason⟩ | - | identity
  · obtain ⟨entry, hcall, hends, hold⟩ :=
      @suspend_of_representable L s.registry now clientId durationSecs reason hdate hclock.2
    have hregistry : (s.call L (now, .suspend clientId durationSecs reason)).registry =
        { s.registry with suspended := s.registry.suspended.insert clientId entry } := by
      show (s.registry.suspend L now clientId durationSecs reason).getD s.registry = _
      rw [hcall, Option.getD_some]
    rw [hregistry]
    rcases List.mem_cons.1 hrequest with rfl | hrequest
    · exact Or.inr ⟨entry, AList.lookup_insert _, hends⟩
    · rcases h request hrequest with hover | ⟨old, hlookup, hle⟩
      · exact Or.inl (hover.trans hclock.1)
      · by_cases hid : request.clientId = clientId
        · rw [hid] at hlookup ⊢
          exact Or.inr ⟨entry, AList.lookup_insert _, hle.trans (hold old hlookup)⟩
        · exact Or.inr ⟨old, (AList.lookup_insert_ne hid).trans hlookup, hle⟩
  · rcases h request hrequest with hover | ⟨old, hlookup, hle⟩
    · exact Or.inl (hover.trans hclock.1)
    · by_cases hlapsed : now < old.suspendedUntil
      · refine Or.inr ⟨old, ?_, hle⟩
        show (s.registry.suspended.filterMapValues _).lookup _ = _
        rw [AList.lookup_filterMapValues, hlookup, Option.bind_some, if_pos hlapsed]
      · exact Or.inl (hle.trans (not_lt.1 hlapsed))
  · rcases h request hrequest with hover | hkept
    · exact Or.inl (hover.trans hclock.1)
    · exact Or.inr hkept

/-- What is kept is honoured. -/
theorem Keeps.honours (h : s.Keeps) {c : SuspensionCall} (hclock : s.Clocked L now)
    (hdate : Representable L now c) : s.Honours L T (now, c) := by
  rcases c with ⟨clientId, durationSecs, reason⟩ | - | identity
  · obtain ⟨entry, hcall, -, hold⟩ :=
      @suspend_of_representable L s.registry now clientId durationSecs reason hdate hclock.2
    exact ⟨_, hcall, fun old hlookup ↦ ⟨entry, AList.lookup_insert _, hold old hlookup⟩⟩
  · trivial
  · rintro ⟨request, hrequest, hid, hnow⟩
    rcases h request hrequest with hover | ⟨entry, hlookup, hle⟩
    · exact absurd (hover.trans hclock.1) (not_le.2 hnow)
    · rw [hid] at hlookup
      exact verify_of_suspended hlookup (hnow.trans_le hle)

end SuspensionState

/-- **Suspensions are honoured.** In every run of calls, at times that never go back, whose requests
stay within the dates and spans of the library: no call panics, every verification of a client that
a request still suspends refuses it, and no call shortens a suspension. -/
theorem suspensions_honoured (L : ChronoLimits) (T : HostText) (registry : IdentityRegistry)
    (start : ℤ) (run : List (ℤ × SuspensionCall))
    (hrun : AllSteps (SuspensionState.call L)
      (fun s e ↦ s.Clocked L e.1 ∧ SuspensionState.Representable L e.1 e.2)
      ⟨registry, start, []⟩ run) :
    AllSteps (SuspensionState.call L) (fun s e ↦ s.Honours L T e) ⟨registry, start, []⟩ run := by
  refine AllSteps.of_invariant SuspensionState.Keeps ?_ ?_ ?_ hrun
  · intro s e hkeeps hok
    exact hkeeps.call hok.1 hok.2
  · intro s e hkeeps hok
    exact hkeeps.honours hok.1 hok.2
  · intro request hrequest
    exact absurd hrequest List.not_mem_nil

/-! ### A client suspended for too long -/

namespace SampleSuspension

/-- The limits of the library, as its documentation gives them: the end of the year 262142, and
`i64::MAX` milliseconds. -/
def limits : ChronoLimits where
  first := -8334601228800000000000
  last := 8210266876799999999999
  maxSeconds := 9223372036854775
  maxSeconds_lt := by decide

/-- Text handling that changes nothing. -/
def hostText : HostText where
  toLowercase cs := cs
  displayTime _ := ""

/-- A registry that has no client enrolled and admits all. -/
def registry : IdentityRegistry where
  policies := ∅
  suspended := ∅
  unknownClient := .allowWithDefaults

/-- A client with a certificate for a year. -/
def alice : ClientIdentity where
  clientId := "alice"
  notBefore := 1767225600000000000
  notAfter := 1798761600000000000
  fingerprint := ""

/-- An operator suspends the client, and the client asks to be verified at once. -/
def run (durationSecs : UInt64) : List (ℤ × SuspensionCall) :=
  [(1775000000000000000, .suspend "alice" durationSecs "abuse"),
    (1775000000000000000, .verify alice)]

end SampleSuspension

open SampleSuspension in
/-- An hour is honoured. -/
theorem suspensions_honoured_hour :
    AllSteps (SuspensionState.call limits) (fun s e ↦ s.Honours limits hostText e)
      ⟨registry, 1767225600000000000, []⟩ (run 3600) := by
  refine suspensions_honoured limits hostText registry 1767225600000000000 (run 3600) ?_
  refine ⟨⟨⟨by decide, by decide⟩, by decide, by decide⟩, ?_⟩
  exact ⟨⟨⟨le_rfl, by decide⟩, trivial⟩, trivial⟩

open SampleSuspension in
/-- **The longest duration does not suspend at all**: as a signed number it is one second before
now, and the client is verified. The longest that the cast keeps is a panic. -/
theorem longest_duration_does_not_suspend :
    (∃ policy, (SuspensionState.call limits ⟨registry, 1767225600000000000, []⟩
        (1775000000000000000, .suspend "alice" 18446744073709551615 "abuse")).registry.verify
          hostText 1775000000000000000 alice = .ok policy) ∧
      registry.suspend limits 1775000000000000000 "alice" 9223372036854775807 "abuse" = none ∧
      ¬AllSteps (SuspensionState.call limits) (fun s e ↦ s.Honours limits hostText e)
        ⟨registry, 1767225600000000000, []⟩ (run 18446744073709551615) := by
  have hverified : ∃ policy, (SuspensionState.call limits ⟨registry, 1767225600000000000, []⟩
      (1775000000000000000, .suspend "alice" 18446744073709551615 "abuse")).registry.verify
        hostText 1775000000000000000 alice = .ok policy :=
    ⟨.defaultFor "alice", by decide +kernel⟩
  refine ⟨hverified, by decide +kernel, fun h ↦ ?_⟩
  obtain ⟨policy, hpolicy⟩ := hverified
  obtain ⟨e, he⟩ := h.2.1 ⟨_, List.mem_singleton_self _, rfl, by decide⟩
  exact nomatch hpolicy.symm.trans he

end Cordon
