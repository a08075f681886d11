import Cordon.Core.Identity

/-!
# The model store's serving gate

The store remembers, for each bundle, its status and the verdict of the last integrity check.
`ensureServable` consults that memory on every request and does nothing else: no cryptography, no
input or output. `ensureServable_eq_ok_iff` is its whole behaviour. A bundle that is **not** in the
store passes too, when the store is empty or the caller allows unregistered models.

The behaviour is read off the branches of the gate in the order of the source, and every result
about admissions, verdicts and staleness uses it in this form. The time is the caller's: a verdict
is compared with the moment of the request, and one that lies in the future counts as fresh.
-/

namespace Cordon

/-- `BundleStatus`. -/
inductive BundleStatus
  /-- On disk, encrypted, not staged. -/
  | encrypted
  /-- Staged and being served. -/
  | ready
  /-- Failed an integrity check. Not servable. -/
  | tampered
  /-- Currently being staged. -/
  | staging
  deriving DecidableEq, Repr

/-- The outcome of the most recent integrity check on a bundle. -/
structure IntegrityVerdict where
  checkedAt : ℤ
  passed : Bool
  deriving DecidableEq, Repr

/-- What the gate reads of a registered bundle. -/
structure BundleEntry where
  status : BundleStatus
  verdict : Option IntegrityVerdict
  deriving DecidableEq, Repr

/-- The model store, as the gate sees it. -/
structure ModelStore where
  bundles : StringMap BundleEntry
  /-- How long an integrity verdict remains usable on the serving path. -/
  verdictTtl : ℤ

/-- Whether a verdict is a pass that has not aged out. -/
def IntegrityVerdict.isFresh (v : IntegrityVerdict) (now verdictTtl : ℤ) : Bool :=
  v.passed && decide (now - v.checkedAt < verdictTtl)

/-- The error of a bundle that no recent check has passed. -/
def staleVerdict (bundleId : String) : CordonError :=
  .modelIntegrityViolation (bundleId ++
    " (integrity verdict is stale or absent; the integrity monitor " ++
    "has not confirmed this bundle recently)")

/-- `ModelStore::ensure_servable`: admit a bundle for serving, using the cached verdict. -/
def ModelStore.ensureServable (store : ModelStore) (now : ℤ) (bundleId : String)
    (allowUnregistered : Bool) : Except CordonError Unit :=
  match store.bundles.lookup bundleId with
  | none =>
    if store.bundles.entries.isEmpty || allowUnregistered then .ok ()
    else .error (.modelNotFound bundleId)
  | some entry =>
    if entry.status = .tampered then .error (.modelIntegrityViolation bundleId)
    else
      match entry.verdict with
      | some v =>
        if v.isFresh now store.verdictTtl then .ok ()
        else if !v.passed then .error (.modelIntegrityViolation bundleId)
        else .error (staleVerdict bundleId)
      | none => .error (staleVerdict bundleId)

/-- **A bundle the store vouches for**: registered, not tampered with, and with a passing verdict
younger than the store's limit. -/
def ModelStore.Servable (store : ModelStore) (now : ℤ) (bundleId : String) : Prop :=
  ∃ entry, store.bundles.lookup bundleId = some entry ∧ entry.status ≠ .tampered ∧
    ∃ v, entry.verdict = some v ∧ v.passed = true ∧ now - v.checkedAt < store.verdictTtl

/-- **The gate**: it passes what the store vouches for, and what is not registered if the store is
empty or the caller allows it. -/
theorem ModelStore.ensureServable_eq_ok_iff {store : ModelStore} {now : ℤ} {bundleId : String}
    {allowUnregistered : Bool} :
    store.ensureServable now bundleId allowUnregistered = .ok () ↔
      store.Servable now bundleId ∨ store.bundles.lookup bundleId = none ∧
        (store.bundles.entries = [] ∨ allowUnregistered = true) := by
  rw [ensureServable, Servable]
  rcases store.bundles.lookup bundleId with - | ⟨status, verdict⟩
  · simp [or_iff_not_imp_left]
  · by_cases htampered : status = .tampered
    · simp [htampered]
    · rcases verdict with - | ⟨checkedAt, passed⟩
      · simp [htampered]
      · rcases passed with - | -
        · simp [htampered, IntegrityVerdict.isFresh]
        · by_cases hfresh : now - checkedAt < store.verdictTtl
          · simp [htampered, IntegrityVerdict.isFresh, hfresh]
          · simp [htampered, IntegrityVerdict.isFresh, hfresh]

end Cordon
