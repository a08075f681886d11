import Cordon.Core.Bundles
import Cordon.Lib.Transition

/-!
# The gate and the latest verdict

What the serving gate is for can be said in one line: a bundle is served while the most recent
verdict on it, since it was registered, is a pass that has not aged out. `Ledger` is that line kept
as a table, and it is written from **what the calls return**, not from what they store.

The store keeps two fields instead of one. A failing check sets the status as well as the verdict,
and a passing check resets only the verdict. So the gate and the ledger part as soon as a check
passes on a bundle that is marked as tampered with, and they agree until then
(`gate_reflects_latest_verdict_iff`). The mark goes when the bundle is staged or registered again,
and a recovery does neither: it leaves every bundle servable **exactly if** none was marked when it
began and none of its verdicts has aged out when it ends, for its checks are made one after another.

The comparison rests on `Reflects`, kept by every call (`Reflects.step`), and on the rule for runs
that sets a condition on steps against a property of states (`always_iff_allSteps`). The recovery
rests on `lookup_checkAll_of_mem`: a round of checks that all pass writes verdicts and nothing else.
-/

namespace Cordon

open Transition

/-! ### The ledger -/

/-- The registered bundles, each with the most recent verdict since its registration. -/
abbrev Ledger : Type :=
  StringMap (Option IntegrityVerdict)

/-- **The reference**: the store is empty, or the bundle is registered and its most recent verdict
is a pass younger than the limit. -/
def Ledger.Serves (ledger : Ledger) (verdictTtl now : ℤ) (id : String) : Prop :=
  ledger.entries = [] ∨
    ∃ v, ledger.lookup id = some (some v) ∧ v.passed = true ∧ now - v.checkedAt < verdictTtl

/-! ### Runs of the store -/

/-- The calls on a store. -/
inductive StoreCall
  | registerBundle (m : BundleManifest) (bundleDir : String) (clientVk : Option VerifyingKey)
  | runIntegrityCheck (read : ShardReads) (bundleId : String)
  | stagePlaintext (io : StagingIo) (bundleId : String)
  | removeBundle (bundleId : String)

/-- A store, the time of its last call, and the ledger of what the calls have returned. -/
structure StoreRun where
  store : BundleStore
  now : ℤ
  ledger : Ledger

namespace StoreRun

variable (H : BundleHost) (E : Ed25519)

/-- One call at one time. -/
def step (s : StoreRun) : ℤ × StoreCall → StoreRun
  | (now, .registerBundle m bundleDir clientVk) =>
    match s.store.registerBundle H E m bundleDir clientVk with
    | (store, .ok ()) => ⟨store, now, s.ledger.insert m.bundleId none⟩
    | (store, .error _) => ⟨store, now, s.ledger⟩
  | (now, .runIntegrityCheck read bundleId) =>
    match s.store.runIntegrityCheck H E now read bundleId with
    | (store, .ok passed) => ⟨store, now, s.ledger.insert bundleId (some ⟨now, passed⟩)⟩
    -- a check that could not be made is no verdict
    | (store, .error _) => ⟨store, now, s.ledger⟩
  | (now, .stagePlaintext io bundleId) =>
    match s.store.stagePlaintext H now io bundleId with
    | (store, _, .ok ()) => ⟨store, now, s.ledger.insert bundleId (some ⟨now, true⟩)⟩
    | (store, _, .error _) => ⟨store, now, s.ledger⟩
  | (now, .removeBundle bundleId) =>
    match s.store.removeBundle bundleId with
    | (store, .ok ()) => ⟨store, now, s.ledger.erase bundleId⟩
    | (store, .error _) => ⟨store, now, s.ledger⟩

/-- Time does not go back. -/
def Later (s : StoreRun) (call : ℤ × StoreCall) : Prop :=
  s.now ≤ call.1

/-- A store whose bundles have been found and not yet checked. -/
def scanned (store : BundleStore) (now : ℤ) : StoreRun :=
  ⟨store, now, store.bundles.mapValues fun _ ↦ none⟩

/-- Every bundle of a store is as its registration left it. -/
def Unchecked (store : BundleStore) : Prop :=
  ∀ id b, store.bundles.lookup id = some b → b = BundleStore.registered b.manifest b.bundleDir

/-- **The gate agrees with the ledger**, about every bundle and at every time from now on. -/
def GateAgrees (s : StoreRun) : Prop :=
  ∀ id now, s.now ≤ now →
    (s.store.gate.ensureServable now id false = .ok () ↔
      s.ledger.Serves s.store.verdictTtl now id)

/-- **No check passes on a bundle that is marked as tampered with.** -/
def PassesUnmarked (s : StoreRun) : ℤ × StoreCall → Prop
  | (_, .runIntegrityCheck read bundleId) =>
    ∀ b, s.store.bundles.lookup bundleId = some b → b.status = .tampered →
      checkShards H E s.store.vendorVk read b.manifest b.bundleDir ≠ .ok true
  | _ => True

/-! ### The gate and the ledger compared -/

/-- **The invariant**: the ledger has every bundle's verdict, and a mark means a failure. -/
structure Reflects (s : StoreRun) : Prop where
  lookup_ledger : ∀ id, s.ledger.lookup id = (s.store.bundles.lookup id).map StoredBundle.verdict
  not_passed : ∀ id b, s.store.bundles.lookup id = some b → b.status = .tampered →
    ∃ v, b.verdict = some v ∧ v.passed = false

variable {H E} {s : StoreRun} {now : ℤ} {id bundleId : String} {b : StoredBundle}

/-- The gate in terms of the store. -/
theorem ensureServable_iff (s : StoreRun) (now : ℤ) (id : String) :
    s.store.gate.ensureServable now id false = .ok () ↔
      s.store.bundles.entries = [] ∨ ∃ b, s.store.bundles.lookup id = some b ∧
        b.status ≠ .tampered ∧ ∃ v, b.verdict = some v ∧ v.passed = true ∧
          now - v.checkedAt < s.store.verdictTtl := by
  have hempty : s.store.gate.bundles.entries = [] ↔ s.store.bundles.entries = [] :=
    AList.entries_mapValues_eq_nil _
  rw [ModelStore.ensureServable_eq_ok_iff, or_comm]
  refine or_congr ⟨?_, fun h ↦ ⟨?_, Or.inl (hempty.2 h)⟩⟩ ?_
  · rintro ⟨-, h | habsurd⟩
    · exact hempty.1 h
    · exact absurd habsurd (by decide)
  · -- an empty store does not know the bundle, and lets every name pass
    rw [BundleStore.lookup_gate, AList.entries_eq_nil_iff.1 h id, Option.map_none]
  · rw [ModelStore.Servable, BundleStore.lookup_gate]
    rcases s.store.bundles.lookup id with - | b
    · simp
    · simp [StoredBundle.gate, BundleStore.gate]

theorem Reflects.ledger_entries (h : s.Reflects) :
    s.ledger.entries = [] ↔ s.store.bundles.entries = [] := by
  rw [AList.entries_eq_nil_iff, AList.entries_eq_nil_iff]
  refine forall_congr' fun id ↦ ?_
  rw [h.lookup_ledger, Option.map_eq_none_iff]

/-- **Where a mark means a failure, the gate reads the ledger.** -/
theorem Reflects.gateAgrees (h : s.Reflects) : s.GateAgrees := by
  intro id now _
  rw [ensureServable_iff, Ledger.Serves, h.ledger_entries, h.lookup_ledger]
  refine or_congr_right ?_
  constructor
  · rintro ⟨b, hb, -, v, hv, hfresh⟩
    exact ⟨v, by rw [hb, Option.map_some, hv], hfresh⟩
  · rintro ⟨v, hv, hpassed, hfresh⟩
    obtain ⟨b, hb, hverdict⟩ := Option.map_eq_some_iff.1 hv
    -- this is where a pass on a marked bundle would do harm
    refine ⟨b, hb, fun hmarked ↦ ?_, v, hverdict, hpassed, hfresh⟩
    obtain ⟨w, hw, hfailed⟩ := h.not_passed id b hb hmarked
    obtain rfl := Option.some.inj (hverdict.symm.trans hw)
    rw [hpassed] at hfailed
    exact absurd hfailed (by decide)

/-! ### One call -/

/-- A call that changes one bundle keeps the invariant if it keeps it there. -/
theorem Reflects.change (h : s.Reflects) {s' : StoreRun} (bundleId : String)
    (hledger : ∀ id, id ≠ bundleId → s'.ledger.lookup id = s.ledger.lookup id)
    (hstore : ∀ id, id ≠ bundleId → s'.store.bundles.lookup id = s.store.bundles.lookup id)
    (hverdict : s'.ledger.lookup bundleId =
      (s'.store.bundles.lookup bundleId).map StoredBundle.verdict)
    (hmark : ∀ b, s'.store.bundles.lookup bundleId = some b → b.status = .tampered →
      ∃ v, b.verdict = some v ∧ v.passed = false) : s'.Reflects where
  lookup_ledger := by
    intro id
    by_cases hid : id = bundleId
    · rw [hid, hverdict]
    · rw [hledger id hid, hstore id hid, h.lookup_ledger]
  not_passed := by
    intro id b hb
    by_cases hid : id = bundleId
    · exact hmark b (hid ▸ hb)
    · exact h.not_passed id b (hstore id hid ▸ hb)

theorem Reflects.registerBundle (h : s.Reflects) (m : BundleManifest) (bundleDir : String)
    (clientVk : Option VerifyingKey) :
    (s.step H E (now, .registerBundle m bundleDir clientVk)).Reflects := by
  rcases hcall : s.store.registerBundle H E m bundleDir clientVk with ⟨store, result⟩
  rw [step, hcall]
  rcases BundleStore.registerBundle_cases hcall with ⟨e, rfl, rfl⟩ | ⟨rfl, -, rfl⟩
  · exact ⟨h.lookup_ledger, h.not_passed⟩
  · refine h.change m.bundleId (fun id hid ↦ AList.lookup_insert_ne hid)
      (fun id hid ↦ AList.lookup_insert_ne hid) ?_ ?_
    · show (s.ledger.insert _ _).lookup _ = ((s.store.bundles.insert _ _).lookup _).map _
      rw [AList.lookup_insert, AList.lookup_insert]
      rfl
    · intro b hb hmarked
      obtain rfl := Option.some.inj ((AList.lookup_insert _).symm.trans hb)
      exact absurd hmarked (by simp [BundleStore.registered])

/-- A verdict on a bundle that is not marked, or a failing one. -/
theorem Reflects.recordVerdict (h : s.Reflects) {passed : Bool}
    (hb : s.store.bundles.lookup bundleId = some b)
    (hpassed : passed = true → b.status ≠ .tampered) :
    Reflects ⟨s.store.recordVerdict now bundleId passed, now,
      s.ledger.insert bundleId (some ⟨now, passed⟩)⟩ := by
  have hlookup := BundleStore.lookup_recordVerdict s.store now bundleId
  refine h.change bundleId (fun id hid ↦ AList.lookup_insert_ne hid)
    (fun id hid ↦ (hlookup id passed).trans (if_neg hid)) ?_ ?_
  · show (s.ledger.insert _ _).lookup _ = _
    rw [AList.lookup_insert, hlookup, if_pos rfl, hb]
    rfl
  · intro b' hb' hmarked
    rw [hlookup, if_pos rfl, hb] at hb'
    obtain rfl := Option.some.inj hb'
    rcases passed with - | -
    · exact ⟨_, rfl, rfl⟩
    · exact absurd hmarked (hpassed rfl)

theorem Reflects.runIntegrityCheck (h : s.Reflects) {read : ShardReads}
    (hpasses : s.PassesUnmarked H E (now, .runIntegrityCheck read bundleId)) :
    (s.step H E (now, .runIntegrityCheck read bundleId)).Reflects := by
  rcases hcall : s.store.runIntegrityCheck H E now read bundleId with ⟨store, result⟩
  rw [step, hcall]
  rcases BundleStore.runIntegrityCheck_cases hcall with ⟨e, rfl, rfl⟩ |
    ⟨b, passed, hb, hcheck, rfl, rfl⟩
  · exact ⟨h.lookup_ledger, h.not_passed⟩
  · refine h.recordVerdict hb ?_
    rintro rfl hmarked
    exact hpasses b hb hmarked hcheck

theorem Reflects.stagePlaintext (h : s.Reflects) (io : StagingIo) (bundleId : String) :
    (s.step H E (now, .stagePlaintext io bundleId)).Reflects := by
  rcases hcall : s.store.stagePlaintext H now io bundleId with ⟨store, written, result⟩
  rw [step, hcall]
  rcases BundleStore.stagePlaintext_cases hcall with ⟨e, rfl, rfl⟩ |
    ⟨b, hb, ⟨e, rfl, rfl⟩ | ⟨-, rfl, rfl⟩⟩
  · exact ⟨h.lookup_ledger, h.not_passed⟩
  · -- a failed staging has only moved the status, to one that is no mark
    have hlookup := BundleStore.lookup_setStatus s.store bundleId
    refine h.change bundleId (fun id hid ↦ rfl)
      (fun id hid ↦ (hlookup id .staging).trans (if_neg hid)) ?_ ?_
    · show s.ledger.lookup bundleId = _
      rw [h.lookup_ledger, hlookup, if_pos rfl, hb]
      rfl
    · intro b' hb' hmarked
      rw [hlookup, if_pos rfl, hb] at hb'
      obtain rfl := Option.some.inj hb'
      exact absurd hmarked (by simp)
  · have hlookup := BundleStore.lookup_staged s.store now bundleId
    refine h.change bundleId (fun id hid ↦ AList.lookup_insert_ne hid)
      (fun id hid ↦ (hlookup id).trans (if_neg hid)) ?_ ?_
    · show (s.ledger.insert _ _).lookup _ = _
      rw [AList.lookup_insert, hlookup, if_pos rfl, hb]
      rfl
    · intro b' hb' hmarked
      rw [hlookup, if_pos rfl, hb] at hb'
      obtain rfl := Option.some.inj hb'
      exact absurd hmarked (by simp)

theorem Reflects.removeBundle (h : s.Reflects) (bundleId : String) :
    (s.step H E (now, .removeBundle bundleId)).Reflects := by
  rcases hcall : s.store.removeBundle bundleId with ⟨store, result⟩
  rw [step, hcall]
  rcases BundleStore.removeBundle_cases hcall with ⟨e, rfl, rfl⟩ | ⟨rfl, rfl⟩
  · exact ⟨h.lookup_ledger, h.not_passed⟩
  · refine h.change bundleId (fun id hid ↦ AList.lookup_erase_ne hid)
      (fun id hid ↦ AList.lookup_erase_ne hid) ?_ ?_
    · show (s.ledger.erase _).lookup _ = ((s.store.bundles.erase _).lookup _).map _
      rw [AList.lookup_erase, AList.lookup_erase]
      rfl
    · intro b hb
      exact absurd ((AList.lookup_erase _ _).symm.trans hb) (by simp)

/-- **One call keeps the gate and the ledger together**, unless it passes a marked bundle. -/
theorem Reflects.step (h : s.Reflects) {call : ℤ × StoreCall}
    (hpasses : s.PassesUnmarked H E call) : (s.step H E call).Reflects := by
  rcases call with ⟨now, ⟨m, bundleDir, clientVk⟩ | ⟨read, bundleId⟩ | ⟨io, bundleId⟩ | bundleId⟩
  · exact h.registerBundle m bundleDir clientVk
  · exact h.runIntegrityCheck hpasses
  · exact h.stagePlaintext io bundleId
  · exact h.removeBundle bundleId

/-- **A check that passes a marked bundle parts them**, at the very time it records its verdict. -/
theorem not_gateAgrees_step {call : ℤ × StoreCall} (h : ¬s.PassesUnmarked H E call) :
    ¬(s.step H E call).GateAgrees := by
  rcases call with ⟨now, ⟨m, bundleDir, clientVk⟩ | ⟨read, bundleId⟩ | ⟨io, bundleId⟩ | bundleId⟩
  · exact absurd trivial h
  · simp only [PassesUnmarked, not_forall, not_not] at h
    obtain ⟨b, hb, hmarked, hcheck⟩ := h
    have hstep : s.step H E (now, .runIntegrityCheck read bundleId) =
        ⟨s.store.recordVerdict now bundleId true, now,
          s.ledger.insert bundleId (some ⟨now, true⟩)⟩ := by
      simp only [StoreRun.step, BundleStore.runIntegrityCheck, hb, hcheck]
    rw [hstep]
    intro hagrees
    -- the ledger serves the bundle now, and the gate finds the mark
    have hage : now - now < s.store.verdictTtl := by
      rw [sub_self]
      exact s.store.verdictTtl_pos
    have hserves := (hagrees bundleId now le_rfl).2
      (Or.inr ⟨⟨now, true⟩, AList.lookup_insert _, rfl, hage⟩)
    have hfound : (s.store.recordVerdict now bundleId true).bundles.lookup bundleId =
        some (BundleStore.withVerdict now true b) := by
      rw [BundleStore.lookup_recordVerdict, if_pos rfl, hb, Option.map_some]
    rcases (ensureServable_iff _ _ _).1 hserves with hempty | ⟨b', hb', hunmarked, -⟩
    · exact absurd (AList.entries_eq_nil_iff.1 hempty bundleId)
        (by show (s.store.recordVerdict now bundleId true).bundles.lookup bundleId ≠ none
            simp [hfound])
    · obtain rfl := Option.some.inj (hfound.symm.trans hb')
      exact hunmarked hmarked
  · exact absurd trivial h
  · exact absurd trivial h

theorem reflects_scanned {store : BundleStore} (h : Unchecked store) (now : ℤ) :
    (scanned store now).Reflects where
  lookup_ledger := by
    intro id
    show (store.bundles.mapValues fun _ ↦ none).lookup id = _
    rw [AList.lookup_mapValues]
    refine Option.map_congr fun b hb ↦ ?_
    rw [h id b hb]
    rfl
  not_passed := by
    intro id b hb hmarked
    rw [h id b hb] at hmarked
    exact absurd hmarked (by simp [BundleStore.registered])

end StoreRun

/-! ### Recoveries -/

namespace BundleStore

variable {H : BundleHost} {E : Ed25519} {store : BundleStore} {id : String} {b : StoredBundle}
  {checks : List (String × ℤ × ShardReads)}

/-- A passing round begins with a check that passes and writes its verdict. -/
theorem checkAll_cons_of_passes {bundleId : String} {now : ℤ} {read : ShardReads}
    (h : (store.checkAll H E ((bundleId, now, read) :: checks)).2 = true) :
    ∃ b, store.bundles.lookup bundleId = some b ∧
      store.checkAll H E ((bundleId, now, read) :: checks) =
        (store.recordVerdict now bundleId true).checkAll H E checks := by
  rcases hcall : store.runIntegrityCheck H E now read bundleId with ⟨store', e | passed⟩
  · simp [checkAll, hcall] at h
  · rcases passed with - | -
    · simp [checkAll, hcall] at h
    · rcases runIntegrityCheck_cases hcall with ⟨e, habsurd, -⟩ | ⟨b, passed, hb, -, hres, rfl⟩
      · simp at habsurd
      · obtain rfl : true = passed := Except.ok.inj hres
        exact ⟨b, hb, by simp only [checkAll, hcall]⟩

/-- A bundle that a passing round of checks does not reach is as it was. -/
theorem lookup_checkAll_of_notMem (h : (store.checkAll H E checks).2 = true)
    (hid : id ∉ checks.map Prod.fst) :
    (store.checkAll H E checks).1.bundles.lookup id = store.bundles.lookup id := by
  induction checks generalizing store with
  | nil => rfl
  | cons check checks ih =>
    obtain ⟨bundleId, now, read⟩ := check
    obtain ⟨hne, hnot⟩ : id ≠ bundleId ∧ id ∉ checks.map Prod.fst := by simpa using hid
    obtain ⟨b, -, hrest⟩ := checkAll_cons_of_passes h
    rw [hrest] at h ⊢
    -- the verdict was written under another identifier
    rw [ih h hnot, lookup_recordVerdict, if_neg hne]

/-- **A bundle that a passing round of checks reaches** has the verdict of one of them, and is
otherwise as it was: its status too. -/
theorem lookup_checkAll_of_mem (h : (store.checkAll H E checks).2 = true)
    (hid : id ∈ checks.map Prod.fst) :
    ∃ b now read, store.bundles.lookup id = some b ∧ (id, now, read) ∈ checks ∧
      (store.checkAll H E checks).1.bundles.lookup id = some (withVerdict now true b) := by
  induction checks generalizing store with
  | nil => simp at hid
  | cons check checks ih =>
    obtain ⟨bundleId, now, read⟩ := check
    obtain ⟨b, hb, hrest⟩ := checkAll_cons_of_passes h
    rw [hrest] at h ⊢
    by_cases hlater : id ∈ checks.map Prod.fst
    · -- a later check of the same bundle has the last word
      obtain ⟨b', now', read', hb', hmem, hfound⟩ := ih h hlater
      rw [lookup_recordVerdict] at hb'
      by_cases hsame : id = bundleId
      · subst hsame
        rw [if_pos rfl, hb, Option.map_some] at hb'
        obtain rfl := Option.some.inj hb'
        exact ⟨b, now', read', hb, List.mem_cons_of_mem _ hmem, hfound⟩
      · rw [if_neg hsame] at hb'
        exact ⟨b', now', read', hb', List.mem_cons_of_mem _ hmem, hfound⟩
    · obtain rfl : id = bundleId := by
        simpa [hlater] using hid
      refine ⟨b, now, read, hb, List.mem_cons_self, ?_⟩
      rw [lookup_checkAll_of_notMem h hlater, lookup_recordVerdict, if_pos rfl, hb,
        Option.map_some]

theorem verdictTtl_checkAll (store : BundleStore) (checks : List (String × ℤ × ShardReads)) :
    (store.checkAll H E checks).1.verdictTtl = store.verdictTtl := by
  induction checks generalizing store with
  | nil => rfl
  | cons check checks ih =>
    obtain ⟨bundleId, now, read⟩ := check
    have hkept := store.verdictTtl_runIntegrityCheck (H := H) (E := E) now read bundleId
    rw [checkAll]
    split
    · next heq =>
      rw [heq] at hkept
      exact (ih _).trans hkept
    · next heq =>
      rw [heq] at hkept
      exact hkept

/-- **What a recovery leaves servable.** Its checks have all passed, one for each bundle, each at
its own time. -/
theorem servable_after_checkAll_iff (hids : checks.map Prod.fst = store.bundleIds)
    (hpassed : (store.checkAll H E checks).2 = true) (finish : ℤ) :
    (∀ id ∈ store.bundleIds,
        (store.checkAll H E checks).1.gate.ensureServable finish id false = .ok ()) ↔
      (∀ id b, store.bundles.lookup id = some b → b.status ≠ .tampered) ∧
        ∀ check ∈ checks, finish - check.2.1 < store.verdictTtl := by
  have hnodup : (checks.map Prod.fst).Nodup := hids ▸ store.bundleIds_nodup
  -- a bundle has one check, and the verdict of that check
  have hfound : ∀ id now read b, (id, now, read) ∈ checks → store.bundles.lookup id = some b →
      (store.checkAll H E checks).1.bundles.lookup id = some (withVerdict now true b) := by
    intro id now read b hmem hb
    obtain ⟨b', now', read', hb', hmem', hafter⟩ :=
      lookup_checkAll_of_mem hpassed (List.mem_map_of_mem hmem)
    obtain rfl := Option.some.inj (hb.symm.trans hb')
    have hsame := List.inj_on_of_nodup_map hnodup hmem hmem' rfl
    rwa [(Prod.mk.inj (Prod.mk.inj hsame).2).1]
  have hcheck : ∀ id, id ∈ store.bundleIds ↔ ∃ now read, (id, now, read) ∈ checks := by
    intro id
    rw [← hids]
    simp
  have hgate := fun id ↦
    StoreRun.ensureServable_iff ⟨(store.checkAll H E checks).1, finish, ∅⟩ finish id
  constructor
  · intro h
    have hserved : ∀ id now read b, (id, now, read) ∈ checks → store.bundles.lookup id = some b →
        b.status ≠ .tampered ∧ finish - now < store.verdictTtl := by
      intro id now read b hmem hb
      have hafter := hfound id now read b hmem hb
      rcases (hgate id).1 (h id ((hcheck id).2 ⟨now, read, hmem⟩)) with
        hempty | ⟨b', hb', hunmarked, v, hv, -, hfresh⟩
      · rw [AList.entries_eq_nil_iff.1 hempty id] at hafter
        simp at hafter
      · obtain rfl := Option.some.inj (hafter.symm.trans hb')
        obtain rfl := Option.some.inj hv
        exact ⟨hunmarked, verdictTtl_checkAll (H := H) (E := E) store checks ▸ hfresh⟩
    constructor
    · intro id b hb
      obtain ⟨now, read, hmem⟩ := (hcheck id).1 (mem_bundleIds.2 ⟨b, hb⟩)
      exact (hserved id now read b hmem hb).1
    · rintro ⟨id, now, read⟩ hmem
      obtain ⟨b, hb⟩ := mem_bundleIds.1 ((hcheck id).2 ⟨now, read, hmem⟩)
      exact (hserved id now read b hmem hb).2
  · rintro ⟨hunmarked, hfresh⟩ id hid
    obtain ⟨b, hb⟩ := mem_bundleIds.1 hid
    obtain ⟨now, read, hmem⟩ := (hcheck id).1 hid
    refine (hgate id).2 (Or.inr ⟨_, hfound id now read b hmem hb, hunmarked id b hb, ⟨now, true⟩,
      rfl, rfl, ?_⟩)
    rw [verdictTtl_checkAll]
    exact hfresh _ hmem

end BundleStore

/-- **When the gate reflects the latest verdict.** Over any calls at nondecreasing times, the gate
agrees with the ledger at every point **exactly if** no check ever passes on a bundle that is marked
as tampered with; and a recovery whose checks all pass leaves every registered bundle servable at a
time **exactly if** none was marked when it began and none of its checks is older by then than a
verdict may be. -/
theorem gate_reflects_latest_verdict_iff (H : BundleHost) (E : Ed25519) (store : BundleStore)
    (hstore : StoreRun.Unchecked store) (start : ℤ) (run : List (ℤ × StoreCall))
    (htimes : AllSteps (StoreRun.step H E) StoreRun.Later (.scanned store start) run) :
    (Always (StoreRun.step H E) StoreRun.GateAgrees (.scanned store start) run ↔
      AllSteps (StoreRun.step H E) (StoreRun.PassesUnmarked H E) (.scanned store start) run) ∧
    ∀ (checks : List (String × ℤ × ShardReads)) (finish : ℤ) (s : StoreRun),
      s = final (StoreRun.step H E) (.scanned store start) run →
      checks.map Prod.fst = s.store.bundleIds →
      (s.store.checkAll H E checks).2 = true →
      ((∀ id ∈ s.store.bundleIds,
          (s.store.checkAll H E checks).1.gate.ensureServable finish id false = .ok ()) ↔
        (∀ id b, s.store.bundles.lookup id = some b → b.status ≠ .tampered) ∧
          ∀ check ∈ checks, finish - check.2.1 < s.store.verdictTtl) := by
  refine ⟨always_iff_allSteps StoreRun.Reflects (fun _ h ↦ h.gateAgrees)
    (fun _ _ h _ hpasses ↦ h.step hpasses) (fun _ _ _ _ ↦ StoreRun.not_gateAgrees_step)
    (StoreRun.reflects_scanned hstore start) htimes, ?_⟩
  intro checks finish s _ hids hpassed
  exact BundleStore.servable_after_checkAll_iff hids hpassed finish

/-! ### A bundle that is restored -/

namespace SampleBundle

/-- A bundle is registered and then checked, once for each list of reads. -/
def checkedRun (reads : List ShardReads) : List (ℤ × StoreCall) :=
  (0, .registerBundle manifest dir none) ::
    reads.map fun read ↦ (0, .runIntegrityCheck read "sample")

/-- The sample is in the store, as it was registered apart from its status and its verdict. -/
def Holds (s : StoreRun) (status : BundleStatus) (verdict : Option IntegrityVerdict) : Prop :=
  s.store.vendorVk = none ∧
    s.store.bundles.lookup "sample" = some ⟨manifest, dir, status, verdict⟩

theorem holds_registered : Holds ((StoreRun.scanned store 0).step host ed25519
    (0, .registerBundle manifest dir none)) .encrypted none := by
  simp only [StoreRun.step, StoreRun.scanned, BundleStore.registerBundle, checkManifest_eq]
  exact ⟨rfl, AList.lookup_insert _⟩

/-- A check writes its verdict over the one before, and a pass leaves the status. -/
theorem Holds.check {s : StoreRun} {status : BundleStatus} {verdict : Option IntegrityVerdict}
    {read : ShardReads} {passed : Bool} (h : Holds s status verdict)
    (hcheck : checkShards host ed25519 none read manifest dir = .ok passed) :
    Holds (s.step host ed25519 (0, .runIntegrityCheck read "sample"))
      (if passed then status else .tampered) (some ⟨0, passed⟩) := by
  obtain ⟨hvendor, hfound⟩ := h
  simp only [StoreRun.step, BundleStore.runIntegrityCheck, hfound, hvendor, hcheck]
  refine ⟨hvendor, ?_⟩
  rw [BundleStore.lookup_recordVerdict, if_pos rfl, hfound]
  rfl

/-- The store once the sample is registered, and nothing else. -/
def registeredStore : BundleStore :=
  ((StoreRun.scanned store 0).step host ed25519 (0, .registerBundle manifest dir none)).store

theorem registeredStore_spec : registeredStore.bundleIds = ["sample"] ∧
    registeredStore.verdictTtl = 900000000000 := by
  simp only [registeredStore, StoreRun.step, StoreRun.scanned, BundleStore.registerBundle,
    checkManifest_eq]
  exact ⟨rfl, rfl⟩

/-- A recovery checks it one second after it was registered. -/
def recoveryChecks : List (String × ℤ × ShardReads) :=
  [("sample", 1000000000, intact)]

theorem checkAll_recoveryChecks :
    (registeredStore.checkAll host ed25519 recoveryChecks).2 = true := by
  obtain ⟨hvendor, hfound⟩ := holds_registered
  simp only [recoveryChecks, registeredStore, BundleStore.checkAll, BundleStore.runIntegrityCheck,
    hfound, hvendor, checkShards_intact]

end SampleBundle

open SampleBundle in
/-- A bundle that is registered and passes its check is served as its verdict says; and one that a
recovery has checked is served a minute later. -/
theorem gate_reflects_latest_verdict_iff_sample :
    (AllSteps (StoreRun.step host ed25519) (StoreRun.PassesUnmarked host ed25519)
        (.scanned store 0) (checkedRun [intact]) ∧
      Always (StoreRun.step host ed25519) StoreRun.GateAgrees (.scanned store 0)
        (checkedRun [intact])) ∧
    (registeredStore.checkAll host ed25519 recoveryChecks).1.gate.ensureServable 60000000000
      "sample" false = .ok () := by
  have hunchecked : StoreRun.Unchecked store := fun id b hb ↦
    absurd hb (by simp [store, BundleStore.withVerdictTtl])
  have hpasses : AllSteps (StoreRun.step host ed25519) (StoreRun.PassesUnmarked host ed25519)
      (.scanned store 0) (checkedRun [intact]) := by
    refine ⟨trivial, fun b hb hmarked ↦ ?_, trivial⟩
    obtain rfl := Option.some.inj (holds_registered.2.symm.trans hb)
    exact absurd hmarked (by decide)
  have htimes : AllSteps (StoreRun.step host ed25519) StoreRun.Later (.scanned store 0)
      (checkedRun [intact]) := ⟨le_rfl, le_rfl, trivial⟩
  refine ⟨⟨hpasses, (gate_reflects_latest_verdict_iff host ed25519 store hunchecked 0 _
    htimes).1.2 hpasses⟩, ?_⟩
  obtain ⟨hids, httl⟩ := registeredStore_spec
  have hlater : AllSteps (StoreRun.step host ed25519) StoreRun.Later (.scanned store 0)
      (checkedRun []) := ⟨le_rfl, trivial⟩
  have hserves := (gate_reflects_latest_verdict_iff host ed25519 store hunchecked 0 _ hlater).2
    recoveryChecks 60000000000 _ rfl hids.symm checkAll_recoveryChecks
  refine hserves.2 ⟨fun id b hb ↦ ?_, fun check hcheck ↦ ?_⟩ "sample"
    (hids ▸ List.mem_singleton_self _)
  · have hid : id ∈ registeredStore.bundleIds := BundleStore.mem_bundleIds.2 ⟨b, hb⟩
    rw [hids, List.mem_singleton] at hid
    subst hid
    obtain rfl := Option.some.inj (holds_registered.2.symm.trans hb)
    decide
  · obtain rfl := List.mem_singleton.1 hcheck
    exact lt_of_lt_of_eq (by decide) httl.symm

open SampleBundle in
/-- **A restored bundle is refused although its latest verdict is a pass.** Its shard was missing at
one check and was back at the next. -/
theorem restored_bundle_is_refused :
    ¬∀ (H : BundleHost) (E : Ed25519) (store : BundleStore) (start : ℤ)
      (run : List (ℤ × StoreCall)), StoreRun.Unchecked store →
      AllSteps (StoreRun.step H E) StoreRun.Later (.scanned store start) run →
      Always (StoreRun.step H E) StoreRun.GateAgrees (.scanned store start) run := by
  intro hall
  have hagrees := hall host ed25519 store 0 (checkedRun [lost, intact])
    (fun id b hb ↦ absurd hb (by simp [store, BundleStore.withVerdictTtl]))
    ⟨le_rfl, le_rfl, le_rfl, trivial⟩
  obtain ⟨-, -, -, hlast⟩ := hagrees
  obtain ⟨hvendor, hfound⟩ := holds_registered.check checkShards_lost
  refine StoreRun.not_gateAgrees_step (fun hpasses ↦ ?_) hlast
  refine hpasses _ hfound rfl ?_
  rw [hvendor]
  exact checkShards_intact

end Cordon
