import Cordon.Audit.Verify
import Cordon.Audit.LifecycleJson

/-!
# Tamper evidence

What a verdict of `valid` says about records an adversary chose. The records are **any list of
entries in any order**; the verifier sorts them by sequence and walks them. If it finds no
violation, the sorted records agree with a prefix of the entries the writer appended, in everything
that the chain commits to: sequence, timestamp, payload hash, serialized payload and entry hash. A
log identifier and a signature are not committed to and may differ.

Three assumptions, each used once and each about the writer's one run:

* no two **strings that are hashed** here collide (`Sha256.CollisionFreeOn`, over the inputs of the
  run and of the presented records, not over all strings, of which infinitely many must collide);
* the genesis hash is not the hash of an entry of the run;
* the log key accepts a signature on a message only if the message is the hash of an entry of the
  run.

The entry preimage is a plain concatenation. It is unambiguous because its first and last parts are
64 bytes long, which the walk itself establishes: a hash is recomputed before it is used as a
predecessor, and a payload hash is recomputed for every entry.
-/

namespace Cordon

/-- Two entries agree in everything the chain commits to. -/
structure Agrees (J : AuditJson) (a b : AuditEntry) : Prop where
  sequence : a.sequence = b.sequence
  timestamp : a.timestamp = b.timestamp
  payloadHash : a.payloadHash = b.payloadHash
  payload : J.eventToVec a.payload = J.eventToVec b.payload
  entryHash : a.entryHash = b.entryHash

/-- **The entry preimage is unambiguous** between hashes of the same width. -/
theorem entryPreimage_inj {p q : String × (DateTime × String)}
    (hp : (Text.asBytes p.1).length = 64) (hq : (Text.asBytes q.1).length = 64)
    (hp' : (Text.asBytes p.2.2).length = 64) (hq' : (Text.asBytes q.2.2).length = 64)
    (h : entryPreimage p.1 p.2.1 p.2.2 = entryPreimage q.1 q.2.1 q.2.2) : p = q := by
  obtain ⟨h1, h2, h3⟩ := Bytes.append_append_inj (by rw [hp, hq]) (by rw [hp', hq']) h
  exact Prod.ext (Text.asBytes_injective h1)
    (Prod.ext (DateTime.toRfc3339_injective (Text.asBytes_injective h2))
      (Text.asBytes_injective h3))

namespace SealedChain

variable {J : AuditJson} {prevHash : String} {sequence : ℕ} {es : List AuditEntry}

/-- The recorded entry hashes of a chain are its links. -/
theorem map_entryHash (h : SealedChain J prevHash sequence es) :
    es.map AuditEntry.entryHash = HashChain.links chainLink prevHash (es.map AuditEntry.body) := by
  induction es generalizing prevHash sequence with
  | nil => rfl
  | cons e es ih =>
    have hlink : chainLink prevHash e.body = e.entryHash := h.1.link.symm
    rw [List.map_cons, List.map_cons, HashChain.links_cons, hlink, ih h.2]

/-- Every pair a chain links is hashed by it, and both of its hashes are 64 bytes long. -/
theorem of_mem_pairs (h : SealedChain J prevHash sequence es)
    (hprev : (Text.asBytes prevHash).length = 64) {p : String × (DateTime × String)}
    (hp : p ∈ HashChain.pairs chainLink prevHash (es.map AuditEntry.body)) :
    entryPreimage p.1 p.2.1 p.2.2 ∈ hashInputs J prevHash es ∧
      (Text.asBytes p.1).length = 64 ∧ (Text.asBytes p.2.2).length = 64 := by
  induction es generalizing prevHash sequence with
  | nil => cases hp
  | cons e es ih =>
    rw [List.map_cons, HashChain.pairs, List.mem_cons] at hp
    obtain ⟨bytes, -, hhash⟩ := h.1.payload
    rcases hp with rfl | hp
    · refine ⟨List.mem_cons_self, hprev, ?_⟩
      rw [AuditEntry.body, hhash, Sha256.length_asBytes_digestHex]
    · have hlink : chainLink prevHash e.body = e.entryHash := h.1.link.symm
      rw [hlink] at hp
      have hlen : (Text.asBytes e.entryHash).length = 64 := by
        rw [h.1.link, chainHash, Sha256.length_asBytes_digestHex]
      obtain ⟨hmem, hrest⟩ := ih h.2 hlen hp
      exact ⟨List.mem_cons_of_mem _ (List.mem_append_right _ hmem), hrest⟩

/-- **Two chains from one hash whose bodies agree, agree entry by entry.** The induction carries the
equality of the hashes before the two entries; equal payload hashes give equal payload texts because
both texts were hashed. -/
theorem forall₂_agrees {S : Set Bytes} (hS : Sha256.CollisionFreeOn S) {rs : List AuditEntry}
    (hr : SealedChain J prevHash sequence rs) (he : SealedChain J prevHash sequence es)
    (hrS : ∀ x ∈ hashInputs J prevHash rs, x ∈ S) (heS : ∀ x ∈ hashInputs J prevHash es, x ∈ S)
    (hbody : rs.map AuditEntry.body <+: es.map AuditEntry.body) :
    List.Forall₂ (Agrees J) rs (es.take rs.length) := by
  induction rs generalizing prevHash sequence es with
  | nil => simp
  | cons r rs ih =>
    rcases es with - | ⟨e, es⟩
    · simp at hbody
    rw [List.map_cons, List.map_cons, List.cons_prefix_cons] at hbody
    obtain ⟨hre, hbody⟩ := hbody
    have htime : r.timestamp = e.timestamp := congrArg Prod.fst hre
    have hpay : r.payloadHash = e.payloadHash := congrArg Prod.snd hre
    have hhash : r.entryHash = e.entryHash := by rw [hr.1.link, he.1.link, htime, hpay]
    obtain ⟨rb, hrb, hrh⟩ := hr.1.payload
    obtain ⟨eb, heb, heh⟩ := he.1.payload
    have hbytes : rb = eb := by
      refine hS.eq_of_digestHex (hrS _ ?_) (heS _ ?_) (by rw [← hrh, ← heh, hpay])
      · exact List.mem_cons_of_mem _ (List.mem_append_left _ (by simp [hrb, Except.toOption]))
      · exact List.mem_cons_of_mem _ (List.mem_append_left _ (by simp [heb, Except.toOption]))
    refine List.Forall₂.cons ⟨?_, htime, hpay, by rw [hrb, heb, hbytes], hhash⟩ ?_
    · rw [hr.1.sequence_eq, he.1.sequence_eq]
    · refine ih hr.2 (hhash ▸ he.2) (fun x hx ↦ hrS x ?_) (fun x hx ↦ heS x ?_) hbody
      · exact List.mem_cons_of_mem _ (List.mem_append_right _ hx)
      · exact List.mem_cons_of_mem _ (List.mem_append_right _ (hhash ▸ hx))

end SealedChain

section TamperEvidence

variable {E : Ed25519} {J : AuditJson} {key : SigningKey} {deploymentId : String}
  {entries records : List AuditEntry} {r : VerificationResult}

/-- **Tamper evidence of the audit log.** Whatever list of records is presented, if the verifier
accepts it then, in the order of their sequences, the records agree one by one with the first
entries of the writer's run. -/
theorem verified_records_agree_with_run (run : AppendRun E J key deploymentId entries)
    (hcollision : Sha256.CollisionFreeOn
      {x | x ∈ hashInputs J (computeGenesisHash deploymentId) entries ∨
        x ∈ hashInputs J (computeGenesisHash deploymentId) (sortBySequence records)})
    (hgenesis : ∀ e ∈ entries, e.entryHash ≠ computeGenesisHash deploymentId)
    (hsigned : ∀ msg sig, (key.verifyingKey E).verify E msg sig = .ok () →
      ∃ e ∈ entries, msg = Text.asBytes e.entryHash)
    (hverify : verifyEntries E J (key.verifyingKey E) deploymentId (sortBySequence records) = .ok r)
    (hvalid : r.valid = true) :
    ∃ k ≤ entries.length, List.Forall₂ (Agrees J) (sortBySequence records) (entries.take k) := by
  obtain ⟨hforged, hsigs⟩ := chainOk_of_valid hverify hvalid
  have hrun := run.sealedChain
  have hlen : (Text.asBytes (computeGenesisHash deploymentId)).length = 64 :=
    Sha256.length_asBytes_digestHex _
  set g := computeGenesisHash deploymentId with hg
  set rs := sortBySequence records with hrs
  -- the link function is injective on the pairs of both chains
  have hinj : HashChain.InjOnPairs chainLink
      {p | p ∈ HashChain.pairs chainLink g (entries.map AuditEntry.body) ∨
        p ∈ HashChain.pairs chainLink g (rs.map AuditEntry.body)} := by
    have hspec : ∀ p, p ∈ HashChain.pairs chainLink g (entries.map AuditEntry.body) ∨
        p ∈ HashChain.pairs chainLink g (rs.map AuditEntry.body) →
        (entryPreimage p.1 p.2.1 p.2.2 ∈ hashInputs J g entries ∨
          entryPreimage p.1 p.2.1 p.2.2 ∈ hashInputs J g rs) ∧
        (Text.asBytes p.1).length = 64 ∧ (Text.asBytes p.2.2).length = 64 := by
      rintro p (hp | hp)
      · exact ⟨Or.inl (hrun.of_mem_pairs hlen hp).1, (hrun.of_mem_pairs hlen hp).2⟩
      · exact ⟨Or.inr (hforged.of_mem_pairs hlen hp).1, (hforged.of_mem_pairs hlen hp).2⟩
    intro p hp q hq hlink
    obtain ⟨hpS, hp1, hp2⟩ := hspec p hp
    obtain ⟨hqS, hq1, hq2⟩ := hspec q hq
    exact entryPreimage_inj hp1 hq1 hp2 hq2 (hcollision.eq_of_digestHex hpS hqS hlink)
  have hprefix : rs.map AuditEntry.body <+: entries.map AuditEntry.body := by
    refine HashChain.prefix_of_signed hinj (fun p hp ↦ Or.inl hp) (fun p hp ↦ Or.inr hp) ?_ ?_
    · rw [← hrun.map_entryHash, List.mem_map]
      rintro ⟨e, he, heq⟩
      exact hgenesis e he heq
    · -- each presented hash carries an accepted signature, so the run signed it
      rw [← hrun.map_entryHash, ← hforged.map_entryHash]
      intro h hh
      obtain ⟨r, hr, rfl⟩ := List.mem_map.1 hh
      obtain ⟨sig, -, hver⟩ := hsigs r hr
      obtain ⟨e, he, heq⟩ := hsigned _ _ hver
      exact List.mem_map.2 ⟨e, he, (Text.asBytes_injective heq).symm⟩
  refine ⟨rs.length, ?_, hforged.forall₂_agrees hcollision hrun (fun x hx ↦ Or.inr hx)
    (fun x hx ↦ Or.inl hx) hprefix⟩
  simpa using hprefix.length_le

end TamperEvidence

/-! ### A log of two entries -/

/-- A signature primitive whose key accepts some messages. -/
def acceptingEd25519 (accepted : List Bytes) : Ed25519 where
  publicKey := id
  sign _ _ := ⟨List.replicate 64 0, Signature.length_zeros⟩
  decodePoint _ := .ok ()
  verify _ msg _ := decide (msg ∈ accepted)

/-- What the two entries record. -/
def bootLogEvent (event : Audit.LifecycleEventType) : Audit.LifecycleEvent where
  event
  cordonVersion := "2.1.0"
  teeType := "initialized"
  nodeId := "node-1"

/-- The time of both entries. -/
def bootTime : DateTime := .startOf2026

def bootPayload : Bytes := Utf8.encode (lifecycleText (bootLogEvent .boot))

def shutdownPayload : Bytes := Utf8.encode (lifecycleText (bootLogEvent .shutdown))

/-- What the hash of the first entry is computed over. -/
def bootPreimage : Bytes :=
  entryPreimage (computeGenesisHash "deployment-1") bootTime (Sha256.digestHex bootPayload)

/-- What the hash of the second entry is computed over. -/
def shutdownPreimage : Bytes :=
  entryPreimage (Sha256.digestHex bootPreimage) bootTime (Sha256.digestHex shutdownPayload)

def bootPrimitive : Ed25519 :=
  acceptingEd25519 [Text.asBytes (Sha256.digestHex bootPreimage),
    Text.asBytes (Sha256.digestHex shutdownPreimage)]

def bootEntry : AuditEntry :=
  sealWith bootPrimitive ⟨[]⟩ (computeGenesisHash "deployment-1") 0
    (.lifecycle (bootLogEvent .boot)) bootPayload bootTime ⟨1⟩

def shutdownEntry : AuditEntry :=
  sealWith bootPrimitive ⟨[]⟩ (Sha256.digestHex bootPreimage) 1
    (.lifecycle (bootLogEvent .shutdown)) shutdownPayload bootTime ⟨2⟩

/-- The strings hashed for the two entries and for the genesis hash have distinct digests. -/
theorem boot_digests_nodup :
    ([genesisPreimage "deployment-1", bootPreimage, bootPayload, shutdownPreimage,
      shutdownPayload].map Sha256.digest).Nodup := by
  decide +kernel

theorem appendRun_bootEntry :
    AppendRun bootPrimitive (lifecycleJson []) ⟨[]⟩ "deployment-1" [bootEntry, shutdownEntry] := by
  have hboot : sealEntry bootPrimitive (lifecycleJson []) ⟨[]⟩ (logTail "deployment-1" []) 0
      (.lifecycle (bootLogEvent .boot)) bootTime ⟨1⟩ = .ok bootEntry := rfl
  have hshutdown : sealEntry bootPrimitive (lifecycleJson []) ⟨[]⟩
      (logTail "deployment-1" [bootEntry]) 1 (.lifecycle (bootLogEvent .shutdown)) bootTime ⟨2⟩ =
      .ok shutdownEntry := rfl
  exact (AppendRun.nil.snoc hboot).snoc hshutdown

theorem hashInputs_bootEntry :
    hashInputs (lifecycleJson []) (computeGenesisHash "deployment-1") [bootEntry, shutdownEntry] =
      [bootPreimage, bootPayload, shutdownPreimage, shutdownPayload] :=
  rfl

/-- The two entries of a log, presented in the wrong order, are accepted and agree with the run. -/
theorem verified_boot_entry_agrees :
    ∃ k ≤ [bootEntry, shutdownEntry].length, List.Forall₂ (Agrees (lifecycleJson []))
      (sortBySequence [shutdownEntry, bootEntry]) ([bootEntry, shutdownEntry].take k) := by
  have hsort : sortBySequence [shutdownEntry, bootEntry] = [bootEntry, shutdownEntry] := rfl
  have hhashes : ∀ e ∈ [bootEntry, shutdownEntry],
      e.entryHash = Sha256.digestHex bootPreimage ∨
        e.entryHash = Sha256.digestHex shutdownPreimage := by
    intro e he
    rcases List.mem_cons.1 he with rfl | he
    · exact Or.inl rfl
    · rw [List.mem_singleton.1 he]
      exact Or.inr rfl
  have hchain : ChainOk bootPrimitive (lifecycleJson [])
      (SigningKey.verifyingKey bootPrimitive ⟨[]⟩) (computeGenesisHash "deployment-1") 0
      [bootEntry, shutdownEntry] := by
    refine ⟨appendRun_bootEntry.sealedChain, fun e he ↦ ?_⟩
    refine ⟨_, by rw [appendRun_bootEntry.signature_eq he, Signature.fromHex_toHex], ?_⟩
    rcases hhashes e he with hhash | hhash <;>
      simp [VerifyingKey.verify, bootPrimitive, acceptingEd25519, hhash]
  refine verified_records_agree_with_run appendRun_bootEntry ?_ ?_ ?_
    (hsort ▸ verifyEntries_of_chainOk hchain) rfl
  · rw [hsort, hashInputs_bootEntry]
    intro x hx y hy hxy
    simp only [or_self, Set.mem_ofPred_eq] at hx hy
    exact List.inj_on_of_nodup_map boot_digests_nodup (List.mem_cons_of_mem _ hx)
      (List.mem_cons_of_mem _ hy) hxy
  · -- no entry has the genesis hash
    intro e he hgenesis
    have hne : ∀ x ∈ [bootPreimage, bootPayload, shutdownPreimage, shutdownPayload],
        Sha256.digestHex x ≠ computeGenesisHash "deployment-1" := fun x hx heq ↦
      (List.nodup_cons.1 boot_digests_nodup).1
        (List.mem_map.2 ⟨x, hx, Text.hexEncode_injective heq⟩)
    rcases hhashes e he with hhash | hhash
    · exact hne bootPreimage (by simp) (hhash.symm.trans hgenesis)
    · exact hne shutdownPreimage (by simp) (hhash.symm.trans hgenesis)
  · -- the key accepts what the run signed
    intro msg sig hver
    have hmem : msg ∈ [Text.asBytes (Sha256.digestHex bootPreimage),
        Text.asBytes (Sha256.digestHex shutdownPreimage)] := by
      by_contra hne
      have hrefused : bootPrimitive.verify [] msg sig = false := decide_eq_false hne
      have hfails : VerifyingKey.verify bootPrimitive (SigningKey.verifyingKey bootPrimitive ⟨[]⟩)
          msg sig = .error .signatureInvalid := if_neg (Bool.eq_false_iff.1 hrefused)
      rw [hfails] at hver
      cases hver
    rcases List.mem_cons.1 hmem with rfl | hmem
    · exact ⟨bootEntry, by simp, rfl⟩
    · rw [List.mem_singleton.1 hmem]
      exact ⟨shutdownEntry, by simp, rfl⟩

end Cordon
