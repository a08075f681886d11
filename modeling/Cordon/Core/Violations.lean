import Cordon.Core.RequestAccounts

/-!
# The rule that a policy violation names

Three places refuse a response, `StreamingFilter::push`, `StreamingFilter::finish` and
`process_inference`, and each builds its error from **the first match** of the filter's result
(`FilterResult.violation`). A match is recorded by every rule that fires, whatever its action, and
the rule that blocks is the last to record one. So the error names the rule that blocked exactly
when nothing fired before it, and as a rule that does not fire leaves the text alone, that is a
condition on the text as it came: the first rule that fires on it refuses
(`OutputFilter.FirstToFireRefuses`).

The condition of a rule in its own terms is `CompiledRule.Fires`, and `reaching` pairs each rule
with the text that reaches it. All that is used of the rules is that one that does not fire does
nothing, and that one that fires records a match of its own first (`CompiledRule.apply_of_fires`).

`violation_names_blocking_rule_iff` then has two halves. A text that is refused has a rule that
fires first, and the error names it (`blames_iff_of_blocked`); the stream does no more than to
choose the text that is scanned, and the condition is on that text. Nothing is assumed of the engine
of a rule.
-/

namespace Cordon

variable {T : TextEngine}

/-! ### The rule that is named -/

/-- Each rule with the text that reaches it, up to the rule that refuses. -/
def reaching : List (CompiledRule T) → List Char → List (CompiledRule T × List Char)
  | [], _ => []
  | compiled :: rules, text =>
    (compiled, text) ::
      if (compiled.apply text).blocked then [] else reaching rules (compiled.apply text).text

/-- The rule of that identifier refuses, and its condition held on the text that reached it. -/
def OutputFilter.Blames (f : OutputFilter T) (text : List Char) (ruleId : String) : Prop :=
  ∃ reached ∈ reaching f.rules text, reached.1.rule.ruleId = ruleId ∧
    reached.1.rule.action = .returnError ∧ reached.1.Fires reached.2

/-- The first rule that fires on a text refuses it. -/
def OutputFilter.FirstToFireRefuses (f : OutputFilter T) (text : List Char) : Prop :=
  ∀ before compiled after, f.rules = before ++ compiled :: after →
    (∀ earlier ∈ before, ¬earlier.Fires text) → compiled.Fires text →
    compiled.rule.action = .returnError

theorem mem_of_mem_reaching {rules : List (CompiledRule T)} {text : List Char}
    {reached : CompiledRule T × List Char} (h : reached ∈ reaching rules text) :
    reached.1 ∈ rules := by
  induction rules generalizing text with
  | nil => simp [reaching] at h
  | cons compiled rules ih =>
    rw [reaching] at h
    rcases List.mem_cons.1 h with rfl | h
    · exact List.mem_cons_self
    · split at h
      · simp at h
      · exact List.mem_cons_of_mem compiled (ih h)

/-- A rule at the head that does not fire is as good as absent. -/
theorem blames_cons_of_not_fires {compiled : CompiledRule T} {rules : List (CompiledRule T)}
    {text : List Char} (h : ¬compiled.Fires text) (ruleId : String) :
    (OutputFilter.mk (compiled :: rules)).Blames text ruleId ↔
      (OutputFilter.mk rules).Blames text ruleId := by
  have hquiet := compiled.apply_of_not_fires h
  simp only [OutputFilter.Blames, reaching, hquiet, Applied.quiet]
  constructor
  · intro hblames
    obtain ⟨reached, hmem, hid, haction, hfires⟩ := hblames
    rcases List.mem_cons.1 hmem with rfl | hmem
    · exact absurd hfires h
    · exact ⟨reached, hmem, hid, haction, hfires⟩
  · intro hblames
    obtain ⟨reached, hmem, hrest⟩ := hblames
    exact ⟨reached, List.mem_cons_of_mem _ hmem, hrest⟩

theorem firstToFireRefuses_cons_of_not_fires {compiled : CompiledRule T}
    {rules : List (CompiledRule T)} {text : List Char} (h : ¬compiled.Fires text) :
    (OutputFilter.mk (compiled :: rules)).FirstToFireRefuses text ↔
      (OutputFilter.mk rules).FirstToFireRefuses text := by
  constructor
  · intro hfirst before later after heq hbefore hfires
    refine hfirst (compiled :: before) later after (congrArg (compiled :: ·) heq) ?_ hfires
    intro earlier hearlier
    rcases List.mem_cons.1 hearlier with rfl | hearlier
    · exact h
    · exact hbefore earlier hearlier
  · intro hfirst before later after heq hbefore hfires
    rcases before with - | ⟨head, before⟩
    · obtain ⟨rfl, -⟩ := List.cons.inj heq
      exact absurd hfires h
    · obtain ⟨rfl, htail⟩ := List.cons.inj heq
      exact hfirst before later after htail
        (fun earlier hearlier ↦ hbefore earlier (List.mem_cons_of_mem _ hearlier)) hfires

theorem firstToFireRefuses_cons_of_fires {compiled : CompiledRule T}
    {rules : List (CompiledRule T)} {text : List Char} (h : compiled.Fires text) :
    (OutputFilter.mk (compiled :: rules)).FirstToFireRefuses text ↔
      compiled.rule.action = .returnError := by
  constructor
  · intro hfirst
    exact hfirst [] compiled rules rfl (fun _ hmem ↦ absurd hmem List.not_mem_nil) h
  · intro haction before later after heq hbefore hfires
    rcases before with - | ⟨head, before⟩
    · obtain ⟨rfl, -⟩ := List.cons.inj heq
      exact haction
    · obtain ⟨rfl, -⟩ := List.cons.inj heq
      exact absurd h (hbefore _ List.mem_cons_self)

/-- A rule at the head that fires is the one that is named, and it is to blame if it refuses. -/
theorem blames_cons_of_fires {compiled : CompiledRule T} {rules : List (CompiledRule T)}
    {text : List Char} (h : compiled.Fires text)
    (hids : compiled.rule.ruleId ∉ rules.map (·.rule.ruleId)) :
    (OutputFilter.mk (compiled :: rules)).Blames text compiled.rule.ruleId ↔
      compiled.rule.action = .returnError := by
  constructor
  · intro hblames
    obtain ⟨reached, hmem, hid, haction, -⟩ := hblames
    rcases List.mem_cons.1 (mem_of_mem_reaching hmem) with heq | hmem
    · rwa [← heq]
    · -- identifiers are distinct, so no later rule has this one
      exact absurd (List.mem_map.2 ⟨reached.1, hmem, hid⟩) hids
  · intro haction
    exact ⟨(compiled, text), List.mem_cons_self, rfl, haction, h⟩

/-- **Whom a refusal names**: the first match is that of the first rule that fires. -/
theorem blames_iff_of_blocked {rules : List (CompiledRule T)} {text : List Char}
    (hids : (rules.map (·.rule.ruleId)).Nodup) (hblocked : (applyRules rules text).blocked = true) :
    (OutputFilter.mk rules).Blames text
        (((applyRules rules text).policyMatches.head?.map PolicyMatch.ruleId).getD "") ↔
      (OutputFilter.mk rules).FirstToFireRefuses text := by
  induction rules generalizing text with
  | nil => simp [applyRules, Applied.quiet] at hblocked
  | cons compiled rules ih =>
    obtain ⟨hfresh, hrest⟩ := List.nodup_cons.1 hids
    by_cases hfires : compiled.Fires text
    · have hnamed : (applyRules (compiled :: rules) text).policyMatches.head?.map
          PolicyMatch.ruleId = some compiled.rule.ruleId := by
        obtain ⟨found, hfound, hid⟩ :=
          Option.map_eq_some_iff.1 (compiled.apply_of_fires hfires).named
        rw [applyRules]
        simp only
        split
        · rw [hfound]
          exact congrArg some hid
        · rw [List.head?_append, hfound]
          exact congrArg some hid
      rw [hnamed, firstToFireRefuses_cons_of_fires hfires]
      exact blames_cons_of_fires hfires hfresh
    · have hsame : applyRules (compiled :: rules) text = applyRules rules text := by
        rw [applyRules, compiled.apply_of_not_fires hfires]
        rfl
      rw [hsame] at hblocked ⊢
      rw [blames_cons_of_not_fires hfires, firstToFireRefuses_cons_of_not_fires hfires]
      exact ih hrest hblocked

/-- The rules of a compiled policy are its enabled rules. -/
theorem rules_of_compileRules {rules : List PolicyRule} {compiled : List (CompiledRule T)}
    (h : compileRules rules = .ok compiled) :
    compiled.map (·.rule) = rules.filter (·.enabled) := by
  induction rules generalizing compiled with
  | nil =>
    obtain rfl : [] = compiled := Except.ok.inj h
    rfl
  | cons rule rules ih =>
    rw [compileRules] at h
    rcases he : rule.enabled with - | -
    · rw [he, if_neg (by simp)] at h
      rw [ih h, List.filter_cons_of_neg (by simp [he])]
    · rw [he, if_pos rfl] at h
      obtain ⟨pattern, -, h⟩ := Except.bind_eq_ok.1 h
      obtain ⟨rest, hrest, h⟩ := Except.bind_eq_ok.1 h
      obtain rfl := Except.pure_eq_ok.1 h
      rw [List.map_cons, ih hrest, List.filter_cons_of_pos he]

/-- **Whom the error of a refused text names.** -/
theorem blames_violation_iff {policy : ContentPolicy} {f : OutputFilter T}
    (hnew : OutputFilter.new T policy = .ok f) (hids : (policy.rules.map (·.ruleId)).Nodup)
    {text : List Char} (hblocked : (f.filter text).blocked = true) {ruleId : String}
    (hviolation : (f.filter text).violation = .contentPolicyViolation ruleId) :
    f.Blames text ruleId ↔ f.FirstToFireRefuses text := by
  obtain ⟨compiled, hcompiled, hf⟩ := Except.bind_eq_ok.1 hnew
  obtain rfl := Except.pure_eq_ok.1 hf
  obtain rfl := CordonError.contentPolicyViolation.inj hviolation
  refine blames_iff_of_blocked ?_ hblocked
  rw [show (fun c : CompiledRule T ↦ c.rule.ruleId) = PolicyRule.ruleId ∘ (·.rule) from rfl,
    ← List.map_map, rules_of_compileRules hcompiled]
  exact hids.sublist (List.filter_sublist.map _)

/-! ### The three places that refuse -/

/-- A push that returns a violation has scanned everything pushed so far, and found it refused. -/
theorem of_push_eq_violation {s : StreamingFilter T} {delta : List Char} {ruleId : String}
    (h : (s.push delta).2 = .error (.contentPolicyViolation ruleId)) :
    (s.filter.filter (s.raw ++ delta)).blocked = true ∧
      (s.filter.filter (s.raw ++ delta)).violation = .contentPolicyViolation ruleId := by
  rw [StreamingFilter.push] at h
  simp only at h
  split at h
  · simp at h
  · split at h
    · next hblocked => exact ⟨hblocked, Except.error.inj h⟩
    · split at h <;> simp at h

theorem of_finish_eq_violation {s : StreamingFilter T} {ruleId : String}
    (h : s.finish.2 = .error (.contentPolicyViolation ruleId)) :
    (s.filter.filter s.raw).blocked = true ∧
      (s.filter.filter s.raw).violation = .contentPolicyViolation ruleId := by
  rw [StreamingFilter.finish] at h
  simp only at h
  split at h
  · next hblocked => exact ⟨hblocked, Except.error.inj h⟩
  · simp at h

/-! Nothing that a request meets before the content policy returns a violation of it. -/

theorem IdentityRegistry.verify_ne_violation (H : HostText) (registry : IdentityRegistry) (now : ℤ)
    (identity : ClientIdentity) (ruleId : String) :
    registry.verify H now identity ≠ .error (.contentPolicyViolation ruleId) := by
  intro h
  simp only [verify, throw, throwThe, MonadExceptOf.throw, Except.error_bind] at h
  repeat' split at h
  all_goals first | cases h | skip
  all_goals
    rcases Except.bind_eq_error.1 h with hpolicy | ⟨policy, -, hafter⟩
    · rw [policyFor] at hpolicy
      repeat' split at hpolicy
      all_goals cases hpolicy
    · repeat' split at hafter
      all_goals cases hafter

theorem checkRequestLimits_ne_violation (config : NodeConfig) (messages : List Message)
    (params : InferenceParams) (policy : ClientPolicy) (ruleId : String) :
    checkRequestLimits config messages params policy ≠ .error (.contentPolicyViolation ruleId) := by
  intro h
  simp only [checkRequestLimits, throw, throwThe, MonadExceptOf.throw, Except.error_bind] at h
  repeat' split at h
  all_goals cases h

theorem CordonNode.storeGate_ne_violation (node : CordonNode) (now : ℤ) (modelId ruleId : String) :
    node.storeGate now modelId ≠ .error (.contentPolicyViolation ruleId) := by
  intro h
  simp only [storeGate, ModelStore.ensureServable, staleVerdict] at h
  repeat' split at h
  all_goals cases h

theorem RateLimiter.check_ne_violation (limiter : RateLimiter) (now : ℤ) (clientId : String)
    (maxOutputTokens : ℕ) (policy : ClientPolicy) (ruleId : String) :
    (limiter.check now clientId maxOutputTokens policy).2 ≠
      .error (.contentPolicyViolation ruleId) := by
  intro h
  simp only [check] at h
  split at h <;> cases h

theorem KvCacheManager.openSession_ne_violation (kv : KvCacheManager) (now : ℤ) (fresh : Uuid)
    (clientId : String) (sessionId : Option Uuid) (ruleId : String) :
    (kv.openSession now fresh clientId sessionId).2 ≠ .error (.contentPolicyViolation ruleId) := by
  intro h
  simp only [openSession, insertSession] at h
  repeat' split at h
  all_goals cases h

theorem CordonNode.admitRequest_ne_violation (H : HostText) (node : CordonNode) (clock : AdmitClock)
    (client : ClientIdentity) (modelId : String) (messages : List Message)
    (params : InferenceParams) (ruleId : String) :
    (node.admitRequest H clock client modelId messages params).2 ≠
      .error (.contentPolicyViolation ruleId) := by
  intro h
  rw [admitRequest] at h
  split at h
  · cases h
  · split at h
    · cases h
    · simp only at h
      split at h
      · cases h
      · rcases hverify : node.identity.verify H clock.identity client with e | verified
        · simp only [hverify] at h
          obtain rfl := Except.error.inj h
          exact IdentityRegistry.verify_ne_violation _ _ _ _ ruleId hverify
        · simp only [hverify] at h
          split at h
          · cases h
          · split at h
            · cases h
            · rcases hlimits : checkRequestLimits node.config messages params verified with e | ⟨⟩
              · simp only [hlimits] at h
                obtain rfl := Except.error.inj h
                exact checkRequestLimits_ne_violation _ _ _ _ ruleId hlimits
              · simp only [hlimits] at h
                split at h
                · next hgate =>
                  obtain rfl := Except.error.inj h
                  exact storeGate_ne_violation _ _ _ ruleId hgate
                · rcases hcheck : (node.rateLimiter.check clock.limiter client.clientId
                    params.maxTokens verified).2 with e | ⟨⟩
                  · simp only [hcheck] at h
                    obtain rfl := Except.error.inj h
                    exact RateLimiter.check_ne_violation _ _ _ _ _ ruleId hcheck
                  · simp only [hcheck] at h
                    cases h

namespace Gateway

variable {g : Gateway T} {H : HostText} {S : ScoreEngine} {call : InferenceCall} {o : Occasion T}

theorem acceptRequest_ne_violation (ruleId : String) :
    (g.acceptRequest H call o).2 ≠ .error (.contentPolicyViolation ruleId) := by
  intro h
  rw [acceptRequest] at h
  rcases hadmitted : g.admitCall H call o with ⟨admitted, e | policy⟩
  · simp only [hadmitted] at h
    obtain rfl := Except.error.inj h
    have hnode := CordonNode.admitRequest_ne_violation H g.node o.clock call.client call.modelId
      call.messages call.params ruleId
    rw [admitCall] at hadmitted
    split at hadmitted
    · next hrefused =>
      obtain ⟨-, hcause⟩ := Prod.mk.inj hadmitted
      rw [hrefused] at hnode
      exact hnode hcause
    · cases hadmitted
  · simp only [hadmitted] at h
    rcases hlease : admitted.engine.admitRequest o.leasedAt o.freshSession call.client.clientId
      call.sessionId with ⟨engine, e | lease⟩
    · simp only [hlease] at h
      obtain rfl := Except.error.inj h
      rw [InferenceEngine.admitRequest] at hlease
      split at hlease
      · cases hlease
      · split at hlease
        · next hopen =>
          obtain ⟨-, hcause⟩ := Prod.mk.inj hlease
          have hsession := KvCacheManager.openSession_ne_violation admitted.engine.kvCache
            o.leasedAt o.freshSession call.client.clientId call.sessionId ruleId
          rw [hopen] at hsession
          exact hsession (congrArg Except.error (Except.error.inj hcause))
        · cases hlease
    · rcases hwrite : o.intakeWrite with e | ⟨⟩
      · simp only [hlease, hwrite, append] at h
        cases h
      · simp only [hlease, hwrite, append] at h
        cases h

/-- A unary request that returns a violation was accepted and answered, and the answer refused. -/
theorem of_processInference_eq_violation {runtime : RuntimeReply RawInferenceOutput}
    {ruleId : String}
    (hruntime : ∀ id, runtime.inTime ≠ some (.error (.contentPolicyViolation id)))
    (h : (g.processInference H S call o runtime).2 = .error (.contentPolicyViolation ruleId)) :
    ∃ policy lease raw, (g.acceptRequest H call o).2 = .ok (policy, lease) ∧
      runtime.inTime = some (.ok raw) ∧
      ((g.outputFilter policy).filter raw.text).blocked = true ∧
      ((g.outputFilter policy).filter raw.text).violation = .contentPolicyViolation ruleId := by
  rw [processInference] at h
  rcases haccept : g.acceptRequest H call o with ⟨accepted, e | ⟨policy, lease⟩⟩
  · simp only [haccept] at h
    have hrefused : (g.acceptRequest H call o).2 = .error (.contentPolicyViolation ruleId) := by
      rw [haccept]
      exact congrArg Except.error (Except.error.inj h)
    exact absurd hrefused (acceptRequest_ne_violation ruleId)
  · have hfilter : (g.acceptRequest H call o).1.outputFilter = g.outputFilter :=
      outputFilter_acceptRequest
    rw [haccept] at hfilter
    simp only at hfilter
    simp only [haccept, hfilter] at h
    rcases hreply : runtime.inTime with - | e | raw
    · simp only [RuntimeReply.run, hreply] at h
      cases h
    · simp only [RuntimeReply.run, hreply] at h
      obtain rfl := Except.error.inj h
      exact absurd hreply (hruntime ruleId)
    · simp only [RuntimeReply.run, hreply, concludeInference] at h
      split at h
      · next hblocked => exact ⟨policy, lease, raw, rfl, rfl, hblocked, Except.error.inj h⟩
      · split at h <;> cases h

/-- A request whose answer is refused returns the violation. -/
theorem processInference_of_blocked {runtime : RuntimeReply RawInferenceOutput}
    {policy : ClientPolicy} {lease : InferenceLease} {raw : RawInferenceOutput}
    (haccept : (g.acceptRequest H call o).2 = .ok (policy, lease))
    (hreply : runtime.inTime = some (.ok raw))
    (hblocked : ((g.outputFilter policy).filter raw.text).blocked = true) :
    (g.processInference H S call o runtime).2 =
      .error ((g.outputFilter policy).filter raw.text).violation := by
  rw [processInference]
  rcases haccepted : g.acceptRequest H call o with ⟨accepted, result⟩
  have hfilter : (g.acceptRequest H call o).1.outputFilter = g.outputFilter :=
    outputFilter_acceptRequest
  rw [haccepted] at haccept hfilter
  simp only at hfilter
  obtain rfl : result = .ok (policy, lease) := haccept
  simp only [RuntimeReply.run, hreply, concludeInference, hfilter, hblocked, if_true]

end Gateway

/-- **When a policy violation names the rule that blocked**: exactly when the first rule that fires
on the scanned text refuses. `f` is the compiled policy, for `process_inference` that of the client
who is served, and the runtime does not itself speak of the content policy. -/
theorem violation_names_blocking_rule_iff (policy : ContentPolicy) (f : OutputFilter T)
    (hnew : OutputFilter.new T policy = .ok f) (hids : (policy.rules.map (·.ruleId)).Nodup)
    (ruleId : String) :
    (∀ holdback deltas delta,
      (((StreamingFilter.withHoldback f holdback).pushAll deltas).1.push delta).2 =
        .error (.contentPolicyViolation ruleId) →
      (f.Blames (deltas.flatten ++ delta) ruleId ↔
        f.FirstToFireRefuses (deltas.flatten ++ delta))) ∧
    (∀ holdback deltas,
      ((StreamingFilter.withHoldback f holdback).pushAll deltas).1.finish.2 =
        .error (.contentPolicyViolation ruleId) →
      (f.Blames deltas.flatten ruleId ↔ f.FirstToFireRefuses deltas.flatten)) ∧
    ∀ (g : Gateway T) (H : HostText) (S : ScoreEngine) (call : InferenceCall) (o : Occasion T)
      (runtime : RuntimeReply RawInferenceOutput),
      (∀ id, runtime.inTime ≠ some (.error (.contentPolicyViolation id))) →
      (∀ clientPolicy lease, (g.acceptRequest H call o).2 = .ok (clientPolicy, lease) →
        g.outputFilter clientPolicy = f) →
      (g.processInference H S call o runtime).2 = .error (.contentPolicyViolation ruleId) →
      ∃ raw, runtime.inTime = some (.ok raw) ∧
        (f.Blames raw.text ruleId ↔ f.FirstToFireRefuses raw.text) := by
  refine ⟨?_, ?_, ?_⟩
  · intro holdback deltas delta h
    have hpushed := StreamingFilter.pushAll_spec (StreamingFilter.counts_withHoldback f holdback)
      deltas
    obtain ⟨hblocked, hviolation⟩ := of_push_eq_violation h
    rw [hpushed.filter, hpushed.raw] at hblocked hviolation
    exact blames_violation_iff hnew hids hblocked hviolation
  · intro holdback deltas h
    obtain ⟨hblocked, hviolation⟩ := of_finish_eq_violation h
    rw [StreamingFilter.filter_raw_pushAll] at hblocked hviolation
    exact blames_violation_iff hnew hids hblocked hviolation
  · intro g H S call o runtime hruntime hserved h
    obtain ⟨clientPolicy, lease, raw, haccept, hreply, hblocked, hviolation⟩ :=
      Gateway.of_processInference_eq_violation hruntime h
    rw [hserved clientPolicy lease haccept] at hblocked hviolation
    exact ⟨raw, hreply, blames_violation_iff hnew hids hblocked hviolation⟩

/-! ### A policy that logs before it refuses -/

namespace SampleViolations

/-- A rule that records `alpha`, and one that refuses `beta`. -/
def policy : ContentPolicy :=
  ⟨"1.0", [⟨"log-alpha", "", .tokenBlocklist ["alpha".toList], .logAndContinue, true⟩,
    ⟨"refuse-beta", "", .tokenBlocklist ["beta".toList], .returnError, true⟩], "sample"⟩

/-- The two rules, compiled. -/
def filter : OutputFilter asciiEngine :=
  ⟨policy.rules.map fun rule ↦ ⟨rule, none⟩⟩

/-- A gateway that applies the policy to everyone. -/
def gateway : Gateway asciiEngine :=
  { SampleRequest.gateway with outputFilter := fun _ ↦ filter }

/-- A runtime that answers with a text. -/
def answering (text : String) : RuntimeReply RawInferenceOutput :=
  ⟨some (.ok ⟨text.toList, ⟨5, 2⟩, .stop⟩), 2⟩

theorem answering_inTime (text : String) :
    (answering text).inTime = some (.ok ⟨text.toList, ⟨5, 2⟩, .stop⟩) :=
  rfl

theorem not_fires_alpha : ¬CompiledRule.Fires (T := asciiEngine)
    ⟨⟨"log-alpha", "", .tokenBlocklist ["alpha".toList], .logAndContinue, true⟩, none⟩
    "beta".toList := by
  show ¬∃ token ∈ ["alpha".toList], token ≠ [] ∧ token <:+: "beta".toList
  decide +kernel

theorem fires_beta : CompiledRule.Fires (T := asciiEngine)
    ⟨⟨"refuse-beta", "", .tokenBlocklist ["beta".toList], .returnError, true⟩, none⟩
    "beta".toList := by
  show ∃ token ∈ ["beta".toList], token ≠ [] ∧ token <:+: "beta".toList
  decide +kernel

end SampleViolations

open SampleViolations in
/-- A text with `beta` alone is refused by the rule that is named. -/
theorem violation_names_blocking_rule_iff_beta :
    ((StreamingFilter.new filter).pushAll ["be".toList, "ta".toList]).1.finish.2 =
        .error (.contentPolicyViolation "refuse-beta") ∧
      filter.Blames "beta".toList "refuse-beta" ∧
      (gateway.processInference asciiHost SampleRequest.scores SampleRequest.call
          SampleRequest.occasion (answering "beta")).2 =
        .error (.contentPolicyViolation "refuse-beta") ∧
      ∃ raw, (answering "beta").inTime = some (.ok raw) ∧
        (filter.Blames raw.text "refuse-beta" ↔ filter.FirstToFireRefuses raw.text) := by
  obtain ⟨-, hfinish, hunary⟩ := violation_names_blocking_rule_iff policy filter rfl (by decide)
    "refuse-beta"
  have hstream : ((StreamingFilter.withHoldback filter 128).pushAll
      ["be".toList, "ta".toList]).1.finish.2 =
      .error (.contentPolicyViolation "refuse-beta") := by
    decide +kernel
  have haccepted : (gateway.acceptRequest asciiHost SampleRequest.call SampleRequest.occasion).2 =
      .ok (.defaultFor "alice", SampleRequest.lease) := by
    decide +kernel
  have hblocked : (filter.filter "beta".toList).blocked = true ∧
      (filter.filter "beta".toList).violation = .contentPolicyViolation "refuse-beta" := by
    decide +kernel
  have hanswer : (gateway.processInference asciiHost SampleRequest.scores SampleRequest.call
      SampleRequest.occasion (answering "beta")).2 =
      .error (.contentPolicyViolation "refuse-beta") := by
    rw [Gateway.processInference_of_blocked haccepted (answering_inTime "beta") hblocked.1]
    exact congrArg Except.error hblocked.2
  refine ⟨hstream, (hfinish 128 _ hstream).2 ?_, hanswer, ?_⟩
  · exact (firstToFireRefuses_cons_of_not_fires not_fires_alpha).2
      ((firstToFireRefuses_cons_of_fires fires_beta).2 rfl)
  · exact hunary gateway asciiHost SampleRequest.scores SampleRequest.call SampleRequest.occasion
      (answering "beta") (by simp [answering]) (fun _ _ _ ↦ rfl) hanswer

open SampleViolations in
/-- **A rule that only records is named for a refusal**, if it fires before the one that refuses. -/
theorem violation_names_a_recording_rule :
    OutputFilter.new asciiEngine policy = .ok filter ∧ (policy.rules.map (·.ruleId)).Nodup ∧
      ((StreamingFilter.new filter).pushAll ["alpha, beta".toList]).1.finish.2 =
        .error (.contentPolicyViolation "log-alpha") ∧
      ¬filter.Blames "alpha, beta".toList "log-alpha" := by
  refine ⟨rfl, by decide, by decide +kernel, fun h ↦ ?_⟩
  obtain ⟨reached, hmem, hid, haction, -⟩ := h
  have hrule := mem_of_mem_reaching hmem
  simp only [filter, policy, List.map_cons, List.map_nil, List.mem_cons, List.not_mem_nil,
    or_false] at hrule
  rcases hrule with heq | heq
  · rw [heq] at haction
    simp at haction
  · rw [heq] at hid
    simp at hid

end Cordon
