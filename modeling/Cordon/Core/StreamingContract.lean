import Cordon.Core.PolicyRules
import Cordon.Core.StreamingFilter

/-!
# What streaming a policy promises

**One rule.** A blocklist and a length bound can be streamed (`settled_of_singleRule`), as long as
the window is no more than one character shorter than a token: an occurrence that the next deltas
complete starts in the window, so its first character has not been handed over. A blocklist that
redacts is the one case in which the text handed over is not the text read, and there one token is
all that a single window covers.

**Several rules.** Each rule reads what the rules before it wrote, and a topic has no position at
all, so what a scan leaves standing need not be the beginning of what the whole text is filtered to.
`run_faithful_iff` says position by position what is needed of the scans. What the rules have to do
with it is `OutputFilter.shared`, the part of a scanned text on which they act in the same way as on
the whole: rules that cut keep of it what is before both cuts, and redaction rewrites it for as long
as a token starts at the same places in both texts. `OutputFilter.StreamsTo` asks of every scan to
let go of no more than that.

This is always enough (`scansAgree_of_streamsTo`). It is exact if at most one token is rewritten
(`streamsTo_of_scansAgree`), since then the two texts differ where the shared part ends: one has the
marker there, the other the first letter of the token or nothing. Two tokens of which one begins the
other can be rewritten at the same place to the same marker, and the texts part later or not at all.
-/

namespace Cordon

variable {T : TextEngine} {rule : PolicyRule} {holdback : ℕ}

/-! ### The rules one at a time -/

/-- A filter with a single rule does what the rule does. -/
theorem filter_single (compiled : CompiledRule T) (text : List Char) :
    ((OutputFilter.mk [compiled]).filter text).text = (compiled.apply text).text ∧
      ((OutputFilter.mk [compiled]).filter text).blocked = (compiled.apply text).blocked := by
  rcases hb : (compiled.apply text).blocked with - | -
  · simp [OutputFilter.filter, applyRules, Applied.quiet, hb]
  · simp [OutputFilter.filter, applyRules, hb]

/-- A policy of one enabled rule that needs no regular expression compiles. -/
theorem new_of_single {policy : ContentPolicy}
    (henabled : policy.rules.filter (·.enabled) = [rule])
    (hpattern : compilePattern (T := T) rule = .ok none) :
    OutputFilter.new T policy = .ok ⟨[⟨rule, none⟩]⟩ := by
  rw [OutputFilter.new, compileRules_eq, henabled, List.mapM_cons, List.mapM_nil, hpattern]
  rfl

/-- **Truncation at the first token of the list that occurs.** A token listed earlier may turn up
later in the text and move the cut to the right, but never behind the window. -/
theorem releasable_applyTokens_truncate (haction : rule.action = .truncate)
    {tokens : List (List Char)} (hlen : ∀ token ∈ tokens, token.length ≤ holdback + 1)
    (p t : List Char) :
    Holdback.releasable holdback (applyTokens rule tokens p).text <+:
      (applyTokens rule tokens (p ++ t)).text := by
  induction tokens with
  | nil => exact (Holdback.releasable_isPrefix _ _).trans (List.prefix_append p t)
  | cons token tokens ih =>
    have hrest := ih fun token htoken ↦ hlen token (List.mem_cons_of_mem _ htoken)
    rw [applyTokens, applyTokens]
    by_cases hempty : token = []
    · rw [if_pos hempty, if_pos hempty]
      exact hrest
    · rw [if_neg hempty, if_neg hempty]
      rcases hfind : Occurrence.find token p with - | position
      · rcases hfind' : Occurrence.find token (p ++ t) with - | position
        · exact hrest
        · -- the token is completed by `t`, so it starts in the window of `p`
          have hlate := Occurrence.lt_of_find_eq_none hfind
            (Occurrence.isPrefix_drop_of_find hfind')
          have htoken := hlen token List.mem_cons_self
          simp only [haction]
          have hcut : (applyTokens rule tokens p).text <+: p := by
            rw [(applyTokens_truncate haction tokens p).1]
            exact List.take_prefix _ _
          refine (Holdback.releasable_isPrefix_of_isPrefix hcut).trans ?_
          refine List.prefix_take_iff.2 ⟨(Holdback.releasable_isPrefix _ _).trans
            (List.prefix_append p t), ?_⟩
          rw [Holdback.length_releasable]
          omega
      · -- the token is already there, and the cut stays
        rw [Occurrence.find_append hfind t]
        simp only [haction]
        refine (Holdback.releasable_isPrefix _ _).trans ?_
        exact List.prefix_take_iff.2 ⟨(List.take_prefix _ _).trans (List.prefix_append p t),
          by rw [List.length_take]; omega⟩

/-- The rules of which a policy may have one: a blocklist whose tokens are at most one character
longer than the window, with a single token if it redacts, and a bound on the length. -/
inductive SingleRule (holdback : ℕ) : PolicyRuleType → PolicyAction → Prop
  | blocklist (tokens : List (List Char)) (action : PolicyAction) (haction : action ≠ .redact)
      (hlen : ∀ token ∈ tokens, token.length ≤ holdback + 1) :
      SingleRule holdback (.tokenBlocklist tokens) action
  | redactOne (token : List Char) (hlen : token.length ≤ holdback + 1) :
      SingleRule holdback (.tokenBlocklist [token]) .redact
  | maxLength (maxChars : ℕ) (action : PolicyAction) :
      SingleRule holdback (.maxLength maxChars) action

/-- None of them has a regular expression to compile. -/
theorem SingleRule.compilePattern_eq (h : SingleRule holdback rule.ruleType rule.action) :
    compilePattern (T := T) rule = .ok none := by
  rw [compilePattern]
  generalize rule.ruleType = ruleType, rule.action = action at h
  rcases h with - | - | - <;> rfl

/-- **Each of them can be streamed** behind its window. -/
theorem settled_of_singleRule (h : SingleRule holdback rule.ruleType rule.action) :
    (OutputFilter.mk [(⟨rule, none⟩ : CompiledRule T)]).Settled holdback := by
  intro p t hpasses
  rw [(filter_single _ _).2] at hpasses ⊢
  rw [(filter_single _ _).1, (filter_single _ _).1]
  have hsame : Holdback.releasable holdback p <+: p ++ t :=
    (Holdback.releasable_isPrefix _ _).trans (List.prefix_append p t)
  simp only [CompiledRule.apply] at hpasses ⊢
  generalize htype : rule.ruleType = ruleType, haction : rule.action = action at h
  rw [htype] at hpasses
  rcases h with ⟨tokens, action, hredact, hlen⟩ | ⟨token, hlen⟩ | ⟨maxChars, action⟩
  · rcases action with - | - | - | -
    · have hp := applyTokens_returnError haction tokens p
      have hpt := applyTokens_returnError haction tokens (p ++ t)
      refine ⟨hp.2.2 fun token htoken hne ↦ ?_, by simpa only [hp.1, hpt.1] using hsame⟩
      refine Occurrence.find_eq_none.2 fun q hq ↦ ?_
      exact Occurrence.find_eq_none.1 (hpt.2.1 hpasses token htoken hne) q
        (Occurrence.isPrefix_drop_append t hq)
    · exact absurd rfl hredact
    · exact ⟨(applyTokens_truncate haction tokens p).2,
        releasable_applyTokens_truncate haction hlen p t⟩
    · have hp := applyTokens_logAndContinue haction tokens p
      have hpt := applyTokens_logAndContinue haction tokens (p ++ t)
      exact ⟨hp.2, by simpa only [hp.1, hpt.1] using hsame⟩
  · by_cases hne : token = []
    · subst hne
      exact ⟨rfl, hsame⟩
    · have hp := applyTokens_redact haction [token] p
      have hpt := applyTokens_redact haction [token] (p ++ t)
      refine ⟨hp.2, ?_⟩
      simp only [hp.1, hpt.1, redactTokens_singleton hne]
      exact Occurrence.replace_append redactedMarker hlen p t
  · have hp := applyMaxLength_spec rule maxChars p
    have hpt := applyMaxLength_spec rule maxChars (p ++ t)
    refine ⟨?_, ?_⟩
    · rw [Bool.eq_false_iff] at hpasses ⊢
      intro hblocked
      obtain ⟨herr, hlong⟩ := hp.2.1 hblocked
      exact hpasses (hpt.2.2 ⟨herr, by rw [List.length_append]; omega⟩)
    · simp only [hp.1, hpt.1]
      split
      · refine (Holdback.releasable_isPrefix _ _).trans ?_
        exact List.prefix_take_iff.2 ⟨(List.take_prefix _ _).trans (List.prefix_append p t),
          by rw [List.length_take]; omega⟩
      · exact hsame

/-- Of the blocklists only those that refuse ever block. -/
theorem SingleRule.returnError_of_blocked {tokens : List (List Char)} {text : List Char}
    (h : SingleRule holdback (.tokenBlocklist tokens) rule.action)
    (hblocked : (applyTokens rule tokens text).blocked = true) :
    rule.action = .returnError ∧ ∀ token ∈ tokens, token.length ≤ holdback + 1 := by
  generalize haction : rule.action = action at h
  rcases h with ⟨_, action, hredact, hlen⟩ | ⟨token, hlen⟩
  · rcases action with - | - | - | -
    · exact ⟨rfl, hlen⟩
    · exact absurd rfl hredact
    · simp [(applyTokens_truncate haction tokens text).2] at hblocked
    · simp [(applyTokens_logAndContinue haction tokens text).2] at hblocked
  · simp [(applyTokens_redact haction [token] text).2] at hblocked

/-- **Nothing of a listed token is handed over** by a stream whose blocklist refuses: the pieces are
a beginning of the text that ends before every occurrence. -/
theorem releasedBefore_of_returnError {tokens : List (List Char)}
    (htype : rule.ruleType = .tokenBlocklist tokens) (haction : rule.action = .returnError)
    (hlen : ∀ token ∈ tokens, token.length ≤ holdback + 1) (deltas : List (List Char)) :
    let before := releasedBefore (OutputFilter.mk [(⟨rule, none⟩ : CompiledRule T)]) holdback deltas
    before <+: deltas.flatten ∧ ∀ token ∈ tokens, token ≠ [] →
      ∀ q, token <+: deltas.flatten.drop q → before.length ≤ q := by
  intro before
  have hversion : ∀ out ∈ (OutputFilter.mk [(⟨rule, none⟩ : CompiledRule T)]).versions
      (scannedTexts holdback deltas), (∃ t, deltas.flatten = out ++ t) ∧
        ∀ token ∈ tokens, token ≠ [] → Occurrence.find token out = none := by
    intro out hout
    rw [OutputFilter.versions, List.mem_map] at hout
    obtain ⟨p, hp, rfl⟩ := hout
    obtain ⟨hscan, hpasses⟩ := List.mem_filter.1 hp
    have happly := applyTokens_returnError haction tokens p
    simp only [Bool.not_eq_eq_eq_not, Bool.not_true, (filter_single _ _).2, CompiledRule.apply,
      htype] at hpasses
    simp only [(filter_single _ _).1, CompiledRule.apply, htype, happly.1]
    exact ⟨exists_append_of_mem_scannedTexts hscan, happly.2.1 hpasses⟩
  refine ⟨Holdback.released_isPrefix fun out hout ↦ ?_, fun token htoken hne q hq ↦ ?_⟩
  · obtain ⟨⟨t, ht⟩, -⟩ := hversion out hout
    rw [ht]
    exact (Holdback.releasable_isPrefix _ _).trans (List.prefix_append _ _)
  · refine Holdback.length_released_le.2 fun out hout ↦ ?_
    obtain ⟨⟨t, ht⟩, hfind⟩ := hversion out hout
    rw [ht] at hq
    have hlate := Occurrence.lt_of_find_eq_none (hfind token htoken hne) hq
    have htokenLen := hlen token htoken
    omega

/-! ### One rule -/

/-- A call of the run was refused by the policy. -/
def StreamRun.Violates (run : StreamRun T) : Prop :=
  ∃ ruleId, .error (.contentPolicyViolation ruleId) ∈ run.pushes ∨
    run.finished = .error (.contentPolicyViolation ruleId)

/-- **Streaming equals filtering, for a single rule**: for every text and every split of it. If the
filter refuses the text then the stream is refused, and a blocklist has handed over nothing of any
listed token; otherwise every call succeeds and the pieces are the filtered text. -/
theorem streaming_agrees_with_filtering (policy : ContentPolicy) (rule : PolicyRule)
    (henabled : policy.rules.filter (·.enabled) = [rule]) (holdback : ℕ)
    (hrule : SingleRule holdback rule.ruleType rule.action) (deltas : List (List Char)) :
    ∃ f, OutputFilter.new T policy = .ok f ∧
      let whole := f.filter deltas.flatten
      let run := (StreamingFilter.withHoldback f holdback).run deltas
      (whole.blocked = true → run.Violates ∧
        ∀ tokens, rule.ruleType = .tokenBlocklist tokens →
          run.pieces <+: deltas.flatten ∧ ∀ token ∈ tokens, token ≠ [] →
            ∀ q, token <+: deltas.flatten.drop q → run.pieces.length ≤ q) ∧
      (whole.blocked = false →
        ¬run.Errs ∧ run.pieces = whole.text ∧ run.final.releasedText = whole.text) := by
  refine ⟨_, new_of_single henabled hrule.compilePattern_eq, fun hblocked ↦ ?_, fun hpasses ↦ ?_⟩
  · obtain ⟨hfinished, hpieces⟩ := run_of_blocked holdback hblocked
    refine ⟨⟨_, Or.inr hfinished⟩, fun tokens htype ↦ ?_⟩
    rw [htype] at hrule
    rw [(filter_single _ _).2] at hblocked
    simp only [CompiledRule.apply, htype] at hblocked
    obtain ⟨haction, hlen⟩ := hrule.returnError_of_blocked hblocked
    rw [hpieces]
    exact releasedBefore_of_returnError htype haction hlen deltas
  · exact streamed_of_settled (settled_of_singleRule hrule) hpasses

/-- An engine for texts without special characters: patterns are literal words of letters and
digits, and case conversion is that of ASCII. -/
def asciiEngine : TextEngine where
  Regex := List Char
  compile pattern :=
    if pattern.toList.all Char.isAlphanum then .ok pattern.toList else .error "not a literal word"
  find := Occurrence.find
  count word text := (List.range text.length).countP fun q ↦ decide (word <+: text.drop q)
  replaceAll word text replacement := Occurrence.replace word replacement.toList text
  toLowercase := List.map Char.toLower

/-- A policy of one rule. -/
def samplePolicy (ruleType : PolicyRuleType) (action : PolicyAction) : ContentPolicy :=
  ⟨"1.0", [⟨"r1", "a sample rule", ruleType, action, true⟩], "sample"⟩

/-- A blocklist of one token behind a window one character shorter than the token. -/
theorem streaming_agrees_with_filtering_secret :
    ∃ f, OutputFilter.new asciiEngine
        (samplePolicy (.tokenBlocklist ["secret".toList]) .returnError) = .ok f ∧
      (f.filter ["the sec".toList, "ret".toList].flatten).blocked = true ∧
      ((StreamingFilter.withHoldback f 5).run ["the sec".toList, "ret".toList]).Violates := by
  obtain ⟨f, hf, hrefused, -⟩ := streaming_agrees_with_filtering (T := asciiEngine)
    (samplePolicy (.tokenBlocklist ["secret".toList]) .returnError) _ rfl 5
    (.blocklist _ _ (by decide) (by decide)) ["the sec".toList, "ret".toList]
  have hblocked : (f.filter ["the sec".toList, "ret".toList].flatten).blocked = true := by
    rw [OutputFilter.new] at hf
    obtain rfl := Except.ok.inj hf
    decide +kernel
  exact ⟨f, hf, hblocked, (hrefused hblocked).1⟩

/-! ### Several rules -/

/-- A rule without a regular expression: a blocklist of tokens of at most `n` characters, a topic or
a length bound. -/
def PolicyRule.Plain (n : ℕ) (rule : PolicyRule) : Prop :=
  match rule.ruleType with
  | .tokenBlocklist tokens => ∀ token ∈ tokens, token.length ≤ n
  | .topicFilter _ _ => True
  | .maxLength _ => True
  | _ => False

/-- A policy of enabled rules without regular expressions. -/
def ContentPolicy.Plain (policy : ContentPolicy) (n : ℕ) : Prop :=
  ∀ rule ∈ policy.rules, rule.enabled = true ∧ rule.Plain n

/-- Such a policy compiles, to its own rules. -/
theorem ContentPolicy.Plain.new_eq {policy : ContentPolicy} {n : ℕ} (h : policy.Plain n) :
    OutputFilter.new T policy = .ok ⟨policy.rules.map fun rule ↦ ⟨rule, none⟩⟩ := by
  have hrules : ∀ rules : List PolicyRule, (∀ rule ∈ rules, rule ∈ policy.rules) →
      compileRules (T := T) rules = .ok (rules.map fun rule ↦ ⟨rule, none⟩) := by
    intro rules hmem
    induction rules with
    | nil => rfl
    | cons rule rules ih =>
      obtain ⟨henabled, hkind⟩ := h rule (hmem rule List.mem_cons_self)
      have hpattern : compilePattern (T := T) rule = .ok none := by
        rw [compilePattern]
        rw [PolicyRule.Plain] at hkind
        split
        · next hrt => simp [hrt] at hkind
        · next hrt => simp [hrt] at hkind
        · rfl
      rw [compileRules, if_pos henabled, hpattern,
        ih fun rule hrule ↦ hmem rule (List.mem_cons_of_mem _ hrule)]
      rfl
  rw [OutputFilter.new, hrules _ fun _ hrule ↦ hrule]
  rfl

/-- **What the stream owes the filter**: if no call errs, `finish` returns what the whole text is
filtered to and exactly that has been released; and a call errs if and only if the whole text is
refused. -/
def StreamRun.Faithful (run : StreamRun T) (whole : FilterResult) : Prop :=
  (¬run.Errs → ∃ tail, run.finished = .ok (tail, whole) ∧ run.final.releasedText = whole.text) ∧
    (run.Errs ↔ whole.blocked = true)

/-- The scans of a stream give each position its final character: the text is refused, or no text
scanned on the way is refused and the first scan long enough to release a position has there what
the filter of the whole text has. -/
def OutputFilter.ScansAgree (f : OutputFilter T) (holdback : ℕ) (deltas : List (List Char)) :
    Prop :=
  (f.filter deltas.flatten).blocked = true ∨
    ∀ before p, before ++ [p] <+: scannedTexts holdback deltas →
      (f.filter p).blocked = false ∧
        ∀ j, (∀ q ∈ before, (f.filter q).text.length - holdback ≤ j) →
          j < (f.filter p).text.length - holdback →
            (f.filter p).text[j]? = (f.filter deltas.flatten).text[j]?

/-- The texts scanned on the way are all looked at last at some point. -/
theorem exists_append_singleton_of_mem {α : Type} {p : α} {ps : List α} (hp : p ∈ ps) :
    ∃ before, before ++ [p] <+: ps := by
  obtain ⟨before, after, rfl⟩ := List.append_of_mem hp
  exact ⟨before, after, by simp⟩

/-- **The contract, position by position.** -/
theorem run_faithful_iff (f : OutputFilter T) (deltas : List (List Char)) :
    ((StreamingFilter.withHoldback f holdback).run deltas).Faithful (f.filter deltas.flatten) ↔
      f.ScansAgree holdback deltas := by
  set run := (StreamingFilter.withHoldback f holdback).run deltas with hrun
  rcases hwhole : (f.filter deltas.flatten).blocked with - | -
  · obtain ⟨hfinished, -, hreleased⟩ := run_of_passes holdback hwhole
    have herrs : run.Errs ↔ ∃ p ∈ scannedTexts holdback deltas, (f.filter p).blocked = true := by
      rw [StreamRun.Errs, exists_error_mem_pushes, hrun, hfinished]
      simp
    -- what the two conditions have in common: no scan is refused
    by_cases hscan : ∀ p ∈ scannedTexts holdback deltas, (f.filter p).blocked = false
    · have hok : ¬run.Errs := by
        rintro herr
        obtain ⟨p, hp, hblocked⟩ := herrs.1 herr
        simp [hscan p hp] at hblocked
      have hversions : f.versions (scannedTexts holdback deltas) =
          (scannedTexts holdback deltas).map fun p ↦ (f.filter p).text := by
        rw [OutputFilter.versions, List.filter_eq_self.2 fun p hp ↦ by simp [hscan p hp]]
      have hexact : releasedBefore f holdback deltas <+: (f.filter deltas.flatten).text ↔
          f.ScansAgree holdback deltas := by
        rw [releasedBefore, hversions, Holdback.released_isPrefix_iff, OutputFilter.ScansAgree]
        simp only [hwhole, Bool.false_eq_true, false_or]
        refine forall_congr' fun before ↦ forall_congr' fun p ↦ forall_congr' fun hp ↦ ?_
        rw [and_iff_right (hscan p (hp.subset (by simp)))]
      rw [← hexact, ← Holdback.append_drop_eq_iff, ← hreleased]
      refine ⟨fun hfaithful ↦ ?_, fun heq ↦ ⟨fun _ ↦ ⟨_, hfinished, heq⟩, ?_⟩⟩
      · obtain ⟨tail, -, heq⟩ := hfaithful.1 hok
        exact heq
      · exact iff_of_false hok (by simp [hwhole])
    · refine iff_of_false (fun hfaithful ↦ hscan fun p hp ↦ ?_) fun hagree ↦ hscan fun p hp ↦ ?_
      · rw [Bool.eq_false_iff]
        intro hblocked
        have hbad := hfaithful.2.1 (herrs.2 ⟨p, hp, hblocked⟩)
        simp [hwhole] at hbad
      · obtain ⟨before, hbefore⟩ := exists_append_singleton_of_mem hp
        rcases hagree with hbad | hall
        · simp [hwhole] at hbad
        · exact (hall before p hbefore).1
  · obtain ⟨hfinished, -⟩ := run_of_blocked holdback hwhole
    have herr : run.Errs := Or.inr ⟨_, hfinished⟩
    exact iff_of_true ⟨fun hno ↦ absurd herr hno, iff_of_true herr hwhole⟩ (Or.inl hwhole)

/-! ### Two texts under the same rules -/

/-- What a blocklist that redacts makes of two texts that begin with `c`, as far as it decides the
same in both. -/
def sharedTokens : List (List Char) → List Char → List Char → List Char → List Char
  | [], c, _, _ => c
  | token :: tokens, c, x, y =>
    if token = [] then sharedTokens tokens c x y
    else sharedTokens tokens
      (Occurrence.shared token redactedMarker 0 c (x.drop c.length) (y.drop c.length))
      (Occurrence.replace token redactedMarker x) (Occurrence.replace token redactedMarker y)

/-- What a rule makes of two texts that begin with `c`, as far as it decides the same in both. A
rule that cuts keeps what is before both cuts; of a regular expression nothing is said. -/
def CompiledRule.shared (compiled : CompiledRule T) (c x y : List Char) : List Char :=
  match compiled.rule.ruleType, compiled.rule.action with
  | .tokenBlocklist tokens, .redact => sharedTokens tokens c x y
  | .patternFilter _ _, _ => []
  | .piiDetector _ _, _ => []
  | _, _ => c.take (min (compiled.leaves x).length (compiled.leaves y).length)

/-- The same for a list of rules, each of which is given what the rules before it made of the two
texts. -/
def sharedAfter : List (CompiledRule T) → List Char → List Char → List Char → List Char
  | [], c, _, _ => c
  | compiled :: rules, c, x, y =>
    sharedAfter rules (compiled.shared c x y) (compiled.leaves x) (compiled.leaves y)

/-- What a policy leaves of a text in every respect as it leaves it of a longer one. -/
def OutputFilter.shared (f : OutputFilter T) (text longer : List Char) : List Char :=
  sharedAfter f.rules text text longer

/-- What a rule rewrites: the tokens of a blocklist that redacts. -/
def PolicyRule.redacted (rule : PolicyRule) : List (List Char) :=
  match rule.ruleType, rule.action with
  | .tokenBlocklist tokens, .redact => tokens.filter (· ≠ [])
  | _, _ => []

/-- Only the tokens that are not empty are rewritten. -/
theorem redactTokens_filter (tokens : List (List Char)) (text : List Char) :
    redactTokens (tokens.filter (· ≠ [])) text = redactTokens tokens text := by
  induction tokens generalizing text with
  | nil => rfl
  | cons token tokens ih =>
    by_cases hempty : token = []
    · rw [List.filter_cons_of_neg (by simp [hempty]), redactTokens, if_pos hempty, ih]
    · rw [List.filter_cons_of_pos (by simp [hempty]), redactTokens, redactTokens, if_neg hempty,
        if_neg hempty, ih]

theorem sharedTokens_filter (tokens : List (List Char)) (c x y : List Char) :
    sharedTokens (tokens.filter (· ≠ [])) c x y = sharedTokens tokens c x y := by
  induction tokens generalizing c x y with
  | nil => rfl
  | cons token tokens ih =>
    by_cases hempty : token = []
    · rw [List.filter_cons_of_neg (by simp [hempty]), sharedTokens, if_pos hempty, ih]
    · rw [List.filter_cons_of_pos (by simp [hempty]), sharedTokens, sharedTokens, if_neg hempty,
        if_neg hempty, ih]

theorem sharedTokens_isPrefix (tokens : List (List Char)) {c x y : List Char} (hx : c <+: x)
    (hy : c <+: y) :
    sharedTokens tokens c x y <+: redactTokens tokens x ∧
      sharedTokens tokens c x y <+: redactTokens tokens y := by
  induction tokens generalizing c x y with
  | nil => exact ⟨hx, hy⟩
  | cons token tokens ih =>
    rw [sharedTokens, redactTokens, redactTokens]
    by_cases hempty : token = []
    · rw [if_pos hempty, if_pos hempty, if_pos hempty]
      exact ih hx hy
    · rw [if_neg hempty, if_neg hempty, if_neg hempty]
      refine ih (Occurrence.shared_isPrefix_replace _ _ hx _) ?_
      rw [Occurrence.shared_comm]
      exact Occurrence.shared_isPrefix_replace _ _ hy _

/-- A rule that rewrites nothing keeps a beginning of every text. -/
theorem CompiledRule.leaves_isPrefix {compiled : CompiledRule T} {n : ℕ}
    (hplain : compiled.rule.Plain n) (hnone : compiled.rule.redacted = []) (text : List Char) :
    compiled.leaves text <+: text := by
  rw [PolicyRule.Plain] at hplain
  rw [PolicyRule.redacted] at hnone
  rw [leaves]
  rcases htype : compiled.rule.ruleType with tokens | ⟨pattern, replacement⟩ |
    ⟨keywords, minMatches⟩ | ⟨piiTypes, redact⟩ | maxChars
  · rcases haction : compiled.rule.action with - | - | - | -
    · exact List.prefix_rfl
    · simp only [htype, haction] at hnone ⊢
      rw [← redactTokens_filter, hnone]
      exact List.prefix_rfl
    · exact List.take_prefix _ _
    · exact List.prefix_rfl
  · simp [htype] at hplain
  · rcases haction : compiled.rule.action with - | - | - | -
    · exact List.prefix_rfl
    · exact List.prefix_rfl
    · simp only
      split
      · exact List.nil_prefix
      · exact List.prefix_rfl
    · exact List.prefix_rfl
  · simp [htype] at hplain
  · rcases haction : compiled.rule.action with - | - | - | -
    · exact List.prefix_rfl
    · exact List.prefix_rfl
    · exact List.take_prefix _ _
    · exact List.prefix_rfl

/-- The two texts keep in common what is before both cuts. -/
theorem CompiledRule.shared_of_redacted_eq_nil {compiled : CompiledRule T} {n : ℕ}
    (hplain : compiled.rule.Plain n) (hnone : compiled.rule.redacted = []) {c x y : List Char}
    (hx : c <+: x) (hy : c <+: y) :
    compiled.shared c x y =
      c.take (min (compiled.leaves x).length (compiled.leaves y).length) := by
  rw [PolicyRule.Plain] at hplain
  rw [PolicyRule.redacted] at hnone
  rw [shared]
  rcases htype : compiled.rule.ruleType with tokens | ⟨pattern, replacement⟩ |
    ⟨keywords, minMatches⟩ | ⟨piiTypes, redact⟩ | maxChars
  · rcases haction : compiled.rule.action with - | - | - | -
    · rfl
    · simp only [htype, haction] at hnone
      have hsame : ∀ z, redactTokens tokens z = z := fun z ↦ by
        rw [← redactTokens_filter, hnone, redactTokens]
      simp only [leaves, htype, haction, hsame]
      rw [← sharedTokens_filter, hnone, sharedTokens,
        List.take_of_length_le (le_min hx.length_le hy.length_le)]
    · rfl
    · rfl
  · simp [htype] at hplain
  · rfl
  · simp [htype] at hplain
  · rfl

/-- What two texts keep in common is the beginning of what either leaves. -/
theorem CompiledRule.shared_isPrefix {compiled : CompiledRule T} {n : ℕ}
    (hplain : compiled.rule.Plain n) {c x y : List Char} (hx : c <+: x) (hy : c <+: y) :
    compiled.shared c x y <+: compiled.leaves x ∧ compiled.shared c x y <+: compiled.leaves y := by
  by_cases hnone : compiled.rule.redacted = []
  · rw [shared_of_redacted_eq_nil hplain hnone hx hy]
    have hcut : ∀ z, c <+: z → ∀ k ≤ (compiled.leaves z).length, c.take k <+: compiled.leaves z :=
      fun z hz k hk ↦ List.prefix_of_prefix_length_le ((List.take_prefix _ _).trans hz)
        (leaves_isPrefix hplain hnone z) ((List.length_take_le _ _).trans hk)
    exact ⟨hcut x hx _ (min_le_left _ _), hcut y hy _ (min_le_right _ _)⟩
  · rw [PolicyRule.redacted] at hnone
    rw [shared, leaves, leaves]
    split at hnone
    · next tokens htype haction =>
      simp only [htype, haction]
      exact sharedTokens_isPrefix tokens hx hy
    · exact absurd rfl hnone

variable {rules : List (CompiledRule T)} {n : ℕ} {c x y : List Char}

theorem sharedAfter_isPrefix (hplain : ∀ compiled ∈ rules, compiled.rule.Plain n) (hx : c <+: x)
    (hy : c <+: y) :
    sharedAfter rules c x y <+: afterRules rules x ∧
      sharedAfter rules c x y <+: afterRules rules y := by
  induction rules generalizing c x y with
  | nil => exact ⟨hx, hy⟩
  | cons compiled rules ih =>
    obtain ⟨hhead, hrest⟩ := List.forall_mem_cons.1 hplain
    obtain ⟨hx', hy'⟩ := CompiledRule.shared_isPrefix hhead hx hy
    exact ih hrest hx' hy'

/-- Rules that rewrite nothing keep a beginning of every text. -/
theorem afterRules_isPrefix (hplain : ∀ compiled ∈ rules, compiled.rule.Plain n)
    (hnone : ∀ compiled ∈ rules, compiled.rule.redacted = []) (text : List Char) :
    afterRules rules text <+: text := by
  induction rules generalizing text with
  | nil => exact List.prefix_rfl
  | cons compiled rules ih =>
    obtain ⟨hhead, hrest⟩ := List.forall_mem_cons.1 hplain
    obtain ⟨hhead', hrest'⟩ := List.forall_mem_cons.1 hnone
    exact (ih hrest hrest' _).trans (CompiledRule.leaves_isPrefix hhead hhead' text)

theorem OutputFilter.shared_isPrefix (f : OutputFilter T)
    (hplain : ∀ compiled ∈ f.rules, compiled.rule.Plain n) {text longer : List Char}
    (h : text <+: longer) :
    f.shared text longer <+: f.leaves text ∧ f.shared text longer <+: f.leaves longer :=
  sharedAfter_isPrefix hplain List.prefix_rfl h

/-- **Rules that rewrite nothing only shorten what two texts have in common**, to what they leave of
both. -/
theorem length_sharedAfter (hplain : ∀ compiled ∈ rules, compiled.rule.Plain n)
    (hnone : ∀ compiled ∈ rules, compiled.rule.redacted = []) (hx : c <+: x) (hy : c <+: y) :
    (sharedAfter rules c x y).length =
      min c.length (min (afterRules rules x).length (afterRules rules y).length) := by
  induction rules generalizing c x y with
  | nil =>
    have hxlen := hx.length_le
    have hylen := hy.length_le
    simp only [sharedAfter, afterRules_nil]
    omega
  | cons compiled rules ih =>
    obtain ⟨hhead, hrest⟩ := List.forall_mem_cons.1 hplain
    obtain ⟨hhead', hrest'⟩ := List.forall_mem_cons.1 hnone
    obtain ⟨hx', hy'⟩ := CompiledRule.shared_isPrefix hhead hx hy
    have hxlen := (afterRules_isPrefix hrest hrest' (compiled.leaves x)).length_le
    have hylen := (afterRules_isPrefix hrest hrest' (compiled.leaves y)).length_le
    rw [sharedAfter, afterRules_cons, afterRules_cons, ih hrest hrest' hx' hy',
      CompiledRule.shared_of_redacted_eq_nil hhead hhead' hx hy, List.length_take]
    omega

/-! ### What the contract asks of a policy -/

/-- **When a policy can stream a text**, split as it is: the policy rejects the text, or it rejects
none of the beginnings scanned on the way, and where one of these lets go of more than the ones
before it, the rules have made the same of that much of the whole text. -/
def OutputFilter.StreamsTo (f : OutputFilter T) (holdback : ℕ) (deltas : List (List Char)) : Prop :=
  f.Rejects deltas.flatten ∨
    ∀ before p, before ++ [p] <+: scannedTexts holdback deltas →
      ¬f.Rejects p ∧
        ((∀ q ∈ before, (f.leaves q).length < (f.leaves p).length) →
          (f.leaves p).length - holdback ≤ (f.shared p deltas.flatten).length)

variable {f : OutputFilter T} {deltas : List (List Char)}

/-- Every text scanned on the way begins the whole text. -/
theorem isPrefix_flatten_of_mem_scannedTexts {p : List Char}
    (hp : p ∈ scannedTexts holdback deltas) : p <+: deltas.flatten := by
  obtain ⟨t, ht⟩ := exists_append_of_mem_scannedTexts hp
  exact ⟨t, ht.symm⟩

/-- **What the rules share is released for good.** -/
theorem scansAgree_of_streamsTo (hplain : ∀ compiled ∈ f.rules, compiled.rule.Plain n)
    (h : f.StreamsTo holdback deltas) : f.ScansAgree holdback deltas := by
  by_cases hrejects : f.Rejects deltas.flatten
  · exact Or.inl ((f.blocked_filter_iff _).2 hrejects)
  · refine Or.inr fun before p hp ↦ ?_
    have hpasses : ∀ q ∈ before ++ [p], ¬f.Rejects q := by
      intro q hq
      obtain ⟨earlier, hearlier⟩ := exists_append_singleton_of_mem hq
      exact (h.resolve_left hrejects earlier q (hearlier.trans hp)).1
    obtain ⟨hpass, hbefore⟩ : ¬f.Rejects p ∧ ∀ q ∈ before, ¬f.Rejects q :=
      ⟨hpasses p (by simp), fun q hq ↦ hpasses q (List.mem_append_left _ hq)⟩
    refine ⟨Bool.eq_false_iff.2 fun hb ↦ hpass ((f.blocked_filter_iff _).1 hb), fun j hj hlt ↦ ?_⟩
    rw [OutputFilter.text_filter hpass] at hlt ⊢
    rw [OutputFilter.text_filter hrejects]
    have hlonger : ∀ q ∈ before, (f.leaves q).length < (f.leaves p).length := by
      intro q hq
      have hle := hj q hq
      rw [OutputFilter.text_filter (hbefore q hq)] at hle
      omega
    have hshared := (h.resolve_left hrejects before p hp).2 hlonger
    have hmem : p ∈ scannedTexts holdback deltas := hp.subset (by simp)
    obtain ⟨hleft, hright⟩ := f.shared_isPrefix hplain (isPrefix_flatten_of_mem_scannedTexts hmem)
    have hjlt : j < (f.shared p deltas.flatten).length := by omega
    rw [← Holdback.isPrefix_iff_getElem?.1 hleft j hjlt]
    exact Holdback.isPrefix_iff_getElem?.1 hright j hjlt

/-! ### One redaction -/

/-- At most one token is rewritten, and it does not begin like the marker that replaces it. -/
def RedactsAtMostOne (rules : List PolicyRule) : Prop :=
  (rules.flatMap PolicyRule.redacted).length ≤ 1 ∧
    ∀ token ∈ rules.flatMap PolicyRule.redacted, token.head? ≠ redactedMarker.head?

/-- A blocklist with a single token to rewrite. -/
theorem of_redacted_eq_singleton {compiled : CompiledRule T} {token : List Char}
    (hplain : compiled.rule.Plain n) (h : compiled.rule.redacted = [token]) :
    token ≠ [] ∧ token.length ≤ n ∧
      (∀ text, compiled.leaves text = Occurrence.replace token redactedMarker text) ∧
      ∀ c x y, compiled.shared c x y = Occurrence.shared token redactedMarker 0 c
        (x.drop c.length) (y.drop c.length) := by
  rw [PolicyRule.Plain] at hplain
  rw [PolicyRule.redacted] at h
  split at h
  · next tokens htype haction =>
    simp only [htype] at hplain
    have hmem : token ∈ tokens.filter (· ≠ []) := h ▸ List.mem_singleton_self token
    obtain ⟨hmem, hne⟩ := List.mem_filter.1 hmem
    have hne : token ≠ [] := of_decide_eq_true hne
    refine ⟨hne, hplain token hmem, fun text ↦ ?_, fun c x y ↦ ?_⟩
    · simp only [CompiledRule.leaves, htype, haction]
      rw [← redactTokens_filter, h, redactTokens_singleton hne]
    · simp only [CompiledRule.shared, htype, haction]
      rw [← sharedTokens_filter, h, sharedTokens, if_neg hne, sharedTokens]
  · simp at h

theorem sharedAfter_append (before after : List (CompiledRule T)) (c x y : List Char) :
    sharedAfter (before ++ after) c x y =
      sharedAfter after (sharedAfter before c x y) (afterRules before x) (afterRules before y) := by
  induction before generalizing c x y with
  | nil => rfl
  | cons compiled before ih => exact ih _ _ _

/-- Rules that rewrite one token: those before it and those after it only cut. -/
theorem exists_split_of_redacted {token : List Char}
    (h : rules.flatMap (·.rule.redacted) = [token]) :
    ∃ before compiled after, rules = before ++ compiled :: after ∧
      (∀ r ∈ before, r.rule.redacted = []) ∧ compiled.rule.redacted = [token] ∧
      ∀ r ∈ after, r.rule.redacted = [] := by
  rw [List.flatMap_def, List.flatten_eq_singleton_iff] at h
  obtain ⟨as, bs, heq, has, hbs⟩ := h
  obtain ⟨before, rest, rfl, rfl, hrest⟩ := List.map_eq_append_iff.1 heq
  obtain ⟨compiled, after, rfl, hcompiled, rfl⟩ := List.map_eq_cons_iff.1 hrest
  exact ⟨before, compiled, after, rfl, fun r hr ↦ has _ (List.mem_map_of_mem hr), hcompiled,
    fun r hr ↦ hbs _ (List.mem_map_of_mem hr)⟩

/-- A position that a text has and a beginning of it has not is where the two differ. -/
theorem lt_length_of_getElem?_eq {a b : List Char} {m : ℕ} (ha : m < a.length)
    (h : a[m]? = b[m]?) : m < b.length := by
  by_contra hle
  rw [List.getElem?_eq_none (Nat.not_lt.1 hle), List.getElem?_eq_none_iff] at h
  omega

/-- **Where what two texts share ends, they part**, for a policy that rewrites one token: any scan
that has settled that position has the marker there or goes on, and the longer text has not. -/
theorem leaves_ne_of_redacted_eq_singleton {token : List Char}
    (hplain : ∀ compiled ∈ f.rules, compiled.rule.Plain (holdback + 1))
    (hone : f.rules.flatMap (·.rule.redacted) = [token])
    (hhead : token.head? ≠ redactedMarker.head?) {p q whole : List Char} (hp : p <+: whole)
    (hq : q <+: whole) (hshared : (f.shared p whole).length < (f.leaves p).length - holdback)
    (hsettled : (f.shared p whole).length < (f.leaves q).length - holdback) :
    (f.leaves q)[(f.shared p whole).length]? ≠ (f.leaves whole)[(f.shared p whole).length]? := by
  obtain ⟨before, compiled, after, hrules, hbefore, htoken, hafter⟩ := exists_split_of_redacted hone
  rw [hrules] at hplain
  obtain ⟨hplain₁, hplain'⟩ := List.forall_mem_append.1 hplain
  obtain ⟨hplain₂, hplain₃⟩ := List.forall_mem_cons.1 hplain'
  obtain ⟨hne, hlen, hleaves, hstep⟩ := of_redacted_eq_singleton hplain₂ htoken
  -- the three stages: the cuts before, the token, the cuts after
  let early := fun text ↦ afterRules before text
  let late := fun text ↦ Occurrence.replace token redactedMarker (early text)
  have hsplit : ∀ text, f.leaves text = afterRules after (late text) := fun text ↦ by
    rw [OutputFilter.leaves, hrules, afterRules_append, afterRules_cons, hleaves]
  have hlate : ∀ text, f.leaves text <+: late text := fun text ↦ by
    rw [hsplit]
    exact afterRules_isPrefix hplain₃ hafter _
  have hearly : ∀ text, early text <+: text := afterRules_isPrefix hplain₁ hbefore
  obtain ⟨c, hc⟩ : ∃ c, c = sharedAfter before p p whole := ⟨_, rfl⟩
  obtain ⟨hcp, hcw⟩ := sharedAfter_isPrefix hplain₁ List.prefix_rfl hp
  have hclen := length_sharedAfter hplain₁ hbefore List.prefix_rfl hp
  rw [← hc] at hcp hcw hclen
  have hclen : c.length = min (early p).length (early whole).length := by
    have hple := (hearly p).length_le
    simp only [early] at hple ⊢
    omega
  obtain ⟨d, hd⟩ : ∃ d, d = Occurrence.shared token redactedMarker 0 c
    ((early p).drop c.length) ((early whole).drop c.length) := ⟨_, rfl⟩
  have hfinal : (f.shared p whole).length =
      min d.length (min (f.leaves p).length (f.leaves whole).length) := by
    rw [OutputFilter.shared, hrules, sharedAfter_append, sharedAfter, hstep, ← hc,
      length_sharedAfter hplain₃ hafter (x := compiled.leaves (early p))
        (y := compiled.leaves (early whole)), hsplit, hsplit, hleaves, hleaves, hd]
    · rw [hleaves]
      exact Occurrence.shared_isPrefix_replace _ _ hcp _
    · rw [hleaves, Occurrence.shared_comm]
      exact Occurrence.shared_isPrefix_replace _ _ hcw _
  rw [hfinal] at hshared hsettled ⊢
  intro heq
  have hple := (hlate p).length_le
  have hqle := (hlate q).length_le
  have hwle := (hlate whole).length_le
  have hwhole := lt_length_of_getElem?_eq (by omega) heq
  have hmin : min d.length (min (f.leaves p).length (f.leaves whole).length) = d.length := by omega
  rw [hmin] at hshared hsettled hwhole heq
  -- so the two texts part at the token
  obtain ⟨t, ht⟩ := (hearly p).trans hp
  rcases Occurrence.shared_stop_of_lt hne (by decide : redactedMarker ≠ []) hlen hcp hcw hclen
    (by rw [← hd]; exact lt_of_lt_of_le (by omega) hple) t with hall | ⟨hkept, hstop⟩
  · rw [← hd] at hall
    rw [hall] at hwhole
    exact absurd hwhole (Nat.not_lt.2 hwle)
  · rw [← hd] at hkept hstop
    have hmarker := (hstop (early q) (by rw [ht]; exact (hearly q).trans hq)).resolve_right
      (Nat.not_le.2 (lt_of_lt_of_le (by omega) hqle))
    refine hhead ?_
    rw [← hkept, ← hmarker]
    exact (Holdback.isPrefix_iff_getElem?.1 (hlate whole) _ hwhole).symm.trans
      (heq.symm.trans (Holdback.isPrefix_iff_getElem?.1 (hlate q) _ (by omega)))

/-- **Where what two texts share ends, they part**, if at most one token is rewritten. -/
theorem leaves_ne_of_length_shared_lt
    (hplain : ∀ compiled ∈ f.rules, compiled.rule.Plain (holdback + 1))
    (hone : RedactsAtMostOne (f.rules.map (·.rule))) {p q whole : List Char} (hp : p <+: whole)
    (hq : q <+: whole) (hshared : (f.shared p whole).length < (f.leaves p).length - holdback)
    (hsettled : (f.shared p whole).length < (f.leaves q).length - holdback) :
    (f.leaves q)[(f.shared p whole).length]? ≠ (f.leaves whole)[(f.shared p whole).length]? := by
  obtain ⟨hlen, hheads⟩ := hone
  rw [List.flatMap_map] at hlen hheads
  rcases hredacted : f.rules.flatMap (·.rule.redacted) with - | ⟨token, tokens⟩
  · -- rules that only cut share what is before both cuts
    rw [List.flatMap_eq_nil_iff] at hredacted
    have hfinal := length_sharedAfter hplain hredacted List.prefix_rfl hp
    have hple := (afterRules_isPrefix hplain hredacted p).length_le
    intro heq
    have hwhole := lt_length_of_getElem?_eq (by omega) heq
    rw [OutputFilter.shared] at hshared hwhole
    rw [OutputFilter.leaves] at hshared hwhole
    omega
  · rw [hredacted, List.length_cons] at hlen
    obtain rfl : tokens = [] := List.eq_nil_of_length_eq_zero (by omega)
    exact leaves_ne_of_redacted_eq_singleton hplain hredacted
      (hheads token (by rw [hredacted]; exact List.mem_singleton_self token)) hp hq hshared hsettled

/-- The first of a list that has a property. -/
theorem exists_first {α : Type} {P : α → Prop} [DecidablePred P] {ps : List α}
    (h : ∃ p ∈ ps, P p) : ∃ before p, before ++ [p] <+: ps ∧ P p ∧ ∀ q ∈ before, ¬P q := by
  obtain ⟨p, hp, hP⟩ := h
  have hsome : (ps.find? fun p ↦ decide (P p)).isSome := List.find?_isSome.2 ⟨p, hp, by simpa⟩
  obtain ⟨first, hfirst⟩ := Option.isSome_iff_exists.1 hsome
  obtain ⟨hP', before, after, rfl, hbefore⟩ := List.find?_eq_some_iff_append.1 hfirst
  exact ⟨before, first, ⟨after, by simp⟩, by simpa using hP', by simpa using hbefore⟩

/-- **Of a policy that rewrites at most one token, nothing is released for good but what the rules
share.** -/
theorem streamsTo_of_scansAgree
    (hplain : ∀ compiled ∈ f.rules, compiled.rule.Plain (holdback + 1))
    (hone : RedactsAtMostOne (f.rules.map (·.rule))) (h : f.ScansAgree holdback deltas) :
    f.StreamsTo holdback deltas := by
  by_cases hrejects : f.Rejects deltas.flatten
  · exact Or.inl hrejects
  · have hall := h.resolve_left fun hb ↦ hrejects ((f.blocked_filter_iff _).1 hb)
    have hpasses : ∀ q ∈ scannedTexts holdback deltas, ¬f.Rejects q := by
      intro q hq hrejected
      obtain ⟨earlier, hearlier⟩ := exists_append_singleton_of_mem hq
      exact Bool.eq_false_iff.1 (hall earlier q hearlier).1 ((f.blocked_filter_iff q).2 hrejected)
    refine Or.inr fun before p hp ↦ ⟨hpasses p (hp.subset (by simp)), fun _ ↦ ?_⟩
    by_contra hlt
    have hmem : p ∈ scannedTexts holdback deltas := hp.subset (by simp)
    obtain ⟨earlier, q, hq, hsettled, hearlier⟩ := exists_first
      (P := fun q ↦ (f.shared p deltas.flatten).length < (f.leaves q).length - holdback)
      ⟨p, hmem, by omega⟩
    have hqmem : q ∈ scannedTexts holdback deltas := hq.subset (by simp)
    have hsame := (hall earlier q hq).2 (f.shared p deltas.flatten).length
    rw [OutputFilter.text_filter hrejects, OutputFilter.text_filter (hpasses q hqmem)] at hsame
    refine leaves_ne_of_length_shared_lt hplain hone (isPrefix_flatten_of_mem_scannedTexts hmem)
      (isPrefix_flatten_of_mem_scannedTexts hqmem) (by omega) hsettled (hsame ?_ hsettled)
    intro r hr
    have hrmem : r ∈ scannedTexts holdback deltas :=
      hq.subset (List.mem_append_left _ hr)
    rw [OutputFilter.text_filter (hpasses r hrmem)]
    exact Nat.not_lt.1 (hearlier r hr)

/-- **When the streaming contract holds**, for every policy of blocklists, topics and length bounds,
every text and every split of it: whenever the policy can stream the text, and if it rewrites at
most one token only then. -/
theorem streaming_contract_iff (policy : ContentPolicy) (hpolicy : policy.Plain 129) :
    ∃ f, OutputFilter.new T policy = .ok f ∧ ∀ deltas,
      (f.StreamsTo defaultStreamHoldbackChars deltas →
        ((StreamingFilter.new f).run deltas).Faithful (f.filter deltas.flatten)) ∧
      (RedactsAtMostOne policy.rules →
        (((StreamingFilter.new f).run deltas).Faithful (f.filter deltas.flatten) ↔
          f.StreamsTo defaultStreamHoldbackChars deltas)) := by
  refine ⟨_, hpolicy.new_eq, fun deltas ↦ ?_⟩
  set f : OutputFilter T := ⟨policy.rules.map fun rule ↦ ⟨rule, none⟩⟩ with hf
  have hplain : ∀ compiled ∈ f.rules, compiled.rule.Plain (defaultStreamHoldbackChars + 1) := by
    intro compiled hcompiled
    obtain ⟨rule, hrule, rfl⟩ := List.mem_map.1 hcompiled
    exact (hpolicy rule hrule).2
  have hrules : f.rules.map (·.rule) = policy.rules := by
    rw [hf, List.map_map]
    exact List.map_id _
  have hsuffices : f.StreamsTo defaultStreamHoldbackChars deltas →
      ((StreamingFilter.new f).run deltas).Faithful (f.filter deltas.flatten) := fun h ↦
    (run_faithful_iff f deltas).2 (scansAgree_of_streamsTo hplain h)
  refine ⟨hsuffices, fun hone ↦ ⟨fun h ↦ ?_, hsuffices⟩⟩
  exact streamsTo_of_scansAgree hplain (by rwa [hrules]) ((run_faithful_iff f deltas).1 h)

/-- A token to rewrite, a topic to refuse and a bound on the length. -/
def redactingPolicy : ContentPolicy :=
  ⟨"1.0", [⟨"r1", "a token", .tokenBlocklist ["secret".toList], .redact, true⟩,
    ⟨"r2", "a topic", .topicFilter ["bomb".toList] 1, .returnError, true⟩,
    ⟨"r3", "a bound", .maxLength 400, .truncate, true⟩], "sample"⟩

theorem redactingPolicy_plain : redactingPolicy.Plain 129 := by
  intro rule hrule
  simp only [redactingPolicy, List.mem_cons, List.not_mem_nil, or_false] at hrule
  rcases hrule with rfl | rfl | rfl
  · exact ⟨rfl, by simp [PolicyRule.Plain]⟩
  · exact ⟨rfl, trivial⟩
  · exact ⟨rfl, trivial⟩

/-- Two deltas, each of which makes a scan fall due. -/
def redactedDeltas : List (List Char) :=
  ["a secret ".toList ++ List.replicate 150 'x', List.replicate 20 'y']

/-- A text with a token to rewrite, scanned twice on the way: the marker is among what the first
scan lets go of. -/
theorem streaming_contract_iff_redacted :
    ∃ f, OutputFilter.new asciiEngine redactingPolicy = .ok f ∧
      f.StreamsTo defaultStreamHoldbackChars redactedDeltas ∧
      ((StreamingFilter.new f).run redactedDeltas).Faithful (f.filter redactedDeltas.flatten) ∧
      ((StreamingFilter.new f).run redactedDeltas).pushes =
        [.ok ("a [REDACTED] ".toList ++ List.replicate 22 'x'), .ok (List.replicate 20 'x')] := by
  obtain ⟨f, hf, hiff⟩ := streaming_contract_iff (T := asciiEngine) _ redactingPolicy_plain
  obtain rfl : ⟨redactingPolicy.rules.map fun rule ↦ ⟨rule, none⟩⟩ = f :=
    Except.ok.inj ((redactingPolicy_plain.new_eq (T := asciiEngine)).symm.trans hf)
  set f : OutputFilter asciiEngine := ⟨redactingPolicy.rules.map fun rule ↦ ⟨rule, none⟩⟩
  have hscans : scannedTexts defaultStreamHoldbackChars redactedDeltas =
      ["a secret ".toList ++ List.replicate 150 'x', redactedDeltas.flatten] := by
    decide +kernel
  have hone : RedactsAtMostOne redactingPolicy.rules := by
    rw [RedactsAtMostOne]
    decide +kernel
  have hstreams : f.StreamsTo defaultStreamHoldbackChars redactedDeltas := by
    refine Or.inr fun before p hp ↦ ?_
    rw [hscans] at hp
    rcases before with - | ⟨first, before⟩
    · obtain ⟨rfl, -⟩ := List.cons_prefix_cons.1 hp
      decide +kernel
    · obtain ⟨rfl, hlater⟩ := List.cons_prefix_cons.1 hp
      rcases before with - | ⟨second, before⟩
      · obtain ⟨rfl, -⟩ := List.cons_prefix_cons.1 hlater
        decide +kernel
      · simpa using (List.cons_prefix_cons.1 hlater).2
  refine ⟨f, hf, hstreams, ((hiff _).2 hone).2 hstreams, by decide +kernel⟩

/-- A topic of one keyword that clears the text. -/
def clearingPolicy : ContentPolicy :=
  samplePolicy (.topicFilter ["bomb".toList] 1) .truncate

theorem clearingPolicy_plain : clearingPolicy.Plain 129 := by
  intro rule hrule
  obtain rfl := List.mem_singleton.1 hrule
  exact ⟨rfl, trivial⟩

/-- Two hundred harmless characters, then the keyword. -/
def clearedDeltas : List (List Char) :=
  [List.replicate 200 'a', "bomb".toList]

/-- **The contract fails**: the first scan releases text, and the keyword that arrives last makes
the filter clear the whole of it. -/
theorem released_text_is_cleared_later :
    ¬∀ policy : ContentPolicy, policy.Plain 129 → ∀ f, OutputFilter.new asciiEngine policy = .ok f →
      ∀ deltas, ((StreamingFilter.new f).run deltas).Faithful (f.filter deltas.flatten) := by
  intro hall
  have hnew := clearingPolicy_plain.new_eq (T := asciiEngine)
  set f : OutputFilter asciiEngine := ⟨clearingPolicy.rules.map fun rule ↦ ⟨rule, none⟩⟩ with hf
  have hfaithful := hall _ clearingPolicy_plain f hnew clearedDeltas
  have hpasses : (f.filter clearedDeltas.flatten).blocked = false := by
    rw [hf]
    decide +kernel
  have hok : ¬((StreamingFilter.new f).run clearedDeltas).Errs := by
    rw [hfaithful.2, hpasses]
    exact Bool.false_ne_true
  obtain ⟨tail, -, heq⟩ := hfaithful.1 hok
  have hcleared : (f.filter clearedDeltas.flatten).text = [] := by
    rw [hf]
    decide +kernel
  have hreleased : ((StreamingFilter.new f).run clearedDeltas).final.releasedText =
      List.replicate 72 'a' := by
    rw [hf]
    decide +kernel
  rw [hcleared, hreleased] at heq
  simp at heq

end Cordon
