import Cordon.Core.OutputFilter

/-!
# What a rule does to a text

`OutputFilter.filter` is a loop over rules, each of which may record, rewrite, cut or refuse. Here
the same is said of each rule in its own terms, without the loop: on which texts it fires
(`CompiledRule.Fires`), what it leaves of a text (`CompiledRule.leaves`), and how many matches it
records (`CompiledRule.hits`). `text_apply`, `blocked_apply_iff` and `ruleIds_apply` tie the three
to the code.

A rule is given **the text that the rules before it left** (`afterRules`). So a policy refuses a
text exactly if one of its rules refuses what reaches it (`OutputFilter.Rejects`), what it leaves of
any other text is what its last rule leaves, and it names each rule as often as the rule fired
(`hitCounts`). The conditions on policies in the modules that follow are built from these and never
run the filter.

The order in which a blocklist **lists** its tokens matters in two places. Truncation cuts at the
first listed token that occurs, which need not be the first to occur (`cutAt`); and redaction hands
what it wrote for one token to the next (`redactTokens`).
-/

namespace Cordon

variable {T : TextEngine} {rule : PolicyRule}

/-! ### When a rule fires -/

/-- The condition of a rule, on the text that reaches it. -/
def CompiledRule.Fires (compiled : CompiledRule T) (text : List Char) : Prop :=
  match compiled.rule.ruleType with
  | .maxLength maxChars => maxChars < text.length
  | .tokenBlocklist tokens => ∃ token ∈ tokens, token ≠ [] ∧ token <:+: text
  | .topicFilter keywords minMatches => minMatches ≤ topicHits T keywords text ∧ 0 < minMatches
  | .patternFilter _ _ => ∃ regex, compiled.pattern = some regex ∧ (T.find regex text).isSome
  | .piiDetector _ _ => ∃ regex, compiled.pattern = some regex ∧ (T.find regex text).isSome

/-- A rule refuses a text if it fires and refusing is its action. -/
def CompiledRule.Refuses (compiled : CompiledRule T) (text : List Char) : Prop :=
  compiled.rule.action = .returnError ∧ compiled.Fires text

/-! ### What a rule leaves -/

/-- The first listed token that occurs in a text. -/
def firstListed (tokens : List (List Char)) (text : List Char) : Option (List Char) :=
  tokens.find? fun token ↦ !token.isEmpty && (Occurrence.find token text).isSome

theorem firstListed_eq_none {tokens : List (List Char)} {text : List Char} :
    firstListed tokens text = none ↔
      ∀ token ∈ tokens, token ≠ [] → Occurrence.find token text = none := by
  simp [firstListed, List.find?_eq_none]

/-- Where a blocklist that truncates cuts a text: at the first listed token that occurs. -/
def cutAt (tokens : List (List Char)) (text : List Char) : Option ℕ :=
  (firstListed tokens text).bind fun token ↦ Occurrence.find token text

/-- What a blocklist that redacts leaves: each token in turn is rewritten in what the tokens listed
before it left. -/
def redactTokens : List (List Char) → List Char → List Char
  | [], text => text
  | token :: tokens, text =>
    if token = [] then redactTokens tokens text
    else redactTokens tokens (Occurrence.replace token redactedMarker text)

theorem redactTokens_singleton {token : List Char} (hne : token ≠ []) (text : List Char) :
    redactTokens [token] text = Occurrence.replace token redactedMarker text :=
  if_neg hne

/-- What a rule leaves of a text, if it does not refuse it. -/
def CompiledRule.leaves (compiled : CompiledRule T) (text : List Char) : List Char :=
  match compiled.rule.ruleType, compiled.rule.action with
  | .maxLength maxChars, .truncate => text.take maxChars
  | .tokenBlocklist tokens, .redact => redactTokens tokens text
  | .tokenBlocklist tokens, .truncate => text.take ((cutAt tokens text).getD text.length)
  | .topicFilter keywords minMatches, .truncate =>
    if minMatches ≤ topicHits T keywords text ∧ 0 < minMatches then [] else text
  | .patternFilter _ _, _ => (applyPattern compiled text).text
  | .piiDetector _ _, _ => (applyPattern compiled text).text
  | _, _ => text

/-- A blocklist that only records leaves every text as it is. -/
theorem applyTokens_logAndContinue (haction : rule.action = .logAndContinue)
    (tokens : List (List Char)) (text : List Char) :
    (applyTokens rule tokens text).text = text ∧
      (applyTokens rule tokens text).blocked = false := by
  induction tokens with
  | nil => exact ⟨rfl, rfl⟩
  | cons token tokens ih =>
    rw [applyTokens]
    split
    · exact ih
    · rcases Occurrence.find token text with - | position
      · exact ih
      · simpa only [haction] using ih

/-- A blocklist that refuses leaves every text as it is, and refuses those with a token in them. -/
theorem applyTokens_returnError (haction : rule.action = .returnError)
    (tokens : List (List Char)) (text : List Char) :
    (applyTokens rule tokens text).text = text ∧
      ((applyTokens rule tokens text).blocked = false ↔
        ∀ token ∈ tokens, token ≠ [] → Occurrence.find token text = none) := by
  induction tokens with
  | nil => exact ⟨rfl, by simp [applyTokens, Applied.quiet]⟩
  | cons token tokens ih =>
    rw [applyTokens]
    split
    · next hempty => simpa [hempty] using ih
    · next hempty =>
      rcases hfind : Occurrence.find token text with - | position
      · simpa [hfind] using ih
      · simp [haction, hempty, hfind]

/-- A blocklist that truncates never refuses, and keeps a beginning of the text. -/
theorem applyTokens_truncate (haction : rule.action = .truncate)
    (tokens : List (List Char)) (text : List Char) :
    (applyTokens rule tokens text).text = text.take ((cutAt tokens text).getD text.length) ∧
      (applyTokens rule tokens text).blocked = false := by
  induction tokens with
  | nil => exact ⟨(List.take_length).symm, rfl⟩
  | cons token tokens ih =>
    rw [applyTokens]
    by_cases hempty : token = []
    · rw [if_pos hempty]
      simpa [cutAt, firstListed, hempty] using ih
    · rw [if_neg hempty]
      rcases hfind : Occurrence.find token text with - | position
      · simpa [cutAt, firstListed, hempty, hfind] using ih
      · simp [cutAt, firstListed, hempty, hfind, haction]

/-- A blocklist that redacts refuses nothing, and rewrites its tokens in turn. -/
theorem applyTokens_redact (haction : rule.action = .redact) (tokens : List (List Char))
    (text : List Char) :
    (applyTokens rule tokens text).text = redactTokens tokens text ∧
      (applyTokens rule tokens text).blocked = false := by
  induction tokens generalizing text with
  | nil => exact ⟨rfl, rfl⟩
  | cons token tokens ih =>
    rw [applyTokens, redactTokens]
    split
    · exact ih text
    · rcases hfind : Occurrence.find token text with - | position
      · rw [Occurrence.replace_of_find_eq_none _ hfind]
        exact ih text
      · simp only [haction]
        exact ih _

/-- A length bound cuts the text if it truncates, and refuses long texts if it refuses. -/
theorem applyMaxLength_spec (rule : PolicyRule) (maxChars : ℕ) (text : List Char) :
    (applyMaxLength rule maxChars text).text =
        (if rule.action = .truncate then text.take maxChars else text) ∧
      ((applyMaxLength rule maxChars text).blocked = true ↔
        rule.action = .returnError ∧ maxChars < text.length) := by
  rw [applyMaxLength]
  split
  · next hlt => rcases rule.action <;> simp [hlt]
  · next hle =>
    rw [List.take_of_length_le (by omega)]
    simp [Applied.quiet, hle]

/-- **What the code leaves is what the rule leaves.** -/
theorem CompiledRule.text_apply (compiled : CompiledRule T) (text : List Char) :
    (compiled.apply text).text = compiled.leaves text := by
  rw [apply, leaves]
  rcases htype : compiled.rule.ruleType with tokens | ⟨pattern, replacement⟩ |
    ⟨keywords, minMatches⟩ | ⟨piiTypes, redact⟩ | maxChars
  · rcases haction : compiled.rule.action with - | - | - | -
    · exact (applyTokens_returnError haction tokens text).1
    · exact (applyTokens_redact haction tokens text).1
    · exact (applyTokens_truncate haction tokens text).1
    · exact (applyTokens_logAndContinue haction tokens text).1
  · rfl
  · rcases haction : compiled.rule.action with - | - | - | - <;>
      simp only [applyTopic, haction] <;> split <;> rfl
  · rfl
  · rw [(applyMaxLength_spec _ _ _).1]
    rcases haction : compiled.rule.action with - | - | - | - <;> rfl

/-! ### Firing, refusing and recording -/

/-- What a rule that fires leaves: a match of its own, and a refusal if that is its action. -/
structure Applied.FiredBy (applied : Applied) (rule : PolicyRule) : Prop where
  named : applied.policyMatches.head?.map PolicyMatch.ruleId = some rule.ruleId
  blocked_iff : applied.blocked = true ↔ rule.action = .returnError

theorem applyTokens_of_not_fires {tokens : List (List Char)} {text : List Char}
    (h : ¬∃ token ∈ tokens, token ≠ [] ∧ token <:+: text) :
    applyTokens rule tokens text = .quiet text := by
  induction tokens with
  | nil => rfl
  | cons token tokens ih =>
    have hrest := ih fun hex ↦ h (by
      obtain ⟨u, hu, hocc⟩ := hex
      exact ⟨u, List.mem_cons_of_mem token hu, hocc⟩)
    rw [applyTokens]
    split
    · exact hrest
    · next hempty =>
      rw [Occurrence.find_eq_none_iff_not_isInfix.2 fun hocc ↦
        h ⟨token, List.mem_cons_self, hempty, hocc⟩]
      exact hrest

/-- A blocklist records a match for the first listed token that occurs, and refuses there or
nowhere. -/
theorem applyTokens_of_fires {tokens : List (List Char)} {text : List Char}
    (h : ∃ token ∈ tokens, token ≠ [] ∧ token <:+: text) :
    (applyTokens rule tokens text).FiredBy rule := by
  induction tokens with
  | nil => simp at h
  | cons token tokens ih =>
    obtain ⟨u, hu, hne, hocc⟩ := h
    have hlater : u ≠ token → (applyTokens rule tokens text).FiredBy rule := fun hother ↦
      ih ⟨u, (List.mem_cons.1 hu).resolve_left hother, hne, hocc⟩
    rw [applyTokens]
    by_cases hempty : token = []
    · rw [if_pos hempty]
      exact hlater fun heq ↦ hne (heq.trans hempty)
    · rw [if_neg hempty]
      rcases hfind : Occurrence.find token text with - | position
      · refine hlater fun heq ↦ Occurrence.find_eq_none_iff_not_isInfix.1 hfind ?_
        rwa [← heq]
      · rcases haction : rule.action with - | - | - | -
        · exact ⟨rfl, iff_of_true rfl haction⟩
        · refine ⟨rfl, iff_of_false ?_ (by simp [haction])⟩
          exact Bool.eq_false_iff.1 ((applyTokens_redact haction _ _).2)
        · exact ⟨rfl, iff_of_false Bool.false_ne_true (by simp [haction])⟩
        · refine ⟨rfl, iff_of_false ?_ (by simp [haction])⟩
          exact Bool.eq_false_iff.1 (applyTokens_logAndContinue haction tokens text).2

theorem applyPattern_of_not_fires {compiled : CompiledRule T} {text : List Char}
    (h : ¬∃ regex, compiled.pattern = some regex ∧ (T.find regex text).isSome) :
    applyPattern compiled text = .quiet text := by
  rw [applyPattern]
  rcases hpattern : compiled.pattern with - | regex
  · rfl
  · rcases hfind : T.find regex text with - | start
    · simp only [hfind]
    · exact absurd ⟨regex, hpattern, by rw [hfind]; rfl⟩ h

theorem applyPattern_of_fires {compiled : CompiledRule T} {text : List Char}
    (h : ∃ regex, compiled.pattern = some regex ∧ (T.find regex text).isSome) :
    (applyPattern compiled text).FiredBy compiled.rule := by
  obtain ⟨regex, hpattern, hfind⟩ := h
  obtain ⟨start, hstart⟩ := Option.isSome_iff_exists.1 hfind
  rw [applyPattern]
  simp only [hpattern, hstart]
  rcases haction : compiled.rule.action with - | - | - | - <;> exact ⟨rfl, by simp [haction]⟩

/-- **A rule that does not fire does nothing.** -/
theorem CompiledRule.apply_of_not_fires {compiled : CompiledRule T} {text : List Char}
    (h : ¬compiled.Fires text) : compiled.apply text = .quiet text := by
  rw [Fires] at h
  rw [apply]
  rcases htype : compiled.rule.ruleType with tokens | ⟨pattern, replacement⟩ |
    ⟨keywords, minMatches⟩ | ⟨piiTypes, redact⟩ | maxChars
  · simp only [htype] at h ⊢
    exact applyTokens_of_not_fires h
  · simp only [htype] at h ⊢
    exact applyPattern_of_not_fires h
  · simp only [htype] at h ⊢
    exact if_neg h
  · simp only [htype] at h ⊢
    exact applyPattern_of_not_fires h
  · simp only [htype] at h ⊢
    exact if_neg h

/-- **A rule that fires says so**, and refuses exactly if that is its action. -/
theorem CompiledRule.apply_of_fires {compiled : CompiledRule T} {text : List Char}
    (h : compiled.Fires text) : (compiled.apply text).FiredBy compiled.rule := by
  rw [Fires] at h
  rw [apply]
  rcases htype : compiled.rule.ruleType with tokens | ⟨pattern, replacement⟩ |
    ⟨keywords, minMatches⟩ | ⟨piiTypes, redact⟩ | maxChars
  · simp only [htype] at h ⊢
    exact applyTokens_of_fires h
  · simp only [htype] at h ⊢
    exact applyPattern_of_fires h
  · simp only [htype, applyTopic] at h ⊢
    rw [if_pos h]
    rcases haction : compiled.rule.action with - | - | - | - <;> exact ⟨rfl, by simp [haction]⟩
  · simp only [htype] at h ⊢
    exact applyPattern_of_fires h
  · simp only [htype, applyMaxLength] at h ⊢
    rw [if_pos h]
    rcases haction : compiled.rule.action with - | - | - | - <;> exact ⟨rfl, by simp [haction]⟩

/-- **A text is refused by the rule whose action that is**, if it fires. -/
theorem CompiledRule.blocked_apply_iff (compiled : CompiledRule T) (text : List Char) :
    (compiled.apply text).blocked = true ↔ compiled.Refuses text := by
  by_cases hfires : compiled.Fires text
  · rw [(compiled.apply_of_fires hfires).blocked_iff, Refuses, and_iff_left hfires]
  · rw [compiled.apply_of_not_fires hfires]
    exact iff_of_false Bool.false_ne_true fun h ↦ hfires h.2

/-- How many matches a blocklist records: the listed tokens that occur when their turn comes, or
only the first of them if it refuses or truncates. -/
def tokenHits (rule : PolicyRule) : List (List Char) → List Char → ℕ
  | [], _ => 0
  | token :: tokens, text =>
    if token = [] ∨ Occurrence.find token text = none then tokenHits rule tokens text
    else
      match rule.action with
      | .redact => tokenHits rule tokens (Occurrence.replace token redactedMarker text) + 1
      | .returnError => 1
      | .truncate => 1
      | .logAndContinue => tokenHits rule tokens text + 1

/-- How many matches a rule records. -/
def CompiledRule.hits (compiled : CompiledRule T) (text : List Char) : ℕ :=
  match compiled.rule.ruleType with
  | .maxLength maxChars => if maxChars < text.length then 1 else 0
  | .tokenBlocklist tokens => tokenHits compiled.rule tokens text
  | .topicFilter keywords minMatches =>
    if minMatches ≤ topicHits T keywords text ∧ 0 < minMatches then 1 else 0
  | .patternFilter _ _ => if (compiled.pattern.bind fun r ↦ T.find r text).isSome then 1 else 0
  | .piiDetector _ _ => if (compiled.pattern.bind fun r ↦ T.find r text).isSome then 1 else 0

/-- The identifiers of rules that fired. -/
def ruleIdsOf (fired : List PolicyMatch) : List String :=
  fired.map PolicyMatch.ruleId

theorem ruleIds_applyTokens (tokens : List (List Char)) (text : List Char) :
    ruleIdsOf (applyTokens rule tokens text).policyMatches =
      List.replicate (tokenHits rule tokens text) rule.ruleId := by
  induction tokens generalizing text with
  | nil => rfl
  | cons token tokens ih =>
    rw [applyTokens, tokenHits]
    by_cases hempty : token = []
    · rw [if_pos hempty, if_pos (Or.inl hempty)]
      exact ih text
    · rw [if_neg hempty]
      rcases hfind : Occurrence.find token text with - | position
      · rw [if_pos (Or.inr rfl)]
        exact ih text
      · rw [if_neg (by simp [hempty])]
        rcases haction : rule.action with - | - | - | -
        · simp [ruleIdsOf]
        · rw [List.replicate_succ]
          exact congrArg (rule.ruleId :: ·) (ih _)
        · simp [ruleIdsOf]
        · rw [List.replicate_succ]
          exact congrArg (rule.ruleId :: ·) (ih text)

theorem ruleIds_applyPattern (compiled : CompiledRule T) (text : List Char) :
    ruleIdsOf (applyPattern compiled text).policyMatches =
      List.replicate (if (compiled.pattern.bind fun r ↦ T.find r text).isSome then 1 else 0)
        compiled.rule.ruleId := by
  rw [applyPattern]
  rcases compiled.pattern with - | regex
  · rfl
  · rcases hfind : T.find regex text with - | start
    · simp [hfind, ruleIdsOf, Applied.quiet]
    · simp only [hfind, Option.bind_some, Option.isSome_some, if_true]
      rcases compiled.rule.action with - | - | - | - <;> rfl

/-- **A rule records its own identifier**, once for each hit. -/
theorem CompiledRule.ruleIds_apply (compiled : CompiledRule T) (text : List Char) :
    ruleIdsOf (compiled.apply text).policyMatches =
      List.replicate (compiled.hits text) compiled.rule.ruleId := by
  rw [apply, hits]
  rcases htype : compiled.rule.ruleType with tokens | ⟨pattern, replacement⟩ |
    ⟨keywords, minMatches⟩ | ⟨piiTypes, redact⟩ | maxChars
  · exact ruleIds_applyTokens tokens text
  · exact ruleIds_applyPattern compiled text
  · simp only [applyTopic]
    split
    · rcases compiled.rule.action with - | - | - | - <;> rfl
    · rfl
  · exact ruleIds_applyPattern compiled text
  · simp only [applyMaxLength]
    split
    · rcases compiled.rule.action with - | - | - | - <;> rfl
    · rfl

/-- A rule has hits exactly on the texts on which it fires. -/
theorem CompiledRule.hits_pos_iff (compiled : CompiledRule T) (text : List Char) :
    0 < compiled.hits text ↔ compiled.Fires text := by
  have hids := compiled.ruleIds_apply text
  by_cases hfires : compiled.Fires text
  · refine iff_of_true (Nat.pos_of_ne_zero fun hzero ↦ ?_) hfires
    have hnamed := (compiled.apply_of_fires hfires).named
    rw [hzero, List.replicate_zero, ruleIdsOf, List.map_eq_nil_iff] at hids
    rw [hids] at hnamed
    simp at hnamed
  · refine iff_of_false (fun hpos ↦ ?_) hfires
    rw [compiled.apply_of_not_fires hfires] at hids
    have hlen := congrArg List.length hids
    rw [List.length_replicate] at hlen
    exact absurd hlen hpos.ne

instance (compiled : CompiledRule T) (text : List Char) : Decidable (compiled.Fires text) :=
  decidable_of_iff _ (compiled.hits_pos_iff text)

instance (compiled : CompiledRule T) (text : List Char) : Decidable (compiled.Refuses text) :=
  inferInstanceAs (Decidable (_ ∧ _))

/-! ### The rules of a policy one after another -/

/-- What a list of rules leaves of a text. -/
def afterRules (rules : List (CompiledRule T)) (text : List Char) : List Char :=
  rules.foldl (fun text compiled ↦ compiled.leaves text) text

@[simp] theorem afterRules_nil (text : List Char) : afterRules (T := T) [] text = text := rfl

@[simp] theorem afterRules_cons (compiled : CompiledRule T) (rules : List (CompiledRule T))
    (text : List Char) :
    afterRules (compiled :: rules) text = afterRules rules (compiled.leaves text) := rfl

theorem afterRules_append (before after : List (CompiledRule T)) (text : List Char) :
    afterRules (before ++ after) text = afterRules after (afterRules before text) :=
  List.foldl_append

/-- Some rule of the list refuses what the rules before it left of a text. -/
def RefusedBy : List (CompiledRule T) → List Char → Prop
  | [], _ => False
  | compiled :: rules, text => compiled.Refuses text ∨ RefusedBy rules (compiled.leaves text)

theorem blocked_applyRules_iff (rules : List (CompiledRule T)) (text : List Char) :
    (applyRules rules text).blocked = true ↔ RefusedBy rules text := by
  induction rules generalizing text with
  | nil => exact iff_of_false Bool.false_ne_true id
  | cons compiled rules ih =>
    rw [applyRules, RefusedBy, ← compiled.blocked_apply_iff, ← ih, ← compiled.text_apply]
    rcases hfirst : (compiled.apply text).blocked with - | - <;> simp [hfirst]

theorem text_applyRules {rules : List (CompiledRule T)} {text : List Char}
    (h : ¬RefusedBy rules text) : (applyRules rules text).text = afterRules rules text := by
  induction rules generalizing text with
  | nil => rfl
  | cons compiled rules ih =>
    obtain ⟨hfirst, hrest⟩ := not_or.1 h
    rw [← compiled.blocked_apply_iff, Bool.not_eq_true] at hfirst
    rw [applyRules, hfirst, compiled.text_apply]
    exact ih hrest

instance (rules : List (CompiledRule T)) (text : List Char) : Decidable (RefusedBy rules text) :=
  decidable_of_iff _ (blocked_applyRules_iff rules text)

/-- How often each rule of a list fires on what reaches it; nothing reaches the rules after one that
refuses. -/
def hitCounts : List (CompiledRule T) → List Char → List ℕ
  | [], _ => []
  | compiled :: rules, text =>
    compiled.hits text ::
      if compiled.Refuses text then rules.map fun _ ↦ 0
      else hitCounts rules (compiled.leaves text)

theorem length_hitCounts (rules : List (CompiledRule T)) (text : List Char) :
    (hitCounts rules text).length = rules.length := by
  induction rules generalizing text with
  | nil => rfl
  | cons compiled rules ih =>
    rw [hitCounts, List.length_cons, List.length_cons]
    split
    · rw [List.length_map]
    · rw [ih]

/-- The identifiers of the rules, each as often as it is counted. -/
def namedBy (rules : List (CompiledRule T)) (counts : List ℕ) : List String :=
  (List.zipWith (fun compiled n ↦ List.replicate n compiled.rule.ruleId) rules counts).flatten

@[simp] theorem namedBy_cons (compiled : CompiledRule T) (rules : List (CompiledRule T)) (n : ℕ)
    (counts : List ℕ) : namedBy (compiled :: rules) (n :: counts) =
      List.replicate n compiled.rule.ruleId ++ namedBy rules counts := rfl

theorem namedBy_zero (rules : List (CompiledRule T)) :
    namedBy rules (rules.map fun _ ↦ 0) = [] := by
  induction rules with
  | nil => rfl
  | cons compiled rules ih => simpa using ih

theorem ruleIds_applyRules (rules : List (CompiledRule T)) (text : List Char) :
    ruleIdsOf (applyRules rules text).policyMatches = namedBy rules (hitCounts rules text) := by
  induction rules generalizing text with
  | nil => rfl
  | cons compiled rules ih =>
    rw [applyRules, hitCounts, namedBy_cons, ← compiled.ruleIds_apply]
    by_cases hrefuses : compiled.Refuses text
    · rw [if_pos hrefuses, if_pos ((compiled.blocked_apply_iff text).2 hrefuses), namedBy_zero,
        List.append_nil]
    · rw [if_neg hrefuses, if_neg fun h ↦ hrefuses ((compiled.blocked_apply_iff text).1 h), ← ih,
        ← compiled.text_apply, ruleIdsOf, List.map_append]
      rfl

theorem mem_of_mem_namedBy {rules : List (CompiledRule T)} {counts : List ℕ} {ruleId : String}
    (h : ruleId ∈ namedBy rules counts) : ruleId ∈ rules.map (·.rule.ruleId) := by
  induction rules generalizing counts with
  | nil => simp [namedBy] at h
  | cons compiled rules ih =>
    rcases counts with - | ⟨n, counts⟩
    · simp [namedBy] at h
    · rw [namedBy_cons, List.mem_append] at h
      rcases h with h | h
      · rw [List.eq_of_mem_replicate h]
        exact List.mem_cons_self
      · exact List.mem_cons_of_mem _ (ih h)

/-- **Rules with distinct identifiers are told apart by what they record.** -/
theorem namedBy_inj {rules : List (CompiledRule T)} (hids : (rules.map (·.rule.ruleId)).Nodup)
    {a b : List ℕ} (ha : a.length = rules.length) (hb : b.length = rules.length) :
    namedBy rules a = namedBy rules b ↔ a = b := by
  refine ⟨fun h ↦ ?_, fun h ↦ congrArg _ h⟩
  induction rules generalizing a b with
  | nil => rw [List.eq_nil_of_length_eq_zero ha, List.eq_nil_of_length_eq_zero hb]
  | cons compiled rules ih =>
    obtain ⟨hfresh, hrest⟩ := List.nodup_cons.1 hids
    obtain ⟨n, a, rfl⟩ := List.exists_cons_of_length_eq_add_one ha
    obtain ⟨m, b, rfl⟩ := List.exists_cons_of_length_eq_add_one hb
    have hcount : ∀ k counts, (namedBy (compiled :: rules) (k :: counts)).count
        compiled.rule.ruleId = k := by
      intro k counts
      rw [namedBy_cons, List.count_append, List.count_replicate_self,
        List.count_eq_zero.2 fun hmem ↦ hfresh (mem_of_mem_namedBy hmem), Nat.add_zero]
    obtain rfl : n = m := by rw [← hcount n a, h, hcount m b]
    rw [namedBy_cons, namedBy_cons, List.append_cancel_left_eq] at h
    rw [ih hrest (Nat.succ.inj ha) (Nat.succ.inj hb) h]

theorem namedBy_eq_nil_iff {rules : List (CompiledRule T)} {counts : List ℕ}
    (hlen : counts.length = rules.length) :
    namedBy rules counts = [] ↔ ∀ n ∈ counts, n = 0 := by
  induction rules generalizing counts with
  | nil =>
    rw [List.eq_nil_of_length_eq_zero hlen]
    simp [namedBy]
  | cons compiled rules ih =>
    obtain ⟨n, counts, rfl⟩ := List.exists_cons_of_length_eq_add_one hlen
    rw [namedBy_cons, List.append_eq_nil_iff, List.replicate_eq_nil_iff, ih (Nat.succ.inj hlen),
      List.forall_mem_cons]

/-- A rule that refuses has fired. -/
theorem exists_mem_hitCounts_of_refusedBy {rules : List (CompiledRule T)} {text : List Char}
    (h : RefusedBy rules text) : ∃ n ∈ hitCounts rules text, n ≠ 0 := by
  induction rules generalizing text with
  | nil => exact absurd h id
  | cons compiled rules ih =>
    rw [hitCounts]
    by_cases hrefuses : compiled.Refuses text
    · exact ⟨_, List.mem_cons_self, ((compiled.hits_pos_iff text).2 hrefuses.2).ne'⟩
    · rw [if_neg hrefuses]
      obtain ⟨n, hn, hpos⟩ := ih (h.resolve_left hrefuses)
      exact ⟨n, List.mem_cons_of_mem _ hn, hpos⟩

namespace OutputFilter

variable (f : OutputFilter T) (text : List Char)

/-- **A policy rejects a text** if one of its rules refuses what the rules before it left. -/
def Rejects : Prop :=
  RefusedBy f.rules text

instance : Decidable (f.Rejects text) :=
  inferInstanceAs (Decidable (RefusedBy _ _))

/-- What a policy leaves of a text that it does not reject. -/
def leaves : List Char :=
  afterRules f.rules text

/-- How often each rule of a policy fires. -/
def hits : List ℕ :=
  hitCounts f.rules text

theorem length_hits : (f.hits text).length = f.rules.length :=
  length_hitCounts f.rules text

/-- **The code refuses what the rules reject.** -/
theorem blocked_filter_iff : (f.filter text).blocked = true ↔ f.Rejects text :=
  blocked_applyRules_iff f.rules text

/-- **The code leaves of the rest what the rules leave.** -/
theorem text_filter {f : OutputFilter T} {text : List Char} (h : ¬f.Rejects text) :
    (f.filter text).text = f.leaves text :=
  text_applyRules h

/-- **The code names the rules that fire.** -/
theorem ruleIds_filter : ruleIdsOf (f.filter text).policyMatches = namedBy f.rules (f.hits text) :=
  ruleIds_applyRules f.rules text

/-- Some rule of a policy fires on what reaches it. -/
def Fires : Prop :=
  ∃ n ∈ f.hits text, n ≠ 0

/-- **The code's flag is set if a rule fires.** -/
theorem triggered_filter_iff : (f.filter text).triggered = true ↔ f.Fires text := by
  have hnames := namedBy_eq_nil_iff (f.length_hits text)
  rw [← f.ruleIds_filter, ruleIdsOf, List.map_eq_nil_iff] at hnames
  rw [Fires, ← not_iff_not, Bool.not_eq_true]
  push Not
  rw [← hnames, filter, Bool.not_eq_false', List.isEmpty_iff]

theorem Rejects.fires {f : OutputFilter T} {text : List Char} (h : f.Rejects text) :
    f.Fires text :=
  exists_mem_hitCounts_of_refusedBy h

end OutputFilter

end Cordon
