import Cordon.Core.Error
import Cordon.Lib.Holdback
import Cordon.Lib.Occurrence
import Cordon.Lib.Result
import Cordon.Lib.Utf8

/-!
# The output filter

A policy is a list of rules, and `OutputFilter.filter` applies the enabled ones in order to a whole
response: each rule sees the text **as the rules before it left it**, may rewrite or cut it, and the
first rule that blocks ends the scan.

Texts are lists of characters. The code works on UTF-8 strings and cuts them at byte offsets that
`find` returned, which are character boundaries; only the offset that a `PolicyMatch` records is a
number of bytes, and `byteOffset` computes it.

The regular-expression engine and the tables of Unicode case conversion are outside the repository:
`TextEngine` carries them as functions, and nothing is assumed about them.

What is proved of the filter stands elsewhere, and rests on one lemma for each rule:
`Core.PolicyRules` says what a rule makes of a text, `Core.StreamingFilter` and
`Core.StreamingContract` compare a whole response with one that arrives in pieces, `Core.Blocklists`
says what is left of the tokens, and `Core.Violations` which rule a refusal names.
-/

namespace Cordon

/-- The text functions the filter takes from elsewhere: the `regex` crate, and `to_lowercase`. -/
structure TextEngine where
  /-- A compiled regular expression. -/
  Regex : Type
  /-- `Regex::new`, with the displayed error of a malformed pattern. -/
  compile : String → Except String Regex
  /-- `Regex::find`: where the first match starts, in characters. -/
  find : Regex → List Char → Option ℕ
  /-- `Regex::find_iter`, counted. -/
  count : Regex → List Char → ℕ
  /-- `Regex::replace_all`. -/
  replaceAll : Regex → List Char → String → List Char
  /-- `str::to_lowercase`. -/
  toLowercase : List Char → List Char

/-- What is done when a rule matches. -/
inductive PolicyAction
  /-- Refuse the response and return an error. -/
  | returnError
  /-- Replace the matched text. -/
  | redact
  /-- Cut the output at the match point. -/
  | truncate
  /-- Record the match and release the text unchanged. -/
  | logAndContinue
  deriving DecidableEq, Repr

/-- Categories of personally identifying information. -/
inductive PiiType
  | email
  | phoneNumber
  | ssn
  | creditCard
  | ipAddress
  | postalCode
  deriving DecidableEq, Repr

/-- The regular expression of a category. -/
def PiiType.pattern : PiiType → String
  | .email => "[a-zA-Z0-9._%+\\-]+@[a-zA-Z0-9.\\-]+\\.[a-zA-Z]\x7b2,\x7d"
  | .phoneNumber =>
    "\\b(\\+\\d\x7b1,3\x7d[-.\\s]?)?\\(?\\d\x7b3\x7d\\)?[-.\\s]?\\d\x7b3\x7d[-.\\s]?\\d\x7b4\x7d\\b"
  | .ssn => "\\b\\d\x7b3\x7d-\\d\x7b2\x7d-\\d\x7b4\x7d\\b"
  | .creditCard => "\\b(?:\\d\x7b4\x7d[-\\s]?)\x7b3\x7d\\d\x7b4\x7d\\b"
  | .ipAddress => "\\b(?:\\d\x7b1,3\x7d\\.)\x7b3\x7d\\d\x7b1,3\x7d\\b"
  | .postalCode => "\\b\\d\x7b5\x7d(?:-\\d\x7b4\x7d)?\\b"

/-- What a rule matches on. -/
inductive PolicyRuleType
  /-- Literal substrings. -/
  | tokenBlocklist (tokens : List (List Char))
  /-- A regular expression over the detokenized text. -/
  | patternFilter (pattern : String) (replacement : Option String)
  /-- A set of keywords, firing once enough of them appear. -/
  | topicFilter (keywords : List (List Char)) (minMatches : ℕ)
  /-- Common personally identifying patterns. -/
  | piiDetector (piiTypes : List PiiType) (redact : Bool)
  /-- An upper bound on output length, in characters. -/
  | maxLength (maxChars : ℕ)
  deriving DecidableEq, Repr

/-- A single content policy rule. -/
structure PolicyRule where
  /-- Recorded in the audit log when the rule fires. -/
  ruleId : String
  description : String
  ruleType : PolicyRuleType
  action : PolicyAction
  /-- Whether the rule is active. -/
  enabled : Bool
  deriving DecidableEq, Repr

/-- A named set of rules, evaluated in order. -/
structure ContentPolicy where
  version : String
  rules : List PolicyRule
  clientId : String
  deriving DecidableEq, Repr

/-- A rule that fired. -/
structure PolicyMatch where
  ruleId : String
  action : PolicyAction
  /-- Byte offset of the first match, when the rule has a position. -/
  offset : Option ℕ
  /-- What matched, never the matched text itself. -/
  matchSummary : String
  deriving DecidableEq, Repr

/-- The result of applying a policy. -/
structure FilterResult where
  /-- The text after redaction and truncation. -/
  text : List Char
  /-- Whether any rule fired. -/
  triggered : Bool
  /-- Every rule that fired. -/
  policyMatches : List PolicyMatch
  /-- Whether the response must be refused entirely. -/
  blocked : Bool
  deriving DecidableEq, Repr

variable (T : TextEngine)

/-- A rule with its regular expression, if it has one. -/
structure CompiledRule where
  rule : PolicyRule
  pattern : Option T.Regex

/-- The compiled filter engine. -/
structure OutputFilter where
  rules : List (CompiledRule T)

variable {T}

/-! ### Compiling a policy -/

/-- The regular expression of one rule. A detector with no categories has none. -/
def compilePattern (rule : PolicyRule) : Except CordonError (Option T.Regex) :=
  match rule.ruleType with
  | .patternFilter pattern _ =>
    match T.compile pattern with
    | .ok regex => .ok (some regex)
    | .error e => .error (.configError
        ("rule '" ++ rule.ruleId ++ "' has an invalid regular expression: " ++ e))
  | .piiDetector piiTypes _ =>
    if piiTypes.isEmpty then .ok none
    else
      match T.compile ("|".intercalate (piiTypes.map PiiType.pattern)) with
      | .ok regex => .ok (some regex)
      | .error e => .error (.configError ("PII pattern error: " ++ e))
  | _ => .ok none

/-- Compile the rules in order, skipping the disabled ones and stopping at the first error. -/
def compileRules : List PolicyRule → Except CordonError (List (CompiledRule T))
  | [] => .ok []
  | rule :: rules =>
    if rule.enabled then do
      let pattern ← compilePattern rule
      let compiled ← compileRules rules
      return ⟨rule, pattern⟩ :: compiled
    else compileRules rules

/-- `OutputFilter::new`: every regular expression is compiled once, here. -/
def OutputFilter.new (T : TextEngine) (policy : ContentPolicy) :
    Except CordonError (OutputFilter T) := do
  let rules ← compileRules policy.rules
  return ⟨rules⟩

/-- **Only the enabled rules matter** to what a policy compiles to. -/
theorem compileRules_eq (rules : List PolicyRule) :
    compileRules (T := T) rules =
      (rules.filter (·.enabled)).mapM fun rule ↦ do
        let pattern ← compilePattern rule
        return (⟨rule, pattern⟩ : CompiledRule T) := by
  induction rules with
  | nil => rfl
  | cons rule rules ih =>
    rcases he : rule.enabled with - | -
    · rw [compileRules, he, if_neg (by simp), ih, List.filter_cons_of_neg (by simp [he])]
    · rw [compileRules, he, if_pos rfl, ih, List.filter_cons_of_pos he, List.mapM_cons]
      rcases compilePattern (T := T) rule with - | pattern
      · rfl
      · rfl

/-! ### Applying a policy -/

/-- What one rule makes of a text. -/
structure Applied where
  text : List Char
  policyMatches : List PolicyMatch
  blocked : Bool
  deriving DecidableEq, Repr

/-- A rule that does not fire. -/
def Applied.quiet (text : List Char) : Applied :=
  ⟨text, [], false⟩

/-- The marker that takes the place of redacted text. -/
def redactedMarker : List Char :=
  "[REDACTED]".toList

/-- The number of bytes before the character at `position`. -/
def byteOffset (text : List Char) (position : ℕ) : ℕ :=
  (Utf8.encode (text.take position)).length

/-- The loop of a blocklist over its tokens. Redaction hands the rewritten text to the next token;
blocking and truncation end the loop. -/
def applyTokens (rule : PolicyRule) : List (List Char) → List Char → Applied
  | [], text => .quiet text
  | token :: tokens, text =>
    if token = [] then applyTokens rule tokens text
    else
      match Occurrence.find token text with
      | none => applyTokens rule tokens text
      | some position =>
        let found : PolicyMatch :=
          ⟨rule.ruleId, rule.action, some (byteOffset text position), "blocked token present"⟩
        match rule.action with
        | .redact =>
          let rest := applyTokens rule tokens (Occurrence.replace token redactedMarker text)
          { rest with policyMatches := found :: rest.policyMatches }
        | .returnError => ⟨text, [found], true⟩
        | .truncate => ⟨text.take position, [found], false⟩
        | .logAndContinue =>
          let rest := applyTokens rule tokens text
          { rest with policyMatches := found :: rest.policyMatches }

/-- An upper bound on the number of characters. -/
def applyMaxLength (rule : PolicyRule) (maxChars : ℕ) (text : List Char) : Applied :=
  if maxChars < text.length then
    let found : PolicyMatch := ⟨rule.ruleId, rule.action, some maxChars,
      "output exceeded " ++ toString maxChars ++ " characters"⟩
    match rule.action with
    | .truncate => ⟨text.take maxChars, [found], false⟩
    | .returnError => ⟨text, [found], true⟩
    | _ => ⟨text, [found], false⟩
  else .quiet text

/-- How many of the keywords a text contains, whatever their case. -/
def topicHits (T : TextEngine) (keywords : List (List Char)) (text : List Char) : ℕ :=
  keywords.countP fun k ↦
    !k.isEmpty && (Occurrence.find (T.toLowercase k) (T.toLowercase text)).isSome

/-- A topic fires once enough of its keywords appear; it has no position. -/
def applyTopic (T : TextEngine) (rule : PolicyRule) (keywords : List (List Char)) (minMatches : ℕ)
    (text : List Char) : Applied :=
  let hits := topicHits T keywords text
  if minMatches ≤ hits ∧ 0 < minMatches then
    let found : PolicyMatch :=
      ⟨rule.ruleId, rule.action, none, toString hits ++ " topic keywords matched"⟩
    match rule.action with
    | .returnError => ⟨text, [found], true⟩
    | .truncate => ⟨[], [found], false⟩
    | _ => ⟨text, [found], false⟩
  else .quiet text

/-- What a pattern rule writes in place of a match. -/
def replacementOf : PolicyRuleType → String
  | .patternFilter _ (some replacement) => replacement
  | _ => "[REDACTED]"

/-- A regular expression; a rule without one never fires. -/
def applyPattern (compiled : CompiledRule T) (text : List Char) : Applied :=
  match compiled.pattern with
  | none => .quiet text
  | some regex =>
    match T.find regex text with
    | none => .quiet text
    | some start =>
      let found : PolicyMatch := ⟨compiled.rule.ruleId, compiled.rule.action,
        some (byteOffset text start), toString (T.count regex text) ++ " pattern matches"⟩
      match compiled.rule.action with
      | .redact => ⟨T.replaceAll regex text (replacementOf compiled.rule.ruleType), [found], false⟩
      | .returnError => ⟨text, [found], true⟩
      | .truncate => ⟨text.take start, [found], false⟩
      | .logAndContinue => ⟨text, [found], false⟩

/-- One pass of the loop of `OutputFilter::filter`. -/
def CompiledRule.apply (compiled : CompiledRule T) (text : List Char) : Applied :=
  match compiled.rule.ruleType with
  | .maxLength maxChars => applyMaxLength compiled.rule maxChars text
  | .tokenBlocklist tokens => applyTokens compiled.rule tokens text
  | .topicFilter keywords minMatches => applyTopic T compiled.rule keywords minMatches text
  | .patternFilter _ _ => applyPattern compiled text
  | .piiDetector _ _ => applyPattern compiled text

/-- The loop: rules in order, up to the first that blocks. -/
def applyRules : List (CompiledRule T) → List Char → Applied
  | [], text => .quiet text
  | compiled :: rules, text =>
    let first := compiled.apply text
    if first.blocked then first
    else
      let rest := applyRules rules first.text
      { rest with policyMatches := first.policyMatches ++ rest.policyMatches }

/-- `OutputFilter::filter`: apply the policy to a complete output. -/
def OutputFilter.filter (f : OutputFilter T) (text : List Char) : FilterResult :=
  let applied := applyRules f.rules text
  ⟨applied.text, !applied.policyMatches.isEmpty, applied.policyMatches, applied.blocked⟩

end Cordon
