import Cordon.Core.StreamingContract
import Cordon.Lib.Provenance

/-!
# What a blocklist leaves of its tokens

A blocklist works through its tokens in the order in which they are **listed**, on a text that the
tokens before may have changed. `traceTokens` is that loop on texts that remember which characters
were inserted (`chars_traceTokens`), so that an occurrence of a token in what is returned can be
told from one that a redaction marker had a part in.

Redaction removes every token: rewriting one token makes no occurrence of another
(`tokensRemoved_of_redact`). Truncation cuts at the first *listed* token that occurs and leaves the
loop, so a token listed later that stands before the cut is returned. `CutComesFirst` says that
there is none.

The first rests on what an insertion can take part in: a marker stands between two characters of the
text it was put into, so a listed token that shows up in what is returned and was not there before
has a character of the marker in it, and such an occurrence is not one of the text's own. The second
rests on the loop leaving at its first hit, so that no token that is listed later is ever looked for
(`traceTokens_of_firstListed_eq_some`). `filter_removes_tokens_iff` is about the rule as `filter`
runs it, for every engine.
-/

namespace Cordon

open Provenance

variable {T : TextEngine} {rule : PolicyRule}

/-- The loop of a blocklist on a text that remembers what was inserted. -/
def traceTokens (rule : PolicyRule) :
    List (List Char) → List (Char × Origin) → List (Char × Origin)
  | [], s => s
  | token :: tokens, s =>
    if token = [] then traceTokens rule tokens s
    else
      match Occurrence.find token (chars s) with
      | none => traceTokens rule tokens s
      | some position =>
        match rule.action with
        | .redact => traceTokens rule tokens (Provenance.replace token redactedMarker s)
        | .returnError => s
        | .truncate => s.take position
        | .logAndContinue => traceTokens rule tokens s

/-- **The trace is what the code computes**, with the origin of each character beside it. -/
theorem chars_traceTokens (tokens : List (List Char)) (s : List (Char × Origin)) :
    chars (traceTokens rule tokens s) = (applyTokens rule tokens (chars s)).text := by
  induction tokens generalizing s with
  | nil => rfl
  | cons token tokens ih =>
    rw [traceTokens, applyTokens]
    split
    · exact ih s
    · rcases Occurrence.find token (chars s) with - | position
      · exact ih s
      · rcases haction : rule.action with - | - | - | -
        · rfl
        · simp only
          rw [ih, chars_replace]
        · exact chars_take position s
        · exact ih s

/-- No listed token occurs in the text without a part of an insertion. -/
def TokensRemoved (tokens : List (List Char)) (s : List (Char × Origin)) : Prop :=
  ∀ token ∈ tokens, token ≠ [] → ¬KeptOccurs token s

/-! ### Redaction -/

theorem redactedMarker_ne_nil : redactedMarker ≠ [] := by
  decide

/-- Redaction makes no new occurrence of any word. -/
theorem keptOccurs_of_traceTokens_redact (haction : rule.action = .redact)
    {tokens : List (List Char)} {v : List Char} (hv : v ≠ []) {s : List (Char × Origin)}
    (h : KeptOccurs v (traceTokens rule tokens s)) : KeptOccurs v s := by
  induction tokens generalizing s with
  | nil => exact h
  | cons token tokens ih =>
    rw [traceTokens] at h
    split at h
    · exact ih h
    · rcases hfind : Occurrence.find token (chars s) with - | position
      · rw [hfind] at h
        exact ih h
      · simp only [hfind, haction] at h
        exact (ih h).of_replace redactedMarker_ne_nil hv

/-- **Redaction removes every listed token.** A token is gone once its turn has come, whether it was
rewritten or did not occur, and no later token brings it back. -/
theorem tokensRemoved_of_redact (haction : rule.action = .redact) (tokens : List (List Char))
    (s : List (Char × Origin)) : TokensRemoved tokens (traceTokens rule tokens s) := by
  induction tokens generalizing s with
  | nil => exact fun token htoken ↦ absurd htoken List.not_mem_nil
  | cons token tokens ih =>
    intro u hu hne
    rw [traceTokens]
    by_cases hempty : token = []
    · rw [if_pos hempty]
      rcases List.mem_cons.1 hu with rfl | hu
      · exact absurd hempty hne
      · exact ih s u hu hne
    · rw [if_neg hempty]
      rcases hfind : Occurrence.find token (chars s) with - | position
      · rcases List.mem_cons.1 hu with rfl | hu
        · intro h
          obtain ⟨v, hv, hchars, -⟩ := keptOccurs_of_traceTokens_redact haction hne h
          refine Occurrence.find_eq_none_iff_not_isInfix.1 hfind ?_
          rw [← hchars]
          exact hv.map Prod.fst
        · exact ih s u hu hne
      · simp only [haction]
        rcases List.mem_cons.1 hu with rfl | hu
        · intro h
          exact not_keptOccurs_replace redactedMarker_ne_nil hne s
            (keptOccurs_of_traceTokens_redact haction hne h)
        · exact ih _ u hu hne

/-! ### Truncation -/

/-- No listed token ends before the first listed one that occurs begins. -/
def CutComesFirst (tokens : List (List Char)) (text : List Char) : Prop :=
  ∀ cut position, firstListed tokens text = some cut → Occurrence.find cut text = some position →
    ∀ token ∈ tokens, token ≠ [] → ∀ q, Occurrence.find token text = some q →
      position < q + token.length

/-- A text without listed tokens is left as it is. -/
theorem traceTokens_of_firstListed_eq_none {tokens : List (List Char)} {s : List (Char × Origin)}
    (h : firstListed tokens (chars s) = none) : traceTokens rule tokens s = s := by
  induction tokens with
  | nil => rfl
  | cons token tokens ih =>
    rw [firstListed_eq_none] at h
    have hrest := ih (firstListed_eq_none.2 fun u hu ↦ h u (List.mem_cons_of_mem _ hu))
    rw [traceTokens]
    split
    · exact hrest
    · next hempty =>
      rw [h token List.mem_cons_self hempty]
      exact hrest

/-- **Truncation cuts at the first listed token that occurs.** -/
theorem traceTokens_of_firstListed_eq_some (haction : rule.action = .truncate)
    {tokens : List (List Char)} {s : List (Char × Origin)} {cut : List Char} {position : ℕ}
    (hcut : firstListed tokens (chars s) = some cut)
    (hposition : Occurrence.find cut (chars s) = some position) :
    traceTokens rule tokens s = s.take position := by
  induction tokens with
  | nil => simp [firstListed] at hcut
  | cons token tokens ih =>
    rw [firstListed, List.find?_cons] at hcut
    rw [traceTokens]
    by_cases hempty : token = []
    · rw [if_pos hempty]
      refine ih ?_
      simpa [firstListed, hempty] using hcut
    · rw [if_neg hempty]
      rcases hfind : Occurrence.find token (chars s) with - | i
      · refine ih ?_
        simpa [firstListed, hempty, hfind] using hcut
      · have hhit : (!token.isEmpty && (Occurrence.find token (chars s)).isSome) = true := by
          simp [hempty, hfind]
        rw [hhit] at hcut
        obtain rfl : token = cut := Option.some.inj hcut
        obtain rfl : i = position := by simpa [hfind] using hposition
        simp only [haction]

/-- **What truncation leaves**: every listed token is gone exactly when none of them ends before the
cut. -/
theorem tokensRemoved_truncate_iff (haction : rule.action = .truncate)
    (tokens : List (List Char)) (text : List Char) :
    TokensRemoved tokens (traceTokens rule tokens (original text)) ↔ CutComesFirst tokens text := by
  rcases hcut : firstListed tokens text with - | cut
  · -- nothing occurs, so nothing is left and there is no cut
    rw [traceTokens_of_firstListed_eq_none (by rwa [chars_original])]
    refine iff_of_true (fun token htoken hne ↦ ?_) fun cut position h ↦ ?_
    · rw [keptOccurs_iff_of_allKept (allKept_original text), chars_original]
      exact Occurrence.find_eq_none_iff_not_isInfix.1 (firstListed_eq_none.1 hcut token htoken hne)
    · rw [hcut] at h
      simp at h
  · have hoccurs := List.find?_some hcut
    simp only [Bool.and_eq_true, Option.isSome_iff_exists] at hoccurs
    obtain ⟨-, position, hposition⟩ := hoccurs
    rw [traceTokens_of_firstListed_eq_some haction (by rwa [chars_original])
      (by rwa [chars_original])]
    have hkept : AllKept ((original text).take position) :=
      (allKept_original text).of_isInfix (List.take_prefix _ _).isInfix
    constructor
    · intro h cut' position' hcut' hposition' token htoken hne q hq
      obtain rfl := Option.some.inj (hcut.symm.trans hcut')
      obtain rfl := Option.some.inj (hposition.symm.trans hposition')
      by_contra hle
      refine h token htoken hne ((keptOccurs_iff_of_allKept hkept).2 ?_)
      rw [chars_take, chars_original]
      exact (Occurrence.isInfix_take_iff hne position).2 ⟨q, hq, by omega⟩
    · intro h token htoken hne hocc
      rw [keptOccurs_iff_of_allKept hkept, chars_take, chars_original,
        Occurrence.isInfix_take_iff hne] at hocc
      obtain ⟨q, hq, hle⟩ := hocc
      have hlt := h cut position hcut hposition token htoken hne q hq
      omega

/-! ### A policy of one blocklist -/

/-- **When a blocklist removes its tokens**: always if it redacts, and if it truncates exactly when
no listed token ends before the first listed one that occurs begins. -/
theorem filter_removes_tokens_iff (policy : ContentPolicy) (rule : PolicyRule)
    (henabled : policy.rules.filter (·.enabled) = [rule]) (tokens : List (List Char))
    (htype : rule.ruleType = .tokenBlocklist tokens)
    (haction : rule.action = .truncate ∨ rule.action = .redact) (text : List Char) :
    ∃ f, OutputFilter.new T policy = .ok f ∧
      chars (traceTokens rule tokens (original text)) = (f.filter text).text ∧
      (TokensRemoved tokens (traceTokens rule tokens (original text)) ↔
        (rule.action = .truncate → CutComesFirst tokens text)) := by
  refine ⟨_, new_of_single henabled (by rw [compilePattern, htype]), ?_, ?_⟩
  · rw [chars_traceTokens, chars_original, (filter_single _ text).1]
    simp only [CompiledRule.apply, htype]
  · rcases haction with haction | haction
    · rw [tokensRemoved_truncate_iff haction]
      exact ⟨fun h _ ↦ h, fun h ↦ h haction⟩
    · refine iff_of_true (tokensRemoved_of_redact haction tokens _) fun h ↦ ?_
      rw [haction] at h
      simp at h

/-- Listed in the order in which they occur, both tokens are removed. -/
theorem filter_removes_tokens_iff_listed_in_order :
    ∃ f, OutputFilter.new asciiEngine
        (samplePolicy (.tokenBlocklist ["alpha".toList, "beta".toList]) .truncate) = .ok f ∧
      (f.filter "an alpha, a beta".toList).text = "an ".toList ∧
      TokensRemoved ["alpha".toList, "beta".toList]
        (traceTokens ⟨"r1", "a sample rule",
          .tokenBlocklist ["alpha".toList, "beta".toList], .truncate, true⟩
          ["alpha".toList, "beta".toList] (original "an alpha, a beta".toList)) := by
  obtain ⟨f, hf, htext, hremoved⟩ := filter_removes_tokens_iff (T := asciiEngine)
    (samplePolicy (.tokenBlocklist ["alpha".toList, "beta".toList]) .truncate) _ rfl _ rfl
    (Or.inl rfl) "an alpha, a beta".toList
  refine ⟨f, hf, ?_, hremoved.2 fun _ ↦ ?_⟩
  · rw [← htext]
    decide +kernel
  · intro cut position hcut hposition token htoken hne q hq
    obtain rfl : cut = "alpha".toList :=
      (Option.some.inj (hcut.symm.trans (by decide +kernel)))
    obtain rfl : position = 3 := Option.some.inj (hposition.symm.trans (by decide +kernel))
    simp only [List.mem_cons, List.not_mem_nil, or_false] at htoken
    rcases htoken with rfl | rfl
    · obtain rfl : q = 3 := Option.some.inj (hq.symm.trans (by decide +kernel))
      decide
    · obtain rfl : q = 12 := Option.some.inj (hq.symm.trans (by decide +kernel))
      decide

/-- **A token that stands before the cut is returned.** The list names `beta` first, so the text is
cut at `beta`, and `alpha` stands before it. -/
theorem truncation_returns_a_listed_token :
    ∃ f, OutputFilter.new asciiEngine
        (samplePolicy (.tokenBlocklist ["beta".toList, "alpha".toList]) .truncate) = .ok f ∧
      (f.filter "an alpha, a beta".toList).text = "an alpha, a ".toList ∧
      "alpha".toList <:+: (f.filter "an alpha, a beta".toList).text ∧
      ¬TokensRemoved ["beta".toList, "alpha".toList]
        (traceTokens ⟨"r1", "a sample rule",
          .tokenBlocklist ["beta".toList, "alpha".toList], .truncate, true⟩
          ["beta".toList, "alpha".toList] (original "an alpha, a beta".toList)) := by
  refine ⟨_, rfl, by decide +kernel, by decide +kernel, fun h ↦ ?_⟩
  refine h "alpha".toList (by decide) (by decide)
    ⟨original "alpha".toList, by decide +kernel, chars_original _, allKept_original _⟩

end Cordon
