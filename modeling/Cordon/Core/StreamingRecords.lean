import Cordon.Core.RequestAccounts

/-!
# What the two pipelines record of the content policy

The completion record of a request says which rules fired and whether the content policy was
triggered. A unary request takes both from the filter's result on the whole text. A streamed one
takes them from its `StreamingFilter`, which keeps the rules of **the last scan that passed while
the deltas arrived**: neither a scan that is refused nor the scan of `finish` updates them.

So the two records agree exactly if the rules that fire on that scan are those that fire on the
whole text (`OutputFilter.RecordsAgree`). This is said of the rules, not of the filter's results:
`OutputFilter.hitsInHand` counts how often each rule fires on what reaches it of that scan, and
with distinct identifiers the records agree exactly if the counts do (`recordsAgree_iff`). What the
stream does comes down to the schedule of its scans: `consumeStream_deltaChunks` goes through the
deltas once, and the rest is read off the texts that are scanned.

A text that fits in the window is not scanned before `finish`, and its record names no rule at all
(`recordsAgree_of_short`). And a stream that fails is recorded as one that triggered the policy,
whatever failed (`streamed_record_agrees_iff`).
-/

namespace Cordon

variable {T : TextEngine}

/-! ### The rules a streaming filter has in hand -/

/-- The rules that a streaming filter holds after its scans: those of the last one that passed
before the first that is refused, and at first those it began with. -/
def OutputFilter.firedAfter (f : OutputFilter T) :
    List PolicyMatch → List (List Char) → List PolicyMatch
  | fired, [] => fired
  | fired, p :: ps =>
    if (f.filter p).blocked then fired else f.firedAfter (f.filter p).policyMatches ps

/-- Some text is rejected. -/
def OutputFilter.RejectsSome (f : OutputFilter T) (texts : List (List Char)) : Prop :=
  ∃ p ∈ texts, f.Rejects p

/-- The last text before the first that is rejected. -/
def OutputFilter.lastPassed (f : OutputFilter T) (texts : List (List Char)) : Option (List Char) :=
  (texts.takeWhile fun p ↦ decide (¬f.Rejects p)).getLast?

/-- How often each rule fires on the last text before the first that is rejected; if there is none,
no rule has fired. -/
def OutputFilter.hitsInHand (f : OutputFilter T) (texts : List (List Char)) : List ℕ :=
  match f.lastPassed texts with
  | some p => f.hits p
  | none => f.rules.map fun _ ↦ 0

/-- **What a streaming filter holds** names the rules that fired on the last scan that passed. -/
theorem OutputFilter.ruleIds_firedAfter (f : OutputFilter T) (texts : List (List Char)) :
    ruleIdsOf (f.firedAfter [] texts) = namedBy f.rules (f.hitsInHand texts) := by
  have hlast : ∀ fired, ruleIdsOf (f.firedAfter fired texts) =
      match f.lastPassed texts with
      | some p => namedBy f.rules (f.hits p)
      | none => ruleIdsOf fired := by
    induction texts with
    | nil => exact fun fired ↦ rfl
    | cons p texts ih =>
      intro fired
      rw [firedAfter, lastPassed]
      by_cases hrejects : f.Rejects p
      · rw [if_pos ((f.blocked_filter_iff p).2 hrejects),
          List.takeWhile_cons_of_neg (by simpa using hrejects)]
        rfl
      · rw [if_neg fun h ↦ hrejects ((f.blocked_filter_iff p).1 h),
          List.takeWhile_cons_of_pos (by simpa using hrejects), ih, f.ruleIds_filter,
          List.getLast?_cons, lastPassed]
        rcases (texts.takeWhile fun p ↦ decide (¬f.Rejects p)).getLast? with - | q <;> rfl
  rw [hlast, hitsInHand]
  rcases f.lastPassed texts with - | p
  · exact (namedBy_zero f.rules).symm
  · rfl

/-- Deltas as a runtime sends them. -/
def deltaChunks (deltas : List (List Char)) : TokenStream :=
  deltas.map fun delta ↦ .ok (.delta delta)

/-- A client that stays is sent whatever a push lets go. -/
theorem consumeStream_of_push_eq_ok {p : StreamProgress T} {s : StreamingFilter T}
    {delta piece : List Char} (h : p.filter.push delta = (s, .ok piece)) (rest : TokenStream) :
    ∃ sent, consumeStream none p (.ok (.delta delta) :: rest) =
      consumeStream none { p with filter := s, sent := sent } rest := by
  rw [consumeStream, h]
  rcases piece with - | ⟨c, cs⟩
  · exact ⟨p.sent, rfl⟩
  · exact ⟨p.sent + 1, rfl⟩

/-- **What the loop of a stream does with deltas**, for a client that stays: it stops at the first
scan that is refused, or it goes on with what follows. -/
theorem consumeStream_deltaChunks {p : StreamProgress T} (hp : p.filter.Counts)
    (deltas : List (List Char)) (rest : TokenStream) :
    let f := p.filter.filter
    let scans := scannedFrom p.filter.holdback p.filter.scannedChars p.filter.raw deltas
    (f.RejectsSome scans ∧ ∃ p' ruleId,
      consumeStream none p (deltaChunks deltas ++ rest) =
        (p', .failed (.contentPolicyViolation ruleId)) ∧
      p'.filter.policyMatches = f.firedAfter p.filter.policyMatches scans) ∨
    (¬f.RejectsSome scans ∧ ∃ p',
      consumeStream none p (deltaChunks deltas ++ rest) = consumeStream none p' rest ∧
      p'.filter.filter = f ∧ p'.filter.raw = p.filter.raw ++ deltas.flatten ∧
      p'.filter.policyMatches = f.firedAfter p.filter.policyMatches scans) := by
  induction deltas generalizing p with
  | nil => exact Or.inr ⟨by simp [OutputFilter.RejectsSome, scannedFrom], p, rfl, rfl, by simp, rfl⟩
  | cons delta deltas ih =>
    intro f scans
    rw [show deltaChunks (delta :: deltas) ++ rest =
      .ok (.delta delta) :: (deltaChunks deltas ++ rest) from rfl]
    rcases hdue : scanIsDue p.filter.holdback (p.filter.raw ++ delta).length
      p.filter.scannedChars with - | -
    · -- no scan: the delta is only accumulated
      have hscans : scans = scannedFrom p.filter.holdback p.filter.scannedChars
          (p.filter.raw ++ delta) deltas := by
        rw [show scans = scannedFrom _ _ _ (delta :: deltas) from rfl, scannedFrom, hdue]
        rfl
      rw [consumeStream, StreamingFilter.push_of_not_due hp hdue, hscans]
      have hrest := ih (p := { p with filter := { p.filter with
        raw := p.filter.raw ++ delta, rawChars := (p.filter.raw ++ delta).length } })
        ⟨rfl, hp.releasedChars⟩
      simpa [List.append_assoc] using hrest
    · have hscans : scans = (p.filter.raw ++ delta) :: scannedFrom p.filter.holdback
          (p.filter.raw ++ delta).length (p.filter.raw ++ delta) deltas := by
        rw [show scans = scannedFrom _ _ _ (delta :: deltas) from rfl, scannedFrom, hdue]
        rfl
      rw [hscans]
      rcases hblocked : (f.filter (p.filter.raw ++ delta)).blocked with - | -
      · -- the scan passes: its rules are the ones in hand, and the stream goes on
        have hrefuses : ∀ ps, f.RejectsSome ((p.filter.raw ++ delta) :: ps) ↔ f.RejectsSome ps := by
          intro ps
          have hpasses : ¬f.Rejects (p.filter.raw ++ delta) := fun h ↦
            Bool.eq_false_iff.1 hblocked ((f.blocked_filter_iff _).2 h)
          simp [OutputFilter.RejectsSome, hpasses]
        obtain ⟨sent, hcontinue⟩ := consumeStream_of_push_eq_ok
          (StreamingFilter.push_of_passes hp hdue hblocked) (deltaChunks deltas ++ rest)
        rw [hcontinue, hrefuses, OutputFilter.firedAfter, if_neg (by simp [hblocked])]
        have hrest := ih (p := { p with
          filter := { p.filter with
            raw := p.filter.raw ++ delta
            rawChars := (p.filter.raw ++ delta).length
            scannedChars := (p.filter.raw ++ delta).length
            releasedChars := (Holdback.extend p.filter.holdback p.filter.released
              (f.filter (p.filter.raw ++ delta)).text).length
            released := Holdback.extend p.filter.holdback p.filter.released
              (f.filter (p.filter.raw ++ delta)).text
            policyMatches := (f.filter (p.filter.raw ++ delta)).policyMatches }
          sent := sent }) ⟨rfl, rfl⟩
        simpa [List.append_assoc] using hrest
      · -- the scan is refused, and the stream stops with the rules of the scan before
        refine Or.inl ⟨⟨_, List.mem_cons_self, (f.blocked_filter_iff _).1 hblocked⟩, ?_⟩
        rw [consumeStream, StreamingFilter.push_of_blocked hp hdue hblocked]
        refine ⟨_, _, rfl, ?_⟩
        rw [OutputFilter.firedAfter, if_pos hblocked]

/-- The end of a stream, for a client that stays. **The rules in hand are not updated.** -/
theorem closeStream_none (p : StreamProgress T) :
    (closeStream none p).1.filter.policyMatches = p.filter.policyMatches ∧
      (closeStream none p).2 =
        if (p.filter.filter.filter p.filter.raw).blocked then
          .failed (p.filter.filter.filter p.filter.raw).violation
        else .ended := by
  rw [closeStream]
  rcases hblocked : (p.filter.filter.filter p.filter.raw).blocked with - | -
  · simp only [StreamingFilter.finish, hblocked]
    rcases (p.filter.filter.filter p.filter.raw).text.drop p.filter.releasedChars with - | ⟨c, cs⟩
    · exact ⟨rfl, rfl⟩
    · exact ⟨rfl, rfl⟩
  · simp only [StreamingFilter.finish, hblocked]
    exact ⟨rfl, rfl⟩

/-- A stream whose deltas are all there is ends, or stops because the policy refuses it. -/
theorem relayStream_completed (f : OutputFilter T) (deltas : List (List Char))
    (finishReason : FinishReason) (usage : TokenUsage) :
    ∃ p exit, relayStream none f (deltaChunks deltas ++ [.ok (.done finishReason usage)]) =
        (p, exit) ∧
      p.filter.policyMatches =
        f.firedAfter [] (scannedTexts defaultStreamHoldbackChars deltas) ∧
      (exit = .ended ∧ ¬f.RejectsSome (deltas.flatten ::
          scannedTexts defaultStreamHoldbackChars deltas) ∨
        (∃ ruleId, exit = .failed (.contentPolicyViolation ruleId)) ∧
          f.RejectsSome (deltas.flatten ::
            scannedTexts defaultStreamHoldbackChars deltas)) := by
  rcases consumeStream_deltaChunks (p := ⟨.new f, .zero, .stop, 0⟩)
    (StreamingFilter.counts_withHoldback f _) deltas [.ok (.done finishReason usage)] with
    ⟨⟨q, hq, hblocked⟩, p, ruleId, hconsume, hfired⟩ | ⟨hpasses, p, hconsume, hfilter, hraw, hfired⟩
  · refine ⟨p, _, ?_, hfired, Or.inr ⟨⟨ruleId, rfl⟩, q, List.mem_cons_of_mem _ hq, hblocked⟩⟩
    rw [relayStream, hconsume]
  · have hwhole : p.filter.filter.filter p.filter.raw = f.filter deltas.flatten := by
      rw [hfilter, hraw]
      rfl
    have hrelay : relayStream none f (deltaChunks deltas ++ [.ok (.done finishReason usage)]) =
        closeStream none { p with finishReason := finishReason, usage := usage } := by
      rw [relayStream, hconsume]
      rfl
    obtain ⟨hkept, hexit⟩ :=
      closeStream_none { p with finishReason := finishReason, usage := usage }
    rcases hclose : closeStream none { p with finishReason := finishReason, usage := usage } with
      ⟨p', exit⟩
    rw [hclose] at hkept hexit hrelay
    refine ⟨p', exit, hrelay, hkept.trans hfired, ?_⟩
    obtain rfl := hexit
    rw [hwhole]
    rcases hblocked : (f.filter deltas.flatten).blocked with - | -
    · refine Or.inl ⟨rfl, ?_⟩
      rintro ⟨q, hq, hrefused⟩
      rcases List.mem_cons.1 hq with rfl | hq
      · exact Bool.eq_false_iff.1 hblocked ((f.blocked_filter_iff _).2 hrefused)
      · exact hpasses ⟨q, hq, hrefused⟩
    · exact Or.inr ⟨⟨_, rfl⟩, _, List.mem_cons_self, (f.blocked_filter_iff _).1 hblocked⟩

/-- A stream that the runtime fails after some deltas, none of which was refused. -/
theorem relayStream_failed (f : OutputFilter T) (deltas : List (List Char)) (e : CordonError)
    (hpasses : ¬f.RejectsSome (scannedTexts defaultStreamHoldbackChars deltas)) :
    ∃ p, relayStream none f (deltaChunks deltas ++ [.error e]) = (p, .failed e) ∧
      p.filter.policyMatches =
        f.firedAfter [] (scannedTexts defaultStreamHoldbackChars deltas) := by
  rcases consumeStream_deltaChunks (p := ⟨.new f, .zero, .stop, 0⟩)
    (StreamingFilter.counts_withHoldback f _) deltas [.error e] with
    ⟨hrefuses, -⟩ | ⟨-, p, hconsume, -, -, hfired⟩
  · exact absurd hrefuses hpasses
  · refine ⟨p, ?_, hfired⟩
    rw [relayStream, hconsume]
    rfl

/-! ### The records -/

/-- The inference record that ends the log, if one does. -/
def Gateway.lastRecord (g : Gateway T) : Option Audit.InferenceEvent :=
  match g.audit.getLast? with
  | some (.inference e) => some e
  | _ => none

/-- What a record says of the content policy: the rules that fired, and the flag. -/
def Audit.InferenceEvent.policyOutcome (e : Audit.InferenceEvent) : List String × Bool :=
  (e.policyRulesMatched, e.contentPolicyTriggered)

/-- What the filter's result on a whole text says of the content policy. -/
def FilterResult.policyOutcome (result : FilterResult) : List String × Bool :=
  (ruleIdsOf result.policyMatches, result.triggered)

namespace Gateway

variable {g : Gateway T} {H : HostText} {S : ScoreEngine} {call : InferenceCall} {o : Occasion T}
  {lease : InferenceLease} {policy : ClientPolicy}

theorem lastRecord_append (event : AuditEvent) :
    (g.append (.ok ()) event).1.lastRecord =
      match event with
      | .inference e => some e
      | _ => none := by
  show (match (g.audit ++ [event]).getLast? with | some (.inference e) => some e | _ => none) = _
  rw [List.getLast?_append, List.getLast?_singleton]
  rcases event <;> rfl

/-- **The record of a unary response** has the rules and the flag of the whole text's filter. -/
theorem policyOutcome_processInference
    (haccepted : (g.acceptRequest H call o).2 = .ok (policy, lease))
    (hwrite : o.laterWrite = .ok ())
    {raw : RawInferenceOutput} {generated : ℕ} {e : Audit.InferenceEvent}
    (h : (g.processInference H S call o ⟨some (.ok raw), generated⟩).1.lastRecord = some e) :
    e.requestId = o.requestId ∧
      e.policyOutcome = ((g.outputFilter policy).filter raw.text).policyOutcome := by
  rcases processInference_cases (S := S) ⟨some (.ok raw), generated⟩ haccepted with
    ⟨e', hrun, -⟩ | ⟨raw', hrun, hafter⟩
  · simp [RuntimeReply.run] at hrun
  · obtain rfl : raw = raw' := by simpa [RuntimeReply.run] using hrun
    rw [hafter, outputFilter_acceptRequest] at h
    change (concludeInference _ _ _ _ _ _ _).1.lastRecord = some e at h
    rcases concludeInference_cases _ S call o lease.sessionId (g.outputFilter policy) raw with
      ⟨hblocked, hconclude⟩ | ⟨-, -, hconclude⟩ | ⟨-, -, g', -, hconclude⟩
    · rw [hconclude, hwrite, lastRecord_append] at h
      obtain rfl := Option.some.inj h
      refine ⟨rfl, Prod.ext rfl ?_⟩
      exact ((OutputFilter.triggered_filter_iff _ _).2
        ((OutputFilter.blocked_filter_iff _ _).1 hblocked).fires).symm
    · -- a response that is withheld has an alert in place of a record
      rw [hconclude, recordSuspension, hwrite, lastRecord_append] at h
      simp at h
    · rw [hconclude, hwrite, lastRecord_append] at h
      obtain rfl := Option.some.inj h
      exact ⟨rfl, rfl⟩

theorem policyOutcome_finishStreamingInference (hwrite : o.laterWrite = .ok ()) {sessionId : Uuid}
    {released : Option (List Char)} {usage : TokenUsage} {finishReason : FinishReason}
    {rulesMatched : List String} :
    ∃ e, ((g.finishStreamingInference S call o sessionId released usage finishReason
        rulesMatched).dropLease lease).lastRecord = some e ∧
      e.requestId = o.requestId ∧
      e.policyOutcome = (rulesMatched, released.isNone || !rulesMatched.isEmpty) := by
  show ∃ e, (finishStreamingInference _ _ _ _ _ _ _ _ _).lastRecord = some e ∧ _
  rw [finishStreamingInference, hwrite]
  simp only [lastRecord_append]
  exact ⟨_, rfl, rfl, rfl⟩

/-- **The record of a stream** that the client did not abandon has the rules that the streaming
filter has in hand, and the flag is set if there are any or if the stream failed. -/
theorem policyOutcome_inferenceStream (htiming : g.timing.isActive = false)
    (haccepted : (g.acceptRequest H call o).2 = .ok (policy, lease))
    (hwrite : o.laterWrite = .ok ()) {stream : TokenStream} {p : StreamProgress T}
    {exit : StreamExit} (hrelay : relayStream none (g.outputFilter policy) stream = (p, exit))
    (hexit : exit ≠ .hungUp) (generated : ℕ) :
    ∃ e, (g.inferenceStream H S call o ⟨some (.ok stream), generated⟩ none).1.lastRecord = some e ∧
      e.requestId = o.requestId ∧
      e.policyOutcome = (ruleIdsOf p.filter.policyMatches,
        decide (exit ≠ .ended) || !(ruleIdsOf p.filter.policyMatches).isEmpty) := by
  have hfilter : (g.acceptRequest H call o).1.outputFilter = g.outputFilter :=
    outputFilter_acceptRequest
  rw [← hfilter] at hrelay
  rw [inferenceStream, beginStreamingInference, htiming, if_neg (by decide)]
  rcases haccept : g.acceptRequest H call o with ⟨accepted, result⟩
  obtain rfl : result = .ok (policy, lease) := by simpa [haccept] using haccepted
  rw [haccept] at hrelay
  simp only [RuntimeReply.run, hrelay]
  rcases exit with - | e | -
  · exact absurd rfl hexit
  · rcases e
    all_goals exact policyOutcome_finishStreamingInference hwrite
  · exact policyOutcome_finishStreamingInference hwrite

end Gateway

/-! ### When the two records agree -/

/-- **When the records agree**: the rules that fired on the last scan before the first that is
rejected are those that fire on the whole text, and if a scan is rejected then some rule fires on
the whole text. -/
def OutputFilter.RecordsAgree (f : OutputFilter T) (deltas : List (List Char)) : Prop :=
  namedBy f.rules (f.hitsInHand (scannedTexts defaultStreamHoldbackChars deltas)) =
      namedBy f.rules (f.hits deltas.flatten) ∧
    (f.RejectsSome (scannedTexts defaultStreamHoldbackChars deltas) → f.Fires deltas.flatten)

theorem OutputFilter.length_hitsInHand (f : OutputFilter T) (texts : List (List Char)) :
    (f.hitsInHand texts).length = f.rules.length := by
  rw [hitsInHand]
  rcases f.lastPassed texts with - | p
  · exact List.length_map _
  · exact length_hitCounts f.rules p

/-- **Rule by rule**: if the identifiers are distinct, every rule must have fired on that scan as
often as it fires on the whole text. -/
theorem OutputFilter.recordsAgree_iff (f : OutputFilter T)
    (hids : (f.rules.map (·.rule.ruleId)).Nodup) (deltas : List (List Char)) :
    f.RecordsAgree deltas ↔
      f.hitsInHand (scannedTexts defaultStreamHoldbackChars deltas) = f.hits deltas.flatten ∧
        (f.RejectsSome (scannedTexts defaultStreamHoldbackChars deltas) →
          f.Fires deltas.flatten) := by
  rw [RecordsAgree, namedBy_inj hids (f.length_hitsInHand _) (f.length_hits _)]

/-- The flag is set if a rule is named. -/
theorem OutputFilter.triggered_eq (f : OutputFilter T) (text : List Char) :
    (f.filter text).triggered = !(ruleIdsOf (f.filter text).policyMatches).isEmpty := by
  simp [OutputFilter.filter, ruleIdsOf]

/-- A text that fits in the window is not scanned while it arrives. -/
theorem scannedFrom_of_short {holdback scannedChars : ℕ} {raw : List Char}
    {deltas : List (List Char)} (h : (raw ++ deltas.flatten).length ≤ holdback) :
    scannedFrom holdback scannedChars raw deltas = [] := by
  induction deltas generalizing raw with
  | nil => rfl
  | cons delta deltas ih =>
    rw [List.flatten_cons, ← List.append_assoc] at h
    have hshort : (raw ++ delta).length ≤ holdback := by
      rw [List.length_append] at h
      omega
    rw [scannedFrom, scanIsDue, if_pos hshort, if_neg (by simp)]
    exact ih h

/-- **The record of a short stream names no rule**, so it agrees only if no rule fires. -/
theorem OutputFilter.recordsAgree_of_short (f : OutputFilter T) {deltas : List (List Char)}
    (h : deltas.flatten.length ≤ defaultStreamHoldbackChars) :
    f.RecordsAgree deltas ↔ ¬f.Fires deltas.flatten := by
  have hscans : scannedTexts defaultStreamHoldbackChars deltas = [] :=
    scannedFrom_of_short (by simpa using h)
  have hnone : ¬f.RejectsSome [] := by simp [RejectsSome]
  rw [RecordsAgree, hscans, and_iff_left (absurd · hnone), Fires]
  rw [show f.hitsInHand [] = f.rules.map fun _ ↦ 0 from rfl, namedBy_zero, eq_comm,
    namedBy_eq_nil_iff (f.length_hits _)]
  push Not
  rfl

/-- The answer of a runtime that generated a text in one piece. -/
def answered (text : List Char) (finishReason : FinishReason) (usage : TokenUsage)
    (generated : ℕ) : RuntimeReply RawInferenceOutput :=
  ⟨some (.ok ⟨text, usage, finishReason⟩), generated⟩

/-- The answer of a runtime that generated the same in deltas. -/
def streamed (deltas : List (List Char)) (finishReason : FinishReason) (usage : TokenUsage)
    (generated : ℕ) : RuntimeReply TokenStream :=
  ⟨some (.ok (deltaChunks deltas ++ [.ok (.done finishReason usage)])), generated⟩

/-- The answer of a runtime that failed after some deltas. -/
def interrupted (deltas : List (List Char)) (e : CordonError) (generated : ℕ) :
    RuntimeReply TokenStream :=
  ⟨some (.ok (deltaChunks deltas ++ [.error e])), generated⟩

/-- **When a streamed response is recorded as the unary one is.** For every policy, text and
chunking, on a request that is accepted and while the log can be written: the stream leaves a
record, and it has the rules and the flag of the record of the unary response, if that leaves one,
**exactly if** the rules that fired on the last scan before a rejected one are those that fire on
the whole text, and no scan is rejected of a text on which no rule fires; with distinct identifiers
that is a comparison rule by rule. And a stream that the runtime fails leaves a record whose flag
is set, so the flag tells that some rule fired **exactly if** one did in some scan. -/
theorem streamed_record_agrees_iff (H : HostText) (S : ScoreEngine) (g : Gateway T)
    (call : InferenceCall) (o : Occasion T) (policy : ClientPolicy) (lease : InferenceLease)
    (htiming : g.timing.isActive = false)
    (haccepted : (g.acceptRequest H call o).2 = .ok (policy, lease))
    (hwrite : o.laterWrite = .ok ()) (deltas : List (List Char)) (finishReason : FinishReason)
    (usage : TokenUsage) (generated : ℕ) :
    (∃ e, (g.inferenceStream H S call o (streamed deltas finishReason usage generated)
        none).1.lastRecord = some e ∧ e.requestId = o.requestId ∧
      ∀ e', (g.processInference H S call o (answered deltas.flatten finishReason usage
          generated)).1.lastRecord = some e' →
        e'.requestId = o.requestId ∧
          (e.policyOutcome = e'.policyOutcome ↔ (g.outputFilter policy).RecordsAgree deltas)) ∧
    (((g.outputFilter policy).rules.map (·.rule.ruleId)).Nodup →
      ((g.outputFilter policy).RecordsAgree deltas ↔
        (g.outputFilter policy).hitsInHand (scannedTexts defaultStreamHoldbackChars deltas) =
            (g.outputFilter policy).hits deltas.flatten ∧
          ((g.outputFilter policy).RejectsSome (scannedTexts defaultStreamHoldbackChars deltas) →
            (g.outputFilter policy).Fires deltas.flatten))) ∧
    ∀ error, ¬(g.outputFilter policy).RejectsSome (scannedTexts defaultStreamHoldbackChars deltas) →
      ∃ e, (g.inferenceStream H S call o (interrupted deltas error generated) none).1.lastRecord =
          some e ∧ e.requestId = o.requestId ∧
        ((e.contentPolicyTriggered = true → ∃ p ∈ scannedTexts defaultStreamHoldbackChars deltas,
            (g.outputFilter policy).Fires p) ↔
          ∃ p ∈ scannedTexts defaultStreamHoldbackChars deltas,
            (g.outputFilter policy).Fires p) := by
  refine ⟨?_, fun hids ↦ OutputFilter.recordsAgree_iff _ hids deltas, ?_⟩
  · obtain ⟨p, exit, hrelay, hfired, hexit⟩ :=
      relayStream_completed (g.outputFilter policy) deltas finishReason usage
    have hstays : exit ≠ .hungUp := by
      rcases hexit with ⟨rfl, -⟩ | ⟨⟨ruleId, rfl⟩, -⟩ <;> simp
    obtain ⟨e, he, hid, houtcome⟩ := Gateway.policyOutcome_inferenceStream (S := S) (H := H)
      htiming haccepted hwrite hrelay hstays generated
    refine ⟨e, he, hid, fun e' he' ↦ ?_⟩
    obtain ⟨hid', houtcome'⟩ := Gateway.policyOutcome_processInference haccepted hwrite he'
    refine ⟨hid', ?_⟩
    rw [houtcome, houtcome', hfired, FilterResult.policyOutcome, Prod.mk.injEq,
      OutputFilter.RecordsAgree, OutputFilter.ruleIds_firedAfter, OutputFilter.ruleIds_filter]
    refine and_congr_right fun hids ↦ ?_
    rw [hids, ← OutputFilter.ruleIds_filter, ← OutputFilter.triggered_eq,
      ← OutputFilter.triggered_filter_iff]
    rcases htriggered : ((g.outputFilter policy).filter deltas.flatten).triggered with - | -
    · -- no rule fires in the whole text, so it is not refused: only a scan can be
      have hpasses : ¬(g.outputFilter policy).Rejects deltas.flatten := fun h ↦
        Bool.eq_false_iff.1 htriggered ((OutputFilter.triggered_filter_iff _ _).2 h.fires)
      rcases hexit with ⟨rfl, hnone⟩ | ⟨⟨ruleId, rfl⟩, q, hq, hblocked⟩
      · have hscans : ¬(g.outputFilter policy).RejectsSome
            (scannedTexts defaultStreamHoldbackChars deltas) := by
          rintro ⟨q, hq, hblocked⟩
          exact hnone ⟨q, List.mem_cons_of_mem _ hq, hblocked⟩
        simp [hscans]
      · have hscans : (g.outputFilter policy).RejectsSome
            (scannedTexts defaultStreamHoldbackChars deltas) := by
          rcases List.mem_cons.1 hq with rfl | hq
          · exact absurd hblocked hpasses
          · exact ⟨q, hq, hblocked⟩
        simp [hscans]
    · simp
  · intro error hpasses
    obtain ⟨p, hrelay, -⟩ := relayStream_failed (g.outputFilter policy) deltas error hpasses
    obtain ⟨e, he, hid, houtcome⟩ := Gateway.policyOutcome_inferenceStream (S := S) (H := H)
      htiming haccepted hwrite hrelay (by simp) generated
    have hflag : e.contentPolicyTriggered = true := congrArg Prod.snd houtcome
    exact ⟨e, he, hid, fun h ↦ h hflag, fun h _ ↦ h⟩

/-- The sample gateway with a rule that redacts a token. -/
def redactingGateway : Gateway asciiEngine :=
  { SampleRequest.gateway with
    outputFilter := fun _ ↦
      ⟨(samplePolicy (.tokenBlocklist ["secret".toList]) .redact).rules.map fun rule ↦
        ⟨rule, none⟩⟩ }

/-- Three deltas, of which the first two make a scan fall due. -/
def redactedAnswer : List (List Char) :=
  redactedDeltas ++ ["end".toList]

/-- A rule that fired before the last scan is named by both records, though that scan is of less
than the whole text. -/
theorem streamed_record_agrees_iff_sample :
    ∃ e, (redactingGateway.inferenceStream asciiHost SampleRequest.scores SampleRequest.call
        SampleRequest.occasion (streamed redactedAnswer .stop ⟨5, 2⟩ 2) none).1.lastRecord =
        some e ∧
      e.policyOutcome = (["r1"], true) := by
  have haccepted : (redactingGateway.acceptRequest asciiHost SampleRequest.call
      SampleRequest.occasion).2 = .ok (.defaultFor "alice", SampleRequest.lease) := by
    decide +kernel
  obtain ⟨⟨e, he, -, hagree⟩, -⟩ := streamed_record_agrees_iff asciiHost SampleRequest.scores
    redactingGateway SampleRequest.call SampleRequest.occasion (.defaultFor "alice")
    SampleRequest.lease rfl haccepted rfl redactedAnswer .stop ⟨5, 2⟩ 2
  have hanswered : (redactingGateway.processInference asciiHost SampleRequest.scores
      SampleRequest.call SampleRequest.occasion (answered redactedAnswer.flatten .stop ⟨5, 2⟩
        2)).1.lastRecord.map Audit.InferenceEvent.policyOutcome = some (["r1"], true) := by
    decide +kernel
  obtain ⟨e', he', houtcome⟩ := Option.map_eq_some_iff.1 hanswered
  have hrules : (redactingGateway.outputFilter (.defaultFor "alice")).RecordsAgree
      redactedAnswer := by
    rw [OutputFilter.RecordsAgree, OutputFilter.RejectsSome, OutputFilter.Fires]
    decide +kernel
  exact ⟨e, he, ((hagree e' he').2.2 hrules).trans houtcome⟩

/-- **The records disagree** on a text that fits in the window: the unary one names the rule that
redacted it, and the streamed one says that nothing was redacted. -/
theorem redacted_stream_names_no_rule :
    ¬∀ (g : Gateway asciiEngine) (call : InferenceCall) (o : Occasion asciiEngine)
      (policy : ClientPolicy) (lease : InferenceLease), g.timing.isActive = false →
      (g.acceptRequest asciiHost call o).2 = .ok (policy, lease) → o.laterWrite = .ok () →
      ∀ (deltas : List (List Char)) (finishReason : FinishReason) (usage : TokenUsage)
        (generated : ℕ),
        (g.inferenceStream asciiHost SampleRequest.scores call o
            (streamed deltas finishReason usage generated) none).1.lastRecord.map
          Audit.InferenceEvent.policyOutcome =
        (g.processInference asciiHost SampleRequest.scores call o
            (answered deltas.flatten finishReason usage generated)).1.lastRecord.map
          Audit.InferenceEvent.policyOutcome := by
  intro hall
  have hfacts : (redactingGateway.acceptRequest asciiHost SampleRequest.call
        SampleRequest.occasion).2 = .ok (.defaultFor "alice", SampleRequest.lease) ∧
      (redactingGateway.inferenceStream asciiHost SampleRequest.scores SampleRequest.call
          SampleRequest.occasion (streamed ["a secret".toList] .stop ⟨5, 2⟩ 2)
          none).1.lastRecord.map Audit.InferenceEvent.policyOutcome = some ([], false) ∧
      (redactingGateway.processInference asciiHost SampleRequest.scores SampleRequest.call
          SampleRequest.occasion (answered "a secret".toList .stop ⟨5, 2⟩ 2)).1.lastRecord.map
        Audit.InferenceEvent.policyOutcome = some (["r1"], true) := by
    decide +kernel
  obtain ⟨haccepted, hstreamed, hanswered⟩ := hfacts
  have hequal := hall _ _ _ _ _ rfl haccepted rfl ["a secret".toList] .stop ⟨5, 2⟩ 2
  rw [hstreamed, show ["a secret".toList].flatten = "a secret".toList from List.append_nil _,
    hanswered] at hequal
  simp at hequal

end Cordon
