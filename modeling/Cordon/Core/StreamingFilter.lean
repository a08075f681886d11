import Cordon.Core.OutputFilter

/-!
# The streaming filter

`StreamingFilter` applies a policy to a response that is still being generated. It accumulates the
raw text, rescans **the whole of it** now and then, and lets go of what the scan left standing, but
for the last `holdback` characters.

`run` feeds a list of deltas and closes the stream. What it does is said once, in `pushAll_spec`,
through the texts at which a scan falls due (`scannedTexts`): this schedule depends on the lengths
of the deltas only, neither on the policy nor on what was released. An error does not stop the run
here; the caller is told to abandon the stream then, and a run that goes on releases at least as
much.

`OutputFilter.Settled` says that a policy can be streamed: the releasable part of every scan is the
beginning of the final text, and only texts whose extensions are all refused are refused.
`streamed_of_settled` is what follows for every text and every split of it.

The streaming theorem rests on the window of `Lib.Holdback`: pieces that are released make up the
beginning of the final text if each version, but for its tail, does. Which policies have this
property is the subject of `Core.StreamingContract`; nothing is asked of a policy here.
-/

namespace Cordon

variable {T : TextEngine}

/-- Characters held back from a stream unless the caller says otherwise. -/
def defaultStreamHoldbackChars : ℕ := 128

/-- Smallest number of new characters that triggers a re-scan. -/
def minRefilterStrideChars : ℕ := 16

/-- The stride grows as this part of the text already scanned. -/
def refilterStrideDivisor : ℕ := 64

/-- Applies a policy to a response as it is generated. -/
structure StreamingFilter (T : TextEngine) where
  filter : OutputFilter T
  /-- Everything the model has produced so far, unfiltered. -/
  raw : List Char
  /-- Characters of `raw` present at the last completed scan. -/
  scannedChars : ℕ
  /-- Characters accumulated in `raw`. -/
  rawChars : ℕ
  /-- How many characters of the filtered text have been released. -/
  releasedChars : ℕ
  /-- Trailing characters withheld pending more context. -/
  holdback : ℕ
  /-- Everything released to the caller so far, in order. -/
  released : List Char
  /-- Rules that have fired so far. -/
  policyMatches : List PolicyMatch

/-- `StreamingFilter::with_holdback`. -/
def StreamingFilter.withHoldback (filter : OutputFilter T) (holdback : ℕ) : StreamingFilter T :=
  ⟨filter, [], 0, 0, 0, holdback, [], []⟩

/-- `StreamingFilter::new`: the default holdback window. -/
def StreamingFilter.new (filter : OutputFilter T) : StreamingFilter T :=
  .withHoldback filter defaultStreamHoldbackChars

/-- Whether enough new text has arrived to be worth another full scan. -/
def scanIsDue (holdback rawChars scannedChars : ℕ) : Bool :=
  if rawChars ≤ holdback then false
  else decide (max minRefilterStrideChars (scannedChars / refilterStrideDivisor) ≤
    rawChars - scannedChars)

/-- The error of a blocked scan names the first rule that fired. -/
def FilterResult.violation (result : FilterResult) : CordonError :=
  .contentPolicyViolation ((result.policyMatches.head?.map PolicyMatch.ruleId).getD "")

/-- `StreamingFilter::push`: add generated text and return whatever is now safe to release. -/
def StreamingFilter.push (s : StreamingFilter T) (delta : List Char) :
    StreamingFilter T × Except CordonError (List Char) :=
  let s := { s with raw := s.raw ++ delta, rawChars := s.rawChars + delta.length }
  if !scanIsDue s.holdback s.rawChars s.scannedChars then (s, .ok [])
  else
    let result := s.filter.filter s.raw
    let s := { s with scannedChars := s.rawChars }
    if result.blocked then (s, .error result.violation)
    else
      let s := { s with policyMatches := result.policyMatches }
      let releasable := result.text.length - s.holdback
      if releasable ≤ s.releasedChars then (s, .ok [])
      else
        let chunk := (result.text.drop s.releasedChars).take (releasable - s.releasedChars)
        ({ s with releasedChars := releasable, released := s.released ++ chunk }, .ok chunk)

/-- `StreamingFilter::finish`: release the withheld tail. The accumulated text is taken out of the
filter, and always scanned in full. -/
def StreamingFilter.finish (s : StreamingFilter T) :
    StreamingFilter T × Except CordonError (List Char × FilterResult) :=
  let result := s.filter.filter s.raw
  let s := { s with raw := [], scannedChars := s.rawChars }
  if result.blocked then (s, .error result.violation)
  else
    let tail := result.text.drop s.releasedChars
    ({ s with releasedChars := result.text.length, released := s.released ++ tail },
      .ok (tail, result))

/-- Everything released to the caller so far. -/
def StreamingFilter.releasedText (s : StreamingFilter T) : List Char :=
  s.released

/-- Push deltas one after another, with what each push returned. -/
def StreamingFilter.pushAll (s : StreamingFilter T) :
    List (List Char) → StreamingFilter T × List (Except CordonError (List Char))
  | [] => (s, [])
  | delta :: deltas =>
    let (s, result) := s.push delta
    let (s, results) := s.pushAll deltas
    (s, result :: results)

/-- A stream from its first delta to its end. -/
structure StreamRun (T : TextEngine) where
  /-- The filter after the end. -/
  final : StreamingFilter T
  /-- What each push returned. -/
  pushes : List (Except CordonError (List Char))
  /-- What `finish` returned. -/
  finished : Except CordonError (List Char × FilterResult)

/-- Push every delta, then finish. -/
def StreamingFilter.run (s : StreamingFilter T) (deltas : List (List Char)) : StreamRun T :=
  let (pushed, pushes) := s.pushAll deltas
  let (final, finished) := pushed.finish
  ⟨final, pushes, finished⟩

/-- The texts that pushes handed to the caller, one after another. -/
def piecesOf (pushes : List (Except CordonError (List Char))) : List Char :=
  pushes.flatMap fun
    | .ok piece => piece
    | .error _ => []

/-- Everything a run handed to the caller: the pieces, then the tail. -/
def StreamRun.pieces (run : StreamRun T) : List Char :=
  piecesOf run.pushes ++
    match run.finished with
    | .ok (tail, _) => tail
    | .error _ => []

/-- Some call of the run returned an error. -/
def StreamRun.Errs (run : StreamRun T) : Prop :=
  (∃ e, .error e ∈ run.pushes) ∨ ∃ e, run.finished = .error e

/-! ### What a run does -/

/-- The accumulated texts at which a scan falls due. -/
def scannedFrom (holdback scannedChars : ℕ) (raw : List Char) :
    List (List Char) → List (List Char)
  | [] => []
  | delta :: deltas =>
    if scanIsDue holdback (raw ++ delta).length scannedChars then
      (raw ++ delta) :: scannedFrom holdback (raw ++ delta).length (raw ++ delta) deltas
    else scannedFrom holdback scannedChars (raw ++ delta) deltas

/-- The texts a stream scans while the deltas arrive. -/
def scannedTexts (holdback : ℕ) (deltas : List (List Char)) : List (List Char) :=
  scannedFrom holdback 0 [] deltas

/-- Every text scanned is a beginning of the text streamed. -/
theorem exists_append_of_mem_scannedFrom {holdback scannedChars : ℕ} {raw p : List Char}
    {deltas : List (List Char)} (h : p ∈ scannedFrom holdback scannedChars raw deltas) :
    ∃ t, raw ++ deltas.flatten = p ++ t := by
  induction deltas generalizing scannedChars raw with
  | nil => simp [scannedFrom] at h
  | cons delta deltas ih =>
    rw [List.flatten_cons, ← List.append_assoc]
    rw [scannedFrom] at h
    split at h
    · rcases List.mem_cons.1 h with rfl | hmem
      · exact ⟨_, rfl⟩
      · exact ih hmem
    · exact ih h

theorem exists_append_of_mem_scannedTexts {holdback : ℕ} {p : List Char}
    {deltas : List (List Char)} (h : p ∈ scannedTexts holdback deltas) :
    ∃ t, deltas.flatten = p ++ t := by
  simpa using exists_append_of_mem_scannedFrom h

/-- What the scans that are not blocked leave standing. -/
def OutputFilter.versions (f : OutputFilter T) (texts : List (List Char)) : List (List Char) :=
  (texts.filter fun p ↦ !(f.filter p).blocked).map fun p ↦ (f.filter p).text

/-- The counters of a streaming filter say what they are named for. -/
structure StreamingFilter.Counts (s : StreamingFilter T) : Prop where
  rawChars : s.rawChars = s.raw.length
  releasedChars : s.releasedChars = s.released.length

/-- A push that is too early for a scan only accumulates. -/
theorem StreamingFilter.push_of_not_due {s : StreamingFilter T} (hs : s.Counts) {delta : List Char}
    (hdue : scanIsDue s.holdback (s.raw ++ delta).length s.scannedChars = false) :
    s.push delta =
      ({ s with raw := s.raw ++ delta, rawChars := (s.raw ++ delta).length }, .ok []) := by
  have hlen : s.rawChars + delta.length = (s.raw ++ delta).length := by
    rw [hs.rawChars, List.length_append]
  simp only [push, hlen, hdue]
  rfl

/-- A push that finds the accumulated text blocked returns the violation. -/
theorem StreamingFilter.push_of_blocked {s : StreamingFilter T} (hs : s.Counts)
    {delta : List Char}
    (hdue : scanIsDue s.holdback (s.raw ++ delta).length s.scannedChars = true)
    (hblocked : (s.filter.filter (s.raw ++ delta)).blocked = true) :
    s.push delta =
      ({ s with
          raw := s.raw ++ delta
          rawChars := (s.raw ++ delta).length
          scannedChars := (s.raw ++ delta).length },
        .error (s.filter.filter (s.raw ++ delta)).violation) := by
  have hlen : s.rawChars + delta.length = (s.raw ++ delta).length := by
    rw [hs.rawChars, List.length_append]
  simp only [push, hlen, hdue, hblocked]
  rfl

/-- A push whose scan passes hands over what the scan lets go of beyond what went before. -/
theorem StreamingFilter.push_of_passes {s : StreamingFilter T} (hs : s.Counts) {delta : List Char}
    (hdue : scanIsDue s.holdback (s.raw ++ delta).length s.scannedChars = true)
    (hblocked : (s.filter.filter (s.raw ++ delta)).blocked = false) :
    let out := (s.filter.filter (s.raw ++ delta)).text
    s.push delta =
      ({ s with
          raw := s.raw ++ delta
          rawChars := (s.raw ++ delta).length
          scannedChars := (s.raw ++ delta).length
          releasedChars := (Holdback.extend s.holdback s.released out).length
          released := Holdback.extend s.holdback s.released out
          policyMatches := (s.filter.filter (s.raw ++ delta)).policyMatches },
        .ok ((Holdback.releasable s.holdback out).drop s.released.length)) := by
  intro out
  have hlen : s.rawChars + delta.length = (s.raw ++ delta).length := by
    rw [hs.rawChars, List.length_append]
  have hchunk : ∀ n, (Holdback.releasable s.holdback out).drop n =
      (out.drop n).take (out.length - s.holdback - n) := by
    intro n
    rw [Holdback.releasable, List.drop_take]
  simp only [push, hlen, hdue, hblocked, hs.releasedChars, Holdback.length_extend]
  by_cases hle : out.length - s.holdback ≤ s.released.length
  · have hnone : (Holdback.releasable s.holdback out).drop s.released.length = [] :=
      List.drop_eq_nil_of_le (by simpa using hle)
    have hextend : Holdback.extend s.holdback s.released out = s.released := by
      rw [Holdback.extend, hnone, List.append_nil]
    rw [hextend, hnone, max_eq_left hle]
    simp [out, hle]
  · rw [max_eq_right (by omega), Holdback.extend, hchunk]
    simp [out, hle]

/-- **What pushing deltas amounts to**, in terms of the texts scanned on the way. -/
structure StreamingFilter.Pushed (s : StreamingFilter T) (deltas : List (List Char))
    (s' : StreamingFilter T) (results : List (Except CordonError (List Char))) : Prop where
  counts : s'.Counts
  filter : s'.filter = s.filter
  raw : s'.raw = s.raw ++ deltas.flatten
  released : s'.released =
    (s.filter.versions (scannedFrom s.holdback s.scannedChars s.raw deltas)).foldl
      (Holdback.extend s.holdback) s.released
  pieces : s.released ++ piecesOf results = s'.released
  errors : ∀ e, .error e ∈ results ↔ ∃ p ∈ scannedFrom s.holdback s.scannedChars s.raw deltas,
    (s.filter.filter p).blocked = true ∧ e = (s.filter.filter p).violation

/-- Every push does one of three things, and the rest of the run starts from there. -/
theorem StreamingFilter.pushAll_spec {s : StreamingFilter T} (hs : s.Counts)
    (deltas : List (List Char)) :
    s.Pushed deltas (s.pushAll deltas).1 (s.pushAll deltas).2 := by
  induction deltas generalizing s with
  | nil => exact ⟨hs, rfl, by simp [pushAll], rfl, by simp [pushAll, piecesOf],
      by simp [pushAll, scannedFrom]⟩
  | cons delta deltas ih =>
    rw [show s.pushAll (delta :: deltas) =
      (((s.push delta).1.pushAll deltas).1,
        (s.push delta).2 :: ((s.push delta).1.pushAll deltas).2) from rfl]
    rcases hdue : scanIsDue s.holdback (s.raw ++ delta).length s.scannedChars with - | -
    · rw [push_of_not_due hs hdue]
      have hrest := ih (s := { s with raw := s.raw ++ delta, rawChars := (s.raw ++ delta).length })
        ⟨rfl, hs.releasedChars⟩
      have hscan : scannedFrom s.holdback s.scannedChars s.raw (delta :: deltas) =
          scannedFrom s.holdback s.scannedChars (s.raw ++ delta) deltas := by
        rw [scannedFrom, hdue]
        rfl
      refine ⟨hrest.counts, hrest.filter, ?_, ?_, ?_, ?_⟩
      · rw [hrest.raw, List.flatten_cons, List.append_assoc]
      · rw [hscan]
        exact hrest.released
      · exact hrest.pieces
      · intro e
        rw [hscan]
        simpa using hrest.errors e
    · have hscan : scannedFrom s.holdback s.scannedChars s.raw (delta :: deltas) =
          (s.raw ++ delta) ::
            scannedFrom s.holdback (s.raw ++ delta).length (s.raw ++ delta) deltas := by
        rw [scannedFrom, hdue]
        rfl
      rcases hblocked : (s.filter.filter (s.raw ++ delta)).blocked with - | -
      · rw [push_of_passes hs hdue hblocked]
        set out := (s.filter.filter (s.raw ++ delta)).text with hout
        have hrest := ih (s := { s with
          raw := s.raw ++ delta
          rawChars := (s.raw ++ delta).length
          scannedChars := (s.raw ++ delta).length
          releasedChars := (Holdback.extend s.holdback s.released out).length
          released := Holdback.extend s.holdback s.released out
          policyMatches := (s.filter.filter (s.raw ++ delta)).policyMatches }) ⟨rfl, rfl⟩
        refine ⟨hrest.counts, hrest.filter, ?_, ?_, ?_, ?_⟩
        · rw [hrest.raw, List.flatten_cons, List.append_assoc]
        · rw [hscan, OutputFilter.versions, List.filter_cons_of_pos (by simp [hblocked]),
            List.map_cons, List.foldl_cons]
          exact hrest.released
        · rw [← hrest.pieces]
          simp [piecesOf, Holdback.extend]
        · intro e
          rw [hscan]
          simpa [hblocked] using hrest.errors e
      · rw [push_of_blocked hs hdue hblocked]
        have hrest := ih (s := { s with
          raw := s.raw ++ delta
          rawChars := (s.raw ++ delta).length
          scannedChars := (s.raw ++ delta).length }) ⟨rfl, hs.releasedChars⟩
        refine ⟨hrest.counts, hrest.filter, ?_, ?_, ?_, ?_⟩
        · rw [hrest.raw, List.flatten_cons, List.append_assoc]
        · rw [hscan, OutputFilter.versions, List.filter_cons_of_neg (by simp [hblocked])]
          exact hrest.released
        · exact hrest.pieces
        · intro e
          rw [hscan]
          simpa [hblocked] using or_congr_right (hrest.errors e)

/-- A new stream counts nothing. -/
theorem StreamingFilter.counts_withHoldback (f : OutputFilter T) (holdback : ℕ) :
    (withHoldback f holdback).Counts :=
  ⟨rfl, rfl⟩

/-- What a stream has kept when it is closed is the whole text. -/
theorem StreamingFilter.filter_raw_pushAll (f : OutputFilter T) (holdback : ℕ)
    (deltas : List (List Char)) :
    ((withHoldback f holdback).pushAll deltas).1.filter.filter
      ((withHoldback f holdback).pushAll deltas).1.raw = f.filter deltas.flatten := by
  have hspec := pushAll_spec (counts_withHoldback f holdback) deltas
  rw [hspec.filter, hspec.raw]
  rfl

/-- What the pushes of a stream have handed over before it is finished. -/
def releasedBefore (f : OutputFilter T) (holdback : ℕ) (deltas : List (List Char)) : List Char :=
  Holdback.released holdback (f.versions (scannedTexts holdback deltas))

variable {f : OutputFilter T} (holdback : ℕ) {deltas : List (List Char)}

/-- **A stream of a text that is refused**: it ends in an error, and nothing is handed over at its
end. -/
theorem run_of_blocked (hblocked : (f.filter deltas.flatten).blocked = true) :
    ((StreamingFilter.withHoldback f holdback).run deltas).finished =
        .error (f.filter deltas.flatten).violation ∧
      ((StreamingFilter.withHoldback f holdback).run deltas).pieces =
        releasedBefore f holdback deltas := by
  have hspec := StreamingFilter.pushAll_spec (StreamingFilter.counts_withHoldback f holdback) deltas
  have hraw := StreamingFilter.filter_raw_pushAll f holdback deltas
  have hfinished : ((StreamingFilter.withHoldback f holdback).run deltas).finished =
      .error (f.filter deltas.flatten).violation := by
    simp only [StreamingFilter.run, StreamingFilter.finish, hraw, hblocked]
    rfl
  refine ⟨hfinished, ?_⟩
  rw [StreamRun.pieces, hfinished]
  show piecesOf _ ++ [] = _
  rw [List.append_nil]
  exact hspec.pieces.trans hspec.released

/-- **A stream of a text that is not refused**: `finish` returns what the whole text is filtered to,
and hands over what is left of it beyond the characters handed over before. -/
theorem run_of_passes (hpasses : (f.filter deltas.flatten).blocked = false) :
    let out := (f.filter deltas.flatten).text
    let before := releasedBefore f holdback deltas
    let run := (StreamingFilter.withHoldback f holdback).run deltas
    run.finished = .ok (out.drop before.length, f.filter deltas.flatten) ∧
      run.pieces = before ++ out.drop before.length ∧
      run.final.releasedText = before ++ out.drop before.length := by
  intro out before run
  have hspec := StreamingFilter.pushAll_spec (StreamingFilter.counts_withHoldback f holdback) deltas
  have hraw := StreamingFilter.filter_raw_pushAll f holdback deltas
  have hreleased : ((StreamingFilter.withHoldback f holdback).pushAll deltas).1.released = before :=
    hspec.released
  have hchars : ((StreamingFilter.withHoldback f holdback).pushAll deltas).1.releasedChars =
      before.length := by
    rw [hspec.counts.releasedChars, hreleased]
  have hfinished : run.finished = .ok (out.drop before.length, f.filter deltas.flatten) := by
    simp only [run, StreamingFilter.run, StreamingFilter.finish, hraw, hpasses, hchars]
    rfl
  refine ⟨hfinished, ?_, ?_⟩
  · rw [StreamRun.pieces, hfinished]
    show piecesOf _ ++ out.drop before.length = _
    exact congrArg (· ++ out.drop before.length) (hspec.pieces.trans hreleased)
  · simp only [run, StreamingFilter.run, StreamingFilter.finish, StreamingFilter.releasedText, hraw,
      hpasses, hchars, hreleased]
    rfl

variable {holdback}

/-- A push errs exactly when a text scanned on the way is refused. -/
theorem exists_error_mem_pushes :
    (∃ e, .error e ∈ ((StreamingFilter.withHoldback f holdback).run deltas).pushes) ↔
      ∃ p ∈ scannedTexts holdback deltas, (f.filter p).blocked = true := by
  have hspec := StreamingFilter.pushAll_spec (StreamingFilter.counts_withHoldback f holdback) deltas
  constructor
  · rintro ⟨e, he⟩
    obtain ⟨p, hp, hblocked, -⟩ := (hspec.errors e).1 he
    exact ⟨p, hp, hblocked⟩
  · rintro ⟨p, hp, hblocked⟩
    exact ⟨_, (hspec.errors _).2 ⟨p, hp, hblocked, rfl⟩⟩

/-! ### Policies that can be streamed -/

/-- **A policy that can be streamed** behind a window of `holdback` characters: what is refused is
refused in every extension, and the releasable part of what is left standing is the beginning of
what any extension leaves. -/
def OutputFilter.Settled (f : OutputFilter T) (holdback : ℕ) : Prop :=
  ∀ p t, (f.filter (p ++ t)).blocked = false →
    (f.filter p).blocked = false ∧
      Holdback.releasable holdback (f.filter p).text <+: (f.filter (p ++ t)).text

/-- **Streaming such a policy is filtering the whole text**, however the text is split. -/
theorem streamed_of_settled (hf : f.Settled holdback)
    (hpasses : (f.filter deltas.flatten).blocked = false) :
    let run := (StreamingFilter.withHoldback f holdback).run deltas
    ¬run.Errs ∧ run.pieces = (f.filter deltas.flatten).text ∧
      run.final.releasedText = (f.filter deltas.flatten).text := by
  intro run
  obtain ⟨hfinished, hpieces, hreleased⟩ := run_of_passes holdback hpasses
  have hscan : ∀ p ∈ scannedTexts holdback deltas, (f.filter p).blocked = false ∧
      Holdback.releasable holdback (f.filter p).text <+: (f.filter deltas.flatten).text := by
    intro p hp
    obtain ⟨t, ht⟩ := exists_append_of_mem_scannedTexts hp
    rw [ht] at hpasses ⊢
    exact hf p t hpasses
  have hclosed : releasedBefore f holdback deltas <+: (f.filter deltas.flatten).text := by
    refine Holdback.released_isPrefix fun out hout ↦ ?_
    rw [OutputFilter.versions, List.mem_map] at hout
    obtain ⟨p, hp, rfl⟩ := hout
    exact (hscan p (List.mem_of_mem_filter hp)).2
  refine ⟨?_, hpieces.trans (Holdback.append_drop_eq_iff.2 hclosed),
    hreleased.trans (Holdback.append_drop_eq_iff.2 hclosed)⟩
  rintro (herr | ⟨e, he⟩)
  · obtain ⟨p, hp, hblocked⟩ := exists_error_mem_pushes.1 herr
    rw [(hscan p hp).1] at hblocked
    exact Bool.false_ne_true hblocked
  · rw [hfinished] at he
    simp at he

end Cordon
