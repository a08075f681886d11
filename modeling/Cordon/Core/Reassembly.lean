import Cordon.Core.SseReader
import Cordon.Lib.Loop

/-!
# Text that is reassembled from reads

A read can end anywhere, also in the middle of a character and in the middle of bytes that are none.
`decode_utf8_prefix` is called after every read, with what it left of the reads before in front.

Its loop is taken turn by turn here (`decodeTurn`): a slice of the pending bytes that does not lie
inside them is a panic. No turn panics, and every turn but the last drops a byte
(`decodeTurn_cases`), so **every call ends well** (`run_decodeTurn`).

What is left after some reads, and the text they have added, are where the machine of the decoder
stands after the bytes of all of them (`reassemble_eq`). Where the reads were cut does not matter.

`reassembled_eq_whole` puts the two together, and they rest on different facts. That a call ends
rests on the turns alone, and needs nothing of what the bytes are. What the calls come to rests on
the machine reading a piece from where it stood behind the piece before (`Utf8.scan_append`). What
is pending between two calls begins a character that it is not all of, which is why it is never more
than three bytes.
-/

namespace Cordon

/-! ### One call -/

/-- One turn of the loop of `decode_utf8_prefix`, with the pending bytes and the text. -/
def decodeTurn (s : Bytes × List Char) :
    Option ((Bytes × List Char) ⊕ (Bytes × List Char)) := do
  match Utf8.fromUtf8 s.1 with
  | .ok valid => return .inr ([], s.2 ++ valid)
  | .error e =>
    let text := s.2 ++ Utf8.decodeLossy (← Bytes.slice s.1 0 e.validUpTo)
    match e.errorLen with
    | none => return .inr (← Bytes.slice s.1 e.validUpTo s.1.length, text)
    | some bad =>
      return .inl (← Bytes.slice s.1 (e.validUpTo + bad) s.1.length, text ++ ['\uFFFD'])

/-- **One turn** leaves with the result, or goes on with fewer bytes and towards the same one. -/
theorem decodeTurn_cases (pending : Bytes) (text : List Char) :
    (∃ pending' text', decodeTurn (pending, text) = some (.inl (pending', text')) ∧
        decodeUtf8Prefix pending' text' = decodeUtf8Prefix pending text ∧
        pending'.length < pending.length) ∨
      decodeTurn (pending, text) = some (.inr (decodeUtf8Prefix pending text)) := by
  have hreport := Utf8.report_firstError pending
  rcases herror : Utf8.firstError .ground 0 0 pending with - | e
  · rw [herror] at hreport
    obtain ⟨cs, hscan⟩ := hreport
    right
    rw [decodeUtf8Prefix_eq, hscan, decodeTurn, Utf8.fromUtf8, herror]
    show some (Sum.inr ([], text ++ Utf8.decodeLossy pending)) = _
    rw [Utf8.decodeLossy_of_scan hscan]
    rfl
  · have hdecode : Utf8.fromUtf8 pending = .error e := by rw [Utf8.fromUtf8, herror]
    rw [herror] at hreport
    rw [decodeTurn, hdecode]
    cases hreport with
    | cut x t cs hbs hx ht hheld =>
      subst hbs
      right
      simp only [Bytes.slice_front, Bytes.slice_back, Option.bind_eq_bind, Option.bind_some]
      rw [decodeUtf8Prefix_eq, Utf8.decodeLossy_of_scan hx, Utf8.scan_append, hx, ht, hheld,
        List.append_nil]
      rfl
    | bad x m rest cs hbs hx hm hrest =>
      have hback := Bytes.slice_back (x ++ m) rest
      rw [show (x ++ m).length = x.length + m.length from List.length_append,
        List.append_assoc] at hback
      subst hbs
      left
      refine ⟨rest, text ++ Utf8.written (cs.map some) ++ ['\uFFFD'], ?_, ?_, ?_⟩
      · simp only [Bytes.slice_front, hback, Option.bind_eq_bind, Option.bind_some]
        rw [Utf8.decodeLossy_of_scan hx]
        rfl
      · rw [decodeUtf8Prefix_eq, decodeUtf8Prefix_eq, Utf8.scan_append, hx, hrest,
          Utf8.written_append]
        simp [Utf8.written]
      · have := List.length_pos_iff.2 hm
        simp only [List.length_append]
        omega

/-- **A call ends well**, within more turns than there are bytes. -/
theorem run_decodeTurn {pending : Bytes} {fuel : ℕ} (text : List Char)
    (hfuel : pending.length < fuel) :
    Loop.run decodeTurn fuel (pending, text) = some (decodeUtf8Prefix pending text) := by
  have hturn : ∀ s : Bytes × List Char, decodeUtf8Prefix s.1 s.2 = decodeUtf8Prefix pending text →
      (∃ s', decodeTurn s = some (.inl s') ∧
          decodeUtf8Prefix s'.1 s'.2 = decodeUtf8Prefix pending text ∧ s'.1.length < s.1.length) ∨
        ∃ a, decodeTurn s = some (.inr a) ∧ a = decodeUtf8Prefix pending text := by
    rintro ⟨held, written⟩ hs
    rcases decodeTurn_cases held written with ⟨held', written', hnext, hsame, hless⟩ | hleave
    · exact Or.inl ⟨(held', written'), hnext, hsame.trans hs, hless⟩
    · exact Or.inr ⟨_, hleave, hs⟩
  obtain ⟨a, hrun, rfl⟩ := Loop.exists_run hturn (s := (pending, text)) rfl hfuel
  exact hrun

/-! ### The calls of a stream -/

/-- What is pending, and the text, after pieces that were appended and decoded one by one. -/
def reassemble (text : List Char) (pieces : List Bytes) : Bytes × List Char :=
  pieces.foldl (fun s piece ↦ decodeUtf8Prefix (s.1 ++ piece) s.2) ([], text)

/-- Calls go on where the ones before stand. -/
theorem foldl_decodeUtf8Prefix {c : Utf8.Config} (hc : c.Stands) (text : List Char)
    (pieces : List Bytes) :
    pieces.foldl (fun s piece ↦ decodeUtf8Prefix (s.1 ++ piece) s.2) (c.2, text) =
      ((Utf8.scan c pieces.flatten).2.2, text ++ Utf8.written (Utf8.scan c pieces.flatten).1) := by
  induction pieces generalizing c text with
  | nil => rw [List.flatten_nil, List.foldl_nil]; exact congrArg _ (List.append_nil text).symm
  | cons piece pieces ih =>
    rw [List.foldl_cons, decodeUtf8Prefix_eq, hc.scan_append, ih (hc.scan piece), List.flatten_cons,
      Utf8.scan_append, Utf8.written_append, List.append_assoc]

theorem reassemble_eq (text : List Char) (pieces : List Bytes) :
    reassemble text pieces =
      ((Utf8.scan .start pieces.flatten).2.2,
        text ++ Utf8.written (Utf8.scan .start pieces.flatten).1) :=
  foldl_decodeUtf8Prefix Utf8.stands_start text pieces

/-- A character is read across a cut; the beginning of one that never ends is replaced. -/
example : reassemble [] [[0xE6, 0x97], [0xA5, 0xE6], [0x41]] = ([], ['日', '\uFFFD', 'A']) := by
  decide

/-- **Decoding in pieces is decoding the whole.** What is pending after any of the calls begins a
character that it is not all of, and every call ends. -/
theorem reassembled_eq_whole (text : List Char) (pieces : List Bytes) :
    (reassemble text pieces).2 ++ Utf8.decodeLossy (reassemble text pieces).1 =
        text ++ Utf8.decodeLossy pieces.flatten ∧
      (∀ read, read <+: pieces →
        Utf8.Incomplete (reassemble text read).1 ∧ (reassemble text read).1.length ≤ 3) ∧
      ∀ pending written fuel, pending.length < fuel →
        Loop.run decodeTurn fuel (pending, written) = some (decodeUtf8Prefix pending written) := by
  refine ⟨?_, ?_, fun pending written fuel hfuel ↦ run_decodeTurn written hfuel⟩
  · rw [reassemble_eq, List.append_assoc, ← Utf8.decodeLossy_eq_scan]
  · intro read _
    have hheld := Utf8.incomplete_held read.flatten
    rw [reassemble_eq]
    exact ⟨hheld, hheld.length_le⟩

end Cordon
