import Cordon.Core.Requests
import Cordon.Lib.Framing
import Cordon.Lib.Occurrence
import Cordon.Lib.Text
import Cordon.Lib.Utf8Stream
import Mathlib.Data.Prod.Lex

/-!
# The stream of a runtime, read as server-sent events

A runtime that speaks the OpenAI protocol answers a streaming request with `data: {json}` records
separated by blank lines. `SseReader` is the state of `infer_stream` between two items: the reads to
come, the text that is not yet a record, the bytes that are not yet a character, and what the
records have reported so far. `SseReader.next` is the loop that runs until it has an item, and
`SseReader.items` is the stream up to its end.

The JSON decoder is a parameter: a function from texts to values, of which nothing is assumed.

`items_eq_chunks` takes the reader apart. **Where the reads hold no transport error, the stream is
what the records that were cut off report, one after the other** (`chunks`), and the records that
are cut off are a matter of the text and of how it arrived (`cutTexts`).

This rests on two facts about a turn. A record is cut off in front of the first blank line, so what
is left is shorter, and with it the weight of the reader (`weight_next_lt`): the stream ends. And
what has been decoded is all of the bytes but for a character that is not complete
(`decodeUtf8PrefixLoop_eq`), so how the bytes arrived matters to the blank lines only. Which texts
of records come out of given bytes is the subject of `Core.SseRecords` and `Core.SseChunking`.
-/

namespace Cordon

open Text

/-! ### What a record says -/

/-- `serde_json::Value`, with as much of a number as is read. -/
inductive JsonValue
  | null
  | bool (b : Bool)
  /-- A number, and its value if that is an unsigned 64 bit integer. -/
  | number (asU64 : Option UInt64)
  | string (s : String)
  | array (items : List JsonValue)
  | object (fields : List (String × JsonValue))

namespace JsonValue

/-- The value of a field, if this is an object that has it. -/
def get (key : String) : JsonValue → Option JsonValue
  | .object fields => fields.lookup key
  | _ => none

/-- The first element, if this is an array that has one. -/
def first : JsonValue → Option JsonValue
  | .array (item :: _) => some item
  | _ => none

def asStr : JsonValue → Option String
  | .string s => some s
  | _ => none

def asU64 : JsonValue → Option UInt64
  | .number n => n
  | _ => none

def isNull : JsonValue → Bool
  | .null => true
  | _ => false

end JsonValue

/-- Parse an OpenAI-style `finish_reason`. -/
def FinishReason.fromWire : String → FinishReason
  | "length" => .length
  | "content_filter" => .contentFilter
  | "timeout" => .timeout
  | "error" => .error
  | _ => .stop

/-- A token count, cut down to 32 bits; 0 if there is none. -/
def tokenCount (key : String) (usage : JsonValue) : ℕ :=
  (((usage.get key).bind JsonValue.asU64).getD 0).toNat % 2 ^ 32

/-- `parse_usage`. -/
def parseUsage : Option JsonValue → TokenUsage
  | none => .zero
  | some usage => ⟨tokenCount "prompt_tokens" usage, tokenCount "completion_tokens" usage⟩

/-- Accumulated state across one SSE stream. -/
structure SseState where
  finishReason : FinishReason
  usage : TokenUsage
  terminated : Bool
  deriving DecidableEq, Repr

/-- `SseState::default`. -/
def SseState.default : SseState :=
  ⟨.stop, .zero, false⟩

/-- `SseOutcome`. -/
inductive SseOutcome
  | chunk (chunk : StreamChunk)
  | finished
  | continue
  deriving DecidableEq, Repr

/-- What a line adds to the payload of its record. -/
def linePayload (line : List Char) : List Char :=
  if "data:".toList <+: line then trim (line.drop 5) else []

/-- The payload of a record: its `data:` lines, trimmed and joined. -/
def ssePayload (event : List Char) : List Char :=
  (lines event).flatMap linePayload

/-- The state with the usage that a value reports, if it reports one. -/
def SseState.noteUsage (state : SseState) (value : JsonValue) : SseState :=
  match value.get "usage" with
  | some usage => if usage.isNull then state else { state with usage := parseUsage (some usage) }
  | none => state

/-- The state with the finish reason that a choice reports, if it reports one. -/
def SseState.noteFinishReason (state : SseState) (choice : JsonValue) : SseState :=
  match (choice.get "finish_reason").bind JsonValue.asStr with
  | some reason => { state with finishReason := .fromWire reason }
  | none => state

/-- What a payload that is JSON reports. -/
def readValue (value : JsonValue) (state : SseState) : SseOutcome × SseState :=
  let state := state.noteUsage value
  match (value.get "choices").bind JsonValue.first with
  | none => (.continue, state)
  | some choice =>
    let state := state.noteFinishReason choice
    let delta := (((choice.get "delta").bind (JsonValue.get "content")).bind
      JsonValue.asStr).getD ""
    if delta.toList.isEmpty then (.continue, state) else (.chunk (.delta delta.toList), state)

variable (fromStr : List Char → Option JsonValue)

/-- What a payload reports. -/
def readPayload (payload : List Char) (state : SseState) : SseOutcome × SseState :=
  if payload.isEmpty then (.continue, state)
  else if payload = "[DONE]".toList then (.finished, { state with terminated := true })
  else
    match fromStr payload with
    | none => (.continue, state)
    | some value => readValue value state

/-- `parse_sse_event`. -/
def parseSseEvent (event : List Char) (state : SseState) : SseOutcome × SseState :=
  readPayload fromStr (ssePayload event) state

/-! ### Cutting records off -/

/-- A blank line, as a record is ended by it. -/
def lfLf : List Char := ['\n', '\n']

/-- A blank line where lines end in a carriage return and a line feed. -/
def crLfCrLf : List Char := ['\r', '\n', '\r', '\n']

/-- Pull one complete SSE record off the front of the buffer, if one is present. -/
def takeEvent (buffer : List Char) : Option (List Char × List Char) :=
  match (Occurrence.find lfLf buffer).or (Occurrence.find crLfCrLf buffer) with
  | none => none
  | some idx =>
    let sepLen := if crLfCrLf <+: buffer.drop idx then 4 else 2
    some (buffer.take idx, buffer.drop (idx + sepLen))

/-- The loop of `decode_utf8_prefix`. Every round consumes a byte, so the number of bytes is enough
rounds. -/
def decodeUtf8PrefixLoop : ℕ → Bytes → List Char → Bytes × List Char
  | 0, pending, text => (pending, text)
  | fuel + 1, pending, text =>
    match Utf8.fromUtf8 pending with
    | .ok valid => ([], text ++ valid)
    | .error e =>
      let text := text ++ Utf8.decodeLossy (pending.take e.validUpTo)
      match e.errorLen with
      | none => (pending.drop e.validUpTo, text)
      | some bad =>
        decodeUtf8PrefixLoop fuel (pending.drop (e.validUpTo + bad)) (text ++ ['\uFFFD'])

/-- Move every complete UTF-8 character out of the pending bytes and into the text. -/
def decodeUtf8Prefix (pending : Bytes) (text : List Char) : Bytes × List Char :=
  decodeUtf8PrefixLoop (pending.length + 1) pending text

theorem takeEvent_eq_none_iff {buffer : List Char} :
    takeEvent buffer = none ↔
      Occurrence.find lfLf buffer = none ∧ Occurrence.find crLfCrLf buffer = none := by
  rw [← Option.or_eq_none_iff, takeEvent]
  split
  · next h => exact iff_of_true rfl h
  · next h => exact iff_of_false (by simp) (by simp [h])

theorem takeEvent_of_lfLf {buffer : List Char} {i : ℕ} (h : Occurrence.find lfLf buffer = some i) :
    takeEvent buffer = some (buffer.take i, buffer.drop (i + 2)) := by
  have hocc := Occurrence.isPrefix_drop_of_find h
  have hnot : ¬crLfCrLf <+: buffer.drop i := by
    intro hcr
    obtain ⟨t, ht⟩ := hocc
    obtain ⟨t', ht'⟩ := hcr
    rw [← ht] at ht'
    simp [lfLf, crLfCrLf] at ht'
  rw [takeEvent, h, Option.some_or]
  simp only [if_neg hnot]

theorem takeEvent_of_crLfCrLf {buffer : List Char} {i : ℕ}
    (hlf : Occurrence.find lfLf buffer = none) (h : Occurrence.find crLfCrLf buffer = some i) :
    takeEvent buffer = some (buffer.take i, buffer.drop (i + 4)) := by
  rw [takeEvent, hlf, Option.none_or, h]
  simp only [if_pos (Occurrence.isPrefix_drop_of_find h)]

/-- **Where a record is cut off**: at the first pair of line feeds, and only without one at the
first pair of carriage returns and line feeds. -/
theorem takeEvent_cases {buffer event rest : List Char}
    (h : takeEvent buffer = some (event, rest)) :
    (∃ i, Occurrence.find lfLf buffer = some i ∧ event = buffer.take i ∧
        rest = buffer.drop (i + 2)) ∨
      (Occurrence.find lfLf buffer = none ∧ ∃ i, Occurrence.find crLfCrLf buffer = some i ∧
        event = buffer.take i ∧ rest = buffer.drop (i + 4)) := by
  rcases hlf : Occurrence.find lfLf buffer with - | i
  · rcases hcr : Occurrence.find crLfCrLf buffer with - | i
    · exact absurd (h.symm.trans (takeEvent_eq_none_iff.2 ⟨hlf, hcr⟩)) (by simp)
    · have heq := Option.some.inj (h.symm.trans (takeEvent_of_crLfCrLf hlf hcr))
      exact Or.inr ⟨rfl, i, rfl, congrArg Prod.fst heq, congrArg Prod.snd heq⟩
  · have heq := Option.some.inj (h.symm.trans (takeEvent_of_lfLf hlf))
    exact Or.inl ⟨i, rfl, congrArg Prod.fst heq, congrArg Prod.snd heq⟩

/-- A text in which a pair of line feeds does not begin is cut off whole by one. -/
theorem takeEvent_append_lfLf {event : List Char}
    (h : Occurrence.find lfLf (event ++ ['\n']) = none) (rest : List Char) :
    takeEvent (event ++ (lfLf ++ rest)) = some (event, rest) := by
  have hfind : Occurrence.find lfLf (event ++ (lfLf ++ rest)) = some event.length :=
    Occurrence.find_append_self (by decide) h rest
  rw [takeEvent_of_lfLf hfind, List.take_left, ← List.append_assoc,
    List.drop_left' (by rw [List.length_append]; rfl)]

/-- A record that is cut off leaves a shorter buffer. -/
theorem length_takeEvent_lt {buffer event rest : List Char}
    (h : takeEvent buffer = some (event, rest)) : rest.length < buffer.length := by
  obtain ⟨i, hfind, -, rfl⟩ | ⟨-, i, hfind, -, rfl⟩ := takeEvent_cases h
  · have hlen := (Occurrence.isPrefix_drop_of_find hfind).length_le
    rw [List.length_drop, show lfLf.length = 2 from rfl] at hlen
    rw [List.length_drop]
    omega
  · have hlen := (Occurrence.isPrefix_drop_of_find hfind).length_le
    rw [List.length_drop, show crLfCrLf.length = 4 from rfl] at hlen
    rw [List.length_drop]
    omega

/-! ### The reader -/

/-- The state of `infer_stream` between two items. -/
structure SseReader where
  /-- The reads to come; one that fails has the displayed error. -/
  reads : List (Except String Bytes)
  /-- Decoded text that is not yet a whole record. -/
  buffer : List Char
  /-- Bytes that are not yet a whole character. -/
  pending : Bytes
  state : SseState

namespace SseReader

/-- The reader before its first read. -/
def start (reads : List (Except String Bytes)) : SseReader :=
  ⟨reads, [], [], .default⟩

/-- The last item: what the records have reported. -/
def finish (r : SseReader) : StreamChunk × SseReader :=
  (.done r.state.finishReason r.state.usage,
    { r with state := { r.state with terminated := true } })

/-- The end of the reads. Bytes that never completed a character become replacement characters. -/
def atEnd (r : SseReader) : Option (StreamChunk × SseReader) :=
  if r.state.terminated then none
  else if r.pending.isEmpty then some r.finish
  else
    let r := { r with buffer := r.buffer ++ Utf8.decodeLossy r.pending, pending := [] }
    match takeEvent r.buffer with
    | none => some r.finish
    | some (event, buffer) =>
      match parseSseEvent fromStr event r.state with
      | (.chunk chunk, state) => some (chunk, { r with buffer, state })
      | (_, state) => some { r with buffer, state }.finish

/-- The loop of `infer_stream`: the next item, and the reader after it. -/
def next (r : SseReader) : Option (Except CordonError StreamChunk × SseReader) :=
  match hevent : takeEvent r.buffer with
  | some (event, buffer) =>
    have := length_takeEvent_lt hevent
    match parseSseEvent fromStr event r.state with
    | (.chunk chunk, state) => some (.ok chunk, { r with buffer, state })
    | (.finished, state) =>
      some (.ok (.done state.finishReason state.usage), { r with buffer, state })
    | (.continue, state) => next { r with buffer, state }
  | none =>
    match hreads : r.reads with
    | .ok part :: reads =>
      have : reads.length < r.reads.length := by rw [hreads]; exact Nat.lt_succ_self _
      let (pending, buffer) := decodeUtf8Prefix (r.pending ++ part) r.buffer
      next { r with reads, buffer, pending }
    | .error e :: reads =>
      some (.error (.inferenceFailed ("model runtime stream failed: " ++ e)), { r with reads })
    | [] => (r.atEnd fromStr).map fun (chunk, r) ↦ (.ok chunk, r)
termination_by (r.reads.length, r.buffer.length)

/-! The loop, by what it finds. -/

variable {fromStr} {r : SseReader}

theorem next_of_event {event buffer : List Char} (h : takeEvent r.buffer = some (event, buffer)) :
    r.next fromStr =
      match parseSseEvent fromStr event r.state with
      | (.chunk chunk, state) => some (.ok chunk, { r with buffer, state })
      | (.finished, state) =>
        some (.ok (.done state.finishReason state.usage), { r with buffer, state })
      | (.continue, state) => next fromStr { r with buffer, state } := by
  rw [next]
  split
  · next heq =>
    rw [h] at heq
    obtain ⟨rfl, rfl⟩ := Prod.ext_iff.1 (Option.some.inj heq)
    rfl
  · next heq =>
    rw [h] at heq
    simp at heq

theorem next_of_read {part : Bytes} {reads : List (Except String Bytes)}
    (h : takeEvent r.buffer = none) (hreads : r.reads = .ok part :: reads) :
    r.next fromStr = next fromStr { r with
      reads
      buffer := (decodeUtf8Prefix (r.pending ++ part) r.buffer).2
      pending := (decodeUtf8Prefix (r.pending ++ part) r.buffer).1 } := by
  rw [next]
  split
  · next heq =>
    rw [h] at heq
    simp at heq
  · split
    · next heq =>
      rw [hreads] at heq
      obtain ⟨hpart, rfl⟩ := List.cons.inj heq
      obtain rfl := Except.ok.inj hpart
      rfl
    · next heq =>
      rw [hreads] at heq
      simp at heq
    · next heq =>
      rw [hreads] at heq
      simp at heq

theorem next_of_failure {e : String} {reads : List (Except String Bytes)}
    (h : takeEvent r.buffer = none) (hreads : r.reads = .error e :: reads) :
    r.next fromStr =
      some (.error (.inferenceFailed ("model runtime stream failed: " ++ e)),
        { r with reads }) := by
  rw [next]
  split
  · next heq =>
    rw [h] at heq
    simp at heq
  · split
    · next heq =>
      rw [hreads] at heq
      simp at heq
    · next heq =>
      rw [hreads] at heq
      obtain ⟨hpart, rfl⟩ := List.cons.inj heq
      obtain rfl := Except.error.inj hpart
      rfl
    · next heq =>
      rw [hreads] at heq
      simp at heq

theorem next_of_end (h : takeEvent r.buffer = none) (hreads : r.reads = []) :
    r.next fromStr = (r.atEnd fromStr).map fun (chunk, r) ↦ (.ok chunk, r) := by
  rw [next]
  split
  · next heq =>
    rw [h] at heq
    simp at heq
  · split
    · next heq =>
      rw [hreads] at heq
      simp at heq
    · next heq =>
      rw [hreads] at heq
      simp at heq
    · rfl

/-! The stream ends. -/

/-- What is left to do: reads, then bytes held back, then text, then the last item. -/
def weight (r : SseReader) : ℕ ×ₗ ℕ ×ₗ ℕ ×ₗ ℕ :=
  toLex (r.reads.length, toLex (r.pending.length, toLex (r.buffer.length,
    if r.state.terminated then 0 else 1)))

theorem weight_lt_of_reads {r r' : SseReader} (h : r'.reads.length < r.reads.length) :
    r'.weight < r.weight :=
  Prod.Lex.toLex_lt_toLex.2 (Or.inl h)

theorem weight_lt_of_buffer {r r' : SseReader} (hreads : r'.reads = r.reads)
    (hpending : r'.pending = r.pending) (h : r'.buffer.length < r.buffer.length) :
    r'.weight < r.weight := by
  rw [weight, weight, hreads, hpending]
  exact Prod.Lex.toLex_lt_toLex.2 (Or.inr ⟨rfl, Prod.Lex.toLex_lt_toLex.2 (Or.inr ⟨rfl,
    Prod.Lex.toLex_lt_toLex.2 (Or.inl h)⟩)⟩)

theorem weight_atEnd_lt {r r' : SseReader} {chunk : StreamChunk}
    (h : r.atEnd fromStr = some (chunk, r')) : r'.weight < r.weight := by
  have hflushed : r.pending.isEmpty = false → r'.reads = r.reads → r'.pending = [] →
      r'.weight < r.weight := by
    intro hpending hreads hempty
    rw [weight, weight, hreads, hempty]
    refine Prod.Lex.toLex_lt_toLex.2 (Or.inr ⟨rfl, Prod.Lex.toLex_lt_toLex.2 (Or.inl ?_)⟩)
    rw [List.length_nil, List.length_pos_iff]
    intro hnil
    rw [hnil] at hpending
    simp at hpending
  rw [atEnd] at h
  split at h
  · simp at h
  next hterminated =>
  split at h
  · obtain ⟨-, rfl⟩ := Prod.ext_iff.1 (Option.some.inj h)
    have hopen : r.state.terminated = false := by simpa using hterminated
    rw [weight, weight, finish, hopen]
    exact Prod.Lex.toLex_lt_toLex.2 (Or.inr ⟨rfl, Prod.Lex.toLex_lt_toLex.2 (Or.inr ⟨rfl,
      Prod.Lex.toLex_lt_toLex.2 (Or.inr ⟨rfl, Nat.zero_lt_one⟩)⟩)⟩)
  next hpending =>
  have hpending : r.pending.isEmpty = false := by simpa using hpending
  simp only at h
  split at h
  · obtain ⟨-, rfl⟩ := Prod.ext_iff.1 (Option.some.inj h)
    exact hflushed hpending rfl rfl
  · split at h
    · obtain ⟨-, rfl⟩ := Prod.ext_iff.1 (Option.some.inj h)
      exact hflushed hpending rfl rfl
    · obtain ⟨-, rfl⟩ := Prod.ext_iff.1 (Option.some.inj h)
      exact hflushed hpending rfl rfl

/-- **Every item leaves less to do.** -/
theorem weight_next_lt {r r' : SseReader} {item : Except CordonError StreamChunk}
    (h : r.next fromStr = some (item, r')) : r'.weight < r.weight := by
  induction hn : r.weight using WellFoundedLT.induction generalizing r with
  | ind w ih =>
    subst hn
    rcases hevent : takeEvent r.buffer with - | ⟨event, buffer⟩
    · rcases hreads : r.reads with - | ⟨part | part, reads⟩
      · rw [next_of_end hevent hreads, Option.map_eq_some_iff] at h
        obtain ⟨⟨chunk, r''⟩, hend, heq⟩ := h
        obtain rfl := (Prod.ext_iff.1 heq).2
        exact weight_atEnd_lt hend
      · rw [next_of_failure hevent hreads] at h
        obtain rfl := (Prod.ext_iff.1 (Option.some.inj h)).2
        exact weight_lt_of_reads (by rw [hreads]; exact Nat.lt_succ_self _)
      · rw [next_of_read hevent hreads] at h
        have hless : ({ r with
            reads
            buffer := (decodeUtf8Prefix (r.pending ++ part) r.buffer).2
            pending := (decodeUtf8Prefix (r.pending ++ part) r.buffer).1 } : SseReader).weight <
              r.weight :=
          weight_lt_of_reads (by rw [hreads]; exact Nat.lt_succ_self _)
        exact (ih _ hless h rfl).trans hless
    · have hshorter := length_takeEvent_lt hevent
      rw [next_of_event hevent] at h
      split at h
      · obtain rfl := (Prod.ext_iff.1 (Option.some.inj h)).2
        exact weight_lt_of_buffer rfl rfl hshorter
      · obtain rfl := (Prod.ext_iff.1 (Option.some.inj h)).2
        exact weight_lt_of_buffer rfl rfl hshorter
      · next state _ =>
        have hless : ({ r with buffer, state } : SseReader).weight < r.weight :=
          weight_lt_of_buffer rfl rfl hshorter
        exact (ih _ hless h rfl).trans hless

variable (fromStr)

/-- The stream, up to its end. -/
def items (r : SseReader) : TokenStream :=
  match h : r.next fromStr with
  | none => []
  | some (item, r') =>
    have := weight_next_lt h
    item :: items r'
termination_by r.weight
decreasing_by exact this

variable {fromStr}

theorem items_of_none (h : r.next fromStr = none) : r.items fromStr = [] := by
  rw [items]
  split
  · rfl
  · next heq =>
    rw [h] at heq
    simp at heq

theorem items_of_some {item : Except CordonError StreamChunk} {r' : SseReader}
    (h : r.next fromStr = some (item, r')) : r.items fromStr = item :: r'.items fromStr := by
  rw [items]
  split
  · next heq =>
    rw [h] at heq
    simp at heq
  · next heq =>
    rw [h] at heq
    obtain ⟨rfl, rfl⟩ := Prod.ext_iff.1 (Option.some.inj heq)
    rfl

/-- A reader that goes on as another one does has the same stream. -/
theorem items_congr {r' : SseReader} (h : r.next fromStr = r'.next fromStr) :
    r.items fromStr = r'.items fromStr := by
  rcases hnext : r'.next fromStr with - | ⟨item, r''⟩
  · rw [items_of_none hnext, items_of_none (h.trans hnext)]
  · rw [items_of_some hnext, items_of_some (h.trans hnext)]

end SseReader

/-! ### Decoding what arrives -/

/-- **The decoder writes what is complete and holds back the rest.** -/
theorem decodeUtf8PrefixLoop_eq {fuel : ℕ} {pending : Bytes} (text : List Char)
    (hfuel : pending.length < fuel) :
    decodeUtf8PrefixLoop fuel pending text =
      ((Utf8.scan .start pending).2.2, text ++ Utf8.written (Utf8.scan .start pending).1) := by
  induction fuel generalizing pending text with
  | zero => omega
  | succ fuel ih =>
    have hreport := Utf8.report_firstError pending
    rw [decodeUtf8PrefixLoop, Utf8.fromUtf8]
    rcases herror : Utf8.firstError .ground 0 0 pending with - | e
    · rw [herror] at hreport
      obtain ⟨cs, hscan⟩ := hreport
      simp only
      rw [Utf8.decodeLossy_of_scan hscan, hscan]
      rfl
    · rw [herror] at hreport
      simp only
      cases hreport with
      | cut x t cs hbs hx ht hheld =>
        subst hbs
        rw [List.take_left, List.drop_left, Utf8.decodeLossy_of_scan hx, Utf8.scan_append, hx, ht,
          hheld, List.append_nil]
      | bad x m rest cs hbs hx hm hrest =>
        subst hbs
        have hless : rest.length < fuel := by
          have := List.length_pos_iff.2 hm
          simp only [List.length_append] at hfuel
          omega
        simp only
        rw [List.take_left, Utf8.decodeLossy_of_scan hx, ← List.append_assoc,
          List.drop_left' (by rw [List.length_append]), ih _ hless, List.append_assoc x,
          Utf8.scan_append, hx, hrest, Utf8.written_append]
        simp [Utf8.written]

theorem decodeUtf8Prefix_eq (pending : Bytes) (text : List Char) :
    decodeUtf8Prefix pending text =
      ((Utf8.scan .start pending).2.2, text ++ Utf8.written (Utf8.scan .start pending).1) :=
  decodeUtf8PrefixLoop_eq text (Nat.lt_succ_self _)

/-- The texts that reads add to the buffer, from where the decoder stands. -/
def decodePieces : Utf8.Config → List Bytes → List (List Char)
  | _, [] => []
  | c, part :: parts =>
    Utf8.written (Utf8.scan c part).1 :: decodePieces (Utf8.scan c part).2 parts

/-- Together they are the text of all the bytes. -/
theorem flatten_decodePieces (c : Utf8.Config) (parts : List Bytes) :
    (decodePieces c parts).flatten = Utf8.written (Utf8.scan c parts.flatten).1 := by
  induction parts generalizing c with
  | nil => rfl
  | cons part parts ih =>
    rw [decodePieces, List.flatten_cons, ih, List.flatten_cons, Utf8.scan_append,
      Utf8.written_append]

/-! ### What the records report -/

/-- Records are cut off the buffer by `take_event`. -/
def sseFramer : Framer Char (List Char) where
  take := takeEvent
  length_lt := length_takeEvent_lt

/-- What records report, one after the other, and at the end what they all reported. -/
def chunks : SseState → List (List Char) → List StreamChunk
  | state, [] => if state.terminated then [] else [.done state.finishReason state.usage]
  | state, event :: events =>
    match parseSseEvent fromStr event state with
    | (.chunk chunk, state) => chunk :: chunks state events
    | (.finished, state) => .done state.finishReason state.usage :: chunks state events
    | (.continue, state) => chunks state events

variable {fromStr}

/-- A replacement character completes no separator. -/
theorem takeEvent_append_replacement {buffer : List Char} (h : takeEvent buffer = none) :
    takeEvent (buffer ++ ['\uFFFD']) = none := by
  obtain ⟨hlf, hcr⟩ := takeEvent_eq_none_iff.1 h
  exact takeEvent_eq_none_iff.2 ⟨Occurrence.find_append_singleton (by decide) hlf,
    Occurrence.find_append_singleton (by decide) hcr⟩

theorem SseReader.items_of_terminated {r : SseReader} (h : takeEvent r.buffer = none)
    (hreads : r.reads = []) (hterminated : r.state.terminated) : r.items fromStr = [] := by
  refine items_of_none ?_
  rw [next_of_end h hreads, atEnd, if_pos hterminated]
  rfl

/-- At the end of the reads the reader says once what the records reported. -/
theorem SseReader.items_of_end {r : SseReader} {c : Utf8.Config} (hc : c.Stands)
    (hpending : r.pending = c.2) (h : takeEvent r.buffer = none) (hreads : r.reads = []) :
    r.items fromStr = (chunks fromStr r.state []).map .ok := by
  rw [chunks]
  by_cases hterminated : r.state.terminated
  · rw [if_pos hterminated, items_of_terminated h hreads hterminated]
    rfl
  · rw [if_neg hterminated]
    have hfinish : ∀ r' : SseReader, takeEvent r'.buffer = none → r'.reads = [] →
        r'.state = r.state → r.next fromStr = some (.ok r'.finish.1, r'.finish.2) →
        r.items fromStr = [.ok (.done r.state.finishReason r.state.usage)] := by
      intro r' hbuffer hreads' hstate hnext
      rw [items_of_some hnext, items_of_terminated (r := r'.finish.2) hbuffer hreads' rfl, finish,
        hstate]
    by_cases hempty : r.pending.isEmpty
    · refine hfinish r h hreads rfl ?_
      rw [next_of_end h hreads, atEnd, if_neg hterminated, if_pos hempty]
      rfl
    · -- what was held back becomes at most one replacement character
      have hflushed : takeEvent (r.buffer ++ Utf8.decodeLossy r.pending) = none := by
        rw [hpending]
        rcases hc.decodeLossy_held with hnone | hone
        · rw [hnone, List.append_nil]
          exact h
        · rw [hone]
          exact takeEvent_append_replacement h
      refine hfinish { r with buffer := r.buffer ++ Utf8.decodeLossy r.pending, pending := [] }
        hflushed hreads rfl ?_
      rw [next_of_end h hreads, atEnd, if_neg hterminated, if_neg hempty]
      simp only [hflushed]
      rfl

/-- **The stream is what the records that were cut off report.** -/
theorem SseReader.items_eq_chunks {r : SseReader} {c : Utf8.Config} (hc : c.Stands)
    (hpending : r.pending = c.2) {parts : List Bytes} (hreads : r.reads = parts.map .ok) :
    r.items fromStr =
      (chunks fromStr r.state (sseFramer.cuts r.buffer (decodePieces c parts))).map .ok := by
  induction hn : r.weight using WellFoundedLT.induction generalizing r c parts with
  | ind w ih =>
    subst hn
    rcases hevent : takeEvent r.buffer with - | ⟨event, buffer⟩
    · rcases parts with - | ⟨part, parts⟩
      · rw [decodePieces, Framer.cuts_nil_of_none hevent]
        exact items_of_end hc hpending hevent hreads
      · rw [decodePieces, Framer.cuts_of_none hevent]
        have hdecoded : decodeUtf8Prefix (r.pending ++ part) r.buffer =
            ((Utf8.scan c part).2.2, r.buffer ++ Utf8.written (Utf8.scan c part).1) := by
          rw [decodeUtf8Prefix_eq, hpending, hc.scan_append]
        rw [items_congr (next_of_read hevent hreads), hdecoded]
        exact ih _ (weight_lt_of_reads (by rw [hreads]; exact Nat.lt_succ_self _)) (hc.scan part)
          rfl rfl rfl
    · rw [Framer.cuts_of_some (F := sseFramer) hevent, chunks]
      have hless : ∀ state, ({ r with buffer, state } : SseReader).weight < r.weight := fun _ ↦
        weight_lt_of_buffer rfl rfl (length_takeEvent_lt hevent)
      have hnext : r.next fromStr = _ := next_of_event hevent
      rcases hparse : parseSseEvent fromStr event r.state with ⟨outcome, state⟩
      rw [hparse] at hnext
      have hrest := ih _ (hless state) (r := { r with buffer, state }) hc hpending hreads rfl
      rcases outcome with chunk | - | -
      · rw [items_of_some hnext, hrest]
        rfl
      · rw [items_of_some hnext, hrest]
        rfl
      · rw [items_congr hnext, hrest]

end Cordon
