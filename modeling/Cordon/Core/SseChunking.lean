import Cordon.Core.SseReader

/-!
# What the stream owes to the network

`take_event` looks for a pair of line feeds before it looks for a pair of carriage returns and line
feeds, **in whatever is buffered**. So a record that ends in the second way is cut off if nothing
else has arrived; but if a pair of line feeds has arrived behind it, everything up to there is cut
off as one record, and the payloads of the records in it are joined into one.

Which payloads can be joined is a matter of the text. It falls into blocks that a pair of line feeds
ends, and a block into records that the other separator ends; the reader reports the first few of
them one by one, and joins the others (`Joined`).

* `reported_cuts`: however the text arrives, what is reported is a joining;
* `exists_reads_of_joined`: every joining is what some reads report.

So the stream does not depend on the reads exactly if **no joining of the payloads makes a
difference** (`chunking_unseen_iff`). Records without a payload never do, and neither does a block
with one payload; so a stream that keeps to one separator is read the same however it arrives
(`chunkingUnseen_of_one_separator`).
-/

namespace Cordon

open Text

/-! ### Payloads -/

/-- A carriage return at the end of a line is trimmed away. -/
theorem linePayload_append_cr (l : List Char) : linePayload (l ++ ['\r']) = linePayload l := by
  rw [linePayload, linePayload]
  by_cases h : "data:".toList <+: l
  · have hlen : 5 ≤ l.length := h.length_le
    rw [if_pos h, if_pos (h.trans (List.prefix_append l _)), List.drop_append_of_le_length hlen]
    exact trim_append_whitespace _ (by decide)
  · rw [if_neg h, if_neg]
    intro hlong
    rcases List.prefix_concat_iff.1 hlong with heq | hpre
    · have hmem : '\r' ∈ "data:".toList := heq ▸ List.mem_append_right l List.mem_cons_self
      exact absurd hmem (by decide)
    · exact h hpre

theorem linePayload_stripCr (l : List Char) : linePayload (stripCr l) = linePayload l := by
  rw [stripCr]
  split
  · next h =>
    obtain ⟨l', rfl⟩ := List.getLast?_eq_some_iff.1 h
    rw [List.dropLast_concat, linePayload_append_cr]
  · rfl

theorem ssePayload_of_notMem {l : List Char} (hl : '\n' ∉ l) : ssePayload l = linePayload l := by
  rw [ssePayload]
  rcases l with - | ⟨c, l⟩
  · decide
  · rw [lines_of_not_mem hl (by simp), List.flatMap_singleton]

theorem ssePayload_append_of_endsWith {a : List Char} (h : EndsWith '\n' a) (b : List Char) :
    ssePayload (a ++ b) = ssePayload a ++ ssePayload b := by
  rw [ssePayload, lines_append_of_endsWith h, List.flatMap_append]
  rfl

/-- **The payload of two texts with a line feed between them** is that of one and then the other. -/
theorem ssePayload_append_newline (a b : List Char) :
    ssePayload (a ++ '\n' :: b) = ssePayload a ++ ssePayload b := by
  have hend : ssePayload (a ++ ['\n']) = ssePayload a := by
    obtain ⟨c, l, rfl, hc, hl⟩ := exists_last_line a
    have hline : ssePayload (l ++ ['\n']) = linePayload l := by
      rw [ssePayload, lines_append_newline [] hl, lines_nil, List.flatMap_singleton,
        linePayload_stripCr]
    rw [List.append_assoc, ssePayload_append_of_endsWith hc, ssePayload_append_of_endsWith hc,
      ssePayload_of_notMem hl, hline]
  rw [← hend, ← ssePayload_append_of_endsWith (Or.inr ⟨a, rfl⟩), List.append_assoc,
    List.singleton_append]

theorem ssePayload_append_cr (a : List Char) : ssePayload (a ++ ['\r']) = ssePayload a := by
  obtain ⟨c, l, rfl, hc, hl⟩ := exists_last_line a
  have hline : '\n' ∉ l ++ ['\r'] := by
    simpa using hl
  rw [List.append_assoc, ssePayload_append_of_endsWith hc, ssePayload_append_of_endsWith hc,
    ssePayload_of_notMem hl, ssePayload_of_notMem hline, linePayload_append_cr]

/-- The payload of two records with a separator between them. -/
theorem ssePayload_append_crLfCrLf (a b : List Char) :
    ssePayload (a ++ (crLfCrLf ++ b)) = ssePayload a ++ ssePayload b := by
  have hcut : a ++ (crLfCrLf ++ b) = (a ++ ['\r']) ++ '\n' :: (['\r'] ++ '\n' :: b) := by
    simp [crLfCrLf]
  rw [hcut, ssePayload_append_newline, ssePayload_append_newline, ssePayload_append_cr]
  rfl

/-- The payloads of records that have one. -/
def payloads (events : List (List Char)) : List (List Char) :=
  (events.map ssePayload).filter fun payload ↦ payload ≠ []

theorem payloads_append (a b : List (List Char)) :
    payloads (a ++ b) = payloads a ++ payloads b := by
  rw [payloads, List.map_append, List.filter_append]
  rfl

theorem payloads_cons (e : List Char) (es : List (List Char)) :
    payloads (e :: es) = payloads [e] ++ payloads es :=
  payloads_append [e] es

theorem payloads_congr {e e' : List Char} (h : ssePayload e = ssePayload e') :
    payloads [e] = payloads [e'] := by
  rw [payloads, payloads, List.map_singleton, List.map_singleton, h]

theorem payloads_singleton (e : List Char) :
    payloads [e] = if ssePayload e = [] then [] else [ssePayload e] := by
  rw [payloads, List.map_singleton, List.filter_singleton]
  by_cases h : ssePayload e = []
  · simp [h]
  · simp [h]

variable (fromStr : List Char → Option JsonValue)

/-- What payloads report, one after the other, and at the end what they all reported. -/
def payloadChunks : SseState → List (List Char) → List StreamChunk
  | state, [] => if state.terminated then [] else [.done state.finishReason state.usage]
  | state, payload :: rest =>
    match readPayload fromStr payload state with
    | (.chunk chunk, state) => chunk :: payloadChunks state rest
    | (.finished, state) => .done state.finishReason state.usage :: payloadChunks state rest
    | (.continue, state) => payloadChunks state rest

/-- A record without a payload reports nothing. -/
theorem chunks_eq_payloadChunks (state : SseState) (events : List (List Char)) :
    chunks fromStr state events = payloadChunks fromStr state (payloads events) := by
  induction events generalizing state with
  | nil => rfl
  | cons e events ih =>
    rw [payloads_cons, payloads_singleton, chunks, parseSseEvent]
    by_cases h : ssePayload e = []
    · rw [if_pos h, h, readPayload, List.nil_append]
      exact ih state
    · rw [if_neg h, List.singleton_append, payloadChunks]
      rcases readPayload fromStr (ssePayload e) state with ⟨chunk | - | -, state⟩
      · exact congrArg _ (ih state)
      · exact congrArg _ (ih state)
      · exact ih state

/-! ### Blocks, and the records in them -/

/-- Blocks end at a pair of line feeds. -/
def lfFramer : Framer Char (List Char) :=
  .ofSeparator lfLf (by decide)

/-- Records inside a block end at a pair of carriage returns and line feeds. -/
def crFramer : Framer Char (List Char) :=
  .ofSeparator crLfCrLf (by decide)

/-- The payloads in a block, the last of which is that of the record the block ends with. -/
def recordPayloads (block : List Char) : List (List Char) :=
  payloads ((crFramer.drain block).1 ++ [(crFramer.drain block).2])

/-- The payloads in the blocks of a text, block by block. -/
def blocks (text : List Char) : List (List (List Char)) :=
  ((lfFramer.drain text).1.map recordPayloads).filter fun block ↦ block ≠ []

/-- The payloads behind the last block. -/
def tailPayloads (text : List Char) : List (List Char) :=
  payloads (crFramer.drain (lfFramer.drain text).2).1

/-- Payloads joined into one. -/
def joined (late : List (List Char)) : List (List Char) :=
  if late = [] then [] else [late.flatten]

/-- **What a reader can make of blocks**: of each it reports the first few payloads one by one, and
joins the others. -/
inductive Joined : List (List (List Char)) → List (List Char) → Prop
  | nil : Joined [] []
  | cons {rest : List (List (List Char))} {js : List (List Char)} (early late : List (List Char))
      (h : Joined rest js) : Joined ((early ++ late) :: rest) (early ++ joined late ++ js)

variable {fromStr} {text block e rest : List Char}

theorem recordPayloads_of_none (h : crFramer.take block = none) :
    recordPayloads block = payloads [block] := by
  rw [recordPayloads, Framer.drain_of_none h, List.nil_append]

theorem recordPayloads_of_some (h : crFramer.take block = some (e, rest)) :
    recordPayloads block = payloads [e] ++ recordPayloads rest := by
  rw [recordPayloads, Framer.drain_of_some h, List.cons_append, payloads_cons, recordPayloads]

theorem flatten_payloads (es : List (List Char)) :
    (payloads es).flatten = es.flatMap ssePayload := by
  induction es with
  | nil => rfl
  | cons e es ih =>
    rw [payloads_cons, List.flatten_append, ih, List.flatMap_cons, payloads_singleton]
    by_cases h : ssePayload e = []
    · rw [if_pos h, h]
      rfl
    · rw [if_neg h, List.flatten_singleton]

/-- The payload of a block that is taken for one record is that of its records, joined. -/
theorem flatten_recordPayloads (block : List Char) :
    (recordPayloads block).flatten = ssePayload block := by
  induction hn : block.length using Nat.strongRecOn generalizing block with
  | _ n ih =>
    rcases h : crFramer.take block with - | ⟨e, rest⟩
    · rw [recordPayloads_of_none h, flatten_payloads, List.flatMap_singleton]
    · rw [recordPayloads_of_some h, List.flatten_append, flatten_payloads, List.flatMap_singleton,
        ih rest.length (hn ▸ crFramer.length_lt h) rest rfl,
        (Framer.take_ofSeparator_eq_some.1 h).1, ssePayload_append_crLfCrLf]

theorem ne_nil_of_mem_payloads {es : List (List Char)} {payload : List Char}
    (h : payload ∈ payloads es) : payload ≠ [] := by
  simpa using (List.mem_filter.1 h).2

theorem payloads_block (block : List Char) : payloads [block] = joined (recordPayloads block) := by
  rw [payloads_singleton, ← flatten_recordPayloads, joined]
  rcases h : recordPayloads block with - | ⟨payload, rest⟩
  · rfl
  · have hpayload : payload ≠ [] :=
      ne_nil_of_mem_payloads (h ▸ List.mem_cons_self : payload ∈ recordPayloads block)
    rw [if_neg (by simp [hpayload]), if_neg (by simp)]

theorem blocks_of_none (h : lfFramer.take text = none) : blocks text = [] := by
  rw [blocks, Framer.drain_of_none h]
  rfl

theorem tailPayloads_of_none (h : lfFramer.take text = none) :
    tailPayloads text = payloads (crFramer.drain text).1 := by
  rw [tailPayloads, Framer.drain_of_none h]

theorem blocks_of_some (h : lfFramer.take text = some (block, rest)) :
    blocks text = if recordPayloads block = [] then blocks rest
      else recordPayloads block :: blocks rest := by
  rw [blocks, Framer.drain_of_some h, List.map_cons, List.filter_cons]
  by_cases hempty : recordPayloads block = []
  · simp [hempty, blocks]
  · simp [hempty, blocks]

theorem tailPayloads_of_some (h : lfFramer.take text = some (block, rest)) :
    tailPayloads text = tailPayloads rest := by
  rw [tailPayloads, Framer.drain_of_some h, tailPayloads]

/-- Joinings of a text are joinings of its first block and of the rest. -/
theorem joined_blocks_iff (h : lfFramer.take text = some (block, rest)) {js : List (List Char)} :
    Joined (blocks text) js ↔ ∃ early late js', early ++ late = recordPayloads block ∧
      js = early ++ joined late ++ js' ∧ Joined (blocks rest) js' := by
  rw [blocks_of_some h]
  by_cases hempty : recordPayloads block = []
  · rw [if_pos hempty, hempty]
    constructor
    · intro hjs
      exact ⟨[], [], js, rfl, rfl, hjs⟩
    · intro hjs
      obtain ⟨early, late, js', hsplit, rfl, hjs'⟩ := hjs
      obtain ⟨rfl, rfl⟩ := List.append_eq_nil_iff.1 hsplit
      exact hjs'
  · rw [if_neg hempty]
    constructor
    · intro hjs
      generalize hblock : recordPayloads block = payloads at hjs
      cases hjs with
      | cons early late hjs' => exact ⟨early, late, _, rfl, rfl, hjs'⟩
    · intro hjs
      obtain ⟨early, late, js', hsplit, rfl, hjs'⟩ := hjs
      rw [← hsplit]
      exact .cons early late hjs'

/-! ### A line feed in front changes nothing -/

theorem take_crFramer_cons (text : List Char) :
    crFramer.take ('\n' :: text) = (crFramer.take text).map fun (e, rest) ↦ ('\n' :: e, rest) := by
  have hfind : Occurrence.find crLfCrLf ('\n' :: text) =
      (Occurrence.find crLfCrLf text).map (· + 1) :=
    Occurrence.find_cons_of_not_isPrefix fun h ↦ absurd (List.cons_prefix_cons.1 h).1 (by decide)
  show (Occurrence.find crLfCrLf ('\n' :: text)).map _ =
    ((Occurrence.find crLfCrLf text).map _).map _
  rw [hfind, Option.map_map, Option.map_map]
  refine congrArg (Option.map · _) (funext fun i ↦ ?_)
  show (('\n' :: text).take (i + 1), ('\n' :: text).drop (i + 1 + 4)) =
    ('\n' :: text.take i, text.drop (i + 4))
  rw [List.take_succ_cons, show i + 1 + 4 = (i + 4) + 1 by omega, List.drop_succ_cons]

theorem payloads_newline (e : List Char) : payloads ['\n' :: e] = payloads [e] :=
  payloads_congr (ssePayload_append_newline [] e)

theorem recordPayloads_newline (block : List Char) :
    recordPayloads ('\n' :: block) = recordPayloads block := by
  have htake := take_crFramer_cons block
  rcases h : crFramer.take block with - | ⟨e, rest⟩
  · rw [h] at htake
    rw [recordPayloads_of_none h, recordPayloads_of_none htake, payloads_newline]
  · rw [h] at htake
    rw [recordPayloads_of_some h, recordPayloads_of_some htake, payloads_newline]

theorem payloads_drain_newline (text : List Char) :
    payloads (crFramer.drain ('\n' :: text)).1 = payloads (crFramer.drain text).1 := by
  have htake := take_crFramer_cons text
  rcases h : crFramer.take text with - | ⟨e, rest⟩
  · rw [h] at htake
    rw [Framer.drain_of_none h, Framer.drain_of_none htake]
  · rw [h] at htake
    rw [Framer.drain_of_some h, Framer.drain_of_some htake, payloads_cons, payloads_cons e,
      payloads_newline]

/-- Behind a text without a pair of line feeds, and not next to a line feed, everything is found
where it was. -/
theorem find_lfLf_append {a y : List Char} (ha : Occurrence.find lfLf a = none)
    (hy : ¬['\n'] <+: y) :
    Occurrence.find lfLf (a ++ y) = (Occurrence.find lfLf y).map (a.length + ·) := by
  induction a with
  | nil => simp
  | cons x a ih =>
    have hx : ¬lfLf <+: x :: a := Occurrence.find_eq_none.1 ha 0
    have hrest : Occurrence.find lfLf a = none :=
      Occurrence.find_eq_none.2 fun q ↦ Occurrence.find_eq_none.1 ha (q + 1)
    have hxy : ¬lfLf <+: x :: (a ++ y) := by
      intro h
      obtain ⟨hlf, hnext⟩ := List.cons_prefix_cons.1 h
      rcases a with - | ⟨z, a⟩
      · exact hy hnext
      · exact hx (List.cons_prefix_cons.2 ⟨hlf, List.cons_prefix_cons.2
          ⟨(List.cons_prefix_cons.1 hnext).1, List.nil_prefix⟩⟩)
    rw [List.cons_append, Occurrence.find_cons_of_not_isPrefix hxy, ih hrest, Option.map_map]
    refine congrArg (Option.map · _) (funext fun i ↦ ?_)
    show a.length + i + 1 = (x :: a).length + i
    rw [List.length_cons]
    omega

/-- So a block behind such a text has the text in front of it. -/
theorem take_lfFramer_append {a y : List Char} (ha : Occurrence.find lfLf a = none)
    (hy : ¬['\n'] <+: y) :
    lfFramer.take (a ++ y) = (lfFramer.take y).map fun (block, rest) ↦ (a ++ block, rest) := by
  show (Occurrence.find lfLf (a ++ y)).map _ = ((Occurrence.find lfLf y).map _).map _
  rw [find_lfLf_append ha hy, Option.map_map, Option.map_map]
  refine congrArg (Option.map · _) (funext fun i ↦ ?_)
  show ((a ++ y).take (a.length + i), (a ++ y).drop (a.length + i + 2)) =
    (a ++ y.take i, y.drop (i + 2))
  rw [List.take_length_add_append, Nat.add_assoc, List.drop_length_add_append]

theorem blocks_newline (text : List Char) :
    blocks ('\n' :: text) = blocks text ∧ tailPayloads ('\n' :: text) = tailPayloads text := by
  induction text with
  | nil =>
    have hnone : lfFramer.take ['\n'] = none := by decide
    have hnil : lfFramer.take [] = none := by decide
    refine ⟨by rw [blocks_of_none hnone, blocks_of_none hnil], ?_⟩
    rw [tailPayloads_of_none hnone, tailPayloads_of_none hnil, payloads_drain_newline]
  | cons c text ih =>
    by_cases hc : c = '\n'
    · subst hc
      have htake : lfFramer.take ('\n' :: '\n' :: text) = some ([], text) :=
        Framer.take_ofSeparator_eq_some.2 ⟨rfl, by decide⟩
      have hempty : recordPayloads [] = [] := by
        rw [recordPayloads_of_none (by decide)]
        decide
      rw [blocks_of_some htake, if_pos hempty, tailPayloads_of_some htake]
      exact ⟨ih.1.symm, ih.2.symm⟩
    · have hnot : ¬['\n'] <+: c :: text := fun h ↦ hc (List.cons_prefix_cons.1 h).1.symm
      have htake : lfFramer.take ('\n' :: c :: text) = _ :=
        take_lfFramer_append (show Occurrence.find lfLf ['\n'] = none by decide) hnot
      rcases h : lfFramer.take (c :: text) with - | ⟨block, rest⟩
      · rw [h] at htake
        refine ⟨by rw [blocks_of_none h, blocks_of_none htake], ?_⟩
        rw [tailPayloads_of_none h, tailPayloads_of_none htake, payloads_drain_newline]
      · rw [h] at htake
        have hblock := recordPayloads_newline block
        rw [blocks_of_some h, blocks_of_some htake, tailPayloads_of_some h,
          tailPayloads_of_some htake, List.singleton_append, hblock]
        exact ⟨rfl, rfl⟩

/-! ### However the text arrives -/

/-- What a reader reports of a text: a joining of its blocks, and what is behind them. -/
def Reported (text : List Char) (ps : List (List Char)) : Prop :=
  ∃ js, Joined (blocks text) js ∧ ps = js ++ tailPayloads text

theorem reported_newline {ps : List (List Char)} :
    Reported ('\n' :: text) ps ↔ Reported text ps := by
  rw [Reported, Reported, (blocks_newline text).1, (blocks_newline text).2]

/-- A record that is cut off at a pair of line feeds is a block, and its payloads are joined. -/
theorem Reported.of_lfLf {ps : List (List Char)} (htake : lfFramer.take text = some (block, rest))
    (h : Reported rest ps) : Reported text (payloads [block] ++ ps) := by
  obtain ⟨js, hjs, rfl⟩ := h
  refine ⟨payloads [block] ++ js,
    (joined_blocks_iff htake).2 ⟨[], recordPayloads block, js, rfl, ?_, hjs⟩, ?_⟩
  · rw [payloads_block, List.nil_append]
  · rw [tailPayloads_of_some htake, List.append_assoc]

/-- A record that is cut off at the other separator, while no pair of line feeds has arrived, is the
first one of its block, or it is behind the last block. -/
theorem Reported.of_crLfCrLf {ps : List (List Char)} (t : List Char)
    (hlf : Occurrence.find lfLf text = none) (htake : crFramer.take text = some (e, rest))
    (h : Reported (rest ++ t) ps) : Reported (text ++ t) (payloads [e] ++ ps) := by
  obtain ⟨rfl, hfirst⟩ := Framer.take_ofSeparator_eq_some.1 htake
  have hfront : Occurrence.find lfLf (e ++ crLfCrLf) = none :=
    Occurrence.find_eq_none_of_isInfix ⟨[], rest, by simp⟩ hlf
  by_cases hnext : ['\n'] <+: rest ++ t
  · -- the last line feed of the separator and the next one are a pair
    have hrest : rest = [] := by
      rcases rest with - | ⟨c, rest⟩
      · rfl
      · obtain rfl := (List.cons_prefix_cons.1 hnext).1
        refine absurd ?_ (Occurrence.find_eq_none_iff_not_isInfix.1 hlf)
        exact ⟨e ++ ['\r', '\n', '\r'], rest, by simp [lfLf, crLfCrLf]⟩
    subst hrest
    obtain ⟨t', rfl⟩ := hnext
    have hpair : lfFramer.take (e ++ (crLfCrLf ++ []) ++ (['\n'] ++ t')) =
        some (e ++ ['\r', '\n', '\r'], t') := by
      refine Framer.take_ofSeparator_eq_some.2 ⟨by simp [crLfCrLf, lfLf], ?_⟩
      rw [List.append_assoc]
      exact hfront
    have hpayload : ssePayload (e ++ ['\r', '\n', '\r']) = ssePayload e := by
      have hcut : e ++ ['\r', '\n', '\r'] = (e ++ ['\r']) ++ '\n' :: ['\r'] := by simp
      rw [hcut, ssePayload_append_newline, ssePayload_append_cr]
      exact List.append_nil _
    rw [← payloads_congr hpayload]
    exact .of_lfLf hpair (reported_newline.1 h)
  · have hlonger := take_lfFramer_append hfront hnext
    rw [List.append_assoc e, ← List.append_assoc crLfCrLf, ← List.append_assoc e] at hlonger
    obtain ⟨js, hjs, rfl⟩ := h
    rcases hblock : lfFramer.take (rest ++ t) with - | ⟨block, rest'⟩
    · rw [hblock] at hlonger
      rw [blocks_of_none hblock] at hjs
      cases hjs
      have hstays : crFramer.take (e ++ (crLfCrLf ++ rest) ++ t) = some (e, rest ++ t) :=
        Framer.take_ofSeparator_append htake t
      refine ⟨[], ?_, ?_⟩
      · rw [blocks_of_none hlonger]
        exact .nil
      · rw [tailPayloads_of_none hblock, tailPayloads_of_none hlonger, Framer.drain_of_some hstays]
        exact (payloads_cons e _).symm
    · rw [hblock] at hlonger
      obtain ⟨early, late, js', hsplit, rfl, hjs'⟩ := (joined_blocks_iff hblock).1 hjs
      have hrecord : crFramer.take (e ++ crLfCrLf ++ block) = some (e, block) :=
        Framer.take_ofSeparator_eq_some.2 ⟨by rw [List.append_assoc], hfirst⟩
      refine ⟨payloads [e] ++ early ++ joined late ++ js', (joined_blocks_iff hlonger).2
        ⟨payloads [e] ++ early, late, js', ?_, rfl, hjs'⟩, ?_⟩
      · rw [recordPayloads_of_some hrecord, ← hsplit, List.append_assoc]
      · rw [tailPayloads_of_some hlonger, tailPayloads_of_some hblock]
        simp only [List.append_assoc]

theorem take_lfFramer_of_find {i : ℕ} (h : Occurrence.find lfLf text = some i) :
    lfFramer.take text = some (text.take i, text.drop (i + 2)) := by
  show (Occurrence.find lfLf text).map _ = _
  rw [h]
  rfl

theorem take_crFramer_of_find {i : ℕ} (h : Occurrence.find crLfCrLf text = some i) :
    crFramer.take text = some (text.take i, text.drop (i + 4)) := by
  show (Occurrence.find crLfCrLf text).map _ = _
  rw [h]
  rfl

theorem Reported.of_takeEvent {ps : List (List Char)} (t : List Char)
    (htake : takeEvent text = some (e, rest)) (h : Reported (rest ++ t) ps) :
    Reported (text ++ t) (payloads [e] ++ ps) := by
  obtain ⟨i, hfind, rfl, rfl⟩ | ⟨hlf, i, hfind, rfl, rfl⟩ := takeEvent_cases htake
  · exact .of_lfLf (Framer.take_ofSeparator_append (take_lfFramer_of_find hfind) t) h
  · exact .of_crLfCrLf t hlf (take_crFramer_of_find hfind) h

theorem Reported.of_drain {ps : List (List Char)} (s t : List Char)
    (h : Reported ((sseFramer.drain s).2 ++ t) ps) :
    Reported (s ++ t) (payloads (sseFramer.drain s).1 ++ ps) := by
  induction hn : s.length using Nat.strongRecOn generalizing s with
  | _ n ih =>
    rcases htake : sseFramer.take s with - | ⟨e, rest⟩
    · rw [Framer.drain_of_none htake] at h ⊢
      exact h
    · rw [Framer.drain_of_some htake] at h ⊢
      rw [payloads_cons, List.append_assoc]
      exact .of_takeEvent t htake (ih rest.length (hn ▸ sseFramer.length_lt htake) rest h rfl)

/-- **However the text arrives, what is reported is a joining.** -/
theorem reported_cuts (s : List Char) (us : List (List Char)) :
    Reported (s ++ us.flatten) (payloads (sseFramer.cuts s us)) := by
  induction us generalizing s with
  | nil =>
    obtain ⟨hlf, hcr⟩ := takeEvent_eq_none_iff.1 (sseFramer.take_drain s)
    have hend : Reported ((sseFramer.drain s).2 ++ []) [] := by
      have hblock : lfFramer.take (sseFramer.drain s).2 = none :=
        Framer.take_ofSeparator_eq_none.2 hlf
      have hrecord : crFramer.take (sseFramer.drain s).2 = none :=
        Framer.take_ofSeparator_eq_none.2 hcr
      rw [List.append_nil]
      refine ⟨[], ?_, ?_⟩
      · rw [blocks_of_none hblock]
        exact .nil
      · rw [tailPayloads_of_none hblock, Framer.drain_of_none hrecord]
        rfl
    have hall := Reported.of_drain s [] hend
    rwa [List.append_nil (payloads _)] at hall
  | cons u us ih =>
    have hrest := ih ((sseFramer.drain s).2 ++ u)
    rw [List.append_assoc] at hrest
    rw [Framer.cuts, payloads_append, List.flatten_cons]
    exact .of_drain s _ hrest

/-! ### Every joining is reported -/

/-- Without a pair of line feeds, records are cut off at the other separator. -/
theorem drain_of_no_lfLf (text : List Char) (h : Occurrence.find lfLf text = none) :
    sseFramer.drain text = crFramer.drain text := by
  induction hn : text.length using Nat.strongRecOn generalizing text with
  | _ n ih =>
    rcases hcr : Occurrence.find crLfCrLf text with - | i
    · have hevent : sseFramer.take text = none := takeEvent_eq_none_iff.2 ⟨h, hcr⟩
      have hrecord : crFramer.take text = none := Framer.take_ofSeparator_eq_none.2 hcr
      rw [Framer.drain_of_none hevent, Framer.drain_of_none hrecord]
    · have hevent : sseFramer.take text = _ := takeEvent_of_crLfCrLf h hcr
      have hrecord := take_crFramer_of_find hcr
      rw [Framer.drain_of_some hevent, Framer.drain_of_some hrecord,
        ih _ (hn ▸ crFramer.length_lt hrecord) _
          (Occurrence.find_eq_none_of_isInfix (List.drop_suffix _ _).isInfix h) rfl]

/-- A piece that is one record. -/
theorem cuts_piece {u : List Char} (h : takeEvent u = some (e, [])) (ws : List (List Char)) :
    sseFramer.cuts [] (u :: ws) = e :: sseFramer.cuts [] ws := by
  rw [Framer.cuts_of_none (F := sseFramer) (s := []) (show takeEvent [] = none by decide),
    List.nil_append]
  exact Framer.cuts_of_some (F := sseFramer) h ws

/-- A text that ends in a line feed. -/
def EndsInLf (u : List Char) : Prop :=
  ∃ u', u = u' ++ ['\n']

/-- A text can arrive in such a way that these payloads are reported, and then what comes later. -/
def ArrivesAs (text : List Char) (ps : List (List Char)) : Prop :=
  ∃ us : List (List Char), us.flatten = text ∧ (∀ u ∈ us, EndsInLf u) ∧
    ∀ ws, payloads (sseFramer.cuts [] (us ++ ws)) = ps ++ payloads (sseFramer.cuts [] ws)

theorem arrivesAs_nil : ArrivesAs [] [] :=
  ⟨[], rfl, by simp, fun _ ↦ rfl⟩

theorem ArrivesAs.append {a b : List Char} {ps qs : List (List Char)} (ha : ArrivesAs a ps)
    (hb : ArrivesAs b qs) : ArrivesAs (a ++ b) (ps ++ qs) := by
  obtain ⟨us, rfl, hus, hps⟩ := ha
  obtain ⟨vs, rfl, hvs, hqs⟩ := hb
  refine ⟨us ++ vs, List.flatten_append, ?_, fun ws ↦ ?_⟩
  · intro u hu
    rcases List.mem_append.1 hu with h | h
    · exact hus u h
    · exact hvs u h
  · rw [List.append_assoc, hps, hqs, List.append_assoc]

theorem arrivesAs_piece {u : List Char} (hu : EndsInLf u) (h : takeEvent u = some (e, [])) :
    ArrivesAs u (payloads [e]) := by
  refine ⟨[u], List.flatten_singleton, ?_, fun ws ↦ ?_⟩
  · intro v hv
    rwa [List.mem_singleton.1 hv]
  · rw [List.singleton_append, cuts_piece h, payloads_cons]

/-- The whole block in one piece. -/
theorem arrivesAs_block (h : Occurrence.find lfLf (block ++ ['\n']) = none) :
    ArrivesAs (block ++ lfLf) (payloads [block]) := by
  have htake := takeEvent_append_lfLf h []
  rw [List.append_nil] at htake
  exact arrivesAs_piece ⟨block ++ ['\n'], by simp [lfLf]⟩ htake

/-- The first record of a block in a piece of its own. -/
theorem arrivesAs_record (hlf : Occurrence.find lfLf (e ++ crLfCrLf) = none)
    (h : Occurrence.find crLfCrLf (e ++ crLfCrLf.dropLast) = none) :
    ArrivesAs (e ++ crLfCrLf) (payloads [e]) := by
  have hfind : Occurrence.find crLfCrLf (e ++ (crLfCrLf ++ [])) = some e.length :=
    Occurrence.find_append_self (by decide) h []
  rw [List.append_nil] at hfind
  have htake := takeEvent_of_crLfCrLf hlf hfind
  rw [List.take_left, List.drop_eq_nil_of_le (by rw [List.length_append]; rfl)] at htake
  exact arrivesAs_piece ⟨e ++ ['\r', '\n', '\r'], by simp [crLfCrLf]⟩ htake

/-- **Every joining of a block is reported for some way in which the block can arrive**: the records
that are reported early arrive one by one, and the others together. -/
theorem arrivesAs_joined (block : List Char)
    (hblock : Occurrence.find lfLf (block ++ ['\n']) = none) (early late : List (List Char))
    (hsplit : early ++ late = recordPayloads block) :
    ArrivesAs (block ++ lfLf) (early ++ joined late) := by
  induction hn : block.length using Nat.strongRecOn generalizing block early with
  | _ n ih =>
    rcases early with - | ⟨p, early⟩
    · -- all of them together
      rw [List.nil_append] at hsplit ⊢
      rw [hsplit, ← payloads_block]
      exact arrivesAs_block hblock
    · rcases htake : crFramer.take block with - | ⟨e, rest⟩
      · -- there is one record, and it is reported early
        have hpayloads := arrivesAs_block hblock
        rw [recordPayloads_of_none htake, payloads_singleton] at hsplit
        rw [payloads_singleton] at hpayloads
        split at hsplit
        · simp at hsplit
        · obtain ⟨rfl, hnil⟩ := List.cons.inj hsplit
          obtain ⟨rfl, rfl⟩ := List.append_eq_nil_iff.1 hnil
          next hne =>
          rw [if_neg hne] at hpayloads
          exact hpayloads
      · obtain ⟨hcut, hfirst⟩ := Framer.take_ofSeparator_eq_some.1 htake
        have hlf : Occurrence.find lfLf (e ++ crLfCrLf) = none :=
          Occurrence.find_eq_none_of_isInfix ⟨[], rest ++ ['\n'], by rw [hcut]; simp⟩ hblock
        have hrest : Occurrence.find lfLf (rest ++ ['\n']) = none :=
          Occurrence.find_eq_none_of_isInfix ⟨e ++ crLfCrLf, [], by rw [hcut]; simp⟩ hblock
        have hshorter := hn ▸ crFramer.length_lt htake
        have hrecord := arrivesAs_record hlf hfirst
        rw [recordPayloads_of_some htake, payloads_singleton] at hsplit
        rw [payloads_singleton] at hrecord
        rw [hcut, List.append_assoc, List.append_assoc, ← List.append_assoc e]
        split at hsplit
        · next hempty =>
          rw [if_pos hempty] at hrecord
          exact hrecord.append (ih _ hshorter rest hrest (p :: early) hsplit rfl)
        · next hne =>
          rw [if_neg hne] at hrecord
          obtain ⟨rfl, htail⟩ := List.cons.inj hsplit
          exact hrecord.append (ih _ hshorter rest hrest early htail rfl)

/-- Every joining of a text is reported for some way in which the text can arrive. -/
theorem exists_arrival (text : List Char) (js : List (List Char)) (h : Joined (blocks text) js) :
    ∃ a v, text = a ++ v ∧ ArrivesAs a js ∧
      payloads (sseFramer.cuts [] [v]) = tailPayloads text := by
  induction hn : text.length using Nat.strongRecOn generalizing text js with
  | _ n ih =>
    rcases htake : lfFramer.take text with - | ⟨block, rest⟩
    · rw [blocks_of_none htake] at h
      cases h
      refine ⟨[], text, rfl, arrivesAs_nil, ?_⟩
      rw [Framer.cuts_of_none (F := sseFramer) (s := []) (show takeEvent [] = none by decide),
        List.nil_append, Framer.cuts,
        drain_of_no_lfLf text (Framer.take_ofSeparator_eq_none.1 htake),
        tailPayloads_of_none htake]
    · obtain ⟨early, late, js', hsplit, rfl, hjs'⟩ := (joined_blocks_iff htake).1 h
      obtain ⟨hcut, hfirst⟩ := Framer.take_ofSeparator_eq_some.1 htake
      obtain ⟨a, v, hrest, ha, hv⟩ := ih _ (hn ▸ lfFramer.length_lt htake) rest js' hjs' rfl
      refine ⟨block ++ lfLf ++ a, v, ?_,
        (arrivesAs_joined block hfirst early late hsplit).append ha, ?_⟩
      · rw [hcut, hrest]
        simp
      · rw [hv, tailPayloads_of_some htake]

/-- Texts that end in line feeds come from bytes that are cut there. -/
theorem exists_reads {us : List (List Char)} (hus : ∀ u ∈ us, EndsInLf u) (v : List Char)
    (bytes : Bytes) (h : Utf8.written (Utf8.scan .start bytes).1 = us.flatten ++ v) :
    ∃ bs bv, bytes = bs.flatten ++ bv ∧ (∀ b ∈ bs, b ≠ []) ∧
      decodePieces .start bs = us ∧ decodePieces .start (bs ++ [bv]) = us ++ [v] := by
  induction us generalizing bytes with
  | nil =>
    refine ⟨[], bytes, rfl, by simp, rfl, ?_⟩
    rw [List.nil_append, decodePieces, h]
    rfl
  | cons u us ih =>
    obtain ⟨u', rfl⟩ := hus u List.mem_cons_self
    have hcut : Utf8.written (Utf8.scan .start bytes).1 = u' ++ '\n' :: (us.flatten ++ v) := by
      rw [h]
      simp
    obtain ⟨a, b, rfl, ha, hu, hstart, hb⟩ := Utf8.exists_cut (by decide) hcut
    obtain ⟨bs, bv, rfl, hbs, hpieces, hall⟩ :=
      ih (fun u hu ↦ hus u (List.mem_cons_of_mem _ hu)) b hb
    refine ⟨a :: bs, bv, by simp, ?_, ?_, ?_⟩
    · intro x hx
      rcases List.mem_cons.1 hx with rfl | hx
      · exact ha
      · exact hbs x hx
    · rw [decodePieces, hu, hstart, hpieces]
    · rw [List.cons_append, decodePieces, hu, hstart, hall]
      rfl

/-! ### The stream and the reads -/

/-- The text of all the bytes, as `decode_utf8_prefix` writes it. -/
def decodedText (bytes : Bytes) : List Char :=
  (decodeUtf8Prefix bytes []).2

theorem decodedText_eq (bytes : Bytes) :
    decodedText bytes = Utf8.written (Utf8.scan .start bytes).1 := by
  rw [decodedText, decodeUtf8Prefix_eq, List.nil_append]

theorem items_reads (reads : List Bytes) :
    (SseReader.start (reads.map .ok)).items fromStr =
      (payloadChunks fromStr .default
        (payloads (sseFramer.cuts [] (decodePieces .start reads)))).map .ok := by
  rw [SseReader.items_eq_chunks Utf8.stands_start rfl rfl, chunks_eq_payloadChunks]
  rfl

/-- Joining nothing is one of the joinings. -/
theorem joined_flatten (bs : List (List (List Char))) : Joined bs bs.flatten := by
  induction bs with
  | nil => exact .nil
  | cons b bs ih =>
    have hcons := Joined.cons b [] ih
    rw [List.append_nil] at hcons
    rwa [List.flatten_cons, show b ++ bs.flatten = b ++ joined [] ++ bs.flatten by simp [joined]]

/-- **Every joining is what some reads report.** -/
theorem exists_reads_of_joined {bytes : Bytes} {js : List (List Char)}
    (h : Joined (blocks (decodedText bytes)) js) :
    ∃ reads : List Bytes, reads.flatten = bytes ∧ (∀ r ∈ reads, r ≠ []) ∧
      payloads (sseFramer.cuts [] (decodePieces .start reads)) =
        js ++ tailPayloads (decodedText bytes) := by
  obtain ⟨a, v, htext, ⟨us, rfl, hus, hcuts⟩, hv⟩ := exists_arrival _ js h
  rw [decodedText_eq] at htext
  obtain ⟨bs, bv, rfl, hbs, hpieces, hall⟩ := exists_reads hus v bytes htext
  have hreported := hcuts [v]
  rw [hv] at hreported
  rcases bv with - | ⟨b, bv⟩
  · -- nothing is left for a last read
    have hnil : v = [] := by
      have hflat := flatten_decodePieces .start (bs ++ [[]])
      rw [hall, List.flatten_append, List.flatten_append, List.flatten_singleton,
        List.flatten_singleton, List.append_nil, ← flatten_decodePieces, hpieces] at hflat
      exact List.append_right_eq_self.1 hflat
    refine ⟨bs, by simp, hbs, ?_⟩
    rw [hnil, Framer.cuts_append_nil] at hreported
    rw [hpieces, hreported]
  · refine ⟨bs ++ [b :: bv], by simp, ?_, ?_⟩
    · intro r hr
      rcases List.mem_append.1 hr with hr | hr
      · exact hbs r hr
      · rw [List.mem_singleton.1 hr]
        simp
    · rw [hall, hreported]

variable (fromStr)

/-- The stream does not depend on how the bytes are cut into reads. -/
def ChunkingUnseen (bytes : Bytes) : Prop :=
  ∀ reads reads' : List Bytes, reads.flatten = bytes → reads'.flatten = bytes →
    (∀ r ∈ reads, r ≠ []) → (∀ r ∈ reads', r ≠ []) →
    (SseReader.start (reads.map .ok)).items fromStr =
      (SseReader.start (reads'.map .ok)).items fromStr

/-- Joining payloads makes no difference to what is reported. -/
def JoiningUnseen (text : List Char) : Prop :=
  ∀ js, Joined (blocks text) js →
    payloadChunks fromStr .default (js ++ tailPayloads text) =
      payloadChunks fromStr .default ((blocks text).flatten ++ tailPayloads text)

variable {fromStr}

/-- Whatever the reads, they report a joining, so if none makes a difference they agree. -/
theorem JoiningUnseen.chunkingUnseen {bytes : Bytes}
    (h : JoiningUnseen fromStr (decodedText bytes)) : ChunkingUnseen fromStr bytes := by
  intro reads reads' hreads hreads' _ _
  have hcanonical : ∀ reads : List Bytes, reads.flatten = bytes →
      (SseReader.start (reads.map .ok)).items fromStr =
        (payloadChunks fromStr .default ((blocks (decodedText bytes)).flatten ++
          tailPayloads (decodedText bytes))).map .ok := by
    intro reads hreads
    obtain ⟨js, hjs, hreported⟩ := reported_cuts [] (decodePieces .start reads)
    rw [List.nil_append, flatten_decodePieces, hreads, ← decodedText_eq] at hjs hreported
    rw [items_reads, hreported, h js hjs]
  rw [hcanonical reads hreads, hcanonical reads' hreads']

variable (fromStr)

/-- **The stream does not depend on the reads exactly if joining the last payloads of a block makes
no difference**, in any of the blocks that a pair of line feeds ends. -/
theorem chunking_unseen_iff (bytes : Bytes) :
    ChunkingUnseen fromStr bytes ↔ JoiningUnseen fromStr (decodedText bytes) := by
  refine ⟨fun h js hjs ↦ ?_, JoiningUnseen.chunkingUnseen⟩
  obtain ⟨reads, hreads, hne, hreported⟩ := exists_reads_of_joined hjs
  obtain ⟨reads', hreads', hne', hreported'⟩ := exists_reads_of_joined
    (joined_flatten (blocks (decodedText bytes)))
  have hitems := h reads reads' hreads hreads' hne hne'
  rw [items_reads, items_reads, hreported, hreported'] at hitems
  exact List.map_injective_iff.2 (fun _ _ ↦ Except.ok.inj) hitems

/-! ### Streams with one separator -/

/-- Where no block has two payloads, there is nothing to join. -/
theorem Joined.eq_flatten {bs : List (List (List Char))} {js : List (List Char)} (h : Joined bs js)
    (hone : ∀ b ∈ bs, b.length ≤ 1) : js = bs.flatten := by
  induction h with
  | nil => rfl
  | cons early late _ ih =>
    have hjoined : early ++ joined late = early ++ late := by
      have hlength := hone _ List.mem_cons_self
      rw [List.length_append] at hlength
      rcases late with - | ⟨payload, late⟩
      · rfl
      · rw [List.length_cons] at hlength
        obtain rfl : late = [] := List.length_eq_zero_iff.1 (by omega)
        simp [joined]
    rw [List.flatten_cons, hjoined, ih fun b hb ↦ hone b (List.mem_cons_of_mem _ hb)]

/-- A text without the separator that ends records inside a block has one record in each. -/
theorem length_le_one_of_mem_blocks (text : List Char) (h : Occurrence.find crLfCrLf text = none) :
    ∀ b ∈ blocks text, b.length ≤ 1 := by
  induction hn : text.length using Nat.strongRecOn generalizing text with
  | _ n ih =>
    rcases htake : lfFramer.take text with - | ⟨block, rest⟩
    · rw [blocks_of_none htake]
      intro b hb
      cases hb
    · obtain ⟨hcut, -⟩ := Framer.take_ofSeparator_eq_some.1 htake
      have hblock : Occurrence.find crLfCrLf block = none :=
        Occurrence.find_eq_none_of_isInfix ⟨[], lfLf ++ rest, by rw [hcut]; simp⟩ h
      have hrest : Occurrence.find crLfCrLf rest = none :=
        Occurrence.find_eq_none_of_isInfix ⟨block ++ lfLf, [], by rw [hcut]; simp⟩ h
      have hone : (recordPayloads block).length ≤ 1 := by
        rw [recordPayloads_of_none (Framer.take_ofSeparator_eq_none.2 hblock), payloads_singleton]
        split
        · exact Nat.zero_le 1
        · exact le_rfl
      have hothers := ih rest.length (hn ▸ lfFramer.length_lt htake) rest hrest rfl
      intro b hb
      rw [blocks_of_some htake] at hb
      split at hb
      · exact hothers b hb
      · rcases List.mem_cons.1 hb with rfl | hb
        · exact hone
        · exact hothers b hb

/-- **A stream that keeps to one separator does not depend on the reads.** -/
theorem chunkingUnseen_of_one_separator {bytes : Bytes}
    (h : Occurrence.find lfLf (decodedText bytes) = none ∨
      Occurrence.find crLfCrLf (decodedText bytes) = none) : ChunkingUnseen fromStr bytes := by
  refine JoiningUnseen.chunkingUnseen fun js hjs ↦ ?_
  have hone : ∀ b ∈ blocks (decodedText bytes), b.length ≤ 1 := by
    rcases h with hlf | hcr
    · rw [blocks_of_none (Framer.take_ofSeparator_eq_none.2 hlf)]
      intro b hb
      cases hb
    · exact length_le_one_of_mem_blocks _ hcr
  rw [hjs.eq_flatten hone]

/-! Two records, the first of which ends in carriage returns and line feeds. -/

/-- A payload that carries one letter. -/
def letterPayload (letter : String) : String :=
  "\x7b\"choices\":[\x7b\"delta\":\x7b\"content\":\"" ++ letter ++ "\"\x7d\x7d]\x7d"

/-- A decoder that knows two such payloads. -/
def letterJson (payload : List Char) : Option JsonValue :=
  let value (letter : String) : JsonValue :=
    .object [("choices", .array [.object [("delta", .object [("content", .string letter)])]])]
  if payload = (letterPayload "a").toList then some (value "a")
  else if payload = (letterPayload "b").toList then some (value "b")
  else none

def firstLetter : List Char :=
  ("data: " ++ letterPayload "a" ++ "\r\n\r\n").toList

def secondLetter : List Char :=
  ("data: " ++ letterPayload "b" ++ "\n\n").toList

/-- In one read the two records are taken for one, whose payload is not JSON. -/
theorem payloads_together :
    payloads (sseFramer.cuts [] [firstLetter ++ secondLetter]) =
      [(letterPayload "a" ++ letterPayload "b").toList] := by
  have htake : takeEvent (firstLetter ++ secondLetter) =
      some (firstLetter ++ ("data: " ++ letterPayload "b").toList, []) := by
    decide +kernel
  rw [cuts_piece htake, Framer.cuts_nil_of_none (show sseFramer.take [] = none by decide)]
  decide +kernel

/-- In two reads they are reported one after the other. -/
theorem payloads_apart :
    payloads (sseFramer.cuts [] [firstLetter, secondLetter]) =
      [(letterPayload "a").toList, (letterPayload "b").toList] := by
  have hfirst : takeEvent firstLetter = some (("data: " ++ letterPayload "a").toList, []) := by
    decide +kernel
  have hsecond : takeEvent secondLetter = some (("data: " ++ letterPayload "b").toList, []) := by
    decide +kernel
  rw [cuts_piece hfirst, cuts_piece hsecond,
    Framer.cuts_nil_of_none (show sseFramer.take [] = none by decide)]
  decide +kernel

/-- **The same bytes, in one read and in two**: two letters are lost. -/
theorem one_read_joins_two_records :
    ¬ChunkingUnseen letterJson (Utf8.encode (firstLetter ++ secondLetter)) := by
  intro h
  have hne : ∀ {cs : List Char}, cs ≠ [] → Utf8.encode cs ≠ [] := fun hcs heq ↦
    hcs (Utf8.encode_injective heq)
  have hfirst : firstLetter ≠ [] := by decide
  have hsecond : secondLetter ≠ [] := by decide
  have hitems := h [Utf8.encode (firstLetter ++ secondLetter)]
    [Utf8.encode firstLetter, Utf8.encode secondLetter] (by simp) (by simp)
    (by simpa using hne (List.append_ne_nil_of_left_ne_nil hfirst secondLetter))
    (by simpa using And.intro (hne hfirst) (hne hsecond))
  have hone : decodePieces .start [Utf8.encode (firstLetter ++ secondLetter)] =
      [firstLetter ++ secondLetter] := by
    rw [decodePieces, Utf8.scan_encode, Utf8.written_map_some]
    rfl
  have htwo : decodePieces .start [Utf8.encode firstLetter, Utf8.encode secondLetter] =
      [firstLetter, secondLetter] := by
    rw [decodePieces, decodePieces, Utf8.scan_encode, Utf8.written_map_some, Utf8.scan_encode,
      Utf8.written_map_some]
    rfl
  rw [items_reads, items_reads, hone, htwo, payloads_together, payloads_apart] at hitems
  have hchunks := List.map_injective_iff.2 (fun _ _ ↦ Except.ok.inj) hitems
  exact absurd hchunks (by decide +kernel)

end Cordon
