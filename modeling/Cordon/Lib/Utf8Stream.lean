import Cordon.Lib.Utf8Strict

/-!
# UTF-8 that arrives in pieces

Bytes that arrive in pieces can be cut inside a character. A decoder that is to write the same text
however they are cut has to **hold back what it has read of the last character**, and start with it
when more arrives. So the machine runs on configurations: the state it is in, with the bytes it
holds back.

* `scan_append`: the items of two pieces are those of the first and then those of the second, from
  where the first left the machine;
* `Stands.scan`: reading the bytes held back again leads to where the machine stands, so a decoder
  need keep nothing else.

`firstError` is the report of a strict decoder, with the place of the error and what kind of error
it is; `report_firstError` says what the report means for the machine. What is held back can always
be completed (`incomplete_held`).

A character is emitted with its last byte (`exists_cut`): text that is cut after a character, other
than the replacement character, comes from bytes that are cut between characters.
-/

namespace Utf8

/-- The state of the machine, with the bytes it has read of a character that is not complete. -/
abbrev Config : Type :=
  State × Bytes

/-- Between characters. -/
def Config.start : Config :=
  (.ground, [])

/-- One byte. -/
def Config.next (c : Config) (b : UInt8) : List (Option Char) × Config :=
  match step c.1 b.toNat with
  | (items, .ground) => (items, .start)
  | ([], s) => ([], (s, c.2 ++ [b]))
  | (items, s) => (items, (s, [b]))

/-- The items the machine emits on some bytes, and where it stands after them. -/
def scan : Config → Bytes → List (Option Char) × Config
  | c, [] => ([], c)
  | c, b :: bs => ((c.next b).1 ++ (scan (c.next b).2 bs).1, (scan (c.next b).2 bs).2)

/-- What a lossy decoder writes for some items. -/
def written (items : List (Option Char)) : List Char :=
  items.map fun i ↦ i.getD '\uFFFD'

theorem written_append (a b : List (Option Char)) : written (a ++ b) = written a ++ written b :=
  List.map_append

theorem written_map_some (cs : List Char) : written (cs.map some) = cs := by
  rw [written, List.map_map]
  exact List.map_id'' (fun _ ↦ rfl) cs

/-! ### What one byte does -/

/-- **What one byte does**: it completes a character, it is kept, it is refused, or the bytes before
it are refused and it is read afresh. -/
theorem next_outcome (c : Config) (b : UInt8) :
    (∃ ch, c.next b = ([some ch], .start)) ∨
      (∃ need acc lo hi, c.next b = ([], (.pending need acc lo hi, c.2 ++ [b]))) ∨
      (c.1 = .ground ∧ c.next b = ([none], .start)) ∨
      (c.1 ≠ .ground ∧
        c.next b = (none :: (Config.start.next b).1, (Config.start.next b).2)) := by
  obtain ⟨s, held⟩ := c
  rcases s with - | ⟨need, acc, lo, hi⟩
  · have hstep : step .ground b.toNat = lead b.toNat := rfl
    rcases lead_outcome b.toNat with ⟨-, h⟩ | h | ⟨need, acc, lo, hi, h, -⟩
    · exact Or.inl ⟨_, by rw [Config.next, hstep, h]⟩
    · exact Or.inr (Or.inr (Or.inl ⟨rfl, by rw [Config.next, hstep, h]⟩))
    · exact Or.inr (Or.inl ⟨need, acc, lo, hi, by rw [Config.next, hstep, h]⟩)
  · by_cases hrange : lo ≤ b.toNat ∧ b.toNat ≤ hi
    · rcases need with - | need
      · refine Or.inl ⟨Char.ofNat (acc * 64 + (b.toNat - 0x80)), ?_⟩
        rw [Config.next, step_last hrange]
      · refine Or.inr (Or.inl ⟨need, acc * 64 + (b.toNat - 0x80), 0x80, 0xBF, ?_⟩)
        rw [Config.next, step_more hrange]
    · refine Or.inr (Or.inr (Or.inr ⟨by simp, ?_⟩))
      have hstart : step .ground b.toNat = lead b.toNat := rfl
      rw [Config.next, step_refused hrange, Config.next, Config.start, hstart]
      rcases lead_outcome b.toNat with ⟨-, h⟩ | h | ⟨need, acc, lo, hi, h, -⟩
      · rw [h]
      · rw [h]
      · rw [h]
        rfl

/-! ### Pieces -/

theorem scan_cons (c : Config) (b : UInt8) (bs : Bytes) :
    scan c (b :: bs) = ((c.next b).1 ++ (scan (c.next b).2 bs).1, (scan (c.next b).2 bs).2) :=
  rfl

theorem scan_append (c : Config) (a b : Bytes) :
    scan c (a ++ b) = ((scan c a).1 ++ (scan (scan c a).2 b).1, (scan (scan c a).2 b).2) := by
  induction a generalizing c with
  | nil => rfl
  | cons x a ih => rw [List.cons_append, scan_cons, scan_cons, ih, List.append_assoc]

/-- Reading again what is held back leads back here. -/
def Config.Stands (c : Config) : Prop :=
  scan .start c.2 = ([], c)

theorem stands_start : Config.start.Stands :=
  rfl

theorem Config.Stands.next {c : Config} (h : c.Stands) (b : UInt8) : (c.next b).2.Stands := by
  rcases next_outcome c b with ⟨ch, hb⟩ | ⟨need, acc, lo, hi, hb⟩ | ⟨-, hb⟩ | ⟨-, hb⟩
  · rw [hb]
    exact stands_start
  · rw [hb, Config.Stands, scan_append, h, scan_cons, hb]
    rfl
  · rw [hb]
    exact stands_start
  · rw [hb]
    -- the byte is read as the first one of a character
    rcases next_outcome .start b with ⟨ch, hs⟩ | ⟨need, acc, lo, hi, hs⟩ | ⟨-, hs⟩ | ⟨hne, -⟩
    · rw [hs]
      exact stands_start
    · rw [hs, Config.Stands]
      show scan .start [b] = _
      rw [scan_cons, hs]
      rfl
    · rw [hs]
      exact stands_start
    · exact absurd rfl hne

theorem Config.Stands.scan {c : Config} (h : c.Stands) (bs : Bytes) : (scan c bs).2.Stands := by
  induction bs generalizing c with
  | nil => exact h
  | cons b bs ih => exact ih (h.next b)

/-- **To go on, it is enough to have kept what is held back.** -/
theorem Config.Stands.scan_append {c : Config} (h : c.Stands) (bs : Bytes) :
    Utf8.scan .start (c.2 ++ bs) = Utf8.scan c bs := by
  rw [Utf8.scan_append, h]
  rfl

/-- A byte that is kept, and only such a byte, emits nothing. -/
theorem next_of_nil {c : Config} {b : UInt8} (h : (c.next b).1 = []) :
    (c.next b).2.1 ≠ .ground ∧ (c.next b).2.2 = c.2 ++ [b] := by
  rcases next_outcome c b with ⟨ch, hb⟩ | ⟨need, acc, lo, hi, hb⟩ | ⟨-, hb⟩ | ⟨-, hb⟩
  · simp [hb] at h
  · simp [hb]
  · simp [hb] at h
  · simp [hb] at h

/-- Between characters nothing is held back. -/
theorem Config.Stands.eq_start {c : Config} (h : c.Stands) (hground : c.1 = .ground) :
    c = .start := by
  rcases List.eq_nil_or_concat c.2 with hheld | ⟨l, b, hheld⟩
  · exact Prod.ext hground hheld
  · rw [Config.Stands, hheld, List.concat_eq_append, Utf8.scan_append, scan_cons] at h
    obtain ⟨hitems, hstate⟩ := Prod.ext_iff.1 h
    have hnil := (List.append_eq_nil_iff.1 (List.append_eq_nil_iff.1 hitems).2).1
    exact absurd ((congrArg Prod.fst hstate).trans hground) (next_of_nil hnil).1

/-! ### What is held back can be completed -/

theorem next_fst (c : Config) (b : UInt8) : (c.next b).1 = (step c.1 b.toNat).1 := by
  rw [Config.next]
  split
  · next h => rw [h]
  · next h => rw [h]
  · next h => rw [h]

theorem next_state (c : Config) (b : UInt8) : (c.next b).2.1 = (step c.1 b.toNat).2 := by
  rw [Config.next]
  split
  · next h => rw [h]; rfl
  · next h => rw [h]
  · next h => rw [h]

/-- Bytes that emit nothing are owed. -/
theorem owes_of_scan_nil {c : Config} (hc : c.1.Owes c.2) {bs : Bytes} (h : (scan c bs).1 = []) :
    (scan c bs).2.1.Owes (scan c bs).2.2 := by
  induction bs generalizing c with
  | nil => exact hc
  | cons b bs ih =>
    obtain ⟨hitems, hrest⟩ := List.append_eq_nil_iff.1 h
    refine ih ?_ hrest
    rw [next_fst] at hitems
    rw [next_state, (next_of_nil ((next_fst c b).trans hitems)).2]
    rcases step_cases hc b with ⟨ch, hstep, -⟩ | hmem | ⟨s', hstep, hs'⟩
    · simp [hstep] at hitems
    · simp [hitems] at hmem
    · rw [hstep]
      exact hs'

theorem Config.Stands.owes {c : Config} (h : c.Stands) : c.1.Owes c.2 := by
  have howes : Config.start.1.Owes Config.start.2 := rfl
  have hheld := owes_of_scan_nil howes (congrArg Prod.fst h)
  rwa [h] at hheld

theorem scan_open {c : Config} (hc : c.1.Open) (bs : Bytes) : (scan c bs).2.1.Open := by
  induction bs generalizing c with
  | nil => exact hc
  | cons b bs ih =>
    refine ih ?_
    rw [next_state]
    exact step_open c.1 b.toNat

/-- **What is held back begins a character, and is not all of it.** -/
theorem incomplete_held (bs : Bytes) : Incomplete (scan .start bs).2.2 := by
  have hopen : Config.start.1.Open := trivial
  exact (stands_start.scan bs).owes.incomplete (scan_open hopen bs)

/-! ### The whole text -/

/-- At the end of the bytes, a character that is not complete is one more item. -/
theorem decodeItems_eq_scan (c : Config) (bs : Bytes) :
    decodeItems c.1 bs = (scan c bs).1 ++ decodeItems (scan c bs).2.1 [] := by
  induction bs generalizing c with
  | nil => rfl
  | cons b bs ih =>
    rw [decodeItems_cons, ← next_fst, ← next_state, ih, scan_cons, List.append_assoc]

/-- What is held back accounts for the end of the text. -/
theorem decodeLossy_eq_scan (bs : Bytes) :
    decodeLossy bs = written (scan .start bs).1 ++ decodeLossy (scan .start bs).2.2 := by
  have hitems := decodeItems_eq_scan .start bs
  have hheld := decodeItems_eq_scan .start (scan .start bs).2.2
  rw [stands_start.scan bs] at hheld
  calc decodeLossy bs = written (decodeItems Config.start.1 bs) := rfl
    _ = written (scan .start bs).1 ++ written (decodeItems (scan .start bs).2.1 []) := by
      rw [hitems, written_append]
    _ = _ := congrArg (_ ++ written ·) hheld.symm

/-- Complete characters are read as a lossy decoder reads them. -/
theorem decodeLossy_of_scan {bs : Bytes} {items : List (Option Char)}
    (h : scan .start bs = (items, .start)) : decodeLossy bs = written items := by
  have hitems := decodeItems_eq_scan .start bs
  rw [h] at hitems
  rw [decodeLossy, show State.ground = Config.start.1 from rfl, hitems]
  exact congrArg written (List.append_nil items)

/-- What is held back is not a character. -/
theorem Config.Stands.decodeLossy_held {c : Config} (h : c.Stands) :
    decodeLossy c.2 = [] ∨ decodeLossy c.2 = ['\uFFFD'] := by
  have hitems := decodeItems_eq_scan .start c.2
  rw [h] at hitems
  rw [decodeLossy, show State.ground = Config.start.1 from rfl, hitems]
  rcases c.1 with - | ⟨need, acc, lo, hi⟩
  · exact Or.inl rfl
  · exact Or.inr rfl

/-- The encoding of a text is read as the text, and leaves nothing. -/
theorem scan_encode (cs : List Char) : scan .start (encode cs) = (cs.map some, .start) := by
  have hitems := decodeItems_eq_scan .start (encode cs)
  rw [show Config.start.1 = .ground from rfl, decodeItems_encode] at hitems
  have hstands := stands_start.scan (encode cs)
  rcases hstate : (scan .start (encode cs)).2.1 with - | ⟨need, acc, lo, hi⟩
  · rw [hstate] at hitems
    exact Prod.ext (hitems.trans (List.append_nil _)).symm (hstands.eq_start hstate)
  · rw [hstate] at hitems
    have hnone : none ∈ cs.map some := hitems ▸ List.mem_append_right _ List.mem_cons_self
    simp at hnone

/-! ### What a strict decoder reports -/

/-- Where a strict decoder stops. -/
structure Utf8Error where
  /-- How many bytes are well-formed. -/
  validUpTo : ℕ
  /-- How many bytes after them are ill-formed; `none` if they only want more bytes. -/
  errorLen : Option ℕ
  deriving DecidableEq, Repr

/-- The first error, given the number of bytes before the current character and inside it. -/
def firstError : State → ℕ → ℕ → Bytes → Option Utf8Error
  | .ground, _, _, [] => none
  | .pending _ _ _ _, valid, _, [] => some ⟨valid, none⟩
  | s, valid, read, b :: bs =>
    match step s b.toNat with
    | ([], s') => firstError s' valid (read + 1) bs
    | ([some _], s') => firstError s' (valid + read + 1) 0 bs
    | _ => some ⟨valid, some (max read 1)⟩

/-- The strict decoder: the text, or the first error. -/
def fromUtf8 (bs : Bytes) : Except Utf8Error (List Char) :=
  match firstError .ground 0 0 bs with
  | none => .ok (decodeLossy bs)
  | some e => .error e

/-- **What a report means.** The bytes are characters; or characters and the beginning of one; or
characters, then bytes that make up one ill-formed item, and then whatever. -/
inductive Report (bs : Bytes) : Option Utf8Error → Prop
  | valid (cs : List Char) (hscan : scan .start bs = (cs.map some, .start)) : Report bs none
  | cut (x t : Bytes) (cs : List Char) (hbs : bs = x ++ t)
      (hx : scan .start x = (cs.map some, .start)) (ht : (scan .start t).1 = [])
      (hheld : (scan .start t).2.2 = t) : Report bs (some ⟨x.length, none⟩)
  | bad (x m rest : Bytes) (cs : List Char) (hbs : bs = x ++ (m ++ rest))
      (hx : scan .start x = (cs.map some, .start)) (hm : m ≠ [])
      (hrest : scan .start (m ++ rest) = (none :: (scan .start rest).1, (scan .start rest).2)) :
      Report bs (some ⟨x.length, some m.length⟩)

theorem firstError_cons (s : State) (valid read : ℕ) (b : UInt8) (bs : Bytes) :
    firstError s valid read (b :: bs) =
      match step s b.toNat with
      | ([], s') => firstError s' valid (read + 1) bs
      | ([some _], s') => firstError s' (valid + read + 1) 0 bs
      | _ => some ⟨valid, some (max read 1)⟩ := by
  cases s <;> rfl

theorem report_firstError_from {c : Config} (hc : c.Stands) (x bs : Bytes) {cs : List Char}
    (hx : scan .start x = (cs.map some, .start)) :
    Report (x ++ (c.2 ++ bs)) (firstError c.1 x.length c.2.length bs) := by
  induction bs generalizing c x cs with
  | nil =>
    rcases hstate : c.1 with - | ⟨need, acc, lo, hi⟩
    · obtain rfl := hc.eq_start hstate
      refine .valid cs ?_
      rw [show x ++ (Config.start.2 ++ []) = x from List.append_nil x]
      exact hx
    · rw [List.append_nil]
      exact .cut x c.2 cs rfl hx (congrArg Prod.fst hc) (by rw [hc])
  | cons b bs ih =>
    have hread : scan .start (c.2 ++ [b]) = c.next b := by
      rw [hc.scan_append, scan_cons]
      exact Prod.ext (List.append_nil _) rfl
    have hstep : step c.1 b.toNat = ((c.next b).1, (c.next b).2.1) :=
      Prod.ext (next_fst c b).symm (next_state c b).symm
    rw [firstError_cons, hstep]
    rcases next_outcome c b with ⟨ch, hb⟩ | ⟨need, acc, lo, hi, hb⟩ | ⟨hground, hb⟩ | ⟨hne, hb⟩
    · have hx' : scan .start (x ++ (c.2 ++ [b])) = ((cs ++ [ch]).map some, .start) := by
        rw [scan_append, hx, hread, hb, List.map_append]
        rfl
      have hrest := ih stands_start (x ++ (c.2 ++ [b])) hx'
      rw [hb]
      simpa [Config.start, Nat.add_assoc] using hrest
    · have hnext := hc.next b
      rw [hb] at hnext ⊢
      simpa using ih hnext x hx
    · obtain rfl := hc.eq_start hground
      rw [hb]
      exact .bad x [b] bs cs rfl hx (by simp) (by rw [List.singleton_append, scan_cons, hb]; rfl)
    · have hheld : c.2 ≠ [] := by
        intro hnil
        rw [Config.Stands, hnil] at hc
        exact hne (congrArg Prod.fst (congrArg Prod.snd hc).symm)
      rw [hb]
      show Report _ (some ⟨x.length, some (max c.2.length 1)⟩)
      rw [Nat.max_eq_left (List.length_pos_iff.2 hheld)]
      refine .bad x c.2 (b :: bs) cs rfl hx hheld ?_
      rw [hc.scan_append, scan_cons, scan_cons, hb]
      rfl

/-- **The report of a strict decoder says what the machine does with the bytes.** -/
theorem report_firstError (bs : Bytes) : Report bs (firstError .ground 0 0 bs) :=
  report_firstError_from stands_start [] bs
    (show scan .start [] = (([] : List Char).map some, .start) from rfl)

/-! ### Cutting the text -/

/-- **The items of a byte** are refusals, and after them at most one character, with which the
machine is between characters again. -/
theorem next_items (c : Config) (x : UInt8) :
    ∃ refused, (∀ i ∈ refused, i = none) ∧
      ((∃ d, c.next x = (refused ++ [some d], .start)) ∨ (c.next x).1 = refused) := by
  rcases next_outcome c x with ⟨d, hx⟩ | ⟨need, acc, lo, hi, hx⟩ | ⟨-, hx⟩ | ⟨-, hx⟩
  · exact ⟨[], by simp, Or.inl ⟨d, hx⟩⟩
  · exact ⟨[], by simp, Or.inr (by rw [hx])⟩
  · exact ⟨[none], by simp, Or.inr (by rw [hx])⟩
  · rcases next_outcome .start x with ⟨d, hs⟩ | ⟨need, acc, lo, hi, hs⟩ | ⟨-, hs⟩ | ⟨hne, -⟩
    · exact ⟨[none], by simp, Or.inl ⟨d, by rw [hx, hs]; rfl⟩⟩
    · exact ⟨[none], by simp, Or.inr (by rw [hx, hs])⟩
    · exact ⟨[none, none], by simp, Or.inr (by rw [hx, hs])⟩
    · exact absurd rfl hne

theorem mem_written_refused {refused : List (Option Char)} (h : ∀ i ∈ refused, i = none) {ch : Char}
    (hmem : ch ∈ written refused) : ch = '\uFFFD' := by
  obtain ⟨i, hi, rfl⟩ := List.mem_map.1 hmem
  rw [h i hi]
  rfl

/-- Where a byte writes a character, it writes nothing after it. -/
theorem next_of_written {c : Config} {x : UInt8} {u v : List Char} {ch : Char} (hch : ch ≠ '\uFFFD')
    (h : written (c.next x).1 = u ++ ch :: v) : (c.next x).2 = .start ∧ v = [] := by
  obtain ⟨refused, hrefused, ⟨d, hx⟩ | hx⟩ := next_items c x
  · rw [hx, written_append] at h
    refine ⟨by rw [hx], ?_⟩
    rcases List.eq_nil_or_concat v with hv | ⟨w, e, hv⟩
    · exact hv
    · have hsplit : written refused ++ [d] = (u ++ ch :: w) ++ [e] := by
        rw [hv, List.concat_eq_append] at h
        simpa [written] using h
      have hbefore := (List.append_inj' hsplit rfl).1
      have hmem : ch ∈ written refused := by
        rw [hbefore]
        simp
      exact absurd (mem_written_refused hrefused hmem) hch
  · rw [hx] at h
    have hmem : ch ∈ written refused := by
      rw [h]
      simp
    exact absurd (mem_written_refused hrefused hmem) hch

/-- **A cut after a character of the text is a cut of the bytes**, between characters. -/
theorem exists_cut {c : Config} {bs : Bytes} {u v : List Char} {ch : Char} (hch : ch ≠ '\uFFFD')
    (h : written (scan c bs).1 = u ++ ch :: v) :
    ∃ a b, bs = a ++ b ∧ a ≠ [] ∧ written (scan c a).1 = u ++ [ch] ∧ (scan c a).2 = .start ∧
      written (scan .start b).1 = v := by
  induction bs generalizing c u with
  | nil => simp [scan, written] at h
  | cons x bs ih =>
    rw [scan_cons, written_append] at h
    rcases List.append_eq_append_iff.1 h with ⟨u', hu, hrest⟩ | ⟨t, hitems, hrest⟩
    · obtain ⟨a, b, hbs, -, ha, hend, hb⟩ := ih hrest
      refine ⟨x :: a, b, by rw [hbs, List.cons_append], by simp, ?_, hend, hb⟩
      rw [scan_cons, written_append, ha, hu, List.append_assoc]
    · rcases t with - | ⟨e, t⟩
      · -- the byte writes everything before the character, and nothing else
        obtain ⟨a, b, hbs, -, ha, hend, hb⟩ := ih (u := []) hrest.symm
        refine ⟨x :: a, b, by rw [hbs, List.cons_append], by simp, ?_, hend, hb⟩
        rw [scan_cons, written_append, ha, hitems, List.append_nil, List.nil_append]
      · obtain ⟨rfl, hv⟩ := List.cons.inj hrest
        obtain ⟨hend, rfl⟩ := next_of_written hch hitems
        refine ⟨[x], bs, rfl, by simp, ?_, hend, ?_⟩
        · rw [scan_cons, written_append, hitems]
          exact List.append_nil _
        · rw [← hend]
          exact hv.symm

end Utf8
