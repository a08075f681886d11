import Cordon.Lib.Bytes
import Mathlib.Tactic.NormNum
import Mathlib.Tactic.SplitIfs

/-!
# UTF-8 text: encoding, strict and lossy decoding, lines

Decoding is one byte-at-a-time machine, `decodeItems`, whose output is a list of items: a decoded
character, or `none` for one maximal ill-formed subsequence. Both library decoders are read off it:

* the **strict** decoder `decode` fails as soon as one item is `none`;
* the **lossy** decoder `decodeLossy` writes the replacement character for each of them.

What a byte does is said once (`lead_outcome`; `step_last`, `step_more` and `step_refused`), and
what the states of the machine keep is read off that.

Because the machine is a left-to-right fold over single bytes, two facts hold for arbitrary input
and carry everything else: a well-formed character at the front is read back whole
(`decodeItems_encodeChar_append`), and a line feed always returns the machine to its ground state
(`decodeItems_append_ascii`), so decoding commutes with splitting into lines even when the bytes
before the line feed are ill-formed.
-/

namespace Utf8

/-! ### Encoding -/

/-- The encoding of one character. -/
def encodeChar (c : Char) : Bytes :=
  let v := c.toNat
  if v < 0x80 then [UInt8.ofNat v]
  else if v < 0x800 then [UInt8.ofNat (0xC0 + v / 64), UInt8.ofNat (0x80 + v % 64)]
  else if v < 0x10000 then
    [UInt8.ofNat (0xE0 + v / 4096), UInt8.ofNat (0x80 + v / 64 % 64), UInt8.ofNat (0x80 + v % 64)]
  else
    [UInt8.ofNat (0xF0 + v / 262144), UInt8.ofNat (0x80 + v / 4096 % 64),
      UInt8.ofNat (0x80 + v / 64 % 64), UInt8.ofNat (0x80 + v % 64)]

/-- The encoding of a text. -/
def encode (cs : List Char) : Bytes :=
  cs.flatMap encodeChar

@[simp] theorem encode_nil : encode [] = [] := rfl

@[simp]
theorem encode_cons (c : Char) (cs : List Char) : encode (c :: cs) = encodeChar c ++ encode cs :=
  rfl

@[simp]
theorem encode_append (cs ds : List Char) : encode (cs ++ ds) = encode cs ++ encode ds := by
  simp [encode]

/-! ### The decoding machine -/

/-- Where the machine stands between bytes: between characters, or inside one with `need + 1`
continuation bytes still owed, the bits read so far, and the range the next byte must lie in. -/
inductive State where
  | ground
  | pending (need acc lo hi : ℕ)

/-- The machine's reaction to a byte that starts a character. -/
def lead (b : ℕ) : List (Option Char) × State :=
  if b < 0x80 then ([some (Char.ofNat b)], .ground)
  else if b < 0xC2 then ([none], .ground)
  else if b < 0xE0 then ([], .pending 0 (b - 0xC0) 0x80 0xBF)
  else if b = 0xE0 then ([], .pending 1 0 0xA0 0xBF)
  else if b = 0xED then ([], .pending 1 0xD 0x80 0x9F)
  else if b < 0xF0 then ([], .pending 1 (b - 0xE0) 0x80 0xBF)
  else if b = 0xF0 then ([], .pending 2 0 0x90 0xBF)
  else if b < 0xF4 then ([], .pending 2 (b - 0xF0) 0x80 0xBF)
  else if b = 0xF4 then ([], .pending 2 4 0x80 0x8F)
  else ([none], .ground)

/-- One byte. A byte that cannot continue the pending character ends it as ill-formed and is then
read afresh. -/
def step (s : State) (b : ℕ) : List (Option Char) × State :=
  match s with
  | .ground => lead b
  | .pending need acc lo hi =>
    if lo ≤ b ∧ b ≤ hi then
      match need with
      | 0 => ([some (Char.ofNat (acc * 64 + (b - 0x80)))], .ground)
      | need + 1 => ([], .pending need (acc * 64 + (b - 0x80)) 0x80 0xBF)
    else
      ((none :: (lead b).1), (lead b).2)

/-- Every item the machine emits from a state; a character cut off at the end is one more
ill-formed item. -/
def decodeItems : State → Bytes → List (Option Char)
  | .ground, [] => []
  | .pending _ _ _ _, [] => [none]
  | s, b :: bs => (step s b.toNat).1 ++ decodeItems (step s b.toNat).2 bs

/-- The strict decoder: the text, if the bytes are well-formed. -/
def decode (bs : Bytes) : Option (List Char) :=
  (decodeItems .ground bs).mapM id

/-- The lossy decoder: each maximal ill-formed subsequence becomes the replacement character. -/
def decodeLossy (bs : Bytes) : List Char :=
  (decodeItems .ground bs).map fun i ↦ i.getD '\uFFFD'

@[simp] theorem decodeItems_ground_nil : decodeItems .ground [] = [] := rfl

theorem decodeItems_cons (s : State) (b : UInt8) (bs : Bytes) :
    decodeItems s (b :: bs) = (step s b.toNat).1 ++ decodeItems (step s b.toNat).2 bs := by
  cases s <;> rfl

/-- **What a first byte does**: it is a character of its own, it is refused, or the machine is
inside a character, outside ASCII, with a range for the next byte that is not empty. -/
theorem lead_outcome (b : ℕ) :
    (b < 0x80 ∧ lead b = ([some (Char.ofNat b)], .ground)) ∨ lead b = ([none], .ground) ∨
      ∃ need acc lo hi, lead b = ([], .pending need acc lo hi) ∧ 0x80 ≤ lo ∧ lo ≤ hi ∧ hi ≤ 0xBF ∧
        0x80 ≤ (acc * 64 + (lo - 0x80)) * 64 ^ need := by
  generalize hlead : lead b = emitted
  rw [lead] at hlead
  split_ifs at hlead with hascii
  all_goals subst hlead
  · exact Or.inl ⟨hascii, rfl⟩
  · exact Or.inr (Or.inl rfl)
  · exact Or.inr (Or.inr ⟨_, _, _, _, rfl, by omega, by omega, by omega, by omega⟩)
  · exact Or.inr (Or.inr ⟨_, _, _, _, rfl, by omega, by omega, by omega, by omega⟩)
  · exact Or.inr (Or.inr ⟨_, _, _, _, rfl, by omega, by omega, by omega, by omega⟩)
  · exact Or.inr (Or.inr ⟨_, _, _, _, rfl, by omega, by omega, by omega, by omega⟩)
  · exact Or.inr (Or.inr ⟨_, _, _, _, rfl, by omega, by omega, by omega, by omega⟩)
  · exact Or.inr (Or.inr ⟨_, _, _, _, rfl, by omega, by omega, by omega, by omega⟩)
  · exact Or.inr (Or.inr ⟨_, _, _, _, rfl, by omega, by omega, by omega, by omega⟩)
  · exact Or.inr (Or.inl rfl)

/-! What a later byte does: it is the last one of the character, one of it, or none of it. -/

section Pending

variable {need acc lo hi b : ℕ}

theorem step_last (h : lo ≤ b ∧ b ≤ hi) :
    step (.pending 0 acc lo hi) b = ([some (Char.ofNat (acc * 64 + (b - 0x80)))], .ground) :=
  if_pos h

theorem step_more (h : lo ≤ b ∧ b ≤ hi) : step (.pending (need + 1) acc lo hi) b =
    ([], .pending need (acc * 64 + (b - 0x80)) 0x80 0xBF) :=
  if_pos h

theorem step_refused (h : ¬(lo ≤ b ∧ b ≤ hi)) :
    step (.pending need acc lo hi) b = (none :: (lead b).1, (lead b).2) :=
  if_neg h

end Pending

/-! ### A well-formed character is read back whole -/

/-- Scalar values leave out the surrogates. -/
theorem toNat_valid (c : Char) : c.toNat < 0xD800 ∨ (0xDFFF < c.toNat ∧ c.toNat < 0x110000) :=
  c.valid

private theorem decodeItems_two (v : ℕ) (h1 : 0x80 ≤ v) (h2 : v < 0x800) (rest : Bytes) :
    decodeItems .ground
      (UInt8.ofNat (0xC0 + v / 64) :: UInt8.ofNat (0x80 + v % 64) :: rest) =
      some (Char.ofNat v) :: decodeItems .ground rest := by
  have e1 : (UInt8.ofNat (0xC0 + v / 64)).toNat = 0xC0 + v / 64 :=
    UInt8.toNat_ofNat_of_lt' (show _ < 256 by omega)
  have e2 : (UInt8.ofNat (0x80 + v % 64)).toNat = 0x80 + v % 64 :=
    UInt8.toNat_ofNat_of_lt' (show _ < 256 by omega)
  have hlead : lead (0xC0 + v / 64) = ([], .pending 0 (v / 64) 0x80 0xBF) := by
    rw [lead, if_neg (by omega), if_neg (by omega), if_pos (by omega), Nat.add_sub_cancel_left]
  rw [decodeItems_cons, decodeItems_cons, e1, e2]
  simp only [step, hlead, List.nil_append]
  rw [if_pos (by omega)]
  have hv : v / 64 * 64 + (0x80 + v % 64 - 0x80) = v := by omega
  simp only [hv, List.singleton_append]

private theorem decodeItems_three (v : ℕ) (h1 : 0x800 ≤ v) (h2 : v < 0x10000)
    (hs : v < 0xD800 ∨ 0xDFFF < v) (rest : Bytes) :
    decodeItems .ground
      (UInt8.ofNat (0xE0 + v / 4096) :: UInt8.ofNat (0x80 + v / 64 % 64) ::
        UInt8.ofNat (0x80 + v % 64) :: rest) =
      some (Char.ofNat v) :: decodeItems .ground rest := by
  have e1 : (UInt8.ofNat (0xE0 + v / 4096)).toNat = 0xE0 + v / 4096 :=
    UInt8.toNat_ofNat_of_lt' (show _ < 256 by omega)
  have e2 : (UInt8.ofNat (0x80 + v / 64 % 64)).toNat = 0x80 + v / 64 % 64 :=
    UInt8.toNat_ofNat_of_lt' (show _ < 256 by omega)
  have e3 : (UInt8.ofNat (0x80 + v % 64)).toNat = 0x80 + v % 64 :=
    UInt8.toNat_ofNat_of_lt' (show _ < 256 by omega)
  -- the second byte's range depends on the lead byte; the scalar value always lies in it
  obtain ⟨lo, hi, hlead, hlo, hhi⟩ : ∃ lo hi, lead (0xE0 + v / 4096) =
      ([], .pending 1 (v / 4096) lo hi) ∧ lo ≤ 0x80 + v / 64 % 64 ∧ 0x80 + v / 64 % 64 ≤ hi := by
    rw [lead, if_neg (by omega), if_neg (by omega), if_neg (by omega)]
    by_cases h0 : v / 4096 = 0
    · exact ⟨0xA0, 0xBF, by simp [h0], by omega, by omega⟩
    rw [if_neg (by omega)]
    by_cases hd : v / 4096 = 0xD
    · exact ⟨0x80, 0x9F, by simp [hd], by omega, by omega⟩
    rw [if_neg (by omega), if_pos (by omega), Nat.add_sub_cancel_left]
    exact ⟨0x80, 0xBF, rfl, by omega, by omega⟩
  rw [decodeItems_cons, decodeItems_cons, decodeItems_cons, e1, e2, e3]
  simp only [step, hlead, List.nil_append]
  rw [if_pos ⟨hlo, hhi⟩]
  simp only [List.nil_append]
  rw [if_pos (by omega)]
  have hv : (v / 4096 * 64 + (0x80 + v / 64 % 64 - 0x80)) * 64 + (0x80 + v % 64 - 0x80) = v := by
    omega
  simp only [hv, List.singleton_append]

private theorem decodeItems_four (v : ℕ) (h1 : 0x10000 ≤ v) (h2 : v < 0x110000) (rest : Bytes) :
    decodeItems .ground
      (UInt8.ofNat (0xF0 + v / 262144) :: UInt8.ofNat (0x80 + v / 4096 % 64) ::
        UInt8.ofNat (0x80 + v / 64 % 64) :: UInt8.ofNat (0x80 + v % 64) :: rest) =
      some (Char.ofNat v) :: decodeItems .ground rest := by
  have e1 : (UInt8.ofNat (0xF0 + v / 262144)).toNat = 0xF0 + v / 262144 :=
    UInt8.toNat_ofNat_of_lt' (show _ < 256 by omega)
  have e2 : (UInt8.ofNat (0x80 + v / 4096 % 64)).toNat = 0x80 + v / 4096 % 64 :=
    UInt8.toNat_ofNat_of_lt' (show _ < 256 by omega)
  have e3 : (UInt8.ofNat (0x80 + v / 64 % 64)).toNat = 0x80 + v / 64 % 64 :=
    UInt8.toNat_ofNat_of_lt' (show _ < 256 by omega)
  have e4 : (UInt8.ofNat (0x80 + v % 64)).toNat = 0x80 + v % 64 :=
    UInt8.toNat_ofNat_of_lt' (show _ < 256 by omega)
  obtain ⟨lo, hi, hlead, hlo, hhi⟩ : ∃ lo hi, lead (0xF0 + v / 262144) =
      ([], .pending 2 (v / 262144) lo hi) ∧ lo ≤ 0x80 + v / 4096 % 64 ∧
        0x80 + v / 4096 % 64 ≤ hi := by
    rw [lead, if_neg (by omega), if_neg (by omega), if_neg (by omega), if_neg (by omega),
      if_neg (by omega), if_neg (by omega)]
    by_cases h0 : v / 262144 = 0
    · exact ⟨0x90, 0xBF, by simp [h0], by omega, by omega⟩
    rw [if_neg (by omega)]
    by_cases h4 : v / 262144 = 4
    · exact ⟨0x80, 0x8F, by simp [h4], by omega, by omega⟩
    rw [if_pos (by omega), Nat.add_sub_cancel_left]
    exact ⟨0x80, 0xBF, rfl, by omega, by omega⟩
  rw [decodeItems_cons, decodeItems_cons, decodeItems_cons, decodeItems_cons, e1, e2, e3, e4]
  simp only [step, hlead, List.nil_append]
  rw [if_pos ⟨hlo, hhi⟩]
  simp only [List.nil_append]
  rw [if_pos (by omega)]
  simp only [List.nil_append]
  rw [if_pos (by omega)]
  have hv : ((v / 262144 * 64 + (0x80 + v / 4096 % 64 - 0x80)) * 64 +
      (0x80 + v / 64 % 64 - 0x80)) * 64 + (0x80 + v % 64 - 0x80) = v := by omega
  simp only [hv, List.singleton_append]

/-- **A well-formed character at the front is read back whole**, whatever follows it. -/
theorem decodeItems_encodeChar_append (c : Char) (rest : Bytes) :
    decodeItems .ground (encodeChar c ++ rest) = some c :: decodeItems .ground rest := by
  have hc : Char.ofNat c.toNat = c := Char.ofNat_toNat c
  have hvalid := toNat_valid c
  simp only [encodeChar]
  split_ifs with h1 h2 h3
  · have e : (UInt8.ofNat c.toNat).toNat = c.toNat :=
      UInt8.toNat_ofNat_of_lt' (show _ < 256 by omega)
    rw [List.singleton_append, decodeItems_cons, e]
    simp [step, lead, h1, hc]
  · simpa [hc] using decodeItems_two c.toNat (by omega) h2 rest
  · simpa [hc] using decodeItems_three c.toNat (by omega) h3 (by omega) rest
  · simpa [hc] using decodeItems_four c.toNat (by omega) (by omega) rest

theorem decodeItems_encode_append (cs : List Char) (rest : Bytes) :
    decodeItems .ground (encode cs ++ rest) = cs.map some ++ decodeItems .ground rest := by
  induction cs with
  | nil => simp
  | cons c cs ih => simp [List.append_assoc, decodeItems_encodeChar_append, ih]

theorem decodeItems_encode (cs : List Char) : decodeItems .ground (encode cs) = cs.map some := by
  simpa using decodeItems_encode_append cs []

/-- Strict decoding undoes encoding. -/
theorem decode_encode (cs : List Char) : decode (encode cs) = some cs := by
  rw [decode, decodeItems_encode]
  induction cs with
  | nil => rfl
  | cons c cs ih => simp only [List.map_cons, List.mapM_cons, ih]; rfl

/-- Lossy decoding undoes encoding. -/
theorem decodeLossy_encode (cs : List Char) : decodeLossy (encode cs) = cs := by
  rw [decodeLossy, decodeItems_encode, List.map_map]
  exact List.map_id'' (fun _ ↦ rfl) cs

theorem encode_injective : Function.Injective encode := fun cs ds h ↦ by
  have h' := congrArg decode h
  rwa [decode_encode, decode_encode, Option.some.injEq] at h'

/-! ### An ASCII byte resets the machine -/

/-- The line feed byte. -/
def newline : UInt8 := 0x0A

@[simp] theorem encodeChar_newline : encodeChar '\n' = [newline] := by decide

/-- The pending ranges a machine can be in never admit an ASCII byte. -/
def State.Sane : State → Prop
  | .ground => True
  | .pending _ _ lo _ => 0x80 ≤ lo

theorem lead_sane (b : ℕ) : (lead b).2.Sane := by
  rcases lead_outcome b with ⟨-, h⟩ | h | ⟨need, acc, lo, hi, h, hlo, -⟩
  · rw [h]
    trivial
  · rw [h]
    trivial
  · rw [h]
    exact hlo

theorem step_sane (s : State) (b : ℕ) : (step s b).2.Sane := by
  cases s with
  | ground => exact lead_sane b
  | pending need acc lo hi =>
    by_cases h : lo ≤ b ∧ b ≤ hi
    · cases need with
      | zero =>
        rw [step_last h]
        trivial
      | succ need =>
        rw [step_more h]
        exact le_refl 0x80
    · rw [step_refused h]
      exact lead_sane b

/-- **An ASCII byte returns the machine to its ground state**: what stands before it decodes as if
it ended there. -/
theorem decodeItems_append_ascii {s : State} (hs : s.Sane) {c : UInt8} (hc : c.toNat < 0x80)
    (a b : Bytes) :
    decodeItems s (a ++ c :: b) =
      decodeItems s a ++ some (Char.ofNat c.toNat) :: decodeItems .ground b := by
  have hlead : lead c.toNat = ([some (Char.ofNat c.toNat)], .ground) := by
    rw [lead, if_pos hc]
  induction a generalizing s with
  | nil =>
    rw [List.nil_append, decodeItems_cons]
    cases s with
    | ground => simp [step, hlead]
    | pending need acc lo hi =>
      have hlt : ¬ (lo ≤ c.toNat ∧ c.toNat ≤ hi) := by
        simp only [State.Sane] at hs
        omega
      rw [step_refused hlt, hlead]
      rfl
  | cons x a ih =>
    rw [List.cons_append, decodeItems_cons, decodeItems_cons, ih (step_sane _ _),
      List.append_assoc]

theorem decodeLossy_append_ascii {c : UInt8} (hc : c.toNat < 0x80) (a b : Bytes) :
    decodeLossy (a ++ c :: b) = decodeLossy a ++ Char.ofNat c.toNat :: decodeLossy b := by
  simp only [decodeLossy]
  rw [decodeItems_append_ascii (s := .ground) trivial hc]
  simp

theorem decodeLossy_append_newline (a b : Bytes) :
    decodeLossy (a ++ newline :: b) = decodeLossy a ++ '\n' :: decodeLossy b :=
  decodeLossy_append_ascii (by decide) a b

/-! ### What lossy decoding can produce -/

/-- Every character a pending state can still complete lies outside ASCII. -/
def State.Wide : State → Prop
  | .ground => True
  | .pending need acc lo _ => 0x80 ≤ (acc * 64 + (lo - 0x80)) * 64 ^ need

theorem lead_wide (b : ℕ) : (lead b).2.Wide := by
  rcases lead_outcome b with ⟨-, h⟩ | h | ⟨need, acc, lo, hi, h, -, -, -, hwide⟩
  · rw [h]
    trivial
  · rw [h]
    trivial
  · rw [h]
    exact hwide

theorem step_wide {s : State} (hs : s.Wide) (hs' : s.Sane) (b : ℕ) : (step s b).2.Wide := by
  cases s with
  | ground => exact lead_wide b
  | pending need acc lo hi =>
    by_cases h : lo ≤ b ∧ b ≤ hi
    · cases need with
      | zero =>
        rw [step_last h]
        trivial
      | succ need =>
        rw [step_more h]
        simp only [State.Wide] at hs ⊢
        have hle : (acc * 64 + (lo - 0x80)) * 64 ^ (need + 1) ≤
            (acc * 64 + (b - 0x80)) * 64 ^ (need + 1) :=
          Nat.mul_le_mul_right _ (by omega)
        calc 0x80 ≤ (acc * 64 + (lo - 0x80)) * 64 ^ (need + 1) := hs
          _ ≤ (acc * 64 + (b - 0x80)) * 64 ^ (need + 1) := hle
          _ = ((acc * 64 + (b - 0x80)) * 64 + (0x80 - 0x80)) * 64 ^ need := by
            rw [Nat.sub_self, Nat.add_zero, pow_succ]
            ring
    · rw [step_refused h]
      exact lead_wide b

theorem ofNat_eq_newline {v : ℕ} (h : Char.ofNat v = '\n') : v = 10 := by
  by_cases hv : v.isValidChar
  · have hval : (Char.ofNat v).toNat = v := by
      rw [Char.ofNat, dif_pos hv]
      rfl
    rw [← hval, h]
    rfl
  · rw [Char.ofNat, dif_neg hv] at h
    exact absurd h (by decide)

/-- A step that emits a line feed read one. -/
theorem newline_of_mem_step {s : State} (hs : s.Wide) (hs' : s.Sane) {b : ℕ}
    (h : some '\n' ∈ (step s b).1) : b = 10 := by
  have hlead : some '\n' ∈ (lead b).1 → b = 10 := by
    intro hmem
    rcases lead_outcome b with ⟨-, hb⟩ | hb | ⟨need, acc, lo, hi, hb, -⟩
    · rw [hb, List.mem_singleton, Option.some.injEq] at hmem
      exact ofNat_eq_newline hmem.symm
    · simp [hb] at hmem
    · simp [hb] at hmem
  cases s with
  | ground => exact hlead h
  | pending need acc lo hi =>
    by_cases hr : lo ≤ b ∧ b ≤ hi
    · cases need with
      | zero =>
        rw [step_last hr, List.mem_singleton, Option.some.injEq] at h
        have hv := ofNat_eq_newline h.symm
        simp only [State.Wide, State.Sane] at hs hs'
        omega
      | succ need => simp [step_more hr] at h
    · rw [step_refused hr, List.mem_cons] at h
      exact hlead (h.resolve_left (by simp))

theorem newline_mem_of_mem_decodeItems {s : State} (hs : s.Wide) (hs' : s.Sane) {bs : Bytes}
    (h : some '\n' ∈ decodeItems s bs) : newline ∈ bs := by
  induction bs generalizing s with
  | nil => cases s <;> simp [decodeItems] at h
  | cons b bs ih =>
    rw [decodeItems_cons, List.mem_append] at h
    rcases h with h | h
    · have hb : b = newline := UInt8.toNat_inj.1 (newline_of_mem_step hs hs' h)
      rw [hb]
      exact List.mem_cons_self
    · exact List.mem_cons_of_mem _ (ih (step_wide hs hs' _) (step_sane _ _) h)

/-- **Lossy decoding makes up no line feed.** -/
theorem not_mem_decodeLossy_newline {bs : Bytes} (h : newline ∉ bs) : '\n' ∉ decodeLossy bs := by
  intro hmem
  obtain ⟨i, hi, hc⟩ := List.mem_map.1 hmem
  cases i with
  | none => exact absurd hc (by decide)
  | some c =>
    simp only [Option.getD_some] at hc
    exact h (newline_mem_of_mem_decodeItems (s := .ground) trivial trivial (hc ▸ hi))

theorem length_decodeItems_le (s : State) (bs : Bytes) :
    (decodeItems s bs).length ≤ bs.length + (match s with | .ground => 0 | _ => 1) := by
  induction bs generalizing s with
  | nil => cases s <;> simp [decodeItems]
  | cons b bs ih =>
    have hlead : (lead b.toNat).1.length + (match (lead b.toNat).2 with | .ground => 0 | _ => 1)
        ≤ 1 := by
      rcases lead_outcome b.toNat with ⟨-, h⟩ | h | ⟨need, acc, lo, hi, h, -⟩
      · rw [h]
        rfl
      · rw [h]
        rfl
      · rw [h]
        rfl
    have hstep : (step s b.toNat).1.length +
        (match (step s b.toNat).2 with | .ground => 0 | _ => 1) ≤
          1 + (match s with | .ground => 0 | _ => 1) := by
      cases s with
      | ground => simpa [step] using hlead
      | pending need acc lo hi =>
        by_cases hr : lo ≤ b.toNat ∧ b.toNat ≤ hi
        · cases need with
          | zero => simp [step_last hr]
          | succ need => simp [step_more hr]
        · simp only [step_refused hr, List.length_cons]
          omega
    have htail := ih (step s b.toNat).2
    rw [decodeItems_cons, List.length_append, List.length_cons]
    omega

/-- A text is no longer than its bytes. -/
theorem length_decodeLossy_le (bs : Bytes) : (decodeLossy bs).length ≤ bs.length := by
  simpa [decodeLossy] using length_decodeItems_le .ground bs

/-- Text that ends in a complete line is decoded line by line. -/
theorem decodeLossy_encode_append (cs : List Char) (rest : Bytes) :
    decodeLossy (encode cs ++ rest) = cs ++ decodeLossy rest := by
  rw [decodeLossy, decodeItems_encode_append, List.map_append, List.map_map]
  exact congrArg (· ++ _) (List.map_id'' (fun _ ↦ rfl) cs)

end Utf8
