import Cordon.Crypto.Cbor
import Cordon.Lib.Utf8Strict
import Mathlib.Data.List.Forall2

/-!
# The grammar that the CBOR reader accepts

`Encodes v bs` says that the bytes are an encoding of the value: the major type in the three high
bits of an initial byte, the argument in the five low bits or in the bytes that they announce, and
then what the argument counts. It says nothing about the reader. Nesting and the number of items are
read off the value (`CborValue.height`, `CborValue.items`).

The reader keeps a position and a counter, and looks ahead before it reads a container. `Parses`
describes a reading by what it returns for which bytes and how many items it counts, and readings
are put together by putting descriptions together. **Looking ahead changes nothing**: an element
takes at least one byte, so a container whose declared length is more than what is left cannot be
read to its end (`Parses.length_bind`).

`decode_eq_ok_iff` is then the description of the reader of items (`value`), proved by induction on
the depth that is left, at the whole of the input. The limits of the decoder enter it where they
are: the depth as the induction, the count as the budget that a description carries, and the length
as the bytes that are left. That a value has one reading is a consequence and not an ingredient.
-/

namespace Cordon

/-! ### The grammar -/

namespace CborValue

mutual

/-- How many levels of items there are inside an item. -/
def height : CborValue → ℕ
  | .array items => heightOfItems items
  | .map entries => heightOfEntries entries
  | _ => 0

def heightOfItems : List CborValue → ℕ
  | [] => 0
  | v :: vs => max (v.height + 1) (heightOfItems vs)

def heightOfEntries : List (CborValue × CborValue) → ℕ
  | [] => 0
  | (k, v) :: es => max (max (k.height + 1) (v.height + 1)) (heightOfEntries es)

end

mutual

/-- How many items there are: the item itself and, in a container, every item inside it, keys and
values alike. -/
def items : CborValue → ℕ
  | .array vs => 1 + itemsOfItems vs
  | .map entries => 1 + itemsOfEntries entries
  | _ => 1

def itemsOfItems : List CborValue → ℕ
  | [] => 0
  | v :: vs => v.items + itemsOfItems vs

def itemsOfEntries : List (CborValue × CborValue) → ℕ
  | [] => 0
  | (k, v) :: es => k.items + v.items + itemsOfEntries es

end

theorem items_pos (v : CborValue) : 0 < v.items := by
  cases v with
  | array vs =>
    rw [items]
    omega
  | map entries =>
    rw [items]
    omega
  | _ => exact Nat.one_pos

end CborValue

namespace Cbor

/-- The bytes after an initial byte hold the argument that its low bits announce: none where the low
bits are the argument themselves, or one, two, four or eight. -/
inductive Argument : ℕ → ℕ → Bytes → Prop
  | direct {n : ℕ} : n ≤ 23 → Argument n n []
  | one {bs : Bytes} : bs.length = 1 → Argument 24 (Bytes.ofBe bs) bs
  | two {bs : Bytes} : bs.length = 2 → Argument 25 (Bytes.ofBe bs) bs
  | four {bs : Bytes} : bs.length = 4 → Argument 26 (Bytes.ofBe bs) bs
  | eight {bs : Bytes} : bs.length = 8 → Argument 27 (Bytes.ofBe bs) bs

/-- An initial byte of a major type, and its argument. -/
inductive Head (major n : ℕ) : Bytes → Prop
  | mk {initial : UInt8} {bs : Bytes} : initial.toNat / 32 = major →
      Argument (initial.toNat % 32) n bs → Head major n (initial :: bs)

/-- **The grammar.** -/
inductive Encodes : CborValue → Bytes → Prop
  | unsigned {n : ℕ} {head : Bytes} : Head 0 n head → Encodes (.unsigned n) head
  /-- Down to the least 64-bit integer. -/
  | negative {n : ℕ} {head : Bytes} : Head 1 n head → n < 2 ^ 63 → Encodes (.negative (-1 - n)) head
  | bytes {bs head : Bytes} : Head 2 bs.length head → Encodes (.bytes bs) (head ++ bs)
  | text {s : String} {head : Bytes} : Head 3 (Text.asBytes s).length head →
      Encodes (.text s) (head ++ Text.asBytes s)
  | array {vs : List CborValue} {head : Bytes} {bodies : List Bytes} : Head 4 vs.length head →
      List.Forall₂ Encodes vs bodies → Encodes (.array vs) (head ++ bodies.flatten)
  /-- Keys and values in turn. -/
  | map {entries : List (CborValue × CborValue)} {head : Bytes} {bodies : List Bytes} :
      Head 5 entries.length head →
      List.Forall₂ Encodes (entries.flatMap fun e ↦ [e.1, e.2]) bodies →
      Encodes (.map entries) (head ++ bodies.flatten)
  | false : Encodes (.bool false) [0xF4]
  | true : Encodes (.bool true) [0xF5]
  | null : Encodes .null [0xF6]

/-- An argument of one, two, four or eight bytes. -/
theorem argument_wide_iff {low width n : ℕ} {bs : Bytes}
    (h : (low, width) ∈ [(24, 1), (25, 2), (26, 4), (27, 8)]) :
    Argument low n bs ↔ bs.length = width ∧ n = Bytes.ofBe bs := by
  simp only [List.mem_cons, Prod.mk.injEq, List.not_mem_nil, or_false] at h
  constructor
  · intro hargument
    cases hargument
    · omega
    all_goals
      refine ⟨?_, rfl⟩
      omega
  · rintro ⟨hlength, rfl⟩
    rcases h with ⟨rfl, rfl⟩ | ⟨rfl, rfl⟩ | ⟨rfl, rfl⟩ | ⟨rfl, rfl⟩
    · exact .one hlength
    · exact .two hlength
    · exact .four hlength
    · exact .eight hlength

/-- What follows an initial byte, by its major type. -/
def Follows (initial : UInt8) (v : CborValue) (bs : Bytes) : Prop :=
  match initial.toNat / 32 with
  | 0 => ∃ n, Argument (initial.toNat % 32) n bs ∧ v = .unsigned n
  | 1 => ∃ n : ℕ, Argument (initial.toNat % 32) n bs ∧ n < 2 ^ 63 ∧ v = .negative (-1 - n)
  | 2 => ∃ arg body, Argument (initial.toNat % 32) body.length arg ∧ bs = arg ++ body ∧
      v = .bytes body
  | 3 => ∃ arg s, Argument (initial.toNat % 32) (Text.asBytes s).length arg ∧
      bs = arg ++ Text.asBytes s ∧ v = .text s
  | 4 => ∃ arg vs bodies, Argument (initial.toNat % 32) vs.length arg ∧
      List.Forall₂ Encodes vs bodies ∧ bs = arg ++ bodies.flatten ∧ v = .array vs
  | 5 => ∃ arg entries bodies, Argument (initial.toNat % 32) entries.length arg ∧
      List.Forall₂ Encodes (entries.flatMap fun e ↦ [e.1, e.2]) bodies ∧
      bs = arg ++ bodies.flatten ∧ v = .map entries
  | 7 => bs = [] ∧ (initial.toNat % 32 = 20 ∧ v = .bool false ∨
      initial.toNat % 32 = 21 ∧ v = .bool true ∨ initial.toNat % 32 = 22 ∧ v = .null)
  | _ => False

/-- **The grammar, read from the left.** -/
theorem encodes_cons_iff {v : CborValue} {initial : UInt8} {bs : Bytes} :
    Encodes v (initial :: bs) ↔ Follows initial v bs := by
  constructor
  · intro h
    generalize hw : initial :: bs = w at h
    cases h with
    | unsigned hhead =>
      obtain ⟨hmajor, hargument⟩ := hhead
      obtain ⟨rfl, rfl⟩ := List.cons.inj hw
      simp only [Follows, hmajor]
      exact ⟨_, hargument, rfl⟩
    | negative hhead hn =>
      obtain ⟨hmajor, hargument⟩ := hhead
      obtain ⟨rfl, rfl⟩ := List.cons.inj hw
      simp only [Follows, hmajor]
      exact ⟨_, hargument, hn, rfl⟩
    | bytes hhead =>
      obtain ⟨hmajor, hargument⟩ := hhead
      obtain ⟨rfl, rfl⟩ := List.cons.inj hw
      simp only [Follows, hmajor]
      exact ⟨_, _, hargument, rfl, rfl⟩
    | text hhead =>
      obtain ⟨hmajor, hargument⟩ := hhead
      obtain ⟨rfl, rfl⟩ := List.cons.inj hw
      simp only [Follows, hmajor]
      exact ⟨_, _, hargument, rfl, rfl⟩
    | array hhead hvs =>
      obtain ⟨hmajor, hargument⟩ := hhead
      obtain ⟨rfl, rfl⟩ := List.cons.inj hw
      simp only [Follows, hmajor]
      exact ⟨_, _, _, hargument, hvs, rfl, rfl⟩
    | map hhead hentries =>
      obtain ⟨hmajor, hargument⟩ := hhead
      obtain ⟨rfl, rfl⟩ := List.cons.inj hw
      simp only [Follows, hmajor]
      exact ⟨_, _, _, hargument, hentries, rfl, rfl⟩
    | false =>
      obtain ⟨rfl, rfl⟩ := List.cons.inj hw
      exact ⟨rfl, Or.inl ⟨rfl, rfl⟩⟩
    | true =>
      obtain ⟨rfl, rfl⟩ := List.cons.inj hw
      exact ⟨rfl, Or.inr (Or.inl ⟨rfl, rfl⟩)⟩
    | null =>
      obtain ⟨rfl, rfl⟩ := List.cons.inj hw
      exact ⟨rfl, Or.inr (Or.inr ⟨rfl, rfl⟩)⟩
  · intro h
    rw [Follows] at h
    split at h
    · next hmajor =>
      obtain ⟨n, hargument, rfl⟩ := h
      exact .unsigned ⟨hmajor, hargument⟩
    · next hmajor =>
      obtain ⟨n, hargument, hn, rfl⟩ := h
      exact .negative ⟨hmajor, hargument⟩ hn
    · next hmajor =>
      obtain ⟨arg, body, hargument, rfl, rfl⟩ := h
      exact .bytes (.mk hmajor hargument)
    · next hmajor =>
      obtain ⟨arg, s, hargument, rfl, rfl⟩ := h
      exact .text (.mk hmajor hargument)
    · next hmajor =>
      obtain ⟨arg, vs, bodies, hargument, hvs, rfl, rfl⟩ := h
      exact .array (.mk hmajor hargument) hvs
    · next hmajor =>
      obtain ⟨arg, entries, bodies, hargument, hentries, rfl, rfl⟩ := h
      exact .map (.mk hmajor hargument) hentries
    · next hmajor =>
      have hbyte : ∀ b : UInt8, initial.toNat = b.toNat → initial = b := fun b ↦ UInt8.toNat_inj.1
      obtain ⟨rfl, ⟨hlow, rfl⟩ | ⟨hlow, rfl⟩ | ⟨hlow, rfl⟩⟩ := h
      · obtain rfl := hbyte 0xF4 (by show _ = 244; omega)
        exact .false
      · obtain rfl := hbyte 0xF5 (by show _ = 245; omega)
        exact .true
      · obtain rfl := hbyte 0xF6 (by show _ = 246; omega)
        exact .null
    · exact h.elim

theorem Head.length_pos {major n : ℕ} {head : Bytes} (h : Head major n head) (body : Bytes) :
    0 < (head ++ body).length := by
  cases h
  exact Nat.succ_pos _

/-- An encoding is not empty. -/
theorem Encodes.length_pos {v : CborValue} {bs : Bytes} (h : Encodes v bs) : 0 < bs.length := by
  cases h with
  | unsigned hhead => simpa using hhead.length_pos []
  | negative hhead => simpa using hhead.length_pos []
  | bytes hhead => exact hhead.length_pos _
  | text hhead => exact hhead.length_pos _
  | array hhead => exact hhead.length_pos _
  | map hhead => exact hhead.length_pos _
  | false => exact Nat.succ_pos _
  | true => exact Nat.succ_pos _
  | null => exact Nat.succ_pos _

/-- Items take at least one byte each. -/
theorem length_le_length_flatten {vs : List CborValue} {bodies : List Bytes}
    (h : List.Forall₂ Encodes vs bodies) : vs.length ≤ bodies.flatten.length := by
  induction h with
  | nil => exact Nat.zero_le _
  | cons hfirst _ ih =>
    have hpos := hfirst.length_pos
    rw [List.flatten_cons, List.length_append, List.length_cons]
    omega

/-! ### Numbers and lengths fit 64 bits -/

theorem Argument.lt {low n : ℕ} {bs : Bytes} (h : Argument low n bs) : n < 2 ^ 64 := by
  have hwide : ∀ {bs : Bytes}, bs.length ≤ 8 → Bytes.ofBe bs < 2 ^ 64 := by
    intro bs hlength
    calc Bytes.ofBe bs < 256 ^ bs.length := Bytes.ofBe_lt bs
      _ ≤ 256 ^ 8 := Nat.pow_le_pow_right (by decide) hlength
      _ = 2 ^ 64 := by norm_num
  cases h with
  | direct hn => omega
  | one hlength => exact hwide (by omega)
  | two hlength => exact hwide (by omega)
  | four hlength => exact hwide (by omega)
  | eight hlength => exact hwide (by omega)

theorem Head.lt {major n : ℕ} {head : Bytes} (h : Head major n head) : n < 2 ^ 64 := by
  obtain ⟨-, hargument⟩ := h
  exact hargument.lt

theorem Encodes.unsigned_lt {n : ℕ} {bs : Bytes} (h : Encodes (.unsigned n) bs) : n < 2 ^ 64 := by
  cases h with
  | unsigned hhead => exact hhead.lt

theorem Encodes.length_lt {body bs : Bytes} (h : Encodes (.bytes body) bs) :
    body.length < 2 ^ 64 := by
  cases h with
  | bytes hhead => exact hhead.lt

/-- Every item of a container has an encoding of its own. -/
theorem exists_encodes_of_mem {vs : List CborValue} {bodies : List Bytes}
    (h : List.Forall₂ Encodes vs bodies) {v : CborValue} (hv : v ∈ vs) :
    ∃ body, Encodes v body := by
  induction h with
  | nil => exact absurd hv List.not_mem_nil
  | cons hfirst _ ih =>
    rcases List.mem_cons.1 hv with rfl | hv
    · exact ⟨_, hfirst⟩
    · exact ih hv

theorem Encodes.exists_of_mem_array {vs : List CborValue} {bs : Bytes} (h : Encodes (.array vs) bs)
    {v : CborValue} (hv : v ∈ vs) : ∃ body, Encodes v body := by
  cases h with
  | array _ hvs => exact exists_encodes_of_mem hvs hv

theorem Encodes.exists_of_mem_map {entries : List (CborValue × CborValue)} {bs : Bytes}
    (h : Encodes (.map entries) bs) {e : CborValue × CborValue} (he : e ∈ entries) :
    ∃ body, Encodes e.2 body := by
  cases h with
  | map _ hentries =>
    exact exists_encodes_of_mem hentries (List.mem_flatMap.2 ⟨e, he, by simp⟩)

theorem Encodes.exists_key_of_mem_map {entries : List (CborValue × CborValue)} {bs : Bytes}
    (h : Encodes (.map entries) bs) {e : CborValue × CborValue} (he : e ∈ entries) :
    ∃ body, Encodes e.1 body := by
  cases h with
  | map _ hentries =>
    exact exists_encodes_of_mem hentries (List.mem_flatMap.2 ⟨e, he, by simp⟩)

/-- **A value that is read is the integer `n` in one form only**, whatever the width of its
encoding: it is `n` as an unsigned integer. -/
theorem isInt_iff_of_encodes {v : CborValue} {bs : Bytes} (h : Encodes v bs) {n : ℕ}
    (hn : n < 2 ^ 63) : v.isInt n = true ↔ v = .unsigned n := by
  cases h with
  | unsigned hhead =>
    simp only [CborValue.isInt, Bool.and_eq_true, decide_eq_true_eq, beq_iff_eq, Nat.cast_inj,
      CborValue.unsigned.injEq]
    constructor
    · exact And.right
    · rintro rfl
      exact ⟨hn, rfl⟩
  | @negative m _ hhead hlt =>
    simp only [CborValue.isInt, beq_iff_eq, reduceCtorEq, iff_false]
    omega
  | _ => simp [CborValue.isInt]

/-! ### What is written is in the grammar -/

/-- The five low bits of an initial byte. -/
theorem toNat_low (initial : UInt8) : (initial &&& 0x1F).toNat = initial.toNat % 32 := by
  rw [UInt8.toNat_and]
  exact Nat.and_two_pow_sub_one_eq_mod _ 5

/-- An initial byte is its major type and its low bits. -/
theorem toNat_initial {major low : ℕ} (hmajor : major < 8) (hlow : low < 32) :
    (UInt8.ofNat major <<< 5 ||| UInt8.ofNat low).toNat = 32 * major + low := by
  revert low
  revert major
  decide +kernel

theorem head_writeHeader {major n : ℕ} (hmajor : major < 8) (hn : n < 2 ^ 64) :
    Head major n (writeHeader (UInt8.ofNat major) n) := by
  have hinitial : ∀ low < 32, ∀ bs : Bytes, Argument low n bs →
      Head major n ((UInt8.ofNat major <<< 5 ||| UInt8.ofNat low) :: bs) := by
    intro low hlow bs hargument
    have hbyte := toNat_initial hmajor hlow
    refine .mk ?_ ?_
    · omega
    · rwa [hbyte, Nat.mul_add_mod, Nat.mod_eq_of_lt hlow]
  have hwide : ∀ {low w : ℕ}, n < 256 ^ w → (∀ {bs : Bytes}, bs.length = w →
      Argument low (Bytes.ofBe bs) bs) → Argument low n (Bytes.beBytes w n) := by
    intro low w hfits hargument
    have h := hargument (Bytes.length_beBytes w n)
    rwa [Bytes.ofBe_beBytes, Nat.mod_eq_of_lt hfits] at h
  rw [writeHeader]
  split
  · next h => exact hinitial n (by omega) [] (.direct h)
  split
  · exact hinitial 24 (by decide) _ (hwide (w := 1) (by omega) .one)
  split
  · exact hinitial 25 (by decide) _ (hwide (w := 2) (by omega) .two)
  split
  · exact hinitial 26 (by decide) _ (hwide (w := 4) (by omega) .four)
  · exact hinitial 27 (by decide) _ (hwide (w := 8) (by omega) .eight)

theorem encodes_writeBytes {bs : Bytes} (h : bs.length < 2 ^ 64) :
    Encodes (.bytes bs) (writeBytes bs) :=
  .bytes (head_writeHeader (by decide) h)

theorem encodes_writeText {s : String} (h : (Text.asBytes s).length < 2 ^ 64) :
    Encodes (.text s) (writeText s) :=
  .text (head_writeHeader (by decide) h)

/-! ### Descriptions of readings -/

namespace Reader

/-- The reader is inside its bytes and within its budget. -/
structure InRange (r : Reader) : Prop where
  position : r.position ≤ r.bytes.length
  items : r.items ≤ maxItems

/-- What has not been read. -/
def rest (r : Reader) : Bytes :=
  r.bytes.drop r.position

/-- The reader after some bytes and items. -/
def after (r : Reader) (bs : Bytes) (k : ℕ) : Reader :=
  ⟨r.bytes, r.position + bs.length, r.items + k⟩

variable {r : Reader} {bs more : Bytes} {k : ℕ}

theorem rest_after (h : r.rest = bs ++ more) : (r.after bs k).rest = more := by
  rw [rest, after, ← List.drop_drop]
  show r.rest.drop bs.length = more
  rw [h, List.drop_left]

theorem InRange.after (h : r.InRange) (hbs : bs <+: r.rest) (hk : r.items + k ≤ maxItems) :
    (r.after bs k).InRange := by
  refine ⟨?_, hk⟩
  have hlength := hbs.length_le
  rw [rest, List.length_drop] at hlength
  have hposition := h.position
  show r.position + bs.length ≤ r.bytes.length
  omega

theorem after_after (r : Reader) (bs more : Bytes) (k l : ℕ) :
    (r.after bs k).after more l = r.after (bs ++ more) (k + l) := by
  simp only [after, List.length_append, Nat.add_assoc]

end Reader

/-- **A description of a reading**: `P a bs k` says that it returns `a` for the bytes `bs` and
counts `k` items. From a reader in range it succeeds exactly where such bytes are next and the
budget is enough, and it moves past them. -/
def Parses {α : Type} (read : Read α) (P : α → Bytes → ℕ → Prop) : Prop :=
  ∀ r : Reader, r.InRange → ∀ a r', read.run r = .ok (a, r') ↔
    ∃ bs k, P a bs k ∧ bs <+: r.rest ∧ r.items + k ≤ maxItems ∧ r' = r.after bs k

namespace Parses

variable {α β : Type} {read : Read α} {P Q : α → Bytes → ℕ → Prop}

/-- A description may be put in other words. -/
theorem congr (h : Parses read P) (hPQ : ∀ a bs k, P a bs k ↔ Q a bs k) : Parses read Q := by
  intro r hr a r'
  rw [h r hr a r']
  simp only [hPQ]

theorem pure (a : α) : Parses (Pure.pure a) fun a' bs k ↦ a' = a ∧ bs = [] ∧ k = 0 := by
  intro r hr a' r'
  have hrun : (Pure.pure a : Read α).run r = .ok (a, r) := rfl
  rw [hrun, Except.ok.injEq, Prod.mk.injEq]
  constructor
  · rintro ⟨rfl, rfl⟩
    exact ⟨[], 0, ⟨rfl, rfl, rfl⟩, List.nil_prefix, hr.items, rfl⟩
  · rintro ⟨_, _, ⟨rfl, rfl, rfl⟩, -, -, rfl⟩
    exact ⟨rfl, rfl⟩

theorem refuse (message : String) : Parses (Cbor.refuse message : Read α) fun _ _ _ ↦ False := by
  intro r _ a r'
  have hrun : (Cbor.refuse message : Read α).run r = .error (.attestationFailed message) := rfl
  rw [hrun]
  simp

/-- **One reading after the other.** -/
theorem bind {f : α → Read β} {R : α → β → Bytes → ℕ → Prop} (h : Parses read P)
    (hf : ∀ a, Parses (f a) (R a)) :
    Parses (read >>= f) fun b bs k ↦ ∃ a bs₁ k₁ bs₂ k₂,
      P a bs₁ k₁ ∧ R a b bs₂ k₂ ∧ bs = bs₁ ++ bs₂ ∧ k = k₁ + k₂ := by
  intro r hr b r'
  rw [StateT.run_bind, Except.bind_eq_ok]
  constructor
  · rintro ⟨⟨a, r₁⟩, hread, hrest⟩
    obtain ⟨bs₁, k₁, hP, ⟨more, hmore⟩, hk₁, rfl⟩ := (h r hr a r₁).1 hread
    have hnext := hr.after ⟨more, hmore⟩ hk₁
    obtain ⟨bs₂, k₂, hR, hprefix, hk₂, rfl⟩ := (hf a _ hnext b r').1 hrest
    rw [Reader.rest_after hmore.symm] at hprefix
    refine ⟨bs₁ ++ bs₂, k₁ + k₂, ⟨a, bs₁, k₁, bs₂, k₂, hP, hR, rfl, rfl⟩, ?_, ?_,
      Reader.after_after ..⟩
    · rw [← hmore]
      exact (List.prefix_append_right_inj bs₁).2 hprefix
    · rw [← Nat.add_assoc]
      exact hk₂
  · rintro ⟨_, _, ⟨a, bs₁, k₁, bs₂, k₂, hP, hR, rfl, rfl⟩, ⟨more, hmore⟩, hk, rfl⟩
    rw [List.append_assoc] at hmore
    have hfirst : bs₁ <+: r.rest := ⟨bs₂ ++ more, hmore⟩
    have hk₁ : r.items + k₁ ≤ maxItems := by omega
    refine ⟨(a, r.after bs₁ k₁), (h r hr a _).2 ⟨bs₁, k₁, hP, hfirst, hk₁, rfl⟩, ?_⟩
    refine (hf a _ (hr.after hfirst hk₁) b _).2 ⟨bs₂, k₂, hR, ?_, ?_, (Reader.after_after ..).symm⟩
    · rw [Reader.rest_after hmore.symm]
      exact ⟨more, rfl⟩
    · show r.items + k₁ + k₂ ≤ maxItems
      omega

/-- The next bytes, as many as are asked for. -/
theorem take (count : ℕ) :
    Parses (Cbor.take count) fun a bs k ↦ a = bs ∧ bs.length = count ∧ k = 0 := by
  intro r hr a r'
  have hlength : r.rest.length = r.bytes.length - r.position := List.length_drop
  by_cases hshort : r.rest.length < count
  · have hrun : ∃ e, (Cbor.take count).run r = .error e := by
      rw [hlength] at hshort
      simp only [Cbor.take, StateT.run_bind, StateT.run_get, pure_bind, hshort, if_true]
      exact ⟨_, rfl⟩
    obtain ⟨e, hrun⟩ := hrun
    rw [hrun]
    simp only [reduceCtorEq, false_iff]
    rintro ⟨bs, k, ⟨rfl, rfl, rfl⟩, hprefix, -, -⟩
    have hle := hprefix.length_le
    omega
  · have hrun : (Cbor.take count).run r =
        .ok (r.rest.take count, ⟨r.bytes, r.position + count, r.items⟩) := by
      rw [hlength] at hshort
      simp only [Cbor.take, StateT.run_bind, StateT.run_get, pure_bind, hshort, if_false]
      rfl
    have htake : (r.rest.take count).length = count := by
      rw [List.length_take]
      omega
    rw [hrun, Except.ok.injEq, Prod.mk.injEq]
    constructor
    · rintro ⟨rfl, rfl⟩
      refine ⟨r.rest.take count, 0, ⟨rfl, htake, rfl⟩, List.take_prefix _ _, hr.items, ?_⟩
      rw [Reader.after, htake]
      rfl
    · rintro ⟨bs, k, ⟨rfl, rfl, rfl⟩, hprefix, -, rfl⟩
      exact ⟨(List.prefix_iff_eq_take.1 hprefix).symm, rfl⟩

theorem countItem : Parses Cbor.countItem fun _ bs k ↦ bs = [] ∧ k = 1 := by
  intro r hr a r'
  by_cases hover : maxItems < r.items + 1
  · have hrun : ∃ e, Cbor.countItem.run r = .error e := by
      simp only [Cbor.countItem, StateT.run_bind, StateT.run_get, pure_bind, StateT.run_set, hover,
        if_true]
      exact ⟨_, rfl⟩
    obtain ⟨e, hrun⟩ := hrun
    rw [hrun]
    simp only [reduceCtorEq, false_iff]
    rintro ⟨bs, k, ⟨rfl, rfl⟩, -, hk, -⟩
    omega
  · have hrun : Cbor.countItem.run r = .ok ((), r.after [] 1) := by
      simp only [Cbor.countItem, StateT.run_bind, StateT.run_get, pure_bind, StateT.run_set, hover,
        if_false]
      rfl
    rw [hrun, Except.ok.injEq, Prod.mk.injEq]
    constructor
    · rintro ⟨-, rfl⟩
      exact ⟨[], 1, ⟨rfl, rfl⟩, List.nil_prefix, not_lt.1 hover, rfl⟩
    · rintro ⟨_, _, ⟨rfl, rfl⟩, -, -, rfl⟩
      exact ⟨rfl, rfl⟩

/-- **Looking ahead changes nothing** where what is read is at least as long as was declared. -/
theorem length_bind {declared : ℕ} {unit : String} {f : ℕ → Read α} (h : Parses (f declared) P)
    (hlong : ∀ a bs k, P a bs k → declared ≤ bs.length) :
    Parses (Cbor.length declared unit >>= f) P := by
  intro r hr a r'
  have hlength : r.rest.length = r.bytes.length - r.position := List.length_drop
  by_cases hshort : r.rest.length < declared
  · have hrun : ∃ e, (Cbor.length declared unit >>= f).run r = .error e := by
      rw [hlength] at hshort
      simp only [Cbor.length, StateT.run_bind, StateT.run_get, pure_bind, hshort, if_true]
      exact ⟨_, rfl⟩
    obtain ⟨e, hrun⟩ := hrun
    rw [hrun]
    simp only [reduceCtorEq, false_iff]
    rintro ⟨bs, k, hP, hprefix, -, -⟩
    have hle := hprefix.length_le
    have hdeclared := hlong a bs k hP
    omega
  · have hrun : (Cbor.length declared unit >>= f).run r = (f declared).run r := by
      rw [hlength] at hshort
      simp only [Cbor.length, StateT.run_bind, StateT.run_get, pure_bind, hshort, if_false]
      rfl
    rw [hrun]
    exact h r hr a r'

/-- A result that is computed from what was read. -/
theorem map {f : α → β} (h : Parses read P) :
    Parses (read >>= fun a ↦ Pure.pure (f a)) fun b bs k ↦ ∃ a, P a bs k ∧ b = f a := by
  refine (h.bind fun a ↦ Parses.pure (f a)).congr fun b bs k ↦ ?_
  constructor
  · rintro ⟨a, bs₁, k₁, _, _, hP, ⟨rfl, rfl, rfl⟩, rfl, rfl⟩
    exact ⟨a, by simpa using hP, rfl⟩
  · rintro ⟨a, hP, rfl⟩
    exact ⟨a, bs, k, [], 0, hP, ⟨rfl, rfl, rfl⟩, by simp, by simp⟩

theorem argument (initial : UInt8) :
    Parses (Cbor.argument initial) fun n bs k ↦
      Argument (initial.toNat % 32) n bs ∧ k = 0 := by
  simp only [Cbor.argument, toNat_low]
  generalize initial.toNat % 32 = low
  have hwide : ∀ wide width, (wide, width) ∈ [(24, 1), (25, 2), (26, 4), (27, 8)] → low = wide →
      Parses (Cbor.take width >>= fun bs ↦ Pure.pure (Bytes.ofBe bs))
        fun n bs k ↦ Argument low n bs ∧ k = 0 := by
    rintro wide width hmem rfl
    refine (Parses.take width).map.congr fun n bs k ↦ ?_
    rw [argument_wide_iff hmem]
    constructor
    · rintro ⟨_, ⟨rfl, hlength, rfl⟩, rfl⟩
      exact ⟨⟨hlength, rfl⟩, rfl⟩
    · rintro ⟨⟨hlength, rfl⟩, rfl⟩
      exact ⟨bs, ⟨rfl, hlength, rfl⟩, rfl⟩
  split_ifs with h1 h2 h3 h4 h5 h6
  · refine (Parses.pure low).congr fun n bs k ↦ ?_
    constructor
    · rintro ⟨rfl, rfl, rfl⟩
      exact ⟨.direct h1, rfl⟩
    · rintro ⟨hargument, rfl⟩
      cases hargument
      · exact ⟨rfl, rfl, rfl⟩
      all_goals omega
  · exact hwide 24 1 (by simp) h2
  · exact hwide 25 2 (by simp) h3
  · exact hwide 26 4 (by simp) h4
  · exact hwide 27 8 (by simp) h5
  all_goals
    refine (Parses.refuse _).congr fun n bs k ↦ ⟨False.elim, ?_⟩
    rintro ⟨hargument, -⟩
    cases hargument <;> omega

/-- **A reading that is repeated** is described by what describes a list one element at a time. -/
theorem repeatRead {L : List α → Bytes → ℕ → Prop} (h : Parses read P)
    (hnil : ∀ bs k, L [] bs k ↔ bs = [] ∧ k = 0)
    (hcons : ∀ a l bs k, L (a :: l) bs k ↔
      ∃ bs₁ k₁ bs₂ k₂, P a bs₁ k₁ ∧ L l bs₂ k₂ ∧ bs = bs₁ ++ bs₂ ∧ k = k₁ + k₂) (count : ℕ) :
    Parses (Cbor.repeatRead read count) fun l bs k ↦ l.length = count ∧ L l bs k := by
  induction count with
  | zero =>
    refine (Parses.pure []).congr fun l bs k ↦ ?_
    rw [List.length_eq_zero_iff]
    refine and_congr_right fun hl ↦ ?_
    rw [hl, hnil]
  | succ count ih =>
    refine (h.bind fun first ↦ ih.map).congr fun l bs k ↦ ?_
    constructor
    · rintro ⟨a, bs₁, k₁, bs₂, k₂, hP, ⟨rest, ⟨rfl, hL⟩, rfl⟩, rfl, rfl⟩
      exact ⟨rfl, (hcons ..).2 ⟨bs₁, k₁, bs₂, k₂, hP, hL, rfl, rfl⟩⟩
    · rintro ⟨hlength, hL⟩
      obtain ⟨a, rest, rfl⟩ := List.exists_cons_of_length_eq_add_one hlength
      obtain ⟨bs₁, k₁, bs₂, k₂, hP, hrest, rfl, rfl⟩ := (hcons ..).1 hL
      exact ⟨a, bs₁, k₁, bs₂, k₂, hP, ⟨rest, ⟨Nat.succ_injective hlength, hrest⟩, rfl⟩, rfl, rfl⟩

end Parses

/-! ### Items -/

/-- An item that may hold further levels. -/
def Item (levels : ℕ) (v : CborValue) (bs : Bytes) (k : ℕ) : Prop :=
  Encodes v bs ∧ v.height < levels ∧ k = v.items

/-- The elements of an array. -/
def Elements (levels : ℕ) (vs : List CborValue) (bs : Bytes) (k : ℕ) : Prop :=
  (∃ bodies, List.Forall₂ Encodes vs bodies ∧ bs = bodies.flatten) ∧
    CborValue.heightOfItems vs ≤ levels ∧ k = CborValue.itemsOfItems vs

/-- The entries of a map. -/
def Entries (levels : ℕ) (es : List (CborValue × CborValue)) (bs : Bytes) (k : ℕ) : Prop :=
  (∃ bodies, List.Forall₂ Encodes (es.flatMap fun e ↦ [e.1, e.2]) bodies ∧ bs = bodies.flatten) ∧
    CborValue.heightOfEntries es ≤ levels ∧ k = CborValue.itemsOfEntries es

variable {levels : ℕ}

theorem elements_cons (v : CborValue) (vs : List CborValue) (bs : Bytes) (k : ℕ) :
    Elements levels (v :: vs) bs k ↔ ∃ bs₁ k₁ bs₂ k₂,
      Item levels v bs₁ k₁ ∧ Elements levels vs bs₂ k₂ ∧ bs = bs₁ ++ bs₂ ∧ k = k₁ + k₂ := by
  simp only [Elements, Item, CborValue.heightOfItems, CborValue.itemsOfItems, max_le_iff]
  constructor
  · rintro ⟨⟨bodies, hbodies, rfl⟩, ⟨hv, hvs⟩, rfl⟩
    obtain ⟨body, bodies, hfirst, hrest, rfl⟩ := List.forall₂_cons_left_iff.1 hbodies
    exact ⟨body, _, bodies.flatten, _, ⟨hfirst, hv, rfl⟩, ⟨⟨bodies, hrest, rfl⟩, hvs, rfl⟩, rfl,
      rfl⟩
  · rintro ⟨body, _, _, _, ⟨hfirst, hv, rfl⟩, ⟨⟨bodies, hrest, rfl⟩, hvs, rfl⟩, rfl, rfl⟩
    exact ⟨⟨body :: bodies, .cons hfirst hrest, rfl⟩, ⟨hv, hvs⟩, rfl⟩

theorem entries_cons (e : CborValue × CborValue) (es : List (CborValue × CborValue)) (bs : Bytes)
    (k : ℕ) :
    Entries levels (e :: es) bs k ↔ ∃ bs₁ k₁ bs₂ k₂,
      (∃ bs₃ k₃ bs₄ k₄, Item levels e.1 bs₃ k₃ ∧ Item levels e.2 bs₄ k₄ ∧ bs₁ = bs₃ ++ bs₄ ∧
        k₁ = k₃ + k₄) ∧ Entries levels es bs₂ k₂ ∧ bs = bs₁ ++ bs₂ ∧ k = k₁ + k₂ := by
  obtain ⟨key, v⟩ := e
  simp only [Entries, Item, CborValue.heightOfEntries, CborValue.itemsOfEntries, max_le_iff,
    List.flatMap_cons, List.cons_append, List.nil_append]
  constructor
  · rintro ⟨⟨bodies, hbodies, rfl⟩, ⟨⟨hkey, hv⟩, hes⟩, rfl⟩
    obtain ⟨body, more, hfirst, hmore, rfl⟩ := List.forall₂_cons_left_iff.1 hbodies
    obtain ⟨body', bodies, hsecond, hrest, rfl⟩ := List.forall₂_cons_left_iff.1 hmore
    refine ⟨_, _, bodies.flatten, _, ⟨body, _, body', _, ⟨hfirst, hkey, rfl⟩, ⟨hsecond, hv, rfl⟩,
      rfl, rfl⟩, ⟨⟨bodies, hrest, rfl⟩, hes, rfl⟩, ?_, rfl⟩
    simp
  · rintro ⟨_, _, _, _, ⟨body, _, body', _, ⟨hfirst, hkey, rfl⟩, ⟨hsecond, hv, rfl⟩, rfl, rfl⟩,
      ⟨⟨bodies, hrest, rfl⟩, hes, rfl⟩, rfl, rfl⟩
    refine ⟨⟨body :: body' :: bodies, .cons hfirst (.cons hsecond hrest), ?_⟩,
      ⟨⟨hkey, hv⟩, hes⟩, rfl⟩
    simp

/-- What is left of an item after its initial byte. -/
def Body (levels : ℕ) (initial : UInt8) (v : CborValue) (bs : Bytes) (k : ℕ) : Prop :=
  Follows initial v bs ∧ v.height ≤ levels ∧ k + 1 = v.items

namespace Parses

/-- An argument, and then what it counts. -/
theorem argument_bind {initial : UInt8} {f : ℕ → Read CborValue}
    {R : ℕ → CborValue → Bytes → ℕ → Prop} (hf : ∀ n, Parses (f n) (R n)) :
    Parses (Cbor.argument initial >>= f) fun v bs k ↦ ∃ n arg body,
      Argument (initial.toNat % 32) n arg ∧ R n v body k ∧ bs = arg ++ body := by
  refine ((Parses.argument initial).bind hf).congr fun v bs k ↦ ?_
  constructor
  · rintro ⟨n, arg, _, body, k, ⟨hargument, rfl⟩, hR, rfl, rfl⟩
    exact ⟨n, arg, body, hargument, by rwa [Nat.zero_add], rfl⟩
  · rintro ⟨n, arg, body, hargument, hR, rfl⟩
    exact ⟨n, arg, 0, body, k, ⟨hargument, rfl⟩, hR, rfl, (Nat.zero_add k).symm⟩

theorem array (h : Parses (Cbor.value levels) (Item levels)) (count : ℕ) :
    Parses (Cbor.repeatRead (Cbor.value levels) count) fun vs bs k ↦
      vs.length = count ∧ Elements levels vs bs k := by
  refine h.repeatRead (fun bs k ↦ ?_) elements_cons count
  simp only [Elements, CborValue.heightOfItems, CborValue.itemsOfItems, Nat.zero_le, true_and]
  constructor
  · rintro ⟨⟨bodies, hbodies, rfl⟩, rfl⟩
    obtain rfl := List.forall₂_nil_left_iff.1 hbodies
    exact ⟨rfl, rfl⟩
  · rintro ⟨rfl, rfl⟩
    exact ⟨⟨[], .nil, rfl⟩, rfl⟩

theorem map_entries (h : Parses (Cbor.value levels) (Item levels)) (count : ℕ) :
    Parses (Cbor.repeatRead (do return (← Cbor.value levels, ← Cbor.value levels)) count)
      fun es bs k ↦ es.length = count ∧ Entries levels es bs k := by
  have hentry : Parses (do return (← Cbor.value levels, ← Cbor.value levels) :
      Read (CborValue × CborValue)) fun e bs k ↦ ∃ bs₁ k₁ bs₂ k₂,
        Item levels e.1 bs₁ k₁ ∧ Item levels e.2 bs₂ k₂ ∧ bs = bs₁ ++ bs₂ ∧ k = k₁ + k₂ := by
    refine (h.bind fun key ↦ h.map).congr fun e bs k ↦ ?_
    constructor
    · rintro ⟨key, bs₁, k₁, bs₂, k₂, hkey, ⟨v, hv, rfl⟩, rfl, rfl⟩
      exact ⟨bs₁, k₁, bs₂, k₂, hkey, hv, rfl, rfl⟩
    · rintro ⟨bs₁, k₁, bs₂, k₂, hkey, hv, rfl, rfl⟩
      exact ⟨e.1, bs₁, k₁, bs₂, k₂, hkey, ⟨e.2, hv, rfl⟩, rfl, rfl⟩
  refine hentry.repeatRead (fun bs k ↦ ?_) entries_cons count
  simp only [Entries, CborValue.heightOfEntries, CborValue.itemsOfEntries, Nat.zero_le, true_and]
  constructor
  · rintro ⟨⟨bodies, hbodies, rfl⟩, rfl⟩
    obtain rfl := List.forall₂_nil_left_iff.1 hbodies
    exact ⟨rfl, rfl⟩
  · rintro ⟨rfl, rfl⟩
    exact ⟨⟨[], .nil, rfl⟩, rfl⟩

/-! One lemma for each major type. -/

section Major

variable {initial : UInt8}

theorem unsigned_body (hmajor : initial.toNat / 32 = 0) :
    Parses (do return CborValue.unsigned (← Cbor.argument initial)) (Body levels initial) := by
  refine (Parses.argument initial).map.congr fun v bs k ↦ ?_
  simp only [Body, Follows, hmajor]
  constructor
  · rintro ⟨n, ⟨hargument, rfl⟩, rfl⟩
    exact ⟨⟨n, hargument, rfl⟩, Nat.zero_le _, rfl⟩
  · rintro ⟨⟨n, hargument, rfl⟩, -, hk⟩
    exact ⟨n, ⟨hargument, Nat.succ_injective hk⟩, rfl⟩

theorem negative_body (hmajor : initial.toNat / 32 = 1) (message : String) :
    Parses (do
      let n ← Cbor.argument initial
      if n < 2 ^ 63 then return CborValue.negative (-1 - n) else Cbor.refuse message)
      (Body levels initial) := by
  have hrest : ∀ n : ℕ, Parses
      (if n < 2 ^ 63 then Pure.pure (CborValue.negative (-1 - n)) else Cbor.refuse message)
      fun v bs k ↦ n < 2 ^ 63 ∧ v = .negative (-1 - n) ∧ bs = [] ∧ k = 0 := by
    intro n
    split_ifs with hn
    · exact (Parses.pure _).congr fun v bs k ↦ ⟨fun h ↦ ⟨hn, h⟩, And.right⟩
    · exact (Parses.refuse _).congr fun v bs k ↦ ⟨False.elim, fun h ↦ hn h.1⟩
  refine (Parses.argument_bind hrest).congr fun v bs k ↦ ?_
  simp only [Body, Follows, hmajor]
  constructor
  · rintro ⟨n, arg, _, hargument, ⟨hn, rfl, rfl, rfl⟩, rfl⟩
    exact ⟨⟨n, by rwa [List.append_nil], hn, rfl⟩, Nat.zero_le _, rfl⟩
  · rintro ⟨⟨n, hargument, hn, rfl⟩, -, hk⟩
    exact ⟨n, bs, [], hargument, ⟨hn, rfl, rfl, Nat.succ_injective hk⟩, by simp⟩

theorem bytes_body (hmajor : initial.toNat / 32 = 2) (unit : String) :
    Parses (do
      let len ← Cbor.length (← Cbor.argument initial) unit
      return CborValue.bytes (← Cbor.take len)) (Body levels initial) := by
  have hrest : ∀ n : ℕ, Parses
      (Cbor.length n unit >>= fun len ↦ Cbor.take len >>= fun bs ↦ Pure.pure (CborValue.bytes bs))
      fun v bs k ↦ v = .bytes bs ∧ bs.length = n ∧ k = 0 := by
    intro n
    refine Parses.length_bind ((Parses.take n).map.congr fun v bs k ↦ ?_) fun v bs k h ↦ h.2.1.ge
    constructor
    · rintro ⟨_, ⟨rfl, hlength, rfl⟩, rfl⟩
      exact ⟨rfl, hlength, rfl⟩
    · rintro ⟨rfl, hlength, rfl⟩
      exact ⟨bs, ⟨rfl, hlength, rfl⟩, rfl⟩
  refine (Parses.argument_bind hrest).congr fun v bs k ↦ ?_
  simp only [Body, Follows, hmajor]
  constructor
  · rintro ⟨_, arg, body, hargument, ⟨rfl, rfl, rfl⟩, rfl⟩
    exact ⟨⟨arg, body, hargument, rfl, rfl⟩, Nat.zero_le _, rfl⟩
  · rintro ⟨⟨arg, body, hargument, rfl, rfl⟩, -, hk⟩
    exact ⟨_, arg, body, hargument, ⟨rfl, rfl, Nat.succ_injective hk⟩, rfl⟩

theorem text_body (hmajor : initial.toNat / 32 = 3) (unit message : String) :
    Parses (do
      let len ← Cbor.length (← Cbor.argument initial) unit
      match Utf8.decode (← Cbor.take len) with
      | some text => return CborValue.text (String.ofList text)
      | none => Cbor.refuse message) (Body levels initial) := by
  have hdecode : ∀ raw : Bytes, Parses
      (match Utf8.decode raw with
        | some text => Pure.pure (CborValue.text (String.ofList text))
        | none => Cbor.refuse message)
      fun v bs k ↦ ∃ s, raw = Text.asBytes s ∧ v = .text s ∧ bs = [] ∧ k = 0 := by
    intro raw
    rcases hraw : Utf8.decode raw with - | text
    · refine (Parses.refuse _).congr fun v bs k ↦ ⟨False.elim, ?_⟩
      rintro ⟨s, rfl, -⟩
      rw [Text.asBytes, Utf8.decode_encode] at hraw
      simp at hraw
    · have htext : ∀ s : String, raw = Text.asBytes s ↔ s = String.ofList text := by
        intro s
        rw [Text.asBytes, ← Utf8.decode_eq_some_iff, hraw, Option.some.injEq]
        exact ⟨fun h ↦ by rw [h, String.ofList_toList], fun h ↦ by rw [h, String.toList_ofList]⟩
      refine (Parses.pure _).congr fun v bs k ↦ ?_
      simp only [htext]
      constructor
      · rintro ⟨rfl, rfl, rfl⟩
        exact ⟨_, rfl, rfl, rfl, rfl⟩
      · rintro ⟨_, rfl, rfl, rfl, rfl⟩
        exact ⟨rfl, rfl, rfl⟩
  have hrest : ∀ n : ℕ, Parses
      (Cbor.length n unit >>= fun len ↦ Cbor.take len >>= fun raw ↦
        match Utf8.decode raw with
        | some text => Pure.pure (CborValue.text (String.ofList text))
        | none => Cbor.refuse message)
      fun v bs k ↦ ∃ s, bs = Text.asBytes s ∧ v = .text s ∧ bs.length = n ∧ k = 0 := by
    intro n
    refine Parses.length_bind (((Parses.take n).bind hdecode).congr fun v bs k ↦ ?_) ?_
    · constructor
      · rintro ⟨_, _, _, _, _, ⟨rfl, hlength, rfl⟩, ⟨s, rfl, rfl, rfl, rfl⟩, rfl, rfl⟩
        exact ⟨s, by simp, rfl, by simpa using hlength, rfl⟩
      · rintro ⟨s, rfl, rfl, hlength, rfl⟩
        exact ⟨_, _, 0, [], 0, ⟨rfl, hlength, rfl⟩, ⟨s, rfl, rfl, rfl, rfl⟩, by simp, rfl⟩
    · rintro v bs k ⟨s, -, -, hlength, -⟩
      exact hlength.ge
  refine (Parses.argument_bind hrest).congr fun v bs k ↦ ?_
  simp only [Body, Follows, hmajor]
  constructor
  · rintro ⟨_, arg, _, hargument, ⟨s, rfl, rfl, rfl, rfl⟩, rfl⟩
    exact ⟨⟨arg, s, hargument, rfl, rfl⟩, Nat.zero_le _, rfl⟩
  · rintro ⟨⟨arg, s, hargument, rfl, rfl⟩, -, hk⟩
    exact ⟨_, arg, _, hargument, ⟨s, rfl, rfl, rfl, Nat.succ_injective hk⟩, rfl⟩

theorem array_body (h : Parses (Cbor.value levels) (Item levels)) (hmajor : initial.toNat / 32 = 4)
    (unit : String) :
    Parses (do
      let count ← Cbor.length (← Cbor.argument initial) unit
      return CborValue.array (← Cbor.repeatRead (Cbor.value levels) count))
      (Body levels initial) := by
  have hrest : ∀ n : ℕ, Parses
      (Cbor.length n unit >>= fun count ↦ Cbor.repeatRead (Cbor.value levels) count >>= fun vs ↦
        Pure.pure (CborValue.array vs))
      fun v bs k ↦ ∃ vs, (vs.length = n ∧ Elements levels vs bs k) ∧ v = .array vs := by
    intro n
    refine Parses.length_bind (Parses.array h n).map ?_
    rintro v bs k ⟨vs, ⟨rfl, ⟨bodies, hbodies, rfl⟩, -⟩, -⟩
    exact length_le_length_flatten hbodies
  refine (Parses.argument_bind hrest).congr fun v bs k ↦ ?_
  simp only [Body, Follows, hmajor]
  constructor
  · rintro ⟨_, arg, _, hargument, ⟨vs, ⟨rfl, ⟨bodies, hbodies, rfl⟩, hheight, rfl⟩, rfl⟩, rfl⟩
    refine ⟨⟨arg, vs, bodies, hargument, hbodies, rfl, rfl⟩, hheight, ?_⟩
    rw [CborValue.items, Nat.add_comm]
  · rintro ⟨⟨arg, vs, bodies, hargument, hbodies, rfl, rfl⟩, hheight, hk⟩
    rw [CborValue.items, Nat.add_comm 1] at hk
    exact ⟨_, arg, _, hargument,
      ⟨vs, ⟨rfl, ⟨bodies, hbodies, rfl⟩, hheight, Nat.succ_injective hk⟩, rfl⟩, rfl⟩

theorem map_body (h : Parses (Cbor.value levels) (Item levels)) (hmajor : initial.toNat / 32 = 5)
    (unit : String) :
    Parses (do
      let count ← Cbor.length (← Cbor.argument initial) unit
      return CborValue.map (← Cbor.repeatRead
        (do return (← Cbor.value levels, ← Cbor.value levels)) count)) (Body levels initial) := by
  have hrest : ∀ n : ℕ, Parses
      (Cbor.length n unit >>= fun count ↦ Cbor.repeatRead
        (do return (← Cbor.value levels, ← Cbor.value levels)) count >>= fun es ↦
          Pure.pure (CborValue.map es))
      fun v bs k ↦ ∃ es, (es.length = n ∧ Entries levels es bs k) ∧ v = .map es := by
    intro n
    refine Parses.length_bind (Parses.map_entries h n).map ?_
    rintro v bs k ⟨es, ⟨rfl, ⟨bodies, hbodies, rfl⟩, -⟩, -⟩
    have hle := length_le_length_flatten hbodies
    rw [List.length_flatMap] at hle
    simp only [List.length_cons, List.length_nil, List.map_const', List.sum_replicate_nat] at hle
    omega
  refine (Parses.argument_bind hrest).congr fun v bs k ↦ ?_
  simp only [Body, Follows, hmajor]
  constructor
  · rintro ⟨_, arg, _, hargument, ⟨es, ⟨rfl, ⟨bodies, hbodies, rfl⟩, hheight, rfl⟩, rfl⟩, rfl⟩
    refine ⟨⟨arg, es, bodies, hargument, hbodies, rfl, rfl⟩, hheight, ?_⟩
    rw [CborValue.items, Nat.add_comm]
  · rintro ⟨⟨arg, es, bodies, hargument, hbodies, rfl, rfl⟩, hheight, hk⟩
    rw [CborValue.items, Nat.add_comm 1] at hk
    exact ⟨_, arg, _, hargument,
      ⟨es, ⟨rfl, ⟨bodies, hbodies, rfl⟩, hheight, Nat.succ_injective hk⟩, rfl⟩, rfl⟩

theorem simple_body (hmajor : initial.toNat / 32 = 7) (undefined other : String) :
    Parses (
      if (initial &&& 0x1F).toNat = 20 then Pure.pure (CborValue.bool false)
      else if (initial &&& 0x1F).toNat = 21 then Pure.pure (CborValue.bool true)
      else if (initial &&& 0x1F).toNat = 22 then Pure.pure CborValue.null
      else if (initial &&& 0x1F).toNat = 23 then Cbor.refuse undefined
      else Cbor.refuse other) (Body levels initial) := by
  have hone : ∀ v : CborValue, v.height = 0 → v.items = 1 →
      (∀ w bs, Follows initial w bs ↔ bs = [] ∧ w = v) →
      Parses (Pure.pure v) (Body levels initial) := by
    intro v hheight hitems hfollows
    refine (Parses.pure v).congr fun w bs k ↦ ?_
    rw [Body, hfollows]
    constructor
    · rintro ⟨rfl, rfl, rfl⟩
      exact ⟨⟨rfl, rfl⟩, by omega, by omega⟩
    · rintro ⟨⟨rfl, rfl⟩, -, hk⟩
      exact ⟨rfl, rfl, by omega⟩
  have hnone : (¬initial.toNat % 32 = 20 ∧ ¬initial.toNat % 32 = 21 ∧ ¬initial.toNat % 32 = 22) →
      ∀ message, Parses (Cbor.refuse message) (Body levels initial) := by
    intro hlow message
    refine (Parses.refuse message).congr fun w bs k ↦ ⟨False.elim, ?_⟩
    simp only [Body, Follows, hmajor]
    rintro ⟨⟨-, h | h | h⟩, -⟩
    all_goals omega
  simp only [toNat_low]
  split_ifs with h1 h2 h3 h4
  · exact hone _ rfl rfl fun w bs ↦ by simp [Follows, hmajor, h1]
  · exact hone _ rfl rfl fun w bs ↦ by simp [Follows, hmajor, h2]
  · exact hone _ rfl rfl fun w bs ↦ by simp [Follows, hmajor, h3]
  · exact hnone ⟨h1, h2, h3⟩ _
  · exact hnone ⟨h1, h2, h3⟩ _

end Major

/-- **The reader reads items.** -/
theorem value (levels : ℕ) : Parses (Cbor.value levels) (Item levels) := by
  induction levels with
  | zero =>
    refine (Parses.refuse _).congr fun v bs k ↦ ⟨False.elim, ?_⟩
    rintro ⟨-, hheight, -⟩
    exact absurd hheight (Nat.not_lt_zero _)
  | succ levels ih =>
    rw [Cbor.value]
    refine (Parses.countItem.bind fun _ ↦
      (Parses.take 1).bind (R := fun one ↦ Body levels (one.headD 0)) fun one ↦ ?_).congr ?_
    · generalize one.headD 0 = initial
      have hmajor : (initial >>> 5).toNat = initial.toNat / 32 := by
        rw [UInt8.toNat_shiftRight]
        exact Nat.shiftRight_eq_div_pow _ 5
      have hbyte : initial.toNat < 256 := initial.toNat_lt
      simp only [hmajor]
      split
      · next h => exact unsigned_body h
      · next h => exact negative_body h _
      · next h => exact bytes_body h _
      · next h => exact text_body h _ _
      · next h => exact array_body ih h _
      · next h => exact map_body ih h _
      · next h =>
        refine (Parses.refuse _).congr fun v bs k ↦ ⟨False.elim, ?_⟩
        simp only [Body, Follows, h]
        exact fun hfalse ↦ hfalse.1
      · next h0 h1 h2 h3 h4 h5 h6 =>
        simp only [imp_false] at h0 h1 h2 h3 h4 h5 h6
        have h : initial.toNat / 32 = 7 := by omega
        exact simple_body h _ _
    · intro v bs k
      constructor
      · rintro ⟨-, _, _, _, _, ⟨rfl, rfl⟩, ⟨one, _, _, rest, k, ⟨rfl, hone, rfl⟩, hbody, rfl, rfl⟩,
          rfl, rfl⟩
        obtain ⟨initial, rfl⟩ := List.length_eq_one_iff.1 hone
        obtain ⟨hfollows, hheight, hitems⟩ := hbody
        exact ⟨encodes_cons_iff.2 hfollows, Nat.lt_succ_of_le hheight, by omega⟩
      · rintro ⟨hencodes, hheight, rfl⟩
        rcases bs with - | ⟨initial, rest⟩
        · exact absurd hencodes.length_pos (Nat.lt_irrefl 0)
        have hitems := v.items_pos
        exact ⟨(), [], 1, initial :: rest, v.items - 1, ⟨rfl, rfl⟩, ⟨[initial], [initial], 0, rest,
          v.items - 1, ⟨rfl, rfl, rfl⟩, ⟨encodes_cons_iff.1 hencodes, Nat.le_of_lt_succ hheight,
            by omega⟩, rfl, by omega⟩, rfl, by omega⟩

end Parses

/-! ### Documents -/

/-- The whole of some bytes is read exactly where it is an encoding within the limits. -/
theorem decode_iff_encodes {bytes : Bytes} {v : CborValue} :
    decode bytes = .ok v ↔ Encodes v bytes ∧ v.height ≤ maxDepth ∧ v.items ≤ maxItems := by
  have hstart : (⟨bytes, 0, 0⟩ : Reader).InRange := ⟨Nat.zero_le _, Nat.zero_le _⟩
  have hrest : (⟨bytes, 0, 0⟩ : Reader).rest = bytes := List.drop_zero
  have hvalue := Parses.value (maxDepth + 1) ⟨bytes, 0, 0⟩ hstart v
  simp only [hrest] at hvalue
  rw [decode, Except.bind_eq_ok]
  constructor
  · rintro ⟨⟨w, r⟩, hrun, hend⟩
    simp only at hend
    split at hend
    · simp [throw, throwThe, MonadExceptOf.throw] at hend
    · next hposition =>
      obtain rfl : w = v := Except.ok.inj hend
      obtain ⟨bs, k, ⟨hencodes, hheight, rfl⟩, hprefix, hk, rfl⟩ := (hvalue r).1 hrun
      -- the bytes that were read are all of them
      obtain rfl : bs = bytes := by
        refine hprefix.eq_of_length ?_
        simpa [Reader.after] using hposition
      exact ⟨hencodes, Nat.le_of_lt_succ hheight, by simpa using hk⟩
  · rintro ⟨hencodes, hheight, hitems⟩
    refine ⟨(v, _), (hvalue _).2 ⟨bytes, v.items, ⟨hencodes, Nat.lt_succ_of_le hheight, rfl⟩,
      List.prefix_rfl, by simpa using hitems, rfl⟩, ?_⟩
    simp [Reader.after]

/-- **The decoder accepts exactly its grammar.** It returns a value for the encodings of that value
that nest at most sixteen deep and hold at most 4096 items, and for no other bytes. On the way, from
any reader inside its bytes and at any level, it stays inside them, and bytes that are taken are
taken from them. -/
theorem decode_eq_ok_iff (bytes : Bytes) (v : CborValue) :
    (decode bytes = .ok v ↔ Encodes v bytes ∧ v.height ≤ maxDepth ∧ v.items ≤ maxItems) ∧
      ∀ r : Reader, r.bytes = bytes → r.InRange →
        (∀ levels w r', (value levels).run r = .ok (w, r') →
          r'.bytes = bytes ∧ r'.InRange ∧ r.position ≤ r'.position) ∧
        (∀ count taken r', (take count).run r = .ok (taken, r') →
          r'.bytes = bytes ∧ r'.InRange ∧ r'.position = r.position + count ∧
            taken = (bytes.drop r.position).take count ∧ taken.length = count) := by
  refine ⟨decode_iff_encodes, ?_⟩
  rintro r rfl hr
  constructor
  · intro levels w r' hrun
    obtain ⟨bs, k, -, hprefix, hk, rfl⟩ := (Parses.value levels r hr w r').1 hrun
    exact ⟨rfl, hr.after hprefix hk, Nat.le_add_right _ _⟩
  · intro count taken r' hrun
    obtain ⟨bs, k, ⟨rfl, rfl, rfl⟩, hprefix, hk, rfl⟩ := (Parses.take count r hr taken r').1 hrun
    exact ⟨rfl, hr.after hprefix hk, rfl, List.prefix_iff_eq_take.1 hprefix, rfl⟩

/-- An array of a number and `false`, read from the start to its last byte. -/
theorem decode_eq_ok_iff_array :
    Encodes (.array [.unsigned 1, .bool false]) [0x82, 0x01, 0xF4] ∧
      (⟨[0x82, 0x01, 0xF4], 3, 3⟩ : Reader).InRange ∧
      ([0x82, 0x01] : Bytes).length = 2 := by
  have hstart : (⟨[0x82, 0x01, 0xF4], 0, 0⟩ : Reader).InRange := ⟨Nat.zero_le _, Nat.zero_le _⟩
  obtain ⟨hvalue, htake⟩ := (decode_eq_ok_iff [0x82, 0x01, 0xF4] .null).2 _ rfl hstart
  refine ⟨((decode_eq_ok_iff _ _).1.1 rfl).1, ?_, ?_⟩
  · exact (hvalue 17 (.array [.unsigned 1, .bool false]) _ rfl).2.1
  · exact (htake 2 _ _ rfl).2.2.2.2

end Cbor

end Cordon
