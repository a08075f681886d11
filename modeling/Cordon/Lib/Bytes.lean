import Mathlib.Data.List.Basic
import Mathlib.Data.List.Induction
import Mathlib.Data.Nat.Digits.Defs
import Mathlib.Tactic.Ring

/-!
# Byte strings, fixed-width integers and length-prefixed fields

The byte-level vocabulary that wire formats and hash preimages are written in. Byte strings are
lists, so a concatenation of fields is `++` and every parsing argument is an argument about
prefixes.

Two facts carry every unambiguity proof built on this file:

* `beBytes_inj`: a fixed-width big-endian field determines its value, as long as the value fits;
* `blob_append_inj`: a 32-bit length prefix makes a field **self-delimiting**, so a concatenation
  of such fields splits in one way only. The hypothesis is that the length fits the prefix, because
  the writer truncates the length silently otherwise.

`slice` is an index range as it is written in code: outside the bytes it has no value.

`ofBe` reads back what `beBytes` wrote, so that readers and writers of one format are compared
through numbers. Widths are natural numbers, and every lemma that needs a value to fit says so.
-/

/-- A byte string. -/
abbrev Bytes := List UInt8

namespace Bytes

/-! ### Big-endian and little-endian integers -/

/-- The `w` low-order bytes of `n`, most significant first. -/
def beBytes : ℕ → ℕ → Bytes
  | 0, _ => []
  | w + 1, n => beBytes w (n / 256) ++ [UInt8.ofNat n]

/-- The integer a byte string denotes, most significant byte first. -/
def ofBe (bs : Bytes) : ℕ :=
  bs.foldl (fun acc b ↦ acc * 256 + b.toNat) 0

/-- The `w` low-order bytes of `n`, least significant first. -/
def leBytes (w n : ℕ) : Bytes :=
  (beBytes w n).reverse

/-- The integer a byte string denotes, least significant byte first. -/
def ofLe (bs : Bytes) : ℕ :=
  ofBe bs.reverse

@[simp]
theorem length_beBytes (w n : ℕ) : (beBytes w n).length = w := by
  induction w generalizing n with
  | zero => rfl
  | succ w ih => simp [beBytes, ih]

@[simp] theorem ofBe_nil : ofBe [] = 0 := rfl

theorem ofBe_append_singleton (bs : Bytes) (b : UInt8) :
    ofBe (bs ++ [b]) = ofBe bs * 256 + b.toNat := by
  simp [ofBe, List.foldl_append]

/-- A byte string denotes less than its width allows. -/
theorem ofBe_lt (bs : Bytes) : ofBe bs < 256 ^ bs.length := by
  induction bs using List.reverseRecOn with
  | nil => exact Nat.one_pos
  | append_singleton bs b ih =>
    have hb : b.toNat < 256 := b.toNat_lt
    rw [ofBe_append_singleton, List.length_append, List.length_singleton, pow_succ]
    omega

/-- Reading back a fixed-width field yields the value modulo its width. -/
theorem ofBe_beBytes (w n : ℕ) : ofBe (beBytes w n) = n % 256 ^ w := by
  induction w generalizing n with
  | zero => simp [beBytes, Nat.mod_one]
  | succ w ih =>
    rw [beBytes, ofBe_append_singleton, ih]
    have hlow : (UInt8.ofNat n).toNat = n % 256 := by simp
    rw [hlow, pow_succ, mul_comm (256 ^ w) 256, Nat.mod_mul]
    ring

/-- **A field determines its value** when the value fits the width. -/
theorem beBytes_inj {w m n : ℕ} (hm : m < 256 ^ w) (hn : n < 256 ^ w)
    (h : beBytes w m = beBytes w n) : m = n := by
  have h' := congrArg ofBe h
  rwa [ofBe_beBytes, ofBe_beBytes, Nat.mod_eq_of_lt hm, Nat.mod_eq_of_lt hn] at h'

/-- The first bytes of a number are its high digits. -/
theorem ofBe_append (as bs : Bytes) : ofBe (as ++ bs) = ofBe as * 256 ^ bs.length + ofBe bs := by
  induction bs using List.reverseRecOn with
  | nil => simp
  | append_singleton bs b ih =>
    rw [← List.append_assoc, ofBe_append_singleton, ih, ofBe_append_singleton, List.length_append,
      List.length_singleton, pow_succ]
    ring

/-- Zero is spelt with zeroes. -/
theorem ofBe_eq_zero_iff {bs : Bytes} : ofBe bs = 0 ↔ ∀ b ∈ bs, b = 0 := by
  induction bs using List.reverseRecOn with
  | nil => simp
  | append_singleton bs b ih =>
    have hb : b.toNat = 0 ↔ b = 0 := UInt8.toNat_inj (b := 0)
    rw [ofBe_append_singleton, Nat.add_eq_zero_iff, Nat.mul_eq_zero, ih, hb]
    simp [or_imp, forall_and]

/-- **A byte string is the spelling of its number** in as many bytes. -/
theorem beBytes_ofBe (bs : Bytes) : beBytes bs.length (ofBe bs) = bs := by
  induction bs using List.reverseRecOn with
  | nil => rfl
  | append_singleton bs b ih =>
    have hb : b.toNat < 256 := b.toNat_lt
    have hhigh : (ofBe bs * 256 + b.toNat) / 256 = ofBe bs := by omega
    have hlow : UInt8.ofNat (ofBe bs * 256 + b.toNat) = b := by
      rw [← UInt8.toNat_inj, UInt8.toNat_ofNat']
      omega
    rw [ofBe_append_singleton, List.length_append, List.length_singleton, beBytes, hhigh, hlow, ih]

@[simp]
theorem length_leBytes (w n : ℕ) : (leBytes w n).length = w := by
  rw [leBytes, List.length_reverse, length_beBytes]

theorem ofLe_lt (bs : Bytes) : ofLe bs < 256 ^ bs.length := by
  have hlt := ofBe_lt bs.reverse
  rwa [List.length_reverse] at hlt

/-- Reading back a fixed-width field yields the value modulo its width. -/
theorem ofLe_leBytes (w n : ℕ) : ofLe (leBytes w n) = n % 256 ^ w := by
  rw [ofLe, leBytes, List.reverse_reverse, ofBe_beBytes]

theorem leBytes_inj {w m n : ℕ} (hm : m < 256 ^ w) (hn : n < 256 ^ w)
    (h : leBytes w m = leBytes w n) : m = n :=
  beBytes_inj hm hn (List.reverse_injective h)

/-! ### Length-prefixed fields -/

/-- A byte string behind its length as a 32-bit big-endian integer. The length is truncated to 32
bits, as a cast of a longer length would be. -/
def blob (bs : Bytes) : Bytes :=
  beBytes 4 bs.length ++ bs

@[simp]
theorem length_blob (bs : Bytes) : (blob bs).length = 4 + bs.length := by
  simp [blob]

/-- **A length-prefixed field is self-delimiting**: the field and what follows it are both
determined by the concatenation. -/
theorem blob_append_inj {a b x y : Bytes} (ha : a.length < 2 ^ 32) (hb : b.length < 2 ^ 32)
    (h : blob a ++ x = blob b ++ y) : a = b ∧ x = y := by
  simp only [blob, List.append_assoc] at h
  obtain ⟨hlen, hrest⟩ := List.append_inj h (by simp)
  have hab : a.length = b.length := beBytes_inj (by norm_num at ha ⊢; omega)
    (by norm_num at hb ⊢; omega) hlen
  exact List.append_inj hrest hab

/-- The length prefix of a last field is determined with it. -/
theorem blob_inj {a b : Bytes} (ha : a.length < 2 ^ 32) (hb : b.length < 2 ^ 32)
    (h : blob a = blob b) : a = b :=
  (blob_append_inj (x := []) (y := []) ha hb (by simpa using h)).1

/-! ### Splitting concatenations of equally long fields -/

/-- Two concatenations whose first and last fields have equal lengths agree field by field: the
middle field needs no delimiter of its own. -/
theorem append_append_inj {a b c a' b' c' : Bytes} (ha : a.length = a'.length)
    (hc : c.length = c'.length) (h : a ++ b ++ c = a' ++ b' ++ c') :
    a = a' ∧ b = b' ∧ c = c' := by
  obtain ⟨hab, hcc⟩ := List.append_inj' h hc
  obtain ⟨haa, hbb⟩ := List.append_inj hab ha
  exact ⟨haa, hbb, hcc⟩

/-! ### Slices -/

/-- The bytes from `start` on and before `stop`. A slice that does not lie inside the bytes is a
panic, which is `none`. -/
def slice (bs : Bytes) (start stop : ℕ) : Option Bytes :=
  if start ≤ stop ∧ stop ≤ bs.length then some ((bs.drop start).take (stop - start)) else none

theorem slice_eq_some_iff {bs s : Bytes} {start stop : ℕ} :
    slice bs start stop = some s ↔
      start ≤ stop ∧ stop ≤ bs.length ∧ (bs.drop start).take (stop - start) = s := by
  rw [slice, Option.ite_none_right_eq_some, Option.some.injEq, and_assoc]

/-- A slice of a known length. -/
theorem slice_of_le {bs : Bytes} {start len : ℕ} (h : start + len ≤ bs.length) :
    slice bs start (start + len) = some ((bs.drop start).take len) :=
  slice_eq_some_iff.2 ⟨Nat.le_add_right _ _, h, by rw [Nat.add_sub_cancel_left]⟩

/-- A slice of a concatenation that is one of its parts. -/
theorem slice_append (a b c : Bytes) :
    slice (a ++ (b ++ c)) a.length (a.length + b.length) = some b := by
  have hfits : a.length + b.length ≤ (a ++ (b ++ c)).length := by
    rw [List.length_append, List.length_append]
    omega
  rw [slice_of_le hfits, List.drop_left, List.take_left]

theorem slice_front (a b : Bytes) : slice (a ++ b) 0 a.length = some a := by
  rw [slice_eq_some_iff]
  exact ⟨Nat.zero_le _, by rw [List.length_append]; omega, List.take_left⟩

theorem slice_back (a b : Bytes) : slice (a ++ b) a.length (a ++ b).length = some b := by
  rw [slice_eq_some_iff, List.drop_left, List.length_append, Nat.add_sub_cancel_left]
  exact ⟨Nat.le_add_right _ _, le_refl _, List.take_length⟩

/-! ### Blocks of one width -/

/-- The `k`-th block of `width` bytes. -/
def block (width k : ℕ) (bs : Bytes) : Bytes :=
  (bs.drop (width * k)).take width

/-- In a concatenation of fields of one width, the block at a field's position is the field. -/
theorem block_flatMap {α : Type} [DecidableEq α] {f : α → Bytes} {width : ℕ}
    {l : List α} (hf : ∀ a ∈ l, (f a).length = width) {a : α} (ha : a ∈ l) :
    block width (l.idxOf a) (l.flatMap f) = f a := by
  induction l with
  | nil => simp at ha
  | cons b l ih =>
    have hlen : (f b).length = width := hf b List.mem_cons_self
    by_cases hb : b = a
    · subst hb
      rw [List.idxOf_cons_self, List.flatMap_cons, block, Nat.mul_zero, List.drop_zero,
        List.take_left' hlen]
    · have hmem : a ∈ l := (List.mem_cons.1 ha).resolve_left fun h ↦ hb h.symm
      have hskip : width * (l.idxOf a).succ = (f b).length + width * l.idxOf a := by
        rw [hlen, Nat.mul_succ, Nat.add_comm]
      rw [List.idxOf_cons_ne l hb, List.flatMap_cons, block, hskip, List.drop_length_add_append]
      exact ih (fun c hc ↦ hf c (List.mem_cons_of_mem b hc)) hmem

end Bytes
