import Cordon.Lib.Text

/-!
# Hexadecimal numbers and how they are spelled

A text of hexadecimal digits denotes a number, in either case. Of the texts of one length that
denote one number a single one is in lower case, and that is the one `Text.hexChars` writes
(`hexChars_eq_iff`): comparing a digest **as text** with what is written compares the numbers only
if the other side is in lower case too.

The reader of `Lib.Text` and the numbers here are one matter: a text of an even number of digits is
read as the bytes that denote its number (`exists_bytes`). Nothing is said about texts of different
length, where leading zeros would have to be compared.
-/

namespace HexNumber

open Text

/-- The number a text of hexadecimal digits denotes. -/
def value (cs : List Char) : ℕ :=
  cs.foldl (fun n c ↦ n * 16 + (hexValue c).getD 0) 0

/-- No letter is in upper case. -/
def IsLower (cs : List Char) : Prop :=
  cs.map Char.toLower = cs

instance (cs : List Char) : Decidable (IsLower cs) :=
  inferInstanceAs (Decidable (_ = _))

/-- Byte strings of one length that denote the same number are the same. -/
theorem ofBe_inj_of_length {as bs : Bytes} (hlength : as.length = bs.length)
    (h : Bytes.ofBe as = Bytes.ofBe bs) : as = bs := by
  rw [← Bytes.beBytes_ofBe as, ← Bytes.beBytes_ofBe bs, hlength, h]

/-- A text of an even number of digits is the spelling of a byte string, which denotes the same
number. -/
theorem exists_bytes {cs : List Char} {n : ℕ} (hdigits : ∀ c ∈ cs, (hexValue c).isSome)
    (hlength : cs.length = 2 * n) :
    ∃ bs, hexDecodeChars cs = some bs ∧ bs.length = n ∧
      ∀ start, cs.foldl (fun n c ↦ n * 16 + (hexValue c).getD 0) start =
        bs.foldl (fun acc b ↦ acc * 256 + b.toNat) start := by
  induction cs using hexDecodeChars.induct generalizing n with
  | case1 =>
    obtain rfl : n = 0 := by simpa using hlength.symm
    exact ⟨[], rfl, rfl, fun _ ↦ rfl⟩
  | case2 c =>
    rw [List.length_singleton] at hlength
    omega
  | case3 c d cs ih =>
    rw [List.length_cons, List.length_cons] at hlength
    obtain ⟨m, rfl⟩ : ∃ m, n = m + 1 := ⟨n - 1, by omega⟩
    have hshort : cs.length = 2 * m := by omega
    obtain ⟨hi, hhi⟩ := Option.isSome_iff_exists.1 (hdigits c (by simp))
    obtain ⟨lo, hlo⟩ := Option.isSome_iff_exists.1 (hdigits d (by simp))
    obtain ⟨bs, hbs, hcount, hvalue⟩ := ih (fun e he ↦ hdigits e (by simp [he])) hshort
    have hhi16 := (hexValue_eq_some_iff.1 hhi).1
    have hlo16 := (hexValue_eq_some_iff.1 hlo).1
    have hbyte : (UInt8.ofNat (hi * 16 + lo)).toNat = hi * 16 + lo :=
      UInt8.toNat_ofNat_of_lt' (by show hi * 16 + lo < 256; omega)
    refine ⟨UInt8.ofNat (hi * 16 + lo) :: bs, ?_, by rw [List.length_cons, hcount], fun start ↦ ?_⟩
    · rw [hexDecodeChars, hhi, hlo, hbs]
      rfl
    · rw [List.foldl_cons, List.foldl_cons, List.foldl_cons, hhi, hlo, hbyte, hvalue]
      show bs.foldl _ ((start * 16 + hi) * 16 + lo) = _
      rw [show (start * 16 + hi) * 16 + lo = start * 256 + (hi * 16 + lo) by ring]

section Spelling

variable {cs : List Char} {bs : Bytes} (hdigits : ∀ c ∈ cs, (hexValue c).isSome)
  (hlength : cs.length = 2 * bs.length)
include hdigits hlength

/-- Denoting the number of a byte string is being its spelling, up to the case of the letters. -/
theorem value_eq_ofBe_iff : value cs = Bytes.ofBe bs ↔ cs.map Char.toLower = hexChars bs := by
  obtain ⟨bs', hdecode, hcount, hvalue⟩ := exists_bytes hdigits hlength
  rw [← hexDecodeChars_eq_some_iff, hdecode, Option.some.injEq, value, hvalue 0]
  exact ⟨ofBe_inj_of_length hcount, congrArg Bytes.ofBe⟩

/-- **The spelling that is written** is the one in lower case. -/
theorem hexChars_eq_iff : hexChars bs = cs ↔ value cs = Bytes.ofBe bs ∧ IsLower cs := by
  rw [value_eq_ofBe_iff hdigits hlength, IsLower]
  constructor
  · rintro rfl
    have hlower : (hexChars bs).map Char.toLower = hexChars bs :=
      hexDecodeChars_eq_some_iff.1 (hexDecodeChars_hexChars bs)
    exact ⟨hlower, hlower⟩
  · rintro ⟨hspelled, hlower⟩
    exact hspelled.symm.trans hlower

end Spelling

end HexNumber
