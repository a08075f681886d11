import Cordon.Lib.Bytes

/-!
# Base64

The standard alphabet, with padding. Three bytes are four digits of six bits; one or two bytes at
the end are two or three digits, padded to four characters. Reading is strict: the padding has to be
there, and the bits of the last digit that stand for no byte have to be zero. Writing is read back
(`decode_encode`).

The proof is by three bytes at a time and rests on one digit being read back (`value_digit`) and on
no digit being the padding (`digit_ne_pad`). That reading is strict plays no part in it; it is what
keeps a text from having a second spelling.
-/

namespace Base64

/-- The digit of a value below sixty-four. -/
def digit (n : ℕ) : Char :=
  if n < 26 then Char.ofNat (65 + n)
  else if n < 52 then Char.ofNat (71 + n)
  else if n < 62 then Char.ofNat (n - 4)
  else if n = 62 then '+'
  else '/'

/-- The value of a digit. -/
def value (c : Char) : Option ℕ :=
  let v := c.toNat
  if 65 ≤ v ∧ v ≤ 90 then some (v - 65)
  else if 97 ≤ v ∧ v ≤ 122 then some (v - 71)
  else if 48 ≤ v ∧ v ≤ 57 then some (v + 4)
  else if v = 43 then some 62
  else if v = 47 then some 63
  else none

/-- The characters of a byte string. -/
def chars : Bytes → List Char
  | [] => []
  | [a] => [digit (a.toNat / 4), digit (a.toNat % 4 * 16), '=', '=']
  | [a, b] => [digit (a.toNat / 4), digit (a.toNat % 4 * 16 + b.toNat / 16),
      digit (b.toNat % 16 * 4), '=']
  | a :: b :: c :: rest =>
    digit (a.toNat / 4) :: digit (a.toNat % 4 * 16 + b.toNat / 16) ::
      digit (b.toNat % 16 * 4 + c.toNat / 64) :: digit (c.toNat % 64) :: chars rest

/-- The last group: one byte, two bytes, or three. -/
def decodeLast (w x : ℕ) (y z : Char) : Option Bytes :=
  if z = '=' then
    if y = '=' then if x % 16 = 0 then some [UInt8.ofNat (w * 4 + x / 16)] else none
    else do
      let y ← value y
      if y % 4 = 0 then
        some [UInt8.ofNat (w * 4 + x / 16), UInt8.ofNat (x % 16 * 16 + y / 4)]
      else none
  else do
    let y ← value y
    let z ← value z
    return [UInt8.ofNat (w * 4 + x / 16), UInt8.ofNat (x % 16 * 16 + y / 4),
      UInt8.ofNat (y % 4 * 64 + z)]

/-- Read groups of four characters. -/
def decodeChars : List Char → Option Bytes
  | [] => some []
  | [w, x, y, z] => do decodeLast (← value w) (← value x) y z
  | w :: x :: y :: z :: rest => do
    let w ← value w
    let x ← value x
    let y ← value y
    let z ← value z
    let bs ← decodeChars rest
    return UInt8.ofNat (w * 4 + x / 16) :: UInt8.ofNat (x % 16 * 16 + y / 4) ::
      UInt8.ofNat (y % 4 * 64 + z) :: bs
  | _ => none

/-- A byte string in Base64. -/
def encode (bs : Bytes) : String :=
  String.ofList (chars bs)

/-- The byte string a Base64 text denotes. -/
def decode (s : String) : Option Bytes :=
  decodeChars s.toList

theorem value_digit {n : ℕ} (hn : n < 64) : value (digit n) = some n := by
  revert n
  decide

theorem digit_ne_pad {n : ℕ} (hn : n < 64) : digit n ≠ '=' := by
  revert n
  decide

/-- A byte is cut into digits and put together again. -/
theorem ofNat_eq {b : UInt8} {n : ℕ} (h : n = b.toNat) : UInt8.ofNat n = b := by
  rw [h, UInt8.ofNat_toNat]

theorem decodeChars_chars (bs : Bytes) : decodeChars (chars bs) = some bs := by
  induction bs using chars.induct with
  | case1 => rfl
  | case2 a =>
    have ha : a.toNat < 256 := a.toNat_lt
    have hpad : a.toNat % 4 * 16 % 16 = 0 := by omega
    simp only [chars, decodeChars, value_digit (show a.toNat / 4 < 64 by omega),
      value_digit (show a.toNat % 4 * 16 < 64 by omega), Option.bind_eq_bind, Option.bind_some,
      decodeLast, if_true, hpad]
    rw [ofNat_eq (show a.toNat / 4 * 4 + a.toNat % 4 * 16 / 16 = a.toNat by omega)]
  | case3 a b =>
    have ha : a.toNat < 256 := a.toNat_lt
    have hb : b.toNat < 256 := b.toNat_lt
    have hpad : b.toNat % 16 * 4 % 4 = 0 := by omega
    simp only [chars, decodeChars, value_digit (show a.toNat / 4 < 64 by omega),
      value_digit (show a.toNat % 4 * 16 + b.toNat / 16 < 64 by omega),
      value_digit (show b.toNat % 16 * 4 < 64 by omega), Option.bind_eq_bind, Option.bind_some,
      decodeLast, if_true, digit_ne_pad (show b.toNat % 16 * 4 < 64 by omega), if_false, hpad]
    rw [ofNat_eq (show a.toNat / 4 * 4 + (a.toNat % 4 * 16 + b.toNat / 16) / 16 = a.toNat by omega),
      ofNat_eq (show (a.toNat % 4 * 16 + b.toNat / 16) % 16 * 16 + b.toNat % 16 * 4 / 4 = b.toNat
        by omega)]
  | case4 a b c rest ih =>
    have ha : a.toNat < 256 := a.toNat_lt
    have hb : b.toNat < 256 := b.toNat_lt
    have hc : c.toNat < 256 := c.toNat_lt
    have hx : a.toNat % 4 * 16 + b.toNat / 16 < 64 := by omega
    have hy : b.toNat % 16 * 4 + c.toNat / 64 < 64 := by omega
    have hz : c.toNat % 64 < 64 := by omega
    have hfirst : UInt8.ofNat (a.toNat / 4 * 4 + (a.toNat % 4 * 16 + b.toNat / 16) / 16) = a :=
      ofNat_eq (by omega)
    have hsecond : UInt8.ofNat ((a.toNat % 4 * 16 + b.toNat / 16) % 16 * 16 +
        (b.toNat % 16 * 4 + c.toNat / 64) / 4) = b := ofNat_eq (by omega)
    have hthird : UInt8.ofNat ((b.toNat % 16 * 4 + c.toNat / 64) % 4 * 64 + c.toNat % 64) = c :=
      ofNat_eq (by omega)
    rcases hrest : chars rest with - | ⟨d, cs⟩
    · -- the group is the last one
      obtain rfl : rest = [] := by
        rw [hrest] at ih
        exact (Option.some.inj ih).symm
      simp only [chars, decodeChars, value_digit (show a.toNat / 4 < 64 by omega), value_digit hx,
        Option.bind_eq_bind, Option.bind_some, decodeLast, if_neg (digit_ne_pad hz),
        value_digit hy, value_digit hz, hfirst, hsecond, hthird]
      rfl
    · rw [hrest] at ih
      simp only [chars, hrest, decodeChars, value_digit (show a.toNat / 4 < 64 by omega),
        value_digit hx, value_digit hy, value_digit hz, ih, Option.bind_eq_bind, Option.bind_some,
        hfirst, hsecond, hthird]
      rfl

/-- **Reading undoes writing.** -/
@[simp]
theorem decode_encode (bs : Bytes) : decode (encode bs) = some bs := by
  rw [decode, encode, String.toList_ofList, decodeChars_chars]

example : encode [0x63, 0x6f, 0x72, 0x64] = "Y29yZA==" := by decide

end Base64
