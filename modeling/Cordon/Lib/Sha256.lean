import Cordon.Lib.Text

/-!
# SHA-256

The hash function itself, as FIPS 180-4 states it, on byte lists. It is executable and every loop in
it is structural, so the kernel can evaluate a digest; nothing but its output length is ever proved
from the definition.

Collision freedom is deliberately **not** a global law. A function onto 32-byte strings cannot be
injective, so an assumption of that shape would be false and everything would follow from it. What a
security argument may assume is `CollisionFreeOn S`: no two *distinct* strings of the set `S` that
the argument actually hashes share a digest.

A result over such a set is as strong as one over a hash without collisions wherever the hash has
none, and it can be applied to samples: the set is finite there, and its digests are computed.
-/

namespace Sha256

/-- The round constants. -/
def roundConstants : List UInt32 := [
  0x428a2f98, 0x71374491, 0xb5c0fbcf, 0xe9b5dba5, 0x3956c25b, 0x59f111f1, 0x923f82a4, 0xab1c5ed5,
  0xd807aa98, 0x12835b01, 0x243185be, 0x550c7dc3, 0x72be5d74, 0x80deb1fe, 0x9bdc06a7, 0xc19bf174,
  0xe49b69c1, 0xefbe4786, 0x0fc19dc6, 0x240ca1cc, 0x2de92c6f, 0x4a7484aa, 0x5cb0a9dc, 0x76f988da,
  0x983e5152, 0xa831c66d, 0xb00327c8, 0xbf597fc7, 0xc6e00bf3, 0xd5a79147, 0x06ca6351, 0x14292967,
  0x27b70a85, 0x2e1b2138, 0x4d2c6dfc, 0x53380d13, 0x650a7354, 0x766a0abb, 0x81c2c92e, 0x92722c85,
  0xa2bfe8a1, 0xa81a664b, 0xc24b8b70, 0xc76c51a3, 0xd192e819, 0xd6990624, 0xf40e3585, 0x106aa070,
  0x19a4c116, 0x1e376c08, 0x2748774c, 0x34b0bcb5, 0x391c0cb3, 0x4ed8aa4a, 0x5b9cca4f, 0x682e6ff3,
  0x748f82ee, 0x78a5636f, 0x84c87814, 0x8cc70208, 0x90befffa, 0xa4506ceb, 0xbef9a3f7, 0xc67178f2]

/-- The eight working variables. -/
structure Working where
  a : UInt32
  b : UInt32
  c : UInt32
  d : UInt32
  e : UInt32
  f : UInt32
  g : UInt32
  h : UInt32

/-- The initial hash value. -/
def initial : Working :=
  ⟨0x6a09e667, 0xbb67ae85, 0x3c6ef372, 0xa54ff53a, 0x510e527f, 0x9b05688c, 0x1f83d9ab, 0x5be0cd19⟩

/-- Rotation to the right. -/
def rotr (x n : UInt32) : UInt32 :=
  (x >>> n) ||| (x <<< (32 - n))

/-- One round, from a round constant and a schedule word. -/
def round (s : Working) (kw : UInt32 × UInt32) : Working :=
  let s1 := rotr s.e 6 ^^^ rotr s.e 11 ^^^ rotr s.e 25
  let ch := (s.e &&& s.f) ^^^ (~~~ s.e &&& s.g)
  let t1 := s.h + s1 + ch + kw.1 + kw.2
  let s0 := rotr s.a 2 ^^^ rotr s.a 13 ^^^ rotr s.a 22
  let maj := (s.a &&& s.b) ^^^ (s.a &&& s.c) ^^^ (s.b &&& s.c)
  ⟨t1 + (s0 + maj), s.a, s.b, s.c, s.d + t1, s.e, s.f, s.g⟩

/-- Extend the message schedule by `n` words; the schedule is kept newest first. -/
def extend : ℕ → List UInt32 → List UInt32
  | 0, w => w
  | n + 1, w =>
    let w15 := w.getD 14 0
    let w2 := w.getD 1 0
    let s0 := rotr w15 7 ^^^ rotr w15 18 ^^^ (w15 >>> 3)
    let s1 := rotr w2 17 ^^^ rotr w2 19 ^^^ (w2 >>> 10)
    extend n ((w.getD 15 0 + s0 + w.getD 6 0 + s1) :: w)

/-- The big-endian words of a block. -/
def words : Bytes → List UInt32
  | a :: b :: c :: d :: rest => UInt32.ofNat (Bytes.ofBe [a, b, c, d]) :: words rest
  | _ => []

/-- The compression function on one 64-byte block. -/
def compress (s : Working) (block : Bytes) : Working :=
  let schedule := (extend 48 (words block).reverse).reverse
  let t := (roundConstants.zip schedule).foldl round s
  ⟨s.a + t.a, s.b + t.b, s.c + t.c, s.d + t.d, s.e + t.e, s.f + t.f, s.g + t.g, s.h + t.h⟩

/-- The padded message: a one bit, zeroes up to a whole number of blocks, and the bit length. -/
def pad (m : Bytes) : Bytes :=
  m ++ 0x80 :: List.replicate ((119 - m.length % 64) % 64) 0 ++ Bytes.beBytes 8 (m.length * 8)

/-- Fold the compression function over `n` blocks. -/
def compressBlocks : ℕ → Bytes → Working → Working
  | 0, _, s => s
  | n + 1, m, s => compressBlocks n (m.drop 64) (compress s (m.take 64))

/-- The digest held by a final set of working variables. -/
def output (s : Working) : Bytes :=
  [s.a, s.b, s.c, s.d, s.e, s.f, s.g, s.h].flatMap fun w ↦ Bytes.beBytes 4 w.toNat

/-- The SHA-256 digest of a message. -/
def digest (m : Bytes) : Bytes :=
  output (compressBlocks ((pad m).length / 64) (pad m) initial)

/-- A digest is 32 bytes long. -/
@[simp]
theorem length_digest (m : Bytes) : (digest m).length = 32 := by
  simp [digest, output]

example : Text.hexChars (digest (Text.asBytes "abc")) =
    "ba7816bf8f01cfea414140de5dae2223b00361a396177a9cb410ff61f20015ad".toList := by
  decide +kernel

attribute [irreducible] digest

/-- The digest in lower-case hexadecimal. -/
def digestHex (m : Bytes) : String :=
  Text.hexEncode (digest m)

@[simp]
theorem length_asBytes_digestHex (m : Bytes) : (Text.asBytes (digestHex m)).length = 64 := by
  rw [digestHex, Text.length_asBytes_hexEncode, length_digest]

/-- No two distinct strings of `S` share a digest: what an argument that hashes only strings of `S`
may assume of the function. -/
def CollisionFreeOn (S : Set Bytes) : Prop :=
  ∀ x ∈ S, ∀ y ∈ S, digest x = digest y → x = y

/-- A string does not collide with itself. -/
theorem collisionFreeOn_pair_self (x : Bytes) : CollisionFreeOn {x, x} := by
  rintro a (rfl | rfl) b (rfl | rfl) -
  all_goals rfl

theorem CollisionFreeOn.eq_of_digestHex {S : Set Bytes} (hS : CollisionFreeOn S) {x y : Bytes}
    (hx : x ∈ S) (hy : y ∈ S) (h : digestHex x = digestHex y) : x = y :=
  hS x hx y hy (Text.hexEncode_injective h)

end Sha256
