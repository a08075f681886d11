import Cordon.Lib.Text

/-!
# Constant-time comparison

`ct_eq` folds the differences of all bytes together instead of stopping at the first, and is plain
equality all the same.

The source compares digests and nonces with it; how long a comparison takes is not modelled.
-/

namespace Cordon

/-- `ct_eq`: constant-time comparison of two byte strings. -/
def ctEq (a b : Bytes) : Bool :=
  if a.length ≠ b.length then false
  else (a.zip b).foldl (fun diff xy ↦ diff ||| (xy.1 ^^^ xy.2)) 0 == 0

/-- The accumulated difference vanishes exactly when every difference does. -/
theorem foldl_or_xor_eq_zero {a b : Bytes} (hlen : a.length = b.length) (diff : UInt8) :
    (a.zip b).foldl (fun diff xy ↦ diff ||| (xy.1 ^^^ xy.2)) diff = 0 ↔ diff = 0 ∧ a = b := by
  induction a generalizing b diff with
  | nil =>
    obtain rfl := List.eq_nil_of_length_eq_zero hlen.symm
    simp
  | cons x a ih =>
    rcases b with - | ⟨y, b⟩
    · simp at hlen
    · rw [List.zip_cons_cons, List.foldl_cons, ih (by simpa using hlen)]
      rw [UInt8.or_eq_zero_iff, UInt8.xor_eq_zero_iff, List.cons.injEq]
      exact and_assoc

/-- **Constant-time comparison decides equality.** -/
theorem ctEq_iff {a b : Bytes} : ctEq a b = true ↔ a = b := by
  rw [ctEq]
  split
  · next hlen => simpa using fun heq ↦ hlen (congrArg List.length heq)
  · next hlen =>
    rw [beq_iff_eq, foldl_or_xor_eq_zero (not_not.1 hlen)]
    simp

/-- Two texts compare equal in constant time when they are equal. -/
theorem ctEq_asBytes_iff {a b : String} :
    ctEq (Text.asBytes a) (Text.asBytes b) = true ↔ a = b :=
  ctEq_iff.trans ⟨fun h ↦ Text.asBytes_injective h, congrArg Text.asBytes⟩

end Cordon
