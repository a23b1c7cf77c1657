import Mathlib.Algebra.Group.Nat.Defs
import NullWeave.Code.Bytes

/-!
# Reading numbers back

Bytes that were written with the least significant one first are read back as
the number they were written for, if it was small enough for their count.
-/

namespace NullWeave

/-- The number that bytes stand for, the least significant one first. -/
def unsignedOf : List UInt8 → Nat
  | [] => 0
  | byte :: rest => byte.toNat + 256 * unsignedOf rest

/-- The signed number that bytes stand for: the upper half of the range is negative. -/
def signedOf (bytes : List UInt8) : Int :=
  if 2 * unsignedOf bytes < 256 ^ bytes.length then
    unsignedOf bytes
  else
    unsignedOf bytes - (256 ^ bytes.length : Nat)

theorem unsignedOf_littleEndian (count value : Nat) :
    unsignedOf (littleEndian count value) = value % 256 ^ count := by
  induction count generalizing value with
  | zero =>
      rw [Nat.pow_zero, Nat.mod_one]
      rfl
  | succ count inductionHypothesis =>
      rw [littleEndian, unsignedOf, inductionHypothesis, Nat.pow_succ',
        Nat.mod_mul, UInt8.toNat_ofNat']

/-- A signed number in the range of its bytes is read back. -/
theorem signedOf_signedLittleEndian
    {count : Nat} {value : Int}
    (atLeast : -(256 ^ count : Nat) ≤ 2 * value)
    (below : 2 * value < (256 ^ count : Nat)) :
    signedOf (signedLittleEndian count value) = value := by
  have positive : 0 < 256 ^ count := Nat.pow_pos (by decide)
  have written :
      unsignedOf (signedLittleEndian count value) =
        (value % (256 ^ count : Nat)).toNat := by
    rw [signedLittleEndian, unsignedOf_littleEndian, Nat.mod_eq_of_lt]
    · rfl
    · show (value % (256 ^ count : Nat)).toNat < 256 ^ count
      have bound := Int.emod_lt_of_pos value (Int.natCast_pos.mpr positive)
      omega
  rw [signedOf, written, length_signedLittleEndian]
  rcases Int.lt_or_le value 0 with negative | nonnegative
  · have wrapped : value % (256 ^ count : Nat) = value + (256 ^ count : Nat) := by
      rw [← Int.add_emod_right, Int.emod_eq_of_lt] <;> omega
    rw [wrapped, if_neg] <;> omega
  · have kept : value % (256 ^ count : Nat) = value :=
      Int.emod_eq_of_lt nonnegative (by omega)
    rw [kept, if_pos] <;> omega

end NullWeave
