/-!
# Bytes of numbers

Operands are written with the least significant byte first.  A signed number is
written as the number below a power of 256 that differs from it by a multiple
of that power.
-/

namespace NullWeave

/-- The lowest bytes of a number, least significant first. -/
def littleEndian : Nat → Nat → List UInt8
  | 0, _ => []
  | count + 1, value => UInt8.ofNat value :: littleEndian count (value / 256)

/-- The bytes of a signed number, least significant first. -/
def signedLittleEndian (count : Nat) (value : Int) : List UInt8 :=
  littleEndian count (value % (Nat.pow 256 count : Nat)).toNat

@[simp]
theorem length_littleEndian (count value : Nat) : (littleEndian count value).length = count := by
  induction count generalizing value with
  | zero => rfl
  | succ count ih => simp [littleEndian, ih]

@[simp]
theorem length_signedLittleEndian (count : Nat) (value : Int) :
    (signedLittleEndian count value).length = count := by
  simp [signedLittleEndian]

end NullWeave
