/-!
# Integer literals

An integer is written in decimal, or in hexadecimal after `0x`, with a minus
sign in front of a negative one.  The magnitude has a limit, the same for both
signs.
-/

namespace NullWeave

/-- The value of a digit of a base, in either case. -/
def digitValue? (base : Nat) (c : Char) : Option Nat :=
  let value? : Option Nat :=
    if c.isDigit then some (c.toNat - '0'.toNat)
    else if 'a' ≤ c ∧ c ≤ 'z' then some (c.toNat - 'a'.toNat + 10)
    else if 'A' ≤ c ∧ c ≤ 'Z' then some (c.toNat - 'A'.toNat + 10)
    else none
  value?.filter (· < base)

/-- The number that digits of a base say; there has to be one digit at least. -/
def readDigits? (base : Nat) (digits : List Char) : Option Nat :=
  if digits.isEmpty then none
  else digits.foldlM (fun value c => (digitValue? base c).map (value * base + ·)) 0

/-- The number that digits say, with `0x` in front of hexadecimal ones. -/
def readMagnitude? : List Char → Option Nat
  | '0' :: 'x' :: digits => readDigits? 16 digits
  | '0' :: 'X' :: digits => readDigits? 16 digits
  | digits => readDigits? 10 digits

/-- The greatest number that an integer literal can say. -/
def maxInteger : Nat := 0x7FFFFFFFFFFFFFFF

/-- The number that an integer literal says; its magnitude has a limit, its sign does not. -/
def readInteger? : List Char → Option Int
  | '-' :: digits => ((readMagnitude? digits).filter (· ≤ maxInteger)).map fun value => -(value : Int)
  | digits => ((readMagnitude? digits).filter (· ≤ maxInteger)).map fun value => (value : Int)

end NullWeave
