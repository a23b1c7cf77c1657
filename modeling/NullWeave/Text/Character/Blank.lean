import NullWeave.Text.Character.Range

/-!
# Blank characters

The characters with the property `White_Space`.
-/

namespace NullWeave

/-- The code points of blank characters. -/
def blankRanges : List (Nat × Nat) :=
  [(0x9, 0xD), (0x20, 0x20), (0x85, 0x85), (0xA0, 0xA0), (0x1680, 0x1680), (0x2000, 0x200A),
    (0x2028, 0x2029), (0x202F, 0x202F), (0x205F, 0x205F), (0x3000, 0x3000)]

/-- Is a character blank? -/
def isBlank (c : Char) : Bool := inRanges blankRanges c.toNat

example : (blankRanges.map fun (low, high) => high + 1 - low).foldl (· + ·) 0 = 25 := by
  decide

end NullWeave
