import NullWeave.Code.Instruction

/-!
# What can be wrong with code

One constructor for each cause, and one function for the wording.
-/

namespace NullWeave

/-- The two-digit lowercase hexadecimal form of a byte. -/
def hexByte (byte : UInt8) : String :=
  String.ofList [Nat.digitChar (byte.toNat / 16), Nat.digitChar (byte.toNat % 16)]

/-- Why code could not be checked, encoded or woven. -/
inductive CodeError where
  /-- Reading or writing failed, for the reason that the system gave. -/
  | io (reason : String)
  /-- An operand, an exception handler or a sequence point names no instruction of the body. -/
  | unknownInstruction (instruction : InstrId)
  /-- An instruction takes more values than the stack holds. -/
  | stackUnderflow (instruction : InstrId) (depth pops : Nat)
  /-- Two paths reach an instruction with different depths. -/
  | inconsistentStackDepth (instruction : InstrId) (expected found : Nat)
  /-- A method returns with something else on the stack than its result. -/
  | badReturnDepth (instruction : InstrId) (depth : Nat)
  /-- Control reaches the end of the body. -/
  | fallsOffEnd
  /-- The form of a branch is too narrow for its displacement. -/
  | branchOutOfRange (instruction : InstrId) (displacement : Int)
  /-- The stack grows deeper than the encoding can say. -/
  | maxStackOverflow (depth : Nat)
  /-- A table of tokens has no free row. -/
  | tokenOverflow (table : UInt8)
  /-- A member that weaving needs is missing. -/
  | missingMember (name : String)
deriving DecidableEq, Inhabited

/-- The wording of an error. -/
def CodeError.message : CodeError → String
  | .io reason => "I/O error: " ++ reason
  | .unknownInstruction instruction => "unknown instruction " ++ instruction.text
  | .stackUnderflow instruction depth pops =>
      "stack underflow at " ++ instruction.text ++ ": depth is " ++ toString depth ++ " but " ++
        toString pops ++ " values are popped"
  | .inconsistentStackDepth instruction expected found =>
      "inconsistent stack depth at " ++ instruction.text ++ ": " ++ toString expected ++
        " versus " ++ toString found
  | .badReturnDepth instruction depth =>
      "return at " ++ instruction.text ++ " with stack depth " ++ toString depth
  | .fallsOffEnd => "control falls off the end of the method body"
  | .branchOutOfRange instruction displacement =>
      "branch at " ++ instruction.text ++ " cannot encode displacement " ++ toString displacement
  | .maxStackOverflow depth => "stack depth " ++ toString depth ++ " is too large"
  | .tokenOverflow table => "token table 0x" ++ hexByte table ++ " is full"
  | .missingMember name => "missing member '" ++ name ++ "'"

end NullWeave
