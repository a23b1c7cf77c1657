import NullWeave.Weave.Error

/-!
# Errors as values

The command line shows an error as a value: the cause with its parts, strings
between quotes.  A cause with named parts has them in braces.
-/

namespace NullWeave

/-- A cause with one part that has no name. -/
def shownWith (cause part : String) : String := cause ++ "(" ++ part ++ ")"

/-- A cause with named parts. -/
def shownWithParts (cause : String) (parts : List (String × String)) : String :=
  cause ++ " \x7b " ++ ", ".intercalate (parts.map fun (name, part) => name ++ ": " ++ part) ++
    " \x7d"

/-- An error of code as a value. -/
def CodeError.shown : CodeError → String
  | .io reason => shownWith "IoError" reason
  | .unknownInstruction instruction => shownWith "UnknownInstruction" instruction.text
  | .stackUnderflow instruction depth pops =>
      shownWithParts "StackUnderflow"
        [("instruction", instruction.text), ("depth", toString depth), ("pops", toString pops)]
  | .inconsistentStackDepth instruction expected found =>
      shownWithParts "InconsistentStackDepth"
        [("instruction", instruction.text), ("expected", toString expected),
          ("found", toString found)]
  | .badReturnDepth instruction depth =>
      shownWithParts "BadReturnDepth"
        [("instruction", instruction.text), ("depth", toString depth)]
  | .fallsOffEnd => "FallsOffEnd"
  | .branchOutOfRange instruction displacement =>
      shownWithParts "BranchOutOfRange"
        [("instruction", instruction.text), ("displacement", toString displacement)]
  | .maxStackOverflow depth => shownWith "MaxStackOverflow" (toString depth)
  | .tokenOverflow table => shownWithParts "TokenOverflow" [("table", toString table.toNat)]
  | .missingMember name => shownWith "MissingMember" (visible name)

/-- An error of a text as a value. -/
def TextError.shown (error : TextError) : String :=
  shownWithParts "ParseError"
    [("line", toString error.line), ("message", visible error.fault.message)]

/-- An error of weaving as a value. -/
def WeaveError.shown : WeaveError → String
  | .code error => shownWith "Il" error.shown
  | .text error => shownWith "Parse" error.shown
  | .invalidFlags written => shownWith "InvalidFlags" (visible written)
  | .inMethod method cause =>
      shownWithParts "ProcessingMethod" [("method", visible method), ("source", cause.shown)]

end NullWeave
