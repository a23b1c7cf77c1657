import NullWeave.Text.Visible

/-!
# Lexemes

The words of a line of the textual form.
-/

namespace NullWeave

/-- A word of a line. -/
inductive Lexeme where
  /-- A name: keywords, directives, mnemonics and names of types are all names. -/
  | name (text : String)
  | str (text : String)
  | int (value : Int)
  | mark (c : Char)
  | doubleColon
deriving DecidableEq, Inhabited

/-- How a lexeme is shown; a number is shown in decimal, a string between quotes. -/
def Lexeme.text : Lexeme → String
  | .name text => text
  | .str text => visible text
  | .int value => toString value
  | .mark c => String.singleton c
  | .doubleColon => "::"

end NullWeave
