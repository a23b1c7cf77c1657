import NullWeave.Text.Character.Blank
import NullWeave.Text.Character.Numeral
import NullWeave.Text.Fault
import NullWeave.Text.Integer

/-!
# Words of a line

A line is cut into lexemes from left to right.  Blanks separate them, and two
slashes begin a comment that runs to the end of the line.  A name goes on as
long as its characters do, but stops before a comment.
-/

namespace NullWeave

/-! ## Classes of characters -/

/-- The marks that are lexemes of their own. -/
def marks : List Char := ['(', ')', '[', ']', '<', '>', ',', ':', '|', '&', '=']

/-- Can a name begin with the character? -/
def beginsName (c : Char) : Bool :=
  isLetter c || c ∈ ['_', '.', '!', '$', '@']

/-- Can a name go on with the character? -/
def continuesName (c : Char) : Bool :=
  isWordChar c || c ∈ ['_', '.', '!', '$', '@', '`', '/', '-']

/-- Do characters begin with a comment? -/
def beginsComment : List Char → Bool
  | '/' :: '/' :: _ => true
  | _ => false

/-- Is the first of some characters a decimal digit? -/
def beginsWithDigit : List Char → Bool
  | c :: _ => c.isDigit
  | [] => false

/-! ## Pieces of a line -/

/-- The characters that a name goes on with, and what follows them. -/
def spanName : List Char → List Char × List Char
  | [] => ([], [])
  | c :: rest =>
      if continuesName c && !beginsComment (c :: rest) then
        let (name, after) := spanName rest
        (c :: name, after)
      else
        ([], c :: rest)

/-- The ASCII letters and digits at the front, and what follows them. -/
def spanAlphanum (chars : List Char) : List Char × List Char :=
  (chars.takeWhile (·.isAlphanum), chars.dropWhile (·.isAlphanum))

/-! ## Lexemes -/

/-- Cut characters into lexemes; `fuel` bounds the number of steps. -/
def lexWithin : Nat → List Char → Except TextFault (List Lexeme)
  | 0, _ => .ok []
  | _ + 1, [] => .ok []
  | fuel + 1, c :: rest =>
      if isBlank c then
        lexWithin fuel rest
      else if beginsComment (c :: rest) then
        .ok []
      else if c = ':' ∧ rest.head? = some ':' then
        (Lexeme.doubleColon :: ·) <$> lexWithin fuel rest.tail
      else if c = '"' then
        match Quoted.readTail rest with
        | .error fault => .error (.badString fault)
        | .ok (text, after) => (Lexeme.str (String.ofList text) :: ·) <$> lexWithin fuel after
      else if c.isDigit || (c == '-' && beginsWithDigit rest) then
        let (tail, after) := spanAlphanum rest
        match readInteger? (c :: tail) with
        | none => .error (.invalidInteger (String.ofList (c :: tail)))
        | some value => (Lexeme.int value :: ·) <$> lexWithin fuel after
      else if beginsName c then
        let (tail, after) := spanName rest
        (Lexeme.name (String.ofList (c :: tail)) :: ·) <$> lexWithin fuel after
      else if c ∈ marks then
        (Lexeme.mark c :: ·) <$> lexWithin fuel rest
      else
        .error (.unexpectedCharacter c)

/-- The lexemes of a line. -/
def lexLine (line : List Char) : Except TextFault (List Lexeme) :=
  lexWithin line.length line

/-! ## Lines -/

/--
Cut characters at line feeds, each taken with a carriage return before it.

What follows the last line feed is a line only if it has characters.
-/
def splitLines : List Char → List (List Char)
  | [] => []
  | '\r' :: '\n' :: rest => [] :: splitLines rest
  | '\n' :: rest => [] :: splitLines rest
  | c :: rest =>
      match splitLines rest with
      | [] => [[c]]
      | line :: lines => (c :: line) :: lines

/-- A line with the number it has in its text. -/
structure NumberedLine where
  number : Nat
  lexemes : List Lexeme
deriving DecidableEq, Inhabited

/-- The lexemes of lines that are numbered from a first number; lines without any are left out. -/
def lexLinesFrom (number : Nat) : List (List Char) → Except TextError (List NumberedLine)
  | [] => .ok []
  | line :: rest =>
      match lexLine line with
      | .error fault => .error ⟨number, fault⟩
      | .ok lexemes =>
          match lexLinesFrom (number + 1) rest with
          | .error error => .error error
          | .ok lines => .ok (if lexemes.isEmpty then lines else ⟨number, lexemes⟩ :: lines)

/-- The lines of a text that hold lexemes. -/
def lexText (text : String) : Except TextError (List NumberedLine) :=
  lexLinesFrom 1 (splitLines text.toList)

end NullWeave
