import NullWeave.Text.Declaration

/-!
# Reading one line

A reader takes lexemes from the front of a line and leaves the rest.  Readers
that may go on for a number of lexemes are bounded by the number of lexemes
that are there, which no run of them reaches.
-/

namespace NullWeave

/-- Takes lexemes from the front of a line, or fails. -/
abbrev LineReader := StateT (List Lexeme) (Except TextFault)

namespace LineReader

/-! ## Single lexemes -/

/-- The lexemes that are left. -/
def remaining : LineReader (List Lexeme) := get

/-- Take the next lexeme, if there is one. -/
def next? : LineReader (Option Lexeme) := do
  match ← get with
  | [] => pure none
  | lexeme :: rest =>
      set rest
      pure (some lexeme)

/-- Nothing may be left. -/
def done : LineReader Unit := do
  match ← get with
  | [] => pure ()
  | found :: _ => throw (.unexpected found)

/-- Take a mark if it comes next. -/
def optionalMark (c : Char) : LineReader Bool := do
  match ← get with
  | .mark found :: rest =>
      if found = c then
        set rest
        pure true
      else
        pure false
  | _ => pure false

/-- Take a mark that has to come next. -/
def requireMark (c : Char) : LineReader Unit := do
  match ← next? with
  | some found => if found = .mark c then pure () else throw (.expectedMarkFound c found)
  | none => throw (.expectedMark c)

/-- Take a word if it comes next. -/
def optionalWord (word : String) : LineReader Bool := do
  match ← get with
  | .name found :: rest =>
      if found = word then
        set rest
        pure true
      else
        pure false
  | _ => pure false

/-- Take a word that has to come next. -/
def requireWord (word : String) : LineReader Unit := do
  if ← optionalWord word then pure () else throw (.expectedKeyword word)

/-- Take a name. -/
def requireName : LineReader String := do
  match ← next? with
  | some (.name name) => pure name
  | some found => throw (.expectedNameFound found)
  | none => throw .expectedName

/-- Take a string. -/
def requireString : LineReader String := do
  match ← next? with
  | some (.str text) => pure text
  | _ => throw .expectedString

/-- Take an integer. -/
def requireInteger : LineReader Int := do
  match ← next? with
  | some (.int value) => pure value
  | _ => throw .expectedInteger

/-- Take a number of a line or a column. -/
def requirePlace : LineReader Nat := do
  let value ← requireInteger
  if 0 ≤ value ∧ value < UInt32.size then pure value.toNat else throw (.outOfRange value)

/-- Take a number of a line or a column, or a value that stands for it at the end of the line. -/
def placeOr (default : Nat) : LineReader Nat := do
  if (← get).isEmpty then pure default else requirePlace

/-! ## Lists -/

/-- Items with commas between them and a mark after the last, at most a number of them. -/
def itemsWithin {α : Type} (item : LineReader α) (close : Char) : Nat → LineReader (List α)
  | 0 => throw .expectedName
  | fuel + 1 => do
      let first ← item
      if ← optionalMark close then
        pure [first]
      else do
        requireMark ','
        let others ← itemsWithin item close fuel
        pure (first :: others)

/-- Items with commas between them, one at least, up to a closing mark. -/
def itemsUpTo {α : Type} (item : LineReader α) (close : Char) : LineReader (List α) := do
  itemsWithin item close ((← get).length + 1)

/-- Items in parentheses, with commas between them. -/
def parenthesized {α : Type} (item : LineReader α) : LineReader (List α) := do
  requireMark '('
  if ← optionalMark ')' then pure [] else itemsUpTo item ')'

/-! ## Types -/

/-- A type with the `&` and `[]` that follow it, and what is left after them. -/
def withSuffixes (type : TypeExpr) : List Lexeme → TypeExpr × List Lexeme
  | .mark '&' :: rest => withSuffixes (.byRef type) rest
  | .mark '[' :: .mark ']' :: rest => withSuffixes (.array type) rest
  | rest => (type, rest)

/-- Take the mark of a generic parameter that is constrained to value types, if it comes next. -/
def optionalStruct : LineReader Bool := do
  match ← get with
  | .mark ':' :: .name "struct" :: rest =>
      set rest
      pure true
  | _ => pure false

/-- A name without the exclamation marks in front of it. -/
def withoutBangs (name : String) : String :=
  String.ofList (name.toList.dropWhile (· == '!'))

/-- Take the `&` and `[]` that follow a type. -/
def suffixes (type : TypeExpr) : LineReader TypeExpr := do
  let (type, rest) := withSuffixes type (← get)
  set rest
  pure type

/-- Take what belongs to the name of a type, given how the types in angle brackets are taken. -/
def typeAfterName (arguments : LineReader (List TypeExpr)) (name : String) :
    LineReader TypeExpr := do
  if name = "void" then
    pure .void
  else if name.toList.head? = some '!' then
    let isValueType ← optionalStruct
    pure (.param (withoutBangs name) isValueType)
  else
    let isGeneric ← optionalMark '<'
    if isGeneric then
      let arguments ← arguments
      requireMark '>'
      pure (.generic name arguments)
    else
      pure (.named name)

mutual

/-- A type, for at most a number of steps. -/
def typeWithin : Nat → LineReader TypeExpr
  | 0 => throw .expectedName
  | fuel + 1 => do
      let name ← requireName
      let core ← typeAfterName (typesWithin fuel) name
      suffixes core

/-- Types with commas between them, one at least, for at most a number of steps. -/
def typesWithin : Nat → LineReader (List TypeExpr)
  | 0 => throw .expectedName
  | fuel + 1 => do
      let first ← typeWithin fuel
      let more ← optionalMark ','
      if more then
        let others ← typesWithin fuel
        pure (first :: others)
      else
        pure [first]
end

/--
Take a type.

It is `void`, a name, a name with types in angle brackets, or a generic
parameter; any number of `&` and `[]` may follow.
-/
def type : LineReader TypeExpr := do
  typeWithin (2 * (← get).length)

/-- Take types with commas between them, one at least. -/
def types : LineReader (List TypeExpr) := do
  typesWithin (2 * (← get).length + 1)

/-! ## Attributes -/

/-- The text that a lexeme adds to an argument of an attribute. -/
def argumentText : Lexeme → String
  | .str text => text
  | other => other.text

/--
The arguments of an attribute and what is left after the closing parenthesis.

An argument is all of its lexemes run together.  The last one counts only if it
is not empty or others come before it.
-/
def attributeArguments (finished : List String) (current : String) :
    List Lexeme → Option (List String × List Lexeme)
  | [] => none
  | .mark ')' :: rest =>
      some (if current.isEmpty && finished.isEmpty then [] else finished ++ [current], rest)
  | .mark ',' :: rest => attributeArguments (finished ++ [current]) "" rest
  | lexeme :: rest => attributeArguments finished (current ++ argumentText lexeme) rest

/-- Take an attribute after its opening bracket. -/
def attributeBody : LineReader Attribute := do
  let name ← requireName
  let arguments ←
    if ← optionalMark '(' then
      match attributeArguments [] "" (← get) with
      | none => throw .unterminatedArguments
      | some (arguments, rest) => do
          set rest
          pure arguments
    else
      pure []
  requireMark ']'
  pure { name, arguments }

/-- Take attributes while there are any, at most a number of them. -/
def attributesWithin : Nat → LineReader (List Attribute)
  | 0 => pure []
  | fuel + 1 => do
      match ← get with
      | .mark '[' :: .mark ']' :: _ => pure []
      | .mark '[' :: rest =>
          set rest
          let first ← attributeBody
          let others ← attributesWithin fuel
          pure (first :: others)
      | _ => pure []

/-- Take attributes while there are any. -/
def attributes : LineReader (List Attribute) := do
  attributesWithin (← get).length

end LineReader

end NullWeave
