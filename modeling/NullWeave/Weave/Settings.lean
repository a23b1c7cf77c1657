import NullWeave.DottedName
import NullWeave.Graph.Hierarchy
import NullWeave.Text.Character.Blank
import NullWeave.Weave.Error

/-!
# Settings of a run

Flags say which values are checked and in which methods.  They are written as
names with bars or commas between them; case does not matter, blanks around a
name and a qualification in front of it are ignored.
-/

namespace NullWeave

/-- Which values are checked. -/
structure CheckedValues where
  /-- Arguments, at the entry of a method. -/
  arguments : Bool := false
  /-- Return values, where a method returns. -/
  returnValues : Bool := false
  /-- With `arguments`: `out` parameters, where a method returns. -/
  outValues : Bool := false
  /-- The values of methods that cannot be seen from outside too. -/
  nonPublic : Bool := false
deriving DecidableEq, Inhabited

namespace CheckedValues

/-- All values of the methods that can be seen from outside. -/
def allPublic : CheckedValues where
  arguments := true
  returnValues := true
  outValues := true

/-- All values of all methods. -/
def all : CheckedValues := { allPublic with nonPublic := true }

/-- What either side checks. -/
def union (left right : CheckedValues) : CheckedValues where
  arguments := left.arguments || right.arguments
  returnValues := left.returnValues || right.returnValues
  outValues := left.outValues || right.outValues
  nonPublic := left.nonPublic || right.nonPublic

/-- The flags packed into bits. -/
def bits (flags : CheckedValues) : Nat :=
  heldWeight
    [(flags.arguments, 0x01), (flags.returnValues, 0x02), (flags.outValues, 0x04),
      (flags.nonPublic, 0x08)]

/-- The flags that a lowercase name stands for. -/
def ofName? : String → Option CheckedValues
  | "none" => some {}
  | "arguments" => some { arguments := true }
  | "returnvalues" => some { returnValues := true }
  | "outvalues" => some { outValues := true }
  | "nonpublic" => some { nonPublic := true }
  | "allpublic" => some allPublic
  | "all" => some all
  | _ => none

/-- The parts of a text between bars and commas; there is always one at least. -/
def parts : List Char → List (List Char)
  | [] => [[]]
  | c :: rest =>
      if c = '|' ∨ c = ',' then
        [] :: parts rest
      else
        match parts rest with
        | [] => [[c]]
        | part :: others => (c :: part) :: others

/-- Characters without the blanks at both ends. -/
def trimmed (chars : List Char) : List Char :=
  ((chars.dropWhile isBlank).reverse.dropWhile isBlank).reverse

/-- The flags that one part of a text names. -/
def ofPart? (part : List Char) : Option CheckedValues :=
  let name := trimmed part
  let segment :=
    match cutAtLastDot? name with
    | some (_, segment) => segment
    | none => name
  ofName? (String.ofList (segment.map Char.toLower))

/-- The flags that all parts of a text name together. -/
def parse (text : String) : Except WeaveError CheckedValues :=
  match (parts text.toList).mapM ofPart? with
  | some flags => .ok (flags.foldl union {})
  | none => .error (.invalidFlags text)

end CheckedValues

/-- What a run checks, and how. -/
structure Settings where
  /-- The flags for the methods of types that do not bring their own. -/
  flags : CheckedValues := .allPublic
  /-- Is null forbidden only where it is said so? -/
  explicitMode : Bool := false
  /-- Does a guard also assert what it checks? -/
  debugBuild : Bool := false
  /-- Which methods a tool wrote; they are left alone. -/
  isGenerated : Graph → MethodId → Bool := Graph.isGeneratedMethod
deriving Inhabited

end NullWeave
