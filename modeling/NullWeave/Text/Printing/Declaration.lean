import NullWeave.Graph.Name
import NullWeave.Text.Character.Numeral
import NullWeave.Text.Declaration

/-!
# Declarations in writing

How names, attributes, types and members are written.  A name of a parameter or
local variable that could not be read back is replaced by one made up from its
number.
-/

namespace NullWeave

/-! ## Names and attributes -/

/-- Texts with a comma and a blank between them. -/
def commaSeparated (texts : List String) : String := ", ".intercalate texts

/-- Can a name be read back as a word of letters, numerals and underscores? -/
def isPlainName (name : String) : Bool :=
  match name.toList with
  | [] => false
  | c :: rest => (isLetter c || c == '_') && (c :: rest).all fun c => isWordChar c || c == '_'

/-- A name for a slot: its own if it can be read back, otherwise one made up from its number. -/
def readableName (letter : String) (index : Nat) (name : String) : String :=
  if isPlainName name && name != "this" then name else letter ++ "_" ++ toString index

/-- Can an argument of an attribute be read back without quotes? -/
def isRawArgument (argument : String) : Bool :=
  match argument.toList with
  | [] => false
  | c :: rest =>
      (isLetter c || c == '_') &&
        (c :: rest).all fun c => isWordChar c || c == '_' || c == '.' || c == '|'

/-- An argument of an attribute as it is written. -/
def argumentWritten (argument : String) : String :=
  if isRawArgument argument then argument else Quoted.write argument

/-- An attribute as it is written inside brackets. -/
def Attribute.written (mark : Attribute) : String :=
  if mark.arguments.isEmpty then
    mark.name
  else
    mark.name ++ "(" ++ commaSeparated (mark.arguments.map argumentWritten) ++ ")"

namespace Graph

/-! ## Types and members -/

/-- The word that is written for a type of the system library, if there is one. -/
def wordForName? : String → Option String
  | "System.Object" => some "object"
  | "System.String" => some "string"
  | "System.Boolean" => some "bool"
  | "System.Int32" => some "int32"
  | "System.Int64" => some "int64"
  | _ => none

/-- A named type as it is written. -/
def typeWritten (graph : Graph) (type : TypeId) : String :=
  (wordForName? (graph.typeName type)).getD (graph.typeName type)

mutual

/-- A signature as it is written. -/
def sigWritten (graph : Graph) : Signature → String
  | .void => "void"
  | .named type => graph.typeWritten type
  | .param name isValueType => "!" ++ name ++ if isValueType then ":struct" else ""
  | .byRef element => graph.sigWritten element ++ "&"
  | .array element => graph.sigWritten element ++ "[]"
  | .generic type arguments =>
      graph.typeName type ++ "<" ++ commaSeparated (graph.sigsWritten arguments) ++ ">"

/-- Several signatures as they are written. -/
def sigsWritten (graph : Graph) : List Signature → List String
  | [] => []
  | signature :: rest => graph.sigWritten signature :: graph.sigsWritten rest
end

/-- A reference to a field as it is written. -/
def fieldWritten (graph : Graph) (field : FieldId) : String :=
  let decl := graph.field field
  graph.typeName decl.owner ++ "::" ++ decl.name

/-- A reference to a method as it is written. -/
def methodWritten (graph : Graph) (method : MethodId) : String :=
  let decl := graph.method method
  graph.typeName decl.owner ++ "::" ++ decl.name ++ "(" ++
    commaSeparated (decl.parameters.map fun parameter => graph.sigWritten parameter.type) ++ ")"

/-- A parameter as it is written. -/
def parameterWritten (graph : Graph) (index : Nat) (parameter : Parameter) : String :=
  let marks := parameter.attributes.map fun mark => "[" ++ mark.written ++ "] "
  let type :=
    if parameter.isOut then
      "out " ++ graph.sigWritten parameter.type.pointee
    else
      graph.sigWritten parameter.type
  "".intercalate marks ++ type ++ " " ++ readableName "A" index parameter.name ++
    if parameter.hasNullDefault then " = null" else ""

/-- The first line of a method. -/
def methodHeaderWritten (graph : Graph) (decl : MethodDecl) : String :=
  let marks := decl.returnAttributes.map fun mark => "[return: " ++ mark.written ++ "]"
  " ".intercalate
    ([".method"] ++ decl.access.keywords ++ marks ++ [graph.sigWritten decl.returnType]) ++
    " " ++ decl.name ++ "(" ++
    commaSeparated (decl.parameters.mapIdx graph.parameterWritten) ++ ")"

/-- The line of a field. -/
def fieldLineWritten (graph : Graph) (decl : FieldDecl) : String :=
  let words :=
    heldWords
      [(decl.access.isStatic, "static"), (decl.access.isPublic, "public"),
        (decl.access.isPrivate, "private")]
  " ".intercalate ([".field"] ++ words ++ [graph.sigWritten decl.type, decl.name])

/-- The full name of what a type extends when nothing is written. -/
def defaultBaseName : TypeKind → String
  | .classType => "System.Object"
  | .valueType => "System.ValueType"
  | .interfaceType => ""

/-- The first line of a type; only a type that is not nested has its full name there. -/
def typeHeaderWritten (graph : Graph) (type : TypeId) : String :=
  let decl := graph.type type
  let name := if decl.enclosing.isEmpty then graph.typeName type else decl.name
  let parameters :=
    if decl.genericParameters.isEmpty then
      ""
    else
      "<" ++ commaSeparated decl.genericParameters ++ ">"
  let base :=
    match decl.base.map graph.typeName with
    | none => ""
    | some base => if base == defaultBaseName decl.kind then "" else " : " ++ base
  let interfaces :=
    if decl.interfaces.isEmpty then
      ""
    else
      " implements " ++ commaSeparated (decl.interfaces.map graph.typeName)
  " ".intercalate ([decl.kind.directive] ++ decl.access.keywords ++ [name]) ++
    parameters ++ base ++ interfaces

end Graph

end NullWeave
