import NullWeave.Code.Error
import NullWeave.Text.Lexeme
import NullWeave.Text.Quoted

/-!
# What can be wrong with a text

One constructor for each cause, one function for the wording, and an error that
says in which line the cause was found.
-/

namespace NullWeave

/-- Why a text is not a module. -/
inductive TextFault where
  -- Words
  | invalidInteger (literal : String)
  | unexpectedCharacter (c : Char)
  | badString (fault : Quoted.Fault)
  -- Lines
  | unexpected (found : Lexeme)
  | expectedMark (c : Char)
  | expectedMarkFound (c : Char) (found : Lexeme)
  | expectedKeyword (word : String)
  | expectedName
  | expectedNameFound (found : Lexeme)
  | expectedString
  | expectedInteger
  | outOfRange (value : Int)
  | unterminatedArguments
  | expectedTypeDeclaration
  | expectedMemberDeclaration
  | expectedReturnType
  | expectedInstruction
  | danglingAttributes
  | attributesOnField
  | missingEnd (name : String)
  | abstractWithBody
  | lineWithoutDocument
  -- Declarations
  | typeRedeclared (name : String)
  | notAnInterface (name : String)
  | fieldRedeclared (name : String)
  | methodRedeclared (name : String)
  | localRedeclared (name : String)
  | unknownType (name : String)
  | wrongArity (name : String) (expected : Nat)
  | expectedNamedType
  -- Bodies
  | labelRedefined (name : String)
  | unknownLabel (name : String)
  | labelAtEnd (name : String)
  | instructionCountChanged
  | danglingSequencePoint
  | unknownInstruction (mnemonic : String)
  | constantOutOfRange (value : Int)
  | argumentOutOfRange
  | noReceiver
  | unknownParameter (name : String)
  | expectedArgument
  | localOutOfRange
  | unknownLocal (name : String)
  | expectedLocal
  | expectedDoubleColon
  | unknownField (owner name : String)
  | ambiguousMethod (owner name : String)
  | unknownMethod (owner name : String)
  | code (error : CodeError)
deriving DecidableEq, Inhabited

namespace TextFault

/-- A text between single quotes. -/
def inQuotes (text : String) : String := "'" ++ text ++ "'"

/-- The wording of a fault. -/
def message : TextFault → String
  | .invalidInteger literal => "invalid integer literal " ++ inQuotes literal
  | .unexpectedCharacter c => "unexpected character " ++ inQuotes (String.singleton c)
  | .badString (.unknownEscape c) => "unknown escape " ++ inQuotes (String.ofList ['\\', c])
  | .badString .unterminated => "unterminated string literal"
  | .unexpected found => "unexpected " ++ inQuotes found.text
  | .expectedMark c => "expected " ++ inQuotes (String.singleton c)
  | .expectedMarkFound c found =>
      "expected " ++ inQuotes (String.singleton c) ++ " but found " ++ inQuotes found.text
  | .expectedKeyword word => "expected " ++ inQuotes word
  | .expectedName => "expected a name"
  | .expectedNameFound found => "expected a name but found " ++ inQuotes found.text
  | .expectedString => "expected a string literal"
  | .expectedInteger => "expected an integer"
  | .outOfRange value => inQuotes (toString value) ++ " is out of range"
  | .unterminatedArguments => "unterminated attribute arguments"
  | .expectedTypeDeclaration => "expected a type declaration"
  | .expectedMemberDeclaration => "expected a member declaration"
  | .expectedReturnType => "expected a return type"
  | .expectedInstruction => "expected an instruction"
  | .danglingAttributes => "attributes are not followed by a declaration"
  | .attributesOnField => "fields do not take attributes"
  | .missingEnd name => "missing '.end' for " ++ inQuotes name
  | .abstractWithBody => "abstract method with a body"
  | .lineWithoutDocument => "'.line' without a '.document'"
  | .typeRedeclared name => "type " ++ inQuotes name ++ " is already declared"
  | .notAnInterface name => inQuotes name ++ " is not an interface"
  | .fieldRedeclared name => "field " ++ inQuotes name ++ " is already declared"
  | .methodRedeclared name => "method " ++ inQuotes name ++ " is already declared"
  | .localRedeclared name => "local " ++ inQuotes name ++ " is already declared"
  | .unknownType name => "unknown type " ++ inQuotes name
  | .wrongArity name expected =>
      inQuotes name ++ " expects " ++ toString expected ++ " type arguments"
  | .expectedNamedType => "expected a named type"
  | .labelRedefined name => "label " ++ inQuotes name ++ " is already defined"
  | .unknownLabel name => "unknown label " ++ inQuotes name
  | .labelAtEnd name => "label " ++ inQuotes name ++ " is not followed by an instruction"
  | .instructionCountChanged => "instruction count changed"
  | .danglingSequencePoint => "'.line' is not followed by an instruction"
  | .unknownInstruction mnemonic => "unknown instruction " ++ inQuotes mnemonic
  | .constantOutOfRange value => inQuotes (toString value) ++ " does not fit in 32 bits"
  | .argumentOutOfRange => "argument out of range"
  | .noReceiver => "static methods have no 'this'"
  | .unknownParameter name => "unknown parameter " ++ inQuotes name
  | .expectedArgument => "expected an argument"
  | .localOutOfRange => "local out of range"
  | .unknownLocal name => "unknown local " ++ inQuotes name
  | .expectedLocal => "expected a local"
  | .expectedDoubleColon => "expected '::'"
  | .unknownField owner name => "unknown field " ++ inQuotes (owner ++ "::" ++ name)
  | .ambiguousMethod owner name => "ambiguous method " ++ inQuotes (owner ++ "::" ++ name)
  | .unknownMethod owner name => "unknown method " ++ inQuotes (owner ++ "::" ++ name)
  | .code error => error.message

end TextFault

/-- A fault with the line it was found in; lines are counted from one. -/
structure TextError where
  line : Nat
  fault : TextFault
deriving DecidableEq, Inhabited

/-- A wording with the line that it is about. -/
def withLine (line : Nat) (wording : String) : String :=
  "line " ++ toString line ++ ": " ++ wording

/-- The wording of an error: the line and the fault. -/
def TextError.message (error : TextError) : String :=
  withLine error.line error.fault.message

end NullWeave
