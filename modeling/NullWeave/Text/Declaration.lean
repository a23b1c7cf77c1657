import NullWeave.Graph.Basic
import NullWeave.Text.Fault

/-!
# Declarations as written

What a text declares, before names are looked up: types, labels, arguments and
local variables are all still the names that were written.
-/

namespace NullWeave

/-- A type as it is written. -/
inductive TypeExpr where
  | void
  | named (name : String)
  | param (name : String) (isValueType : Bool)
  | byRef (element : TypeExpr)
  | array (element : TypeExpr)
  | generic (name : String) (arguments : List TypeExpr)
deriving Inhabited

/-- A field as it is declared. -/
structure FieldText where
  line : Nat
  access : FieldAccess
  type : TypeExpr
  name : String
deriving Inhabited

/-- A parameter as it is declared; for `out`, the type is the one pointed at. -/
structure ParameterText where
  attributes : List Attribute
  isOut : Bool
  type : TypeExpr
  name : String
  hasNullDefault : Bool
deriving Inhabited

/-- A place in a document: line and column where it starts and where it ends. -/
structure Span where
  startLine : Nat
  startColumn : Nat
  endLine : Nat
  endColumn : Nat
deriving DecidableEq, Inhabited

/-- A part of a body. -/
inductive BodyItem where
  | label (line : Nat) (name : String)
  /-- A sequence point; without a place it is hidden. -/
  | point (line : Nat) (document : String) (span : Option Span)
  | instruction (line : Nat) (mnemonic : String) (operands : List Lexeme)
deriving Inhabited

/-- What a handler does, as it is declared. -/
inductive HandlerKindText where
  | catch (type : TypeExpr)
  | finally
deriving Inhabited

/-- A protected region and its handler, bounded by labels. -/
structure HandlerText where
  line : Nat
  kind : HandlerKindText
  tryStart : String
  tryEnd : String
  handlerStart : String
  handlerEnd : Option String
deriving Inhabited

/-- A body as it is declared. -/
structure BodyText where
  initLocals : Bool := false
  locals : List (TypeExpr × String) := []
  items : List BodyItem := []
  handlers : List HandlerText := []
deriving Inhabited

/-- A method as it is declared; an abstract one has no body. -/
structure MethodText where
  line : Nat
  attributes : List Attribute
  returnAttributes : List Attribute
  access : MethodAccess
  returnType : TypeExpr
  name : String
  parameters : List ParameterText
  body : Option BodyText
deriving Inhabited

/-- What the first line of a type declares. -/
structure TypeHeader where
  line : Nat
  attributes : List Attribute
  kind : TypeKind
  access : TypeAccess
  /-- The name as written; for a type that is not nested, with its namespace. -/
  name : String
  genericParameters : List String
  base : Option TypeExpr
  interfaces : List TypeExpr
deriving Inhabited

/-- A type as it is declared. -/
inductive TypeText where
  | mk (header : TypeHeader) (fields : List FieldText) (methods : List MethodText)
      (nested : List TypeText)
deriving Inhabited

namespace TypeText

/-- What the first line declares. -/
def header : TypeText → TypeHeader
  | mk header _ _ _ => header

/-- The fields, in order. -/
def fields : TypeText → List FieldText
  | mk _ fields _ _ => fields

/-- The methods, in order. -/
def methods : TypeText → List MethodText
  | mk _ _ methods _ => methods

/-- The nested types, in order. -/
def nested : TypeText → List TypeText
  | mk _ _ _ nested => nested

/-- A type without members. -/
def ofHeader (header : TypeHeader) : TypeText := mk header [] [] []

/-- A type with one more field. -/
def addField (type : TypeText) (field : FieldText) : TypeText :=
  mk type.header (type.fields ++ [field]) type.methods type.nested

/-- A type with one more method. -/
def addMethod (type : TypeText) (method : MethodText) : TypeText :=
  mk type.header type.fields (type.methods ++ [method]) type.nested

/-- A type with one more nested type. -/
def addNested (type inner : TypeText) : TypeText :=
  mk type.header type.fields type.methods (type.nested ++ [inner])

end TypeText

/-- The kind of type that a directive declares. -/
def TypeKind.ofDirective? : String → Option TypeKind
  | ".class" => some .classType
  | ".interface" => some .interfaceType
  | ".struct" => some .valueType
  | _ => none

/-- The directive that declares a kind of type. -/
def TypeKind.directive : TypeKind → String
  | .classType => ".class"
  | .interfaceType => ".interface"
  | .valueType => ".struct"

@[simp]
theorem TypeKind.ofDirective?_directive (kind : TypeKind) :
    TypeKind.ofDirective? kind.directive = some kind := by
  cases kind <;> rfl

end NullWeave
