import NullWeave.DottedName
import NullWeave.Graph.SystemLibrary
import NullWeave.Text.Declaration

/-!
# Names of types

A name of a type is looked up from the type in which it is written: first among
the types nested in that type and in each type around it, then in the namespace
of the outermost one, then as a full name.  A few words always mean types of
the system library.
-/

namespace NullWeave

/-- The type of the system library that a word always means. -/
def systemWord? : String → Option TypeId
  | "object" => some SystemLibrary.object
  | "string" => some SystemLibrary.string
  | "bool" => some SystemLibrary.boolean
  | "int" => some SystemLibrary.int32
  | "int32" => some SystemLibrary.int32
  | "long" => some SystemLibrary.int64
  | "int64" => some SystemLibrary.int64
  | _ => none

namespace Graph

/-- The full names that a name may stand for next to a type, the preferred one first. -/
def namesBeside (graph : Graph) (name : String) (type : TypeId) : List String :=
  let decl := graph.type type
  (graph.typeName type ++ "/" ++ name) ::
    if decl.enclosing.isEmpty && !decl.space.isEmpty then [decl.space ++ "." ++ name] else []

/-- The full names that a name written in a type may stand for, the preferred one first. -/
def namesInScope (graph : Graph) (scope : TypeId) (name : String) : List String :=
  (scope :: (graph.type scope).enclosing).flatMap (graph.namesBeside name) ++ [name]

/-- The type that a name written in a type means. -/
def typeInScope (graph : Graph) (scope : TypeId) (name : String) : Except TextFault TypeId :=
  match systemWord? name with
  | some type => .ok type
  | none =>
      match (graph.namesInScope scope name).findSome? graph.typeNamed? with
      | some type => .ok type
      | none => .error (.unknownType name)

mutual

/-- The signature that a type written in a type means. -/
def resolve (graph : Graph) (scope : TypeId) : TypeExpr → Except TextFault Signature
  | .void => .ok .void
  | .named name => do
      let type ← graph.typeInScope scope name
      pure (.named type)
  | .param name isValueType => .ok (.param name isValueType)
  | .byRef element => do
      let element ← graph.resolve scope element
      pure (.byRef element)
  | .array element => do
      let element ← graph.resolve scope element
      pure (.array element)
  | .generic name arguments => do
      let type ← graph.typeInScope scope name
      let arity := (graph.type type).genericParameters.length
      if arity ≠ arguments.length then
        throw (.wrongArity name arity)
      let arguments ← graph.signaturesOf scope arguments
      pure (.generic type arguments)

/-- The signatures that several types written in a type mean. -/
def signaturesOf (graph : Graph) (scope : TypeId) :
    List TypeExpr → Except TextFault (List Signature)
  | [] => .ok []
  | type :: rest => do
      let first ← graph.resolve scope type
      let others ← graph.signaturesOf scope rest
      pure (first :: others)
end

/-- The type in the graph that a type written in a type means. -/
def definitionOf (graph : Graph) (scope : TypeId) (type : TypeExpr) :
    Except TextFault TypeId := do
  let signature ← graph.resolve scope type
  match signature.definition? with
  | some definition => pure definition
  | none => throw .expectedNamedType

end Graph

end NullWeave
