import NullWeave.Access
import NullWeave.Signature

/-!
# The type graph

A graph holds the types known to a program with their methods and fields.  It
only grows: a declaration gets the next free identity and keeps it.  A type
knows the types that enclose it, the type it extends and the interfaces it
names; which types, methods and fields a type holds is read off the owner that
each of them names, in the order of declaration.
-/

namespace NullWeave

/-- What sort of type a declaration introduces. -/
inductive TypeKind where
  | classType
  | interfaceType
  | valueType
deriving DecidableEq, Inhabited

/-- The declaration of a type. -/
structure TypeDecl where
  /-- The simple name, with the number of generic parameters where it has one. -/
  name : String
  /-- The namespace, which is empty for nested types. -/
  space : String := ""
  /-- The enclosing types, innermost first. -/
  enclosing : List TypeId := []
  kind : TypeKind := .classType
  access : TypeAccess := {}
  genericParameters : List String := []
  attributes : List Attribute := []
  /-- The type it extends; missing for the root of the hierarchy and for interfaces. -/
  base : Option TypeId := none
  interfaces : List TypeId := []
deriving DecidableEq, Inhabited

/-- The full name of a type that no type encloses. -/
def TypeDecl.outermostName (decl : TypeDecl) : String :=
  if decl.space.isEmpty then decl.name else decl.space ++ "." ++ decl.name

/-- A parameter of a method. -/
structure Parameter where
  name : String
  /-- The type of the argument; an `out` parameter has a managed pointer. -/
  type : Signature
  isOut : Bool := false
  /-- Is the parameter optional, with null as the value it has when left out? -/
  hasNullDefault : Bool := false
  attributes : List Attribute := []
deriving Inhabited

/-- The declaration of a method, without its body. -/
structure MethodDecl where
  owner : TypeId
  name : String
  access : MethodAccess := {}
  returnType : Signature := .void
  returnAttributes : List Attribute := []
  parameters : List Parameter := []
  attributes : List Attribute := []
deriving Inhabited

/-- The declaration of a field. -/
structure FieldDecl where
  owner : TypeId
  name : String
  type : Signature
  access : FieldAccess := {}
deriving Inhabited

/-- The types, methods and fields of a program, each in the order of declaration. -/
structure Graph where
  types : Array TypeDecl := #[]
  methods : Array MethodDecl := #[]
  fields : Array FieldDecl := #[]
deriving Inhabited

namespace Graph

/-! ## Declarations by identity -/

/-- The declaration of a type; an identity that the graph never gave out has an empty one. -/
def type (graph : Graph) (type : TypeId) : TypeDecl :=
  graph.types.getD type.index default

/-- The declaration of a method; an identity that the graph never gave out has an empty one. -/
def method (graph : Graph) (method : MethodId) : MethodDecl :=
  graph.methods.getD method.index default

/-- The declaration of a field; an identity that the graph never gave out has an empty one. -/
def field (graph : Graph) (field : FieldId) : FieldDecl :=
  graph.fields.getD field.index default

/-- All types, in the order of declaration. -/
def typeIds (graph : Graph) : List TypeId :=
  (List.range graph.types.size).map TypeId.mk

/-- All methods, in the order of declaration. -/
def methodIds (graph : Graph) : List MethodId :=
  (List.range graph.methods.size).map MethodId.mk

/-- All fields, in the order of declaration. -/
def fieldIds (graph : Graph) : List FieldId :=
  (List.range graph.fields.size).map FieldId.mk

/-- The innermost type around a type. -/
def enclosingType? (graph : Graph) (type : TypeId) : Option TypeId :=
  (graph.type type).enclosing.head?

/-- The types nested directly in a type. -/
def nestedTypes (graph : Graph) (type : TypeId) : List TypeId :=
  graph.typeIds.filter fun inner => graph.enclosingType? inner == some type

/-- The methods declared on a type. -/
def methodsOf (graph : Graph) (type : TypeId) : List MethodId :=
  graph.methodIds.filter fun method => (graph.method method).owner == type

@[simp]
theorem mem_methodsOf (graph : Graph) (type : TypeId) (method : MethodId) :
    method ∈ graph.methodsOf type ↔
      method.index < graph.methods.size ∧ (graph.method method).owner = type := by
  cases method
  simp [methodsOf, methodIds]

/-- The fields declared on a type. -/
def fieldsOf (graph : Graph) (type : TypeId) : List FieldId :=
  graph.fieldIds.filter fun field => (graph.field field).owner == type

/-- The first method of a type with a name and a number of parameters. -/
def findMethod? (graph : Graph) (type : TypeId) (name : String) (arity : Nat) :
    Option MethodId :=
  (graph.methodsOf type).find? fun method =>
    (graph.method method).name == name && (graph.method method).parameters.length == arity

/-- The methods of a type with a name. -/
def methodsNamed (graph : Graph) (type : TypeId) (name : String) : List MethodId :=
  (graph.methodsOf type).filter fun method => (graph.method method).name == name

/-- The first field of a type with a name. -/
def findField? (graph : Graph) (type : TypeId) (name : String) : Option FieldId :=
  (graph.fieldsOf type).find? fun field => (graph.field field).name == name

/-! ## Growing -/

/-- Add a type, which gets the next free identity. -/
def addType (graph : Graph) (decl : TypeDecl) : Graph × TypeId :=
  ({ graph with types := graph.types.push decl }, ⟨graph.types.size⟩)

/-- Add a method, which gets the next free identity. -/
def addMethod (graph : Graph) (decl : MethodDecl) : Graph × MethodId :=
  ({ graph with methods := graph.methods.push decl }, ⟨graph.methods.size⟩)

/-- Add a field, which gets the next free identity. -/
def addField (graph : Graph) (decl : FieldDecl) : Graph × FieldId :=
  ({ graph with fields := graph.fields.push decl }, ⟨graph.fields.size⟩)

@[simp]
theorem type_addType_self (graph : Graph) (decl : TypeDecl) :
    (graph.addType decl).1.type (graph.addType decl).2 = decl := by
  simp [addType, type]

theorem type_addType_of_lt (graph : Graph) (decl : TypeDecl) {type : TypeId}
    (known : type.index < graph.types.size) :
    (graph.addType decl).1.type type = graph.type type := by
  simp [addType, Graph.type, Array.getElem?_push_lt known, known]

@[simp]
theorem method_addMethod_self (graph : Graph) (decl : MethodDecl) :
    (graph.addMethod decl).1.method (graph.addMethod decl).2 = decl := by
  simp [addMethod, method]

theorem method_addMethod_of_lt (graph : Graph) (decl : MethodDecl) {method : MethodId}
    (known : method.index < graph.methods.size) :
    (graph.addMethod decl).1.method method = graph.method method := by
  simp [addMethod, Graph.method, Array.getElem?_push_lt known, known]

@[simp]
theorem field_addField_self (graph : Graph) (decl : FieldDecl) :
    (graph.addField decl).1.field (graph.addField decl).2 = decl := by
  simp [addField, field]

/-- Say which type a type extends. -/
def setBase (graph : Graph) (type : TypeId) (base : Option TypeId) : Graph :=
  { graph with types := graph.types.modify type.index fun decl => { decl with base } }

/-- Add one interface to those that a type names. -/
def addInterface (graph : Graph) (type interface : TypeId) : Graph :=
  { graph with
    types := graph.types.modify type.index fun decl =>
      { decl with interfaces := decl.interfaces ++ [interface] } }

/-! ## Values and references -/

/-- Is a named type a value type? -/
def isValueTypeId (graph : Graph) (type : TypeId) : Bool :=
  (graph.type type).kind == .valueType

/-- Is a named type an interface? -/
def isInterface (graph : Graph) (type : TypeId) : Bool :=
  (graph.type type).kind == .interfaceType

/-- Are values of the signature copied inline, so that they are never null? -/
def isValueType (graph : Graph) : Signature → Bool
  | .void => true
  | .named type => graph.isValueTypeId type
  | .generic type _ => graph.isValueTypeId type
  | .param _ isValueType => isValueType
  | .byRef _ => false
  | .array _ => false

/-- Can a value of the signature be null?  A managed pointer is judged by what it points at. -/
def isNullable (graph : Graph) : Signature → Bool
  | .byRef element => graph.isNullable element
  | other => !graph.isValueType other

end Graph

/-! ## Questions about one method -/

namespace MethodDecl

/-- Does slot 0 of the arguments hold the receiver? -/
def hasReceiver (decl : MethodDecl) : Bool :=
  !decl.access.isStatic

/-- Is the method a property's getter? -/
def isGetter (decl : MethodDecl) : Bool :=
  decl.access.specialName && "get_".toList.isPrefixOf decl.name.toList

/-- Is the method a property's setter? -/
def isSetter (decl : MethodDecl) : Bool :=
  decl.access.specialName && "set_".toList.isPrefixOf decl.name.toList

/-- The name of the property that the method reads or writes. -/
def propertyName? (decl : MethodDecl) : Option String :=
  if decl.isGetter || decl.isSetter then some (String.ofList (decl.name.toList.drop 4)) else none

/-- The position of the parameter that holds the value given to a setter. -/
def setterValueIndex? (decl : MethodDecl) : Option Nat :=
  if decl.isSetter && !decl.parameters.isEmpty then some (decl.parameters.length - 1) else none

/-- The argument slot of a parameter; the receiver, if there is one, comes first. -/
def argumentSlot (decl : MethodDecl) (parameterIndex : Nat) : UInt16 :=
  UInt16.ofNat (parameterIndex + decl.hasReceiver.toNat)

/-- The parameter that an argument slot holds; the receiver is none. -/
def parameterOfSlot? (decl : MethodDecl) (slot : UInt16) : Option Parameter :=
  if decl.hasReceiver then
    if slot.toNat = 0 then none else decl.parameters[slot.toNat - 1]?
  else
    decl.parameters[slot.toNat]?

end MethodDecl

end NullWeave
