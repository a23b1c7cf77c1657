import NullWeave.Graph.Basic

/-!
# Names in a graph

Two names of a type are told apart.  The full name is the text that messages
and the textual form use.  The qualified name is the chain of names behind it,
and decides whether two types are the same type.  Signatures, methods and
fields have full names too, built from those of their types.
-/

namespace NullWeave

namespace Graph

/-! ## Full and qualified names -/

/-- The full name of a declaration with the given enclosing types. -/
def fullNameWithin (graph : Graph) (decl : TypeDecl) : List TypeId → String
  | [] => decl.outermostName
  | inner :: outer => graph.fullNameWithin (graph.type inner) outer ++ "/" ++ decl.name

/-- The full name of a type: nested types follow the type around them after a slash. -/
def typeName (graph : Graph) (type : TypeId) : String :=
  graph.fullNameWithin (graph.type type) (graph.type type).enclosing

/-- The namespaces and names of a type and of the types around it, innermost first. -/
def qualifiedName (graph : Graph) (type : TypeId) : List (String × String) :=
  (type :: (graph.type type).enclosing).map fun part =>
    ((graph.type part).space, (graph.type part).name)

/-- Are two types the same type?  They are when their qualified names agree. -/
def sameType (graph : Graph) (left right : TypeId) : Bool :=
  graph.qualifiedName left == graph.qualifiedName right

/-- The type with a full name; of several, the one declared last. -/
def typeNamed? (graph : Graph) (name : String) : Option TypeId :=
  graph.typeIds.reverse.find? fun type => graph.typeName type == name

mutual

/-- The full name of a signature. -/
def sigName (graph : Graph) : Signature → String
  | .void => "System.Void"
  | .named type => graph.typeName type
  | .param name _ => name
  | .byRef element => graph.sigName element ++ "&"
  | .array element => graph.sigName element ++ "[]"
  | .generic type arguments =>
      graph.typeName type ++ "<" ++ ",".intercalate (graph.sigNames arguments) ++ ">"

/-- The full names of several signatures. -/
def sigNames (graph : Graph) : List Signature → List String
  | [] => []
  | signature :: rest => graph.sigName signature :: graph.sigNames rest
end

@[simp]
theorem sigNames_eq_map (graph : Graph) (signatures : List Signature) :
    graph.sigNames signatures = signatures.map graph.sigName := by
  induction signatures with
  | nil => rfl
  | cons signature rest ih => simp [sigNames, ih]

/-- The full names of the types of the parameters of a method. -/
def parameterNames (graph : Graph) (decl : MethodDecl) : List String :=
  decl.parameters.map fun parameter => graph.sigName parameter.type

/-- The full name of a method: its return type, its owner, its name, its parameter types. -/
def methodName (graph : Graph) (method : MethodId) : String :=
  let decl := graph.method method
  graph.sigName decl.returnType ++ " " ++ graph.typeName decl.owner ++ "::" ++ decl.name ++
    "(" ++ ",".intercalate (graph.parameterNames decl) ++ ")"

/-- The full name of a field: its type, its owner, its name. -/
def fieldName (graph : Graph) (field : FieldId) : String :=
  let decl := graph.field field
  graph.sigName decl.type ++ " " ++ graph.typeName decl.owner ++ "::" ++ decl.name

/-! ## Sameness of signatures and methods -/

mutual

/-- Are two signatures the same, with named types compared as types? -/
def sameSig (graph : Graph) : Signature → Signature → Bool
  | .void, .void => true
  | .named left, .named right => graph.sameType left right
  | .param leftName leftValue, .param rightName rightValue =>
      leftName == rightName && leftValue == rightValue
  | .byRef left, .byRef right => graph.sameSig left right
  | .array left, .array right => graph.sameSig left right
  | .generic left leftArguments, .generic right rightArguments =>
      graph.sameType left right && graph.sameSigs leftArguments rightArguments
  | _, _ => false

/-- Are two lists of signatures the same, one by one? -/
def sameSigs (graph : Graph) : List Signature → List Signature → Bool
  | [], [] => true
  | left :: leftRest, right :: rightRest =>
      graph.sameSig left right && graph.sameSigs leftRest rightRest
  | _, _ => false
end

/-- Do two methods have the same name and parameter types, by full name? -/
def sameMethodSignature (graph : Graph) (left right : MethodDecl) : Bool :=
  left.name == right.name && graph.parameterNames left == graph.parameterNames right

/-- Are two methods the same: same owner, same return type, same name and parameters? -/
def sameMethod (graph : Graph) (left right : MethodId) : Bool :=
  let leftDecl := graph.method left
  let rightDecl := graph.method right
  graph.sameType leftDecl.owner rightDecl.owner &&
    graph.sameSig leftDecl.returnType rightDecl.returnType &&
    graph.sameMethodSignature leftDecl rightDecl

end Graph

end NullWeave
