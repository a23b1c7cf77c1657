import NullWeave.Program
import NullWeave.Text.Loading.Body
import NullWeave.Text.Reading.Module

/-!
# Loading modules

Declarations refer to each other in any order, so a module is loaded in passes:
all types are declared, then what they extend and name as interfaces, then
their fields and methods, and last the bodies.  A fault stops the pass that
finds it; what was added to the program before stays there.
-/

namespace NullWeave

/-- Loading adds to a program as it goes and may fail. -/
abbrev Loading := ExceptT TextError (StateM Program)

namespace Loading

/-- The graph as it is now. -/
def graph : Loading Graph := do
  pure (← getThe Program).graph

/-- Replace the graph. -/
def setGraph (graph : Graph) : Loading Unit :=
  modifyThe Program fun program => { program with graph }

/-- Fail in a line. -/
def fail {α : Type} (line : Nat) (fault : TextFault) : Loading α := throw ⟨line, fault⟩

/-- Go on with a result, or fail in a line. -/
def orFail {α : Type} (line : Nat) (result : Except TextFault α) : Loading α :=
  match result with
  | .ok value => pure value
  | .error fault => fail line fault

/-- The declaration of a type; only a type that is not nested has a namespace. -/
def typeDecl (enclosing : List TypeId) (header : TypeHeader) : TypeDecl :=
  let (space, name) :=
    match enclosing, cutAtLastDot? header.name.toList with
    | [], some (lead, segment) => (String.ofList lead, String.ofList segment)
    | _, _ => ("", header.name)
  { name
    space
    enclosing
    kind := header.kind
    access := header.access
    genericParameters := header.genericParameters
    attributes := header.attributes }

/-- Declare one type under the types that enclose it. -/
def addHeader (enclosing : List TypeId) (header : TypeHeader) : Loading TypeId := do
  let graph ← graph
  let decl := typeDecl enclosing header
  let name := graph.fullNameWithin decl enclosing
  if (graph.typeNamed? name).isSome then
    fail header.line (.typeRedeclared name)
  else do
    let (grown, type) := graph.addType decl
    setGraph grown
    pure type

mutual

/-- Declare a type and the types nested in it. -/
def addType (enclosing : List TypeId) : TypeText → Loading (List (TypeText × TypeId))
  | .mk header fields methods nested => do
      let type ← addHeader enclosing header
      let inner ← addTypes (type :: enclosing) nested
      pure ((.mk header fields methods nested, type) :: inner)

/-- Declare several types and the types nested in them. -/
def addTypes (enclosing : List TypeId) : List TypeText → Loading (List (TypeText × TypeId))
  | [] => pure []
  | text :: rest => do
      let first ← addType enclosing text
      let others ← addTypes enclosing rest
      pure (first ++ others)
end

/-- What a type extends when nothing is written. -/
def defaultBase : TypeKind → Option TypeId
  | .classType => some SystemLibrary.object
  | .valueType => some SystemLibrary.valueType
  | .interfaceType => none

/-- Say what a type extends. -/
def addBase (header : TypeHeader) (type : TypeId) : Loading Unit := do
  let graph ← graph
  let base ←
    match header.base with
    | none => pure (defaultBase header.kind)
    | some base => some <$> orFail header.line (graph.definitionOf type base)
  setGraph (graph.setBase type base)

/-- Add an interface that a type names. -/
def addInterface (line : Nat) (type : TypeId) (text : TypeExpr) : Loading Unit := do
  let graph ← graph
  let interface ← orFail line (graph.definitionOf type text)
  if graph.isInterface interface then
    setGraph (graph.addInterface type interface)
  else
    fail line (.notAnInterface (graph.typeName interface))

/-- Say what a type extends and which interfaces it names. -/
def addSupertypes (text : TypeText) (type : TypeId) : Loading Unit := do
  addBase text.header type
  text.header.interfaces.forM (addInterface text.header.line type)

/-- Declare a field. -/
def addField (type : TypeId) (text : FieldText) : Loading Unit := do
  let graph ← graph
  if (graph.findField? type text.name).isSome then
    fail text.line (.fieldRedeclared text.name)
  else do
    let signature ← orFail text.line (graph.resolve type text.type)
    let (grown, _) := graph.addField
      { owner := type, name := text.name, type := signature, access := text.access }
    setGraph grown

/-- Read a parameter; one that is `out` has a managed pointer. -/
def readParameter (graph : Graph) (type : TypeId) (text : ParameterText) :
    Except TextFault Parameter := do
  let signature ← graph.resolve type text.type
  pure {
    name := text.name
    type := if text.isOut then .byRef signature else signature
    isOut := text.isOut
    hasNullDefault := text.hasNullDefault
    attributes := text.attributes }

/-- Read the declaration of a method. -/
def readMethod (graph : Graph) (type : TypeId) (text : MethodText) :
    Except TextFault MethodDecl := do
  let parameters ← text.parameters.mapM (readParameter graph type)
  let returnType ← graph.resolve type text.returnType
  pure {
    owner := type
    name := text.name
    access := text.access
    returnType
    returnAttributes := text.returnAttributes
    parameters
    attributes := text.attributes }

/-- Declare a method, without its body. -/
def addMethod (type : TypeId) (text : MethodText) : Loading (MethodText × MethodId) := do
  let graph ← graph
  let decl ← orFail text.line (readMethod graph type text)
  let (grown, method) := graph.addMethod decl
  if (graph.methodsOf type).any fun other =>
      graph.sameMethodSignature (graph.method other) decl then
    fail text.line (.methodRedeclared (grown.methodName method))
  else do
    setGraph grown
    pure (text, method)

/-- Declare the fields and methods of a type. -/
def addMembers (text : TypeText) (type : TypeId) : Loading (List (MethodText × MethodId)) := do
  text.fields.forM (addField type)
  text.methods.mapM (addMethod type)

/-- Build the body of a method, if it has one. -/
def loadBody (text : MethodText) (method : MethodId) : Loading Unit := do
  match text.body with
  | none => pure ()
  | some body =>
      let graph ← graph
      match readBody graph (graph.method method) text.line body with
      | .error error => throw error
      | .ok body => modifyThe Program fun program => program.setBody method body

/-- Load type declarations, pass by pass. -/
def loadTypes (texts : List TypeText) : Loading Module := do
  let declared ← addTypes [] texts
  declared.forM fun (text, type) => addSupertypes text type
  let methods ← declared.mapM fun (text, type) => addMembers text type
  methods.flatten.forM fun (text, method) => loadBody text method
  pure { types := declared.map (·.2) }

end Loading

/--
Load a module into a program.

The program is the one that is left, whether loading succeeds or not; nothing
changes before the whole text is read.
-/
def Program.load (program : Program) (text : String) : Except TextError Module × Program :=
  match readModule text with
  | .error error => (.error error, program)
  | .ok texts => (Loading.loadTypes texts).run program

end NullWeave
