import NullWeave.Code.Encoding
import NullWeave.Graph.SystemLibrary

/-!
# Programs

A program is a type graph with the bodies of its methods.  Bodies are kept
apart from the graph: weaving replaces bodies and can change nothing else.

A module is the list of the types that one text declared, in order, each
followed by the types nested in it.
-/

namespace NullWeave

/-- The bodies of methods; a method that is not listed has none. -/
structure Bodies where
  entries : List (MethodId × MethodBody) := []
deriving Inhabited

namespace Bodies

/-- The body of a method. -/
def get? (bodies : Bodies) (method : MethodId) : Option MethodBody :=
  (bodies.entries.find? (·.1 == method)).map (·.2)

/-- Take the body of a method away. -/
def erase (bodies : Bodies) (method : MethodId) : Bodies :=
  ⟨bodies.entries.filter (·.1 != method)⟩

/-- Give a method a body. -/
def set (bodies : Bodies) (method : MethodId) (body : MethodBody) : Bodies :=
  ⟨(method, body) :: (bodies.erase method).entries⟩

@[simp]
theorem get?_empty (method : MethodId) : ({} : Bodies).get? method = none := rfl

@[simp]
theorem get?_set_self (bodies : Bodies) (method : MethodId) (body : MethodBody) :
    (bodies.set method body).get? method = some body := by
  simp [get?, set]

@[simp]
theorem get?_erase_self (bodies : Bodies) (method : MethodId) :
    (bodies.erase method).get? method = none := by
  simp [get?, erase]

theorem get?_erase_of_ne (bodies : Bodies) {method other : MethodId} (ne : other ≠ method) :
    (bodies.erase method).get? other = bodies.get? other := by
  unfold get? erase
  rw [List.find?_filter]
  congr 1
  apply congrArg (fun p => bodies.entries.find? p)
  funext entry
  by_cases same : entry.1 = other
  · subst same; simp [ne]
  · simp [same]

theorem get?_set_of_ne (bodies : Bodies) {method other : MethodId} (body : MethodBody)
    (ne : other ≠ method) : (bodies.set method body).get? other = bodies.get? other := by
  rw [← bodies.get?_erase_of_ne ne]
  have differ : (method == other) = false := by simpa using fun equal => ne equal.symm
  simp [get?, set, differ]

end Bodies

/-- A type graph and the bodies of its methods. -/
structure Program where
  graph : Graph
  bodies : Bodies := {}
deriving Inhabited

/-- The program that holds the system library and nothing else. -/
def Program.initial : Program := { graph := .system }

/-- The types that one text declared, each followed by the types nested in it. -/
structure Module where
  types : List TypeId := []
deriving DecidableEq, Inhabited

namespace Module

/-- The methods of the types of a module, in order. -/
def methods (module : Module) (graph : Graph) : List MethodId :=
  module.types.flatMap graph.methodsOf

/-- The first type of a module with a full name. -/
def findType? (module : Module) (graph : Graph) (name : String) : Option TypeId :=
  module.types.find? fun type => graph.typeName type == name

/-- The first method with a name on the first type of a module with a full name. -/
def findMethod? (module : Module) (graph : Graph) (typeName methodName : String) :
    Option MethodId :=
  (module.findType? graph typeName).bind fun type =>
    (graph.methodsNamed type methodName).head?

end Module

namespace Program

/-- Does a method have a body? -/
def hasBody (program : Program) (method : MethodId) : Bool :=
  (program.bodies.get? method).isSome

/-- The program with a body for a method. -/
def setBody (program : Program) (method : MethodId) (body : MethodBody) : Program :=
  { program with bodies := program.bodies.set method body }

/-- Encode the bodies of methods, in order, with one pool of tokens. -/
def encodeAll (program : Program) (methods : List MethodId) : Encoder Unit :=
  methods.forM fun method =>
    match program.bodies.get? method with
    | none => pure ()
    | some body => do
        let returnsValue := !(program.graph.method method).returnType.isVoid
        let _ ← body.encode program.graph returnsValue
        pure ()

end Program

end NullWeave
