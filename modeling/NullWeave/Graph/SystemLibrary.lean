import NullWeave.Graph.Hierarchy

/-!
# The system library

Every graph starts with the types and members of the system library that
woven code refers to.  They are declared first and in a fixed order, so their
identities are constants.
-/

namespace NullWeave

namespace SystemLibrary

/-! ## Types -/

def object : TypeId := ⟨0⟩
def valueType : TypeId := ⟨1⟩
def string : TypeId := ⟨2⟩
def exception : TypeId := ⟨3⟩
def argumentException : TypeId := ⟨4⟩
def argumentNullException : TypeId := ⟨5⟩
def invalidOperationException : TypeId := ⟨6⟩
def debug : TypeId := ⟨7⟩
def task : TypeId := ⟨8⟩
def taskOfResult : TypeId := ⟨9⟩
def boolean : TypeId := ⟨10⟩
def int32 : TypeId := ⟨11⟩
def int64 : TypeId := ⟨12⟩
def taskBuilder : TypeId := ⟨13⟩
def taskOfResultBuilder : TypeId := ⟨14⟩
def voidBuilder : TypeId := ⟨15⟩
def asyncStateMachine : TypeId := ⟨16⟩

/-- A public class of the system library. -/
def publicClass (space name : String) (base : Option TypeId)
    (genericParameters : List String := []) : TypeDecl where
  name
  space
  access := { isPublic := true }
  genericParameters
  base

/-- A public value type of the system library. -/
def publicValueType (space name : String) (genericParameters : List String := []) :
    TypeDecl where
  name
  space
  kind := .valueType
  access := { isPublic := true }
  genericParameters
  base := some valueType

/-- The declarations of the types, in the order of their identities. -/
def typeDecls : Array TypeDecl :=
  #[publicClass "System" "Object" none,
    publicClass "System" "ValueType" (some object),
    publicClass "System" "String" (some object),
    publicClass "System" "Exception" (some object),
    publicClass "System" "ArgumentException" (some exception),
    publicClass "System" "ArgumentNullException" (some argumentException),
    publicClass "System" "InvalidOperationException" (some exception),
    publicClass "System.Diagnostics" "Debug" (some object),
    publicClass "System.Threading.Tasks" "Task" (some object),
    publicClass "System.Threading.Tasks" "Task`1" (some task) ["TResult"],
    publicValueType "System" "Boolean",
    publicValueType "System" "Int32",
    publicValueType "System" "Int64",
    publicValueType "System.Runtime.CompilerServices" "AsyncTaskMethodBuilder",
    publicValueType "System.Runtime.CompilerServices" "AsyncTaskMethodBuilder`1" ["TResult"],
    publicValueType "System.Runtime.CompilerServices" "AsyncVoidMethodBuilder",
    { name := "IAsyncStateMachine"
      space := "System.Runtime.CompilerServices"
      kind := .interfaceType
      access := { isPublic := true } }]

/-! ## Members -/

def objectInit : MethodId := ⟨0⟩
def exceptionInit : MethodId := ⟨1⟩
/-- The constructor that takes the name of a parameter. -/
def argumentNullInit : MethodId := ⟨2⟩
/-- The constructor that takes the name of a parameter and a message. -/
def argumentNullInitMessage : MethodId := ⟨3⟩
/-- The constructor that takes a message. -/
def invalidOperationInit : MethodId := ⟨4⟩
/-- The method that checks a condition and shows a message if it fails. -/
def debugAssert : MethodId := ⟨5⟩
def moveNext : MethodId := ⟨6⟩

/-- A parameter that has only a name and a type. -/
def plainParameter (name : String) (type : Signature) : Parameter where
  name
  type

/-- A public constructor. -/
def constructor (owner : TypeId) (parameters : List Parameter) : MethodDecl where
  owner
  name := ".ctor"
  access := { isPublic := true, specialName := true }
  parameters

/-- A public method of an instance, without a result. -/
def instanceMethod (owner : TypeId) (name : String) (parameters : List Parameter) :
    MethodDecl where
  owner
  name
  access := { isPublic := true }
  parameters

/-- The declarations of the methods, in the order of their identities. -/
def methodDecls : Array MethodDecl :=
  let text (name : String) : Parameter := plainParameter name (.named string)
  let failure : Parameter := plainParameter "exception" (.named exception)
  #[constructor object [],
    constructor exception [text "message"],
    constructor argumentNullException [text "paramName"],
    constructor argumentNullException [text "paramName", text "message"],
    constructor invalidOperationException [text "message"],
    { owner := debug
      name := "Assert"
      access := { isPublic := true, isStatic := true }
      parameters := [plainParameter "condition" (.named boolean), text "message"] },
    { owner := asyncStateMachine
      name := "MoveNext"
      access := { isPublic := true, isVirtual := true, isAbstract := true } },
    instanceMethod taskBuilder "SetResult" [],
    instanceMethod taskBuilder "SetException" [failure],
    instanceMethod taskOfResultBuilder "SetResult"
      [plainParameter "result" (.param "TResult" false)],
    instanceMethod taskOfResultBuilder "SetException" [failure],
    instanceMethod voidBuilder "SetResult" [],
    instanceMethod voidBuilder "SetException" [failure]]

end SystemLibrary

/-- The graph that holds the system library and nothing else. -/
def Graph.system : Graph where
  types := SystemLibrary.typeDecls
  methods := SystemLibrary.methodDecls

namespace SystemLibrary

/-! The constants name what they say. -/

example : Graph.system.typeName asyncStateMachine =
    "System.Runtime.CompilerServices.IAsyncStateMachine" := by
  decide

example : Graph.system.methodName argumentNullInitMessage =
    "System.Void System.ArgumentNullException::.ctor(System.String,System.String)" := by
  decide

example : Graph.system.methodName invalidOperationInit =
    "System.Void System.InvalidOperationException::.ctor(System.String)" := by
  decide

example : Graph.system.methodName debugAssert =
    "System.Void System.Diagnostics.Debug::Assert(System.Boolean,System.String)" := by
  decide

end SystemLibrary

end NullWeave
