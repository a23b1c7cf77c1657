import NullWeave.Weave.Guard.Recognition
import NullWeave.Weave.NullPolicy
import NullWeave.Weave.GuardedBody

/-!
# The guards of a method

Entry guards are put in front of the body, those of later parameters first, so
they run in the order of the parameters.  Guards of results are put before
every return, from the last return to the first, so that positions still to
come stay valid; at one return the guards of `out` parameters come first, in
order, then the guard of the return value.  The guards of property accessors
come last.
-/

namespace NullWeave

/-! ## Shapes of methods -/

/-- Where the work of a method is done. -/
inductive MethodShape where
  | plain
  | asyncStateMachine
  | iteratorStateMachine
deriving DecidableEq, Inhabited

/-- The shape that the attributes of a method say. -/
def MethodShape.of (decl : MethodDecl) : MethodShape :=
  if Attribute.has decl.attributes Attribute.asyncStateMachine then
    .asyncStateMachine
  else if Attribute.has decl.attributes Attribute.iteratorStateMachine then
    .iteratorStateMachine
  else
    .plain

/-! ## Messages -/

/-- The message of the guard of an argument. -/
def argumentMessage (parameter : String) : String :=
  "[NullGuard] " ++ parameter ++ " is null."

/-- The message of the guard of a return value. -/
def returnMessage (methodName : String) : String :=
  "[NullGuard] Return value of method '" ++ methodName ++ "' is null."

/-- The message of the guard of an `out` parameter. -/
def outMessage (parameter : String) : String :=
  "[NullGuard] Out parameter '" ++ parameter ++ "' is null."

/-- The message of the guard of the value given to a setter. -/
def setterMessage (propertyName : String) : String :=
  "[NullGuard] Cannot set the value of property '" ++ propertyName ++ "' to null."

/-- The message of the guard of the value that a getter returns. -/
def getterMessage (propertyName : String) : String :=
  "[NullGuard] Return value of property '" ++ propertyName ++ "' is null."

/-- The full name of a property: its type, its owner, its name, the types of its indices. -/
def Graph.propertyName (graph : Graph) (accessor : MethodDecl) (type : Signature)
    (indices : List Parameter) : String :=
  graph.sigName type ++ " " ++ graph.typeName accessor.owner ++ "::" ++
    accessor.propertyName?.getD accessor.name ++ "(" ++
    ",".intercalate (indices.map fun parameter => graph.sigName parameter.type) ++ ")"

/-! ## Guards of a method -/

/-- A method with what is needed to decide on its guards. -/
structure MethodContext where
  graph : Graph
  method : MethodId
  policy : NullPolicy
deriving Inhabited

namespace MethodContext

/-- The declaration of the method. -/
def decl (context : MethodContext) : MethodDecl := context.graph.method context.method

/-- The full name of the method. -/
def name (context : MethodContext) : String := context.graph.methodName context.method

/-- The guard of an argument, for an exception that names the parameter. -/
def argumentGuard (context : MethodContext) (index : Nat) (parameter : Parameter)
    (message : String) : Guard where
  subject := .argument (context.decl.argumentSlot index) parameter.type
  message
  failure := .argumentNull parameter.name

/-- Check one parameter at the entry, unless the body already does; the value of a setter waits. -/
def guardArgument (context : MethodContext) (style : GuardStyle) (guarded : GuardedBody)
    (entry : Parameter × Nat) : GuardedBody :=
  let (parameter, index) := entry
  if !context.policy.checksArgument context.graph parameter then
    guarded
  else if context.decl.setterValueIndex? == some index then
    guarded
  else if guarded.body.alreadyGuards context.graph parameter.name then
    guarded.note .trace (context.name ++ " already guards '" ++ parameter.name ++ "'")
  else
    guarded.addEntryGuard style
      (context.argumentGuard index parameter (argumentMessage parameter.name))

/-- Check the parameters at the entry. -/
def guardArguments (context : MethodContext) (style : GuardStyle) (guarded : GuardedBody) :
    GuardedBody :=
  context.decl.parameters.zipIdx.reverse.foldl (context.guardArgument style) guarded

/-- Check one `out` parameter before a return. -/
def guardOut (context : MethodContext) (style : GuardStyle) (point : Nat) (guarded : GuardedBody)
    (entry : Parameter × Nat) : GuardedBody :=
  let (parameter, index) := entry
  if context.policy.checksOut context.graph parameter then
    guarded.addExitGuard style point
      { subject := .argument (context.decl.argumentSlot index) parameter.type
        message := outMessage parameter.name
        failure := .invalidOperation }
  else
    guarded

/-- The guard of a return value. -/
def resultGuard (type : Signature) (message : String) (exit : GuardExit) : Guard where
  subject := .stackTop type
  message
  failure := .invalidOperation
  exit

/-- Check the return value and the `out` parameters before one return; getters come later. -/
def guardReturn (context : MethodContext) (style : GuardStyle) (guarded : GuardedBody)
    (point : Nat) : GuardedBody :=
  let decl := context.decl
  let returned :=
    if !decl.isGetter && context.policy.checksResult context.graph decl decl.returnType then
      guarded.addExitGuard style point
        (resultGuard decl.returnType (returnMessage context.name) .throw)
    else
      guarded
  decl.parameters.zipIdx.reverse.foldl (context.guardOut style point) returned

/-- Check the return value and the `out` parameters before every return. -/
def guardReturns (context : MethodContext) (style : GuardStyle) (guarded : GuardedBody) :
    GuardedBody :=
  (returnPositions guarded.body.instructions).foldl (context.guardReturn style) guarded

/-- Check the value given to a setter, at the entry. -/
def guardSetterValue (context : MethodContext) (style : GuardStyle) (guarded : GuardedBody) :
    GuardedBody :=
  let decl := context.decl
  match decl.setterValueIndex?.bind fun index => (decl.parameters[index]?).map (·, index) with
  | none => guarded
  | some (value, index) =>
      if context.policy.flags.arguments &&
          context.policy.checksArgument context.graph value &&
          !guarded.body.alreadyGuards context.graph value.name then
        let property :=
          context.graph.propertyName decl value.type (decl.parameters.take index)
        guarded.addEntryGuard style (context.argumentGuard index value (setterMessage property))
      else
        guarded

/-- Check the value that a getter returns, before every return. -/
def guardGetterResult (context : MethodContext) (style : GuardStyle) (guarded : GuardedBody) :
    GuardedBody :=
  let decl := context.decl
  if context.policy.checksResult context.graph decl decl.returnType then
    let property := context.graph.propertyName decl decl.returnType decl.parameters
    let guard := resultGuard decl.returnType (getterMessage property) .throw
    (returnPositions guarded.body.instructions).foldl
      (fun guarded point => guarded.addExitGuard style point guard) guarded
  else
    guarded

/-- Check what belongs to a property: the value given to a setter or returned by a getter. -/
def guardAccessor (context : MethodContext) (style : GuardStyle) (guarded : GuardedBody) :
    GuardedBody :=
  if context.decl.isSetter then
    context.guardSetterValue style guarded
  else if context.decl.isGetter then
    context.guardGetterResult style guarded
  else
    guarded

/-! ## The whole body -/

/-- The shape of the method. -/
def shape (context : MethodContext) : MethodShape := .of context.decl

/-- What the guards of a body have in common. -/
def style (settings : Settings) (body : MethodBody) : GuardStyle where
  debugBuild := settings.debugBuild
  document := body.debugInfo.document?

/-- The body with every branch widened and its parameters checked. -/
def guardEntry (context : MethodContext) (settings : Settings) (body : MethodBody) :
    GuardedBody :=
  let start : GuardedBody := { body := body.widen }
  if context.policy.flags.arguments then
    context.guardArguments (style settings body) start
  else
    start

/-- The body with its results checked too; only a plain method hands them out by returning. -/
def guardExit (context : MethodContext) (settings : Settings) (body : MethodBody)
    (entered : GuardedBody) : GuardedBody :=
  let style := style settings body
  let returned := if context.shape = .plain then context.guardReturns style entered else entered
  context.guardAccessor style returned

/-- The body with all its guards, before its branches are narrowed again. -/
def guardBody (context : MethodContext) (settings : Settings) (body : MethodBody) :
    GuardedBody :=
  context.guardExit settings body (context.guardEntry settings body)

/-- The new body of the method. -/
def wovenBody (context : MethodContext) (settings : Settings) (body : MethodBody) :
    MethodBody :=
  (context.guardBody settings body).close

end MethodContext

end NullWeave
