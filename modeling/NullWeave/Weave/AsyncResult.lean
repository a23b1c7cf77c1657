import NullWeave.Program
import NullWeave.Weave.MethodContext

/-!
# Results of asynchronous methods

An asynchronous method returns a task at once; the value that the task will
hold is handed to a builder inside the `MoveNext` of a state machine.  So that
value is checked there, before every call that hands it over, and a value that
is null fails the task instead of being thrown.

The state machines of a method are found among the types of its local
variables.  Their new bodies wait until the whole method has succeeded; the
warnings and the log do not.
-/

namespace NullWeave

/-! ## Builders -/

/-- How the full names of the builders of tasks begin. -/
def builderStart : String := "System.Runtime.CompilerServices.AsyncTaskMethodBuilder"

namespace Graph

/-- The type of the value that an asynchronous method produces. -/
def asyncPayload (graph : Graph) (returnType : Signature) : Signature :=
  match returnType with
  | .generic type (payload :: _) =>
      if "Task".toList.isPrefixOf (graph.type type).name.toList then payload else returnType
  | _ => returnType

/-- Is a method one of a builder, with a given name and one parameter? -/
def isTaskBuilderMethod (graph : Graph) (name : String) (method : MethodId) : Bool :=
  let decl := graph.method method
  decl.name == name && decl.parameters.length == 1 &&
    builderStart.toList.isPrefixOf (graph.typeName decl.owner).toList

/-- The method that an operation calls, if it is such a method of a builder. -/
def builderCall? (graph : Graph) (name : String) : Operation → Option MethodId
  | .call method => if graph.isTaskBuilderMethod name method then some method else none
  | _ => none

/-- Is a type a state machine that a compiler wrote? -/
def isAsyncStateMachine (graph : Graph) (type : TypeId) : Bool :=
  graph.isGeneratedType type && graph.isSubtypeOf type SystemLibrary.asyncStateMachine

end Graph

/-! ## Guarding state machines -/

/-- What was done to the state machines of a method so far. -/
structure AsyncProgress where
  /-- New bodies, in the order in which they were made. -/
  pending : List (MethodId × MethodBody) := []
  guards : Nat := 0
  warnings : List String := []
  log : List LogEntry := []
deriving Inhabited

/-- Guarding state machines makes progress and may fail. -/
abbrev AsyncWeaver := ExceptT CodeError (StateM AsyncProgress)

namespace MethodContext

/-- The warning for a state machine that cannot report a failure. -/
def noAwaitWarning (context : MethodContext) : String :=
  "Cannot add guards to '" ++ context.name ++ "' as the method contains no await keyword."

/-- Check the value at every call that hands it to the builder. -/
def guardHandovers (context : MethodContext) (debugBuild : Bool) (payload : Signature)
    (setException : MethodId) (body : MethodBody) : GuardedBody :=
  let style : GuardStyle := { debugBuild, document := body.debugInfo.document? }
  let guard := resultGuard payload (returnMessage context.name) (.report setException)
  let isHandover (operation : Operation) : Bool :=
    (context.graph.builderCall? "SetResult" operation).isSome
  (positionsWhere isHandover body.instructions).foldl
    (fun guarded point => guarded.addExitGuard style point guard) { body := body.widen }

/-- Guard the state machine that is the type of a local variable, if it is one. -/
def guardStateMachine (context : MethodContext) (bodies : Bodies) (debugBuild : Bool)
    (payload : Signature) (type : TypeId) : AsyncWeaver Unit := do
  let graph := context.graph
  if graph.isAsyncStateMachine type then
    match graph.findMethod? type "MoveNext" 0 with
    | none => throw (.missingMember (graph.typeName type ++ "::MoveNext"))
    | some moveNext =>
        if (← get).pending.any (·.1 == moveNext) then
          pure ()
        else
          match bodies.get? moveNext with
          | none => throw (.missingMember (graph.methodName moveNext))
          | some body =>
              match body.instructions.findSome? fun instruction =>
                  graph.builderCall? "SetException" instruction.operation with
              | none =>
                  modify fun progress =>
                    { progress with
                      warnings := progress.warnings ++ [context.noAwaitWarning]
                      log := progress.log ++ [⟨.warn, context.noAwaitWarning⟩] }
              | some setException =>
                  let guarded := context.guardHandovers debugBuild payload setException body
                  modify fun progress =>
                    { progress with
                      pending := progress.pending ++ [(moveNext, guarded.finish)]
                      guards := progress.guards + guarded.guards
                      log := progress.log ++ guarded.log }

/-- Check the value of an asynchronous method in the state machines of its local variables. -/
def guardTaskResults (context : MethodContext) (bodies : Bodies) (debugBuild : Bool)
    (body : MethodBody) : AsyncWeaver Unit := do
  let payload := context.graph.asyncPayload context.decl.returnType
  if context.policy.checksResult context.graph context.decl payload then
    (body.locals.filterMap (·.type.definition?)).forM
      (context.guardStateMachine bodies debugBuild payload)

end MethodContext

end NullWeave
