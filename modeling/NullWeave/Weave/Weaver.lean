import NullWeave.Weave.AsyncResult

/-!
# Weaving

A run goes through methods in order.  The new body of a method, and those of
its state machines, replace the old ones only when all of the method has
succeeded; the first failure ends the run and leaves everything that was
finished before it.
-/

namespace NullWeave

/-- What a run did. -/
structure WeaveSummary where
  /-- The methods that got a new body, with or without guards in it. -/
  methodsProcessed : Nat := 0
  guardsInjected : Nat := 0
  warnings : List String := []
deriving DecidableEq, Inhabited

/-- Where a run stands. -/
structure WeaveState where
  bodies : Bodies
  report : WeaveSummary := {}
  log : List LogEntry := []
deriving Inhabited

/-- Weaving changes bodies, reports and logs as it goes, and may fail. -/
abbrev Weaver := ExceptT WeaveError (StateM WeaveState)

namespace Weaver

/-- Write records. -/
def emit (entries : List LogEntry) : Weaver Unit :=
  modifyThe WeaveState fun state => { state with log := state.log ++ entries }

/-- Write one record. -/
def note (level : LogLevel) (text : String) : Weaver Unit :=
  emit [⟨level, text⟩]

/-- Guard the state machines of a method; the result is the progress that was made. -/
def guardAsync (context : MethodContext) (debugBuild : Bool) (body : MethodBody) :
    Weaver AsyncProgress := do
  let bodies := (← getThe WeaveState).bodies
  let (result, progress) := (context.guardTaskResults bodies debugBuild body).run {}
  modifyThe WeaveState fun state =>
    { state with
      log := state.log ++ progress.log
      report := { state.report with warnings := state.report.warnings ++ progress.warnings } }
  match result with
  | .error failure => throw (.code failure)
  | .ok () => pure progress

/-- Put bodies in place, in order. -/
def commit (bodies : List (MethodId × MethodBody)) : Weaver Unit :=
  modifyThe WeaveState fun state =>
    { state with bodies := bodies.foldl (fun all entry => all.set entry.1 entry.2) state.bodies }

/-- Count a finished method and its guards. -/
def count (guards : Nat) : Weaver Unit :=
  modifyThe WeaveState fun state =>
    { state with
      report :=
        { state.report with
          methodsProcessed := state.report.methodsProcessed + 1
          guardsInjected := state.report.guardsInjected + guards } }

/--
Weave a method that has a body.

What is logged about entry guards comes before what is logged about state
machines, and that before what is logged about the other guards.
-/
def weaveBody (settings : Settings) (context : MethodContext) (body : MethodBody) :
    Weaver Unit := do
  let entered := context.guardEntry settings body
  emit entered.log
  let progress ←
    if context.shape = .asyncStateMachine then
      guardAsync context settings.debugBuild entered.body
    else
      pure {}
  let woven := context.guardExit settings body entered
  emit (woven.log.drop entered.log.length)
  let guards := woven.guards + progress.guards
  note .debug ("Injected " ++ toString guards ++ " guards into " ++ context.name)
  count guards
  commit ((context.method, woven.close) :: progress.pending)

/-- Weave a method, if it is looked at and has a body. -/
def weaveMethod (graph : Graph) (settings : Settings) (method : MethodId) : Weaver Unit := do
  let policy ← NullPolicy.resolve graph settings method
  let context : MethodContext := { graph, method, policy }
  if policy.isVisible graph context.decl then
    match (← getThe WeaveState).bodies.get? method with
    | none => pure ()
    | some body => weaveBody settings context body
  else
    note .trace ("Skipping " ++ context.name ++ " (not visible)")

/-- Weave a method unless a tool wrote it; a failure names the method. -/
def weaveUnlessGenerated (graph : Graph) (settings : Settings) (method : MethodId) : Weaver Unit :=
  if settings.isGenerated graph method then
    note .trace ("Skipping generated " ++ graph.methodName method)
  else
    tryCatchThe WeaveError (weaveMethod graph settings method) fun failure =>
      throw (.inMethod (graph.methodName method) failure)

/-- Weave the methods of a type, in order. -/
def weaveType (graph : Graph) (settings : Settings) (type : TypeId) : Weaver Unit := do
  note .info ("Processing type " ++ graph.typeName type)
  (graph.methodsOf type).forM (weaveUnlessGenerated graph settings)

/-- Weave the methods of a module, in order. -/
def weaveModule (graph : Graph) (settings : Settings) (module : Module) : Weaver Unit := do
  module.types.forM (weaveType graph settings)
  let report := (← getThe WeaveState).report
  note .info ("Injected " ++ toString report.guardsInjected ++ " guards into " ++
    toString report.methodsProcessed ++ " methods")

end Weaver

/-- What came of a run: the program, the report, the log, and the failure that ended it. -/
structure WeaveOutcome where
  program : Program
  report : WeaveSummary
  log : List LogEntry
  failure : Option WeaveError
deriving Inhabited

namespace Program

/-- Run a weaver on a program. -/
def runWeaver (program : Program) (weaver : Weaver Unit) : WeaveOutcome :=
  let (result, state) := weaver.run { bodies := program.bodies }
  { program := { program with bodies := state.bodies }
    report := state.report
    log := state.log
    failure :=
      match result with
      | .ok () => none
      | .error failure => some failure }

/-- Weave the methods of a module. -/
def weave (program : Program) (settings : Settings) (module : Module) : WeaveOutcome :=
  program.runWeaver (Weaver.weaveModule program.graph settings module)

/-- Weave some methods, in order. -/
def weaveMethods (program : Program) (settings : Settings) (methods : List MethodId) :
    WeaveOutcome :=
  program.runWeaver (methods.forM (Weaver.weaveUnlessGenerated program.graph settings))

end Program

end NullWeave
