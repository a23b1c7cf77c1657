import NullWeave.Proofs.Machine.Relocation
import NullWeave.Proofs.Weave.GuardDepth

/-!
# Running guards

A guard puts its value on the stack, and takes it off again with its test.
Where the value is not null, the run goes on with everything as it was; where it
is null, the guard constructs its exception and throws it.  So a row of guards
does what the tests of its guards, one after another, say.
-/

namespace NullWeave

variable
    {Reference World Effect : Type}
    {machine : Machine Reference World Effect}

/-! ## Quiet operations -/

/-- Operations that change the stack and nothing else. -/
inductive Machine.Quietly
    (machine : Machine Reference World Effect) (world : World) :
    List Operation → List (Value Reference) → List (Value Reference) →
      Prop where
  | nil (stack : List (Value Reference)) :
      Quietly machine world [] stack stack
  | cons {operation : Operation} {operations : List Operation}
      {stack middle last : List (Value Reference)}
      (performs :
        machine.perform operation stack world = .next middle world [])
      (rest : Quietly machine world operations middle last) :
      Quietly machine world (operation :: operations) stack last

section Steps

variable
    {body : MethodBody} {front back : List Instruction}
    {world : World} {effects : List Effect}

theorem Machine.step_at
    {instruction : Instruction}
    (split : body.instructions = front ++ instruction :: back)
    (stack : List (Value Reference)) :
    machine.step body ⟨front.length, stack, world, effects⟩ =
      machine.follow body ⟨front.length, stack, world, effects⟩
        (machine.perform instruction.operation stack world) := by
  have here : body.instructions[front.length]? = some instruction := by
    rw [split]
    simp
  simp only [step, here]

theorem Machine.step_throw
    (machine : Machine Reference World Effect) {id : InstrId}
    (split : body.instructions = front ++ ⟨id, .throw⟩ :: back)
    (exception : Value Reference) (rest : List (Value Reference))
    (world : World) (effects : List Effect) :
    machine.step body ⟨front.length, exception :: rest, world, effects⟩ =
      machine.raiseAt body front.length exception world effects := by
  rw [step_at split]
  simp [perform, Environment.pop, follow]

/-- Quiet operations in a row run through. -/
theorem Machine.Quietly.steps
    {operations : List Operation}
    {stack last : List (Value Reference)}
    (quietly : machine.Quietly world operations stack last)
    {start : InstrId}
    (split : body.instructions =
      front ++ (MethodBody.numberFrom start operations ++ back)) :
    stepsFrom (machine.step body) operations.length
        (.running ⟨front.length, stack, world, effects⟩) =
      .running
        ⟨front.length + operations.length, last, world, effects⟩ := by
  induction quietly generalizing front start with
  | nil stack =>
      rfl
  | @cons operation operations stack middle last performs rest
      inductionHypothesis =>
      have here : body.instructions =
          front ++ ⟨start, operation⟩ ::
            (MethodBody.numberFrom start.next operations ++ back) := split
      have behind : body.instructions =
          (front ++ [⟨start, operation⟩]) ++
            (MethodBody.numberFrom start.next operations ++ back) := by
        rw [here]
        simp
      have later := inductionHypothesis behind
      rw [List.length_append, List.length_singleton] at later
      rw [List.length_cons, stepsFrom_running, step_at here, performs,
        follow, List.append_nil, later]
      congr 2
      omega

end Steps

/-! ## Loading the value of a guard -/

section Load

variable
    {world : World} {stack : List (Value Reference)}

theorem Machine.Quietly.append
    {first second : List Operation}
    {middle last : List (Value Reference)}
    (quietly : machine.Quietly world first stack middle)
    (rest : machine.Quietly world second middle last) :
    machine.Quietly world (first ++ second) stack last := by
  induction quietly with
  | nil stack =>
      exact rest
  | cons performs _ inductionHypothesis =>
      exact .cons performs (inductionHypothesis rest)

/-- Are reads through the slot of a guard pure, if the guard reads through it? -/
def Guard.ReadsPure
    (environment : Environment Reference World Effect)
    (guard : Guard) : Prop :=
  ∀ slot element,
    guard.subject = .argument slot (.byRef element) →
      environment.ReadsThrough slot

/-- Do assertions change nothing, even the ones that fail? -/
def Environment.IgnoresAsserts
    (environment : Environment Reference World Effect) : Prop :=
  ∀ arguments world, ∃ value,
    environment.ask
        (.call false SystemLibrary.debugAssert arguments) world =
      some ⟨.ok value, world, []⟩

/-- A value is followed by its box where its type is generic. -/
theorem Machine.quietly_seen
    (type : Signature) (value : Value Reference)
    {first : List Operation}
    (quietly : machine.Quietly world first stack (value :: stack)) :
    machine.Quietly world
      (if type.isParam then first ++ [.box type] else first) stack
      (machine.environment.seen type value :: stack) := by
  unfold Environment.seen
  split
  · exact quietly.append (.cons rfl (.nil _))
  · exact quietly

theorem Machine.quietly_ldArg
    {slot : UInt16} {value : Value Reference}
    (read : machine.environment.read (.argument slot) world =
      some value) :
    machine.Quietly world [.ldArg slot] stack (value :: stack) := by
  refine .cons ?_ (.nil _)
  simp [perform, Environment.pushSlot, read, Environment.push]

end Load

namespace GuardedValue

variable
    {world : World} {stack : List (Value Reference)}

theorem load_of_not_byRef
    (slot : UInt16) {type : Signature}
    (direct : ∀ element, type ≠ .byRef element) :
    (GuardedValue.argument slot type).load =
      if type.isParam then [.ldArg slot] ++ [.box type]
      else [.ldArg slot] := by
  cases type with
  | byRef element => exact absurd rfl (direct element)
  | _ => rfl

theorem tested?_of_not_byRef
    (environment : Environment Reference World Effect)
    (slot : UInt16) {type : Signature}
    (direct : ∀ element, type ≠ .byRef element) :
    (GuardedValue.argument slot type).tested? environment stack world =
      (environment.read (.argument slot) world).map
        (environment.seen type) := by
  cases type with
  | byRef element => exact absurd rfl (direct element)
  | _ => rfl

theorem load_byRef (slot : UInt16) (element : Signature) :
    ∃ follow : Operation,
      (follow = .ldIndRef ∨ follow = .ldObj element) ∧
        (GuardedValue.argument slot (.byRef element)).load =
          if element.isParam then
            [.ldArg slot, follow] ++ [.box element]
          else
            [.ldArg slot, follow] := by
  rw [load]
  split
  · exact ⟨.ldObj element, .inr rfl, rfl⟩
  · exact ⟨.ldIndRef, .inl rfl, rfl⟩

theorem load_stackTop (type : Signature) :
    (GuardedValue.stackTop type).load =
      if type.isParam then [.dup] ++ [.box type] else [.dup] := rfl

/-- Where the read through its slot is pure, the value that is tested is put on the stack. -/
theorem quietly_load {subject : GuardedValue}
    (reads : ∀ slot element, subject = .argument slot (.byRef element) →
      ∀ pointer,
        machine.environment.read (.argument slot) world = some pointer →
          ∃ value,
            machine.environment.ask (.load pointer) world =
              some ⟨.ok value, world, []⟩)
    {value : Value Reference}
    (tested :
      subject.tested? machine.environment stack world = some value) :
    machine.Quietly world subject.load stack (value :: stack) := by
  cases subject with
  | argument slot type =>
      by_cases direct : ∀ element, type ≠ .byRef element
      · rw [tested?_of_not_byRef _ _ direct] at tested
        obtain ⟨found, read, rfl⟩ := Option.map_eq_some_iff.mp tested
        rw [load_of_not_byRef _ direct]
        exact machine.quietly_seen _ found (machine.quietly_ldArg read)
      · simp only [not_forall, not_not] at direct
        obtain ⟨element, rfl⟩ := direct
        obtain ⟨pointee, followed, rfl⟩ :=
          Option.map_eq_some_iff.mp tested
        obtain ⟨pointer, read, found⟩ :=
          Option.bind_eq_some_iff.mp followed
        obtain ⟨pure, asked⟩ := reads slot element rfl pointer read
        have same : pure = pointee := by
          simpa [Environment.pointee?, asked, Except.toOption] using found
        subst same
        obtain ⟨follow, which, load⟩ := load_byRef slot element
        have follows :
            machine.perform follow (pointer :: stack) world =
              .next (pure :: stack) world [] := by
          rcases which with rfl | rfl <;>
            simp [Machine.perform, Environment.pop, Environment.request,
              asked]
        rw [load]
        exact machine.quietly_seen element pure
          ((machine.quietly_ldArg read).append (.cons follows (.nil _)))
  | stackTop type =>
      obtain ⟨found, top, rfl⟩ := Option.map_eq_some_iff.mp tested
      obtain ⟨rest, rfl⟩ := List.head?_eq_some_iff.mp top
      rw [load_stackTop]
      exact machine.quietly_seen type found (.cons rfl (.nil _))

end GuardedValue

namespace Guard

variable
    {world : World} {stack : List (Value Reference)} {guard : Guard}

/-- A guard puts the value that it tests on the stack. -/
theorem quietly_load
    (reads : guard.ReadsPure machine.environment)
    {value : Value Reference}
    (tested :
      guard.subject.tested? machine.environment stack world =
        some value) :
    machine.Quietly world guard.subject.load stack (value :: stack) :=
  GuardedValue.quietly_load
    (fun slot element same => reads slot element same world) tested

/-- An assertion takes what it is told off the stack. -/
theorem perform_debugAssert
    (includes : machine.graph.IncludesSystem)
    (ignores : machine.environment.IgnoresAsserts)
    (message condition : Value Reference)
    (rest : List (Value Reference)) :
    machine.perform (.call SystemLibrary.debugAssert)
        (message :: condition :: rest) world =
      .next rest world [] := by
  have known :
      machine.graph.method SystemLibrary.debugAssert =
        Graph.system.method SystemLibrary.debugAssert :=
    includes.methods _ (by decide)
  have two :
      (machine.graph.method SystemLibrary.debugAssert).parameters.length +
        (machine.graph.method
          SystemLibrary.debugAssert).hasReceiver.toNat = 2 := by
    rw [known]
    rfl
  have returnsNothing :
      (machine.graph.method
        SystemLibrary.debugAssert).returnType.isVoid = true := by
    rw [known]
    rfl
  obtain ⟨value, asked⟩ := ignores [condition, message] world
  simp [Machine.perform, Machine.perform.invoke, Environment.popMany,
    Environment.request, two, returnsNothing, asked]

/-- Where assertions are ignored, a guard that asserts leaves the stack as it found it. -/
theorem quietly_assertion
    (includes : machine.graph.IncludesSystem)
    (ignores : machine.environment.IgnoresAsserts)
    {value : Value Reference}
    (loads :
      machine.Quietly world guard.subject.load stack (value :: stack)) :
    machine.Quietly world guard.assertion stack stack := by
  refine loads.append (.cons rfl (.cons rfl (.cons rfl (.cons rfl
    (.cons rfl (.cons ?_ (.nil stack)))))))
  exact perform_debugAssert includes ignores _ _ stack

/-- Before its test, a guard has put its value on the stack that it found. -/
theorem quietly_loading
    (includes : machine.graph.IncludesSystem) {debugBuild : Bool}
    (ignores :
      debugBuild = true → machine.environment.IgnoresAsserts)
    {value : Value Reference}
    (loads :
      machine.Quietly world guard.subject.load stack (value :: stack)) :
    machine.Quietly world (guard.loading debugBuild) stack
      (value :: stack) := by
  cases debugBuild with
  | false =>
      exact loads
  | true =>
      exact (quietly_assertion includes (ignores rfl) loads).append loads

theorem stuck_ldArg
    {slot : UInt16}
    (missing : machine.environment.read (.argument slot) world = none) :
    machine.perform (.ldArg slot) stack world = .stuck := by
  simp [Machine.perform, Environment.pushSlot, missing]

/-- Without a value to test, a guard gets stuck at once. -/
theorem stuck_load
    (reads : guard.ReadsPure machine.environment)
    (missing :
      guard.subject.tested? machine.environment stack world = none) :
    ∃ first rest,
      guard.subject.load = first :: rest ∧
        machine.perform first stack world = .stuck := by
  cases subject : guard.subject with
  | argument slot type =>
      rw [subject] at missing
      by_cases direct : ∀ element, type ≠ .byRef element
      · rw [GuardedValue.tested?_of_not_byRef _ _ direct,
          Option.map_eq_none_iff] at missing
        rw [GuardedValue.load_of_not_byRef _ direct]
        split <;> exact ⟨_, _, rfl, stuck_ldArg missing⟩
      · simp only [not_forall, not_not] at direct
        obtain ⟨element, rfl⟩ := direct
        have unread :
            machine.environment.read (.argument slot) world = none := by
          by_contra some
          obtain ⟨pointer, read⟩ := Option.ne_none_iff_exists'.mp some
          obtain ⟨value, asked⟩ :=
            reads slot element subject world pointer read
          simp [GuardedValue.tested?, read, Environment.pointee?, asked,
            Except.toOption] at missing
        obtain ⟨follow, -, load⟩ := GuardedValue.load_byRef slot element
        rw [load]
        split <;> exact ⟨_, _, rfl, stuck_ldArg unread⟩
  | stackTop type =>
      rw [subject] at missing
      have empty : stack = [] := by
        simpa [GuardedValue.tested?] using missing
      subst empty
      rw [GuardedValue.load_stackTop]
      split <;> exact ⟨_, _, rfl, rfl⟩

/-- A guard that asserts needs the value for that already. -/
theorem stuck_loading
    (debugBuild : Bool)
    (reads : guard.ReadsPure machine.environment)
    (missing :
      guard.subject.tested? machine.environment stack world = none) :
    ∃ first rest,
      guard.loading debugBuild = first :: rest ∧
        machine.perform first stack world = .stuck := by
  obtain ⟨first, rest, load, stuck⟩ := stuck_load reads missing
  cases debugBuild with
  | false =>
      exact ⟨first, rest, load, stuck⟩
  | true =>
      exact ⟨first, _, by rw [loading, if_pos rfl, assertion, load]; rfl,
        stuck⟩

/-! ## Failing -/

theorem quietly_discard
    {value : Value Reference}
    (tested :
      guard.subject.tested? machine.environment stack world =
        some value) :
    ∃ rest, machine.Quietly world guard.subject.discard stack rest := by
  cases subject : guard.subject with
  | argument slot type =>
      exact ⟨stack, .nil stack⟩
  | stackTop type =>
      rw [subject] at tested
      obtain ⟨found, top, rfl⟩ := Option.map_eq_some_iff.mp tested
      obtain ⟨rest, rfl⟩ := List.head?_eq_some_iff.mp top
      exact ⟨rest, .cons rfl (.nil rest)⟩

theorem perform_argumentNull
    (includes : machine.graph.IncludesSystem)
    (name message : Value Reference) (rest : List (Value Reference)) :
    machine.perform (.newObj SystemLibrary.argumentNullInitMessage)
        (message :: name :: rest) world =
      machine.environment.request world
        (.construct SystemLibrary.argumentNullInitMessage [name, message])
        true rest := by
  have two :
      (machine.graph.method
        SystemLibrary.argumentNullInitMessage).parameters.length = 2 := by
    rw [includes.methods _ (by decide)]
    rfl
  simp [Machine.perform, Environment.popMany, two]

theorem perform_invalidOperation
    (includes : machine.graph.IncludesSystem)
    (message : Value Reference) (rest : List (Value Reference)) :
    machine.perform (.newObj SystemLibrary.invalidOperationInit)
        (message :: rest) world =
      machine.environment.request world
        (.construct SystemLibrary.invalidOperationInit [message])
        true rest := by
  have one :
      (machine.graph.method
        SystemLibrary.invalidOperationInit).parameters.length = 1 := by
    rw [includes.methods _ (by decide)]
    rfl
  simp [Machine.perform, Environment.popMany, one]

/-- Where the value is null, a guard prepares, constructs its exception and throws it. -/
theorem failing_parts
    (includes : machine.graph.IncludesSystem)
    (throws : guard.exit = .throw)
    {value : Value Reference}
    (tested :
      guard.subject.tested? machine.environment stack world =
        some value) :
    ∃ quiet constructor prepared rest,
      guard.failing = quiet ++ [.newObj constructor, .throw] ∧
        machine.Quietly world quiet stack prepared ∧
        machine.perform (.newObj constructor) prepared world =
          machine.environment.request world
            (guard.failure.request machine.environment guard.message)
            true rest := by
  obtain ⟨rest, discards⟩ := quietly_discard tested
  rw [failing, throws]
  cases guard.failure with
  | argumentNull parameter =>
      refine ⟨guard.subject.discard ++
        [.ldStr parameter, .ldStr guard.message], _, _, rest, ?_,
        discards.append (.cons rfl (.cons rfl (.nil _))),
        perform_argumentNull includes _ _ rest⟩
      simp [GuardFailure.construct, GuardExit.leave]
  | invalidOperation =>
      refine ⟨guard.subject.discard ++ [.ldStr guard.message], _, _, rest,
        ?_, discards.append (.cons rfl (.nil _)),
        perform_invalidOperation includes _ rest⟩
      simp [GuardFailure.construct, GuardExit.leave]

end Guard

/-! ## Guards in a body -/

namespace PlacedGuard

variable
    {body : MethodBody} {front back : List Instruction}
    {placed : PlacedGuard} {next : InstrId} {debugBuild : Bool}
    {stack : List (Value Reference)} {world : World}
    {effects : List Effect}

/-- Where there is no value to test, the run is stuck. -/
theorem steps_stuck
    (split : body.instructions =
      front ++ (placed.code debugBuild next ++ back))
    (reads : placed.guard.ReadsPure machine.environment)
    (missing :
      placed.guard.subject.tested? machine.environment stack world =
        none) :
    stepsFrom (machine.step body) 1
        (.running ⟨front.length, stack, world, effects⟩) =
      .ended .stuck world effects := by
  obtain ⟨first, rest, loading, stuck⟩ :=
    Guard.stuck_loading debugBuild reads missing
  have here : body.instructions =
      front ++ ⟨placed.start, first⟩ ::
        (MethodBody.numberFrom placed.start.next rest ++
          ⟨placed.test debugBuild, .branch .ifTrue .long next⟩ ::
            MethodBody.numberFrom (placed.test debugBuild).next
              placed.guard.failing ++ back) := by
    rw [split, code_eq, loading]
    simp [MethodBody.numberFrom]
  rw [stepsFrom_running, Machine.step_at here, stuck]
  rfl

/-- The test of a guard, with what comes before and behind it. -/
theorem steps_load
    (split : body.instructions =
      front ++ (placed.code debugBuild next ++ back))
    {value : Value Reference}
    (quietly : machine.Quietly world (placed.guard.loading debugBuild)
      stack (value :: stack))
    (effects : List Effect) :
    ∃ before : List Instruction,
      before.length =
          front.length + (placed.guard.loading debugBuild).length ∧
        body.instructions =
          before ++
            ⟨placed.test debugBuild, .branch .ifTrue .long next⟩ ::
              (MethodBody.numberFrom (placed.test debugBuild).next
                placed.guard.failing ++ back) ∧
        stepsFrom (machine.step body)
            (placed.guard.loading debugBuild).length
            (.running ⟨front.length, stack, world, effects⟩) =
          .running ⟨before.length, value :: stack, world, effects⟩ := by
  rw [code_eq, List.append_assoc] at split
  refine ⟨front ++ MethodBody.numberFrom placed.start
    (placed.guard.loading debugBuild), by simp, by rw [split]; simp, ?_⟩
  rw [quietly.steps split]
  simp

/-- The test takes the value off again, and goes on at the next place unless it is null. -/
theorem steps_test
    (split : body.instructions =
      front ++ (placed.code debugBuild next ++ back))
    {position : Nat} (found : body.indexOf? next = some position)
    {value : Value Reference}
    (quietly : machine.Quietly world (placed.guard.loading debugBuild)
      stack (value :: stack)) :
    stepsFrom (machine.step body)
        ((placed.guard.loading debugBuild).length + 1)
        (.running ⟨front.length, stack, world, effects⟩) =
      .running
        ⟨if value.isNull then
            front.length + (placed.guard.loading debugBuild).length + 1
          else position,
          stack, world, effects⟩ := by
  obtain ⟨before, length, test, loaded⟩ := steps_load split quietly effects
  rw [stepsFrom_add, loaded, stepsFrom_running, Machine.step_at test, ← length]
  cases null : value.isNull <;>
    simp [Machine.perform, Environment.pop, null, Machine.follow, found]

/-- Where the value is not null, the run goes on at the next place with everything as it was. -/
theorem steps_pass
    (split : body.instructions =
      front ++ (placed.code debugBuild next ++ back))
    (includes : machine.graph.IncludesSystem)
    (ignores :
      debugBuild = true → machine.environment.IgnoresAsserts)
    (reads : placed.guard.ReadsPure machine.environment)
    {position : Nat} (found : body.indexOf? next = some position)
    {value : Value Reference}
    (tested :
      placed.guard.subject.tested? machine.environment stack world =
        some value)
    (some : value.isNull = false) :
    stepsFrom (machine.step body)
        ((placed.guard.loading debugBuild).length + 1)
        (.running ⟨front.length, stack, world, effects⟩) =
      .running ⟨position, stack, world, effects⟩ := by
  have loads := Guard.quietly_load reads tested
  rw [steps_test split found
    (Guard.quietly_loading includes ignores loads), some,
    if_neg Bool.false_ne_true]

/-- Constructing the exception of a guard and throwing it, which may take one step or two. -/
theorem steps_throw
    {constructId throwId : InstrId} {constructor : MethodId}
    (split : body.instructions =
      front ++ ⟨constructId, .newObj constructor⟩ ::
        ⟨throwId, .throw⟩ :: back)
    {prepared rest : List (Value Reference)} {guard : Guard}
    (performs :
      machine.perform (.newObj constructor) prepared world =
        machine.environment.request world
          (guard.failure.request machine.environment guard.message)
          true rest)
    (effects : List Effect) :
    ∃ count there,
      front.length ≤ there ∧ there < front.length + 2 ∧
        stepsFrom (machine.step body) count
            (.running ⟨front.length, prepared, world, effects⟩) =
          machine.fail (machine.raiseAt body there) guard world
            effects := by
  have constructs :
      machine.step body ⟨front.length, prepared, world, effects⟩ =
        machine.follow body ⟨front.length, prepared, world, effects⟩
          (machine.environment.request world
            (guard.failure.request machine.environment guard.message)
            true rest) := by
    rw [Machine.step_at split, performs]
  unfold Environment.request at constructs
  unfold Machine.fail
  cases asked : machine.environment.ask
      (guard.failure.request machine.environment guard.message)
      world with
  | none =>
      refine ⟨1, front.length, Nat.le_refl _, by omega, ?_⟩
      rw [stepsFrom_running, constructs, asked]
      rfl
  | some reply =>
      rw [asked] at constructs
      cases result : reply.result with
      | error exception =>
          refine ⟨1, front.length, Nat.le_refl _, by omega, ?_⟩
          rw [stepsFrom_running, constructs]
          simp only [result]
          rfl
      | ok exception =>
          refine ⟨2, front.length + 1, by omega, by omega, ?_⟩
          have behind : body.instructions =
              (front ++ [⟨constructId, .newObj constructor⟩]) ++
                ⟨throwId, .throw⟩ :: back := by
            rw [split]
            simp
          have throws :
              machine.step body
                  ⟨front.length + 1, exception :: rest, reply.world,
                    effects ++ reply.effects⟩ =
                machine.raiseAt body (front.length + 1) exception
                  reply.world (effects ++ reply.effects) := by
            simpa using
              machine.step_throw behind exception rest reply.world
                (effects ++ reply.effects)
          rw [stepsFrom_running, constructs]
          simp only [result, if_true, Machine.follow, stepsFrom_running,
            throws, stepsFrom_zero]

/-- Where the value is null, the run throws the exception of the guard from the guard. -/
theorem steps_fail
    (split : body.instructions =
      front ++ (placed.code debugBuild next ++ back))
    (includes : machine.graph.IncludesSystem)
    (ignores :
      debugBuild = true → machine.environment.IgnoresAsserts)
    (throws : placed.guard.exit = .throw)
    (reads : placed.guard.ReadsPure machine.environment)
    {value : Value Reference}
    (tested :
      placed.guard.subject.tested? machine.environment stack world =
        some value)
    (null : value.isNull = true) :
    ∃ count there,
      front.length ≤ there ∧
        there < front.length + placed.guard.size debugBuild ∧
        stepsFrom (machine.step body) (count + 1)
            (.running ⟨front.length, stack, world, effects⟩) =
          machine.fail (machine.raiseAt body there) placed.guard world
            effects := by
  obtain ⟨quiet, constructor, prepared, rest, parts, quietly, performs⟩ :=
    Guard.failing_parts includes throws tested
  obtain ⟨before, length, test, loaded⟩ :=
    steps_load split
      (Guard.quietly_loading includes ignores
        (Guard.quietly_load reads tested)) effects
  have fallsThrough :
      machine.step body ⟨before.length, value :: stack, world, effects⟩ =
        .running ⟨before.length + 1, stack, world, effects⟩ := by
    rw [Machine.step_at test]
    simp [Machine.perform, Environment.pop, null, Machine.follow]
  rw [parts, numberFrom_append, List.append_assoc] at test
  have preparing : body.instructions =
      (before ++
          [⟨placed.test debugBuild, .branch .ifTrue .long next⟩]) ++
        (MethodBody.numberFrom (placed.test debugBuild).next quiet ++
          (MethodBody.numberFrom
              ⟨(placed.test debugBuild).next.number + quiet.length⟩
              [.newObj constructor, .throw] ++
            back)) := by
    rw [test]
    simp
  have prepares :
      stepsFrom (machine.step body) quiet.length
          (.running ⟨before.length + 1, stack, world, effects⟩) =
        .running
          ⟨before.length + 1 + quiet.length, prepared, world,
            effects⟩ := by
    simpa using quietly.steps preparing
  rw [← List.append_assoc] at preparing
  obtain ⟨count, there, behind, inside, thrown⟩ :=
    steps_throw preparing performs effects
  simp only [List.length_append, List.length_singleton,
    MethodBody.length_numberFrom] at behind inside thrown
  have size :
      placed.guard.size debugBuild =
        (placed.guard.loading debugBuild).length + 1 + quiet.length +
          2 := by
    rw [Guard.size, Guard.operations_eq, parts]
    simp
    omega
  refine ⟨(placed.guard.loading debugBuild).length +
    (quiet.length + count), there, by omega, by omega, ?_⟩
  have total :
      (placed.guard.loading debugBuild).length +
          (quiet.length + count) + 1 =
        (placed.guard.loading debugBuild).length +
          (1 + (quiet.length + count)) := by
    omega
  rw [total, stepsFrom_add, loaded, stepsFrom_add, stepsFrom_running,
    stepsFrom_zero, fallsThrough, stepsFrom_add, prepares, thrown]

end PlacedGuard

/-! ## Rows in a body -/

/--
A row of guards does what its tests say: it goes through to what stands behind
it with everything as it was, or it fails with the first guard that finds null.
-/
theorem GuardRow.steps
    {body : MethodBody}
    (distinct : (identities body.instructions).Nodup)
    (includes : machine.graph.IncludesSystem)
    {front back : List Instruction} {row : GuardRow}
    {behind : Instruction} {debugBuild : Bool}
    (split : body.instructions =
      front ++ (row.code debugBuild behind.id ++ behind :: back))
    (ignores :
      debugBuild = true → machine.environment.IgnoresAsserts)
    (throws : ∀ guard ∈ row.map (·.guard), guard.exit = .throw)
    (reads : ∀ guard ∈ row.map (·.guard),
      guard.ReadsPure machine.environment)
    (stack : List (Value Reference)) (world : World)
    (effects : List Effect) :
    ∃ count there,
      front.length ≤ there ∧ there ≤ front.length + row.size debugBuild ∧
        (verdict machine.environment stack world (row.map (·.guard)) ≠
            .passes →
          0 < count ∧ there < front.length + row.size debugBuild) ∧
        stepsFrom (machine.step body) count
            (.running ⟨front.length, stack, world, effects⟩) =
          machine.check (machine.raiseAt body there) world effects
            (.running
              ⟨front.length + row.size debugBuild, stack, world, effects⟩)
            (verdict machine.environment stack world
              (row.map (·.guard))) := by
  induction row generalizing front with
  | nil =>
      exact ⟨0, front.length, Nat.le_refl _, Nat.le_refl _,
        fun fails => absurd rfl fails, rfl⟩
  | cons placed row inductionHypothesis =>
      rw [code_cons, List.append_assoc] at split
      have size :
          GuardRow.size debugBuild (placed :: row) =
            placed.guard.size debugBuild +
              GuardRow.size debugBuild row := rfl
      have throwsHere := throws placed.guard (List.mem_cons_self ..)
      have readsHere := reads placed.guard (List.mem_cons_self ..)
      rw [List.map_cons, verdict]
      cases tested :
          placed.guard.subject.tested? machine.environment stack world with
      | none =>
          have some := placed.guard.size_pos debugBuild
          refine ⟨1, front.length, Nat.le_refl _, by omega,
            fun _ => ⟨Nat.one_pos, by omega⟩, ?_⟩
          rw [PlacedGuard.steps_stuck split readsHere tested]
          rfl
      | some value =>
          cases null : value.isNull with
          | true =>
              obtain ⟨count, there, least, inside, fails⟩ :=
                PlacedGuard.steps_fail split includes ignores throwsHere
                  readsHere tested null
              refine ⟨count + 1, there, least, by omega,
                fun _ => ⟨Nat.succ_pos _, by omega⟩, ?_⟩
              rw [fails]
              simp [null, Machine.check]
          | false =>
              have rest : body.instructions =
                  (front ++
                      placed.code debugBuild
                        (entrance row behind.id)) ++
                    (code debugBuild row behind.id ++
                      behind :: back) := by
                rw [split, List.append_assoc]
              have found := indexOf?_entrance distinct rest
              obtain ⟨count, there, least, inside, strict, later⟩ :=
                inductionHypothesis rest
                  (fun guard member =>
                    throws guard (List.mem_cons_of_mem _ member))
                  (fun guard member =>
                    reads guard (List.mem_cons_of_mem _ member))
              rw [List.length_append, PlacedGuard.length_code]
                at found least inside strict later
              refine ⟨(placed.guard.loading debugBuild).length + 1 + count, there,
                by omega, by omega, ?_, ?_⟩
              · intro fails
                have strictly := strict (by simpa [null] using fails)
                omega
              · rw [stepsFrom_add,
                  PlacedGuard.steps_pass split includes ignores readsHere
                    found tested null,
                  later, size, Nat.add_assoc]
                simp [null]

end NullWeave
