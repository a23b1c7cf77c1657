import NullWeave.Proofs.Machine.Run
import NullWeave.Weave.Guard.Basic

/-!
# Checked runs

A checked run is a run of a body as it is, in which values are tested as guards
would test them: some before the first instruction, and some whenever the body
returns.  The first value that is null makes the run throw the exception of its
guard.  At the start nothing catches it; where the body returns, whatever
protects the return does.
-/

namespace NullWeave

variable {Reference World Effect : Type}

/-! ## Tests -/

namespace Environment

variable (environment : Environment Reference World Effect)

/-- What a managed pointer points to. -/
def pointee? (world : World) (pointer : Value Reference) :
    Option (Value Reference) :=
  (environment.ask (.load pointer) world).bind fun reply =>
    reply.result.toOption

/-- A value as a guard sees it: boxed if its type is generic. -/
def seen (type : Signature) (value : Value Reference) :
    Value Reference :=
  if type.isParam then environment.box type value else value

/-- Do reads through a slot change nothing, and always succeed? -/
def ReadsThrough (slot : UInt16) : Prop :=
  ∀ world pointer,
    environment.read (.argument slot) world = some pointer →
      ∃ value,
        environment.ask (.load pointer) world =
          some ⟨.ok value, world, []⟩

end Environment

/-- The value that a guard tests. -/
def GuardedValue.tested?
    (environment : Environment Reference World Effect)
    (stack : List (Value Reference)) (world : World) :
    GuardedValue → Option (Value Reference)
  | .argument slot (.byRef element) =>
      ((environment.read (.argument slot) world).bind
        (environment.pointee? world)).map (environment.seen element)
  | .argument slot type =>
      (environment.read (.argument slot) world).map
        (environment.seen type)
  | .stackTop type => stack.head?.map (environment.seen type)

/-- How an exception is asked for. -/
def GuardFailure.request
    (environment : Environment Reference World Effect)
    (message : String) : GuardFailure → Request Reference
  | .argumentNull parameter =>
      .construct SystemLibrary.argumentNullInitMessage
        [.reference (environment.text parameter),
          .reference (environment.text message)]
  | .invalidOperation =>
      .construct SystemLibrary.invalidOperationInit
        [.reference (environment.text message)]

/-- What comes of testing values one after another. -/
inductive Verdict where
  /-- No value is null. -/
  | passes
  /-- The value of a guard is null, and the ones before it are not. -/
  | fails (guard : Guard)
  /-- There is no value where a guard looks for one. -/
  | stuck

/-- What comes of the tests of guards. -/
def verdict
    (environment : Environment Reference World Effect)
    (stack : List (Value Reference)) (world : World) :
    List Guard → Verdict
  | [] => .passes
  | guard :: rest =>
      match guard.subject.tested? environment stack world with
      | none => .stuck
      | some value =>
          if value.isNull then .fails guard
          else verdict environment stack world rest

/-- Is the value of a guard there, and not null? -/
def Guard.Admits
    (environment : Environment Reference World Effect)
    (stack : List (Value Reference)) (world : World) (guard : Guard) :
    Prop :=
  ∃ value,
    guard.subject.tested? environment stack world = some value ∧
      value.isNull = false

theorem verdict_eq_passes_iff
    {environment : Environment Reference World Effect}
    {stack : List (Value Reference)} {world : World}
    {guards : List Guard} :
    verdict environment stack world guards = .passes ↔
      ∀ guard ∈ guards, guard.Admits environment stack world := by
  induction guards with
  | nil =>
      simp [verdict]
  | cons guard rest inductionHypothesis =>
      rw [List.forall_mem_cons, ← inductionHypothesis, verdict,
        Guard.Admits]
      cases guard.subject.tested? environment stack world with
      | none =>
          simp
      | some value =>
          cases null : value.isNull <;> simp [null]

/-- Tests end with the first guard that finds null. -/
theorem verdict_eq_fails
    {environment : Environment Reference World Effect}
    {stack : List (Value Reference)} {world : World}
    {front back : List Guard} {guard : Guard} {value : Value Reference}
    (before : ∀ earlier ∈ front, earlier.Admits environment stack world)
    (tested : guard.subject.tested? environment stack world = some value)
    (null : value.isNull = true) :
    verdict environment stack world (front ++ guard :: back) =
      .fails guard := by
  induction front with
  | nil =>
      simp [verdict, tested, null]
  | cons earlier rest inductionHypothesis =>
      obtain ⟨⟨found, there, admitted⟩, later⟩ :=
        List.forall_mem_cons.mp before
      simp [verdict, there, admitted, inductionHypothesis later]

/-! ## Checked steps -/

/-- Does a body return at a position? -/
def MethodBody.returnsAt (body : MethodBody) (position : Nat) : Bool :=
  body.instructions[position]?.any (·.operation.isRet)

namespace Machine

variable (machine : Machine Reference World Effect)

/-- Throw the exception of a guard. -/
def fail
    (raise : Value Reference → World → List Effect →
      State Reference World Effect)
    (guard : Guard) (world : World) (effects : List Effect) :
    State Reference World Effect :=
  match machine.environment.ask
      (guard.failure.request machine.environment guard.message)
      world with
  | none => .ended .stuck world effects
  | some reply =>
      match reply.result with
      | .ok exception | .error exception =>
          raise exception reply.world (effects ++ reply.effects)

/-- Go on as the tests of guards say. -/
def check
    (raise : Value Reference → World → List Effect →
      State Reference World Effect)
    (world : World) (effects : List Effect)
    (passed : State Reference World Effect) :
    Verdict → State Reference World Effect
  | .passes => passed
  | .fails guard => machine.fail raise guard world effects
  | .stuck => .ended .stuck world effects

/-- Throw an exception that nothing catches. -/
def escape
    (exception : Value Reference) (world : World)
    (effects : List Effect) : State Reference World Effect :=
  match machine.environment.caughtAs exception world with
  | none => .ended .stuck world effects
  | some _ => .ended (.threw exception) world effects

/-- A step, before which the guards of a return are tested. -/
def checkedStep
    (exit : List Guard) (body : MethodBody)
    (config : Config Reference World Effect) :
    State Reference World Effect :=
  if body.returnsAt config.position then
    machine.check (machine.raiseAt body config.position) config.world
      config.effects (machine.step body config)
      (verdict machine.environment config.stack config.world exit)
  else
    machine.step body config

/-- Where every run in a world starts. -/
def begin (world : World) : Config Reference World Effect where
  position := 0
  stack := []
  world
  effects := []

/-- The run of a body. -/
def run (body : MethodBody) (world : World) :
    Run Reference World Effect where
  step := machine.step body
  start := .running (begin world)

/-- The run of a body, tested at the start and at every return. -/
def checkedRun
    (entry exit : List Guard) (body : MethodBody) (world : World) :
    Run Reference World Effect where
  step := machine.checkedStep exit body
  start :=
    machine.check machine.escape world [] (.running (begin world))
      (verdict machine.environment [] world entry)

/-- Tests that find no null change nothing. -/
theorem after_checkedRun
    {entry exit : List Guard} {body : MethodBody} {world : World}
    (enters : ∀ guard ∈ entry, guard.Admits machine.environment [] world)
    (returns : ∀ count config,
      (machine.run body world).after count = .running config →
        body.returnsAt config.position = true →
          ∀ guard ∈ exit,
            guard.Admits machine.environment config.stack config.world)
    (count : Nat) :
    (machine.checkedRun entry exit body world).after count =
      (machine.run body world).after count := by
  induction count with
  | zero =>
      have passes := verdict_eq_passes_iff.mpr enters
      simp [Run.after, checkedRun, run, passes, check]
  | succ count inductionHypothesis =>
      have next : ∀ other : Run Reference World Effect,
          other.after (count + 1) =
            stepsFrom other.step 1 (other.after count) :=
        fun other => stepsFrom_add count 1 other.start
      rw [next, next, inductionHypothesis]
      cases reached : (machine.run body world).after count with
      | ended ending world effects =>
          rfl
      | running config =>
          have same :
              machine.checkedStep exit body config =
                machine.step body config := by
            by_cases returned : body.returnsAt config.position = true
            · have passes := verdict_eq_passes_iff.mpr
                (returns count config reached returned)
              rw [checkedStep, if_pos returned, passes]
              rfl
            · rw [checkedStep, if_neg returned]
          exact same

theorem sameBehaviour_checkedRun
    {entry exit : List Guard} {body : MethodBody} {world : World}
    (enters : ∀ guard ∈ entry, guard.Admits machine.environment [] world)
    (returns : ∀ count config,
      (machine.run body world).after count = .running config →
        body.returnsAt config.position = true →
          ∀ guard ∈ exit,
            guard.Admits machine.environment config.stack config.world) :
    Run.SameBehaviour (machine.checkedRun entry exit body world)
      (machine.run body world) := by
  have same := machine.after_checkedRun enters returns
  constructor
  · intro ending world effects
    simp [Run.Ends, same]
  · intro effects
    simp [Run.Shows, same]

end Machine

end NullWeave
