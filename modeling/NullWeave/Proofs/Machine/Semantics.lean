import Mathlib.Algebra.Group.Int.Defs
import NullWeave.Proofs.Code.Forms

/-!
# Running code

A machine runs a body with a stack of values.  What calls, constructors, fields
and memory do is up to an environment, which is asked about a world and never
sees where the code stands that asks.

Small steps are functions, so a run is determined by where it starts.  A run
ends with a value, with an exception, or because the machine is stuck; it
shows the effects of what the environment was asked.
-/

namespace NullWeave

/-! ## Protected regions -/

/-- Does a handler catch what is caught under some types?  No handler that always runs does. -/
def HandlerKind.catches (caught : TypeId → Bool) : HandlerKind → Bool
  | .catch type => caught type
  | .finally => false

/-- Does the region that a handler protects hold a position? -/
def MethodBody.protects
    (body : MethodBody) (handler : ExceptionHandler)
    (position : Nat) : Bool :=
  match body.indexOf? handler.tryStart, body.indexOf? handler.tryEnd with
  | some start, some stop => start ≤ position && position < stop
  | _, _ => false

/-! ## Values and environments -/

/-- A value on the stack. -/
inductive Value (Reference : Type) where
  | null
  | int (number : Int)
  | reference (target : Reference)

/-- A place of a method that holds a value. -/
inductive Slot where
  | argument (index : UInt16)
  | variable (index : UInt16)

namespace Value

variable {Reference : Type}

/-- Is there nothing?  Zero stands for null where code does not tell them apart. -/
def isNull : Value Reference → Bool
  | .null => true
  | .int number => number == 0
  | .reference _ => false

/-- The number that a value stands for. -/
def number? : Value Reference → Option Int
  | .null => some 0
  | .int number => some number
  | .reference _ => none

/-- Does code find two values equal? -/
def same
    (sameReference : Reference → Reference → Bool) :
    Value Reference → Value Reference → Bool
  | .reference left, .reference right => sameReference left right
  | .reference _, _ => false
  | _, .reference _ => false
  | left, right => left.number? == right.number?

/-- The value that a comparison leaves. -/
def ofBool (truth : Bool) : Value Reference :=
  .int (if truth then 1 else 0)

end Value

/-- What an environment is asked for. -/
inductive Request (Reference : Type) where
  | call (isVirtual : Bool) (method : MethodId)
      (arguments : List (Value Reference))
  | construct (constructor : MethodId)
      (arguments : List (Value Reference))
  /-- Read a field, of an object unless it is static. -/
  | loadField (field : FieldId) (owner : Option (Value Reference))
  /-- Point to a field, of an object unless it is static. -/
  | pointToField (field : FieldId) (owner : Option (Value Reference))
  /-- Write a field, of an object unless it is static. -/
  | storeField (field : FieldId) (owner : Option (Value Reference))
      (value : Value Reference)
  /-- Read what a managed pointer points to. -/
  | load (pointer : Value Reference)
  /-- Write what a managed pointer points to. -/
  | store (pointer value : Value Reference)

/-- What an environment answers: a value or an exception, and what it did. -/
structure Reply (Reference World Effect : Type) where
  result : Except (Value Reference) (Value Reference)
  world : World
  effects : List Effect

/-- Everything that code runs with. -/
structure Environment (Reference World Effect : Type) where
  /-- The text that a constant stands for. -/
  text : String → Reference
  /-- The object that a number is boxed in. -/
  boxed : Signature → Int → Reference
  sameReference : Reference → Reference → Bool
  read : Slot → World → Option (Value Reference)
  write : Slot → Value Reference → World → Option World
  /-- A managed pointer to a slot. -/
  pointer : Slot → World → Option Reference
  /-- The answer to a request; there is none if the machine gets stuck or waits for ever. -/
  ask : Request Reference → World →
    Option (Reply Reference World Effect)
  /-- The types under which a value is caught, if it can be thrown. -/
  caughtAs : Value Reference → World → Option (TypeId → Bool)

/-- An environment with what else decides how the code of a method runs. -/
structure Machine (Reference World Effect : Type) where
  environment : Environment Reference World Effect
  graph : Graph
  /-- Does the method return a value? -/
  returnsValue : Bool

/-- What control does after an operation. -/
inductive Flow (Reference World Effect : Type) where
  | next (stack : List (Value Reference)) (world : World)
      (effects : List Effect)
  | jump (target : InstrId) (stack : List (Value Reference))
  | returns (value : Value Reference)
  | raises (exception : Value Reference) (world : World)
      (effects : List Effect)
  | stuck

/-- Where a run stands. -/
structure Config (Reference World Effect : Type) where
  position : Nat
  stack : List (Value Reference)
  world : World
  /-- The effects so far. -/
  effects : List Effect

/-- How a run ends. -/
inductive Ending (Reference : Type) where
  | returned (value : Value Reference)
  | threw (exception : Value Reference)
  | stuck

/-- What a run has come to. -/
inductive State (Reference World Effect : Type) where
  | running (config : Config Reference World Effect)
  | ended (ending : Ending Reference) (world : World)
      (effects : List Effect)

section Machine

variable {Reference World Effect : Type}

namespace Flow

/-- The flow with a function applied to the place of a jump. -/
def mapTarget (change : InstrId → InstrId) :
    Flow Reference World Effect → Flow Reference World Effect
  | .jump target stack => .jump (change target) stack
  | other => other

end Flow

/-- The effects that a run has shown. -/
def State.effects : State Reference World Effect → List Effect
  | .running config => config.effects
  | .ended _ _ effects => effects

/-! ## Operations -/

namespace Environment

variable
    (environment : Environment Reference World Effect)
    (world : World)

/-- The value that boxing a value leaves; references stay as they are. -/
def box (type : Signature) : Value Reference → Value Reference
  | .int number => .reference (environment.boxed type number)
  | other => other

/-- Put a value on the stack. -/
def push
    (value : Value Reference) (stack : List (Value Reference)) :
    Flow Reference World Effect :=
  .next (value :: stack) world []

/-- Go on with the value on top of the stack. -/
def pop
    (stack : List (Value Reference))
    (goOn : Value Reference → List (Value Reference) →
      Flow Reference World Effect) :
    Flow Reference World Effect :=
  match stack with
  | [] => .stuck
  | top :: rest => goOn top rest

/-- Go on with some values from the top of the stack, the one put there first in front. -/
def popMany
    (count : Nat) (stack : List (Value Reference))
    (goOn : List (Value Reference) → List (Value Reference) →
      Flow Reference World Effect) :
    Flow Reference World Effect :=
  if count ≤ stack.length then
    goOn (stack.take count).reverse (stack.drop count)
  else
    .stuck

/-- Go on with the owner of a field, which a static field does not have. -/
def popOwner
    (isStatic : Bool) (stack : List (Value Reference))
    (goOn : Option (Value Reference) → List (Value Reference) →
      Flow Reference World Effect) :
    Flow Reference World Effect :=
  if isStatic then goOn none stack
  else pop stack fun owner rest => goOn (some owner) rest

/-- Ask the environment; an answer that counts is put on the stack. -/
def request
    (request : Request Reference) (counts : Bool)
    (stack : List (Value Reference)) :
    Flow Reference World Effect :=
  match environment.ask request world with
  | none => .stuck
  | some reply =>
      match reply.result with
      | .ok value =>
          .next (if counts then value :: stack else stack) reply.world
            reply.effects
      | .error exception =>
          .raises exception reply.world reply.effects

/-- Put the value of a slot on the stack. -/
def pushSlot
    (slot : Slot) (stack : List (Value Reference)) :
    Flow Reference World Effect :=
  match environment.read slot world with
  | none => .stuck
  | some value => push world value stack

/-- Put a pointer to a slot on the stack. -/
def pushPointer
    (slot : Slot) (stack : List (Value Reference)) :
    Flow Reference World Effect :=
  match environment.pointer slot world with
  | none => .stuck
  | some pointer => push world (.reference pointer) stack

/-- Put the value on top of the stack into a slot. -/
def popSlot
    (slot : Slot) (stack : List (Value Reference)) :
    Flow Reference World Effect :=
  pop stack fun value rest =>
    match environment.write slot value world with
    | none => .stuck
    | some written => .next rest written []

/-- Combine the two numbers on top of the stack; numbers have 64 bits. -/
def combine
    (combination : Int → Int → Int)
    (stack : List (Value Reference)) :
    Flow Reference World Effect :=
  pop stack fun right rest =>
    pop rest fun left others =>
      match left.number?, right.number? with
      | some first, some second =>
          let number := combination first second
          if -2 ^ 63 ≤ number ∧ number < 2 ^ 63 then
            push world (.int number) others
          else
            .stuck
      | _, _ => .stuck

/-! Nothing but a jump goes to a place. -/

section Targets

variable
    (change : InstrId → InstrId) (stack : List (Value Reference))

@[simp]
theorem mapTarget_next (effects : List Effect) :
    (Flow.next stack world effects).mapTarget change =
      .next stack world effects := rfl

@[simp]
theorem mapTarget_jump (target : InstrId) :
    (Flow.jump target stack : Flow Reference World Effect).mapTarget
        change = .jump (change target) stack := rfl

@[simp]
theorem mapTarget_stuck :
    (Flow.stuck : Flow Reference World Effect).mapTarget change =
      .stuck := rfl

@[simp]
theorem mapTarget_push (value : Value Reference) :
    (push world value stack : Flow Reference World Effect).mapTarget
        change = push world value stack := rfl

@[simp]
theorem mapTarget_pop
    (goOn : Value Reference → List (Value Reference) →
      Flow Reference World Effect) :
    (pop stack goOn).mapTarget change =
      pop stack fun top rest => (goOn top rest).mapTarget change := by
  cases stack <;> rfl

@[simp]
theorem mapTarget_popMany
    (count : Nat)
    (goOn : List (Value Reference) → List (Value Reference) →
      Flow Reference World Effect) :
    (popMany count stack goOn).mapTarget change =
      popMany count stack fun taken rest =>
        (goOn taken rest).mapTarget change := by
  unfold popMany
  split <;> rfl

@[simp]
theorem mapTarget_popOwner
    (isStatic : Bool)
    (goOn : Option (Value Reference) → List (Value Reference) →
      Flow Reference World Effect) :
    (popOwner isStatic stack goOn).mapTarget change =
      popOwner isStatic stack fun owner rest =>
        (goOn owner rest).mapTarget change := by
  cases isStatic with
  | true => rfl
  | false => exact mapTarget_pop change stack _

@[simp]
theorem mapTarget_request (asked : Request Reference) (counts : Bool) :
    (environment.request world asked counts stack).mapTarget change =
      environment.request world asked counts stack := by
  unfold request
  split
  · rfl
  · split <;> rfl

@[simp]
theorem mapTarget_pushSlot (slot : Slot) :
    (environment.pushSlot world slot stack).mapTarget change =
      environment.pushSlot world slot stack := by
  unfold pushSlot
  split <;> rfl

@[simp]
theorem mapTarget_pushPointer (slot : Slot) :
    (environment.pushPointer world slot stack).mapTarget change =
      environment.pushPointer world slot stack := by
  unfold pushPointer
  split <;> rfl

@[simp]
theorem mapTarget_popSlot (slot : Slot) :
    (environment.popSlot world slot stack).mapTarget change =
      environment.popSlot world slot stack := by
  rw [popSlot, mapTarget_pop]
  congr 1
  funext value rest
  split <;> rfl

@[simp]
theorem mapTarget_combine (combination : Int → Int → Int) :
    (combine world combination stack : Flow Reference World
        Effect).mapTarget change =
      combine world combination stack := by
  rw [combine, mapTarget_pop]
  congr 1
  funext right rest
  rw [mapTarget_pop]
  congr 1
  funext left others
  split
  · dsimp only
    split <;> rfl
  · rfl

end Targets

end Environment

namespace Machine

variable (machine : Machine Reference World Effect)

open Environment in
/-- What an operation does, wherever it stands. -/
def perform
    (operation : Operation) (stack : List (Value Reference))
    (world : World) : Flow Reference World Effect :=
  let environment := machine.environment
  let graph := machine.graph
  match operation with
  | .nop => .next stack world []
  | .ldNull => push world .null stack
  | .ldStr text =>
      push world (.reference (environment.text text)) stack
  | .ldcI4 value => push world (.int value.toInt) stack
  | .ldArg slot => environment.pushSlot world (.argument slot) stack
  | .ldArgA slot => environment.pushPointer world (.argument slot) stack
  | .stArg slot => environment.popSlot world (.argument slot) stack
  | .ldLoc slot => environment.pushSlot world (.variable slot) stack
  | .ldLocA slot => environment.pushPointer world (.variable slot) stack
  | .stLoc slot => environment.popSlot world (.variable slot) stack
  | .dup => pop stack fun top rest => .next (top :: top :: rest) world []
  | .pop => pop stack fun _ rest => .next rest world []
  | .ceq =>
      pop stack fun right rest =>
        pop rest fun left others =>
          push world
            (.ofBool (left.same environment.sameReference right)) others
  | .add => combine world (· + ·) stack
  | .sub => combine world (· - ·) stack
  | .ldIndRef | .ldObj _ =>
      pop stack fun pointer rest =>
        environment.request world (.load pointer) true rest
  | .stIndRef =>
      pop stack fun value rest =>
        pop rest fun pointer others =>
          environment.request world (.store pointer value) false others
  | .box type =>
      pop stack fun value rest =>
        push world (environment.box type value) rest
  | .ldFld field =>
      popOwner (graph.field field).access.isStatic stack
        fun owner rest =>
          environment.request world (.loadField field owner) true rest
  | .ldFldA field =>
      popOwner (graph.field field).access.isStatic stack
        fun owner rest =>
          environment.request world (.pointToField field owner) true rest
  | .stFld field =>
      pop stack fun value rest =>
        popOwner (graph.field field).access.isStatic rest
          fun owner others =>
            environment.request world (.storeField field owner value)
              false others
  | .call method => invoke false method
  | .callVirt method => invoke true method
  | .newObj constructor =>
      popMany (graph.method constructor).parameters.length stack
        fun arguments rest =>
          environment.request world (.construct constructor arguments)
            true rest
  | .branch .always _ target => .jump target stack
  | .branch .leave _ target => .jump target []
  | .branch .ifTrue _ target =>
      pop stack fun value rest =>
        if value.isNull then .next rest world [] else .jump target rest
  | .branch .ifFalse _ target =>
      pop stack fun value rest =>
        if value.isNull then .jump target rest else .next rest world []
  | .switch targets =>
      pop stack fun value rest =>
        match value.number? with
        | none => .stuck
        | some number =>
            match if number < 0 then none else targets[number.toNat]? with
            | none => .next rest world []
            | some target => .jump target rest
  | .ret =>
      if machine.returnsValue then pop stack fun value _ => .returns value
      else .returns .null
  | .throw => pop stack fun exception _ => .raises exception world []
  | .endFinally => .stuck
where
  invoke (isVirtual : Bool) (method : MethodId) :
      Flow Reference World Effect :=
    let decl := machine.graph.method method
    popMany (decl.parameters.length + decl.hasReceiver.toNat) stack
      fun arguments rest =>
        machine.environment.request world
          (.call isVirtual method arguments) (!decl.returnType.isVoid) rest

/-! ## Steps -/

/-- Go where an exception that is thrown at a position is caught. -/
def raiseAt
    (body : MethodBody) (position : Nat)
    (exception : Value Reference) (world : World)
    (effects : List Effect) : State Reference World Effect :=
  match machine.environment.caughtAs exception world with
  | none => .ended .stuck world effects
  | some caught =>
      match body.handlers.find? fun handler =>
          body.protects handler position &&
            handler.kind.catches caught with
      | none => .ended (.threw exception) world effects
      | some handler =>
          match body.indexOf? handler.handlerStart with
          | none => .ended .stuck world effects
          | some start => .running ⟨start, [exception], world, effects⟩

/-- Go on after an operation at a position. -/
def follow
    (body : MethodBody)
    (config : Config Reference World Effect) :
    Flow Reference World Effect → State Reference World Effect
  | .next stack world effects =>
      .running
        ⟨config.position + 1, stack, world, config.effects ++ effects⟩
  | .jump target stack =>
      match body.indexOf? target with
      | none => .ended .stuck config.world config.effects
      | some position =>
          .running ⟨position, stack, config.world, config.effects⟩
  | .returns value =>
      .ended (.returned value) config.world config.effects
  | .raises exception world effects =>
      machine.raiseAt body config.position exception world
        (config.effects ++ effects)
  | .stuck => .ended .stuck config.world config.effects

/-- One step of a run. -/
def step
    (body : MethodBody)
    (config : Config Reference World Effect) :
    State Reference World Effect :=
  match body.instructions[config.position]? with
  | none => .ended .stuck config.world config.effects
  | some instruction =>
      machine.follow body config
        (machine.perform instruction.operation config.stack config.world)

/-! ## What steps depend on -/

theorem effects_raiseAt
    (body : MethodBody) (position : Nat)
    (exception : Value Reference) (world : World)
    (effects : List Effect) :
    (machine.raiseAt body position exception world effects).effects =
      effects := by
  unfold raiseAt
  split
  · rfl
  · split
    · rfl
    · split <;> rfl

theorem effects_follow
    (body : MethodBody) (config : Config Reference World Effect)
    (flow : Flow Reference World Effect) :
    config.effects <+: (machine.follow body config flow).effects := by
  cases flow with
  | next stack world effects =>
      exact List.prefix_append _ _
  | jump target stack =>
      simp only [follow]
      cases body.indexOf? target <;> exact List.prefix_refl _
  | returns value =>
      exact List.prefix_refl _
  | raises exception world effects =>
      rw [follow, effects_raiseAt]
      exact List.prefix_append _ _
  | stuck =>
      exact List.prefix_refl _

/-- A step takes no effect back. -/
theorem effects_step
    (body : MethodBody) (config : Config Reference World Effect) :
    config.effects <+: (machine.step body config).effects := by
  rw [step]
  cases body.instructions[config.position]? with
  | none =>
      exact List.prefix_refl _
  | some instruction =>
      exact machine.effects_follow body config _

/-- The form of a branch says nothing about what it does. -/
@[simp]
theorem perform_withForm
    (form : BranchForm) (operation : Operation)
    (stack : List (Value Reference)) (world : World) :
    machine.perform (operation.withForm form) stack world =
      machine.perform operation stack world := by
  cases operation with
  | branch kind _ _ => cases kind <;> rfl
  | _ => rfl

/-- An operation with other targets jumps there. -/
theorem perform_mapTargets
    (change : InstrId → InstrId) (operation : Operation)
    (stack : List (Value Reference)) (world : World) :
    machine.perform (operation.mapTargets change) stack world =
      (machine.perform operation stack world).mapTarget change := by
  cases operation with
  | branch kind form target =>
      cases kind with
      | always => rfl
      | leave => rfl
      | ifTrue =>
          simp only [Operation.mapTargets, perform,
            Environment.mapTarget_pop]
          congr 1
          funext value rest
          split <;> rfl
      | ifFalse =>
          simp only [Operation.mapTargets, perform,
            Environment.mapTarget_pop]
          congr 1
          funext value rest
          split <;> rfl
  | switch targets =>
      simp only [Operation.mapTargets, perform,
        Environment.mapTarget_pop]
      congr 1
      funext value rest
      cases value.number? with
      | none => rfl
      | some number =>
          by_cases negative : number < 0
          · simp [negative]
          · simp only [negative, if_false, List.getElem?_map]
            cases targets[number.toNat]? <;> rfl
  | ret =>
      simp only [Operation.mapTargets, perform]
      split
      · cases stack <;> rfl
      · rfl
  | throw =>
      cases stack <;> rfl
  | _ => simp [Operation.mapTargets, perform, perform.invoke]

@[simp]
theorem protects_widen
    (body : MethodBody) (handler : ExceptionHandler) (position : Nat) :
    body.widen.protects handler position =
      body.protects handler position := by
  simp [MethodBody.protects]

/-- The forms of branches do not matter to a run. -/
@[simp]
theorem step_widen
    (body : MethodBody) (config : Config Reference World Effect) :
    machine.step body.widen config = machine.step body config := by
  have follow : ∀ flow,
      machine.follow body.widen config flow =
        machine.follow body config flow := by
    intro flow
    cases flow <;>
      simp [Machine.follow, raiseAt]
  rw [step, step, MethodBody.instructions_widen, getElem?_widenBranches]
  cases body.instructions[config.position]? with
  | none =>
      rfl
  | some instruction =>
      simp [Instruction.withForm, follow]

end Machine

end Machine

end NullWeave
