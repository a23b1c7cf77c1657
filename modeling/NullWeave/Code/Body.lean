import NullWeave.Code.DebugInfo
import NullWeave.Code.Error

/-!
# Method bodies

A body is a list of instructions with what belongs to it: local variables,
exception handlers, debug information, and the next identity it gives out.

There are two ways to put a fragment of instructions into a body.  Put in
front, it leaves every reference alone, so a jump to the old first instruction
passes it by.  Put before a return point, it takes over every reference to that
instruction, so all ways to the return lead through it; the references inside
the fragment itself stay as they are.
-/

namespace NullWeave

/-- A local variable. -/
structure LocalVariable where
  name : String
  type : Signature
deriving Inhabited

/-- What a handler does with an exception. -/
inductive HandlerKind where
  | catch (type : TypeId)
  | finally
deriving DecidableEq, Inhabited

/--
A protected region and its handler.

Where a region ends is said by the first instruction after it, or by nothing
for a handler that runs to the end of the body.
-/
structure ExceptionHandler where
  kind : HandlerKind
  tryStart : InstrId
  tryEnd : InstrId
  handlerStart : InstrId
  handlerEnd : Option InstrId
deriving DecidableEq, Inhabited

namespace ExceptionHandler

/-- The instructions that bound the regions. -/
def boundaries (handler : ExceptionHandler) : List InstrId :=
  [handler.tryStart, handler.tryEnd, handler.handlerStart] ++ handler.handlerEnd.toList

/-- The handler with a function applied to each boundary. -/
def mapBoundaries (change : InstrId → InstrId) (handler : ExceptionHandler) :
    ExceptionHandler where
  kind := handler.kind
  tryStart := change handler.tryStart
  tryEnd := change handler.tryEnd
  handlerStart := change handler.handlerStart
  handlerEnd := handler.handlerEnd.map change

@[simp]
theorem boundaries_mapBoundaries (change : InstrId → InstrId) (handler : ExceptionHandler) :
    (handler.mapBoundaries change).boundaries = handler.boundaries.map change := by
  cases handler with
  | mk kind tryStart tryEnd handlerStart handlerEnd =>
      cases handlerEnd <;> rfl

end ExceptionHandler

/-- The body of a method. -/
structure MethodBody where
  instructions : List Instruction := []
  locals : List LocalVariable := []
  handlers : List ExceptionHandler := []
  /-- Are local variables set to zero on entry? -/
  initLocals : Bool := false
  debugInfo : DebugInfo := {}
  /-- The identity that is given out next. -/
  nextId : InstrId := .first
deriving Inhabited

namespace MethodBody

/-! ## Identities -/

/-- Give out an identity, for an instruction that is put in later. -/
def takeId (body : MethodBody) : MethodBody × InstrId :=
  ({ body with nextId := body.nextId.next }, body.nextId)

/-- Operations as instructions, with identities counted from a first one. -/
def numberFrom (id : InstrId) : List Operation → List Instruction
  | [] => []
  | operation :: rest => ⟨id, operation⟩ :: numberFrom id.next rest

/-- Make instructions with fresh identities, without putting them anywhere. -/
def makeInstructions (body : MethodBody) (operations : List Operation) :
    MethodBody × List Instruction :=
  ({ body with nextId := ⟨body.nextId.number + operations.length⟩ },
    numberFrom body.nextId operations)

/-- Put operations at the end, with fresh identities. -/
def append (body : MethodBody) (operations : List Operation) : MethodBody :=
  let (numbered, fragment) := body.makeInstructions operations
  { numbered with instructions := numbered.instructions ++ fragment }

/-- Put instructions at the end under identities that were given out before. -/
def appendInstructions (body : MethodBody) (fragment : List Instruction) : MethodBody :=
  { body with instructions := body.instructions ++ fragment }

@[simp]
theorem length_numberFrom (id : InstrId) (operations : List Operation) :
    (numberFrom id operations).length = operations.length := by
  induction operations generalizing id with
  | nil => rfl
  | cons operation rest ih => simp [numberFrom, ih]

@[simp]
theorem map_operation_numberFrom (id : InstrId) (operations : List Operation) :
    (numberFrom id operations).map (·.operation) = operations := by
  induction operations generalizing id with
  | nil => rfl
  | cons operation rest ih => simp [numberFrom, ih]

/-! ## Positions -/

/-- The position of the first instruction with an identity. -/
def indexOf? (body : MethodBody) (id : InstrId) : Option Nat :=
  body.instructions.findIdx? (·.id == id)

/-- The position of an instruction that has to be in the body. -/
def position (body : MethodBody) (id : InstrId) : Except CodeError Nat :=
  match body.indexOf? id with
  | none => .error (.unknownInstruction id)
  | some index => .ok index

/-- The identity of the first instruction. -/
def firstId? (body : MethodBody) : Option InstrId :=
  body.instructions.head?.map (·.id)

/-- All references in a body: the targets in order, then the boundaries of the handlers. -/
def references (body : MethodBody) : List InstrId :=
  body.instructions.flatMap (·.operation.targets) ++ body.handlers.flatMap (·.boundaries)

/-- Check that every reference names an instruction of the body; the first other one is told. -/
def ensureResolved (body : MethodBody) : Except CodeError Unit :=
  match body.references.find? fun id => (body.indexOf? id).isNone with
  | none => .ok ()
  | some id => .error (.unknownInstruction id)

/-! ## Putting code in -/

/-- Move every reference from one instruction to another. -/
def redirect (body : MethodBody) (old new : InstrId) : MethodBody :=
  let change (id : InstrId) : InstrId := if id = old then new else id
  { body with
    instructions := body.instructions.map (·.mapTargets change)
    handlers := body.handlers.map (·.mapBoundaries change) }

/-- Put a fragment in front of the body; no reference changes. -/
def prepend (body : MethodBody) (fragment : List Instruction) : MethodBody :=
  { body with instructions := fragment ++ body.instructions }

/--
Put a fragment before the instruction at a position.

Every reference that the body has to that instruction moves to the first
instruction of the fragment.  Outside the body, or without a fragment, nothing
happens.
-/
def insertBefore (body : MethodBody) (index : Nat) (fragment : List Instruction) :
    MethodBody :=
  match body.instructions[index]?, fragment.head? with
  | some returnPoint, some fragmentStart =>
      let moved := body.redirect returnPoint.id fragmentStart.id
      { moved with
        instructions := moved.instructions.take index ++ fragment ++
          moved.instructions.drop index }
  | _, _ => body

/-! ## Debug information -/

/-- Bring the debug information up to date with the instructions and the local variables. -/
def refreshDebugInfo (body : MethodBody) : MethodBody :=
  { body with
    debugInfo := body.debugInfo.update body.instructions body.locals.length }

end MethodBody

end NullWeave
