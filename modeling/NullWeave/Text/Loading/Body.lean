import NullWeave.Code.Body
import NullWeave.Text.Operand

/-!
# Bodies of methods

A body is built from its items in two passes.  The first one gives out the
identities of the instructions, from the first identity on, so what a label
stands for is known before any operand is read, and jumps forward and backward
are looked up alike.  The second one reads the instructions, each of which takes
the next of the identities that were given out.
-/

namespace NullWeave

/-- Fail in a line. -/
def inLine {α : Type} (line : Nat) : Except TextFault α → Except TextError α
  | .ok value => .ok value
  | .error fault => .error ⟨line, fault⟩

namespace BodyItem

/-- A sequence point on an instruction; without a place it is hidden. -/
def placedPoint (instruction : InstrId) (document : String) : Option Span → SequencePoint
  | none => .hidden instruction document
  | some span =>
      { instruction
        document
        startLine := span.startLine
        startColumn := span.startColumn
        endLine := span.endLine
        endColumn := span.endColumn }

end BodyItem

/-! ## Identities that are given out -/

/-- What is given out to the items of a body before any of them is read. -/
structure Reservation where
  /-- The identity that is given out next. -/
  nextId : InstrId := .first
  /-- The identities of the instructions so far, in their order. -/
  ids : List InstrId := []
  /-- The labels that an instruction followed, each with its identity. -/
  placed : List (String × InstrId) := []
  /-- The labels that wait for an instruction. -/
  waiting : List String := []
deriving DecidableEq, Inhabited

namespace Reservation

/-- Is a name one of the labels so far? -/
def knows (held : Reservation) (name : String) : Bool :=
  held.placed.any (·.1 == name) || held.waiting.contains name

/-- An identity is given out to an instruction, and the labels that waited stand for it. -/
def giveOut (held : Reservation) : Reservation where
  nextId := held.nextId.next
  ids := held.ids ++ [held.nextId]
  placed := held.placed ++ held.waiting.map (·, held.nextId)
  waiting := []

/-- What is given out to one more item; a label waits for an instruction. -/
def add (held : Reservation) : BodyItem → Except TextError Reservation
  | .label line name =>
      if held.knows name then
        .error ⟨line, .labelRedefined name⟩
      else
        .ok { held with waiting := held.waiting ++ [name] }
  | .point _ _ _ => .ok held
  | .instruction _ _ _ => .ok held.giveOut

/-- What is given out to items. -/
def ofItems (items : List BodyItem) : Except TextError Reservation :=
  items.foldlM add {}

/-- The labels, each with the instruction after it; those that still wait have none. -/
def labels (held : Reservation) : List (String × Option InstrId) :=
  held.placed.map (fun (name, id) => (name, some id)) ++ held.waiting.map (·, none)

end Reservation

/-! ## Parts of bodies -/

/-- A sequence point that waits for its instruction. -/
structure WaitingPoint where
  line : Nat
  document : String
  span : Option Span
deriving DecidableEq, Inhabited

namespace BodyScope

/-- Read items, whose instructions take identities that were given out for them. -/
def buildItems (scope : BodyScope) (waiting : List WaitingPoint) :
    List InstrId → List BodyItem → Except TextError (List Instruction × List SequencePoint)
  | _, [] =>
      match waiting with
      | [] => .ok ([], [])
      | point :: _ => .error ⟨point.line, .danglingSequencePoint⟩
  | ids, .label _ _ :: rest => scope.buildItems waiting ids rest
  | ids, .point line document span :: rest =>
      scope.buildItems (waiting ++ [⟨line, document, span⟩]) ids rest
  | [], .instruction line _ _ :: _ => .error ⟨line, .instructionCountChanged⟩
  | id :: ids, .instruction line mnemonic operands :: rest => do
      let operation ← inLine line (scope.readInstruction mnemonic operands)
      let (instructions, points) ← scope.buildItems [] ids rest
      let placed := waiting.map fun point =>
        BodyItem.placedPoint id point.document point.span
      pure (⟨id, operation⟩ :: instructions, placed ++ points)

/-- Read what a handler does. -/
def readHandlerKind (scope : BodyScope) : HandlerKindText → Except TextFault HandlerKind
  | .finally => .ok .finally
  | .catch type => .catch <$> scope.graph.definitionOf scope.method.owner type

/-- Read a handler. -/
def readHandler (scope : BodyScope) (text : HandlerText) : Except TextFault ExceptionHandler := do
  let kind ← scope.readHandlerKind text.kind
  let tryStart ← scope.label text.tryStart
  let tryEnd ← scope.label text.tryEnd
  let handlerStart ← scope.label text.handlerStart
  let handlerEnd ←
    match text.handlerEnd with
    | none => pure none
    | some name => scope.labelTarget name
  pure { kind, tryStart, tryEnd, handlerStart, handlerEnd }

end BodyScope

/-- Read local variables; `seen` holds the names of those before them. -/
def readLocals (graph : Graph) (owner : TypeId) (seen : List String) :
    List (TypeExpr × String) → Except TextFault (List LocalVariable)
  | [] => .ok []
  | (type, name) :: rest =>
      if name ∈ seen then
        .error (.localRedeclared name)
      else do
        let type ← graph.resolve owner type
        let others ← readLocals graph owner (name :: seen) rest
        pure ({ name, type } :: others)

/-- The scope of a body that has sequence points: all instructions and all local variables. -/
def wholeScope? (instructions : List Instruction) (points : List SequencePoint)
    (localCount : Nat) : Option Scope :=
  if points.isEmpty then
    none
  else
    match instructions.head?, instructions.getLast? with
    | some first, some last =>
        some { start := first.id, finish := last.id, slots := slotsBelow localCount }
    | _, _ => none

/-- Build the body of a method. -/
def readBody (graph : Graph) (method : MethodDecl) (line : Nat) (text : BodyText) :
    Except TextError MethodBody := do
  let locals ← inLine line (readLocals graph method.owner [] text.locals)
  let reserved ← Reservation.ofItems text.items
  let scope : BodyScope :=
    { graph
      method
      locals := locals.map (·.name)
      labels := reserved.labels }
  let (instructions, points) ← scope.buildItems [] reserved.ids text.items
  let handlers ← text.handlers.mapM fun handler => inLine handler.line (scope.readHandler handler)
  let body : MethodBody :=
    { instructions
      locals
      handlers
      initLocals := text.initLocals
      debugInfo := { points, scope := wholeScope? instructions points locals.length }
      nextId := reserved.nextId }
  match body.ensureResolved with
  | .error failure => throw ⟨line, .code failure⟩
  | .ok () => pure body

end NullWeave
