import NullWeave.Code.Instruction

/-!
# Sequence points and scopes

A sequence point ties the code from an instruction on to a place in a document.
One on a special line is hidden: a debugger steps over the code that it covers,
which keeps woven code out of sight.
-/

namespace NullWeave

/-- The line of hidden sequence points. -/
def hiddenLine : Nat := 0xfeefee

/-- A place in a document, tied to the code from an instruction on. -/
structure SequencePoint where
  instruction : InstrId
  document : String
  startLine : Nat
  startColumn : Nat
  endLine : Nat
  endColumn : Nat
deriving DecidableEq, Inhabited

namespace SequencePoint

/-- A sequence point that makes debuggers step over an instruction. -/
def hidden (instruction : InstrId) (document : String) : SequencePoint where
  instruction
  document
  startLine := hiddenLine
  startColumn := 0
  endLine := hiddenLine
  endColumn := 0

/-- Does a debugger step over what the sequence point covers? -/
def isHidden (point : SequencePoint) : Bool := point.startLine == hiddenLine

@[simp]
theorem isHidden_hidden (instruction : InstrId) (document : String) :
    (hidden instruction document).isHidden = true := by
  simp [isHidden, hidden]

end SequencePoint

/-- A range of instructions, both ends included, and the local variables seen there. -/
structure Scope where
  start : InstrId
  finish : InstrId
  slots : List UInt16
deriving DecidableEq, Inhabited

/-- The debug information of a body. -/
structure DebugInfo where
  points : List SequencePoint := []
  scope : Option Scope := none
deriving DecidableEq, Inhabited

/-- The position of the last instruction with an identity. -/
def lastIndexOf? (instructions : List Instruction) (id : InstrId) : Option Nat :=
  (instructions.reverse.findIdx? (·.id == id)).map fun index =>
    instructions.length - 1 - index

/-- The numbers below a count, as slots; a count beyond the slots starts again from zero. -/
def slotsBelow (count : Nat) : List UInt16 :=
  (List.range (UInt16.ofNat count).toNat).map UInt16.ofNat

/-- A list of slots, with those of a second list that it lacks put at its end. -/
def withMissingSlots (slots : List UInt16) : List UInt16 → List UInt16
  | [] => slots
  | slot :: rest => withMissingSlots (if slot ∈ slots then slots else slots ++ [slot]) rest

/-- A scope that covers all instructions and sees a number of local variables. -/
def Scope.cover (instructions : List Instruction) (localCount : Nat) (scope : Scope) :
    Scope where
  start := (instructions.head?.map (·.id)).getD scope.start
  finish := (instructions.getLast?.map (·.id)).getD scope.finish
  slots := withMissingSlots scope.slots (slotsBelow localCount)

namespace DebugInfo

/-- The document of the first sequence point. -/
def document? (info : DebugInfo) : Option String :=
  info.points.head?.map (·.document)

/-- Hide an instruction; without a document there is nothing to tie it to. -/
def hide (info : DebugInfo) (instruction : InstrId) : Option String → DebugInfo
  | none => info
  | some document => { info with points := info.points ++ [.hidden instruction document] }

/-- The sequence points on instructions that are there, in the order of the instructions. -/
def orderPoints (instructions : List Instruction) (points : List SequencePoint) :
    List SequencePoint :=
  let placed := points.filterMap fun point =>
    (lastIndexOf? instructions point.instruction).map fun position => (position, point)
  (placed.mergeSort fun left right => left.1 ≤ right.1).map (·.2)

/--
Bring debug information up to date after instructions were put in.

Sequence points on instructions that are gone are dropped and the others come
in the order of their instructions; a scope covers the whole body and sees
every local variable.
-/
def update (info : DebugInfo) (instructions : List Instruction) (localCount : Nat) :
    DebugInfo where
  points := orderPoints instructions info.points
  scope := info.scope.map (Scope.cover instructions localCount)

end DebugInfo

end NullWeave
