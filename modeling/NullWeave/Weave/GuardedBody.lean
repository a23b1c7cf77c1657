import NullWeave.Code.Branches
import NullWeave.Weave.Guard.Basic
import NullWeave.Weave.Log

/-!
# Bodies with guards

Guards are put into a copy of a body, which remembers how many there are and
what was logged about them.  A guard stands in front of the body or before an
instruction, its first instruction hidden from debuggers.
-/

namespace NullWeave

/-! ## Points -/

/-- The positions of the instructions whose operation satisfies a test, the last one first. -/
def positionsWhere (test : Operation → Bool) (instructions : List Instruction) : List Nat :=
  (instructions.zipIdx.filterMap fun (instruction, index) =>
    if test instruction.operation then some index else none).reverse

/-- The positions where a method returns, the last one first. -/
def returnPositions (instructions : List Instruction) : List Nat :=
  positionsWhere Operation.isRet instructions

/-! ## Putting guards into bodies -/

namespace MethodBody

/-- Hide the first instruction of a fragment from debuggers. -/
def hideFragment (body : MethodBody) (fragment : List Instruction) (document : Option String) :
    MethodBody :=
  match fragment.head? with
  | none => body
  | some first => { body with debugInfo := body.debugInfo.hide first.id document }

/-- Put a fragment, hidden from debuggers, before the instruction at a position. -/
def hideAndInsert (body : MethodBody) (index : Nat) (fragment : List Instruction)
    (document : Option String) : MethodBody :=
  (body.hideFragment fragment document).insertBefore index fragment

/-- Put a fragment, hidden from debuggers, in front of a body. -/
def hideAndPrepend (body : MethodBody) (fragment : List Instruction)
    (document : Option String) : MethodBody :=
  (body.hideFragment fragment document).prepend fragment

end MethodBody

/-! ## Guarded bodies -/

/-- A body into which guards are put. -/
structure GuardedBody where
  body : MethodBody
  /-- The number of guards put in so far. -/
  guards : Nat := 0
  log : List LogEntry := []
deriving Inhabited

/-- What all guards of a body have in common. -/
structure GuardStyle where
  /-- Do guards also assert what they check? -/
  debugBuild : Bool
  /-- The document to which hidden sequence points are tied. -/
  document : Option String
deriving DecidableEq, Inhabited

namespace GuardedBody

/-- Write a record. -/
def note (guarded : GuardedBody) (level : LogLevel) (text : String) : GuardedBody :=
  { guarded with log := guarded.log ++ [⟨level, text⟩] }

@[simp]
theorem body_note (guarded : GuardedBody) (level : LogLevel) (text : String) :
    (guarded.note level text).body = guarded.body := rfl

@[simp]
theorem guards_note (guarded : GuardedBody) (level : LogLevel) (text : String) :
    (guarded.note level text).guards = guarded.guards := rfl

/-- Put a guard in front of the body; an empty body stays empty. -/
def addEntryGuard (style : GuardStyle) (guard : Guard) (guarded : GuardedBody) : GuardedBody :=
  match guarded.body.firstId? with
  | none => guarded
  | some entry =>
      let (body, fragment) :=
        guarded.body.makeInstructions (guard.operations style.debugBuild entry)
      { guarded with
        body := body.hideAndPrepend fragment style.document
        guards := guarded.guards + 1 }.note .debug
          ("Prepending " ++ toString fragment.length ++ " guard instructions")

/-- Put a guard before the instruction at a position; past the end nothing happens. -/
def addExitGuard (style : GuardStyle) (index : Nat) (guard : Guard) (guarded : GuardedBody) :
    GuardedBody :=
  match guarded.body.instructions[index]? with
  | none => guarded
  | some point =>
      let (body, fragment) :=
        guarded.body.makeInstructions (guard.operations style.debugBuild point.id)
      { guarded with
        body := body.hideAndInsert index fragment style.document
        guards := guarded.guards + 1 }.note .debug
          ("Inserting " ++ toString fragment.length ++ " guard instructions at " ++
            toString index)

/-- Narrow the branches again and bring the debug information up to date. -/
def finish (guarded : GuardedBody) : MethodBody :=
  guarded.body.narrow.refreshDebugInfo

/-- The finished body of a method, whose local variables are set to zero on entry. -/
def close (guarded : GuardedBody) : MethodBody :=
  { guarded.finish with initLocals := true }

end GuardedBody

end NullWeave
