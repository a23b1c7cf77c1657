import NullWeave.Code.Body

/-!
# The depth of the stack

Every instruction that control can reach has to be reached with one depth of
the evaluation stack: zero at the entry, one at a handler that catches (the
exception), zero at one that always runs.  The search below follows all ways
from there, latest found first, and stops at the first fault.

The result is the greatest depth before or after a reached instruction.
-/

namespace NullWeave

/-- What a search for depths knows at a moment. -/
structure DepthSearch where
  /-- The depth before each instruction that was reached. -/
  depths : Array (Option Nat)
  /-- The greatest depth so far. -/
  deepest : Nat
  /-- Positions still to be looked at, each with the depth there, the next one first. -/
  pending : List (Nat × Nat)
deriving Inhabited

/-- The depth at a handler: an exception that is caught lies on the stack. -/
def HandlerKind.entryDepth : HandlerKind → Nat
  | .catch _ => 1
  | .finally => 0

/-- The depth at the target of a jump: `leave` empties the stack. -/
def Operation.depthAtTarget (operation : Operation) (depth : Nat) : Nat :=
  match operation with
  | .branch .leave _ _ => 0
  | _ => depth

namespace MethodBody

/-- The positions that control can start at, each with its depth, in order. -/
def entries (body : MethodBody) : Except CodeError (List (Nat × Nat)) := do
  let handlers ← body.handlers.mapM fun handler => do
    let index ← body.position handler.handlerStart
    pure (index, handler.kind.entryDepth)
  pure ((if body.instructions.isEmpty then [] else [(0, 0)]) ++ handlers)

/-- The positions that control goes to from an instruction, each with its depth, in order. -/
def successors (body : MethodBody) (size index : Nat) (operation : Operation) (depth : Nat) :
    Except CodeError (List (Nat × Nat)) := do
  let jumps ← operation.targets.mapM fun target => do
    let targetIndex ← body.position target
    pure (targetIndex, operation.depthAtTarget depth)
  if operation.neverFallsThrough then
    pure jumps
  else if index + 1 < size then
    pure (jumps ++ [(index + 1, depth)])
  else
    throw .fallsOffEnd

/-- Look at an instruction that is reached for the first time, with a depth. -/
def visit (graph : Graph) (body : MethodBody) (returnsValue : Bool) (size index : Nat)
    (instruction : Instruction) (depth : Nat) (search : DepthSearch) :
    Except CodeError DepthSearch :=
  let reached := { search with
    depths := search.depths.setIfInBounds index (some depth)
    deepest := max search.deepest depth }
  if instruction.operation.isRet then
    if depth = returnsValue.toNat then
      .ok reached
    else
      .error (.badReturnDepth instruction.id depth)
  else
    let effect := instruction.operation.stackEffect graph
    if depth < effect.pops then
      .error (.stackUnderflow instruction.id depth effect.pops)
    else do
      let after := depth - effect.pops + effect.pushes
      let next ← body.successors size index instruction.operation after
      pure { reached with
        deepest := max reached.deepest after
        pending := next.reverse ++ reached.pending }

/-- Look at pending positions until none is left, for at most a number of steps. -/
def searchWithin (graph : Graph) (body : MethodBody) (returnsValue : Bool)
    (code : Array Instruction) : Nat → DepthSearch → Except CodeError DepthSearch
  | 0, search => .ok search
  | steps + 1, search =>
      match search.pending with
      | [] => .ok search
      | (index, depth) :: pending =>
          let rest := { search with pending }
          match code[index]?, search.depths.getD index none with
          | none, _ => searchWithin graph body returnsValue code steps rest
          | some instruction, some expected =>
              if expected = depth then
                searchWithin graph body returnsValue code steps rest
              else
                .error (.inconsistentStackDepth instruction.id expected depth)
          | some instruction, none => do
              let visited ← body.visit graph returnsValue code.size index instruction depth rest
              searchWithin graph body returnsValue code steps visited

/-- The number of ways on from instructions: to each of their targets, and to the next one. -/
def waysOn : List Instruction → Nat
  | [] => 0
  | instruction :: rest => instruction.operation.targets.length + 1 + waysOn rest

/--
The number of positions that a search can ever have pending.

There is one for the entry, one for each handler, and, because an instruction
is visited once, one for each way on from it.
-/
def searchBound (body : MethodBody) : Nat :=
  1 + body.handlers.length + waysOn body.instructions

/-- Check the depths of the stack in a body; the result is the greatest one. -/
def checkDepths (graph : Graph) (body : MethodBody) (returnsValue : Bool) :
    Except CodeError Nat := do
  let entries ← body.entries
  let code := body.instructions.toArray
  let search ← body.searchWithin graph returnsValue code body.searchBound
    { depths := Array.replicate code.size none
      deepest := 0
      pending := entries.reverse }
  pure search.deepest

end MethodBody

end NullWeave
