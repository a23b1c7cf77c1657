import NullWeave.Proofs.Code.Forms

/-!
# Counting operations

Putting code in moves targets and changes forms of branches.  A test of
operations that sees neither counts as many instructions afterwards as the
parts have on their own.
-/

namespace NullWeave

/-- A test that sees neither targets nor forms of branches. -/
structure Operation.SeesNoTarget (test : Operation → Bool) : Prop where
  mapTargets : ∀ change operation,
    test (operation.mapTargets change) = test operation
  withForm : ∀ form operation,
    test (operation.withForm form) = test operation

theorem Operation.seesNoTarget_isRet :
    SeesNoTarget Operation.isRet where
  mapTargets _ operation := by
    cases operation <;> rfl
  withForm _ operation := by
    cases operation <;> rfl

/-- The number of instructions whose operation satisfies a test. -/
def countOperations
    (test : Operation → Bool) (instructions : List Instruction) : Nat :=
  instructions.countP fun instruction => test instruction.operation

section Counting

variable {test : Operation → Bool}

@[simp]
theorem countOperations_append (front back : List Instruction) :
    countOperations test (front ++ back) =
      countOperations test front + countOperations test back :=
  List.countP_append

@[simp]
theorem countOperations_numberFrom
    (start : InstrId) (operations : List Operation) :
    countOperations test (MethodBody.numberFrom start operations) =
      operations.countP test := by
  rw [← MethodBody.map_operation_numberFrom start operations,
    List.countP_map]
  simp [countOperations, Function.comp_def]

theorem countOperations_map_mapTargets
    (blind : Operation.SeesNoTarget test) (change : InstrId → InstrId)
    (instructions : List Instruction) :
    countOperations test (instructions.map (·.mapTargets change)) =
      countOperations test instructions := by
  simp [countOperations, List.countP_map, Function.comp_def,
    Instruction.mapTargets, blind.mapTargets]

theorem countOperations_widenBranches
    (blind : Operation.SeesNoTarget test)
    (instructions : List Instruction) :
    countOperations test (widenBranches instructions) =
      countOperations test instructions := by
  simp [countOperations, widenBranches, List.countP_map,
    Function.comp_def, Instruction.withForm, blind.withForm]

end Counting

end NullWeave
