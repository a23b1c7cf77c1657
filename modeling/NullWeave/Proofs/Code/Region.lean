import NullWeave.Proofs.Code.Forms

/-!
# Regions

A handler has two regions: what it protects, and itself.  Each goes from one
instruction up to another one, or to the end of the body, so whether it holds
an instruction is a matter of positions.
-/

namespace NullWeave

namespace MethodBody

/-- Does the stretch from an instruction up to another one, or to the end, hold a position? -/
def within
    (body : MethodBody) (start : InstrId) (stop : Option InstrId)
    (position : Nat) : Bool :=
  (body.indexOf? start).any (· ≤ position) &&
    stop.all fun id => (body.indexOf? id).any (position < ·)

/-- Does a region of a handler hold a position? -/
def inRegion (body : MethodBody) (position : Nat) : Bool :=
  body.handlers.any fun handler =>
    body.within handler.tryStart (some handler.tryEnd) position ||
      body.within handler.handlerStart handler.handlerEnd position

/-- Does an operation that satisfies a test stand in a region of a handler? -/
def anyInRegion (body : MethodBody) (test : Operation → Bool) : Bool :=
  body.instructions.zipIdx.any fun (instruction, position) =>
    test instruction.operation && body.inRegion position

variable {body : MethodBody} {test : Operation → Bool}

theorem anyInRegion_iff :
    body.anyInRegion test = true ↔
      ∃ position instruction,
        body.instructions[position]? = some instruction ∧
          test instruction.operation = true ∧
          body.inRegion position = true := by
  simp only [anyInRegion, List.any_eq_true, Bool.and_eq_true, Prod.exists,
    List.mk_mem_zipIdx_iff_getElem?]
  exact exists_comm

/-! ## Forms of branches -/

@[simp]
theorem within_widen
    (start : InstrId) (stop : Option InstrId) (position : Nat) :
    body.widen.within start stop position =
      body.within start stop position := by
  simp [within]

@[simp]
theorem inRegion_widen (position : Nat) :
    body.widen.inRegion position = body.inRegion position := by
  simp [inRegion]

/-- What stands in a region does not depend on the forms of branches. -/
theorem anyInRegion_widen
    (sameTest : ∀ operation,
      test (operation.withForm .long) = test operation) :
    body.widen.anyInRegion test = body.anyInRegion test := by
  simp [anyInRegion, widenBranches, List.zipIdx_map, List.any_map,
    Function.comp_def, Instruction.withForm, sameTest]

end MethodBody

end NullWeave
