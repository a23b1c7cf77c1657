import NullWeave.Proofs.Code.Identity

/-!
# Bodies up to the forms of their branches

Widening and narrowing change the forms of branches and nothing else.  So a
narrowed body widens to what the body before it widens to, and whatever does
not look at forms (identities, references, positions, stack effects) is the
same for a body and for its widened copy.
-/

namespace NullWeave

/-! ## One instruction -/

namespace Operation

@[simp]
theorem withForm_withForm
    (inner outer : BranchForm) (operation : Operation) :
    (operation.withForm inner).withForm outer =
      operation.withForm outer := by
  cases operation <;> rfl

@[simp]
theorem isRet_withForm
    (form : BranchForm) (operation : Operation) :
    (operation.withForm form).isRet = operation.isRet := by
  cases operation <;> rfl

@[simp]
theorem isRet_mapTargets
    (change : InstrId → InstrId) (operation : Operation) :
    (operation.mapTargets change).isRet = operation.isRet := by
  cases operation <;> rfl

@[simp]
theorem neverFallsThrough_withForm
    (form : BranchForm) (operation : Operation) :
    (operation.withForm form).neverFallsThrough =
      operation.neverFallsThrough := by
  cases operation with
  | branch kind _ _ => cases kind <;> rfl
  | _ => rfl

@[simp]
theorem neverFallsThrough_mapTargets
    (change : InstrId → InstrId) (operation : Operation) :
    (operation.mapTargets change).neverFallsThrough =
      operation.neverFallsThrough := by
  cases operation with
  | branch kind _ _ => cases kind <;> rfl
  | _ => rfl

@[simp]
theorem stackEffect_withForm
    (graph : Graph) (form : BranchForm) (operation : Operation) :
    (operation.withForm form).stackEffect graph =
      operation.stackEffect graph := by
  cases operation with
  | branch kind _ _ => cases kind <;> rfl
  | _ => rfl

@[simp]
theorem stackEffect_mapTargets
    (graph : Graph) (change : InstrId → InstrId)
    (operation : Operation) :
    (operation.mapTargets change).stackEffect graph =
      operation.stackEffect graph := by
  cases operation with
  | branch kind _ _ => cases kind <;> rfl
  | _ => rfl

theorem withForm_mapTargets
    (form : BranchForm) (change : InstrId → InstrId)
    (operation : Operation) :
    (operation.mapTargets change).withForm form =
      (operation.withForm form).mapTargets change := by
  cases operation <;> rfl

theorem isRet_of_mem_targets
    {operation : Operation} {target : InstrId}
    (targeted : target ∈ operation.targets) :
    operation.isRet = false := by
  cases operation <;> simp_all [targets, isRet]

theorem isRet_of_goesOn
    {operation : Operation}
    (goesOn : operation.neverFallsThrough = false) :
    operation.isRet = false := by
  cases operation <;> simp_all [neverFallsThrough, isRet]

end Operation

@[simp]
theorem Instruction.withForm_withForm
    (inner outer : BranchForm) (instruction : Instruction) :
    (instruction.withForm inner).withForm outer =
      instruction.withForm outer := by
  simp [Instruction.withForm]

/-! ## Lists of instructions -/

@[simp]
theorem identities_widenBranches
    (instructions : List Instruction) :
    identities (widenBranches instructions) =
      identities instructions := by
  simp [identities, widenBranches, Function.comp_def]

@[simp]
theorem widenBranches_eq_nil_iff {instructions : List Instruction} :
    widenBranches instructions = [] ↔ instructions = [] := by
  simp [widenBranches]

@[simp]
theorem length_widenBranches
    (instructions : List Instruction) :
    (widenBranches instructions).length = instructions.length := by
  simp [widenBranches]

theorem getElem?_widenBranches
    (instructions : List Instruction) (index : Nat) :
    (widenBranches instructions)[index]? =
      instructions[index]?.map (·.withForm .long) := by
  simp [widenBranches]

@[simp]
theorem widenBranches_widenBranches
    (instructions : List Instruction) :
    widenBranches (widenBranches instructions) =
      widenBranches instructions := by
  simp [widenBranches]

theorem widenBranches_numberFrom
    (start : InstrId) (operations : List Operation) :
    widenBranches (MethodBody.numberFrom start operations) =
      MethodBody.numberFrom start
        (operations.map (·.withForm .long)) := by
  induction operations generalizing start with
  | nil =>
      rfl
  | cons operation rest inductionHypothesis =>
      have tail := inductionHypothesis start.next
      simp only [widenBranches] at tail
      simp only [MethodBody.numberFrom, widenBranches, List.map_cons,
        tail]
      rfl

theorem widenBranches_narrowMarked
    {instructions : List Instruction} {marks : List Bool}
    (sameLength : marks.length = instructions.length) :
    widenBranches (narrowMarked instructions marks) =
      widenBranches instructions := by
  induction instructions generalizing marks with
  | nil =>
      simp [narrowMarked, widenBranches]
  | cons instruction rest inductionHypothesis =>
      cases marks with
      | nil =>
          simp at sameLength
      | cons mark marks =>
          have tail :=
            inductionHypothesis
              (show marks.length = rest.length by
                simpa using sameLength)
          have head :
              (if mark then instruction.withForm .short
                else instruction).withForm .long =
                instruction.withForm .long := by
            cases mark <;> simp
          simp only [narrowMarked, widenBranches, List.zipWith_cons_cons,
            List.map_cons] at tail ⊢
          rw [head, tail]

theorem widenBranches_narrowWithin
    (low high : Int) (rounds : Nat)
    (instructions : List Instruction) :
    widenBranches (narrowWithin low high rounds instructions) =
      widenBranches instructions := by
  induction rounds generalizing instructions with
  | zero =>
      rfl
  | succ rounds inductionHypothesis =>
      simp only [narrowWithin]
      split
      · rw [inductionHypothesis]
        exact widenBranches_narrowMarked (by simp [narrowable])
      · rfl

/-- Narrowing changes nothing but forms. -/
@[simp]
theorem widenBranches_narrowBranches
    (low high : Int) (instructions : List Instruction) :
    widenBranches (narrowBranches low high instructions) =
      widenBranches instructions :=
  widenBranches_narrowWithin low high _ instructions

/-! ## Bodies -/

namespace MethodBody

@[simp]
theorem instructions_widen (body : MethodBody) :
    body.widen.instructions = widenBranches body.instructions := rfl

@[simp]
theorem handlers_widen (body : MethodBody) :
    body.widen.handlers = body.handlers := rfl

@[simp]
theorem nextId_widen (body : MethodBody) :
    body.widen.nextId = body.nextId := rfl

@[simp]
theorem widen_widen (body : MethodBody) :
    body.widen.widen = body.widen := by
  simp [widen]

@[simp]
theorem indexOf?_widen (body : MethodBody) (id : InstrId) :
    body.widen.indexOf? id = body.indexOf? id := by
  simp [indexOf?, widen, widenBranches, List.findIdx?_map,
    Function.comp_def]

@[simp]
theorem position_widen (body : MethodBody) (id : InstrId) :
    body.widen.position id = body.position id := by
  simp [position]

@[simp]
theorem references_widen (body : MethodBody) :
    body.widen.references = body.references := by
  simp [references, widen, widenBranches, List.flatMap_map,
    Instruction.withForm]

/-- Widening keeps a body well formed. -/
theorem WellFormed.widen
    {body : MethodBody} (wellFormed : body.WellFormed) :
    body.widen.WellFormed where
  distinct := by
    simpa using wellFormed.distinct
  issued := by
    intro instruction member
    obtain ⟨original, originalMember, rfl⟩ :=
      List.mem_map.mp member
    exact wellFormed.issued original originalMember
  resolved := by
    have resolved := ensureResolved_eq_ok_iff.mp wellFormed.resolved
    refine ensureResolved_eq_ok_iff.mpr ?_
    simpa using resolved

end MethodBody

end NullWeave
