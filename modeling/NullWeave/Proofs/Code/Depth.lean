import NullWeave.Code.StackDepth
import NullWeave.Proofs.Code.Forms

/-!
# Depths of the stack

Control starts with an empty stack at the first instruction, and with what a
handler finds at the start of the handler.  From there every instruction hands
its depth on to its targets and, if control goes on, to the next instruction.

A body is disciplined if every instruction is reached with one depth at most,
finds there what it takes, and passes control on inside the body only.
-/

namespace NullWeave

namespace Operation

/-- The depth behind an operation. -/
def depthAfter
    (graph : Graph) (operation : Operation) (depth : Nat) : Nat :=
  depth - (operation.stackEffect graph).pops +
    (operation.stackEffect graph).pushes

@[simp]
theorem depthAfter_withForm
    (graph : Graph) (form : BranchForm) (operation : Operation)
    (depth : Nat) :
    (operation.withForm form).depthAfter graph depth =
      operation.depthAfter graph depth := by
  simp [depthAfter]

@[simp]
theorem depthAfter_mapTargets
    (graph : Graph) (change : InstrId → InstrId)
    (operation : Operation) (depth : Nat) :
    (operation.mapTargets change).depthAfter graph depth =
      operation.depthAfter graph depth := by
  simp [depthAfter]

@[simp]
theorem depthAtTarget_withForm
    (form : BranchForm) (operation : Operation) (depth : Nat) :
    (operation.withForm form).depthAtTarget depth =
      operation.depthAtTarget depth := by
  cases operation with
  | branch kind _ _ => cases kind <;> rfl
  | _ => rfl

@[simp]
theorem depthAtTarget_mapTargets
    (change : InstrId → InstrId) (operation : Operation)
    (depth : Nat) :
    (operation.mapTargets change).depthAtTarget depth =
      operation.depthAtTarget depth := by
  cases operation with
  | branch kind _ _ => cases kind <;> rfl
  | _ => rfl

end Operation

namespace MethodBody

/-- Is an instruction reached with a depth of the stack? -/
inductive Reached (graph : Graph) (body : MethodBody) :
    InstrId → Nat → Prop where
  | entry {first : Instruction} {rest : List Instruction}
      (whole : body.instructions = first :: rest) :
      Reached graph body first.id 0
  | handler {handler : ExceptionHandler}
      (member : handler ∈ body.handlers) :
      Reached graph body handler.handlerStart handler.kind.entryDepth
  | jump {instruction : Instruction} {target : InstrId} {depth : Nat}
      (member : instruction ∈ body.instructions)
      (reached : Reached graph body instruction.id depth)
      (targeted : target ∈ instruction.operation.targets) :
      Reached graph body target
        (instruction.operation.depthAtTarget
          (instruction.operation.depthAfter graph depth))
  | next {front back : List Instruction}
      {instruction following : Instruction} {depth : Nat}
      (split : body.instructions =
        front ++ instruction :: following :: back)
      (reached : Reached graph body instruction.id depth)
      (goesOn : instruction.operation.neverFallsThrough = false) :
      Reached graph body following.id
        (instruction.operation.depthAfter graph depth)

/-- May control be at an instruction with a depth of the stack? -/
structure Admits
    (graph : Graph) (body : MethodBody) (returnsValue : Bool)
    (instruction : Instruction) (depth : Nat) : Prop where
  returns : instruction.operation.isRet = true →
    depth = returnsValue.toNat
  pops : instruction.operation.isRet = false →
    (instruction.operation.stackEffect graph).pops ≤ depth
  targets : ∀ target ∈ instruction.operation.targets,
    target ∈ identities body.instructions
  inside : instruction.operation.neverFallsThrough = false →
    ∀ front, body.instructions ≠ front ++ [instruction]

/-- Does every instruction have one depth at most, and what it needs there? -/
structure Disciplined
    (graph : Graph) (body : MethodBody) (returnsValue : Bool) : Prop where
  handlers : ∀ handler ∈ body.handlers,
    handler.handlerStart ∈ identities body.instructions
  consistent : ∀ id left right,
    body.Reached graph id left → body.Reached graph id right →
      left = right
  admits : ∀ instruction ∈ body.instructions, ∀ depth,
    body.Reached graph instruction.id depth →
      body.Admits graph returnsValue instruction depth

/-- Is a depth the one before or behind an instruction that is reached with a depth? -/
def Shows
    (graph : Graph) (instruction : Instruction) (depth shown : Nat) :
    Prop :=
  shown = depth ∨
    instruction.operation.isRet = false ∧
      shown = instruction.operation.depthAfter graph depth

/-- Is a number the greatest depth that is reached? -/
structure IsDeepest
    (graph : Graph) (body : MethodBody) (deepest : Nat) : Prop where
  bounds : ∀ instruction ∈ body.instructions, ∀ depth,
    body.Reached graph instruction.id depth →
      ∀ shown, Shows graph instruction depth shown → shown ≤ deepest
  attained : deepest = 0 ∨
    ∃ instruction ∈ body.instructions, ∃ depth,
      body.Reached graph instruction.id depth ∧
        Shows graph instruction depth deepest

/-! ## Forms of branches -/

section Forms

variable {graph : Graph} {body : MethodBody}

theorem Reached.widen
    {id : InstrId} {depth : Nat} (reached : body.Reached graph id depth) :
    body.widen.Reached graph id depth := by
  induction reached with
  | @entry first rest whole =>
      have wide : body.widen.instructions =
          first.withForm .long :: widenBranches rest :=
        congrArg widenBranches whole
      have start : body.widen.Reached graph (first.withForm .long).id 0 :=
        .entry wide
      exact start
  | handler member =>
      exact .handler member
  | @jump instruction target depth member reached targeted
      inductionHypothesis =>
      have wide : instruction.withForm .long ∈ body.widen.instructions :=
        List.mem_map_of_mem member
      have next :=
        Reached.jump wide inductionHypothesis
          (by simpa [Instruction.withForm] using targeted)
      simpa [Instruction.withForm] using next
  | @next front back instruction following depth split reached goesOn
      inductionHypothesis =>
      have wide : body.widen.instructions =
          widenBranches front ++ instruction.withForm .long ::
            following.withForm .long :: widenBranches back := by
        simp [split, widenBranches]
      have next :=
        Reached.next wide inductionHypothesis
          (by simpa [Instruction.withForm] using goesOn)
      rw [Instruction.id_withForm] at next
      simpa only [Instruction.withForm, Operation.depthAfter_withForm]
        using next

theorem Reached.of_widen
    {id : InstrId} {depth : Nat}
    (reached : body.widen.Reached graph id depth) :
    body.Reached graph id depth := by
  induction reached with
  | entry whole =>
      obtain ⟨first, rest, parts, rfl, -⟩ := List.map_eq_cons_iff.mp whole
      exact (.entry parts : body.Reached graph first.id 0)
  | handler member =>
      exact .handler member
  | jump member reached targeted inductionHypothesis =>
      obtain ⟨instruction, there, rfl⟩ := List.mem_map.mp member
      have next :=
        Reached.jump there inductionHypothesis
          (by simpa [Instruction.withForm] using targeted)
      simpa [Instruction.withForm] using next
  | next split reached goesOn inductionHypothesis =>
      obtain ⟨front, rest, parts, -, behind⟩ :=
        List.map_eq_append_iff.mp split
      obtain ⟨instruction, tail, tailParts, rfl, others⟩ :=
        List.map_eq_cons_iff.mp behind
      obtain ⟨following, back, backParts, rfl, -⟩ :=
        List.map_eq_cons_iff.mp others
      subst tailParts backParts
      have next :=
        Reached.next parts inductionHypothesis
          (by simpa [Instruction.withForm] using goesOn)
      simpa [Instruction.withForm] using next

/-- Depths do not depend on the forms of branches. -/
@[simp]
theorem reached_widen {id : InstrId} {depth : Nat} :
    body.widen.Reached graph id depth ↔ body.Reached graph id depth :=
  ⟨Reached.of_widen, Reached.widen⟩

end Forms

/-! ## The check and the forms of branches -/

section Check

variable (graph : Graph) (body : MethodBody) (returnsValue : Bool)

theorem entries_widen : body.widen.entries = body.entries := by
  simp [entries, widenBranches]

theorem successors_widen
    (size index : Nat) (operation : Operation) (depth : Nat) :
    body.widen.successors size index (operation.withForm .long) depth =
      body.successors size index operation depth := by
  simp [successors]

theorem visit_widen
    (size index : Nat) (instruction : Instruction) (depth : Nat)
    (search : DepthSearch) :
    body.widen.visit graph returnsValue size index
        (instruction.withForm .long) depth search =
      body.visit graph returnsValue size index instruction depth
        search := by
  simp [visit, successors_widen, Instruction.withForm]

theorem searchWithin_widen
    (instructions : List Instruction) (steps : Nat)
    (search : DepthSearch) :
    body.widen.searchWithin graph returnsValue
        (widenBranches instructions).toArray steps search =
      body.searchWithin graph returnsValue instructions.toArray steps
        search := by
  induction steps generalizing search with
  | zero =>
      rfl
  | succ steps inductionHypothesis =>
      unfold searchWithin
      cases search.pending with
      | nil =>
          rfl
      | cons way pending =>
          have here :
              (widenBranches instructions).toArray[way.1]? =
                instructions.toArray[way.1]?.map (·.withForm .long) := by
            simp [getElem?_widenBranches]
          simp only [here, inductionHypothesis]
          cases instructions.toArray[way.1]? with
          | none =>
              rfl
          | some instruction =>
              cases search.depths.getD way.1 none with
              | none =>
                  simp [visit_widen]
              | some expected =>
                  rfl

theorem waysOn_widenBranches (instructions : List Instruction) :
    waysOn (widenBranches instructions) = waysOn instructions := by
  induction instructions with
  | nil =>
      rfl
  | cons instruction rest inductionHypothesis =>
      change (instruction.operation.withForm .long).targets.length + 1 +
        waysOn (widenBranches rest) = _
      rw [inductionHypothesis, Operation.targets_withForm]
      rfl

/-- The check does not see the forms of branches. -/
theorem checkDepths_widen :
    body.widen.checkDepths graph returnsValue =
      body.checkDepths graph returnsValue := by
  simp [checkDepths, entries_widen, searchWithin_widen, searchBound,
    waysOn_widenBranches]

end Check

end MethodBody

end NullWeave
