import Mathlib.Data.List.Nodup
import NullWeave.Code.Branches

/-!
# Identities and references

A body gives out the identities of its instructions, so the ones in use are
distinct and lie below the next one.  Where they are, an identity stands for
one position, and a reference that resolves stands for one instruction.

Giving other forms to branches touches neither: two lists of instructions that
agree once every branch is widened have the same identities and the same
targets at the same places.
-/

namespace NullWeave

/-! ## Identities -/

/-- The identities of instructions, in order. -/
def identities (instructions : List Instruction) : List InstrId :=
  instructions.map (·.id)

@[simp]
theorem identities_nil : identities [] = [] := rfl

@[simp]
theorem identities_cons
    (instruction : Instruction) (rest : List Instruction) :
    identities (instruction :: rest) =
      instruction.id :: identities rest := rfl

@[simp]
theorem identities_append
    (front back : List Instruction) :
    identities (front ++ back) = identities front ++ identities back := by
  simp [identities]

@[simp]
theorem length_identities
    (instructions : List Instruction) :
    (identities instructions).length = instructions.length := by
  simp [identities]

theorem mem_identities
    {instructions : List Instruction} {id : InstrId} :
    id ∈ identities instructions ↔
      ∃ instruction ∈ instructions, instruction.id = id := by
  simp [identities]

theorem id_mem_identities
    {instructions : List Instruction} {instruction : Instruction}
    (member : instruction ∈ instructions) :
    instruction.id ∈ identities instructions :=
  mem_identities.mpr ⟨instruction, member, rfl⟩

/-- Distinct identities tell instructions apart. -/
theorem eq_of_id_eq
    {instructions : List Instruction}
    (distinct : (identities instructions).Nodup)
    {left right : Instruction}
    (leftMember : left ∈ instructions)
    (rightMember : right ∈ instructions)
    (same : left.id = right.id) :
    left = right :=
  List.inj_on_of_nodup_map distinct leftMember rightMember same

/-- All targets of instructions are among the instructions. -/
def TargetsWithin (instructions : List Instruction) : Prop :=
  ∀ instruction ∈ instructions,
    ∀ id ∈ instruction.operation.targets,
      id ∈ identities instructions

@[simp]
theorem identities_map_mapTargets
    (change : InstrId → InstrId) (instructions : List Instruction) :
    identities (instructions.map (·.mapTargets change)) =
      identities instructions := by
  simp [identities, Function.comp_def]

/-! ## Fresh identities -/

theorem mem_identities_numberFrom
    {start id : InstrId} {operations : List Operation} :
    id ∈ identities (MethodBody.numberFrom start operations) ↔
      start.number ≤ id.number ∧
        id.number < start.number + operations.length := by
  induction operations generalizing start with
  | nil =>
      simp [MethodBody.numberFrom]
  | cons operation rest inductionHypothesis =>
      have atStart :
          id = start ↔ id.number = start.number := by
        cases id
        cases start
        simp
      simp only [MethodBody.numberFrom, identities_cons, List.mem_cons,
        inductionHypothesis, InstrId.next, List.length_cons, atStart]
      omega

theorem getElem?_numberFrom
    (start : InstrId) (operations : List Operation) (index : Nat) :
    (MethodBody.numberFrom start operations)[index]? =
      operations[index]?.map fun operation =>
        ⟨⟨start.number + index⟩, operation⟩ := by
  induction operations generalizing start index with
  | nil =>
      rfl
  | cons operation rest inductionHypothesis =>
      cases index with
      | zero =>
          rfl
      | succ index =>
          have shifted :
              start.next.number + index = start.number + (index + 1) := by
            simp only [InstrId.next]
            omega
          simp [MethodBody.numberFrom, inductionHypothesis, shifted]

theorem nodup_identities_numberFrom
    (start : InstrId) (operations : List Operation) :
    (identities (MethodBody.numberFrom start operations)).Nodup := by
  induction operations generalizing start with
  | nil =>
      exact List.nodup_nil
  | cons operation rest inductionHypothesis =>
      refine List.nodup_cons.mpr ⟨?_, inductionHypothesis start.next⟩
      intro member
      have later := (mem_identities_numberFrom.mp member).1
      simp only [InstrId.next] at later
      omega

theorem numberFrom_append
    (start : InstrId) (front back : List Operation) :
    MethodBody.numberFrom start (front ++ back) =
      MethodBody.numberFrom start front ++
        MethodBody.numberFrom ⟨start.number + front.length⟩ back := by
  induction front generalizing start with
  | nil =>
      rfl
  | cons operation rest inductionHypothesis =>
      simp [MethodBody.numberFrom, inductionHypothesis, InstrId.next,
        Nat.add_comm, Nat.add_left_comm]

theorem map_mapTargets_numberFrom
    (change : InstrId → InstrId)
    (start : InstrId) (operations : List Operation) :
    (MethodBody.numberFrom start operations).map
        (·.mapTargets change) =
      MethodBody.numberFrom start
        (operations.map (·.mapTargets change)) := by
  induction operations generalizing start with
  | nil =>
      rfl
  | cons operation rest inductionHypothesis =>
      simp only [MethodBody.numberFrom, List.map_cons,
        inductionHypothesis]
      rfl

theorem operation_mem_of_mem_numberFrom
    {start : InstrId} {operations : List Operation}
    {instruction : Instruction}
    (member : instruction ∈ MethodBody.numberFrom start operations) :
    instruction.operation ∈ operations := by
  rw [← MethodBody.map_operation_numberFrom start operations]
  exact List.mem_map_of_mem member

/-! ## Well-formed bodies -/

namespace MethodBody

/--
A body whose identities are distinct and all came from the body itself, and
whose targets and handler boundaries all name instructions of the body.
-/
structure WellFormed (body : MethodBody) : Prop where
  distinct : (identities body.instructions).Nodup
  /-- Identities are given out in order, so those in use lie below the next one. -/
  issued : ∀ instruction ∈ body.instructions,
    instruction.id.number < body.nextId.number
  resolved : body.ensureResolved = .ok ()

/-- With distinct identities, a position is found exactly where the identity stands. -/
theorem indexOf?_eq_some_iff
    {body : MethodBody}
    (distinct : (identities body.instructions).Nodup)
    {id : InstrId} {index : Nat} :
    body.indexOf? id = some index ↔
      ∃ instruction,
        body.instructions[index]? = some instruction ∧
          instruction.id = id := by
  constructor
  · intro found
    obtain ⟨inside, here, -⟩ :=
      List.findIdx?_eq_some_iff_getElem.mp found
    exact ⟨body.instructions[index], List.getElem?_eq_getElem inside,
      by simpa using here⟩
  · rintro ⟨instruction, here, rfl⟩
    obtain ⟨inside, rfl⟩ := List.getElem?_eq_some_iff.mp here
    refine List.findIdx?_eq_some_iff_getElem.mpr
      ⟨inside, by simp, ?_⟩
    intro earlier before same
    have earlierInside : earlier < body.instructions.length := by
      omega
    have earlierThere : earlier < (identities body.instructions).length := by
      simpa using earlierInside
    have indexThere : index < (identities body.instructions).length := by
      simpa using inside
    have sameId :
        (identities body.instructions)[earlier] =
          (identities body.instructions)[index] := by
      simpa [identities] using same
    have samePosition := (List.Nodup.getElem_inj_iff distinct).mp sameId
    omega

/-- Behind so many instructions, an instruction stands at that position. -/
theorem indexOf?_of_split
    {body : MethodBody}
    (distinct : (identities body.instructions).Nodup)
    {front back : List Instruction} {instruction : Instruction}
    (split : body.instructions = front ++ instruction :: back) :
    body.indexOf? instruction.id = some front.length := by
  refine (indexOf?_eq_some_iff distinct).mpr ⟨instruction, ?_, rfl⟩
  rw [split, List.getElem?_append_right (Nat.le_refl _), Nat.sub_self]
  rfl

/-- An identity stands at one position only. -/
theorem position_eq_of_id_eq
    {body : MethodBody}
    (distinct : (identities body.instructions).Nodup)
    {leftIndex rightIndex : Nat} {left right : Instruction}
    (leftHere : body.instructions[leftIndex]? = some left)
    (rightHere : body.instructions[rightIndex]? = some right)
    (same : left.id = right.id) :
    leftIndex = rightIndex := by
  have found := (indexOf?_eq_some_iff distinct).mpr
    ⟨left, leftHere, same⟩
  have foundRight := (indexOf?_eq_some_iff distinct).mpr
    ⟨right, rightHere, rfl⟩
  exact Option.some.inj (found.symm.trans foundRight)

theorem indexOf?_eq_none_iff
    {body : MethodBody} {id : InstrId} :
    body.indexOf? id = none ↔ id ∉ identities body.instructions := by
  simp [indexOf?, mem_identities]

theorem exists_indexOf?_of_mem
    {body : MethodBody} {id : InstrId}
    (member : id ∈ identities body.instructions) :
    ∃ index, body.indexOf? id = some index := by
  cases found : body.indexOf? id with
  | none =>
      exact absurd member (indexOf?_eq_none_iff.mp found)
  | some index =>
      exact ⟨index, rfl⟩

theorem ensureResolved_eq_ok_iff
    {body : MethodBody} :
    body.ensureResolved = .ok () ↔
      ∀ id ∈ body.references, id ∈ identities body.instructions := by
  unfold ensureResolved
  cases search :
      body.references.find? fun id => (body.indexOf? id).isNone with
  | none =>
      have resolved := List.find?_eq_none.mp search
      simp only [true_iff]
      intro id member
      have found := resolved id member
      by_contra missing
      exact found (by simp [indexOf?_eq_none_iff.mpr missing])
  | some id =>
      have member := List.mem_of_find?_eq_some search
      have dangling := List.find?_some search
      simp only [reduceCtorEq, false_iff]
      intro resolved
      obtain ⟨index, found⟩ :=
        exists_indexOf?_of_mem (resolved id member)
      simp [found] at dangling

theorem targetsWithin_of_ensureResolved
    {body : MethodBody} (resolved : body.ensureResolved = .ok ()) :
    TargetsWithin body.instructions := by
  intro instruction member id target
  refine ensureResolved_eq_ok_iff.mp resolved id ?_
  exact List.mem_append_left _
    (List.mem_flatMap.mpr ⟨instruction, member, target⟩)

theorem WellFormed.targetsWithin
    {body : MethodBody}
    (wellFormed : body.WellFormed) :
    TargetsWithin body.instructions :=
  targetsWithin_of_ensureResolved wellFormed.resolved

theorem WellFormed.boundary_mem
    {body : MethodBody}
    (wellFormed : body.WellFormed)
    {handler : ExceptionHandler}
    (member : handler ∈ body.handlers)
    {id : InstrId}
    (boundary : id ∈ handler.boundaries) :
    id ∈ identities body.instructions := by
  refine ensureResolved_eq_ok_iff.mp wellFormed.resolved id ?_
  exact List.mem_append_right _
    (List.mem_flatMap.mpr ⟨handler, member, boundary⟩)

end MethodBody

end NullWeave
