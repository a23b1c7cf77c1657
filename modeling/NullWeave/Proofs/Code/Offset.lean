import Mathlib.Algebra.GroupWithZero.Nat
import Mathlib.Data.List.Forall2
import NullWeave.Proofs.Code.Forms

/-!
# Offsets and displacements

The offset of an instruction is the size of the code in front of it, and the
displacement of a jump is the offset of its target less the offset of what
follows the jump.  So a displacement is the size of the code between the two,
counted with its sign.

Narrowing branches takes bytes out and moves no instruction past another one.
A displacement keeps its sign and comes no farther from zero by it.
-/

namespace NullWeave

/-! ## Sizes and offsets -/

@[simp]
theorem codeSize_nil : codeSize [] = 0 := rfl

@[simp]
theorem codeSize_cons
    (instruction : Instruction) (rest : List Instruction) :
    codeSize (instruction :: rest) = instruction.width + codeSize rest := rfl

@[simp]
theorem codeSize_append (front back : List Instruction) :
    codeSize (front ++ back) = codeSize front + codeSize back := by
  induction front with
  | nil =>
      simp
  | cons instruction rest inductionHypothesis =>
      simp [inductionHypothesis, Nat.add_assoc]

theorem codeSize_numberFrom
    (start : InstrId) (operations : List Operation) :
    codeSize (MethodBody.numberFrom start operations) =
      (operations.map (·.width)).sum := by
  induction operations generalizing start with
  | nil =>
      rfl
  | cons operation rest inductionHypothesis =>
      rw [List.map_cons, List.sum_cons, ← inductionHypothesis start.next]
      rfl

/-- The offset of the instruction at a position; past the last one, the size of the code. -/
def offsetAt (instructions : List Instruction) (index : Nat) : Nat :=
  codeSize (instructions.take index)

@[simp]
theorem offsetAt_zero (instructions : List Instruction) :
    offsetAt instructions 0 = 0 := rfl

@[simp]
theorem offsetAt_cons_succ
    (instruction : Instruction) (rest : List Instruction) (index : Nat) :
    offsetAt (instruction :: rest) (index + 1) =
      instruction.width + offsetAt rest index := rfl

@[simp]
theorem offsetAt_length (instructions : List Instruction) :
    offsetAt instructions instructions.length = codeSize instructions := by
  simp [offsetAt]

theorem offsetAt_succ
    {instructions : List Instruction} {index : Nat}
    {instruction : Instruction}
    (here : instructions[index]? = some instruction) :
    offsetAt instructions (index + 1) =
      offsetAt instructions index + instruction.width := by
  rw [offsetAt, List.take_add_one, here]
  simp [offsetAt]

/-- The size of the code from one position up to another one. -/
def sizeBetween
    (instructions : List Instruction) (first last : Nat) : Nat :=
  codeSize ((instructions.take last).drop first)

theorem offsetAt_add_sizeBetween
    (instructions : List Instruction) {first last : Nat}
    (ordered : first ≤ last) :
    offsetAt instructions first + sizeBetween instructions first last =
      offsetAt instructions last := by
  have parts :
      instructions.take last =
        instructions.take first ++ (instructions.take last).drop first := by
    conv_lhs => rw [← List.take_append_drop first (instructions.take last)]
    rw [List.take_take, Nat.min_eq_left ordered]
  rw [offsetAt, sizeBetween, offsetAt, ← codeSize_append, ← parts]

theorem offsetAt_le_codeSize
    (instructions : List Instruction) (index : Nat) :
    offsetAt instructions index ≤ codeSize instructions := by
  have parts := congrArg codeSize (List.take_append_drop index instructions)
  rw [codeSize_append] at parts
  rw [offsetAt]
  omega

/-- The table of offsets holds the offset of every position, the end included. -/
theorem getElem?_offsetsFrom
    (start : Nat) (instructions : List Instruction) {index : Nat}
    (inside : index ≤ instructions.length) :
    (offsetsFrom start instructions)[index]? =
      some (start + offsetAt instructions index) := by
  induction instructions generalizing start index with
  | nil =>
      obtain rfl : index = 0 := by simpa using inside
      rfl
  | cons instruction rest inductionHypothesis =>
      cases index with
      | zero =>
          rfl
      | succ index =>
          have tail :=
            inductionHypothesis (start + instruction.width)
              (Nat.le_of_succ_le_succ inside)
          simpa [offsetsFrom, offsetAt, Nat.add_assoc] using tail

theorem getElem?_offsets
    (instructions : List Instruction) {index : Nat}
    (inside : index ≤ instructions.length) :
    (offsets instructions)[index]? = some (offsetAt instructions index) := by
  simpa [offsets] using getElem?_offsetsFrom 0 instructions inside

/-! ## Displacements -/

/-- How far the instruction at a position lies from the end of another one. -/
def displacement
    (instructions : List Instruction) (index target : Nat) : Int :=
  (offsetAt instructions target : Int) - offsetAt instructions (index + 1)

theorem displacement_of_lt
    (instructions : List Instruction) {index target : Nat}
    (forward : index < target) :
    displacement instructions index target =
      sizeBetween instructions (index + 1) target := by
  have parts :=
    offsetAt_add_sizeBetween instructions (show index + 1 ≤ target from forward)
  rw [displacement, ← parts]
  omega

theorem displacement_of_le
    (instructions : List Instruction) {index target : Nat}
    (backward : target ≤ index) :
    displacement instructions index target =
      -(sizeBetween instructions target (index + 1) : Int) := by
  have parts :=
    offsetAt_add_sizeBetween instructions
      (show target ≤ index + 1 from Nat.le_succ_of_le backward)
  rw [displacement, ← parts]
  omega

/-- The size of the code bounds its displacements on both sides. -/
theorem displacement_within
    (instructions : List Instruction) (index target : Nat) :
    -(codeSize instructions : Int) ≤ displacement instructions index target ∧
      displacement instructions index target ≤ codeSize instructions := by
  have here := offsetAt_le_codeSize instructions (index + 1)
  have there := offsetAt_le_codeSize instructions target
  rw [displacement]
  omega

/-! ## Narrower code -/

/-- Is an instruction another one, except that a long branch may have become short? -/
inductive Instruction.Narrows : Instruction → Instruction → Prop where
  | same (instruction : Instruction) : Narrows instruction instruction
  | narrowed (id : InstrId) (kind : BranchKind) (target : InstrId) :
      Narrows ⟨id, .branch kind .long target⟩ ⟨id, .branch kind .short target⟩

namespace Instruction.Narrows

variable {before after last : Instruction}

theorem width_le (narrows : before.Narrows after) :
    after.width ≤ before.width := by
  cases narrows with
  | same => exact Nat.le_refl _
  | narrowed =>
      show Operation.branchWidth .short ≤ Operation.branchWidth .long
      decide

theorem id_eq (narrows : before.Narrows after) : after.id = before.id := by
  cases narrows <;> rfl

theorem trans (narrows : before.Narrows after) (further : after.Narrows last) :
    before.Narrows last := by
  cases narrows with
  | same => exact further
  | narrowed id kind target =>
      cases further
      exact .narrowed id kind target

theorem antisymm (narrows : before.Narrows after) (back : after.Narrows before) :
    before = after := by
  cases narrows with
  | same => rfl
  | narrowed => cases back

theorem withForm_short (instruction : Instruction) :
    instruction.Narrows (instruction.withForm .short) := by
  obtain ⟨id, operation⟩ := instruction
  cases operation with
  | branch kind form target =>
      cases form with
      | short => exact .same _
      | long => exact .narrowed id kind target
  | _ => exact .same _

/-- Giving both the short form keeps the one narrower than the other. -/
theorem congr_short (narrows : before.Narrows after) :
    (before.withForm .short).Narrows (after.withForm .short) := by
  cases narrows <;> exact .same _

end Instruction.Narrows

/-- Is code other code, except that long branches may have become short? -/
def Narrows (before after : List Instruction) : Prop :=
  List.Forall₂ Instruction.Narrows before after

namespace Narrows

variable {before after last : List Instruction}

theorem refl (instructions : List Instruction) :
    Narrows instructions instructions :=
  List.forall₂_same.mpr fun instruction _ => .same instruction

theorem trans (narrows : Narrows before after) (further : Narrows after last) :
    Narrows before last := by
  induction narrows generalizing last with
  | nil =>
      exact further
  | cons first rest inductionHypothesis =>
      cases further with
      | cons second others =>
          exact .cons (first.trans second) (inductionHypothesis others)

theorem antisymm (narrows : Narrows before after) (back : Narrows after before) :
    before = after := by
  induction narrows with
  | nil =>
      rfl
  | cons first rest inductionHypothesis =>
      cases back with
      | cons second others =>
          rw [first.antisymm second, inductionHypothesis others]

theorem length_eq (narrows : Narrows before after) :
    before.length = after.length :=
  List.Forall₂.length_eq narrows

theorem identities_eq (narrows : Narrows before after) :
    identities after = identities before := by
  induction narrows with
  | nil =>
      rfl
  | cons first rest inductionHypothesis =>
      rw [identities_cons, identities_cons, first.id_eq, inductionHypothesis]

theorem codeSize_le (narrows : Narrows before after) :
    codeSize after ≤ codeSize before := by
  induction narrows with
  | nil =>
      exact Nat.le_refl _
  | cons first rest inductionHypothesis =>
      exact Nat.add_le_add first.width_le inductionHypothesis

theorem sizeBetween_le (narrows : Narrows before after) (first last : Nat) :
    sizeBetween after first last ≤ sizeBetween before first last :=
  codeSize_le (List.forall₂_drop first (List.forall₂_take last narrows))

/-- What stands at a position of the narrower code stood there before, perhaps long. -/
theorem getElem? (narrows : Narrows before after) {index : Nat}
    {instruction : Instruction} (here : before[index]? = some instruction) :
    ∃ other, after[index]? = some other ∧ instruction.Narrows other := by
  induction narrows generalizing index with
  | nil =>
      simp at here
  | cons first rest inductionHypothesis =>
      cases index with
      | zero =>
          obtain rfl : _ = instruction := by simpa using here
          exact ⟨_, rfl, first⟩
      | succ index =>
          exact inductionHypothesis (by simpa using here)

/-- Narrowing brings no displacement farther from zero, nor to the other side of it. -/
theorem displacement_between (narrows : Narrows before after)
    {low high : Int} (atMostZero : low ≤ 0) (atLeastZero : 0 ≤ high)
    {index target : Nat}
    (within : low ≤ displacement before index target ∧
      displacement before index target ≤ high) :
    low ≤ displacement after index target ∧
      displacement after index target ≤ high := by
  rcases Nat.lt_or_ge index target with forward | backward
  · rw [displacement_of_lt _ forward] at within ⊢
    have smaller := narrows.sizeBetween_le (index + 1) target
    omega
  · rw [displacement_of_le _ backward] at within ⊢
    have smaller := narrows.sizeBetween_le target (index + 1)
    omega

end Narrows

end NullWeave
