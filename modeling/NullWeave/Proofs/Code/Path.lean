import NullWeave.Proofs.Code.Reference
import NullWeave.Proofs.Code.Region

/-!
# Paths of control

Control goes from one position of a body to another: to the next one, by a
jump, or from what a handler protects to the handler.  Where a handler ends,
control goes on where some jump out of a region was heading, or to another
handler.

A path holds the positions that control went through, the last one first.  A
position over which no way leads, and to which no way leads back, is passed
once.
-/

namespace NullWeave

namespace MethodBody

/-- May control go from one position to another? -/
inductive GoesOn (body : MethodBody) : Nat → Nat → Prop where
  /-- To the next instruction. -/
  | next {position : Nat} {instruction : Instruction}
      (here : body.instructions[position]? = some instruction)
      (fallsThrough : instruction.operation.neverFallsThrough = false) :
      GoesOn body position (position + 1)
  /-- To a target of the instruction. -/
  | jump {position target : Nat} {instruction : Instruction}
      {id : InstrId}
      (here : body.instructions[position]? = some instruction)
      (names : id ∈ instruction.operation.targets)
      (there : body.indexOf? id = some target) :
      GoesOn body position target
  /-- To a handler, by an exception or on the way out of what the handler protects. -/
  | handled {position target : Nat} {handler : ExceptionHandler}
      (among : handler ∈ body.handlers)
      (inside :
        body.within handler.tryStart (some handler.tryEnd) position = true)
      (there : body.indexOf? handler.handlerStart = some target) :
      GoesOn body position target
  /-- From the end of a handler to where a region was left for. -/
  | left {position target : Nat} {instruction leaving : Instruction}
      {form : BranchForm} {id : InstrId}
      (here : body.instructions[position]? = some instruction)
      (ends : instruction.operation = .endFinally)
      (among : leaving ∈ body.instructions)
      (leaves : leaving.operation = .branch .leave form id)
      (there : body.indexOf? id = some target) :
      GoesOn body position target
  /-- From the end of a handler to another handler. -/
  | passedOn {position target : Nat} {instruction : Instruction}
      {handler : ExceptionHandler}
      (here : body.instructions[position]? = some instruction)
      (ends : instruction.operation = .endFinally)
      (among : handler ∈ body.handlers)
      (there : body.indexOf? handler.handlerStart = some target) :
      GoesOn body position target

/-- The positions that control may go through from the entry on, the last one first. -/
inductive Path (body : MethodBody) : List Nat → Prop where
  | enter : Path body [0]
  | step {position target : Nat} {past : List Nat}
      (path : Path body (position :: past))
      (goesOn : body.GoesOn position target) :
      Path body (target :: position :: past)

/--
A position over which no way leads, and to which no way leads back, is passed
exactly once on the way to what stands behind it.
-/
theorem Path.count_eq
    {body : MethodBody} {start : Nat}
    (ahead : ∀ position target, body.GoesOn position target →
      position < start → target ≤ start)
    (behind : ∀ position target, body.GoesOn position target →
      start ≤ position → start < target)
    {position : Nat} {past : List Nat}
    (path : body.Path (position :: past)) :
    (position :: past).count start = if start ≤ position then 1 else 0 := by
  -- A path that has passed the position stays behind it, one that has not is not beyond it.
  generalize reached : position :: past = positions at path
  induction path generalizing position past with
  | enter =>
      cases reached
      cases start <;> simp
  | @step before target earlier path goesOn inductionHypothesis =>
      cases reached
      rw [List.count_cons, inductionHypothesis rfl]
      by_cases passed : start ≤ before
      · have later := behind before target goesOn passed
        have apart : target ≠ start := by omega
        simp [passed, apart, Nat.le_of_lt later]
      · have notBeyond :=
          ahead before target goesOn (Nat.lt_of_not_le passed)
        by_cases here : target = start
        · simp [passed, here]
        · have under : ¬ start ≤ target := by omega
          simp [passed, here, under]

end MethodBody

end NullWeave
