import NullWeave.Proofs.Code.PointOrder
import NullWeave.Text.Declaration

/-!
# Outlines of bodies

A body that is printed and read has other identities, and what its operations
mention may be found under other numbers.  Its outline says nothing of either:
which operations follow each other, at which positions their targets and the
boundaries of the handlers stand, and which places of a document belong to
which position.
-/

namespace NullWeave

/-! ## What is laid out -/

/-- An operation without its slot, type, member or targets; constants and strings stay. -/
def Operation.bare : Operation → Operation
  | .ldArg _ => .ldArg 0
  | .ldArgA _ => .ldArgA 0
  | .stArg _ => .stArg 0
  | .ldLoc _ => .ldLoc 0
  | .ldLocA _ => .ldLocA 0
  | .stLoc _ => .stLoc 0
  | .ldObj _ => .ldObj .void
  | .box _ => .box .void
  | .ldFld _ => .ldFld ⟨0⟩
  | .ldFldA _ => .ldFldA ⟨0⟩
  | .stFld _ => .stFld ⟨0⟩
  | .call _ => .call ⟨0⟩
  | .callVirt _ => .callVirt ⟨0⟩
  | .newObj _ => .newObj ⟨0⟩
  | .branch kind form _ => .branch kind form .first
  | .switch _ => .switch []
  | other => other

/-- An operation with the positions of its targets. -/
structure InstructionOutline where
  operation : Operation
  targets : List (Option Nat)

/-- The positions that bound a handler; one that runs to the end of the body has no end. -/
structure HandlerOutline where
  catches : Bool
  tryStart : Option Nat
  tryEnd : Option Nat
  handlerStart : Option Nat
  handlerEnd : Option (Option Nat)
deriving DecidableEq

/-- The position of a sequence point and its place, which a hidden one has not. -/
structure PointOutline where
  position : Option Nat
  document : String
  span : Option Span
deriving DecidableEq

/-- What is laid out in a body, in order. -/
structure BodyOutline where
  instructions : List InstructionOutline
  handlers : List HandlerOutline
  points : List PointOutline

/-- Do all targets, boundaries and sequence points of an outline stand at positions? -/
structure BodyOutline.IsPlaced (outline : BodyOutline) : Prop where
  targets : ∀ instruction ∈ outline.instructions, ∀ target ∈ instruction.targets,
    target.isSome = true
  handlers : ∀ handler ∈ outline.handlers, handler.tryStart.isSome = true ∧
    handler.tryEnd.isSome = true ∧ handler.handlerStart.isSome = true ∧
      ∀ finish ∈ handler.handlerEnd, finish.isSome = true
  points : ∀ point ∈ outline.points, point.position.isSome = true

/-- The lines and columns of a sequence point that is not hidden. -/
def SequencePoint.span? (point : SequencePoint) : Option Span :=
  if point.isHidden then
    none
  else
    some
      { startLine := point.startLine
        startColumn := point.startColumn
        endLine := point.endLine
        endColumn := point.endColumn }

namespace MethodBody

/-- The outline of an instruction. -/
def instructionOutline (body : MethodBody) (instruction : Instruction) : InstructionOutline where
  operation := instruction.operation.bare
  targets := instruction.operation.targets.map body.indexOf?

/-- The outline of a handler. -/
def handlerOutline (body : MethodBody) (handler : ExceptionHandler) : HandlerOutline where
  catches := handler.kind != .finally
  tryStart := body.indexOf? handler.tryStart
  tryEnd := body.indexOf? handler.tryEnd
  handlerStart := body.indexOf? handler.handlerStart
  handlerEnd := handler.handlerEnd.map body.indexOf?

/-- The outline of a sequence point. -/
def pointOutline (body : MethodBody) (point : SequencePoint) : PointOutline where
  position := body.indexOf? point.instruction
  document := point.document
  span := point.span?

/-- The outline of a body. -/
def outline (body : MethodBody) : BodyOutline where
  instructions := body.instructions.map body.instructionOutline
  handlers := body.handlers.map body.handlerOutline
  points := body.debugInfo.points.map body.pointOutline

end MethodBody

/-! ## Sequence points in order -/

/-- Items of a kind that comes first are followed by the others. -/
theorem filter_append_filter_not {α : Type} {early : α → Bool} {items : List α}
    (first : items.Pairwise fun left right => early right = true → early left = true) :
    items.filter early ++ items.filter (fun item => !early item) = items := by
  induction items with
  | nil =>
      rfl
  | cons item rest inductionHypothesis =>
      obtain ⟨before, later⟩ := List.pairwise_cons.mp first
      cases kind : early item with
      | true =>
          have goesOn := inductionHypothesis later
          simp [kind, goesOn]
      | false =>
          have none : ∀ other ∈ rest, early other = false := by
            intro other member
            refine Bool.eq_false_iff.mpr fun isEarly => ?_
            exact Bool.false_ne_true (kind.symm.trans (before other member isEarly))
          have noEarly : rest.filter early = [] :=
            List.filter_eq_nil_iff.mpr fun other member => by simp [none other member]
          have allLate : rest.filter (fun item => !early item) = rest :=
            List.filter_eq_self.mpr fun other member => by simp [none other member]
          simp [kind, noEarly, allLate]

section Points

variable {instruction : Instruction} {rest : List Instruction} {points : List SequencePoint}

theorem placeOf_cons_self : placeOf (instruction :: rest) instruction.id = 0 :=
  List.idxOf_cons_self

theorem placeOf_cons_of_ne {id : InstrId} (apart : id ≠ instruction.id) :
    placeOf (instruction :: rest) id = placeOf rest id + 1 :=
  List.idxOf_cons_ne _ apart.symm

/-- In order, the sequence points of the first instruction come first. -/
theorem InOrder.pairwise_first (ordered : InOrder (instruction :: rest) points) :
    points.Pairwise fun left right =>
      (right.instruction == instruction.id) = true →
        (left.instruction == instruction.id) = true := by
  refine ordered.imp fun {left right} before isFirst => ?_
  rw [beq_iff_eq.mp isFirst, placeOf_cons_self] at before
  by_contra later
  rw [placeOf_cons_of_ne fun same => later (beq_iff_eq.mpr same)] at before
  exact Nat.not_succ_le_zero _ before

/-- The other sequence points are in order, too. -/
theorem InOrder.filter_rest (ordered : InOrder (instruction :: rest) points) :
    InOrder rest (points.filter fun point => !(point.instruction == instruction.id)) := by
  refine (List.Pairwise.filter _ ordered).imp_of_mem
    fun {left right} leftMember rightMember before => ?_
  have leftLater := (List.mem_filter.mp leftMember).2
  have rightLater := (List.mem_filter.mp rightMember).2
  rw [placeOf_cons_of_ne (by simpa using leftLater),
    placeOf_cons_of_ne (by simpa using rightLater)] at before
  exact Nat.le_of_succ_le_succ before

/-- A sequence point of a later instruction is none of the first. -/
theorem filter_of_mem_rest (new : instruction.id ∉ identities rest) {other : Instruction}
    (member : other ∈ rest) :
    (points.filter fun point => point.instruction == other.id) =
      (points.filter fun point => !(point.instruction == instruction.id)).filter
        fun point => point.instruction == other.id := by
  rw [List.filter_filter]
  refine List.filter_congr fun point _ => ?_
  cases here : point.instruction == other.id with
  | false =>
      rfl
  | true =>
      have differs : (point.instruction == instruction.id) = false := by
        refine beq_eq_false_iff_ne.mpr fun same => new ?_
        have sameId : instruction.id = other.id := same.symm.trans (beq_iff_eq.mp here)
        exact List.mem_map.mpr ⟨other, member, sameId.symm⟩
      rw [differs]
      rfl

end Points

/-- Sequence points in order are those of the first instruction, then those of the next. -/
theorem flatMap_points {instructions : List Instruction} {points : List SequencePoint}
    (distinct : (identities instructions).Nodup)
    (present : ∀ point ∈ points, point.instruction ∈ identities instructions)
    (ordered : InOrder instructions points) :
    (instructions.flatMap fun instruction =>
      points.filter fun point => point.instruction == instruction.id) = points := by
  induction instructions generalizing points with
  | nil =>
      have none : points = [] :=
        List.eq_nil_iff_forall_not_mem.mpr fun point member =>
          List.not_mem_nil (present point member)
      rw [none]
      rfl
  | cons instruction rest inductionHypothesis =>
      obtain ⟨new, distinctRest⟩ := List.nodup_cons.mp distinct
      have presentRest : ∀ point ∈ points.filter (fun point =>
          !(point.instruction == instruction.id)), point.instruction ∈ identities rest := by
        intro point member
        obtain ⟨among, later⟩ := List.mem_filter.mp member
        rcases List.mem_cons.mp (present point among) with same | inRest
        · simp [same] at later
        · exact inRest
      have later := inductionHypothesis distinctRest presentRest ordered.filter_rest
      rw [List.flatMap_cons,
        List.flatMap_congr fun other member => filter_of_mem_rest new member, later]
      exact filter_append_filter_not ordered.pairwise_first

end NullWeave
