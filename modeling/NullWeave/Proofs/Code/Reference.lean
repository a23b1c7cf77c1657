import NullWeave.Proofs.Code.Forms

/-!
# References and ways

An instruction is named by the targets of other instructions and by the
boundaries of handlers.  A reference is such a place; it stays the same place
when instructions are put in, while what is named there may change.

Control reaches an instruction by one of four ways: at the entry, at the start
of a handler, by a jump, or from the instruction before it.
-/

namespace NullWeave

/-- Distinct identities leave one place for each instruction. -/
theorem split_eq_of_id_eq
    {front back otherFront otherBack : List Instruction}
    {point other : Instruction}
    (distinct : (identities (front ++ point :: back)).Nodup)
    (same : front ++ point :: back = otherFront ++ other :: otherBack)
    (sameId : point.id = other.id) :
    front = otherFront ∧ point = other ∧ back = otherBack := by
  induction front generalizing otherFront with
  | nil =>
      cases otherFront with
      | nil =>
          simpa using same
      | cons first rest =>
          simp only [List.nil_append, List.cons_append,
            List.cons.injEq] at same
          obtain ⟨rfl, rfl⟩ := same
          simp [sameId] at distinct
  | cons first front inductionHypothesis =>
      cases otherFront with
      | nil =>
          simp only [List.nil_append, List.cons_append,
            List.cons.injEq] at same
          obtain ⟨rfl, rfl⟩ := same
          simp [sameId] at distinct
      | cons otherFirst otherFront =>
          simp only [List.cons_append, List.cons.injEq] at same
          obtain ⟨rfl, same⟩ := same
          have tail :=
            inductionHypothesis (List.nodup_cons.mp distinct).2 same
          exact ⟨by rw [tail.1], tail.2⟩

/-- A place in a body where an instruction is named. -/
inductive Reference where
  /-- A target of an instruction. -/
  | target (source : InstrId) (index : Nat)
  /-- A boundary of a handler. -/
  | boundary (handler index : Nat)
deriving DecidableEq

/-- A way on which control reaches an instruction. -/
inductive Way where
  /-- From outside, at the first instruction. -/
  | entry
  /-- From an exception, at the start of a handler. -/
  | handler (index : Nat)
  /-- By a jump to one of the targets of an instruction. -/
  | jump (source : InstrId) (index : Nat)
  /-- From the instruction before it. -/
  | next (source : InstrId)
deriving DecidableEq

namespace MethodBody

/-- The instruction that is named at a place. -/
def named? (body : MethodBody) : Reference → Option InstrId
  | .target source index =>
      (body.instructions.find? (·.id == source)).bind
        fun instruction => instruction.operation.targets[index]?
  | .boundary handler index =>
      body.handlers[handler]?.bind fun found => found.boundaries[index]?

/-- Does a way lead to an instruction? -/
inductive Leads (body : MethodBody) : Way → InstrId → Prop where
  | entry {id : InstrId} (first : body.firstId? = some id) :
      Leads body .entry id
  | handler {index : Nat} {handler : ExceptionHandler}
      (here : body.handlers[index]? = some handler) :
      Leads body (.handler index) handler.handlerStart
  | jump {source id : InstrId} {index : Nat}
      (named : body.named? (.target source index) = some id) :
      Leads body (.jump source index) id
  | next {front back : List Instruction}
      {instruction following : Instruction}
      (split : body.instructions =
        front ++ instruction :: following :: back)
      (goesOn : instruction.operation.neverFallsThrough = false) :
      Leads body (.next instruction.id) following.id

theorem find?_id
    {instructions : List Instruction}
    (distinct : (identities instructions).Nodup)
    {instruction : Instruction} (member : instruction ∈ instructions) :
    instructions.find? (·.id == instruction.id) = some instruction := by
  cases found : instructions.find? (·.id == instruction.id) with
  | none =>
      have missing := List.find?_eq_none.mp found instruction member
      simp at missing
  | some other =>
      have same := List.find?_some found
      rw [eq_of_id_eq distinct (List.mem_of_find?_eq_some found) member
        (beq_iff_eq.mp same)]

theorem named?_target
    {body : MethodBody}
    (distinct : (identities body.instructions).Nodup)
    {instruction : Instruction}
    (member : instruction ∈ body.instructions) (index : Nat) :
    body.named? (.target instruction.id index) =
      instruction.operation.targets[index]? := by
  rw [named?, find?_id distinct member, Option.bind_some]

theorem exists_of_named?_target
    {body : MethodBody} {source id : InstrId} {index : Nat}
    (named : body.named? (.target source index) = some id) :
    ∃ instruction ∈ body.instructions,
      instruction.id = source ∧
        instruction.operation.targets[index]? = some id := by
  obtain ⟨instruction, found, target⟩ := Option.bind_eq_some_iff.mp named
  have same := List.find?_some found
  exact ⟨instruction, List.mem_of_find?_eq_some found,
    beq_iff_eq.mp same, target⟩

theorem exists_of_named?_boundary
    {body : MethodBody} {handler index : Nat} {id : InstrId}
    (named : body.named? (.boundary handler index) = some id) :
    ∃ found, body.handlers[handler]? = some found ∧
      found.boundaries[index]? = some id :=
  Option.bind_eq_some_iff.mp named

/-- References name what they name whatever the forms of branches are. -/
theorem named?_of_widenBranches_eq
    {left right : MethodBody}
    (instructions : widenBranches left.instructions =
      widenBranches right.instructions)
    (handlers : left.handlers = right.handlers)
    (reference : Reference) :
    left.named? reference = right.named? reference := by
  have forget : ∀ (list : List Instruction) (source : InstrId)
      (index : Nat),
      ((list.find? (·.id == source)).bind
        fun instruction => instruction.operation.targets[index]?) =
      (((widenBranches list).find? (·.id == source)).bind
        fun instruction => instruction.operation.targets[index]?) := by
    intro list source index
    rw [widenBranches, List.find?_map]
    cases found : list.find? (·.id == source) <;>
      simp [Function.comp_def, found, Instruction.withForm]
  cases reference with
  | target source index =>
      rw [named?, named?, forget, instructions, ← forget]
  | boundary handler index =>
      rw [named?, named?, handlers]

@[simp]
theorem named?_widen (body : MethodBody) (reference : Reference) :
    body.widen.named? reference = body.named? reference :=
  named?_of_widenBranches_eq
    (widenBranches_widenBranches body.instructions)
    (handlers_widen body) reference

theorem Leads.widen
    {body : MethodBody} {way : Way} {id : InstrId}
    (leads : body.Leads way id) :
    body.widen.Leads way id := by
  cases leads with
  | entry first =>
      refine .entry ?_
      simpa [firstId?, widen, widenBranches, Function.comp_def] using first
  | handler here =>
      exact .handler here
  | jump named =>
      exact .jump (by simpa using named)
  | @next front back instruction following split goesOn =>
      have wide : body.widen.instructions =
          widenBranches front ++ instruction.withForm .long ::
            following.withForm .long :: widenBranches back := by
        simp [split, widenBranches]
      have next :=
        Leads.next wide (by simpa [Instruction.withForm] using goesOn)
      simpa only [Instruction.id_withForm] using next

theorem Leads.of_widen
    {body : MethodBody} {way : Way} {id : InstrId}
    (leads : body.widen.Leads way id) :
    body.Leads way id := by
  cases leads with
  | entry first =>
      refine .entry ?_
      simpa [firstId?, widen, widenBranches, Function.comp_def] using first
  | handler here =>
      exact .handler here
  | jump named =>
      exact .jump (by simpa using named)
  | next split goesOn =>
      obtain ⟨front, rest, parts, -, behind⟩ :=
        List.map_eq_append_iff.mp split
      obtain ⟨instruction, tail, tailParts, rfl, others⟩ :=
        List.map_eq_cons_iff.mp behind
      obtain ⟨following, back, backParts, rfl, -⟩ :=
        List.map_eq_cons_iff.mp others
      subst tailParts backParts
      have next :=
        Leads.next parts (by simpa [Instruction.withForm] using goesOn)
      simpa only [Instruction.id_withForm] using next

/-- The ways to an instruction do not depend on the forms of branches. -/
@[simp]
theorem leads_widen
    {body : MethodBody} {way : Way} {id : InstrId} :
    body.widen.Leads way id ↔ body.Leads way id :=
  ⟨Leads.of_widen, Leads.widen⟩

/-- Behind an instruction from which control does not go on, only references lead in. -/
theorem Leads.cases_of_stops
    {body : MethodBody} (distinct : (identities body.instructions).Nodup)
    {front back : List Instruction} {last point : Instruction}
    (split : body.instructions = front ++ last :: point :: back)
    (stops : last.operation.neverFallsThrough = true)
    {way : Way} (leads : body.Leads way point.id) :
    (∃ source index, way = .jump source index ∧
        body.named? (.target source index) = some point.id) ∨
      ∃ handler, body.named? (.boundary handler 2) = some point.id := by
  rw [split] at distinct
  generalize target : point.id = id at leads
  cases leads with
  | entry first =>
      rw [firstId?, split] at first
      cases front with
      | nil =>
          have same : last.id = id := by simpa using first
          simp [same, target] at distinct
      | cons start rest =>
          have same : start.id = id := by simpa using first
          simp [same, target] at distinct
  | handler found =>
      rename_i index handler
      refine .inr ⟨index, ?_⟩
      simp [named?, found, ExceptionHandler.boundaries]
  | jump named =>
      exact .inl ⟨_, _, rfl, named⟩
  | next otherSplit fallsThrough =>
      rename_i otherFront otherBack instruction following
      have places :
          (front ++ [last]) ++ point :: back =
            (otherFront ++ [instruction]) ++ following :: otherBack := by
        rw [split] at otherSplit
        simpa using otherSplit
      have before :=
        (split_eq_of_id_eq (by simpa using distinct) places target).1
      have same : last = instruction := by
        simpa using (List.append_inj' before rfl).2
      rw [same, fallsThrough] at stops
      cases stops

end MethodBody

end NullWeave
