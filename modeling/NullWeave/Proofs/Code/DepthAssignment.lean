import NullWeave.Proofs.Code.DepthAnnotation

/-!
# Consistent depths

The condition that the check of depths decides, said without the search.
Control flow is a graph on the instructions: it starts at the first one and at
the starts of the handlers and goes along targets and to the next instruction.
The instructions that it comes to need one depth each, so that the depths fit
along all these ways and every instruction finds what it takes.

A body has such depths exactly if it is disciplined, and they are then the ones
that its instructions are reached with.
-/

namespace NullWeave

namespace MethodBody

/-- Does control come to an instruction, along whatever ways and with whatever depth? -/
inductive Flows (body : MethodBody) : InstrId → Prop where
  | entry {first : Instruction} {rest : List Instruction}
      (whole : body.instructions = first :: rest) :
      Flows body first.id
  | handler {handler : ExceptionHandler}
      (member : handler ∈ body.handlers) :
      Flows body handler.handlerStart
  | jump {instruction : Instruction} {target : InstrId}
      (member : instruction ∈ body.instructions)
      (flows : Flows body instruction.id)
      (targeted : target ∈ instruction.operation.targets) :
      Flows body target
  | next {front back : List Instruction}
      {instruction following : Instruction}
      (split : body.instructions =
        front ++ instruction :: following :: back)
      (flows : Flows body instruction.id)
      (goesOn : instruction.operation.neverFallsThrough = false) :
      Flows body following.id

/-- Is a function a depth for each instruction that control comes to? -/
structure Assigns
    (graph : Graph) (body : MethodBody) (returnsValue : Bool)
    (depth : InstrId → Nat) : Prop where
  entry : ∀ first rest, body.instructions = first :: rest →
    depth first.id = 0
  handlers : ∀ handler ∈ body.handlers,
    depth handler.handlerStart = handler.kind.entryDepth
  jumps : ∀ instruction ∈ body.instructions, body.Flows instruction.id →
    ∀ target ∈ instruction.operation.targets,
      depth target =
        instruction.operation.depthAtTarget
          (instruction.operation.depthAfter graph (depth instruction.id))
  goesOn : ∀ front instruction following back,
    body.instructions = front ++ instruction :: following :: back →
    body.Flows instruction.id →
    instruction.operation.neverFallsThrough = false →
      depth following.id =
        instruction.operation.depthAfter graph (depth instruction.id)
  pops : ∀ instruction ∈ body.instructions, body.Flows instruction.id →
    instruction.operation.isRet = false →
      (instruction.operation.stackEffect graph).pops ≤ depth instruction.id
  returns : ∀ instruction ∈ body.instructions, body.Flows instruction.id →
    instruction.operation.isRet = true →
      depth instruction.id = returnsValue.toNat

/-- Does control stay inside a body, wherever it comes to? -/
structure StaysInside (body : MethodBody) : Prop where
  handlers : ∀ handler ∈ body.handlers,
    handler.handlerStart ∈ identities body.instructions
  targets : ∀ instruction ∈ body.instructions, body.Flows instruction.id →
    ∀ target ∈ instruction.operation.targets,
      target ∈ identities body.instructions
  last : ∀ front instruction,
    body.instructions = front ++ [instruction] →
    body.Flows instruction.id →
      instruction.operation.neverFallsThrough = true

/--
Is a number the greatest depth before an instruction that control comes to, or
behind one that is no return?  In a body without instructions it is zero.
-/
structure IsGreatestDepth
    (graph : Graph) (body : MethodBody) (depth : InstrId → Nat)
    (greatest : Nat) : Prop where
  bounds : ∀ instruction ∈ body.instructions, body.Flows instruction.id →
    ∀ shown, Shows graph instruction (depth instruction.id) shown →
      shown ≤ greatest
  attained :
    (∃ instruction ∈ body.instructions, body.Flows instruction.id ∧
      Shows graph instruction (depth instruction.id) greatest) ∨
    body.instructions = [] ∧ greatest = 0

section Depths

variable
    {graph : Graph} {body : MethodBody} {returnsValue : Bool}
    {depth : InstrId → Nat}

theorem Reached.flows
    {id : InstrId} {found : Nat} (reached : body.Reached graph id found) :
    body.Flows id := by
  induction reached with
  | entry whole => exact .entry whole
  | handler member => exact .handler member
  | jump member _ targeted flows => exact .jump member flows targeted
  | next split _ goesOn flows => exact .next split flows goesOn

theorem Flows.exists_reached
    (graph : Graph) {id : InstrId} (flows : body.Flows id) :
    ∃ found, body.Reached graph id found := by
  induction flows with
  | entry whole =>
      exact ⟨0, .entry whole⟩
  | handler member =>
      exact ⟨_, .handler member⟩
  | jump member _ targeted inductionHypothesis =>
      obtain ⟨found, reached⟩ := inductionHypothesis
      exact ⟨_, .jump member reached targeted⟩
  | next split _ goesOn inductionHypothesis =>
      obtain ⟨found, reached⟩ := inductionHypothesis
      exact ⟨_, .next split reached goesOn⟩

/-- An instruction is reached with no other depth than the assigned one. -/
theorem Assigns.eq_of_reached
    (assigns : body.Assigns graph returnsValue depth)
    {id : InstrId} {found : Nat} (reached : body.Reached graph id found) :
    found = depth id := by
  induction reached with
  | entry whole =>
      exact (assigns.entry _ _ whole).symm
  | handler member =>
      exact (assigns.handlers _ member).symm
  | jump member before targeted inductionHypothesis =>
      rw [inductionHypothesis]
      exact (assigns.jumps _ member before.flows _ targeted).symm
  | next split before goesOn inductionHypothesis =>
      rw [inductionHypothesis]
      exact (assigns.goesOn _ _ _ _ split before.flows goesOn).symm

theorem Assigns.reached_iff
    (assigns : body.Assigns graph returnsValue depth)
    {id : InstrId} {found : Nat} :
    body.Reached graph id found ↔ body.Flows id ∧ found = depth id := by
  constructor
  · intro reached
    exact ⟨reached.flows, assigns.eq_of_reached reached⟩
  · rintro ⟨flows, rfl⟩
    obtain ⟨found, reached⟩ := flows.exists_reached graph
    rwa [← assigns.eq_of_reached reached]

/-- A body with consistent depths is disciplined. -/
theorem Assigns.disciplined
    (assigns : body.Assigns graph returnsValue depth)
    (inside : body.StaysInside) :
    body.Disciplined graph returnsValue := by
  refine ⟨inside.handlers, ?_, ?_⟩
  · intro id left right reachedLeft reachedRight
    rw [assigns.eq_of_reached reachedLeft, assigns.eq_of_reached reachedRight]
  · intro instruction member found reached
    have flows := reached.flows
    obtain rfl := assigns.eq_of_reached reached
    refine ⟨assigns.returns instruction member flows,
      assigns.pops instruction member flows,
      inside.targets instruction member flows, ?_⟩
    intro goesOn front last
    rw [inside.last front instruction last flows] at goesOn
    cases goesOn

theorem Disciplined.staysInside
    (disciplined : body.Disciplined graph returnsValue) :
    body.StaysInside where
  handlers := disciplined.handlers
  targets instruction member flows := by
    obtain ⟨found, reached⟩ := flows.exists_reached graph
    exact (disciplined.admits instruction member found reached).targets
  last front instruction split flows := by
    obtain ⟨found, reached⟩ := flows.exists_reached graph
    have member : instruction ∈ body.instructions := by simp [split]
    have admits := disciplined.admits instruction member found reached
    by_contra goesOn
    exact admits.inside (by simpa using goesOn) front split

/-- The depths that the instructions of a disciplined body are reached with are consistent. -/
theorem Disciplined.exists_assigns
    (disciplined : body.Disciplined graph returnsValue) :
    ∃ depth, body.Assigns graph returnsValue depth := by
  obtain ⟨depths, known⟩ := disciplined.exists_depths
  have found : ∀ id depth, body.Reached graph id depth →
      (depths id).getD 0 = depth := by
    intro id depth reached
    rw [(known id depth).mpr reached, Option.getD_some]
  have reached : ∀ id, body.Flows id →
      body.Reached graph id ((depths id).getD 0) := by
    intro id flows
    obtain ⟨depth, reached⟩ := flows.exists_reached graph
    rwa [found id depth reached]
  refine ⟨fun id => (depths id).getD 0, ?_⟩
  exact {
    entry := fun first rest whole => found _ _ (.entry whole)
    handlers := fun handler member => found _ _ (.handler member)
    jumps := fun instruction member flows target targeted =>
      found _ _ (.jump member (reached _ flows) targeted)
    goesOn := fun front instruction following back split flows goesOn =>
      found _ _ (.next split (reached _ flows) goesOn)
    pops := fun instruction member flows =>
      (disciplined.admits instruction member _ (reached _ flows)).pops
    returns := fun instruction member flows =>
      (disciplined.admits instruction member _ (reached _ flows)).returns }

/-- The greatest assigned depth is the greatest depth that is reached. -/
theorem Assigns.isGreatestDepth_iff
    (assigns : body.Assigns graph returnsValue depth) {greatest : Nat} :
    body.IsGreatestDepth graph depth greatest ↔
      body.IsDeepest graph greatest := by
  constructor
  · intro isGreatest
    constructor
    · intro instruction member found reached
      obtain ⟨flows, rfl⟩ := assigns.reached_iff.mp reached
      exact isGreatest.bounds instruction member flows
    · rcases isGreatest.attained with
        ⟨instruction, member, flows, shows⟩ | ⟨-, rfl⟩
      · exact .inr ⟨instruction, member, _,
          assigns.reached_iff.mpr ⟨flows, rfl⟩, shows⟩
      · exact .inl rfl
  · intro isDeepest
    constructor
    · intro instruction member flows
      exact isDeepest.bounds instruction member _
        (assigns.reached_iff.mpr ⟨flows, rfl⟩)
    · rcases isDeepest.attained with
        rfl | ⟨instruction, member, found, reached, shows⟩
      · cases whole : body.instructions with
        | nil =>
            exact .inr ⟨rfl, rfl⟩
        | cons first rest =>
            refine .inl ⟨first, by simp, .entry whole, .inl ?_⟩
            exact (assigns.entry first rest whole).symm
      · obtain ⟨flows, rfl⟩ := assigns.reached_iff.mp reached
        exact .inl ⟨instruction, member, flows, shows⟩

theorem IsDeepest.unique
    {left right : Nat}
    (leftDeepest : body.IsDeepest graph left)
    (rightDeepest : body.IsDeepest graph right) :
    left = right := by
  have below : ∀ {lower upper : Nat},
      body.IsDeepest graph lower → body.IsDeepest graph upper →
        lower ≤ upper := by
    intro lower upper isLower isUpper
    rcases isLower.attained with
      rfl | ⟨instruction, member, found, reached, shows⟩
    · exact Nat.zero_le _
    · exact isUpper.bounds instruction member found reached _ shows
  exact Nat.le_antisymm (below leftDeepest rightDeepest)
    (below rightDeepest leftDeepest)

end Depths

end MethodBody

end NullWeave
