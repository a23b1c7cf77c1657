import NullWeave.Proofs.Weave.GuardCount

/-!
# Places that a guarded body offers

A state machine offers two things to a run: the calls that hand values over,
before which guards are put, and the method that it reports failures with.
Guards that throw call neither, and a guard that reports a failure does so with
what the state machine reports failures with anyway.  So a body that has guards
offers what it did without them, to the same run and to later ones.
-/

namespace NullWeave

/-! ## Calls of a builder -/

namespace Graph

theorem seesNoTarget_isHandover (graph : Graph) :
    Operation.SeesNoTarget graph.isHandover where
  mapTargets := graph.isHandover_mapTargets
  withForm := graph.isHandover_withForm

theorem builderCall?_mapTargets
    (graph : Graph) (name : String) (change : InstrId → InstrId)
    (operation : Operation) :
    graph.builderCall? name (operation.mapTargets change) =
      graph.builderCall? name operation := by
  cases operation <;> rfl

theorem builderCall?_withForm
    (graph : Graph) (name : String) (form : BranchForm)
    (operation : Operation) :
    graph.builderCall? name (operation.withForm form) =
      graph.builderCall? name operation := by
  cases operation <;> rfl

/-- The calls of a builder's methods tell their names. -/
theorem name_of_builderCall?
    {graph : Graph} {name : String} {operation : Operation}
    {method : MethodId}
    (found : graph.builderCall? name operation = some method) :
    operation = .call method ∧ (graph.method method).name = name := by
  cases operation with
  | call called =>
      simp only [builderCall?, Option.ite_none_right_eq_some,
        Option.some.injEq] at found
      obtain ⟨builder, rfl⟩ := found
      simp only [isTaskBuilderMethod, Bool.and_eq_true, beq_iff_eq]
        at builder
      exact ⟨rfl, builder.1.1⟩
  | _ => cases found

/-- What a body reports a failure with is called in it, by this name. -/
theorem exists_of_faultReport?
    {graph : Graph} {body : MethodBody} {setException : MethodId}
    (reports : graph.faultReport? body = some setException) :
    graph.builderCall? "SetException" (.call setException) =
        some setException ∧
      (graph.method setException).name = "SetException" := by
  obtain ⟨instruction, -, found⟩ := List.exists_of_findSome?_eq_some reports
  obtain ⟨call, name⟩ := name_of_builderCall? found
  exact ⟨call ▸ found, name⟩

end Graph

/-- A state machine looks the same to a second run. -/
structure Graph.OffersSame
    (graph : Graph) (body again : MethodBody) : Prop where
  reports : graph.faultReport? again = graph.faultReport? body
  handovers :
    countOperations graph.isHandover again.instructions =
      countOperations graph.isHandover body.instructions

namespace Graph.OffersSame

variable {graph : Graph} {body middle last : MethodBody}

theorem refl (graph : Graph) (body : MethodBody) :
    graph.OffersSame body body :=
  ⟨rfl, rfl⟩

theorem trans
    (first : graph.OffersSame body middle)
    (second : graph.OffersSame middle last) :
    graph.OffersSame body last :=
  ⟨second.reports.trans first.reports,
    second.handovers.trans first.handovers⟩

end Graph.OffersSame

/-! ## Calls of a guard -/

namespace Guard

variable {graph : Graph} {guard : Guard} {debugBuild : Bool}

/-- A guard calls what asserts in debug builds, and what it reports a failure with. -/
theorem cases_of_call_mem_operations
    {next : InstrId} {method : MethodId}
    (member : .call method ∈ guard.operations debugBuild next) :
    method = SystemLibrary.debugAssert ∨ guard.exit = .report method := by
  have loaded : .call method ∉ guard.subject.load := by
    unfold GuardedValue.load
    split <;> split <;> simp
  have discarded : .call method ∉ guard.subject.discard := by
    cases guard.subject <;> simp [GuardedValue.discard]
  have constructed :
      .call method ∉ guard.failure.construct guard.message := by
    cases guard.failure <;> simp [GuardFailure.construct]
  simp only [operations, List.mem_append, loaded, discarded, constructed,
    or_false, List.mem_singleton, reduceCtorEq] at member
  rcases member with asserted | left
  · cases debugBuild with
    | false =>
        cases asserted
    | true =>
        exact .inl (by simpa [assertion, loaded] using asserted)
  · cases exit : guard.exit with
    | throw =>
        simp [exit, GuardExit.leave] at left
    | report setException =>
        exact .inr (by simpa [exit, GuardExit.leave, eq_comm] using left)

/-- The only method of a builder that a guard may call is the one it reports a failure with. -/
theorem cases_of_mem_operations
    (includes : graph.IncludesSystem) (name : String)
    (other : name ≠ "Assert") {next : InstrId} {operation : Operation}
    (member : operation ∈ guard.operations debugBuild next) :
    graph.builderCall? name operation = none ∨
      ∃ setException, guard.exit = .report setException ∧
        operation = .call setException := by
  cases called : graph.builderCall? name operation with
  | none =>
      exact .inl rfl
  | some method =>
      obtain ⟨rfl, named⟩ := Graph.name_of_builderCall? called
      rcases cases_of_call_mem_operations member with rfl | exit
      · rw [includes.methods SystemLibrary.debugAssert (by decide)]
          at named
        exact absurd named.symm other
      · exact .inr ⟨method, exit, rfl⟩

/-- Does a guard throw, or report failures with what a body reports them with? -/
def ReportsLike
    (guard : Guard) (graph : Graph) (body : MethodBody) : Prop :=
  ∀ setException, guard.exit = .report setException →
    graph.faultReport? body = some setException

theorem reportsLike_of_throws
    (throws : guard.exit = .throw) (graph : Graph) (body : MethodBody) :
    guard.ReportsLike graph body := by
  intro setException reports
  cases throws.symm.trans reports

namespace ReportsLike

variable
    {body : MethodBody} (like : guard.ReportsLike graph body)
    (includes : graph.IncludesSystem)
    {next : InstrId} {operation : Operation}
    (member : operation ∈ guard.operations debugBuild next)

include like includes member

/-- Such a guard hands no value over. -/
theorem isHandover_eq_false : graph.isHandover operation = false := by
  rcases cases_of_mem_operations includes "SetResult" (by decide)
      member with none | ⟨setException, exit, rfl⟩
  · rw [Graph.isHandover, none]
    rfl
  · have named := (Graph.exists_of_faultReport? (like _ exit)).2
    rw [Bool.eq_false_iff]
    intro handover
    obtain ⟨method, found⟩ := Option.isSome_iff_exists.mp handover
    obtain ⟨same, other⟩ := Graph.name_of_builderCall? found
    cases same
    revert named
    rw [other]
    decide

/-- It reports failures with nothing else than the body does. -/
theorem builderCall?_setException :
    graph.builderCall? "SetException" operation = none ∨
      graph.builderCall? "SetException" operation =
        graph.faultReport? body := by
  rcases cases_of_mem_operations includes "SetException" (by decide)
      member with none | ⟨setException, exit, rfl⟩
  · exact .inl none
  · rw [like _ exit]
    exact .inr (Graph.exists_of_faultReport? (like _ exit)).1

end ReportsLike

end Guard

/-! ## Layouts -/

/-- What comes first in a list with more in it, if all that is new is that very result. -/
theorem GuardLayout.findSome?_blocks
    {layout : GuardLayout} {debugBuild : Bool} {α : Type}
    {look : Operation → Option α} {result : Option α}
    (sameLook : ∀ change operation,
      look (operation.mapTargets change) = look operation)
    {instructions : List Instruction}
    (rows : ∀ instruction ∈ instructions,
      ∀ added ∈ (layout.before instruction.id).code debugBuild
          instruction.id,
        look added.operation = none ∨ look added.operation = result)
    (found : instructions.findSome? (fun instruction =>
      look instruction.operation) = result) :
    (layout.blocks debugBuild instructions).findSome?
        (fun instruction => look instruction.operation) =
      result := by
  induction instructions with
  | nil =>
      exact found
  | cons instruction rest inductionHypothesis =>
      rw [List.forall_mem_cons] at rows
      rw [blocks_cons, block, List.append_assoc, List.findSome?_append]
      cases row :
          ((layout.before instruction.id).code debugBuild
            instruction.id).findSome? fun instruction =>
              look instruction.operation with
      | some first =>
          obtain ⟨added, member, here⟩ :=
            List.exists_of_findSome?_eq_some row
          rcases rows.1 added member with none | same
          · cases none.symm.trans here
          · rw [← same, here]
            rfl
      | none =>
          rw [List.findSome?_cons] at found
          rw [Option.none_or, List.singleton_append, List.findSome?_cons]
          have same :
              look (instruction.mapTargets layout.entrance).operation =
                look instruction.operation := sameLook _ _
          rw [same]
          cases point : look instruction.operation with
          | some first =>
              rw [point] at found
              exact found
          | none =>
              rw [point] at found
              exact inductionHypothesis rows.2 found

theorem Graph.faultReport?_widen (graph : Graph) (body : MethodBody) :
    graph.faultReport? body.widen = graph.faultReport? body := by
  rw [faultReport?, MethodBody.instructions_widen, widenBranches,
    List.findSome?_map]
  refine congrFun (congrArg List.findSome? (funext fun instruction => ?_))
    body.instructions
  exact graph.builderCall?_withForm "SetException" .long
    instruction.operation

namespace GuardLayout.Describes

variable
    {graph : Graph} {layout : GuardLayout} {debugBuild : Bool}
    {body new : MethodBody}
    (described : layout.Describes debugBuild body.widen new.widen)
    (includes : graph.IncludesSystem)
    (front : ∀ guard ∈ layout.front.map (·.guard),
      guard.ReportsLike graph body)
    (before : ∀ instruction ∈ body.instructions,
      ∀ guard ∈ layout.guardsBefore instruction.id,
        guard.ReportsLike graph body)

include described includes front before

theorem faultReport?_eq :
    graph.faultReport? new = graph.faultReport? body := by
  have row : ∀ guards : GuardRow,
      (∀ guard ∈ guards.map (·.guard), guard.ReportsLike graph body) →
        ∀ next, ∀ added ∈ guards.code debugBuild next,
          graph.builderCall? "SetException" added.operation = none ∨
            graph.builderCall? "SetException" added.operation =
              graph.faultReport? body := by
    intro guards like next added inside
    obtain ⟨guard, among, next, member⟩ :=
      GuardRow.exists_of_mem_code inside
    exact (like guard among).builderCall?_setException includes member
  have blocks :
      (layout.blocks debugBuild body.widen.instructions).findSome?
          (fun instruction =>
            graph.builderCall? "SetException" instruction.operation) =
        graph.faultReport? body := by
    refine findSome?_blocks (graph.builderCall?_mapTargets "SetException")
      ?_ (graph.faultReport?_widen body)
    intro instruction member
    obtain ⟨original, here, rfl⟩ := List.mem_map.mp member
    exact row _ (before original here) _
  rw [← graph.faultReport?_widen new, Graph.faultReport?,
    described.instructions, code, List.findSome?_append, blocks]
  cases entered :
      (layout.frontCode debugBuild body.widen.instructions).findSome?
        fun instruction =>
          graph.builderCall? "SetException" instruction.operation with
  | none =>
      rfl
  | some first =>
      obtain ⟨added, inside, here⟩ :=
        List.exists_of_findSome?_eq_some entered
      unfold frontCode at inside
      split at inside
      · cases inside
      · rcases row _ front _ added inside with none | same
        · cases none.symm.trans here
        · rw [← same, here]
          rfl

/-- A body with such guards in it offers what it did without them. -/
theorem offersSame : graph.OffersSame body new where
  reports := described.faultReport?_eq includes front before
  handovers := by
    have quiet : ∀ guards : GuardRow,
        (∀ guard ∈ guards.map (·.guard), guard.ReportsLike graph body) →
          guards.Quiet debugBuild graph.isHandover := by
      intro guards like placed among next operation member
      exact (like placed.guard (List.mem_map_of_mem among)).isHandover_eq_false
        includes member
    exact described.countOperations_eq graph.seesNoTarget_isHandover
      (quiet _ front)
      fun instruction member => quiet _ (before instruction member)

end GuardLayout.Describes

/-! ## New bodies -/

namespace MethodContext

variable
    {context : MethodContext} {debugBuild : Bool} {payload : Signature}
    {setException : MethodId} {body : MethodBody}
    (includes : context.graph.IncludesSystem)
    (wellFormed : body.WellFormed)

include includes wellFormed

theorem offersSame_guardHandovers
    (reports : context.graph.faultReport? body = some setException) :
    context.graph.OffersSame body
      (context.guardHandovers debugBuild payload setException
        body).finish := by
  obtain ⟨layout, lays⟩ :=
    context.exists_layout_handovers debugBuild payload setException
      wellFormed
  refine lays.describes.offersSame includes (by simp [lays.front]) ?_
  intro instruction member guard here other exit
  rw [lays.before instruction member] at here
  split at here
  · cases List.mem_singleton.mp here
    cases exit
    exact reports
  · cases here

theorem offersSame_wovenBody (settings : Settings) :
    context.graph.OffersSame body (context.wovenBody settings body) := by
  obtain ⟨layout, lays⟩ := context.exists_layout settings wellFormed
  refine lays.woven.offersSame includes ?_ ?_
  · rw [lays.front]
    exact fun guard member => Guard.reportsLike_of_throws
      (context.exit_entryGuards settings body guard member) _ _
  · intro instruction member guard here
    rw [lays.before instruction member] at here
    split at here
    · exact Guard.reportsLike_of_throws
        (context.exit_outGuards_append guard
          (context.exitGuards_sublist.subset here)) _ _
    · cases here

end MethodContext

end NullWeave
