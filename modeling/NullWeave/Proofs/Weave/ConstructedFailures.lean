import NullWeave.Proofs.Weave.SecondRun

/-!
# The exceptions that guards construct

Every guard constructs one exception, with one of two constructors.  So a body
constructs as many more exceptions of these two kinds as it gets guards, and
what is counted as guards can be found again in the code.
-/

namespace NullWeave

/-- Does an operation construct with one of the constructors that guards use? -/
def Graph.constructsFailure (graph : Graph) (operation : Operation) : Bool :=
  constructsWith graph SystemLibrary.argumentNullInitMessage operation ||
    constructsWith graph SystemLibrary.invalidOperationInit operation

namespace Graph

theorem seesNoTarget_constructsFailure (graph : Graph) :
    Operation.SeesNoTarget graph.constructsFailure where
  mapTargets _ operation := by
    cases operation <;> rfl
  withForm _ operation := by
    cases operation <;> rfl

/-- Only what constructs anything constructs with these. -/
theorem countP_constructsFailure_of_not_newObj
    (graph : Graph) {operations : List Operation}
    (other : ∀ operation ∈ operations,
      ∀ constructor, operation ≠ .newObj constructor) :
    operations.countP graph.constructsFailure = 0 := by
  refine List.countP_eq_zero.mpr fun operation member => ?_
  cases operation with
  | newObj constructor => exact absurd rfl (other _ member constructor)
  | _ => exact Bool.false_ne_true

end Graph

namespace Guard

theorem newObj_not_mem_load
    (subject : GuardedValue) :
    ∀ operation ∈ subject.load,
      ∀ constructor, operation ≠ .newObj constructor := by
  unfold GuardedValue.load
  split <;> split <;> simp

/-- A guard constructs one exception. -/
theorem countP_constructsFailure
    (graph : Graph) (debugBuild : Bool) (guard : Guard)
    (next : InstrId) :
    (guard.operations debugBuild next).countP
      graph.constructsFailure = 1 := by
  have load :=
    graph.countP_constructsFailure_of_not_newObj
      (newObj_not_mem_load guard.subject)
  have loading :
      (guard.loading debugBuild).countP graph.constructsFailure = 0 := by
    rw [loading, List.countP_append, load]
    cases debugBuild
    · rfl
    · rw [if_pos rfl, assertion, List.countP_append, load]
      rfl
  have construct :
      (guard.failure.construct guard.message).countP
        graph.constructsFailure = 1 := by
    cases guard.failure <;>
      simp [GuardFailure.construct, Graph.constructsFailure,
        constructsWith]
  have discard :
      guard.subject.discard.countP graph.constructsFailure = 0 := by
    cases guard.subject <;> rfl
  have leave :
      guard.exit.leave.countP graph.constructsFailure = 0 := by
    cases guard.exit <;> rfl
  rw [operations_eq, List.countP_append, List.countP_cons, loading,
    failing, List.countP_append, List.countP_append, discard, construct,
    leave]
  rfl

end Guard

/-- What guards add to the exceptions that a body constructs is their number. -/
theorem GuardedBody.ComesFrom.countOperations_constructsFailure
    {style : GuardStyle} {original : MethodBody} {guarded : GuardedBody}
    (comes : guarded.ComesFrom style original) (graph : Graph) :
    countOperations graph.constructsFailure guarded.body.instructions =
      countOperations graph.constructsFailure original.instructions +
        guarded.guards := by
  obtain ⟨placed, trace, count⟩ := comes
  rw [← count]
  exact trace.countOperations_of_once graph.seesNoTarget_constructsFailure
    (Guard.countP_constructsFailure graph style.debugBuild)

namespace MethodContext

variable (context : MethodContext)

theorem countOperations_wovenBody
    (settings : Settings) (body : MethodBody) :
    countOperations context.graph.constructsFailure
        (context.wovenBody settings body).instructions =
      countOperations context.graph.constructsFailure
          body.instructions +
        (context.guardBody settings body).guards := by
  have blind := context.graph.seesNoTarget_constructsFailure
  have added :=
    (context.comesFrom_guardBody settings body)
      |>.countOperations_constructsFailure context.graph
  rw [MethodBody.instructions_widen, countOperations_widenBranches blind]
    at added
  rw [← added]
  exact GuardedBody.countOperations_finish blind _

theorem countOperations_finish_guardHandovers
    (debugBuild : Bool) (payload : Signature) (setException : MethodId)
    (body : MethodBody) :
    countOperations context.graph.constructsFailure
        (context.guardHandovers debugBuild payload setException
          body).finish.instructions =
      countOperations context.graph.constructsFailure
          body.instructions +
        (context.guardHandovers debugBuild payload setException
          body).guards := by
  have blind := context.graph.seesNoTarget_constructsFailure
  have added :=
    (context.comesFrom_guardHandovers debugBuild payload setException body)
      |>.countOperations_constructsFailure context.graph
  rw [MethodBody.instructions_widen, countOperations_widenBranches blind]
    at added
  rw [← added]
  exact GuardedBody.countOperations_finish blind _

/-! ## A method that is its own state machine -/

theorem IsMoveNext.isSetter_eq_false
    {context : MethodContext} {types : List TypeId} {method : MethodId}
    (moveNext : context.IsMoveNext types method) :
    (context.graph.method method).isSetter = false := by
  rw [MethodDecl.isSetter, moveNext.name_eq]
  exact Bool.and_eq_false_imp.mpr fun _ => by decide

theorem IsMoveNext.isGetter_eq_false
    {context : MethodContext} {types : List TypeId} {method : MethodId}
    (moveNext : context.IsMoveNext types method) :
    (context.graph.method method).isGetter = false := by
  rw [MethodDecl.isGetter, moveNext.name_eq]
  exact Bool.and_eq_false_imp.mpr fun _ => by decide

/-- What its own state machine runs gets no guards from weaving it. -/
theorem IsMoveNext.guards_eq_zero
    {context : MethodContext} {types : List TypeId}
    (moveNext : context.IsMoveNext types context.method)
    (async : context.shape = .asyncStateMachine)
    (settings : Settings) (body : MethodBody) :
    (context.guardBody settings body).guards = 0 := by
  have parameters : context.decl.parameters = [] :=
    moveNext.parameters_eq_nil
  have setter : context.decl.isSetter = false :=
    moveNext.isSetter_eq_false
  have getter : context.decl.isGetter = false :=
    moveNext.isGetter_eq_false
  have entry : (context.guardEntry settings body).guards = 0 := by
    rw [guardEntry, guardArguments, parameters]
    split <;> rfl
  simp [guardBody, guardExit, async, guardAccessor, setter, getter, entry]

end MethodContext

end NullWeave
