import NullWeave.Proofs.Weave.Growth
import NullWeave.Proofs.Weave.ReportedCounts

/-!
# Which guards one method brings

What weaving a method does to a body can be said before it is done: some guards
come in front, and the same row of guards comes before each operation of one
kind.  The own body of the method gets entry guards and guards before returns,
its state machines get guards before the calls that hand values over, and no
other body gets any.

A body with such guards in it has grown, offers its state machine what it did
before, and returns more often only where guards return that report failures.
-/

namespace NullWeave

/-! ## Plans -/

/-- The guards that one body gets. -/
structure GuardPlan where
  /-- The guards in front. -/
  front : List Guard := []
  /-- The operations before which guards are put. -/
  marked : Operation → Bool := fun _ => false
  /-- The guards before each of them, in order. -/
  guards : List Guard := []

/-- Does a guard return where it finds null? -/
def Guard.returns (guard : Guard) : Bool :=
  guard.exit != .throw

theorem Guard.countP_isRet
    (debugBuild : Bool) (guard : Guard) (next : InstrId) :
    (guard.operations debugBuild next).countP Operation.isRet =
      if guard.returns then 1 else 0 := by
  have none : ∀ operations : List Operation,
      (∀ operation ∈ operations, operation.Straight) →
        operations.countP Operation.isRet = 0 := by
    intro operations straight
    refine List.countP_eq_zero.mpr fun operation member isRet => ?_
    rw [(straight operation member).isRet] at isRet
    cases isRet
  rw [operations_eq, failing, List.countP_append,
    none _ (guard.straight_loading debugBuild),
    List.countP_cons_of_neg Bool.false_ne_true, List.countP_append,
    none _ guard.straight_constructing, returns]
  cases guard.exit <;> rfl

namespace GuardPlan

/-- How often the guards before one marked operation return. -/
def countReturns (plan : GuardPlan) : Nat :=
  plan.guards.countP Guard.returns

/-- Does a layout hold the guards of a plan, and no others? -/
structure Fits
    (plan : GuardPlan) (layout : GuardLayout) (old : MethodBody) :
    Prop where
  front : layout.front.map (·.guard) = plan.front
  before : ∀ instruction ∈ old.instructions,
    layout.guardsBefore instruction.id =
      if plan.marked instruction.operation then plan.guards else []
  /-- An empty body has no entry to put guards at. -/
  empty : old.instructions = [] → layout.front = []

/-- Is a body another one with the guards of a plan in it? -/
structure Shapes
    (plan : GuardPlan) (graph : Graph) (debugBuild : Bool)
    (old new : MethodBody) : Prop where
  layout : ∃ layout : GuardLayout,
    layout.Describes debugBuild old.widen new.widen ∧
      plan.Fits layout old
  grows : ∃ additions : Additions, additions.Grows graph old new
  offers : graph.OffersSame old new
  returns :
    countOperations Operation.isRet new.instructions =
      countOperations Operation.isRet old.instructions +
        plan.countReturns * countOperations plan.marked old.instructions

theorem shapes_nothing
    (graph : Graph) (debugBuild : Bool) {body : MethodBody}
    (wellFormed : body.WellFormed) :
    Shapes {} graph debugBuild body body where
  layout :=
    ⟨{}, GuardLayout.describes_self debugBuild wellFormed.widen, rfl,
      fun _ _ => rfl, fun _ => rfl⟩
  grows := ⟨{}, .refl graph wellFormed⟩
  offers := .refl graph body
  returns := by
    simp [countReturns]

end GuardPlan

/-! ## The plan of a method -/

namespace MethodContext

variable
    {context : MethodContext} {settings : Settings} {body old : MethodBody}

instance (context : MethodContext) (types : List TypeId)
    (method : MethodId) : Decidable (context.IsMoveNext types method) :=
  inferInstanceAs (Decidable (∃ type ∈ types, _ ∧ _))

/-- What a body reports failures with that is a state machine of a method. -/
def machineReport?
    (context : MethodContext) (body : MethodBody) (other : MethodId)
    (old : MethodBody) : Option MethodId :=
  if context.IsMoveNext (context.machineTypes body) other then
    context.graph.faultReport? old
  else
    none

/-- The guards of the own body of a method. -/
def ownPlan
    (context : MethodContext) (settings : Settings) (body : MethodBody) :
    GuardPlan where
  front := context.entryGuards settings body
  marked := Operation.isRet
  guards := context.exitGuards

/-- The guards of a state machine of a method. -/
def machinePlan
    (context : MethodContext) (setException : MethodId) : GuardPlan where
  marked := context.graph.isHandover
  guards :=
    [context.handoverGuard
      (context.graph.asyncPayload context.decl.returnType) setException]

/-- The guards that weaving a method with some body puts into any body. -/
def plan
    (context : MethodContext) (settings : Settings) (body : MethodBody)
    (other : MethodId) (old : MethodBody) : GuardPlan :=
  match context.machineReport? body other old with
  | some setException => context.machinePlan setException
  | none =>
      if other = context.method then context.ownPlan settings old else {}

theorem machineReport?_eq_some_iff
    {other setException : MethodId} :
    context.machineReport? body other old = some setException ↔
      context.IsMoveNext (context.machineTypes body) other ∧
        context.graph.faultReport? old = some setException := by
  simp [machineReport?]

theorem machineReport?_eq_none_iff {other : MethodId} :
    context.machineReport? body other old = none ↔
      (context.IsMoveNext (context.machineTypes body) other →
        context.graph.faultReport? old = none) := by
  simp [machineReport?]

theorem plan_of_machineReport?
    {other setException : MethodId}
    (reports :
      context.machineReport? body other old = some setException) :
    context.plan settings body other old =
      context.machinePlan setException := by
  rw [plan, reports]

theorem plan_own
    (silent : context.machineReport? body context.method old = none) :
    context.plan settings body context.method old =
      context.ownPlan settings old := by
  rw [plan, silent]
  exact if_pos rfl

theorem plan_of_ne
    {other : MethodId} (apart : other ≠ context.method)
    (silent : context.machineReport? body other old = none) :
    context.plan settings body other old = {} := by
  rw [plan, silent]
  exact if_neg apart

/-- The own guards of a method all throw. -/
theorem countReturns_ownPlan :
    (context.ownPlan settings body).countReturns = 0 := by
  refine List.countP_eq_zero.mpr fun guard member => ?_
  rw [Guard.returns, context.exit_outGuards_append guard
    (context.exitGuards_sublist.subset member)]
  exact Bool.false_ne_true

theorem shapes_ownPlan
    (includes : context.graph.IncludesSystem)
    (settings : Settings) (wellFormed : old.WellFormed) :
    (context.ownPlan settings old).Shapes context.graph
      settings.debugBuild old (context.wovenBody settings old) where
  layout := by
    obtain ⟨layout, lays⟩ := context.exists_layout settings wellFormed
    exact ⟨layout, lays.woven, lays.front, lays.before,
      lays.front_of_empty wellFormed⟩
  grows := by
    have rewrites :
        Rewrites context.graph settings old
          (context.wovenBody settings old) :=
      .own context rfl
    obtain ⟨guarded, layout, rewritten⟩ :=
      rewrites.exists_rewritten wellFormed
    exact ⟨_, rewritten.grows wellFormed⟩
  offers := context.offersSame_wovenBody includes wellFormed settings
  returns := by
    rw [countReturns_ownPlan, Nat.zero_mul,
      countOperations_isRet_wovenBody settings wellFormed]
    rfl

theorem shapes_machinePlan
    (includes : context.graph.IncludesSystem)
    (settings : Settings) (wellFormed : old.WellFormed)
    {setException : MethodId}
    (reports : context.graph.faultReport? old = some setException) :
    (context.machinePlan setException).Shapes context.graph
      settings.debugBuild old
      (context.guardHandovers settings.debugBuild
        (context.graph.asyncPayload context.decl.returnType)
        setException old).finish where
  layout := by
    obtain ⟨layout, lays⟩ :=
      context.exists_layout_handovers settings.debugBuild _ setException
        wellFormed
    exact ⟨layout, lays.describes, congrArg _ lays.front, lays.before,
      fun _ => lays.front⟩
  grows := by
    have rewrites : Rewrites context.graph settings old _ :=
      .machine context setException rfl reports
    obtain ⟨guarded, layout, rewritten⟩ :=
      rewrites.exists_rewritten wellFormed
    exact ⟨_, rewritten.grows wellFormed⟩
  offers := offersSame_guardHandovers includes wellFormed reports
  returns := by
    have blind := Operation.seesNoTarget_isRet
    rw [GuardedBody.countOperations_finish blind,
      context.countOperations_guardHandovers blind, Guard.countP_isRet,
      MethodBody.instructions_widen, countOperations_widenBranches blind,
      Nat.mul_comm]
    rfl

end MethodContext

/-! ## Weaving a method -/

namespace Weaver.Weaves

variable
    {settings : Settings} {context : MethodContext} {body : MethodBody}
    {progress : AsyncProgress} {state final : WeaveState}
    (weaves : Weaves settings context body progress state final)

include weaves

/-- Every body becomes what the plan says. -/
theorem exists_shapes
    (includes : context.graph.IncludesSystem)
    {other : MethodId} {old : MethodBody}
    (present : state.bodies.get? other = some old)
    (wellFormed : old.WellFormed) :
    ∃ new, final.bodies.get? other = some new ∧
      (context.plan settings body other old).Shapes context.graph
        settings.debugBuild old new := by
  have made := MethodContext.hasMade_of_run weaves.through
  rw [weaves.leaves.bodies]
  cases machine : context.machineReport? body other old with
  | some setException =>
      obtain ⟨moveNext, reports⟩ :=
        MethodContext.machineReport?_eq_some_iff.mp machine
      rw [made.get?_of_reports moveNext present reports,
        MethodContext.plan_of_machineReport? machine]
      exact ⟨_, rfl,
        context.shapes_machinePlan includes settings wellFormed reports⟩
  | none =>
      rw [made.get?_of_not_reports fun moveNext => ⟨old, present,
        MethodContext.machineReport?_eq_none_iff.mp machine moveNext⟩]
      by_cases own : other = context.method
      · subst own
        cases weaves.present.symm.trans present
        rw [MethodContext.plan_own machine]
        exact ⟨_, Bodies.get?_set_self _ _ _,
          context.shapes_ownPlan includes settings wellFormed⟩
      · rw [MethodContext.plan_of_ne own machine]
        exact ⟨old, (Bodies.get?_set_of_ne _ _ own).trans present,
          GuardPlan.shapes_nothing _ _ wellFormed⟩

/-- A method that has parameters keeps its body until it is woven itself. -/
theorem get?_of_parameters
    {other : MethodId} (apart : other ≠ context.method)
    (parameters : (context.graph.method other).parameters ≠ []) :
    final.bodies.get? other = state.bodies.get? other := by
  rw [weaves.leaves.bodies,
    (MethodContext.hasMade_of_run weaves.through).get?_of_not_reports
      fun machine => absurd machine.parameters_eq_nil parameters,
    Bodies.get?_set_of_ne _ _ apart]

/-- What has no body gets none. -/
theorem get?_eq_none
    {other : MethodId} (absent : state.bodies.get? other = none) :
    final.bodies.get? other = none := by
  have made := MethodContext.hasMade_of_run weaves.through
  have apart : other ≠ context.method := by
    rintro rfl
    cases absent.symm.trans weaves.present
  rw [weaves.leaves.bodies, Bodies.get?_foldl_set_of_not_mem fun pending => ?_,
    Bodies.get?_set_of_ne _ _ apart, absent]
  obtain ⟨entry, among, rfl⟩ := List.mem_map.mp pending
  obtain ⟨-, old, setException, there, -⟩ := made.made entry among
  cases absent.symm.trans there

end Weaver.Weaves

end NullWeave
