import Mathlib.Data.List.Flatten
import Mathlib.Data.List.Perm.Subperm
import NullWeave.Proofs.Weave.PlannedGuards

/-!
# The guards that a run puts in

A guard that a run puts in is known by the method that is woven, by the body
that gets it, by its place there and by what it checks.  A place is told by the
body as it was before the run: the entry, or an instruction of that body.  Only
before a return that a guard brought earlier in the same run there is no such
instruction.

However a body grew, the places before its instructions of one kind are those of
the first body, and one more for every such instruction that was added.
-/

namespace NullWeave

/-! ## Places -/

/-- Where in a body a guard is put. -/
inductive GuardPlace where
  /-- In front of the body. -/
  | entry
  /-- Before an instruction that the body had at first. -/
  | before (point : InstrId)
  /-- Before an instruction that was added since. -/
  | added
deriving DecidableEq

/-- A guard that is put in. -/
structure Injection where
  /-- The method that is woven. -/
  method : MethodId
  /-- The method whose body gets the guard. -/
  into : MethodId
  place : GuardPlace
  guard : Guard

namespace MethodBody

/-- The place before an instruction of a body that grew. -/
def placeOf (original : MethodBody) (id : InstrId) : GuardPlace :=
  if id.number < original.nextId.number then .before id else .added

/-- The places before the operations of one kind in a body that grew. -/
def placesIn
    (original : MethodBody) (marked : Operation → Bool)
    (later : MethodBody) : List GuardPlace :=
  (later.instructions.filter (marked ·.operation)).map
    (original.placeOf ·.id)

end MethodBody

section Places

variable
    {graph : Graph} {original later : MethodBody}
    {marked : Operation → Bool} (blind : Operation.SeesNoTarget marked)

include blind

/-- Old instructions are still of the same kinds. -/
theorem Additions.Grows.map_id_filter
    {additions : Additions} (grows : additions.Grows graph original later)
    (wellFormed : original.WellFormed) :
    (((later.instructions.filter (·.isBelow original.nextId)).filter
        (marked ·.operation)).map (·.id)) =
      (original.instructions.filter (marked ·.operation)).map (·.id) := by
  have wide : ∀ instructions : List Instruction,
      ((widenBranches instructions).filter (marked ·.operation)).map
          (·.id) =
        (instructions.filter (marked ·.operation)).map (·.id) := by
    intro instructions
    simp [widenBranches, List.filter_map, Function.comp_def,
      Instruction.withForm, blind.withForm]
  rw [← wide, grows.filter_eq wellFormed, ← wide original.instructions]
  simp [List.filter_map, Function.comp_def, Instruction.mapTargets,
    blind.mapTargets]

/-- Old instructions stand where they stood in the body at first. -/
theorem Additions.Grows.map_placeOf_old
    {additions : Additions} (grows : additions.Grows graph original later)
    (wellFormed : original.WellFormed) :
    ((later.instructions.filter (marked ·.operation)).filter
        (·.isBelow original.nextId)).map (original.placeOf ·.id) =
      (original.instructions.filter (marked ·.operation)).map
        (GuardPlace.before ·.id) := by
  calc
    _ = ((later.instructions.filter (marked ·.operation)).filter
          (·.isBelow original.nextId)).map (GuardPlace.before ·.id) :=
      List.map_congr_left fun instruction member => by
        have early : instruction.isBelow original.nextId = true :=
          List.of_mem_filter member
        exact if_pos (of_decide_eq_true early)
    _ = (((later.instructions.filter (·.isBelow original.nextId)).filter
          (marked ·.operation)).map (·.id)).map GuardPlace.before := by
      rw [List.map_map, List.filter_filter, List.filter_filter]
      simp only [Bool.and_comm]
      rfl
    _ = _ := by
      rw [grows.map_id_filter blind wellFormed, List.map_map]
      rfl

omit blind in
/-- New instructions stand nowhere in the body at first. -/
theorem map_placeOf_new
    (original : MethodBody) (instructions : List Instruction) :
    (instructions.filter (!·.isBelow original.nextId)).map
        (original.placeOf ·.id) =
      List.replicate
        (instructions.filter (!·.isBelow original.nextId)).length
        .added := by
  refine List.eq_replicate_iff.mpr ⟨List.length_map .., ?_⟩
  intro place member
  obtain ⟨instruction, among, rfl⟩ := List.mem_map.mp member
  have late := List.of_mem_filter among
  rw [Bool.not_eq_true'] at late
  exact if_neg (of_decide_eq_false late)

/-- The places in a body that grew are the first ones and some before what was added. -/
theorem Additions.Grows.placesIn_perm
    {additions : Additions} (grows : additions.Grows graph original later)
    (wellFormed : original.WellFormed) :
    (original.placesIn marked later).Perm
      ((original.instructions.filter (marked ·.operation)).map
          (GuardPlace.before ·.id) ++
        List.replicate
          (countOperations marked later.instructions -
            countOperations marked original.instructions)
          .added) := by
  let marks := later.instructions.filter (marked ·.operation)
  have parts :
      (marks.filter (·.isBelow original.nextId) ++
        marks.filter (!·.isBelow original.nextId)).Perm marks :=
    List.filter_append_perm _ marks
  have old := grows.map_placeOf_old blind wellFormed
  have size :
      (marks.filter (!·.isBelow original.nextId)).length =
        countOperations marked later.instructions -
          countOperations marked original.instructions := by
    have whole := parts.length_eq
    have first := congrArg List.length old
    rw [List.length_map, List.length_map] at first
    rw [List.length_append, first] at whole
    rw [countOperations, countOperations, List.countP_eq_length_filter,
      List.countP_eq_length_filter]
    exact Nat.eq_sub_of_add_eq' whole
  rw [← old, ← size, ← map_placeOf_new original marks, ← List.map_append]
  exact (parts.map _).symm

/-- Where operations of a kind are more frequent, so are the places before them. -/
theorem placesIn_subperm
    {additions further : Additions} {again : MethodBody}
    (grows : additions.Grows graph original later)
    (growsToo : further.Grows graph original again)
    (wellFormed : original.WellFormed)
    (frequent : countOperations marked later.instructions ≤
      countOperations marked again.instructions) :
    (original.placesIn marked later).Subperm
      (original.placesIn marked again) := by
  refine (grows.placesIn_perm blind wellFormed).subperm.trans
    (List.Subperm.trans ?_
      (growsToo.placesIn_perm blind wellFormed).symm.subperm)
  refine ((List.Sublist.refl _).append ?_).subperm
  exact List.replicate_sublist_replicate _ |>.mpr
    (Nat.sub_le_sub_right frequent _)

end Places

/-! ## What is put in -/

/-- The guards of a layout, with their places. -/
def GuardLayout.injections
    (layout : GuardLayout) (original old : MethodBody)
    (method into : MethodId) : List Injection :=
  layout.front.map (fun placed => ⟨method, into, .entry, placed.guard⟩) ++
    old.instructions.flatMap fun instruction =>
      (layout.guardsBefore instruction.id).map
        (Injection.mk method into (original.placeOf instruction.id))

namespace GuardPlan

/-- The guards of a plan, with their places. -/
def injections
    (plan : GuardPlan) (original old : MethodBody)
    (method into : MethodId) : List Injection :=
  plan.front.map (Injection.mk method into .entry) ++
    (original.placesIn plan.marked old).flatMap fun place =>
      plan.guards.map (Injection.mk method into place)

theorem Fits.injections_eq
    {plan : GuardPlan} {layout : GuardLayout} {old : MethodBody}
    (fits : plan.Fits layout old) (original : MethodBody)
    (method into : MethodId) :
    layout.injections original old method into =
      plan.injections original old method into := by
  have rows : ∀ instructions : List Instruction,
      (∀ instruction ∈ instructions, instruction ∈ old.instructions) →
        (instructions.flatMap fun instruction =>
            (layout.guardsBefore instruction.id).map
              (Injection.mk method into
                (original.placeOf instruction.id))) =
          ((instructions.filter (plan.marked ·.operation)).map
              (original.placeOf ·.id)).flatMap fun place =>
            plan.guards.map (Injection.mk method into place) := by
    intro instructions among
    induction instructions with
    | nil =>
        rfl
    | cons instruction rest inductionHypothesis =>
        obtain ⟨here, behind⟩ := List.forall_mem_cons.mp among
        rw [List.flatMap_cons, inductionHypothesis behind,
          fits.before instruction here, List.filter_cons]
        cases plan.marked instruction.operation <;> simp
  rw [GuardLayout.injections, injections, ← fits.front, List.map_map,
    rows old.instructions fun _ member => member]
  rfl

/-- Does another plan hold all guards of a plan? -/
structure Within (few many : GuardPlan) : Prop where
  front : few.front.Sublist many.front
  guards : few.guards = [] ∨
    many.marked = few.marked ∧ few.guards.Sublist many.guards

theorem Within.of_nothing (many : GuardPlan) : Within {} many :=
  ⟨List.nil_sublist _, .inl rfl⟩

/-- A guard of a plan is put in by every plan that holds it, where there are as many places. -/
theorem Within.injections_subperm
    {few many : GuardPlan} (within : few.Within many)
    {original old again : MethodBody}
    (places : few.guards ≠ [] →
      (original.placesIn few.marked old).Subperm
        (original.placesIn few.marked again))
    (method into : MethodId) :
    (few.injections original old method into).Subperm
      (many.injections original again method into) := by
  refine (within.front.map _).subperm.append ?_
  by_cases none : few.guards = []
  · have nothing :
        ((original.placesIn few.marked old).flatMap fun place =>
          few.guards.map (Injection.mk method into place)) = [] :=
      List.flatMap_eq_nil_iff.mpr (by simp [none])
    rw [nothing]
    exact List.nil_subperm
  · obtain ⟨marked, guards⟩ := within.guards.resolve_left none
    obtain ⟨reordered, perm, sublist⟩ := places none
    rw [marked]
    refine (perm.symm.flatMap_right _).subperm.trans ?_
    refine ((sublist.flatMap _).trans ?_).subperm
    exact List.Sublist.flatMap_right _ fun place _ => guards.map _

end GuardPlan

/-- A body does as much more of what each guard does once as guards are put in. -/
theorem GuardLayout.Describes.countOperations_injections
    {layout : GuardLayout} {debugBuild : Bool} {old new : MethodBody}
    (described : layout.Describes debugBuild old.widen new.widen)
    (empty : old.instructions = [] → layout.front = [])
    {test : Operation → Bool} (blind : Operation.SeesNoTarget test)
    (once : ∀ (guard : Guard) (next : InstrId),
      (guard.operations debugBuild next).countP test = 1)
    (original : MethodBody) (method into : MethodId) :
    countOperations test new.instructions =
      countOperations test old.instructions +
        (layout.injections original old method into).length := by
  have front :
      countOperations test
          (layout.frontCode debugBuild old.widen.instructions) =
        layout.front.length := by
    cases whole : old.instructions with
    | nil =>
        rw [MethodBody.instructions_widen, whole, empty whole]
        rfl
    | cons first rest =>
        rw [MethodBody.instructions_widen, whole]
        exact layout.front.countOperations_of_once once _
  have rows :
      countOperations test
          ((widenBranches old.instructions).flatMap fun instruction =>
            (layout.before instruction.id).code debugBuild
              instruction.id) =
        (old.instructions.flatMap fun instruction =>
          (layout.guardsBefore instruction.id).map
            (Injection.mk method into
              (original.placeOf instruction.id))).length := by
    rw [widenBranches, List.flatMap_map, countOperations,
      List.countP_flatMap, List.length_flatMap]
    refine congrArg List.sum (List.map_congr_left fun instruction _ => ?_)
    rw [List.length_map, guardsBefore, List.length_map]
    exact GuardRow.countOperations_of_once once
      (layout.before instruction.id) instruction.id
  calc
    countOperations test new.instructions =
        countOperations test new.widen.instructions :=
      (countOperations_widenBranches blind new.instructions).symm
    _ = layout.front.length +
          countOperations test
            (layout.blocks debugBuild old.widen.instructions) := by
      rw [described.instructions, code, countOperations_append, front]
    _ = _ := by
      rw [MethodBody.instructions_widen, countOperations_blocks blind,
        countOperations_widenBranches blind, rows, injections,
        List.length_append, List.length_map]
      omega

/-! ## Runs -/

/-- The guards that one step of a run puts in, as layouts say. -/
def Program.injections
    (original : Program) (bodies : Bodies)
    (layouts : MethodId → GuardLayout) (method : MethodId) :
    List Injection :=
  original.graph.methodIds.flatMap fun into =>
    (bodies.get? into).elim [] fun old =>
      (layouts into).injections ((original.bodies.get? into).getD old) old
        method into

/-- Does every body become what a layout says, none with guards in front of nothing? -/
def Bodies.Become
    (bodies later : Bodies) (debugBuild : Bool)
    (layouts : MethodId → GuardLayout) : Prop :=
  ∀ into old, bodies.get? into = some old →
    (old.instructions = [] → (layouts into).front = []) ∧
      ∃ new, later.get? into = some new ∧
        (layouts into).Describes debugBuild old.widen new.widen

namespace Weaver

variable
    {original : Program} {settings : Settings} {first last : WeaveState}

/-- A run over methods that goes well, with the guards that it puts in, in order. -/
inductive Injects (original : Program) (settings : Settings) :
    List MethodId → WeaveState → WeaveState → List Injection → Prop where
  | done (state : WeaveState) : Injects original settings [] state state []
  | step
      {method : MethodId} {rest : List MethodId}
      {first between last : WeaveState} {later : List Injection}
      (layouts : MethodId → GuardLayout) :
      (weaveUnlessGenerated original.graph settings method).run first =
        (.ok (), between) →
      first.bodies.Become between.bodies settings.debugBuild layouts →
      Injects original settings rest between last later →
      Injects original settings (method :: rest) first last
        (original.injections first.bodies layouts method ++ later)

/-- A method that has no body gets none. -/
theorem get?_eq_none_of_run
    {graph : Graph} {method : MethodId}
    (ran : (weaveUnlessGenerated graph settings method).run first =
      (.ok (), last))
    {other : MethodId} (absent : first.bodies.get? other = none) :
    last.bodies.get? other = none := by
  rcases cases_of_run ran with
    ⟨-, bodies, -⟩ | ⟨context, body, progress, rfl, rfl, weaves⟩
  · rw [bodies, absent]
  · exact weaves.get?_eq_none absent

/-- The guards of one step are those that the code has more than before. -/
theorem countInBodies_of_become
    {method : MethodId} {layouts : MethodId → GuardLayout}
    (ran : (weaveUnlessGenerated original.graph settings method).run first =
      (.ok (), last))
    (become :
      first.bodies.Become last.bodies settings.debugBuild layouts) :
    original.graph.countInBodies original.graph.constructsFailure
        last.bodies =
      original.graph.countInBodies original.graph.constructsFailure
          first.bodies +
        (original.injections first.bodies layouts method).length := by
  have each : ∀ into,
      last.bodies.countIn original.graph.constructsFailure into =
        first.bodies.countIn original.graph.constructsFailure into +
          ((first.bodies.get? into).elim [] fun old =>
            (layouts into).injections
              ((original.bodies.get? into).getD old) old method
              into).length := by
    intro into
    cases there : first.bodies.get? into with
    | none =>
        rw [Bodies.countIn, get?_eq_none_of_run ran there, Bodies.countIn,
          there]
        rfl
    | some old =>
        obtain ⟨empty, new, now, described⟩ := become into old there
        rw [Bodies.countIn, now, Bodies.countIn, there]
        exact described.countOperations_injections empty
          original.graph.seesNoTarget_constructsFailure
          (Guard.countP_constructsFailure original.graph
            settings.debugBuild) _ method into
  unfold Graph.countInBodies Program.injections
  induction original.graph.methodIds with
  | nil =>
      rfl
  | cons into others inductionHypothesis =>
      rw [List.map_cons, List.map_cons, List.sum_cons, List.sum_cons,
        List.flatMap_cons, List.length_append, each, inductionHypothesis]
      omega

/-- All guards of a run together are as many as the run reports. -/
theorem Injects.length_eq
    {methods : List MethodId} {injections : List Injection}
    (injects : Injects original settings methods first last injections)
    (known : ∀ method ∈ methods, method ∈ original.graph.methodIds) :
    first.report.guardsInjected + injections.length =
      last.report.guardsInjected := by
  have counted :
      (methods.forM (weaveUnlessGenerated original.graph settings)).run
            first = (.ok (), last) ∧
        original.graph.countInBodies original.graph.constructsFailure
            last.bodies =
          original.graph.countInBodies original.graph.constructsFailure
              first.bodies +
            injections.length := by
    clear known
    induction injects with
    | done => exact ⟨rfl, rfl⟩
    | step layouts ran become _ inductionHypothesis =>
        obtain ⟨behind, later⟩ := inductionHypothesis
        have here := countInBodies_of_become ran become
        refine ⟨run_forM_cons_eq_ok.mpr ⟨_, ran, behind⟩, ?_⟩
        rw [List.length_append]
        omega
  obtain ⟨ran, added⟩ := counted
  obtain ⟨committed, -, reports⟩ := exists_commits_of_run known ran
  have guards := reports.guards
  omega

end Weaver

/-- Are these the guards that weaving a module puts in? -/
structure Program.Injects
    (program : Program) (settings : Settings) (module : Module)
    (injections : List Injection) : Prop where
  runs : ∃ reached,
    Weaver.Injects program settings (module.methods program.graph)
        { bodies := program.bodies } reached injections ∧
      (program.weave settings module).program.bodies = reached.bodies
  reported :
    (program.weave settings module).report.guardsInjected =
      injections.length

end NullWeave
