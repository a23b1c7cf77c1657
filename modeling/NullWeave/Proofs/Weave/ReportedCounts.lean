import Mathlib.Algebra.BigOperators.Group.List.Basic
import NullWeave.Proofs.Graph.Consistency
import NullWeave.Proofs.Weave.ConstructedFailures
import NullWeave.Proofs.Weave.MethodOrder

/-!
# The report counts what is in the code

A run reports how many methods it wove and how many guards it put in.  Both can
be found again in the bodies that it leaves: all of them together construct as
many more exceptions of the kinds that guards construct as guards are reported,
and for every method that is counted a new body of its own was put in place.
That holds for runs that fail too, since a method that fails neither counts nor
leaves anything.
-/

namespace NullWeave

/-! ## Counting in all bodies -/

/-- How many instructions of the body of a method satisfy a test; none if there is no body. -/
def Bodies.countIn
    (bodies : Bodies) (test : Operation → Bool) (method : MethodId) : Nat :=
  (bodies.get? method).elim 0 fun body =>
    countOperations test body.instructions

namespace Bodies

variable {bodies : Bodies}

theorem countIn_of_get?_eq
    (test : Operation → Bool) {method : MethodId} {body : MethodBody}
    (present : bodies.get? method = some body) :
    bodies.countIn test method =
      countOperations test body.instructions := by
  rw [countIn, present]
  rfl

theorem countIn_set_of_ne
    (test : Operation → Bool) {method other : MethodId}
    (ne : other ≠ method) (body : MethodBody) :
    (bodies.set method body).countIn test other =
      bodies.countIn test other := by
  rw [countIn, get?_set_of_ne _ _ ne, countIn]

/-- A body counts for no other method. -/
theorem map_countIn_set
    (test : Operation → Bool) {method : MethodId}
    {entries : List (MethodId × MethodBody)}
    (absent : method ∉ entries.map (·.1)) (body : MethodBody) :
    (entries.map fun entry =>
        (bodies.set method body).countIn test entry.1) =
      entries.map fun entry => bodies.countIn test entry.1 := by
  refine List.map_congr_left fun entry among => ?_
  have ne : entry.1 ≠ method := fun same =>
    absent (same ▸ List.mem_map_of_mem among)
  exact countIn_set_of_ne test ne body

end Bodies

/-- How many instructions of the bodies of all methods of a graph satisfy a test. -/
def Graph.countInBodies
    (graph : Graph) (test : Operation → Bool) (bodies : Bodies) : Nat :=
  (graph.methodIds.map (bodies.countIn test)).sum

namespace Graph

variable
    {graph : Graph} {test : Operation → Bool} {bodies later : Bodies}

theorem countInBodies_congr
    (same : ∀ method, bodies.get? method = later.get? method) :
    graph.countInBodies test bodies = graph.countInBodies test later := by
  refine congrArg List.sum (List.map_congr_left fun method _ => ?_)
  rw [Bodies.countIn, same, Bodies.countIn]

/-- A new body counts in the place of the one it replaces. -/
theorem countInBodies_set
    (test : Operation → Bool) {method : MethodId}
    (known : method ∈ graph.methodIds)
    (bodies : Bodies) (body : MethodBody) :
    graph.countInBodies test (bodies.set method body) +
        bodies.countIn test method =
      graph.countInBodies test bodies +
        countOperations test body.instructions := by
  have others :
      ((graph.methodIds.erase method).map
          ((bodies.set method body).countIn test)) =
        (graph.methodIds.erase method).map (bodies.countIn test) := by
    refine List.map_congr_left fun other among => ?_
    have ne : other ≠ method :=
      ((graph.nodup_methodIds.mem_erase_iff).mp among).1
    exact Bodies.countIn_set_of_ne test ne body
  have own :
      (bodies.set method body).countIn test method =
        countOperations test body.instructions :=
    Bodies.countIn_of_get?_eq test (Bodies.get?_set_self ..)
  have whole := fun some : Bodies =>
    List.sum_map_erase (some.countIn test) known
  have before := whole bodies
  have behind := whole (bodies.set method body)
  rw [own, others] at behind
  unfold countInBodies
  omega

/-- So do bodies of different methods that are put in place in order. -/
theorem countInBodies_foldl_set
    (test : Operation → Bool)
    {entries : List (MethodId × MethodBody)}
    (distinct : (entries.map (·.1)).Nodup)
    (known : ∀ entry ∈ entries, entry.1 ∈ graph.methodIds)
    (bodies : Bodies) :
    graph.countInBodies test
          (entries.foldl (fun bodies entry => bodies.set entry.1 entry.2)
            bodies) +
        (entries.map fun entry => bodies.countIn test entry.1).sum =
      graph.countInBodies test bodies +
        (entries.map fun entry =>
          countOperations test entry.2.instructions).sum := by
  induction entries generalizing bodies with
  | nil =>
      rfl
  | cons entry rest inductionHypothesis =>
      rw [List.map_cons, List.nodup_cons] at distinct
      obtain ⟨here, later⟩ := List.forall_mem_cons.mp known
      have onwards :=
        inductionHypothesis distinct.2 later (bodies.set entry.1 entry.2)
      have first := countInBodies_set test here bodies entry.2
      rw [Bodies.map_countIn_set test distinct.1] at onwards
      rw [List.foldl_cons, List.map_cons, List.map_cons, List.sum_cons,
        List.sum_cons]
      omega

end Graph

/-! ## State machines of a method -/

namespace MethodContext

variable
    {context : MethodContext} {bodies : Bodies} {debugBuild : Bool}
    {payload : Signature} {types : List TypeId}
    {progress reached : AsyncProgress}

/-- Do the new bodies of state machines construct as many more exceptions as guards are counted? -/
def CountsGuards
    (context : MethodContext) (bodies : Bodies)
    (progress : AsyncProgress) : Prop :=
  (progress.pending.map fun entry =>
      countOperations context.graph.constructsFailure
        entry.2.instructions).sum =
    (progress.pending.map fun entry =>
        bodies.countIn context.graph.constructsFailure entry.1).sum +
      progress.guards

theorem CountsGuards.afterMachine
    {moveNext : MethodId} {body : MethodBody}
    (counts : context.CountsGuards bodies progress)
    (present : bodies.get? moveNext = some body) :
    context.CountsGuards bodies
      (context.afterMachine debugBuild payload moveNext body
        progress) := by
  unfold MethodContext.afterMachine
  cases context.graph.faultReport? body with
  | none =>
      exact counts
  | some setException =>
      have here :
          bodies.countIn context.graph.constructsFailure moveNext =
            countOperations context.graph.constructsFailure
              body.instructions := by
        rw [Bodies.countIn, present]
        rfl
      have added :=
        context.countOperations_finish_guardHandovers debugBuild payload
          setException body
      unfold CountsGuards at counts ⊢
      simp only [List.map_append, List.sum_append, List.map_singleton,
        List.sum_singleton]
      omega

theorem CountsGuards.step
    {type : TypeId} (counts : context.CountsGuards bodies progress)
    (ran : (context.guardStateMachine bodies debugBuild payload type).run
      progress = (.ok (), reached)) :
    context.CountsGuards bodies reached := by
  rw [run_guardStateMachine] at ran
  split at ran
  · split at ran
    · cases ran
    · split at ran
      · cases ran
        exact counts
      · split at ran
        · cases ran
        · rename_i present
          cases ran
          exact counts.afterMachine present
  · cases ran
    exact counts

theorem countsGuards_of_run
    (ran : (types.forM
      (context.guardStateMachine bodies debugBuild payload)).run {} =
        (.ok (), progress)) :
    context.CountsGuards bodies progress := by
  have start : context.CountsGuards bodies {} := rfl
  exact run_forM_keeps (fun _ _ _ counts ran => counts.step ran) start ran

theorem IsMoveNext.mem_methodIds
    {method : MethodId} (moveNext : context.IsMoveNext types method) :
    method ∈ context.graph.methodIds := by
  obtain ⟨type, -, -, found⟩ := moveNext
  exact List.mem_of_mem_filter (List.mem_of_find?_eq_some found)

end MethodContext

/-! ## One method -/

namespace Weaver

variable
    {graph : Graph} {settings : Settings} {context : MethodContext}
    {body : MethodBody} {state final : WeaveState}
    {progress : AsyncProgress}

/-- What weaving a method adds to the code is what it reports. -/
theorem Leaves.countInBodies_eq
    (leaves : Leaves settings context body progress state final)
    (present : state.bodies.get? context.method = some body)
    (through : ((context.machineTypes body).forM
      (context.guardStateMachine state.bodies settings.debugBuild
        (context.graph.asyncPayload context.decl.returnType))).run {} =
          (.ok (), progress))
    (known : context.method ∈ context.graph.methodIds) :
    context.graph.countInBodies context.graph.constructsFailure
        final.bodies =
      context.graph.countInBodies context.graph.constructsFailure
          state.bodies +
        ((context.guardBody settings body).guards + progress.guards) := by
  have made := MethodContext.hasMade_of_run through
  have counts := MethodContext.countsGuards_of_run through
  unfold MethodContext.CountsGuards at counts
  have machines := fun bodies =>
    Graph.countInBodies_foldl_set context.graph.constructsFailure
      made.distinct
      (fun entry among => (made.made entry among).1.mem_methodIds) bodies
  rw [leaves.bodies]
  by_cases pending : context.method ∈ progress.pending.map (·.1)
  · -- Its state machine runs the method itself, and the guarded machine takes its place.
    obtain ⟨entry, among, same⟩ := List.mem_map.mp pending
    have moveNext := (made.made entry among).1
    rw [same] at moveNext
    have async : context.shape = .asyncStateMachine :=
      (MethodContext.isMoveNext_machineTypes_iff.mp moveNext).1.1
    have onlyMachines := machines state.bodies
    rw [Graph.countInBodies_congr fun method =>
        Bodies.get?_foldl_set_set made.distinct pending _ _ method,
      moveNext.guards_eq_zero async]
    omega
  · have own :=
      Graph.countInBodies_set context.graph.constructsFailure known
        state.bodies (context.wovenBody settings body)
    have here :=
      Bodies.countIn_of_get?_eq context.graph.constructsFailure present
    have added := context.countOperations_wovenBody settings body
    have behind := machines
      (state.bodies.set context.method (context.wovenBody settings body))
    rw [Bodies.map_countIn_set _ pending] at behind
    omega

/-! ## Runs over methods -/

/-- A run over methods that goes well, with those of which a new body is put in place. -/
inductive Commits
    (graph : Graph) (settings : Settings) :
    List MethodId → List MethodId → WeaveState → WeaveState → Prop where
  | done (state : WeaveState) : Commits graph settings [] [] state state
  /-- A method that is passed over leaves all bodies as they are. -/
  | pass
      {method : MethodId} {rest committed : List MethodId}
      {first between last : WeaveState} :
      PassesOver graph settings method first →
      (weaveUnlessGenerated graph settings method).run first =
        (.ok (), between) →
      between.bodies = first.bodies →
      Commits graph settings rest committed between last →
      Commits graph settings (method :: rest) committed first last
  /-- Any other gets its own new body, and behind it its state machines get theirs. -/
  | commit
      {context : MethodContext} {rest committed : List MethodId}
      {body : MethodBody} {first between last : WeaveState}
      (machines : List (MethodId × MethodBody)) :
      context.graph = graph →
      ¬ PassesOver graph settings context.method first →
      NullPolicy.resolve graph settings context.method =
        .ok context.policy →
      first.bodies.get? context.method = some body →
      (weaveUnlessGenerated graph settings context.method).run first =
        (.ok (), between) →
      between.bodies =
        machines.foldl (fun bodies entry => bodies.set entry.1 entry.2)
          (first.bodies.set context.method
            (context.wovenBody settings body)) →
      Commits graph settings rest committed between last →
      Commits graph settings (context.method :: rest)
        (context.method :: committed) first last

theorem Commits.sublist
    {methods committed : List MethodId} {first last : WeaveState}
    (commits : Commits graph settings methods committed first last) :
    committed.Sublist methods := by
  induction commits with
  | done => exact .slnil
  | pass _ _ _ _ inductionHypothesis => exact inductionHypothesis.cons _
  | commit _ _ _ _ _ _ _ _ inductionHypothesis =>
      exact inductionHypothesis.cons_cons _

/-- Does a run report what it put into the code, and how many methods it wove? -/
structure Reports
    (graph : Graph) (committed : List MethodId)
    (first last : WeaveState) : Prop where
  guards :
    graph.countInBodies graph.constructsFailure last.bodies +
        first.report.guardsInjected =
      graph.countInBodies graph.constructsFailure first.bodies +
        last.report.guardsInjected
  methods :
    last.report.methodsProcessed =
      first.report.methodsProcessed + committed.length

/-- A run that goes well reports what it did. -/
theorem exists_commits_of_run
    {methods : List MethodId}
    (known : ∀ method ∈ methods, method ∈ graph.methodIds)
    (ran : (methods.forM (weaveUnlessGenerated graph settings)).run state =
      (.ok (), final)) :
    ∃ committed,
      Commits graph settings methods committed state final ∧
        Reports graph committed state final := by
  induction methods generalizing state with
  | nil =>
      cases ran
      exact ⟨[], .done _, rfl, rfl⟩
  | cons method rest inductionHypothesis =>
      obtain ⟨here, behind⟩ := List.forall_mem_cons.mp known
      obtain ⟨between, first, later⟩ := run_forM_cons_eq_ok.mp ran
      obtain ⟨committed, commits, reports⟩ :=
        inductionHypothesis behind later
      rcases cases_of_run first with
        ⟨passes, bodies, report⟩ |
        ⟨context, body, progress, rfl, rfl, weaves⟩
      · refine ⟨committed, .pass passes first bodies commits, ?_, ?_⟩
        · rw [← bodies, ← report]
          exact reports.guards
        · rw [← report]
          exact reports.methods
      · refine ⟨context.method :: committed,
          .commit progress.pending rfl weaves.commits weaves.resolved
            weaves.present first weaves.leaves.bodies commits, ?_, ?_⟩
        · have added :=
            weaves.leaves.countInBodies_eq weaves.present weaves.through
              here
          have guards := reports.guards
          rw [weaves.leaves.guards] at guards
          omega
        · have methods := reports.methods
          rw [weaves.leaves.processed] at methods
          rw [methods, List.length_cons]
          omega

theorem mem_methodIds_of_mem_methods
    {module : Module} :
    ∀ method ∈ module.methods graph, method ∈ graph.methodIds := by
  intro method member
  obtain ⟨type, -, among⟩ := List.mem_flatMap.mp member
  exact List.mem_of_mem_filter among

/-- Weaving a module that goes well is weaving its methods, but for the log. -/
theorem run_weaveModule_eq_ok
    {module : Module}
    (went : (weaveModule graph settings module).run state =
      (.ok (), final)) :
    ∃ reached,
      ((module.methods graph).forM
          (weaveUnlessGenerated graph settings)).run state =
        (.ok (), reached) ∧
      final.SameWork reached := by
  obtain ⟨_, told, types, telling⟩ := run_bind_eq_ok went
  obtain ⟨reached, ran, same⟩ := run_weaveTypes (.refl state) types
  refine ⟨reached, ran, ?_⟩
  cases telling
  exact (logged_sameWork told _).trans same.symm

end Weaver

/--
The report of a run counts what the run put into the code, also if it fails.

All bodies of the graph together construct as many more exceptions of the kinds
that guards construct as guards are reported.  As many methods are reported as
got a new body of their own.  A run that fails got as far as the method that
failed.
-/
theorem Program.weave_reports
    (program : Program) (settings : Settings) (module : Module) :
    program.graph.countInBodies program.graph.constructsFailure
        (program.weave settings module).program.bodies =
      program.graph.countInBodies program.graph.constructsFailure
          program.bodies +
        (program.weave settings module).report.guardsInjected ∧
    ∃ before after committed reached,
      module.methods program.graph = before ++ after ∧
        Weaver.Commits program.graph settings before committed
          { bodies := program.bodies } reached ∧
        (program.weave settings module).program.bodies =
          reached.bodies ∧
        (program.weave settings module).report.methodsProcessed =
          committed.length ∧
        committed.Sublist (module.methods program.graph) ∧
        ((program.weave settings module).failure = none → after = []) ∧
        ∀ failure,
          (program.weave settings module).failure = some failure →
            ∃ method later cause,
              after = method :: later ∧
                ((Weaver.weaveMethod program.graph settings method).run
                  reached).1 = .error cause := by
  unfold weave runWeaver
  rcases ran : (Weaver.weaveModule program.graph settings module).run
    { bodies := program.bodies } with ⟨failure | _, final⟩ <;>
    dsimp only
  · obtain ⟨before, method, after, reached, cause, split, well, failed, -,
      same⟩ := Weaver.run_weaveModule_eq_error ran
    have known : ∀ method ∈ before, method ∈ program.graph.methodIds :=
      fun method among => Weaver.mem_methodIds_of_mem_methods method
        (split ▸ List.mem_append_left _ among)
    obtain ⟨committed, commits, reports⟩ :=
      Weaver.exists_commits_of_run known well
    refine ⟨?_, before, method :: after, committed, reached, split, commits,
      same.bodies, ?_, ?_, nofun, fun _ _ => ⟨method, after, cause, rfl,
        failed⟩⟩
    · rw [same.bodies, same.guardsInjected]
      exact reports.guards
    · rw [same.methodsProcessed, reports.methods]
      exact Nat.zero_add _
    · rw [split]
      exact commits.sublist.trans (List.sublist_append_left _ _)
  · obtain ⟨reached, well, same⟩ := Weaver.run_weaveModule_eq_ok ran
    obtain ⟨committed, commits, reports⟩ :=
      Weaver.exists_commits_of_run Weaver.mem_methodIds_of_mem_methods well
    refine ⟨?_, module.methods program.graph, [], committed, reached,
      (List.append_nil _).symm, commits, same.bodies, ?_, commits.sublist,
      fun _ => rfl, nofun⟩
    · rw [same.bodies, same.guardsInjected]
      exact reports.guards
    · rw [same.methodsProcessed, reports.methods]
      exact Nat.zero_add _

end NullWeave
