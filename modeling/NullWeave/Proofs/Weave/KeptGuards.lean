import NullWeave.Proofs.Text.LoadingResults
import NullWeave.Proofs.Text.PrintedNames
import NullWeave.Proofs.Weave.WiderFlags

/-!
# More flags leave no guard out

Two runs over the same methods, one with more flags than the other, are compared
method by method.  However many guards either of them has put in, a body that
both have is the original body grown: it offers its state machine what the
original offers, and has the returns of the original and, where guards that
report failures came in, others.  A method that takes arguments still has its
original body when its turn comes, since only state machines are touched before,
and those take none.

So the second run finds every place that the first one finds, and puts every
guard of the first run in there.
-/

namespace NullWeave

/-! ## Bodies that grew -/

/-- Is a body an original one that only grew, and that offers what the original did? -/
structure Graph.GrowsInto
    (graph : Graph) (original later : MethodBody) : Prop where
  grows : ∃ additions : Additions, additions.Grows graph original later
  offers : graph.OffersSame original later

namespace Graph.GrowsInto

variable {graph : Graph} {original old new : MethodBody}

theorem refl (graph : Graph) (wellFormed : original.WellFormed) :
    graph.GrowsInto original original :=
  ⟨⟨{}, .refl graph wellFormed⟩, .refl graph original⟩

theorem wellFormed (into : graph.GrowsInto original old) :
    old.WellFormed := by
  obtain ⟨additions, grows⟩ := into.grows
  exact grows.wellFormed

theorem locals (into : graph.GrowsInto original old) :
    old.locals = original.locals := by
  obtain ⟨additions, grows⟩ := into.grows
  exact grows.locals

theorem shapes
    (into : graph.GrowsInto original old)
    {plan : GuardPlan} {debugBuild : Bool}
    (shapes : plan.Shapes graph debugBuild old new) :
    graph.GrowsInto original new := by
  obtain ⟨earlier, first⟩ := into.grows
  obtain ⟨later, second⟩ := shapes.grows
  exact ⟨⟨_, first.trans second⟩, into.offers.trans shapes.offers⟩

end Graph.GrowsInto

/-- A body that both of two runs have, and in which the second one finds as many returns. -/
structure Graph.GrowsIntoBoth
    (graph : Graph) (original old again : MethodBody) : Prop where
  first : graph.GrowsInto original old
  second : graph.GrowsInto original again
  returns :
    countOperations Operation.isRet old.instructions ≤
      countOperations Operation.isRet again.instructions

/-! ## Plans -/

/-- Does a plan put guards before returns or before calls that hand values over only? -/
def GuardPlan.Watches (plan : GuardPlan) (graph : Graph) : Prop :=
  plan.guards = [] ∨ plan.marked = Operation.isRet ∨
    plan.marked = graph.isHandover

theorem MethodContext.watches_plan
    (context : MethodContext) (settings : Settings) (body : MethodBody)
    (other : MethodId) (old : MethodBody) :
    (context.plan settings body other old).Watches context.graph := by
  unfold plan
  split
  · exact .inr (.inr rfl)
  · split
    · exact .inr (.inl rfl)
    · exact .inl rfl

namespace Graph.GrowsIntoBoth

variable
    {graph : Graph} {original old again : MethodBody}
    (both : graph.GrowsIntoBoth original old again)
    {few many : GuardPlan} (within : few.Within many)
    (watches : few.Watches graph)

include both watches

/-- The second run finds as many places for the guards of a plan. -/
theorem places (some : few.guards ≠ []) :
    Operation.SeesNoTarget few.marked ∧
      countOperations few.marked old.instructions ≤
        countOperations few.marked again.instructions := by
  rcases watches.resolve_left some with marked | marked <;> rw [marked]
  · exact ⟨Operation.seesNoTarget_isRet, both.returns⟩
  · exact ⟨graph.seesNoTarget_isHandover, le_of_eq
      (both.first.offers.handovers.trans
        both.second.offers.handovers.symm)⟩

include within

theorem shapes
    {debugBuild : Bool} {new next : MethodBody}
    (shapes : few.Shapes graph debugBuild old new)
    (shapesToo : many.Shapes graph debugBuild again next) :
    graph.GrowsIntoBoth original new next where
  first := both.first.shapes shapes
  second := both.second.shapes shapesToo
  returns := by
    rw [shapes.returns, shapesToo.returns]
    refine Nat.add_le_add both.returns ?_
    by_cases none : few.guards = []
    · simp [GuardPlan.countReturns, none]
    · obtain ⟨marked, guards⟩ := within.guards.resolve_left none
      rw [marked]
      exact Nat.mul_le_mul guards.countP_le (both.places watches none).2

theorem injections_subperm
    (wellFormed : original.WellFormed) (method into : MethodId) :
    (few.injections original old method into).Subperm
      (many.injections original again method into) := by
  obtain ⟨additions, grows⟩ := both.first.grows
  obtain ⟨further, growsToo⟩ := both.second.grows
  refine within.injections_subperm (fun some => ?_) method into
  obtain ⟨blind, frequent⟩ := both.places watches some
  exact placesIn_subperm blind grows growsToo wellFormed frequent

end Graph.GrowsIntoBoth

/-! ## One method -/

namespace Weaver

variable
    {graph : Graph} {settings : Settings} {method : MethodId}
    {state final : WeaveState}

/-- What a method that does not fail does to bodies follows a plan for each of them. -/
structure Follows
    (graph : Graph) (settings : Settings) (method : MethodId)
    (state final : WeaveState) (plan : MethodId → MethodBody → GuardPlan) :
    Prop where
  /-- Either the method is passed over, and nothing is planned, or it is woven. -/
  source :
    (PassesOver graph settings method state ∧ plan = fun _ _ => {}) ∨
      ∃ (context : MethodContext) (body : MethodBody)
        (progress : AsyncProgress),
        context.graph = graph ∧ context.method = method ∧
          Weaves settings context body progress state final ∧
          plan = context.plan settings body
  shapes : ∀ other old, state.bodies.get? other = some old →
    old.WellFormed →
      ∃ new, final.bodies.get? other = some new ∧
        (plan other old).Shapes graph settings.debugBuild old new
  absent : ∀ other, state.bodies.get? other = none →
    final.bodies.get? other = none
  /-- Other methods that take arguments are not touched. -/
  others : ∀ other, other ≠ method →
    (graph.method other).parameters ≠ [] →
      final.bodies.get? other = state.bodies.get? other

theorem exists_follows
    (includes : graph.IncludesSystem)
    (ran : (weaveUnlessGenerated graph settings method).run state =
      (.ok (), final)) :
    ∃ plan, Follows graph settings method state final plan := by
  rcases cases_of_run ran with
    ⟨passes, bodies, -⟩ | ⟨context, body, progress, rfl, rfl, weaves⟩
  · refine ⟨fun _ _ => {}, .inl ⟨passes, rfl⟩, ?_, ?_, ?_⟩ <;> rw [bodies]
    · exact fun other old present wellFormed =>
        ⟨old, present, GuardPlan.shapes_nothing _ _ wellFormed⟩
    · exact fun _ => id
    · exact fun _ _ _ => rfl
  · exact ⟨context.plan settings body,
      .inr ⟨context, body, progress, rfl, rfl, weaves, rfl⟩,
      fun _ _ => weaves.exists_shapes includes,
      fun _ => weaves.get?_eq_none,
      fun _ => weaves.get?_of_parameters⟩

theorem Follows.watches
    {plan : MethodId → MethodBody → GuardPlan}
    (follows : Follows graph settings method state final plan)
    (other : MethodId) (old : MethodBody) :
    (plan other old).Watches graph := by
  rcases follows.source with
    ⟨-, rfl⟩ | ⟨context, body, progress, rfl, -, -, rfl⟩
  · exact .inl rfl
  · exact context.watches_plan settings body other old

/-- Where flags are added, a method is passed over only if it was without them. -/
theorem PassesOver.of_withFlags
    {flags : CheckedValues} (within : settings.flags.Within flags)
    {policy : NullPolicy}
    (resolved : NullPolicy.resolve graph settings method = .ok policy)
    {few many : WeaveState}
    (absent : many.bodies.get? method = none →
      few.bodies.get? method = none)
    (passes : PassesOver graph { settings with flags } method many) :
    PassesOver graph settings method few := by
  rcases passes with generated | ⟨wider, resolvedToo, unwoven⟩
  · exact .inl generated
  · obtain ⟨more, resolvedMore, withinMore⟩ :=
      NullPolicy.exists_resolve_of_within within resolved
    cases resolvedMore.symm.trans resolvedToo
    refine .inr ⟨policy, resolved, unwoven.imp (fun hidden => ?_) absent⟩
    rw [← Bool.not_eq_true] at hidden ⊢
    exact mt (NullPolicy.isVisible_withFlags withinMore) hidden

/-! ## Two runs -/

/--
What two runs over some methods have made of the bodies of a program, with the
methods that they have before them.
-/
structure RunsAhead
    (program : Program) (rest : List MethodId) (few many : Bodies) :
    Prop where
  absent : ∀ other, program.bodies.get? other = none →
    few.get? other = none ∧ many.get? other = none
  both : ∀ other original, program.bodies.get? other = some original →
    ∃ old again, few.get? other = some old ∧
      many.get? other = some again ∧
        program.graph.GrowsIntoBoth original old again
  /-- What has arguments to be checked was not changed yet. -/
  ahead : ∀ other ∈ rest, (program.graph.method other).parameters ≠ [] →
    few.get? other = program.bodies.get? other ∧
      many.get? other = program.bodies.get? other

/-- Both runs have a body of a method, or neither has one. -/
theorem RunsAhead.cases
    {program : Program} {rest : List MethodId} {few many : Bodies}
    (ahead : RunsAhead program rest few many) (other : MethodId) :
    (few.get? other = none ∧ many.get? other = none) ∨
      ∃ original old again,
        program.bodies.get? other = some original ∧
          few.get? other = some old ∧ many.get? other = some again ∧
            program.graph.GrowsIntoBoth original old again := by
  cases present : program.bodies.get? other with
  | none =>
      exact .inl (ahead.absent other present)
  | some original =>
      obtain ⟨old, again, there, thereToo, both⟩ :=
        ahead.both other original present
      exact .inr ⟨original, old, again, rfl, there, thereToo, both⟩

theorem RunsAhead.wellFormed
    {program : Program} {rest : List MethodId} {few many : Bodies}
    (ahead : RunsAhead program rest few many) :
    (∀ other old, few.get? other = some old → old.WellFormed) ∧
      ∀ other old, many.get? other = some old → old.WellFormed := by
  refine ⟨fun other old found => ?_, fun other old found => ?_⟩ <;>
    rcases ahead.cases other with
      ⟨absent, absentToo⟩ | ⟨_, _, _, -, there, thereToo, both⟩
  · cases absent.symm.trans found
  · cases there.symm.trans found
    exact both.first.wellFormed
  · cases absentToo.symm.trans found
  · cases thereToo.symm.trans found
    exact both.second.wellFormed

section Step

variable
    {program : Program} {rest : List MethodId} {flags : CheckedValues}
    {few many fewNext manyNext : WeaveState}
    {plan more : MethodId → MethodBody → GuardPlan}

/-- The plan of the second run holds all guards of the plan of the first one. -/
theorem RunsAhead.within
    (ahead : RunsAhead program (method :: rest) few.bodies many.bodies)
    (loaded : program.Loaded) (within : settings.flags.Within flags)
    (follows :
      Follows program.graph settings method few fewNext plan)
    (followsToo :
      Follows program.graph { settings with flags } method many manyNext
        more)
    {other : MethodId} {original old again : MethodBody}
    (present : program.bodies.get? other = some original)
    (there : few.bodies.get? other = some old)
    (thereToo : many.bodies.get? other = some again)
    (both : program.graph.GrowsIntoBoth original old again) :
    (plan other old).Within (more other again) := by
  rcases follows.source with
    ⟨-, rfl⟩ | ⟨context, body, progress, graph, rfl, weaves, rfl⟩
  · exact .of_nothing _
  · rcases followsToo.source with
      ⟨passes, -⟩ |
      ⟨wider, second, progressToo, graphToo, sameMethod, weavesToo, rfl⟩
    · -- What the second run passes over the first one would have passed over.
      refine absurd (passes.of_withFlags within
        (graph ▸ weaves.resolved) fun absent => ?_) (graph ▸ weaves.commits)
      rcases ahead.cases context.method with
        ⟨none, -⟩ | ⟨_, _, _, -, -, found, -⟩
      · exact none
      · cases absent.symm.trans found
    · obtain ⟨policy, resolved, withinPolicy⟩ :=
        NullPolicy.exists_resolve_of_within within weaves.resolved
      have same : wider = context.withFlags policy := by
        obtain ⟨widerGraph, widerMethod, widerPolicy⟩ := wider
        cases graphToo.trans graph.symm
        cases sameMethod
        cases resolved.symm.trans weavesToo.resolved
        rfl
      subst same
      have locals : second.locals = body.locals := by
        rcases ahead.cases context.method with
          ⟨absent, -⟩ | ⟨_, _, _, -, here, hereToo, own⟩
        · cases absent.symm.trans weaves.present
        · cases here.symm.trans weaves.present
          cases hereToo.symm.trans weavesToo.present
          exact own.second.locals.trans own.first.locals.symm
      refine MethodContext.plan_withFlags withinPolicy locals ?_
        (graph ▸ loaded.includesSystem) (graph ▸ loaded.namesSystemTypes)
        both.first.wellFormed ?_
      · rw [graph]
        exact both.second.offers.reports.trans
          both.first.offers.reports.symm
      · rintro rfl parameters
        rw [MethodContext.decl, graph] at parameters
        obtain ⟨unchanged, unchangedToo⟩ :=
          ahead.ahead _ (List.mem_cons_self ..) parameters
        rw [unchanged] at there
        rw [unchangedToo, there] at thereToo
        exact (Option.some.inj thereToo).symm

/-- What two runs over methods have made of bodies once one more method was gone through. -/
theorem RunsAhead.step
    (ahead : RunsAhead program (method :: rest) few.bodies many.bodies)
    (loaded : program.Loaded) (within : settings.flags.Within flags)
    (fresh : method ∉ rest)
    (follows :
      Follows program.graph settings method few fewNext plan)
    (followsToo :
      Follows program.graph { settings with flags } method many manyNext
        more) :
    RunsAhead program rest fewNext.bodies manyNext.bodies where
  absent other none := by
    obtain ⟨absent, absentToo⟩ := ahead.absent other none
    exact ⟨follows.absent other absent, followsToo.absent other absentToo⟩
  both other original present := by
    obtain ⟨old, again, there, thereToo, both⟩ :=
      ahead.both other original present
    obtain ⟨new, now, shapes⟩ :=
      follows.shapes other old there both.first.wellFormed
    obtain ⟨next, nowToo, shapesToo⟩ :=
      followsToo.shapes other again thereToo both.second.wellFormed
    exact ⟨new, next, now, nowToo, both.shapes
      (ahead.within loaded within follows followsToo present there
        thereToo both)
      (follows.watches other old) shapes shapesToo⟩
  ahead other among parameters := by
    have apart : other ≠ method := fun same => fresh (same ▸ among)
    obtain ⟨unchanged, unchangedToo⟩ :=
      ahead.ahead other (List.mem_cons_of_mem _ among) parameters
    exact ⟨(follows.others other apart parameters).trans unchanged,
      (followsToo.others other apart parameters).trans unchangedToo⟩

/-- The bodies become what a plan says by layouts that fit it. -/
theorem Follows.exists_layouts
    (follows : Follows graph settings method state final plan)
    (wellFormed : ∀ other old, state.bodies.get? other = some old →
      old.WellFormed) :
    ∃ layouts,
      state.bodies.Become final.bodies settings.debugBuild layouts ∧
        ∀ other old, state.bodies.get? other = some old →
          (plan other old).Fits (layouts other) old := by
  have each : ∀ other, ∃ layout : GuardLayout,
      ∀ old, state.bodies.get? other = some old →
        (plan other old).Fits layout old ∧
          ∃ new, final.bodies.get? other = some new ∧
            layout.Describes settings.debugBuild old.widen new.widen := by
    intro other
    cases there : state.bodies.get? other with
    | none =>
        exact ⟨{}, nofun⟩
    | some old =>
        obtain ⟨new, now, shapes⟩ :=
          follows.shapes other old there (wellFormed other old there)
        obtain ⟨layout, described, fits⟩ := shapes.layout
        refine ⟨layout, fun same equal => ?_⟩
        cases equal
        exact ⟨fits, new, now, described⟩
  choose layouts laid using each
  refine ⟨layouts, fun other old there => ?_,
    fun other old there => (laid other old there).1⟩
  obtain ⟨fits, become⟩ := laid other old there
  exact ⟨fits.empty, become⟩

end Step

/-- A step puts in the guards of all methods, of each as many as the other one at least. -/
theorem RunsAhead.injections_subperm
    {program : Program} {rest : List MethodId} {few many : Bodies}
    (ahead : RunsAhead program rest few many)
    {layouts more : MethodId → GuardLayout} {method : MethodId}
    (each : ∀ other original old again,
      program.bodies.get? other = some original →
        few.get? other = some old → many.get? other = some again →
          program.graph.GrowsIntoBoth original old again →
            ((layouts other).injections original old method
              other).Subperm
              ((more other).injections original again method other)) :
    (program.injections few layouts method).Subperm
      (program.injections many more method) := by
  unfold Program.injections
  induction program.graph.methodIds with
  | nil =>
      exact List.nil_subperm
  | cons into others inductionHypothesis =>
      rw [List.flatMap_cons, List.flatMap_cons]
      refine List.Subperm.append ?_ inductionHypothesis
      rcases ahead.cases into with
        ⟨absent, -⟩ |
        ⟨original, old, again, present, there, thereToo, both⟩
      · rw [absent]
        exact List.nil_subperm
      · rw [there, thereToo, present]
        exact each into original old again present there thereToo both

/-- Two runs over the same methods: the one with more flags puts in all guards of the other. -/
theorem RunsAhead.exists_injects
    {program : Program} (loaded : program.Loaded)
    {flags : CheckedValues} (within : settings.flags.Within flags)
    {methods : List MethodId} (distinct : methods.Nodup)
    {few many fewLast manyLast : WeaveState}
    (ahead : RunsAhead program methods few.bodies many.bodies)
    (ran :
      (methods.forM (weaveUnlessGenerated program.graph settings)).run few =
        (.ok (), fewLast))
    (ranToo :
      (methods.forM (weaveUnlessGenerated program.graph
        { settings with flags })).run many = (.ok (), manyLast)) :
    ∃ injections more,
      Injects program settings methods few fewLast injections ∧
        Injects program { settings with flags } methods many manyLast
          more ∧
        injections.Subperm more := by
  induction methods generalizing few many with
  | nil =>
      cases ran
      cases ranToo
      exact ⟨[], [], .done _, .done _, List.Subperm.refl _⟩
  | cons method rest inductionHypothesis =>
      obtain ⟨fresh, distinct⟩ := List.nodup_cons.mp distinct
      obtain ⟨fewNext, here, behind⟩ := run_forM_cons_eq_ok.mp ran
      obtain ⟨manyNext, hereToo, behindToo⟩ :=
        run_forM_cons_eq_ok.mp ranToo
      obtain ⟨plan, follows⟩ := exists_follows loaded.includesSystem here
      obtain ⟨planToo, followsToo⟩ :=
        exists_follows loaded.includesSystem hereToo
      obtain ⟨injections, more, injects, injectsToo, onwards⟩ :=
        inductionHypothesis distinct
          (ahead.step loaded within fresh follows followsToo) behind
          behindToo
      obtain ⟨layouts, become, fits⟩ :=
        follows.exists_layouts ahead.wellFormed.1
      obtain ⟨layoutsToo, becomeToo, fitsToo⟩ :=
        followsToo.exists_layouts ahead.wellFormed.2
      refine ⟨_, _, .step layouts here become injects,
        .step layoutsToo hereToo becomeToo injectsToo,
        List.Subperm.append (ahead.injections_subperm ?_) onwards⟩
      intro other original old again present there thereToo both
      rw [(fits other old there).injections_eq,
        (fitsToo other again thereToo).injections_eq]
      exact both.injections_subperm
        (ahead.within loaded within follows followsToo present there
          thereToo both)
        (follows.watches other old)
        (loaded.asRead present).wellFormed method other

end Weaver

/-! ## Loaded modules -/

/-- The methods of types that are all different are all different. -/
theorem Module.nodup_methods
    {module : Module} (distinct : module.types.Nodup) (graph : Graph) :
    (module.methods graph).Nodup := by
  refine List.nodup_flatMap.mpr
    ⟨fun type _ => graph.nodup_methodIds.filter _, ?_⟩
  refine distinct.imp fun {type other} apart method member memberToo => ?_
  have owner := ((graph.mem_methodsOf type method).mp member).2
  have ownerToo := ((graph.mem_methodsOf other method).mp memberToo).2
  exact apart (owner.symm.trans ownerToo)

namespace Program

/-- The types of a text are all different. -/
theorem Named.nodup_types
    {program : Program} (named : program.Named)
    {text : String} {module : Module}
    (given : (program.load text).1 = .ok module) :
    module.types.Nodup := by
  unfold load at given
  cases read : readModule text with
  | error error =>
      rw [read] at given
      cases given
  | ok texts =>
      rw [read] at given
      have ran :
          (Loading.loadTypes texts).run program =
            (.ok module, ((Loading.loadTypes texts).run program).2) :=
        Prod.ext given rfl
      obtain ⟨loads, -, rfl, -⟩ :=
        (Loading.loadTypes_eq_ok_iff named).mp ran
      exact Loading.distinct_places program.graph.types.size texts

/-- Weaving a module that goes well is weaving its methods. -/
theorem exists_run_of_weave
    {program : Program} {settings : Settings} {module : Module}
    (went : (program.weave settings module).failure = none) :
    ∃ reached,
      ((module.methods program.graph).forM
          (Weaver.weaveUnlessGenerated program.graph settings)).run
            { bodies := program.bodies } = (.ok (), reached) ∧
        (program.weave settings module).program.bodies =
          reached.bodies ∧
        (program.weave settings module).report.guardsInjected =
          reached.report.guardsInjected := by
  unfold weave runWeaver at went ⊢
  rcases ran : (Weaver.weaveModule program.graph settings module).run
    { bodies := program.bodies } with ⟨failure | _, final⟩
  · rw [ran] at went
    cases went
  · obtain ⟨reached, well, same⟩ := Weaver.run_weaveModule_eq_ok ran
    exact ⟨reached, well, same.bodies, same.guardsInjected⟩

/--
More flags never leave a guard out.

A module that some text gave is woven twice in a program that texts left, with
the same settings but for more flags the second time.  If both runs go well, the
second one puts in every guard of the first one: for the same method, into the
same body, at the same place of the body as it was before the run, with the same
check.
-/
theorem FromTexts.more_flags_keep_guards
    {earlier program : Program} (fromEarlier : earlier.FromTexts)
    (fromTexts : program.FromTexts) {text : String} {module : Module}
    (given : (earlier.load text).1 = .ok module)
    (settings : Settings) {flags : CheckedValues}
    (within : settings.flags.Within flags)
    (went : (program.weave settings module).failure = none)
    (wentToo :
      (program.weave { settings with flags } module).failure = none) :
    ∃ injections more,
      program.Injects settings module injections ∧
        program.Injects { settings with flags } module more ∧
        injections.Subperm more := by
  have loaded := fromTexts.loaded
  obtain ⟨reached, ran, bodies, reported⟩ := exists_run_of_weave went
  obtain ⟨reachedToo, ranToo, bodiesToo, reportedToo⟩ :=
    exists_run_of_weave wentToo
  have start :
      Weaver.RunsAhead program (module.methods program.graph)
        program.bodies program.bodies := by
    refine ⟨fun _ none => ⟨none, none⟩, fun other original present => ?_,
      fun _ _ _ => ⟨rfl, rfl⟩⟩
    have same :=
      Graph.GrowsInto.refl program.graph (loaded.asRead present).wellFormed
    exact ⟨original, original, present, present, same, same, le_rfl⟩
  obtain ⟨injections, more, injects, injectsToo, kept⟩ :=
    start.exists_injects loaded within
      (Module.nodup_methods (fromEarlier.named.nodup_types given) _) ran ranToo
  have counted :=
    injects.length_eq Weaver.mem_methodIds_of_mem_methods
  have countedToo :=
    injectsToo.length_eq Weaver.mem_methodIds_of_mem_methods
  exact ⟨injections, more,
    ⟨⟨reached, injects, bodies⟩,
      reported.trans (counted.symm.trans (Nat.zero_add _))⟩,
    ⟨⟨reachedToo, injectsToo, bodiesToo⟩,
      reportedToo.trans (countedToo.symm.trans (Nat.zero_add _))⟩,
    kept⟩

/-- A method that gives its argument back. -/
def echoText : String :=
  ".class public Echo\n.method public static string Say(string text)\n" ++
    "ldarg text\nret\n.end\n.end\n"

/-- The argument is guarded in both runs, the result where results are checked too. -/
theorem more_flags_keep_guards_echo :
    let program := (Program.initial.load echoText).2
    let few : Settings := { flags := { arguments := true } }
    let many : Settings := { flags := .allPublic }
    (Program.initial.load echoText).1 = .ok { types := [⟨17⟩] } ∧
      (program.weave few { types := [⟨17⟩] }).report.guardsInjected = 1 ∧
      (program.weave many { types := [⟨17⟩] }).report.guardsInjected = 2 ∧
      ∃ injections more,
        program.Injects few { types := [⟨17⟩] } injections ∧
          program.Injects many { types := [⟨17⟩] } more ∧
          injections.Subperm more := by
  intro program few many
  have checked :
      (Program.initial.load echoText).1 = .ok { types := [⟨17⟩] } ∧
        (program.weave few { types := [⟨17⟩] }).failure = none ∧
        (program.weave many { types := [⟨17⟩] }).failure = none ∧
        (program.weave few { types := [⟨17⟩] }).report.guardsInjected =
          1 ∧
        (program.weave many { types := [⟨17⟩] }).report.guardsInjected =
          2 := by
    decide +kernel
  obtain ⟨given, went, wentToo, one, two⟩ := checked
  have fromTexts : program.FromTexts := .load _ .initial
  have within : few.flags.Within .allPublic :=
    ⟨fun _ => rfl, nofun, nofun, nofun⟩
  exact ⟨given, one, two, FromTexts.more_flags_keep_guards .initial
    fromTexts given few within went wentToo⟩

end Program

end NullWeave
