import NullWeave.Proofs.Reordering
import NullWeave.Proofs.Weave.SecondRun

/-!
# The order of methods makes no difference

Weaving a method reads and replaces few bodies: its own, and those that the
state machines among the types of its local variables run.  A tool wrote what a
state machine runs, so weaving leaves it alone where it is a method of the list,
and it is the body of no method that is woven.  So two methods touch a common
body only if their local variables are of a common state machine.

Methods that touch no common body can be woven in either order.  The same bodies
come of it, the same counts, and the same warnings in another order.
-/

namespace NullWeave

namespace Bodies

/-- Bodies put in place make no method different that was the same before. -/
theorem get?_foldl_set_congr
    {left right : Bodies} {method : MethodId}
    (same : left.get? method = right.get? method)
    (entries : List (MethodId × MethodBody)) :
    (entries.foldl (fun bodies entry => bodies.set entry.1 entry.2)
        left).get? method =
      (entries.foldl (fun bodies entry => bodies.set entry.1 entry.2)
        right).get? method := by
  induction entries generalizing left right with
  | nil =>
      exact same
  | cons entry rest inductionHypothesis =>
      rw [List.foldl_cons, List.foldl_cons]
      refine inductionHypothesis ?_
      by_cases here : method = entry.1
      · rw [here, get?_set_self, get?_set_self]
      · rw [get?_set_of_ne _ _ here, get?_set_of_ne _ _ here, same]

/-- A body makes no difference where another one takes its place. -/
theorem get?_foldl_set_set
    {entries : List (MethodId × MethodBody)}
    (distinct : (entries.map (·.1)).Nodup) {method : MethodId}
    (replaced : method ∈ entries.map (·.1))
    (bodies : Bodies) (body : MethodBody) (other : MethodId) :
    (entries.foldl (fun bodies entry => bodies.set entry.1 entry.2)
        (bodies.set method body)).get? other =
      (entries.foldl (fun bodies entry => bodies.set entry.1 entry.2)
        bodies).get? other := by
  by_cases same : other = method
  · obtain ⟨entry, among, rfl⟩ := List.mem_map.mp replaced
    rw [same, get?_foldl_set_of_mem distinct among,
      get?_foldl_set_of_mem distinct among]
  · exact get?_foldl_set_congr (get?_set_of_ne _ _ same) entries

/-- Bodies of different methods can be put in place in either order. -/
theorem get?_foldl_set_comm
    {first second : List (MethodId × MethodBody)} {method : MethodId}
    (apart : method ∈ first.map (·.1) → method ∉ second.map (·.1))
    (bodies : Bodies) :
    (second.foldl (fun bodies entry => bodies.set entry.1 entry.2)
        (first.foldl (fun bodies entry => bodies.set entry.1 entry.2)
          bodies)).get? method =
      (first.foldl (fun bodies entry => bodies.set entry.1 entry.2)
        (second.foldl (fun bodies entry => bodies.set entry.1 entry.2)
          bodies)).get? method := by
  by_cases among : method ∈ first.map (·.1)
  · rw [get?_foldl_set_of_not_mem (apart among)]
    exact get?_foldl_set_congr
      (get?_foldl_set_of_not_mem (apart among) bodies).symm first
  · rw [get?_foldl_set_of_not_mem among]
    exact get?_foldl_set_congr
      (get?_foldl_set_of_not_mem among bodies) second

end Bodies

/-! ## The bodies that weaving a method touches -/

namespace Graph

/-- The state machines among the types of the local variables of a method. -/
def machinesOf
    (graph : Graph) (bodies : Bodies) (method : MethodId) : List TypeId :=
  ((bodies.get? method).elim [] MethodContext.localTypes).filter
    graph.isAsyncStateMachine

/-- May weaving a method read or replace the body of another one? -/
def Touches
    (graph : Graph) (bodies : Bodies) (method other : MethodId) : Prop :=
  graph.isGeneratedMethod method = false ∧
    (other = method ∨
      ∃ type ∈ graph.machinesOf bodies method,
        graph.findMethod? type "MoveNext" 0 = some other)

/-- Do no two methods of a list have local variables of a common state machine? -/
def MachinesApart
    (graph : Graph) (bodies : Bodies) (methods : List MethodId) : Prop :=
  methods.Pairwise fun first second =>
    ∀ type ∈ graph.machinesOf bodies first,
      type ∉ graph.machinesOf bodies second

instance
    (graph : Graph) (bodies : Bodies) (methods : List MethodId) :
    Decidable (graph.MachinesApart bodies methods) :=
  inferInstanceAs (Decidable (methods.Pairwise _))

/-- Do no two methods of a list touch a common body? -/
def TouchesApart
    (graph : Graph) (bodies : Bodies) (methods : List MethodId) : Prop :=
  methods.Pairwise fun first second =>
    ∀ method, graph.Touches bodies first method →
      ¬ graph.Touches bodies second method

variable {graph : Graph} {bodies later : Bodies}

theorem mem_machinesOf_of_get?_eq
    {method : MethodId} {body : MethodBody}
    (present : bodies.get? method = some body) {type : TypeId} :
    type ∈ graph.machinesOf bodies method ↔
      type ∈ MethodContext.localTypes body ∧
        graph.isAsyncStateMachine type = true := by
  rw [machinesOf, present, List.mem_filter]
  rfl

/-- Methods of different types are different. -/
theorem eq_of_findMethod?
    {first second : TypeId} {name : String} {count : Nat}
    {method : MethodId}
    (here : graph.findMethod? first name count = some method)
    (there : graph.findMethod? second name count = some method) :
    first = second := by
  have owner : ∀ {type}, graph.findMethod? type name count = some method →
      (graph.method method).owner = type := fun found =>
    ((graph.mem_methodsOf _ method).mp (List.mem_of_find?_eq_some found)).2
  exact (owner here).symm.trans (owner there)

theorem isGeneratedMethod_of_mem_machinesOf
    {method moveNext : MethodId} {type : TypeId}
    (machine : type ∈ graph.machinesOf bodies method)
    (found : graph.findMethod? type "MoveNext" 0 = some moveNext) :
    graph.isGeneratedMethod moveNext = true := by
  let context : MethodContext :=
    { graph, method, policy := { flags := {}, explicitMode := false } }
  have runs : context.IsMoveNext [type] moveNext :=
    ⟨type, List.mem_singleton.mpr rfl, (List.mem_filter.mp machine).2,
      found⟩
  exact runs.isGenerated

/-- What a method touches depends on its own body only. -/
theorem Touches.congr
    {method other : MethodId} (touches : graph.Touches bodies method other)
    (same : bodies.get? method = later.get? method) :
    graph.Touches later method other := by
  rw [Touches, machinesOf, ← same]
  exact touches

/-- Different methods touch a common body only through a common state machine. -/
theorem touchesApart_of_machinesApart
    {methods : List MethodId} (distinct : methods.Nodup)
    (apart : graph.MachinesApart bodies methods) :
    graph.TouchesApart bodies methods := by
  refine distinct.and apart |>.imp ?_
  rintro first second ⟨different, apart⟩ method
    ⟨written, own | ⟨type, machine, found⟩⟩
    ⟨otherWritten, otherOwn | ⟨other, otherMachine, otherFound⟩⟩
  · exact different (own.symm.trans otherOwn)
  · subst own
    cases written.symm.trans
      (isGeneratedMethod_of_mem_machinesOf otherMachine otherFound)
  · subst otherOwn
    cases otherWritten.symm.trans
      (isGeneratedMethod_of_mem_machinesOf machine found)
  · cases eq_of_findMethod? found otherFound
    exact apart type machine otherMachine

end Graph

/-! ## Going through state machines elsewhere -/

namespace MethodContext

/-- Only the bodies of state machines among the types matter to going through them. -/
theorem guardStateMachines_congr
    {context : MethodContext} {bodies later : Bodies}
    {types : List TypeId}
    (same : ∀ moveNext, context.IsMoveNext types moveNext →
      bodies.get? moveNext = later.get? moveNext)
    (debugBuild : Bool) (payload : Signature) (progress : AsyncProgress) :
    (types.forM
        (context.guardStateMachine bodies debugBuild payload)).run
          progress =
      (types.forM
        (context.guardStateMachine later debugBuild payload)).run
          progress := by
  induction types generalizing progress with
  | nil =>
      rfl
  | cons type rest inductionHypothesis =>
      have here :
          (context.guardStateMachine bodies debugBuild payload type).run
              progress =
            (context.guardStateMachine later debugBuild payload type).run
              progress := by
        rw [run_guardStateMachine, run_guardStateMachine]
        by_cases machine : context.graph.isAsyncStateMachine type = true
        · rw [if_pos machine, if_pos machine]
          cases found : context.graph.findMethod? type "MoveNext" 0 with
          | none =>
              rfl
          | some moveNext =>
              dsimp only
              rw [same moveNext
                ⟨type, List.mem_cons_self .., machine, found⟩]
        · rw [if_neg machine, if_neg machine]
      have onwards := inductionHypothesis fun moveNext among => by
        obtain ⟨other, member, machine⟩ := among
        exact same moveNext ⟨other, List.mem_cons_of_mem _ member, machine⟩
      change (context.guardStateMachine bodies debugBuild payload type >>=
          fun _ => rest.forM _).run progress =
        (context.guardStateMachine later debugBuild payload type >>=
          fun _ => rest.forM _).run progress
      rw [run_bind, run_bind, here]
      rcases (context.guardStateMachine later debugBuild payload type).run
        progress with ⟨_ | _, reached⟩
      · rfl
      · exact onwards reached

end MethodContext

/-! ## What weaving a method does -/

/-- What weaving a method adds to what was done before. -/
structure MethodWork where
  /-- The bodies that are put in place, in order. -/
  bodies : List (MethodId × MethodBody) := []
  processed : Nat := 0
  guards : Nat := 0
  warnings : List String := []

/-- Is a state the one that some work makes of another state, but for the log? -/
structure MethodWork.Done
    (work : MethodWork) (state final : WeaveState) : Prop where
  bodies :
    final.bodies =
      work.bodies.foldl (fun bodies entry => bodies.set entry.1 entry.2)
        state.bodies
  processed :
    final.report.methodsProcessed =
      state.report.methodsProcessed + work.processed
  guards :
    final.report.guardsInjected =
      state.report.guardsInjected + work.guards
  warnings :
    final.report.warnings = state.report.warnings ++ work.warnings

/-- Have two runs come to the same but for the log and the order of warnings? -/
structure WeaveState.Agrees (left right : WeaveState) : Prop where
  bodies : ∀ method, left.bodies.get? method = right.bodies.get? method
  methodsProcessed :
    left.report.methodsProcessed = right.report.methodsProcessed
  guardsInjected :
    left.report.guardsInjected = right.report.guardsInjected
  warnings : left.report.warnings.Perm right.report.warnings

namespace WeaveState.Agrees

variable {first second third : WeaveState}

theorem refl (state : WeaveState) : state.Agrees state :=
  ⟨fun _ => rfl, rfl, rfl, .refl _⟩

theorem trans (left : first.Agrees second) (right : second.Agrees third) :
    first.Agrees third :=
  ⟨fun method => (left.bodies method).trans (right.bodies method),
    left.methodsProcessed.trans right.methodsProcessed,
    left.guardsInjected.trans right.guardsInjected,
    left.warnings.trans right.warnings⟩

end WeaveState.Agrees

namespace MethodWork.Done

variable
    {work other : MethodWork}
    {left right leftDone rightDone leftEnd rightEnd : WeaveState}

/-- The same work makes of agreeing states agreeing ones. -/
theorem agrees
    (here : work.Done left leftDone) (there : work.Done right rightDone)
    (same : left.Agrees right) : leftDone.Agrees rightDone where
  bodies method := by
    rw [here.bodies, there.bodies]
    exact Bodies.get?_foldl_set_congr (same.bodies method) _
  methodsProcessed := by
    rw [here.processed, there.processed, same.methodsProcessed]
  guardsInjected := by
    rw [here.guards, there.guards, same.guardsInjected]
  warnings := by
    rw [here.warnings, there.warnings]
    exact same.warnings.append_right _

/-- Work on different bodies can be done in either order. -/
theorem swap
    (apart : ∀ method, method ∈ work.bodies.map (·.1) →
      method ∉ other.bodies.map (·.1))
    (first : work.Done left leftDone) (next : other.Done leftDone leftEnd)
    (second : other.Done left rightDone)
    (last : work.Done rightDone rightEnd) :
    leftEnd.Agrees rightEnd where
  bodies method := by
    rw [next.bodies, first.bodies, last.bodies, second.bodies]
    exact Bodies.get?_foldl_set_comm (apart method) _
  methodsProcessed := by
    rw [next.processed, first.processed, last.processed,
      second.processed]
    omega
  guardsInjected := by
    rw [next.guards, first.guards, last.guards, second.guards]
    omega
  warnings := by
    rw [next.warnings, first.warnings, last.warnings, second.warnings,
      List.append_assoc, List.append_assoc]
    exact List.perm_append_comm.append_left _

end MethodWork.Done

namespace Weaver

variable
    {graph : Graph} {settings : Settings} {method : MethodId}
    {state final : WeaveState}

/--
Is some work what weaving a method does wherever the bodies it touches are the
same as in a state?
-/
structure DoesWork
    (graph : Graph) (settings : Settings) (method : MethodId)
    (state : WeaveState) (work : MethodWork) : Prop where
  touches : ∀ other ∈ work.bodies.map (·.1),
    graph.Touches state.bodies method other
  done : ∀ start : WeaveState,
    (∀ other, graph.Touches state.bodies method other →
      start.bodies.get? other = state.bodies.get? other) →
    ∃ final,
      (weaveUnlessGenerated graph settings method).run start =
          (.ok (), final) ∧
        work.Done start final

/-- What is left alone needs no work. -/
theorem doesWork_nothing
    (idle : ∀ start : WeaveState,
      (∀ other, graph.Touches state.bodies method other →
        start.bodies.get? other = state.bodies.get? other) →
      ∃ final,
        (weaveUnlessGenerated graph settings method).run start =
            (.ok (), final) ∧
          final.bodies = start.bodies ∧ final.report = start.report) :
    DoesWork graph settings method state {} where
  touches := by simp
  done start same := by
    obtain ⟨final, went, bodies, report⟩ := idle start same
    exact ⟨final, went, bodies, by rw [report]; rfl, by rw [report]; rfl,
      by rw [report, List.append_nil]⟩

/-- A method that no tool wrote is woven without a change to what fails. -/
theorem run_weaveUnlessGenerated_eq_ok
    (notGenerated : settings.isGenerated graph method = false) :
    (weaveUnlessGenerated graph settings method).run state =
        (.ok (), final) ↔
      (weaveMethod graph settings method).run state = (.ok (), final) := by
  rw [weaveUnlessGenerated, notGenerated, if_neg Bool.false_ne_true,
    run_tryCatch]
  rcases (weaveMethod graph settings method).run state with
    ⟨_ | _, reached⟩
  · constructor <;> intro went <;> cases went
  · rfl

/-- Only a method with a policy is woven. -/
theorem exists_context_of_run
    (ran : (weaveMethod graph settings method).run state =
      (.ok (), final)) :
    ∃ context : MethodContext,
      context.graph = graph ∧ context.method = method ∧
        NullPolicy.resolve graph settings method = .ok context.policy := by
  cases resolved : NullPolicy.resolve graph settings method with
  | error failure =>
      rw [weaveMethod, resolved] at ran
      cases ran
  | ok policy =>
      exact ⟨{ graph, method, policy }, rfl, rfl, rfl⟩

/-- Is a method passed over: written by a tool, not looked at, or without a body? -/
def PassesOver
    (graph : Graph) (settings : Settings) (method : MethodId)
    (state : WeaveState) : Prop :=
  settings.isGenerated graph method = true ∨
    ∃ policy, NullPolicy.resolve graph settings method = .ok policy ∧
      (policy.isVisible graph (graph.method method) = false ∨
        state.bodies.get? method = none)

/-- Is a method woven that has a body and is not passed over? -/
structure Weaves
    (settings : Settings) (context : MethodContext) (body : MethodBody)
    (progress : AsyncProgress) (state final : WeaveState) : Prop where
  resolved :
    NullPolicy.resolve context.graph settings context.method =
      .ok context.policy
  commits : ¬ PassesOver context.graph settings context.method state
  present : state.bodies.get? context.method = some body
  through :
    ((context.machineTypes body).forM
      (context.guardStateMachine state.bodies settings.debugBuild
        (context.graph.asyncPayload context.decl.returnType))).run {} =
          (.ok (), progress)
  leaves : Leaves settings context body progress state final

/-- Whether a method is passed over depends on no other body. -/
theorem PassesOver.congr
    {other : WeaveState}
    (same : other.bodies.get? method = state.bodies.get? method)
    (passes : PassesOver graph settings method state) :
    PassesOver graph settings method other :=
  passes.imp_right fun ⟨policy, resolved, unwoven⟩ =>
    ⟨policy, resolved, unwoven.imp_right same.trans⟩

theorem PassesOver.exists_run
    (passes : PassesOver graph settings method state) :
    ∃ final,
      (weaveUnlessGenerated graph settings method).run state =
          (.ok (), final) ∧
        final.bodies = state.bodies ∧ final.report = state.report := by
  cases generated : settings.isGenerated graph method with
  | true =>
      rw [weaveUnlessGenerated, if_pos generated]
      exact ⟨_, rfl, rfl, rfl⟩
  | false =>
      rcases passes with skipped | ⟨policy, resolved, unwoven⟩
      · cases generated.symm.trans skipped
      · let context : MethodContext := { graph, method, policy }
        have resolved :
            NullPolicy.resolve context.graph settings context.method =
              .ok context.policy := resolved
        obtain ⟨final, went, idle⟩ :=
          run_weaveMethod_of_unwoven resolved unwoven
        exact ⟨final, (run_weaveUnlessGenerated_eq_ok generated).mpr went,
          idle⟩

theorem isGenerated_of_not_passesOver
    (commits : ¬ PassesOver graph settings method state) :
    settings.isGenerated graph method = false :=
  Bool.eq_false_iff.mpr fun generated => commits (.inl generated)

/-- Where its state machines can be gone through, a method that is not passed over is woven. -/
theorem exists_weaves
    {context : MethodContext} {body : MethodBody}
    {progress : AsyncProgress}
    (resolved : NullPolicy.resolve context.graph settings
      context.method = .ok context.policy)
    (commits : ¬ PassesOver context.graph settings context.method state)
    (present : state.bodies.get? context.method = some body)
    (through : ((context.machineTypes body).forM
      (context.guardStateMachine state.bodies settings.debugBuild
        (context.graph.asyncPayload context.decl.returnType))).run {} =
          (.ok (), progress)) :
    ∃ final,
      (weaveUnlessGenerated context.graph settings context.method).run
          state = (.ok (), final) ∧
        Weaves settings context body progress state final := by
  have visible :
      context.policy.isVisible context.graph context.decl = true := by
    by_contra hidden
    exact commits
      (.inr ⟨_, resolved, .inl (Bool.eq_false_iff.mpr hidden)⟩)
  obtain ⟨final, ran, leaves⟩ := exists_leaves through
  refine ⟨final, ?_, resolved, commits, present, through, leaves⟩
  rw [run_weaveUnlessGenerated_eq_ok (isGenerated_of_not_passesOver commits),
    run_weaveMethod_of_visible resolved visible present]
  exact ran

/-- A method that does not fail is passed over or woven. -/
theorem cases_of_run
    {method : MethodId}
    (ran : (weaveUnlessGenerated graph settings method).run state =
      (.ok (), final)) :
    (PassesOver graph settings method state ∧
        final.bodies = state.bodies ∧ final.report = state.report) ∨
      ∃ (context : MethodContext) (body : MethodBody)
        (progress : AsyncProgress),
        context.graph = graph ∧ context.method = method ∧
          Weaves settings context body progress state final := by
  cases generated : settings.isGenerated graph method with
  | true =>
      rw [weaveUnlessGenerated, if_pos generated] at ran
      cases ran
      exact .inl ⟨.inl generated, rfl, rfl⟩
  | false =>
      rw [run_weaveUnlessGenerated_eq_ok generated] at ran
      obtain ⟨context, rfl, rfl, resolved⟩ := exists_context_of_run ran
      by_cases unwoven :
          context.policy.isVisible context.graph context.decl = false ∨
            state.bodies.get? context.method = none
      · obtain ⟨reached, went, idle⟩ :=
          run_weaveMethod_of_unwoven resolved unwoven
        cases went.symm.trans ran
        exact .inl ⟨.inr ⟨_, resolved, unwoven⟩, idle⟩
      · have commits :
            ¬ PassesOver context.graph settings context.method state := by
          rintro (skipped | ⟨policy, resolvedToo, unwovenToo⟩)
          · cases generated.symm.trans skipped
          · cases resolved.symm.trans resolvedToo
            exact unwoven unwovenToo
        obtain ⟨visible, presence⟩ := not_or.mp unwoven
        rw [Bool.not_eq_false] at visible
        obtain ⟨body, present⟩ := Option.ne_none_iff_exists'.mp presence
        rw [run_weaveMethod_of_visible resolved visible present] at ran
        obtain ⟨progress, through, leaves⟩ := exists_progress_of_run ran
        exact .inr ⟨context, body, progress, rfl, rfl, resolved, commits,
          present, through, leaves⟩

/-- The work of weaving a body: the own new body first, then those of its state machines. -/
theorem doesWork_weaveBody
    {context : MethodContext} {body : MethodBody}
    {progress : AsyncProgress}
    (weaves : Weaves settings context body progress state final)
    (written : context.graph.isGeneratedMethod context.method = false) :
    DoesWork context.graph settings context.method state
      { bodies :=
          (context.method, context.wovenBody settings body) ::
            progress.pending
        processed := 1
        guards :=
          (context.guardBody settings body).guards + progress.guards
        warnings := progress.warnings } := by
  have machines : ∀ moveNext,
      context.IsMoveNext (context.machineTypes body) moveNext →
        context.graph.Touches state.bodies context.method moveNext := by
    intro moveNext isMoveNext
    obtain ⟨-, type, among, machine, found⟩ :=
      MethodContext.isMoveNext_machineTypes_iff.mp isMoveNext
    exact ⟨written, .inr
      ⟨type, (Graph.mem_machinesOf_of_get?_eq weaves.present).mpr
        ⟨among, machine⟩, found⟩⟩
  have through := weaves.through
  constructor
  · intro other among
    rcases List.mem_cons.mp among with rfl | machine
    · exact ⟨written, .inl rfl⟩
    · obtain ⟨entry, pending, rfl⟩ := List.mem_map.mp machine
      exact machines _
        ((MethodContext.hasMade_of_run through).made entry pending).1
  · intro start same
    have own := same context.method ⟨written, .inl rfl⟩
    rw [MethodContext.guardStateMachines_congr
      fun moveNext machine => (same moveNext (machines _ machine)).symm]
        at through
    obtain ⟨final, ran, there⟩ :=
      exists_weaves weaves.resolved
        (mt (PassesOver.congr own.symm) weaves.commits)
        (own.trans weaves.present) through
    exact ⟨final, ran, there.leaves.bodies, there.leaves.processed,
      there.leaves.guards, there.leaves.warnings⟩

/-- Weaving a method that succeeds does some work. -/
theorem exists_doesWork
    (filter : settings.isGenerated = Graph.isGeneratedMethod)
    (ran : (weaveUnlessGenerated graph settings method).run state =
      (.ok (), final)) :
    ∃ work, DoesWork graph settings method state work := by
  rcases cases_of_run ran with
    ⟨passes, -⟩ | ⟨context, body, progress, rfl, rfl, weaves⟩
  · refine ⟨{}, doesWork_nothing fun start same => ?_⟩
    cases written : graph.isGeneratedMethod method with
    | true =>
        exact PassesOver.exists_run (.inl (by rw [filter, written]))
    | false =>
        exact (passes.congr (same method ⟨written, .inl rfl⟩)).exists_run
  · have written :
        context.graph.isGeneratedMethod context.method = false := by
      rw [← filter]
      exact isGenerated_of_not_passesOver weaves.commits
    exact ⟨_, doesWork_weaveBody weaves written⟩

/-- The work is the same wherever the touched bodies are. -/
theorem DoesWork.elsewhere
    {work : MethodWork} (does : DoesWork graph settings method state work)
    {other : WeaveState}
    (same : ∀ touched, graph.Touches state.bodies method touched →
      other.bodies.get? touched = state.bodies.get? touched) :
    DoesWork graph settings method other work := by
  have ownSame : graph.isGeneratedMethod method = false →
      other.bodies.get? method = state.bodies.get? method :=
    fun written => same method ⟨written, .inl rfl⟩
  constructor
  · intro touched among
    have touches := does.touches touched among
    exact touches.congr (ownSame touches.1).symm
  · intro start sameStart
    refine does.done start fun touched touches => ?_
    exact (sameStart touched
      (touches.congr (ownSame touches.1).symm)).trans
        (same touched touches)

/-- What is in place after a method has been woven is its work. -/
theorem DoesWork.done_of_run
    {work : MethodWork} (does : DoesWork graph settings method state work)
    (ran : (weaveUnlessGenerated graph settings method).run state =
      (.ok (), final)) :
    work.Done state final := by
  obtain ⟨reached, went, done⟩ := does.done state fun _ _ => rfl
  cases went.symm.trans ran
  exact done

/-! ## Methods that change places -/

/-- Weaving a method leaves alone what it does not touch. -/
theorem get?_of_not_touches
    (filter : settings.isGenerated = Graph.isGeneratedMethod)
    (ran : (weaveUnlessGenerated graph settings method).run state =
      (.ok (), final))
    {other : MethodId}
    (untouched : ¬ graph.Touches state.bodies method other) :
    final.bodies.get? other = state.bodies.get? other := by
  obtain ⟨work, does⟩ := exists_doesWork filter ran
  rw [(does.done_of_run ran).bodies]
  exact Bodies.get?_foldl_set_of_not_mem
    (fun among => untouched (does.touches other among)) _

/-- Another method touches the same bodies as before a method was woven, if none is common. -/
theorem touches_of_run
    (filter : settings.isGenerated = Graph.isGeneratedMethod)
    (ran : (weaveUnlessGenerated graph settings method).run state =
      (.ok (), final))
    {other touched : MethodId}
    (apart : ∀ touched, graph.Touches state.bodies method touched →
      ¬ graph.Touches state.bodies other touched)
    (touches : graph.Touches final.bodies other touched) :
    graph.Touches state.bodies other touched :=
  touches.congr (get?_of_not_touches filter ran fun common =>
    apart other common ⟨touches.1, .inl rfl⟩)

theorem reorders_weaveUnlessGenerated
    (filter : settings.isGenerated = Graph.isGeneratedMethod) :
    Reorders (weaveUnlessGenerated graph settings) WeaveState.Agrees
      (fun methods state => graph.TouchesApart state.bodies methods) where
  refl := .refl
  trans _ _ _ := .trans
  respects method left right reached same ran := by
    obtain ⟨work, does⟩ := exists_doesWork filter ran
    obtain ⟨done, there, worked⟩ :=
      does.done right fun other _ => (same.bodies other).symm
    exact ⟨done, there, (does.done_of_run ran).agrees worked same⟩
  perm methods order state reordered apart :=
    reordered.pairwise apart fun apart method there here =>
      apart method here there
  behind method rest state reached apart ran := by
    obtain ⟨here, behind⟩ := List.pairwise_cons.mp apart
    refine behind.imp_of_mem fun {first second} front back apart => ?_
    intro touched touches touchesToo
    exact apart touched
      (touches_of_run filter ran (here first front) touches)
      (touches_of_run filter ran (here second back) touchesToo)
  swaps first second rest state between reached apart here next := by
    have apart : ∀ touched, graph.Touches state.bodies first touched →
        ¬ graph.Touches state.bodies second touched :=
      (List.pairwise_cons.mp apart).1 second (List.mem_cons_self ..)
    obtain ⟨work, does⟩ := exists_doesWork filter here
    obtain ⟨nextWork, nextDoes⟩ := exists_doesWork filter next
    have nextDoesHere : DoesWork graph settings second state nextWork :=
      nextDoes.elsewhere fun touched touches =>
        (get?_of_not_touches filter here fun common =>
          apart touched common
            (touches_of_run filter here apart touches)).symm
    obtain ⟨other, nextFirst, worked⟩ :=
      nextDoesHere.done state fun _ _ => rfl
    obtain ⟨done, hereSecond, workedLast⟩ :=
      does.done other fun touched touches =>
        get?_of_not_touches filter nextFirst (apart touched touches)
    exact ⟨other, done, nextFirst, hereSecond,
      (does.done_of_run here).swap
        (fun touched among amongNext =>
          apart touched (does.touches touched among)
            (nextDoesHere.touches touched amongNext))
        (nextDoes.done_of_run next) worked workedLast⟩

end Weaver

/-! ## Runs over methods in another order -/

/-- Have two runs come to the same but for the log and the order of warnings? -/
structure WeaveOutcome.Agrees (left right : WeaveOutcome) : Prop where
  graph : left.program.graph = right.program.graph
  bodies : ∀ method,
    left.program.bodies.get? method = right.program.bodies.get? method
  methodsProcessed :
    left.report.methodsProcessed = right.report.methodsProcessed
  guardsInjected :
    left.report.guardsInjected = right.report.guardsInjected
  warnings : left.report.warnings.Perm right.report.warnings

/-- A run over methods has no failure exactly if it goes well in its states. -/
theorem Program.failure_weaveMethods_eq_none_iff
    {program : Program} {settings : Settings} {methods : List MethodId} :
    (program.weaveMethods settings methods).failure = none ↔
      ∃ final : WeaveState,
        (methods.forM
          (Weaver.weaveUnlessGenerated program.graph settings)).run
            { bodies := program.bodies } = (.ok (), final) := by
  unfold weaveMethods runWeaver
  rcases (methods.forM
    (Weaver.weaveUnlessGenerated program.graph settings)).run
      { bodies := program.bodies } with ⟨_ | _, final⟩
  · constructor <;> intro went
    · cases went
    · obtain ⟨reached, went⟩ := went
      cases went
  · exact ⟨fun _ => ⟨final, rfl⟩, fun _ => rfl⟩

/--
Methods can be woven in any order.

If a run over different methods goes well in one order, and no two of them have
local variables of a common state machine, then it goes well in every order, and
every order leaves the same bodies, the same counts, and the same warnings up to
their order.
-/
theorem Program.weaveMethods_agrees_of_perm
    (program : Program) (settings : Settings)
    (filter : settings.isGenerated = Graph.isGeneratedMethod)
    {methods order : List MethodId} (distinct : methods.Nodup)
    (apart : program.graph.MachinesApart program.bodies methods)
    (reordered : methods.Perm order)
    (went : (program.weaveMethods settings methods).failure = none) :
    (program.weaveMethods settings order).failure = none ∧
      (program.weaveMethods settings methods).Agrees
        (program.weaveMethods settings order) := by
  obtain ⟨final, ran⟩ := failure_weaveMethods_eq_none_iff.mp went
  obtain ⟨done, there, same⟩ :=
    (Weaver.reorders_weaveUnlessGenerated filter).run_forM_of_perm
      reordered (Graph.touchesApart_of_machinesApart distinct apart) ran
  refine ⟨failure_weaveMethods_eq_none_iff.mpr ⟨done, there⟩, ?_⟩
  unfold weaveMethods runWeaver
  rw [ran, there]
  exact ⟨rfl, same.bodies, same.methodsProcessed, same.guardsInjected,
    same.warnings⟩

/-! ## Two asynchronous methods with a state machine each -/

namespace TwoTasks

/-- The sample type with a second asynchronous method, and something to run in its machine. -/
def graph : Graph :=
  ((TwoMachines.graph.addMethod
      { owner := ⟨17⟩
        name := "Idle"
        access := { isPublic := true }
        returnType :=
          .generic SystemLibrary.taskOfResult
            [.named SystemLibrary.string]
        attributes := [{ name := Attribute.asyncStateMachine }] }).1.addMethod
    { owner := ⟨19⟩, name := "MoveNext" }).1

def bodyNaming (machine : TypeId) : MethodBody :=
  { MethodBody.append {} [.ret] with
    locals := [⟨"machine", .named machine⟩] }

/-- The second state machine reports no failure. -/
def program : Program where
  graph
  bodies :=
    (((({} : Bodies).set ⟨13⟩ (bodyNaming ⟨18⟩)).set ⟨14⟩
      TwoMachines.moveNext).set ⟨15⟩ (bodyNaming ⟨19⟩)).set ⟨16⟩
      (MethodBody.append {} [.ret])

end TwoTasks

open TwoTasks in
theorem Program.weaveMethods_agrees_of_perm_twoTasks :
    (program.weaveMethods {} [⟨16⟩, ⟨15⟩, ⟨14⟩, ⟨13⟩]).failure = none ∧
      (program.weaveMethods {} [⟨13⟩, ⟨14⟩, ⟨15⟩, ⟨16⟩]).Agrees
        (program.weaveMethods {} [⟨16⟩, ⟨15⟩, ⟨14⟩, ⟨13⟩]) ∧
      (program.weaveMethods {} [⟨13⟩, ⟨14⟩, ⟨15⟩, ⟨16⟩]).report =
        { methodsProcessed := 2
          guardsInjected := 1
          warnings :=
            ["Cannot add guards to 'System.Threading.Tasks.Task`1<" ++
              "System.String> Sample::Idle()' as the method contains no " ++
              "await keyword."] } := by
  have reordered :
      ([⟨13⟩, ⟨14⟩, ⟨15⟩, ⟨16⟩] : List MethodId).Perm
        [⟨16⟩, ⟨15⟩, ⟨14⟩, ⟨13⟩] :=
    (List.reverse_perm _).symm
  obtain ⟨went, agrees⟩ :=
    weaveMethods_agrees_of_perm program {} rfl (by decide)
      (by decide +kernel) reordered (by decide +kernel)
  exact ⟨went, agrees, by decide +kernel⟩

end NullWeave
