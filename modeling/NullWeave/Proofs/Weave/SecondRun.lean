import NullWeave.Proofs.Text.LoadedProgram
import NullWeave.Proofs.Weave.OfferedPlaces
import NullWeave.Proofs.Weave.RepeatedEntry

/-!
# Weaving a method twice

A second run on a method finds as many returns as the first one, the same state
machines, and as many calls in them that hand values over.  So it puts all
guards of results in once more and tells the same warnings, and the entry guards
of the first run stay where they are.  It adds no others, but for parameters
that the original body seemed to guard by operations with a return in the place
of the message.
-/

namespace NullWeave

/-! ## State machines that are gone through twice -/

/-- Two runs through state machines are equally far. -/
structure AsyncProgress.Repeats
    (progress again : AsyncProgress) : Prop where
  methods : again.pending.map (·.1) = progress.pending.map (·.1)
  guards : again.guards = progress.guards
  warnings : again.warnings = progress.warnings

namespace MethodContext

variable
    {context : MethodContext} {bodies later : Bodies} {debugBuild : Bool}
    {payload : Signature}

/-- The progress that is made at the state machine of a body. -/
def afterMachine
    (context : MethodContext) (debugBuild : Bool) (payload : Signature)
    (moveNext : MethodId) (body : MethodBody) (progress : AsyncProgress) :
    AsyncProgress :=
  match context.graph.faultReport? body with
  | none =>
      { progress with
        warnings := progress.warnings ++ [context.noAwaitWarning]
        log := progress.log ++ [⟨.warn, context.noAwaitWarning⟩] }
  | some setException =>
      let guarded :=
        context.guardHandovers debugBuild payload setException body
      { progress with
        pending := progress.pending ++ [(moveNext, guarded.finish)]
        guards := progress.guards + guarded.guards
        log := progress.log ++ guarded.log }

theorem run_guardStateMachine
    (context : MethodContext) (bodies : Bodies) (debugBuild : Bool)
    (payload : Signature) (type : TypeId) (progress : AsyncProgress) :
    (context.guardStateMachine bodies debugBuild payload type).run
        progress =
      if context.graph.isAsyncStateMachine type then
        match context.graph.findMethod? type "MoveNext" 0 with
        | none =>
            (.error (.missingMember
              (context.graph.typeName type ++ "::MoveNext")), progress)
        | some moveNext =>
            if progress.pending.any (·.1 == moveNext) then
              (.ok (), progress)
            else
              match bodies.get? moveNext with
              | none =>
                  (.error (.missingMember
                    (context.graph.methodName moveNext)), progress)
              | some body =>
                  (.ok (),
                    context.afterMachine debugBuild payload moveNext body
                      progress)
      else
        (.ok (), progress) := by
  unfold guardStateMachine
  dsimp only
  cases context.graph.isAsyncStateMachine type with
  | false =>
      rfl
  | true =>
      rw [if_pos rfl, if_pos rfl]
      cases context.graph.findMethod? type "MoveNext" 0 with
      | none =>
          rfl
      | some moveNext =>
          dsimp only
          rw [run_get_bind]
          cases progress.pending.any (·.1 == moveNext) with
          | true =>
              rfl
          | false =>
              rw [if_neg Bool.false_ne_true, if_neg Bool.false_ne_true]
              cases bodies.get? moveNext with
              | none =>
                  rfl
              | some body =>
                  dsimp only
                  rw [afterMachine, Graph.faultReport?]
                  cases body.instructions.findSome? fun instruction =>
                      context.graph.builderCall? "SetException"
                        instruction.operation <;>
                    rfl

/-- At state machines that look the same, equally much progress is made. -/
theorem repeats_afterMachine
    {progress again : AsyncProgress} (same : progress.Repeats again)
    {body second : MethodBody}
    (offers : context.graph.OffersSame body second)
    (moveNext : MethodId) :
    (context.afterMachine debugBuild payload moveNext body
      progress).Repeats
      (context.afterMachine debugBuild payload moveNext second
        again) := by
  unfold afterMachine
  rw [offers.reports]
  cases context.graph.faultReport? body with
  | none =>
      exact ⟨same.methods, same.guards, by simp [same.warnings]⟩
  | some setException =>
      exact ⟨by simp [same.methods],
        by simp [guards_guardHandovers, same.guards, offers.handovers],
        same.warnings⟩

/-- The bodies of state machines among some types look the same to a second run. -/
def LooksSame
    (context : MethodContext) (types : List TypeId)
    (bodies later : Bodies) : Prop :=
  ∀ moveNext, context.IsMoveNext types moveNext →
    ∀ body, bodies.get? moveNext = some body →
      ∃ second, later.get? moveNext = some second ∧
        context.graph.OffersSame body second

/-- A state machine that was gone through is gone through again. -/
theorem exists_repeated_guardStateMachine
    {type : TypeId} (looks : context.LooksSame [type] bodies later)
    {progress again reached : AsyncProgress}
    (same : progress.Repeats again)
    (ran : (context.guardStateMachine bodies debugBuild payload type).run
      progress = (.ok (), reached)) :
    ∃ repeated,
      (context.guardStateMachine later debugBuild payload type).run
          again = (.ok (), repeated) ∧
        reached.Repeats repeated := by
  rw [run_guardStateMachine] at ran ⊢
  cases machine : context.graph.isAsyncStateMachine type with
  | false =>
      rw [machine] at ran
      cases ran
      exact ⟨again, rfl, same⟩
  | true =>
      rw [machine, if_pos rfl] at ran
      rw [if_pos rfl]
      cases found : context.graph.findMethod? type "MoveNext" 0 with
      | none =>
          rw [found] at ran
          cases ran
      | some moveNext =>
          rw [found] at ran
          have pending : ∀ some : AsyncProgress,
              some.pending.any (·.1 == moveNext) =
                (some.pending.map (·.1)).any (· == moveNext) := by
            intro some
            rw [List.any_map]
            rfl
          dsimp only at ran ⊢
          rw [pending] at ran ⊢
          rw [same.methods]
          split at ran
          · rename_i done
            cases ran
            exact ⟨again, by rw [if_pos done], same⟩
          · rename_i fresh
            rw [if_neg fresh]
            cases present : bodies.get? moveNext with
            | none =>
                rw [present] at ran
                cases ran
            | some body =>
                rw [present] at ran
                cases ran
                obtain ⟨second, there, offers⟩ :=
                  looks moveNext
                    ⟨type, List.mem_singleton.mpr rfl, machine, found⟩
                    body present
                rw [there]
                exact ⟨_, rfl, repeats_afterMachine same offers moveNext⟩

/-- State machines that were gone through are gone through again. -/
theorem exists_repeated_guardStateMachines
    {types : List TypeId} (looks : context.LooksSame types bodies later)
    {progress again reached : AsyncProgress}
    (same : progress.Repeats again)
    (ran : (types.forM
      (context.guardStateMachine bodies debugBuild payload)).run
        progress = (.ok (), reached)) :
    ∃ repeated,
      (types.forM
        (context.guardStateMachine later debugBuild payload)).run again =
          (.ok (), repeated) ∧
        reached.Repeats repeated := by
  induction types generalizing progress again with
  | nil =>
      cases ran
      exact ⟨again, rfl, same⟩
  | cons type rest inductionHypothesis =>
      have here : context.LooksSame [type] bodies later := by
        rintro moveNext ⟨other, member, isMachine⟩
        cases List.mem_singleton.mp member
        exact looks moveNext ⟨type, List.mem_cons_self .., isMachine⟩
      have behind : context.LooksSame rest bodies later := by
        rintro moveNext ⟨other, member, isMachine⟩
        exact looks moveNext
          ⟨other, List.mem_cons_of_mem _ member, isMachine⟩
      change (context.guardStateMachine bodies debugBuild payload type >>=
        fun _ => rest.forM _).run progress = _ at ran
      obtain ⟨_, between, first, onwards⟩ := run_bind_eq_ok ran
      obtain ⟨repeated, firstAgain, sameBetween⟩ :=
        exists_repeated_guardStateMachine here same first
      obtain ⟨final, onwardsAgain, sameFinal⟩ :=
        inductionHypothesis behind sameBetween onwards
      refine ⟨final, ?_, sameFinal⟩
      change (context.guardStateMachine later debugBuild payload type >>=
        fun _ => rest.forM _).run again = _
      rw [run_bind, firstAgain]
      exact onwardsAgain

/-! ## What a first run leaves to the second -/

section FirstRun

variable
    {settings : Settings} {body : MethodBody} {progress : AsyncProgress}
    {types : List TypeId}

/-- Once new bodies are in place, the state machines look as they did. -/
theorem HasMade.looksSame
    (made : context.HasMade bodies debugBuild payload types progress)
    (includes : context.graph.IncludesSystem)
    (written : context.graph.isGeneratedMethod context.method = false)
    (wellFormed : ∀ moveNext body, context.IsMoveNext types moveNext →
      bodies.get? moveNext = some body → body.WellFormed)
    (own : MethodBody) :
    context.LooksSame types bodies
      (progress.pending.foldl
        (fun bodies entry => bodies.set entry.1 entry.2)
        (bodies.set context.method own)) := by
  intro moveNext machine body present
  have other : moveNext ≠ context.method := by
    rintro rfl
    cases written.symm.trans machine.isGenerated
  cases reports : context.graph.faultReport? body with
  | none =>
      refine ⟨body, ?_, rfl, rfl⟩
      rw [made.get?_of_not_reports fun _ => ⟨body, present, reports⟩,
        Bodies.get?_set_of_ne _ _ other, present]
  | some setException =>
      exact ⟨_, made.get?_of_reports machine present reports _,
        offersSame_guardHandovers includes
          (wellFormed moveNext body machine present) reports⟩

theorem machineTypes_wovenBody
    (settings : Settings) (wellFormed : body.WellFormed) :
    context.machineTypes (context.wovenBody settings body) =
      context.machineTypes body := by
  obtain ⟨layout, lays⟩ := context.exists_layout settings wellFormed
  have same : (context.wovenBody settings body).locals = body.locals :=
    lays.woven.locals
  rw [machineTypes, machineTypes, localTypes, localTypes, same]

end FirstRun

end MethodContext

namespace Weaver

/-! ## What a run on a method tells -/

variable
    {settings : Settings} {context : MethodContext} {body : MethodBody}

/-- What a run on the body of a method leaves and tells. -/
structure Leaves
    (settings : Settings) (context : MethodContext) (body : MethodBody)
    (progress : AsyncProgress) (state final : WeaveState) : Prop where
  bodies :
    final.bodies =
      progress.pending.foldl
        (fun bodies entry => bodies.set entry.1 entry.2)
        (state.bodies.set context.method (context.wovenBody settings body))
  processed :
    final.report.methodsProcessed = state.report.methodsProcessed + 1
  guards :
    final.report.guardsInjected =
      state.report.guardsInjected +
        ((context.guardBody settings body).guards + progress.guards)
  warnings :
    final.report.warnings = state.report.warnings ++ progress.warnings

/-- Where its state machines can be gone through, a method gets woven. -/
theorem exists_leaves
    {state : WeaveState} {progress : AsyncProgress}
    (through : ((context.machineTypes body).forM
      (context.guardStateMachine state.bodies settings.debugBuild
        (context.graph.asyncPayload context.decl.returnType))).run {} =
          (.ok (), progress)) :
    ∃ final,
      (weaveBody settings context body).run state = (.ok (), final) ∧
        Leaves settings context body progress state final := by
  rw [weaveBody_eq, run_bind]
  change ∃ final,
    (guardMachines settings context body >>=
      finishMethod settings context body).run
        { state with
          log := state.log ++ (context.guardEntry settings body).log } =
      (.ok (), final) ∧ _
  rw [run_bind, run_guardMachines]
  dsimp only
  rw [through]
  exact ⟨_, rfl, rfl, rfl, rfl, rfl⟩

/-- A method gets woven only where its state machines can be gone through. -/
theorem exists_progress_of_run
    {state final : WeaveState}
    (ran : (weaveBody settings context body).run state =
      (.ok (), final)) :
    ∃ progress,
      ((context.machineTypes body).forM
        (context.guardStateMachine state.bodies settings.debugBuild
          (context.graph.asyncPayload context.decl.returnType))).run {} =
            (.ok (), progress) ∧
        Leaves settings context body progress state final := by
  obtain ⟨entered, same, run⟩ := run_weaveBody settings context body state
  rw [run, run_guardMachines, same] at ran
  rcases through : ((context.machineTypes body).forM
      (context.guardStateMachine state.bodies settings.debugBuild
        (context.graph.asyncPayload context.decl.returnType))).run {} with
    ⟨failure | _, progress⟩
  · rw [through] at ran
    cases ran
  · obtain ⟨reached, went, leaves⟩ := exists_leaves through
    rw [run, run_guardMachines, same, through] at went
    rw [through] at ran
    cases went.symm.trans ran
    exact ⟨progress, rfl, leaves⟩

/-! ## Two runs on a method -/

/-- What two runs on a method, one after the other, make of its body. -/
structure WeavesTwice
    (settings : Settings) (context : MethodContext) (body : MethodBody)
    (state first second : WeaveState) : Prop where
  woven :
    first.bodies.get? context.method =
      some (context.wovenBody settings body)
  again :
    second.bodies.get? context.method =
      some (context.wovenBody settings (context.wovenBody settings body))
  /-- The entry guards of the first run open the body that the second run leaves. -/
  opens : ∃ row added : GuardRow,
    row.map (·.guard) = context.entryGuards settings body ∧
      added.map (·.guard) =
        context.entryGuards settings (context.wovenBody settings body) ∧
      row.Opens settings.debugBuild (context.wovenBody settings body) ∧
      GuardRow.Opens (added ++ row) settings.debugBuild
        (context.wovenBody settings (context.wovenBody settings body))
  /--
  An entry guard of the second run is one of a parameter that lost its guard at
  a return, never one of the value given to a setter.
  -/
  lost : ∀ guard ∈ context.entryGuards settings
      (context.wovenBody settings body),
    ∃ entry, context.LosesGuard settings body entry ∧
      context.isSetterValue entry = false ∧
      guard = context.entryGuard entry ∧
      ∃ earlier constructor later,
        operationsOf body.instructions =
          earlier ++ .ldStr entry.1.name :: .ret ::
            .newObj constructor :: .throw :: later
  /-- Every such parameter gets one. -/
  renewed : ∀ entry, context.LosesGuard settings body entry →
    ∃ guard ∈ context.entryGuards settings
        (context.wovenBody settings body),
      guard.failure = .argumentNull entry.1.name
  /-- Apart from entry guards, both runs put in equally many guards. -/
  guards : ∃ results,
    first.report.guardsInjected =
        state.report.guardsInjected +
          ((context.entryGuards settings body).length + results) ∧
      second.report.guardsInjected =
        first.report.guardsInjected +
          ((context.entryGuards settings
            (context.wovenBody settings body)).length + results)
  /-- Both runs tell the same warnings. -/
  warnings : ∃ warnings,
    first.report.warnings = state.report.warnings ++ warnings ∧
      second.report.warnings = first.report.warnings ++ warnings

/-- The body that a method gets stays in place when those of its state machines get there. -/
theorem Leaves.get?_own
    {state final : WeaveState} {progress : AsyncProgress}
    (leaves : Leaves settings context body progress state final)
    (written : context.graph.isGeneratedMethod context.method = false)
    (through : ((context.machineTypes body).forM
      (context.guardStateMachine state.bodies settings.debugBuild
        (context.graph.asyncPayload context.decl.returnType))).run {} =
          (.ok (), progress)) :
    final.bodies.get? context.method =
      some (context.wovenBody settings body) := by
  have made := MethodContext.hasMade_of_run through
  rw [leaves.bodies, made.get?_of_not_reports, Bodies.get?_set_self]
  intro machine
  cases written.symm.trans machine.isGenerated

theorem exists_weavesTwice
    {state first : WeaveState}
    (includes : context.graph.IncludesSystem)
    (names : context.graph.NamesSystemTypes)
    (written : context.graph.isGeneratedMethod context.method = false)
    (wellFormed : ∀ method body,
      state.bodies.get? method = some body → body.WellFormed)
    (present : state.bodies.get? context.method = some body)
    (ran : (weaveBody settings context body).run state =
      (.ok (), first)) :
    ∃ second,
      (weaveBody settings context (context.wovenBody settings body)).run
          first = (.ok (), second) ∧
        WeavesTwice settings context body state first second := by
  have whole := wellFormed context.method body present
  have later := context.wellFormed_wovenBody settings whole
  obtain ⟨progress, through, leaves⟩ := exists_progress_of_run ran
  have looks :
      context.LooksSame (context.machineTypes body) state.bodies
        first.bodies := by
    rw [leaves.bodies]
    exact (MethodContext.hasMade_of_run through).looksSame includes
      written (fun method body _ => wellFormed method body) _
  obtain ⟨repeated, throughAgain, same⟩ :=
    MethodContext.exists_repeated_guardStateMachines looks
      (⟨rfl, rfl, rfl⟩ : AsyncProgress.Repeats {} {}) through
  rw [← MethodContext.machineTypes_wovenBody settings whole]
    at throughAgain
  obtain ⟨second, ranAgain, leavesAgain⟩ := exists_leaves throughAgain
  obtain ⟨lost, renewed⟩ :=
    context.entryGuards_again settings includes names whole
  refine ⟨second, ranAgain,
    { woven := leaves.get?_own written through
      again := leavesAgain.get?_own written throughAgain
      opens := context.exists_rows_open settings whole
      lost := ?_
      renewed
      guards := ?_
      warnings := ?_ }⟩
  · intro guard member
    obtain ⟨entry, loses, other, isGuard⟩ := lost guard member
    exact ⟨entry, loses, other, isGuard, loses.exists_return⟩
  · refine ⟨context.exitGuards.length *
      countOperations Operation.isRet body.instructions +
        progress.guards, ?_, ?_⟩
    · rw [leaves.guards, MethodContext.guards_guardBody settings whole,
        Nat.add_assoc]
    · rw [leavesAgain.guards,
        MethodContext.guards_guardBody settings later,
        MethodContext.countOperations_isRet_wovenBody settings whole,
        same.guards, Nat.add_assoc]
  · exact ⟨progress.warnings, leaves.warnings,
      same.warnings ▸ leavesAgain.warnings⟩

/--
A second run on a method of a loaded program succeeds where the first one did,
and repeats the guards of results only: it puts in as many guards as the first
run but for entry guards, with the same warnings, and leaves the entry guards in
place.  It adds an entry guard for a parameter only if the original body seemed
to guard the parameter by operations with a return in the place of the message,
and a guard before that return came between them.
-/
theorem weaveMethod_repeats_result_guards
    (settings : Settings) (context : MethodContext)
    {program : Program} (loaded : program.Loaded)
    (same : context.graph = program.graph)
    (state first : WeaveState)
    (start : state.bodies = program.bodies)
    (resolved : NullPolicy.resolve context.graph settings
      context.method = .ok context.policy)
    (written : context.graph.isGeneratedMethod context.method = false)
    (ran :
      (weaveMethod context.graph settings context.method).run state =
        (.ok (), first)) :
    ∃ second,
      (weaveMethod context.graph settings context.method).run first =
          (.ok (), second) ∧
        (context.policy.isVisible context.graph context.decl = false ∨
            program.bodies.get? context.method = none →
          (first.bodies = state.bodies ∧ first.report = state.report) ∧
            second.bodies = first.bodies ∧
              second.report = first.report) ∧
        ∀ body,
          context.policy.isVisible context.graph context.decl = true →
            program.bodies.get? context.method = some body →
              WeavesTwice settings context body state first second := by
  have includes := same ▸ loaded.includesSystem
  have names := same ▸ loaded.namesSystemTypes
  have wellFormed : ∀ method body,
      state.bodies.get? method = some body → body.WellFormed := by
    intro method body present
    rw [start] at present
    exact (loaded.asRead present).wellFormed
  rw [← start]
  by_cases unwoven :
      context.policy.isVisible context.graph context.decl = false ∨
        state.bodies.get? context.method = none
  · obtain ⟨reached, went, bodies, report⟩ :=
      run_weaveMethod_of_unwoven resolved unwoven
    cases went.symm.trans ran
    obtain ⟨second, wentAgain, bodiesAgain, reportAgain⟩ :=
      run_weaveMethod_of_unwoven resolved
        (unwoven.imp_right fun absent => bodies ▸ absent)
    refine ⟨second, wentAgain,
      fun _ => ⟨⟨bodies, report⟩, bodiesAgain, reportAgain⟩, ?_⟩
    intro body visible present
    rcases unwoven with hidden | absent
    · rw [visible] at hidden
      cases hidden
    · rw [present] at absent
      cases absent
  · obtain ⟨visible, presence⟩ := not_or.mp unwoven
    rw [Bool.not_eq_false] at visible
    obtain ⟨body, present⟩ := Option.ne_none_iff_exists'.mp presence
    rw [run_weaveMethod_of_visible resolved visible present] at ran
    obtain ⟨second, ranAgain, twice⟩ :=
      exists_weavesTwice includes names written wellFormed present ran
    refine ⟨second, ?_, fun other => absurd other unwoven, ?_⟩
    · rw [run_weaveMethod_of_visible resolved visible twice.woven]
      exact ranAgain
    · intro other _ there
      cases present.symm.trans there
      exact twice

end Weaver

/-! ## A method that gives its argument back, woven twice -/

namespace EchoProgram

def context : MethodContext where
  graph
  method := echo
  policy := { flags := .allPublic, explicitMode := false }

/--
The method checks its argument by hand, and gives back a text that is the name
of the argument.  Behind the return stands the end of the check.
-/
def textNaming : BodyText where
  items :=
    [.instruction 1 "ldarg" [.name "text"],
      .instruction 2 "brtrue" [.name "given"],
      .instruction 3 "ldstr" [.str "text"],
      .instruction 4 "ldstr" [.str "The text is missing."],
      .instruction 5 "br" [.name "fail"],
      .label 6 "given",
      .instruction 7 "ldstr" [.str "text"],
      .instruction 8 "ret" [],
      .label 9 "fail",
      .instruction 10 "newobj"
        [.name "System.ArgumentNullException", .doubleColon,
          .name ".ctor", .mark '(', .name "string", .mark ',',
          .name "string", .mark ')'],
      .instruction 11 "throw" []]

def bodyNaming : MethodBody :=
  ((readBody graph (graph.method echo) 1 textNaming).toOption).getD {}

def programNaming : Program :=
  ({ graph } : Program).setBody echo bodyNaming

theorem bodyNaming_read :
    readBody graph (graph.method echo) 1 textNaming = .ok bodyNaming := by
  have well :
      (readBody graph (graph.method echo) 1 textNaming).isOk = true := by
    decide +kernel
  unfold bodyNaming
  cases read : readBody graph (graph.method echo) 1 textNaming with
  | error failure =>
      rw [read] at well
      cases well
  | ok body =>
      rfl

theorem loadedNaming : programNaming.Loaded :=
  ((Program.Loaded.initial.addType _).addMethod _).setBody bodyNaming_read

end EchoProgram

open EchoProgram in
/-- The argument and the result are guarded first, then the result once more. -/
theorem Weaver.weaveMethod_repeats_result_guards_echo :
    ∃ first second : WeaveState,
      (weaveMethod graph {} echo).run { bodies := program.bodies } =
          (.ok (), first) ∧
        (weaveMethod graph {} echo).run first = (.ok (), second) ∧
        first.report.guardsInjected = 2 ∧
        second.report.guardsInjected = 3 := by
  have ran :=
    run_eq_of_isOk
      (show ((weaveMethod graph {} echo).run
        { bodies := program.bodies }).1.isOk = true by decide +kernel)
  have counted :
      ((weaveMethod graph {} echo).run
        { bodies := program.bodies }).2.report.guardsInjected = 2 := by
    decide +kernel
  have entered : (context.entryGuards {} body).length = 1 := by
    decide +kernel
  have quiet :
      (operationsOf body.instructions).any throwsException = false := by
    decide +kernel
  obtain ⟨second, ranAgain, -, twice⟩ :=
    weaveMethod_repeats_result_guards {} context loaded rfl
      { bodies := program.bodies } _ rfl rfl (by decide +kernel) ran
  have twice :=
    twice body (by decide +kernel) (Bodies.get?_set_self _ _ _)
  have nothing :
      context.entryGuards {} (context.wovenBody {} body) = [] := by
    refine List.eq_nil_iff_forall_not_mem.mpr fun guard member => ?_
    obtain ⟨entry, -, -, -, earlier, constructor, later, split⟩ :=
      twice.lost guard member
    rw [split] at quiet
    simp [throwsException] at quiet
  obtain ⟨results, first, again⟩ := twice.guards
  rw [counted] at first again
  rw [nothing] at again
  rw [entered] at first
  refine ⟨_, second, ran, ranAgain, counted, ?_⟩
  simp only [List.length_nil] at again first
  omega

open EchoProgram in
/--
An argument that seemed to be guarded gets an entry guard in the second run,
which puts in two guards where the first one put in one, before the return.
-/
theorem Weaver.entry_guard_added_by_second_run :
    programNaming.Loaded ∧
      (bodyNaming.checkDepths graph true).isOk = true ∧
      graph.isGeneratedMethod echo = false ∧
      ∃ first second : WeaveState,
        (weaveMethod graph {} echo).run
            { bodies := programNaming.bodies } = (.ok (), first) ∧
          (weaveMethod graph {} echo).run first = (.ok (), second) ∧
          context.entryGuards {} bodyNaming = [] ∧
          first.report.guardsInjected = 1 ∧
          second.report.guardsInjected = 3 := by
  have ran :=
    run_eq_of_isOk
      (show ((weaveMethod graph {} echo).run
        { bodies := programNaming.bodies }).1.isOk = true by
          decide +kernel)
  have ranAgain :=
    run_eq_of_isOk
      (show ((weaveMethod graph {} echo).run
        ((weaveMethod graph {} echo).run
          { bodies := programNaming.bodies }).2).1.isOk = true by
            decide +kernel)
  have entered : (context.entryGuards {} bodyNaming).length = 0 := by
    decide +kernel
  exact ⟨loadedNaming, by decide +kernel, by decide +kernel, _, _, ran,
    ranAgain,
    List.length_eq_zero_iff.mp entered, by decide +kernel,
    by decide +kernel⟩

end NullWeave
