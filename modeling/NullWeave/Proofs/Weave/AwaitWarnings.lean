import NullWeave.Proofs.Weave.MethodOrder

/-!
# State machines that cannot report a failure

A method tells a warning for a state machine among the types of its local
variables whose `MoveNext` hands no failure to a builder.  Of the state machines
it remembers those that get a new body, so each of them gets one only once.  One
that it only warns about is not remembered: it is warned about again at every
other local variable of its type.
-/

namespace NullWeave

namespace MethodContext

variable
    {context : MethodContext} {bodies : Bodies} {debugBuild : Bool}
    {payload : Signature} {types : List TypeId} {type : TypeId}

/-- What a state machine runs, if that is there but cannot report a failure. -/
def silentMoveNext?
    (context : MethodContext) (bodies : Bodies) (type : TypeId) :
    Option MethodId :=
  if context.graph.isAsyncStateMachine type then
    (context.graph.findMethod? type "MoveNext" 0).filter fun moveNext =>
      (bodies.get? moveNext).any fun body =>
        (context.graph.faultReport? body).isNone
  else
    none

/-- What the state machines among types run that cannot report a failure, one for each type. -/
def silentMoveNexts
    (context : MethodContext) (bodies : Bodies) (types : List TypeId) :
    List MethodId :=
  types.filterMap (context.silentMoveNext? bodies)

theorem silentMoveNext?_eq_some_iff {moveNext : MethodId} :
    context.silentMoveNext? bodies type = some moveNext ↔
      context.graph.isAsyncStateMachine type = true ∧
        context.graph.findMethod? type "MoveNext" 0 = some moveNext ∧
          ∃ body, bodies.get? moveNext = some body ∧
            context.graph.faultReport? body = none := by
  simp [silentMoveNext?, Option.filter_eq_some_iff, Option.any_eq_true]

/-- Different types run different methods, so a method occurs twice only if its type does. -/
theorem nodup_silentMoveNexts_iff :
    (context.silentMoveNexts bodies types).Nodup ↔
      (types.filter fun type =>
        (context.silentMoveNext? bodies type).isSome).Nodup := by
  constructor
  · intro distinct
    have shown :
        (context.silentMoveNexts bodies types).map some =
          (types.filter fun type =>
            (context.silentMoveNext? bodies type).isSome).map
              (context.silentMoveNext? bodies) := by
      rw [silentMoveNexts, List.map_filterMap_some_eq_filter_map_isSome,
        List.filter_map]
      rfl
    refine List.Nodup.of_map (context.silentMoveNext? bodies) ?_
    rw [← shown]
    exact distinct.map fun _ _ => Option.some.inj
  · intro distinct
    have shown :
        context.silentMoveNexts bodies types =
          (types.filter fun type =>
            (context.silentMoveNext? bodies type).isSome).filterMap
              (context.silentMoveNext? bodies) := by
      rw [silentMoveNexts, List.filterMap_filter]
      refine List.filterMap_congr fun type _ => ?_
      cases context.silentMoveNext? bodies type <;> rfl
    rw [shown]
    refine distinct.filterMap fun first second moveNext here there => ?_
    exact Graph.eq_of_findMethod?
      (silentMoveNext?_eq_some_iff.mp here).2.1
      (silentMoveNext?_eq_some_iff.mp there).2.1

/-! ## Warnings told on the way -/

/-- One warning for each method of some. -/
def warningsFor
    (context : MethodContext) (moveNexts : List MethodId) : List String :=
  moveNexts.map fun _ => context.noAwaitWarning

/-- A state machine is warned about exactly if it cannot report a failure. -/
theorem HasMade.warnings_of_run
    {progress reached : AsyncProgress}
    (made : context.HasMade bodies debugBuild payload types progress)
    (ran : (context.guardStateMachine bodies debugBuild payload type).run
      progress = (.ok (), reached)) :
    reached.warnings =
      progress.warnings ++
        context.warningsFor (context.silentMoveNexts bodies [type]) := by
  rw [run_guardStateMachine] at ran
  split at ran
  case isFalse other =>
    cases ran
    simp [silentMoveNexts, silentMoveNext?, other, warningsFor]
  case isTrue machine =>
    cases found : context.graph.findMethod? type "MoveNext" 0 with
    | none =>
        rw [found] at ran
        cases ran
    | some moveNext =>
        rw [found] at ran
        dsimp only at ran
        split at ran
        case isTrue again =>
          -- What was remembered got a new body, so it can report a failure.
          cases ran
          obtain ⟨entry, pending, same⟩ := List.any_eq_true.mp again
          obtain ⟨-, body, setException, present, reports, -⟩ :=
            made.made entry pending
          rw [beq_iff_eq.mp same] at present
          simp [silentMoveNexts, silentMoveNext?, machine, found, present,
            reports, warningsFor, Option.filter]
        case isFalse fresh =>
          cases present : bodies.get? moveNext with
          | none =>
              rw [present] at ran
              cases ran
          | some body =>
              rw [present] at ran
              cases ran
              cases reports : context.graph.faultReport? body <;>
                simp [silentMoveNexts, silentMoveNext?, machine, found,
                  present, reports, warningsFor, afterMachine,
                  Option.filter]

/-- What going through some types has made and told. -/
structure HasTold
    (context : MethodContext) (bodies : Bodies) (debugBuild : Bool)
    (payload : Signature) (types : List TypeId)
    (progress : AsyncProgress) : Prop where
  made : context.HasMade bodies debugBuild payload types progress
  warnings :
    progress.warnings =
      context.warningsFor (context.silentMoveNexts bodies types)

theorem HasTold.step
    {progress reached : AsyncProgress}
    (told : context.HasTold bodies debugBuild payload types progress)
    (ran : (context.guardStateMachine bodies debugBuild payload type).run
      progress = (.ok (), reached)) :
    context.HasTold bodies debugBuild payload (types ++ [type])
      reached where
  made := told.made.step ran
  warnings := by
    rw [told.made.warnings_of_run ran, told.warnings, silentMoveNexts,
      silentMoveNexts, silentMoveNexts, List.filterMap_append, warningsFor,
      warningsFor, warningsFor, List.map_append]

theorem hasTold_of_run
    {progress : AsyncProgress}
    (ran : (types.forM
      (context.guardStateMachine bodies debugBuild payload)).run {} =
        (.ok (), progress)) :
    context.HasTold bodies debugBuild payload types progress :=
  run_forM_induction
    (fun _ _ _ _ told ran => HasTold.step told ran) ⟨.start, rfl⟩ ran

/-- A failure ends the way through types, with what the types before it made and told. -/
theorem exists_hasTold_of_run
    {result : Except CodeError Unit} {progress : AsyncProgress}
    (ran : (types.forM
      (context.guardStateMachine bodies debugBuild payload)).run {} =
        (result, progress)) :
    ∃ passed rest, types = passed ++ rest ∧
      (result.isOk = true → rest = []) ∧
        context.HasTold bodies debugBuild payload passed progress := by
  rcases result with failure | _
  · obtain ⟨before, type, after, reached, split, well, failed⟩ :=
      run_forM_eq_error ran
    have still : progress = reached := by
      rw [run_guardStateMachine] at failed
      split at failed
      · split at failed
        · cases failed
          rfl
        · split at failed
          · cases failed
          · split at failed <;> cases failed
            rfl
      · cases failed
    rw [still]
    exact ⟨before, type :: after, split, nofun, hasTold_of_run well⟩
  · exact ⟨types, [], types.append_nil.symm, fun _ => rfl,
      hasTold_of_run ran⟩

end MethodContext

namespace Weaver

variable
    {settings : Settings} {context : MethodContext} {body : MethodBody}
    {state final : WeaveState}

/-- Whatever comes of weaving a body, its warnings are those told about its state machines. -/
theorem exists_told_of_run
    {result : Except WeaveError Unit}
    (ran : (weaveBody settings context body).run state =
      (result, final)) :
    ∃ (passage : Except CodeError Unit) (progress : AsyncProgress),
      ((context.machineTypes body).forM
        (context.guardStateMachine state.bodies settings.debugBuild
          (context.graph.asyncPayload context.decl.returnType))).run {} =
            (passage, progress) ∧
        passage.isOk = result.isOk ∧
          final.report.warnings =
            state.report.warnings ++ progress.warnings ∧
            final.bodies =
              if result.isOk then
                progress.pending.foldl
                  (fun bodies entry => bodies.set entry.1 entry.2)
                  (state.bodies.set context.method
                    (context.wovenBody settings body))
              else
                state.bodies := by
  rcases through : ((context.machineTypes body).forM
      (context.guardStateMachine state.bodies settings.debugBuild
        (context.graph.asyncPayload context.decl.returnType))).run {} with
    ⟨failure | _, progress⟩
  · refine ⟨.error failure, progress, rfl, ?_⟩
    rw [weaveBody_eq, run_bind] at ran
    change (guardMachines settings context body >>=
      finishMethod settings context body).run
        { state with
          log := state.log ++ (context.guardEntry settings body).log } =
      (result, final) at ran
    rw [run_bind, run_guardMachines] at ran
    dsimp only at ran
    rw [through] at ran
    cases ran
    exact ⟨rfl, rfl, rfl⟩
  · obtain ⟨reached, went, leaves⟩ := exists_leaves through
    cases went.symm.trans ran
    exact ⟨.ok (), progress, rfl, rfl, leaves.warnings, leaves.bodies⟩

/--
A state machine gets at most one new body, and may be warned about several times.

Weaving a method goes through the types of its local variables, to the end if
nothing fails.  For each of these types whose state machine cannot report a
failure it tells one warning.  So it tells at most one for each `MoveNext`
exactly if no such type occurs twice among them.
-/
theorem weaveMethod_warns
    (settings : Settings) (context : MethodContext) (body : MethodBody)
    (state final : WeaveState) (result : Except WeaveError Unit)
    (resolved : NullPolicy.resolve context.graph settings
      context.method = .ok context.policy)
    (visible :
      context.policy.isVisible context.graph context.decl = true)
    (present : state.bodies.get? context.method = some body)
    (ran :
      (weaveMethod context.graph settings context.method).run state =
        (result, final)) :
    ∃ passed rest, context.machineTypes body = passed ++ rest ∧
      (result.isOk = true → rest = []) ∧
      final.report.warnings =
        state.report.warnings ++
          context.warningsFor
            (context.silentMoveNexts state.bodies passed) ∧
      ((∀ moveNext,
          (context.silentMoveNexts state.bodies passed).count moveNext
            ≤ 1) ↔
        (passed.filter fun type =>
          (context.silentMoveNext? state.bodies type).isSome).Nodup) ∧
      ∃ pending : List (MethodId × MethodBody),
        (pending.map (·.1)).Nodup ∧
          final.bodies =
            if result.isOk then
              pending.foldl
                (fun bodies entry => bodies.set entry.1 entry.2)
                (state.bodies.set context.method
                  (context.wovenBody settings body))
            else
              state.bodies := by
  rw [run_weaveMethod_of_visible resolved visible present] at ran
  obtain ⟨passage, progress, through, same, warnings, bodies⟩ :=
    exists_told_of_run ran
  obtain ⟨passed, rest, split, finished, told⟩ :=
    MethodContext.exists_hasTold_of_run through
  rw [same] at finished
  rw [told.warnings] at warnings
  exact ⟨passed, rest, split, finished, warnings,
    List.nodup_iff_count_le_one.symm.trans
      MethodContext.nodup_silentMoveNexts_iff,
    progress.pending, told.made.distinct, bodies⟩

end Weaver

/-! ## Two local variables -/

namespace TwoMachines

/-- A `MoveNext` that only returns. -/
def silentMoveNext : MethodBody :=
  MethodBody.append {} [.ret]

end TwoMachines

open TwoMachines in
/-- Of two state machines, one gets a new body and one is warned about. -/
theorem Weaver.weaveMethod_warns_twoTasks :
    let tasks : MethodContext := { context with graph := TwoTasks.graph }
    let state : WeaveState :=
      { bodies :=
          ((({} : Bodies).set ⟨13⟩ body).set ⟨14⟩ moveNext).set ⟨16⟩
            silentMoveNext }
    ∃ final,
      (weaveMethod TwoTasks.graph {} ⟨13⟩).run state = (.ok (), final) ∧
        final.report.warnings = [tasks.noAwaitWarning] ∧
        ∀ moveNext,
          (tasks.silentMoveNexts state.bodies
            (tasks.machineTypes body)).count moveNext ≤ 1 := by
  intro tasks state
  have ran :=
    run_eq_of_isOk
      (show ((weaveMethod TwoTasks.graph {} ⟨13⟩).run
        state).1.isOk = true by decide +kernel)
  obtain ⟨passed, rest, split, finished, warnings, once, -⟩ :=
    weaveMethod_warns {} tasks body state _ _ rfl (by decide +kernel) rfl
      ran
  obtain rfl := finished rfl
  obtain rfl := (List.append_nil passed).symm.trans split.symm
  have silent :
      tasks.silentMoveNexts state.bodies (tasks.machineTypes body) =
        [⟨16⟩] := by
    decide +kernel
  refine ⟨_, ran, ?_, once.mpr (by decide +kernel)⟩
  rw [warnings, silent]
  rfl

open TwoMachines in
/-- A state machine that two local variables name is warned about twice. -/
theorem Weaver.machine_warned_twice :
    ((weaveMethod graph {} context.method).run
        (stateRunning silentMoveNext)).1.isOk = true ∧
      ((weaveMethod graph {} context.method).run
        (stateRunning silentMoveNext)).2.report.warnings =
          [context.noAwaitWarning, context.noAwaitWarning] ∧
      context.silentMoveNexts (stateRunning silentMoveNext).bodies
        (context.machineTypes bodyNamingTwice) = [⟨14⟩, ⟨14⟩] := by
  decide +kernel

end NullWeave
