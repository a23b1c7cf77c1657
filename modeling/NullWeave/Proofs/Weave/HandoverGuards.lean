import NullWeave.Proofs.Weave.Failure
import NullWeave.Proofs.Weave.Handover

/-!
# Results of asynchronous methods are guarded once

The local variables of a method name state machines, one perhaps several times.
Going through them makes one new body of each that can report a failure.  All
of them are put in place when the method has succeeded, and no other body but
that of the method itself changes.
-/

namespace NullWeave

/-! ## Bodies put in place in order -/

namespace Bodies

theorem get?_foldl_set_of_not_mem
    {entries : List (MethodId × MethodBody)} {method : MethodId}
    (absent : method ∉ entries.map (·.1)) (bodies : Bodies) :
    (entries.foldl (fun bodies entry => bodies.set entry.1 entry.2)
        bodies).get? method =
      bodies.get? method := by
  induction entries generalizing bodies with
  | nil =>
      rfl
  | cons entry rest inductionHypothesis =>
      simp only [List.map_cons, List.mem_cons, not_or] at absent
      rw [List.foldl_cons, inductionHypothesis absent.2,
        get?_set_of_ne _ _ absent.1]

theorem get?_foldl_set_of_mem
    {entries : List (MethodId × MethodBody)}
    (distinct : (entries.map (·.1)).Nodup)
    {entry : MethodId × MethodBody} (member : entry ∈ entries)
    (bodies : Bodies) :
    (entries.foldl (fun bodies entry => bodies.set entry.1 entry.2)
        bodies).get? entry.1 =
      some entry.2 := by
  induction entries generalizing bodies with
  | nil =>
      simp at member
  | cons first rest inductionHypothesis =>
      rw [List.map_cons, List.nodup_cons] at distinct
      rw [List.foldl_cons]
      rcases List.mem_cons.mp member with rfl | later
      · rw [get?_foldl_set_of_not_mem distinct.1, get?_set_self]
      · exact inductionHypothesis distinct.2 later _

end Bodies

/-! ## State machines among types -/

namespace MethodContext

/-- Is a method the one that a state machine among some types runs? -/
def IsMoveNext
    (context : MethodContext) (types : List TypeId)
    (method : MethodId) : Prop :=
  ∃ type ∈ types,
    context.graph.isAsyncStateMachine type = true ∧
      context.graph.findMethod? type "MoveNext" 0 = some method

/-- The types of the local variables of a body. -/
def localTypes (body : MethodBody) : List TypeId :=
  body.locals.filterMap (·.type.definition?)

/-- Does a method produce a value later that has to be checked? -/
def ChecksHandovers (context : MethodContext) : Prop :=
  context.shape = .asyncStateMachine ∧
    context.policy.checksResult context.graph context.decl
      (context.graph.asyncPayload context.decl.returnType) = true

instance (context : MethodContext) : Decidable context.ChecksHandovers :=
  inferInstanceAs (Decidable (_ ∧ _))

/-- The types among which state machines of a method are looked for. -/
def machineTypes
    (context : MethodContext) (body : MethodBody) : List TypeId :=
  if context.ChecksHandovers then localTypes body else []

variable
    {context : MethodContext} {bodies : Bodies} {debugBuild : Bool}
    {payload : Signature} {types : List TypeId}

theorem isMoveNext_snoc {type : TypeId} {method : MethodId} :
    context.IsMoveNext (types ++ [type]) method ↔
      context.IsMoveNext types method ∨
        context.graph.isAsyncStateMachine type = true ∧
          context.graph.findMethod? type "MoveNext" 0 = some method := by
  simp [IsMoveNext, or_and_right, exists_or]

/-- State machines are looked for where handovers are checked, among the types of locals. -/
theorem isMoveNext_machineTypes_iff
    {body : MethodBody} {method : MethodId} :
    context.IsMoveNext (context.machineTypes body) method ↔
      context.ChecksHandovers ∧
        context.IsMoveNext (localTypes body) method := by
  unfold machineTypes
  split
  · rename_i checks
    simp [checks]
  · rename_i unchecked
    simp [unchecked, IsMoveNext]

/-- What a state machine runs was written by a tool. -/
theorem IsMoveNext.isGenerated
    {method : MethodId} (moveNext : context.IsMoveNext types method) :
    context.graph.isGeneratedMethod method = true := by
  obtain ⟨type, -, machine, found⟩ := moveNext
  have owner : (context.graph.method method).owner = type :=
    ((context.graph.mem_methodsOf type method).mp
      (List.mem_of_find?_eq_some found)).2
  rw [Graph.isAsyncStateMachine, Bool.and_eq_true] at machine
  rw [Graph.isGeneratedMethod, owner, machine.1, Bool.or_true]

/-- A state machine of a method takes no arguments. -/
theorem IsMoveNext.parameters_eq_nil
    {method : MethodId} (moveNext : context.IsMoveNext types method) :
    (context.graph.method method).parameters = [] := by
  obtain ⟨type, -, -, found⟩ := moveNext
  have chosen := List.find?_some found
  simp only [Bool.and_eq_true, beq_iff_eq, List.length_eq_zero_iff]
    at chosen
  exact chosen.2

theorem IsMoveNext.name_eq
    {method : MethodId} (moveNext : context.IsMoveNext types method) :
    (context.graph.method method).name = "MoveNext" := by
  obtain ⟨type, -, -, found⟩ := moveNext
  have chosen := List.find?_some found
  simp only [Bool.and_eq_true, beq_iff_eq] at chosen
  exact chosen.1

/-- What going through some types has made of the state machines among them. -/
structure HasMade
    (context : MethodContext) (bodies : Bodies) (debugBuild : Bool)
    (payload : Signature) (types : List TypeId)
    (progress : AsyncProgress) : Prop where
  distinct : (progress.pending.map (·.1)).Nodup
  made : ∀ entry ∈ progress.pending,
    context.IsMoveNext types entry.1 ∧
      ∃ body setException,
        bodies.get? entry.1 = some body ∧
          context.graph.faultReport? body = some setException ∧
          entry.2 =
            (context.guardHandovers debugBuild payload setException
              body).finish
  complete : ∀ method, context.IsMoveNext types method →
    ∃ body, bodies.get? method = some body ∧
      ∀ setException,
        context.graph.faultReport? body = some setException →
          method ∈ progress.pending.map (·.1)

namespace HasMade

variable {progress : AsyncProgress} {type : TypeId}

theorem start : context.HasMade bodies debugBuild payload [] {} :=
  ⟨List.nodup_nil, by simp, by simp [IsMoveNext]⟩

/-- A type of which nothing new is to be made. -/
theorem skip
    (made : context.HasMade bodies debugBuild payload types progress)
    (done : ∀ method,
      context.graph.isAsyncStateMachine type = true →
        context.graph.findMethod? type "MoveNext" 0 = some method →
          ∃ body, bodies.get? method = some body ∧
            ∀ setException,
              context.graph.faultReport? body = some setException →
                method ∈ progress.pending.map (·.1))
    {reached : AsyncProgress}
    (same : reached.pending = progress.pending) :
    context.HasMade bodies debugBuild payload (types ++ [type])
      reached where
  distinct := same ▸ made.distinct
  made := by
    intro entry member
    obtain ⟨moveNext, new⟩ := made.made entry (same ▸ member)
    exact ⟨isMoveNext_snoc.mpr (.inl moveNext), new⟩
  complete := by
    intro method moveNext
    rw [same]
    rcases isMoveNext_snoc.mp moveNext with old | ⟨machine, found⟩
    · exact made.complete method old
    · exact done method machine found

/-- A state machine of which a new body is made. -/
theorem add
    (made : context.HasMade bodies debugBuild payload types progress)
    {moveNext setException : MethodId} {body : MethodBody}
    (machine : context.graph.isAsyncStateMachine type = true)
    (found : context.graph.findMethod? type "MoveNext" 0 = some moveNext)
    (fresh : moveNext ∉ progress.pending.map (·.1))
    (present : bodies.get? moveNext = some body)
    (reports : context.graph.faultReport? body = some setException)
    {reached : AsyncProgress}
    (added : reached.pending =
      progress.pending ++
        [(moveNext,
          (context.guardHandovers debugBuild payload setException
            body).finish)]) :
    context.HasMade bodies debugBuild payload (types ++ [type])
      reached where
  distinct := by
    rw [added, List.map_append, List.map_singleton, List.nodup_append]
    refine ⟨made.distinct, List.nodup_singleton _, ?_⟩
    rintro method member _ single rfl
    rw [List.mem_singleton.mp single] at member
    exact fresh member
  made := by
    intro entry member
    rw [added] at member
    rcases List.mem_append.mp member with old | new
    · obtain ⟨moveNext, new⟩ := made.made entry old
      exact ⟨isMoveNext_snoc.mpr (.inl moveNext), new⟩
    · cases List.mem_singleton.mp new
      exact ⟨isMoveNext_snoc.mpr (.inr ⟨machine, found⟩), body,
        setException, present, reports, rfl⟩
  complete := by
    intro method among
    rw [added, List.map_append]
    rcases isMoveNext_snoc.mp among with old | ⟨-, again⟩
    · obtain ⟨oldBody, oldPresent, done⟩ := made.complete method old
      exact ⟨oldBody, oldPresent, fun report reports =>
        List.mem_append_left _ (done report reports)⟩
    · cases found.symm.trans again
      exact ⟨body, present, fun _ _ =>
        List.mem_append_right _ (List.mem_singleton.mpr rfl)⟩

/-- Going through one more type makes of it what is to be made. -/
theorem step
    {reached : AsyncProgress}
    (made : context.HasMade bodies debugBuild payload types progress)
    (ran : (context.guardStateMachine bodies debugBuild payload type).run
      progress = (.ok (), reached)) :
    context.HasMade bodies debugBuild payload (types ++ [type])
      reached := by
  simp only [guardStateMachine] at ran
  split at ran
  · rename_i machine
    split at ran
    · cases ran
    · rename_i moveNext found
      rw [run_get_bind] at ran
      split at ran
      · rename_i pending
        cases ran
        obtain ⟨entry, member, same⟩ := List.any_eq_true.mp pending
        refine made.skip ?_ rfl
        intro method _ again
        cases found.symm.trans again
        rw [← beq_iff_eq.mp same]
        exact made.complete _ (made.made entry member).1
      · rename_i notPending
        split at ran
        · cases ran
        · rename_i body present
          have fresh : moveNext ∉ progress.pending.map (·.1) := by
            intro member
            obtain ⟨entry, pending, same⟩ := List.mem_map.mp member
            exact notPending
              (List.any_eq_true.mpr ⟨entry, pending, beq_iff_eq.mpr same⟩)
          split at ran
          · rename_i silent
            cases ran
            refine made.skip ?_ rfl
            intro method _ again
            cases found.symm.trans again
            refine ⟨body, present, fun setException reports => ?_⟩
            cases silent.symm.trans reports
          · rename_i setException reports
            cases ran
            exact made.add machine found fresh present reports rfl
  · rename_i other
    cases ran
    refine made.skip ?_ rfl
    intro method machine
    exact absurd machine other

/-- A state machine of which a new body was made has it once all are in place. -/
theorem get?_of_reports
    (made : context.HasMade bodies debugBuild payload types progress)
    {moveNext setException : MethodId} {old : MethodBody}
    (machine : context.IsMoveNext types moveNext)
    (there : bodies.get? moveNext = some old)
    (reports : context.graph.faultReport? old = some setException)
    (before : Bodies) :
    (progress.pending.foldl
        (fun bodies entry => bodies.set entry.1 entry.2)
        before).get? moveNext =
      some (context.guardHandovers debugBuild payload setException
        old).finish := by
  obtain ⟨source, sourceThere, pending⟩ := made.complete moveNext machine
  cases there.symm.trans sourceThere
  obtain ⟨entry, among, rfl⟩ :=
    List.mem_map.mp (pending setException reports)
  obtain ⟨-, source, report, sourceThere, sourceReports, new⟩ :=
    made.made entry among
  cases there.symm.trans sourceThere
  cases reports.symm.trans sourceReports
  rw [Bodies.get?_foldl_set_of_mem made.distinct among, new]

/-- A method that is no state machine, or cannot report a failure, keeps its body. -/
theorem get?_of_not_reports
    (made : context.HasMade bodies debugBuild payload types progress)
    {method : MethodId}
    (unmade : context.IsMoveNext types method →
      ∃ old, bodies.get? method = some old ∧
        context.graph.faultReport? old = none)
    (before : Bodies) :
    (progress.pending.foldl
        (fun bodies entry => bodies.set entry.1 entry.2)
        before).get? method =
      before.get? method := by
  refine Bodies.get?_foldl_set_of_not_mem (fun member => ?_) before
  obtain ⟨entry, among, rfl⟩ := List.mem_map.mp member
  obtain ⟨machine, source, report, sourceThere, reports, -⟩ :=
    made.made entry among
  obtain ⟨old, there, silent⟩ := unmade machine
  cases there.symm.trans sourceThere
  cases silent.symm.trans reports

end HasMade

/-- Going through types makes of each state machine among them what is to be made. -/
theorem hasMade_of_run
    {progress : AsyncProgress}
    (ran : (types.forM
      (context.guardStateMachine bodies debugBuild payload)).run {} =
        (.ok (), progress)) :
    context.HasMade bodies debugBuild payload types progress :=
  run_forM_induction
    (fun _ _ _ _ made ran => HasMade.step made ran) .start ran

end MethodContext

namespace Weaver

theorem run_guardMachines
    (settings : Settings) (context : MethodContext) (body : MethodBody)
    (state : WeaveState) :
    (guardMachines settings context body).run state =
      match ((context.machineTypes body).forM
          (context.guardStateMachine state.bodies settings.debugBuild
            (context.graph.asyncPayload
              context.decl.returnType))).run {} with
      | (.ok (), progress) => (.ok progress, told state progress)
      | (.error failure, progress) =>
          (.error (.code failure), told state progress) := by
  have nothing : told state {} = state := by
    simp [told]
  unfold guardMachines
  split
  · rename_i async
    rw [run_guardAsync, MethodContext.machineTypes]
    unfold MethodContext.guardTaskResults
    dsimp only
    by_cases checked :
        context.policy.checksResult context.graph context.decl
          (context.graph.asyncPayload context.decl.returnType) = true
    · rw [if_pos checked, if_pos ⟨async, checked⟩,
        context.locals_guardEntry]
      rfl
    · rw [if_neg checked, if_neg fun checks => checked checks.2]
      rfl
  · rename_i sync
    rw [MethodContext.machineTypes, if_neg fun checks => sync checks.1]
    exact congrArg (Prod.mk _) nothing.symm

theorem hasMade_of_run_guardMachines
    {settings : Settings} {context : MethodContext} {body : MethodBody}
    {state reached : WeaveState} {progress : AsyncProgress}
    (ran : (guardMachines settings context body).run state =
      (.ok progress, reached)) :
    context.HasMade state.bodies settings.debugBuild
      (context.graph.asyncPayload context.decl.returnType)
      (context.machineTypes body) progress := by
  rw [run_guardMachines] at ran
  split at ran
  · rename_i through
    cases ran
    exact MethodContext.hasMade_of_run through
  · cases ran

/-- What is in place once a method was woven. -/
theorem exists_hasMade_of_run
    {settings : Settings} {context : MethodContext} {body : MethodBody}
    {state final : WeaveState}
    (ran : (weaveBody settings context body).run state =
      (.ok (), final)) :
    ∃ progress : AsyncProgress,
      context.HasMade state.bodies settings.debugBuild
          (context.graph.asyncPayload context.decl.returnType)
          (context.machineTypes body) progress ∧
        final.bodies =
          progress.pending.foldl
            (fun bodies entry => bodies.set entry.1 entry.2)
            (state.bodies.set context.method
              (context.wovenBody settings body)) := by
  obtain ⟨entered, same, run⟩ := run_weaveBody settings context body state
  rw [run] at ran
  split at ran
  · rename_i progress reached machines
    obtain ⟨finished, finish, bodies⟩ :=
      run_finishMethod settings context body progress reached
    rw [finish] at ran
    cases ran
    rw [bodies_of_run_guardMachines machines, same] at bodies
    exact ⟨progress, same ▸ hasMade_of_run_guardMachines machines, bodies⟩
  · cases ran

/--
Every value that an asynchronous method produces is checked once.

Weaving the method puts a new body in place of each state machine among the
types of its local variables that can report a failure.  There one guard stands
before every call that hands a value over.  All other bodies but that of the
method itself stay as they are.
-/
theorem weaveMethod_guards_handovers
    (settings : Settings) (context : MethodContext) (body : MethodBody)
    (state final : WeaveState)
    (resolved : NullPolicy.resolve context.graph settings
      context.method = .ok context.policy)
    (async : context.shape = .asyncStateMachine)
    (written : context.graph.isGeneratedMethod context.method = false)
    (checked : context.policy.checksResult context.graph context.decl
      (context.graph.asyncPayload context.decl.returnType) = true)
    (present : state.bodies.get? context.method = some body)
    (ran :
      (weaveMethod context.graph settings context.method).run state =
        (.ok (), final)) :
    (context.policy.isVisible context.graph context.decl = false →
      final.bodies = state.bodies) ∧
    (context.policy.isVisible context.graph context.decl = true →
      (∀ moveNext,
        context.IsMoveNext (MethodContext.localTypes body) moveNext →
        ∃ old, state.bodies.get? moveNext = some old ∧
          (context.graph.faultReport? old = none →
            final.bodies.get? moveNext = some old) ∧
          ∀ setException,
            context.graph.faultReport? old = some setException →
            ∃ woven, final.bodies.get? moveNext = some woven ∧
              (old.WellFormed →
                context.GuardsHandovers settings.debugBuild
                  (context.graph.asyncPayload context.decl.returnType)
                  setException old woven)) ∧
      ∀ method, method ≠ context.method →
        ¬ context.IsMoveNext (MethodContext.localTypes body) method →
          final.bodies.get? method = state.bodies.get? method) := by
  refine ⟨fun hidden => ?_, fun visible => ?_⟩
  · obtain ⟨reached, skipped, bodies⟩ :=
      run_weaveMethod_of_hidden resolved hidden state
    cases skipped.symm.trans ran
    exact bodies
  · rw [run_weaveMethod_of_visible resolved visible present] at ran
    obtain ⟨progress, made, bodies⟩ :=
      exists_hasMade_of_run ran
    rw [MethodContext.machineTypes, if_pos ⟨async, checked⟩] at made
    constructor
    · intro moveNext isMoveNext
      have other : moveNext ≠ context.method := by
        rintro rfl
        cases written.symm.trans isMoveNext.isGenerated
      obtain ⟨old, there, -⟩ := made.complete moveNext isMoveNext
      refine ⟨old, there, ?_, ?_⟩
      · intro silent
        rw [bodies, made.get?_of_not_reports fun _ => ⟨old, there, silent⟩,
          Bodies.get?_set_of_ne _ _ other, there]
      · intro setException reports
        rw [bodies, made.get?_of_reports isMoveNext there reports]
        exact ⟨_, rfl, context.guardsHandovers settings.debugBuild _
          setException⟩
    · intro method other notMoveNext
      rw [bodies, made.get?_of_not_reports fun machine =>
        absurd machine notMoveNext, Bodies.get?_set_of_ne _ _ other]

end Weaver

/-! ## A state machine named twice -/

namespace TwoMachines

/-- Both local variables are of the type of the first state machine. -/
def bodyNamingTwice : MethodBody :=
  { MethodBody.append {} [.ret] with
    locals := [⟨"first", .named ⟨18⟩⟩, ⟨"again", .named ⟨18⟩⟩] }

def stateRunning (moveNext : MethodBody) : WeaveState where
  bodies := (({} : Bodies).set ⟨13⟩ bodyNamingTwice).set ⟨14⟩ moveNext

end TwoMachines

open TwoMachines in
theorem Weaver.weaveMethod_guards_handovers_twoMachines :
    ∃ (final : WeaveState) (woven : MethodBody) (start : InstrId),
      (weaveMethod graph {} context.method).run (stateRunning moveNext) =
          (.ok (), final) ∧
        final.bodies.get? ⟨14⟩ = some woven ∧
        GuardedHandover false moveNext woven ⟨⟨2⟩, .call ⟨9⟩⟩
          ⟨context.handoverGuard (.named SystemLibrary.string) ⟨10⟩,
            start⟩ := by
  have ran :=
    run_eq_of_isOk
      (show ((weaveMethod graph {} context.method).run
        (stateRunning moveNext)).1.isOk = true by decide +kernel)
  have machine :
      context.IsMoveNext
        (MethodContext.localTypes bodyNamingTwice) ⟨14⟩ :=
    ⟨⟨18⟩, List.mem_cons_self .., by decide +kernel, by decide +kernel⟩
  obtain ⟨-, visible⟩ :=
    weaveMethod_guards_handovers {} context bodyNamingTwice
      (stateRunning moveNext) _ rfl (by decide +kernel)
      (by decide +kernel) (by decide +kernel) rfl ran
  obtain ⟨old, there, -, guarded⟩ :=
    (visible (by decide +kernel)).1 ⟨14⟩ machine
  cases there
  obtain ⟨woven, placed, guards⟩ := guarded ⟨10⟩ (by decide +kernel)
  have wellFormed : moveNext.WellFormed :=
    ⟨by decide, by decide, rfl⟩
  have call : moveNext.instructions[2]? = some ⟨⟨2⟩, .call ⟨9⟩⟩ := rfl
  obtain ⟨start, guardedHandover⟩ :=
    (guards wellFormed).guarded _ (List.mem_of_getElem? call)
      (by decide +kernel)
  exact ⟨_, woven, start, ran, placed, guardedHandover⟩

end NullWeave
