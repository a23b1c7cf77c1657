import NullWeave.Proofs.Weave.Run

/-!
# A failure undoes nothing and leaves nothing half done

What a run has accomplished are the bodies and the two counts; warnings and the
log only tell about it.  Weaving neither reads the log nor the counts, so a run
accomplishes the same however much was logged before it.

A method either finishes or accomplishes nothing: its new body and those of its
state machines are put in place together, after everything that may fail.  So a
run that fails has accomplished what the methods before the failure did.
-/

namespace NullWeave

/-- Have two runs accomplished the same?  Warnings and the log may differ. -/
structure WeaveState.SameWork (left right : WeaveState) : Prop where
  bodies : left.bodies = right.bodies
  methodsProcessed :
    left.report.methodsProcessed = right.report.methodsProcessed
  guardsInjected :
    left.report.guardsInjected = right.report.guardsInjected

namespace WeaveState.SameWork

theorem refl (state : WeaveState) : state.SameWork state :=
  ⟨rfl, rfl, rfl⟩

theorem symm
    {left right : WeaveState} (same : left.SameWork right) :
    right.SameWork left :=
  ⟨same.bodies.symm, same.methodsProcessed.symm,
    same.guardsInjected.symm⟩

theorem trans
    {first second third : WeaveState}
    (left : first.SameWork second) (right : second.SameWork third) :
    first.SameWork third :=
  ⟨left.bodies.trans right.bodies,
    left.methodsProcessed.trans right.methodsProcessed,
    left.guardsInjected.trans right.guardsInjected⟩

end WeaveState.SameWork

namespace Weaver

variable {α β : Type}

/-! ## What was logged before makes no difference -/

/-- Does a run end in the same way, with the same work, from states that have the same work? -/
def Steady (weaver : Weaver α) : Prop :=
  ∀ left right : WeaveState, left.SameWork right →
    (weaver.run left).1 = (weaver.run right).1 ∧
      (weaver.run left).2.SameWork (weaver.run right).2

theorem Steady.run_eq
    {weaver : Weaver α} (steady : weaver.Steady)
    {left right reached : WeaveState} {result : Except WeaveError α}
    (ran : weaver.run right = (result, reached))
    (same : left.SameWork right) :
    ∃ done, weaver.run left = (result, done) ∧
      done.SameWork reached := by
  obtain ⟨sameResult, sameWork⟩ := steady left right same
  rw [ran] at sameResult sameWork
  exact ⟨(weaver.run left).2, Prod.ext sameResult rfl, sameWork⟩

theorem steady_pure (value : α) : (pure value : Weaver α).Steady :=
  fun _ _ same => ⟨rfl, same⟩

theorem steady_throw (failure : WeaveError) :
    (throw failure : Weaver α).Steady :=
  fun _ _ same => ⟨rfl, same⟩

theorem logged_sameWork (state : WeaveState) (log : List LogEntry) :
    ({ state with log } : WeaveState).SameWork state :=
  ⟨rfl, rfl, rfl⟩

theorem steady_emit (entries : List LogEntry) :
    (emit entries).Steady :=
  fun _ _ same => ⟨rfl, ⟨same.bodies, same.methodsProcessed,
    same.guardsInjected⟩⟩

theorem steady_count (guards : Nat) : (count guards).Steady :=
  fun _ _ same => ⟨rfl, ⟨same.bodies,
    congrArg (· + 1) same.methodsProcessed,
    congrArg (· + guards) same.guardsInjected⟩⟩

theorem steady_commit (bodies : List (MethodId × MethodBody)) :
    (commit bodies).Steady := by
  intro left right same
  refine ⟨rfl, ?_, same.methodsProcessed, same.guardsInjected⟩
  change bodies.foldl _ left.bodies = bodies.foldl _ right.bodies
  rw [same.bodies]

theorem Steady.bind
    {weaver : Weaver α} {next : α → Weaver β}
    (first : weaver.Steady) (others : ∀ value, (next value).Steady) :
    (weaver >>= next).Steady := by
  intro left right same
  obtain ⟨result, state⟩ := first left right same
  rw [run_bind, run_bind]
  rcases ran : weaver.run left with ⟨failure | value, leftReached⟩ <;>
    rcases ranRight : weaver.run right with ⟨_ | _, rightReached⟩ <;>
    rw [ran, ranRight] at result state <;> cases result
  · exact ⟨rfl, state⟩
  · exact others value leftReached rightReached state

theorem Steady.forM
    {weaver : β → Weaver Unit} (steady : ∀ item, (weaver item).Steady)
    (items : List β) :
    (items.forM weaver).Steady := by
  induction items with
  | nil =>
      exact steady_pure ()
  | cons item rest inductionHypothesis =>
      exact (steady item).bind fun _ => inductionHypothesis

theorem Steady.tryCatch
    {weaver : Weaver α} {other : WeaveError → Weaver α}
    (first : weaver.Steady) (others : ∀ failure, (other failure).Steady) :
    (tryCatchThe WeaveError weaver other).Steady := by
  intro left right same
  obtain ⟨result, state⟩ := first left right same
  rw [run_tryCatch, run_tryCatch]
  rcases ran : weaver.run left with ⟨failure | value, leftReached⟩ <;>
    rcases ranRight : weaver.run right with ⟨_ | _, rightReached⟩ <;>
    rw [ran, ranRight] at result state <;> cases result
  · exact others failure leftReached rightReached state
  · exact ⟨rfl, state⟩

/-- A run may look at the work that has been done. -/
theorem Steady.withState
    {next : WeaveState → Weaver α}
    (sameNext : ∀ left right : WeaveState,
      left.SameWork right → next left = next right)
    (steady : ∀ state, (next state).Steady) :
    (getThe WeaveState >>= next).Steady := by
  intro left right same
  change
    ((next left).run left).1 = ((next right).run right).1 ∧
      ((next left).run left).2.SameWork ((next right).run right).2
  rw [← sameNext left right same]
  exact steady left left right same

theorem told_sameWork (state : WeaveState) (progress : AsyncProgress) :
    (told state progress).SameWork state :=
  ⟨rfl, rfl, rfl⟩

theorem steady_guardAsync
    (context : MethodContext) (debugBuild : Bool) (body : MethodBody) :
    (guardAsync context debugBuild body).Steady := by
  intro left right same
  rw [run_guardAsync, run_guardAsync, same.bodies]
  rcases (context.guardTaskResults right.bodies debugBuild body).run {}
    with ⟨failure | _, progress⟩ <;>
    exact ⟨rfl, (told_sameWork left progress).trans
      (same.trans (told_sameWork right progress).symm)⟩

theorem steady_weaveBody
    (settings : Settings) (context : MethodContext) (body : MethodBody) :
    (weaveBody settings context body).Steady := by
  rw [weaveBody_eq]
  refine (steady_emit _).bind fun _ => Steady.bind ?_ fun progress => ?_
  · unfold guardMachines
    split
    · exact steady_guardAsync context settings.debugBuild _
    · exact steady_pure ({} : AsyncProgress)
  · refine (steady_emit _).bind fun _ => (steady_emit _).bind fun _ => ?_
    exact (steady_count _).bind fun _ => steady_commit _

theorem steady_weaveMethod
    (graph : Graph) (settings : Settings) (method : MethodId) :
    (weaveMethod graph settings method).Steady := by
  refine Steady.bind ?_ fun policy => ?_
  · cases NullPolicy.resolve graph settings method with
    | error failure =>
        exact steady_throw failure
    | ok policy =>
        exact steady_pure policy
  · dsimp only
    split
    · refine Steady.withState
        (fun _ _ same => by simp only [same.bodies]) fun state => ?_
      split
      · exact steady_pure ()
      · exact steady_weaveBody settings _ _
    · exact steady_emit _

theorem steady_weaveUnlessGenerated
    (graph : Graph) (settings : Settings) (method : MethodId) :
    (weaveUnlessGenerated graph settings method).Steady := by
  unfold weaveUnlessGenerated
  split
  · exact steady_emit _
  · exact (steady_weaveMethod graph settings method).tryCatch
      fun failure => steady_throw _

/-! ## A method that fails -/

theorem run_guardMachines_eq_error
    {settings : Settings} {context : MethodContext} {body : MethodBody}
    {state final : WeaveState} {failure : WeaveError}
    (failed : (guardMachines settings context body).run state =
      (.error failure, final)) :
    final.SameWork state := by
  unfold guardMachines at failed
  split at failed
  · rw [run_guardAsync] at failed
    rcases ran : (context.guardTaskResults state.bodies
        settings.debugBuild
        (context.guardEntry settings body).body).run {}
      with ⟨_ | _, progress⟩
    · rw [ran] at failed
      cases failed
      exact told_sameWork state progress
    · rw [ran] at failed
      cases failed
  · cases failed

theorem run_weaveBody_eq_error
    {settings : Settings} {context : MethodContext} {body : MethodBody}
    {state final : WeaveState} {failure : WeaveError}
    (failed : (weaveBody settings context body).run state =
      (.error failure, final)) :
    final.SameWork state := by
  rw [weaveBody_eq] at failed
  rcases run_bind_eq_error failed with logging | ⟨_, logged, ran, rest⟩
  · cases logging
  · cases ran
    rcases run_bind_eq_error rest with machines | ⟨_, _, _, finishing⟩
    · exact (run_guardMachines_eq_error machines).trans ⟨rfl, rfl, rfl⟩
    · cases finishing

/-- A method that fails has accomplished nothing. -/
theorem run_weaveMethod_eq_error
    {graph : Graph} {settings : Settings} {method : MethodId}
    {state final : WeaveState} {failure : WeaveError}
    (failed : (weaveMethod graph settings method).run state =
      (.error failure, final)) :
    final.SameWork state := by
  unfold weaveMethod at failed
  rcases run_bind_eq_error failed with resolving | ⟨policy, _, ran, rest⟩
  · cases resolved : NullPolicy.resolve graph settings method with
    | error cause =>
        rw [resolved] at resolving
        cases resolving
        exact .refl state
    | ok policy =>
        rw [resolved] at resolving
        cases resolving
  · cases resolved : NullPolicy.resolve graph settings method with
    | error cause =>
        rw [resolved] at ran
        cases ran
    | ok policy =>
        rw [resolved] at ran
        cases ran
        dsimp only at rest
        split at rest
        · rcases run_bind_eq_error rest with reading | ⟨_, _, read, rest⟩
          · cases reading
          · cases read
            split at rest
            · cases rest
            · exact run_weaveBody_eq_error rest
        · cases rest

/-- The failure of a method names the method. -/
theorem run_weaveUnlessGenerated_eq_error
    {graph : Graph} {settings : Settings} {method : MethodId}
    {state final : WeaveState} {failure : WeaveError}
    (failed : (weaveUnlessGenerated graph settings method).run state =
      (.error failure, final)) :
    ∃ cause,
      failure = .inMethod (graph.methodName method) cause ∧
        (weaveMethod graph settings method).run state =
          (.error cause, final) := by
  unfold weaveUnlessGenerated at failed
  split at failed
  · cases failed
  · rw [run_tryCatch] at failed
    rcases ran : (weaveMethod graph settings method).run state with
      ⟨cause | _, reached⟩
    · rw [ran] at failed
      cases failed
      exact ⟨cause, rfl, rfl⟩
    · rw [ran] at failed
      cases failed

/-! ## A run that fails -/

/-- Going through types is going through their methods. -/
theorem run_weaveTypes
    {graph : Graph} {settings : Settings} {types : List TypeId}
    {start state reached : WeaveState} (same : start.SameWork state)
    (ran : (types.forM (weaveType graph settings)).run state =
      (.ok (), reached)) :
    ∃ done,
      ((types.flatMap graph.methodsOf).forM
          (weaveUnlessGenerated graph settings)).run start =
        (.ok (), done) ∧
      done.SameWork reached := by
  induction types generalizing start state with
  | nil =>
      cases ran
      exact ⟨start, rfl, same⟩
  | cons type rest inductionHypothesis =>
      change (weaveType graph settings type >>= fun _ =>
        rest.forM (weaveType graph settings)).run state = _ at ran
      rw [run_bind] at ran
      rcases first : (weaveType graph settings type).run state with
        ⟨_ | _, between⟩
      · rw [first] at ran
        cases ran
      · rw [first] at ran
        have methods :
            ((graph.methodsOf type).forM
              (weaveUnlessGenerated graph settings)).run
                { state with
                  log := state.log ++
                    [⟨.info, "Processing type " ++
                      graph.typeName type⟩] } =
              (.ok (), between) := first
        obtain ⟨there, ranMethods, sameThere⟩ :=
          (Steady.forM (steady_weaveUnlessGenerated graph settings)
            (graph.methodsOf type)).run_eq methods
            (same.trans (logged_sameWork state _).symm)
        obtain ⟨done, ranRest, sameDone⟩ :=
          inductionHypothesis sameThere ran
        refine ⟨done, ?_, sameDone⟩
        rw [List.flatMap_cons, run_forM_append, run_bind, ranMethods]
        exact ranRest

theorem run_weaveModule_eq_error
    {graph : Graph} {settings : Settings} {module : Module}
    {state final : WeaveState} {failure : WeaveError}
    (failed : (weaveModule graph settings module).run state =
      (.error failure, final)) :
    ∃ before method after reached cause,
      module.methods graph = before ++ method :: after ∧
        (before.forM (weaveUnlessGenerated graph settings)).run state =
          (.ok (), reached) ∧
        ((weaveMethod graph settings method).run reached).1 =
          .error cause ∧
        failure = .inMethod (graph.methodName method) cause ∧
        final.SameWork reached := by
  rcases run_bind_eq_error failed with inTypes | ⟨_, _, _, telling⟩
  · obtain ⟨typesBefore, type, typesAfter, there, types, ranTypes,
      inType⟩ := run_forM_eq_error inTypes
    rcases run_bind_eq_error inType with telling | ⟨_, _, told, inMethods⟩
    · cases telling
    · cases told
      obtain ⟨methodsBefore, method, methodsAfter, close, methods,
        ranMethods, inMethod⟩ := run_forM_eq_error inMethods
      obtain ⟨done, ranDone, sameDone⟩ :=
        run_weaveTypes (.refl state) ranTypes
      obtain ⟨reached, ranReached, sameReached⟩ :=
        (Steady.forM (steady_weaveUnlessGenerated graph settings)
          methodsBefore).run_eq ranMethods
          (sameDone.trans (logged_sameWork there _).symm)
      obtain ⟨cause, failure, inside⟩ :=
        run_weaveUnlessGenerated_eq_error inMethod
      obtain ⟨_, again, _⟩ :=
        (steady_weaveMethod graph settings method).run_eq inside
          sameReached
      refine ⟨typesBefore.flatMap graph.methodsOf ++ methodsBefore,
        method, methodsAfter ++ typesAfter.flatMap graph.methodsOf,
        reached, cause, ?_, ?_, ?_, failure, ?_⟩
      · rw [Module.methods, types, List.flatMap_append,
          List.flatMap_cons, methods]
        simp
      · rw [run_forM_append, run_bind, ranDone]
        exact ranReached
      · rw [again]
      · exact (run_weaveMethod_eq_error inside).trans sameReached.symm
  · cases telling

end Weaver

/-! ## State machines of one method -/

namespace MethodContext

variable
    {context : MethodContext} {bodies : Bodies}
    {debugBuild : Bool} {payload : Signature}

/-- A state machine lacks the method that is guarded, or the body of that method. -/
def LacksMoveNext
    (context : MethodContext) (bodies : Bodies) (type : TypeId) : Prop :=
  ∀ moveNext,
    context.graph.findMethod? type "MoveNext" 0 = some moveNext →
      bodies.get? moveNext = none

/-- The name of the member that such a state machine lacks. -/
def missingMember (context : MethodContext) (type : TypeId) : String :=
  match context.graph.findMethod? type "MoveNext" 0 with
  | none => context.graph.typeName type ++ "::MoveNext"
  | some moveNext => context.graph.methodName moveNext

/-- New bodies are only made of old ones. -/
theorem pending_guardStateMachine
    {type : TypeId} {progress reached : AsyncProgress}
    (made : ∀ entry ∈ progress.pending, (bodies.get? entry.1).isSome)
    (ran : (context.guardStateMachine bodies debugBuild payload type).run
      progress = (.ok (), reached)) :
    ∀ entry ∈ reached.pending, (bodies.get? entry.1).isSome := by
  simp only [guardStateMachine] at ran
  split at ran
  · split at ran
    · cases ran
    · rename_i moveNext found
      rw [run_get_bind] at ran
      split at ran
      · cases ran
        exact made
      · split at ran
        · cases ran
        · rename_i body present
          split at ran
          · cases ran
            exact made
          · cases ran
            intro entry member
            rcases List.mem_append.mp member with old | new
            · exact made entry old
            · rw [List.mem_singleton.mp new, present]
              rfl
  · cases ran
    exact made

/-- A state machine that lacks its method ends the run, and nothing is made of it. -/
theorem run_guardStateMachine_of_lacks
    {type : TypeId} {progress : AsyncProgress}
    (made : ∀ entry ∈ progress.pending, (bodies.get? entry.1).isSome)
    (machine : context.graph.isAsyncStateMachine type = true)
    (lacks : context.LacksMoveNext bodies type) :
    (context.guardStateMachine bodies debugBuild payload type).run
        progress =
      (.error (.missingMember (context.missingMember type)),
        progress) := by
  simp only [guardStateMachine, missingMember, machine, if_true]
  cases found : context.graph.findMethod? type "MoveNext" 0 with
  | none =>
      rfl
  | some moveNext =>
      have absent := lacks moveNext found
      have fresh :
          progress.pending.any (·.1 == moveNext) = false := by
        rw [List.any_eq_false]
        intro entry member same
        have present := made entry member
        rw [beq_iff_eq.mp same, absent] at present
        simp at present
      dsimp only
      rw [run_get_bind, fresh, absent]
      rfl

theorem locals_addEntryGuard
    (guarded : GuardedBody) (style : GuardStyle) (guard : Guard) :
    (guarded.addEntryGuard style guard).body.locals =
      guarded.body.locals := by
  unfold GuardedBody.addEntryGuard
  split
  · rfl
  · simp only [MethodBody.makeInstructions, MethodBody.hideAndPrepend,
      MethodBody.hideFragment, GuardedBody.body_note]
    split <;> rfl

theorem locals_guardArgument
    (context : MethodContext) (style : GuardStyle)
    (guarded : GuardedBody) (entry : Parameter × Nat) :
    (context.guardArgument style guarded entry).body.locals =
      guarded.body.locals := by
  simp only [guardArgument]
  split
  · rfl
  · split
    · rfl
    · split
      · rfl
      · exact locals_addEntryGuard guarded style _

/-- Guards at the entry leave the local variables alone. -/
theorem locals_guardEntry
    (context : MethodContext) (settings : Settings)
    (body : MethodBody) :
    (context.guardEntry settings body).body.locals = body.locals := by
  have folded : ∀ (entries : List (Parameter × Nat))
      (guarded : GuardedBody),
      (entries.foldl (context.guardArgument (style settings body))
        guarded).body.locals = guarded.body.locals := by
    intro entries
    induction entries with
    | nil =>
        intro guarded
        rfl
    | cons entry rest inductionHypothesis =>
        intro guarded
        rw [List.foldl_cons, inductionHypothesis, locals_guardArgument]
  unfold guardEntry
  split
  · exact folded _ _
  · rfl

/--
A state machine of a method that lacks what is guarded, behind others for which
the work went well.
-/
structure LateFailure
    (context : MethodContext) (settings : Settings)
    (bodies : Bodies) (body : MethodBody) where
  earlier : List TypeId
  type : TypeId
  later : List TypeId
  /-- What was made of the state machines before it. -/
  progress : AsyncProgress
  machines : body.locals.filterMap (·.type.definition?) =
    earlier ++ type :: later
  earlierWell :
    (earlier.forM (context.guardStateMachine bodies settings.debugBuild
      (context.graph.asyncPayload context.decl.returnType))).run {} =
        (.ok (), progress)
  isMachine : context.graph.isAsyncStateMachine type = true
  lacks : context.LacksMoveNext bodies type

theorem run_guardTaskResults_of_late
    {settings : Settings} {body guarded : MethodBody}
    (late : context.LateFailure settings bodies body)
    (sameLocals : guarded.locals = body.locals)
    (checked : context.policy.checksResult context.graph context.decl
      (context.graph.asyncPayload context.decl.returnType) = true) :
    (context.guardTaskResults bodies settings.debugBuild guarded).run
        {} =
      (.error (.missingMember (context.missingMember late.type)),
        late.progress) := by
  have made : ∀ entry ∈ late.progress.pending,
      (bodies.get? entry.1).isSome :=
    run_forM_keeps
      (fun _ _ _ made ran => pending_guardStateMachine made ran)
      (by simp) late.earlierWell
  have failing :
      (context.guardStateMachine bodies settings.debugBuild
          (context.graph.asyncPayload context.decl.returnType)
          late.type).run late.progress =
        (.error (.missingMember (context.missingMember late.type)),
          late.progress) :=
    run_guardStateMachine_of_lacks made late.isMachine late.lacks
  simp only [guardTaskResults, checked, if_true, sameLocals,
    late.machines]
  rw [run_forM_append, run_bind, late.earlierWell]
  change (context.guardStateMachine bodies settings.debugBuild _
    late.type >>= fun _ => late.later.forM _).run late.progress = _
  rw [run_bind, failing]

end MethodContext

namespace Weaver

theorem run_weaveMethod_of_late
    {settings : Settings} {context : MethodContext} {body : MethodBody}
    {state : WeaveState}
    (resolved : NullPolicy.resolve context.graph settings
      context.method = .ok context.policy)
    (visible :
      context.policy.isVisible context.graph context.decl = true)
    (async : context.shape = .asyncStateMachine)
    (checked : context.policy.checksResult context.graph context.decl
      (context.graph.asyncPayload context.decl.returnType) = true)
    (present : state.bodies.get? context.method = some body)
    (late : context.LateFailure settings state.bodies body) :
    ∃ final,
      (weaveMethod context.graph settings context.method).run state =
        (.error (.code (.missingMember
          (context.missingMember late.type))), final) := by
  have failing :=
    context.run_guardTaskResults_of_late late
      (context.locals_guardEntry settings body) checked
  refine ⟨told { state with
    log := state.log ++ (context.guardEntry settings body).log }
      late.progress, ?_⟩
  rw [run_weaveMethod_of_visible resolved visible present, weaveBody_eq,
    run_bind]
  change (guardMachines settings context body >>=
    finishMethod settings context body).run _ = _
  rw [run_bind, guardMachines, if_pos async, run_guardAsync]
  dsimp only
  rw [failing]

/--
Weaving is transactional for each method.

A run that fails does so at one method.  It leaves the bodies and the counts as
they are after the methods before that one, and its failure names the method.
That holds for the state machines of the method too: where a later one lacks
what is guarded, the method fails, and those that had been rewritten before keep
their bodies.
-/
theorem weaveModule_transactional
    (graph : Graph) (settings : Settings) (module : Module)
    (state : WeaveState) :
    (∀ failure final,
      (weaveModule graph settings module).run state =
          (.error failure, final) →
        ∃ before method after reached cause,
          module.methods graph = before ++ method :: after ∧
            (before.forM (weaveUnlessGenerated graph settings)).run
              state = (.ok (), reached) ∧
            ((weaveMethod graph settings method).run reached).1 =
              .error cause ∧
            failure = .inMethod (graph.methodName method) cause ∧
            final.SameWork reached) ∧
      ∀ (context : MethodContext) (body : MethodBody),
        context.graph = graph →
        settings.isGenerated graph context.method = false →
        NullPolicy.resolve graph settings context.method =
          .ok context.policy →
        context.policy.isVisible graph context.decl = true →
        context.shape = .asyncStateMachine →
        context.policy.checksResult graph context.decl
          (graph.asyncPayload context.decl.returnType) = true →
        state.bodies.get? context.method = some body →
        ∀ late : context.LateFailure settings state.bodies body,
          ∃ final,
            (weaveUnlessGenerated graph settings context.method).run
                state =
              (.error (.inMethod context.name
                (.code (.missingMember
                  (context.missingMember late.type)))), final) ∧
              final.SameWork state ∧
              ∀ entry ∈ late.progress.pending,
                final.bodies.get? entry.1 =
                  state.bodies.get? entry.1 := by
  refine ⟨fun failure final failed =>
    run_weaveModule_eq_error failed, ?_⟩
  rintro context body rfl notGenerated resolved visible async checked
    present late
  obtain ⟨final, failed⟩ :=
    run_weaveMethod_of_late resolved visible async checked present late
  have same := run_weaveMethod_eq_error failed
  refine ⟨final, ?_, same, fun entry _ => by rw [same.bodies]⟩
  rw [weaveUnlessGenerated, notGenerated, if_neg (by simp),
    run_tryCatch, failed]
  rfl

end Weaver

namespace TwoMachines

/-- A state machine of the sample method. -/
def machine (name : String) : TypeDecl where
  name
  enclosing := [⟨17⟩]
  attributes := [{ name := Attribute.compilerGenerated }]
  interfaces := [SystemLibrary.asyncStateMachine]

/-- A method whose second state machine has no method to guard. -/
def graph : Graph where
  types :=
    Graph.system.types ++
      #[{ name := "Sample", access := { isPublic := true } },
        machine "First",
        machine "Second"]
  methods :=
    Graph.system.methods ++
      #[{ owner := ⟨17⟩
          name := "Run"
          access := { isPublic := true }
          returnType :=
            .generic SystemLibrary.taskOfResult
              [.named SystemLibrary.string]
          attributes := [{ name := Attribute.asyncStateMachine }] },
        { owner := ⟨18⟩, name := "MoveNext" }]

def context : MethodContext where
  graph
  method := ⟨13⟩
  policy := { flags := .allPublic, explicitMode := false }

def body : MethodBody :=
  { MethodBody.append {} [.ret] with
    locals := [⟨"first", .named ⟨18⟩⟩, ⟨"second", .named ⟨19⟩⟩] }

/-- The first state machine hands over a result, and can report a failure. -/
def moveNext : MethodBody :=
  MethodBody.append {}
    [.ldNull, .ldNull, .call ⟨9⟩, .ldNull, .ldNull, .call ⟨10⟩, .ret]

def state : WeaveState where
  bodies := (({} : Bodies).set ⟨13⟩ body).set ⟨14⟩ moveNext

/-- What is made of the first state machine. -/
def progress : AsyncProgress :=
  ((context.guardStateMachine state.bodies false
    (.named SystemLibrary.string) ⟨18⟩).run {}).2

def late : context.LateFailure {} state.bodies body where
  earlier := [⟨18⟩]
  type := ⟨19⟩
  later := []
  progress
  machines := rfl
  earlierWell := by rfl
  isMachine := by decide +kernel
  lacks := by
    intro moveNext found
    have absent : graph.findMethod? ⟨19⟩ "MoveNext" 0 = none := by
      decide +kernel
    cases absent.symm.trans found

end TwoMachines

namespace Weaver

open TwoMachines in
theorem weaveModule_transactional_twoMachines :
    (∃ failure final method reached cause,
      (weaveModule graph {} { types := [⟨17⟩] }).run state =
          (.error failure, final) ∧
        ((weaveMethod graph {} method).run reached).1 = .error cause ∧
        failure = .inMethod (graph.methodName method) cause ∧
        final.SameWork reached) ∧
      ∃ final,
        (weaveUnlessGenerated graph {} context.method).run state =
            (.error (.inMethod context.name
              (.code (.missingMember
                (context.missingMember late.type)))), final) ∧
          final.SameWork state ∧
          late.progress.pending.length = 1 ∧
          ∀ entry ∈ late.progress.pending,
            final.bodies.get? entry.1 = state.bodies.get? entry.1 := by
  obtain ⟨failing, undone⟩ :=
    weaveModule_transactional graph {} { types := [⟨17⟩] } state
  refine ⟨?_, ?_⟩
  · have fails :
        ((weaveModule graph {} { types := [⟨17⟩] }).run state).1.isOk =
          false := by decide +kernel
    rcases ran : (weaveModule graph {} { types := [⟨17⟩] }).run state with
      ⟨failure | _, final⟩
    · obtain ⟨_, method, _, reached, cause, _, _, there, named, same⟩ :=
        failing failure final ran
      exact ⟨failure, final, method, reached, cause, rfl, there, named,
        same⟩
    · rw [ran] at fails
      cases fails
  · obtain ⟨final, ran, same, kept⟩ :=
      undone context body rfl (by decide +kernel) rfl (by decide +kernel)
        (by decide +kernel) (by decide +kernel) rfl late
    exact ⟨final, ran, same, by decide +kernel, kept⟩

end Weaver

end NullWeave
