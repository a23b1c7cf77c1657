import NullWeave.Proofs.Sequence
import NullWeave.Weave.Weaver

/-!
# Runs of the weaver

Weaving goes through lists of types and methods, and a method goes through
parts of its own.  Each part runs in the state that the part before it left,
unless that part failed.
-/

namespace NullWeave

namespace Weaver

/-- A run that goes well leaves the state that it reaches. -/
theorem run_eq_of_isOk
    {weaver : Weaver Unit} {state : WeaveState}
    (well : (weaver.run state).1.isOk = true) :
    weaver.run state = (.ok (), (weaver.run state).2) := by
  rcases ran : weaver.run state with ⟨failure | _, final⟩
  · rw [ran] at well
    cases well
  · rfl

/-! ## The parts of weaving a method -/

/-- What a state tells once the state machines of a method have been gone through. -/
def told (state : WeaveState) (progress : AsyncProgress) : WeaveState :=
  { state with
    log := state.log ++ progress.log
    report :=
      { state.report with
        warnings := state.report.warnings ++ progress.warnings } }

theorem run_guardAsync
    (context : MethodContext) (debugBuild : Bool)
    (body : MethodBody) (state : WeaveState) :
    (guardAsync context debugBuild body).run state =
      match (context.guardTaskResults state.bodies debugBuild body).run
          {} with
      | (.ok (), progress) => (.ok progress, told state progress)
      | (.error failure, progress) =>
          (.error (.code failure), told state progress) := by
  unfold guardAsync
  rw [run_getThe_bind]
  dsimp only
  rcases (context.guardTaskResults state.bodies debugBuild body).run {}
    with ⟨_ | _, _⟩ <;> rfl

/-- The only part of weaving a method's body that may fail. -/
def guardMachines
    (settings : Settings) (context : MethodContext)
    (body : MethodBody) : Weaver AsyncProgress :=
  if context.shape = .asyncStateMachine then
    guardAsync context settings.debugBuild
      (context.guardEntry settings body).body
  else
    pure {}

/-- The last part of weaving a method, in which nothing fails. -/
def finishMethod
    (settings : Settings) (context : MethodContext) (body : MethodBody)
    (progress : AsyncProgress) : Weaver Unit := do
  let entered := context.guardEntry settings body
  let woven := context.guardExit settings body entered
  emit (woven.log.drop entered.log.length)
  let guards := woven.guards + progress.guards
  note .debug
    ("Injected " ++ toString guards ++ " guards into " ++ context.name)
  count guards
  commit ((context.method, woven.close) :: progress.pending)

theorem weaveBody_eq
    (settings : Settings) (context : MethodContext)
    (body : MethodBody) :
    weaveBody settings context body =
      (emit (context.guardEntry settings body).log >>= fun _ =>
        guardMachines settings context body >>=
          finishMethod settings context body) := by
  unfold weaveBody guardMachines finishMethod
  split <;> rfl

/-! ## Methods that are woven, and others -/

section Methods

variable
    {settings : Settings} {context : MethodContext} {state : WeaveState}

theorem run_weaveMethod
    (resolved : NullPolicy.resolve context.graph settings
      context.method = .ok context.policy)
    (state : WeaveState) :
    (weaveMethod context.graph settings context.method).run state =
      if context.policy.isVisible context.graph context.decl = true then
        match state.bodies.get? context.method with
        | none => (.ok (), state)
        | some body => (weaveBody settings context body).run state
      else
        (note .trace
          ("Skipping " ++ context.name ++ " (not visible)")).run state := by
  unfold weaveMethod
  rw [resolved, run_ok_bind]
  dsimp only
  split
  · rw [run_getThe_bind]
    cases state.bodies.get? context.method <;> rfl
  · rfl

/-- A method that is looked at and has a body gets it woven. -/
theorem run_weaveMethod_of_visible
    {body : MethodBody}
    (resolved : NullPolicy.resolve context.graph settings
      context.method = .ok context.policy)
    (visible :
      context.policy.isVisible context.graph context.decl = true)
    (present : state.bodies.get? context.method = some body) :
    (weaveMethod context.graph settings context.method).run state =
      (weaveBody settings context body).run state := by
  rw [run_weaveMethod resolved, if_pos visible, present]

/-- A method that is not looked at, or has no body, is left as it is. -/
theorem run_weaveMethod_of_unwoven
    (resolved : NullPolicy.resolve context.graph settings
      context.method = .ok context.policy)
    (unwoven :
      context.policy.isVisible context.graph context.decl = false ∨
        state.bodies.get? context.method = none) :
    ∃ final,
      (weaveMethod context.graph settings context.method).run state =
          (.ok (), final) ∧
        final.bodies = state.bodies ∧ final.report = state.report := by
  rw [run_weaveMethod resolved]
  split
  · rename_i visible
    rw [unwoven.resolve_left (by simp [visible])]
    exact ⟨state, rfl, rfl, rfl⟩
  · exact ⟨_, rfl, rfl, rfl⟩

/-- A method that is not looked at keeps its body. -/
theorem run_weaveMethod_of_hidden
    (resolved : NullPolicy.resolve context.graph settings
      context.method = .ok context.policy)
    (hidden :
      context.policy.isVisible context.graph context.decl = false)
    (state : WeaveState) :
    ∃ final,
      (weaveMethod context.graph settings context.method).run state =
          (.ok (), final) ∧
        final.bodies = state.bodies := by
  obtain ⟨final, skipped, bodies, -⟩ :=
    run_weaveMethod_of_unwoven resolved (.inl hidden)
  exact ⟨final, skipped, bodies⟩

end Methods

/-! ## Where new bodies go -/

theorem run_weaveBody
    (settings : Settings) (context : MethodContext)
    (body : MethodBody) (state : WeaveState) :
    ∃ entered : WeaveState,
      entered.bodies = state.bodies ∧
        (weaveBody settings context body).run state =
          match (guardMachines settings context body).run entered with
          | (.ok progress, reached) =>
              (finishMethod settings context body progress).run reached
          | (.error failure, reached) => (.error failure, reached) := by
  refine ⟨{ state with
    log := state.log ++ (context.guardEntry settings body).log }, rfl, ?_⟩
  rw [weaveBody_eq, run_bind]
  change (guardMachines settings context body >>=
    finishMethod settings context body).run _ = _
  rw [run_bind]
  rcases (guardMachines settings context body).run _ with ⟨_ | _, _⟩ <;> rfl

/-- What the last part of weaving a method puts in place. -/
theorem run_finishMethod
    (settings : Settings) (context : MethodContext)
    (body : MethodBody) (progress : AsyncProgress) (state : WeaveState) :
    ∃ final,
      (finishMethod settings context body progress).run state =
          (.ok (), final) ∧
        final.bodies =
          progress.pending.foldl
            (fun bodies entry => bodies.set entry.1 entry.2)
            (state.bodies.set context.method
              (context.wovenBody settings body)) :=
  ⟨_, rfl, rfl⟩

theorem bodies_of_run_guardMachines
    {settings : Settings} {context : MethodContext} {body : MethodBody}
    {state reached : WeaveState} {progress : AsyncProgress}
    (ran : (guardMachines settings context body).run state =
      (.ok progress, reached)) :
    reached.bodies = state.bodies := by
  unfold guardMachines at ran
  split at ran
  · rw [run_guardAsync] at ran
    split at ran
    · cases ran
      rfl
    · cases ran
  · cases ran
    rfl

/--
Where weaving the body of a method goes well, the new body and those of its
machines are in place.
-/
theorem bodies_of_run_weaveBody
    {settings : Settings} {context : MethodContext} {body : MethodBody}
    {state final : WeaveState}
    (ran : (weaveBody settings context body).run state =
      (.ok (), final)) :
    ∃ machines : List (MethodId × MethodBody),
      final.bodies =
        machines.foldl (fun bodies entry => bodies.set entry.1 entry.2)
          (state.bodies.set context.method
            (context.wovenBody settings body)) := by
  obtain ⟨entered, same, run⟩ := run_weaveBody settings context body state
  rw [run] at ran
  split at ran
  · rename_i progress reached machines
    obtain ⟨finished, finish, bodies⟩ :=
      run_finishMethod settings context body progress reached
    rw [finish] at ran
    cases ran
    rw [bodies_of_run_guardMachines machines, same] at bodies
    exact ⟨progress.pending, bodies⟩
  · cases ran

/-- Weaving the body of a method without asynchronous results puts the new body in place. -/
theorem run_weaveBody_of_not_async
    {context : MethodContext}
    (sync : context.shape ≠ .asyncStateMachine)
    (settings : Settings) (body : MethodBody) (state : WeaveState) :
    ∃ final,
      (weaveBody settings context body).run state = (.ok (), final) ∧
        final.bodies =
          state.bodies.set context.method
            (context.wovenBody settings body) := by
  rw [weaveBody_eq, guardMachines, if_neg sync]
  exact ⟨_, rfl, rfl⟩

end Weaver

end NullWeave
