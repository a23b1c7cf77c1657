import NullWeave.Proofs.Machine.GuardRun
import NullWeave.Proofs.Weave.ReturnGuards
import NullWeave.Proofs.Weave.StackDiscipline

/-!
# Weaving preserves runs

A new body runs as the original one does when its values are tested where the
guards stand.  Each step of the checked run is matched by the steps of the row
before the instruction and the step of the instruction, so both end in the same
way and show the same effects.  Where no test finds null, this is what the
original body does by itself.
-/

namespace NullWeave

variable
    {Reference World Effect : Type}
    {machine : Machine Reference World Effect}

/-! ## Steps of an instruction -/

/-- An operation jumps to one of its targets. -/
theorem Machine.mem_targets_of_jump
    {operation : Operation} {stack rest : List (Value Reference)}
    {world : World} {target : InstrId}
    (jumps : machine.perform operation stack world = .jump target rest) :
    target ∈ operation.targets := by
  by_contra elsewhere
  -- Moving a place that the operation does not name would move the jump.
  let change : InstrId → InstrId := redirected target target.next
  have unchanged : operation.mapTargets change = operation := by
    refine (Operation.mapTargets_congr ?_).trans
      (Operation.mapTargets_id operation)
    intro id named
    refine redirected_of_ne _ ?_
    rintro rfl
    exact elsewhere named
  have moved := machine.perform_mapTargets change operation stack world
  rw [unchanged, jumps, Environment.mapTarget_jump] at moved
  have same : target = target.next := by
    simpa [change] using moved
  have number := congrArg InstrId.number same
  simp [InstrId.next] at number

section Layout

variable
    {layout : GuardLayout} {original guarded : MethodBody}

/-- An instruction behind its row does what it did, and goes where it went. -/
theorem Machine.follow_shift
    (described : layout.Describes false original guarded)
    (wellFormed : original.WellFormed)
    {config : Config Reference World Effect}
    {instruction : Instruction}
    (here : original.instructions[config.position]? = some instruction) :
    let position :=
      layout.shift false original.instructions config.position +
        (layout.before instruction.id).size false
    machine.follow guarded { config with position }
        ((machine.perform instruction.operation config.stack
          config.world).mapTarget layout.entrance) =
      (machine.follow original config
        (machine.perform instruction.operation config.stack
          config.world)).relocate
            (layout.shift false original.instructions) := by
  intro position
  have next :
      position + 1 =
        layout.shift false original.instructions
          (config.position + 1) := by
    rw [GuardLayout.shift_succ here]
  cases flow :
      machine.perform instruction.operation config.stack config.world with
  | next stack world effects =>
      simp [Flow.mapTarget, follow, State.relocate, next]
  | jump target stack =>
      have named :=
        wellFormed.targetsWithin instruction (List.mem_of_getElem? here)
          target (machine.mem_targets_of_jump flow)
      obtain ⟨index, found⟩ := MethodBody.exists_indexOf?_of_mem named
      simp [Flow.mapTarget, follow, State.relocate, found,
        described.indexOf?_entrance wellFormed found]
  | returns value =>
      rfl
  | raises exception world effects =>
      exact machine.raiseAt_shift described wellFormed
        (Nat.le_add_right _ _) (by omega) _ _ _
  | stuck =>
      rfl

/-- Behind its row, an instruction does what it did. -/
theorem Machine.step_shift
    (described : layout.Describes false original guarded)
    (wellFormed : original.WellFormed)
    {config : Config Reference World Effect}
    {instruction : Instruction}
    (here : original.instructions[config.position]? = some instruction) :
    let position :=
      layout.shift false original.instructions config.position +
        (layout.before instruction.id).size false
    machine.step guarded { config with position } =
      (machine.step original config).relocate
        (layout.shift false original.instructions) := by
  intro position
  obtain ⟨front, back, stands, length⟩ := described.stands_at_shift here
  rw [← List.append_assoc] at stands
  have there :
      guarded.instructions[position]? =
        some (instruction.mapTargets layout.entrance) := by
    rw [stands, List.getElem?_append_right (by simp [position, length])]
    simp [position, length]
  have moved := machine.follow_shift described wellFormed here
  rw [← machine.perform_mapTargets] at moved
  simp only [step, there, here]
  exact moved

/-! ## Checked steps in a guarded body -/

/-- Do the rows of a layout stand before returns only, and hold some guards there? -/
def GuardLayout.GuardsReturns
    (layout : GuardLayout) (instructions : List Instruction)
    (exit : List Guard) : Prop :=
  ∀ instruction ∈ instructions,
    layout.guardsBefore instruction.id =
      if instruction.operation.isRet then exit else []

theorem Machine.fail_relocate
    {raise moved : Value Reference → World → List Effect →
      State Reference World Effect}
    {move : Nat → Nat}
    (same : ∀ exception world effects,
      moved exception world effects =
        (raise exception world effects).relocate move)
    (guard : Guard) (world : World) (effects : List Effect) :
    machine.fail moved guard world effects =
      (machine.fail raise guard world effects).relocate move := by
  unfold fail
  split
  · rfl
  · split <;> exact same _ _ _

theorem Machine.check_relocate
    {raise moved : Value Reference → World → List Effect →
      State Reference World Effect}
    {move : Nat → Nat} {came : Verdict} (finds : came ≠ .passes)
    (same : ∀ exception world effects,
      moved exception world effects =
        (raise exception world effects).relocate move)
    (world : World) (effects : List Effect)
    (passed movedPassed : State Reference World Effect) :
    machine.check moved world effects movedPassed came =
      (machine.check raise world effects passed came).relocate move := by
  cases came with
  | passes =>
      exact absurd rfl finds
  | fails guard =>
      exact fail_relocate same guard world effects
  | stuck =>
      rfl

/-- A checked step tests the guards of the row before its instruction. -/
theorem Machine.checkedStep_eq
    {exit : List Guard}
    (guards : layout.GuardsReturns original.instructions exit)
    {config : Config Reference World Effect}
    {instruction : Instruction}
    (here : original.instructions[config.position]? = some instruction) :
    machine.checkedStep exit original config =
      machine.check (machine.raiseAt original config.position)
        config.world config.effects (machine.step original config)
        (verdict machine.environment config.stack config.world
          (layout.guardsBefore instruction.id)) := by
  have row := guards instruction (List.mem_of_getElem? here)
  have returns :
      original.returnsAt config.position =
        instruction.operation.isRet := by
    simp [MethodBody.returnsAt, here]
  rw [checkedStep, returns, row]
  cases instruction.operation.isRet with
  | true => rfl
  | false => rfl

/-- A checked step of the original body is matched by the row and the instruction behind it. -/
theorem Machine.simulates_inside
    (described : layout.Describes false original guarded)
    (wellFormed : original.WellFormed)
    (includes : machine.graph.IncludesSystem) {exit : List Guard}
    (guards : layout.GuardsReturns original.instructions exit)
    (throws : ∀ guard ∈ exit, guard.exit = .throw)
    (reads : ∀ guard ∈ exit, guard.ReadsPure machine.environment)
    {config : Config Reference World Effect}
    {instruction : Instruction}
    (here : original.instructions[config.position]? = some instruction) :
    ∃ count,
      stepsFrom (machine.step guarded) (count + 1)
          ((State.running config).relocate
            (layout.shift false original.instructions)) =
        (machine.checkedStep exit original config).relocate
          (layout.shift false original.instructions) := by
  obtain ⟨front, back, stands, length⟩ := described.stands_at_shift here
  have inRow : ∀ guard ∈ layout.guardsBefore instruction.id,
      guard ∈ exit := by
    intro guard member
    rw [guards instruction (List.mem_of_getElem? here)] at member
    split at member
    · exact member
    · simp at member
  obtain ⟨count, there, least, most, strict, ran⟩ :=
    GuardRow.steps described.distinct includes stands
      (fun asserts => absurd asserts Bool.false_ne_true)
      (fun guard member => throws guard (inRow guard member))
      (fun guard member => reads guard (inRow guard member))
      config.stack config.world config.effects
  rw [length] at least most strict ran
  rw [checkedStep_eq guards here]
  change ∃ count,
    stepsFrom (machine.step guarded) (count + 1)
      (.running
        ⟨layout.shift false original.instructions config.position,
          config.stack, config.world, config.effects⟩) = _
  by_cases passes :
      verdict machine.environment config.stack config.world
        (layout.guardsBefore instruction.id) = .passes
  · rw [← GuardLayout.guardsBefore, passes] at ran
    refine ⟨count, ?_⟩
    rw [stepsFrom_add, ran, passes]
    exact step_shift described wellFormed here
  · obtain ⟨some, inside⟩ := strict passes
    obtain ⟨fewer, rfl⟩ := Nat.exists_eq_add_one_of_ne_zero some.ne'
    refine ⟨fewer, ran.trans ?_⟩
    refine check_relocate passes (fun exception world effects => ?_) _ _ _ _
    refine machine.raiseAt_shift described wellFormed least ?_ _ _ _
    rw [GuardLayout.shift_succ here]
    omega

/-- Past the end both runs are stuck. -/
theorem Machine.simulates_outside
    (described : layout.Describes false original guarded)
    (exit : List Guard) {config : Config Reference World Effect}
    (missing : original.instructions[config.position]? = none) :
    stepsFrom (machine.step guarded) 1
        ((State.running config).relocate
          (layout.shift false original.instructions)) =
      (machine.checkedStep exit original config).relocate
        (layout.shift false original.instructions) := by
  have beyond := List.getElem?_eq_none_iff.mp missing
  have guardedMissing :
      guarded.instructions[
        layout.shift false original.instructions config.position]? =
        none := by
    rw [List.getElem?_eq_none_iff, described.instructions,
      GuardLayout.shift, List.take_of_length_le beyond]
    exact Nat.le_refl _
  have stays : original.returnsAt config.position = false := by
    simp [MethodBody.returnsAt, missing]
  have stuck :
      machine.step original config =
        .ended .stuck config.world config.effects := by
    simp only [step, missing]
  rw [checkedStep, stays, if_neg Bool.false_ne_true, stuck,
    State.relocate, stepsFrom_running, stepsFrom_zero, step]
  simp only [guardedMissing]
  rfl

/-- The row in front does what the tests at the start say. -/
theorem Machine.starts
    {debugBuild : Bool}
    (described : layout.Describes debugBuild original guarded)
    (wellFormed : original.WellFormed)
    (includes : machine.graph.IncludesSystem)
    (ignores :
      debugBuild = true → machine.environment.IgnoresAsserts)
    (inhabited : original.instructions ≠ [])
    (throws : ∀ guard ∈ layout.front.map (·.guard),
      guard.exit = .throw)
    (reads : ∀ guard ∈ layout.front.map (·.guard),
      guard.ReadsPure machine.environment)
    (exit : List Guard) (world : World) :
    ∃ count,
      (machine.run guarded world).after count =
        (machine.checkedRun (layout.front.map (·.guard)) exit original
          world).start.relocate
            (layout.shift debugBuild original.instructions) := by
  obtain ⟨first, rest, whole⟩ := List.exists_cons_of_ne_nil inhabited
  obtain ⟨start, others, blocks, named⟩ :=
    layout.blocks_eq_cons debugBuild first rest
  have stands : guarded.instructions =
      [] ++ (layout.front.code debugBuild start.id ++ start :: others) := by
    rw [described.instructions, whole, GuardLayout.code,
      GuardLayout.frontCode, blocks, named]
    rfl
  have zero :
      layout.shift debugBuild original.instructions 0 =
        layout.front.size debugBuild := by
    simp [GuardLayout.shift, GuardLayout.offset, whole,
      GuardLayout.frontCode]
  obtain ⟨count, there, -, -, strict, ran⟩ :=
    GuardRow.steps described.distinct includes stands ignores throws reads
      ([] : List (Value Reference)) world []
  refine ⟨count, ran.trans ?_⟩
  change _ =
    (machine.check machine.escape world [] (.running (begin world))
      (verdict machine.environment [] world
        (layout.front.map (·.guard)))).relocate _
  by_cases passes :
      verdict machine.environment [] world
        (layout.front.map (·.guard)) = .passes
  · rw [passes]
    simp [check, State.relocate, begin, zero]
  · refine check_relocate passes (fun exception world effects => ?_) _ _ _ _
    have inside := (strict passes).2
    rw [List.length_nil, Nat.zero_add] at inside
    rw [machine.raiseAt_front described wellFormed (zero ▸ inside)]
    unfold escape
    split <;> rfl

/-- A guarded body runs as the original one does when it is checked. -/
theorem Machine.sameBehaviour_guarded
    (described : layout.Describes false original guarded)
    (wellFormed : original.WellFormed)
    (includes : machine.graph.IncludesSystem)
    (inhabited : original.instructions ≠ []) {exit : List Guard}
    (guards : layout.GuardsReturns original.instructions exit)
    (throws : ∀ guard ∈ layout.front.map (·.guard) ++ exit,
      guard.exit = .throw)
    (reads : ∀ guard ∈ layout.front.map (·.guard) ++ exit,
      guard.ReadsPure machine.environment)
    (world : World) :
    Run.SameBehaviour
      (machine.checkedRun (layout.front.map (·.guard)) exit original
        world)
      (machine.run guarded world) := by
  have simulates :
      Simulates (layout.shift false original.instructions)
        (machine.checkedRun (layout.front.map (·.guard)) exit original
          world)
        (machine.run guarded world) := by
    intro config
    cases here : original.instructions[config.position]? with
    | none =>
        exact ⟨0, simulates_outside described exit here⟩
    | some instruction =>
        exact simulates_inside described wellFormed includes guards
          (fun guard member => throws guard (List.mem_append_right _ member))
          (fun guard member => reads guard (List.mem_append_right _ member))
          here
  exact simulates.sameBehaviour
    (starts described wellFormed includes
      (fun asserts => absurd asserts Bool.false_ne_true) inhabited
      (fun guard member => throws guard (List.mem_append_left _ member))
      (fun guard member => reads guard (List.mem_append_left _ member))
      exit world)
    (machine.effects_step guarded)

end Layout

/-! ## Forms of branches -/

section Forms

variable
    (machine : Machine Reference World Effect)
    (body : MethodBody) (world : World)

theorem Machine.run_widen :
    machine.run body.widen world = machine.run body world := by
  unfold run
  congr 1
  funext config
  exact machine.step_widen body config

theorem Machine.checkedRun_widen (entry exit : List Guard) :
    machine.checkedRun entry exit body.widen world =
      machine.checkedRun entry exit body world := by
  unfold checkedRun
  congr 1
  funext config
  have returns :
      body.widen.returnsAt config.position =
        body.returnsAt config.position := by
    simp [MethodBody.returnsAt, getElem?_widenBranches,
      Instruction.withForm, Option.any_map]
  have raises :
      machine.raiseAt body.widen config.position =
        machine.raiseAt body config.position := by
    funext exception world effects
    simp [raiseAt]
  rw [checkedStep, checkedStep, returns, raises, machine.step_widen]

end Forms

/-! ## The new body of a method -/

namespace MethodContext

/-- The machine that runs the body of a method in an environment. -/
def machineIn
    (context : MethodContext)
    (environment : Environment Reference World Effect) :
    Machine Reference World Effect where
  environment
  graph := context.graph
  returnsValue := context.returnsValue

variable
    {context : MethodContext} {settings : Settings}
    {body : MethodBody}
    {environment : Environment Reference World Effect}

/-- The new body runs as the original one does when it is checked. -/
theorem sameBehaviour_wovenBody
    (includes : context.graph.IncludesSystem)
    (optimized : settings.debugBuild = false)
    (wellFormed : body.WellFormed) (inhabited : body.instructions ≠ [])
    (reads : ∀ guard ∈
      context.entryGuards settings body ++ context.exitGuards,
        guard.ReadsPure environment)
    (world : World) :
    Run.SameBehaviour
      ((context.machineIn environment).checkedRun
        (context.entryGuards settings body) context.exitGuards body
        world)
      ((context.machineIn environment).run
        (context.wovenBody settings body) world) := by
  obtain ⟨layout, lays⟩ := context.exists_layout settings wellFormed
  have described := lays.woven
  rw [optimized] at described
  have guards :
      layout.GuardsReturns body.widen.instructions
        context.exitGuards := by
    intro instruction member
    obtain ⟨original, there, rfl⟩ := List.mem_map.mp member
    simpa [Instruction.withForm] using lays.before original there
  have wide : body.widen.instructions ≠ [] := by
    simpa [widenBranches] using inhabited
  have throws : ∀ guard ∈
      context.entryGuards settings body ++ context.exitGuards,
        guard.exit = .throw := by
    intro guard member
    rcases List.mem_append.mp member with entry | exit
    · exact context.exit_entryGuards settings body guard entry
    · exact context.exit_outGuards_append guard
        (context.exitGuards_sublist.subset exit)
  have same :=
    (context.machineIn environment).sameBehaviour_guarded described
      wellFormed.widen includes wide guards
      (lays.front ▸ throws)
      (lays.front ▸ reads) world
  rw [Machine.run_widen, Machine.checkedRun_widen, lays.front] at same
  exact same

/-- The guards that weaving puts in front of the body of a method. -/
def wovenEntry
    (context : MethodContext) (settings : Settings)
    (body : MethodBody) : List Guard :=
  if context.policy.isVisible context.graph context.decl then
    context.entryGuards settings body
  else
    []

/-- The guards that weaving puts before every return of a method. -/
def wovenExit (context : MethodContext) : List Guard :=
  if context.policy.isVisible context.graph context.decl then
    context.exitGuards
  else
    []

end MethodContext

namespace Weaver

/--
Weaving a plain method preserves its runs.  The new body does what the original
one does when the values of its guards are tested: those of the entry guards
before it starts, those of the others whenever it returns.  A run on which all
these values are there and none is null is the run of the original body.
-/
theorem weaveMethod_preserves_runs
    (settings : Settings) (context : MethodContext) (body : MethodBody)
    (state : WeaveState)
    (includes : context.graph.IncludesSystem)
    (resolved : NullPolicy.resolve context.graph settings
      context.method = .ok context.policy)
    (plain : context.shape = .plain)
    (optimized : settings.debugBuild = false)
    (present : state.bodies.get? context.method = some body)
    (inhabited : body.instructions ≠ [])
    (wellFormed : body.WellFormed)
    (environment : Environment Reference World Effect)
    (reads : ∀ guard ∈
      context.wovenEntry settings body ++ context.wovenExit,
        guard.ReadsPure environment) :
    ∃ final woven,
      (weaveMethod context.graph settings context.method).run state =
          (.ok (), final) ∧
        final.bodies.get? context.method = some woven ∧
        ∀ world,
          let machine := context.machineIn environment
          ((∀ guard ∈ context.wovenEntry settings body,
              guard.Admits environment [] world) →
            (∀ count config,
              (machine.run body world).after count = .running config →
                body.returnsAt config.position = true →
                  ∀ guard ∈ context.wovenExit,
                    guard.Admits environment config.stack
                      config.world) →
            Run.SameBehaviour (machine.run body world)
              (machine.run woven world)) ∧
          Run.SameBehaviour
            (machine.checkedRun (context.wovenEntry settings body)
              context.wovenExit body world)
            (machine.run woven world) := by
  obtain ⟨final, woven, ran, bodies, checked⟩ :
      ∃ final woven,
        (weaveMethod context.graph settings context.method).run state =
            (.ok (), final) ∧
          final.bodies.get? context.method = some woven ∧
          ∀ world,
            Run.SameBehaviour
              ((context.machineIn environment).checkedRun
                (context.wovenEntry settings body) context.wovenExit
                body world)
              ((context.machineIn environment).run woven world) := by
    cases visible :
        context.policy.isVisible context.graph context.decl with
    | true =>
        rw [MethodContext.wovenEntry, MethodContext.wovenExit,
          if_pos visible, if_pos visible] at reads ⊢
        have sync : context.shape ≠ .asyncStateMachine := by
          simp [plain]
        obtain ⟨final, ran, bodies⟩ :=
          run_weaveBody_of_not_async sync settings body state
        rw [← run_weaveMethod_of_visible resolved visible present] at ran
        refine ⟨final, context.wovenBody settings body, ran, ?_,
          MethodContext.sameBehaviour_wovenBody includes optimized
            wellFormed inhabited reads⟩
        rw [bodies, Bodies.get?_set_self]
    | false =>
        obtain ⟨final, ran, bodies⟩ :=
          run_weaveMethod_of_hidden resolved visible state
        refine ⟨final, body, ran, bodies ▸ present, fun world => ?_⟩
        apply Machine.sameBehaviour_checkedRun
        · simp [MethodContext.wovenEntry, visible]
        · simp [MethodContext.wovenExit, visible]
  refine ⟨final, woven, ran, bodies, fun world => ⟨?_, checked world⟩⟩
  intro enters returns
  exact (Machine.sameBehaviour_checkedRun _ enters returns).symm.trans
    (checked world)

end Weaver

/-! ## A run that passes and one that does not -/

namespace Sample

/-- The world is what the out parameter points to. -/
def environment : Environment String (Option String) String where
  text := id
  boxed _ _ := "box"
  sameReference := (· == ·)
  read _ _ := some (.reference "argument")
  write _ _ _ := none
  pointer _ _ := none
  ask
    | .load _, world =>
        some ⟨.ok (world.elim .null .reference), world, []⟩
    | .construct _ arguments, world =>
        some ⟨.ok (arguments.getLast?.getD .null), world,
          ["construct"]⟩
    | _, _ => none
  caughtAs _ _ := some fun _ => false

end Sample

open Sample in
theorem Weaver.weaveMethod_preserves_runs_sample :
    ∃ (final : WeaveState) (woven : MethodBody),
      (weaveMethod graph {} context.method).run state =
          (.ok (), final) ∧
        final.bodies.get? context.method = some woven ∧
        ((context.machineIn environment).run woven (some "found")).Ends
          (.returned (.reference "none")) (some "found") [] ∧
        ((context.machineIn environment).run woven none).Ends
          (.threw (.reference
            "[NullGuard] Out parameter 'found' is null."))
          none ["construct"] := by
  let machine := context.machineIn environment
  have includes : context.graph.IncludesSystem :=
    (Graph.includesSystem_system.addType _).addMethod _
  have reads : ∀ guard ∈
      context.wovenEntry {} body ++ context.wovenExit,
        guard.ReadsPure environment := by
    intro guard member slot element subject world pointer read
    exact ⟨_, rfl⟩
  obtain ⟨final, woven, ran, bodies, preserves⟩ :=
    weaveMethod_preserves_runs {} context body state includes rfl rfl
      rfl rfl (by decide) wellFormed environment reads
  refine ⟨final, woven, ran, bodies, ?_, ?_⟩
  · have enters :
        verdict environment [] (some "found")
          (context.wovenEntry {} body) = .passes := rfl
    have exits :
        verdict environment [.reference "none"] (some "found")
          context.wovenExit = .passes := rfl
    have ended :
        (machine.run body (some "found")).after 4 =
          .ended (.returned (.reference "none")) (some "found") [] := rfl
    have same := (preserves (some "found")).1
      (verdict_eq_passes_iff.mp enters) (by
        intro count config reached returns
        match count, reached with
        | 0, rfl | 1, rfl | 2, rfl =>
            cases returns
        | 3, rfl =>
            exact verdict_eq_passes_iff.mp exits
        | count + 4, reached =>
            have later := stepsFrom_of_le ended (Nat.le_add_left 4 count)
            cases reached.symm.trans later)
    exact (same.ends _ _ _).mp ⟨4, ended⟩
  · have same := (preserves none).2
    exact (same.ends _ _ _).mp ⟨4, rfl⟩

end NullWeave
