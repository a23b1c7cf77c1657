import NullWeave.Proofs.Machine.Relocation
import NullWeave.Proofs.Weave.HandoverGuards

/-!
# Returns in regions

Regions of handlers move with the instructions that bound them: a guard lies in
the regions of the instruction that it stands before, and the guards in front
of a body lie in none.  A guard that throws brings no return, while one that
reports a failure returns behind the report.  So weaving puts a return into a
region only where a state machine hands a value over inside the region.
-/

namespace NullWeave

/-! ## Guards that return -/

/-- Does a guard return where its value is null? -/
def GuardExit.returns : GuardExit → Bool
  | .throw => false
  | .report _ => true

theorem Guard.exists_isRet_iff
    {guard : Guard} {debugBuild : Bool} {next : InstrId} :
    (∃ operation ∈ guard.operations debugBuild next,
        operation.isRet = true) ↔
      guard.exit.returns = true := by
  cases exit : guard.exit with
  | throw =>
      constructor
      · rintro ⟨operation, member, returns⟩
        cases (isRet_of_mem_operations exit member).symm.trans returns
      · nofun
  | report setException =>
      constructor
      · exact fun _ => rfl
      · intro _
        exact ⟨.ret, by simp [operations, exit, GuardExit.leave], rfl⟩

theorem GuardRow.exists_isRet_iff
    {row : GuardRow} {debugBuild : Bool} {next : InstrId} :
    (∃ instruction ∈ row.code debugBuild next,
        instruction.operation.isRet = true) ↔
      ∃ guard ∈ row.map (·.guard), guard.exit.returns = true := by
  induction row with
  | nil =>
      simp
  | cons placed rest inductionHypothesis =>
      have here :
          (∃ instruction ∈ placed.code debugBuild (entrance rest next),
              instruction.operation.isRet = true) ↔
            placed.guard.exit.returns = true := by
        rw [← Guard.exists_isRet_iff,
          ← MethodBody.map_operation_numberFrom placed.start
            (placed.guard.operations debugBuild (entrance rest next))]
        simp only [PlacedGuard.code, List.mem_map,
          exists_exists_and_eq_and]
      simp only [code_cons, List.mem_append, or_and_right, exists_or,
        here, inductionHypothesis, List.map_cons, List.mem_cons,
        exists_eq_left]

/-! ## What stands at the positions of a guarded body -/

namespace GuardLayout

variable
    {layout : GuardLayout} {debugBuild : Bool}
    {instructions : List Instruction}

/-- A position of a guarded body lies in front, or among an instruction and its guards. -/
theorem exists_shift
    {there : Nat}
    (inside : there < (layout.code debugBuild instructions).length) :
    there < layout.shift debugBuild instructions 0 ∨
      ∃ position, position < instructions.length ∧
        layout.shift debugBuild instructions position ≤ there ∧
        there < layout.shift debugBuild instructions (position + 1) := by
  have all :
      (layout.code debugBuild instructions).length =
        layout.shift debugBuild instructions instructions.length := by
    rw [shift, List.take_length, offset, code]
  rw [all] at inside
  generalize instructions.length = bound at inside ⊢
  induction bound with
  | zero =>
      exact .inl inside
  | succ bound inductionHypothesis =>
      by_cases before :
          there < layout.shift debugBuild instructions bound
      · rcases inductionHypothesis before with
          front | ⟨position, less, between⟩
        · exact .inl front
        · exact .inr ⟨position, by omega, between⟩
      · exact .inr ⟨bound, by omega, by omega, inside⟩

namespace Describes

variable {original guarded : MethodBody}

/-- What stands behind the position that an instruction was moved to. -/
theorem getElem?_shift
    (described : layout.Describes debugBuild original guarded)
    {position : Nat} {instruction : Instruction}
    (here : original.instructions[position]? = some instruction)
    {behind : Nat}
    (inside : behind < (layout.block debugBuild instruction).length) :
    guarded.instructions[
        layout.shift debugBuild original.instructions position +
          behind]? =
      (layout.block debugBuild instruction)[behind]? := by
  obtain ⟨front, back, stands, length⟩ := described.stands_at_shift here
  have whole :
      guarded.instructions =
        front ++ (layout.block debugBuild instruction ++ back) := by
    rw [stands, block]
    simp
  rw [whole, ← length, List.getElem?_append_right (by omega),
    Nat.add_sub_cancel_left, List.getElem?_append_left inside]

theorem length_block
    (layout : GuardLayout) (debugBuild : Bool)
    {position : Nat} {instruction : Instruction}
    (here : instructions[position]? = some instruction) :
    layout.shift debugBuild instructions (position + 1) =
      layout.shift debugBuild instructions position +
        (layout.block debugBuild instruction).length := by
  rw [shift_succ here]
  simp [block]
  omega

/--
Returns stand in the regions of a guarded body where they stood, and where a
guard that returns stands before an instruction in a region.
-/
theorem anyInRegion_isRet
    (described : layout.Describes debugBuild original guarded)
    (wellFormed : original.WellFormed) :
    guarded.anyInRegion Operation.isRet = true ↔
      ∃ position instruction,
        original.instructions[position]? = some instruction ∧
          (instruction.operation.isRet = true ∨
            ∃ guard ∈ layout.guardsBefore instruction.id,
              guard.exit.returns = true) ∧
          original.inRegion position = true := by
  have inBlock : ∀ instruction,
      (∃ other ∈ layout.block debugBuild instruction,
          other.operation.isRet = true) ↔
        instruction.operation.isRet = true ∨
          ∃ guard ∈ layout.guardsBefore instruction.id,
            guard.exit.returns = true := by
    intro instruction
    simp only [block, List.mem_append, or_and_right, exists_or,
      GuardRow.exists_isRet_iff, List.mem_singleton, exists_eq_left,
      Instruction.mapTargets, Operation.isRet_mapTargets]
    exact or_comm
  rw [MethodBody.anyInRegion_iff]
  constructor
  · rintro ⟨there, other, otherHere, returns, inRegion⟩
    have inside := (List.getElem?_eq_some_iff.mp otherHere).1
    rw [described.instructions] at inside
    rcases exists_shift inside with
      front | ⟨position, less, behind, before⟩
    · cases (described.not_inRegion_front wellFormed front).symm.trans
        inRegion
    · obtain ⟨instruction, here⟩ :
          ∃ instruction,
            original.instructions[position]? = some instruction :=
        ⟨_, List.getElem?_eq_getElem less⟩
      rw [described.inRegion_shift wellFormed behind before] at inRegion
      obtain ⟨within, rfl⟩ := Nat.exists_eq_add_of_le behind
      rw [length_block layout debugBuild here] at before
      rw [described.getElem?_shift here (by omega)] at otherHere
      exact ⟨position, instruction, here,
        (inBlock instruction).mp
          ⟨other, List.mem_of_getElem? otherHere, returns⟩, inRegion⟩
  · rintro ⟨position, instruction, here, returns, inRegion⟩
    obtain ⟨other, member, otherReturns⟩ :=
      (inBlock instruction).mpr returns
    obtain ⟨behind, inside, rfl⟩ := List.mem_iff_getElem.mp member
    have before := length_block layout debugBuild here
    refine ⟨_, _, (described.getElem?_shift here inside).trans
      (List.getElem?_eq_getElem inside), otherReturns, ?_⟩
    rw [described.inRegion_shift wellFormed
      (Nat.le_add_right _ behind) (by omega)]
    exact inRegion

end Describes

end GuardLayout

/-! ## The new bodies of a method -/

namespace MethodContext

variable
    {context : MethodContext} {settings : Settings}
    {body : MethodBody}

/-- In its own body, a method returns inside a region exactly where it did. -/
theorem anyInRegion_wovenBody
    (context : MethodContext) (settings : Settings)
    (wellFormed : body.WellFormed) :
    (context.wovenBody settings body).anyInRegion Operation.isRet = true ↔
      body.anyInRegion Operation.isRet = true := by
  obtain ⟨layout, lays⟩ := context.exists_layout settings wellFormed
  have throws : ∀ instruction ∈ body.widen.instructions,
      ¬ ∃ guard ∈ layout.guardsBefore instruction.id,
        guard.exit.returns = true := by
    rintro instruction member ⟨guard, among, returns⟩
    obtain ⟨original, there, rfl⟩ := List.mem_map.mp member
    rw [Instruction.id_withForm, lays.before original there] at among
    split at among
    · have exit :=
        context.exit_outGuards_append guard
          (context.exitGuards_sublist.subset among)
      rw [exit] at returns
      cases returns
    · cases among
  rw [← MethodBody.anyInRegion_widen (Operation.isRet_withForm .long),
    lays.woven.anyInRegion_isRet wellFormed.widen,
    ← MethodBody.anyInRegion_widen (Operation.isRet_withForm .long),
    MethodBody.anyInRegion_iff]
  refine exists_congr fun position => exists_congr fun instruction =>
    and_congr_right fun here => and_congr_left fun _ => ?_
  rw [or_iff_left (throws instruction (List.mem_of_getElem? here))]

/--
In a state machine, returns stand inside regions where they did, and where a
value is handed over there.
-/
theorem anyInRegion_guardHandovers
    (context : MethodContext) (debugBuild : Bool) (payload : Signature)
    (setException : MethodId) (wellFormed : body.WellFormed) :
    (context.guardHandovers debugBuild payload setException
        body).finish.anyInRegion Operation.isRet = true ↔
      body.anyInRegion Operation.isRet = true ∨
        body.anyInRegion context.graph.isHandover = true := by
  obtain ⟨layout, lays⟩ :=
    context.exists_layout_handovers debugBuild payload setException
      wellFormed
  have returns : ∀ instruction ∈ body.widen.instructions,
      (∃ guard ∈ layout.guardsBefore instruction.id,
          guard.exit.returns = true) ↔
        context.graph.isHandover instruction.operation = true := by
    intro instruction member
    obtain ⟨original, there, rfl⟩ := List.mem_map.mp member
    rw [Instruction.id_withForm, lays.before original there,
      Instruction.withForm, Graph.isHandover_withForm]
    split
    · rename_i handover
      simp [handover, handoverGuard, resultGuard, GuardExit.returns]
    · rename_i other
      simp [other]
  rw [← MethodBody.anyInRegion_widen (Operation.isRet_withForm .long),
    lays.describes.anyInRegion_isRet wellFormed.widen,
    ← MethodBody.anyInRegion_widen (Operation.isRet_withForm .long),
    ← MethodBody.anyInRegion_widen
      (context.graph.isHandover_withForm .long),
    MethodBody.anyInRegion_iff, MethodBody.anyInRegion_iff, ← exists_or]
  refine exists_congr fun position => ?_
  rw [← exists_or]
  refine exists_congr fun instruction => ?_
  rw [← and_or_left]
  refine and_congr_right fun here => ?_
  rw [returns instruction (List.mem_of_getElem? here), or_and_right]

end MethodContext

namespace Weaver

/--
Weaving puts a return into a region only with the guard of a value that is
handed over there.

The bodies that weaving a method replaces are its own one and those of its state
machines.  A return stands in a region of the new body exactly if one stood in a
region of the old one, or the body is that of a state machine and hands a value
over in a region.
-/
theorem weaveMethod_returns_inside
    (settings : Settings) (context : MethodContext) (body : MethodBody)
    (state final : WeaveState)
    (resolved : NullPolicy.resolve context.graph settings
      context.method = .ok context.policy)
    (visible :
      context.policy.isVisible context.graph context.decl = true)
    (present : state.bodies.get? context.method = some body)
    (ran :
      (weaveMethod context.graph settings context.method).run state =
        (.ok (), final))
    (method : MethodId) (woven : MethodBody)
    (placed : final.bodies.get? method = some woven) :
    state.bodies.get? method = some woven ∨
      ∃ old, state.bodies.get? method = some old ∧
        (old.WellFormed →
          (woven.anyInRegion Operation.isRet = true ↔
            old.anyInRegion Operation.isRet = true ∨
              context.IsMoveNext (context.machineTypes body) method ∧
                (context.graph.faultReport? old).isSome = true ∧
                old.anyInRegion context.graph.isHandover = true)) := by
  rw [run_weaveMethod_of_visible resolved visible present] at ran
  obtain ⟨progress, made, bodies⟩ := exists_hasMade_of_run ran
  rw [bodies] at placed
  by_cases pending : method ∈ progress.pending.map (·.1)
  · obtain ⟨entry, among, rfl⟩ := List.mem_map.mp pending
    obtain ⟨moveNext, old, setException, there, reports, new⟩ :=
      made.made entry among
    rw [Bodies.get?_foldl_set_of_mem made.distinct among] at placed
    cases placed
    refine .inr ⟨old, there, fun wellFormed => ?_⟩
    rw [new, context.anyInRegion_guardHandovers settings.debugBuild _
      setException wellFormed]
    simp [moveNext, reports]
  · rw [Bodies.get?_foldl_set_of_not_mem pending] at placed
    by_cases own : method = context.method
    · subst own
      rw [Bodies.get?_set_self] at placed
      cases placed
      refine .inr ⟨body, present, fun wellFormed => ?_⟩
      rw [context.anyInRegion_wovenBody settings wellFormed]
      refine (or_iff_left ?_).symm
      rintro ⟨moveNext, reports, -⟩
      obtain ⟨old, there, done⟩ := made.complete _ moveNext
      cases present.symm.trans there
      obtain ⟨setException, found⟩ := Option.isSome_iff_exists.mp reports
      exact pending (done setException found)
    · rw [Bodies.get?_set_of_ne _ _ own] at placed
      exact .inl placed

end Weaver

namespace TwoMachines

/-- A state machine that hands its result over behind its regions. -/
def moveNextBehind : MethodBody :=
  { MethodBody.append {}
      [.ldNull, .pop, .branch .leave .short ⟨8⟩,
        .pop, .ldNull, .ldNull, .call ⟨10⟩, .branch .leave .short ⟨11⟩,
        .ldNull, .ldNull, .call ⟨9⟩, .ret] with
    handlers :=
      [⟨.catch SystemLibrary.exception, ⟨0⟩, ⟨3⟩, ⟨3⟩, some ⟨8⟩⟩] }

/-- A state machine that hands its result over inside a region. -/
def moveNextInside : MethodBody :=
  { MethodBody.append {}
      [.ldNull, .ldNull, .call ⟨9⟩, .branch .leave .short ⟨9⟩,
        .pop, .ldNull, .ldNull, .call ⟨10⟩, .branch .leave .short ⟨9⟩,
        .ret] with
    handlers :=
      [⟨.catch SystemLibrary.exception, ⟨0⟩, ⟨4⟩, ⟨4⟩, some ⟨9⟩⟩] }

end TwoMachines

open TwoMachines in
theorem Weaver.weaveMethod_returns_inside_behind :
    ∃ (final : WeaveState) (woven : MethodBody),
      (weaveMethod graph {} context.method).run
          (stateRunning moveNextBehind) = (.ok (), final) ∧
        final.bodies.get? ⟨14⟩ = some woven ∧
        moveNextBehind.anyInRegion Operation.isRet = false ∧
        woven.anyInRegion Operation.isRet = false := by
  have ran :=
    run_eq_of_isOk
      (show ((weaveMethod graph {} context.method).run
        (stateRunning moveNextBehind)).1.isOk = true by decide +kernel)
  obtain ⟨woven, placed⟩ :=
    Option.isSome_iff_exists.mp
      (show (((weaveMethod graph {} context.method).run
        (stateRunning moveNextBehind)).2.bodies.get? ⟨14⟩).isSome = true by
          decide +kernel)
  have outside : moveNextBehind.anyInRegion Operation.isRet = false := by
    decide
  refine ⟨_, woven, ran, placed, outside, ?_⟩
  rcases weaveMethod_returns_inside {} context bodyNamingTwice
    (stateRunning moveNextBehind) _ rfl (by decide +kernel) rfl ran ⟨14⟩
    woven placed with same | ⟨old, there, inside⟩
  · cases same
    exact outside
  · cases there
    rw [Bool.eq_false_iff, Ne, inside ⟨by decide, by decide, rfl⟩, outside]
    have handsOver :
        moveNextBehind.anyInRegion context.graph.isHandover = false := by
      decide +kernel
    simp [handsOver]

open TwoMachines in
/-- A value handed over inside a region brings a return there. -/
theorem Weaver.returns_inside_of_handover :
    ∃ (final : WeaveState) (woven : MethodBody),
      (weaveMethod graph {} context.method).run
          (stateRunning moveNextInside) = (.ok (), final) ∧
        final.bodies.get? ⟨14⟩ = some woven ∧
        moveNextInside.anyInRegion Operation.isRet = false ∧
        woven.anyInRegion Operation.isRet = true := by
  have ran :=
    run_eq_of_isOk
      (show ((weaveMethod graph {} context.method).run
        (stateRunning moveNextInside)).1.isOk = true by decide +kernel)
  have inside :
      (((weaveMethod graph {} context.method).run
        (stateRunning moveNextInside)).2.bodies.get? ⟨14⟩).map
          (·.anyInRegion Operation.isRet) = some true := by
    decide +kernel
  obtain ⟨woven, placed, returns⟩ := Option.map_eq_some_iff.mp inside
  exact ⟨_, woven, ran, placed, by decide, returns⟩

end NullWeave
