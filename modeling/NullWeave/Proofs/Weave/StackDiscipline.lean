import NullWeave.Proofs.Code.DepthSearch
import NullWeave.Proofs.Weave.LayoutDepth
import NullWeave.Proofs.Weave.ReturnGuards

/-!
# Weaving keeps the depths of the stack

The guards of a method are balanced where they stand: those in front find an
empty stack, those before a return find nothing but the value returned.  So a
body that passes the check passes it again once it has its guards, every
instruction of it is reached with the same depth, and the greatest depth grows
to what a guard needs at most.
-/

namespace NullWeave

/-! ## Ways through guards -/

/-- Control goes straight through operations from which it goes on. -/
theorem MethodBody.Reached.through
    {graph : Graph} {body : MethodBody}
    {front back : List Instruction} {start : InstrId}
    {operations : List Operation} {last : Instruction}
    (split : body.instructions =
      front ++ (numberFrom start operations ++ last :: back))
    (named : last.id = ⟨start.number + operations.length⟩)
    (goesOn : ∀ operation ∈ operations,
      operation.neverFallsThrough = false)
    {depth : Nat} (reached : body.Reached graph start depth) :
    body.Reached graph last.id (depthThrough graph depth operations) := by
  induction operations generalizing front start depth with
  | nil =>
      rw [named]
      exact reached
  | cons operation rest inductionHypothesis =>
      have nextReached :
          body.Reached graph start.next
            (operation.depthAfter graph depth) := by
        cases rest with
        | nil =>
            have next : last.id = start.next := named
            have there := Reached.next split reached (goesOn _ (by simp))
            exact next ▸ there
        | cons following others =>
            exact Reached.next split reached (goesOn _ (by simp))
      have tail : body.instructions =
          (front ++ [⟨start, operation⟩]) ++
            (numberFrom start.next rest ++ last :: back) := by
        rw [split]
        simp [numberFrom]
      have lastNamed :
          last.id = ⟨start.next.number + rest.length⟩ := by
        rw [named, List.length_cons]
        simp only [InstrId.next, InstrId.mk.injEq]
        omega
      exact inductionHypothesis tail lastNamed
        (fun other member => goesOn other (List.mem_cons_of_mem _ member))
        nextReached

section Ways

variable
    {graph : Graph} {debugBuild : Bool}

/-- Control comes to the test of a guard with one value on the stack that it came with. -/
theorem PlacedGuard.reached_test
    {body : MethodBody} {placed : PlacedGuard} {test : Instruction}
    {front back : List Instruction}
    (split : body.instructions =
      front ++
        (MethodBody.numberFrom placed.start
            (placed.guard.loading debugBuild) ++
          test :: back))
    (named : test.id = placed.test debugBuild)
    {depth : Nat}
    (through : placed.guard.LetsThrough graph debugBuild depth)
    (reached : body.Reached graph placed.start depth) :
    body.Reached graph test.id (depth + 1) := by
  rw [Guard.LetsThrough] at through
  rw [← through]
  exact reached.through split named fun operation member =>
    (placed.guard.straight_loading debugBuild operation member).2

/-- Control goes through a guard to the place where it goes on, with the stack that it came with. -/
theorem PlacedGuard.reached_next
    {body : MethodBody} {placed : PlacedGuard} {next : InstrId}
    {front back : List Instruction}
    (split : body.instructions =
      front ++ (placed.code debugBuild next ++ back))
    {depth : Nat}
    (through : placed.guard.LetsThrough graph debugBuild depth)
    (reached : body.Reached graph placed.start depth) :
    body.Reached graph next depth := by
  rw [code_eq, List.append_assoc, List.cons_append] at split
  have tested := PlacedGuard.reached_test split rfl through reached
  have inside :
      ⟨placed.test debugBuild, .branch .ifTrue .long next⟩ ∈
        body.instructions := by
    rw [split]
    simp
  exact tested.jump inside (by simp [Operation.targets])

theorem GuardRow.reached_next
    {body : MethodBody} {row : GuardRow} {next : InstrId}
    {front back : List Instruction}
    (split : body.instructions =
      front ++ (row.code debugBuild next ++ back))
    {depth : Nat}
    (through : ∀ guard ∈ row.map (·.guard),
      guard.LetsThrough graph debugBuild depth)
    (reached : body.Reached graph (row.entrance next) depth) :
    body.Reached graph next depth := by
  induction row generalizing front with
  | nil =>
      exact reached
  | cons placed row inductionHypothesis =>
      rw [code_cons, List.append_assoc] at split
      have behind :=
        PlacedGuard.reached_next split
          (through placed.guard (by simp)) reached
      rw [← List.append_assoc] at split
      exact inductionHypothesis split
        (fun guard member => through guard (List.mem_cons_of_mem _ member))
        behind

end Ways

namespace GuardLayout

variable
    {graph : Graph} {debugBuild : Bool}
    {depths : InstrId → Option Nat} {layout : GuardLayout}
    {original guarded : MethodBody}

/-- Control goes through the row before an instruction to the instruction. -/
theorem Describes.reached_point
    (described : layout.Describes debugBuild original guarded)
    (through : layout.LetsThrough graph debugBuild depths
      original.instructions)
    {instruction : Instruction}
    (member : instruction ∈ original.instructions)
    {depth : Nat} (known : depths instruction.id = some depth)
    (entered :
      guarded.Reached graph (layout.entrance instruction.id) depth) :
    guarded.Reached graph instruction.id depth := by
  obtain ⟨earlier, later, split⟩ := List.append_of_mem member
  obtain ⟨front, stands, -⟩ := described.block_stands split
  exact GuardRow.reached_next stands
    (through.before instruction member depth known) entered

/-- Where control came in the original body, it comes to the row before it. -/
theorem Describes.reached_entrance
    (described : layout.Describes debugBuild original guarded)
    (through : layout.LetsThrough graph debugBuild depths
      original.instructions)
    (known : ∀ id depth,
      depths id = some depth ↔ original.Reached graph id depth)
    {id : InstrId} {depth : Nat}
    (reached : original.Reached graph id depth) :
    guarded.Reached graph (layout.entrance id) depth := by
  induction reached with
  | @entry first rest whole =>
      obtain ⟨start, others, blocks, named⟩ :=
        layout.blocks_eq_cons debugBuild first rest
      have stands := described.instructions
      rw [whole, code, frontCode, blocks, ← named] at stands
      have entered :
          guarded.Reached graph (layout.front.entrance start.id) 0 := by
        have head := GuardRow.head?_code_append debugBuild layout.front
          start others
        rw [← stands] at head
        cases all : guarded.instructions with
        | nil =>
            simp [all] at head
        | cons entry tail =>
            have entryNamed :
                entry.id = layout.front.entrance start.id := by
              simpa [all] using head
            rw [← entryNamed]
            exact .entry all
      rw [← named]
      exact GuardRow.reached_next
        (stands.trans (List.nil_append _).symm) through.front entered
  | @handler handler member =>
      have inside :
          handler.mapBoundaries layout.entrance ∈ guarded.handlers := by
        rw [described.handlers]
        exact List.mem_map_of_mem member
      exact .handler inside
  | @jump instruction target depth member reached targeted
      inductionHypothesis =>
      have here :=
        described.reached_point through member
          ((known _ _).mpr reached) inductionHypothesis
      have inside :
          instruction.mapTargets layout.entrance ∈
            guarded.instructions := by
        rw [described.instructions]
        exact mem_code_of_mem_block member (by simp [block])
      have there :=
        MethodBody.Reached.jump inside here
          (by
            simp only [Instruction.mapTargets,
              Operation.targets_mapTargets]
            exact List.mem_map_of_mem targeted)
      simpa [Instruction.mapTargets] using there
  | @next front back instruction following depth split reached goesOn
      inductionHypothesis =>
      have here :=
        described.reached_point through (by simp [split])
          ((known _ _).mpr reached) inductionHypothesis
      obtain ⟨front, stands, -⟩ := described.block_stands split
      obtain ⟨start, others, blocks, named⟩ :=
        layout.blocks_eq_cons debugBuild following back
      rw [blocks, ← List.append_assoc] at stands
      have there :=
        MethodBody.Reached.next stands here
          (by simpa [Instruction.mapTargets] using goesOn)
      rw [← named]
      simpa [Instruction.mapTargets] using there

theorem shows_mapTargets
    {change : InstrId → InstrId} {instruction : Instruction}
    {depth shown : Nat} :
    MethodBody.Shows graph (instruction.mapTargets change) depth shown ↔
      MethodBody.Shows graph instruction depth shown := by
  simp [MethodBody.Shows, Instruction.mapTargets]

section Depths

variable {bound : Nat} {returnsValue : Bool}

theorem Describes.disciplined
    (described : layout.Describes debugBuild original guarded)
    (disciplined : original.Disciplined graph returnsValue)
    (known : ∀ id depth,
      depths id = some depth ↔ original.Reached graph id depth)
    (balanced : layout.Balanced graph bound returnsValue debugBuild depths
      original.instructions) :
    guarded.Disciplined graph returnsValue :=
  (described.annotates (disciplined.annotates known) balanced).disciplined
    described.distinct

/-- The greatest depth does not shrink. -/
theorem Describes.deepest_le
    (described : layout.Describes debugBuild original guarded)
    (known : ∀ id depth,
      depths id = some depth ↔ original.Reached graph id depth)
    (balanced : layout.Balanced graph bound returnsValue debugBuild depths
      original.instructions)
    {deepest deeper : Nat} (isDeepest : original.IsDeepest graph deepest)
    (isDeeper : guarded.IsDeepest graph deeper) :
    deepest ≤ deeper := by
  rcases isDeepest.attained with
    none | ⟨instruction, member, depth, reached, deepestShown⟩
  · omega
  · have inside :
        instruction.mapTargets layout.entrance ∈
          guarded.instructions := by
      rw [described.instructions]
      exact mem_code_of_mem_block member (by simp [block])
    have through := balanced.letsThrough
    have entered := described.reached_entrance through known reached
    have there :=
      described.reached_point through member
        ((known _ _).mpr reached) entered
    exact isDeeper.bounds _ inside depth there deepest
      (shows_mapTargets.mpr deepestShown)

/-- The greatest depth grows to what a guard needs at most. -/
theorem Describes.le_deepest
    (described : layout.Describes debugBuild original guarded)
    (disciplined : original.Disciplined graph returnsValue)
    (known : ∀ id depth,
      depths id = some depth ↔ original.Reached graph id depth)
    (balanced : layout.Balanced graph bound returnsValue debugBuild depths
      original.instructions)
    {deepest deeper : Nat} (isDeepest : original.IsDeepest graph deepest)
    (isDeeper : guarded.IsDeepest graph deeper) :
    deeper ≤ max deepest bound := by
  have originalAnnotates := disciplined.annotates known
  have annotates := described.annotates originalAnnotates balanced
  rcases isDeeper.attained with
    none | ⟨instruction, member, depth, reached, deepestShown⟩
  · omega
  · obtain ⟨point, here, rfl⟩ := annotates.exists_point member
    have written :=
      annotates.depth_eq described.distinct here
        (annotates.has_of_reached described.distinct reached)
    rcases cases_of_mem_depthCode balanced (entry_of originalAnnotates.entry)
      here written with
      ⟨old, oldMember, same, oldKnown⟩ | within
    · rw [same, shows_mapTargets] at deepestShown
      have bounds := isDeepest.bounds old oldMember depth
        ((known _ _).mp oldKnown) deeper deepestShown
      omega
    · have bounds := within.within deeper deepestShown
      omega

end Depths

end GuardLayout

/-! ## The guards of a method -/

namespace MethodContext

variable
    {context : MethodContext} {settings : Settings}
    {body : MethodBody} {layout : GuardLayout}

/-- The depth that every guard of a method stays within. -/
def guardDepth (settings : Settings) : Nat :=
  if settings.debugBuild then 3 else 2

/-- What a method leaves on the stack where it returns. -/
def returnsValue (context : MethodContext) : Bool :=
  !context.decl.returnType.isVoid

theorem balanced_entryGuard
    (includes : context.graph.IncludesSystem)
    {guard : Guard} (member : guard ∈ context.entryGuards settings body) :
    guard.Balanced context.graph (guardDepth settings)
      context.returnsValue settings.debugBuild 0 := by
  obtain ⟨index, parameter, message, rfl⟩ :=
    context.exists_of_mem_entryGuards member
  have room : 2 ≤ guardDepth settings := by
    unfold guardDepth
    split <;> omega
  refine Guard.balanced includes (Guard.settles_of_throws rfl) ?_
    (by omega) (fun _ => room) (fun _ _ => room)
  intro type top
  cases top

theorem balanced_exitGuard
    (includes : context.graph.IncludesSystem)
    {guard : Guard} (member : guard ∈ context.exitGuards) :
    guard.Balanced context.graph (guardDepth settings)
      context.returnsValue settings.debugBuild
      context.returnsValue.toNat := by
  have room : 2 ≤ guardDepth settings := by
    unfold guardDepth
    split <;> omega
  have roomToAssert :
      settings.debugBuild = true → 3 ≤ guardDepth settings := by
    intro debug
    rw [guardDepth, if_pos debug]
  have one : context.returnsValue.toNat ≤ 1 := Bool.toNat_le _
  rcases context.cases_of_mem_outGuards_append
    (context.exitGuards_sublist.subset member) with ⟨entry, rfl⟩ | ⟨checked, rfl⟩
  · refine Guard.balanced includes (Guard.settles_of_throws rfl) ?_
      (by omega) (fun debug => Nat.le_trans (by omega) (roomToAssert debug)) nofun
    intro type top
    cases top
  · have some : context.returnsValue = true := by
      simp only [NullPolicy.checksResult, Bool.and_eq_true] at checked
      exact checked.1.1.2
    exact Guard.balanced includes (Guard.settles_of_throws rfl)
      (fun _ _ => by simp [some]) (by omega)
      (fun debug => Nat.le_trans (by omega) (roomToAssert debug)) nofun

/-- The guards of a method are balanced in a disciplined body of it. -/
theorem Lays.balanced
    (lays : context.Lays settings body layout)
    (includes : context.graph.IncludesSystem)
    {depths : InstrId → Option Nat}
    (disciplined :
      body.widen.Disciplined context.graph context.returnsValue)
    (known : ∀ id depth,
      depths id = some depth ↔
        body.widen.Reached context.graph id depth) :
    layout.Balanced context.graph (guardDepth settings)
      context.returnsValue settings.debugBuild depths
      body.widen.instructions := by
  have returned : ∀ instruction ∈ body.widen.instructions,
      ∀ guard ∈ layout.guardsBefore instruction.id,
        instruction.operation.isRet = true ∧
          guard ∈ context.exitGuards := by
    intro instruction member guard among
    obtain ⟨original, there, rfl⟩ := List.mem_map.mp member
    rw [Instruction.id_withForm, lays.before original there] at among
    split at among
    · rename_i returns
      exact ⟨by simpa [Instruction.withForm] using returns, among⟩
    · simp at among
  refine ⟨?_, ?_⟩
  · intro guard among
    rw [lays.front] at among
    exact balanced_entryGuard includes among
  · intro instruction member depth before guard among
    obtain ⟨returns, exit⟩ := returned instruction member guard among
    have admits :=
      disciplined.admits instruction member depth ((known _ _).mp before)
    rw [admits.returns returns]
    exact balanced_exitGuard includes exit

end MethodContext

/-- An instruction stands in a body, its targets apart, and is reached with one depth. -/
structure MethodBody.KeepsAt
    (graph : Graph) (body : MethodBody)
    (instruction : Instruction) (depth : Nat) : Prop where
  stands : ∃ other ∈ body.instructions,
    other.id = instruction.id ∧
      ∃ change, other.operation.withForm .long =
        (instruction.operation.withForm .long).mapTargets change
  reached : ∀ other,
    body.Reached graph instruction.id other ↔ other = depth

namespace MethodContext

variable {context : MethodContext} {body : MethodBody}

/-- The new body of a method passes the check where the original one does. -/
theorem checkDepths_wovenBody
    (includes : context.graph.IncludesSystem) (settings : Settings)
    (wellFormed : body.WellFormed) {deepest : Nat}
    (checked : body.checkDepths context.graph context.returnsValue =
      .ok deepest) :
    ∃ deeper,
      (context.wovenBody settings body).checkDepths context.graph
          context.returnsValue = .ok deeper ∧
        deepest ≤ deeper ∧ deeper ≤ max deepest (guardDepth settings) ∧
        ∀ instruction ∈ body.instructions, ∀ depth,
          body.Reached context.graph instruction.id depth →
            (context.wovenBody settings body).KeepsAt context.graph
              instruction depth := by
  obtain ⟨layout, lays⟩ := context.exists_layout settings wellFormed
  have described := lays.woven
  rw [← MethodBody.checkDepths_widen] at checked
  obtain ⟨disciplined, isDeepest⟩ :=
    MethodBody.checkDepths_sound wellFormed.widen.distinct checked
  obtain ⟨depths, known⟩ := disciplined.exists_depths
  have balanced := lays.balanced includes disciplined known
  have wovenDisciplined :=
    described.disciplined disciplined known balanced
  obtain ⟨deeper, accepted⟩ :=
    MethodBody.checkDepths_accepts described.distinct wovenDisciplined
  have isDeeper :=
    (MethodBody.checkDepths_sound described.distinct accepted).2
  refine ⟨deeper, ?_,
    described.deepest_le known balanced isDeepest isDeeper,
    described.le_deepest disciplined known balanced isDeepest isDeeper, ?_⟩
  · rw [← MethodBody.checkDepths_widen]
    exact accepted
  · intro instruction member depth reached
    rw [← MethodBody.reached_widen] at reached
    have wide : instruction.withForm .long ∈ body.widen.instructions :=
      List.mem_map_of_mem member
    have through := balanced.letsThrough
    have there :=
      described.reached_point through wide ((known _ _).mpr reached)
        (described.reached_entrance through known reached)
    refine ⟨?_, fun other => ⟨fun otherReached => ?_, ?_⟩⟩
    · have inside :
          (instruction.withForm .long).mapTargets layout.entrance ∈
            (context.wovenBody settings body).widen.instructions := by
        rw [described.instructions]
        exact GuardLayout.mem_code_of_mem_block wide
          (by simp [GuardLayout.block])
      obtain ⟨other, otherMember, same⟩ := List.mem_map.mp inside
      obtain ⟨sameId, sameOperation⟩ := Instruction.mk.inj same
      exact ⟨other, otherMember, sameId, layout.entrance, sameOperation⟩
    · rw [← MethodBody.reached_widen] at otherReached
      exact wovenDisciplined.consistent _ _ _ otherReached there
    · rintro rfl
      exact MethodBody.reached_widen.mp there

end MethodContext

namespace Weaver

/--
Weaving a method whose body passes the check of its depths makes a body that
passes it too.  The greatest depth does not shrink and grows to what a guard
needs at most, and every instruction that was reached is reached with the depth
that it had.
-/
theorem weaveMethod_keeps_depths
    (settings : Settings) (context : MethodContext) (body : MethodBody)
    (state : WeaveState)
    (includes : context.graph.IncludesSystem)
    (resolved : NullPolicy.resolve context.graph settings
      context.method = .ok context.policy)
    (visible :
      context.policy.isVisible context.graph context.decl = true)
    (present : state.bodies.get? context.method = some body)
    (wellFormed : body.WellFormed) (deepest : Nat)
    (checked : body.checkDepths context.graph
      (!context.decl.returnType.isVoid) = .ok deepest) :
    let woven := context.wovenBody settings body
    (∀ final,
      (weaveMethod context.graph settings context.method).run state =
          (.ok (), final) →
        ∃ machines : List (MethodId × MethodBody),
          final.bodies =
            machines.foldl
              (fun bodies entry => bodies.set entry.1 entry.2)
              (state.bodies.set context.method woven)) ∧
      (context.shape ≠ .asyncStateMachine →
        ∃ final,
          (weaveMethod context.graph settings context.method).run state =
            (.ok (), final)) ∧
      ∃ deeper,
        woven.checkDepths context.graph
            (!context.decl.returnType.isVoid) = .ok deeper ∧
          deepest ≤ deeper ∧
          deeper ≤ max deepest (if settings.debugBuild then 3 else 2) ∧
          ∀ instruction ∈ body.instructions, ∀ depth,
            body.Reached context.graph instruction.id depth →
              woven.KeepsAt context.graph instruction depth := by
  rw [run_weaveMethod_of_visible resolved visible present]
  refine ⟨fun final ran => bodies_of_run_weaveBody ran, fun sync => ?_,
    MethodContext.checkDepths_wovenBody includes settings wellFormed
      checked⟩
  obtain ⟨final, ran, -⟩ :=
    run_weaveBody_of_not_async sync settings body state
  exact ⟨final, ran⟩

end Weaver

open Sample in
theorem Weaver.weaveMethod_keeps_depths_sample :
    body.checkDepths graph true = .ok 2 ∧
      (context.wovenBody {} body).checkDepths graph true = .ok 2 ∧
      (context.wovenBody {} body).KeepsAt graph ⟨⟨5⟩, .ret⟩ 1 := by
  have checked : body.checkDepths graph true = .ok 2 := by
    rfl
  have includes : context.graph.IncludesSystem :=
    (Graph.includesSystem_system.addType _).addMethod _
  obtain ⟨-, -, deeper, accepted, atLeast, atMost, keeps⟩ :=
    weaveMethod_keeps_depths {} context body state includes rfl
      (by decide +kernel) rfl wellFormed 2 checked
  have two : deeper = 2 := Nat.le_antisymm atMost atLeast
  have first : body.instructions =
      [] ++ ⟨⟨0⟩, .ldStr "none"⟩ :: ⟨⟨1⟩, .ldArg 0⟩ ::
        body.instructions.drop 2 := rfl
  have second : body.instructions =
      [⟨⟨0⟩, .ldStr "none"⟩] ++ ⟨⟨1⟩, .ldArg 0⟩ ::
        ⟨⟨2⟩, .branch .ifTrue .short ⟨5⟩⟩ ::
          body.instructions.drop 3 := rfl
  have tested : body.Reached graph ⟨2⟩ 2 :=
    .next second (.next first (.entry rfl) rfl) rfl
  have test : body.instructions[2]? =
      some ⟨⟨2⟩, .branch .ifTrue .short ⟨5⟩⟩ := rfl
  have last : body.instructions[5]? = some ⟨⟨5⟩, .ret⟩ := rfl
  have returned : body.Reached graph ⟨5⟩ 1 :=
    .jump (List.mem_of_getElem? test) tested (List.mem_singleton.mpr rfl)
  exact ⟨checked, two ▸ accepted,
    keeps _ (List.mem_of_getElem? last) 1 returned⟩

end NullWeave
