import Mathlib.Data.List.Induction
import NullWeave.Proofs.Weave.GuardLayout

/-!
# Putting in guards keeps the layout

A layout describes a body if the body is the original one with guards where the
layout says, its identities are distinct, and they were all given out by the
body.  One guard put in before an instruction or in front of everything leaves
a body that the layout with that guard describes.

Guards before returns are put in by a pass over positions, the last one first.
A pass never moves what it has still to visit, so every visit finds the
instruction that it was meant for, and each row comes out as the visits to its
instruction leave it.
-/

namespace NullWeave

/-- Identities from a number on can stand between identities below that number. -/
theorem nodup_insert_code
    {front back : List InstrId}
    (distinct : (front ++ back).Nodup)
    (placed : PlacedGuard)
    (below : ∀ id ∈ front ++ back, id.number < placed.start.number)
    (debugBuild : Bool) (next : InstrId) :
    (front ++ (identities (placed.code debugBuild next) ++ back)).Nodup := by
  have fresh : ∀ id ∈ identities (placed.code debugBuild next),
      id ∉ front ++ back := by
    intro id member old
    have above := (mem_identities_numberFrom.mp member).1
    have under := below id old
    omega
  rw [List.nodup_append] at distinct ⊢
  refine ⟨distinct.1, List.nodup_append.mpr
    ⟨nodup_identities_numberFrom _ _, distinct.2.1, ?_⟩, ?_⟩
  · rintro id member _ backMember rfl
    exact fresh id member (List.mem_append_right _ backMember)
  · rintro id frontMember _ member rfl
    rcases List.mem_append.mp member with inserted | backMember
    · exact fresh id inserted (List.mem_append_left _ frontMember)
    · exact distinct.2.2 id frontMember id backMember rfl

namespace GuardLayout

/-- A body is an original body with guards in it as a layout says. -/
structure Describes
    (layout : GuardLayout) (debugBuild : Bool)
    (original guarded : MethodBody) : Prop where
  instructions :
    guarded.instructions = layout.code debugBuild original.instructions
  handlers :
    guarded.handlers =
      original.handlers.map (·.mapBoundaries layout.entrance)
  locals : guarded.locals = original.locals
  distinct : (identities guarded.instructions).Nodup
  issued : ∀ id ∈ identities guarded.instructions,
    id.number < guarded.nextId.number

/-- A body without guards is described by the layout that has none. -/
theorem describes_self
    (debugBuild : Bool) {body : MethodBody}
    (wellFormed : body.WellFormed) :
    Describes {} debugBuild body body where
  instructions := by
    have single :
        GuardLayout.block {} debugBuild =
          fun instruction => [instruction] := by
      funext instruction
      change [instruction.mapTargets id] = [instruction]
      simp [Instruction.mapTargets]
    have blocks :
        GuardLayout.blocks {} debugBuild body.instructions =
          body.instructions := by
      simp [GuardLayout.blocks, single]
    cases instructions : body.instructions with
    | nil =>
        rfl
    | cons first rest =>
        simpa [code, frontCode, instructions] using blocks.symm
  handlers := by
    have unchanged :
        GuardLayout.entrance {} = (id : InstrId → InstrId) := rfl
    simp [unchanged, ExceptionHandler.mapBoundaries]
  locals := rfl
  distinct := wellFormed.distinct
  issued := by
    intro id member
    obtain ⟨instruction, here, rfl⟩ := mem_identities.mp member
    exact wellFormed.issued instruction here

/-- The number of instructions in front of the row before an instruction. -/
def offset
    (layout : GuardLayout) (debugBuild : Bool)
    (instructions earlier : List Instruction) : Nat :=
  (layout.frontCode debugBuild instructions ++
    layout.blocks debugBuild earlier).length

namespace Describes

variable
    {layout : GuardLayout} {style : GuardStyle}
    {original : MethodBody} {guarded : GuardedBody}

theorem addExitGuard
    (described :
      layout.Describes style.debugBuild original guarded.body)
    (wellFormed : original.WellFormed)
    (place : layout.Place original.instructions) (guard : Guard) :
    (place.filled ⟨guard, guarded.body.nextId⟩).Describes
      style.debugBuild original
      (guarded.addExitGuard style
        (place.codeBefore style.debugBuild).length guard).body := by
  have clear :=
    place.clear_of_distinct
      (described.instructions ▸ described.distinct)
  have head := place.head?_codeBehind style.debugBuild
  cases behind : place.codeBehind style.debugBuild with
  | nil =>
      simp [behind] at head
  | cons point back =>
      have pointId : point.id = place.old := by
        simpa [behind] using head
      have split :
          guarded.body.instructions =
            place.codeBefore style.debugBuild ++ point :: back := by
        rw [described.instructions, place.code_eq, behind]
      obtain ⟨instructions, handlers, locals, nextId⟩ :=
        GuardedBody.addExitGuard_of_split split style guard
      have distinct := described.distinct
      have issued := described.issued
      rw [split, identities_append] at distinct issued
      have inserted :=
        nodup_insert_code distinct ⟨guard, guarded.body.nextId⟩
          issued style.debugBuild point.id
      refine ⟨?_, ?_, ?_, ?_, ?_⟩
      · rw [instructions, pointId, ← behind]
        exact Place.code_filled clear ⟨guard, guarded.body.nextId⟩
          wellFormed.distinct wellFormed.targetsWithin
      · rw [handlers, described.handlers, List.map_map]
        refine List.map_congr_left fun handler member => ?_
        rw [Function.comp_apply,
          ExceptionHandler.mapBoundaries_mapBoundaries]
        refine ExceptionHandler.mapBoundaries_congr fun id boundary => ?_
        rw [Function.comp_apply, pointId]
        exact Place.entrance_filled clear ⟨guard, guarded.body.nextId⟩
          (wellFormed.boundary_mem member boundary)
      · rw [locals, described.locals]
      · simpa [instructions] using inserted
      · intro id member
        rw [nextId]
        simp only [instructions, identities_append,
          identities_map_mapTargets, List.mem_append] at member
        rcases member with before | fresh | later
        · have old := issued id (List.mem_append_left _ before)
          omega
        · have new := (mem_identities_numberFrom.mp fresh).2
          simpa using new
        · have old := issued id (List.mem_append_right _ later)
          omega

theorem addEntryGuard
    (described :
      layout.Describes style.debugBuild original guarded.body)
    (nonempty : original.instructions ≠ []) (guard : Guard) :
    (layout.putFront ⟨guard, guarded.body.nextId⟩).Describes
      style.debugBuild original
      (guarded.addEntryGuard style guard).body := by
  obtain ⟨first, rest, whole⟩ := List.exists_cons_of_ne_nil nonempty
  have head :
      (guarded.body.instructions.head?).map (·.id) =
        some (layout.front.entrance (layout.entrance first.id)) := by
    rw [described.instructions, whole, code, frontCode]
    cases row : layout.front with
    | nil =>
        simpa using layout.head?_blocks style.debugBuild first rest
    | cons placed others =>
        have start :=
          placed.head?_code style.debugBuild
            (GuardRow.entrance others (layout.entrance first.id))
        rw [GuardRow.code_cons, List.append_assoc, List.head?_append]
        cases code : (placed.code style.debugBuild
            (GuardRow.entrance others
              (layout.entrance first.id))).head? with
        | none =>
            simp [code] at start
        | some instruction =>
            simpa [code] using start
  cases split : guarded.body.instructions with
  | nil =>
      simp [split] at head
  | cons entry others =>
      have entryId :
          entry.id = layout.front.entrance (layout.entrance first.id) := by
        simpa [split] using head
      obtain ⟨instructions, handlers, locals, nextId⟩ :=
        GuardedBody.addEntryGuard_of_cons split style guard
      have inserted :=
        nodup_insert_code
          (show ([] ++ identities guarded.body.instructions).Nodup from
            described.distinct)
          ⟨guard, guarded.body.nextId⟩ described.issued
          style.debugBuild entry.id
      refine ⟨?_, ?_, ?_, ?_, ?_⟩
      · rw [instructions, entryId, described.instructions, whole]
        simp only [code, frontCode, putFront, GuardRow.code_cons,
          List.append_assoc]
        rfl
      · rw [handlers, described.handlers]
        rfl
      · rw [locals, described.locals]
      · simpa [instructions] using inserted
      · intro id member
        rw [nextId]
        rw [instructions, identities_append] at member
        rcases List.mem_append.mp member with fresh | old
        · have new := (mem_identities_numberFrom.mp fresh).2
          simpa using new
        · have below := described.issued id old
          omega

/-- A guard put in front of the row before an instruction. -/
theorem prependGuard
    (described :
      layout.Describes style.debugBuild original guarded.body)
    (wellFormed : original.WellFormed)
    {earlier later : List Instruction} {point : Instruction}
    (split : original.instructions = earlier ++ point :: later)
    (guard : Guard) :
    (layout.put point.id
        (⟨guard, guarded.body.nextId⟩ ::
          layout.before point.id)).Describes
      style.debugBuild original
      (guarded.addExitGuard style
        (layout.offset style.debugBuild original.instructions earlier)
        guard).body := by
  have added :=
    described.addExitGuard wellFormed
      ⟨earlier, point, later, [], layout.before point.id, split, rfl⟩
      guard
  simpa [Place.codeBefore, Place.filled, offset] using added

/-- A guard put in behind the row before an instruction. -/
theorem appendGuard
    (described :
      layout.Describes style.debugBuild original guarded.body)
    (wellFormed : original.WellFormed)
    {earlier later : List Instruction} {point : Instruction}
    (split : original.instructions = earlier ++ point :: later)
    (guard : Guard) :
    (layout.put point.id
        (layout.before point.id ++
          [⟨guard, guarded.body.nextId⟩])).Describes
      style.debugBuild original
      (guarded.addExitGuard style
        (layout.offset style.debugBuild original.instructions earlier +
          (layout.before point.id).size style.debugBuild)
        guard).body := by
  have added :=
    described.addExitGuard wellFormed
      ⟨earlier, point, later, layout.before point.id, [], split,
        by simp⟩
      guard
  simpa [Place.codeBefore, Place.filled, offset, Nat.add_assoc]
    using added

end Describes

end GuardLayout

/-! ## Positions, from the last one on -/

theorem positionsWhere_append_singleton
    (test : Operation → Bool)
    (front : List Instruction) (last : Instruction) :
    positionsWhere test (front ++ [last]) =
      if test last.operation then
        front.length :: positionsWhere test front
      else
        positionsWhere test front := by
  cases tested : test last.operation <;>
    simp [positionsWhere, List.zipIdx_append, tested]

theorem positionsWhere_of_none
    {test : Operation → Bool} {instructions : List Instruction}
    (quiet : ∀ instruction ∈ instructions,
      test instruction.operation = false) :
    positionsWhere test instructions = [] := by
  induction instructions using List.reverseRecOn with
  | nil =>
      rfl
  | append_singleton front last inductionHypothesis =>
      rw [positionsWhere_append_singleton, quiet last (by simp),
        inductionHypothesis fun instruction member =>
          quiet instruction (List.mem_append_left _ member)]
      rfl

theorem positionsWhere_append_quiet
    {test : Operation → Bool} (front : List Instruction)
    {back : List Instruction}
    (quiet : ∀ instruction ∈ back,
      test instruction.operation = false) :
    positionsWhere test (front ++ back) =
      positionsWhere test front := by
  induction back using List.reverseRecOn with
  | nil =>
      simp
  | append_singleton back last inductionHypothesis =>
      rw [← List.append_assoc, positionsWhere_append_singleton,
        quiet last (by simp),
        inductionHypothesis fun instruction member =>
          quiet instruction (List.mem_append_left _ member)]
      rfl

/-! ## Passes -/

namespace GuardRow

/-- No operation of a row satisfies a test. -/
def Quiet
    (row : GuardRow) (debugBuild : Bool) (test : Operation → Bool) :
    Prop :=
  ∀ placed ∈ row, ∀ next,
    ∀ operation ∈ placed.guard.operations debugBuild next,
      test operation = false

theorem Quiet.code
    {row : GuardRow} {debugBuild : Bool} {test : Operation → Bool}
    (quiet : row.Quiet debugBuild test) (next : InstrId) :
    ∀ instruction ∈ row.code debugBuild next,
      test instruction.operation = false := by
  induction row with
  | nil =>
      simp
  | cons placed rest inductionHypothesis =>
      intro instruction member
      rw [code_cons] at member
      rcases List.mem_append.mp member with first | later
      · refine quiet placed (List.mem_cons_self ..)
          (entrance rest next) instruction.operation ?_
        have listed := List.mem_map_of_mem (f := (·.operation)) first
        simpa [PlacedGuard.code] using listed
      · exact inductionHypothesis
          (fun other otherMember =>
            quiet other (List.mem_cons_of_mem _ otherMember))
          instruction later

theorem quiet_of_throws
    {row : GuardRow}
    (throws : ∀ guard ∈ row.map (·.guard), guard.exit = .throw)
    (debugBuild : Bool) :
    row.Quiet debugBuild Operation.isRet := by
  intro placed member next operation here
  have exit := throws placed.guard (List.mem_map_of_mem member)
  exact Guard.isRet_of_mem_operations exit here

end GuardRow

namespace GuardLayout

/-- The guards before an instruction. -/
def guardsBefore (layout : GuardLayout) (id : InstrId) : List Guard :=
  (layout.before id).map (·.guard)

theorem offset_congr
    {left right : GuardLayout} {earlier : List Instruction}
    (sameFront : left.front = right.front)
    (sameBefore : ∀ instruction ∈ earlier,
      left.before instruction.id = right.before instruction.id)
    (debugBuild : Bool) (instructions : List Instruction) :
    left.offset debugBuild instructions earlier =
      right.offset debugBuild instructions earlier := by
  have front :
      (left.frontCode debugBuild instructions).length =
        (right.frontCode debugBuild instructions).length := by
    cases instructions <;> simp [frontCode, sameFront]
  have blocks :
      (left.blocks debugBuild earlier).length =
        (right.blocks debugBuild earlier).length := by
    induction earlier with
    | nil =>
        rfl
    | cons instruction rest inductionHypothesis =>
        have tail := inductionHypothesis fun other member =>
          sameBefore other (List.mem_cons_of_mem _ member)
        simp [block, tail, sameBefore instruction (by simp)]
  simp [offset, front, blocks]

/-- A row before an instruction does not move what stands before the row. -/
theorem offset_put
    (layout : GuardLayout) (debugBuild : Bool)
    {original : MethodBody} (wellFormed : original.WellFormed)
    {earlier later : List Instruction} {point : Instruction}
    (split : original.instructions = earlier ++ point :: later)
    (row : GuardRow) :
    (layout.put point.id row).offset debugBuild
        original.instructions earlier =
      layout.offset debugBuild original.instructions earlier := by
  have distinct := wellFormed.distinct
  rw [split, identities_append, identities_cons, List.nodup_append]
    at distinct
  refine offset_congr (layout.front_put point.id row) ?_ _ _
  intro instruction member
  refine before_put_of_ne _ _ ?_
  exact distinct.2.2 instruction.id (id_mem_identities member)
    point.id (by simp)

theorem positionsWhere_frontCode
    {layout : GuardLayout} {debugBuild : Bool} {test : Operation → Bool}
    (quiet : layout.front.Quiet debugBuild test)
    (instructions : List Instruction) :
    positionsWhere test (layout.frontCode debugBuild instructions) =
      [] := by
  apply positionsWhere_of_none
  cases instructions with
  | nil =>
      simp [frontCode]
  | cons first rest =>
      exact quiet.code (layout.entrance first.id)

theorem positionsWhere_snoc
    {layout : GuardLayout} {debugBuild : Bool} {test : Operation → Bool}
    (sameTest : ∀ change operation,
      test (operation.mapTargets change) = test operation)
    (instructions earlier : List Instruction) {point : Instruction}
    (quiet : (layout.before point.id).Quiet debugBuild test) :
    positionsWhere test
        (layout.frontCode debugBuild instructions ++
          layout.blocks debugBuild (earlier ++ [point])) =
      if test point.operation then
        (layout.offset debugBuild instructions earlier +
            (layout.before point.id).size debugBuild) ::
          positionsWhere test
            (layout.frontCode debugBuild instructions ++
              layout.blocks debugBuild earlier)
      else
        positionsWhere test
          (layout.frontCode debugBuild instructions ++
            layout.blocks debugBuild earlier) := by
  have split :
      layout.frontCode debugBuild instructions ++
          layout.blocks debugBuild (earlier ++ [point]) =
        (layout.frontCode debugBuild instructions ++
            layout.blocks debugBuild earlier ++
              (layout.before point.id).code debugBuild point.id) ++
          [point.mapTargets layout.entrance] := by
    simp [block]
  rw [split, positionsWhere_append_singleton,
    positionsWhere_append_quiet _ (quiet.code point.id)]
  simp only [Instruction.mapTargets, sameTest, List.length_append,
    GuardRow.length_code, offset]

/-- What a pass has done when it has still to visit some instructions. -/
structure Passed
    (layout current : GuardLayout)
    (test : Operation → Bool) (change : List Guard → List Guard)
    (earlier later : List Instruction) : Prop where
  front : current.front = layout.front
  before : ∀ instruction ∈ earlier,
    current.before instruction.id = layout.before instruction.id
  visited : ∀ instruction ∈ later,
    current.guardsBefore instruction.id =
      if test instruction.operation then
        change (layout.guardsBefore instruction.id)
      else
        layout.guardsBefore instruction.id

namespace Passed

variable
    {layout current : GuardLayout}
    {test : Operation → Bool} {change : List Guard → List Guard}
    {earlier later : List Instruction} {point : Instruction}

/-- A pass leaves alone what does not satisfy its test. -/
theorem skip
    (passed : layout.Passed current test change (earlier ++ [point]) later)
    (other : test point.operation = false) :
    layout.Passed current test change earlier (point :: later) where
  front := passed.front
  before := by
    intro instruction member
    exact passed.before instruction (List.mem_append_left _ member)
  visited := by
    intro instruction member
    rcases List.mem_cons.mp member with rfl | old
    · have same := passed.before instruction (by simp)
      simp [guardsBefore, same, other]
    · exact passed.visited instruction old

/-- A visit changes the row of its instruction and no other one. -/
theorem put
    (passed : layout.Passed current test change (earlier ++ [point]) later)
    (distinct : (identities (earlier ++ point :: later)).Nodup)
    (tested : test point.operation = true)
    {row : GuardRow}
    (guards :
      row.map (·.guard) = change (layout.guardsBefore point.id)) :
    layout.Passed (current.put point.id row) test change earlier
      (point :: later) := by
  rw [identities_append, identities_cons, List.nodup_append] at distinct
  obtain ⟨-, behind, apart⟩ := distinct
  refine ⟨passed.front, ?_, ?_⟩
  · intro instruction member
    have elsewhere : instruction.id ≠ point.id :=
      apart instruction.id (id_mem_identities member) point.id (by simp)
    rw [before_put_of_ne _ _ elsewhere]
    exact passed.before instruction (List.mem_append_left _ member)
  · intro instruction member
    rcases List.mem_cons.mp member with rfl | old
    · simp [guardsBefore, tested, guards]
    · have elsewhere : instruction.id ≠ point.id := by
        intro same
        exact (List.nodup_cons.mp behind).1
          (same ▸ id_mem_identities old)
      have visited := passed.visited instruction old
      simpa [guardsBefore, before_put_of_ne _ _ elsewhere] using visited

end Passed

/--
A pass over the instructions that satisfy a test leaves each of their rows as
the visit to the instruction does, and all other rows as they were.
-/
theorem Describes.pass
    {layout : GuardLayout} {debugBuild : Bool}
    {original : MethodBody} {guarded : GuardedBody}
    (described :
      layout.Describes debugBuild original guarded.body)
    (wellFormed : original.WellFormed)
    (test : Operation → Bool) (change : List Guard → List Guard)
    (visit : GuardedBody → Nat → GuardedBody)
    (sameTest : ∀ change operation,
      test (operation.mapTargets change) = test operation)
    (frontQuiet : layout.front.Quiet debugBuild test)
    (quiet : ∀ instruction ∈ original.instructions,
      (layout.before instruction.id).Quiet debugBuild test)
    (visits : ∀ (current : GuardLayout) (guarded : GuardedBody)
      (earlier : List Instruction) (point : Instruction)
      (later : List Instruction),
      original.instructions = earlier ++ point :: later →
      test point.operation = true →
      current.Describes debugBuild original guarded.body →
      current.before point.id = layout.before point.id →
      ∃ row : GuardRow,
        row.map (·.guard) = change (layout.guardsBefore point.id) ∧
          (current.put point.id row).Describes debugBuild original
            (visit guarded
              (current.offset debugBuild original.instructions earlier +
                (current.before point.id).size debugBuild)).body) :
    ∃ final : GuardLayout,
      final.Describes debugBuild original
        ((positionsWhere test guarded.body.instructions).foldl
          visit guarded).body ∧
        layout.Passed final test change [] original.instructions := by
  suffices remaining :
      ∀ (earlier later : List Instruction)
        (current : GuardLayout) (guarded : GuardedBody),
        original.instructions = earlier ++ later →
        current.Describes debugBuild original guarded.body →
        layout.Passed current test change earlier later →
        ∃ final : GuardLayout,
          final.Describes debugBuild original
            ((positionsWhere test
              (layout.frontCode debugBuild original.instructions ++
                layout.blocks debugBuild earlier)).foldl
              visit guarded).body ∧
            layout.Passed final test change [] original.instructions by
    rw [described.instructions]
    exact remaining original.instructions [] layout guarded (by simp)
      described ⟨rfl, fun _ _ => rfl, by simp⟩
  intro earlier
  -- The pass starts at the end, so the induction takes the last instruction off.
  induction earlier using List.reverseRecOn with
  | nil =>
      intro later current guarded split describedNow passed
      rw [blocks_nil, List.append_nil,
        positionsWhere_frontCode frontQuiet original.instructions]
      refine ⟨current, describedNow, ?_⟩
      rw [split]
      exact passed
  | append_singleton earlier point inductionHypothesis =>
      intro later current guarded split describedNow passed
      have splitHere :
          original.instructions = earlier ++ point :: later := by
        simpa using split
      have samePoint := passed.before point (by simp)
      rw [positionsWhere_snoc sameTest original.instructions earlier
        (quiet point (by simp [splitHere]))]
      cases tested : test point.operation with
      | false =>
          exact inductionHypothesis (point :: later) current guarded
            splitHere describedNow (passed.skip tested)
      | true =>
          obtain ⟨row, guards, describedNext⟩ :=
            visits current guarded earlier point later splitHere tested
              describedNow samePoint
          have sameOffset :
              current.offset debugBuild original.instructions earlier =
                layout.offset debugBuild original.instructions earlier :=
            offset_congr passed.front
              (fun instruction member =>
                passed.before instruction (by simp [member]))
              debugBuild original.instructions
          rw [sameOffset, samePoint] at describedNext
          rw [if_pos rfl, List.foldl_cons]
          exact inductionHypothesis (point :: later)
            (current.put point.id row) _ splitHere describedNext
            (passed.put (splitHere ▸ wellFormed.distinct) tested guards)

end GuardLayout

end NullWeave
