import Mathlib.Data.List.Pairwise
import NullWeave.Proofs.Code.Reference
import NullWeave.Proofs.Weave.WovenLayout

/-!
# The new body of a method

A guard refers to one place only, with its test: the place where it goes on.
So the references of a new body are those of the original one, led to the rows
before what they name, and the tests of the guards.

All identities of a new body are distinct, which pins every row to its place:
no start of a guard stands anywhere else, and no row is entered in the middle
except from the test of the guard before.
-/

namespace NullWeave

/-! ## The test of a guard -/

namespace PlacedGuard

/-- The identity of the test of a guard. -/
def test (debugBuild : Bool) (placed : PlacedGuard) : InstrId :=
  ⟨placed.start.number + (placed.guard.loading debugBuild).length⟩

theorem code_eq
    (debugBuild : Bool) (placed : PlacedGuard) (next : InstrId) :
    placed.code debugBuild next =
      MethodBody.numberFrom placed.start
          (placed.guard.loading debugBuild) ++
        ⟨placed.test debugBuild, .branch .ifTrue .long next⟩ ::
          MethodBody.numberFrom (placed.test debugBuild).next
            placed.guard.failing := by
  rw [code, Guard.operations_eq, numberFrom_append]
  rfl

/-- Only the test of a guard refers to an instruction, to the one where it goes on. -/
theorem eq_test_of_target
    {debugBuild : Bool} {placed : PlacedGuard} {next id : InstrId}
    {instruction : Instruction}
    (member : instruction ∈ placed.code debugBuild next)
    {index : Nat}
    (target : instruction.operation.targets[index]? = some id) :
    instruction.id = placed.test debugBuild ∧ index = 0 ∧ id = next := by
  have targeted : instruction.operation.targets ≠ [] := by
    intro none
    simp [none] at target
  rw [code_eq] at member
  rcases List.mem_append.mp member with loading | rest
  · exact absurd
      (Guard.targets_loading debugBuild placed.guard _
        (operation_mem_of_mem_numberFrom loading)) targeted
  · rcases List.mem_cons.mp rest with rfl | failing
    · cases index with
      | zero =>
          simp only [Operation.targets, List.getElem?_cons_zero,
            Option.some.injEq] at target
          exact ⟨rfl, rfl, target.symm⟩
      | succ index =>
          simp [Operation.targets] at target
    · exact absurd
        (Guard.targets_failing placed.guard _
          (operation_mem_of_mem_numberFrom failing)) targeted

theorem test_mem_code
    (debugBuild : Bool) (placed : PlacedGuard) (next : InstrId) :
    ⟨placed.test debugBuild, .branch .ifTrue .long next⟩ ∈
      placed.code debugBuild next := by
  rw [code_eq]
  exact List.mem_append_right _ (List.mem_cons_self ..)

/-- A guard that throws ends in the throw. -/
theorem getLast?_code
    {placed : PlacedGuard} (throws : placed.guard.exit = .throw)
    (debugBuild : Bool) (next : InstrId) :
    ((placed.code debugBuild next).getLast?).map (·.operation) =
      some .throw := by
  rw [← List.getLast?_map]
  rw [code, MethodBody.map_operation_numberFrom, Guard.operations,
    throws, GuardExit.leave, List.getLast?_append]
  rfl

/-- Control does not run out of a guard. -/
theorem stops
    (debugBuild : Bool) (placed : PlacedGuard) (next : InstrId) :
    ((placed.code debugBuild next).getLast?).map
        (·.operation.neverFallsThrough) =
      some true := by
  have ends :
      (((placed.code debugBuild next).map (·.operation)).getLast?).map
          Operation.neverFallsThrough =
        some true := by
    rw [code, MethodBody.map_operation_numberFrom, Guard.operations,
      List.getLast?_append]
    cases placed.guard.exit <;> rfl
  rw [List.getLast?_map, Option.map_map] at ends
  exact ends

end PlacedGuard

/-! ## Where a row is entered -/

namespace GuardRow

/-- The places of a row at which some reference may lead into it, in order. -/
def entrances (row : GuardRow) (next : InstrId) : List InstrId :=
  row.map (·.start) ++ [next]

@[simp]
theorem entrances_cons
    (placed : PlacedGuard) (rest : GuardRow) (next : InstrId) :
    entrances (placed :: rest) next =
      placed.start :: entrances rest next := rfl

theorem entrance_mem_entrances (row : GuardRow) (next : InstrId) :
    row.entrance next ∈ row.entrances next := by
  cases row <;> simp [entrances]

theorem entrances_sublist
    (debugBuild : Bool) (row : GuardRow) (point : Instruction) :
    (row.entrances point.id).Sublist
      (identities (row.code debugBuild point.id ++ [point])) := by
  induction row with
  | nil =>
      exact List.Sublist.refl _
  | cons placed rest inductionHypothesis =>
      have head :=
        placed.head?_code debugBuild (entrance rest point.id)
      rw [code_cons, List.append_assoc, identities_append]
      cases code :
          placed.code debugBuild (entrance rest point.id) with
      | nil =>
          simp [code] at head
      | cons first others =>
          have start : first.id = placed.start := by
            simpa [code] using head
          rw [identities_cons, start]
          exact (inductionHypothesis.trans
            (List.sublist_append_right _ _)).cons_cons placed.start

theorem entrances_append
    (left right : GuardRow) (next : InstrId) :
    entrances (left ++ right) next =
      left.map (·.start) ++ entrances right next := by
  simp [entrances]

theorem entrance_ne_of_suffix
    {left right : GuardRow} {placed : PlacedGuard} {next : InstrId}
    (distinct : (entrances (left ++ placed :: right) next).Nodup) :
    entrance (left ++ placed :: right) next ≠ entrance right next := by
  have inside := right.entrance_mem_entrances next
  intro same
  cases left with
  | nil =>
      rw [List.nil_append, entrances_cons, List.nodup_cons] at distinct
      rw [List.nil_append, entrance_cons] at same
      exact distinct.1 (same ▸ inside)
  | cons first left =>
      rw [List.cons_append, entrances_cons, List.nodup_cons,
        entrances_append, entrances_cons] at distinct
      rw [List.cons_append, entrance_cons] at same
      refine distinct.1 (List.mem_append_right _
        (List.mem_cons_of_mem _ ?_))
      rw [same]
      exact inside

/-- A row goes on at a place from one guard only. -/
theorem split_eq_of_entrance_eq
    {row left right otherLeft otherRight : GuardRow}
    {placed other : PlacedGuard} {next : InstrId}
    (distinct : (row.entrances next).Nodup)
    (split : row = left ++ placed :: right)
    (otherSplit : row = otherLeft ++ other :: otherRight)
    (same : right.entrance next = otherRight.entrance next) :
    placed = other := by
  induction row generalizing left otherLeft with
  | nil =>
      simp at split
  | cons first rest inductionHypothesis =>
      rw [entrances_cons, List.nodup_cons] at distinct
      have tail := distinct.2
      cases left with
      | nil =>
          obtain ⟨firstSame, restSame⟩ := List.cons.inj split
          cases otherLeft with
          | nil =>
              exact firstSame.symm.trans (List.cons.inj otherSplit).1
          | cons _ otherLeft =>
              have otherRest := (List.cons.inj otherSplit).2
              change rest = otherLeft ++ other :: otherRight at otherRest
              rw [otherRest] at tail
              rw [← restSame, otherRest] at same
              exact absurd same (entrance_ne_of_suffix tail)
      | cons _ left =>
          have split := (List.cons.inj split).2
          change rest = left ++ placed :: right at split
          cases otherLeft with
          | nil =>
              have restSame := (List.cons.inj otherSplit).2
              rw [split] at tail
              rw [← restSame, split] at same
              exact absurd same.symm (entrance_ne_of_suffix tail)
          | cons _ otherLeft =>
              exact inductionHypothesis tail split
                (List.cons.inj otherSplit).2

/-- Only the tests in a row refer to instructions, each to the place where its guard goes on. -/
theorem eq_test_of_target
    {debugBuild : Bool} {row : GuardRow} {next id : InstrId}
    {instruction : Instruction}
    (member : instruction ∈ row.code debugBuild next) {index : Nat}
    (target : instruction.operation.targets[index]? = some id) :
    ∃ left placed right,
      row = left ++ placed :: right ∧
        instruction.id = PlacedGuard.test debugBuild placed ∧
        index = 0 ∧ id = entrance right next := by
  induction row with
  | nil =>
      simp at member
  | cons first rest inductionHypothesis =>
      rw [code_cons] at member
      rcases List.mem_append.mp member with here | later
      · obtain ⟨test, index, goesOn⟩ :=
          PlacedGuard.eq_test_of_target here target
        exact ⟨[], first, rest, rfl, test, index, goesOn⟩
      · obtain ⟨left, placed, right, split, rest⟩ :=
          inductionHypothesis later
        exact ⟨first :: left, placed, right, by rw [split]; rfl, rest⟩

theorem test_mem_code
    (debugBuild : Bool) (left : GuardRow) (placed : PlacedGuard)
    (right : GuardRow) (next : InstrId) :
    ⟨placed.test debugBuild,
        .branch .ifTrue .long (right.entrance next)⟩ ∈
      code debugBuild (left ++ placed :: right) next := by
  rw [code_append, code_cons]
  exact List.mem_append_right _ (List.mem_append_left _
    (placed.test_mem_code debugBuild (right.entrance next)))

theorem entrance_mem_identities
    (debugBuild : Bool) (left right : GuardRow) (point : Instruction) :
    right.entrance point.id ∈
      identities (code debugBuild (left ++ right) point.id ++ [point]) := by
  have inside :=
    (right.entrances_sublist debugBuild point).subset
      (right.entrance_mem_entrances point.id)
  rw [code_append, List.append_assoc, identities_append]
  exact List.mem_append_right _ inside

end GuardRow

namespace GuardLayout

/-! ## Rows keep apart -/

variable
    {layout : GuardLayout} {debugBuild : Bool}
    {instructions : List Instruction}

theorem cases_of_mem_code
    {instruction : Instruction}
    (member : instruction ∈ layout.code debugBuild instructions) :
    instruction ∈ layout.frontCode debugBuild instructions ∨
      ∃ point ∈ instructions,
        instruction ∈
            (layout.before point.id).code debugBuild point.id ∨
          instruction = point.mapTargets layout.entrance := by
  rcases List.mem_append.mp member with front | inside
  · exact .inl front
  · obtain ⟨point, here, inBlock⟩ := List.mem_flatMap.mp inside
    refine .inr ⟨point, here, ?_⟩
    rcases List.mem_append.mp inBlock with row | last
    · exact .inl row
    · exact .inr (List.mem_singleton.mp last)

theorem mem_code_of_mem_block
    {point : Instruction} (here : point ∈ instructions)
    {instruction : Instruction}
    (member : instruction ∈ layout.block debugBuild point) :
    instruction ∈ layout.code debugBuild instructions :=
  List.mem_append_right _ (List.mem_flatMap.mpr ⟨point, here, member⟩)

theorem mem_identities_blocks
    {point : Instruction} (here : point ∈ instructions) {id : InstrId}
    (member : id ∈ identities (layout.block debugBuild point)) :
    id ∈ identities (layout.blocks debugBuild instructions) := by
  obtain ⟨instruction, inside, rfl⟩ := mem_identities.mp member
  exact id_mem_identities (List.mem_flatMap.mpr ⟨point, here, inside⟩)

/-- Different blocks share no identity. -/
theorem point_eq_of_mem_blocks
    (distinct :
      (identities (layout.code debugBuild instructions)).Nodup)
    {point other : Instruction}
    (here : point ∈ instructions) (there : other ∈ instructions)
    {id : InstrId}
    (inPoint : id ∈ identities (layout.block debugBuild point))
    (inOther : id ∈ identities (layout.block debugBuild other)) :
    point = other := by
  by_contra apart
  rw [code, identities_append, List.nodup_append] at distinct
  have blocks := distinct.2.1
  rw [GuardLayout.blocks, identities, List.map_flatMap,
    List.nodup_flatMap] at blocks
  have symmetric :
      Std.Symm (Function.onFun List.Disjoint fun instruction =>
        List.map (·.id) (layout.block debugBuild instruction)) :=
    ⟨fun _ _ disjoint _ left right => disjoint right left⟩
  exact blocks.2.forall here there apart inPoint inOther

theorem not_mem_frontCode
    (distinct :
      (identities (layout.code debugBuild instructions)).Nodup)
    {point : Instruction} (here : point ∈ instructions) {id : InstrId}
    (inside : id ∈ identities (layout.block debugBuild point)) :
    id ∉ identities (layout.frontCode debugBuild instructions) := by
  rw [code, identities_append, List.nodup_append] at distinct
  intro front
  exact distinct.2.2 id front id (mem_identities_blocks here inside) rfl

/-- The places of a row are all different. -/
theorem nodup_entrances
    (distinct :
      (identities (layout.code debugBuild instructions)).Nodup)
    {point : Instruction} (here : point ∈ instructions) :
    ((layout.before point.id).entrances point.id).Nodup := by
  rw [code, identities_append, List.nodup_append] at distinct
  have blocks := distinct.2.1
  rw [GuardLayout.blocks, identities, List.map_flatMap,
    List.nodup_flatMap] at blocks
  exact (blocks.1 point here).sublist
    (GuardRow.entrances_sublist debugBuild (layout.before point.id)
      (point.mapTargets layout.entrance))

section Suffix

variable
    {point : Instruction} {left right : GuardRow} {placed : PlacedGuard}

theorem entrance_mem_block_of_suffix
    (split : layout.before point.id = left ++ placed :: right)
    (debugBuild : Bool) :
    right.entrance point.id ∈
      identities (layout.block debugBuild point) := by
  have inside :=
    GuardRow.entrance_mem_identities debugBuild (left ++ [placed]) right
      (point.mapTargets layout.entrance)
  rw [List.append_assoc, List.singleton_append] at inside
  rw [block, split]
  exact inside

/-- A reference of the original body never leads behind the entrance of a row. -/
theorem entrance_ne_of_suffix
    (distinct :
      (identities (layout.code debugBuild instructions)).Nodup)
    (here : point ∈ instructions)
    (split : layout.before point.id = left ++ placed :: right)
    {id : InstrId} (member : id ∈ identities instructions) :
    layout.entrance id ≠ right.entrance point.id := by
  obtain ⟨other, there, rfl⟩ := mem_identities.mp member
  intro same
  have inOther := layout.entrance_mem_block debugBuild other
  rw [same] at inOther
  have samePoint :=
    point_eq_of_mem_blocks distinct here there
      (entrance_mem_block_of_suffix split debugBuild) inOther
  subst samePoint
  have places := nodup_entrances distinct here
  rw [split] at places
  rw [entrance, split] at same
  exact GuardRow.entrance_ne_of_suffix places same

end Suffix

/-! ## References of a guarded body -/

theorem blocks_eq_cons
    (layout : GuardLayout) (debugBuild : Bool)
    (first : Instruction) (rest : List Instruction) :
    ∃ start others,
      layout.blocks debugBuild (first :: rest) = start :: others ∧
        start.id = layout.entrance first.id := by
  have head := layout.head?_blocks debugBuild first rest
  cases blocks : layout.blocks debugBuild (first :: rest) with
  | nil =>
      rw [blocks] at head
      cases head
  | cons start others =>
      exact ⟨start, others, rfl, by simpa [blocks] using head⟩

namespace Describes

variable {original guarded : MethodBody}

/-- Where the row before an instruction stands. -/
theorem block_stands
    (described : layout.Describes debugBuild original guarded)
    {earlier later : List Instruction} {instruction : Instruction}
    (split : original.instructions = earlier ++ instruction :: later) :
    ∃ front,
      guarded.instructions =
          front ++
            ((layout.before instruction.id).code debugBuild
                instruction.id ++
              instruction.mapTargets layout.entrance ::
                layout.blocks debugBuild later) ∧
        front.length =
          layout.offset debugBuild original.instructions earlier := by
  refine ⟨layout.frontCode debugBuild original.instructions ++
    layout.blocks debugBuild earlier, ?_, rfl⟩
  rw [described.instructions, code, split, blocks_append, blocks_cons,
    block]
  simp

theorem distinct_code
    (described : layout.Describes debugBuild original guarded) :
    (identities
      (layout.code debugBuild original.instructions)).Nodup :=
  described.instructions ▸ described.distinct

/-- Every reference of the original body leads to the row before what it named. -/
theorem named?_of_original
    (described : layout.Describes debugBuild original guarded)
    {reference : Reference} {id : InstrId}
    (named : original.named? reference = some id) :
    guarded.named? reference = some (layout.entrance id) := by
  cases reference with
  | target source index =>
      obtain ⟨instruction, member, rfl, target⟩ :=
        MethodBody.exists_of_named?_target named
      have inside :
          instruction.mapTargets layout.entrance ∈
            guarded.instructions := by
        rw [described.instructions]
        exact mem_code_of_mem_block member (by simp [block])
      have there :=
        MethodBody.named?_target described.distinct inside index
      rw [Instruction.id_mapTargets] at there
      rw [there]
      simp [Instruction.mapTargets, target]
  | boundary handler index =>
      obtain ⟨found, here, boundary⟩ :=
        MethodBody.exists_of_named?_boundary named
      simp [MethodBody.named?, described.handlers, here, boundary]

/-- The references of a guarded body are those of the original one and the tests of guards. -/
theorem cases_of_named?
    (described : layout.Describes debugBuild original guarded)
    (wellFormed : original.WellFormed)
    {reference : Reference} {id : InstrId}
    (named : guarded.named? reference = some id) :
    (∃ old, original.named? reference = some old ∧
        id = layout.entrance old) ∨
      (∃ (left : GuardRow) (placed : PlacedGuard) (right : GuardRow),
        layout.front = left ++ placed :: right ∧
          reference = .target (placed.test debugBuild) 0 ∧
          ∃ first rest, original.instructions = first :: rest ∧
            id = right.entrance (layout.entrance first.id)) ∨
      ∃ point ∈ original.instructions,
        ∃ (left : GuardRow) (placed : PlacedGuard) (right : GuardRow),
          layout.before point.id = left ++ placed :: right ∧
            reference = .target (placed.test debugBuild) 0 ∧
            id = right.entrance point.id := by
  cases reference with
  | target source index =>
      obtain ⟨instruction, member, rfl, target⟩ :=
        MethodBody.exists_of_named?_target named
      rw [described.instructions] at member
      rcases cases_of_mem_code member with front | ⟨point, here, row | rfl⟩
      · cases whole : original.instructions with
        | nil =>
            simp [whole, frontCode] at front
        | cons first rest =>
            rw [whole, frontCode] at front
            obtain ⟨left, placed, right, split, test, rfl, goesOn⟩ :=
              GuardRow.eq_test_of_target front target
            exact .inr (.inl ⟨left, placed, right, split, by rw [test],
              first, rest, rfl, goesOn⟩)
      · obtain ⟨left, placed, right, split, test, rfl, goesOn⟩ :=
          GuardRow.eq_test_of_target row target
        exact .inr (.inr ⟨point, here, left, placed, right, split,
          by rw [test], goesOn⟩)
      · simp only [Instruction.mapTargets,
          Operation.targets_mapTargets, List.getElem?_map,
          Option.map_eq_some_iff] at target
        obtain ⟨old, oldTarget, rfl⟩ := target
        refine .inl ⟨old, ?_, rfl⟩
        rw [Instruction.id_mapTargets,
          MethodBody.named?_target wellFormed.distinct here, oldTarget]
  | boundary handler index =>
      obtain ⟨found, here, boundary⟩ :=
        MethodBody.exists_of_named?_boundary named
      rw [described.handlers, List.getElem?_map,
        Option.map_eq_some_iff] at here
      obtain ⟨old, oldHere, rfl⟩ := here
      rw [ExceptionHandler.boundaries_mapBoundaries, List.getElem?_map,
        Option.map_eq_some_iff] at boundary
      obtain ⟨oldId, oldBoundary, rfl⟩ := boundary
      refine .inl ⟨oldId, ?_, rfl⟩
      simp [MethodBody.named?, oldHere, oldBoundary]

/-- What the original body names is one of its instructions. -/
theorem mem_identities_of_named?
    {body : MethodBody} (wellFormed : body.WellFormed)
    {reference : Reference} {id : InstrId}
    (named : body.named? reference = some id) :
    id ∈ identities body.instructions := by
  cases reference with
  | target source index =>
      obtain ⟨instruction, member, -, target⟩ :=
        MethodBody.exists_of_named?_target named
      exact wellFormed.targetsWithin instruction member id
        (List.mem_of_getElem? target)
  | boundary handler index =>
      obtain ⟨found, here, boundary⟩ :=
        MethodBody.exists_of_named?_boundary named
      exact wellFormed.boundary_mem (List.mem_of_getElem? here)
        (List.mem_of_getElem? boundary)

/-- Behind its entrance, a row is entered from the test of the guard before and nowhere else. -/
theorem named?_iff_test
    (described : layout.Describes debugBuild original guarded)
    (wellFormed : original.WellFormed)
    {point : Instruction} (here : point ∈ original.instructions)
    {left right : GuardRow} {placed : PlacedGuard}
    (split : layout.before point.id = left ++ placed :: right)
    (reference : Reference) :
    guarded.named? reference = some (right.entrance point.id) ↔
      reference = .target (placed.test debugBuild) 0 := by
  have distinct := described.distinct_code
  constructor
  · intro named
    rcases described.cases_of_named? wellFormed named with
      ⟨old, oldNamed, same⟩ |
      ⟨frontLeft, inFront, frontRight, frontSplit, -, first, rest, whole,
        same⟩ |
      ⟨other, there, otherLeft, otherPlaced, otherRight, otherSplit, rfl,
        same⟩
    · exact absurd same.symm (entrance_ne_of_suffix distinct here split
        (mem_identities_of_named? wellFormed oldNamed))
    · cases frontRight with
      | nil =>
          refine absurd same.symm
            (entrance_ne_of_suffix distinct here split ?_)
          simp [whole]
      | cons inner others =>
          refine absurd ?_ (not_mem_frontCode distinct here
            (entrance_mem_block_of_suffix split debugBuild))
          rw [same, whole, frontCode]
          exact GuardRow.start_mem_code (by simp [frontSplit])
            debugBuild _
    · have samePoint :=
        point_eq_of_mem_blocks distinct here there
          (entrance_mem_block_of_suffix split debugBuild)
          (same ▸ entrance_mem_block_of_suffix otherSplit debugBuild)
      subst samePoint
      rw [GuardRow.split_eq_of_entrance_eq
        (nodup_entrances distinct here) split otherSplit same]
  · rintro rfl
    have inside :
        ⟨placed.test debugBuild,
            .branch .ifTrue .long (right.entrance point.id)⟩ ∈
          guarded.instructions := by
      rw [described.instructions]
      refine mem_code_of_mem_block here ?_
      rw [block, split]
      exact List.mem_append_left _
        (GuardRow.test_mem_code debugBuild left placed right point.id)
    exact (MethodBody.named?_target described.distinct inside 0).trans rfl

end Describes

end GuardLayout

/-! ## The new body -/

namespace GuardLayout

theorem widenBranches_append (front back : List Instruction) :
    widenBranches (front ++ back) =
      widenBranches front ++ widenBranches back := by
  simp [widenBranches]

theorem widenBranches_rowCode
    (debugBuild : Bool) (row : GuardRow) (next : InstrId) :
    widenBranches (row.code debugBuild next) =
      row.code debugBuild next := by
  induction row with
  | nil =>
      rfl
  | cons placed rest inductionHypothesis =>
      rw [GuardRow.code_cons, widenBranches_append, inductionHypothesis,
        PlacedGuard.code, widenBranches_numberFrom,
        Guard.map_withForm_operations]

theorem widenBranches_blocks
    (layout : GuardLayout) (debugBuild : Bool)
    (instructions : List Instruction) :
    widenBranches (layout.blocks debugBuild instructions) =
      layout.blocks debugBuild (widenBranches instructions) := by
  induction instructions with
  | nil =>
      rfl
  | cons instruction rest inductionHypothesis =>
      have point :
          (instruction.mapTargets layout.entrance).withForm .long =
            (instruction.withForm .long).mapTargets
              layout.entrance := by
        simp [Instruction.withForm, Instruction.mapTargets,
          Operation.withForm_mapTargets]
      rw [blocks_cons, widenBranches_append, inductionHypothesis, block,
        widenBranches_append, widenBranches_rowCode]
      simp only [widenBranches, List.map_cons, List.map_nil, point]
      rfl

/-- Guards are put in with long branches. -/
theorem widenBranches_code
    (layout : GuardLayout) (debugBuild : Bool)
    (instructions : List Instruction) :
    widenBranches (layout.code debugBuild instructions) =
      layout.code debugBuild (widenBranches instructions) := by
  have front :
      widenBranches (layout.frontCode debugBuild instructions) =
        layout.frontCode debugBuild (widenBranches instructions) := by
    cases instructions with
    | nil =>
        rfl
    | cons first rest =>
        exact widenBranches_rowCode debugBuild layout.front
          (layout.entrance first.id)
  rw [code, widenBranches_append, front, widenBranches_blocks]
  rfl

/-- A body that is guarded as a layout says still is when its branches have other forms. -/
theorem Describes.of_widenBranches_eq
    {layout : GuardLayout} {debugBuild : Bool}
    {body guarded woven : MethodBody}
    (described : layout.Describes debugBuild body.widen guarded)
    (instructions :
      widenBranches woven.instructions =
        widenBranches guarded.instructions)
    (handlers : woven.handlers = guarded.handlers)
    (locals : woven.locals = guarded.locals)
    (nextId : woven.nextId = guarded.nextId) :
    layout.Describes debugBuild body.widen woven.widen where
  instructions := by
    rw [MethodBody.instructions_widen, instructions,
      described.instructions, widenBranches_code,
      MethodBody.instructions_widen, widenBranches_widenBranches]
  handlers := handlers.trans described.handlers
  locals := locals.trans described.locals
  distinct := by
    rw [MethodBody.instructions_widen, instructions,
      identities_widenBranches]
    exact described.distinct
  issued := by
    rw [MethodBody.instructions_widen, instructions,
      identities_widenBranches, MethodBody.nextId_widen, nextId]
    exact described.issued

end GuardLayout

namespace MethodContext

variable
    {context : MethodContext} {settings : Settings}
    {body : MethodBody} {layout : GuardLayout}

theorem widenBranches_wovenBody
    (context : MethodContext) (settings : Settings)
    (body : MethodBody) :
    widenBranches (context.wovenBody settings body).instructions =
      widenBranches (context.guardBody settings body).body.instructions :=
  widenBranches_narrowBranches (-128) 127 _

/-- The layout of a method describes its new body, the forms of branches apart. -/
theorem Lays.woven
    (lays : context.Lays settings body layout) :
    layout.Describes settings.debugBuild body.widen
      (context.wovenBody settings body).widen :=
  lays.describes.of_widenBranches_eq
    (widenBranches_wovenBody context settings body) rfl rfl rfl

end MethodContext

end NullWeave
