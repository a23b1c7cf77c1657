import NullWeave.Proofs.Code.Path
import NullWeave.Proofs.Machine.Relocation
import NullWeave.Proofs.Weave.GuardedPoint

/-!
# The row in front of a body

The guards at the entry stand in front of everything else, one behind another.
The test of each leads to the next one, that of the last to the row before the
first instruction of the original body, and nothing else names an instruction
of the row.  No handler protects it either.

So control goes through the row from its first guard to its last one, and never
comes back: every call passes each guard once before it reaches anything of the
original body.
-/

namespace NullWeave

/-! ## Positions in a row -/

namespace GuardRow

theorem size_append
    (debugBuild : Bool) (left right : GuardRow) :
    size debugBuild (left ++ right) =
      size debugBuild left + size debugBuild right := by
  simp [size]

@[simp]
theorem size_nil (debugBuild : Bool) : size debugBuild [] = 0 := rfl

theorem size_cons
    (debugBuild : Bool) (placed : PlacedGuard) (rest : GuardRow) :
    size debugBuild (placed :: rest) =
      placed.guard.size debugBuild + size debugBuild rest := by
  simp [size]

/-- A target in a row is that of a guard's test, and leads behind the guard. -/
theorem exists_split_of_target
    {debugBuild : Bool} {row : GuardRow} {next id : InstrId}
    {position : Nat} {instruction : Instruction}
    (here : (row.code debugBuild next)[position]? = some instruction)
    (target : id ∈ instruction.operation.targets) :
    ∃ left placed right,
      row = left ++ placed :: right ∧
        size debugBuild left ≤ position ∧
        position < size debugBuild (left ++ [placed]) ∧
        id = entrance right next := by
  induction row generalizing position with
  | nil =>
      simp at here
  | cons first rest inductionHypothesis =>
      rw [code_cons, List.getElem?_append] at here
      split at here
      · rename_i inside
        obtain ⟨index, found⟩ := List.getElem?_of_mem target
        obtain ⟨-, -, goesOn⟩ :=
          PlacedGuard.eq_test_of_target (List.mem_of_getElem? here) found
        rw [PlacedGuard.length_code] at inside
        exact ⟨[], first, rest, rfl, Nat.zero_le _,
          by simpa [size_cons] using inside, goesOn⟩
      · rename_i outside
        rw [PlacedGuard.length_code] at here outside
        obtain ⟨left, placed, right, split, start, stop, goesOn⟩ :=
          inductionHypothesis here
        refine ⟨first :: left, placed, right, by rw [split]; rfl, ?_, ?_,
          goesOn⟩
        · rw [size_cons]
          omega
        · rw [List.cons_append, size_cons]
          omega

end GuardRow

namespace Guard

/-- No guard is the end of a handler. -/
theorem ne_endFinally_of_mem
    {guard : Guard} {debugBuild : Bool} {next : InstrId}
    {operation : Operation}
    (member : operation ∈ guard.operations debugBuild next) :
    operation ≠ .endFinally := by
  rw [operations_eq] at member
  rintro rfl
  rcases List.mem_append.mp member with loading | rest
  · cases (guard.straight_loading debugBuild _ loading).2
  · rcases List.mem_cons.mp rest with test | failing
    · cases test
    · rcases List.mem_append.mp failing with constructing | leaving
      · cases (guard.straight_constructing _ constructing).2
      · cases exit : guard.exit <;> simp [exit, GuardExit.leave] at leaving

end Guard

theorem GuardRow.ne_endFinally_of_mem
    {row : GuardRow} {debugBuild : Bool} {next : InstrId}
    {instruction : Instruction}
    (member : instruction ∈ row.code debugBuild next) :
    instruction.operation ≠ .endFinally := by
  induction row with
  | nil =>
      simp at member
  | cons first rest inductionHypothesis =>
      rcases List.mem_append.mp member with here | later
      · exact Guard.ne_endFinally_of_mem
          (operation_mem_of_mem_numberFrom here)
      · exact inductionHypothesis later

/-! ## Guarded entries -/

/--
A row of guards stands in front of a body, before the row that stands before the
instruction which the original body began with.
-/
structure GuardedEntry
    (debugBuild : Bool) (woven : MethodBody) (first : InstrId)
    (row exits : GuardRow) : Prop where
  distinct : (identities woven.instructions).Nodup
  /-- The row comes first, then the row before the first instruction, then the instruction. -/
  stands :
    ∃ code exitCode point back,
      woven.instructions = code ++ (exitCode ++ point :: back) ∧
        point.id = first ∧
        widenBranches code =
          row.code debugBuild (exits.entrance first) ∧
        widenBranches exitCode = exits.code debugBuild first
  /-- The test of a guard leads to the next guard, or to what stands behind the row. -/
  goesOn :
    ∀ (left : GuardRow) (placed : PlacedGuard) (right : GuardRow),
      row = left ++ placed :: right →
        ∃ form,
          ⟨placed.test debugBuild,
              .branch .ifTrue form
                (right.entrance (exits.entrance first))⟩ ∈
            woven.instructions
  /-- Nothing else names an instruction of the row. -/
  named :
    ∀ reference id, woven.named? reference = some id →
      id ∈ identities (row.code debugBuild (exits.entrance first)) →
        ∃ (left : GuardRow) (placed following : PlacedGuard)
          (right : GuardRow),
          row = left ++ placed :: following :: right ∧
            id = following.start ∧
            reference = .target (placed.test debugBuild) 0
  /-- No instruction of the row lies in a region. -/
  outside : ∀ position, position < row.size debugBuild →
    woven.inRegion position = false

namespace GuardLayout.Describes

variable
    {layout : GuardLayout} {debugBuild : Bool}
    {original guarded body woven : MethodBody}

/-- The row in front shares no identity with what stands behind it. -/
theorem not_mem_front
    (described : layout.Describes debugBuild original guarded)
    {first : Instruction} {rest : List Instruction}
    (whole : original.instructions = first :: rest)
    {point : Instruction} (member : point ∈ original.instructions)
    {id : InstrId} (inside : id ∈ identities (layout.block debugBuild point)) :
    id ∉ identities
      (layout.front.code debugBuild (layout.entrance first.id)) := by
  have apart := not_mem_frontCode described.distinct_code member inside
  rwa [whole, frontCode] at apart

/-- Instructions of the row in front are named by the tests in it only. -/
theorem exists_front_of_named?
    (described : layout.Describes debugBuild original guarded)
    (wellFormed : original.WellFormed)
    {first : Instruction} {rest : List Instruction}
    (whole : original.instructions = first :: rest)
    {reference : Reference} {id : InstrId}
    (named : guarded.named? reference = some id)
    (inRow : id ∈ identities
      (layout.front.code debugBuild (layout.entrance first.id))) :
    ∃ (left : GuardRow) (placed following : PlacedGuard)
      (right : GuardRow),
      layout.front = left ++ placed :: following :: right ∧
        id = following.start ∧
        reference = .target (placed.test debugBuild) 0 := by
  have apart : ∀ point ∈ original.instructions,
      layout.entrance point.id ∉ identities
        (layout.front.code debugBuild (layout.entrance first.id)) :=
    fun point member => described.not_mem_front whole member
      (layout.entrance_mem_block debugBuild point)
  rcases described.cases_of_named? wellFormed named with
    ⟨old, oldNamed, rfl⟩ |
    ⟨left, placed, right, split, rfl, entry, others, entered, rfl⟩ |
    ⟨point, among, left, placed, right, split, rfl, rfl⟩
  · obtain ⟨point, among, rfl⟩ :=
      mem_identities.mp (mem_identities_of_named? wellFormed oldNamed)
    exact absurd inRow (apart point among)
  · obtain ⟨rfl, rfl⟩ := List.cons.inj (whole.symm.trans entered)
    cases right with
    | nil =>
        exact absurd inRow (apart first (by simp [whole]))
    | cons following right =>
        exact ⟨left, placed, following, right, split, rfl, rfl⟩
  · exact absurd inRow (described.not_mem_front whole among
      (entrance_mem_block_of_suffix split debugBuild))

/-- The row in front of a body guards its entry. -/
theorem guardedEntry
    (described : layout.Describes debugBuild body.widen woven.widen)
    (wellFormed : body.WellFormed)
    {first : Instruction} {rest : List Instruction}
    (whole : body.instructions = first :: rest) :
    GuardedEntry debugBuild woven first.id layout.front
      (layout.before first.id) := by
  have wide :
      body.widen.instructions =
        first.withForm .long :: widenBranches rest := by
    rw [MethodBody.instructions_widen, whole]
    rfl
  have code := described.instructions
  rw [GuardLayout.code, wide, frontCode, blocks_cons, block] at code
  obtain ⟨frontCode, others, split, frontSame, othersSame⟩ :=
    List.map_eq_append_iff.mp code
  rw [List.append_assoc] at othersSame
  obtain ⟨exitCode, behind, othersSplit, exitSame, behindSame⟩ :=
    List.map_eq_append_iff.mp othersSame
  obtain ⟨point, back, behindSplit, pointSame, -⟩ :=
    List.map_eq_cons_iff.mp behindSame
  refine ⟨by simpa using described.distinct,
    ⟨frontCode, exitCode, point, back, ?_, ?_, frontSame, exitSame⟩,
    ?_, ?_, ?_⟩
  · rw [split, othersSplit, behindSplit]
  · have sameId := congrArg Instruction.id pointSame
    simpa using sameId
  · intro left placed right rowSplit
    rw [rowSplit] at frontSame
    obtain ⟨form, member⟩ := test_stands frontSame
    refine ⟨form, ?_⟩
    rw [split]
    exact List.mem_append_left _ member
  · intro reference id named inRow
    rw [← MethodBody.named?_widen] at named
    exact described.exists_front_of_named? wellFormed.widen wide named
      inRow
  · intro position before
    rw [← MethodBody.inRegion_widen]
    refine described.not_inRegion_front wellFormed.widen ?_
    rw [shift, List.take_zero, offset, blocks_nil, List.append_nil, wide,
      GuardLayout.frontCode, GuardRow.length_code]
    exact before

end GuardLayout.Describes

/-! ## Ways through a guarded entry -/

namespace GuardedEntry

variable
    {debugBuild : Bool} {woven : MethodBody} {first : InstrId}
    {row exits : GuardRow}

/-- Where the parts of the row start, and what stands behind it. -/
theorem indexOf?_entrance
    (guarded : GuardedEntry debugBuild woven first row exits)
    {left right : GuardRow} (split : row = left ++ right) :
    woven.indexOf? (right.entrance (exits.entrance first)) =
      some (left.size debugBuild) := by
  obtain ⟨code, exitCode, point, back, instructions, rfl, codeSame,
    exitSame⟩ := guarded.stands
  have wide :
      woven.widen.instructions =
        left.code debugBuild
            (right.entrance (exits.entrance point.id)) ++
          ((right ++ exits).code debugBuild
              (point.withForm .long).id ++
            point.withForm .long :: widenBranches back) := by
    rw [MethodBody.instructions_widen, instructions,
      GuardLayout.widenBranches_append, GuardLayout.widenBranches_append,
      codeSame, exitSame, split]
    simp [GuardRow.code_append, widenBranches]
  have found :=
    GuardRow.indexOf?_entrance (by simpa using guarded.distinct) wide
  simpa [GuardRow.entrance_append] using found

/-- What stands in the row. -/
theorem getElem?_code
    (guarded : GuardedEntry debugBuild woven first row exits)
    {position : Nat} {instruction : Instruction}
    (here : woven.instructions[position]? = some instruction)
    (inside : position < row.size debugBuild) :
    (row.code debugBuild (exits.entrance first))[position]? =
      some (instruction.withForm .long) := by
  obtain ⟨code, exitCode, point, back, instructions, -, codeSame, -⟩ :=
    guarded.stands
  have length : code.length = row.size debugBuild := by
    rw [← GuardRow.length_code debugBuild row (exits.entrance first),
      ← codeSame, length_widenBranches]
  rw [instructions, List.getElem?_append_left (by omega)] at here
  rw [← codeSame, getElem?_widenBranches, here]
  rfl

/-- An identity stands in the row exactly if it is one of the row's. -/
theorem mem_code_iff
    (guarded : GuardedEntry debugBuild woven first row exits)
    {position : Nat} {id : InstrId}
    (found : woven.indexOf? id = some position) :
    position < row.size debugBuild ↔
      id ∈ identities (row.code debugBuild (exits.entrance first)) := by
  obtain ⟨instruction, here, rfl⟩ :=
    (MethodBody.indexOf?_eq_some_iff guarded.distinct).mp found
  constructor
  · intro inside
    have there := guarded.getElem?_code here inside
    simpa using id_mem_identities (List.mem_of_getElem? there)
  · intro member
    obtain ⟨other, inRow, sameId⟩ := mem_identities.mp member
    obtain ⟨index, there⟩ := List.getElem?_of_mem inRow
    obtain ⟨code, exitCode, point, back, instructions, -, codeSame, -⟩ :=
      guarded.stands
    have bound : index < row.size debugBuild := by
      have inside := (List.getElem?_eq_some_iff.mp there).1
      rwa [GuardRow.length_code] at inside
    rw [← codeSame, getElem?_widenBranches,
      Option.map_eq_some_iff] at there
    obtain ⟨old, oldHere, rfl⟩ := there
    have oldThere : woven.instructions[index]? = some old := by
      rw [instructions]
      exact List.getElem?_append_left
        (List.getElem?_eq_some_iff.mp oldHere).1 ▸ oldHere
    have foundOld :=
      (MethodBody.indexOf?_eq_some_iff guarded.distinct).mpr
        ⟨old, oldThere, by simpa using sameId⟩
    cases found.symm.trans foundOld
    exact bound

/-- What is named by anything but the row stands behind the row. -/
theorem behind_of_named?
    (guarded : GuardedEntry debugBuild woven first row exits)
    {reference : Reference} {id : InstrId} {target : Nat}
    (named : woven.named? reference = some id)
    (other : ∀ placed ∈ row,
      reference ≠ .target (PlacedGuard.test debugBuild placed) 0)
    (there : woven.indexOf? id = some target) :
    row.size debugBuild ≤ target := by
  by_contra before
  obtain ⟨left, placed, following, right, split, -, same⟩ :=
    guarded.named reference id named
      ((guarded.mem_code_iff there).mp (Nat.lt_of_not_le before))
  exact other placed (by simp [split]) same

/-- The start of a handler stands behind the row. -/
theorem behind_of_handler
    (guarded : GuardedEntry debugBuild woven first row exits)
    {handler : ExceptionHandler} {target : Nat}
    (among : handler ∈ woven.handlers)
    (there : woven.indexOf? handler.handlerStart = some target) :
    row.size debugBuild ≤ target := by
  obtain ⟨index, here⟩ := List.getElem?_of_mem among
  have named :
      woven.named? (.boundary index 2) = some handler.handlerStart := by
    simp [MethodBody.named?, here, ExceptionHandler.boundaries]
  exact guarded.behind_of_named? named (by rintro _ _ ⟨⟩) there

/-- The test of a guard of the row branches where its value is not null. -/
theorem eq_test_of_id
    (guarded : GuardedEntry debugBuild woven first row exits)
    {placed : PlacedGuard} (member : placed ∈ row)
    {instruction : Instruction}
    (among : instruction ∈ woven.instructions)
    (same : instruction.id = placed.test debugBuild) :
    ∃ form target, instruction.operation = .branch .ifTrue form target := by
  obtain ⟨left, right, split⟩ := List.append_of_mem member
  obtain ⟨form, there⟩ := guarded.goesOn left placed right split
  cases eq_of_id_eq guarded.distinct among there same
  exact ⟨form, _, rfl⟩

/-- The end of a handler stands behind the row. -/
theorem behind_of_endFinally
    (guarded : GuardedEntry debugBuild woven first row exits)
    {position : Nat} {instruction : Instruction}
    (here : woven.instructions[position]? = some instruction)
    (ends : instruction.operation = .endFinally) :
    row.size debugBuild ≤ position := by
  by_contra before
  have inRow := guarded.getElem?_code here (Nat.lt_of_not_le before)
  refine GuardRow.ne_endFinally_of_mem (List.mem_of_getElem? inRow) ?_
  simp [Instruction.withForm, ends, Operation.withForm]

/-- The test of a guard of the row stands in the row. -/
theorem test_before
    (guarded : GuardedEntry debugBuild woven first row exits)
    {placed : PlacedGuard} (member : placed ∈ row)
    {position : Nat} {instruction : Instruction}
    (here : woven.instructions[position]? = some instruction)
    (same : instruction.id = placed.test debugBuild) :
    position < row.size debugBuild := by
  have found :=
    (MethodBody.indexOf?_eq_some_iff guarded.distinct).mpr
      ⟨instruction, here, rfl⟩
  refine (guarded.mem_code_iff found).mpr ?_
  obtain ⟨left, right, split⟩ := List.append_of_mem member
  rw [same, split]
  exact id_mem_identities
    (GuardRow.test_mem_code debugBuild left placed right _)

/-- A jump out of the row goes behind a guard; other jumps stay behind the row. -/
theorem cases_of_jump
    (guarded : GuardedEntry debugBuild woven first row exits)
    {position target : Nat} {instruction : Instruction} {id : InstrId}
    (here : woven.instructions[position]? = some instruction)
    (names : id ∈ instruction.operation.targets)
    (there : woven.indexOf? id = some target) :
    (∃ (left : GuardRow) (placed : PlacedGuard) (right : GuardRow),
      row = left ++ placed :: right ∧
        left.size debugBuild ≤ position ∧
        position < GuardRow.size debugBuild (left ++ [placed]) ∧
        target = GuardRow.size debugBuild (left ++ [placed])) ∨
      row.size debugBuild ≤ position ∧ row.size debugBuild ≤ target := by
  by_cases inside : position < row.size debugBuild
  · have inRow := guarded.getElem?_code here inside
    obtain ⟨left, placed, right, split, start, stop, rfl⟩ :=
      GuardRow.exists_split_of_target inRow
        (by simpa [Instruction.withForm] using names)
    have found :=
      guarded.indexOf?_entrance
        (show row = (left ++ [placed]) ++ right by simp [split])
    cases found.symm.trans there
    exact .inl ⟨left, placed, right, split, start, stop, rfl⟩
  · obtain ⟨index, found⟩ := List.getElem?_of_mem names
    have named :=
      (MethodBody.named?_target guarded.distinct
        (List.mem_of_getElem? here) index).trans found
    refine .inr ⟨Nat.le_of_not_lt inside,
      guarded.behind_of_named? named ?_ there⟩
    intro placed member same
    exact inside (guarded.test_before member here
      (Reference.target.inj same).1)

/--
A step of control goes to the next position, from the test of a guard behind
the guard, or stays behind the row.
-/
theorem cases_of_goesOn
    (guarded : GuardedEntry debugBuild woven first row exits)
    {position target : Nat} (step : woven.GoesOn position target) :
    target = position + 1 ∨
      (∃ (left : GuardRow) (placed : PlacedGuard) (right : GuardRow),
        row = left ++ placed :: right ∧
          left.size debugBuild ≤ position ∧
          position < GuardRow.size debugBuild (left ++ [placed]) ∧
          target = GuardRow.size debugBuild (left ++ [placed])) ∨
      row.size debugBuild ≤ position ∧ row.size debugBuild ≤ target := by
  cases step with
  | next here fallsThrough =>
      exact .inl rfl
  | jump here names there =>
      exact .inr (guarded.cases_of_jump here names there)
  | handled among inside there =>
      refine .inr (.inr ⟨?_, guarded.behind_of_handler among there⟩)
      by_contra before
      have outside :=
        guarded.outside position (Nat.lt_of_not_le before)
      rw [MethodBody.inRegion, List.any_eq_false] at outside
      refine outside _ among ?_
      rw [inside]
      rfl
  | @left _ instruction leaving form id here ends among leaves there =>
      refine .inr (.inr ⟨guarded.behind_of_endFinally here ends, ?_⟩)
      have named :
          woven.named? (.target leaving.id 0) = some id := by
        rw [MethodBody.named?_target guarded.distinct among, leaves]
        rfl
      refine guarded.behind_of_named? named ?_ there
      intro placed member same
      obtain ⟨otherForm, target, test⟩ :=
        guarded.eq_test_of_id member among (Reference.target.inj same).1
      cases leaves.symm.trans test
  | passedOn here ends among there =>
      exact .inr (.inr ⟨guarded.behind_of_endFinally here ends,
        guarded.behind_of_handler among there⟩)

/-- No step of control goes over the start of a guard, or back to it. -/
theorem goesOn_start
    (guarded : GuardedEntry debugBuild woven first row exits)
    {left right : GuardRow} {placed : PlacedGuard}
    (split : row = left ++ placed :: right)
    {position target : Nat} (step : woven.GoesOn position target) :
    (position < left.size debugBuild → target ≤ left.size debugBuild) ∧
      (left.size debugBuild ≤ position → left.size debugBuild < target) := by
  have inside : left.size debugBuild < row.size debugBuild := by
    have positive := placed.guard.size_pos debugBuild
    rw [split, GuardRow.size_append, GuardRow.size_cons]
    omega
  rcases guarded.cases_of_goesOn step with
    rfl | ⟨otherLeft, other, otherRight, otherSplit, start, stop, rfl⟩ |
    ⟨behind, stays⟩
  · omega
  -- The guard that is left stands in the row before this one, or it is this one or a later one.
  · rcases List.append_eq_append_iff.mp (split.symm.trans otherSplit) with
      ⟨between, rfl, -⟩ | ⟨between, rfl, behind⟩
    · rw [GuardRow.size_append] at start
      omega
    · cases between with
      | nil =>
          rw [List.append_nil] at *
          omega
      | cons _ between =>
          obtain ⟨rfl, -⟩ := List.cons.inj behind
          simp only [GuardRow.size_append, GuardRow.size_cons,
            GuardRow.size_nil] at *
          omega
  · omega

/-- Every call goes through each guard of the row once before it reaches what stands behind. -/
theorem passes_once
    (guarded : GuardedEntry debugBuild woven first row exits)
    {placed : PlacedGuard} (member : placed ∈ row) :
    ∃ start, start < row.size debugBuild ∧
      woven.indexOf? placed.start = some start ∧
      ∀ position past, woven.Path (position :: past) →
        (position :: past).count start =
          if start ≤ position then 1 else 0 := by
  obtain ⟨left, right, split⟩ := List.append_of_mem member
  refine ⟨GuardRow.size debugBuild left, ?_, guarded.indexOf?_entrance split, ?_⟩
  · have positive := placed.guard.size_pos debugBuild
    rw [split, GuardRow.size_append, GuardRow.size_cons]
    omega
  · intro position past path
    exact path.count_eq
      (fun _ _ step => (guarded.goesOn_start split step).1)
      (fun _ _ step => (guarded.goesOn_start split step).2)

end GuardedEntry

end NullWeave
