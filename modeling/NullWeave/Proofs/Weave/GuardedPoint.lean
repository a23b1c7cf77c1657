import NullWeave.Proofs.Weave.WovenBody

/-!
# Guarded points

Guards stand before instructions that name no other one: a return, or a call.
Such a point stands in the new body as it is, directly behind its row.  What
led to the point leads to the row, and control does not run out of a row into
what stands behind it, so the test of the last guard is the only way on.
-/

namespace NullWeave

/-! ## Instructions that name no other one -/

theorem Operation.withForm_of_targets
    {operation : Operation} (none : operation.targets = [])
    (form : BranchForm) :
    operation.withForm form = operation := by
  cases operation <;> simp_all [withForm, targets]

theorem Operation.eq_of_withForm
    {form : BranchForm} {operation other : Operation}
    (same : operation.withForm form = other)
    (none : other.targets = []) :
    operation = other := by
  rw [← same, targets_withForm] at none
  rw [← same, withForm_of_targets none]

theorem Operation.eq_branch_of_withForm
    {form newForm : BranchForm} {kind : BranchKind} {target : InstrId}
    {operation : Operation}
    (same : operation.withForm newForm = .branch kind form target) :
    ∃ oldForm, operation = .branch kind oldForm target := by
  cases operation <;> simp_all [withForm]

namespace Instruction

theorem withForm_of_targets
    {point : Instruction} (none : point.operation.targets = [])
    (form : BranchForm) :
    point.withForm form = point := by
  rw [withForm, Operation.withForm_of_targets none]

theorem mapTargets_of_targets
    {point : Instruction} (none : point.operation.targets = [])
    (change : InstrId → InstrId) :
    point.mapTargets change = point := by
  have same :
      point.operation.mapTargets change =
        point.operation.mapTargets fun target => target :=
    Operation.mapTargets_congr fun target member => by
      simp [none] at member
  rw [mapTargets, same]
  exact congrArg (Instruction.mk point.id)
    (Operation.mapTargets_id point.operation)

end Instruction

theorem MethodBody.mem_widen
    {body : MethodBody} {point : Instruction}
    (here : point ∈ body.instructions)
    (none : point.operation.targets = []) :
    point ∈ body.widen.instructions := by
  rw [MethodBody.instructions_widen,
    ← Instruction.withForm_of_targets none .long]
  exact List.mem_map_of_mem here

/-! ## Where guards end -/

/-- Control does not run out of a row. -/
theorem GuardRow.stops
    {row : GuardRow} (nonempty : row ≠ [])
    (debugBuild : Bool) (next : InstrId) :
    ((row.code debugBuild next).getLast?).map
        (·.operation.neverFallsThrough) =
      some true := by
  induction row with
  | nil =>
      exact absurd rfl nonempty
  | cons placed rest inductionHypothesis =>
      have here := placed.stops debugBuild (entrance rest next)
      cases rest with
      | nil =>
          simpa using here
      | cons following others =>
          have later := inductionHypothesis (by simp)
          rw [code_cons, List.getLast?_append, Option.map_or, later]
          rfl

namespace GuardLayout.Describes

variable
    {layout : GuardLayout} {debugBuild : Bool}
    {body woven : MethodBody}
    {point : Instruction}

/-! ## Where a point stands -/

/-- Where a point stands in the new body. -/
theorem point_stands
    (described : layout.Describes debugBuild body.widen woven.widen)
    (none : point.operation.targets = [])
    {earlier later : List Instruction}
    (split : body.instructions = earlier ++ point :: later) :
    ∃ front code back,
      woven.instructions = front ++ code ++ point :: back ∧
        widenBranches code =
          (layout.before point.id).code debugBuild point.id ∧
        widenBranches front =
          layout.frontCode debugBuild body.widen.instructions ++
            layout.blocks debugBuild (widenBranches earlier) := by
  have whole := described.instructions
  rw [GuardLayout.code, MethodBody.instructions_widen,
    MethodBody.instructions_widen, split] at whole
  simp only [widenBranches_append, blocks_append] at whole
  have block :
      layout.blocks debugBuild (widenBranches (point :: later)) =
        (layout.before point.id).code debugBuild point.id ++
          point :: layout.blocks debugBuild (widenBranches later) := by
    have same :
        widenBranches (point :: later) = point :: widenBranches later := by
      rw [widenBranches, List.map_cons,
        Instruction.withForm_of_targets none]
      rfl
    rw [same, blocks_cons, GuardLayout.block,
      Instruction.mapTargets_of_targets none]
    simp
  rw [block, ← List.append_assoc, ← List.append_assoc] at whole
  obtain ⟨before, behind, parts, beforeSame, behindSame⟩ :=
    List.map_eq_append_iff.mp whole
  obtain ⟨front, code, beforeParts, frontSame, codeSame⟩ :=
    List.map_eq_append_iff.mp beforeSame
  obtain ⟨last, back, behindParts, lastSame, -⟩ :=
    List.map_eq_cons_iff.mp behindSame
  have same : last = point := by
    rcases last with ⟨lastId, lastOperation⟩
    rcases point with ⟨id, operation⟩
    obtain ⟨rfl, sameOperation⟩ := Instruction.mk.inj lastSame
    cases Operation.eq_of_withForm sameOperation none
    rfl
  refine ⟨front, code, back, ?_, codeSame, ?_⟩
  · rw [parts, beforeParts, behindParts, same]
  · rw [MethodBody.instructions_widen, split, widenBranches_append]
    exact frontSame

/-- What stands directly before a point stands directly before its guards. -/
theorem previous_stands
    {earlier : List Instruction} {previous : Instruction}
    {front instructions : List Instruction}
    (same : widenBranches front =
      layout.frontCode debugBuild instructions ++
        layout.blocks debugBuild (widenBranches (earlier ++ [previous]))) :
    ∃ others last,
      front = others ++ [last] ∧ last.id = previous.id ∧
        last.operation.neverFallsThrough =
          previous.operation.neverFallsThrough := by
  have behind :
      layout.blocks debugBuild (widenBranches (earlier ++ [previous])) =
        layout.blocks debugBuild (widenBranches earlier) ++
          (layout.before previous.id).code debugBuild previous.id ++
            [(previous.withForm .long).mapTargets layout.entrance] := by
    simp [widenBranches, GuardLayout.block]
  rw [behind, ← List.append_assoc] at same
  obtain ⟨others, rest, parts, -, restSame⟩ :=
    List.map_eq_append_iff.mp same
  obtain ⟨last, none, restParts, lastSame, noneSame⟩ :=
    List.map_eq_cons_iff.mp restSame
  cases List.map_eq_nil_iff.mp noneSame
  obtain ⟨sameId, sameOperation⟩ := Instruction.mk.inj lastSame
  refine ⟨others, last, by rw [parts, restParts], sameId, ?_⟩
  have goesOn := congrArg Operation.neverFallsThrough sameOperation
  simpa [Instruction.withForm] using goesOn

/-! ## Ways to a point -/

/-- Control does not run out of the code of a row. -/
theorem code_ends
    {row : GuardRow} (nonempty : row ≠ [])
    {code : List Instruction} {next : InstrId}
    (same : widenBranches code = row.code debugBuild next) :
    ∃ others last, code = others ++ [last] ∧
      last.operation.neverFallsThrough = true := by
  have ends := GuardRow.stops nonempty debugBuild next
  rw [← same] at ends
  rcases List.eq_nil_or_concat code with empty | ⟨others, last, split⟩
  · rw [empty] at ends
    simp [widenBranches] at ends
  · rw [List.concat_eq_append] at split
    refine ⟨others, last, split, ?_⟩
    rw [split, widenBranches_append, widenBranches, widenBranches,
      List.map_singleton, List.getLast?_append] at ends
    simpa [Instruction.withForm] using ends

/-- The test of a guard of a row stands in the code of the row. -/
theorem test_stands
    {left right : GuardRow} {placed : PlacedGuard}
    {code : List Instruction} {next : InstrId}
    (same : widenBranches code =
      GuardRow.code debugBuild (left ++ placed :: right) next) :
    ∃ form,
      ⟨placed.test debugBuild,
          .branch .ifTrue form (right.entrance next)⟩ ∈ code := by
  have inside := GuardRow.test_mem_code debugBuild left placed right next
  rw [← same] at inside
  obtain ⟨⟨id, operation⟩, member, sameTest⟩ := List.mem_map.mp inside
  obtain ⟨rfl, sameOperation⟩ := Instruction.mk.inj sameTest
  obtain ⟨form, rfl⟩ := Operation.eq_branch_of_withForm sameOperation
  exact ⟨form, member⟩

/-- Behind a row, control comes from the test of the last guard only. -/
theorem leads_iff
    (distinct : (identities woven.instructions).Nodup)
    {front code back : List Instruction}
    (stands : woven.instructions = front ++ code ++ point :: back)
    {row : GuardRow} (nonempty : row ≠ [])
    (same : widenBranches code = row.code debugBuild point.id)
    (goesOn : ∀ left last, row = left ++ [last] → ∀ reference,
      woven.named? reference = some point.id ↔
        reference = .target (PlacedGuard.test debugBuild last) 0)
    (way : Way) :
    woven.Leads way point.id ↔
      ∃ left last, row = left ++ [last] ∧
        way = .jump (PlacedGuard.test debugBuild last) 0 := by
  constructor
  · intro leads
    obtain ⟨left, placed, rowSplit⟩ :
        ∃ left placed, row = left ++ [placed] := by
      rcases List.eq_nil_or_concat row with none | ⟨left, placed, split⟩
      · exact absurd none nonempty
      · exact ⟨left, placed, by simpa using split⟩
    obtain ⟨others, last, codeSplit, lastStops⟩ :=
      code_ends nonempty same
    have directly :
        woven.instructions =
          (front ++ others) ++ last :: point :: back := by
      rw [stands, codeSplit]
      simp
    have onlyName := goesOn left placed rowSplit
    rcases leads.cases_of_stops distinct directly lastStops with
      ⟨source, index, rfl, named⟩ | ⟨handler, named⟩
    · cases (onlyName _).mp named
      exact ⟨left, placed, rowSplit, rfl⟩
    · cases (onlyName _).mp named
  · rintro ⟨left, placed, rowSplit, rfl⟩
    exact .jump ((goesOn left placed rowSplit _).mpr rfl)

/--
Where nothing stands in front of a guarded body, what led to an instruction
leads to the row before it.
-/
theorem leads_entrance
    {original guarded : MethodBody}
    (described : layout.Describes debugBuild original guarded)
    (front : layout.front = []) {way : Way} {id : InstrId}
    (leads : original.Leads way id) :
    guarded.Leads way (layout.entrance id) := by
  cases leads with
  | entry first =>
      obtain ⟨entry, whole, rfl⟩ := Option.map_eq_some_iff.mp first
      obtain ⟨rest, whole⟩ := List.head?_eq_some_iff.mp whole
      obtain ⟨start, others, blocks, named⟩ :=
        layout.blocks_eq_cons debugBuild entry rest
      refine .entry ?_
      rw [MethodBody.firstId?, described.instructions, whole, code,
        frontCode, front, blocks, ← named]
      rfl
  | @handler index handler here =>
      have there :
          guarded.handlers[index]? =
            some (handler.mapBoundaries layout.entrance) := by
        rw [described.handlers, List.getElem?_map, here]
        rfl
      exact .handler there
  | jump named =>
      exact .jump (described.named?_of_original named)
  | @next earlier later instruction following split goesOn =>
      obtain ⟨front, stands, -⟩ := described.block_stands split
      obtain ⟨start, others, blocks, named⟩ :=
        layout.blocks_eq_cons debugBuild following later
      rw [blocks, ← List.append_assoc] at stands
      rw [← named]
      have next :=
        MethodBody.Leads.next stands
          (by simpa [Instruction.mapTargets] using goesOn)
      simpa only [Instruction.id_mapTargets] using next

end GuardLayout.Describes

end NullWeave
