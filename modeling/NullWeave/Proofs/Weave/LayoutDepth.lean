import NullWeave.Proofs.Weave.GuardDepth

/-!
# The depths of a guarded body

Each guard of a row starts with the depth before the instruction behind the
row, and control does not run out of it.  So the depths of a guarded body are those of the
original one, with the depths of the guards put in between, and every way of
the original body leads through the guards to where it led.
-/

namespace NullWeave

open DepthCode

/-! ## Code in a row -/

/-- Instructions in a row with the depths before them, from a first one on. -/
def depthsThrough
    (graph : Graph) : Option Nat → List Instruction → DepthCode
  | _, [] => []
  | depth, instruction :: rest =>
      (instruction, depth) ::
        depthsThrough graph
          (depth.map (instruction.operation.depthAfter graph)) rest

section Straight

variable
    (graph : Graph) (depth : Option Nat)

@[simp]
theorem depthsThrough_nil : depthsThrough graph depth [] = [] := rfl

@[simp]
theorem depthsThrough_cons
    (instruction : Instruction) (rest : List Instruction) :
    depthsThrough graph depth (instruction :: rest) =
      (instruction, depth) ::
        depthsThrough graph
          (depth.map (instruction.operation.depthAfter graph)) rest := rfl

theorem depthsThrough_numberFrom_append
    (depth : Nat) (start : InstrId) (operations : List Operation)
    (rest : List Instruction) :
    depthsThrough graph (some depth)
        (MethodBody.numberFrom start operations ++ rest) =
      depthsThrough graph (some depth)
          (MethodBody.numberFrom start operations) ++
        depthsThrough graph (some (depthThrough graph depth operations))
          rest := by
  induction operations generalizing start depth with
  | nil =>
      rfl
  | cons operation others inductionHypothesis =>
      simp [MethodBody.numberFrom, inductionHypothesis]

@[simp]
theorem map_fst_depthsThrough (instructions : List Instruction) :
    (depthsThrough graph depth instructions).map (·.1) =
      instructions := by
  induction instructions generalizing depth with
  | nil =>
      rfl
  | cons instruction rest inductionHypothesis =>
      simp [inductionHypothesis]

theorem isChain_depthsThrough (instructions : List Instruction) :
    (depthsThrough graph depth instructions).IsChain
      (Follows graph) := by
  induction instructions generalizing depth with
  | nil =>
      exact .nil
  | cons instruction rest inductionHypothesis =>
      have tail := inductionHypothesis
        (depth.map (instruction.operation.depthAfter graph))
      cases rest with
      | nil =>
          exact .singleton _
      | cons following others =>
          refine List.IsChain.cons_cons ?_ tail
          rintro before rfl -
          rfl

theorem snd_of_mem_depthsThrough_none
    {graph : Graph} {instructions : List Instruction}
    {point : Instruction × Option Nat}
    (member : point ∈ depthsThrough graph none instructions) :
    point.2 = none := by
  induction instructions with
  | nil =>
      simp at member
  | cons instruction rest inductionHypothesis =>
      rcases List.mem_cons.mp member with rfl | later
      · rfl
      · exact inductionHypothesis later

theorem Runs.of_mem
    {graph : Graph} {bound depth : Nat} {returnsValue : Bool}
    {operations : List Operation}
    (runs : Runs graph bound returnsValue depth operations)
    {start : InstrId}
    {point : Instruction × Option Nat}
    (member : point ∈ depthsThrough graph (some depth)
      (MethodBody.numberFrom start operations))
    {before : Nat} (written : point.2 = some before) :
    point.1.operation ∈ operations ∧ before ≤ bound ∧
      (point.1.operation.isRet = true → before = returnsValue.toNat) ∧
      (point.1.operation.stackEffect graph).pops ≤ before ∧
      point.1.operation.depthAfter graph before ≤ bound := by
  induction operations generalizing start depth with
  | nil =>
      simp [MethodBody.numberFrom] at member
  | cons operation rest inductionHypothesis =>
      obtain ⟨room, returns, enough, later⟩ := runs
      rcases List.mem_cons.mp member with rfl | there
      · cases written
        refine ⟨List.mem_cons_self .., room, returns, enough, ?_⟩
        cases rest with
        | nil => exact later
        | cons _ _ => exact later.1
      · obtain ⟨among, others⟩ := inductionHypothesis later there
        exact ⟨List.mem_cons_of_mem _ among, others⟩

end Straight

/-! ## Guards and rows -/

section Guards

variable
    {graph : Graph} {bound depth : Nat} {debugBuild : Bool}
    {code : DepthCode} {returnsValue : Bool}

/-- Does an instruction fit, and show no depth beyond a bound? -/
structure FitsWithin
    (graph : Graph) (code : DepthCode) (returnsValue : Bool)
    (bound : Nat) (instruction : Instruction) (depth : Nat) : Prop where
  fits : Fits graph code returnsValue instruction depth
  within : ∀ shown,
    MethodBody.Shows graph instruction depth shown → shown ≤ bound

theorem Runs.fitsWithin
    {operations : List Operation}
    (runs : Runs graph bound returnsValue depth operations)
    (untargeted : ∀ operation ∈ operations, operation.targets = [])
    {start : InstrId} {point : Instruction × Option Nat}
    (member : point ∈ depthsThrough graph (some depth)
      (MethodBody.numberFrom start operations))
    {before : Nat} (written : point.2 = some before) :
    FitsWithin graph code returnsValue bound point.1 before := by
  obtain ⟨among, room, returns, enough, after⟩ :=
    runs.of_mem member written
  refine ⟨⟨returns, fun _ => enough, by simp [untargeted _ among]⟩, ?_⟩
  rintro shown (rfl | ⟨-, rfl⟩)
  · exact room
  · exact after

namespace PlacedGuard

/-- The instructions of a guard with the depths before them. -/
def depthCode
    (graph : Graph) (debugBuild : Bool) (depth : Option Nat)
    (placed : PlacedGuard) (next : InstrId) : DepthCode :=
  depthsThrough graph depth (placed.code debugBuild next)

variable {placed : PlacedGuard} {next : InstrId}

theorem depthCode_eq
    (balanced :
      placed.guard.Balanced graph bound returnsValue debugBuild depth) :
    placed.depthCode graph debugBuild (some depth) next =
      depthsThrough graph (some depth)
          (MethodBody.numberFrom placed.start
            (placed.guard.loading debugBuild)) ++
        (⟨placed.test debugBuild, .branch .ifTrue .long next⟩,
            some (depth + 1)) ::
          depthsThrough graph (some depth)
            (MethodBody.numberFrom (placed.test debugBuild).next
              placed.guard.failing) := by
  have tests := balanced.tests
  rw [Guard.LetsThrough] at tests
  rw [depthCode, code_eq, depthsThrough_numberFrom_append, tests]
  rfl

theorem fitsWithin
    (balanced :
      placed.guard.Balanced graph bound returnsValue debugBuild depth)
    (goesOn : code.Has next depth)
    {point : Instruction × Option Nat}
    (member : point ∈ placed.depthCode graph debugBuild (some depth) next)
    {before : Nat} (written : point.2 = some before) :
    FitsWithin graph code returnsValue bound point.1 before := by
  have room : depth + 1 ≤ bound :=
    balanced.tests ▸ balanced.loads.through_le
  rw [depthCode_eq balanced] at member
  rcases List.mem_append.mp member with loading | rest
  · exact balanced.loads.fitsWithin
      (Guard.targets_loading debugBuild placed.guard) loading written
  · rcases List.mem_cons.mp rest with rfl | failing
    · cases written
      refine ⟨⟨nofun, fun _ => Nat.le_add_left 1 depth, ?_⟩, ?_⟩
      · intro target targeted
        cases List.mem_singleton.mp targeted
        exact goesOn
      · rintro shown (rfl | ⟨-, rfl⟩)
        · exact room
        · exact Nat.le_of_succ_le room
    · exact balanced.fails.fitsWithin
        (Guard.targets_failing placed.guard) failing written

end PlacedGuard

namespace GuardRow

/-- The instructions of a row with the depths before them, the same at the start of each guard. -/
def depthCode
    (graph : Graph) (debugBuild : Bool) (depth : Option Nat) :
    GuardRow → InstrId → DepthCode
  | [], _ => []
  | placed :: rest, next =>
      placed.depthCode graph debugBuild depth (entrance rest next) ++
        depthCode graph debugBuild depth rest next

@[simp]
theorem depthCode_nil (depth : Option Nat) (next : InstrId) :
    depthCode graph debugBuild depth [] next = [] := rfl

@[simp]
theorem depthCode_cons
    (depth : Option Nat) (placed : PlacedGuard) (rest : GuardRow)
    (next : InstrId) :
    depthCode graph debugBuild depth (placed :: rest) next =
      placed.depthCode graph debugBuild depth (entrance rest next) ++
        depthCode graph debugBuild depth rest next := rfl

@[simp]
theorem map_fst_depthCode
    (depth : Option Nat) (row : GuardRow) (next : InstrId) :
    (row.depthCode graph debugBuild depth next).map (·.1) =
      row.code debugBuild next := by
  induction row with
  | nil =>
      rfl
  | cons placed rest inductionHypothesis =>
      simp [inductionHypothesis, PlacedGuard.depthCode]

/-- A row is entered with its depth, whether it has guards or not. -/
theorem head?_depthCode_append
    {depth : Option Nat} (row : GuardRow) {next : InstrId}
    {point : Instruction} (named : point.id = next)
    (rest : DepthCode) :
    ∃ first others,
      row.depthCode graph debugBuild depth next ++
          (point, depth) :: rest = (first, depth) :: others ∧
        first.id = row.entrance next := by
  cases row with
  | nil =>
      exact ⟨point, rest, rfl, named⟩
  | cons placed row =>
      have start := placed.head?_code debugBuild (entrance row next)
      rw [depthCode_cons, PlacedGuard.depthCode]
      cases code : placed.code debugBuild (entrance row next) with
      | nil =>
          simp [code] at start
      | cons first others =>
          exact ⟨first, _, rfl, by simpa [code] using start⟩

/-- Control does not run out of a guard, so code with depths may follow a row. -/
theorem isChain_depthCode_append
    (row : GuardRow) (depth : Option Nat) (next : InstrId)
    {rest : DepthCode} (chain : rest.IsChain (Follows graph)) :
    (row.depthCode graph debugBuild depth next ++ rest).IsChain
      (Follows graph) := by
  induction row with
  | nil =>
      exact chain
  | cons placed row inductionHypothesis =>
      rw [depthCode_cons, List.append_assoc]
      refine List.isChain_append.mpr
        ⟨isChain_depthsThrough graph depth _, inductionHypothesis, ?_⟩
      intro last final _ _ before _ goesOn
      have ends := placed.stops debugBuild (entrance row next)
      rw [← map_fst_depthsThrough graph depth
        (placed.code debugBuild (entrance row next)),
        List.getLast?_map] at ends
      rw [PlacedGuard.depthCode, Option.mem_def] at final
      rw [final] at ends
      simp only [Option.map_some, Option.some.injEq] at ends
      cases ends.symm.trans goesOn

theorem has_entrance
    {depth : Nat} {row : GuardRow} {next : InstrId}
    {behind : Instruction} (named : behind.id = next)
    (inside : ∀ point ∈
      row.depthCode graph debugBuild (some depth) next ++
        [(behind, some depth)], point ∈ code) :
    code.Has (row.entrance next) depth := by
  obtain ⟨first, others, split, start⟩ :=
    row.head?_depthCode_append named []
  rw [split] at inside
  exact ⟨_, inside _ (List.mem_cons_self ..), start, rfl⟩

/-- Guards that are balanced at the depth of their row fit there. -/
theorem fitsWithin
    {row : GuardRow} {next : InstrId} {depth : Nat}
    (balanced : ∀ guard ∈ row.map (·.guard),
      guard.Balanced graph bound returnsValue debugBuild depth)
    {behind : Instruction} (named : behind.id = next)
    (inside : ∀ point ∈
      row.depthCode graph debugBuild (some depth) next ++
        [(behind, some depth)], point ∈ code)
    {point : Instruction × Option Nat}
    (member : point ∈ row.depthCode graph debugBuild (some depth) next)
    {before : Nat} (written : point.2 = some before) :
    FitsWithin graph code returnsValue bound point.1 before := by
  induction row with
  | nil =>
      simp at member
  | cons placed row inductionHypothesis =>
      rw [depthCode_cons, List.append_assoc] at inside
      have insideTail := fun other there =>
        inside other (List.mem_append_right _ there)
      rcases List.mem_append.mp member with here | later
      · exact PlacedGuard.fitsWithin (balanced placed.guard (by simp))
          (has_entrance named insideTail) here written
      · exact inductionHypothesis
          (fun guard there => balanced guard (List.mem_cons_of_mem _ there))
          insideTail later

theorem snd_of_mem_depthCode_none
    {row : GuardRow} {next : InstrId}
    {point : Instruction × Option Nat}
    (member : point ∈ row.depthCode graph debugBuild none next) :
    point.2 = none := by
  induction row with
  | nil =>
      simp at member
  | cons placed row inductionHypothesis =>
      rcases List.mem_append.mp member with here | later
      · exact snd_of_mem_depthsThrough_none here
      · exact inductionHypothesis later

end GuardRow

end Guards

/-! ## Layouts -/

namespace GuardLayout

/-- Are the guards of a layout balanced at the depths where they stand? -/
structure Balanced
    (graph : Graph) (bound : Nat) (returnsValue debugBuild : Bool)
    (depths : InstrId → Option Nat)
    (layout : GuardLayout) (instructions : List Instruction) :
    Prop where
  front : ∀ guard ∈ layout.front.map (·.guard),
    guard.Balanced graph bound returnsValue debugBuild 0
  before : ∀ instruction ∈ instructions, ∀ depth,
    depths instruction.id = some depth →
      ∀ guard ∈ layout.guardsBefore instruction.id,
        guard.Balanced graph bound returnsValue debugBuild depth

/-- Does control come through the guards of a layout at the depths where they stand? -/
structure LetsThrough
    (graph : Graph) (debugBuild : Bool) (depths : InstrId → Option Nat)
    (layout : GuardLayout) (instructions : List Instruction) :
    Prop where
  front : ∀ guard ∈ layout.front.map (·.guard),
    guard.LetsThrough graph debugBuild 0
  before : ∀ instruction ∈ instructions, ∀ depth,
    depths instruction.id = some depth →
      ∀ guard ∈ layout.guardsBefore instruction.id,
        guard.LetsThrough graph debugBuild depth

/-- An instruction and the row before it, with depths. -/
def blockDepths
    (graph : Graph) (debugBuild : Bool) (depths : InstrId → Option Nat)
    (layout : GuardLayout) (instruction : Instruction) : DepthCode :=
  (layout.before instruction.id).depthCode graph debugBuild
      (depths instruction.id) instruction.id ++
    [(instruction.mapTargets layout.entrance, depths instruction.id)]

/-- The row in front, with depths. -/
def frontDepths
    (graph : Graph) (debugBuild : Bool)
    (layout : GuardLayout) : List Instruction → DepthCode
  | [] => []
  | first :: _ =>
      layout.front.depthCode graph debugBuild (some 0)
        (layout.entrance first.id)

/-- All instructions of the guarded body, with depths. -/
def depthCode
    (graph : Graph) (debugBuild : Bool) (depths : InstrId → Option Nat)
    (layout : GuardLayout) (instructions : List Instruction) :
    DepthCode :=
  layout.frontDepths graph debugBuild instructions ++
    instructions.flatMap (layout.blockDepths graph debugBuild depths)

variable
    {graph : Graph} {bound : Nat} {returnsValue debugBuild : Bool}
    {depths : InstrId → Option Nat}
    {layout : GuardLayout} {instructions : List Instruction}

theorem Balanced.letsThrough
    (balanced : layout.Balanced graph bound returnsValue debugBuild depths
      instructions) :
    layout.LetsThrough graph debugBuild depths instructions where
  front guard member := (balanced.front guard member).tests
  before instruction member depth known guard among :=
    (balanced.before instruction member depth known guard among).tests

theorem map_fst_depthCode :
    (layout.depthCode graph debugBuild depths instructions).map (·.1) =
      layout.code debugBuild instructions := by
  have block : ∀ instruction,
      (layout.blockDepths graph debugBuild depths instruction).map (·.1) =
        layout.block debugBuild instruction := by
    intro instruction
    simp [blockDepths, GuardLayout.block]
  have front :
      (layout.frontDepths graph debugBuild instructions).map (·.1) =
        layout.frontCode debugBuild instructions := by
    cases instructions <;> simp [frontDepths, frontCode]
  rw [depthCode, List.map_append, List.map_flatMap, front, code, blocks]
  simp only [block]

/-- The block of an instruction is entered at the depth before the instruction. -/
theorem blockDepths_eq_cons
    (graph : Graph) (debugBuild : Bool) (depths : InstrId → Option Nat)
    (layout : GuardLayout) (instruction : Instruction) :
    ∃ first others,
      layout.blockDepths graph debugBuild depths instruction =
          (first, depths instruction.id) :: others ∧
        first.id = layout.entrance instruction.id :=
  GuardRow.head?_depthCode_append (layout.before instruction.id)
    (Instruction.id_mapTargets layout.entrance instruction) []

theorem mem_depthCode_of_block
    {instruction : Instruction} (member : instruction ∈ instructions)
    {point : Instruction × Option Nat}
    (inBlock : point ∈
      layout.blockDepths graph debugBuild depths instruction) :
    point ∈ layout.depthCode graph debugBuild depths instructions :=
  List.mem_append_right _ (List.mem_flatMap.mpr ⟨instruction, member, inBlock⟩)

theorem has_entrance
    {id : InstrId} {depth : Nat}
    (has : (of depths instructions).Has id depth) :
    (layout.depthCode graph debugBuild depths instructions).Has
      (layout.entrance id) depth := by
  obtain ⟨member, known⟩ := has_of_iff.mp has
  obtain ⟨instruction, here, rfl⟩ := mem_identities.mp member
  obtain ⟨first, others, split, start⟩ :=
    layout.blockDepths_eq_cons graph debugBuild depths instruction
  refine ⟨_, mem_depthCode_of_block here
    (split ▸ List.mem_cons_self ..), start, known⟩

theorem isChain_blocks
    (layout : GuardLayout) (debugBuild : Bool)
    (chain : (of depths instructions).IsChain (Follows graph)) :
    (instructions.flatMap
      (layout.blockDepths graph debugBuild depths)).IsChain
      (Follows graph) := by
  induction instructions with
  | nil =>
      exact .nil
  | cons instruction rest inductionHypothesis =>
      have tail := inductionHypothesis chain.tail
      rw [List.flatMap_cons, blockDepths, List.append_assoc,
        List.singleton_append]
      refine GuardRow.isChain_depthCode_append _ _ _ ?_
      cases rest with
      | nil =>
          exact .singleton _
      | cons following others =>
          obtain ⟨first, behind, split, -⟩ :=
            layout.blockDepths_eq_cons graph debugBuild depths following
          rw [List.flatMap_cons, split, List.cons_append] at tail ⊢
          refine List.IsChain.cons_cons ?_ tail
          have follows := (List.isChain_cons_cons.mp chain).1
          intro depth known goesOn
          have after := follows depth known
            (by simpa [Instruction.mapTargets] using goesOn)
          simpa [Instruction.mapTargets] using after

theorem isChain_depthCode
    (layout : GuardLayout) (debugBuild : Bool)
    (chain : (of depths instructions).IsChain (Follows graph)) :
    (layout.depthCode graph debugBuild depths instructions).IsChain
      (Follows graph) := by
  have blocks :
      (instructions.flatMap
        (layout.blockDepths graph debugBuild depths)).IsChain
        (Follows graph) :=
    layout.isChain_blocks debugBuild chain
  rw [depthCode]
  cases instructions with
  | nil =>
      exact .nil
  | cons first rest =>
      exact GuardRow.isChain_depthCode_append _ _ _ blocks

theorem entry_of
    (entry : ∀ first ∈ (of depths instructions).head?, first.2 = some 0) :
    ∀ first ∈ instructions.head?, depths first.id = some 0 := by
  cases instructions with
  | nil =>
      simp
  | cons first rest =>
      simpa [of] using entry

theorem snd_of_mem_head?_depthCode
    (entry : ∀ first ∈ instructions.head?, depths first.id = some 0)
    {start : Instruction × Option Nat}
    (head : start ∈
      (layout.depthCode graph debugBuild depths instructions).head?) :
    start.2 = some 0 := by
  cases instructions with
  | nil =>
      simp [depthCode, frontDepths] at head
  | cons instruction rest =>
      obtain ⟨first, behind, split, named⟩ :=
        layout.blockDepths_eq_cons graph debugBuild depths instruction
      rw [entry instruction rfl] at split
      rw [depthCode, List.flatMap_cons, split, List.cons_append,
        frontDepths] at head
      obtain ⟨entered, others, whole, -⟩ :=
        layout.front.head?_depthCode_append named
          (behind ++ rest.flatMap
            (layout.blockDepths graph debugBuild depths))
      rw [whole] at head
      cases head
      rfl

theorem of_mem_getLast?_depthCode
    {final : Instruction × Option Nat}
    (last : final ∈
      (layout.depthCode graph debugBuild depths
        instructions).getLast?) :
    ∃ instruction ∈ instructions.getLast?,
      final =
        (instruction.mapTargets layout.entrance,
          depths instruction.id) := by
  rcases List.eq_nil_or_concat instructions with rfl | ⟨init, end', rfl⟩
  · simp [depthCode, frontDepths] at last
  · refine ⟨end', by simp, ?_⟩
    rw [List.concat_eq_append, depthCode, List.flatMap_append,
      List.flatMap_singleton, blockDepths, ← List.append_assoc,
      ← List.append_assoc, List.getLast?_concat] at last
    exact (Option.some.inj last).symm

/--
What stands in a guarded body is an instruction of the original one, or part of
a guard that fits.
-/
theorem cases_of_mem_depthCode
    (balanced : layout.Balanced graph bound returnsValue debugBuild depths
      instructions)
    (entry : ∀ first ∈ instructions.head?, depths first.id = some 0)
    {point : Instruction × Option Nat}
    (member : point ∈
      layout.depthCode graph debugBuild depths instructions)
    {depth : Nat} (written : point.2 = some depth) :
    (∃ instruction ∈ instructions,
        point.1 = instruction.mapTargets layout.entrance ∧
          depths instruction.id = some depth) ∨
      FitsWithin graph
        (layout.depthCode graph debugBuild depths instructions)
        returnsValue bound point.1 depth := by
  rcases List.mem_append.mp member with front | inside
  · cases instructions with
    | nil =>
        simp [frontDepths] at front
    | cons start rest =>
        obtain ⟨first, others, split, named⟩ :=
          layout.blockDepths_eq_cons graph debugBuild depths start
        rw [entry start rfl] at split
        refine .inr (GuardRow.fitsWithin balanced.front named ?_
          front written)
        intro other there
        rcases List.mem_append.mp there with inFront | last
        · exact List.mem_append_left _ inFront
        · refine mem_depthCode_of_block (List.mem_cons_self ..) ?_
          rw [split, List.mem_singleton.mp last]
          exact List.mem_cons_self ..
  · obtain ⟨instruction, here, inBlock⟩ := List.mem_flatMap.mp inside
    rcases List.mem_append.mp inBlock with row | last
    · cases known : depths instruction.id with
      | none =>
          rw [known] at row
          rw [GuardRow.snd_of_mem_depthCode_none row] at written
          cases written
      | some before =>
          have all :
              ∀ other ∈
                  layout.blockDepths graph debugBuild depths instruction,
                other ∈
                  layout.depthCode graph debugBuild depths instructions :=
            fun _ there => mem_depthCode_of_block here there
          rw [blockDepths, known] at all
          rw [known] at row
          exact .inr (GuardRow.fitsWithin
            (balanced.before instruction here before known)
            (Instruction.id_mapTargets layout.entrance instruction)
            all row written)
    · cases List.mem_singleton.mp last
      exact .inl ⟨instruction, here, rfl, written⟩

/-- The depths of a guarded body are those of the original one and those of its guards. -/
theorem Describes.annotates
    {original guarded : MethodBody}
    (described : layout.Describes debugBuild original guarded)
    (annotates : Annotates graph original returnsValue
      (of depths original.instructions))
    (balanced : layout.Balanced graph bound returnsValue debugBuild depths
      original.instructions) :
    Annotates graph guarded returnsValue
      (layout.depthCode graph debugBuild depths
        original.instructions) where
  instructions := map_fst_depthCode.trans described.instructions.symm
  entry _ head := snd_of_mem_head?_depthCode (entry_of annotates.entry) head
  handlers := by
    intro handler member
    rw [described.handlers] at member
    obtain ⟨old, there, rfl⟩ := List.mem_map.mp member
    exact has_entrance (annotates.handlers old there)
  chain := layout.isChain_depthCode debugBuild annotates.chain
  ends := by
    intro final last depth written
    obtain ⟨instruction, there, rfl⟩ := of_mem_getLast?_depthCode last
    have ends :=
      annotates.ends (instruction, depths instruction.id)
        (by simpa [of] using there) depth written
    simpa [Instruction.mapTargets] using ends
  fits := by
    intro point member depth written
    rcases cases_of_mem_depthCode balanced (entry_of annotates.entry)
      member written with
      ⟨instruction, here, same, known⟩ | within
    · have fits :=
        annotates.fits (instruction, depths instruction.id)
          (List.mem_map_of_mem here) depth known
      rw [same]
      refine ⟨?_, ?_, ?_⟩
      · simpa [Instruction.mapTargets] using fits.returns
      · simpa [Instruction.mapTargets] using fits.pops
      · intro target targeted
        simp only [Instruction.mapTargets, Operation.targets_mapTargets,
          List.mem_map] at targeted
        obtain ⟨old, oldTargeted, rfl⟩ := targeted
        simpa [Instruction.mapTargets] using
          has_entrance (fits.targets old oldTargeted)
    · exact within.fits

end GuardLayout

end NullWeave
