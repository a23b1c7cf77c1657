import NullWeave.Proofs.Weave.OuterReturns
import NullWeave.Proofs.Weave.Rewriting

/-!
# How many guards a body gets

A method gets its entry guards once and its other guards before every return.
A state machine gets one guard before every call that hands a value over.
The guards of a method do not return, so its new body returns as often as the
old one.
-/

namespace NullWeave

/-! ## Counting in a layout -/

/-- What each guard does once is done in a row as often as it has guards. -/
theorem GuardRow.countOperations_of_once
    {test : Operation → Bool} {debugBuild : Bool}
    (once : ∀ (guard : Guard) (next : InstrId),
      (guard.operations debugBuild next).countP test = 1)
    (row : GuardRow) (next : InstrId) :
    countOperations test (row.code debugBuild next) = row.length := by
  induction row with
  | nil =>
      rfl
  | cons placed rest inductionHypothesis =>
      rw [code_cons, countOperations_append, PlacedGuard.code,
        countOperations_numberFrom, once, inductionHypothesis,
        List.length_cons, Nat.add_comm]

/-- Each guard of a row has one branch. -/
theorem GuardRow.countOperations_isBranch
    (debugBuild : Bool) (row : GuardRow) (next : InstrId) :
    countOperations Operation.isBranch (row.code debugBuild next) =
      row.length :=
  row.countOperations_of_once (Guard.countP_isBranch debugBuild) next

/-- Every instruction of a row comes from one of its guards. -/
theorem GuardRow.exists_of_mem_code
    {row : GuardRow} {debugBuild : Bool} {next : InstrId}
    {instruction : Instruction}
    (member : instruction ∈ row.code debugBuild next) :
    ∃ guard ∈ row.map (·.guard), ∃ next,
      instruction.operation ∈ guard.operations debugBuild next := by
  induction row with
  | nil =>
      cases member
  | cons placed rest inductionHypothesis =>
      rw [code_cons] at member
      rcases List.mem_append.mp member with first | later
      · exact ⟨placed.guard, by simp, entrance rest next,
          operation_mem_of_mem_numberFrom first⟩
      · obtain ⟨guard, among, inside⟩ := inductionHypothesis later
        exact ⟨guard, List.mem_cons_of_mem _ among, inside⟩

theorem GuardRow.Quiet.countOperations_eq
    {row : GuardRow} {debugBuild : Bool} {test : Operation → Bool}
    (quiet : row.Quiet debugBuild test) (next : InstrId) :
    countOperations test (row.code debugBuild next) = 0 := by
  refine List.countP_eq_zero.mpr fun instruction member => ?_
  rw [quiet.code next instruction member]
  exact Bool.false_ne_true

namespace GuardLayout

variable
    {layout : GuardLayout} {debugBuild : Bool}
    {test : Operation → Bool}

/-- Blocks do what their instructions do, and what the rows before these do. -/
theorem countOperations_blocks
    (blind : Operation.SeesNoTarget test)
    (instructions : List Instruction) :
    countOperations test (layout.blocks debugBuild instructions) =
      countOperations test instructions +
        countOperations test
          (instructions.flatMap fun instruction =>
            (layout.before instruction.id).code debugBuild
              instruction.id) := by
  induction instructions with
  | nil =>
      rfl
  | cons instruction rest inductionHypothesis =>
      have point :
          countOperations test [instruction.mapTargets layout.entrance] =
            countOperations test [instruction] :=
        countOperations_map_mapTargets blind layout.entrance [instruction]
      have parts : countOperations test (instruction :: rest) =
          countOperations test [instruction] + countOperations test rest :=
        countOperations_append [instruction] rest
      rw [blocks_cons, countOperations_append, block,
        countOperations_append, point, inductionHypothesis, parts,
        List.flatMap_cons, countOperations_append]
      omega

/-- Where equal rows stand before some instructions, each adds as much as the others. -/
theorem countOperations_blocks_of_rows
    (blind : Operation.SeesNoTarget test)
    (marked : Operation → Bool) (size : Nat)
    {instructions : List Instruction}
    (rows : ∀ instruction ∈ instructions,
      countOperations test
          ((layout.before instruction.id).code debugBuild
            instruction.id) =
        if marked instruction.operation then size else 0) :
    countOperations test (layout.blocks debugBuild instructions) =
      countOperations test instructions +
        size * countOperations marked instructions := by
  rw [countOperations_blocks blind, Nat.add_left_cancel_iff]
  induction instructions with
  | nil =>
      rfl
  | cons instruction rest inductionHypothesis =>
      rw [List.forall_mem_cons] at rows
      have here :
          (if marked instruction.operation then size else 0) =
            size * countOperations marked [instruction] := by
        cases tested : marked instruction.operation <;>
          simp [countOperations, tested]
      have parts : countOperations marked (instruction :: rest) =
          countOperations marked [instruction] +
            countOperations marked rest :=
        countOperations_append [instruction] rest
      rw [List.flatMap_cons, countOperations_append, rows.1, here,
        inductionHypothesis rows.2, parts, Nat.mul_add]

/-- Guards that are quiet about a test leave it satisfied as often as it was. -/
theorem Describes.countOperations_eq
    {body new : MethodBody}
    (described : layout.Describes debugBuild body.widen new.widen)
    (blind : Operation.SeesNoTarget test)
    (front : layout.front.Quiet debugBuild test)
    (before : ∀ instruction ∈ body.instructions,
      (layout.before instruction.id).Quiet debugBuild test) :
    countOperations test new.instructions =
      countOperations test body.instructions := by
  have silent :
      countOperations test
          (layout.frontCode debugBuild body.widen.instructions) =
        0 := by
    cases body.widen.instructions with
    | nil =>
        rfl
    | cons first rest =>
        exact front.countOperations_eq (layout.entrance first.id)
  have rows :
      countOperations test
          (layout.blocks debugBuild body.widen.instructions) =
        countOperations test body.widen.instructions := by
    refine (countOperations_blocks_of_rows blind (fun _ => false) 0
      fun instruction member => ?_).trans (by simp)
    obtain ⟨original, here, rfl⟩ := List.mem_map.mp member
    exact (before original here).countOperations_eq original.id
  calc
    countOperations test new.instructions =
        countOperations test new.widen.instructions :=
      (countOperations_widenBranches blind new.instructions).symm
    _ = countOperations test
          (layout.code debugBuild body.widen.instructions) := by
      rw [described.instructions]
    _ = countOperations test body.widen.instructions := by
      rw [code, countOperations_append, silent, Nat.zero_add]
      exact rows
    _ = countOperations test body.instructions :=
      countOperations_widenBranches blind body.instructions

/-- The number of guards put into a body is the number of those in its layout. -/
theorem Describes.guards_eq
    {style : GuardStyle} {original : MethodBody} {guarded : GuardedBody}
    (described :
      layout.Describes style.debugBuild original guarded.body)
    (comes : guarded.ComesFrom style original)
    (entered : original.instructions = [] → layout.front = [])
    (marked : Operation → Bool) (guards : List Guard)
    (rows : ∀ instruction ∈ original.instructions,
      layout.guardsBefore instruction.id =
        if marked instruction.operation then guards else []) :
    guarded.guards =
      layout.front.length +
        guards.length * countOperations marked original.instructions := by
  obtain ⟨placed, trace, count⟩ := comes
  have branches := trace.countOperations_isBranch
  have front :
      countOperations Operation.isBranch
          (layout.frontCode style.debugBuild original.instructions) =
        layout.front.length := by
    cases whole : original.instructions with
    | nil =>
        rw [entered whole]
        rfl
    | cons first rest =>
        exact GuardRow.countOperations_isBranch style.debugBuild
          layout.front (layout.entrance first.id)
  have blocks :
      countOperations Operation.isBranch
          (layout.blocks style.debugBuild original.instructions) =
        countOperations Operation.isBranch original.instructions +
          guards.length * countOperations marked original.instructions := by
    refine countOperations_blocks_of_rows Operation.seesNoTarget_isBranch marked
      guards.length fun instruction member => ?_
    have row := congrArg List.length (rows instruction member)
    rw [guardsBefore, List.length_map] at row
    rw [GuardRow.countOperations_isBranch, row]
    cases marked instruction.operation <;> rfl
  rw [described.instructions, code, countOperations_append, front, blocks]
    at branches
  omega

end GuardLayout

namespace MethodContext

variable {context : MethodContext} {settings : Settings} {body : MethodBody}

/-! ## A method of its own -/

/-- Visits to parameters put nothing in front of an empty body. -/
theorem argumentGuards_of_empty
    {style : GuardStyle} {guarded : GuardedBody}
    (empty : guarded.body.firstId? = none)
    (entries : List (Parameter × Nat)) :
    context.argumentGuards style guarded entries = [] := by
  induction entries generalizing guarded with
  | nil =>
      rfl
  | cons entry rest inductionHypothesis =>
      have none : context.argumentGuard? guarded.body entry = none := by
        simp [argumentGuard?, empty]
      have same := context.body_guardArgument style guarded entry
      rw [none] at same
      rw [argumentGuards, none, inductionHypothesis (same ▸ empty)]
      rfl

/-- An empty body gets no entry guards. -/
theorem entryGuards_of_empty
    (settings : Settings) (wellFormed : body.WellFormed)
    (empty : body.instructions = []) :
    context.entryGuards settings body = [] := by
  have wide : body.widen.instructions = [] := by
    simp [empty]
  obtain ⟨layout, described, -, -⟩ :=
    context.exists_layout_beforeAccessor settings wellFormed
  have last :
      (context.guardBeforeAccessor settings body).body.firstId? = none := by
    rw [MethodBody.firstId?, described.instructions, wide]
    rfl
  have setter :
      context.setterGuard?
          (context.guardBeforeAccessor settings body).body = none := by
    by_contra present
    have inside :=
      firstId?_of_setterGuard? (Option.isSome_iff_ne_none.mpr present)
    rw [last] at inside
    cases inside
  have start : body.widen.firstId? = none := by
    rw [MethodBody.firstId?, wide]
    rfl
  rw [entryGuards, setter, argumentGuards_of_empty start]
  simp

theorem Lays.front_of_empty
    {layout : GuardLayout} (lays : context.Lays settings body layout)
    (wellFormed : body.WellFormed) (empty : body.instructions = []) :
    layout.front = [] := by
  rw [← List.map_eq_nil_iff, lays.front,
    entryGuards_of_empty settings wellFormed empty]

/-- A method gets its entry guards once, and its other guards before every return. -/
theorem guards_guardBody
    (settings : Settings) (wellFormed : body.WellFormed) :
    (context.guardBody settings body).guards =
      (context.entryGuards settings body).length +
        context.exitGuards.length *
          countOperations Operation.isRet body.instructions := by
  obtain ⟨layout, lays⟩ := context.exists_layout settings wellFormed
  have front := congrArg List.length lays.front
  rw [List.length_map] at front
  have described :
      layout.Describes (style settings body).debugBuild body.widen
        (context.guardBody settings body).body := lays.describes
  have counted :=
    described.guards_eq (context.comesFrom_guardBody settings body)
      (fun wide => lays.front_of_empty wellFormed (by simpa using wide))
      Operation.isRet context.exitGuards lays.rows_widen
  rw [counted, front, MethodBody.instructions_widen,
    countOperations_widenBranches Operation.seesNoTarget_isRet]

/-- The guards before the returns of a method throw. -/
theorem Lays.quiet_before
    {layout : GuardLayout} (lays : context.Lays settings body layout) :
    ∀ instruction ∈ body.instructions,
      (layout.before instruction.id).Quiet settings.debugBuild
        Operation.isRet := by
  intro instruction member
  refine GuardRow.quiet_of_throws (fun guard here => ?_) _
  have row := lays.before instruction member
  rw [GuardLayout.guardsBefore] at row
  rw [row] at here
  split at here
  · exact context.exit_outGuards_append guard
      (context.exitGuards_sublist.subset here)
  · cases here

/-- So do its entry guards. -/
theorem Lays.quiet_front
    {layout : GuardLayout} (lays : context.Lays settings body layout) :
    layout.front.Quiet settings.debugBuild Operation.isRet := by
  refine GuardRow.quiet_of_throws ?_ _
  rw [lays.front]
  exact context.exit_entryGuards settings body

/-- The new body of a method returns as often as the old one. -/
theorem countOperations_isRet_wovenBody
    (settings : Settings) (wellFormed : body.WellFormed) :
    countOperations Operation.isRet
        (context.wovenBody settings body).instructions =
      countOperations Operation.isRet body.instructions := by
  obtain ⟨layout, lays⟩ := context.exists_layout settings wellFormed
  exact lays.woven.countOperations_eq Operation.seesNoTarget_isRet
    lays.quiet_front lays.quiet_before

end MethodContext

/-! ## A state machine -/

/-- Finishing a guarded body changes forms of branches only. -/
theorem GuardedBody.countOperations_finish
    {test : Operation → Bool} (blind : Operation.SeesNoTarget test)
    (guarded : GuardedBody) :
    countOperations test guarded.finish.instructions =
      countOperations test guarded.body.instructions := by
  rw [← countOperations_widenBranches blind guarded.finish.instructions,
    finish, MethodBody.refreshDebugInfo, MethodBody.narrow,
    widenBranches_narrowBranches, countOperations_widenBranches blind]

namespace MethodContext

variable
    {context : MethodContext} {debugBuild : Bool} {payload : Signature}
    {setException : MethodId} {body : MethodBody}

/-- Before every call that hands a value over, the same operations are added. -/
theorem countOperations_guardHandovers
    {test : Operation → Bool} (blind : Operation.SeesNoTarget test)
    (context : MethodContext) (debugBuild : Bool) (payload : Signature)
    (setException : MethodId) (body : MethodBody) :
    countOperations test
        (context.guardHandovers debugBuild payload setException
          body).body.instructions =
      countOperations test body.widen.instructions +
        countOperations context.graph.isHandover body.instructions *
          ((context.handoverGuard payload setException).operations
            debugBuild .first).countP test := by
  have places :
      countOperations context.graph.isHandover body.instructions =
        (positionsWhere context.graph.isHandover body.instructions).length :=
    (length_positionsWhere body.instructions).symm
  rw [places]
  refine countOperations_foldl_addExitGuard blind
    { debugBuild, document := body.debugInfo.document? }
    (context.handoverGuard payload setException) fun position member => ?_
  simpa using lt_length_of_mem_positionsWhere member

/-- A state machine gets one guard before every call that hands a value over. -/
theorem guards_guardHandovers
    (context : MethodContext) (debugBuild : Bool) (payload : Signature)
    (setException : MethodId) (body : MethodBody) :
    (context.guardHandovers debugBuild payload setException body).guards =
      countOperations context.graph.isHandover body.instructions := by
  obtain ⟨placed, trace, count⟩ :=
    context.comesFrom_guardHandovers debugBuild payload setException body
  have branches := trace.countOperations_isBranch
  have added :=
    context.countOperations_guardHandovers
      Operation.seesNoTarget_isBranch debugBuild payload setException body
  rw [Guard.countP_isBranch, Nat.mul_one] at added
  omega

end MethodContext

end NullWeave
