import Mathlib.Algebra.GroupWithZero.Nat
import NullWeave.Proofs.Code.Redirection
import NullWeave.Weave.GuardedBody

/-!
# Guards in rows

Guards that stand before the same instruction form a row: each goes on at the
next one, and the last one goes on at the instruction.  A row is entered at its
first guard, or at the instruction where there is none.

A guard refers to nothing but the place where it goes on.  So redirecting an
identity changes a row only where the row goes on, provided that no inner guard
starts there.
-/

namespace NullWeave

/-! ## Operations in a straight line -/

namespace Operation

/-- Does an operation name no instruction, and go on at the next one? -/
def Straight (operation : Operation) : Prop :=
  operation.targets = [] ∧ operation.neverFallsThrough = false

theorem Straight.isRet
    {operation : Operation} (straight : operation.Straight) :
    operation.isRet = false :=
  isRet_of_goesOn straight.2

end Operation

theorem map_mapTargets_of_targets
    {operations : List Operation}
    (none : ∀ operation ∈ operations, operation.targets = [])
    (change : InstrId → InstrId) :
    operations.map (·.mapTargets change) = operations := by
  refine (List.map_congr_left fun operation member => ?_).trans
    (List.map_id operations)
  refine (Operation.mapTargets_congr ?_).trans
    (Operation.mapTargets_id operation)
  simp [none operation member]

theorem map_withForm_of_targets
    {operations : List Operation}
    (none : ∀ operation ∈ operations, operation.targets = [])
    (form : BranchForm) :
    operations.map (·.withForm form) = operations := by
  refine (List.map_congr_left fun operation member => ?_).trans
    (List.map_id operations)
  cases operation with
  | branch kind form target =>
      simpa [Operation.targets] using none _ member
  | _ => rfl

/-! ## Guards -/

namespace Guard

/-- What a guard does before its test. -/
def loading (debugBuild : Bool) (guard : Guard) : List Operation :=
  (if debugBuild then guard.assertion else []) ++ guard.subject.load

/-- What a guard does after its test, where the value is null. -/
def failing (guard : Guard) : List Operation :=
  guard.subject.discard ++ guard.failure.construct guard.message ++
    guard.exit.leave

theorem operations_eq
    (debugBuild : Bool) (guard : Guard) (next : InstrId) :
    guard.operations debugBuild next =
      guard.loading debugBuild ++
        .branch .ifTrue .long next :: guard.failing := by
  simp [operations, loading, failing]

theorem straight_load (subject : GuardedValue) :
    ∀ operation ∈ subject.load, operation.Straight := by
  unfold GuardedValue.load
  split <;> split <;>
    simp [Operation.Straight, Operation.targets,
      Operation.neverFallsThrough]

theorem straight_loading (debugBuild : Bool) (guard : Guard) :
    ∀ operation ∈ guard.loading debugBuild, operation.Straight := by
  intro operation member
  rcases List.mem_append.mp member with asserted | loaded
  · cases debugBuild with
    | false =>
        simp at asserted
    | true =>
        rcases List.mem_append.mp asserted with loaded | compared
        · exact straight_load guard.subject operation loaded
        · simp only [List.mem_cons, List.not_mem_nil, or_false]
            at compared
          rcases compared with rfl | rfl | rfl | rfl | rfl | rfl <;>
            exact ⟨rfl, rfl⟩
  · exact straight_load guard.subject operation loaded

/-- Up to its exit, a guard constructs its exception in a straight line. -/
theorem straight_constructing (guard : Guard) :
    ∀ operation ∈ guard.subject.discard ++
        guard.failure.construct guard.message,
      operation.Straight := by
  refine List.forall_mem_append.mpr ⟨?_, ?_⟩
  · cases guard.subject <;>
      simp [GuardedValue.discard, Operation.Straight, Operation.targets,
        Operation.neverFallsThrough]
  · cases guard.failure <;>
      simp [GuardFailure.construct, Operation.Straight,
        Operation.targets, Operation.neverFallsThrough]

theorem targets_loading (debugBuild : Bool) (guard : Guard) :
    ∀ operation ∈ guard.loading debugBuild, operation.targets = [] := by
  intro operation member
  exact (guard.straight_loading debugBuild operation member).1

theorem targets_failing (guard : Guard) :
    ∀ operation ∈ guard.failing, operation.targets = [] := by
  refine List.forall_mem_append.mpr ⟨?_, ?_⟩
  · intro operation member
    exact (guard.straight_constructing operation member).1
  · cases guard.exit <;> simp [GuardExit.leave, Operation.targets]

/-- A guard refers to no instruction but the one where it goes on. -/
theorem map_mapTargets_operations
    (change : InstrId → InstrId) (debugBuild : Bool)
    (guard : Guard) (next : InstrId) :
    (guard.operations debugBuild next).map (·.mapTargets change) =
      guard.operations debugBuild (change next) := by
  rw [operations_eq, operations_eq, List.map_append, List.map_cons,
    map_mapTargets_of_targets (guard.targets_loading debugBuild),
    map_mapTargets_of_targets guard.targets_failing]
  rfl

/-- Guards are written in long forms. -/
theorem map_withForm_operations
    (debugBuild : Bool) (guard : Guard) (next : InstrId) :
    (guard.operations debugBuild next).map (·.withForm .long) =
      guard.operations debugBuild next := by
  rw [operations_eq, List.map_append, List.map_cons,
    map_withForm_of_targets (guard.targets_loading debugBuild),
    map_withForm_of_targets guard.targets_failing]
  rfl

/-- A guard that throws does not return. -/
theorem isRet_of_mem_operations
    {guard : Guard} (throws : guard.exit = .throw)
    {debugBuild : Bool} {next : InstrId} {operation : Operation}
    (member : operation ∈ guard.operations debugBuild next) :
    operation.isRet = false := by
  rw [operations_eq] at member
  rcases List.mem_append.mp member with loading | rest
  · exact (guard.straight_loading debugBuild operation loading).isRet
  · rcases List.mem_cons.mp rest with rfl | failed
    · rfl
    · rcases List.mem_append.mp failed with constructed | left
      · exact (guard.straight_constructing operation constructed).isRet
      · rw [throws] at left
        cases List.mem_singleton.mp left
        rfl

/-- The number of operations of a guard. -/
def size (debugBuild : Bool) (guard : Guard) : Nat :=
  (guard.operations debugBuild .first).length

@[simp]
theorem length_operations
    (debugBuild : Bool) (guard : Guard) (next : InstrId) :
    (guard.operations debugBuild next).length =
      guard.size debugBuild := by
  simp [size, operations]

theorem size_pos (debugBuild : Bool) (guard : Guard) :
    0 < guard.size debugBuild := by
  simp only [size, operations, List.length_append, List.length_cons]
  omega

end Guard

/-! ## Rows of guards -/

/-- A guard in a body, with the identity of its first instruction. -/
structure PlacedGuard where
  guard : Guard
  start : InstrId

namespace PlacedGuard

/-- The instructions of a guard that goes on at an instruction. -/
def code (debugBuild : Bool) (placed : PlacedGuard) (next : InstrId) :
    List Instruction :=
  MethodBody.numberFrom placed.start
    (placed.guard.operations debugBuild next)

@[simp]
theorem length_code
    (debugBuild : Bool) (placed : PlacedGuard) (next : InstrId) :
    (placed.code debugBuild next).length =
      placed.guard.size debugBuild := by
  simp [code]

theorem map_mapTargets_code
    (change : InstrId → InstrId) (debugBuild : Bool)
    (placed : PlacedGuard) (next : InstrId) :
    (placed.code debugBuild next).map (·.mapTargets change) =
      placed.code debugBuild (change next) := by
  simp [code, map_mapTargets_numberFrom,
    Guard.map_mapTargets_operations]

theorem head?_code
    (debugBuild : Bool) (placed : PlacedGuard) (next : InstrId) :
    ((placed.code debugBuild next).head?).map (·.id) =
      some placed.start := by
  have nonempty := placed.guard.size_pos debugBuild
  rw [← Guard.length_operations debugBuild placed.guard next] at nonempty
  unfold code
  cases operations : placed.guard.operations debugBuild next with
  | nil =>
      simp [operations] at nonempty
  | cons operation rest =>
      simp [MethodBody.numberFrom]

theorem start_mem_code
    (debugBuild : Bool) (placed : PlacedGuard) (next : InstrId) :
    placed.start ∈ identities (placed.code debugBuild next) := by
  refine mem_identities_numberFrom.mpr ⟨Nat.le_refl _, ?_⟩
  have nonempty := placed.guard.size_pos debugBuild
  simp
  omega

end PlacedGuard

/-- Guards that stand one after another before the same instruction. -/
abbrev GuardRow := List PlacedGuard

namespace GuardRow

/-- Where a row before an instruction is entered. -/
def entrance (row : GuardRow) (next : InstrId) : InstrId :=
  match row with
  | [] => next
  | placed :: _ => placed.start

/-- The instructions of a row before an instruction, each guard going on at the next one. -/
def code (debugBuild : Bool) :
    GuardRow → InstrId → List Instruction
  | [], _ => []
  | placed :: rest, next =>
      placed.code debugBuild (entrance rest next) ++
        code debugBuild rest next

/-- The number of instructions of a row. -/
def size (debugBuild : Bool) (row : GuardRow) : Nat :=
  (row.map (·.guard.size debugBuild)).sum

@[simp]
theorem entrance_nil (next : InstrId) :
    entrance [] next = next := rfl

@[simp]
theorem entrance_cons
    (placed : PlacedGuard) (rest : GuardRow) (next : InstrId) :
    entrance (placed :: rest) next = placed.start := rfl

@[simp]
theorem code_nil (debugBuild : Bool) (next : InstrId) :
    code debugBuild [] next = [] := rfl

@[simp]
theorem code_cons
    (debugBuild : Bool) (placed : PlacedGuard)
    (rest : GuardRow) (next : InstrId) :
    code debugBuild (placed :: rest) next =
      placed.code debugBuild (entrance rest next) ++
        code debugBuild rest next := rfl

@[simp]
theorem length_code
    (debugBuild : Bool) (row : GuardRow) (next : InstrId) :
    (code debugBuild row next).length = row.size debugBuild := by
  induction row with
  | nil =>
      rfl
  | cons placed rest inductionHypothesis =>
      simp [size, inductionHypothesis]

theorem entrance_append
    (left right : GuardRow) (next : InstrId) :
    entrance (left ++ right) next =
      entrance left (entrance right next) := by
  cases left <;> rfl

theorem code_append
    (debugBuild : Bool) (left right : GuardRow) (next : InstrId) :
    code debugBuild (left ++ right) next =
      code debugBuild left (entrance right next) ++
        code debugBuild right next := by
  induction left with
  | nil =>
      rfl
  | cons placed rest inductionHypothesis =>
      simp [inductionHypothesis, entrance_append]

theorem start_mem_code
    {row : GuardRow} {placed : PlacedGuard}
    (member : placed ∈ row)
    (debugBuild : Bool) (next : InstrId) :
    placed.start ∈ identities (code debugBuild row next) := by
  induction row with
  | nil =>
      simp at member
  | cons first rest inductionHypothesis =>
      rw [code_cons, identities_append]
      rcases List.mem_cons.mp member with rfl | later
      · exact List.mem_append_left _
          (PlacedGuard.start_mem_code debugBuild _ _)
      · exact List.mem_append_right _ (inductionHypothesis later)

/-- The first instruction of a row, followed by the instruction behind it, is its entrance. -/
theorem head?_code_append
    (debugBuild : Bool) (row : GuardRow) (point : Instruction)
    (rest : List Instruction) :
    ((code debugBuild row point.id ++ point :: rest).head?).map (·.id) =
      some (entrance row point.id) := by
  cases row with
  | nil =>
      rfl
  | cons placed row =>
      have first :=
        placed.head?_code debugBuild (entrance row point.id)
      rw [code_cons, List.append_assoc, List.head?_append]
      cases head :
          (placed.code debugBuild (entrance row point.id)).head? with
      | none =>
          simp [head] at first
      | some instruction =>
          simpa [head] using first

/-- Changing targets, but for the starts of inner guards, changes only where a row goes on. -/
theorem map_mapTargets_code
    {row : GuardRow} {change : InstrId → InstrId}
    (fixed : ∀ placed ∈ row.tail, change placed.start = placed.start)
    (debugBuild : Bool) (next : InstrId) :
    (code debugBuild row next).map (·.mapTargets change) =
      code debugBuild row (change next) := by
  induction row with
  | nil =>
      rfl
  | cons placed rest inductionHypothesis =>
      have tail :=
        inductionHypothesis fun later member =>
          fixed later (List.mem_of_mem_tail member)
      have goesOn :
          change (entrance rest next) = entrance rest (change next) := by
        cases rest with
        | nil =>
            rfl
        | cons following others =>
            exact fixed following (by simp)
      rw [code_cons, code_cons, List.map_append,
        PlacedGuard.map_mapTargets_code, goesOn, tail]

/--
Redirecting an identity at which no inner guard of a row starts redirects the
place where the row goes on, and nothing else.
-/
theorem map_redirected_code
    {row : GuardRow} {old : InstrId}
    (apart : ∀ placed ∈ row.tail, placed.start ≠ old)
    (debugBuild : Bool) (new next : InstrId) :
    (code debugBuild row next).map
        (·.mapTargets (redirected old new)) =
      code debugBuild row (redirected old new next) :=
  map_mapTargets_code
    (fun placed member => redirected_of_ne new (apart placed member))
    debugBuild next

end GuardRow

/-! ## Putting one guard into a body -/

namespace GuardedBody

theorem addExitGuard_of_split
    {guarded : GuardedBody}
    {front back : List Instruction} {point : Instruction}
    (split : guarded.body.instructions = front ++ point :: back)
    (style : GuardStyle) (guard : Guard) :
    let change := redirected point.id guarded.body.nextId
    let added := (guarded.addExitGuard style front.length guard).body
    added.instructions =
        front.map (·.mapTargets change) ++
          (PlacedGuard.code style.debugBuild
              ⟨guard, guarded.body.nextId⟩ point.id ++
            (point :: back).map (·.mapTargets change)) ∧
      added.handlers =
        guarded.body.handlers.map (·.mapBoundaries change) ∧
      added.locals = guarded.body.locals ∧
      added.nextId.number =
        guarded.body.nextId.number + guard.size style.debugBuild := by
  have first :=
    PlacedGuard.head?_code style.debugBuild
      ⟨guard, guarded.body.nextId⟩ point.id
  cases fragment :
      PlacedGuard.code style.debugBuild
        ⟨guard, guarded.body.nextId⟩ point.id with
  | nil =>
      simp [fragment] at first
  | cons start rest =>
      have startId : start.id = guarded.body.nextId := by
        simpa [fragment] using first
      have numbered :
          MethodBody.numberFrom guarded.body.nextId
            (guard.operations style.debugBuild point.id) =
              start :: rest := fragment
      simp [addExitGuard, MethodBody.makeInstructions, numbered,
        MethodBody.hideAndInsert, MethodBody.hideFragment,
        MethodBody.insertBefore, MethodBody.redirect_eq, note, split,
        startId]

theorem addEntryGuard_of_cons
    {guarded : GuardedBody}
    {entry : Instruction} {rest : List Instruction}
    (split : guarded.body.instructions = entry :: rest)
    (style : GuardStyle) (guard : Guard) :
    let added := (guarded.addEntryGuard style guard).body
    added.instructions =
        PlacedGuard.code style.debugBuild
            ⟨guard, guarded.body.nextId⟩ entry.id ++
          guarded.body.instructions ∧
      added.handlers = guarded.body.handlers ∧
      added.locals = guarded.body.locals ∧
      added.nextId.number =
        guarded.body.nextId.number + guard.size style.debugBuild := by
  have entryId : guarded.body.firstId? = some entry.id := by
    simp [MethodBody.firstId?, split]
  have first :=
    PlacedGuard.head?_code style.debugBuild
      ⟨guard, guarded.body.nextId⟩ entry.id
  cases fragment :
      PlacedGuard.code style.debugBuild
        ⟨guard, guarded.body.nextId⟩ entry.id with
  | nil =>
      simp [fragment] at first
  | cons start others =>
      have numbered :
          MethodBody.numberFrom guarded.body.nextId
            (guard.operations style.debugBuild entry.id) =
              start :: others := fragment
      simp [addEntryGuard, entryId, MethodBody.makeInstructions,
        numbered, MethodBody.hideAndPrepend, MethodBody.hideFragment,
        MethodBody.prepend, note]

end GuardedBody

end NullWeave
