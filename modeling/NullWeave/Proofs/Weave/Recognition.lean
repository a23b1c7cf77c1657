import NullWeave.Proofs.Weave.SystemNames

/-!
# What is recognised in a guarded body

A guard that is put in front of a body constructs an exception that names its
own parameter, and a guard before a return constructs another exception.  So
neither is taken for a guard of a parameter that it does not check.

Guards in front leave the operations behind them together.  Guards before a
return may come between the parts of what was recognised in the original body,
though only where a return stands in the place of the message.
-/

namespace NullWeave

/-! ## Recognition as tests in a row -/

/-- Do operations begin with some that satisfy tests, one after another? -/
def beginsWith : List (Operation → Bool) → List Operation → Bool
  | [], _ => true
  | _ :: _, [] => false
  | test :: tests, operation :: rest =>
      test operation && beginsWith tests rest

theorem beginsWithShortGuard_eq
    (graph : Graph) (parameter : String) (operations : List Operation) :
    beginsWithShortGuard graph parameter operations =
      beginsWith
        [loadsString parameter,
          constructsWith graph SystemLibrary.argumentNullInit,
          throwsException]
        operations := by
  rcases operations with _ | ⟨name, _ | ⟨construct, _ | ⟨leave, rest⟩⟩⟩ <;>
    simp [beginsWithShortGuard, beginsWith, Bool.and_assoc]

theorem beginsWithLongGuard_eq
    (graph : Graph) (parameter : String) (operations : List Operation) :
    beginsWithLongGuard graph parameter operations =
      beginsWith
        [loadsString parameter, fun _ => true,
          constructsWith graph SystemLibrary.argumentNullInitMessage,
          throwsException]
        operations := by
  rcases operations with
      _ | ⟨name, _ | ⟨message, _ | ⟨construct, _ | ⟨leave, rest⟩⟩⟩⟩ <;>
    simp [beginsWithLongGuard, beginsWith, Bool.and_assoc]

/--
Do operations hold a guard of a parameter that stays whole when something is
put before those that satisfy a test?

Such an operation may stand for the message only: all others of a guard load a
name, construct or throw.
-/
def keepsGuard
    (graph : Graph) (parameter : String) (broken : Operation → Bool) :
    List Operation → Bool
  | [] => false
  | operation :: rest =>
      beginsWithShortGuard graph parameter (operation :: rest) ||
        (beginsWithLongGuard graph parameter (operation :: rest) &&
          !rest.head?.any broken) ||
        keepsGuard graph parameter broken rest

/-- Where nothing is put in, every guard stays whole. -/
theorem keepsGuard_never
    (graph : Graph) (parameter : String) (operations : List Operation) :
    keepsGuard graph parameter (fun _ => false) operations =
      alreadyGuards graph parameter operations := by
  induction operations with
  | nil =>
      rfl
  | cons operation rest inductionHypothesis =>
      rw [keepsGuard, alreadyGuards, inductionHypothesis]
      simp

/-- What stays whole was there. -/
theorem alreadyGuards_of_keepsGuard
    {graph : Graph} {parameter : String} {broken : Operation → Bool}
    {operations : List Operation}
    (keeps : keepsGuard graph parameter broken operations = true) :
    alreadyGuards graph parameter operations = true := by
  induction operations with
  | nil =>
      cases keeps
  | cons operation rest inductionHypothesis =>
      simp only [keepsGuard, alreadyGuards, Bool.or_eq_true,
        Bool.and_eq_true] at keeps ⊢
      exact keeps.imp (Or.imp_right And.left) inductionHypothesis

/-! ## What is overlooked -/

/-- Are operations never taken for a part of a guard of a parameter, whatever follows them? -/
def Overlooks
    (graph : Graph) (parameter : String) (code : List Operation) : Prop :=
  ∀ rest, alreadyGuards graph parameter (code ++ rest) =
    alreadyGuards graph parameter rest

section Overlooked

variable {graph : Graph} {parameter : String}

theorem overlooks_nil : Overlooks graph parameter [] := fun _ => rfl

theorem Overlooks.append
    {left right : List Operation}
    (first : Overlooks graph parameter left)
    (second : Overlooks graph parameter right) :
    Overlooks graph parameter (left ++ right) := by
  intro rest
  rw [List.append_assoc, first, second]

/-- A guard begins with the name of its parameter. -/
theorem alreadyGuards_cons_of_not_loads
    {operation : Operation} (other : loadsString parameter operation = false)
    (rest : List Operation) :
    alreadyGuards graph parameter (operation :: rest) =
      alreadyGuards graph parameter rest := by
  rw [alreadyGuards, beginsWithShortGuard_eq, beginsWithLongGuard_eq]
  simp [beginsWith, other]

theorem overlooks_of_not_loads
    {code : List Operation}
    (others : ∀ operation ∈ code, loadsString parameter operation = false) :
    Overlooks graph parameter code := by
  induction code with
  | nil =>
      exact overlooks_nil
  | cons operation code inductionHypothesis =>
      intro rest
      rw [List.cons_append,
        alreadyGuards_cons_of_not_loads (others operation (by simp)),
        inductionHypothesis fun other member =>
          others other (List.mem_cons_of_mem _ member)]

/-- A name is not the start of a guard if neither constructor stands where it should. -/
theorem alreadyGuards_cons_of_not_constructs
    {operation second third : Operation}
    (short :
      constructsWith graph SystemLibrary.argumentNullInit second = false)
    (long :
      constructsWith graph SystemLibrary.argumentNullInitMessage third =
        false)
    (rest : List Operation) :
    alreadyGuards graph parameter (operation :: second :: third :: rest) =
      alreadyGuards graph parameter (second :: third :: rest) := by
  rw [alreadyGuards, beginsWithShortGuard_eq, beginsWithLongGuard_eq]
  simp [beginsWith, short, long]

end Overlooked

/-! ## Guards are overlooked -/

namespace Guard

variable {graph : Graph} {parameter : String}

theorem loadsString_load (subject : GuardedValue) :
    ∀ operation ∈ subject.load,
      loadsString parameter operation = false := by
  unfold GuardedValue.load
  split <;> split <;> simp [loadsString]

theorem load_ne_nil (subject : GuardedValue) : subject.load ≠ [] := by
  unfold GuardedValue.load
  split <;> split <;> simp

theorem constructsWith_load (graph : Graph) (subject : GuardedValue) :
    ∀ operation ∈ subject.load, ∀ constructor,
      constructsWith graph constructor operation = false := by
  unfold GuardedValue.load
  split <;> split <;> simp [constructsWith]

theorem constructsWith_loading
    (graph : Graph) (debugBuild : Bool) (guard : Guard) :
    ∀ operation ∈ guard.loading debugBuild, ∀ constructor,
      constructsWith graph constructor operation = false := by
  refine List.forall_mem_append.mpr
    ⟨?_, constructsWith_load graph guard.subject⟩
  cases debugBuild with
  | false =>
      simp
  | true =>
      refine List.forall_mem_append.mpr
        ⟨constructsWith_load graph guard.subject, ?_⟩
      simp [constructsWith]

/-- A guard begins with two operations that neither construct nor throw. -/
theorem operations_eq_cons
    (graph : Graph) (debugBuild : Bool) (guard : Guard) (next : InstrId) :
    ∃ first second rest,
      guard.operations debugBuild next = first :: second :: rest ∧
        (∀ constructor, constructsWith graph constructor first = false) ∧
        (∀ constructor, constructsWith graph constructor second = false) ∧
        throwsException first = false := by
  have quiet := constructsWith_loading graph debugBuild guard
  have straight := guard.straight_loading debugBuild
  rw [operations_eq]
  cases loading : guard.loading debugBuild with
  | nil =>
      exact absurd (List.append_eq_nil_iff.mp loading).2
        (load_ne_nil guard.subject)
  | cons first others =>
      rw [loading, List.forall_mem_cons] at quiet straight
      have stays : throwsException first = false := by
        have goesOn := straight.1.2
        cases first <;> simp_all [throwsException,
          Operation.neverFallsThrough]
      cases others with
      | nil =>
          exact ⟨first, _, _, rfl, quiet.1, fun _ => rfl, stays⟩
      | cons second others =>
          exact ⟨first, second, _, rfl, quiet.1,
            quiet.2 second (by simp), stays⟩

theorem overlooks_loading (debugBuild : Bool) (guard : Guard) :
    Overlooks graph parameter (guard.loading debugBuild) := by
  have loads :
      Overlooks graph parameter guard.subject.load :=
    overlooks_of_not_loads (loadsString_load guard.subject)
  cases debugBuild with
  | false =>
      exact loads
  | true =>
      have compares :
          Overlooks graph parameter [.ldNull, .ceq, .ldcI4 0, .ceq] :=
        overlooks_of_not_loads (by simp [loadsString])
      have asserts :
          Overlooks graph parameter
            ([.ldStr guard.message, .call SystemLibrary.debugAssert] ++
              guard.subject.load) := by
        obtain ⟨first, others, load⟩ :=
          List.exists_cons_of_ne_nil (load_ne_nil guard.subject)
        have quiet := constructsWith_load graph guard.subject
        rw [load] at loads quiet ⊢
        intro rest
        refine (alreadyGuards_cons_of_not_constructs rfl
          (quiet first (by simp) _) (others ++ rest)).trans ?_
        exact (alreadyGuards_cons_of_not_loads rfl _).trans (loads rest)
      have whole :
          guard.loading true =
            guard.subject.load ++ ([.ldNull, .ceq, .ldcI4 0, .ceq] ++
              ([.ldStr guard.message, .call SystemLibrary.debugAssert] ++
                guard.subject.load)) := by
        simp [loading, assertion]
      rw [whole]
      exact loads.append (compares.append asserts)

/-- An exception that does not name a parameter is not taken for a guard of it. -/
theorem overlooks_construct
    (includes : graph.IncludesSystem) (names : graph.NamesSystemTypes)
    {failure : GuardFailure} (apart : failure ≠ .argumentNull parameter)
    (message : String) :
    Overlooks graph parameter (failure.construct message ++ [.throw]) := by
  intro rest
  have short := Graph.methodName_argumentNullInit includes names
  cases failure with
  | argumentNull other =>
      have otherName : loadsString parameter (.ldStr other) = false := by
        rw [loadsString, beq_eq_false_iff_ne]
        rintro rfl
        exact apart rfl
      have long :=
        Graph.methodName_argumentNullInitMessage includes names
      refine (alreadyGuards_cons_of_not_loads otherName _).trans ?_
      refine (alreadyGuards_cons_of_not_constructs ?_ rfl rest).trans ?_
      · rw [constructsWith, long, short]
        decide
      · exact (alreadyGuards_cons_of_not_loads rfl _).trans
          (alreadyGuards_cons_of_not_loads rfl rest)
  | invalidOperation =>
      have other := Graph.methodName_invalidOperationInit includes names
      refine (alreadyGuards_cons_of_not_constructs ?_ rfl rest).trans ?_
      · rw [constructsWith, other, short]
        decide
      · exact (alreadyGuards_cons_of_not_loads rfl _).trans
          (alreadyGuards_cons_of_not_loads rfl rest)

/-- A guard of something else is not taken for a guard of a parameter. -/
theorem overlooks_operations
    (includes : graph.IncludesSystem) (names : graph.NamesSystemTypes)
    {guard : Guard} (throws : guard.exit = .throw)
    (apart : guard.failure ≠ .argumentNull parameter)
    (debugBuild : Bool) (next : InstrId) :
    Overlooks graph parameter (guard.operations debugBuild next) := by
  have tests :
      Overlooks graph parameter
        (.branch .ifTrue .long next :: guard.subject.discard) := by
    apply overlooks_of_not_loads
    cases guard.subject <;> simp [GuardedValue.discard, loadsString]
  have whole :
      guard.operations debugBuild next =
        guard.loading debugBuild ++
          ((.branch .ifTrue .long next :: guard.subject.discard) ++
            (guard.failure.construct guard.message ++ [.throw])) := by
    rw [operations_eq, failing, throws, GuardExit.leave]
    simp
  rw [whole]
  exact (guard.overlooks_loading debugBuild).append
    (tests.append (overlooks_construct includes names apart guard.message))

end Guard

theorem GuardRow.overlooks_code
    {graph : Graph} {parameter : String}
    (includes : graph.IncludesSystem) (names : graph.NamesSystemTypes)
    {row : GuardRow}
    (throws : ∀ guard ∈ row.map (·.guard), guard.exit = .throw)
    (apart : ∀ guard ∈ row.map (·.guard),
      guard.failure ≠ .argumentNull parameter)
    (debugBuild : Bool) (next : InstrId) :
    Overlooks graph parameter
      ((row.code debugBuild next).map (·.operation)) := by
  induction row with
  | nil =>
      exact overlooks_nil
  | cons placed rest inductionHypothesis =>
      rw [List.map_cons, List.forall_mem_cons] at throws apart
      rw [code_cons, List.map_append, PlacedGuard.code,
        MethodBody.map_operation_numberFrom]
      exact (Guard.overlooks_operations includes names throws.1 apart.1
        debugBuild _).append (inductionHypothesis throws.2 apart.2)

/-! ## Forms of branches -/

theorem beginsWith_map
    {tests : List (Operation → Bool)} {change : Operation → Operation}
    (same : ∀ test ∈ tests, ∀ operation,
      test (change operation) = test operation)
    (operations : List Operation) :
    beginsWith tests (operations.map change) =
      beginsWith tests operations := by
  induction tests generalizing operations with
  | nil =>
      rfl
  | cons test tests inductionHypothesis =>
      cases operations with
      | nil =>
          rfl
      | cons operation rest =>
          rw [List.map_cons, beginsWith, beginsWith,
            same test (List.mem_cons_self ..),
            inductionHypothesis fun other member =>
              same other (List.mem_cons_of_mem _ member)]

/-- What is recognised does not depend on the forms of branches. -/
theorem keepsGuard_withForm
    {broken : Operation → Bool} {form : BranchForm}
    (same : ∀ operation, broken (operation.withForm form) = broken operation)
    (graph : Graph) (parameter : String) (operations : List Operation) :
    keepsGuard graph parameter broken
        (operations.map (·.withForm form)) =
      keepsGuard graph parameter broken operations := by
  have loads : ∀ operation,
      loadsString parameter (operation.withForm form) =
        loadsString parameter operation := by
    intro operation
    cases operation <;> rfl
  have constructs : ∀ constructor operation,
      constructsWith graph constructor (operation.withForm form) =
        constructsWith graph constructor operation := by
    intro constructor operation
    cases operation <;> rfl
  have throws : ∀ operation,
      throwsException (operation.withForm form) =
        throwsException operation := by
    intro operation
    cases operation <;> rfl
  induction operations with
  | nil =>
      rfl
  | cons operation rest inductionHypothesis =>
      rw [List.map_cons, keepsGuard, keepsGuard, inductionHypothesis,
        ← List.map_cons, beginsWithShortGuard_eq, beginsWithLongGuard_eq,
        beginsWithShortGuard_eq, beginsWithLongGuard_eq,
        beginsWith_map (by simp [loads, constructs, throws]),
        beginsWith_map (by simp [loads, constructs, throws]),
        List.head?_map, Option.any_map]
      simp only [same]

/-! ## Recognition in a guarded body -/

/-- The operations of instructions. -/
def operationsOf (instructions : List Instruction) : List Operation :=
  instructions.map (·.operation)

@[simp]
theorem operationsOf_nil : operationsOf [] = [] := rfl

@[simp]
theorem operationsOf_cons
    (instruction : Instruction) (rest : List Instruction) :
    operationsOf (instruction :: rest) =
      instruction.operation :: operationsOf rest := rfl

@[simp]
theorem operationsOf_append (left right : List Instruction) :
    operationsOf (left ++ right) =
      operationsOf left ++ operationsOf right :=
  List.map_append

theorem operationsOf_widen (body : MethodBody) :
    operationsOf body.widen.instructions =
      (operationsOf body.instructions).map (·.withForm .long) := by
  simp [operationsOf, widenBranches, Instruction.withForm]

namespace GuardLayout

/-- Does a test hold of nothing that guards bring, or begin with? -/
structure PassesOver (debugBuild : Bool) (test : Operation → Bool) :
    Prop where
  sameTest : ∀ change operation,
    test (operation.mapTargets change) = test operation
  opens : ∀ guard next,
    ((Guard.operations debugBuild guard next).head?).any test = false
  ret : test .ret = false

theorem passesOver_constructsWith
    (graph : Graph) (debugBuild : Bool) (constructor : MethodId) :
    PassesOver debugBuild (constructsWith graph constructor) where
  sameTest _ operation := by
    cases operation <;> rfl
  opens guard next := by
    obtain ⟨first, second, rest, operations, quiet, -, -⟩ :=
      guard.operations_eq_cons graph debugBuild next
    simpa [operations] using quiet constructor
  ret := rfl

theorem passesOver_throwsException (debugBuild : Bool) :
    PassesOver debugBuild throwsException where
  sameTest _ operation := by
    cases operation <;> rfl
  opens guard next := by
    obtain ⟨first, second, rest, operations, -, -, stays⟩ :=
      guard.operations_eq_cons default debugBuild next
    simpa [operations] using stays
  ret := rfl

variable
    {layout : GuardLayout} {debugBuild : Bool}
    {broken : Operation → Bool} {instructions : List Instruction}

/-- Do guards stand before those instructions only that satisfy a test, and does each return? -/
def BreaksAt
    (layout : GuardLayout) (broken : Operation → Bool)
    (instructions : List Instruction) : Prop :=
  ∀ instruction ∈ instructions,
    if broken instruction.operation then
      instruction.operation = .ret ∧ layout.before instruction.id ≠ []
    else
      layout.before instruction.id = []

theorem operationsOf_blocks_cons
    (layout : GuardLayout) (debugBuild : Bool)
    (instruction : Instruction) (rest : List Instruction) :
    operationsOf (layout.blocks debugBuild (instruction :: rest)) =
      operationsOf ((layout.before instruction.id).code debugBuild
          instruction.id) ++
        instruction.operation.mapTargets layout.entrance ::
          operationsOf (layout.blocks debugBuild rest) := by
  simp [block, Instruction.mapTargets]

/-- A row of guards begins with two operations that neither construct nor throw. -/
theorem operationsOf_code_eq_cons
    (graph : Graph) {row : GuardRow} (nonempty : row ≠ [])
    (debugBuild : Bool) (next : InstrId) :
    ∃ first second rest,
      operationsOf (row.code debugBuild next) = first :: second :: rest ∧
        (∀ test, PassesOver debugBuild test → test first = false) ∧
        ∀ constructor,
          constructsWith graph constructor second = false := by
  obtain ⟨placed, others, rfl⟩ := List.exists_cons_of_ne_nil nonempty
  obtain ⟨first, second, rest, operations, -, quiet, -⟩ :=
    placed.guard.operations_eq_cons graph debugBuild
      (GuardRow.entrance others next)
  refine ⟨first, second,
    rest ++ operationsOf (GuardRow.code debugBuild others next), ?_, ?_,
    quiet⟩
  · rw [GuardRow.code_cons, operationsOf_append, operationsOf,
      PlacedGuard.code, MethodBody.map_operation_numberFrom, operations]
    rfl
  · intro test passes
    simpa [operations] using passes.opens placed.guard
      (GuardRow.entrance others next)

/-- Tests that pass over guards say of a guarded list what they say of the original one. -/
theorem beginsWith_blocks
    {tests : List (Operation → Bool)}
    (breaks : layout.BreaksAt broken instructions)
    (passes : ∀ test ∈ tests, PassesOver debugBuild test) :
    beginsWith tests
        (operationsOf (layout.blocks debugBuild instructions)) =
      beginsWith tests (operationsOf instructions) := by
  induction tests generalizing instructions with
  | nil =>
      rfl
  | cons test tests inductionHypothesis =>
      rw [List.forall_mem_cons] at passes
      cases instructions with
      | nil =>
          rfl
      | cons instruction rest =>
          rw [BreaksAt, List.forall_mem_cons] at breaks
          obtain ⟨here, later⟩ := breaks
          rw [operationsOf_blocks_cons]
          split at here
          · obtain ⟨returns, nonempty⟩ := here
            obtain ⟨first, second, others, code, opens, -⟩ :=
              operationsOf_code_eq_cons default nonempty debugBuild
                instruction.id
            rw [code]
            simp [beginsWith, opens test passes.1, returns, passes.1.ret]
          · rw [here]
            simp [beginsWith, passes.1.sameTest,
              inductionHypothesis later passes.2]

/-- A guard that brings a message stays whole unless a row stands before what loads the message. -/
theorem beginsWith_message_blocks
    (graph : Graph) (debugBuild : Bool)
    (breaks : layout.BreaksAt broken instructions) :
    beginsWith
        [fun _ => true,
          constructsWith graph SystemLibrary.argumentNullInitMessage,
          throwsException]
        (operationsOf (layout.blocks debugBuild instructions)) =
      (beginsWith
          [fun _ => true,
            constructsWith graph SystemLibrary.argumentNullInitMessage,
            throwsException]
          (operationsOf instructions) &&
        !(operationsOf instructions).head?.any broken) := by
  cases instructions with
  | nil =>
      rfl
  | cons instruction rest =>
      rw [BreaksAt, List.forall_mem_cons] at breaks
      obtain ⟨here, later⟩ := breaks
      have goesOn :=
        beginsWith_blocks later
          (show ∀ test ∈
              [constructsWith graph SystemLibrary.argumentNullInitMessage,
                throwsException],
              PassesOver debugBuild test by
            simp [passesOver_constructsWith, passesOver_throwsException])
      rw [operationsOf_blocks_cons]
      -- Behind the row's first operation stands one that does not construct.
      split at here
      · rename_i isBroken
        obtain ⟨first, second, others, code, -, quiet⟩ :=
          operationsOf_code_eq_cons graph here.2 debugBuild instruction.id
        rw [code]
        simp [beginsWith, quiet, isBroken]
      · rename_i isWhole
        rw [here]
        simp only [beginsWith, GuardRow.code_nil, operationsOf_nil,
          List.nil_append, operationsOf_cons, List.head?_cons,
          Option.any_some, Bool.true_and] at goesOn ⊢
        simp [isWhole, goesOn]

/--
What is recognised in a guarded list is what was recognised in the original one
and stays whole.
-/
theorem alreadyGuards_blocks
    {graph : Graph} {parameter : String}
    (breaks : layout.BreaksAt broken instructions)
    (overlooked : ∀ instruction ∈ instructions,
      Overlooks graph parameter
        (operationsOf ((layout.before instruction.id).code debugBuild
          instruction.id))) :
    alreadyGuards graph parameter
        (operationsOf (layout.blocks debugBuild instructions)) =
      keepsGuard graph parameter broken (operationsOf instructions) := by
  induction instructions with
  | nil =>
      rfl
  | cons instruction rest inductionHypothesis =>
      have later : layout.BreaksAt broken rest := fun other member =>
        breaks other (List.mem_cons_of_mem _ member)
      have loads :
          loadsString parameter
              (instruction.operation.mapTargets layout.entrance) =
            loadsString parameter instruction.operation := by
        cases instruction.operation <;> rfl
      have short :=
        beginsWith_blocks later
          (show ∀ test ∈
              [constructsWith graph SystemLibrary.argumentNullInit,
                throwsException],
              PassesOver debugBuild test by
            simp [passesOver_constructsWith, passesOver_throwsException])
      have long := beginsWith_message_blocks graph debugBuild later
      rw [operationsOf_blocks_cons, overlooked instruction (by simp),
        alreadyGuards, operationsOf_cons, keepsGuard,
        inductionHypothesis later fun other member =>
          overlooked other (List.mem_cons_of_mem _ member),
        beginsWithShortGuard_eq, beginsWithLongGuard_eq,
        beginsWithShortGuard_eq, beginsWithLongGuard_eq,
        beginsWith, beginsWith, beginsWith, beginsWith, loads, short, long,
        Bool.and_assoc]

/-- What is recognised in a body that is guarded as a layout says. -/
theorem Describes.alreadyGuards_eq
    {graph : Graph} {parameter : String} {body guarded : MethodBody}
    (described : layout.Describes debugBuild body.widen guarded)
    (includes : graph.IncludesSystem) (names : graph.NamesSystemTypes)
    (sameForm : ∀ operation,
      broken (operation.withForm .long) = broken operation)
    (breaks : layout.BreaksAt broken body.widen.instructions)
    (front : ∀ guard ∈ layout.front.map (·.guard),
      guard.exit = .throw ∧ guard.failure ≠ .argumentNull parameter)
    (before : ∀ instruction ∈ body.widen.instructions,
      ∀ guard ∈ layout.guardsBefore instruction.id,
        guard.exit = .throw ∧ guard.failure ≠ .argumentNull parameter) :
    guarded.alreadyGuards graph parameter =
      keepsGuard graph parameter broken
        (operationsOf body.instructions) := by
  have overlookedFront :
      Overlooks graph parameter
        (operationsOf
          (layout.frontCode debugBuild body.widen.instructions)) := by
    cases body.widen.instructions with
    | nil =>
        exact overlooks_nil
    | cons first rest =>
        exact GuardRow.overlooks_code includes names
          (fun guard member => (front guard member).1)
          (fun guard member => (front guard member).2) debugBuild _
  have overlookedRows : ∀ instruction ∈ body.widen.instructions,
      Overlooks graph parameter
        (operationsOf ((layout.before instruction.id).code debugBuild
          instruction.id)) := fun instruction here =>
    GuardRow.overlooks_code includes names
      (fun guard member => (before instruction here guard member).1)
      (fun guard member => (before instruction here guard member).2)
      debugBuild _
  calc
    guarded.alreadyGuards graph parameter =
        alreadyGuards graph parameter
          (operationsOf
            (layout.code debugBuild body.widen.instructions)) := by
      rw [MethodBody.alreadyGuards, described.instructions, operationsOf]
    _ = alreadyGuards graph parameter
          (operationsOf
            (layout.blocks debugBuild body.widen.instructions)) := by
      rw [code, operationsOf_append, overlookedFront]
    _ = keepsGuard graph parameter broken
          (operationsOf body.widen.instructions) :=
      alreadyGuards_blocks breaks overlookedRows
    _ = keepsGuard graph parameter broken
          (operationsOf body.instructions) := by
      rw [operationsOf_widen, keepsGuard_withForm sameForm]

end GuardLayout

/-! ## Guards are recognised -/

section Recognised

variable {graph : Graph} {parameter : String}

/-- What is recognised stays recognised behind other operations. -/
theorem alreadyGuards_append_of_right
    (front : List Operation) {back : List Operation}
    (found : alreadyGuards graph parameter back = true) :
    alreadyGuards graph parameter (front ++ back) = true := by
  induction front with
  | nil =>
      exact found
  | cons operation rest inductionHypothesis =>
      rw [List.cons_append, alreadyGuards, inductionHypothesis,
        Bool.or_true]

/-- A guard that names a parameter is taken for a guard of it. -/
theorem Guard.alreadyGuards_operations
    {guard : Guard} (throws : guard.exit = .throw)
    (named : guard.failure = .argumentNull parameter)
    (debugBuild : Bool) (next : InstrId) (rest : List Operation) :
    alreadyGuards graph parameter
        (guard.operations debugBuild next ++ rest) = true := by
  have ends :
      guard.operations debugBuild next ++ rest =
        (guard.loading debugBuild ++
            .branch .ifTrue .long next :: guard.subject.discard) ++
          (.ldStr parameter :: .ldStr guard.message ::
            .newObj SystemLibrary.argumentNullInitMessage :: .throw ::
              rest) := by
    rw [operations_eq, failing, throws, named]
    simp [GuardFailure.construct, GuardExit.leave]
  rw [ends]
  refine alreadyGuards_append_of_right _ ?_
  simp [alreadyGuards, beginsWithLongGuard, loadsString, constructsWith,
    throwsException]

theorem GuardRow.alreadyGuards_code
    {row : GuardRow} {guard : Guard} (member : guard ∈ row.map (·.guard))
    (throws : guard.exit = .throw)
    (named : guard.failure = .argumentNull parameter)
    (debugBuild : Bool) (next : InstrId) (rest : List Operation) :
    alreadyGuards graph parameter
        (operationsOf (row.code debugBuild next) ++ rest) = true := by
  induction row with
  | nil =>
      cases member
  | cons placed others inductionHypothesis =>
      rw [code_cons, operationsOf_append, List.append_assoc]
      rcases List.mem_cons.mp member with rfl | later
      · rw [operationsOf, PlacedGuard.code,
          MethodBody.map_operation_numberFrom]
        exact Guard.alreadyGuards_operations throws named debugBuild _ _
      · exact alreadyGuards_append_of_right _ (inductionHypothesis later)

/--
A guarded body is taken to guard the parameters that its front row names, and
those that the original body guards in a way that stays whole.
-/
theorem GuardLayout.Describes.alreadyGuards_iff
    {layout : GuardLayout} {debugBuild : Bool}
    {broken : Operation → Bool} {body guarded : MethodBody}
    (described : layout.Describes debugBuild body.widen guarded)
    (includes : graph.IncludesSystem) (names : graph.NamesSystemTypes)
    (nonempty : body.instructions ≠ [])
    (sameForm : ∀ operation,
      broken (operation.withForm .long) = broken operation)
    (breaks : layout.BreaksAt broken body.widen.instructions)
    (front : ∀ guard ∈ layout.front.map (·.guard), guard.exit = .throw)
    (before : ∀ instruction ∈ body.widen.instructions,
      ∀ guard ∈ layout.guardsBefore instruction.id,
        guard.exit = .throw ∧ guard.failure ≠ .argumentNull parameter) :
    guarded.alreadyGuards graph parameter = true ↔
      (∃ guard ∈ layout.front.map (·.guard),
          guard.failure = .argumentNull parameter) ∨
        keepsGuard graph parameter broken
          (operationsOf body.instructions) = true := by
  by_cases named :
      ∃ guard ∈ layout.front.map (·.guard),
        guard.failure = .argumentNull parameter
  · obtain ⟨guard, member, names⟩ := named
    have wide : body.widen.instructions ≠ [] := by
      simpa using nonempty
    obtain ⟨first, rest, whole⟩ := List.exists_cons_of_ne_nil wide
    refine iff_of_true ?_ (.inl ⟨guard, member, names⟩)
    rw [MethodBody.alreadyGuards, described.instructions, whole, code]
    change alreadyGuards graph parameter (operationsOf (_ ++ _)) = true
    rw [operationsOf_append]
    exact GuardRow.alreadyGuards_code member (front guard member) names
      debugBuild _ _
  · rw [described.alreadyGuards_eq includes names sameForm breaks
      (fun guard member =>
        ⟨front guard member, fun same => named ⟨guard, member, same⟩⟩)
      before]
    exact ⟨.inr, fun either => either.resolve_left named⟩

end Recognised

theorem MethodBody.alreadyGuards_widen
    (graph : Graph) (body : MethodBody) (parameter : String) :
    body.widen.alreadyGuards graph parameter =
      body.alreadyGuards graph parameter := by
  change NullWeave.alreadyGuards graph parameter (operationsOf _) =
    NullWeave.alreadyGuards graph parameter (operationsOf _)
  rw [← keepsGuard_never, ← keepsGuard_never, operationsOf_widen,
    keepsGuard_withForm fun _ => rfl]

end NullWeave
