import NullWeave.Proofs.Code.DepthAnnotation
import NullWeave.Proofs.Weave.WovenBody

/-!
# The depths of a guard

A guard puts one value on the stack, tests it, and goes on with the stack that
it found.  Where the value is null it constructs an exception from what it
loads itself.  So it needs room for one value, or for two where it asserts or
its exception takes two arguments, and it finds everything that it takes.
-/

namespace NullWeave

/-! ## The members of the system library -/

namespace Graph

/-- A graph that has the methods of the system library, under the identities they get there. -/
structure IncludesSystem (graph : Graph) : Prop where
  size : system.methods.size ≤ graph.methods.size
  methods : ∀ method : MethodId, method.index < system.methods.size →
    graph.method method = system.method method

/-! Every graph starts with the system library, and nothing that is added changes it. -/

theorem includesSystem_system : system.IncludesSystem where
  size := Nat.le_refl _
  methods _ _ := rfl

theorem includesSystem_of_append
    {graph : Graph} {others : Array MethodDecl}
    (methods : graph.methods = system.methods ++ others) :
    graph.IncludesSystem where
  size := by
    rw [methods, Array.size_append]
    exact Nat.le_add_right _ _
  methods method known := by
    rw [Graph.method, Graph.method, methods]
    simp [Array.getElem?_append_left known]

namespace IncludesSystem

variable {graph : Graph}

theorem addType (includes : graph.IncludesSystem) (decl : TypeDecl) :
    (graph.addType decl).1.IncludesSystem :=
  ⟨includes.size, includes.methods⟩

theorem addField (includes : graph.IncludesSystem) (decl : FieldDecl) :
    (graph.addField decl).1.IncludesSystem :=
  ⟨includes.size, includes.methods⟩

theorem setBase
    (includes : graph.IncludesSystem)
    (type : TypeId) (base : Option TypeId) :
    (graph.setBase type base).IncludesSystem :=
  ⟨includes.size, includes.methods⟩

theorem addInterface
    (includes : graph.IncludesSystem) (type interface : TypeId) :
    (graph.addInterface type interface).IncludesSystem :=
  ⟨includes.size, includes.methods⟩

theorem addMethod (includes : graph.IncludesSystem) (decl : MethodDecl) :
    (graph.addMethod decl).1.IncludesSystem where
  size := by
    have size := includes.size
    simp only [Graph.addMethod, Array.size_push]
    omega
  methods method known := by
    rw [graph.method_addMethod_of_lt decl
      (Nat.lt_of_lt_of_le known includes.size)]
    exact includes.methods method known

end IncludesSystem

end Graph

/-- Does a call find at a depth what it takes, and leave as many values as are returned? -/
def Graph.Settles
    (graph : Graph) (returnsValue : Bool) (method : MethodId)
    (depth : Nat) : Prop :=
  ((Operation.call method).stackEffect graph).pops ≤ depth ∧
    (Operation.call method).depthAfter graph depth = returnsValue.toNat

/-! ## Operations in a row -/

/-- The depth behind some operations. -/
def depthThrough
    (graph : Graph) (depth : Nat) (operations : List Operation) : Nat :=
  operations.foldl (fun depth operation =>
    operation.depthAfter graph depth) depth

@[simp]
theorem depthThrough_nil (graph : Graph) (depth : Nat) :
    depthThrough graph depth [] = depth := rfl

@[simp]
theorem depthThrough_cons
    (graph : Graph) (depth : Nat) (operation : Operation)
    (rest : List Operation) :
    depthThrough graph depth (operation :: rest) =
      depthThrough graph (operation.depthAfter graph depth) rest := rfl

theorem depthThrough_append
    (graph : Graph) (depth : Nat) (front back : List Operation) :
    depthThrough graph depth (front ++ back) =
      depthThrough graph (depthThrough graph depth front) back := by
  simp [depthThrough]

/--
Do operations in a row find what they take, never go beyond a bound, and return
with as many values as they should?
-/
def Runs (graph : Graph) (bound : Nat) (returnsValue : Bool) :
    Nat → List Operation → Prop
  | depth, [] => depth ≤ bound
  | depth, operation :: rest =>
      depth ≤ bound ∧
        (operation.isRet = true → depth = returnsValue.toNat) ∧
        (operation.stackEffect graph).pops ≤ depth ∧
        Runs graph bound returnsValue
          (operation.depthAfter graph depth) rest

theorem runs_append
    {graph : Graph} {bound depth : Nat} {returnsValue : Bool}
    {front back : List Operation} :
    Runs graph bound returnsValue depth (front ++ back) ↔
      Runs graph bound returnsValue depth front ∧
        Runs graph bound returnsValue (depthThrough graph depth front)
          back := by
  induction front generalizing depth with
  | nil =>
      cases back with
      | nil => simp [Runs]
      | cons operation rest =>
          simp only [List.nil_append, Runs, depthThrough_nil]
          exact ⟨fun runs => ⟨runs.1, runs⟩, fun runs => runs.2⟩
  | cons operation rest inductionHypothesis =>
      simp [Runs, inductionHypothesis, and_assoc]

theorem Runs.through_le
    {graph : Graph} {bound depth : Nat} {returnsValue : Bool}
    {operations : List Operation}
    (runs : Runs graph bound returnsValue depth operations) :
    depthThrough graph depth operations ≤ bound := by
  induction operations generalizing depth with
  | nil =>
      exact runs
  | cons operation rest inductionHypothesis =>
      exact inductionHypothesis runs.2.2.2

/-- An operation that changes the depth does not return. -/
theorem isRet_of_depthAfter
    {graph : Graph} {operation : Operation} {depth : Nat}
    (changes : operation.depthAfter graph depth ≠ depth) :
    operation.isRet = false := by
  cases operation <;>
    simp_all [Operation.isRet, Operation.depthAfter,
      Operation.stackEffect]

theorem isRet_of_unary
    {graph : Graph} {operation : Operation}
    (unary : operation.stackEffect graph = ⟨1, 1⟩) :
    operation.isRet = false := by
  cases operation <;>
    simp_all [Operation.isRet, Operation.stackEffect]

/-- Operations that put back as much as they take, one value each. -/
theorem runs_unary
    {graph : Graph} {bound depth : Nat} {returnsValue : Bool}
    {operations : List Operation}
    (unary : ∀ operation ∈ operations,
      operation.stackEffect graph = ⟨1, 1⟩)
    (enough : 1 ≤ depth) (room : depth ≤ bound) :
    Runs graph bound returnsValue depth operations ∧
      depthThrough graph depth operations = depth := by
  induction operations with
  | nil =>
      exact ⟨room, rfl⟩
  | cons operation rest inductionHypothesis =>
      have effect := unary operation (by simp)
      have same : operation.depthAfter graph depth = depth := by
        simp only [Operation.depthAfter, effect]
        omega
      obtain ⟨runs, through⟩ :=
        inductionHypothesis fun other member =>
          unary other (List.mem_cons_of_mem _ member)
      have goesOn := isRet_of_unary effect
      refine ⟨⟨room, by simp [goesOn], by rw [effect]; exact enough,
        by rwa [same]⟩, ?_⟩
      rw [depthThrough_cons, same, through]

/-! ## Guards -/

namespace Guard

/-- Does a guard find its value, if the value lies on the stack? -/
def FindsValue (guard : Guard) (depth : Nat) : Prop :=
  ∀ type, guard.subject = .stackTop type → 1 ≤ depth

section Parts

variable
    {graph : Graph} {bound depth : Nat} {returnsValue : Bool}
    {guard : Guard}

/-- A value is loaded by one operation, and followed or boxed by others. -/
theorem load_eq
    (graph : Graph) (findsValue : guard.FindsValue depth) :
    ∃ first rest,
      guard.subject.load = first :: rest ∧
        (first.stackEffect graph).pops ≤ depth ∧
        first.depthAfter graph depth = depth + 1 ∧
        ∀ operation ∈ rest,
          operation.stackEffect graph = ⟨1, 1⟩ := by
  unfold GuardedValue.load
  split
  · split <;>
      exact ⟨_, _, rfl, by simp [Operation.stackEffect],
        by simp [Operation.depthAfter, Operation.stackEffect],
        by simp [Operation.stackEffect]⟩
  · split <;>
      exact ⟨_, _, rfl, by simp [Operation.stackEffect],
        by simp [Operation.depthAfter, Operation.stackEffect],
        by simp [Operation.stackEffect]⟩
  · rename_i type subject
    have enough := findsValue type subject
    have after :
        Operation.dup.depthAfter graph depth = depth + 1 := by
      simp only [Operation.depthAfter, Operation.stackEffect]
      omega
    split <;>
      exact ⟨_, _, rfl, enough, after, by simp [Operation.stackEffect]⟩

theorem runs_load
    (findsValue : guard.FindsValue depth) (room : depth + 1 ≤ bound) :
    Runs graph bound returnsValue depth guard.subject.load ∧
      depthThrough graph depth guard.subject.load = depth + 1 := by
  obtain ⟨first, rest, load, pops, after, unary⟩ :=
    guard.load_eq graph findsValue
  obtain ⟨runs, through⟩ := runs_unary unary (by omega) room
  have changes : first.depthAfter graph depth ≠ depth := by
    omega
  have goesOn := isRet_of_depthAfter changes
  rw [load]
  exact ⟨⟨by omega, by simp [goesOn], pops, by rwa [after]⟩, by
    rw [depthThrough_cons, after, through]⟩

theorem effect_debugAssert (includes : graph.IncludesSystem) :
    (Operation.call SystemLibrary.debugAssert).stackEffect graph =
      ⟨2, 0⟩ := by
  rw [Operation.stackEffect, includes.methods _ (by decide)]
  rfl

theorem effect_argumentNull (includes : graph.IncludesSystem) :
    (Operation.newObj SystemLibrary.argumentNullInitMessage).stackEffect
      graph = ⟨2, 1⟩ := by
  rw [Operation.stackEffect, includes.methods _ (by decide)]
  rfl

theorem effect_invalidOperation (includes : graph.IncludesSystem) :
    (Operation.newObj SystemLibrary.invalidOperationInit).stackEffect
      graph = ⟨1, 1⟩ := by
  rw [Operation.stackEffect, includes.methods _ (by decide)]
  rfl

theorem runs_assertion
    (includes : graph.IncludesSystem)
    (findsValue : guard.FindsValue depth) (room : depth + 2 ≤ bound) :
    Runs graph bound returnsValue depth guard.assertion ∧
      depthThrough graph depth guard.assertion = depth := by
  obtain ⟨runs, through⟩ :
      Runs graph bound returnsValue depth guard.subject.load ∧
        depthThrough graph depth guard.subject.load = depth + 1 :=
    runs_load findsValue (by omega)
  have assert := effect_debugAssert includes
  rw [assertion, runs_append, depthThrough_append, through]
  refine ⟨⟨runs, ?_⟩, ?_⟩
  · simp [Runs, Operation.depthAfter, Operation.isRet, assert]
    simp [Operation.stackEffect]
    omega
  · simp [Operation.depthAfter, assert]
    simp [Operation.stackEffect]

/-- Before its test, a guard has put its value on the stack that it found. -/
theorem runs_loading
    (includes : graph.IncludesSystem)
    (findsValue : guard.FindsValue depth) {debugBuild : Bool}
    (room : depth + 1 ≤ bound)
    (roomToAssert : debugBuild = true → depth + 2 ≤ bound) :
    Runs graph bound returnsValue depth (guard.loading debugBuild) ∧
      depthThrough graph depth (guard.loading debugBuild) = depth + 1 := by
  obtain ⟨loads, through⟩ :
      Runs graph bound returnsValue depth guard.subject.load ∧
        depthThrough graph depth guard.subject.load = depth + 1 :=
    runs_load findsValue room
  cases debugBuild with
  | false =>
      exact ⟨loads, through⟩
  | true =>
      obtain ⟨asserts, same⟩ :=
        runs_assertion includes findsValue (roomToAssert rfl)
      rw [loading, if_pos rfl, runs_append, depthThrough_append, same]
      exact ⟨⟨asserts, loads⟩, through⟩

/-- Does a guard come to its test with one value on the stack that it found? -/
def LetsThrough
    (graph : Graph) (debugBuild : Bool) (guard : Guard) (depth : Nat) :
    Prop :=
  depthThrough graph depth (guard.loading debugBuild) = depth + 1

theorem letsThrough
    (includes : graph.IncludesSystem)
    (findsValue : guard.FindsValue depth) (debugBuild : Bool) :
    guard.LetsThrough graph debugBuild depth := by
  have runs :
      Runs graph (depth + 2) false depth (guard.loading debugBuild) ∧
        depthThrough graph depth (guard.loading debugBuild) = depth + 1 :=
    runs_loading includes findsValue (Nat.le_succ _)
      fun _ => Nat.le_refl _
  exact runs.2

/-- The depth once a guard has taken its value away. -/
def discarded (guard : Guard) (depth : Nat) : Nat :=
  match guard.subject with
  | .argument _ _ => depth
  | .stackTop _ => depth - 1

theorem runs_discard
    (findsValue : guard.FindsValue depth) (room : depth ≤ bound) :
    Runs graph bound returnsValue depth guard.subject.discard ∧
      depthThrough graph depth guard.subject.discard =
        guard.discarded depth := by
  cases subject : guard.subject with
  | argument slot type =>
      exact ⟨room, by simp [discarded, subject, GuardedValue.discard]⟩
  | stackTop type =>
      have enough := findsValue type subject
      refine ⟨⟨room, by rintro ⟨⟩, enough, ?_⟩, ?_⟩
      · simp only [Runs, Operation.depthAfter, Operation.stackEffect]
        omega
      · simp [discarded, subject, GuardedValue.discard,
          Operation.depthAfter, Operation.stackEffect]

theorem runs_construct
    (includes : graph.IncludesSystem) (room : depth + 1 ≤ bound)
    (roomToName : ∀ parameter, guard.failure = .argumentNull parameter →
      depth + 2 ≤ bound) :
    Runs graph bound returnsValue depth
        (guard.failure.construct guard.message) ∧
      depthThrough graph depth (guard.failure.construct guard.message) =
        depth + 1 := by
  cases failure : guard.failure with
  | argumentNull parameter =>
      have twice := roomToName parameter failure
      have effect := effect_argumentNull includes
      simp [GuardFailure.construct, Runs, Operation.depthAfter, effect,
        Operation.isRet]
      simp [Operation.stackEffect]
      omega
  | invalidOperation =>
      have effect := effect_invalidOperation includes
      simp [GuardFailure.construct, Runs, Operation.depthAfter, effect,
        Operation.isRet]
      simp [Operation.stackEffect]
      omega

/-- Up to its exit, a guard has put its exception in the place of its value. -/
theorem runs_constructing
    (includes : graph.IncludesSystem)
    (findsValue : guard.FindsValue depth) (room : depth + 1 ≤ bound)
    (roomToName : ∀ parameter, guard.failure = .argumentNull parameter →
      depth + 2 ≤ bound) :
    Runs graph bound returnsValue depth
        (guard.subject.discard ++
          guard.failure.construct guard.message) ∧
      depthThrough graph depth
          (guard.subject.discard ++
            guard.failure.construct guard.message) =
        guard.discarded depth + 1 := by
  have less : guard.discarded depth ≤ depth := by
    unfold discarded
    split <;> omega
  obtain ⟨discards, fewer⟩ :
      Runs graph bound returnsValue depth guard.subject.discard ∧
        depthThrough graph depth guard.subject.discard =
          guard.discarded depth :=
    runs_discard findsValue (by omega)
  obtain ⟨constructs, more⟩ :
      Runs graph bound returnsValue (guard.discarded depth)
          (guard.failure.construct guard.message) ∧
        depthThrough graph (guard.discarded depth)
            (guard.failure.construct guard.message) =
          guard.discarded depth + 1 :=
    runs_construct includes (by omega) fun parameter failure =>
      Nat.le_trans (by omega) (roomToName parameter failure)
  rw [runs_append, depthThrough_append, fewer]
  exact ⟨⟨discards, constructs⟩, more⟩

theorem through_constructing
    (includes : graph.IncludesSystem)
    (findsValue : guard.FindsValue depth) :
    depthThrough graph depth
        (guard.subject.discard ++
          guard.failure.construct guard.message) =
      guard.discarded depth + 1 := by
  have runs :
      Runs graph (depth + 2) false depth
          (guard.subject.discard ++
            guard.failure.construct guard.message) ∧
        depthThrough graph depth
            (guard.subject.discard ++
              guard.failure.construct guard.message) =
          guard.discarded depth + 1 :=
    runs_constructing includes findsValue (Nat.le_succ _)
      fun _ _ => Nat.le_refl _
  exact runs.2

/-- Does a guard that reports find what the report takes, and leave what is returned? -/
def Settles
    (graph : Graph) (returnsValue : Bool) (guard : Guard)
    (depth : Nat) : Prop :=
  ∀ setException, guard.exit = .report setException →
    graph.Settles returnsValue setException (guard.discarded depth + 1)

/-- Where the value is null, a guard takes it away and leaves. -/
theorem runs_failing
    (includes : graph.IncludesSystem)
    (settles : guard.Settles graph returnsValue depth)
    (findsValue : guard.FindsValue depth) (room : depth + 1 ≤ bound)
    (roomToName : ∀ parameter, guard.failure = .argumentNull parameter →
      depth + 2 ≤ bound) :
    Runs graph bound returnsValue depth guard.failing := by
  obtain ⟨constructs, through⟩ :
      Runs graph bound returnsValue depth
          (guard.subject.discard ++
            guard.failure.construct guard.message) ∧
        depthThrough graph depth
            (guard.subject.discard ++
              guard.failure.construct guard.message) =
          guard.discarded depth + 1 :=
    runs_constructing includes findsValue room roomToName
  have here := constructs.through_le
  rw [through] at here
  rw [failing, runs_append, through]
  refine ⟨constructs, ?_⟩
  cases exit : guard.exit with
  | throw =>
      refine ⟨here, by rintro ⟨⟩, Nat.le_add_left 1 _, ?_⟩
      simp only [Runs, Operation.depthAfter, Operation.stackEffect]
      omega
  | report setException =>
      obtain ⟨enough, left⟩ := settles setException exit
      have one : returnsValue.toNat ≤ 1 := Bool.toNat_le _
      have fits : returnsValue.toNat ≤ bound := by
        omega
      refine ⟨here, by rintro ⟨⟩, enough, ?_⟩
      rw [left]
      exact ⟨fits, fun _ => rfl, Nat.zero_le _, fits⟩

/-- What a guard needs where it stands, and that it hands on the stack that it found. -/
structure Balanced
    (graph : Graph) (bound : Nat) (returnsValue debugBuild : Bool)
    (guard : Guard) (depth : Nat) : Prop where
  loads :
    Runs graph bound returnsValue depth (guard.loading debugBuild)
  tests : guard.LetsThrough graph debugBuild depth
  fails : Runs graph bound returnsValue depth guard.failing

theorem balanced
    (includes : graph.IncludesSystem)
    (settles : guard.Settles graph returnsValue depth)
    (findsValue : guard.FindsValue depth) (room : depth + 1 ≤ bound)
    {debugBuild : Bool}
    (roomToAssert : debugBuild = true → depth + 2 ≤ bound)
    (roomToName : ∀ parameter, guard.failure = .argumentNull parameter →
      depth + 2 ≤ bound) :
    guard.Balanced graph bound returnsValue debugBuild depth where
  loads := (runs_loading includes findsValue room roomToAssert).1
  tests := letsThrough includes findsValue debugBuild
  fails := runs_failing includes settles findsValue room roomToName

theorem settles_of_throws (throws : guard.exit = .throw) :
    guard.Settles graph returnsValue depth := by
  intro setException report
  cases throws.symm.trans report

end Parts

end Guard

end NullWeave
