import NullWeave.Proofs.Weave.EntryOrder

/-!
# Guards and managed pointers

Whether the value of a managed pointer can be null is judged by what it points
to, through as many pointers as there are.  What a guard loads is not as deep: it
follows one pointer from an argument, and none from the top of the stack.  So a
guard tests the value at the end of the pointers exactly if no more of them lead
there.  Otherwise it tests a pointer, which is never null, and lets every value
pass.
-/

namespace NullWeave

/-! ## Types behind pointers -/

namespace Signature

/-- The number of managed pointers in front of a type. -/
def pointers : Signature → Nat
  | .byRef element => element.pointers + 1
  | _ => 0

/-- The type behind all managed pointers. -/
def bottom : Signature → Signature
  | .byRef element => element.bottom
  | other => other

theorem bottom_of_pointers_eq_zero {type : Signature} (direct : type.pointers = 0) :
    type.bottom = type := by
  cases type with
  | byRef element => cases direct
  | _ => rfl

theorem pointee_of_pointers_eq_zero {type : Signature} (direct : type.pointers = 0) :
    type.pointee = type := by
  cases type with
  | byRef element => cases direct
  | _ => rfl

@[simp]
theorem pointers_bottom (type : Signature) : type.bottom.pointers = 0 := by
  induction type using Signature.bottom.induct with
  | case1 element inductionHypothesis => exact inductionHypothesis
  | case2 other direct =>
      rw [Signature.bottom.eq_2 other direct]
      cases other with
      | byRef element => exact absurd rfl (direct element)
      | _ => rfl

theorem pointers_pointee (type : Signature) : type.pointee.pointers = type.pointers - 1 := by
  cases type <;> rfl

theorem bottom_pointee (type : Signature) : type.pointee.bottom = type.bottom := by
  cases type <;> rfl

end Signature

/-! ## What pointers lead to -/

section Values

variable {Reference World Effect : Type}

/-- Can a value be of a type?  Numbers are values of value types and of generic types only. -/
def Graph.MayHold (graph : Graph) (type : Signature) : Value Reference → Prop
  | .int _ => type.isParam = true ∨ graph.isValueType type = true
  | _ => True

/--
Does a value of a type lead to a value that is no managed pointer?

A managed pointer is a reference, and reading through it succeeds and changes nothing.
-/
inductive Machine.Leads (machine : Machine Reference World Effect) (world : World) :
    Signature → Value Reference → Value Reference → Prop where
  | here {type : Signature} {value : Value Reference} (direct : type.pointers = 0)
      (fits : machine.graph.MayHold type value) : Leads machine world type value value
  | through {element : Signature} {target : Reference} {next bottom : Value Reference}
      (reads : machine.environment.ask (.load (.reference target)) world =
        some ⟨.ok next, world, []⟩)
      (onwards : Leads machine world element next bottom) :
      Leads machine world (.byRef element) (.reference target) bottom

variable {machine : Machine Reference World Effect} {world : World}
variable {type : Signature} {value bottom : Value Reference}

namespace Machine.Leads

theorem eq_of_pointers_eq_zero (leads : machine.Leads world type value bottom)
    (direct : type.pointers = 0) : value = bottom := by
  cases leads with
  | here _ _ => rfl
  | through _ _ => cases direct

theorem exists_reference (leads : machine.Leads world type value bottom)
    (pointer : type.pointers ≠ 0) : ∃ target, value = .reference target := by
  cases leads with
  | here direct _ => exact absurd direct pointer
  | through _ _ => exact ⟨_, rfl⟩

theorem mayHold (leads : machine.Leads world type value bottom) :
    machine.graph.MayHold type.bottom bottom := by
  induction leads with
  | here direct fits => rwa [Signature.bottom_of_pointers_eq_zero direct]
  | through _ _ inductionHypothesis => exact inductionHypothesis

end Machine.Leads

/-- A managed pointer is judged by what is behind it, and by what is behind that. -/
theorem Graph.isNullable_bottom (graph : Graph) (type : Signature) :
    graph.isNullable type.bottom = graph.isNullable type := by
  induction type using Signature.bottom.induct with
  | case1 element inductionHypothesis => exact inductionHypothesis
  | case2 other direct => rw [Signature.bottom.eq_2 other direct]

/-- Of a type that can be null, a guard finds null where there is nothing: numbers are boxed. -/
theorem Environment.isNull_seen_iff {environment : Environment Reference World Effect}
    {graph : Graph} (nullable : graph.isNullable type = true) (direct : type.pointers = 0)
    (fits : graph.MayHold type value) :
    (environment.seen type value).isNull = true ↔ value = .null := by
  have copied : graph.isValueType type = false := by
    cases type with
    | byRef element => cases direct
    | _ => simpa [Graph.isNullable] using nullable
  cases generic : type.isParam with
  | true => cases value <;> simp [seen, generic, box, Value.isNull]
  | false =>
      cases value with
      | int number => simp [Graph.MayHold, generic, copied] at fits
      | _ => simp [seen, generic, Value.isNull]

end Values

/-! ## Loading -/

namespace GuardedValue

/-- The type of the value that is guarded. -/
def type : GuardedValue → Signature
  | .argument _ type => type
  | .stackTop type => type

/-- The type of what is loaded for the test. -/
def loadedType : GuardedValue → Signature
  | .argument _ type => type.pointee
  | .stackTop type => type

/-- The number of managed pointers that are followed, if there are as many. -/
def followed : GuardedValue → Nat
  | .argument _ _ => 1
  | .stackTop _ => 0

/-- Are all managed pointers followed, so that the value behind them is tested? -/
def TestsBottom (subject : GuardedValue) : Prop := subject.type.pointers ≤ subject.followed

theorem pointers_loadedType (subject : GuardedValue) :
    subject.loadedType.pointers = subject.type.pointers - subject.followed := by
  cases subject with
  | argument slot type => exact type.pointers_pointee
  | stackTop type => rfl

theorem testsBottom_iff {subject : GuardedValue} :
    subject.TestsBottom ↔ subject.loadedType.pointers = 0 := by
  rw [pointers_loadedType, Nat.sub_eq_zero_iff_le, TestsBottom]

theorem bottom_loadedType (subject : GuardedValue) :
    subject.loadedType.bottom = subject.type.bottom := by
  cases subject with
  | argument slot type => exact type.bottom_pointee
  | stackTop type => rfl

variable {Reference World Effect : Type}

/-- The value that is guarded, as it is. -/
def held? (environment : Environment Reference World Effect) (stack : List (Value Reference))
    (world : World) : GuardedValue → Option (Value Reference)
  | .argument slot _ => environment.read (.argument slot) world
  | .stackTop _ => stack.head?

variable {machine : Machine Reference World Effect} {world : World}
variable {stack : List (Value Reference)} {subject : GuardedValue} {value bottom : Value Reference}

/-- What is loaded leads to where the value leads, with what is followed left out. -/
theorem exists_quietly_load
    (held : subject.held? machine.environment stack world = some value)
    (leads : machine.Leads world subject.type value bottom) :
    ∃ left, machine.Leads world subject.loadedType left bottom ∧
      machine.Quietly world subject.load stack
        (machine.environment.seen subject.loadedType left :: stack) := by
  cases subject with
  | argument slot type =>
      rw [GuardedValue.type] at leads
      cases leads with
      | here direct fits =>
          have notPointer (element : Signature) : type ≠ .byRef element := by
            rintro rfl
            cases direct
          rw [loadedType, Signature.pointee_of_pointers_eq_zero direct]
          refine ⟨value, .here direct fits, quietly_load ?_ ?_⟩
          · rintro _ element same
            injection same with _ pointer
            exact absurd pointer (notPointer element)
          · rw [tested?_of_not_byRef _ _ notPointer]
            exact congrArg (Option.map _) held
      | @through element target next _ reads onwards =>
          refine ⟨next, onwards, quietly_load ?_ ?_⟩
          · rintro _ _ same pointer read
            cases same
            obtain rfl := Option.some.inj (held.symm.trans read)
            exact ⟨next, reads⟩
          · have read : machine.environment.read (.argument slot) world =
                some (.reference target) := held
            simp [tested?, read, Environment.pointee?, reads, Except.toOption, loadedType,
              Signature.pointee]
  | stackTop type =>
      refine ⟨value, leads, quietly_load (by rintro _ _ ⟨⟩) ?_⟩
      exact congrArg (Option.map _) held

/-- What is loaded is the value behind the pointers, boxed if it is generic, or a pointer. -/
theorem exists_quietly_load_bottom
    (held : subject.held? machine.environment stack world = some value)
    (leads : machine.Leads world subject.type value bottom) :
    ∃ loaded, machine.Quietly world subject.load stack (loaded :: stack) ∧
      (subject.TestsBottom → loaded = machine.environment.seen subject.type.bottom bottom) ∧
      (¬ subject.TestsBottom → (∃ target, loaded = .reference target) ∧
        machine.Leads world subject.loadedType loaded bottom) := by
  obtain ⟨left, leadsOn, quietly⟩ := exists_quietly_load held leads
  refine ⟨_, quietly, fun all => ?_, fun some => ?_⟩
  · have direct := testsBottom_iff.mp all
    rw [leadsOn.eq_of_pointers_eq_zero direct, ← bottom_loadedType,
      Signature.bottom_of_pointers_eq_zero direct]
  · have pointer := mt testsBottom_iff.mpr some
    have notGeneric : subject.loadedType.isParam = false := by
      cases loaded : subject.loadedType with
      | param name isValueType => exact absurd (by rw [loaded]; rfl) pointer
      | _ => rfl
    rw [Environment.seen, if_neg (Bool.eq_false_iff.mp notGeneric)]
    exact ⟨leadsOn.exists_reference pointer, leadsOn⟩

end GuardedValue

/-! ## Testing -/

namespace PlacedGuard

variable {Reference World Effect : Type} {machine : Machine Reference World Effect}
variable {body : MethodBody} {front back : List Instruction} {placed : PlacedGuard}
variable {next : InstrId} {position : Nat} {debugBuild : Bool}
variable {stack : List (Value Reference)} {world : World} {effects : List Effect}
variable {value bottom : Value Reference}

/--
A guard of a value whose type can be null goes on to its failing part exactly if it follows all
pointers in front of the value and the value is null.  What it loads on the way is the value behind
the pointers, boxed if it is generic, or a pointer that still leads there.  If it asserts what it
checks as well, assertions are to be ignored.
-/
theorem steps_of_leads
    (split : body.instructions = front ++ (placed.code debugBuild next ++ back))
    (found : body.indexOf? next = some position)
    (includes : machine.graph.IncludesSystem)
    (ignores : debugBuild = true → machine.environment.IgnoresAsserts)
    (nullable : machine.graph.isNullable placed.guard.subject.type = true)
    (held : placed.guard.subject.held? machine.environment stack world = some value)
    (leads : machine.Leads world placed.guard.subject.type value bottom) :
    ∃ loaded,
      machine.Quietly world placed.guard.subject.load stack (loaded :: stack) ∧
        (placed.guard.subject.TestsBottom →
          loaded = machine.environment.seen placed.guard.subject.type.bottom bottom) ∧
        (¬ placed.guard.subject.TestsBottom →
          (∃ target, loaded = .reference target) ∧
            machine.Leads world placed.guard.subject.loadedType loaded bottom) ∧
        (loaded.isNull = true ↔ placed.guard.subject.TestsBottom ∧ bottom = .null) ∧
        stepsFrom (machine.step body) ((placed.guard.loading debugBuild).length + 1)
            (.running ⟨front.length, stack, world, effects⟩) =
          .running
            ⟨if loaded.isNull then front.length + (placed.guard.loading debugBuild).length + 1
              else position,
              stack, world, effects⟩ := by
  obtain ⟨loaded, quietly, tests, points⟩ :=
    GuardedValue.exists_quietly_load_bottom held leads
  refine ⟨loaded, quietly, tests, points, ?_,
    steps_test split found (Guard.quietly_loading includes ignores quietly)⟩
  by_cases all : placed.guard.subject.TestsBottom
  · rw [tests all, and_iff_right all]
    exact Environment.isNull_seen_iff ((machine.graph.isNullable_bottom _).trans nullable)
      (Signature.pointers_bottom _) leads.mayHold
  · obtain ⟨⟨target, rfl⟩, -⟩ := points all
    exact iff_of_false Bool.false_ne_true fun null => all null.1

end PlacedGuard

/-- Whatever is guarded at the entry of a method or where it returns can be null. -/
theorem MethodContext.isNullable_of_mem {context : MethodContext} {settings : Settings}
    {body : MethodBody} {guard : Guard}
    (member : guard ∈ context.entryGuards settings body ++ context.exitGuards) :
    context.graph.isNullable guard.subject.type = true := by
  rcases List.mem_append.mp member with entry | exit
  · obtain ⟨value, others, orders, guards⟩ := context.exists_entryGuards settings body
    rw [guards] at entry
    obtain ⟨parameter, among, rfl⟩ := List.mem_map.mp entry
    have checked := orders.checked parameter among
    simp only [NullPolicy.checksArgument, Bool.and_eq_true] at checked
    exact checked.2
  · rcases List.mem_append.mp (context.exitGuards_sublist.subset exit) with out | result
    · obtain ⟨parameter, among, rfl⟩ := List.mem_map.mp out
      have checked := (List.mem_filter.mp among).2
      simp only [NullPolicy.checksOut, Bool.and_eq_true] at checked
      exact checked.1.2
    · obtain ⟨checked, rfl⟩ : context.policy.checksResult context.graph context.decl
          context.decl.returnType = true ∧ guard = resultGuard context.decl.returnType
            context.resultMessage .throw := by
        rw [returnGuards] at result
        split at result
        · exact ⟨‹_›, List.mem_singleton.mp result⟩
        · cases result
      simp only [NullPolicy.checksResult, Bool.and_eq_true] at checked
      exact checked.1.2

/-! ## An `out` parameter and a pointer that is returned -/

namespace Sample

/-- The guard of the `out` parameter of the sample, in front of a return. -/
def outGuard : PlacedGuard where
  guard := context.outGuard
    ({ name := "found", type := .byRef (.named SystemLibrary.string), isOut := true }, 1)
  start := ⟨0⟩

def returning : MethodBody where
  instructions := outGuard.code false ⟨6⟩ ++ [⟨⟨6⟩, .ret⟩]

end Sample

open Sample in
/-- What the `out` parameter points to is null, so its guard fails. -/
theorem PlacedGuard.steps_of_leads_sample :
    ∃ loaded,
      (context.machineIn environment).Quietly none outGuard.guard.subject.load [] [loaded] ∧
        loaded.isNull = true ∧
        stepsFrom ((context.machineIn environment).step returning) 3
            (.running ⟨0, [], none, []⟩) =
          .running ⟨3, [], none, []⟩ := by
  have member : outGuard.guard ∈ context.entryGuards {} body ++ context.exitGuards :=
    List.mem_append_right _ (List.mem_cons_self ..)
  have leads : (context.machineIn environment).Leads none outGuard.guard.subject.type
      (.reference "argument") .null :=
    .through rfl (.here rfl trivial)
  have split : returning.instructions = [] ++ (outGuard.code false ⟨6⟩ ++ [⟨⟨6⟩, .ret⟩]) := rfl
  have found : returning.indexOf? ⟨6⟩ = some 6 := by decide
  obtain ⟨loaded, quietly, -, -, null, steps⟩ :=
    steps_of_leads split found ((Graph.includesSystem_system.addType _).addMethod _)
      (fun asserts => absurd asserts Bool.false_ne_true)
      (MethodContext.isNullable_of_mem member) rfl leads
  have isNull := null.mpr ⟨Nat.le_refl 1, rfl⟩
  rw [isNull] at steps
  exact ⟨loaded, quietly, isNull, steps⟩

namespace PassThrough

/-- A method that returns the managed pointer it is given. -/
def graph : Graph where
  types := Graph.system.types.push { name := "Sample", access := { isPublic := true } }
  methods :=
    Graph.system.methods.push
      { owner := ⟨17⟩
        name := "Pass"
        access := { isPublic := true, isStatic := true }
        returnType := .byRef (.named SystemLibrary.string)
        parameters := [{ name := "text", type := .byRef (.named SystemLibrary.string) }] }

def context : MethodContext where
  graph
  method := ⟨13⟩
  policy := { flags := .allPublic, explicitMode := false }

end PassThrough

open PassThrough in
/-- The guard of the result lets a pointer to null pass. -/
theorem PlacedGuard.pointer_passes :
    context.graph.isNullable context.decl.returnType = true ∧
      context.exitGuards.map (·.subject.load) = [[.dup]] ∧
        (context.machineIn Sample.environment).Leads none context.decl.returnType
          (.reference "argument") .null ∧
        verdict Sample.environment [.reference "argument"] none context.exitGuards = .passes :=
  ⟨by decide, rfl, .through rfl (.here rfl trivial), rfl⟩

end NullWeave
