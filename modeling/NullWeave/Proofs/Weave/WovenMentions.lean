import NullWeave.Proofs.Text.Mention
import NullWeave.Proofs.Weave.OfferedPlaces
import NullWeave.Proofs.Weave.Rewriting

/-!
# What woven bodies mention

A guard mentions the type of the value it checks and members of the system
library, and the guard of a task the method that its state machine reports
faults with.  The graph knows all of these, so a woven body mentions nothing
that its graph does not know if the bodies before mention nothing else.
-/

namespace NullWeave

/-! ## Operations -/

namespace Operation

@[simp]
theorem mention?_mapTargets (change : InstrId → InstrId) (operation : Operation) :
    (operation.mapTargets change).mention? = operation.mention? := by
  cases operation <;> rfl

@[simp]
theorem mention?_withForm (form : BranchForm) (operation : Operation) :
    (operation.withForm form).mention? = operation.mention? := by
  cases operation <;> rfl

end Operation

namespace Graph

variable {graph : Graph}

@[simp]
theorem knowsOperation_mapTargets (change : InstrId → InstrId) (operation : Operation) :
    graph.KnowsOperation (operation.mapTargets change) ↔ graph.KnowsOperation operation := by
  rw [KnowsOperation, KnowsOperation, Operation.mention?_mapTargets]

@[simp]
theorem knowsOperation_withForm (form : BranchForm) (operation : Operation) :
    graph.KnowsOperation (operation.withForm form) ↔ graph.KnowsOperation operation := by
  rw [KnowsOperation, KnowsOperation, Operation.mention?_withForm]

/-! ## Guards -/

/-- Does a graph know what a guard mentions, the library apart? -/
structure KnowsGuard (graph : Graph) (guard : Guard) : Prop where
  type : match guard.subject with
    | .argument _ type | .stackTop type => graph.Forms type
  exit : ∀ setException, guard.exit = .report setException →
    setException.index < graph.methods.size

/-- The operations that load a value mention nothing but its type. -/
theorem knowsOperation_of_mem_load {value : GuardedValue}
    (forms : match value with
      | .argument _ type | .stackTop type => graph.Forms type)
    {operation : Operation} (member : operation ∈ value.load) :
    graph.KnowsOperation operation := by
  unfold GuardedValue.load at member
  split at member <;> try split at member
  all_goals
    simp only [List.mem_cons, List.not_mem_nil, or_false] at member
  · have element := Forms.pointee forms
    rcases member with rfl | rfl | rfl
    · exact knowsOperation_of_silent rfl
    · exact knowsOperation_of_mention rfl element
    · exact knowsOperation_of_mention rfl element
  · rcases member with rfl | rfl <;> exact knowsOperation_of_silent rfl
  · rcases member with rfl | rfl
    · exact knowsOperation_of_silent rfl
    · exact knowsOperation_of_mention rfl forms
  · rw [member]
    exact knowsOperation_of_silent rfl
  · rcases member with rfl | rfl
    · exact knowsOperation_of_silent rfl
    · exact knowsOperation_of_mention rfl forms
  · rw [member]
    exact knowsOperation_of_silent rfl

/-- The operations of a guard mention what the graph knows. -/
theorem KnowsGuard.operations {guard : Guard} (knows : graph.KnowsGuard guard)
    (library : system.methods.size ≤ graph.methods.size) (debugBuild : Bool)
    (continuation : InstrId) {operation : Operation}
    (member : operation ∈ guard.operations debugBuild continuation) :
    graph.KnowsOperation operation := by
  have ofLibrary {method : MethodId} (inside : method.index < system.methods.size) :
      graph.Knows (.method method) :=
    Nat.lt_of_lt_of_le inside library
  have loads : ∀ operation ∈ guard.subject.load, graph.KnowsOperation operation :=
    fun _ member => knowsOperation_of_mem_load knows.type member
  rw [Guard.operations] at member
  simp only [List.mem_append, List.mem_singleton] at member
  rcases member with ((((asserts | load) | rfl) | discards) | constructs) | leaves
  · split at asserts
    · simp only [Guard.assertion, List.mem_append, List.mem_cons, List.not_mem_nil,
        or_false] at asserts
      rcases asserts with load | rfl | rfl | rfl | rfl | rfl | rfl
      · exact loads operation load
      all_goals first
        | exact knowsOperation_of_silent rfl
        | exact knowsOperation_of_mention rfl (ofLibrary (by decide))
    · cases asserts
  · exact loads operation load
  · exact knowsOperation_of_silent rfl
  · unfold GuardedValue.discard at discards
    split at discards
    · cases discards
    · rw [List.mem_singleton.mp discards]
      exact knowsOperation_of_silent rfl
  · unfold GuardFailure.construct at constructs
    split at constructs <;>
      simp only [List.mem_cons, List.not_mem_nil, or_false] at constructs
    · rcases constructs with rfl | rfl | rfl
      · exact knowsOperation_of_silent rfl
      · exact knowsOperation_of_silent rfl
      · exact knowsOperation_of_mention rfl (ofLibrary (by decide))
    · rcases constructs with rfl | rfl
      · exact knowsOperation_of_silent rfl
      · exact knowsOperation_of_mention rfl (ofLibrary (by decide))
  · unfold GuardExit.leave at leaves
    split at leaves <;> simp only [List.mem_cons, List.not_mem_nil, or_false] at leaves
    · rw [leaves]
      exact knowsOperation_of_silent rfl
    · rename_i setException exit
      rcases leaves with rfl | rfl
      · exact knowsOperation_of_mention rfl (knows.exit _ exit)
      · exact knowsOperation_of_silent rfl

/-! ## Bodies -/

/-- Does a graph know what a body mentions? -/
structure KnowsBody (graph : Graph) (body : MethodBody) : Prop where
  locals : ∀ entry ∈ body.locals, graph.Forms entry.type
  handlers : ∀ handler ∈ body.handlers, ∀ type ∈ handler.kind.caught?, graph.HasType type
  instructions : ∀ instruction ∈ body.instructions,
    graph.KnowsOperation instruction.operation

theorem knowsBody_iff {body : MethodBody} :
    graph.KnowsBody body ↔ ∀ mention ∈ body.mentions, graph.Knows mention := by
  simp only [MethodBody.mentions, List.mem_append, List.mem_map, List.mem_filterMap,
    Option.map_eq_some_iff]
  constructor
  · rintro ⟨locals, handlers, instructions⟩ mention
      ((⟨entry, among, rfl⟩ | ⟨handler, among, type, caught, rfl⟩) |
        ⟨instruction, among, mentioned⟩)
    · exact locals entry among
    · exact handlers handler among type caught
    · exact instructions instruction among mention mentioned
  · intro knows
    exact
      { locals := fun entry among => knows (.signature entry.type) (.inl (.inl ⟨entry, among, rfl⟩))
        handlers := fun handler among type caught =>
          knows (.type type) (.inl (.inr ⟨handler, among, type, caught, rfl⟩))
        instructions := fun instruction among mention mentioned =>
          knows mention (.inr ⟨instruction, among, mentioned⟩) }

variable {body : MethodBody}

theorem KnowsBody.widen (knows : graph.KnowsBody body) : graph.KnowsBody body.widen where
  locals := knows.locals
  handlers := knows.handlers
  instructions instruction member := by
    obtain ⟨old, among, rfl⟩ := List.mem_map.mp member
    exact (knowsOperation_withForm _ _).mpr (knows.instructions old among)

/-- A body whose branches have other forms mentions the same. -/
theorem KnowsBody.of_widen (knows : graph.KnowsBody body.widen) : graph.KnowsBody body where
  locals := knows.locals
  handlers := knows.handlers
  instructions _ member :=
    (knowsOperation_withForm .long _).mp
      (knows.instructions _ (List.mem_map_of_mem member))

/-- Guards that the graph knows may be put into a body anywhere. -/
theorem KnowsBody.keptByGuards (library : system.methods.size ≤ graph.methods.size)
    (style : GuardStyle) :
    GuardedBody.KeptByGuards style graph.KnowsGuard (graph.KnowsBody ·.body) where
  note _ _ _ knows := knows
  entry guarded guard known knows := by
    cases split : guarded.body.instructions with
    | nil =>
        have none : guarded.body.firstId? = none := by
          simp [MethodBody.firstId?, split]
        rw [GuardedBody.addEntryGuard, none]
        exact knows
    | cons entry rest =>
        obtain ⟨instructions, handlers, locals, -⟩ :=
          GuardedBody.addEntryGuard_of_cons split style guard
        refine ⟨locals ▸ knows.locals, handlers ▸ knows.handlers, fun instruction member => ?_⟩
        rw [instructions] at member
        rcases List.mem_append.mp member with added | old
        · exact known.operations library style.debugBuild entry.id
            (operation_mem_of_mem_numberFrom added)
        · exact knows.instructions instruction old
  exit guarded index guard known knows := by
    cases here : guarded.body.instructions[index]? with
    | none =>
        rw [GuardedBody.addExitGuard, here]
        exact knows
    | some point =>
        obtain ⟨front, back, split, rfl⟩ := exists_split_of_getElem? here
        obtain ⟨instructions, handlers, locals, -⟩ :=
          GuardedBody.addExitGuard_of_split split style guard
        have moved : ∀ instruction ∈ guarded.body.instructions, ∀ change,
            graph.KnowsOperation (instruction.mapTargets change).operation :=
          fun instruction member change =>
            (knowsOperation_mapTargets change _).mpr (knows.instructions instruction member)
        refine ⟨locals ▸ knows.locals, fun handler member => ?_, fun instruction member => ?_⟩
        · rw [handlers] at member
          obtain ⟨old, among, rfl⟩ := List.mem_map.mp member
          exact knows.handlers old among
        · rw [instructions] at member
          rcases List.mem_append.mp member with before | member
          · obtain ⟨old, among, rfl⟩ := List.mem_map.mp before
            exact moved old (split ▸ List.mem_append_left _ among) _
          rcases List.mem_append.mp member with added | after
          · exact known.operations library style.debugBuild point.id
              (operation_mem_of_mem_numberFrom added)
          · obtain ⟨old, among, rfl⟩ := List.mem_map.mp after
            exact moved old (split ▸ List.mem_append_right _ among) _

/-- The guards of a method that the graph declares mention what it knows. -/
theorem knowsGuard_of_makes {context : MethodContext}
    (returned : graph.Forms context.decl.returnType)
    (parameters : ∀ parameter ∈ context.decl.parameters, graph.Forms parameter.type)
    {guard : Guard} (makes : context.Makes guard) : graph.KnowsGuard guard := by
  cases makes with
  | argument index parameter message member | out slot parameter message member =>
      exact ⟨parameters parameter member, nofun⟩
  | result message =>
      exact ⟨returned, nofun⟩

/-- The value that a task will hold has a type that the graph can form. -/
theorem Forms.asyncPayload {returnType : Signature} (forms : graph.Forms returnType) :
    graph.Forms (graph.asyncPayload returnType) := by
  unfold Graph.asyncPayload
  split
  · split
    · cases forms with
      | generic _ _ _ inside => exact inside _ (List.mem_cons_self ..)
    · exact forms
  · exact forms

/-- Also a method that is not declared has types that the graph can form. -/
theorem MembersKnown.forms (members : graph.MembersKnown) (method : MethodId) :
    graph.Forms (graph.method method).returnType ∧
      ∀ parameter ∈ (graph.method method).parameters, graph.Forms parameter.type := by
  by_cases inside : method.index < graph.methods.size
  · have known := members.methods _ (method_mem inside)
    exact ⟨known.returnType, known.parameters⟩
  · have empty : graph.method method = default := by
      rw [Graph.method, Array.getD_eq_getD_getElem?, Array.getElem?_eq_none (by omega)]
      rfl
    rw [empty]
    exact ⟨.void, List.forall_mem_nil _⟩

/-- A new body mentions what the graph knows if the old one does. -/
theorem KnowsBody.of_rewrites (members : graph.MembersKnown)
    (library : system.methods.size ≤ graph.methods.size) {settings : Settings}
    {new : MethodBody} (knows : graph.KnowsBody body)
    (rewrites : Rewrites graph settings body new) : graph.KnowsBody new := by
  -- Finishing a body changes the forms of branches and the debug information only.
  have finished {guarded : GuardedBody} (known : graph.KnowsBody guarded.body)
      {other : MethodBody} (instructions : other.instructions = guarded.finish.instructions)
      (handlers : other.handlers = guarded.body.handlers)
      (locals : other.locals = guarded.body.locals) : graph.KnowsBody other := by
    refine KnowsBody.of_widen
      { locals := locals ▸ known.locals
        handlers := handlers ▸ known.handlers
        instructions := fun instruction member => ?_ }
    have same : other.widen.instructions = guarded.body.widen.instructions := by
      rw [MethodBody.instructions_widen, instructions]
      exact widenBranches_narrowBranches (-128) 127 _
    exact known.widen.instructions instruction (same ▸ member)
  cases rewrites with
  | own context sameGraph =>
      subst sameGraph
      obtain ⟨returned, parameters⟩ := members.forms context.method
      have closed := (KnowsBody.keptByGuards library (MethodContext.style settings body)).of_imp
        fun _ => knowsGuard_of_makes returned parameters
      have known : context.graph.KnowsBody (context.guardBody settings body).body :=
        MethodContext.kept_guardBody closed knows.widen
      exact finished known rfl rfl rfl
  | machine context setException same reports =>
      obtain ⟨returned, -⟩ := members.forms context.method
      subst same
      obtain ⟨instruction, among, found⟩ := List.exists_of_findSome?_eq_some reports
      have call := (name_of_builderCall? found).1
      have report : context.graph.Knows (.method setException) :=
        knows.instructions instruction among _ (by rw [call]; rfl)
      have guard : context.graph.KnowsGuard
          (MethodContext.resultGuard (context.graph.asyncPayload context.decl.returnType)
            (returnMessage context.name) (.report setException)) := by
        refine ⟨returned.asyncPayload, ?_⟩
        rintro _ ⟨⟩
        exact report
      have closed := (KnowsBody.keptByGuards library
        { debugBuild := settings.debugBuild
          document := body.debugInfo.document? }).of_imp
        (forall_eq.mpr guard)
      have known : context.graph.KnowsBody
          (context.guardHandovers settings.debugBuild
            (context.graph.asyncPayload context.decl.returnType) setException body).body :=
        MethodContext.kept_guardHandovers closed knows.widen
      exact finished known rfl rfl rfl

end Graph

end NullWeave
