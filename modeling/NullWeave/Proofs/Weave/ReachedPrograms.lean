import NullWeave.Proofs.Code.BodyOutline
import NullWeave.Proofs.Graph.Consistency
import NullWeave.Proofs.Text.UnbrokenLines
import NullWeave.Proofs.Weave.Failure
import NullWeave.Proofs.Weave.HiddenCode
import NullWeave.Proofs.Weave.MethodOrder

/-!
# Programs that were loaded and woven

A program comes about by loading texts and weaving modules, in any order and
whether each of these goes well or not.  What was declared stays, methods keep
their bodies or get rewritten ones, and all bodies stay well-formed, with their
sequence points in the order of their instructions.
-/

namespace NullWeave

/-! ## What weaving keeps -/

/-- Does one collection of bodies come from another by rewriting some of them? -/
def Bodies.RewritesTo (graph : Graph) (settings : Settings) (bodies reached : Bodies) : Prop :=
  ∀ method, reached.get? method = bodies.get? method ∨ ∃ body new,
    bodies.get? method = some body ∧ reached.get? method = some new ∧
      Rewrites graph settings body new

namespace Weaver

variable {graph : Graph} {settings : Settings} {kept : Bodies → Prop} {α β : Type}

/-- Does a run keep what holds of the bodies, whether it goes well or not? -/
def Keeps (kept : Bodies → Prop) (weaver : Weaver α) : Prop :=
  ∀ state, kept state.bodies → kept (weaver.run state).2.bodies

theorem keeps_emit (entries : List LogEntry) : Keeps kept (emit entries) :=
  fun _ holds => holds

theorem Keeps.bind {weaver : Weaver α} {next : α → Weaver β} (keeps : Keeps kept weaver)
    (keepsNext : ∀ value, Keeps kept (next value)) : Keeps kept (weaver >>= next) := by
  intro state holds
  have first := keeps state holds
  rw [run_bind]
  rcases ran : weaver.run state with ⟨_ | value, reached⟩ <;> rw [ran] at first
  · exact first
  · exact keepsNext value reached first

theorem Keeps.forM {weaver : β → Weaver Unit} (keeps : ∀ item, Keeps kept (weaver item))
    (items : List β) : Keeps kept (items.forM weaver) := by
  induction items with
  | nil =>
      exact fun _ holds => holds
  | cons item rest inductionHypothesis =>
      exact (keeps item).bind fun _ => inductionHypothesis

/-- Weaving a method rewrites bodies if it goes well, and otherwise leaves them alone. -/
theorem keeps_weaveUnlessGenerated
    (closed : ∀ bodies reached, bodies.RewritesTo graph settings reached → kept bodies →
      kept reached) (method : MethodId) :
    Keeps kept (weaveUnlessGenerated graph settings method) := by
  intro state holds
  rcases ran : (weaveUnlessGenerated graph settings method).run state with
    ⟨failure | ⟨⟩, reached⟩
  · obtain ⟨cause, -, failed⟩ := run_weaveUnlessGenerated_eq_error ran
    rw [(run_weaveMethod_eq_error failed).bodies]
    exact holds
  · cases generated : settings.isGenerated graph method with
    | true =>
        rw [weaveUnlessGenerated, generated] at ran
        cases ran
        exact holds
    | false =>
        rw [run_weaveUnlessGenerated_eq_ok generated] at ran
        exact closed _ _ (get?_of_run_weaveMethod ran) holds

theorem keeps_weaveModule
    (closed : ∀ bodies reached, bodies.RewritesTo graph settings reached → kept bodies →
      kept reached) (module : Module) : Keeps kept (weaveModule graph settings module) := by
  have types : Keeps kept (module.types.forM (weaveType graph settings)) :=
    .forM (fun type => (keeps_emit _).bind fun _ =>
      .forM (keeps_weaveUnlessGenerated closed) (graph.methodsOf type)) _
  exact types.bind fun _ => fun _ holds => holds

end Weaver

/-! ## Programs that are reached -/

namespace Program

/-- One thing that is done with a program, whether it goes well or not. -/
inductive Step : Program → Program → Prop where
  | load (program : Program) (text : String) : Step program (program.load text).2
  | weave (program : Program) (settings : Settings) (module : Module) :
      Step program (program.weave settings module).program
  | weaveMethods (program : Program) (settings : Settings) (methods : List MethodId) :
      Step program (program.weaveMethods settings methods).program

/-- Any number of things that are done with a program. -/
abbrev Reaches : Program → Program → Prop := Relation.ReflTransGen Step

/-- What loading and rewriting keep holds of all that a program reaches. -/
theorem Reaches.kept {kept : Program → Prop}
    (load : ∀ program text, kept program → kept (program.load text).2)
    (rewrite : ∀ program settings reached,
      program.bodies.RewritesTo program.graph settings reached → kept program →
        kept { program with bodies := reached })
    {program reached : Program} (reaches : program.Reaches reached) (holds : kept program) :
    kept reached := by
  induction reaches with
  | refl =>
      exact holds
  | @tail between _ _ step inductionHypothesis =>
      have closed (settings : Settings) (bodies reached : Bodies)
          (rewrites : bodies.RewritesTo between.graph settings reached)
          (before : kept { between with bodies }) : kept { between with bodies := reached } :=
        rewrite { between with bodies } settings reached rewrites before
      cases step with
      | load text =>
          exact load between text inductionHypothesis
      | weave settings module =>
          exact Weaver.keeps_weaveModule (closed settings) module { bodies := between.bodies }
            inductionHypothesis
      | weaveMethods settings methods =>
          exact Weaver.Keeps.forM (Weaver.keeps_weaveUnlessGenerated (closed settings)) methods
            { bodies := between.bodies } inductionHypothesis

/-! ## What was declared -/

/-- Is what a program declares still there, with a body for each method that had one? -/
structure Keeps (program reached : Program) : Prop where
  types : program.graph.types.size ≤ reached.graph.types.size
  enclosing : ∀ type, program.graph.HasType type →
    (reached.graph.type type).enclosing = (program.graph.type type).enclosing
  nestedTypes : ∀ type, program.graph.HasType type →
    reached.graph.nestedTypes type = program.graph.nestedTypes type
  methodsOf : ∀ type, program.graph.HasType type →
    reached.graph.methodsOf type = program.graph.methodsOf type
  method : ∀ type, program.graph.HasType type → ∀ method ∈ program.graph.methodsOf type,
    reached.graph.method method = program.graph.method method ∧
      (reached.bodies.get? method).isSome = (program.bodies.get? method).isSome

namespace Keeps

variable {program between reached : Program}

theorem refl (program : Program) : program.Keeps program :=
  ⟨Nat.le_refl _, fun _ _ => rfl, fun _ _ => rfl, fun _ _ => rfl,
    fun _ _ _ _ => ⟨rfl, rfl⟩⟩

theorem hasType (keeps : program.Keeps reached) {type : TypeId}
    (known : program.graph.HasType type) : reached.graph.HasType type :=
  Nat.lt_of_lt_of_le known keeps.types

theorem trans (keeps : program.Keeps between) (keepsToo : between.Keeps reached) :
    program.Keeps reached where
  types := Nat.le_trans keeps.types keepsToo.types
  enclosing type known :=
    (keepsToo.enclosing type (keeps.hasType known)).trans (keeps.enclosing type known)
  nestedTypes type known :=
    (keepsToo.nestedTypes type (keeps.hasType known)).trans (keeps.nestedTypes type known)
  methodsOf type known :=
    (keepsToo.methodsOf type (keeps.hasType known)).trans (keeps.methodsOf type known)
  method type known method member := by
    obtain ⟨decl, body⟩ := keeps.method type known method member
    rw [← keeps.methodsOf type known] at member
    obtain ⟨declToo, bodyToo⟩ :=
      keepsToo.method type (keeps.hasType known) method member
    exact ⟨declToo.trans decl, bodyToo.trans body⟩

theorem load (program : Program) (text : String) : program.Keeps (program.load text).2 where
  types := (loadingSteps_load program text).growsTo.types
  enclosing type known :=
    congrArg TypeDecl.enclosing ((staysIn_load program text).type type known).2
  nestedTypes := (staysIn_load program text).nestedTypes
  methodsOf := (staysIn_load program text).methodsOf
  method type _ method member := by
    obtain ⟨decl, body⟩ :=
      (staysIn_load program text).method method (List.mem_of_mem_filter member)
    exact ⟨decl, congrArg Option.isSome body⟩

theorem rewrite {settings : Settings} {bodies : Bodies}
    (rewrites : program.bodies.RewritesTo program.graph settings bodies) :
    program.Keeps { program with bodies } :=
  { refl program with
    method := fun _ _ method _ => by
      refine ⟨rfl, ?_⟩
      rcases rewrites method with same | ⟨body, new, before, after, -⟩
      · exact congrArg Option.isSome same
      · exact (congrArg Option.isSome after).trans (congrArg Option.isSome before).symm }

end Keeps

/-- What a program declares is kept by all that it reaches. -/
theorem Reaches.keeps {program reached : Program} (reaches : program.Reaches reached) :
    program.Keeps reached :=
  reaches.kept (fun between text keeps => keeps.trans (.load between text))
    (fun _ _ _ rewrites keeps => keeps.trans (.rewrite rewrites)) (.refl program)

end Program

/-! ## What is known of bodies -/

/-- Is a body well-formed, with its sequence points on its instructions, in their order? -/
structure MethodBody.Placed (body : MethodBody) : Prop where
  wellFormed : body.WellFormed
  present : ∀ point ∈ body.debugInfo.points,
    point.instruction ∈ identities body.instructions
  ordered : InOrder body.instructions body.debugInfo.points

theorem MethodBody.AsRead.placed {body : MethodBody} (read : body.AsRead) : body.Placed :=
  ⟨read.wellFormed, read.points.present, read.inOrder⟩

/-- Everything that a placed body refers to stands at a position. -/
theorem MethodBody.Placed.isPlaced_outline {body : MethodBody} (placed : body.Placed) :
    body.outline.IsPlaced := by
  have stands {id : InstrId} (inside : id ∈ identities body.instructions) :
      (body.indexOf? id).isSome = true := by
    obtain ⟨position, found⟩ := MethodBody.exists_indexOf?_of_mem inside
    rw [found]
    rfl
  have resolves := MethodBody.ensureResolved_eq_ok_iff.mp placed.wellFormed.resolved
  have targets := MethodBody.targetsWithin_of_ensureResolved placed.wellFormed.resolved
  refine ⟨?_, ?_, ?_⟩
  · intro outlined member target among
    obtain ⟨instruction, inBody, rfl⟩ := List.mem_map.mp member
    obtain ⟨id, ofInstruction, rfl⟩ := List.mem_map.mp among
    exact stands (targets instruction inBody id ofInstruction)
  · intro outlined member
    obtain ⟨handler, inBody, rfl⟩ := List.mem_map.mp member
    have bounds (id : InstrId) (among : id ∈ handler.boundaries) :
        (body.indexOf? id).isSome = true :=
      stands (resolves id (List.mem_append_right _
        (List.mem_flatMap.mpr ⟨handler, inBody, among⟩)))
    refine ⟨bounds _ (by simp [ExceptionHandler.boundaries]),
      bounds _ (by simp [ExceptionHandler.boundaries]),
      bounds _ (by simp [ExceptionHandler.boundaries]), fun finish ends => ?_⟩
    obtain ⟨id, there, rfl⟩ := Option.map_eq_some_iff.mp ends
    exact bounds id (by simp [ExceptionHandler.boundaries, there])
  · intro outlined member
    obtain ⟨point, inBody, rfl⟩ := List.mem_map.mp member
    exact stands (placed.present point inBody)

/-- A rewritten body has its points in order again, however often it was rewritten before. -/
theorem MethodBody.Placed.rewritten {graph : Graph} {settings : Settings}
    {body new : MethodBody} (placed : body.Placed)
    (rewrites : Rewrites graph settings body new) : new.Placed := by
  obtain ⟨guarded, layout, rewritten⟩ := rewrites.exists_rewritten placed.wellFormed
  obtain ⟨guards, trace, -⟩ := rewritten.comesFrom
  have wellFormed := rewritten.wellFormed placed.wellFormed
  have present := rewritten.present trace placed.present
  have points := rewritten.points_eq trace
  refine ⟨wellFormed, fun point member => ?_,
    points ▸ inOrder_orderPoints wellFormed.distinct present⟩
  rw [points, (orderPoints_perm wellFormed.distinct present).mem_iff] at member
  exact present point member

/-! ## What is known of programs -/

namespace Graph

/-- The attributes and generic parameters that the system library declares are named. -/
theorem marked_system : system.Marked := by
  have types : ∀ decl ∈ system.types.toList,
      (∀ mark ∈ decl.attributes, isName mark.name = true) ∧
        ∀ name ∈ decl.genericParameters, NullWeave.IsSpelled name := by
    decide +kernel
  have methods : ∀ decl ∈ system.methods.toList,
      (∀ mark ∈ decl.attributes, isName mark.name = true) ∧
        (∀ mark ∈ decl.returnAttributes, isName mark.name = true) ∧
          ∀ parameter ∈ decl.parameters, ∀ mark ∈ parameter.attributes,
            isName mark.name = true := by
    decide +kernel
  refine ⟨fun decl member => ?_, fun decl member => ?_⟩
  · obtain ⟨attributes, parameters⟩ := types decl (Array.mem_toList_iff.mpr member)
    exact ⟨attributes, parameters⟩
  · obtain ⟨attributes, returned, parameters⟩ := methods decl (Array.mem_toList_iff.mpr member)
    exact ⟨attributes, returned, parameters⟩

variable {graph : Graph}

theorem Marked.addType (marked : graph.Marked) (enclosing : List TypeId) {header : TypeHeader}
    (lexed : header.Lexed) :
    (graph.addType (Loading.typeDecl enclosing header)).1.Marked where
  types decl member := by
    rcases Array.mem_push.mp member with old | rfl
    · exact marked.types decl old
    · unfold Loading.typeDecl
      split
      exact ⟨lexed.attributes, fun name among => (lexed.genericParameters name among).isSpelled⟩
  methods := marked.methods

/-- What is said of a type later marks nothing. -/
theorem Marked.modify (marked : graph.Marked) (index : Nat) {say : TypeDecl → TypeDecl}
    (keeps : ∀ decl, (say decl).attributes = decl.attributes ∧
      (say decl).genericParameters = decl.genericParameters) :
    Marked { graph with types := graph.types.modify index say } where
  types decl member := by
    obtain ⟨place, inside, rfl⟩ := Array.mem_iff_getElem.mp member
    rw [Array.getElem_modify]
    have before := marked.types _ (Array.getElem_mem (Array.size_modify ▸ inside))
    split
    · constructor
      · rw [(keeps _).1]
        exact before.attributes
      · rw [(keeps _).2]
        exact before.genericParameters
    · exact before
  methods := marked.methods

end Graph

/-- The attributes of a method that is read are those that were written. -/
theorem Loading.marked_of_readMethod {graph : Graph} {type : TypeId} {text : MethodText}
    (lexed : text.Lexed) {decl : MethodDecl} (read : readMethod graph type text = .ok decl) :
    decl.Marked := by
  obtain ⟨parameters, readAll, later⟩ := bind_eq_ok_iff.mp read
  obtain ⟨returnType, -, same⟩ := bind_eq_ok_iff.mp later
  cases same
  refine ⟨lexed.attributes, lexed.returnAttributes, fun parameter member => ?_⟩
  obtain ⟨written, among, here⟩ := exists_of_mem_mapM_eq_ok readAll member
  obtain ⟨signature, -, rfl⟩ := map_eq_ok_iff.mp here
  exact (lexed.parameters written among).attributes

namespace Program

variable {start program reached : Program}

theorem marked_step (step : LoadingStep start program reached) (marked : program.graph.Marked) :
    reached.graph.Marked := by
  cases step with
  | addType lexed _ _ _ =>
      exact marked.addType _ lexed
  | setDefaultBase _ _ | setBase _ _ | addInterface _ _ =>
      exact marked.modify _ fun _ => ⟨rfl, rfl⟩
  | addField _ _ _ _ _ =>
      exact ⟨marked.types, marked.methods⟩
  | addMethod lexed _ _ read _ =>
      refine ⟨marked.types, fun decl member => ?_⟩
      rcases Array.mem_push.mp member with old | rfl
      · exact marked.methods decl old
      · exact Loading.marked_of_readMethod lexed read
  | setBody _ _ _ _ =>
      exact marked

/-- What is known of a program, whatever was done with it. -/
structure Intact (program : Program) : Prop where
  named : program.Named
  spelled : program.graph.IsSpelled
  marked : program.graph.Marked
  library : Graph.system.methods.size ≤ program.graph.methods.size
  /-- Only a method that is declared has a body. -/
  owned : ∀ method body, program.bodies.get? method = some body →
    method.index < program.graph.methods.size
  placed : ∀ method body, program.bodies.get? method = some body → body.Placed

namespace Intact

theorem initial : Program.initial.Intact where
  named := FromTexts.initial.named
  spelled := Graph.IsSpelled.system
  marked := Graph.marked_system
  library := Nat.le_refl _
  owned _ _ present := by
    cases present
  placed _ _ present := by
    cases present

/-- Every step of loading keeps what is known. -/
theorem step (step : LoadingStep start program reached) (intact : program.Intact) :
    reached.Intact := by
  have grows := step.growsTo
  have kept (method : MethodId) (body : MethodBody)
      (present : reached.bodies.get? method = some body) :
      method.index < reached.graph.methods.size ∧ body.Placed := by
    have before (old : program.bodies.get? method = some body) :
        method.index < reached.graph.methods.size ∧ body.Placed :=
      ⟨Nat.lt_of_lt_of_le (intact.owned method body old) grows.methods,
        intact.placed method body old⟩
    cases step with
    | @setBody owner _ _ _ _ _ inside read =>
        by_cases here : method = owner
        · subst here
          rw [setBody, Bodies.get?_set_self] at present
          cases present
          exact ⟨inside, (asRead_of_readBody read).placed⟩
        · rw [setBody, Bodies.get?_set_of_ne _ _ here] at present
          exact before present
    | addType _ _ _ _ | setDefaultBase _ _ | setBase _ _ | addInterface _ _ | addField _ _ _ _ _
    | addMethod _ _ _ _ _ =>
        exact before present
  exact
    { named := intact.named.step step
      spelled := intact.spelled.step step
      marked := marked_step step intact.marked
      library := Nat.le_trans intact.library grows.methods
      owned := fun method body present => (kept method body present).1
      placed := fun method body present => (kept method body present).2 }

/-- Rewriting bodies keeps what is known. -/
theorem rewrite (intact : program.Intact) {settings : Settings} {bodies : Bodies}
    (rewrites : program.bodies.RewritesTo program.graph settings bodies) :
    Intact { program with bodies } := by
  have kept (method : MethodId) (new : MethodBody) (present : bodies.get? method = some new) :
      method.index < program.graph.methods.size ∧ new.Placed ∧
        ∀ mention ∈ new.mentions, program.graph.Knows mention := by
    rcases rewrites method with same | ⟨body, other, before, after, rewritten⟩
    · rw [same] at present
      exact ⟨intact.owned method new present, intact.placed method new present,
        intact.named.bodies method new present⟩
    · obtain rfl : other = new := Option.some.inj (after.symm.trans present)
      have knows := Graph.knowsBody_iff.mpr (intact.named.bodies method body before)
      exact ⟨intact.owned method body before,
        (intact.placed method body before).rewritten rewritten,
        Graph.knowsBody_iff.mp (knows.of_rewrites intact.named.members intact.library rewritten)⟩
  exact
    { named :=
        { types := intact.named.types
          members := intact.named.members
          bodies := fun method body present => (kept method body present).2.2 }
      spelled := intact.spelled
      marked := intact.marked
      library := intact.library
      owned := fun method body present => (kept method body present).1
      placed := fun method body present => (kept method body present).2.1 }

end Intact

/-- What is known of a program is known of all that it reaches. -/
theorem Reaches.intact (reaches : program.Reaches reached) (intact : program.Intact) :
    reached.Intact :=
  reaches.kept
    (fun program text before => (loadingSteps_load program text).kept Intact
      (fun _ _ step intact => intact.step step) before)
    (fun _ _ _ rewrites before => before.rewrite rewrites) intact

end Program

end NullWeave
