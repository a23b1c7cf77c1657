import Mathlib.Logic.Relation
import NullWeave.Proofs.Sequence
import NullWeave.Proofs.Text.LexedModule
import NullWeave.Text.Loading.Module

/-!
# Loading step by step

Loading a text takes a program through steps, whether it succeeds or finds a
fault on the way.  Each step adds one declaration, says what a type extends or
which interface it names, or gives a method the body that was read for it.  A
step looks up what was written in the graph as it finds it, and every name that
was written is lexed as a name.  So what each step keeps holds of every program
that texts were loaded into.  What was there when loading started stays as it
was: a step declares nothing on an earlier type, says nothing about one, and
gives no earlier method a body.
-/

namespace NullWeave

/-! ## Graphs that grow -/

namespace Graph

/-- Is a type one of those that a graph holds? -/
def HasType (graph : Graph) (type : TypeId) : Prop := type.index < graph.types.size

/-- Are some types those around a type that is declared next? -/
def Encloses (graph : Graph) (enclosing : List TypeId) : Prop :=
  ∀ outer ∈ enclosing.head?,
    graph.HasType outer ∧ enclosing.tail = (graph.type outer).enclosing

/-- Does a graph hold what another one holds, with no type renamed and no member changed? -/
structure GrowsTo (graph grown : Graph) : Prop where
  types : graph.types.size ≤ grown.types.size
  methods : graph.methods.size ≤ grown.methods.size
  fields : graph.fields.size ≤ grown.fields.size
  enclosing : ∀ type, graph.HasType type →
    (grown.type type).enclosing = (graph.type type).enclosing
  space : ∀ type, graph.HasType type → (grown.type type).space = (graph.type type).space
  name : ∀ type, graph.HasType type → (grown.type type).name = (graph.type type).name
  genericParameters : ∀ type, graph.HasType type →
    (grown.type type).genericParameters = (graph.type type).genericParameters
  method : ∀ method : MethodId, method.index < graph.methods.size →
    grown.method method = graph.method method
  field : ∀ field : FieldId, field.index < graph.fields.size →
    grown.field field = graph.field field

namespace GrowsTo

variable {graph grown last : Graph}

theorem refl (graph : Graph) : graph.GrowsTo graph :=
  ⟨Nat.le_refl _, Nat.le_refl _, Nat.le_refl _, fun _ _ => rfl, fun _ _ => rfl,
    fun _ _ => rfl, fun _ _ => rfl, fun _ _ => rfl, fun _ _ => rfl⟩

theorem hasType (grows : graph.GrowsTo grown) {type : TypeId}
    (known : graph.HasType type) : grown.HasType type :=
  Nat.lt_of_lt_of_le known grows.types

theorem trans (first : graph.GrowsTo grown) (second : grown.GrowsTo last) :
    graph.GrowsTo last where
  types := Nat.le_trans first.types second.types
  methods := Nat.le_trans first.methods second.methods
  fields := Nat.le_trans first.fields second.fields
  enclosing type known :=
    (second.enclosing type (first.hasType known)).trans (first.enclosing type known)
  space type known :=
    (second.space type (first.hasType known)).trans (first.space type known)
  name type known := (second.name type (first.hasType known)).trans (first.name type known)
  genericParameters type known :=
    (second.genericParameters type (first.hasType known)).trans
      (first.genericParameters type known)
  method method known :=
    (second.method method (Nat.lt_of_lt_of_le known first.methods)).trans
      (first.method method known)
  field field known :=
    (second.field field (Nat.lt_of_lt_of_le known first.fields)).trans
      (first.field field known)

theorem addType (graph : Graph) (decl : TypeDecl) :
    graph.GrowsTo (graph.addType decl).1 where
  types := by simp [Graph.addType]
  methods := Nat.le_refl _
  fields := Nat.le_refl _
  enclosing _ known := by rw [graph.type_addType_of_lt decl known]
  space _ known := by rw [graph.type_addType_of_lt decl known]
  name _ known := by rw [graph.type_addType_of_lt decl known]
  genericParameters _ known := by rw [graph.type_addType_of_lt decl known]
  method _ _ := rfl
  field _ _ := rfl

theorem addMethod (graph : Graph) (decl : MethodDecl) :
    graph.GrowsTo (graph.addMethod decl).1 :=
  { refl graph with
    methods := by simp [Graph.addMethod]
    method := fun _ known => graph.method_addMethod_of_lt decl known }

theorem addField (graph : Graph) (decl : FieldDecl) :
    graph.GrowsTo (graph.addField decl).1 :=
  { refl graph with
    fields := by simp [Graph.addField]
    field := fun field known => by
      simp [Graph.addField, Graph.field, Array.getElem?_push_lt known, known] }

/-- What is said about a type later leaves its names. -/
theorem modify (graph : Graph) (index : Nat) {change : TypeDecl → TypeDecl}
    (keeps : ∀ decl, (change decl).enclosing = decl.enclosing ∧
      (change decl).space = decl.space ∧ (change decl).name = decl.name ∧
        (change decl).genericParameters = decl.genericParameters) :
    graph.GrowsTo { graph with types := graph.types.modify index change } := by
  have type (type : TypeId) (known : graph.HasType type) :
      Graph.type { graph with types := graph.types.modify index change } type =
        if index = type.index then change (graph.type type) else graph.type type := by
    have inside : type.index < graph.types.size := known
    by_cases here : index = type.index <;>
      simp [Graph.type, inside, Array.getElem_modify, here]
  refine
    { refl graph with
      types := by simp
      enclosing := fun other known => ?_
      space := fun other known => ?_
      name := fun other known => ?_
      genericParameters := fun other known => ?_ }
  all_goals
    obtain ⟨enclosing, space, name, genericParameters⟩ := keeps (graph.type other)
    rw [type other known]
    split <;> [assumption; rfl]

theorem setBase (graph : Graph) (type : TypeId) (base : Option TypeId) :
    graph.GrowsTo (graph.setBase type base) :=
  modify graph type.index fun _ => ⟨rfl, rfl, rfl, rfl⟩

theorem addInterface (graph : Graph) (type interface : TypeId) :
    graph.GrowsTo (graph.addInterface type interface) :=
  modify graph type.index fun _ => ⟨rfl, rfl, rfl, rfl⟩

end GrowsTo

theorem Encloses.grows {graph grown : Graph} {enclosing : List TypeId}
    (encloses : graph.Encloses enclosing) (grows : graph.GrowsTo grown) :
    grown.Encloses enclosing := by
  intro outer member
  obtain ⟨known, inner⟩ := encloses outer member
  exact ⟨grows.hasType known, by rw [inner, grows.enclosing outer known]⟩

end Graph

@[simp]
theorem Loading.enclosing_typeDecl (enclosing : List TypeId) (header : TypeHeader) :
    (typeDecl enclosing header).enclosing = enclosing := by
  unfold typeDecl
  split
  rfl

/-! ## Steps -/

/-- One step of loading a text into a program, in which names are lexed as names. -/
inductive Program.LoadingStep (start : Program) : Program → Program → Prop where
  /-- A type is declared, under a full name that no other type has. -/
  | addType {program : Program} {enclosing : List TypeId} {header : TypeHeader} :
      header.Lexed → program.graph.Encloses enclosing →
      (∀ outer ∈ enclosing, ¬ start.graph.HasType outer) →
      program.graph.typeNamed? (program.graph.fullNameWithin
        (Loading.typeDecl enclosing header) enclosing) = none →
      LoadingStep start program
        { program with
          graph := (program.graph.addType (Loading.typeDecl enclosing header)).1 }
  /-- A type extends what it extends when nothing is written. -/
  | setDefaultBase {program : Program} {type : TypeId} (kind : TypeKind) :
      ¬ start.graph.HasType type →
      LoadingStep start program
        { program with graph := program.graph.setBase type (Loading.defaultBase kind) }
  /-- A type extends what was written. -/
  | setBase {program : Program} {type base : TypeId} {text : TypeExpr} :
      ¬ start.graph.HasType type →
      program.graph.definitionOf type text = .ok base →
      LoadingStep start program
        { program with graph := program.graph.setBase type (some base) }
  /-- A type names an interface that was written. -/
  | addInterface {program : Program} {type interface : TypeId} {text : TypeExpr} :
      ¬ start.graph.HasType type →
      program.graph.definitionOf type text = .ok interface →
      LoadingStep start program
        { program with graph := program.graph.addInterface type interface }
  /-- A field is declared, under a name that no other field of the type has. -/
  | addField {program : Program} {type : TypeId} {text : FieldText} {signature : Signature} :
      text.Lexed → program.graph.HasType type → ¬ start.graph.HasType type →
      program.graph.findField? type text.name = none →
      program.graph.resolve type text.type = .ok signature →
      LoadingStep start program
        { program with
          graph := (program.graph.addField
            { owner := type, name := text.name, type := signature, access := text.access }).1 }
  /-- A method is declared, with a signature that no other method of the type has. -/
  | addMethod {program : Program} {type : TypeId} {text : MethodText} {decl : MethodDecl} :
      text.Lexed → program.graph.HasType type → ¬ start.graph.HasType type →
      Loading.readMethod program.graph type text = .ok decl →
      (∀ other ∈ program.graph.methodsOf type,
        program.graph.sameMethodSignature (program.graph.method other) decl = false) →
      LoadingStep start program
        { program with graph := (program.graph.addMethod decl).1 }
  /-- A method gets the body that was read for it. -/
  | setBody {program : Program} {method : MethodId} {line : Nat} {text : BodyText}
      {body : MethodBody} :
      text.Lexed → start.graph.methods.size ≤ method.index →
      method.index < program.graph.methods.size →
      readBody program.graph (program.graph.method method) line text = .ok body →
      LoadingStep start program (program.setBody method body)

/-- Any number of steps of loading a text into a program. -/
abbrev Program.LoadingSteps (start : Program) : Program → Program → Prop :=
  Relation.ReflTransGen (Program.LoadingStep start)

namespace Program

variable {start program reached : Program}

theorem LoadingStep.growsTo (step : LoadingStep start program reached) :
    program.graph.GrowsTo reached.graph := by
  cases step with
  | addType _ _ _ _ =>
      exact .addType _ _
  | setDefaultBase _ _ =>
      exact .setBase _ _ _
  | setBase _ _ =>
      exact .setBase _ _ _
  | addInterface _ _ =>
      exact .addInterface _ _ _
  | addField _ _ _ _ _ =>
      exact .addField _ _
  | addMethod _ _ _ _ _ =>
      exact .addMethod _ _
  | setBody _ _ _ _ =>
      exact .refl _

theorem LoadingSteps.growsTo (steps : LoadingSteps start program reached) :
    program.graph.GrowsTo reached.graph := by
  induction steps with
  | refl =>
      exact .refl _
  | tail _ step inductionHypothesis =>
      exact inductionHypothesis.trans step.growsTo

/-- What no step breaks holds after any number of them. -/
theorem LoadingSteps.kept (kept : Program → Prop)
    (closed : ∀ program reached, LoadingStep start program reached →
      kept program → kept reached)
    (steps : LoadingSteps start program reached) (holds : kept program) : kept reached := by
  induction steps with
  | refl =>
      exact holds
  | tail _ step inductionHypothesis =>
      exact closed _ _ step inductionHypothesis

end Program

/-! ## Loading takes steps -/

namespace Loading

/-- Does a part of loading take steps from a program, and make what fits where it gets if it succeeds? -/
def Walks {α : Type} (start : Program) (fits : Program → α → Prop) (loading : Loading α)
    (program : Program) : Prop :=
  Program.LoadingSteps start program (loading.run program).2 ∧
    ∀ value, (loading.run program).1 = .ok value → fits (loading.run program).2 value

section Parts

variable {α β : Type} {fits : Program → α → Prop} {fitsToo : Program → β → Prop}
variable {start program : Program}

theorem walks_pure {value : α} (suits : fits program value) :
    Walks start fits (pure value) program := by
  refine ⟨.refl, ?_⟩
  rintro _ ⟨⟩
  exact suits

theorem walks_fail (line : Nat) (fault : TextFault) :
    Walks start fits (fail line fault) program := by
  refine ⟨.refl, ?_⟩
  rintro _ ⟨⟩

theorem Walks.bind {first : Loading α} {next : α → Loading β}
    (walks : Walks start fits first program)
    (walksNext : ∀ value reached, Program.LoadingSteps start program reached →
      fits reached value → Walks start fitsToo (next value) reached) :
    Walks start fitsToo (first >>= next) program := by
  obtain ⟨steps, suits⟩ := walks
  unfold Walks
  rw [run_bind]
  rcases ran : first.run program with ⟨failure | value, reached⟩
  · rw [ran] at steps
    refine ⟨steps, ?_⟩
    rintro _ ⟨⟩
  · rw [ran] at steps suits
    obtain ⟨further, suitsToo⟩ := walksNext value reached steps (suits value rfl)
    exact ⟨steps.trans further, suitsToo⟩

theorem walks_graph_bind {next : Graph → Loading α}
    (walks : Walks start fits (next program.graph) program) :
    Walks start fits (graph >>= next) program :=
  walks

/-- A result that may be missing takes no step. -/
theorem walks_orFail_bind {line : Nat} {result : Except TextFault α}
    {next : α → Loading β}
    (walks : ∀ value, result = .ok value → Walks start fitsToo (next value) program) :
    Walks start fitsToo (orFail line result >>= next) program := by
  cases result with
  | error fault =>
      refine ⟨.refl, ?_⟩
      rintro _ ⟨⟩
  | ok value =>
      exact walks value rfl

theorem walks_setGraph {graph : Graph}
    (step : Program.LoadingStep start program { program with graph }) :
    Walks start (fun reached _ => reached = { program with graph }) (setGraph graph) program := by
  refine ⟨.single step, ?_⟩
  rintro _ _
  rfl

/-- Steps for each item of a list, each of which goes on to suit the programs that are reached. -/
theorem walks_forM {item : Type} {suits : Program → item → Prop}
    {step : item → Loading Unit}
    (stable : ∀ program reached item, Program.LoadingSteps start program reached →
      suits program item → suits reached item)
    (walks : ∀ item program, suits program item →
      Walks start (fun _ _ => True) (step item) program)
    {items : List item} (fit : ∀ item ∈ items, suits program item) :
    Walks start (fun _ _ => True) (items.forM step) program := by
  induction items generalizing program with
  | nil =>
      exact walks_pure trivial
  | cons first rest inductionHypothesis =>
      obtain ⟨here, later⟩ := List.forall_mem_cons.mp fit
      refine (walks first program here).bind fun _ reached steps _ => ?_
      exact inductionHypothesis fun item member =>
        stable program reached item steps (later item member)

theorem walks_mapM {item : Type} {suits : Program → item → Prop}
    {step : item → Loading α}
    (stable : ∀ program reached item, Program.LoadingSteps start program reached →
      suits program item → suits reached item)
    (stableToo : ∀ program reached result, Program.LoadingSteps start program reached →
      fits program result → fits reached result)
    (walks : ∀ item program, suits program item →
      Walks start fits (step item) program)
    {items : List item} (fit : ∀ item ∈ items, suits program item) :
    Walks start (fun reached results => ∀ result ∈ results, fits reached result)
      (items.mapM step) program := by
  induction items generalizing program with
  | nil =>
      exact walks_pure (List.forall_mem_nil _)
  | cons first rest inductionHypothesis =>
      obtain ⟨here, later⟩ := List.forall_mem_cons.mp fit
      rw [List.mapM_cons]
      refine (walks first program here).bind fun result reached steps good => ?_
      refine (inductionHypothesis fun item member =>
        stable program reached item steps (later item member)).bind
          fun others last further allGood => ?_
      exact walks_pure (List.forall_mem_cons.mpr
        ⟨stableToo reached last result further good, allGood⟩)

end Parts

section Passes

variable {start program : Program}

/-- Is a type one that a text declared since loading started? -/
def IsNew (start program : Program) (type : TypeId) : Prop :=
  program.graph.HasType type ∧ ¬ start.graph.HasType type

theorem IsNew.stable {reached : Program} {type : TypeId}
    (steps : Program.LoadingSteps start program reached) (isNew : IsNew start program type) :
    IsNew start reached type :=
  ⟨steps.growsTo.hasType isNew.1, isNew.2⟩

/-- Can members be declared on a type? -/
def AwaitsMembers (start program : Program) (type : TypeId) : Prop :=
  start.graph.GrowsTo program.graph ∧ IsNew start program type

theorem AwaitsMembers.stable {reached : Program} {type : TypeId}
    (steps : Program.LoadingSteps start program reached)
    (awaits : AwaitsMembers start program type) : AwaitsMembers start reached type :=
  ⟨awaits.1.trans steps.growsTo, awaits.2.stable steps⟩

/-- Are a text and a type that was declared for it fit for the passes that follow? -/
def Declared (start program : Program) (entry : TypeText × TypeId) : Prop :=
  entry.1.Lexed ∧ AwaitsMembers start program entry.2

theorem Declared.stable {reached : Program} {entry : TypeText × TypeId}
    (steps : Program.LoadingSteps start program reached)
    (declared : Declared start program entry) : Declared start reached entry :=
  ⟨declared.1, declared.2.stable steps⟩

/-- Can a method that was declared for a text be given a body? -/
def TakesBody (start program : Program) (entry : MethodText × MethodId) : Prop :=
  entry.1.Lexed ∧ start.graph.methods.size ≤ entry.2.index ∧
    entry.2.index < program.graph.methods.size

theorem TakesBody.stable {reached : Program} {entry : MethodText × MethodId}
    (steps : Program.LoadingSteps start program reached)
    (takes : TakesBody start program entry) : TakesBody start reached entry :=
  ⟨takes.1, takes.2.1, Nat.lt_of_lt_of_le takes.2.2 steps.growsTo.methods⟩

theorem walks_addHeader {enclosing : List TypeId} {header : TypeHeader}
    (lexed : header.Lexed) (since : start.graph.GrowsTo program.graph)
    (encloses : program.graph.Encloses enclosing)
    (outside : ∀ outer ∈ enclosing, ¬ start.graph.HasType outer) :
    Walks start (fun reached type => IsNew start reached type ∧
        (reached.graph.type type).enclosing = enclosing)
      (addHeader enclosing header) program := by
  refine walks_graph_bind ?_
  dsimp only
  split
  · exact walks_fail _ _
  · rename_i free
    have unnamed := Option.not_isSome_iff_eq_none.mp free
    refine (walks_setGraph (.addType lexed encloses outside unnamed)).bind
      fun _ reached steps same => ?_
    subst same
    refine walks_pure ⟨⟨?_, ?_⟩, ?_⟩
    · simp [Graph.HasType, Graph.addType]
    · exact Nat.not_lt.mpr since.types
    · dsimp only
      rw [Graph.type_addType_self, enclosing_typeDecl]

mutual

theorem walks_addType {start program : Program} {enclosing : List TypeId}
    (since : start.graph.GrowsTo program.graph)
    (encloses : program.graph.Encloses enclosing)
    (outside : ∀ outer ∈ enclosing, ¬ start.graph.HasType outer) :
    ∀ text : TypeText, text.Lexed →
      Walks start (fun reached declared => ∀ entry ∈ declared, Declared start reached entry)
        (addType enclosing text) program
  | .mk header _ _ nested, lexed => by
      rw [addType]
      have parts := lexed
      obtain ⟨headerLexed, -, -, nestedLexed⟩ := parts
      refine (walks_addHeader headerLexed since encloses outside).bind
        fun type reached steps declared => ?_
      have inside : reached.graph.Encloses (type :: enclosing) := by
        rintro _ ⟨⟩
        exact ⟨declared.1.1, declared.2.symm⟩
      refine (walks_addTypes (since.trans steps.growsTo) inside
        (List.forall_mem_cons.mpr ⟨declared.1.2, outside⟩) nested nestedLexed).bind
          fun inner last further all => ?_
      exact walks_pure (List.forall_mem_cons.mpr
        ⟨⟨lexed, (since.trans steps.growsTo).trans further.growsTo,
          declared.1.stable further⟩, all⟩)

theorem walks_addTypes {start program : Program} {enclosing : List TypeId}
    (since : start.graph.GrowsTo program.graph)
    (encloses : program.graph.Encloses enclosing)
    (outside : ∀ outer ∈ enclosing, ¬ start.graph.HasType outer) :
    ∀ texts : List TypeText, (∀ text ∈ texts, text.Lexed) →
      Walks start (fun reached declared => ∀ entry ∈ declared, Declared start reached entry)
        (addTypes enclosing texts) program
  | [], _ => by
      rw [addTypes]
      exact walks_pure (List.forall_mem_nil _)
  | text :: rest, lexed => by
      rw [addTypes]
      obtain ⟨firstLexed, restLexed⟩ := List.forall_mem_cons.mp lexed
      refine (walks_addType since encloses outside text firstLexed).bind
        fun first reached steps all => ?_
      refine (walks_addTypes (since.trans steps.growsTo) (encloses.grows steps.growsTo)
        outside rest restLexed).bind fun others last further allToo => ?_
      exact walks_pure (List.forall_mem_append.mpr
        ⟨fun entry member => (all entry member).stable further, allToo⟩)

end

theorem walks_addBase (header : TypeHeader) {type : TypeId}
    (isNew : ¬ start.graph.HasType type) :
    Walks start (fun _ _ => True) (addBase header type) program := by
  refine walks_graph_bind ?_
  cases header.base with
  | none =>
      exact (walks_setGraph (.setDefaultBase header.kind isNew)).bind
        fun _ _ _ _ => walks_pure trivial
  | some text =>
      cases found : program.graph.definitionOf type text with
      | error fault =>
          simp only [found]
          exact walks_fail _ _
      | ok base =>
          simp only [found]
          exact (walks_setGraph (.setBase isNew found)).bind
            fun _ _ _ _ => walks_pure trivial

theorem walks_addInterface (line : Nat) {type : TypeId} (isNew : ¬ start.graph.HasType type)
    (text : TypeExpr) :
    Walks start (fun _ _ => True) (addInterface line type text) program := by
  refine walks_graph_bind (walks_orFail_bind fun interface found => ?_)
  split
  · refine ⟨.single (.addInterface isNew found), ?_⟩
    rintro _ _
    trivial
  · exact walks_fail _ _

theorem walks_addSupertypes (text : TypeText) {type : TypeId}
    (isNew : ¬ start.graph.HasType type) :
    Walks start (fun _ _ => True) (addSupertypes text type) program := by
  refine (walks_addBase text.header isNew).bind fun _ reached _ _ => ?_
  refine walks_forM (fun _ _ _ _ _ => trivial) (fun interface program _ =>
    walks_addInterface text.header.line isNew interface) fun _ _ => ?_
  trivial

theorem walks_addField {type : TypeId} {text : FieldText}
    (lexed : text.Lexed) (isNew : IsNew start program type) :
    Walks start (fun _ _ => True) (addField type text) program := by
  refine walks_graph_bind ?_
  split
  · exact walks_fail _ _
  · rename_i free
    refine walks_orFail_bind fun signature resolved => ?_
    refine ⟨.single (.addField lexed isNew.1 isNew.2
      (Option.not_isSome_iff_eq_none.mp free) resolved), ?_⟩
    rintro _ _
    trivial

theorem walks_addMethod {type : TypeId} {text : MethodText}
    (lexed : text.Lexed) (awaits : AwaitsMembers start program type) :
    Walks start (TakesBody start) (addMethod type text) program := by
  obtain ⟨since, known, isNew⟩ := awaits
  refine walks_graph_bind (walks_orFail_bind fun decl read => ?_)
  dsimp only
  split
  · exact walks_fail _ _
  · rename_i free
    have apart : ∀ other ∈ program.graph.methodsOf type,
        program.graph.sameMethodSignature (program.graph.method other) decl = false := by
      simpa using free
    refine (walks_setGraph (.addMethod lexed known isNew read apart)).bind
      fun _ reached _ same => ?_
    subst same
    refine walks_pure ⟨lexed, since.methods, ?_⟩
    simp [Graph.addMethod]

theorem walks_addMembers {text : TypeText} {type : TypeId}
    (declared : Declared start program (text, type)) :
    Walks start (fun reached entries => ∀ entry ∈ entries, TakesBody start reached entry)
      (addMembers text type) program := by
  obtain ⟨⟨_, fieldsLexed, methodsLexed, _⟩, awaits⟩ := declared
  refine Walks.bind (walks_forM
    (fun _ _ _ steps member => ⟨member.1, member.2.stable steps⟩)
    (fun field program (member : field.Lexed ∧ IsNew start program type) =>
      walks_addField member.1 member.2)
    fun field member => ⟨fieldsLexed field member, awaits.2⟩) fun _ reached steps _ => ?_
  exact walks_mapM
    (fun _ _ _ steps member => ⟨member.1, member.2.stable steps⟩)
    (fun _ _ _ steps takes => takes.stable steps)
    (fun method program (member : method.Lexed ∧ AwaitsMembers start program type) =>
      walks_addMethod member.1 member.2)
    fun method member => ⟨methodsLexed method member, awaits.stable steps⟩

theorem walks_loadBody {text : MethodText} {method : MethodId}
    (takes : TakesBody start program (text, method)) :
    Walks start (fun _ _ => True) (loadBody text method) program := by
  obtain ⟨lexed, isNew, inside⟩ := takes
  rw [loadBody]
  cases present : text.body with
  | none =>
      exact walks_pure trivial
  | some body =>
      refine walks_graph_bind ?_
      split
      · refine ⟨.refl, ?_⟩
        rintro _ ⟨⟩
      · rename_i read
        refine ⟨.single (.setBody (lexed.body body present) isNew inside read), ?_⟩
        rintro _ _
        trivial

theorem walks_loadTypes {texts : List TypeText} (lexed : ∀ text ∈ texts, text.Lexed) :
    Walks start (fun _ _ => True) (loadTypes texts) start := by
  have outermost : start.graph.Encloses [] := nofun
  refine (walks_addTypes (.refl _) outermost (List.forall_mem_nil _) texts lexed).bind
    fun declared reached _ all => ?_
  have supertypes : Walks start (fun _ _ => True)
      (declared.forM fun entry => addSupertypes entry.1 entry.2) reached :=
    walks_forM (fun _ _ _ _ isNew => isNew)
      (fun (entry : TypeText × TypeId) program isNew => walks_addSupertypes entry.1 isNew)
      fun entry member => (all entry member).2.2.2
  refine supertypes.bind fun _ extended steps _ => ?_
  have members : Walks start
      (fun reached lists => ∀ list ∈ lists, ∀ entry ∈ list, TakesBody start reached entry)
      (declared.mapM fun entry => addMembers entry.1 entry.2) extended :=
    walks_mapM
      (fun _ _ _ steps declared => declared.stable steps)
      (fun _ _ _ steps takes entry member => (takes entry member).stable steps)
      (fun entry program (declared : Declared start program entry) =>
        walks_addMembers declared)
      fun entry member => (all entry member).stable steps
  refine members.bind fun lists filled _ takes => ?_
  have bodies : Walks start (fun _ _ => True)
      (lists.flatten.forM fun entry => loadBody entry.1 entry.2) filled := by
    refine walks_forM (fun _ _ _ steps takes => takes.stable steps)
      (fun (entry : MethodText × MethodId) program takes =>
        walks_loadBody takes) fun entry member => ?_
    obtain ⟨list, listed, inside⟩ := List.mem_flatten.mp member
    exact takes list listed entry inside
  exact bodies.bind fun _ _ _ _ => walks_pure trivial

end Passes

end Loading

namespace Program

/-- Loading a text takes steps, whether it succeeds or not. -/
theorem loadingSteps_load (program : Program) (text : String) :
    LoadingSteps program program (program.load text).2 := by
  unfold load
  split
  · exact .refl
  · rename_i texts read
    exact (Loading.walks_loadTypes (lexed_of_readModule read)).1

/-- A program that comes from the system library by loading texts, with or without faults. -/
inductive FromTexts : Program → Prop where
  | initial : FromTexts .initial
  | load {program : Program} (text : String) :
      FromTexts program → FromTexts (program.load text).2

/-- What holds of the system library and is broken by no step holds whatever texts were loaded. -/
theorem FromTexts.kept {program : Program} (fromTexts : program.FromTexts)
    (kept : Program → Prop)
    (closed : ∀ start program reached, LoadingStep start program reached →
      kept program → kept reached)
    (library : kept .initial) : kept program := by
  induction fromTexts with
  | initial =>
      exact library
  | load text _ inductionHypothesis =>
      exact (loadingSteps_load _ text).kept kept (closed _) inductionHypothesis

end Program

end NullWeave
