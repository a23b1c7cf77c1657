import NullWeave.Proofs.Sequence
import NullWeave.Proofs.Text.LoadedBody
import NullWeave.Proofs.Weave.SystemNames
import NullWeave.Text.Loading.Module

/-!
# Programs as they are loaded

Loading goes through passes, each of which adds declarations, says more about
declarations that are there, or gives bodies that were read to methods.  So
what none of these steps can break holds of every program that texts were
loaded into, also where a text had a fault.
-/

namespace NullWeave

/-- What no step of loading breaks that declares no method. -/
structure Program.KeptBetweenMethods (kept : Program → Prop) : Prop where
  addType : ∀ program decl, kept program →
    kept { program with graph := (program.graph.addType decl).1 }
  setBase : ∀ program type base, kept program →
    kept { program with graph := program.graph.setBase type base }
  addInterface : ∀ program type interface, kept program →
    kept { program with graph := program.graph.addInterface type interface }
  addField : ∀ program decl, kept program →
    kept { program with graph := (program.graph.addField decl).1 }
  setBody : ∀ program method line text body, kept program →
    readBody program.graph (program.graph.method method) line text =
        .ok body →
      kept (program.setBody method body)

/-- What no step of loading breaks. -/
structure Program.KeptByLoading (kept : Program → Prop) : Prop
    extends Program.KeptBetweenMethods kept where
  addMethod : ∀ program decl, kept program →
    kept { program with graph := (program.graph.addMethod decl).1 }

/-! ## Types with those nested in them -/

mutual

/-- A type and those nested in it, each before the ones that it encloses. -/
def TypeText.withNested : TypeText → List TypeText
  | .mk header fields methods nested =>
      .mk header fields methods nested :: TypeText.allWithNested nested

/-- Several types and those nested in them. -/
def TypeText.allWithNested : List TypeText → List TypeText
  | [] => []
  | text :: rest => text.withNested ++ TypeText.allWithNested rest
end

theorem TypeText.allWithNested_eq_flatMap (texts : List TypeText) :
    allWithNested texts = texts.flatMap withNested := by
  induction texts with
  | nil =>
      rfl
  | cons text texts inductionHypothesis =>
      rw [allWithNested, inductionHypothesis, List.flatMap_cons]

theorem TypeText.withNested_eq (text : TypeText) :
    text.withNested = text :: allWithNested text.nested := by
  cases text
  rw [withNested]
  rfl

theorem TypeText.allWithNested_append (texts others : List TypeText) :
    allWithNested (texts ++ others) = allWithNested texts ++ allWithNested others := by
  rw [allWithNested_eq_flatMap, allWithNested_eq_flatMap, allWithNested_eq_flatMap,
    List.flatMap_append]

namespace Loading

/-- Does a part of loading keep what holds, whether it fails or not? -/
def Keeps
    {α : Type} (kept : Program → Prop) (loading : Loading α) : Prop :=
  ∀ program, kept program → kept (loading.run program).2

section Parts

variable {kept : Program → Prop} {α β : Type}

theorem keeps_pure (value : α) :
    Keeps kept (pure value : Loading α) :=
  fun _ holds => holds

/-- What comes second may rely on what came first. -/
theorem kept_bind
    {first : Loading α} {next : α → Loading β} {program : Program}
    (between : kept (first.run program).2)
    (keepsNext : ∀ value reached, first.run program = (.ok value, reached) →
      kept reached → kept ((next value).run reached).2) :
    kept ((first >>= next).run program).2 := by
  rw [run_bind]
  rcases ran : first.run program with ⟨failure | value, reached⟩
  · rw [ran] at between
    exact between
  · rw [ran] at between
    exact keepsNext value reached ran between

theorem Keeps.bind
    {first : Loading α} {next : α → Loading β}
    (keepsFirst : Keeps kept first)
    (keepsNext : ∀ value, Keeps kept (next value)) :
    Keeps kept (first >>= next) :=
  fun program holds => kept_bind (keepsFirst program holds)
    fun value reached _ between => keepsNext value reached between

/-- What is done with the graph as it is now. -/
theorem keeps_graph_bind
    {next : Graph → Loading α}
    (keeps : ∀ program, kept program →
      kept ((next program.graph).run program).2) :
    Keeps kept (graph >>= next) := by
  intro program holds
  rw [run_bind]
  exact keeps program holds

/-- A result that may be missing changes nothing. -/
theorem kept_orFail_bind
    {line : Nat} {result : Except TextFault α} {next : α → Loading β}
    {program : Program} (holds : kept program)
    (keeps : ∀ value, result = .ok value → kept ((next value).run program).2) :
    kept ((orFail line result >>= next).run program).2 := by
  cases result with
  | error fault =>
      exact holds
  | ok value =>
      exact keeps value rfl

theorem keeps_forM
    {step : α → Loading Unit} {items : List α}
    (keeps : ∀ item ∈ items, Keeps kept (step item)) :
    Keeps kept (items.forM step) := by
  induction items with
  | nil =>
      exact keeps_pure ()
  | cons item rest inductionHypothesis =>
      obtain ⟨here, later⟩ := List.forall_mem_cons.mp keeps
      exact here.bind fun _ => inductionHypothesis later

theorem keeps_mapM
    {step : α → Loading β} {items : List α}
    (keeps : ∀ item ∈ items, Keeps kept (step item)) :
    Keeps kept (items.mapM step) := by
  induction items with
  | nil =>
      exact keeps_pure []
  | cons item rest inductionHypothesis =>
      obtain ⟨here, later⟩ := List.forall_mem_cons.mp keeps
      rw [List.mapM_cons]
      exact here.bind fun _ =>
        (inductionHypothesis later).bind fun _ => keeps_pure _

end Parts

section Passes

variable {kept : Program → Prop}

theorem keeps_addHeader
    (closed : Program.KeptBetweenMethods kept)
    (enclosing : List TypeId) (header : TypeHeader) :
    Keeps kept (addHeader enclosing header) := by
  refine keeps_graph_bind fun program holds => ?_
  dsimp only
  split
  · exact holds
  · exact closed.addType program (typeDecl enclosing header) holds

mutual

theorem keeps_addType
    (closed : Program.KeptBetweenMethods kept) (enclosing : List TypeId) :
    ∀ text, Keeps kept (addType enclosing text)
  | .mk header _ _ nested => by
      rw [addType]
      exact (keeps_addHeader closed enclosing header).bind fun type =>
        (keeps_addTypes closed (type :: enclosing) nested).bind fun _ =>
          keeps_pure _

theorem keeps_addTypes
    (closed : Program.KeptBetweenMethods kept) (enclosing : List TypeId) :
    ∀ texts, Keeps kept (addTypes enclosing texts)
  | [] => by
      rw [addTypes]
      exact keeps_pure []
  | text :: rest => by
      rw [addTypes]
      exact (keeps_addType closed enclosing text).bind fun _ =>
        (keeps_addTypes closed enclosing rest).bind fun _ => keeps_pure _

end

theorem keeps_addBase
    (closed : Program.KeptBetweenMethods kept)
    (header : TypeHeader) (type : TypeId) :
    Keeps kept (addBase header type) := by
  refine keeps_graph_bind fun program holds => ?_
  cases header.base with
  | none =>
      exact closed.setBase program type (defaultBase header.kind) holds
  | some base =>
      dsimp only
      cases program.graph.definitionOf type base with
      | error fault =>
          exact holds
      | ok parent =>
          exact closed.setBase program type (some parent) holds

theorem keeps_addInterface
    (closed : Program.KeptBetweenMethods kept)
    (line : Nat) (type : TypeId) (text : TypeExpr) :
    Keeps kept (addInterface line type text) := by
  refine keeps_graph_bind fun program holds => ?_
  refine kept_orFail_bind holds fun interface _ => ?_
  split
  · exact closed.addInterface program type interface holds
  · exact holds

theorem keeps_addSupertypes
    (closed : Program.KeptBetweenMethods kept)
    (text : TypeText) (type : TypeId) :
    Keeps kept (addSupertypes text type) :=
  (keeps_addBase closed text.header type).bind fun _ =>
    keeps_forM fun interface _ =>
      keeps_addInterface closed text.header.line type interface

theorem keeps_addField
    (closed : Program.KeptBetweenMethods kept)
    (type : TypeId) (text : FieldText) :
    Keeps kept (addField type text) := by
  refine keeps_graph_bind fun program holds => ?_
  split
  · exact holds
  · exact kept_orFail_bind holds fun signature _ =>
      closed.addField program _ holds

theorem keeps_addMembers
    (closed : Program.KeptBetweenMethods kept)
    (text : TypeText) (type : TypeId)
    (methods : ∀ method ∈ text.methods, Keeps kept (addMethod type method)) :
    Keeps kept (addMembers text type) :=
  (keeps_forM fun field _ => keeps_addField closed type field).bind fun _ =>
    keeps_mapM methods

theorem keeps_loadBody
    (closed : Program.KeptBetweenMethods kept)
    (text : MethodText) (method : MethodId) :
    Keeps kept (loadBody text method) := by
  rw [loadBody]
  cases text.body with
  | none =>
      exact keeps_pure ()
  | some body =>
      refine keeps_graph_bind fun program holds => ?_
      split
      · exact holds
      · rename_i read
        exact closed.setBody program method text.line body _ holds read

mutual

theorem map_fst_addType (enclosing : List TypeId) :
    ∀ (text : TypeText) {program reached : Program} {declared : List (TypeText × TypeId)},
      (addType enclosing text).run program = (.ok declared, reached) →
      declared.map (·.1) = text.withNested
  | .mk header fields methods nested, program, reached, declared, ran => by
      rw [addType] at ran
      obtain ⟨type, between, -, later⟩ := run_bind_eq_ok ran
      obtain ⟨inner, last, there, same⟩ := run_bind_eq_ok later
      cases same
      rw [List.map_cons, map_fst_addTypes _ nested there, TypeText.withNested]

/-- The types that are declared are the ones that were written, with those nested in them. -/
theorem map_fst_addTypes (enclosing : List TypeId) :
    ∀ (texts : List TypeText) {program reached : Program}
      {declared : List (TypeText × TypeId)},
      (addTypes enclosing texts).run program = (.ok declared, reached) →
      declared.map (·.1) = TypeText.allWithNested texts
  | [], program, reached, declared, ran => by
      rw [addTypes] at ran
      cases ran
      rfl
  | text :: rest, program, reached, declared, ran => by
      rw [addTypes] at ran
      obtain ⟨first, between, here, later⟩ := run_bind_eq_ok ran
      obtain ⟨others, last, there, same⟩ := run_bind_eq_ok later
      cases same
      rw [List.map_append, map_fst_addType _ text here, map_fst_addTypes _ rest there,
        TypeText.allWithNested]

end

/-- What no other step breaks is kept if the methods of the texts keep it. -/
theorem keeps_loadTypes_of_methods
    (closed : Program.KeptBetweenMethods kept) {texts : List TypeText}
    (methods : ∀ text ∈ TypeText.allWithNested texts, ∀ method ∈ text.methods,
      ∀ type, Keeps kept (addMethod type method)) :
    Keeps kept (loadTypes texts) := by
  intro program holds
  refine kept_bind (keeps_addTypes closed [] texts program holds)
    fun declared reached ran between => ?_
  have written : ∀ entry ∈ declared, entry.1 ∈ TypeText.allWithNested texts := by
    rw [← map_fst_addTypes [] texts ran]
    exact fun entry member => List.mem_map_of_mem member
  have keeps : Keeps kept (do
      declared.forM fun entry => addSupertypes entry.1 entry.2
      let methods ← declared.mapM fun entry => addMembers entry.1 entry.2
      methods.flatten.forM fun entry => loadBody entry.1 entry.2
      pure { types := declared.map (·.2) } : Loading Module) :=
    (keeps_forM fun (entry : TypeText × TypeId) _ =>
        keeps_addSupertypes closed entry.1 entry.2).bind fun _ =>
      (keeps_mapM fun (entry : TypeText × TypeId) member =>
          keeps_addMembers closed entry.1 entry.2 fun method among =>
            methods entry.1 (written entry member) method among entry.2).bind
        fun methods =>
          (keeps_forM fun (entry : MethodText × MethodId) _ =>
              keeps_loadBody closed entry.1 entry.2).bind fun _ => keeps_pure _
  exact keeps reached between

theorem keeps_addMethod
    (closed : Program.KeptByLoading kept)
    (type : TypeId) (text : MethodText) :
    Keeps kept (addMethod type text) := by
  refine keeps_graph_bind fun program holds => ?_
  refine kept_orFail_bind holds fun decl _ => ?_
  dsimp only
  split
  · exact holds
  · exact closed.addMethod program decl holds

theorem keeps_loadTypes
    (closed : Program.KeptByLoading kept) (texts : List TypeText) :
    Keeps kept (loadTypes texts) :=
  keeps_loadTypes_of_methods closed.toKeptBetweenMethods
    fun _ _ method _ type => keeps_addMethod closed type method

end Passes

end Loading

namespace Program

/-- What no step of loading breaks holds after a text was loaded, or was found to have a fault. -/
theorem kept_load
    {kept : Program → Prop} (closed : KeptByLoading kept)
    {program : Program} (holds : kept program) (text : String) :
    kept (program.load text).2 := by
  unfold load
  split
  · exact holds
  · exact Loading.keeps_loadTypes closed _ program holds

/-- A program that comes from the system library by steps of loading. -/
inductive Loaded : Program → Prop where
  | initial : Loaded .initial
  | addType {program : Program} (decl : TypeDecl) :
      Loaded program →
      Loaded { program with graph := (program.graph.addType decl).1 }
  | setBase {program : Program} (type : TypeId) (base : Option TypeId) :
      Loaded program →
      Loaded { program with graph := program.graph.setBase type base }
  | addInterface {program : Program} (type interface : TypeId) :
      Loaded program →
      Loaded
        { program with graph := program.graph.addInterface type interface }
  | addField {program : Program} (decl : FieldDecl) :
      Loaded program →
      Loaded { program with graph := (program.graph.addField decl).1 }
  | addMethod {program : Program} (decl : MethodDecl) :
      Loaded program →
      Loaded { program with graph := (program.graph.addMethod decl).1 }
  | setBody
      {program : Program} {method : MethodId} {line : Nat}
      {text : BodyText} {body : MethodBody} :
      Loaded program →
      readBody program.graph (program.graph.method method) line text =
          .ok body →
      Loaded (program.setBody method body)

/-- What no step of loading breaks holds of all such programs. -/
theorem Loaded.kept
    (kept : Program → Prop) (closed : KeptByLoading kept)
    (start : kept .initial) {program : Program}
    (loaded : program.Loaded) : kept program := by
  induction loaded with
  | initial =>
      exact start
  | addType decl _ inductionHypothesis =>
      exact closed.addType _ decl inductionHypothesis
  | setBase type base _ inductionHypothesis =>
      exact closed.setBase _ type base inductionHypothesis
  | addInterface type interface _ inductionHypothesis =>
      exact closed.addInterface _ type interface inductionHypothesis
  | addField decl _ inductionHypothesis =>
      exact closed.addField _ decl inductionHypothesis
  | addMethod decl _ inductionHypothesis =>
      exact closed.addMethod _ decl inductionHypothesis
  | setBody _ read inductionHypothesis =>
      exact closed.setBody _ _ _ _ _ inductionHypothesis read

/-- Loading texts one after another, with or without faults, makes such programs. -/
theorem Loaded.load
    {program : Program} (loaded : program.Loaded) (text : String) :
    (program.load text).2.Loaded :=
  kept_load
    { addType := fun _ decl holds => holds.addType decl
      setBase := fun _ type base holds => holds.setBase type base
      addInterface := fun _ type interface holds =>
        holds.addInterface type interface
      addField := fun _ decl holds => holds.addField decl
      addMethod := fun _ decl holds => holds.addMethod decl
      setBody := fun _ _ _ _ _ holds read => holds.setBody read }
    loaded text

namespace Loaded

variable {program : Program}

theorem includesSystem (loaded : program.Loaded) :
    program.graph.IncludesSystem :=
  loaded.kept (fun program => program.graph.IncludesSystem)
    { addType := fun _ decl holds => holds.addType decl
      setBase := fun _ type base holds => holds.setBase type base
      addInterface := fun _ type interface holds =>
        holds.addInterface type interface
      addField := fun _ decl holds => holds.addField decl
      addMethod := fun _ decl holds => holds.addMethod decl
      setBody := fun _ _ _ _ _ holds _ => holds }
    Graph.includesSystem_system

theorem namesSystemTypes (loaded : program.Loaded) :
    program.graph.NamesSystemTypes :=
  loaded.kept (fun program => program.graph.NamesSystemTypes)
    { addType := fun _ decl holds => holds.addType decl
      setBase := fun _ type base holds => holds.setBase type base
      addInterface := fun _ type interface holds =>
        holds.addInterface type interface
      addField := fun _ decl holds => holds.addField decl
      addMethod := fun _ decl holds => holds.addMethod decl
      setBody := fun _ _ _ _ _ holds _ => holds }
    Graph.namesSystemTypes_system

/-- Every body of such a program was read. -/
theorem exists_readBody
    (loaded : program.Loaded) {method : MethodId} {body : MethodBody}
    (present : program.bodies.get? method = some body) :
    ∃ graph decl line text, readBody graph decl line text = .ok body := by
  suffices all : ∀ method body, program.bodies.get? method = some body →
      ∃ graph decl line text, readBody graph decl line text = .ok body by
    exact all method body present
  refine loaded.kept
    (fun program => ∀ method body, program.bodies.get? method = some body →
      ∃ graph decl line text, readBody graph decl line text = .ok body)
    { addType := fun _ _ holds => holds
      setBase := fun _ _ _ holds => holds
      addInterface := fun _ _ _ holds => holds
      addField := fun _ _ holds => holds
      addMethod := fun _ _ holds => holds
      setBody := ?_ } ?_
  · intro program owner line text read holds went method body present
    by_cases here : method = owner
    · subst here
      rw [Program.setBody, Bodies.get?_set_self] at present
      cases present
      exact ⟨_, _, _, _, went⟩
    · rw [Program.setBody, Bodies.get?_set_of_ne _ _ here] at present
      exact holds method body present
  · intro method body present
    rw [Program.initial, Bodies.get?_empty] at present
    cases present

theorem asRead
    (loaded : program.Loaded) {method : MethodId} {body : MethodBody}
    (present : program.bodies.get? method = some body) : body.AsRead := by
  obtain ⟨_, _, _, _, went⟩ := loaded.exists_readBody present
  exact asRead_of_readBody went

end Loaded

end Program

/-! ## A program that gives its argument back -/

namespace EchoProgram

/-- A class with a method that takes a text and gives one back. -/
def graph : Graph :=
  ((Graph.system.addType
      { name := "Sample", access := { isPublic := true } }).1.addMethod
    { owner := ⟨17⟩
      name := "Echo"
      access := { isPublic := true, isStatic := true }
      parameters := [{ name := "text", type := .named SystemLibrary.string }]
      returnType := .named SystemLibrary.string }).1

def echo : MethodId := ⟨13⟩

/-- The method stores its argument and gives it back, each on a line of its own. -/
def text : BodyText where
  locals := [(.named "string", "copy")]
  items :=
    [.point 1 "Echo.cs" (some ⟨3, 5, 3, 16⟩),
      .instruction 2 "ldarg" [.name "text"],
      .instruction 3 "stloc" [.name "copy"],
      .point 4 "Echo.cs" (some ⟨4, 5, 4, 16⟩),
      .instruction 5 "ldloc" [.name "copy"],
      .instruction 6 "ret" []]

def body : MethodBody :=
  ((readBody graph (graph.method echo) 1 text).toOption).getD {}

def program : Program :=
  ({ graph } : Program).setBody echo body

theorem body_read :
    readBody graph (graph.method echo) 1 text = .ok body := by
  have well :
      (readBody graph (graph.method echo) 1 text).isOk = true := by
    decide +kernel
  unfold body
  cases read : readBody graph (graph.method echo) 1 text with
  | error failure =>
      rw [read] at well
      cases well
  | ok body =>
      rfl

theorem loaded : program.Loaded :=
  ((Program.Loaded.initial.addType _).addMethod _).setBody body_read

end EchoProgram

end NullWeave
