import NullWeave.Proofs.Text.LoadedMethods
import NullWeave.Proofs.Text.NestedPlaces
import NullWeave.Proofs.Text.RereadBodies
import NullWeave.Proofs.Weave.ReachedPrograms

/-!
# What loading a module again keeps

A module that was loaded, and then woven or not, is printed and loaded into a
program with the system library alone.  If that goes well, its types and their
methods come in the same order, and every method has a body that is laid out as
before, if it had one.  Only what handlers catch is looked up by name again, and
may be another type then, one whose name captures the full name that was written.
-/

namespace NullWeave

namespace Program

/-! ## Methods -/

/--
Is a method loaded again as another one: under its name, with its modifiers and with a body that is
laid out alike?
-/
structure ReloadsAs (program reloaded : Program) (method again : MethodId) : Prop where
  name : (reloaded.graph.method again).name = (program.graph.method method).name
  access : (reloaded.graph.method again).access = (program.graph.method method).access
  outline : (reloaded.bodies.get? again).map MethodBody.outline =
    (program.bodies.get? method).map MethodBody.outline
  placed : ∀ body ∈ program.bodies.get? method, body.outline.IsPlaced
  /-- A type that is caught is what its full name means to the method. -/
  caught : ∀ body ∈ program.bodies.get? method, ∀ bodyToo ∈ reloaded.bodies.get? again,
    List.Forall₂ (fun handler handlerToo =>
        handler.kind.FoundAs program.graph reloaded.graph (reloaded.graph.method again).owner
          handlerToo.kind)
      body.handlers bodyToo.handlers

variable {program reloaded : Program}

/-- A method that is declared as another one is shown is loaded again as that one. -/
theorem ShowsMethod.reloadsAs (intact : program.Intact) {method again : MethodId}
    {text : MethodText} (shows : program.ShowsMethod method text)
    (declares : reloaded.Declares again text) : program.ReloadsAs reloaded method again := by
  have name := declares.name.trans shows.name
  have access := declares.access.trans shows.access
  cases present : program.bodies.get? method with
  | none =>
      have missing := declares.noBody (shows.noBody present)
      exact ⟨name, access, by rw [missing, present], by simp [present], by simp [missing]⟩
  | some body =>
      obtain ⟨bodyText, written, showsBody⟩ := shows.body body present
      obtain ⟨bodyToo, presentToo, read⟩ := declares.body bodyText written
      have placed := intact.placed method body present
      obtain ⟨outline, caught⟩ := showsBody.outline_eq intact.spelled placed.wellFormed.resolved
        placed.wellFormed.distinct placed.present placed.ordered read
      refine ⟨name, access, ?_, ?_, ?_⟩
      · rw [presentToo, present]
        exact congrArg some outline
      · rw [present]
        rintro _ ⟨⟩
        exact placed.isPlaced_outline
      · rw [present, presentToo]
        rintro _ ⟨⟩ _ ⟨⟩
        exact caught

/-! ## Loaded modules -/

/-- What is known of a module that was loaded, whatever was done with its program since. -/
structure HoldsModule (program : Program) (module : Module) : Prop where
  preorder : program.preorder module = module.types
  hasBody : ∀ type ∈ module.types, ∀ method ∈ program.graph.methodsOf type,
    (program.bodies.get? method).isSome = !(program.graph.method method).access.isAbstract

/-- Only methods that are declared have bodies. -/
theorem Intact.fresh (intact : program.Intact) (method : MethodId)
    (new : program.graph.methods.size ≤ method.index) : program.bodies.get? method = none :=
  Option.eq_none_iff_forall_ne_some.mpr fun body present =>
    Nat.not_lt.mpr new (intact.owned method body present)

/-- A text that is accepted is what was read of it, loaded pass by pass. -/
theorem exists_loads_of_load (intact : program.Intact) {text : String} {module : Module}
    (loaded : program.load text = (.ok module, reloaded)) :
    ∃ texts, readModule text = .ok texts ∧ ∃ loads : Loading.Loads program.graph texts,
      loads.Sound ∧ module = loads.module ∧ reloaded = loads.reached program.bodies := by
  rw [load] at loaded
  split at loaded
  · cases loaded
  · rename_i texts read
    exact ⟨texts, read, (Loading.loadTypes_eq_ok_iff intact.named).mp loaded⟩

/-- A module that was loaded is held by all that is reached from there. -/
theorem holdsModule_of_load {earlier between : Program} (intact : earlier.Intact) {text : String}
    {module : Module} (loaded : earlier.load text = (.ok module, between))
    (reaches : between.Reaches program) : program.HoldsModule module := by
  obtain ⟨texts, read, loads, sound, rfl, rfl⟩ := exists_loads_of_load intact loaded
  have keeps := reaches.keeps
  have declares := sound.declares intact.named.members intact.fresh
  have due := hasDue_of_readModule read
  have known : ∀ type ∈ loads.module.types,
      (loads.reached earlier.bodies).graph.HasType type := fun type member => by
    rw [loads.graph_reached]
    exact (loads.mem_module_types_iff.mp member).1
  refine ⟨?_, fun type member method among => ?_⟩
  · refine loads.preorder_module intact.named.types (fun type member => ?_)
      (fun type member => ?_) ?_
    · rw [keeps.enclosing type (known type member), loads.graph_reached]
    · rw [keeps.nestedTypes type (known type member), loads.graph_reached]
    · rw [← loads.graph_reached earlier.bodies]
      exact keeps.types
  · rw [keeps.methodsOf type (known type member)] at among
    obtain ⟨decl, body⟩ := keeps.method type (known type member) method among
    rw [decl, body]
    obtain ⟨typeText, amongTexts, methods⟩ := exists_mem_left declares.flip member
    obtain ⟨methodText, written, declared⟩ := exists_mem_left methods.flip among
    rw [declared.isSome_body, due typeText amongTexts methodText written, declared.access]

/-- Every method of a module that was loaded can be read again when it is printed. -/
theorem HoldsModule.printsMethod (intact : program.Intact) {module : Module}
    (holds : program.HoldsModule module) {type : TypeId} (member : type ∈ module.types)
    {method : MethodId} (among : method ∈ program.graph.methodsOf type) :
    program.PrintsMethod method where
  known := intact.named.members.methods _ (Graph.method_mem
    ((program.graph.mem_methodsOf type method).mp among).1)
  marks := (intact.marked.method method).returnAttributes
  hasBody := holds.hasBody type member method among
  distinct body present := (intact.placed method body present).wellFormed.distinct

theorem Intact.printable (intact : program.Intact) : program.Printable where
  spelled := intact.spelled
  members := intact.named.members
  marked := intact.marked
  bodies method body present := Graph.knowsBody_iff.mpr (intact.named.bodies method body present)

/-! ## Modules that are loaded again -/

/-- A printed module is loaded into a program with the system library alone. -/
def reload (program : Program) (module : Module) : Except TextError Module × Program :=
  Program.initial.load (program.print module)

/--
Printing keeps control flow and debug points.

A module that was loaded, whatever was loaded and woven before and after, and that is accepted when
it is printed and loaded again, has the same types with the same methods then.  Each method has a
body exactly if it had one, and the bodies have the same outline.  What a handler catches is what
its full name means where it was printed.
-/
theorem methods_reloadAs {earlier between : Program} (reached : Program.initial.Reaches earlier)
    {text : String} {module again : Module} (loaded : earlier.load text = (.ok module, between))
    (reaches : between.Reaches program)
    (loadedAgain : program.reload module = (.ok again, reloaded)) :
    List.Forall₂
      (fun type typeToo => List.Forall₂ (program.ReloadsAs reloaded)
        (program.graph.methodsOf type) (reloaded.graph.methodsOf typeToo))
      module.types again.types := by
  have intactEarlier := reached.intact .initial
  have intactBetween : between.Intact := by
    have step := Step.load earlier text
    rw [loaded] at step
    exact Reaches.intact (.single step) intactEarlier
  have intact := reaches.intact intactBetween
  have holds := holdsModule_of_load intactEarlier loaded reaches
  obtain ⟨texts, read, loads, sound, rfl, rfl⟩ :=
    exists_loads_of_load Intact.initial loadedAgain
  have declares := sound.declares Intact.initial.named.members Intact.initial.fresh
  have size : program.graph.types.size ≠ 0 := fun empty =>
    absurd intact.named.types.size (by rw [empty]; decide)
  have prints : ∀ type ∈ program.preorder module, ∀ method ∈ program.graph.methodsOf type,
      program.PrintsMethod method := by
    rw [holds.preorder]
    exact fun type member method among => holds.printsMethod intact member among
  have shows := intact.printable.showsMethods size prints read
  rw [holds.preorder] at shows
  refine (forall₂_comp shows declares.flip).imp ?_
  rintro type typeToo ⟨typeText, showsMethods, declaresMethods⟩
  refine (forall₂_comp showsMethods declaresMethods.flip).imp ?_
  rintro method methodToo ⟨methodText, here, there⟩
  exact here.reloadsAs intact there

/-- A method that does nothing but go on. -/
def loopingText : String :=
  ".class public S\n.method public static void M(string t)\na: br.s a\n.end\n.end\n"

/-- The class with that method. -/
def loopingModule : Module := { types := [⟨17⟩] }

/-- The program with that method. -/
def looping : Program := (Program.initial.load loopingText).2

/-- The program with a guard of the argument in front of the loop. -/
def wovenLooping : Program := (looping.weave {} loopingModule).program

/-- With a guard in front of the loop, the method is loaded again as it is laid out. -/
theorem methods_reloadAs_wovenLooping :
    Program.initial.load loopingText = (.ok loopingModule, looping) ∧
      (looping.weave {} loopingModule).report.guardsInjected = 1 ∧
      (wovenLooping.reload loopingModule).1 = .ok loopingModule ∧
      List.Forall₂
        (fun type typeToo =>
          List.Forall₂ (wovenLooping.ReloadsAs (wovenLooping.reload loopingModule).2)
            (wovenLooping.graph.methodsOf type)
            ((wovenLooping.reload loopingModule).2.graph.methodsOf typeToo))
        loopingModule.types loopingModule.types := by
  have accepted : (Program.initial.load loopingText).1 = .ok loopingModule ∧
      (looping.weave {} loopingModule).report.guardsInjected = 1 ∧
      (wovenLooping.reload loopingModule).1 = .ok loopingModule := by
    decide +kernel
  obtain ⟨first, guarded, second⟩ := accepted
  have loaded : Program.initial.load loopingText = (.ok loopingModule, looping) :=
    Prod.fst_eq_iff.mp first
  have woven : looping.Reaches wovenLooping := .single (.weave looping {} loopingModule)
  exact ⟨loaded, guarded, second,
    methods_reloadAs .refl loaded woven (Prod.fst_eq_iff.mp second)⟩

/-- The full names of the types that the handlers of a method catch. -/
def caughtNames (program : Program) (method : MethodId) : List String :=
  ((program.bodies.get? method).elim [] (·.handlers)).filterMap fun handler =>
    handler.kind.caught?.map program.graph.typeName

/-- A method that catches a class of its namespace, beside a class with a longer name. -/
def catchingText : String :=
  ".class public N.X\n.end\n.class public N.N.X\n.end\n.class public N.S\n" ++
    ".method public static void M()\n.try try to catch catch X handler catch to end\n" ++
    "try: leave end\ncatch: pop\nleave end\nend: ret\n.end\n.end\n"

/-- The program with that method. -/
def catching : Program := (Program.initial.load catchingText).2

/-- The three classes. -/
def catchingModule : Module := { types := [⟨17⟩, ⟨18⟩, ⟨19⟩] }

/-- Loaded again, the handler catches the class with the longer name. -/
theorem caughtNames_of_reload_catching :
    (Program.initial.load catchingText).1 = .ok catchingModule ∧
      (catching.reload catchingModule).1 = .ok catchingModule ∧
      (catchingModule.methods catching.graph).map catching.caughtNames = [["N.X"]] ∧
      (catchingModule.methods (catching.reload catchingModule).2.graph).map
        (catching.reload catchingModule).2.caughtNames = [["N.N.X"]] := by
  decide +kernel

end Program

end NullWeave
