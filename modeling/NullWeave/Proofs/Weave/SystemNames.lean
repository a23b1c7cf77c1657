import NullWeave.Proofs.Weave.GuardDepth

/-!
# The names of the system library

The types of the system library keep their names in every graph: they are
declared first, and nothing that is added or said about them later renames
them.  So the constructors of exceptions that guards call have the full names
that they have in the system library, and these are all different.
-/

namespace NullWeave

namespace Graph

/-- A graph that names the types of the system library as the system library does. -/
structure NamesSystemTypes (graph : Graph) : Prop where
  size : system.types.size ≤ graph.types.size
  names : ∀ type : TypeId, type.index < system.types.size →
    (graph.type type).enclosing = (system.type type).enclosing ∧
      (graph.type type).space = (system.type type).space ∧
      (graph.type type).name = (system.type type).name

/-! Nothing that is added to a graph, and nothing that is said about a type later, renames one. -/

theorem namesSystemTypes_system : system.NamesSystemTypes where
  size := Nat.le_refl _
  names _ _ := ⟨rfl, rfl, rfl⟩

namespace NamesSystemTypes

variable {graph : Graph}

theorem addMethod (names : graph.NamesSystemTypes) (decl : MethodDecl) :
    (graph.addMethod decl).1.NamesSystemTypes :=
  ⟨names.size, names.names⟩

theorem addField (names : graph.NamesSystemTypes) (decl : FieldDecl) :
    (graph.addField decl).1.NamesSystemTypes :=
  ⟨names.size, names.names⟩

theorem addType (names : graph.NamesSystemTypes) (decl : TypeDecl) :
    (graph.addType decl).1.NamesSystemTypes where
  size := by
    have size := names.size
    simp only [Graph.addType, Array.size_push]
    omega
  names type known := by
    rw [graph.type_addType_of_lt decl
      (Nat.lt_of_lt_of_le known names.size)]
    exact names.names type known

/-- Changing a declaration without renaming it. -/
theorem modify
    (names : graph.NamesSystemTypes) (index : Nat)
    {change : TypeDecl → TypeDecl}
    (keeps : ∀ decl, (change decl).enclosing = decl.enclosing ∧
      (change decl).space = decl.space ∧ (change decl).name = decl.name) :
    { graph with
      types := graph.types.modify index change }.NamesSystemTypes where
  size := by
    rw [Array.size_modify]
    exact names.size
  names type known := by
    have inside := Nat.lt_of_lt_of_le known names.size
    obtain ⟨enclosing, space, name⟩ := names.names type known
    rw [← enclosing, ← space, ← name]
    by_cases here : index = type.index <;>
      simp [Graph.type, inside, Array.getElem_modify, here, keeps]

theorem setBase
    (names : graph.NamesSystemTypes)
    (type : TypeId) (base : Option TypeId) :
    (graph.setBase type base).NamesSystemTypes :=
  names.modify type.index fun _ => ⟨rfl, rfl, rfl⟩

theorem addInterface
    (names : graph.NamesSystemTypes) (type interface : TypeId) :
    (graph.addInterface type interface).NamesSystemTypes :=
  names.modify type.index fun _ => ⟨rfl, rfl, rfl⟩

/-- No type of the system library is nested, so its full name is in its own declaration. -/
theorem typeName_eq
    (names : graph.NamesSystemTypes) {type : TypeId}
    (known : type.index < system.types.size)
    (outermost : (system.type type).enclosing = []) :
    graph.typeName type = system.typeName type := by
  obtain ⟨enclosing, space, name⟩ := names.names type known
  rw [typeName, typeName, enclosing, outermost, fullNameWithin,
    fullNameWithin, TypeDecl.outermostName, TypeDecl.outermostName, space,
    name]

end NamesSystemTypes

/-! ## Constructors -/

section Constructors

variable {graph : Graph}

/-- The full names of the constructors of the system library that take texts. -/
theorem methodName_eq_of_texts
    (includes : graph.IncludesSystem) (names : graph.NamesSystemTypes)
    {method : MethodId} {owner : TypeId} {texts : List String}
    (known : method.index < system.methods.size)
    (decl : system.method method =
      SystemLibrary.constructor owner (texts.map fun text =>
        SystemLibrary.plainParameter text (.named SystemLibrary.string)))
    (ownerKnown : owner.index < system.types.size)
    (outermost : (system.type owner).enclosing = []) :
    graph.methodName method = system.methodName method := by
  have string :
      graph.typeName SystemLibrary.string =
        system.typeName SystemLibrary.string :=
    names.typeName_eq (by decide) rfl
  rw [methodName, methodName, includes.methods method known, decl]
  simp [SystemLibrary.constructor, SystemLibrary.plainParameter,
    parameterNames, sigName, names.typeName_eq ownerKnown outermost,
    string, Function.comp_def]

theorem methodName_argumentNullInit
    (includes : graph.IncludesSystem) (names : graph.NamesSystemTypes) :
    graph.methodName SystemLibrary.argumentNullInit =
      "System.Void System.ArgumentNullException::.ctor(System.String)" := by
  rw [methodName_eq_of_texts includes names (by decide)
    (show _ = SystemLibrary.constructor _ (["paramName"].map _) from rfl)
    (by decide) rfl]
  decide

theorem methodName_argumentNullInitMessage
    (includes : graph.IncludesSystem) (names : graph.NamesSystemTypes) :
    graph.methodName SystemLibrary.argumentNullInitMessage =
      "System.Void System.ArgumentNullException::.ctor(System.String,System.String)" := by
  rw [methodName_eq_of_texts includes names (by decide)
    (show _ = SystemLibrary.constructor _
      (["paramName", "message"].map _) from rfl)
    (by decide) rfl]
  decide

theorem methodName_invalidOperationInit
    (includes : graph.IncludesSystem) (names : graph.NamesSystemTypes) :
    graph.methodName SystemLibrary.invalidOperationInit =
      "System.Void System.InvalidOperationException::.ctor(System.String)" := by
  rw [methodName_eq_of_texts includes names (by decide)
    (show _ = SystemLibrary.constructor _ (["message"].map _) from rfl)
    (by decide) rfl]
  decide

end Constructors

end Graph

end NullWeave
