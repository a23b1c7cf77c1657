import Mathlib.Logic.Equiv.Basic
import NullWeave.Proofs.Text.TypeNames

/-!
# Types under other identities

Two graphs may hold the same types in another order.  Then a change of
identities takes each type of the one graph to a type of the other that has the
same names, is of the same kind and lies in the same types.  Where such a change
is known, whatever is looked up by name is found in both graphs, at identities
that the change takes to each other, and a lookup that fails in one graph fails
in the other in the same way.
-/

namespace NullWeave

/-! ## Changing identities -/

mutual

/-- A signature with its types under other identities. -/
def Signature.rename (change : TypeId → TypeId) : Signature → Signature
  | .void => .void
  | .named type => .named (change type)
  | .param name isValueType => .param name isValueType
  | .byRef element => .byRef (element.rename change)
  | .array element => .array (element.rename change)
  | .generic type arguments => .generic (change type) (Signature.renameAll change arguments)

/-- Several signatures with their types under other identities. -/
def Signature.renameAll (change : TypeId → TypeId) : List Signature → List Signature
  | [] => []
  | signature :: rest => signature.rename change :: Signature.renameAll change rest
end

@[simp]
theorem Signature.renameAll_eq_map (change : TypeId → TypeId) (signatures : List Signature) :
    Signature.renameAll change signatures = signatures.map (Signature.rename change) := by
  induction signatures with
  | nil =>
      rfl
  | cons signature rest inductionHypothesis =>
      rw [Signature.renameAll, inductionHypothesis, List.map_cons]

mutual

@[simp]
theorem Signature.rename_id : ∀ signature : Signature, signature.rename id = signature
  | .void | .named _ | .param _ _ => rfl
  | .byRef element => by rw [Signature.rename, Signature.rename_id element]
  | .array element => by rw [Signature.rename, Signature.rename_id element]
  | .generic type arguments => by
      rw [Signature.rename, Signature.renameAll_id arguments, id]

theorem Signature.renameAll_id :
    ∀ signatures : List Signature, Signature.renameAll id signatures = signatures
  | [] => rfl
  | signature :: rest => by
      rw [Signature.renameAll, Signature.rename_id signature, Signature.renameAll_id rest]

end

/-- A declaration of a type with the types that it refers to under other identities. -/
def TypeDecl.rename (change : TypeId → TypeId) (decl : TypeDecl) : TypeDecl :=
  { decl with
    enclosing := decl.enclosing.map change
    base := decl.base.map change
    interfaces := decl.interfaces.map change }

/-- A parameter with the types that it refers to under other identities. -/
def Parameter.rename (change : TypeId → TypeId) (parameter : Parameter) : Parameter :=
  { parameter with type := parameter.type.rename change }

/-- A declaration of a method with the types that it refers to under other identities. -/
def MethodDecl.rename (change : TypeId → TypeId) (decl : MethodDecl) : MethodDecl :=
  { decl with
    owner := change decl.owner
    returnType := decl.returnType.rename change
    parameters := decl.parameters.map (Parameter.rename change) }

/-- A declaration of a field with the types that it refers to under other identities. -/
def FieldDecl.rename (change : TypeId → TypeId) (decl : FieldDecl) : FieldDecl :=
  { decl with owner := change decl.owner, type := decl.type.rename change }

@[simp]
theorem Parameter.rename_id (parameter : Parameter) : parameter.rename id = parameter := by
  rw [Parameter.rename, Signature.rename_id]

@[simp]
theorem MethodDecl.rename_id (decl : MethodDecl) : decl.rename id = decl := by
  rw [MethodDecl.rename, Signature.rename_id, funext Parameter.rename_id, List.map_id']
  rfl

@[simp]
theorem FieldDecl.rename_id (decl : FieldDecl) : decl.rename id = decl := by
  rw [FieldDecl.rename, Signature.rename_id]
  rfl

@[simp]
theorem MethodDecl.hasReceiver_rename (change : TypeId → TypeId) (decl : MethodDecl) :
    (decl.rename change).hasReceiver = decl.hasReceiver := rfl

namespace Graph

/-! ## The same names under other identities -/

/--
Does a change of identities take the types of a graph to those of another one,
with their names?

The types of the system library keep their identities, since words mean them.
-/
structure NamedAlike (change : Equiv.Perm TypeId) (graph other : Graph) : Prop where
  size : other.types.size = graph.types.size
  hasType : ∀ type, other.HasType (change type) ↔ graph.HasType type
  name : ∀ type, (other.type (change type)).name = (graph.type type).name
  space : ∀ type, (other.type (change type)).space = (graph.type type).space
  enclosing : ∀ type,
    (other.type (change type)).enclosing = (graph.type type).enclosing.map change
  kind : ∀ type, (other.type (change type)).kind = (graph.type type).kind
  genericParameters : ∀ type,
    (other.type (change type)).genericParameters = (graph.type type).genericParameters
  library : ∀ type, system.HasType type → change type = type

theorem type_modify (graph : Graph) (index : Nat) (say : TypeDecl → TypeDecl)
    (type : TypeId) :
    Graph.type { graph with types := graph.types.modify index say } type =
      if index = type.index ∧ type.index < graph.types.size then say (graph.type type)
      else graph.type type := by
  by_cases known : type.index < graph.types.size <;>
    by_cases here : index = type.index <;>
      simp [Graph.type, Array.getElem_modify, known, here]

namespace NamedAlike

variable {change : Equiv.Perm TypeId} {graph other : Graph}

/-- Graphs with the same types have the same names. -/
theorem of_types (same : other.types = graph.types) :
    graph.NamedAlike (Equiv.refl TypeId) other where
  size := by rw [same]
  hasType _ := by rw [HasType, same]; rfl
  name _ := by rw [Graph.type, same]; rfl
  space _ := by rw [Graph.type, same]; rfl
  enclosing _ := by rw [Graph.type, same]; exact (List.map_id _).symm
  kind _ := by rw [Graph.type, same]; rfl
  genericParameters _ := by rw [Graph.type, same]; rfl
  library _ _ := rfl

/-- What is said about the supertypes of a type leaves its names. -/
theorem modify (graph : Graph) (index : Nat) {say : TypeDecl → TypeDecl}
    (keeps : ∀ decl, (say decl).name = decl.name ∧ (say decl).space = decl.space ∧
      (say decl).enclosing = decl.enclosing ∧ (say decl).kind = decl.kind ∧
        (say decl).genericParameters = decl.genericParameters) :
    graph.NamedAlike (Equiv.refl TypeId)
      { graph with types := graph.types.modify index say } where
  size := by simp
  hasType _ := by simp [HasType]
  name type := by
    rw [Equiv.refl_apply, type_modify]
    split <;> [exact (keeps _).1; rfl]
  space type := by
    rw [Equiv.refl_apply, type_modify]
    split <;> [exact (keeps _).2.1; rfl]
  enclosing type := by
    rw [Equiv.refl_apply, type_modify, Equiv.coe_refl, List.map_id]
    split <;> [exact (keeps _).2.2.1; rfl]
  kind type := by
    rw [Equiv.refl_apply, type_modify]
    split <;> [exact (keeps _).2.2.2.1; rfl]
  genericParameters type := by
    rw [Equiv.refl_apply, type_modify]
    split <;> [exact (keeps _).2.2.2.2; rfl]
  library _ _ := rfl

theorem trans {last : Graph} {further : Equiv.Perm TypeId}
    (first : graph.NamedAlike change other) (second : other.NamedAlike further last) :
    graph.NamedAlike (change.trans further) last where
  size := second.size.trans first.size
  hasType type := (second.hasType (change type)).trans (first.hasType type)
  name type := (second.name (change type)).trans (first.name type)
  space type := (second.space (change type)).trans (first.space type)
  enclosing type := by
    rw [Equiv.trans_apply, second.enclosing, first.enclosing, List.map_map]
    rfl
  kind type := (second.kind (change type)).trans (first.kind type)
  genericParameters type :=
    (second.genericParameters (change type)).trans (first.genericParameters type)
  library type known := by
    rw [Equiv.trans_apply, first.library type known, second.library type known]

/-! ### Names -/

theorem fullNameWithin (alike : graph.NamedAlike change other) {decl otherDecl : TypeDecl}
    (name : otherDecl.name = decl.name) (space : otherDecl.space = decl.space)
    (enclosing : List TypeId) :
    other.fullNameWithin otherDecl (enclosing.map change) =
      graph.fullNameWithin decl enclosing := by
  induction enclosing generalizing decl otherDecl with
  | nil =>
      rw [List.map_nil, Graph.fullNameWithin, Graph.fullNameWithin, TypeDecl.outermostName,
        TypeDecl.outermostName, name, space]
  | cons inner outer inductionHypothesis =>
      rw [List.map_cons, Graph.fullNameWithin, Graph.fullNameWithin, name,
        inductionHypothesis (alike.name inner) (alike.space inner)]

@[simp]
theorem typeName (alike : graph.NamedAlike change other) (type : TypeId) :
    other.typeName (change type) = graph.typeName type := by
  rw [Graph.typeName, Graph.typeName, alike.enclosing]
  exact alike.fullNameWithin (alike.name type) (alike.space type) _

mutual

theorem sigName (alike : graph.NamedAlike change other) :
    ∀ signature : Signature,
      other.sigName (signature.rename change) = graph.sigName signature
  | .void | .param _ _ => rfl
  | .named type => alike.typeName type
  | .byRef element => by
      rw [Signature.rename, Graph.sigName, Graph.sigName, alike.sigName element]
  | .array element => by
      rw [Signature.rename, Graph.sigName, Graph.sigName, alike.sigName element]
  | .generic type arguments => by
      rw [Signature.rename, Graph.sigName, Graph.sigName, alike.typeName,
        alike.sigNames arguments]

theorem sigNames (alike : graph.NamedAlike change other) :
    ∀ signatures : List Signature,
      other.sigNames (Signature.renameAll change signatures) = graph.sigNames signatures
  | [] => rfl
  | signature :: rest => by
      rw [Signature.renameAll, Graph.sigNames, Graph.sigNames, alike.sigName signature,
        alike.sigNames rest]

end

@[simp]
theorem parameterNames (alike : graph.NamedAlike change other) (decl : MethodDecl) :
    other.parameterNames (decl.rename change) = graph.parameterNames decl := by
  rw [Graph.parameterNames, Graph.parameterNames, MethodDecl.rename, List.map_map]
  exact List.map_congr_left fun parameter _ => alike.sigName parameter.type

theorem sameMethodSignature (alike : graph.NamedAlike change other) (left right : MethodDecl) :
    other.sameMethodSignature (left.rename change) (right.rename change) =
      graph.sameMethodSignature left right := by
  rw [Graph.sameMethodSignature, Graph.sameMethodSignature, alike.parameterNames,
    alike.parameterNames]
  rfl

/-- Full names that belong to one type each do so under other identities. -/
theorem namesApart (alike : graph.NamedAlike change other) (apart : graph.NamesApart) :
    other.NamesApart := by
  intro left right known knownToo same
  obtain ⟨left, rfl⟩ := change.surjective left
  obtain ⟨right, rfl⟩ := change.surjective right
  rw [alike.typeName, alike.typeName] at same
  rw [apart left right ((alike.hasType left).mp known) ((alike.hasType right).mp knownToo) same]

theorem typeNamed? (alike : graph.NamedAlike change other) (apart : graph.NamesApart)
    (name : String) : other.typeNamed? name = (graph.typeNamed? name).map change := by
  apply Option.ext
  intro type
  obtain ⟨type, rfl⟩ := change.surjective type
  rw [(alike.namesApart apart).typeNamed?_eq_some_iff, alike.hasType, alike.typeName,
    Option.map_eq_some_iff]
  simp only [change.injective.eq_iff, exists_eq_right, apart.typeNamed?_eq_some_iff]

/-! ### Lookups -/

theorem namesBeside (alike : graph.NamedAlike change other) (name : String) (type : TypeId) :
    other.namesBeside name (change type) = graph.namesBeside name type := by
  rw [Graph.namesBeside, Graph.namesBeside, alike.typeName, alike.space, alike.enclosing,
    List.isEmpty_map]

theorem namesInScope (alike : graph.NamedAlike change other) (scope : TypeId) (name : String) :
    other.namesInScope (change scope) name = graph.namesInScope scope name := by
  rw [Graph.namesInScope, Graph.namesInScope, alike.enclosing, ← List.map_cons,
    List.flatMap_map]
  simp only [alike.namesBeside]

theorem typeInScope (alike : graph.NamedAlike change other) (apart : graph.NamesApart)
    (scope : TypeId) (name : String) :
    other.typeInScope (change scope) name = change <$> graph.typeInScope scope name := by
  unfold Graph.typeInScope
  cases word : systemWord? name with
  | some type =>
      exact congrArg Except.ok (alike.library type (hasType_system_of_systemWord? word)).symm
  | none =>
      have lookup : other.typeNamed? = Option.map change ∘ graph.typeNamed? :=
        funext (alike.typeNamed? apart)
      dsimp only
      rw [alike.namesInScope, lookup, ← List.map_findSome?]
      cases (graph.namesInScope scope name).findSome? graph.typeNamed? <;> rfl

mutual

theorem resolve (alike : graph.NamedAlike change other) (apart : graph.NamesApart)
    (scope : TypeId) :
    ∀ text : TypeExpr,
      other.resolve (change scope) text =
        Signature.rename change <$> graph.resolve scope text
  | .void | .param _ _ => rfl
  | .named name => by
      rw [Graph.resolve, Graph.resolve, alike.typeInScope apart]
      cases graph.typeInScope scope name <;> rfl
  | .byRef element => by
      rw [Graph.resolve, Graph.resolve, alike.resolve apart scope element]
      cases graph.resolve scope element <;> rfl
  | .array element => by
      rw [Graph.resolve, Graph.resolve, alike.resolve apart scope element]
      cases graph.resolve scope element <;> rfl
  | .generic name arguments => by
      rw [Graph.resolve, Graph.resolve, alike.typeInScope apart]
      cases graph.typeInScope scope name with
      | error fault =>
          rfl
      | ok type =>
          change (if (other.type (change type)).genericParameters.length ≠ arguments.length then
            _ else _ : Except TextFault Signature) = _ <$> (if _ then _ else _)
          rw [alike.genericParameters, alike.signaturesOf apart scope arguments]
          by_cases takes : (graph.type type).genericParameters.length ≠ arguments.length
          · rw [if_pos takes, if_pos takes]
            rfl
          · rw [if_neg takes, if_neg takes]
            cases graph.signaturesOf scope arguments <;> rfl

theorem signaturesOf (alike : graph.NamedAlike change other) (apart : graph.NamesApart)
    (scope : TypeId) :
    ∀ texts : List TypeExpr,
      other.signaturesOf (change scope) texts =
        Signature.renameAll change <$> graph.signaturesOf scope texts
  | [] => rfl
  | text :: rest => by
      rw [Graph.signaturesOf, Graph.signaturesOf, alike.resolve apart scope text,
        alike.signaturesOf apart scope rest]
      cases graph.resolve scope text <;> cases graph.signaturesOf scope rest <;> rfl

end

theorem definitionOf (alike : graph.NamedAlike change other) (apart : graph.NamesApart)
    (scope : TypeId) (text : TypeExpr) :
    other.definitionOf (change scope) text = change <$> graph.definitionOf scope text := by
  rw [Graph.definitionOf, Graph.definitionOf, alike.resolve apart]
  cases graph.resolve scope text with
  | error fault =>
      rfl
  | ok signature =>
      cases signature <;> rfl

end NamedAlike

/-! ## The same types under other identities -/

/-- Does a change of identities take the types of a graph to those of another one? -/
structure TypesRenamed (change : Equiv.Perm TypeId) (graph other : Graph) : Prop where
  size : other.types.size = graph.types.size
  hasType : ∀ type, other.HasType (change type) ↔ graph.HasType type
  library : ∀ type, system.HasType type → change type = type
  type : ∀ type, other.type (change type) = (graph.type type).rename change

/-- Types that are the same have the same names. -/
theorem TypesRenamed.namedAlike {change : Equiv.Perm TypeId} {graph other : Graph}
    (renamed : graph.TypesRenamed change other) : graph.NamedAlike change other where
  size := renamed.size
  hasType := renamed.hasType
  name type := by rw [renamed.type]; rfl
  space type := by rw [renamed.type]; rfl
  enclosing type := by rw [renamed.type]; rfl
  kind type := by rw [renamed.type]; rfl
  genericParameters type := by rw [renamed.type]; rfl
  library := renamed.library

end Graph

end NullWeave
