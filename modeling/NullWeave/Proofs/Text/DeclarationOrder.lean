import NullWeave.Proofs.Code.UniqueDecoding
import NullWeave.Proofs.Text.ReorderedLoads
import NullWeave.Proofs.Text.SeparateBlocks

/-!
# The order of declarations

A text that is made of blocks which are read on their own may have them in any
order.  If one order is accepted, so is every other one, and each type is loaded
with the same supertypes, members and bodies, where everything is compared by its
full name.
-/

namespace NullWeave

/-! ## The same by full name -/

section Matching

variable (graph other : Graph)

/-- Do two instructions have one identity, and do they do the same by full name? -/
structure Instruction.Matches (instruction instructionToo : Instruction) : Prop where
  id : instructionToo.id = instruction.id
  operation : instruction.operation.Alike graph other Eq instructionToo.operation

/-- Do two local variables have one name, and the same type by full name? -/
structure LocalVariable.Matches (entry entryToo : LocalVariable) : Prop where
  name : entryToo.name = entry.name
  type : other.sigName entryToo.type = graph.sigName entry.type

/-- Do two handlers have the same bounds, and do they catch the same by full name? -/
structure ExceptionHandler.Matches (handler handlerToo : ExceptionHandler) : Prop where
  bounds : handlerToo = { handler with kind := handlerToo.kind }
  caught : handlerToo.kind.caught?.map other.typeName = handler.kind.caught?.map graph.typeName

/-- Are two bodies the same by full name? -/
structure MethodBody.Matches (body bodyToo : MethodBody) : Prop where
  instructions : List.Forall₂ (Instruction.Matches graph other)
    body.instructions bodyToo.instructions
  locals : List.Forall₂ (LocalVariable.Matches graph other) body.locals bodyToo.locals
  handlers : List.Forall₂ (ExceptionHandler.Matches graph other) body.handlers bodyToo.handlers
  initLocals : bodyToo.initLocals = body.initLocals
  debugInfo : bodyToo.debugInfo = body.debugInfo
  nextId : bodyToo.nextId = body.nextId

/-- Do two parameters differ in nothing but their type, which is the same by full name? -/
structure Parameter.Matches (parameter parameterToo : Parameter) : Prop where
  rest : parameterToo = { parameter with type := parameterToo.type }
  type : other.sigName parameterToo.type = graph.sigName parameter.type

/-- Are two fields the same by full name? -/
structure FieldId.Matches (field fieldToo : FieldId) : Prop where
  fullName : other.fieldName fieldToo = graph.fieldName field
  name : (other.field fieldToo).name = (graph.field field).name
  access : (other.field fieldToo).access = (graph.field field).access
  type : other.sigName (other.field fieldToo).type = graph.sigName (graph.field field).type

end Matching

namespace Program

variable (program other : Program)

/-- Are two methods of two programs the same by full name, and their bodies as well? -/
structure MethodsMatch (method methodToo : MethodId) : Prop where
  fullName : other.graph.methodName methodToo = program.graph.methodName method
  name : (other.graph.method methodToo).name = (program.graph.method method).name
  access : (other.graph.method methodToo).access = (program.graph.method method).access
  returnType : other.graph.sigName (other.graph.method methodToo).returnType =
    program.graph.sigName (program.graph.method method).returnType
  returnAttributes : (other.graph.method methodToo).returnAttributes =
    (program.graph.method method).returnAttributes
  parameters : List.Forall₂ (Parameter.Matches program.graph other.graph)
    (program.graph.method method).parameters (other.graph.method methodToo).parameters
  attributes : (other.graph.method methodToo).attributes =
    (program.graph.method method).attributes
  body : Option.Rel (MethodBody.Matches program.graph other.graph)
    (program.bodies.get? method) (other.bodies.get? methodToo)

/-- Are two types of two programs the same by full name, and their members as well? -/
structure TypesMatch (type typeToo : TypeId) : Prop where
  fullName : other.graph.typeName typeToo = program.graph.typeName type
  enclosing : (other.graph.type typeToo).enclosing.map other.graph.typeName =
    (program.graph.type type).enclosing.map program.graph.typeName
  kind : (other.graph.type typeToo).kind = (program.graph.type type).kind
  access : (other.graph.type typeToo).access = (program.graph.type type).access
  genericParameters : (other.graph.type typeToo).genericParameters =
    (program.graph.type type).genericParameters
  attributes : (other.graph.type typeToo).attributes = (program.graph.type type).attributes
  base : (other.graph.type typeToo).base.map other.graph.typeName =
    (program.graph.type type).base.map program.graph.typeName
  interfaces : (other.graph.type typeToo).interfaces.map other.graph.typeName =
    (program.graph.type type).interfaces.map program.graph.typeName
  fields : List.Forall₂ (FieldId.Matches program.graph other.graph)
    (program.graph.fieldsOf type) (other.graph.fieldsOf typeToo)
  methods : List.Forall₂ (program.MethodsMatch other)
    (program.graph.methodsOf type) (other.graph.methodsOf typeToo)

/--
Do two programs hold the same types by full name?

Where one of them has a type with a full name, the other one has one that matches it.
-/
def Matches : Prop :=
  ∀ name, Option.Rel (program.TypesMatch other)
    (program.graph.typeNamed? name) (other.graph.typeNamed? name)

end Program

/-! ## Renamed programs match -/

namespace Graph.Renames

variable {change : Renaming} {graph other : Graph} (renames : graph.Renames change other)

include renames

theorem typeName (type : TypeId) :
    other.typeName (change.type type) = graph.typeName type :=
  renames.namedAlike.typeName type

theorem sigName (signature : Signature) :
    other.sigName (signature.rename change.type) = graph.sigName signature :=
  renames.namedAlike.sigName signature

theorem methodName (method : MethodId) :
    other.methodName (change.method method) = graph.methodName method := by
  rw [Graph.methodName, Graph.methodName, renames.method, renames.namedAlike.parameterNames,
    MethodDecl.rename, renames.sigName, renames.typeName]

theorem fieldName (field : FieldId) :
    other.fieldName (change.field field) = graph.fieldName field := by
  rw [Graph.fieldName, Graph.fieldName, renames.field, FieldDecl.rename, renames.sigName,
    renames.typeName]

theorem alike (operation : Operation) :
    operation.Alike graph other Eq (operation.rename change) := by
  have table (type : Signature) :
      TokenPool.sigTable type = TokenPool.sigTable (type.rename change.type) := by
    cases type <;> rfl
  have isStatic (field : FieldId) : (graph.field field).access.isStatic =
      (other.field (change.field field)).access.isStatic := by
    rw [renames.field]
    rfl
  cases operation with
  | ldStr text =>
      exact .ldStr text
  | ldObj type =>
      exact .ldObj (table type) (renames.sigName type).symm
  | box type =>
      exact .box (table type) (renames.sigName type).symm
  | ldFld field =>
      exact .ldFld (isStatic field) (renames.fieldName field).symm
  | ldFldA field =>
      exact .ldFldA (isStatic field) (renames.fieldName field).symm
  | stFld field =>
      exact .stFld (isStatic field) (renames.fieldName field).symm
  | call method =>
      exact .call (renames.methodName method).symm
  | callVirt method =>
      exact .callVirt (renames.methodName method).symm
  | newObj constructor =>
      exact .newObj (renames.methodName constructor).symm
  | branch kind form target =>
      exact .branch kind form rfl
  | switch targets =>
      exact .switch (List.forall₂_same.mpr fun _ _ => rfl)
  | _ =>
      exact .standsAlone rfl

theorem matches_handler (handler : ExceptionHandler) :
    handler.Matches graph other (handler.rename change) where
  bounds := rfl
  caught := by
    obtain ⟨kind, _, _, _, _⟩ := handler
    cases kind with
    | «catch» type =>
        exact congrArg some (renames.typeName type)
    | «finally» =>
        rfl

theorem matches_body (body : MethodBody) : body.Matches graph other (body.rename change) where
  instructions := List.forall₂_map_right_iff.mpr <| List.forall₂_same.mpr fun instruction _ =>
    ⟨rfl, renames.alike instruction.operation⟩
  locals := List.forall₂_map_right_iff.mpr <| List.forall₂_same.mpr fun entry _ =>
    ⟨rfl, renames.sigName entry.type⟩
  handlers := List.forall₂_map_right_iff.mpr <| List.forall₂_same.mpr fun handler _ =>
    renames.matches_handler handler
  initLocals := rfl
  debugInfo := rfl
  nextId := rfl

theorem matches_field (field : FieldId) : field.Matches graph other (change.field field) where
  fullName := renames.fieldName field
  name := by rw [renames.field]; rfl
  access := by rw [renames.field]; rfl
  type := by rw [renames.field]; exact renames.sigName _

end Graph.Renames

namespace Program

variable {change : Renaming} {program other : Program}
variable (renames : program.graph.Renames change other.graph)
variable (bodies : ∀ method, other.bodies.get? (change.method method) =
  (program.bodies.get? method).map (MethodBody.rename change))

include renames bodies

theorem methodsMatch_of_renames (method : MethodId) :
    program.MethodsMatch other method (change.method method) where
  fullName := renames.methodName method
  name := by rw [renames.method]; rfl
  access := by rw [renames.method]; rfl
  returnType := by rw [renames.method]; exact renames.sigName _
  returnAttributes := by rw [renames.method]; rfl
  parameters := by
    rw [renames.method, MethodDecl.rename, List.forall₂_map_right_iff, List.forall₂_same]
    exact fun parameter _ => ⟨rfl, renames.sigName parameter.type⟩
  attributes := by rw [renames.method]; rfl
  body := by
    rw [bodies]
    cases program.bodies.get? method with
    | none =>
        exact .none
    | some body =>
        exact .some (renames.matches_body body)

theorem typesMatch_of_renames (type : TypeId) :
    program.TypesMatch other type (change.type type) where
  fullName := renames.typeName type
  enclosing := by
    rw [renames.type, TypeDecl.rename, List.map_map]
    exact List.map_congr_left fun outer _ => renames.typeName outer
  kind := by rw [renames.type]; rfl
  access := by rw [renames.type]; rfl
  genericParameters := by rw [renames.type]; rfl
  attributes := by rw [renames.type]; rfl
  base := by
    rw [renames.type, TypeDecl.rename, Option.map_map]
    exact Option.map_congr fun base _ => renames.typeName base
  interfaces := by
    rw [renames.type, TypeDecl.rename, List.map_map]
    exact List.map_congr_left fun interface _ => renames.typeName interface
  fields := by
    rw [renames.fieldsOf, List.forall₂_map_right_iff, List.forall₂_same]
    exact fun field _ => renames.matches_field field
  methods := by
    rw [renames.methodsOf, List.forall₂_map_right_iff, List.forall₂_same]
    exact fun method _ => methodsMatch_of_renames renames bodies method

/-- Programs that are the same under other identities match, if a full name means one type. -/
theorem matches_of_renames (apart : program.graph.NamesApart) : program.Matches other := by
  intro name
  rw [renames.namedAlike.typeNamed? apart]
  cases program.graph.typeNamed? name with
  | none =>
      exact .none
  | some type =>
      exact .some (typesMatch_of_renames renames bodies type)

end Program

/-! ## Loading in any order -/

/-- Can a block be read on its own? -/
def IsReadAlone (block : String) : Prop := ∃ types, readModule block = .ok types

instance (block : String) : Decidable (IsReadAlone block) :=
  decidable_of_iff ((readModule block).isOk = true) <| by
    rw [IsReadAlone]
    cases readModule block <;> simp [Except.isOk, Except.toBool]

/--
If a text that is made of blocks is accepted, every text that is made of the same
blocks in another order is accepted as well, declares the same types, and leaves a
program that matches.
-/
theorem Program.load_of_perm {text textToo : String} {blocks order : List String}
    (made : IsMadeOf text blocks) (madeToo : IsMadeOf textToo order)
    (alone : ∀ block ∈ blocks, IsReadAlone block) (reordered : blocks.Perm order)
    {module : Module} (accepted : (Program.initial.load text).1 = .ok module) :
    let reached := (Program.initial.load text).2
    let reachedToo := (Program.initial.load textToo).2
    ∃ moduleToo, (Program.initial.load textToo).1 = .ok moduleToo ∧
      (moduleToo.types.map reachedToo.graph.typeName).Perm
        (module.types.map reached.graph.typeName) ∧
      reached.Matches reachedToo := by
  intro reached reachedToo
  have named := FromTexts.initial.named
  obtain ⟨types, went⟩ := exists_mapM_eq_ok alone
  have read := mapM_eq_ok_iff.mp went
  obtain ⟨typesToo, readToo, moved⟩ := List.perm_comp_forall₂ reordered.symm read
  obtain ⟨all, readAll, same⟩ := exists_readModule_of_blocks made read
  obtain ⟨allToo, readAllToo, sameToo⟩ := exists_readModule_of_blocks madeToo readToo
  -- The lines in which the types stand are forgotten before they are put in another order.
  have loaded : (Loading.loadTypes types.flatten).run Program.initial = (.ok module, reached) := by
    rw [← Loading.loadTypes_unnumbered_eq_ok_iff named, ← same,
      Loading.loadTypes_unnumbered_eq_ok_iff named, ← accepted]
    simp only [reached, Program.load, readAll]
    rfl
  obtain ⟨loads, sound, rfl, left⟩ := (Loading.loadTypes_eq_ok_iff named).mp loaded
  obtain ⟨others, othersSound, change, moves⟩ :=
    sound.exists_reordered named.types named.members moved.symm.flatten
  have loadedToo : Program.initial.load textToo = (.ok others.module, others.reached {}) := by
    have loadedToo := (Loading.loadTypes_eq_ok_iff named).mpr ⟨others, othersSound, rfl, rfl⟩
    rw [← Loading.loadTypes_unnumbered_eq_ok_iff named, ← sameToo,
      Loading.loadTypes_unnumbered_eq_ok_iff named] at loadedToo
    rw [Program.load, readAllToo]
    exact loadedToo
  have leftToo : reachedToo = others.reached {} := congrArg Prod.snd loadedToo
  have renames : reached.graph.Renames change reachedToo.graph := by
    rw [left, leftToo, Loading.Loads.graph_reached, Loading.Loads.graph_reached]
    exact moves.renames
  have apart : reached.graph.NamesApart := (FromTexts.load text .initial).named.types.namesApart
  refine ⟨others.module, congrArg Prod.fst loadedToo, ?_, ?_⟩
  · refine (moves.types.map _).trans (.of_eq ?_)
    rw [List.map_map]
    exact List.map_congr_left fun type _ => renames.typeName type
  · refine matches_of_renames renames (fun method => ?_) apart
    rw [left, leftToo]
    exact moves.bodies sound othersSound method

/-- A type that extends another one, and calls one of two methods with a name. -/
def extendingBlock : String :=
  ".class A : B\n.method void M(B b)\nldarg b\ncall B::F(B)\nret\n.end\n.end\n"

/-- The type that is extended, with the two methods. -/
def extendedBlock : String :=
  ".class B\n.method void F(A a)\nret\n.end\n" ++
    ".method void F(B b)\n.document \"b\"\n.line 1\nret\n.end\n.end\n"

/-- Two types that mention each other may stand in either order. -/
theorem Program.load_of_perm_extending :
    (Program.initial.load (String.join [extendingBlock, extendedBlock])).1 =
        .ok ⟨[⟨17⟩, ⟨18⟩]⟩ ∧
      (Program.initial.load (String.join [extendingBlock, extendedBlock])).2.Matches
        (Program.initial.load (String.join [extendedBlock, extendingBlock])).2 := by
  have whole : ∀ block ∈ [extendingBlock, extendedBlock],
      block.toList.getLast? = some '\n' ∧ IsReadAlone block := by
    decide +kernel
  have reordered := List.Perm.swap extendedBlock extendingBlock []
  have made := isMadeOf_join fun block member => (whole block member).1
  have madeToo := isMadeOf_join fun block member => (whole block (reordered.symm.subset member)).1
  have accepted : (Program.initial.load (String.join [extendingBlock, extendedBlock])).1 =
      .ok ⟨[⟨17⟩, ⟨18⟩]⟩ := by
    decide +kernel
  obtain ⟨_, -, -, same⟩ := load_of_perm made madeToo (fun block member => (whole block member).2)
    reordered accepted
  exact ⟨accepted, same⟩

end NullWeave
