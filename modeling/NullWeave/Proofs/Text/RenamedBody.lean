import NullWeave.Proofs.Graph.Renaming
import NullWeave.Proofs.Text.Mention
import NullWeave.Text.Loading.Body

/-!
# Bodies under other identities

Two graphs that hold the same types, methods and fields under other identities
give the same meaning to the text of a body: every name that a body uses is
found in both, at identities that the renaming takes to each other, and what is
wrong in one is wrong in the other.
-/

namespace NullWeave

/-- A change of the identities of types, methods and fields. -/
structure Renaming where
  type : Equiv.Perm TypeId
  method : Equiv.Perm MethodId
  field : Equiv.Perm FieldId

/-! ## Bodies -/

section Bodies

variable (change : Renaming)

/-- An operation with what it refers to under other identities. -/
def Operation.rename : Operation → Operation
  | .ldObj type => .ldObj (type.rename change.type)
  | .box type => .box (type.rename change.type)
  | .ldFld field => .ldFld (change.field field)
  | .ldFldA field => .ldFldA (change.field field)
  | .stFld field => .stFld (change.field field)
  | .call method => .call (change.method method)
  | .callVirt method => .callVirt (change.method method)
  | .newObj constructor => .newObj (change.method constructor)
  | other => other

@[simp]
theorem Operation.targets_rename (operation : Operation) :
    (operation.rename change).targets = operation.targets := by
  cases operation <;> rfl

/-- An operation that mentions nothing stays as it is. -/
theorem Operation.rename_of_silent {operation : Operation}
    (silent : operation.mention? = none) : operation.rename change = operation := by
  cases operation <;> first | rfl | cases silent

/-- An instruction with what it refers to under other identities. -/
def Instruction.rename (instruction : Instruction) : Instruction :=
  { instruction with operation := instruction.operation.rename change }

/-- A local variable with its type under other identities. -/
def LocalVariable.rename (change : TypeId → TypeId) (entry : LocalVariable) : LocalVariable :=
  { entry with type := entry.type.rename change }

/-- What a handler does, with the type that it catches under another identity. -/
def HandlerKind.rename : HandlerKind → HandlerKind
  | .catch type => .catch (change.type type)
  | .finally => .finally

/-- A handler with the type that it catches under another identity. -/
def ExceptionHandler.rename (handler : ExceptionHandler) : ExceptionHandler :=
  { handler with kind := handler.kind.rename change }

/--
A body with what it refers to under other identities.

The identities of its instructions, which are its own, and its debug information stay.
-/
def MethodBody.rename (body : MethodBody) : MethodBody :=
  { body with
    instructions := body.instructions.map (Instruction.rename change)
    locals := body.locals.map (LocalVariable.rename change.type)
    handlers := body.handlers.map (ExceptionHandler.rename change) }

theorem MethodBody.ensureResolved_rename (body : MethodBody) :
    (body.rename change).ensureResolved = body.ensureResolved := by
  have index (id : InstrId) : (body.rename change).indexOf? id = body.indexOf? id := by
    rw [indexOf?, indexOf?, rename, List.findIdx?_map]
    rfl
  have references : (body.rename change).references = body.references := by
    rw [MethodBody.references, MethodBody.references, rename, List.flatMap_map,
      List.flatMap_map]
    simp only [Instruction.rename, Operation.targets_rename]
    rfl
  rw [ensureResolved, ensureResolved, references, funext index]

end Bodies

/-! ## Graphs -/

namespace Graph

/-- Does a renaming take what a graph holds to what another one holds? -/
structure Renames (change : Renaming) (graph other : Graph) : Prop extends
    TypesRenamed change.type graph other where
  method : ∀ method,
    other.method (change.method method) = (graph.method method).rename change.type
  field : ∀ field, other.field (change.field field) = (graph.field field).rename change.type
  methodsOf : ∀ type,
    other.methodsOf (change.type type) = (graph.methodsOf type).map change.method
  fieldsOf : ∀ type,
    other.fieldsOf (change.type type) = (graph.fieldsOf type).map change.field

namespace Renames

variable {change : Renaming} {graph other : Graph}

theorem baseChain (renames : graph.Renames change other) (type : TypeId) :
    other.baseChain (change.type type) = (graph.baseChain type).map change.type := by
  have within (steps : Nat) (type : TypeId) :
      other.baseChainWithin steps (change.type type) =
        (graph.baseChainWithin steps type).map change.type := by
    induction steps generalizing type with
    | zero =>
        rfl
    | succ steps inductionHypothesis =>
        rw [Graph.baseChainWithin, Graph.baseChainWithin, renames.type, TypeDecl.rename,
          List.map_cons]
        cases (graph.type type).base with
        | none =>
            rfl
        | some base =>
            exact congrArg _ (inductionHypothesis base)
  rw [Graph.baseChain, Graph.baseChain, renames.size, within]

theorem findField? (renames : graph.Renames change other) (type : TypeId) (name : String) :
    other.findField? (change.type type) name =
      (graph.findField? type name).map change.field := by
  rw [Graph.findField?, Graph.findField?, renames.fieldsOf, List.find?_map]
  simp only [Function.comp_def, renames.field, FieldDecl.rename]

theorem methodsNamed (renames : graph.Renames change other) (type : TypeId)
    (name : String) :
    other.methodsNamed (change.type type) name =
      (graph.methodsNamed type name).map change.method := by
  rw [Graph.methodsNamed, Graph.methodsNamed, renames.methodsOf, List.filter_map]
  simp only [Function.comp_def, renames.method, MethodDecl.rename]

end Renames

end Graph

/-! ## Operands -/

namespace BodyScope

variable {change : Renaming} {scope : BodyScope} {other : Graph}

/-- The scope of a body in a graph with other identities. -/
def renamed (scope : BodyScope) (change : Renaming) (other : Graph) : BodyScope :=
  { scope with graph := other, method := scope.method.rename change.type }

theorem argumentSlot_renamed (lexeme : Option Lexeme) :
    (scope.renamed change other).argumentSlot lexeme = scope.argumentSlot lexeme := by
  unfold argumentSlot
  have parameters (name : String) :
      (scope.method.rename change.type).parameters.findIdx? (·.name == name) =
        scope.method.parameters.findIdx? (·.name == name) := by
    rw [MethodDecl.rename, List.findIdx?_map]
    rfl
  cases lexeme with
  | none =>
      rfl
  | some lexeme =>
      cases lexeme with
      | name name =>
          dsimp only [renamed]
          rw [parameters]
          rfl
      | str _ | int _ | mark _ | doubleColon =>
          rfl

variable (renames : scope.graph.Renames change other) (apart : scope.graph.NamesApart)

include renames

theorem fieldOn_renamed (owner : TypeId) (name : String) :
    (scope.renamed change other).fieldOn (change.type owner) name =
      change.field <$> scope.fieldOn owner name := by
  unfold fieldOn
  dsimp only [renamed]
  rw [renames.baseChain, List.findSome?_map, renames.namedAlike.typeName]
  have found : (fun type => other.findField? type name) ∘ change.type =
      Option.map change.field ∘ fun type => scope.graph.findField? type name :=
    funext fun type => renames.findField? type name
  rw [found, ← List.map_findSome?]
  cases (scope.graph.baseChain owner).findSome? fun type => scope.graph.findField? type name <;>
    rfl

theorem candidates_renamed (type : TypeId) (name : String) (arity : Nat) :
    (scope.renamed change other).candidates (change.type type) name arity =
      (scope.candidates type name arity).map change.method := by
  unfold candidates
  dsimp only [renamed]
  rw [renames.methodsNamed, List.filter_map]
  simp only [Function.comp_def, renames.method, MethodDecl.rename, List.length_map]

include apart

theorem chooseMethod_renamed (type : TypeId) (name : String) (parameters : List TypeExpr)
    (candidates : List MethodId) :
    (scope.renamed change other).chooseMethod (change.type type) name parameters
        (candidates.map change.method) =
      change.method <$> scope.chooseMethod type name parameters candidates := by
  have agreeing (names : List String) :
      (candidates.map change.method).filter (fun method =>
          other.parameterNames (other.method method) == names) =
        (candidates.filter fun method =>
          scope.graph.parameterNames (scope.graph.method method) == names).map
            change.method := by
    rw [List.filter_map]
    simp only [Function.comp_def, renames.method, renames.namedAlike.parameterNames]
  unfold chooseMethod
  dsimp only [renamed]
  split
  · rename_i method alone
    obtain ⟨candidate, rfl, rfl⟩ := List.map_eq_singleton_iff.mp alone
    rfl
  · rename_i several
    split
    · exact absurd rfl (several _)
    · have owner : (scope.method.rename change.type).owner = change.type scope.method.owner := rfl
      rw [owner, renames.namedAlike.signaturesOf apart, renames.namedAlike.typeName,
        bind_map_left, map_bind]
      refine bind_congr fun signatures => ?_
      rw [renames.namedAlike.sigNames, agreeing]
      generalize (candidates.filter fun method =>
        scope.graph.parameterNames (scope.graph.method method) ==
          scope.graph.sigNames signatures) = agreed
      rcases agreed with _ | ⟨first, _ | ⟨second, rest⟩⟩ <;> rfl

theorem methodOn_renamed (owner : TypeId) (name : String) (parameters : List TypeExpr) :
    (scope.renamed change other).methodOn (change.type owner) name parameters =
      change.method <$> scope.methodOn owner name parameters := by
  unfold methodOn
  dsimp only [renamed]
  rw [renames.baseChain, renames.namedAlike.typeName]
  generalize scope.graph.baseChain owner = chain
  induction chain with
  | nil =>
      rfl
  | cons type rest inductionHypothesis =>
      rw [List.map_cons, List.findSome?_cons, List.findSome?_cons]
      have there := candidates_renamed renames type name parameters.length
      dsimp only [renamed] at there
      rw [there]
      cases here : scope.candidates type name parameters.length with
      | nil =>
          exact inductionHypothesis
      | cons first others =>
          exact chooseMethod_renamed renames apart type name parameters (first :: others)

/-! ### Operands of instructions -/

theorem typeOperand_renamed :
    (scope.renamed change other).typeOperand =
      Signature.rename change.type <$> scope.typeOperand := by
  rw [typeOperand, typeOperand, map_bind]
  refine bind_congr fun text => ?_
  have resolved := renames.namedAlike.resolve apart scope.method.owner text
  exact (congrArg liftM resolved).trans (liftM_map _ _)

theorem ownerOperand_renamed :
    (scope.renamed change other).ownerOperand = change.type <$> scope.ownerOperand := by
  rw [ownerOperand, ownerOperand, map_bind]
  refine bind_congr fun owner => ?_
  rw [map_bind]
  refine bind_congr fun next => ?_
  have found := renames.namedAlike.definitionOf apart scope.method.owner owner
  split
  · exact (congrArg liftM found).trans (liftM_map _ _)
  · rfl

theorem fieldOperand_renamed :
    (scope.renamed change other).fieldOperand = change.field <$> scope.fieldOperand := by
  have named (owner : TypeId) :
      (do
        let name ← LineReader.requireName
        (scope.renamed change other).fieldOn (change.type owner) name : LineReader FieldId) =
      change.field <$> (do
        let name ← LineReader.requireName
        scope.fieldOn owner name : LineReader FieldId) := by
    rw [map_bind]
    refine bind_congr fun name => ?_
    exact (congrArg liftM (fieldOn_renamed renames owner name)).trans (liftM_map _ _)
  rw [fieldOperand, fieldOperand, map_bind]
  refine bind_congr fun left => ?_
  dsimp only
  split
  · rw [pure_bind, pure_bind]
    exact named scope.method.owner
  · rw [ownerOperand_renamed renames apart, bind_map_left, map_bind]
    exact bind_congr named

theorem methodOperand_renamed :
    (scope.renamed change other).methodOperand = change.method <$> scope.methodOperand := by
  rw [methodOperand, methodOperand, ownerOperand_renamed renames apart, bind_map_left, map_bind]
  refine bind_congr fun owner => ?_
  rw [map_bind]
  refine bind_congr fun name => ?_
  rw [map_bind]
  refine bind_congr fun parameters => ?_
  exact (congrArg liftM (methodOn_renamed renames apart owner name parameters)).trans
    (liftM_map _ _)

/-! ### Instructions -/

theorem plainOperation_renamed (mnemonic : String) :
    (scope.renamed change other).plainOperation mnemonic =
      Operation.rename change <$> scope.plainOperation mnemonic := by
  have argument : (scope.renamed change other).argumentOperand = scope.argumentOperand := by
    rw [argumentOperand, argumentOperand, funext argumentSlot_renamed]
  have type := typeOperand_renamed renames apart
  have field := fieldOperand_renamed renames apart
  have method := methodOperand_renamed renames apart
  unfold plainOperation
  rw [argument, type, field, method]
  split <;> first | rfl | (simp only [Functor.map_map]; rfl) 

theorem operation_renamed (mnemonic : String) :
    (scope.renamed change other).operation mnemonic =
      Operation.rename change <$> scope.operation mnemonic := by
  have plain := plainOperation_renamed renames apart mnemonic
  unfold operation
  split
  · rw [Functor.map_map]
    rfl
  · rename_i compact
    rw [map_pure,
      Operation.rename_of_silent change (mention?_of_compactMnemonic? compact)]
  · exact plain

theorem readInstruction_renamed (mnemonic : String) (operands : List Lexeme) :
    (scope.renamed change other).readInstruction mnemonic operands =
      Operation.rename change <$> scope.readInstruction mnemonic operands := by
  rw [readInstruction, readInstruction, operation_renamed renames apart, bind_map_left]
  simp only [StateT.run'_eq, StateT.run_bind, StateT.run_pure, map_bind, map_pure]

theorem readItems_renamed (items : List BodyItem) (waiting : List WaitingPoint)
    (start : InstrId) :
    (scope.renamed change other).readItems waiting start items =
      Prod.map (List.map (Instruction.rename change)) id <$>
        scope.readItems waiting start items := by
  induction items generalizing waiting start with
  | nil =>
      cases waiting <;> rfl
  | cons item rest inductionHypothesis =>
      cases item with
      | label line name =>
          exact inductionHypothesis waiting start
      | point line document span =>
          exact inductionHypothesis (waiting ++ [⟨line, document, span⟩]) start
      | instruction line mnemonic operands =>
          rw [readItems, readItems, readInstruction_renamed renames apart, inductionHypothesis]
          cases scope.readInstruction mnemonic operands with
          | error fault =>
              rfl
          | ok operation =>
              cases scope.readItems [] start.next rest <;> rfl

theorem readHandlerKind_renamed :
    ∀ kind : HandlerKindText,
      (scope.renamed change other).readHandlerKind kind =
        HandlerKind.rename change <$> scope.readHandlerKind kind
  | .finally => rfl
  | .catch type => by
      have found := renames.namedAlike.definitionOf apart scope.method.owner type
      rw [readHandlerKind, readHandlerKind, Functor.map_map]
      exact (congrArg (HandlerKind.catch <$> ·) found).trans (Functor.map_map _ _ _)

theorem readHandler_renamed (text : HandlerText) :
    (scope.renamed change other).readHandler text =
      ExceptionHandler.rename change <$> scope.readHandler text := by
  rw [readHandler, readHandler, readHandlerKind_renamed renames apart, bind_map_left]
  simp only [map_bind]
  refine bind_congr fun kind => bind_congr fun tryStart => bind_congr fun tryEnd =>
    bind_congr fun handlerStart => ?_
  cases text.handlerEnd with
  | none =>
      rfl
  | some name =>
      dsimp only
      rw [map_bind]
      rfl

end BodyScope

/-! ## Bodies -/

section Bodies

variable {change : Renaming} {graph other : Graph}

theorem Graph.NamedAlike.readLocals {change : Equiv.Perm TypeId}
    (alike : graph.NamedAlike change other)
    (apart : graph.NamesApart) (owner : TypeId) (texts : List (TypeExpr × String))
    (seen : List String) :
    NullWeave.readLocals other (change owner) seen texts =
      List.map (LocalVariable.rename change) <$> NullWeave.readLocals graph owner seen texts := by
  induction texts generalizing seen with
  | nil =>
      rfl
  | cons text rest inductionHypothesis =>
      obtain ⟨type, name⟩ := text
      rw [NullWeave.readLocals, NullWeave.readLocals]
      split
      · rfl
      · rw [alike.resolve apart, inductionHypothesis]
        simp only [bind_map_left, map_bind, map_pure]
        rfl

theorem wholeScope?_rename (instructions : List Instruction) (points : List SequencePoint)
    (localCount : Nat) :
    wholeScope? (instructions.map (Instruction.rename change)) points localCount =
      wholeScope? instructions points localCount := by
  rw [wholeScope?, wholeScope?, List.head?_map, List.getLast?_map]
  cases instructions.head? <;> cases instructions.getLast? <;> rfl

theorem BodyText.scope_rename (text : BodyText) (graph other : Graph) (method : MethodDecl)
    (locals : List LocalVariable) :
    text.scope other (method.rename change.type)
        (locals.map (LocalVariable.rename change.type)) =
      (text.scope graph method locals).renamed change other := by
  rw [BodyText.scope, List.map_map]
  rfl

/-- A body that was read for a method is read for it under other identities as well. -/
theorem Graph.Renames.readBody (renames : graph.Renames change other) (apart : graph.NamesApart)
    {method : MethodDecl} {line : Nat} {text : BodyText} {body : MethodBody}
    (read : NullWeave.readBody graph method line text = .ok body) :
    NullWeave.readBody other (method.rename change.type) line text =
      .ok (body.rename change) := by
  have reads := readBody_eq_ok_iff.mp read
  have scope : text.scope other (method.rename change.type) (body.rename change).locals =
      (text.scope graph method body.locals).renamed change other :=
    text.scope_rename graph other method body.locals
  refine readBody_eq_ok_iff.mpr
    { labels := reads.labels
      initLocals := reads.initLocals
      locals := ?_
      items := ?_
      handlers := ?_
      scope := ?_
      nextId := ?_
      resolved := ?_ }
  · have again := renames.namedAlike.readLocals apart method.owner text.locals []
    rw [reads.locals] at again
    exact again
  · rw [scope, BodyScope.readItems_renamed renames apart, reads.items]
    rfl
  · rw [scope, mapM_eq_map_mapM (BodyScope.readHandler_renamed renames apart), reads.handlers]
    rfl
  · rw [MethodBody.rename, List.length_map, wholeScope?_rename]
    exact reads.scope
  · rw [MethodBody.rename, List.length_map]
    exact reads.nextId
  · rw [MethodBody.ensureResolved_rename]
    exact reads.resolved

end Bodies

end NullWeave
