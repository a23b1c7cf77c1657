import Mathlib.Data.List.Find
import NullWeave.Proofs.Text.LoadedBody
import NullWeave.Proofs.Text.Rereading
import NullWeave.Proofs.Text.TypeNames
import NullWeave.Text.Printing.Declaration

/-!
# What loaded programs mention

The declarations and bodies of a type mention types, signatures, fields and
methods, and printing writes each of them as a name or with names.  Whatever a
loaded program mentions is in its graph: its types are held, its signatures can
be formed, and its members are declared.  No two fields of a type share their
name, and no two methods their name and the types of their parameters.
-/

namespace NullWeave

/-! ## What is mentioned -/

/-- What a declaration or a body refers to by name. -/
inductive Mention where
  /-- A type by its full name: one that is extended, an interface, or what a handler catches. -/
  | type (type : TypeId)
  | signature (signature : Signature)
  | field (field : FieldId)
  | method (method : MethodId)
deriving Inhabited

/-- What an operation mentions, if anything. -/
def Operation.mention? : Operation → Option Mention
  | .ldObj type | .box type => some (.signature type)
  | .ldFld field | .ldFldA field | .stFld field => some (.field field)
  | .call method | .callVirt method | .newObj method => some (.method method)
  | _ => none

/-- The type that a handler catches, if it catches one. -/
def HandlerKind.caught? : HandlerKind → Option TypeId
  | .catch type => some type
  | .finally => none

/-- What a body mentions. -/
def MethodBody.mentions (body : MethodBody) : List Mention :=
  body.locals.map (.signature ·.type) ++
    body.handlers.filterMap (fun handler => handler.kind.caught?.map .type) ++
    body.instructions.filterMap (·.operation.mention?)

/-- What the declaration of a method mentions; an `out` parameter mentions what it points at. -/
def MethodDecl.mentions (decl : MethodDecl) : List Mention :=
  .signature decl.returnType ::
    decl.parameters.map fun parameter =>
      .signature (if parameter.isOut then parameter.type.pointee else parameter.type)

/-- What the first line of a type mentions; what it extends by default is not written. -/
def Graph.supertypeMentions (graph : Graph) (type : TypeId) : List Mention :=
  let decl := graph.type type
  (decl.base.toList.filter fun base =>
      graph.typeName base != defaultBaseName decl.kind).map .type ++
    decl.interfaces.map .type

/-- What the declarations and bodies of a type mention. -/
def Program.mentions (program : Program) (type : TypeId) : List Mention :=
  program.graph.supertypeMentions type ++
    (program.graph.fieldsOf type).map (fun field => .signature (program.graph.field field).type) ++
    (program.graph.methodsOf type).flatMap fun method =>
      (program.graph.method method).mentions ++
        (program.bodies.get? method).elim [] MethodBody.mentions

/-! ## Members in a graph -/

namespace Graph

/-- Is what is mentioned in a graph? -/
def Knows (graph : Graph) : Mention → Prop
  | .type type => graph.HasType type
  | .signature signature => graph.Forms signature
  | .field field => field.index < graph.fields.size
  | .method method => method.index < graph.methods.size

/-- What is known of a field that a graph declares. -/
structure FieldKnown (graph : Graph) (decl : FieldDecl) : Prop where
  owner : graph.HasType decl.owner
  name : isName decl.name = true
  type : graph.Forms decl.type

/-- What is known of a method that a graph declares. -/
structure MethodKnown (graph : Graph) (decl : MethodDecl) : Prop where
  owner : graph.HasType decl.owner
  name : isName decl.name = true
  returnType : graph.Forms decl.returnType
  parameters : ∀ parameter ∈ decl.parameters, graph.Forms parameter.type

/-- What is known of the members that a graph declares. -/
structure MembersKnown (graph : Graph) : Prop where
  fields : ∀ decl ∈ graph.fields, graph.FieldKnown decl
  methods : ∀ decl ∈ graph.methods, graph.MethodKnown decl
  /-- A field is the one with its name on its type. -/
  findField? : ∀ field : FieldId, field.index < graph.fields.size →
    graph.findField? (graph.field field).owner (graph.field field).name = some field
  /-- No two methods of a type have the same name and types of parameters. -/
  methodsApart : ∀ method other : MethodId,
    method.index < graph.methods.size → other.index < graph.methods.size →
    (graph.method method).owner = (graph.method other).owner →
    graph.sameMethodSignature (graph.method method) (graph.method other) = true →
    method = other

section Growing

variable {graph grown : Graph}

theorem Knows.grows {mention : Mention} (knows : graph.Knows mention)
    (grows : graph.GrowsTo grown) : grown.Knows mention := by
  cases mention with
  | type type =>
      exact grows.hasType knows
  | signature signature =>
      exact Forms.grows knows grows
  | field field =>
      exact Nat.lt_of_lt_of_le knows grows.fields
  | method method =>
      exact Nat.lt_of_lt_of_le knows grows.methods

theorem FieldKnown.grows {decl : FieldDecl} (known : graph.FieldKnown decl)
    (grows : graph.GrowsTo grown) : grown.FieldKnown decl :=
  ⟨grows.hasType known.owner, known.name, known.type.grows grows⟩

theorem MethodKnown.grows {decl : MethodDecl} (known : graph.MethodKnown decl)
    (grows : graph.GrowsTo grown) : grown.MethodKnown decl :=
  ⟨grows.hasType known.owner, known.name, known.returnType.grows grows,
    fun parameter member => (known.parameters parameter member).grows grows⟩

/-- Methods that a graph can form have the same signature or not, also when it grows. -/
theorem MethodKnown.sameMethodSignature {decl other : MethodDecl}
    (known : graph.MethodKnown decl) (knownToo : graph.MethodKnown other)
    (named : graph.TypesNamed) (grows : graph.GrowsTo grown) :
    grown.sameMethodSignature decl other = graph.sameMethodSignature decl other := by
  have names {decl : MethodDecl} (known : graph.MethodKnown decl) :
      grown.parameterNames decl = graph.parameterNames decl :=
    List.map_congr_left fun parameter member =>
      (known.parameters parameter member).sigName named grows
  rw [Graph.sameMethodSignature, Graph.sameMethodSignature, names known, names knownToo]

theorem mem_fieldsOf {type : TypeId} {field : FieldId} :
    field ∈ graph.fieldsOf type ↔
      field.index < graph.fields.size ∧ (graph.field field).owner = type := by
  cases field
  simp [fieldsOf, fieldIds]

theorem field_mem {field : FieldId} (known : field.index < graph.fields.size) :
    graph.field field ∈ graph.fields := by
  simp [Graph.field, known]

theorem method_mem {method : MethodId} (known : method.index < graph.methods.size) :
    graph.method method ∈ graph.methods := by
  simp [Graph.method, known]

/-- Members are found and told apart as before by a graph that grows by none. -/
theorem MembersKnown.of_members_eq (known : graph.MembersKnown) (named : graph.TypesNamed)
    (grows : graph.GrowsTo grown) (fields : grown.fields = graph.fields)
    (methods : grown.methods = graph.methods) : grown.MembersKnown where
  fields decl member := (known.fields decl (fields ▸ member)).grows grows
  methods decl member := (known.methods decl (methods ▸ member)).grows grows
  findField? field inside := by
    have same : grown.findField? = graph.findField? := by
      funext type name
      simp only [Graph.findField?, fieldsOf, fieldIds, Graph.field, fields]
    rw [fields] at inside
    rw [grows.field field inside, same]
    exact known.findField? field inside
  methodsApart method other inside insideToo owner same := by
    rw [methods] at inside insideToo
    rw [grows.method method inside, grows.method other insideToo] at owner same
    rw [(known.methods _ (method_mem inside)).sameMethodSignature
      (known.methods _ (method_mem insideToo)) named grows] at same
    exact known.methodsApart method other inside insideToo owner same

/-- A field is declared under a name that no other field of the type has. -/
theorem MembersKnown.addField (known : graph.MembersKnown) (named : graph.TypesNamed)
    {decl : FieldDecl} (declKnown : graph.FieldKnown decl)
    (free : graph.findField? decl.owner decl.name = none) :
    (graph.addField decl).1.MembersKnown := by
  have grows := GrowsTo.addField graph decl
  have fieldIds : (graph.addField decl).1.fieldIds =
      graph.fieldIds ++ [(graph.addField decl).2] := by
    simp [Graph.fieldIds, Graph.addField, List.range_succ]
  have found (type : TypeId) (name : String) :
      (graph.addField decl).1.findField? type name =
        (graph.findField? type name).or
          (if decl.owner = type ∧ decl.name = name then some (graph.addField decl).2
            else none) := by
    have old : ∀ field ∈ graph.fieldIds,
        (graph.addField decl).1.field field = graph.field field := by
      intro field member
      refine grows.field field ?_
      simp only [Graph.fieldIds, List.mem_map, List.mem_range] at member
      obtain ⟨index, inside, rfl⟩ := member
      exact inside
    rw [Graph.findField?, Graph.findField?, fieldsOf, fieldsOf, fieldIds, List.filter_append,
      List.find?_append, List.filter_congr fun field member => by rw [old field member]]
    congr 1
    · refine List.find?_congr fun field member => ?_
      rw [old field (List.mem_of_mem_filter member)]
    · by_cases here : decl.owner = type <;> by_cases nameHere : decl.name = name <;>
        simp [here, nameHere]
  refine
    { fields := fun other member => ?_
      methods := fun other member => (known.methods other member).grows grows
      findField? := fun field inside => ?_
      methodsApart := fun method other inside insideToo owner same => ?_ }
  · rcases Array.mem_push.mp member with old | rfl
    · exact (known.fields other old).grows grows
    · exact declKnown.grows grows
  · have bound : field.index < graph.fields.size + 1 := by
      simpa [Graph.addField] using inside
    rw [found]
    rcases Nat.lt_succ_iff_lt_or_eq.mp bound with old | new
    · rw [grows.field field old, known.findField? field old]
      rfl
    · obtain rfl : field = (graph.addField decl).2 := congrArg FieldId.mk new
      rw [graph.field_addField_self, free]
      simp
  · refine known.methodsApart method other inside insideToo owner ?_
    rwa [← (known.methods _ (method_mem inside)).sameMethodSignature
      (known.methods _ (method_mem insideToo)) named grows]

/-- A method is declared with a signature that no other method of the type has. -/
theorem MembersKnown.addMethod (known : graph.MembersKnown) (named : graph.TypesNamed)
    {decl : MethodDecl} (declKnown : graph.MethodKnown decl)
    (free : ∀ other ∈ graph.methodsOf decl.owner,
      graph.sameMethodSignature (graph.method other) decl = false) :
    (graph.addMethod decl).1.MembersKnown := by
  have grows := GrowsTo.addMethod graph decl
  have parts {method : MethodId} (inside : method.index < (graph.addMethod decl).1.methods.size) :
      method.index < graph.methods.size ∨ method = (graph.addMethod decl).2 := by
    have bound : method.index < graph.methods.size + 1 := by
      simpa [Graph.addMethod] using inside
    rcases Nat.lt_succ_iff_lt_or_eq.mp bound with old | new
    · exact .inl old
    · exact .inr (congrArg MethodId.mk new)
  have apart {method : MethodId} (inside : method.index < graph.methods.size)
      (owner : (graph.method method).owner = decl.owner) :
      graph.sameMethodSignature (graph.method method) decl = false :=
    free method ((graph.mem_methodsOf _ _).mpr ⟨inside, owner⟩)
  have symmetric (left right : MethodDecl) :
      graph.sameMethodSignature left right = graph.sameMethodSignature right left := by
    rw [Graph.sameMethodSignature, Graph.sameMethodSignature, Bool.eq_iff_iff]
    simp only [Bool.and_eq_true, beq_iff_eq]
    exact and_congr eq_comm eq_comm
  refine
    { fields := fun other member => (known.fields other member).grows grows
      methods := fun other member => ?_
      findField? := known.findField?
      methodsApart := fun method other inside insideToo owner same => ?_ }
  · rcases Array.mem_push.mp member with old | rfl
    · exact (known.methods other old).grows grows
    · exact declKnown.grows grows
  · have before {decl other : MethodDecl} (first : graph.MethodKnown decl)
        (second : graph.MethodKnown other) :=
      first.sameMethodSignature second named grows
    rcases parts inside with old | rfl <;> rcases parts insideToo with oldToo | rfl
    · rw [grows.method method old, grows.method other oldToo] at owner same
      rw [before (known.methods _ (method_mem old)) (known.methods _ (method_mem oldToo))]
        at same
      exact known.methodsApart method other old oldToo owner same
    · rw [grows.method method old, graph.method_addMethod_self] at owner same
      rw [before (known.methods _ (method_mem old)) declKnown, apart old owner] at same
      cases same
    · rw [grows.method other oldToo, graph.method_addMethod_self] at owner same
      rw [before declKnown (known.methods _ (method_mem oldToo)), symmetric,
        apart oldToo owner.symm] at same
      cases same
    · rfl

end Growing

end Graph

/-! ## Reading members and bodies -/

/-- What is known of a method that was read. -/
theorem Loading.methodKnown_of_readMethod {graph : Graph} {type : TypeId} {text : MethodText}
    {decl : MethodDecl} (named : graph.TypesNamed) (owner : graph.HasType type)
    (lexed : text.Lexed) (read : readMethod graph type text = .ok decl) :
    graph.MethodKnown decl ∧ decl.owner = type := by
  obtain ⟨parameters, readParameters, returned⟩ := bind_eq_ok_iff.mp read
  obtain ⟨returnType, resolved, same⟩ := bind_eq_ok_iff.mp returned
  cases same
  refine ⟨⟨owner, lexed.name, named.forms_of_resolve lexed.returnType resolved, ?_⟩, rfl⟩
  intro parameter member
  obtain ⟨written, among, readOne⟩ := exists_of_mem_mapM_eq_ok readParameters member
  obtain ⟨signature, means, same⟩ := bind_eq_ok_iff.mp readOne
  cases same
  have forms := named.forms_of_resolve (lexed.parameters written among).type means
  dsimp only
  split
  · exact .byRef forms
  · exact forms

/-- Does an operation mention only what a graph knows? -/
def Graph.KnowsOperation (graph : Graph) (operation : Operation) : Prop :=
  ∀ mention ∈ operation.mention?, graph.Knows mention

theorem Graph.knowsOperation_of_silent {graph : Graph} {operation : Operation}
    (silent : operation.mention? = none) : graph.KnowsOperation operation := by
  intro mention member
  rw [silent] at member
  cases member

theorem Graph.knowsOperation_of_mention {graph : Graph} {operation : Operation}
    {mention : Mention} (mentions : operation.mention? = some mention)
    (knows : graph.Knows mention) : graph.KnowsOperation operation := by
  intro other member
  rw [mentions] at member
  cases member
  exact knows

namespace BodyScope

open LineReader

variable {scope : BodyScope}

theorem yields_lift {α : Type} {fits : α → Prop} {result : Except TextFault α}
    (suits : ∀ value, result = .ok value → fits value) :
    LineReader.Yields fits (liftM result) := by
  cases result with
  | error fault =>
      rintro lexemes cut _ _ ⟨⟩
  | ok value =>
      rintro lexemes cut _ _ ⟨⟩
      exact ⟨suits value rfl, cut⟩

theorem yields_argumentOperand : LineReader.Yields (fun _ => True) scope.argumentOperand :=
  yields_next?.bind fun _ _ => yields_lift fun _ _ => trivial

theorem yields_localOperand : LineReader.Yields (fun _ => True) scope.localOperand :=
  yields_next?.bind fun _ _ => yields_lift fun _ _ => trivial

theorem yields_constantOperand : LineReader.Yields (fun _ => True) constantOperand := by
  refine yields_requireInteger.bind fun value _ => ?_
  split
  · exact yields_pure trivial
  · exact yields_throw _

theorem yields_labelOperand : LineReader.Yields (fun _ => True) scope.labelOperand :=
  yields_requireName.bind fun _ _ => yields_lift fun _ _ => trivial

theorem yields_labelOperands : LineReader.Yields (fun _ => True) scope.labelOperands := by
  refine (yields_parenthesized yields_requireName).bind fun names areNames => ?_
  clear areNames
  induction names with
  | nil =>
      exact yields_pure trivial
  | cons name rest inductionHypothesis =>
      rw [List.mapM_cons]
      refine (yields_lift fun _ _ => trivial : LineReader.Yields (fun _ => True) _).bind
        fun _ _ => ?_
      exact inductionHypothesis.bind fun _ _ => yields_pure trivial

theorem yields_typeOperand (named : scope.graph.TypesNamed) :
    LineReader.Yields scope.graph.Forms scope.typeOperand :=
  yields_type.bind fun _ lexed => yields_lift fun _ resolved =>
    named.forms_of_resolve lexed resolved

theorem yields_ownerOperand : LineReader.Yields (fun _ => True) scope.ownerOperand := by
  refine yields_type.bind fun owner _ => ?_
  refine yields_next?.bind fun found _ => ?_
  split
  · exact yields_lift fun _ _ => trivial
  · exact yields_throw _

/-- A field that is found is one of the graph. -/
theorem index_lt_of_fieldOn {owner : TypeId} {name : String} {field : FieldId}
    (found : scope.fieldOn owner name = .ok field) :
    field.index < scope.graph.fields.size := by
  unfold fieldOn at found
  split at found
  · rename_i among
    cases found
    obtain ⟨type, -, here⟩ := List.exists_of_findSome?_eq_some among
    exact (Graph.mem_fieldsOf.mp (List.mem_of_find?_eq_some here)).1
  · cases found

theorem index_lt_of_mem_candidates {type : TypeId} {name : String} {arity : Nat}
    {method : MethodId} (member : method ∈ scope.candidates type name arity) :
    method.index < scope.graph.methods.size :=
  ((scope.graph.mem_methodsOf type method).mp
    (List.mem_of_mem_filter (List.mem_of_mem_filter member))).1

theorem mem_of_chooseMethod {type : TypeId} {name : String} {parameters : List TypeExpr}
    {candidates : List MethodId} {method : MethodId}
    (chosen : scope.chooseMethod type name parameters candidates = .ok method) :
    method ∈ candidates := by
  unfold chooseMethod at chosen
  split at chosen
  · cases chosen
    exact List.mem_singleton_self _
  · obtain ⟨signatures, -, selected⟩ := bind_eq_ok_iff.mp chosen
    dsimp only at selected
    split at selected
    · rename_i only
      cases selected
      exact List.mem_of_mem_filter (only ▸ List.mem_singleton_self _)
    · cases selected

/-- A method that is found is one of the graph. -/
theorem index_lt_of_methodOn {owner : TypeId} {name : String} {parameters : List TypeExpr}
    {method : MethodId} (found : scope.methodOn owner name parameters = .ok method) :
    method.index < scope.graph.methods.size := by
  unfold methodOn at found
  dsimp only at found
  split at found
  · rename_i type candidates among
    obtain ⟨holder, -, here⟩ := List.exists_of_findSome?_eq_some among
    have member := mem_of_chooseMethod found
    split at here
    · cases here
    · cases here
      exact index_lt_of_mem_candidates member
  · cases found

theorem yields_fieldOperand :
    LineReader.Yields (fun field => field.index < scope.graph.fields.size)
      scope.fieldOperand := by
  refine yields_get_bind fun lexemes cut => ?_
  have finish (owner : TypeId) :
      LineReader.Yields (fun field => field.index < scope.graph.fields.size)
        (do
          let name ← requireName
          scope.fieldOn owner name) :=
    yields_requireName.bind fun _ _ => yields_lift fun _ found => index_lt_of_fieldOn found
  dsimp only
  split
  · exact finish _ _ cut
  · exact (yields_ownerOperand.bind fun owner _ => finish owner) _ cut

theorem yields_methodOperand :
    LineReader.Yields (fun method => method.index < scope.graph.methods.size)
      scope.methodOperand :=
  yields_ownerOperand.bind fun _ _ => yields_requireName.bind fun _ _ =>
    (yields_parenthesized yields_type).bind fun _ _ =>
      yields_lift fun _ found => index_lt_of_methodOn found

open Graph in
theorem yields_plainOperation (named : scope.graph.TypesNamed) (mnemonic : String) :
    LineReader.Yields scope.graph.KnowsOperation (scope.plainOperation mnemonic) := by
  unfold plainOperation
  -- The cases are the mnemonics in the order of the definition, with the unknown ones last.
  split
  case h_3 => exact yields_requireString.map fun _ _ => knowsOperation_of_silent rfl
  case h_4 | h_5 => exact yields_constantOperand.map fun _ _ => knowsOperation_of_silent rfl
  case h_8 | h_9 | h_10 | h_11 | h_12 | h_13 =>
    exact yields_argumentOperand.map fun _ _ => knowsOperation_of_silent rfl
  case h_14 | h_15 | h_16 | h_17 | h_18 | h_19 =>
    exact yields_localOperand.map fun _ _ => knowsOperation_of_silent rfl
  case h_27 | h_28 =>
    exact (yields_typeOperand named).map fun _ forms => knowsOperation_of_mention rfl forms
  case h_29 | h_30 | h_31 | h_32 | h_33 | h_34 =>
    exact yields_fieldOperand.map fun _ known => knowsOperation_of_mention rfl known
  case h_35 | h_36 | h_37 =>
    exact yields_methodOperand.map fun _ known => knowsOperation_of_mention rfl known
  case h_38 => exact yields_labelOperands.map fun _ _ => knowsOperation_of_silent rfl
  case h_43 => exact yields_throw _
  all_goals exact yields_pure (knowsOperation_of_silent rfl)

theorem mention?_of_compactMnemonic? {mnemonic : String} {operation : Operation}
    (compact : compactMnemonic? mnemonic = some operation) : operation.mention? = none := by
  unfold compactMnemonic? at compact
  simp only [Option.bind_eq_bind, Option.bind_eq_some_iff] at compact
  obtain ⟨⟨lead, digits⟩, -, number, -, chosen⟩ := compact
  split at chosen <;> (try split at chosen) <;> cases chosen <;> rfl

theorem yields_operation (named : scope.graph.TypesNamed) (mnemonic : String) :
    LineReader.Yields scope.graph.KnowsOperation (scope.operation mnemonic) := by
  unfold operation
  split
  · exact yields_labelOperand.map fun _ _ => Graph.knowsOperation_of_silent rfl
  · rename_i operation _ compact
    exact yields_pure
      (Graph.knowsOperation_of_silent (mention?_of_compactMnemonic? compact))
  · exact yields_plainOperation named mnemonic

/-- An instruction that was read mentions what the graph knows. -/
theorem knowsOperation_of_readInstruction (named : scope.graph.TypesNamed) {mnemonic : String}
    {operands : List Lexeme} {operation : Operation} (cut : AreCut operands)
    (read : scope.readInstruction mnemonic operands = .ok operation) :
    scope.graph.KnowsOperation operation := by
  rw [readInstruction_eq] at read
  split at read
  · cases read
  · rename_i ran
    cases read
    exact (yields_operation named mnemonic operands cut _ _ ran).1
  · cases read

/-- The instructions of items that were read mention what the graph knows. -/
theorem knowsOperation_of_readItems (named : scope.graph.TypesNamed)
    {waiting : List WaitingPoint} {id : InstrId} {items : List BodyItem}
    {instructions : List Instruction} {points : List SequencePoint}
    (lexed : ∀ item ∈ items, item.Lexed)
    (read : scope.readItems waiting id items = .ok (instructions, points)) :
    ∀ instruction ∈ instructions, scope.graph.KnowsOperation instruction.operation := by
  induction items generalizing waiting id instructions points with
  | nil =>
      cases waiting with
      | nil =>
          cases read
          exact List.forall_mem_nil _
      | cons _ _ =>
          cases read
  | cons item rest inductionHypothesis =>
      obtain ⟨itemLexed, restLexed⟩ := List.forall_mem_cons.mp lexed
      cases item with
      | label _ _ | point _ _ _ =>
          exact inductionHypothesis restLexed read
      | instruction line mnemonic operands =>
          rw [readItems] at read
          obtain ⟨operation, here, later⟩ := bind_eq_ok_iff.mp read
          obtain ⟨others, there, same⟩ := bind_eq_ok_iff.mp later
          cases same
          refine List.forall_mem_cons.mpr ⟨?_, inductionHypothesis restLexed there⟩
          exact knowsOperation_of_readInstruction named itemLexed
            (inLine_eq_ok_iff.mp here)

/-- A handler that was read catches a type of the graph, if any. -/
theorem hasType_of_readHandler (named : scope.graph.TypesNamed) {text : HandlerText}
    {handler : ExceptionHandler} (read : scope.readHandler text = .ok handler) :
    ∀ type ∈ handler.kind.caught?, scope.graph.HasType type := by
  obtain ⟨kind, readKind, further⟩ := bind_eq_ok_iff.mp read
  obtain ⟨_, -, further⟩ := bind_eq_ok_iff.mp further
  obtain ⟨_, -, further⟩ := bind_eq_ok_iff.mp further
  obtain ⟨_, -, further⟩ := bind_eq_ok_iff.mp further
  have same : handler.kind = kind := by
    revert further
    dsimp only
    cases text.handlerEnd with
    | none =>
        rintro ⟨⟩
        rfl
    | some name =>
        dsimp only
        intro further
        obtain ⟨_, -, last⟩ := bind_eq_ok_iff.mp further
        cases last
        rfl
  rw [same]
  unfold readHandlerKind at readKind
  split at readKind
  · cases readKind
    exact nofun
  · rename_i written _
    cases found : scope.graph.definitionOf scope.method.owner written with
    | error fault =>
        rw [found] at readKind
        cases readKind
    | ok caught =>
        rw [found] at readKind
        cases readKind
        rintro _ ⟨⟩
        exact named.hasType_of_definitionOf found

end BodyScope

/-- Local variables that were read have types that the graph can form. -/
theorem forms_of_readLocals {graph : Graph} (named : graph.TypesNamed) {owner : TypeId}
    {seen : List String} {declared : List (TypeExpr × String)} {locals : List LocalVariable}
    (lexed : ∀ entry ∈ declared, entry.1.Lexed)
    (read : readLocals graph owner seen declared = .ok locals) :
    ∀ entry ∈ locals, graph.Forms entry.type := by
  induction declared generalizing seen locals with
  | nil =>
      cases read
      exact List.forall_mem_nil _
  | cons entry rest inductionHypothesis =>
      obtain ⟨entryLexed, restLexed⟩ := List.forall_mem_cons.mp lexed
      rw [readLocals] at read
      split at read
      · cases read
      · obtain ⟨type, resolved, later⟩ := bind_eq_ok_iff.mp read
        obtain ⟨others, readOthers, same⟩ := bind_eq_ok_iff.mp later
        cases same
        exact List.forall_mem_cons.mpr
          ⟨named.forms_of_resolve entryLexed resolved,
            inductionHypothesis restLexed readOthers⟩

/-- A body that was read mentions what the graph knows. -/
theorem knows_of_readBody {graph : Graph} (named : graph.TypesNamed) {decl : MethodDecl}
    {line : Nat} {text : BodyText} {body : MethodBody} (lexed : text.Lexed)
    (read : readBody graph decl line text = .ok body) :
    ∀ mention ∈ body.mentions, graph.Knows mention := by
  have reads := readBody_eq_ok_iff.mp read
  intro mention member
  simp only [MethodBody.mentions, List.mem_append, List.mem_map, List.mem_filterMap,
    Option.map_eq_some_iff] at member
  rcases member with (⟨entry, among, rfl⟩ | ⟨handler, among, type, caught, rfl⟩) |
    ⟨instruction, among, mentioned⟩
  · exact forms_of_readLocals named lexed.locals reads.locals entry among
  · obtain ⟨written, -, readOne⟩ := exists_of_mem_mapM_eq_ok reads.handlers among
    exact BodyScope.hasType_of_readHandler named readOne type caught
  · exact BodyScope.knowsOperation_of_readItems named lexed.items reads.items
      instruction among mention mentioned

/-! ## Loaded programs -/

/-- Can a signature be formed that has no other signature in it? -/
def Graph.formsAlone (graph : Graph) : Signature → Bool
  | .void => true
  | .named type => type.index < graph.types.size
  | .param name _ =>
      isName ("!" ++ name) && LineReader.withoutBangs ("!" ++ name) == name
  | _ => false

theorem Graph.forms_of_formsAlone {graph : Graph} {signature : Signature}
    (checked : graph.formsAlone signature = true) : graph.Forms signature := by
  cases signature with
  | void =>
      exact .void
  | named type =>
      have known : type.index < graph.types.size := of_decide_eq_true checked
      exact .named known
  | param name isValueType =>
      rw [formsAlone, Bool.and_eq_true, beq_iff_eq] at checked
      exact .param ⟨checked.1, checked.2⟩
  | byRef _ | array _ | generic _ _ =>
      cases checked

/-- What is known of the members of the system library. -/
theorem Graph.membersKnown_system : Graph.system.MembersKnown := by
  have checked : (system.methods.all fun decl =>
      decide (decl.owner.index < system.types.size) && isName decl.name &&
        system.formsAlone decl.returnType &&
        decl.parameters.all fun parameter => system.formsAlone parameter.type) = true := by
    decide +kernel
  have apart : ∀ index < system.methods.size, ∀ other < system.methods.size,
      (system.method ⟨index⟩).owner = (system.method ⟨other⟩).owner →
        system.sameMethodSignature (system.method ⟨index⟩) (system.method ⟨other⟩) = true →
          index = other := by
    decide +kernel
  refine
    { fields := fun decl member => absurd member (Array.not_mem_empty decl)
      methods := fun decl member => ?_
      findField? := fun field inside => absurd inside (Nat.not_lt_zero _)
      methodsApart := fun method other inside insideToo owner same =>
        congrArg MethodId.mk (apart method.index inside other.index insideToo owner same) }
  have here := Array.all_eq_true'.mp checked decl member
  simp only [Bool.and_eq_true, decide_eq_true_eq, List.all_eq_true] at here
  obtain ⟨⟨⟨owner, name⟩, returned⟩, parameters⟩ := here
  exact ⟨owner, name, forms_of_formsAlone returned, fun parameter among =>
    forms_of_formsAlone (parameters parameter among)⟩

/-- What is known of the types, the members and the bodies of a program. -/
structure Program.Named (program : Program) : Prop where
  types : program.graph.TypesNamed
  members : program.graph.MembersKnown
  bodies : ∀ method body, program.bodies.get? method = some body →
    ∀ mention ∈ body.mentions, program.graph.Knows mention

namespace Program

variable {start program reached : Program}

/-- Every step of loading keeps what is known. -/
theorem Named.step (step : LoadingStep start program reached) (named : program.Named) :
    reached.Named := by
  have types := Graph.TypesNamed.step step named.types
  have grows := step.growsTo
  cases step with
  | addType _ _ _ _ | setDefaultBase _ _ | setBase _ _ | addInterface _ _ =>
      exact
        { types
          members := named.members.of_members_eq named.types grows rfl rfl
          bodies := fun method body present mention member =>
            (named.bodies method body present mention member).grows grows }
  | addField lexed known _ free resolved =>
      refine
        { types
          members := named.members.addField named.types
            ⟨known, lexed.name, named.types.forms_of_resolve lexed.type resolved⟩ free
          bodies := fun method body present mention member =>
            (named.bodies method body present mention member).grows grows }
  | addMethod lexed known _ read free =>
      obtain ⟨declKnown, rfl⟩ :=
        Loading.methodKnown_of_readMethod named.types known lexed read
      exact
        { types
          members := named.members.addMethod named.types declKnown free
          bodies := fun method body present mention member =>
            (named.bodies method body present mention member).grows grows }
  | @setBody owner _ _ _ lexed _ _ read =>
      refine
        { types
          members := named.members
          bodies := fun method body present => ?_ }
      by_cases here : method = owner
      · subst here
        rw [Program.setBody, Bodies.get?_set_self] at present
        cases present
        exact knows_of_readBody named.types lexed read
      · rw [Program.setBody, Bodies.get?_set_of_ne _ _ here] at present
        exact named.bodies method body present

/-- Whatever texts were loaded, all that is mentioned is known. -/
theorem FromTexts.named (fromTexts : program.FromTexts) : program.Named :=
  fromTexts.kept Named (fun _ _ _ step named => named.step step)
    { types := Graph.TypesNamed.system
      members := Graph.membersKnown_system
      bodies := nofun }

/-- What a type of the graph mentions is in the graph. -/
theorem Named.knows (named : program.Named) {type : TypeId}
    (held : program.graph.HasType type) {mention : Mention}
    (member : mention ∈ program.mentions type) : program.graph.Knows mention := by
  simp only [mentions, Graph.supertypeMentions, List.mem_append, List.mem_map,
    List.mem_filter, Option.mem_toList, List.mem_flatMap] at member
  rcases member with ((⟨base, ⟨extended, -⟩, rfl⟩ | ⟨interface, listed, rfl⟩) |
    ⟨field, declared, rfl⟩) | ⟨method, declared, inDecl | inBody⟩
  · exact named.types.base type held base extended
  · exact named.types.interfaces type held interface listed
  · have inside := (Graph.mem_fieldsOf.mp declared).1
    exact (named.members.fields _ (Graph.field_mem inside)).type
  · have inside := ((program.graph.mem_methodsOf _ _).mp declared).1
    have known := named.members.methods _ (Graph.method_mem inside)
    rcases List.mem_cons.mp inDecl with rfl | inParameters
    · exact known.returnType
    · obtain ⟨parameter, among, rfl⟩ := List.mem_map.mp inParameters
      have forms := known.parameters parameter among
      change program.graph.Forms _
      split
      · exact forms.pointee
      · exact forms
  · cases present : program.bodies.get? method with
    | none =>
        rw [present] at inBody
        cases inBody
    | some body =>
        rw [present] at inBody
        exact named.bodies method body present mention inBody

end Program

end NullWeave
