import NullWeave.Proofs.Text.Reprinting
import NullWeave.Proofs.Text.WrittenTypes

/-!
# Names that are captured

A full name is looked up like any other name: among the types nested in the
type where it is written and in those around it, then in the namespace of the
outermost one, and only then as a full name.  Another type may answer first.
Printing writes full names all the same, so what is mentioned in a type is read
back exactly if no word and no other type captures a name that is written for
it there.
-/

namespace NullWeave

namespace Graph

variable {graph : Graph} {scope type : TypeId}

/-! ## Captured names -/

/-- Does no word and no other type answer to the full name of a type where it is written? -/
structure Uncaptured (graph : Graph) (scope type : TypeId) : Prop where
  noWord : systemWord? (graph.typeName type) = none
  noType : ∀ name ∈ (scope :: (graph.type scope).enclosing).flatMap
    (graph.namesBeside (graph.typeName type)), graph.typeNamed? name = none

/-- A name beside a type is longer than the name that was written. -/
theorem length_lt_of_mem_namesBeside {name beside : String} {place : TypeId}
    (member : beside ∈ graph.namesBeside name place) : name.length < beside.length := by
  have slash : "/".length = 1 := rfl
  have dot : ".".length = 1 := rfl
  simp only [namesBeside, List.mem_cons] at member
  rcases member with rfl | member
  · simp only [String.length_append]
    omega
  · split at member
    · rw [List.mem_singleton] at member
      subst member
      simp only [String.length_append]
      omega
    · cases member

/-- The words of the library mean types whose full names are other words. -/
theorem typeName_ne_of_systemWord? (library : graph.NamesSystemTypes) {word : String}
    (means : systemWord? word = some type) : graph.typeName type ≠ word := by
  unfold systemWord? at means
  split at means <;> cases means <;>
    rw [library.typeName_eq (by decide) (by decide)] <;> decide

/-- A full name means its type where it is written exactly if it is not captured there. -/
theorem typeInScope_typeName_iff (named : graph.TypesNamed) (library : graph.NamesSystemTypes)
    (known : graph.HasType type) :
    graph.typeInScope scope (graph.typeName type) = .ok type ↔ graph.Uncaptured scope type := by
  have alone := named.typeNamed?_eq_some_iff.mpr ⟨known, rfl⟩
  unfold typeInScope
  cases word : systemWord? (graph.typeName type) with
  | some other =>
      dsimp only
      refine iff_of_false ?_ fun free => ?_
      · intro same
        cases same
        exact typeName_ne_of_systemWord? library word rfl
      · rw [free.noWord] at word
        cases word
  | none =>
      dsimp only
      rw [namesInScope, List.findSome?_append]
      cases beside : ((scope :: (graph.type scope).enclosing).flatMap
          (graph.namesBeside (graph.typeName type))).findSome? graph.typeNamed? with
      | some other =>
          refine iff_of_false ?_ fun free => ?_
          · intro same
            cases same
            obtain ⟨name, member, found⟩ := List.exists_of_findSome?_eq_some beside
            obtain ⟨place, -, near⟩ := List.mem_flatMap.mp member
            have longer := length_lt_of_mem_namesBeside near
            rw [← (hasType_of_typeNamed? found).2] at longer
            exact absurd longer (Nat.lt_irrefl _)
          · rw [List.findSome?_eq_none_iff.mpr free.noType] at beside
            cases beside
      | none =>
          refine iff_of_true ?_ ⟨word, List.findSome?_eq_none_iff.mp beside⟩
          simp [alone]

/-- A word that is written for a type means the type wherever it is written. -/
theorem typeInScope_word (named : graph.TypesNamed) (library : graph.NamesSystemTypes)
    (known : graph.HasType type) {word : String}
    (written : wordForName? (graph.typeName type) = some word) :
    graph.typeInScope scope word = .ok type := by
  have means : ∃ other, systemWord? word = some other ∧
      other.index < system.types.size ∧ (system.type other).enclosing = [] ∧
        system.typeName other = graph.typeName type := by
    unfold wordForName? at written
    split at written <;> cases written <;> rename_i same <;> rw [same] <;>
      exact ⟨_, rfl, by decide, by decide, by decide⟩
  obtain ⟨other, means, small, outermost, same⟩ := means
  rw [← library.typeName_eq small outermost] at same
  obtain rfl := named.apart other type (named.hasType_of_systemWord? means) known same
  rw [typeInScope, means]

/-- Signatures as they are written mean the signatures if each of them does. -/
theorem signaturesOf_exprWritten_iff {signatures : List Signature}
    (each : ∀ signature ∈ signatures,
      graph.resolve scope (graph.exprWritten signature) = .ok signature ↔
        ∀ type ∈ graph.typesWritten signature, graph.Uncaptured scope type) :
    graph.signaturesOf scope (signatures.map graph.exprWritten) = .ok signatures ↔
      ∀ type ∈ signatures.flatMap graph.typesWritten, graph.Uncaptured scope type := by
  rw [signaturesOf_eq_mapM, mapM_eq_ok_iff, List.forall₂_map_left_iff, List.forall₂_same]
  constructor
  · intro read type member
    obtain ⟨signature, among, written⟩ := List.mem_flatMap.mp member
    exact (each signature among).mp (read signature among) type written
  · intro free signature among
    exact (each signature among).mpr fun type written =>
      free type (List.mem_flatMap.mpr ⟨signature, among, written⟩)

/-- A signature as it is written means the signature exactly if no name in it is captured. -/
theorem Forms.resolve_exprWritten_iff (named : graph.TypesNamed)
    (library : graph.NamesSystemTypes) {signature : Signature}
    (forms : graph.Forms signature) :
    graph.resolve scope (graph.exprWritten signature) = .ok signature ↔
      ∀ type ∈ graph.typesWritten signature, graph.Uncaptured scope type := by
  induction forms with
  | void | param _ =>
      exact iff_of_true rfl (List.forall_mem_nil _)
  | @named type known =>
      rw [exprWritten, resolve, bind_eq_ok_iff, typesWritten, typeWritten]
      cases word : wordForName? (graph.typeName type) with
      | some word =>
          refine iff_of_true ⟨type, ?_, rfl⟩ (List.forall_mem_nil _)
          exact typeInScope_word named library known word
      | none =>
          rw [Option.getD_none]
          simp only [Option.isSome_none, Bool.false_eq_true, if_false,
            List.forall_mem_singleton]
          rw [← typeInScope_typeName_iff named library known]
          constructor
          · rintro ⟨other, found, same⟩
            cases same
            exact found
          · exact fun found => ⟨type, found, rfl⟩
  | byRef _ inductionHypothesis | array _ inductionHypothesis =>
      rw [exprWritten, resolve, bind_eq_ok_iff, typesWritten, ← inductionHypothesis]
      constructor
      · rintro ⟨other, found, same⟩
        cases same
        exact found
      · exact fun found => ⟨_, found, rfl⟩
  | @generic type arguments known _ takes _ inductionHypothesis =>
      rw [exprWritten, resolve_generic_eq_ok_iff, typesWritten, List.forall_mem_cons,
        ← typeInScope_typeName_iff named library known, allTypesWritten_eq_flatMap,
        allExprsWritten_eq_map]
      have inside := signaturesOf_exprWritten_iff inductionHypothesis
      rw [← inside]
      constructor
      · rintro ⟨other, signatures, found, -, read, same⟩
        cases same
        exact ⟨found, read⟩
      · rintro ⟨found, read⟩
        exact ⟨type, arguments, found, by rw [takes, List.length_map], read, rfl⟩

theorem definitionOf_named (graph : Graph) (scope : TypeId) (name : String) :
    graph.definitionOf scope (.named name) = graph.typeInScope scope name := by
  rw [definitionOf, resolve]
  cases graph.typeInScope scope name <;> rfl

/-! ## What is mentioned in writing -/

/-- What is mentioned as it is written. -/
def mentionWritten (graph : Graph) : Mention → String
  | .type type => graph.typeName type
  | .signature signature => graph.sigWritten signature
  | .field field => graph.fieldWritten field
  | .method method => graph.methodWritten method

/-- The types whose full names are written for what is mentioned. -/
def typesMentioned (graph : Graph) : Mention → List TypeId
  | .type type => [type]
  | .signature signature => graph.typesWritten signature
  | .field field => [(graph.field field).owner]
  | .method method =>
      let decl := graph.method method
      decl.owner :: decl.parameters.flatMap fun parameter => graph.typesWritten parameter.type

/-- The lexemes of what is mentioned as it is written. -/
def lexemesMentioned (graph : Graph) : Mention → List Lexeme
  | .type type => [.name (graph.typeName type)]
  | .signature signature => graph.lexemesWritten signature
  | .field field =>
      let decl := graph.field field
      [.name (graph.typeName decl.owner), .doubleColon, .name decl.name]
  | .method method =>
      let decl := graph.method method
      .name (graph.typeName decl.owner) :: .doubleColon :: .name decl.name :: .mark '(' ::
        ([.mark ','].intercalate (decl.parameters.map fun parameter =>
          graph.lexemesWritten parameter.type) ++ [.mark ')'])

theorem lexLine_doubleColon (rest : List Char) :
    lexLine (':' :: ':' :: rest) = ([.doubleColon] ++ ·) <$> lexLine rest := by
  have notBlank : isBlank ':' = false := by decide
  have noComment := beginsComment_of_ne (show ':' ≠ '/' by decide) (':' :: rest)
  rw [lexLine_cons, lexStep, notBlank, noComment]
  rfl

/-- The double colon between a type and the name of a member ends the one and is not part of the other. -/
theorem lexes_member {owner name : String} (ownerNamed : isName owner = true)
    (named : isName name = true) :
    Lexes (owner ++ "::" ++ name) [.name owner, .doubleColon, .name name] := by
  intro rest ends
  rw [String.toList_append, String.toList_append, List.append_assoc, List.append_assoc]
  change lexLine (owner.toList ++ ':' :: ':' :: (name.toList ++ rest)) = _
  rw [lexes_name ownerNamed _ (endsName_mark (by decide) _), lexLine_doubleColon,
    lexes_name named rest ends, map_append_map, map_append_map]
  rfl

/-- What is mentioned is lexed as its lexemes. -/
theorem Knows.lexLine_mentionWritten {mention : Mention} (knows : graph.Knows mention)
    (members : graph.MembersKnown)
    (plain : ∀ type ∈ graph.typesMentioned mention, graph.PlainlyNamed type) :
    lexLine (graph.mentionWritten mention).toList = .ok (graph.lexemesMentioned mention) := by
  suffices lexes : Lexes (graph.mentionWritten mention) (graph.lexemesMentioned mention) by
    have whole := lexes [] endsName_nil
    rw [List.append_nil] at whole
    rw [whole]
    exact congrArg Except.ok (List.append_nil _)
  cases mention with
  | type type =>
      exact lexes_name (plain type (List.mem_singleton_self _)).isName
  | signature signature =>
      exact Forms.lexes knows plain
  | field field =>
      have known := members.fields _ (field_mem knows)
      exact lexes_member (plain _ (List.mem_singleton_self _)).isName known.name
  | method method =>
      have known := members.methods _ (method_mem knows)
      obtain ⟨ownerPlain, inside⟩ := List.forall_mem_cons.mp plain
      have pieces : List.Forall₂ Lexes
          ((graph.method method).parameters.map fun parameter =>
            graph.sigWritten parameter.type)
          ((graph.method method).parameters.map fun parameter =>
            graph.lexemesWritten parameter.type) := by
        rw [List.forall₂_map_left_iff, List.forall₂_map_right_iff, List.forall₂_same]
        intro parameter member
        exact (known.parameters parameter member).lexes fun type written =>
          inside type (List.mem_flatMap.mpr ⟨parameter, member, written⟩)
      intro rest ends
      rw [mentionWritten, methodWritten, String.toList_append, String.toList_append,
        String.toList_append, List.append_assoc, List.append_assoc, List.append_assoc]
      change lexLine ((graph.typeName (graph.method method).owner ++ "::" ++
        (graph.method method).name).toList ++ '(' :: (_ ++ ')' :: rest)) = _
      rw [lexes_member ownerPlain.isName known.name _ (endsName_mark (by decide) _),
        lexLine_singleMark (by decide) (by decide),
        lexes_commaSeparated pieces _ (endsName_mark (by decide) _),
        lexLine_singleMark (by decide) (by decide), map_append_map, map_append_map,
        map_append_map, lexemesMentioned]
      simp

end Graph

/-! ## Members on their own types -/

/-- The chain of types that a type extends begins with the type. -/
theorem Graph.exists_baseChain_eq_cons {graph : Graph} {type : TypeId}
    (known : graph.HasType type) : ∃ rest, graph.baseChain type = type :: rest := by
  obtain ⟨steps, size⟩ := Nat.exists_eq_add_one_of_ne_zero (Nat.ne_zero_of_lt known)
  exact ⟨_, by rw [baseChain, size, baseChainWithin]⟩

namespace BodyScope

variable {scope : BodyScope}

/-- A field is found on its own type. -/
theorem fieldOn_owner (members : scope.graph.MembersKnown) {field : FieldId}
    (known : field.index < scope.graph.fields.size) :
    scope.fieldOn (scope.graph.field field).owner (scope.graph.field field).name =
      .ok field := by
  obtain ⟨rest, chain⟩ := Graph.exists_baseChain_eq_cons
    (members.fields _ (Graph.field_mem known)).owner
  rw [fieldOn, chain, List.findSome?_cons, members.findField? field known]

/-- A method is one of the candidates on its own type. -/
theorem mem_candidates_owner {method : MethodId}
    (known : method.index < scope.graph.methods.size) :
    method ∈ scope.candidates (scope.graph.method method).owner
      (scope.graph.method method).name (scope.graph.method method).parameters.length := by
  simp [candidates, Graph.methodsNamed, Graph.mem_methodsOf, known]

theorem nodup_candidates (type : TypeId) (name : String) (arity : Nat) :
    (scope.candidates type name arity).Nodup := by
  have ids : scope.graph.methodIds.Nodup :=
    List.nodup_range.map fun _ _ same => congrArg MethodId.index same
  exact ((ids.filter _).filter _).filter _

/-- Among several candidates a method is told apart by the types of its parameters. -/
theorem chooseMethod_owner (members : scope.graph.MembersKnown) {method : MethodId}
    (known : method.index < scope.graph.methods.size) {parameters : List TypeExpr}
    (resolved : scope.graph.signaturesOf scope.method.owner parameters =
      .ok ((scope.graph.method method).parameters.map (·.type))) :
    scope.chooseMethod (scope.graph.method method).owner (scope.graph.method method).name
        parameters
        (scope.candidates (scope.graph.method method).owner (scope.graph.method method).name
          (scope.graph.method method).parameters.length) =
      .ok method := by
  have member := mem_candidates_owner known
  unfold chooseMethod
  split
  · rename_i only single
    rw [single, List.mem_singleton] at member
    rw [member]
  · have alone : (scope.candidates (scope.graph.method method).owner
        (scope.graph.method method).name
        (scope.graph.method method).parameters.length).filter (fun other =>
          scope.graph.parameterNames (scope.graph.method other) ==
            scope.graph.sigNames ((scope.graph.method method).parameters.map (·.type))) =
        [method] := by
      rw [Graph.sigNames_eq_map, List.map_map]
      refine Eq.trans (List.filter_congr (q := (· == method)) fun other among => ?_) ?_
      · obtain ⟨ofName, -⟩ := List.mem_filter.mp among
        obtain ⟨ofOwner, sameName⟩ := List.mem_filter.mp ofName
        obtain ⟨inside, sameOwner⟩ := (scope.graph.mem_methodsOf _ _).mp ofOwner
        rw [Bool.eq_iff_iff, beq_iff_eq, beq_iff_eq]
        constructor
        · intro sameTypes
          refine members.methodsApart other method inside known sameOwner ?_
          rw [Graph.sameMethodSignature, sameName, Bool.true_and, beq_iff_eq]
          exact sameTypes
        · rintro rfl
          rfl
      · rw [List.filter_beq, List.count_eq_one_of_mem (nodup_candidates _ _ _) member]
        rfl
    refine bind_eq_ok_iff.mpr ⟨_, resolved, ?_⟩
    dsimp only
    rw [alone]
    rfl

/-- A method is found on its own type. -/
theorem methodOn_owner (members : scope.graph.MembersKnown) {method : MethodId}
    (known : method.index < scope.graph.methods.size) {parameters : List TypeExpr}
    (resolved : scope.graph.signaturesOf scope.method.owner parameters =
      .ok ((scope.graph.method method).parameters.map (·.type)))
    (sameArity : parameters.length = (scope.graph.method method).parameters.length) :
    scope.methodOn (scope.graph.method method).owner (scope.graph.method method).name
      parameters = .ok method := by
  obtain ⟨rest, chain⟩ := Graph.exists_baseChain_eq_cons
    (members.methods _ (Graph.method_mem known)).owner
  have member := mem_candidates_owner known
  have chosen := chooseMethod_owner members known resolved
  rw [methodOn, chain, List.findSome?_cons, sameArity]
  cases candidates : scope.candidates (scope.graph.method method).owner
      (scope.graph.method method).name (scope.graph.method method).parameters.length with
  | nil =>
      rw [candidates] at member
      cases member
  | cons first others =>
      rw [candidates] at chosen
      exact chosen

end BodyScope

/-! ## Reading back -/

namespace LineReader

/-- A full name that is a plain word is read as a named type. -/
theorem run_type_name {graph : Graph} {type : TypeId} (plain : graph.PlainlyNamed type)
    {left : List Lexeme} (ends : EndsType left) :
    LineReader.type.run (.name (graph.typeName type) :: left) =
      .ok (.named (graph.typeName type), left) := by
  change (typeWithin (2 * (left.length + 1))).run (.name (graph.typeName type) :: left) = _
  rw [Nat.mul_succ, typeWithin, run_requireName_bind,
    run_bind_of_ok (run_typeAfterName_named plain.notVoid plain.notParameter
      ends.toEndsTypeName), run_suffixes, ends.withSuffixes]

end LineReader

namespace BodyScope

variable {scope : BodyScope}

/-- Take what is mentioned, of the same sort as a mention that was written. -/
def readMention (scope : BodyScope) : Mention → LineReader Mention
  | .type _ => do
      let text ← LineReader.type
      let type ← scope.graph.definitionOf scope.method.owner text
      pure (.type type)
  | .signature _ => do
      let signature ← scope.typeOperand
      pure (.signature signature)
  | .field _ => do
      let field ← scope.fieldOperand
      pure (.field field)
  | .method _ => do
      let method ← scope.methodOperand
      pure (.method method)

/-- Is what is mentioned read back where it is written? -/
def ReadsBack (scope : BodyScope) (mention : Mention) : Prop :=
  ∃ lexemes, lexLine (scope.graph.mentionWritten mention).toList = .ok lexemes ∧
    (scope.readMention mention).run lexemes = .ok (mention, [])

theorem readsBack_iff {mention : Mention} {lexemes : List Lexeme}
    (lexed : lexLine (scope.graph.mentionWritten mention).toList = .ok lexemes) :
    scope.ReadsBack mention ↔
      (scope.readMention mention).run lexemes = .ok (mention, []) := by
  constructor
  · rintro ⟨others, lexedToo, ran⟩
    rw [lexed] at lexedToo
    cases lexedToo
    exact ran
  · exact fun ran => ⟨lexemes, lexed, ran⟩

/-- What is looked up without reading is looked up after what was read. -/
theorem run_lift_map {α β : Type} (result : Except TextFault α) (make : α → β)
    (left : List Lexeme) :
    (do let value ← (result : LineReader α); pure (make value) : LineReader β).run left =
      result.map fun value => (make value, left) := by
  cases result <;> rfl

/-- The types of parameters that are written are read one by one. -/
theorem run_parametersWritten {parameters : List Parameter}
    (known : ∀ parameter ∈ parameters, scope.graph.Forms parameter.type)
    (plain : ∀ type ∈ parameters.flatMap fun parameter =>
      scope.graph.typesWritten parameter.type, scope.graph.PlainlyNamed type)
    (left : List Lexeme) :
    (LineReader.parenthesized LineReader.type).run
        (.mark '(' :: ([.mark ','].intercalate (parameters.map fun parameter =>
          scope.graph.lexemesWritten parameter.type) ++ .mark ')' :: left)) =
      .ok (parameters.map fun parameter => scope.graph.exprWritten parameter.type, left) := by
  refine LineReader.run_parenthesized ?_ (fun piece member => ?_) left
  · rw [List.forall₂_map_left_iff, List.forall₂_map_right_iff, List.forall₂_same]
    intro parameter member mark isEnd rest
    refine (known parameter member).run_type (fun type written => ?_)
      (LineReader.endsType_mark ?_ rest)
    · exact plain type (List.mem_flatMap.mpr ⟨parameter, member, written⟩)
    · simp only [List.mem_cons, List.not_mem_nil, or_false] at isEnd ⊢
      exact isEnd.imp_right .inr
  · obtain ⟨parameter, -, rfl⟩ := List.mem_map.mp member
    obtain ⟨name, rest, begins⟩ := scope.graph.exists_lexemesWritten_eq_cons parameter.type
    exact ⟨_, rest, begins, nofun⟩

section Types

variable (named : scope.graph.TypesNamed) (library : scope.graph.NamesSystemTypes)

include named library

/-- A full name is read back exactly if it is not captured. -/
theorem readsBack_type_iff {type : TypeId} (known : scope.graph.HasType type)
    (plain : scope.graph.PlainlyNamed type) :
    scope.ReadsBack (.type type) ↔ scope.graph.Uncaptured scope.method.owner type := by
  have lexed : lexLine (scope.graph.mentionWritten (.type type)).toList =
      .ok [.name (scope.graph.typeName type)] :=
    lexLine_mnemonic plain.isName
  rw [readsBack_iff lexed, readMention,
    LineReader.run_bind_of_ok (LineReader.run_type_name plain LineReader.endsType_nil),
    run_lift_map, Graph.definitionOf_named, ← Graph.typeInScope_typeName_iff named library known]
  cases scope.graph.typeInScope scope.method.owner (scope.graph.typeName type) <;>
    simp [Except.map]

/-- A signature is read back exactly if no name in it is captured. -/
theorem readsBack_signature_iff {signature : Signature}
    (forms : scope.graph.Forms signature)
    (plain : ∀ type ∈ scope.graph.typesWritten signature, scope.graph.PlainlyNamed type) :
    scope.ReadsBack (.signature signature) ↔
      ∀ type ∈ scope.graph.typesWritten signature,
        scope.graph.Uncaptured scope.method.owner type := by
  have lexed : lexLine (scope.graph.mentionWritten (.signature signature)).toList =
      .ok (scope.graph.lexemesWritten signature) := by
    have whole := forms.lexes plain [] endsName_nil
    rw [List.append_nil] at whole
    rw [Graph.mentionWritten, whole]
    exact congrArg Except.ok (List.append_nil _)
  have ran := forms.run_type plain LineReader.endsType_nil
  rw [List.append_nil] at ran
  rw [readsBack_iff lexed, ← forms.resolve_exprWritten_iff named library]
  rw [readMention, typeOperand, bind_assoc, LineReader.run_bind_of_ok ran, run_lift_map]
  cases scope.graph.resolve scope.method.owner (scope.graph.exprWritten signature) <;>
    simp [Except.map]

/-- A type in front of a member is taken back if its name is not captured. -/
theorem run_ownerOperand {type : TypeId} (known : scope.graph.HasType type)
    (plain : scope.graph.PlainlyNamed type)
    (free : scope.graph.Uncaptured scope.method.owner type) (left : List Lexeme) :
    scope.ownerOperand.run
        (.name (scope.graph.typeName type) :: .doubleColon :: left) =
      .ok (type, left) := by
  have means := (Graph.typeInScope_typeName_iff named library known).mpr free
  rw [ownerOperand,
    LineReader.run_bind_of_ok
      (LineReader.run_type_name plain (LineReader.endsType_doubleColon left)),
    LineReader.run_bind_of_ok (LineReader.run_next?_cons .doubleColon left)]
  change (scope.graph.definitionOf scope.method.owner _ : LineReader TypeId).run left = _
  rw [Graph.definitionOf_named, means]
  rfl

/-- A field is read back if the name of its type is not captured. -/
theorem readsBack_field (members : scope.graph.MembersKnown) {field : FieldId}
    (known : field.index < scope.graph.fields.size)
    (plain : scope.graph.PlainlyNamed (scope.graph.field field).owner)
    (free : scope.graph.Uncaptured scope.method.owner (scope.graph.field field).owner) :
    scope.ReadsBack (.field field) := by
  have knows : scope.graph.Knows (.field field) := known
  have lexed := knows.lexLine_mentionWritten members
    (List.forall_mem_singleton.mpr plain)
  have owner := (members.fields _ (Graph.field_mem known)).owner
  have withOwner : scope.fieldOperand.run (scope.graph.lexemesMentioned (.field field)) =
      (scope.ownerOperand >>= fun owner => do
        let name ← LineReader.requireName
        scope.fieldOn owner name).run (scope.graph.lexemesMentioned (.field field)) := rfl
  have ran : scope.fieldOperand.run (scope.graph.lexemesMentioned (.field field)) =
      .ok (field, []) := by
    rw [withOwner, Graph.lexemesMentioned,
      LineReader.run_bind_of_ok (run_ownerOperand named library owner plain free _),
      LineReader.run_bind_of_ok (LineReader.run_requireName _ _), fieldOn_owner members known]
    rfl
  rw [readsBack_iff lexed, readMention, LineReader.run_bind_of_ok ran]
  rfl

/-- A method is read back if no name that is written for it is captured. -/
theorem readsBack_method (members : scope.graph.MembersKnown) {method : MethodId}
    (known : method.index < scope.graph.methods.size)
    (plain : ∀ type ∈ scope.graph.typesMentioned (.method method),
      scope.graph.PlainlyNamed type)
    (free : ∀ type ∈ scope.graph.typesMentioned (.method method),
      scope.graph.Uncaptured scope.method.owner type) :
    scope.ReadsBack (.method method) := by
  have knows : scope.graph.Knows (.method method) := known
  have lexed := knows.lexLine_mentionWritten members plain
  have declared := members.methods _ (Graph.method_mem known)
  obtain ⟨ownerPlain, plainParameters⟩ := List.forall_mem_cons.mp plain
  obtain ⟨ownerFree, freeParameters⟩ := List.forall_mem_cons.mp free
  have parametersRead :=
    run_parametersWritten declared.parameters plainParameters
  have resolved : scope.graph.signaturesOf scope.method.owner
      ((scope.graph.method method).parameters.map fun parameter =>
        scope.graph.exprWritten parameter.type) =
        .ok ((scope.graph.method method).parameters.map (·.type)) := by
    have free := @Graph.signaturesOf_exprWritten_iff scope.graph scope.method.owner
      ((scope.graph.method method).parameters.map (·.type)) ?_
    · rw [List.map_map, List.flatMap_map] at free
      exact free.mpr freeParameters
    · intro signature among
      obtain ⟨parameter, member, rfl⟩ := List.mem_map.mp among
      exact (declared.parameters parameter member).resolve_exprWritten_iff named library
  rw [readsBack_iff lexed, readMention, methodOperand, Graph.lexemesMentioned, bind_assoc,
    LineReader.run_bind_of_ok
      (run_ownerOperand named library declared.owner ownerPlain ownerFree _),
    bind_assoc, LineReader.run_bind_of_ok (LineReader.run_requireName _ _), bind_assoc,
    LineReader.run_bind_of_ok (parametersRead []), run_lift_map,
    methodOn_owner members known resolved (List.length_map _)]
  rfl

end Types

end BodyScope

end NullWeave
