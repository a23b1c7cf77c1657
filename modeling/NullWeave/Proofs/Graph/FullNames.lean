import NullWeave.Proofs.Graph.Consistency
import NullWeave.Proofs.Text.LoadedProgram
import NullWeave.Proofs.Text.Spelling

/-!
# Full names tell members apart

The full name of a field or a method puts the names of types next to marks that
no name is spelled with, so it can be taken apart again.  Only the list of the
types of parameters needs care: the commas between them stand outside of angle
brackets, those between generic arguments inside.  The list is known from its
text if none of the types has an empty name, and only a generic parameter without
a name has one.
-/

namespace NullWeave

/-! ## Texts around a mark -/

/-- The texts around a mark are known from the whole text if neither goes on with the mark. -/
theorem append_cons_inj_of_ne {mark : Char} {front other rest restToo : List Char}
    (ends : ∀ between, other ≠ front ++ mark :: between)
    (endsToo : ∀ between, front ≠ other ++ mark :: between)
    (same : front ++ mark :: rest = other ++ mark :: restToo) :
    front = other ∧ rest = restToo := by
  rcases List.append_eq_append_iff.mp same with ⟨between, whole, there⟩ | ⟨between, whole, there⟩
  · cases between with
    | nil =>
        rw [List.append_nil] at whole
        exact ⟨whole.symm, (List.cons.inj there).2⟩
    | cons c between =>
        obtain ⟨rfl, -⟩ := List.cons.inj there
        exact absurd whole (ends between)
  · cases between with
    | nil =>
        rw [List.append_nil] at whole
        exact ⟨whole, (List.cons.inj there).2.symm⟩
    | cons c between =>
        obtain ⟨rfl, -⟩ := List.cons.inj there
        exact absurd whole (endsToo between)

/-- The texts around the first of some marks are known from the whole text. -/
theorem append_cons_inj {mark : Char} {front other rest restToo : List Char}
    (absent : mark ∉ front) (absentToo : mark ∉ other)
    (same : front ++ mark :: rest = other ++ mark :: restToo) :
    front = other ∧ rest = restToo :=
  append_cons_inj_of_ne (fun between whole => absentToo (by simp [whole]))
    (fun between whole => absent (by simp [whole])) same

/-! ## Commas outside of brackets -/

/--
The depth of angle brackets after one more character.

There is none if a bracket is closed that was not opened, or if a comma stands
outside of all brackets.
-/
def depthAfter? (depth : Nat) (c : Char) : Option Nat :=
  if c = '<' then some (depth + 1)
  else if c = '>' then if depth = 0 then none else some (depth - 1)
  else if c = ',' ∧ depth = 0 then none
  else some depth

/-- Are all brackets closed that are opened, and all commas between brackets? -/
def IsEnclosed (chars : List Char) : Prop := chars.foldlM depthAfter? 0 = some 0

instance (chars : List Char) : Decidable (IsEnclosed chars) :=
  inferInstanceAs (Decidable (chars.foldlM depthAfter? 0 = some 0))

theorem depthAfter?_add {depth deeper : Nat} {c : Char}
    (goes : depthAfter? depth c = some deeper) (more : Nat) :
    depthAfter? (depth + more) c = some (deeper + more) := by
  unfold depthAfter? at goes ⊢
  by_cases opens : c = '<'
  · rw [if_pos opens] at goes ⊢
    cases goes
    rw [Nat.add_right_comm]
  rw [if_neg opens] at goes ⊢
  by_cases closes : c = '>'
  · rw [if_pos closes] at goes ⊢
    cases depth with
    | zero =>
        cases goes
    | succ depth =>
        cases goes
        have deep : depth + 1 + more ≠ 0 := by omega
        rw [if_neg deep, Nat.add_right_comm]
        rfl
  rw [if_neg closes] at goes ⊢
  by_cases outside : c = ',' ∧ depth = 0
  · rw [if_pos outside] at goes
    cases goes
  · rw [if_neg outside] at goes
    cases goes
    have inside : ¬ (c = ',' ∧ depth + more = 0) :=
      fun both => outside ⟨both.1, by omega⟩
    rw [if_neg inside]

/-- Characters that leave a depth leave a greater one as much greater. -/
theorem foldlM_depthAfter?_add {depth deeper : Nat} {chars : List Char}
    (goes : chars.foldlM depthAfter? depth = some deeper) (more : Nat) :
    chars.foldlM depthAfter? (depth + more) = some (deeper + more) := by
  induction chars generalizing depth with
  | nil =>
      cases goes
      rfl
  | cons c rest inductionHypothesis =>
      rw [List.foldlM_cons, Option.bind_eq_bind, Option.bind_eq_some_iff] at goes
      obtain ⟨next, here, later⟩ := goes
      rw [List.foldlM_cons, depthAfter?_add here more]
      exact inductionHypothesis later

/-- Characters that are no such marks leave the depth. -/
theorem foldlM_depthAfter?_plain {chars : List Char}
    (plain : ∀ c ∈ chars, c ∉ ['<', '>', ',']) (depth : Nat) :
    chars.foldlM depthAfter? depth = some depth := by
  induction chars with
  | nil =>
      rfl
  | cons c rest inductionHypothesis =>
      obtain ⟨here, later⟩ := List.forall_mem_cons.mp plain
      simp only [List.mem_cons, List.not_mem_nil, or_false, not_or] at here
      have stays : depthAfter? depth c = some depth := by
        unfold depthAfter?
        rw [if_neg here.1, if_neg here.2.1, if_neg fun comma => here.2.2 comma.1]
      rw [List.foldlM_cons, stays]
      exact inductionHypothesis later

namespace IsEnclosed

variable {first second : List Char}

theorem append (enclosed : IsEnclosed first) (enclosedToo : IsEnclosed second) :
    IsEnclosed (first ++ second) := by
  rw [IsEnclosed, List.foldlM_append, enclosed]
  exact enclosedToo

/-- A comma behind a text that is enclosed does not stand between brackets. -/
theorem not_append_comma (enclosed : IsEnclosed first) (rest : List Char) :
    ¬ IsEnclosed (first ++ ',' :: rest) := by
  intro whole
  rw [IsEnclosed, List.foldlM_append, enclosed] at whole
  cases whole

/-- What stands before the first comma outside of brackets is known from the whole text. -/
theorem cut_inj (enclosed : IsEnclosed first) (enclosedToo : IsEnclosed second)
    {rest restToo : List Char} (same : first ++ ',' :: rest = second ++ ',' :: restToo) :
    first = second ∧ rest = restToo :=
  append_cons_inj_of_ne
    (fun between whole => enclosed.not_append_comma between (whole ▸ enclosedToo))
    (fun between whole => enclosedToo.not_append_comma between (whole ▸ enclosed)) same

/-- Texts that are enclosed, with commas between them, between brackets. -/
theorem brackets {pieces : List (List Char)} (enclosed : ∀ piece ∈ pieces, IsEnclosed piece) :
    IsEnclosed ('<' :: ([','].intercalate pieces ++ ['>'])) := by
  have inside : ([','].intercalate pieces).foldlM depthAfter? 1 = some 1 := by
    induction pieces with
    | nil =>
        rfl
    | cons piece rest inductionHypothesis =>
        obtain ⟨here, later⟩ := List.forall_mem_cons.mp enclosed
        have piece := foldlM_depthAfter?_add here 1
        cases rest with
        | nil =>
            rw [List.intercalate_singleton]
            exact piece
        | cons next others =>
            rw [List.intercalate_cons_cons, List.append_assoc, List.foldlM_append, piece]
            exact inductionHypothesis later
  change List.foldlM depthAfter? 1 ([','].intercalate pieces ++ ['>']) = some 0
  rw [List.foldlM_append, inside]
  rfl

end IsEnclosed

theorem mem_of_mem_intercalate_comma {pieces : List (List Char)} {c : Char}
    (member : c ∈ [','].intercalate pieces) : c = ',' ∨ ∃ piece ∈ pieces, c ∈ piece := by
  induction pieces with
  | nil =>
      cases member
  | cons piece rest inductionHypothesis =>
      cases rest with
      | nil =>
          rw [List.intercalate_singleton] at member
          exact .inr ⟨piece, List.mem_cons_self, member⟩
      | cons next others =>
          rw [List.intercalate_cons_cons, List.append_assoc, List.mem_append] at member
          rcases member with here | later
          · exact .inr ⟨piece, List.mem_cons_self, here⟩
          · rcases List.mem_cons.mp later with rfl | further
            · exact .inl rfl
            · refine (inductionHypothesis further).imp_right ?_
              rintro ⟨other, among, inside⟩
              exact ⟨other, List.mem_cons_of_mem _ among, inside⟩

/-- Texts that are enclosed and not empty are known from the text with commas between them. -/
theorem intercalate_comma_inj {pieces others : List (List Char)}
    (enclosed : ∀ piece ∈ pieces, IsEnclosed piece ∧ piece ≠ [])
    (enclosedToo : ∀ piece ∈ others, IsEnclosed piece ∧ piece ≠ [])
    (same : [','].intercalate pieces = [','].intercalate others) : pieces = others := by
  have shown {piece : List Char} (some : piece ≠ []) (rest : List (List Char)) :
      [','].intercalate (piece :: rest) ≠ [] := by
    cases rest with
    | nil =>
        rwa [List.intercalate_singleton]
    | cons next others =>
        rw [List.intercalate_cons_cons, List.append_assoc]
        exact List.append_ne_nil_of_left_ne_nil some _
  induction pieces generalizing others with
  | nil =>
      cases others with
      | nil =>
          rfl
      | cons other rest =>
          exact absurd same.symm (shown (enclosedToo other List.mem_cons_self).2 rest)
  | cons piece rest inductionHypothesis =>
      obtain ⟨⟨here, some⟩, later⟩ := List.forall_mem_cons.mp enclosed
      cases others with
      | nil =>
          exact absurd same (shown some rest)
      | cons other restToo =>
          obtain ⟨⟨hereToo, -⟩, laterToo⟩ := List.forall_mem_cons.mp enclosedToo
          -- One text with a comma behind it and one without differ in what is enclosed.
          cases rest with
          | nil =>
              cases restToo with
              | nil =>
                  simpa using same
              | cons next further =>
                  rw [List.intercalate_singleton, List.intercalate_cons_cons,
                    List.append_assoc] at same
                  exact absurd (same ▸ here) (hereToo.not_append_comma _)
          | cons next further =>
              cases restToo with
              | nil =>
                  rw [List.intercalate_singleton, List.intercalate_cons_cons,
                    List.append_assoc] at same
                  exact absurd (same ▸ hereToo) (here.not_append_comma _)
              | cons nextToo furtherToo =>
                  rw [List.intercalate_cons_cons, List.intercalate_cons_cons,
                    List.append_assoc, List.append_assoc] at same
                  obtain ⟨rfl, behind⟩ := here.cut_inj hereToo same
                  rw [inductionHypothesis later laterToo behind]

/-! ## Names of signatures -/

/-- A spelled name has none of the marks that end names. -/
theorem IsSpelled.not_mem {text : String} (spelled : IsSpelled text) (mark : Char)
    (ends : continuesName mark = false) : mark ∉ text.toList := by
  intro member
  rw [spelled mark member] at ends
  cases ends

theorem IsSpelled.isEnclosed {text : String} (spelled : IsSpelled text) :
    IsEnclosed text.toList := by
  refine foldlM_depthAfter?_plain (fun c member among => ?_) 0
  have ends : (['<', '>', ','].all fun mark => !continuesName mark) = true := by decide
  have isEnd := List.all_eq_true.mp ends c among
  rw [Bool.not_eq_true'] at isEnd
  exact spelled.not_mem c isEnd member

namespace Graph

variable {graph : Graph}

/-- The full name of a generic instance, as characters. -/
theorem toList_sigName_generic (graph : Graph) (type : TypeId) (arguments : List Signature) :
    (graph.sigName (.generic type arguments)).toList =
      (graph.typeName type).toList ++
        '<' :: ([','].intercalate (arguments.map fun argument =>
          (graph.sigName argument).toList) ++ ['>']) := by
  rw [sigName, sigNames_eq_map]
  simp only [String.toList_append, String.toList_intercalate, List.map_map, List.append_assoc]
  rfl

/-- The full name of a signature has its commas between brackets. -/
theorem IsSpelled.isEnclosed_sigName (spelled : graph.IsSpelled) {signature : Signature}
    (forms : graph.Forms signature) : IsEnclosed (graph.sigName signature).toList := by
  induction forms with
  | void =>
      exact (show NullWeave.IsSpelled "System.Void" by decide).isEnclosed
  | named _ =>
      exact (spelled.typeName _).isEnclosed
  | param written =>
      exact written.isSpelled.isEnclosed
  | byRef _ inductionHypothesis | array _ inductionHypothesis =>
      rw [sigName, String.toList_append]
      exact inductionHypothesis.append (by decide)
  | generic _ _ _ _ inductionHypothesis =>
      rw [toList_sigName_generic]
      refine (spelled.typeName _).isEnclosed.append (.brackets fun piece member => ?_)
      obtain ⟨argument, among, rfl⟩ := List.mem_map.mp member
      exact inductionHypothesis argument among

/-- The full name of a signature has no blank. -/
theorem IsSpelled.blank_not_mem_sigName (spelled : graph.IsSpelled) {signature : Signature}
    (forms : graph.Forms signature) : ' ' ∉ (graph.sigName signature).toList := by
  have ends : continuesName ' ' = false := by decide
  induction forms with
  | void =>
      exact (show NullWeave.IsSpelled "System.Void" by decide).not_mem ' ' ends
  | named _ =>
      exact (spelled.typeName _).not_mem ' ' ends
  | param written =>
      exact written.isSpelled.not_mem ' ' ends
  | byRef _ inductionHypothesis | array _ inductionHypothesis =>
      rw [sigName, String.toList_append, List.mem_append, not_or]
      exact ⟨inductionHypothesis, by decide⟩
  | @generic type arguments _ _ _ _ inductionHypothesis =>
      have apart : ' ' ∉ [','].intercalate (arguments.map fun argument =>
          (graph.sigName argument).toList) := by
        intro member
        rcases mem_of_mem_intercalate_comma member with comma | ⟨piece, among, inside⟩
        · exact absurd comma (by decide)
        · obtain ⟨argument, listed, rfl⟩ := List.mem_map.mp among
          exact inductionHypothesis argument listed inside
      rw [toList_sigName_generic]
      simp only [List.mem_append, List.mem_cons, List.not_mem_nil, or_false, not_or]
      exact ⟨(spelled.typeName type).not_mem ' ' ends, by decide, apart, by decide⟩

/-- Texts with commas between them are known if they are full names that are not empty. -/
theorem IsSpelled.sigNames_inj (spelled : graph.IsSpelled) {first second : List Signature}
    (shown : ∀ signature ∈ first, graph.Forms signature ∧ graph.sigName signature ≠ "")
    (shownToo : ∀ signature ∈ second, graph.Forms signature ∧ graph.sigName signature ≠ "")
    (same : ",".intercalate (first.map graph.sigName) =
      ",".intercalate (second.map graph.sigName)) :
    first.map graph.sigName = second.map graph.sigName := by
  have pieces {signatures : List Signature}
      (shown : ∀ signature ∈ signatures,
        graph.Forms signature ∧ graph.sigName signature ≠ "") :
      ∀ piece ∈ (signatures.map graph.sigName).map String.toList,
        IsEnclosed piece ∧ piece ≠ [] := by
    intro piece member
    obtain ⟨name, among, rfl⟩ := List.mem_map.mp member
    obtain ⟨signature, listed, rfl⟩ := List.mem_map.mp among
    obtain ⟨forms, some⟩ := shown signature listed
    exact ⟨spelled.isEnclosed_sigName forms, fun empty => some (String.toList_inj.mp empty)⟩
  refine List.map_injective_iff.mpr (fun _ _ => String.toList_inj.mp) ?_
  refine intercalate_comma_inj (pieces shown) (pieces shownToo) ?_
  have chars := congrArg String.toList same
  rwa [String.toList_intercalate, String.toList_intercalate] at chars

/-! ## Names of members -/

/-- The owner and what follows it are known from a full name. -/
theorem IsSpelled.owned_inj (spelled : graph.IsSpelled) {type other : Signature}
    {owner ownerToo : TypeId} {rest restToo : String}
    (forms : graph.Forms type) (formsToo : graph.Forms other)
    (same : graph.sigName type ++ " " ++ graph.typeName owner ++ "::" ++ rest =
      graph.sigName other ++ " " ++ graph.typeName ownerToo ++ "::" ++ restToo) :
    graph.typeName owner = graph.typeName ownerToo ∧ rest = restToo := by
  have chars := congrArg String.toList same
  simp only [String.toList_append, List.append_assoc] at chars
  obtain ⟨-, behind⟩ := append_cons_inj (spelled.blank_not_mem_sigName forms)
    (spelled.blank_not_mem_sigName formsToo) chars
  obtain ⟨owners, last⟩ := append_cons_inj
    ((spelled.typeName owner).not_mem ':' (by decide))
    ((spelled.typeName ownerToo).not_mem ':' (by decide)) behind
  exact ⟨String.toList_inj.mp owners, String.toList_inj.mp (List.cons.inj last).2⟩

/-- What follows the owner in the full name of a method. -/
def signatureText (graph : Graph) (decl : MethodDecl) : String :=
  decl.name ++ "(" ++ ",".intercalate (graph.parameterNames decl) ++ ")"

theorem methodName_eq (graph : Graph) (method : MethodId) :
    graph.methodName method =
      graph.sigName (graph.method method).returnType ++ " " ++
        graph.typeName (graph.method method).owner ++ "::" ++
          graph.signatureText (graph.method method) := by
  simp only [methodName, signatureText, String.append_assoc]

/-- Has no parameter of a method a type with an empty full name? -/
def ShowsParameters (graph : Graph) : Prop :=
  ∀ decl ∈ graph.methods, ∀ parameter ∈ decl.parameters, graph.sigName parameter.type ≠ ""

/-- The name of a method and the types of its parameters are known from their text. -/
theorem IsSpelled.signatureText_inj (spelled : graph.IsSpelled) {decl other : MethodDecl}
    (known : graph.MethodKnown decl) (knownToo : graph.MethodKnown other)
    (shown : ∀ parameter ∈ decl.parameters, graph.sigName parameter.type ≠ "")
    (shownToo : ∀ parameter ∈ other.parameters, graph.sigName parameter.type ≠ "")
    (same : graph.signatureText decl = graph.signatureText other) :
    graph.sameMethodSignature decl other = true := by
  have chars := congrArg String.toList same
  simp only [signatureText, String.toList_append, List.append_assoc] at chars
  obtain ⟨name, behind⟩ := append_cons_inj
    ((isSpelled_of_isName known.name).not_mem '(' (by decide))
    ((isSpelled_of_isName knownToo.name).not_mem '(' (by decide)) chars
  have texts := String.toList_inj.mp (List.append_cancel_right behind)
  have names (decl : MethodDecl) :
      graph.parameterNames decl = (decl.parameters.map (·.type)).map graph.sigName := by
    rw [parameterNames, List.map_map]
    rfl
  have forms {decl : MethodDecl} (known : graph.MethodKnown decl)
      (shown : ∀ parameter ∈ decl.parameters, graph.sigName parameter.type ≠ "") :
      ∀ signature ∈ decl.parameters.map (·.type),
        graph.Forms signature ∧ graph.sigName signature ≠ "" := by
    intro signature member
    obtain ⟨parameter, among, rfl⟩ := List.mem_map.mp member
    exact ⟨known.parameters parameter among, shown parameter among⟩
  rw [names, names] at texts
  have parameters := spelled.sigNames_inj (forms known shown) (forms knownToo shownToo) texts
  rw [sameMethodSignature, names, names, parameters, String.toList_inj.mp name]
  simp

/-- The name of a field does not look like that of a method. -/
theorem name_ne_signatureText {field : FieldDecl} (known : graph.FieldKnown field)
    (decl : MethodDecl) : field.name ≠ graph.signatureText decl := by
  intro same
  refine (isSpelled_of_isName known.name).not_mem '(' (by decide) ?_
  rw [same, signatureText]
  simp [String.toList_append]

end Graph

/-- A field or a method. -/
inductive MemberId where
  | field (field : FieldId)
  | method (method : MethodId)
deriving DecidableEq

namespace Graph

/-- Is a member declared in a graph? -/
def HasMember (graph : Graph) : MemberId → Prop
  | .field field => field ∈ graph.fieldIds
  | .method method => method ∈ graph.methodIds

/-- The full name of a member. -/
def memberName (graph : Graph) : MemberId → String
  | .field field => graph.fieldName field
  | .method method => graph.methodName method

end Graph

/-- Two members never have the same full name if the types of parameters show. -/
theorem Program.Named.memberName_inj {program : Program} (named : program.Named)
    (spelled : program.graph.IsSpelled) (shows : program.graph.ShowsParameters)
    {left right : MemberId} (known : program.graph.HasMember left)
    (knownToo : program.graph.HasMember right)
    (same : program.graph.memberName left = program.graph.memberName right) : left = right := by
  have field {field : FieldId} (known : program.graph.HasMember (.field field)) :=
    named.members.fields _ (Graph.field_mem (Graph.index_lt_of_mem_fieldIds known))
  have method {method : MethodId} (known : program.graph.HasMember (.method method)) :=
    Graph.method_mem (Graph.index_lt_of_mem_methodIds known)
  cases left with
  | field left =>
      have leftKnown := field known
      cases right with
      | field right =>
          have rightKnown := field knownToo
          obtain ⟨owners, names⟩ := spelled.owned_inj leftKnown.type rightKnown.type same
          have owner := named.types.apart _ _ leftKnown.owner rightKnown.owner owners
          exact congrArg MemberId.field (named.members.fieldsApart
            (Graph.index_lt_of_mem_fieldIds known) (Graph.index_lt_of_mem_fieldIds knownToo)
            owner names)
      | method right =>
          have rightKnown := named.members.methods _ (method knownToo)
          simp only [Graph.memberName, Graph.methodName_eq, Graph.fieldName] at same
          obtain ⟨-, names⟩ := spelled.owned_inj leftKnown.type rightKnown.returnType same
          exact absurd names (Graph.name_ne_signatureText leftKnown _)
  | method left =>
      have leftKnown := named.members.methods _ (method known)
      cases right with
      | field right =>
          have rightKnown := field knownToo
          simp only [Graph.memberName, Graph.methodName_eq, Graph.fieldName] at same
          obtain ⟨-, names⟩ := spelled.owned_inj leftKnown.returnType rightKnown.type same
          exact absurd names.symm (Graph.name_ne_signatureText rightKnown _)
      | method right =>
          have rightKnown := named.members.methods _ (method knownToo)
          simp only [Graph.memberName, Graph.methodName_eq] at same
          obtain ⟨owners, signatures⟩ :=
            spelled.owned_inj leftKnown.returnType rightKnown.returnType same
          have owner := named.types.apart _ _ leftKnown.owner rightKnown.owner owners
          have alike := spelled.signatureText_inj leftKnown rightKnown
            (shows _ (method known)) (shows _ (method knownToo)) signatures
          exact congrArg MemberId.method (named.members.methodsApart left right
            (Graph.index_lt_of_mem_methodIds known) (Graph.index_lt_of_mem_methodIds knownToo)
            owner alike)

/-! ## Types of parameters that show -/

namespace Graph

variable {graph : Graph}

/-- A type that a name written in a type means has a full name that is not empty. -/
theorem typeName_ne_of_typeInScope (grows : system.GrowsTo graph)
    {scope type : TypeId} {name : String} (written : isName name = true)
    (found : graph.typeInScope scope name = .ok type) : graph.typeName type ≠ "" := by
  have some : name ≠ "" := by
    rintro rfl
    exact absurd written (by decide)
  unfold typeInScope at found
  split at found
  · rename_i means
    cases found
    have checked : ∀ index < system.types.size, system.typeName ⟨index⟩ ≠ "" := by
      decide +kernel
    have known : system.HasType type := TypesNamed.system.hasType_of_systemWord? means
    rw [grows.typeName .system known]
    exact checked type.index known
  · split at found
    · rename_i among
      cases found
      obtain ⟨candidate, listed, here⟩ := List.exists_of_findSome?_eq_some among
      rw [(hasType_of_typeNamed? here).2]
      simp only [namesInScope, namesBeside, List.mem_append, List.mem_flatMap, List.mem_cons,
        List.mem_ite_nil_right] at listed
      rintro rfl
      simp [String.append_eq_empty_iff, some] at listed
    · cases found

/-- Only a generic parameter without a name is resolved to something with an empty full name. -/
theorem exists_of_resolve_of_sigName_eq_empty (grows : system.GrowsTo graph) {scope : TypeId}
    {text : TypeExpr} {signature : Signature} (lexed : text.Lexed)
    (resolved : graph.resolve scope text = .ok signature) (empty : graph.sigName signature = "") :
    ∃ isValueType, signature = .param "" isValueType := by
  cases lexed with
  | void =>
      cases resolved
      rw [sigName] at empty
      exact absurd empty (by decide)
  | named written =>
      rw [resolve] at resolved
      obtain ⟨type, found, same⟩ := bind_eq_ok_iff.mp resolved
      cases same
      exact absurd empty (typeName_ne_of_typeInScope grows written found)
  | param written =>
      cases resolved
      rw [sigName] at empty
      exact ⟨_, by rw [empty]⟩
  | byRef _ | array _ =>
      rw [resolve] at resolved
      obtain ⟨element, -, same⟩ := bind_eq_ok_iff.mp resolved
      cases same
      simp [sigName, String.append_eq_empty_iff] at empty
  | generic _ _ _ =>
      obtain ⟨type, signatures, -, -, -, rfl⟩ := resolve_generic_eq_ok_iff.mp resolved
      simp [sigName, String.append_eq_empty_iff] at empty

theorem showsParameters_system : system.ShowsParameters := by
  have checked : (system.methods.all fun decl =>
      decl.parameters.all fun parameter => system.sigName parameter.type != "") = true := by
    decide +kernel
  intro decl member parameter among
  exact bne_iff_ne.mp
    (List.all_eq_true.mp (Array.all_eq_true'.mp checked decl member) parameter among)

/-- Has a parameter with an empty full name the type of a generic parameter without a name? -/
def EmptyOnlyUnnamed (graph : Graph) (decl : MethodDecl) : Prop :=
  ∀ parameter ∈ decl.parameters, graph.sigName parameter.type = "" →
    ∃ isValueType, parameter.type = .param "" isValueType

theorem emptyOnlyUnnamed_of_readMethod (grows : system.GrowsTo graph) {type : TypeId}
    {text : MethodText} {decl : MethodDecl} (lexed : text.Lexed)
    (read : Loading.readMethod graph type text = .ok decl) : graph.EmptyOnlyUnnamed decl := by
  obtain ⟨parameters, readParameters, returned⟩ := bind_eq_ok_iff.mp read
  obtain ⟨_, -, same⟩ := bind_eq_ok_iff.mp returned
  cases same
  intro parameter member empty
  obtain ⟨written, among, readOne⟩ := exists_of_mem_mapM_eq_ok readParameters member
  obtain ⟨signature, means, same⟩ := bind_eq_ok_iff.mp readOne
  cases same
  dsimp only at empty ⊢
  split at empty
  · simp [sigName, String.append_eq_empty_iff] at empty
  · rename_i plain
    rw [if_neg plain]
    exact exists_of_resolve_of_sigName_eq_empty grows (lexed.parameters written among).type
      means empty

theorem EmptyOnlyUnnamed.grows {grown : Graph} {decl : MethodDecl} (known : graph.MethodKnown decl)
    (named : graph.TypesNamed) (grows : graph.GrowsTo grown) (only : graph.EmptyOnlyUnnamed decl) :
    grown.EmptyOnlyUnnamed decl := by
  intro parameter member empty
  rw [(known.parameters parameter member).sigName named grows] at empty
  exact only parameter member empty

end Graph

namespace Program

/-- Whatever texts were loaded, only generic parameters without a name have empty full names. -/
theorem FromTexts.emptyOnlyUnnamed {program : Program} (fromTexts : program.FromTexts) :
    ∀ decl ∈ program.graph.methods, program.graph.EmptyOnlyUnnamed decl := by
  have all := fromTexts.kept
    (fun program => Graph.system.GrowsTo program.graph ∧ program.Named ∧
      ∀ decl ∈ program.graph.methods, program.graph.EmptyOnlyUnnamed decl)
    (fun start program reached step kept => ?_) ?_
  · exact all.2.2
  · obtain ⟨since, named, only⟩ := kept
    have grows := step.growsTo
    have old : ∀ decl ∈ program.graph.methods, reached.graph.EmptyOnlyUnnamed decl :=
      fun decl member =>
        (only decl member).grows (named.members.methods decl member) named.types grows
    refine ⟨since.trans grows, named.step step, ?_⟩
    cases step with
    | @addMethod _ _ decl lexed known _ read _ =>
        obtain ⟨declKnown, -⟩ := Loading.methodKnown_of_readMethod named.types known lexed read
        intro other member
        rcases Array.mem_push.mp member with before | rfl
        · exact old other before
        · exact (Graph.emptyOnlyUnnamed_of_readMethod since lexed read).grows declKnown
            named.types grows
    | addType _ _ _ _ | setDefaultBase _ _ | setBase _ _ | addInterface _ _
    | addField _ _ _ _ _ | setBody _ _ _ _ =>
        exact old
  · exact ⟨.refl _, FromTexts.initial.named, fun decl member parameter among empty =>
      absurd empty (Graph.showsParameters_system decl member parameter among)⟩

end Program

/-! ## Sources that name generic parameters -/

mutual

/-- Has every generic parameter in a type that was written a name? -/
def TypeExpr.namesParameters : TypeExpr → Bool
  | .void => true
  | .named _ => true
  | .param name _ => name != ""
  | .byRef element => element.namesParameters
  | .array element => element.namesParameters
  | .generic _ arguments => TypeExpr.allNameParameters arguments

/-- Has every generic parameter in types that were written a name? -/
def TypeExpr.allNameParameters : List TypeExpr → Bool
  | [] => true
  | type :: rest => type.namesParameters && TypeExpr.allNameParameters rest
end

/--
Has every generic parameter in what the methods of a text take a name?

Generic parameters elsewhere in the text may be without one, and a text that
cannot be read has none.
-/
def namesParameters (text : String) : Bool :=
  match readModule text with
  | .error _ => true
  | .ok types =>
      (TypeText.allWithNested types).all fun type =>
        type.methods.all fun method =>
          method.parameters.all fun parameter => parameter.type.namesParameters

namespace Program

/-- Does no parameter of a method have the type of a generic parameter without a name? -/
def HasNoUnnamed (program : Program) : Prop :=
  ∀ decl ∈ program.graph.methods, ∀ parameter ∈ decl.parameters,
    ∀ isValueType, parameter.type ≠ .param "" isValueType

theorem keptBetweenMethods_hasNoUnnamed : KeptBetweenMethods HasNoUnnamed where
  addType _ _ holds := holds
  setBase _ _ _ holds := holds
  addInterface _ _ _ holds := holds
  addField _ _ holds := holds
  setBody _ _ _ _ _ holds _ := holds

/-- Resolving gives a generic parameter only for one that was written. -/
theorem ne_param_of_resolve {graph : Graph} {scope : TypeId} {text : TypeExpr}
    {signature : Signature} (names : text.namesParameters = true)
    (resolved : graph.resolve scope text = .ok signature) (isValueType : Bool) :
    signature ≠ .param "" isValueType := by
  rintro rfl
  cases text with
  | void =>
      cases resolved
  | param name _ =>
      cases resolved
      rw [TypeExpr.namesParameters] at names
      exact absurd names (by decide)
  | named _ | byRef _ | array _ =>
      rw [Graph.resolve] at resolved
      obtain ⟨_, -, same⟩ := bind_eq_ok_iff.mp resolved
      cases same
  | generic _ _ =>
      obtain ⟨_, _, -, -, -, same⟩ := Graph.resolve_generic_eq_ok_iff.mp resolved
      cases same

theorem keeps_addMethod_hasNoUnnamed {text : MethodText}
    (names : ∀ parameter ∈ text.parameters, parameter.type.namesParameters = true)
    (type : TypeId) :
    Loading.Keeps HasNoUnnamed (Loading.addMethod type text) := by
  refine Loading.keeps_graph_bind fun program holds => ?_
  refine Loading.kept_orFail_bind holds fun decl read => ?_
  obtain ⟨parameters, readParameters, returned⟩ := bind_eq_ok_iff.mp read
  obtain ⟨_, -, same⟩ := bind_eq_ok_iff.mp returned
  cases same
  dsimp only
  split
  · exact holds
  · intro other member parameter among isValueType
    rcases Array.mem_push.mp member with before | rfl
    · exact holds other before parameter among isValueType
    · obtain ⟨written, listed, readOne⟩ := exists_of_mem_mapM_eq_ok readParameters among
      obtain ⟨signature, means, same⟩ := bind_eq_ok_iff.mp readOne
      cases same
      dsimp only
      split
      · exact nofun
      · exact ne_param_of_resolve (names written listed) means isValueType

theorem hasNoUnnamed_load {program : Program} (holds : program.HasNoUnnamed) {text : String}
    (names : namesParameters text = true) : (program.load text).2.HasNoUnnamed := by
  rw [namesParameters] at names
  unfold load
  cases read : readModule text with
  | error error =>
      exact holds
  | ok types =>
      rw [read] at names
      simp only [List.all_eq_true] at names
      exact Loading.keeps_loadTypes_of_methods keptBetweenMethods_hasNoUnnamed
        (fun type among method listed owner =>
          keeps_addMethod_hasNoUnnamed (names type among method listed) owner)
        program holds

theorem hasNoUnnamed_initial : Program.initial.HasNoUnnamed :=
  fun decl member parameter among _ same =>
    Graph.showsParameters_system decl member parameter among (by rw [same, Graph.sigName])

/-- Texts that name their generic parameters make programs whose parameters show. -/
theorem showsParameters_afterTexts {texts : List String}
    (names : ∀ text ∈ texts, namesParameters text = true) :
    (afterTexts texts).graph.ShowsParameters := by
  have unnamed : (afterTexts texts).HasNoUnnamed :=
    afterTexts_induction hasNoUnnamed_initial fun text listed program holds =>
      hasNoUnnamed_load holds (names text listed)
  intro decl member parameter among empty
  obtain ⟨isValueType, same⟩ :=
    (fromTexts_afterTexts texts).emptyOnlyUnnamed decl member parameter among empty
  exact unnamed decl member parameter among isValueType same

end Program

end NullWeave
