import NullWeave.Proofs.Text.PrintedHeaders
import NullWeave.Proofs.Weave.WovenMentions

/-!
# Texts in one line

What is printed in a line holds no line feed and no carriage return: names are
spelled without them, and strings are written with neither.
-/

namespace NullWeave

/-- Does a text stand in one line: without line feeds and carriage returns? -/
def IsUnbroken (text : String) : Prop := ∀ c ∈ text.toList, c ∉ ['\n', '\r']

instance (text : String) : Decidable (IsUnbroken text) :=
  List.decidableBAll (fun c => c ∉ ['\n', '\r']) text.toList

theorem isUnbroken_append {first second : String} :
    IsUnbroken (first ++ second) ↔ IsUnbroken first ∧ IsUnbroken second := by
  rw [IsUnbroken, String.toList_append, List.forall_mem_append]
  exact Iff.rfl

theorem not_broken_of_continuesName {c : Char} (inName : continuesName c = true) :
    c ∉ ['\n', '\r'] := by
  intro broken
  obtain ⟨-, others⟩ := not_separator_of_continuesName inName
  simp only [List.mem_cons, List.not_mem_nil, or_false, not_or] at others broken
  rcases broken with rfl | rfl
  · exact others.2.2.1 rfl
  · exact others.2.2.2 rfl

theorem IsSpelled.isUnbroken {text : String} (spelled : IsSpelled text) : IsUnbroken text :=
  fun c member => not_broken_of_continuesName (spelled c member)

theorem isUnbroken_of_isName {text : String} (named : isName text = true) : IsUnbroken text :=
  (isSpelled_of_isName named).isUnbroken

theorem isUnbroken_commaSeparated {texts : List String}
    (unbroken : ∀ text ∈ texts, IsUnbroken text) : IsUnbroken (commaSeparated texts) := by
  intro c member
  rcases Graph.mem_commaSeparated member with comma | ⟨text, among, inside⟩
  · exact (show IsUnbroken ", " by decide) c comma
  · exact unbroken text among c inside

theorem isUnbroken_intercalate_blank {texts : List String}
    (unbroken : ∀ text ∈ texts, IsUnbroken text) : IsUnbroken (" ".intercalate texts) := by
  induction texts with
  | nil =>
      exact nofun
  | cons text texts inductionHypothesis =>
      obtain ⟨here, later⟩ := List.forall_mem_cons.mp unbroken
      cases texts with
      | nil =>
          rwa [String.intercalate_singleton]
      | cons next others =>
          rw [String.intercalate_cons_cons]
          exact isUnbroken_append.mpr ⟨isUnbroken_append.mpr ⟨here, by decide⟩,
            inductionHypothesis later⟩

theorem isUnbroken_join {texts : List String} (unbroken : ∀ text ∈ texts, IsUnbroken text) :
    IsUnbroken ("".intercalate texts) := by
  induction texts with
  | nil =>
      exact nofun
  | cons text texts inductionHypothesis =>
      obtain ⟨here, later⟩ := List.forall_mem_cons.mp unbroken
      cases texts with
      | nil =>
          rwa [String.intercalate_singleton]
      | cons next others =>
          rw [String.intercalate_cons_cons]
          exact isUnbroken_append.mpr ⟨isUnbroken_append.mpr ⟨here, nofun⟩,
            inductionHypothesis later⟩

/-! ## Numbers and strings -/

theorem isUnbroken_of_isDigit {c : Char} (digit : c.isDigit = true) : c ∉ ['\n', '\r'] := by
  intro broken
  simp only [List.mem_cons, List.not_mem_nil, or_false] at broken
  rcases broken with rfl | rfl <;> revert digit <;> decide

theorem isUnbroken_toString (value : Int) : IsUnbroken (toString value) := by
  obtain ⟨c, tail, shown, begins, digits⟩ := exists_toString value
  rw [IsUnbroken, shown]
  refine List.forall_mem_cons.mpr ⟨?_, fun d member => isUnbroken_of_isDigit (digits d member)⟩
  rcases Bool.or_eq_true_iff.mp begins with digit | minus
  · exact isUnbroken_of_isDigit digit
  · rw [beq_iff_eq.mp (Bool.and_eq_true_iff.mp minus).1]
    decide

theorem isUnbroken_number (number : Nat) : IsUnbroken (toString number) :=
  isUnbroken_toString (Int.ofNat number)

theorem isUnbroken_write (text : String) : IsUnbroken (Quoted.write text) := by
  rw [IsUnbroken, Quoted.write, String.toList_ofList, Quoted.writeTail]
  refine List.forall_mem_cons.mpr ⟨by decide, List.forall_mem_append.mpr ⟨?_,
    List.forall_mem_singleton.mpr (by decide)⟩⟩
  intro c member broken
  obtain ⟨written, -, inside⟩ := List.mem_flatMap.mp member
  rw [Quoted.writeChar] at inside
  cases escape : Quoted.escapeLetter? written with
  | some letter =>
      rw [escape] at inside
      have reads := Quoted.escaped?_escapeLetter escape
      simp only [List.mem_cons, List.not_mem_nil, or_false] at inside broken
      rcases inside with rfl | rfl
      · exact absurd broken (by decide)
      · rcases broken with rfl | rfl <;> cases reads
  | none =>
      rw [escape] at inside
      obtain rfl := List.mem_singleton.mp inside
      simp only [List.mem_cons, List.not_mem_nil, or_false] at broken
      rcases broken with rfl | rfl <;> cases escape

theorem Lexeme.IsWord.isUnbroken {word : Lexeme} (isWord : word.IsWord) :
    IsUnbroken word.text := by
  cases word with
  | name text =>
      exact isUnbroken_of_isName isWord
  | int value =>
      exact isUnbroken_toString value
  | str _ | mark _ | doubleColon =>
      cases isWord

theorem isUnbroken_argumentWritten (argument : String) : IsUnbroken (argumentWritten argument) := by
  rw [argumentWritten]
  split
  · rename_i raw
    obtain ⟨c, rest, shown, -, rawChars⟩ := isRawArgument_iff.mp raw
    rw [IsUnbroken, shown]
    intro d member
    have isRaw := rawChars d member
    by_cases bar : d = '|'
    · rw [bar]
      decide
    · refine not_broken_of_continuesName ?_
      rw [isRawChar, beq_eq_false_iff_ne.mpr bar, Bool.or_false] at isRaw
      rw [continuesName, Bool.or_eq_true]
      rcases Bool.or_eq_true_iff.mp isRaw with (word | dot)
      · rcases Bool.or_eq_true_iff.mp word with word | underscore
        · exact .inl word
        · rw [beq_iff_eq.mp underscore]
          exact .inr (by decide)
      · rw [beq_iff_eq.mp dot]
        exact .inr (by decide)
  · exact isUnbroken_write argument

theorem Attribute.isUnbroken_written {mark : Attribute} (named : isName mark.name = true) :
    IsUnbroken mark.written := by
  rw [Attribute.written]
  split
  · exact isUnbroken_of_isName named
  · refine isUnbroken_append.mpr ⟨isUnbroken_append.mpr ⟨isUnbroken_append.mpr
      ⟨isUnbroken_of_isName named, by decide⟩, isUnbroken_commaSeparated ?_⟩, by decide⟩
    intro text member
    obtain ⟨argument, -, rfl⟩ := List.mem_map.mp member
    exact isUnbroken_argumentWritten argument

theorem isUnbroken_readableName {letter : String} (plain : isPlainName letter = true)
    (index : Nat) (name : String) : IsUnbroken (readableName letter index name) :=
  isUnbroken_of_isName (isName_of_isPlainName (isPlainName_readableName plain index name))

/-! ## Declarations -/

/-- Are the names in the first line of a type, beside its own, spelled as names? -/
structure TypeDecl.Marked (decl : TypeDecl) : Prop where
  attributes : ∀ mark ∈ decl.attributes, isName mark.name = true
  genericParameters : ∀ name ∈ decl.genericParameters, NullWeave.IsSpelled name

/-- Are the names of attributes of a method names? -/
structure MethodDecl.Marked (decl : MethodDecl) : Prop where
  attributes : ∀ mark ∈ decl.attributes, isName mark.name = true
  returnAttributes : ∀ mark ∈ decl.returnAttributes, isName mark.name = true
  parameters : ∀ parameter ∈ decl.parameters, ∀ mark ∈ parameter.attributes,
    isName mark.name = true

/-- Are the names of attributes in a graph names? -/
structure Graph.Marked (graph : Graph) : Prop where
  types : ∀ decl ∈ graph.types, decl.Marked
  methods : ∀ decl ∈ graph.methods, decl.Marked

namespace Graph

variable {graph : Graph}

theorem Marked.type (marked : graph.Marked) (type : TypeId) : (graph.type type).Marked := by
  by_cases known : type.index < graph.types.size
  · exact marked.types _ (by simp [Graph.type, known])
  · have absent : graph.type type = default := by simp [Graph.type, known]
    rw [absent]
    exact ⟨List.forall_mem_nil _, List.forall_mem_nil _⟩

theorem Marked.method (marked : graph.Marked) (method : MethodId) :
    (graph.method method).Marked := by
  by_cases known : method.index < graph.methods.size
  · exact marked.methods _ (method_mem known)
  · have absent : graph.method method = default := by simp [Graph.method, known]
    rw [absent]
    exact ⟨List.forall_mem_nil _, List.forall_mem_nil _, List.forall_mem_nil _⟩

theorem MembersKnown.isUnbroken_fieldName (members : graph.MembersKnown) (field : FieldId) :
    IsUnbroken (graph.field field).name := by
  by_cases known : field.index < graph.fields.size
  · exact isUnbroken_of_isName (members.fields _ (field_mem known)).name
  · have absent : graph.field field = default := by simp [Graph.field, known]
    rw [absent]
    decide

theorem MembersKnown.isUnbroken_methodName (members : graph.MembersKnown) (method : MethodId) :
    IsUnbroken (graph.method method).name := by
  by_cases known : method.index < graph.methods.size
  · exact isUnbroken_of_isName (members.methods _ (method_mem known)).name
  · have absent : graph.method method = default := by simp [Graph.method, known]
    rw [absent]
    decide

theorem Forms.isUnbroken (spelled : graph.IsSpelled) {signature : Signature}
    (forms : graph.Forms signature) : IsUnbroken (graph.sigWritten signature) := by
  intro c member
  rcases forms.mem_sigWritten spelled member with inName | mark
  · exact not_broken_of_continuesName inName
  · exact (show IsUnbroken (String.ofList signatureMarks) by decide) c
      (by rwa [String.toList_ofList])

variable (spelled : graph.IsSpelled) (members : graph.MembersKnown)

include spelled members

theorem isUnbroken_fieldWritten (field : FieldId) : IsUnbroken (graph.fieldWritten field) :=
  isUnbroken_append.mpr ⟨isUnbroken_append.mpr ⟨(spelled.typeName _).isUnbroken, by decide⟩,
    members.isUnbroken_fieldName field⟩

theorem isUnbroken_methodWritten (method : MethodId) :
    IsUnbroken (graph.methodWritten method) := by
  refine isUnbroken_append.mpr ⟨isUnbroken_append.mpr ⟨isUnbroken_append.mpr
    ⟨isUnbroken_append.mpr ⟨isUnbroken_append.mpr ⟨(spelled.typeName _).isUnbroken, by decide⟩,
      members.isUnbroken_methodName method⟩, by decide⟩, isUnbroken_commaSeparated ?_⟩, by decide⟩
  intro text member
  obtain ⟨parameter, among, rfl⟩ := List.mem_map.mp member
  exact ((members.forms method).2 parameter among).isUnbroken spelled

variable (marked : graph.Marked)

include marked in
theorem isUnbroken_parameterWritten (index : Nat) {method : MethodId} {parameter : Parameter}
    (among : parameter ∈ (graph.method method).parameters) :
    IsUnbroken (graph.parameterWritten index parameter) := by
  have forms := (members.forms method).2 parameter among
  have type : IsUnbroken (if parameter.isOut then
      "out " ++ graph.sigWritten parameter.type.pointee
    else
      graph.sigWritten parameter.type) := by
    split
    · exact isUnbroken_append.mpr ⟨by decide, forms.pointee.isUnbroken spelled⟩
    · exact forms.isUnbroken spelled
  refine isUnbroken_append.mpr ⟨isUnbroken_append.mpr ⟨isUnbroken_append.mpr
    ⟨isUnbroken_append.mpr ⟨isUnbroken_join ?_, type⟩, by decide⟩,
      isUnbroken_readableName (by decide) index _⟩, ?_⟩
  · intro text member
    obtain ⟨mark, listed, rfl⟩ := List.mem_map.mp member
    exact isUnbroken_append.mpr ⟨isUnbroken_append.mpr ⟨by decide,
      Attribute.isUnbroken_written ((marked.method method).parameters _ among mark listed)⟩,
        by decide⟩
  · split <;> decide

include marked in
theorem isUnbroken_methodHeaderWritten (method : MethodId) :
    IsUnbroken (graph.methodHeaderWritten (graph.method method)) := by
  refine isUnbroken_append.mpr ⟨isUnbroken_append.mpr ⟨isUnbroken_append.mpr
    ⟨isUnbroken_append.mpr ⟨isUnbroken_append.mpr ⟨isUnbroken_intercalate_blank ?_, by decide⟩,
      members.isUnbroken_methodName method⟩, by decide⟩, isUnbroken_commaSeparated ?_⟩, by decide⟩
  · intro text member
    simp only [List.mem_append, List.mem_singleton] at member
    rcases member with ((rfl | keyword) | returned) | rfl
    · decide
    · exact isUnbroken_of_isName (MethodAccess.keyword_known keyword).1
    · obtain ⟨mark, listed, rfl⟩ := List.mem_map.mp returned
      exact isUnbroken_append.mpr ⟨isUnbroken_append.mpr ⟨by decide,
        Attribute.isUnbroken_written ((marked.method method).returnAttributes mark listed)⟩,
          by decide⟩
    · exact (members.forms method).1.isUnbroken spelled
  · intro text member
    obtain ⟨index, inside, rfl⟩ := List.mem_mapIdx.mp member
    exact isUnbroken_parameterWritten spelled members marked index (List.getElem_mem inside)

theorem isUnbroken_fieldLineWritten {field : FieldId}
    (known : field.index < graph.fields.size) :
    IsUnbroken (graph.fieldLineWritten (graph.field field)) := by
  have decl := members.fields _ (field_mem known)
  refine isUnbroken_intercalate_blank fun text member => ?_
  simp only [List.mem_append, List.mem_cons, List.not_mem_nil, or_false] at member
  rcases member with (rfl | keyword) | rfl | rfl
  · decide
  · have all : ∀ text ∈ ["static", "public", "private"], IsUnbroken text := by decide
    exact all text (mem_of_mem_heldWords keyword)
  · exact decl.type.isUnbroken spelled
  · exact isUnbroken_of_isName decl.name

include marked in
omit members in
theorem isUnbroken_typeHeaderWritten (type : TypeId) :
    IsUnbroken (graph.typeHeaderWritten type) := by
  have name (other : TypeId) : IsUnbroken (graph.typeName other) :=
    (spelled.typeName other).isUnbroken
  refine isUnbroken_append.mpr ⟨isUnbroken_append.mpr ⟨isUnbroken_append.mpr
    ⟨isUnbroken_intercalate_blank ?_, ?_⟩, ?_⟩, ?_⟩
  · intro text member
    simp only [List.mem_append, List.mem_singleton] at member
    rcases member with (rfl | keyword) | rfl
    · cases (graph.type type).kind <;> decide
    · have all : ∀ text ∈ ["public", "nested-public", "nested-private", "nested-family",
          "nested-assembly", "abstract", "sealed"], IsUnbroken text := by
        decide
      exact all text (mem_of_mem_heldWords keyword)
    · split
      · exact name type
      · exact (spelled.type type).name.isUnbroken
  · split
    · exact nofun
    · exact isUnbroken_append.mpr ⟨isUnbroken_append.mpr ⟨by decide,
        isUnbroken_commaSeparated fun text among =>
          ((marked.type type).genericParameters text among).isUnbroken⟩, by decide⟩
  · split
    · exact nofun
    · split
      · exact nofun
      · rename_i base found _
        obtain ⟨other, -, rfl⟩ := Option.map_eq_some_iff.mp found
        exact isUnbroken_append.mpr ⟨by decide, name other⟩
  · split
    · exact nofun
    · refine isUnbroken_append.mpr ⟨by decide, isUnbroken_commaSeparated fun text among => ?_⟩
      obtain ⟨other, -, rfl⟩ := List.mem_map.mp among
      exact name other

end Graph

/-! ## Bodies -/

namespace BodyNames

variable {names : BodyNames}

theorem isUnbroken_operationWritten (spelled : names.graph.IsSpelled)
    (members : names.graph.MembersKnown) {operation : Operation}
    (known : names.graph.KnowsOperation operation) :
    IsUnbroken (names.operationWritten operation) := by
  have word {slot : Lexeme} {text : String} (isWord : slot.IsWord) (shown : slot.text = text) :
      IsUnbroken text :=
    shown ▸ isWord.isUnbroken
  have argument (slot : UInt16) : IsUnbroken (names.argumentWritten slot) :=
    word (names.isWord_argumentWord slot) (names.text_argumentWord slot)
  have localVariable (slot : UInt16) : IsUnbroken (names.localWritten slot) :=
    word (names.isWord_localWord slot) (names.text_localWord slot)
  have label (id : InstrId) : IsUnbroken (names.labelWritten id) :=
    isUnbroken_of_isName (names.isName_labelWritten id)
  have mnemonic := isName_mnemonicWritten operation
  cases operation with
  | ldStr text =>
      exact isUnbroken_append.mpr ⟨by decide, isUnbroken_write text⟩
  | ldcI4 value =>
      exact isUnbroken_append.mpr ⟨by decide, isUnbroken_toString value.toInt⟩
  | ldArg slot | ldArgA slot | stArg slot =>
      exact isUnbroken_append.mpr ⟨by decide, argument slot⟩
  | ldLoc slot | ldLocA slot | stLoc slot =>
      exact isUnbroken_append.mpr ⟨by decide, localVariable slot⟩
  | ldObj signature | box signature =>
      have forms : names.graph.Forms signature := known (.signature signature) rfl
      exact isUnbroken_append.mpr ⟨by decide, forms.isUnbroken spelled⟩
  | ldFld field | ldFldA field | stFld field =>
      exact isUnbroken_append.mpr ⟨by decide,
        Graph.isUnbroken_fieldWritten spelled members field⟩
  | call target | callVirt target | newObj target =>
      exact isUnbroken_append.mpr ⟨by decide,
        Graph.isUnbroken_methodWritten spelled members target⟩
  | branch kind form target =>
      refine isUnbroken_append.mpr ⟨isUnbroken_append.mpr ⟨?_, by decide⟩, label target⟩
      cases kind <;> cases form <;> decide
  | switch targets =>
      refine isUnbroken_append.mpr ⟨isUnbroken_append.mpr ⟨by decide,
        isUnbroken_commaSeparated ?_⟩, by decide⟩
      intro text member
      obtain ⟨target, -, rfl⟩ := List.mem_map.mp member
      exact label target
  | _ =>
      exact isUnbroken_of_isName mnemonic

theorem isUnbroken_labelWritten (id : InstrId) : IsUnbroken (names.labelWritten id) :=
  isUnbroken_of_isName (names.isName_labelWritten id)

theorem isUnbroken_handlerWritten (spelled : names.graph.IsSpelled)
    (handler : ExceptionHandler) : IsUnbroken (names.handlerWritten handler) := by
  have label := names.isUnbroken_labelWritten
  refine isUnbroken_append.mpr ⟨isUnbroken_append.mpr ⟨isUnbroken_append.mpr
    ⟨isUnbroken_append.mpr ⟨isUnbroken_append.mpr ⟨isUnbroken_append.mpr
      ⟨isUnbroken_append.mpr ⟨isUnbroken_append.mpr ⟨by decide, label _⟩, by decide⟩, label _⟩,
        by decide⟩, ?_⟩, by decide⟩, label _⟩, ?_⟩
  · split
    · exact isUnbroken_append.mpr ⟨by decide, (spelled.typeName _).isUnbroken⟩
    · decide
  · split
    · exact nofun
    · exact isUnbroken_append.mpr ⟨by decide, label _⟩

theorem isUnbroken_localName {name : String} (member : name ∈ names.localNames) :
    IsUnbroken name := by
  obtain ⟨index, inside, rfl⟩ := List.mem_mapIdx.mp member
  exact isUnbroken_readableName (by decide) index _

theorem isUnbroken_localsWritten (spelled : names.graph.IsSpelled)
    (known : names.graph.KnowsBody names.body) {text : String}
    (written : text ∈ names.localsWritten) : IsUnbroken text := by
  rw [localsWritten] at written
  split at written
  · cases written
  · obtain rfl := List.mem_singleton.mp written
    refine isUnbroken_append.mpr ⟨isUnbroken_append.mpr ⟨isUnbroken_append.mpr
      ⟨isUnbroken_append.mpr ⟨by decide, ?_⟩, by decide⟩, isUnbroken_commaSeparated ?_⟩, by decide⟩
    · split <;> decide
    · intro declared member
      rw [← List.map_uncurry_zip_eq_zipWith] at member
      obtain ⟨⟨entry, name⟩, among, rfl⟩ := List.mem_map.mp member
      obtain ⟨ofBody, named⟩ := List.of_mem_zip among
      exact isUnbroken_append.mpr ⟨isUnbroken_append.mpr
        ⟨(known.locals entry ofBody).isUnbroken spelled, by decide⟩, isUnbroken_localName named⟩

end BodyNames

theorem SequencePoint.isUnbroken_written (point : SequencePoint) : IsUnbroken point.written := by
  rw [SequencePoint.written]
  split
  · decide
  · refine isUnbroken_intercalate_blank fun text member => ?_
    simp only [List.mem_cons, List.not_mem_nil, or_false] at member
    rcases member with rfl | rfl | rfl | rfl | rfl
    · decide
    all_goals exact isUnbroken_number _

end NullWeave
