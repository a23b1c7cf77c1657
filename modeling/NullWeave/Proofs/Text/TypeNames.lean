import NullWeave.Proofs.Text.LoadingSteps
import NullWeave.Proofs.Weave.SystemNames

/-!
# Full names of types in loaded programs

A type keeps its full name when a graph grows, and a type is declared only
under a full name that is free.  So in a loaded program a full name belongs to
at most one type, and looking it up finds that type.  Whatever a type names as
the type it extends, as an interface or as a type around it is held by the
graph too.
-/

namespace NullWeave

namespace Graph

variable {graph grown : Graph}

theorem mem_typeIds {type : TypeId} : type ∈ graph.typeIds ↔ graph.HasType type := by
  cases type
  simp [typeIds, HasType]

theorem type_setBase (graph : Graph) (type : TypeId) (base : Option TypeId)
    {other : TypeId} (known : graph.HasType other) :
    (graph.setBase type base).type other =
      if type = other then { graph.type other with base } else graph.type other := by
  have inside : other.index < graph.types.size := known
  by_cases here : type = other
  · simp [Graph.type, setBase, inside, Array.getElem_modify, here]
  · have apart : type.index ≠ other.index := fun same => here (congrArg TypeId.mk same)
    simp [Graph.type, setBase, inside, Array.getElem_modify, here, apart]

theorem type_addInterface (graph : Graph) (type interface : TypeId)
    {other : TypeId} (known : graph.HasType other) :
    (graph.addInterface type interface).type other =
      if type = other then
        { graph.type other with
          interfaces := (graph.type other).interfaces ++ [interface] }
      else graph.type other := by
  have inside : other.index < graph.types.size := known
  by_cases here : type = other
  · simp [Graph.type, addInterface, inside, Array.getElem_modify, here]
  · have apart : type.index ≠ other.index := fun same => here (congrArg TypeId.mk same)
    simp [Graph.type, addInterface, inside, Array.getElem_modify, here, apart]

/-! ## Names in graphs that grow -/

/-- A full name is made from the names of a declaration and of the types around it. -/
theorem fullNameWithin_congr {decl other : TypeDecl} {enclosing : List TypeId}
    (name : other.name = decl.name) (space : other.space = decl.space)
    (names : ∀ outer ∈ enclosing, (grown.type outer).name = (graph.type outer).name)
    (spaces : ∀ outer ∈ enclosing, (grown.type outer).space = (graph.type outer).space) :
    grown.fullNameWithin other enclosing = graph.fullNameWithin decl enclosing := by
  induction enclosing generalizing decl other with
  | nil =>
      rw [fullNameWithin, fullNameWithin, TypeDecl.outermostName, TypeDecl.outermostName,
        name, space]
  | cons inner outer inductionHypothesis =>
      obtain ⟨nameHere, namesLater⟩ := List.forall_mem_cons.mp names
      obtain ⟨spaceHere, spacesLater⟩ := List.forall_mem_cons.mp spaces
      rw [fullNameWithin, fullNameWithin, name,
        inductionHypothesis nameHere spaceHere namesLater spacesLater]

/-- What is known of the types that a graph holds. -/
structure TypesNamed (graph : Graph) : Prop where
  /-- The library's types are there. -/
  size : system.types.size ≤ graph.types.size
  enclosing : ∀ type, graph.HasType type →
    ∀ outer ∈ (graph.type type).enclosing, graph.HasType outer
  base : ∀ type, graph.HasType type → ∀ base ∈ (graph.type type).base, graph.HasType base
  interfaces : ∀ type, graph.HasType type →
    ∀ interface ∈ (graph.type type).interfaces, graph.HasType interface
  /-- No two types have the same full name. -/
  apart : ∀ type other, graph.HasType type → graph.HasType other →
    graph.typeName type = graph.typeName other → type = other

/-- A type that a graph holds keeps its full name when the graph grows. -/
theorem GrowsTo.typeName (grows : graph.GrowsTo grown) (named : graph.TypesNamed)
    {type : TypeId} (known : graph.HasType type) :
    grown.typeName type = graph.typeName type := by
  rw [Graph.typeName, Graph.typeName, grows.enclosing type known]
  exact fullNameWithin_congr (grows.name type known) (grows.space type known)
    (fun outer around => grows.name outer (named.enclosing type known outer around))
    (fun outer around => grows.space outer (named.enclosing type known outer around))

/-! ## Looking full names up -/

theorem hasType_of_typeNamed? {name : String} {type : TypeId}
    (found : graph.typeNamed? name = some type) :
    graph.HasType type ∧ graph.typeName type = name := by
  unfold typeNamed? at found
  refine ⟨mem_typeIds.mp (List.mem_reverse.mp (List.mem_of_find?_eq_some found)), ?_⟩
  simpa using List.find?_some found

theorem typeNamed?_eq_none_iff {name : String} :
    graph.typeNamed? name = none ↔ ∀ type, graph.HasType type → graph.typeName type ≠ name := by
  simp [typeNamed?, mem_typeIds]

/-- Does a full name belong to one type at most? -/
def NamesApart (graph : Graph) : Prop :=
  ∀ type other, graph.HasType type → graph.HasType other →
    graph.typeName type = graph.typeName other → type = other

/-- A full name is that of the one type that it belongs to. -/
theorem NamesApart.typeNamed?_eq_some_iff (apart : graph.NamesApart)
    {name : String} {type : TypeId} :
    graph.typeNamed? name = some type ↔ graph.HasType type ∧ graph.typeName type = name := by
  refine ⟨hasType_of_typeNamed?, ?_⟩
  rintro ⟨known, same⟩
  cases found : graph.typeNamed? name with
  | none =>
      exact absurd same (typeNamed?_eq_none_iff.mp found type known)
  | some other =>
      obtain ⟨knownToo, sameToo⟩ := hasType_of_typeNamed? found
      rw [apart other type knownToo known (sameToo.trans same.symm)]

theorem TypesNamed.namesApart (named : graph.TypesNamed) : graph.NamesApart := named.apart

theorem TypesNamed.typeNamed?_eq_some_iff (named : graph.TypesNamed)
    {name : String} {type : TypeId} :
    graph.typeNamed? name = some type ↔ graph.HasType type ∧ graph.typeName type = name :=
  named.namesApart.typeNamed?_eq_some_iff

/-- A system word means a type of the library. -/
theorem hasType_system_of_systemWord? {word : String} {type : TypeId}
    (means : systemWord? word = some type) : system.HasType type := by
  have small : type.index < system.types.size := by
    unfold systemWord? at means
    split at means <;> cases means <;> decide
  exact small

/-- A system word means a type that the graph holds. -/
theorem TypesNamed.hasType_of_systemWord? (named : graph.TypesNamed) {word : String}
    {type : TypeId} (means : systemWord? word = some type) : graph.HasType type :=
  Nat.lt_of_lt_of_le (hasType_system_of_systemWord? means) named.size

theorem TypesNamed.hasType_of_typeInScope (named : graph.TypesNamed) {scope : TypeId}
    {name : String} {type : TypeId} (found : graph.typeInScope scope name = .ok type) :
    graph.HasType type := by
  unfold typeInScope at found
  split at found
  · rename_i means
    cases found
    exact named.hasType_of_systemWord? means
  · split at found
    · rename_i among
      cases found
      obtain ⟨name, -, here⟩ := List.exists_of_findSome?_eq_some among
      exact (hasType_of_typeNamed? here).1
    · cases found

theorem resolve_generic_eq_ok_iff {scope : TypeId} {name : String}
    {arguments : List TypeExpr} {signature : Signature} :
    graph.resolve scope (.generic name arguments) = .ok signature ↔
      ∃ type signatures, graph.typeInScope scope name = .ok type ∧
        (graph.type type).genericParameters.length = arguments.length ∧
          graph.signaturesOf scope arguments = .ok signatures ∧
            .generic type signatures = signature := by
  rw [resolve, bind_eq_ok_iff]
  refine exists_congr fun type => ?_
  by_cases takes : (graph.type type).genericParameters.length = arguments.length
  · simp only [ne_eq, takes, not_true_eq_false, if_false, true_and]
    rw [bind_eq_ok_iff]
    simp [pure, Except.pure]
  · simp [takes, throw, throwThe, MonadExceptOf.throw, bind, Except.bind]

/-- A type that is found for what was written is found for a name in it. -/
theorem exists_typeInScope_of_definitionOf {scope type : TypeId} {text : TypeExpr}
    (found : graph.definitionOf scope text = .ok type) :
    ∃ name, graph.typeInScope scope name = .ok type := by
  obtain ⟨signature, resolved, defined⟩ := bind_eq_ok_iff.mp found
  cases text with
  | void | param _ _ =>
      cases resolved
      cases defined
  | named name =>
      rw [resolve] at resolved
      obtain ⟨other, looked, same⟩ := bind_eq_ok_iff.mp resolved
      cases same
      cases defined
      exact ⟨name, looked⟩
  | byRef _ | array _ =>
      rw [resolve] at resolved
      obtain ⟨element, -, same⟩ := bind_eq_ok_iff.mp resolved
      cases same
      cases defined
  | generic name _ =>
      obtain ⟨other, _, looked, -, -, rfl⟩ := resolve_generic_eq_ok_iff.mp resolved
      cases defined
      exact ⟨name, looked⟩

/-! ## Signatures that can be written -/

/-- Is a signature made of types that a graph holds, with the arguments that they take? -/
inductive Forms (graph : Graph) : Signature → Prop where
  | void : Forms graph .void
  | named {type : TypeId} : graph.HasType type → Forms graph (.named type)
  | param {name : String} {isValueType : Bool} :
      IsParameterName name → Forms graph (.param name isValueType)
  | byRef {element : Signature} : Forms graph element → Forms graph (.byRef element)
  | array {element : Signature} : Forms graph element → Forms graph (.array element)
  | generic {type : TypeId} {arguments : List Signature} :
      graph.HasType type → arguments ≠ [] →
      (graph.type type).genericParameters.length = arguments.length →
      (∀ argument ∈ arguments, Forms graph argument) →
      Forms graph (.generic type arguments)

theorem Forms.grows {signature : Signature} (forms : graph.Forms signature)
    (grows : graph.GrowsTo grown) : grown.Forms signature := by
  induction forms with
  | void =>
      exact .void
  | named known =>
      exact .named (grows.hasType known)
  | param written =>
      exact .param written
  | byRef _ inductionHypothesis =>
      exact .byRef inductionHypothesis
  | array _ inductionHypothesis =>
      exact .array inductionHypothesis
  | generic known some takes _ inductionHypothesis =>
      exact .generic (grows.hasType known) some
        (by rw [grows.genericParameters _ known, takes]) inductionHypothesis

theorem Forms.pointee {signature : Signature} (forms : graph.Forms signature) :
    graph.Forms signature.pointee := by
  cases forms with
  | byRef element =>
      exact element
  | void =>
      exact .void
  | named known =>
      exact .named known
  | param written =>
      exact .param written
  | array element =>
      exact .array element
  | generic known some takes arguments =>
      exact .generic known some takes arguments

/-- A signature that a graph can form keeps its full name when the graph grows. -/
theorem Forms.sigName {signature : Signature} (forms : graph.Forms signature)
    (named : graph.TypesNamed) (grows : graph.GrowsTo grown) :
    grown.sigName signature = graph.sigName signature := by
  induction forms with
  | void | param _ =>
      rfl
  | named known =>
      exact grows.typeName named known
  | byRef _ inductionHypothesis | array _ inductionHypothesis =>
      rw [Graph.sigName, Graph.sigName, inductionHypothesis]
  | generic known _ _ _ inductionHypothesis =>
      rw [Graph.sigName, Graph.sigName, grows.typeName named known, sigNames_eq_map,
        sigNames_eq_map, List.map_congr_left inductionHypothesis]

theorem signaturesOf_eq_mapM (graph : Graph) (scope : TypeId) (types : List TypeExpr) :
    graph.signaturesOf scope types = types.mapM (graph.resolve scope) := by
  induction types with
  | nil =>
      rfl
  | cons type rest inductionHypothesis =>
      rw [signaturesOf, List.mapM_cons, inductionHypothesis]

/-- What a type that was written means can be formed. -/
theorem TypesNamed.forms_of_resolve (named : graph.TypesNamed) {scope : TypeId}
    {text : TypeExpr} {signature : Signature} (lexed : text.Lexed)
    (resolved : graph.resolve scope text = .ok signature) : graph.Forms signature := by
  induction lexed generalizing signature with
  | void =>
      cases resolved
      exact .void
  | named _ =>
      rw [resolve] at resolved
      obtain ⟨type, found, same⟩ := bind_eq_ok_iff.mp resolved
      cases same
      exact .named (named.hasType_of_typeInScope found)
  | param written =>
      cases resolved
      exact .param written
  | byRef _ inductionHypothesis =>
      rw [resolve] at resolved
      obtain ⟨element, found, same⟩ := bind_eq_ok_iff.mp resolved
      cases same
      exact .byRef (inductionHypothesis found)
  | array _ inductionHypothesis =>
      rw [resolve] at resolved
      obtain ⟨element, found, same⟩ := bind_eq_ok_iff.mp resolved
      cases same
      exact .array (inductionHypothesis found)
  | generic _ someArguments _ inductionHypothesis =>
      obtain ⟨type, signatures, found, takes, read, rfl⟩ := resolve_generic_eq_ok_iff.mp resolved
      rw [signaturesOf_eq_mapM] at read
      have length := (mapM_eq_ok_iff.mp read).length_eq
      refine .generic (named.hasType_of_typeInScope found) ?_ (takes.trans length) ?_
      · rintro rfl
        exact someArguments (List.eq_nil_of_length_eq_zero length)
      · intro argument member
        obtain ⟨text, written, means⟩ := exists_of_mem_mapM_eq_ok read member
        exact inductionHypothesis text written means

end Graph

/-! ## Loaded programs -/

namespace Graph.TypesNamed

variable {graph grown : Graph}

theorem system : Graph.system.TypesNamed := by
  have apart : ∀ index < Graph.system.types.size, ∀ other < Graph.system.types.size,
      Graph.system.typeName ⟨index⟩ = Graph.system.typeName ⟨other⟩ → index = other := by
    decide +kernel
  have plain : ∀ index < Graph.system.types.size,
      (Graph.system.type ⟨index⟩).enclosing = [] ∧
        (Graph.system.type ⟨index⟩).interfaces = [] ∧
        ∀ base ∈ (Graph.system.type ⟨index⟩).base, base.index < Graph.system.types.size := by
    decide +kernel
  refine
    { size := Nat.le_refl _
      enclosing := fun type known outer around => ?_
      base := fun type known => (plain type.index known).2.2
      interfaces := fun type known interface named => ?_
      apart := fun type other known knownToo same => ?_ }
  · rw [(plain type.index known).1] at around
    cases around
  · rw [(plain type.index known).2.1] at named
    cases named
  · exact congrArg TypeId.mk (apart type.index known other.index knownToo same)

/-- The types around a type that is declared next are all there. -/
theorem hasType_of_encloses (named : graph.TypesNamed) {enclosing : List TypeId}
    (encloses : graph.Encloses enclosing) : ∀ outer ∈ enclosing, graph.HasType outer := by
  cases enclosing with
  | nil =>
      exact List.forall_mem_nil _
  | cons inner outer =>
      obtain ⟨known, further⟩ := encloses inner rfl
      refine List.forall_mem_cons.mpr ⟨known, ?_⟩
      rw [List.tail_cons] at further
      rw [further]
      exact named.enclosing inner known

/-- A type is declared under a full name that is free. -/
theorem addType (named : graph.TypesNamed) {enclosing : List TypeId} {header : TypeHeader}
    (encloses : graph.Encloses enclosing)
    (free : graph.typeNamed? (graph.fullNameWithin
      (Loading.typeDecl enclosing header) enclosing) = none) :
    (graph.addType (Loading.typeDecl enclosing header)).1.TypesNamed := by
  have grows := GrowsTo.addType graph (Loading.typeDecl enclosing header)
  have self := graph.type_addType_self (Loading.typeDecl enclosing header)
  have parts {type : TypeId}
      (known : (graph.addType (Loading.typeDecl enclosing header)).1.HasType type) :
      graph.HasType type ∨ type = (graph.addType (Loading.typeDecl enclosing header)).2 := by
    have bound : type.index < graph.types.size + 1 := by
      simpa [HasType, Graph.addType] using known
    rcases Nat.lt_succ_iff_lt_or_eq.mp bound with old | new
    · exact .inl old
    · exact .inr (congrArg TypeId.mk new)
  have around := named.hasType_of_encloses encloses
  have written := Loading.enclosing_typeDecl enclosing header
  have bare : (Loading.typeDecl enclosing header).base = none ∧
      (Loading.typeDecl enclosing header).interfaces = [] := by
    unfold Loading.typeDecl
    split
    exact ⟨rfl, rfl⟩
  have newName : (graph.addType (Loading.typeDecl enclosing header)).1.typeName
        (graph.addType (Loading.typeDecl enclosing header)).2 =
      graph.fullNameWithin (Loading.typeDecl enclosing header) enclosing := by
    rw [Graph.typeName, self, written]
    exact fullNameWithin_congr rfl rfl
      (fun outer inside => grows.name outer (around outer inside))
      (fun outer inside => grows.space outer (around outer inside))
  have fresh {type : TypeId} (known : graph.HasType type) :
      (graph.addType (Loading.typeDecl enclosing header)).1.typeName type ≠
        (graph.addType (Loading.typeDecl enclosing header)).1.typeName
          (graph.addType (Loading.typeDecl enclosing header)).2 := by
    rw [grows.typeName named known, newName]
    exact typeNamed?_eq_none_iff.mp free type known
  refine
    { size := Nat.le_trans named.size grows.types
      enclosing := fun type known outer outside => ?_
      base := fun type known base extended => ?_
      interfaces := fun type known interface listed => ?_
      apart := fun type other known knownToo same => ?_ }
  · rcases parts known with old | rfl
    · rw [grows.enclosing type old] at outside
      exact grows.hasType (named.enclosing type old outer outside)
    · rw [self, written] at outside
      exact grows.hasType (around outer outside)
  · rcases parts known with old | rfl
    · rw [graph.type_addType_of_lt _ old] at extended
      exact grows.hasType (named.base type old base extended)
    · rw [self, bare.1] at extended
      cases extended
  · rcases parts known with old | rfl
    · rw [graph.type_addType_of_lt _ old] at listed
      exact grows.hasType (named.interfaces type old interface listed)
    · rw [self, bare.2] at listed
      cases listed
  · rcases parts known with old | rfl <;> rcases parts knownToo with oldToo | rfl
    · rw [grows.typeName named old, grows.typeName named oldToo] at same
      exact named.apart type other old oldToo same
    · exact absurd same (fresh old)
    · exact absurd same.symm (fresh oldToo)
    · rfl

/-- A graph that grows by no type keeps the names, and may extend and name types that it holds. -/
theorem of_growsTo (named : graph.TypesNamed) (grows : graph.GrowsTo grown)
    (size : grown.types.size = graph.types.size)
    (base : ∀ type, graph.HasType type →
      ∀ base ∈ (grown.type type).base, graph.HasType base)
    (interfaces : ∀ type, graph.HasType type →
      ∀ interface ∈ (grown.type type).interfaces, graph.HasType interface) :
    grown.TypesNamed := by
  have old {type : TypeId} (known : grown.HasType type) : graph.HasType type := by
    rwa [HasType, size] at known
  exact
    { size := Nat.le_trans named.size grows.types
      enclosing := fun type known outer around => grows.hasType
        (named.enclosing type (old known) outer
          (by rwa [grows.enclosing type (old known)] at around))
      base := fun type known parent extended =>
        grows.hasType (base type (old known) parent extended)
      interfaces := fun type known interface listed =>
        grows.hasType (interfaces type (old known) interface listed)
      apart := fun type other known knownToo same =>
        named.apart type other (old known) (old knownToo) (by
          rwa [grows.typeName named (old known), grows.typeName named (old knownToo)] at same) }

/-- A type extends a type that the graph holds, if any. -/
theorem setBase (named : graph.TypesNamed) (type : TypeId) {base : Option TypeId}
    (known : ∀ parent ∈ base, graph.HasType parent) :
    (graph.setBase type base).TypesNamed := by
  refine named.of_growsTo (.setBase graph type base) (by simp [Graph.setBase])
    (fun other inside parent extended => ?_) fun other inside interface listed => ?_
  · rw [type_setBase graph type base inside] at extended
    split at extended
    · exact known parent extended
    · exact named.base other inside parent extended
  · rw [type_setBase graph type base inside] at listed
    split at listed <;> exact named.interfaces other inside interface listed

/-- A type names an interface that the graph holds. -/
theorem addInterface (named : graph.TypesNamed) (type : TypeId) {interface : TypeId}
    (known : graph.HasType interface) :
    (graph.addInterface type interface).TypesNamed := by
  refine named.of_growsTo (.addInterface graph type interface) (by simp [Graph.addInterface])
    (fun other inside parent extended => ?_) fun other inside another listed => ?_
  · rw [type_addInterface graph type interface inside] at extended
    split at extended <;> exact named.base other inside parent extended
  · rw [type_addInterface graph type interface inside] at listed
    split at listed
    · rcases List.mem_append.mp listed with before | last
      · exact named.interfaces other inside another before
      · rwa [List.mem_singleton.mp last]
    · exact named.interfaces other inside another listed

theorem addField (named : graph.TypesNamed) (decl : FieldDecl) :
    (graph.addField decl).1.TypesNamed :=
  named.of_growsTo (.addField graph decl) rfl named.base named.interfaces

theorem addMethod (named : graph.TypesNamed) (decl : MethodDecl) :
    (graph.addMethod decl).1.TypesNamed :=
  named.of_growsTo (.addMethod graph decl) rfl named.base named.interfaces

theorem hasType_of_definitionOf (named : graph.TypesNamed) {scope type : TypeId}
    {text : TypeExpr} (found : graph.definitionOf scope text = .ok type) :
    graph.HasType type := by
  obtain ⟨name, looked⟩ := exists_typeInScope_of_definitionOf found
  exact named.hasType_of_typeInScope looked

/-- Every step of loading keeps what is known of the types. -/
theorem step {start program reached : Program}
    (step : Program.LoadingStep start program reached)
    (named : program.graph.TypesNamed) : reached.graph.TypesNamed := by
  cases step with
  | addType _ encloses _ free =>
      exact named.addType encloses free
  | setDefaultBase kind _ =>
      refine named.setBase _ fun base written => ?_
      refine Nat.lt_of_lt_of_le ?_ named.size
      cases kind <;> cases written <;> decide
  | setBase _ found =>
      refine named.setBase _ ?_
      rintro _ ⟨⟩
      exact named.hasType_of_definitionOf found
  | addInterface _ found =>
      exact named.addInterface _ (named.hasType_of_definitionOf found)
  | addField _ _ _ _ _ =>
      exact named.addField _
  | addMethod _ _ _ _ _ =>
      exact named.addMethod _
  | setBody _ _ _ _ =>
      exact named

end Graph.TypesNamed

/-- What is known of the types of the system library is known of those of every loaded program. -/
theorem Program.FromTexts.typesNamed {program : Program} (fromTexts : program.FromTexts) :
    program.graph.TypesNamed :=
  fromTexts.kept (fun program => program.graph.TypesNamed)
    (fun _ _ _ step named => Graph.TypesNamed.step step named) Graph.TypesNamed.system

end NullWeave
