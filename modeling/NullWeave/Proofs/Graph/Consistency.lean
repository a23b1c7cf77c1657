import NullWeave.Proofs.Text.Mention

/-!
# Graphs that stay consistent

Names identify what a loaded graph holds.  Types, methods and fields are told
apart by names alone, and whatever texts were loaded, with or without faults, no
two declarations are the same by their names.  Loading goes on from what is
there and leaves it as it is: the members of an earlier type, what it extends
and its bodies are those it had before.
-/

namespace NullWeave

namespace Graph

/-- Are two fields the same: same owner, same name? -/
def sameField (graph : Graph) (left right : FieldId) : Bool :=
  graph.sameType (graph.field left).owner (graph.field right).owner &&
    (graph.field left).name == (graph.field right).name

/-! ## Members of graphs that grow -/

section Growing

variable {graph : Graph}

theorem nodup_typeIds (graph : Graph) : graph.typeIds.Nodup :=
  List.nodup_range.map fun _ _ same => congrArg TypeId.index same

theorem nodup_methodIds (graph : Graph) : graph.methodIds.Nodup :=
  List.nodup_range.map fun _ _ same => congrArg MethodId.index same

theorem nodup_fieldIds (graph : Graph) : graph.fieldIds.Nodup :=
  List.nodup_range.map fun _ _ same => congrArg FieldId.index same

theorem typeIds_addType (graph : Graph) (decl : TypeDecl) :
    (graph.addType decl).1.typeIds = graph.typeIds ++ [(graph.addType decl).2] := by
  simp [typeIds, addType, List.range_succ]

theorem methodIds_addMethod (graph : Graph) (decl : MethodDecl) :
    (graph.addMethod decl).1.methodIds = graph.methodIds ++ [(graph.addMethod decl).2] := by
  simp [methodIds, addMethod, List.range_succ]

theorem fieldIds_addField (graph : Graph) (decl : FieldDecl) :
    (graph.addField decl).1.fieldIds = graph.fieldIds ++ [(graph.addField decl).2] := by
  simp [fieldIds, addField, List.range_succ]

theorem index_lt_of_mem_methodIds {method : MethodId} (member : method ∈ graph.methodIds) :
    method.index < graph.methods.size := by
  simp only [methodIds, List.mem_map, List.mem_range] at member
  obtain ⟨index, inside, rfl⟩ := member
  exact inside

theorem index_lt_of_mem_fieldIds {field : FieldId} (member : field ∈ graph.fieldIds) :
    field.index < graph.fields.size := by
  simp only [fieldIds, List.mem_map, List.mem_range] at member
  obtain ⟨index, inside, rfl⟩ := member
  exact inside

/-- A method that is declared comes last on its owner. -/
theorem methodsOf_addMethod (graph : Graph) (decl : MethodDecl) (type : TypeId) :
    (graph.addMethod decl).1.methodsOf type =
      graph.methodsOf type ++
        if decl.owner = type then [(graph.addMethod decl).2] else [] := by
  rw [methodsOf, methodIds_addMethod, List.filter_append, methodsOf]
  congr 1
  · refine List.filter_congr fun method member => ?_
    rw [graph.method_addMethod_of_lt decl (index_lt_of_mem_methodIds member)]
  · by_cases here : decl.owner = type <;> simp [here]

/-- A field that is declared comes last on its owner. -/
theorem fieldsOf_addField (graph : Graph) (decl : FieldDecl) (type : TypeId) :
    (graph.addField decl).1.fieldsOf type =
      graph.fieldsOf type ++
        if decl.owner = type then [(graph.addField decl).2] else [] := by
  rw [fieldsOf, fieldIds_addField, List.filter_append, fieldsOf]
  congr 1
  · refine List.filter_congr fun field member => ?_
    rw [(GrowsTo.addField graph decl).field field (index_lt_of_mem_fieldIds member)]
  · by_cases here : decl.owner = type <;> simp [here]

/-- A type that is declared comes last among those nested in the innermost type around it. -/
theorem nestedTypes_addType (graph : Graph) (decl : TypeDecl) (type : TypeId) :
    (graph.addType decl).1.nestedTypes type =
      graph.nestedTypes type ++
        if decl.enclosing.head? = some type then [(graph.addType decl).2] else [] := by
  rw [nestedTypes, typeIds_addType, List.filter_append, nestedTypes]
  congr 1
  · refine List.filter_congr fun inner member => ?_
    rw [enclosingType?, graph.type_addType_of_lt decl (mem_typeIds.mp member), enclosingType?]
  · by_cases here : decl.enclosing.head? = some type <;> simp [enclosingType?, here]

/-- What is said about a type later nests no type elsewhere. -/
theorem nestedTypes_of_growsTo {grown : Graph} (grows : graph.GrowsTo grown)
    (size : grown.types.size = graph.types.size) (type : TypeId) :
    grown.nestedTypes type = graph.nestedTypes type := by
  rw [nestedTypes, nestedTypes, typeIds, typeIds, size]
  refine List.filter_congr fun inner member => ?_
  rw [enclosingType?, enclosingType?, grows.enclosing inner (mem_typeIds.mp member)]

end Growing

/-! ## Sameness by names -/

section Sameness

variable {graph : Graph}

theorem fullNameWithin_eq_of_map_eq {decl other : TypeDecl} {enclosing around : List TypeId}
    (space : decl.space = other.space) (name : decl.name = other.name)
    (same : (enclosing.map fun part => ((graph.type part).space, (graph.type part).name)) =
      around.map fun part => ((graph.type part).space, (graph.type part).name)) :
    graph.fullNameWithin decl enclosing = graph.fullNameWithin other around := by
  induction enclosing generalizing decl other around with
  | nil =>
      obtain rfl := List.map_eq_nil_iff.mp same.symm
      rw [fullNameWithin, fullNameWithin, TypeDecl.outermostName, TypeDecl.outermostName,
        space, name]
  | cons inner outer inductionHypothesis =>
      cases around with
      | nil =>
          cases same
      | cons innerToo outerToo =>
          rw [List.map_cons, List.map_cons, List.cons.injEq, Prod.mk.injEq] at same
          obtain ⟨⟨spaceHere, nameHere⟩, later⟩ := same
          rw [fullNameWithin, fullNameWithin, name,
            inductionHypothesis spaceHere nameHere later]

/-- Types that are the same have the same full name. -/
theorem typeName_eq_of_sameType {left right : TypeId}
    (same : graph.sameType left right = true) : graph.typeName left = graph.typeName right := by
  rw [sameType, beq_iff_eq, qualifiedName, qualifiedName, List.map_cons, List.map_cons,
    List.cons.injEq, Prod.mk.injEq] at same
  obtain ⟨⟨space, name⟩, around⟩ := same
  exact fullNameWithin_eq_of_map_eq space name around

theorem TypesNamed.sameType_iff (named : graph.TypesNamed) {left right : TypeId}
    (known : graph.HasType left) (knownToo : graph.HasType right) :
    graph.sameType left right = true ↔ left = right := by
  refine ⟨fun same => ?_, ?_⟩
  · exact named.apart left right known knownToo (typeName_eq_of_sameType same)
  · rintro rfl
    exact beq_self_eq_true _

theorem sameSigs_self {signatures : List Signature}
    (same : ∀ signature ∈ signatures, graph.sameSig signature signature = true) :
    graph.sameSigs signatures signatures = true := by
  induction signatures with
  | nil =>
      rfl
  | cons first rest inductionHypothesis =>
      obtain ⟨here, later⟩ := List.forall_mem_cons.mp same
      rw [sameSigs, here, inductionHypothesis later]
      rfl

theorem Forms.sameSig_self {signature : Signature} (forms : graph.Forms signature) :
    graph.sameSig signature signature = true := by
  have sameType (type : TypeId) : graph.sameType type type = true := beq_self_eq_true _
  induction forms with
  | void =>
      rfl
  | named _ =>
      exact sameType _
  | param _ =>
      simp [sameSig]
  | byRef _ inductionHypothesis | array _ inductionHypothesis =>
      exact inductionHypothesis
  | generic _ _ _ _ inductionHypothesis =>
      rw [sameSig, sameType, sameSigs_self inductionHypothesis]
      rfl

theorem MembersKnown.sameMethod_iff (known : graph.MembersKnown) (named : graph.TypesNamed)
    {left right : MethodId} (inside : left ∈ graph.methodIds)
    (insideToo : right ∈ graph.methodIds) :
    graph.sameMethod left right = true ↔ left = right := by
  have inside := index_lt_of_mem_methodIds inside
  have insideToo := index_lt_of_mem_methodIds insideToo
  have knownLeft := known.methods _ (method_mem inside)
  have knownRight := known.methods _ (method_mem insideToo)
  refine ⟨fun same => ?_, ?_⟩
  · simp only [sameMethod, Bool.and_eq_true] at same
    obtain ⟨⟨owner, -⟩, signature⟩ := same
    exact known.methodsApart left right inside insideToo
      ((named.sameType_iff knownLeft.owner knownRight.owner).mp owner) signature
  · rintro rfl
    simp only [sameMethod, Bool.and_eq_true]
    exact ⟨⟨(named.sameType_iff knownLeft.owner knownLeft.owner).mpr rfl,
      knownLeft.returnType.sameSig_self⟩, by simp [sameMethodSignature]⟩

theorem MembersKnown.fieldsApart (known : graph.MembersKnown) {left right : FieldId}
    (inside : left.index < graph.fields.size) (insideToo : right.index < graph.fields.size)
    (owner : (graph.field left).owner = (graph.field right).owner)
    (name : (graph.field left).name = (graph.field right).name) : left = right := by
  have found := known.findField? left inside
  rw [owner, name, known.findField? right insideToo] at found
  exact (Option.some.inj found).symm

theorem MembersKnown.sameField_iff (known : graph.MembersKnown) (named : graph.TypesNamed)
    {left right : FieldId} (inside : left ∈ graph.fieldIds)
    (insideToo : right ∈ graph.fieldIds) :
    graph.sameField left right = true ↔ left = right := by
  have inside := index_lt_of_mem_fieldIds inside
  have insideToo := index_lt_of_mem_fieldIds insideToo
  have ownerLeft := (known.fields _ (field_mem inside)).owner
  have ownerRight := (known.fields _ (field_mem insideToo)).owner
  refine ⟨fun same => ?_, ?_⟩
  · simp only [sameField, Bool.and_eq_true, beq_iff_eq] at same
    obtain ⟨owner, name⟩ := same
    exact known.fieldsApart inside insideToo
      ((named.sameType_iff ownerLeft ownerRight).mp owner) name
  · rintro rfl
    simp only [sameField, Bool.and_eq_true, beq_self_eq_true, and_true]
    exact (named.sameType_iff ownerLeft ownerLeft).mpr rfl

end Sameness

/-! ## Consistency -/

/-- Do names identify the types, the methods and the fields of a graph? -/
structure Consistent (graph : Graph) : Prop where
  /-- No two types have the same full name. -/
  typesApart : (graph.typeIds.map graph.typeName).Nodup
  /-- The full name of a type is looked up to that type. -/
  typeNamed? : ∀ type ∈ graph.typeIds, graph.typeNamed? (graph.typeName type) = some type
  /-- A nested type is listed once among those of the type around it. -/
  nested : ∀ type ∈ graph.typeIds, ∀ outer ∈ graph.enclosingType? type,
    outer ∈ graph.typeIds ∧ (graph.nestedTypes outer).count type = 1
  /-- No two methods of a type have the same name and types of parameters. -/
  methodsApart : ∀ type, (graph.methodsOf type).Pairwise fun method other =>
    graph.sameMethodSignature (graph.method method) (graph.method other) = false
  /-- No two fields of a type have the same name. -/
  fieldsApart : ∀ type, ((graph.fieldsOf type).map fun field => (graph.field field).name).Nodup
  sameType_iff : ∀ left ∈ graph.typeIds, ∀ right ∈ graph.typeIds,
    graph.sameType left right = true ↔ left = right
  sameMethod_iff : ∀ left ∈ graph.methodIds, ∀ right ∈ graph.methodIds,
    graph.sameMethod left right = true ↔ left = right
  sameField_iff : ∀ left ∈ graph.fieldIds, ∀ right ∈ graph.fieldIds,
    graph.sameField left right = true ↔ left = right

end Graph

/-- The names of a program in which all that is mentioned is known identify what it holds. -/
theorem Program.Named.consistent {program : Program} (named : program.Named) :
    program.graph.Consistent where
  typesApart := (program.graph.nodup_typeIds.map_on fun type member other memberToo same =>
    named.types.apart type other (Graph.mem_typeIds.mp member) (Graph.mem_typeIds.mp memberToo)
      same)
  typeNamed? type member :=
    named.types.typeNamed?_eq_some_iff.mpr ⟨Graph.mem_typeIds.mp member, rfl⟩
  nested type member outer around := by
    refine ⟨?_, ?_⟩
    · exact Graph.mem_typeIds.mpr (named.types.enclosing type (Graph.mem_typeIds.mp member) outer
        (List.mem_of_mem_head? around))
    · refine List.count_eq_one_of_mem (program.graph.nodup_typeIds.filter _) ?_
      exact List.mem_filter.mpr ⟨member, beq_iff_eq.mpr around⟩
  methodsApart type := by
    have apart : (program.graph.methodsOf type).Nodup := program.graph.nodup_methodIds.filter _
    refine apart.imp_of_mem fun {method other} member memberToo differ => ?_
    obtain ⟨inside, owner⟩ := (program.graph.mem_methodsOf _ _).mp member
    obtain ⟨insideToo, ownerToo⟩ := (program.graph.mem_methodsOf _ _).mp memberToo
    refine Bool.eq_false_iff.mpr fun same => differ ?_
    exact named.members.methodsApart method other inside insideToo
      (owner.trans ownerToo.symm) same
  fieldsApart type := by
    refine (program.graph.nodup_fieldIds.filter _).map_on
      fun field member other memberToo same => ?_
    obtain ⟨inside, owner⟩ := Graph.mem_fieldsOf.mp member
    obtain ⟨insideToo, ownerToo⟩ := Graph.mem_fieldsOf.mp memberToo
    exact named.members.fieldsApart inside insideToo (owner.trans ownerToo.symm) same
  sameType_iff _ member _ memberToo :=
    named.types.sameType_iff (Graph.mem_typeIds.mp member) (Graph.mem_typeIds.mp memberToo)
  sameMethod_iff _ member _ memberToo :=
    named.members.sameMethod_iff named.types member memberToo
  sameField_iff _ member _ memberToo :=
    named.members.sameField_iff named.types member memberToo

/-! ## What was there before -/

/-- Is everything that a program holds the same in another one? -/
structure Program.StaysIn (start reached : Program) : Prop where
  /-- The declaration of a type says what it extends and which interfaces it names. -/
  type : ∀ type, start.graph.HasType type → reached.graph.HasType type ∧
    reached.graph.type type = start.graph.type type
  nestedTypes : ∀ type, start.graph.HasType type →
    reached.graph.nestedTypes type = start.graph.nestedTypes type
  methodsOf : ∀ type, start.graph.HasType type →
    reached.graph.methodsOf type = start.graph.methodsOf type
  fieldsOf : ∀ type, start.graph.HasType type →
    reached.graph.fieldsOf type = start.graph.fieldsOf type
  method : ∀ method ∈ start.graph.methodIds,
    reached.graph.method method = start.graph.method method ∧
      reached.bodies.get? method = start.bodies.get? method
  field : ∀ field ∈ start.graph.fieldIds,
    reached.graph.field field = start.graph.field field

namespace Program

theorem StaysIn.refl (program : Program) : program.StaysIn program :=
  ⟨fun _ known => ⟨known, rfl⟩, fun _ _ => rfl, fun _ _ => rfl, fun _ _ => rfl,
    fun _ _ => ⟨rfl, rfl⟩, fun _ _ => rfl⟩

variable {start program reached : Program}

/-- A step of loading declares nothing on what was there, and says nothing about it. -/
theorem StaysIn.step (stays : start.StaysIn program) (since : start.graph.GrowsTo program.graph)
    (step : LoadingStep start program reached) : start.StaysIn reached := by
  have grows := step.growsTo
  have method (method : MethodId) (member : method ∈ start.graph.methodIds) :
      reached.graph.method method = start.graph.method method := by
    have inside := Graph.index_lt_of_mem_methodIds member
    rw [grows.method method (Nat.lt_of_lt_of_le inside since.methods)]
    exact (stays.method method member).1
  have field (field : FieldId) (member : field ∈ start.graph.fieldIds) :
      reached.graph.field field = start.graph.field field := by
    have inside := Graph.index_lt_of_mem_fieldIds member
    rw [grows.field field (Nat.lt_of_lt_of_le inside since.fields)]
    exact stays.field field member
  cases step with
  | @addType enclosing header _ _ outside _ =>
      refine
        { stays with
          type := fun type known => ?_
          nestedTypes := fun type known => ?_ }
      · rw [program.graph.type_addType_of_lt _ (stays.type type known).1]
        exact ⟨grows.hasType (stays.type type known).1, (stays.type type known).2⟩
      · have apart : (Loading.typeDecl enclosing header).enclosing.head? ≠ some type := by
          have written : (Loading.typeDecl enclosing header).enclosing = enclosing := by
            unfold Loading.typeDecl
            split
            rfl
          rw [written]
          exact fun here => outside type (List.mem_of_mem_head? here) known
        rw [program.graph.nestedTypes_addType, if_neg apart, List.append_nil]
        exact stays.nestedTypes type known
  | @setDefaultBase changed kind isNew | @setBase changed _ _ isNew _ =>
      refine
        { stays with
          type := fun type known => ?_
          nestedTypes := fun type known => ?_ }
      · rw [program.graph.type_setBase changed _ (stays.type type known).1,
          if_neg (by rintro rfl; exact isNew known)]
        exact ⟨grows.hasType (stays.type type known).1, (stays.type type known).2⟩
      · rw [Graph.nestedTypes_of_growsTo grows (by simp [Graph.setBase])]
        exact stays.nestedTypes type known
  | @addInterface changed interface _ isNew _ =>
      refine
        { stays with
          type := fun type known => ?_
          nestedTypes := fun type known => ?_ }
      · rw [program.graph.type_addInterface changed interface (stays.type type known).1,
          if_neg (by rintro rfl; exact isNew known)]
        exact ⟨grows.hasType (stays.type type known).1, (stays.type type known).2⟩
      · rw [Graph.nestedTypes_of_growsTo grows (by simp [Graph.addInterface])]
        exact stays.nestedTypes type known
  | @addField owner _ _ _ _ isNew _ _ =>
      refine
        { stays with
          fieldsOf := fun type known => ?_
          field }
      rw [program.graph.fieldsOf_addField, if_neg (by rintro rfl; exact isNew known),
        List.append_nil]
      exact stays.fieldsOf type known
  | @addMethod owner _ decl _ _ isNew read _ =>
      obtain ⟨_, _, returned⟩ := bind_eq_ok_iff.mp read
      obtain ⟨_, _, same⟩ := bind_eq_ok_iff.mp returned
      cases same
      refine
        { stays with
          methodsOf := fun type known => ?_
          method := fun other member => ⟨method other member, (stays.method other member).2⟩ }
      rw [program.graph.methodsOf_addMethod, if_neg (by rintro rfl; exact isNew known),
        List.append_nil]
      exact stays.methodsOf type known
  | @setBody owner _ _ body _ isNew _ _ =>
      refine { stays with method := fun other member => ⟨method other member, ?_⟩ }
      have apart : other ≠ owner := by
        rintro rfl
        exact Nat.not_lt.mpr isNew (Graph.index_lt_of_mem_methodIds member)
      rw [Program.setBody, Bodies.get?_set_of_ne _ body apart]
      exact (stays.method other member).2

theorem staysIn_load (program : Program) (text : String) :
    program.StaysIn (program.load text).2 := by
  have grown : program.StaysIn (program.load text).2 ∧
      program.graph.GrowsTo (program.load text).2.graph :=
    (loadingSteps_load program text).kept
      (fun reached => program.StaysIn reached ∧ program.graph.GrowsTo reached.graph)
      (fun _ _ step kept => ⟨kept.1.step kept.2 step, kept.2.trans step.growsTo⟩)
      ⟨.refl program, .refl program.graph⟩
  exact grown.1

/-! ## Any number of texts -/

/-- The system library with texts loaded one after another, whether each is accepted or not. -/
def afterTexts (texts : List String) : Program :=
  texts.foldl (fun program text => (program.load text).2) .initial

/-- What holds of the system library and is kept by loading each text holds after all of them. -/
theorem afterTexts_induction {kept : Program → Prop} {texts : List String}
    (initial : kept .initial)
    (load : ∀ text ∈ texts, ∀ program : Program, kept program → kept (program.load text).2) :
    kept (afterTexts texts) :=
  List.foldlRecOn texts _ initial fun program holds text member =>
    load text member program holds

theorem fromTexts_afterTexts (texts : List String) : (afterTexts texts).FromTexts :=
  afterTexts_induction .initial fun text _ _ fromTexts => fromTexts.load text

/--
Whatever texts were loaded, names identify what the graph holds, and one more text
leaves all of it as it is; a text that cannot be read changes nothing at all.
-/
theorem afterTexts_stays_consistent (texts : List String) :
    (afterTexts texts).graph.Consistent ∧
      ∀ text, (afterTexts texts).StaysIn ((afterTexts texts).load text).2 ∧
        ∀ error, readModule text = .error error →
          (afterTexts texts).load text = (.error error, afterTexts texts) := by
  refine ⟨(fromTexts_afterTexts texts).named.consistent, fun text => ⟨?_, ?_⟩⟩
  · exact staysIn_load _ text
  · intro error failed
    rw [load, failed]

end Program

end NullWeave
