import NullWeave.Proofs.BlockLayout
import NullWeave.Proofs.Text.LoadedSupertypes
import NullWeave.Proofs.Text.Mention

/-!
# Which members types declare

The third pass over a text declares the fields and methods of each type.  What
a member declares does not depend on the members that are there, so all of them
can be read from the graph before the pass.  The pass goes well exactly if they
can and no type has a member twice; it leaves the members of each type side by
side, in the order in which they were written.
-/

namespace NullWeave

namespace Loading

variable {program reached : Program}

/-! ## Members -/

/-- The fields and methods that a type of a text declares. -/
structure TypeMembers where
  text : TypeText
  type : TypeId
  fields : List FieldDecl
  methods : List MethodDecl

namespace TypeMembers

/-- Members with the types that they refer to under other identities. -/
def rename (change : TypeId → TypeId) (members : TypeMembers) : TypeMembers where
  text := members.text
  type := change members.type
  fields := members.fields.map (FieldDecl.rename change)
  methods := members.methods.map (MethodDecl.rename change)

theorem rename_id (members : TypeMembers) : members.rename id = members := by
  cases members with
  | mk text type fields methods =>
      rw [rename, funext FieldDecl.rename_id, funext MethodDecl.rename_id, List.map_id',
        List.map_id']
      rfl

/-- Is no member declared twice? -/
structure Apart (graph : Graph) (members : TypeMembers) : Prop where
  fields : members.fields.Pairwise fun field other => field.name ≠ other.name
  methods : members.methods.Pairwise fun method other =>
    graph.sameMethodSignature method other = false

/-- The methods of a text with the identities that they get, from the next free one on. -/
def entries (next : Nat) (members : TypeMembers) : List (MethodText × MethodId) :=
  members.text.methods.zip ((List.range' next members.methods.length).map MethodId.mk)

end TypeMembers

/-- Read the declaration of a field. -/
def readField (graph : Graph) (type : TypeId) (text : FieldText) : Except TextFault FieldDecl :=
  (fun signature =>
      { owner := type, name := text.name, type := signature, access := text.access }) <$>
    graph.resolve type text.type

/-- Read the members of a type. -/
def readMembers (graph : Graph) (entry : TypeText × TypeId) : Except TextFault TypeMembers := do
  let fields ← entry.1.fields.mapM (readField graph entry.2)
  let methods ← entry.1.methods.mapM (readMethod graph entry.2)
  pure { text := entry.1, type := entry.2, fields, methods }

theorem readMembers_eq_ok_iff {graph : Graph} {text : TypeText} {type : TypeId}
    {members : TypeMembers} :
    readMembers graph (text, type) = .ok members ↔
      ∃ fields methods, text.fields.mapM (readField graph type) = .ok fields ∧
        text.methods.mapM (readMethod graph type) = .ok methods ∧
          members = ⟨text, type, fields, methods⟩ := by
  rw [readMembers, bind_eq_ok_iff]
  simp only [bind_eq_ok_iff, pure, Except.pure, Except.ok.injEq, exists_and_left,
    eq_comm (b := members)]

theorem name_of_readField {graph : Graph} {type : TypeId} {text : FieldText}
    {decl : FieldDecl} (read : readField graph type text = .ok decl) :
    decl.name = text.name := by
  obtain ⟨signature, -, rfl⟩ := map_eq_ok_iff.mp read
  rfl

theorem owner_of_readField {graph : Graph} {type : TypeId} {text : FieldText}
    {decl : FieldDecl} (read : readField graph type text = .ok decl) : decl.owner = type := by
  obtain ⟨signature, -, rfl⟩ := map_eq_ok_iff.mp read
  rfl

theorem owner_of_readMethod {graph : Graph} {type : TypeId} {text : MethodText}
    {decl : MethodDecl} (read : readMethod graph type text = .ok decl) : decl.owner = type := by
  obtain ⟨parameters, -, later⟩ := bind_eq_ok_iff.mp read
  obtain ⟨returnType, -, same⟩ := bind_eq_ok_iff.mp later
  cases same
  rfl

end Loading

namespace Graph

variable {graph : Graph}

/-- A graph with more fields, in order. -/
def withFields (graph : Graph) (decls : List FieldDecl) : Graph :=
  { graph with fields := graph.fields ++ decls.toArray }

/-- A graph with more methods, in order. -/
def withMethods (graph : Graph) (decls : List MethodDecl) : Graph :=
  { graph with methods := graph.methods ++ decls.toArray }

@[simp]
theorem withFields_nil (graph : Graph) : graph.withFields [] = graph := by
  simp [withFields]

@[simp]
theorem withMethods_nil (graph : Graph) : graph.withMethods [] = graph := by
  simp [withMethods]

theorem withFields_singleton (graph : Graph) (decl : FieldDecl) :
    graph.withFields [decl] = (graph.addField decl).1 := by
  simp [withFields, addField]

theorem withMethods_singleton (graph : Graph) (decl : MethodDecl) :
    graph.withMethods [decl] = (graph.addMethod decl).1 := by
  simp [withMethods, addMethod]

theorem withFields_append (graph : Graph) (front back : List FieldDecl) :
    graph.withFields (front ++ back) = (graph.withFields front).withFields back := by
  simp [withFields]

theorem withMethods_append (graph : Graph) (front back : List MethodDecl) :
    graph.withMethods (front ++ back) = (graph.withMethods front).withMethods back := by
  simp [withMethods]

theorem size_withMethods (graph : Graph) (decls : List MethodDecl) :
    (graph.withMethods decls).methods.size = graph.methods.size + decls.length := by
  simp [withMethods]

theorem NamedAlike.withFields (graph : Graph) (decls : List FieldDecl) :
    graph.NamedAlike (Equiv.refl TypeId) (graph.withFields decls) :=
  .of_types rfl

theorem NamedAlike.withMethods (graph : Graph) (decls : List MethodDecl) :
    graph.NamedAlike (Equiv.refl TypeId) (graph.withMethods decls) :=
  .of_types rfl

theorem forall_mem_fieldsOf {type : TypeId} (holds : FieldDecl → Prop) :
    (∀ field ∈ graph.fieldsOf type, holds (graph.field field)) ↔
      ∀ decl ∈ graph.fields, decl.owner = type → holds decl := by
  simp only [mem_fieldsOf]
  constructor
  · intro all decl member owner
    obtain ⟨index, inside, rfl⟩ := Array.mem_iff_getElem.mp member
    have here := all ⟨index⟩ ⟨inside, by simpa [Graph.field, inside] using owner⟩
    simpa [Graph.field, inside] using here
  · rintro all field ⟨inside, owner⟩
    have here := all graph.fields[field.index] (Array.getElem_mem inside)
      (by simpa [Graph.field, inside] using owner)
    simpa [Graph.field, inside] using here

theorem forall_mem_methodsOf {type : TypeId} (holds : MethodDecl → Prop) :
    (∀ method ∈ graph.methodsOf type, holds (graph.method method)) ↔
      ∀ decl ∈ graph.methods, decl.owner = type → holds decl := by
  simp only [mem_methodsOf]
  constructor
  · intro all decl member owner
    obtain ⟨index, inside, rfl⟩ := Array.mem_iff_getElem.mp member
    have here := all ⟨index⟩ ⟨inside, by simpa [Graph.method, inside] using owner⟩
    simpa [Graph.method, inside] using here
  · rintro all method ⟨inside, owner⟩
    have here := all graph.methods[method.index] (Array.getElem_mem inside)
      (by simpa [Graph.method, inside] using owner)
    simpa [Graph.method, inside] using here

theorem findField?_eq_none_iff {type : TypeId} {name : String} :
    graph.findField? type name = none ↔
      ∀ decl ∈ graph.fields, decl.owner = type → decl.name ≠ name := by
  rw [← forall_mem_fieldsOf fun decl => decl.name ≠ name, findField?, List.find?_eq_none]
  simp only [beq_iff_eq, ne_eq]

end Graph

namespace Graph.NamedAlike

variable {change : Equiv.Perm TypeId} {graph other : Graph}

theorem readField (alike : graph.NamedAlike change other) (apart : graph.NamesApart)
    (type : TypeId) (text : FieldText) :
    Loading.readField other (change type) text =
      FieldDecl.rename change <$> Loading.readField graph type text := by
  rw [Loading.readField, Loading.readField, alike.resolve apart]
  cases graph.resolve type text.type <;> rfl

theorem readParameter (alike : graph.NamedAlike change other) (apart : graph.NamesApart)
    (type : TypeId) (text : ParameterText) :
    Loading.readParameter other (change type) text =
      Parameter.rename change <$> Loading.readParameter graph type text := by
  rw [Loading.readParameter, Loading.readParameter, alike.resolve apart]
  cases graph.resolve type text.type with
  | error fault =>
      rfl
  | ok signature =>
      refine congrArg Except.ok ?_
      rw [Parameter.rename, Parameter.mk.injEq]
      refine ⟨rfl, ?_, rfl, rfl, rfl⟩
      dsimp only
      cases text.isOut <;> rfl

theorem readMethod (alike : graph.NamedAlike change other) (apart : graph.NamesApart)
    (type : TypeId) (text : MethodText) :
    Loading.readMethod other (change type) text =
      MethodDecl.rename change <$> Loading.readMethod graph type text := by
  rw [Loading.readMethod, Loading.readMethod,
    mapM_eq_map_mapM (alike.readParameter apart type), alike.resolve apart]
  cases text.parameters.mapM (Loading.readParameter graph type) with
  | error fault =>
      rfl
  | ok parameters =>
      cases graph.resolve type text.returnType <;> rfl

theorem readMembers (alike : graph.NamedAlike change other) (apart : graph.NamesApart)
    (text : TypeText) (type : TypeId) :
    Loading.readMembers other (text, change type) =
      Loading.TypeMembers.rename change <$> Loading.readMembers graph (text, type) := by
  rw [Loading.readMembers, Loading.readMembers,
    mapM_eq_map_mapM (alike.readField apart type),
    mapM_eq_map_mapM (alike.readMethod apart type)]
  cases text.fields.mapM (Loading.readField graph type) with
  | error fault =>
      rfl
  | ok fields =>
      cases text.methods.mapM (Loading.readMethod graph type) <;> rfl

theorem membersApart (alike : graph.NamedAlike change other) {members : Loading.TypeMembers}
    (apart : members.Apart graph) : (members.rename change).Apart other where
  fields := List.pairwise_map.mpr apart.fields
  methods := List.pairwise_map.mpr (apart.methods.imp fun {method another} differ => by
    rw [alike.sameMethodSignature]
    exact differ)

/-! Where identities stay as they are, the same is read and compared. -/

theorem readField_eq (alike : graph.NamedAlike (Equiv.refl TypeId) other)
    (apart : graph.NamesApart) (type : TypeId) :
    Loading.readField other type = Loading.readField graph type := by
  funext text
  have read := alike.readField apart type text
  rwa [Equiv.refl_apply, Equiv.coe_refl, funext FieldDecl.rename_id, id_map'] at read

theorem readMethod_eq (alike : graph.NamedAlike (Equiv.refl TypeId) other)
    (apart : graph.NamesApart) (type : TypeId) :
    Loading.readMethod other type = Loading.readMethod graph type := by
  funext text
  have read := alike.readMethod apart type text
  rwa [Equiv.refl_apply, Equiv.coe_refl, funext MethodDecl.rename_id, id_map'] at read

theorem readMembers_eq (alike : graph.NamedAlike (Equiv.refl TypeId) other)
    (apart : graph.NamesApart) : Loading.readMembers other = Loading.readMembers graph := by
  funext entry
  have read := alike.readMembers apart entry.1 entry.2
  rwa [Equiv.refl_apply, Equiv.coe_refl, funext Loading.TypeMembers.rename_id, id_map'] at read

theorem sameMethodSignature_eq (alike : graph.NamedAlike (Equiv.refl TypeId) other) :
    other.sameMethodSignature = graph.sameMethodSignature := by
  funext left right
  have compared := alike.sameMethodSignature left right
  rwa [Equiv.coe_refl, MethodDecl.rename_id, MethodDecl.rename_id] at compared

theorem membersApart_iff (alike : graph.NamedAlike (Equiv.refl TypeId) other)
    {members : Loading.TypeMembers} : members.Apart other ↔ members.Apart graph := by
  have same := alike.sameMethodSignature_eq
  constructor
  · rintro ⟨fields, methods⟩
    exact ⟨fields, same ▸ methods⟩
  · rintro ⟨fields, methods⟩
    exact ⟨fields, same ▸ methods⟩

end Graph.NamedAlike

namespace Loading

section Members

variable {graph : Graph}

/-! Fields and methods are declared one by one. -/

variable {program reached : Program}

theorem addField_eq_ok_iff {type : TypeId} {text : FieldText} :
    (addField type text).run program = (.ok (), reached) ↔
      program.graph.findField? type text.name = none ∧
        ∃ decl, readField program.graph type text = .ok decl ∧
          reached = { program with graph := program.graph.withFields [decl] } := by
  rw [addField, run_graph_bind, readField]
  cases program.graph.findField? type text.name with
  | some taken =>
      exact iff_of_false nofun (fun declared => nomatch declared.1)
  | none =>
      change (orFail text.line (program.graph.resolve type text.type) >>= _).run program = _ ↔ _
      rw [orFail_bind_eq_ok_iff]
      simp only [setGraph_eq_ok_iff, map_eq_ok_iff, and_assoc, existsAndEq, true_and,
        Graph.withFields_singleton]

theorem findField?_withFields {type : TypeId} {decl : FieldDecl} (owner : decl.owner = type)
    (name : String) :
    (graph.withFields [decl]).findField? type name = none ↔
      graph.findField? type name = none ∧ decl.name ≠ name := by
  simp [Graph.findField?_eq_none_iff, Graph.withFields, or_imp, forall_and, owner]

/-- The fields of a type are declared exactly if each can be read and no name is taken. -/
theorem addFields_eq_ok_iff {type : TypeId} {texts : List FieldText}
    (apart : program.graph.NamesApart) :
    (texts.forM (addField type)).run program = (.ok (), reached) ↔
      ∃ decls, texts.mapM (readField program.graph type) = .ok decls ∧
        (∀ decl ∈ decls, program.graph.findField? type decl.name = none) ∧
          (decls.Pairwise fun decl other => decl.name ≠ other.name) ∧
            reached = { program with graph := program.graph.withFields decls } := by
  induction texts generalizing program with
  | nil =>
      constructor
      · rintro ⟨⟩
        exact ⟨[], rfl, List.forall_mem_nil _, .nil, by rw [Graph.withFields_nil]⟩
      · rintro ⟨decls, none, -, -, rfl⟩
        obtain rfl : decls = [] := (Except.ok.inj none).symm
        rw [Graph.withFields_nil]
        rfl
  | cons text rest inductionHypothesis =>
      have later (decl : FieldDecl) :=
        @inductionHypothesis { program with graph := program.graph.withFields [decl] }
          ((Graph.NamedAlike.withFields program.graph [decl]).namesApart apart)
      rw [run_forM_cons_eq_ok]
      simp only [addField_eq_ok_iff, mapM_cons_eq_ok_iff]
      constructor
      · rintro ⟨between, ⟨unnamed, decl, read, rfl⟩, ran⟩
        obtain ⟨decls, reads, frees, pairs, rfl⟩ := (later decl).mp ran
        rw [(Graph.NamedAlike.withFields _ _).readField_eq apart] at reads
        have apartNow : ∀ other ∈ decls,
            program.graph.findField? type other.name = none ∧ decl.name ≠ other.name :=
          fun other member =>
            (findField?_withFields (owner_of_readField read) _).mp (frees other member)
        rw [← name_of_readField read] at unnamed
        refine ⟨decl :: decls, ⟨decl, decls, read, reads, rfl⟩,
          List.forall_mem_cons.mpr ⟨unnamed, fun other member => (apartNow other member).1⟩,
          .cons (fun other member => (apartNow other member).2) pairs, ?_⟩
        rw [← program.graph.withFields_append [decl] decls, List.singleton_append]
      · rintro ⟨_, ⟨decl, decls, read, reads, rfl⟩, frees, pairs, rfl⟩
        obtain ⟨unnamed, frees⟩ := List.forall_mem_cons.mp frees
        obtain ⟨differ, pairs⟩ := List.pairwise_cons.mp pairs
        rw [name_of_readField read] at unnamed
        refine ⟨_, ⟨unnamed, decl, read, rfl⟩,
          (later decl).mpr ⟨decls, ?_, fun other member => ?_, pairs, ?_⟩⟩
        · rw [(Graph.NamedAlike.withFields _ _).readField_eq apart]
          exact reads
        · exact (findField?_withFields (owner_of_readField read) _).mpr
            ⟨frees other member, differ other member⟩
        · rw [← program.graph.withFields_append [decl] decls, List.singleton_append]

/-- Does no method of a type have the signature of a declaration? -/
def SignatureFree (graph : Graph) (type : TypeId) (decl : MethodDecl) : Prop :=
  ∀ other ∈ graph.methods, other.owner = type → graph.sameMethodSignature other decl = false

theorem addMethod_eq_ok_iff {type : TypeId} {text : MethodText}
    {entry : MethodText × MethodId} :
    (addMethod type text).run program = (.ok entry, reached) ↔
      ∃ decl, readMethod program.graph type text = .ok decl ∧
        SignatureFree program.graph type decl ∧
          entry = (text, ⟨program.graph.methods.size⟩) ∧
            reached = { program with graph := program.graph.withMethods [decl] } := by
  rw [addMethod, run_graph_bind, orFail_bind_eq_ok_iff]
  refine exists_congr fun decl => and_congr_right fun _ => ?_
  have taken : ((program.graph.methodsOf type).any fun other =>
      program.graph.sameMethodSignature (program.graph.method other) decl) = false ↔
        SignatureFree program.graph type decl := by
    simp only [List.any_eq_false, Bool.not_eq_true]
    exact Graph.forall_mem_methodsOf fun other =>
      program.graph.sameMethodSignature other decl = false
  rw [← taken]
  dsimp only
  cases (program.graph.methodsOf type).any fun other =>
      program.graph.sameMethodSignature (program.graph.method other) decl with
  | true =>
      exact iff_of_false nofun nofun
  | false =>
      change ((.ok (text, _), _) : Except TextError _ × Program) = _ ↔ _
      rw [Prod.mk.injEq, Except.ok.injEq, eq_comm (b := entry), eq_comm (b := reached),
        Graph.withMethods_singleton]
      exact (and_iff_right rfl).symm

theorem signatureFree_withMethods {type : TypeId} {decl : MethodDecl}
    (owner : decl.owner = type) (other : MethodDecl) :
    SignatureFree (graph.withMethods [decl]) type other ↔
      SignatureFree graph type other ∧ graph.sameMethodSignature decl other = false := by
  simp only [SignatureFree, (Graph.NamedAlike.withMethods _ _).sameMethodSignature_eq]
  simp [Graph.withMethods, or_imp, forall_and, owner]

/-- The methods of a type are declared exactly if each can be read and no signature is taken. -/
theorem addMethods_eq_ok_iff {type : TypeId} {texts : List MethodText}
    {entries : List (MethodText × MethodId)} (apart : program.graph.NamesApart) :
    (texts.mapM (addMethod type)).run program = (.ok entries, reached) ↔
      ∃ decls, texts.mapM (readMethod program.graph type) = .ok decls ∧
        (∀ decl ∈ decls, SignatureFree program.graph type decl) ∧
          (decls.Pairwise fun decl other =>
            program.graph.sameMethodSignature decl other = false) ∧
            entries = texts.zip ((List.range' program.graph.methods.size decls.length).map
              MethodId.mk) ∧
              reached = { program with graph := program.graph.withMethods decls } := by
  induction texts generalizing program entries with
  | nil =>
      constructor
      · rintro ⟨⟩
        exact ⟨[], rfl, List.forall_mem_nil _, .nil, rfl, by rw [Graph.withMethods_nil]⟩
      · rintro ⟨decls, none, -, -, rfl, rfl⟩
        obtain rfl : decls = [] := (Except.ok.inj none).symm
        rw [Graph.withMethods_nil]
        rfl
  | cons text rest inductionHypothesis =>
      have later (decl : MethodDecl) (others : List (MethodText × MethodId)) :=
        @inductionHypothesis { program with graph := program.graph.withMethods [decl] } others
          ((Graph.NamedAlike.withMethods program.graph [decl]).namesApart apart)
      rw [run_mapM_cons_eq_ok]
      simp only [addMethod_eq_ok_iff, mapM_cons_eq_ok_iff]
      constructor
      · rintro ⟨_, between, _, ⟨decl, read, unused, rfl, rfl⟩, ran, rfl⟩
        obtain ⟨decls, reads, frees, pairs, rfl, rfl⟩ := (later decl _).mp ran
        rw [(Graph.NamedAlike.withMethods _ _).readMethod_eq apart] at reads
        rw [(Graph.NamedAlike.withMethods _ _).sameMethodSignature_eq] at pairs
        have apartNow : ∀ other ∈ decls, SignatureFree program.graph type other ∧
            program.graph.sameMethodSignature decl other = false :=
          fun other member =>
            (signatureFree_withMethods (owner_of_readMethod read) _).mp (frees other member)
        refine ⟨decl :: decls, ⟨decl, decls, read, reads, rfl⟩,
          List.forall_mem_cons.mpr ⟨unused, fun other member => (apartNow other member).1⟩,
          .cons (fun other member => (apartNow other member).2) pairs, ?_, ?_⟩
        · rw [Graph.size_withMethods]
          rfl
        · rw [← program.graph.withMethods_append [decl] decls, List.singleton_append]
      · rintro ⟨_, ⟨decl, decls, read, reads, rfl⟩, frees, pairs, rfl, rfl⟩
        obtain ⟨unused, frees⟩ := List.forall_mem_cons.mp frees
        obtain ⟨differ, pairs⟩ := List.pairwise_cons.mp pairs
        refine ⟨_, _, _, ⟨decl, read, unused, rfl, rfl⟩,
          (later decl _).mpr ⟨decls, ?_, fun other member => ?_, ?_, rfl, ?_⟩, ?_⟩
        · rw [(Graph.NamedAlike.withMethods _ _).readMethod_eq apart]
          exact reads
        · exact (signatureFree_withMethods (owner_of_readMethod read) _).mpr
            ⟨frees other member, differ other member⟩
        · rw [(Graph.NamedAlike.withMethods _ _).sameMethodSignature_eq]
          exact pairs
        · rw [← program.graph.withMethods_append [decl] decls, List.singleton_append]
        · rw [Graph.size_withMethods]
          rfl

/-! The members of a type are declared where no member of it is. -/

/-- Does a graph hold no member of a type? -/
structure Memberless (graph : Graph) (type : TypeId) : Prop where
  fields : ∀ decl ∈ graph.fields, decl.owner ≠ type
  methods : ∀ decl ∈ graph.methods, decl.owner ≠ type

/-- A graph with the members of several types. -/
def withMembers (graph : Graph) (all : List TypeMembers) : Graph :=
  (graph.withFields (all.flatMap (·.fields))).withMethods (all.flatMap (·.methods))

theorem namedAlike_withMembers (graph : Graph) (all : List TypeMembers) :
    graph.NamedAlike (Equiv.refl TypeId) (withMembers graph all) :=
  .of_types rfl

theorem withMembers_append (graph : Graph) (front back : List TypeMembers) :
    withMembers graph (front ++ back) = withMembers (withMembers graph front) back := by
  simp [withMembers, Graph.withFields, Graph.withMethods]

/-- What is read for a type belongs to it. -/
theorem owners_of_readMembers {text : TypeText} {type : TypeId} {members : TypeMembers}
    (read : readMembers graph (text, type) = .ok members) :
    (∀ decl ∈ members.fields, decl.owner = type) ∧
      (∀ decl ∈ members.methods, decl.owner = type) := by
  obtain ⟨fields, methods, fieldsRead, methodsRead, rfl⟩ := readMembers_eq_ok_iff.mp read
  constructor
  · intro decl member
    obtain ⟨field, -, here⟩ := exists_of_mem_mapM_eq_ok fieldsRead member
    exact owner_of_readField here
  · intro decl member
    obtain ⟨method, -, here⟩ := exists_of_mem_mapM_eq_ok methodsRead member
    exact owner_of_readMethod here

/-- Members of one type leave every other type as it is. -/
theorem Memberless.withMembers {type other : TypeId} {text : TypeText}
    {members : TypeMembers} (memberless : Memberless graph other)
    (read : readMembers graph (text, type) = .ok members) (differ : type ≠ other) :
    Memberless (withMembers graph [members]) other := by
  obtain ⟨fields, methods⟩ := owners_of_readMembers read
  constructor
  · intro decl member
    rw [Loading.withMembers, Graph.withMethods, Graph.withFields, Array.mem_append] at member
    rcases member with before | new
    · exact memberless.fields decl before
    · rw [fields decl (by simpa using new)]
      exact differ
  · intro decl member
    rw [Loading.withMembers, Graph.withMethods, Graph.withFields, Array.mem_append] at member
    rcases member with before | new
    · exact memberless.methods decl before
    · rw [methods decl (by simpa using new)]
      exact differ

/-- The members of a type are declared exactly if each can be read and none twice. -/
theorem addMembers_eq_ok_iff {text : TypeText} {type : TypeId}
    {entries : List (MethodText × MethodId)} (apart : program.graph.NamesApart)
    (memberless : Memberless program.graph type) :
    (addMembers text type).run program = (.ok entries, reached) ↔
      ∃ members, readMembers program.graph (text, type) = .ok members ∧
        members.Apart program.graph ∧
          entries = members.entries program.graph.methods.size ∧
            reached = { program with graph := withMembers program.graph [members] } := by
  have alike := Graph.NamedAlike.withFields program.graph
  have unused (decls : List FieldDecl) (decl : MethodDecl) :
      SignatureFree (program.graph.withFields decls) type decl :=
    fun other member owner => absurd owner (memberless.methods other member)
  rw [addMembers, run_bind_eq_ok_iff]
  constructor
  · rintro ⟨⟨⟩, between, ran, later⟩
    obtain ⟨fields, fieldsRead, -, fieldsApart, rfl⟩ := (addFields_eq_ok_iff apart).mp ran
    obtain ⟨methods, methodsRead, -, methodsApart, rfl, rfl⟩ :=
      (addMethods_eq_ok_iff ((alike fields).namesApart apart)).mp later
    rw [(alike fields).readMethod_eq apart] at methodsRead
    rw [(alike fields).sameMethodSignature_eq] at methodsApart
    refine ⟨⟨text, type, fields, methods⟩,
      readMembers_eq_ok_iff.mpr ⟨fields, methods, fieldsRead, methodsRead, rfl⟩,
      ⟨fieldsApart, methodsApart⟩, rfl, ?_⟩
    rw [withMembers, List.flatMap_singleton, List.flatMap_singleton]
  · rintro ⟨members, read, ⟨fieldsApart, methodsApart⟩, rfl, rfl⟩
    obtain ⟨fields, methods, fieldsRead, methodsRead, rfl⟩ := readMembers_eq_ok_iff.mp read
    refine ⟨(), _, (addFields_eq_ok_iff apart).mpr ⟨fields, fieldsRead, fun decl _ => ?_,
        fieldsApart, rfl⟩,
      (addMethods_eq_ok_iff ((alike fields).namesApart apart)).mpr ⟨methods, ?_, fun decl _ => ?_, ?_,
        rfl, ?_⟩⟩
    · exact Graph.findField?_eq_none_iff.mpr fun other member owner =>
        absurd owner (memberless.fields other member)
    · rw [(alike fields).readMethod_eq apart]
      exact methodsRead
    · exact unused fields decl
    · rw [(alike fields).sameMethodSignature_eq]
      exact methodsApart
    · rw [withMembers, List.flatMap_singleton, List.flatMap_singleton]

/-- The third pass goes well exactly if the members of every type can be read and none twice. -/
theorem addAllMembers_eq_ok_iff {declared : List (TypeText × TypeId)}
    {results : List (List (MethodText × MethodId))} (apart : program.graph.NamesApart)
    (memberless : ∀ entry ∈ declared, Memberless program.graph entry.2)
    (distinct : (declared.map (·.2)).Nodup) :
    (declared.mapM fun (text, type) => addMembers text type).run program =
        (.ok results, reached) ↔
      ∃ all, declared.mapM (readMembers program.graph) = .ok all ∧
        (∀ members ∈ all, members.Apart program.graph) ∧
          results = layOut (fun members => members.methods.length) TypeMembers.entries
            program.graph.methods.size all ∧
            reached = { program with graph := withMembers program.graph all } := by
  induction declared generalizing program results with
  | nil =>
      constructor
      · rintro ⟨⟩
        refine ⟨[], rfl, List.forall_mem_nil _, rfl, ?_⟩
        rw [withMembers, List.flatMap_nil, List.flatMap_nil, Graph.withFields_nil,
          Graph.withMethods_nil]
      · rintro ⟨all, none, -, rfl, rfl⟩
        obtain rfl : all = [] := (Except.ok.inj none).symm
        rw [withMembers, List.flatMap_nil, List.flatMap_nil, Graph.withFields_nil,
          Graph.withMethods_nil]
        rfl
  | cons entry rest inductionHypothesis =>
      obtain ⟨text, type⟩ := entry
      obtain ⟨memberlessHere, memberlessLater⟩ := List.forall_mem_cons.mp memberless
      rw [List.map_cons, List.nodup_cons] at distinct
      have later (members : TypeMembers)
          (read : readMembers program.graph (text, type) = .ok members)
          (others : List (List (MethodText × MethodId))) :=
        @inductionHypothesis { program with graph := withMembers program.graph [members] } others
          ((namedAlike_withMembers program.graph [members]).namesApart apart)
          (fun entry among => (memberlessLater entry among).withMembers read fun same =>
            distinct.1 (List.mem_map.mpr ⟨entry, among, same.symm⟩))
          distinct.2
      have size (members : TypeMembers) :
          (withMembers program.graph [members]).methods.size =
            program.graph.methods.size + members.methods.length := by
        simp [withMembers, Graph.withFields, Graph.withMethods]
      rw [run_mapM_cons_eq_ok]
      simp only [addMembers_eq_ok_iff apart memberlessHere, mapM_cons_eq_ok_iff]
      constructor
      · rintro ⟨_, between, _, ⟨members, read, membersApart, rfl, rfl⟩, ran, rfl⟩
        obtain ⟨all, reads, allApart, rfl, rfl⟩ := (later members read _).mp ran
        rw [(namedAlike_withMembers _ _).readMembers_eq apart] at reads
        simp only [(namedAlike_withMembers _ _).membersApart_iff] at allApart
        refine ⟨members :: all, ⟨members, all, read, reads, rfl⟩,
          List.forall_mem_cons.mpr ⟨membersApart, allApart⟩, ?_, ?_⟩
        · rw [size, layOut]
        · rw [← withMembers_append program.graph [members] all, List.singleton_append]
      · rintro ⟨_, ⟨members, all, read, reads, rfl⟩, allApart, rfl, rfl⟩
        obtain ⟨membersApart, allApart⟩ := List.forall_mem_cons.mp allApart
        refine ⟨_, _, _, ⟨members, read, membersApart, rfl, rfl⟩,
          (later members read _).mpr ⟨all, ?_, ?_, rfl, ?_⟩, ?_⟩
        · rw [(namedAlike_withMembers _ _).readMembers_eq apart]
          exact reads
        · simp only [(namedAlike_withMembers _ _).membersApart_iff]
          exact allApart
        · rw [← withMembers_append program.graph [members] all, List.singleton_append]
        · rw [size, layOut]

end Members

end Loading

end NullWeave
