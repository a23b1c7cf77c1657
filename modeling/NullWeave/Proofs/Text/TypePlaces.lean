import NullWeave.Proofs.Text.LoadedProgram
import NullWeave.Proofs.Text.TypeNames

/-!
# Where types are placed

The first pass over a text declares its types, each before the ones that it
encloses, and every type gets the next free identity.  So the identities, and
the types around each type, can be told from the text alone.  Where they are
placed does not depend on what else a program holds; whether a type is declared
at all does, since the pass ends at the first full name that is taken.
-/

namespace NullWeave

/-- A type of a text, with the identity that it gets and the types around it. -/
structure TypePlace where
  text : TypeText
  type : TypeId
  enclosing : List TypeId

/-- What the first pass declares at a place. -/
def TypePlace.decl (place : TypePlace) : TypeDecl :=
  Loading.typeDecl place.enclosing place.text.header

/-- What the passes after the first one are told about a place. -/
def TypePlace.entry (place : TypePlace) : TypeText × TypeId := (place.text, place.type)

namespace TypeText

mutual

/-- The places of a type and of those nested in it, numbered from the next free identity. -/
def places (next : Nat) (enclosing : List TypeId) : TypeText → List TypePlace
  | .mk header fields methods nested =>
      ⟨.mk header fields methods nested, ⟨next⟩, enclosing⟩ ::
        allPlaces (next + 1) (⟨next⟩ :: enclosing) nested

/-- The places of several types and of those nested in them. -/
def allPlaces (next : Nat) (enclosing : List TypeId) : List TypeText → List TypePlace
  | [] => []
  | text :: rest =>
      text.places next enclosing ++
        allPlaces (next + text.withNested.length) enclosing rest
end

mutual

theorem map_text_places (next : Nat) (enclosing : List TypeId) :
    ∀ text : TypeText, (text.places next enclosing).map (·.text) = text.withNested
  | .mk header fields methods nested => by
      rw [places, withNested, List.map_cons, map_text_allPlaces]

/-- Every type of a text has a place. -/
theorem map_text_allPlaces (next : Nat) (enclosing : List TypeId) :
    ∀ texts, (allPlaces next enclosing texts).map (·.text) = allWithNested texts
  | [] => by
      rw [allPlaces, allWithNested, List.map_nil]
  | text :: rest => by
      rw [allPlaces, allWithNested, List.map_append, map_text_places, map_text_allPlaces]

end

theorem length_places (next : Nat) (enclosing : List TypeId) (text : TypeText) :
    (text.places next enclosing).length = text.withNested.length := by
  rw [← map_text_places next enclosing text, List.length_map]

theorem length_allPlaces (next : Nat) (enclosing : List TypeId) (texts : List TypeText) :
    (allPlaces next enclosing texts).length = (allWithNested texts).length := by
  rw [← map_text_allPlaces next enclosing texts, List.length_map]

mutual

theorem map_type_places (next : Nat) (enclosing : List TypeId) :
    ∀ text : TypeText,
      (text.places next enclosing).map (·.type.index) =
        List.range' next text.withNested.length
  | .mk header fields methods nested => by
      rw [places, withNested, List.map_cons, List.length_cons, List.range'_succ,
        map_type_allPlaces]

/-- Places are numbered one after another. -/
theorem map_type_allPlaces (next : Nat) (enclosing : List TypeId) :
    ∀ texts,
      (allPlaces next enclosing texts).map (·.type.index) =
        List.range' next (allWithNested texts).length
  | [] => by
      rw [allPlaces, allWithNested, List.map_nil, List.length_nil, List.range'_zero]
  | text :: rest => by
      rw [allPlaces, allWithNested, List.map_append, map_type_places, map_type_allPlaces,
        List.length_append, List.range'_append_1]

end

end TypeText

/-! ## Graphs with several more types -/

namespace Graph

variable {graph : Graph}

/-- A graph with more types, in order. -/
def withTypes (graph : Graph) (decls : List TypeDecl) : Graph :=
  { graph with types := graph.types ++ decls.toArray }

@[simp]
theorem withTypes_nil (graph : Graph) : graph.withTypes [] = graph := by
  simp [withTypes]

theorem withTypes_cons (graph : Graph) (decl : TypeDecl) (rest : List TypeDecl) :
    graph.withTypes (decl :: rest) = (graph.addType decl).1.withTypes rest := by
  simp [withTypes, addType]

theorem withTypes_append (graph : Graph) (front back : List TypeDecl) :
    graph.withTypes (front ++ back) = (graph.withTypes front).withTypes back := by
  simp [withTypes]

theorem size_withTypes (graph : Graph) (decls : List TypeDecl) :
    (graph.withTypes decls).types.size = graph.types.size + decls.length := by
  simp [withTypes]

theorem type_withTypes_of_lt (graph : Graph) (decls : List TypeDecl) {type : TypeId}
    (known : graph.HasType type) : (graph.withTypes decls).type type = graph.type type := by
  have inside : type.index < graph.types.size := known
  simp [withTypes, Graph.type, Array.getElem?_append, inside]

theorem type_withTypes_add (graph : Graph) (decls : List TypeDecl) (index : Nat) :
    (graph.withTypes decls).type ⟨graph.types.size + index⟩ = decls[index]?.getD default := by
  have beyond : ¬ graph.types.size + index < graph.types.size := by omega
  simp [withTypes, Graph.type, Array.getElem?_append, beyond]

theorem GrowsTo.withTypes (graph : Graph) (decls : List TypeDecl) :
    graph.GrowsTo (graph.withTypes decls) := by
  induction decls generalizing graph with
  | nil =>
      rw [withTypes_nil]
      exact .refl graph
  | cons decl rest inductionHypothesis =>
      rw [withTypes_cons]
      exact (GrowsTo.addType graph decl).trans (inductionHypothesis _)

end Graph

/-! ## The first pass -/

namespace Loading

variable {program reached : Program}

/-- A type is declared exactly if its full name is free. -/
theorem addHeader_eq_ok_iff {enclosing : List TypeId} {header : TypeHeader} {type : TypeId} :
    (addHeader enclosing header).run program = (.ok type, reached) ↔
      program.graph.typeNamed?
          (program.graph.fullNameWithin (typeDecl enclosing header) enclosing) = none ∧
        type = ⟨program.graph.types.size⟩ ∧
          reached = { program with
            graph := program.graph.withTypes [typeDecl enclosing header] } := by
  change (if (program.graph.typeNamed?
      (program.graph.fullNameWithin (typeDecl enclosing header) enclosing)).isSome then _
    else _ : Loading TypeId).run program = _ ↔ _
  rw [Graph.withTypes_cons, Graph.withTypes_nil]
  cases program.graph.typeNamed?
      (program.graph.fullNameWithin (typeDecl enclosing header) enclosing) with
  | some taken =>
      refine iff_of_false nofun (fun declared => ?_)
      cases declared.1
  | none =>
      change ((.ok ⟨program.graph.types.size⟩, _) : Except TextError TypeId × Program) = _ ↔ _
      rw [Prod.mk.injEq, Except.ok.injEq, eq_comm (b := type), eq_comm (b := reached)]
      exact (and_iff_right rfl).symm

mutual

theorem places_of_addType {enclosing : List TypeId} :
    ∀ (text : TypeText) {program reached : Program} {declared : List (TypeText × TypeId)},
      (addType enclosing text).run program = (.ok declared, reached) →
        declared = (text.places program.graph.types.size enclosing).map TypePlace.entry ∧
          reached = { program with
            graph := program.graph.withTypes
              ((text.places program.graph.types.size enclosing).map TypePlace.decl) }
  | .mk header fields methods nested, program, reached, declared, ran => by
      rw [addType] at ran
      obtain ⟨type, between, first, later⟩ := run_bind_eq_ok ran
      obtain ⟨-, rfl, rfl⟩ := addHeader_eq_ok_iff.mp first
      obtain ⟨inner, last, there, same⟩ := run_bind_eq_ok later
      cases same
      obtain ⟨rfl, rfl⟩ := places_of_addTypes nested there
      rw [Graph.size_withTypes, List.length_singleton, TypeText.places, List.map_cons,
        List.map_cons, ← Graph.withTypes_append]
      exact ⟨rfl, rfl⟩

/-- The first pass declares the types of a text at their places. -/
theorem places_of_addTypes {enclosing : List TypeId} :
    ∀ (texts : List TypeText) {program reached : Program}
      {declared : List (TypeText × TypeId)},
      (addTypes enclosing texts).run program = (.ok declared, reached) →
        declared =
            (TypeText.allPlaces program.graph.types.size enclosing texts).map TypePlace.entry ∧
          reached = { program with
            graph := program.graph.withTypes
              ((TypeText.allPlaces program.graph.types.size enclosing texts).map
                TypePlace.decl) }
  | [], program, reached, declared, ran => by
      rw [addTypes] at ran
      cases ran
      rw [TypeText.allPlaces, List.map_nil, List.map_nil, Graph.withTypes_nil]
      exact ⟨rfl, rfl⟩
  | text :: rest, program, reached, declared, ran => by
      rw [addTypes] at ran
      obtain ⟨front, between, first, later⟩ := run_bind_eq_ok ran
      obtain ⟨rfl, rfl⟩ := places_of_addType text first
      obtain ⟨back, last, there, same⟩ := run_bind_eq_ok later
      cases same
      obtain ⟨rfl, rfl⟩ := places_of_addTypes rest there
      rw [Graph.size_withTypes, List.length_map, TypeText.length_places, TypeText.allPlaces,
        List.map_append, List.map_append, ← Graph.withTypes_append]
      exact ⟨rfl, rfl⟩

end

theorem typesNamed_withTypes {graph : Graph} {enclosing : List TypeId} {header : TypeHeader}
    (named : graph.TypesNamed) (encloses : graph.Encloses enclosing)
    (free : graph.typeNamed?
      (graph.fullNameWithin (typeDecl enclosing header) enclosing) = none) :
    (graph.withTypes [typeDecl enclosing header]).TypesNamed := by
  rw [Graph.withTypes_cons, Graph.withTypes_nil]
  exact named.addType encloses free

/-- A type that was just declared is the innermost one around those nested in it. -/
theorem encloses_withTypes (graph : Graph) (enclosing : List TypeId)
    (header : TypeHeader) :
    (graph.withTypes [typeDecl enclosing header]).Encloses
      (⟨graph.types.size⟩ :: enclosing) := by
  rintro _ ⟨⟩
  refine ⟨by simp [Graph.HasType, Graph.size_withTypes], ?_⟩
  rw [← Nat.add_zero graph.types.size, Graph.type_withTypes_add]
  exact (enclosing_typeDecl enclosing header).symm

/-- A full name is free if none is shared in a graph that the declared type ends up in. -/
theorem typeNamed?_eq_none_of_namesApart {graph last : Graph} {enclosing : List TypeId}
    {header : TypeHeader} (named : graph.TypesNamed) (encloses : graph.Encloses enclosing)
    (grows : (graph.withTypes [typeDecl enclosing header]).GrowsTo last)
    (apart : last.NamesApart) :
    graph.typeNamed? (graph.fullNameWithin (typeDecl enclosing header) enclosing) = none := by
  have added := Graph.GrowsTo.withTypes graph [typeDecl enclosing header]
  have new : (graph.withTypes [typeDecl enclosing header]).HasType ⟨graph.types.size⟩ := by
    simp [Graph.HasType, Graph.size_withTypes]
  have declared : (graph.withTypes [typeDecl enclosing header]).type ⟨graph.types.size⟩ =
      typeDecl enclosing header :=
    graph.type_withTypes_add [typeDecl enclosing header] 0
  have around := named.hasType_of_encloses encloses
  have further := added.trans grows
  have newName : last.typeName ⟨graph.types.size⟩ =
      graph.fullNameWithin (typeDecl enclosing header) enclosing := by
    rw [Graph.typeName, grows.enclosing _ new, declared, enclosing_typeDecl]
    refine Graph.fullNameWithin_congr ?_ ?_
      (fun outer inside => further.name outer (around outer inside))
      (fun outer inside => further.space outer (around outer inside))
    · rw [grows.name _ new, declared]
    · rw [grows.space _ new, declared]
  refine Graph.typeNamed?_eq_none_iff.mpr fun type known taken => ?_
  have same := apart type ⟨graph.types.size⟩ (further.hasType known) (grows.hasType new)
    (by rw [further.typeName named known, taken, newName])
  subst same
  exact Nat.lt_irrefl _ known

mutual

theorem typesNamed_of_addType {enclosing : List TypeId} :
    ∀ (text : TypeText) {program reached : Program} {declared : List (TypeText × TypeId)},
      program.graph.TypesNamed → program.graph.Encloses enclosing →
        (addType enclosing text).run program = (.ok declared, reached) →
          reached.graph.TypesNamed
  | .mk header fields methods nested, program, reached, declared, named, encloses, ran => by
      rw [addType] at ran
      obtain ⟨type, between, first, later⟩ := run_bind_eq_ok ran
      obtain ⟨free, rfl, rfl⟩ := addHeader_eq_ok_iff.mp first
      obtain ⟨inner, last, there, same⟩ := run_bind_eq_ok later
      cases same
      exact typesNamed_of_addTypes nested (typesNamed_withTypes named encloses free)
        (encloses_withTypes program.graph enclosing header) there

/-- The first pass keeps what is known of the types. -/
theorem typesNamed_of_addTypes {enclosing : List TypeId} :
    ∀ (texts : List TypeText) {program reached : Program}
      {declared : List (TypeText × TypeId)},
      program.graph.TypesNamed → program.graph.Encloses enclosing →
        (addTypes enclosing texts).run program = (.ok declared, reached) →
          reached.graph.TypesNamed
  | [], program, reached, declared, named, _, ran => by
      rw [addTypes] at ran
      cases ran
      exact named
  | text :: rest, program, reached, declared, named, encloses, ran => by
      rw [addTypes] at ran
      obtain ⟨front, between, first, later⟩ := run_bind_eq_ok ran
      obtain ⟨back, last, there, same⟩ := run_bind_eq_ok later
      cases same
      have stillNamed := typesNamed_of_addType text named encloses first
      obtain ⟨-, rfl⟩ := places_of_addType text first
      exact typesNamed_of_addTypes rest stillNamed (encloses.grows (.withTypes _ _)) there

end

mutual

theorem exists_addType {last : Graph} (apart : last.NamesApart) {enclosing : List TypeId} :
    ∀ (text : TypeText) (program : Program), program.graph.TypesNamed →
      program.graph.Encloses enclosing →
      (program.graph.withTypes
        ((text.places program.graph.types.size enclosing).map TypePlace.decl)).GrowsTo last →
      ∃ declared reached, (addType enclosing text).run program = (.ok declared, reached)
  | .mk header fields methods nested, program, named, encloses, grows => by
      rw [TypeText.places, List.map_cons, ← List.singleton_append,
        Graph.withTypes_append] at grows
      have free := typeNamed?_eq_none_of_namesApart named encloses
        ((Graph.GrowsTo.withTypes _ _).trans grows) apart
      have first := addHeader_eq_ok_iff.mpr ⟨free, rfl, rfl⟩
      obtain ⟨inner, reached, there⟩ := exists_addTypes apart nested
        { program with graph := program.graph.withTypes [typeDecl enclosing header] }
        (typesNamed_withTypes named encloses free)
        (encloses_withTypes program.graph enclosing header) (by
          rw [Graph.size_withTypes, List.length_singleton]
          exact grows)
      rw [addType]
      exact ⟨_, reached, run_bind_eq_ok_iff.mpr ⟨_, _, first,
        run_bind_eq_ok_iff.mpr ⟨_, _, there, rfl⟩⟩⟩

/-- The first pass goes well if no full name is shared in a graph that the types end up in. -/
theorem exists_addTypes {last : Graph} (apart : last.NamesApart) {enclosing : List TypeId} :
    ∀ (texts : List TypeText) (program : Program), program.graph.TypesNamed →
      program.graph.Encloses enclosing →
      (program.graph.withTypes
        ((TypeText.allPlaces program.graph.types.size enclosing texts).map
          TypePlace.decl)).GrowsTo last →
      ∃ declared reached, (addTypes enclosing texts).run program = (.ok declared, reached)
  | [], program, _, _, _ => by
      rw [addTypes]
      exact ⟨[], program, rfl⟩
  | text :: rest, program, named, encloses, grows => by
      rw [TypeText.allPlaces, List.map_append, Graph.withTypes_append] at grows
      obtain ⟨front, between, first⟩ := exists_addType apart text program named encloses
        ((Graph.GrowsTo.withTypes _ _).trans grows)
      have stillNamed := typesNamed_of_addType text named encloses first
      obtain ⟨rfl, rfl⟩ := places_of_addType text first
      obtain ⟨back, reached, there⟩ := exists_addTypes apart rest _ stillNamed
        (encloses.grows (.withTypes _ _)) (by
          rw [Graph.size_withTypes, List.length_map, TypeText.length_places]
          exact grows)
      rw [addTypes]
      exact ⟨_, reached, run_bind_eq_ok_iff.mpr ⟨_, _, first,
        run_bind_eq_ok_iff.mpr ⟨_, _, there, rfl⟩⟩⟩

end

/-- The first pass goes well exactly if no full name is shared among the types that are there then. -/
theorem addTypes_eq_ok_iff {texts : List TypeText} {program reached : Program}
    {declared : List (TypeText × TypeId)} (named : program.graph.TypesNamed) :
    (addTypes [] texts).run program = (.ok declared, reached) ↔
      (program.graph.withTypes
          ((TypeText.allPlaces program.graph.types.size [] texts).map
            TypePlace.decl)).NamesApart ∧
        declared =
            (TypeText.allPlaces program.graph.types.size [] texts).map TypePlace.entry ∧
          reached = { program with
            graph := program.graph.withTypes
              ((TypeText.allPlaces program.graph.types.size [] texts).map TypePlace.decl) } := by
  have outermost : program.graph.Encloses [] := nofun
  constructor
  · intro ran
    have stillNamed := typesNamed_of_addTypes texts named outermost ran
    obtain ⟨rfl, rfl⟩ := places_of_addTypes texts ran
    exact ⟨stillNamed.namesApart, rfl, rfl⟩
  · rintro ⟨apart, rfl, rfl⟩
    obtain ⟨declared, reached, ran⟩ :=
      exists_addTypes apart texts program named outermost (.refl _)
    obtain ⟨rfl, rfl⟩ := places_of_addTypes texts ran
    exact ran

end Loading

end NullWeave
