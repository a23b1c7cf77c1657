import NullWeave.Proofs.Text.LoadedMembers

/-!
# What loading makes of a text

Each pass of loading makes what can be read for each declaration on its own.
Put together, this says exactly when a text is accepted, and what it leaves:
the types at their places with what they extend and name, the members of each
type side by side, and the bodies that were read for methods in the graph that
has all of these.
-/

namespace NullWeave

namespace Loading

section Bodies

variable {program reached : Program}

/-- Read the body of a method, if it has one. -/
def readGiven (graph : Graph) (entry : MethodText × MethodId) :
    Except TextError (MethodId × Option MethodBody) :=
  match entry.1.body with
  | none => .ok (entry.2, none)
  | some text =>
      (fun body => (entry.2, some body)) <$>
        readBody graph (graph.method entry.2) entry.1.line text

/-- A program in which a method has a body that was read for it. -/
def give (program : Program) (given : MethodId × Option MethodBody) : Program :=
  match given.2 with
  | none => program
  | some body => program.setBody given.1 body

theorem graph_give (program : Program) (given : MethodId × Option MethodBody) :
    (give program given).graph = program.graph := by
  unfold give
  split <;> rfl

theorem loadBody_eq_ok_iff {text : MethodText} {method : MethodId} :
    (loadBody text method).run program = (.ok (), reached) ↔
      ∃ given, readGiven program.graph (text, method) = .ok given ∧
        reached = give program given := by
  rw [loadBody, readGiven]
  cases text.body with
  | none =>
      change ((.ok (), program) : Except TextError Unit × Program) = _ ↔ _
      rw [Prod.mk.injEq, eq_comm (b := reached)]
      simp [give]
  | some body =>
      rw [run_graph_bind]
      dsimp only
      cases readBody program.graph (program.graph.method method) text.line body with
      | error failure =>
          constructor
          · intro ran
            cases ran
          · rintro ⟨given, read, -⟩
            cases read
      | ok read =>
          change ((.ok (), _) : Except TextError Unit × Program) = _ ↔ _
          rw [Prod.mk.injEq, eq_comm (b := reached)]
          simp [give]

/-- The last pass goes well exactly if every body can be read. -/
theorem loadAllBodies_eq_ok_iff {entries : List (MethodText × MethodId)} :
    (entries.forM fun (text, method) => loadBody text method).run program =
        (.ok (), reached) ↔
      ∃ given, entries.mapM (readGiven program.graph) = .ok given ∧
        reached = given.foldl give program := by
  refine run_forM_eq_ok_iff (fun _ : Program => True) (fun program => readGiven program.graph) _
    (fun _ _ _ => trivial) (fun program given entry _ => ?_)
    (fun entry program reached _ => loadBody_eq_ok_iff) trivial
  rw [graph_give]

theorem graph_foldl_give (program : Program) (all : List (MethodId × Option MethodBody)) :
    (all.foldl give program).graph = program.graph := by
  induction all generalizing program with
  | nil =>
      rfl
  | cons given rest inductionHypothesis =>
      rw [List.foldl_cons, inductionHypothesis, graph_give]

theorem bodies_give_of_ne (program : Program) {given : MethodId × Option MethodBody}
    {method : MethodId} (ne : method ≠ given.1) :
    (give program given).bodies.get? method = program.bodies.get? method := by
  unfold give
  split
  · rfl
  · exact Bodies.get?_set_of_ne _ _ ne

theorem bodies_give_eq_some_iff {program : Program} {given : MethodId × Option MethodBody}
    (fresh : program.bodies.get? given.1 = none) {method : MethodId} {body : MethodBody} :
    (give program given).bodies.get? method = some body ↔
      (method, some body) = given ∨ program.bodies.get? method = some body := by
  obtain ⟨owner, given⟩ := given
  by_cases here : method = owner
  · subst here
    rw [fresh]
    cases given with
    | none =>
        simp [give, fresh]
    | some own =>
        simp [give, Program.setBody, eq_comm]
  · rw [bodies_give_of_ne program here]
    simp [here]

/-- Methods that had no body have the ones that are given to them. -/
theorem bodies_foldl_give {program : Program} {all : List (MethodId × Option MethodBody)}
    (distinct : (all.map (·.1)).Nodup)
    (fresh : ∀ given ∈ all, program.bodies.get? given.1 = none)
    {method : MethodId} {body : MethodBody} :
    (all.foldl give program).bodies.get? method = some body ↔
      (method, some body) ∈ all ∨ program.bodies.get? method = some body := by
  induction all generalizing program with
  | nil =>
      simp
  | cons given rest inductionHypothesis =>
      rw [List.map_cons, List.nodup_cons] at distinct
      obtain ⟨freshHere, freshLater⟩ := List.forall_mem_cons.mp fresh
      have later : ∀ other ∈ rest, (give program given).bodies.get? other.1 = none := by
        intro other among
        rw [bodies_give_of_ne program fun same =>
          distinct.1 (List.mem_map.mpr ⟨other, among, same⟩)]
        exact freshLater other among
      rw [List.foldl_cons, inductionHypothesis distinct.2 later,
        bodies_give_eq_some_iff freshHere, List.mem_cons, ← or_assoc,
        or_comm (a := (method, some body) ∈ rest)]

end Bodies

/-! ## All passes -/

/-- What loading a text reads, from the graph that it starts from. -/
structure Loads (graph : Graph) (texts : List TypeText) where
  links : List TypeLink
  members : List TypeMembers
  given : List (MethodId × Option MethodBody)

namespace Loads

variable {graph : Graph} {texts : List TypeText}

/-- The places of the types. -/
def places (_ : Loads graph texts) : List TypePlace :=
  TypeText.allPlaces graph.types.size [] texts

/-- The graph with the types at their places. -/
def declaredGraph (loads : Loads graph texts) : Graph :=
  graph.withTypes (loads.places.map TypePlace.decl)

/-- The graph with what the types extend and name. -/
def linkedGraph (loads : Loads graph texts) : Graph :=
  linkAll loads.declaredGraph loads.links

/-- The graph with the members of the types. -/
def filledGraph (loads : Loads graph texts) : Graph :=
  withMembers loads.linkedGraph loads.members

/-- The methods of the text with the identities that they get. -/
def entries (loads : Loads graph texts) : List (MethodText × MethodId) :=
  (layOut (fun members => members.methods.length) TypeMembers.entries graph.methods.size
    loads.members).flatten

/-- Is all of it what can be read, with no name and no member shared? -/
structure Sound (loads : Loads graph texts) : Prop where
  apart : loads.declaredGraph.NamesApart
  links : (loads.places.map TypePlace.entry).mapM (readLink loads.declaredGraph) =
    .ok loads.links
  members : (loads.places.map TypePlace.entry).mapM (readMembers loads.declaredGraph) =
    .ok loads.members
  membersApart : ∀ members ∈ loads.members, members.Apart loads.declaredGraph
  given : loads.entries.mapM (readGiven loads.filledGraph) = .ok loads.given

/-- The program that loading leaves. -/
def reached (loads : Loads graph texts) (bodies : Bodies) : Program :=
  loads.given.foldl give { graph := loads.filledGraph, bodies }

/-- The types that loading declares. -/
def module (loads : Loads graph texts) : Module := { types := loads.places.map (·.type) }

theorem graph_reached (loads : Loads graph texts) (bodies : Bodies) :
    (loads.reached bodies).graph = loads.filledGraph :=
  graph_foldl_give _ _

end Loads

section Passes

variable {program reached : Program} {graph : Graph}

theorem fields_linkAll (graph : Graph) (links : List TypeLink) :
    (linkAll graph links).fields = graph.fields := by
  induction links generalizing graph with
  | nil =>
      rfl
  | cons link rest inductionHypothesis =>
      exact inductionHypothesis (graph.link link)

theorem methods_linkAll (graph : Graph) (links : List TypeLink) :
    (linkAll graph links).methods = graph.methods := by
  induction links generalizing graph with
  | nil =>
      rfl
  | cons link rest inductionHypothesis =>
      exact inductionHypothesis (graph.link link)

/-- New types have no members where every member belongs to a type that is there. -/
theorem memberless_linkAll (known : graph.MembersKnown) (decls : List TypeDecl)
    (links : List TypeLink) {type : TypeId} (new : ¬ graph.HasType type) :
    Memberless (linkAll (graph.withTypes decls) links) type where
  fields decl member owner := by
    rw [fields_linkAll] at member
    exact new (owner ▸ (known.fields decl member).owner)
  methods decl member owner := by
    rw [methods_linkAll] at member
    exact new (owner ▸ (known.methods decl member).owner)

/-- The types of a text are new, and no two are the same. -/
theorem distinct_places (next : Nat) (texts : List TypeText) :
    ((TypeText.allPlaces next [] texts).map (·.type)).Nodup := by
  have numbers : ((TypeText.allPlaces next [] texts).map (·.type.index)).Nodup := by
    rw [TypeText.map_type_allPlaces]
    exact List.nodup_range'
  refine List.Nodup.of_map TypeId.index ?_
  rw [List.map_map]
  exact numbers

theorem le_index_of_mem_allPlaces {next : Nat} {texts : List TypeText} {place : TypePlace}
    (member : place ∈ TypeText.allPlaces next [] texts) : next ≤ place.type.index := by
  have numbered := List.mem_map_of_mem (f := fun place : TypePlace => place.type.index) member
  rw [TypeText.map_type_allPlaces, List.mem_range'_1] at numbered
  exact numbered.1

theorem Loads.size_filledGraph {texts : List TypeText} (loads : Loads graph texts) :
    loads.filledGraph.types.size = graph.types.size + (TypeText.allWithNested texts).length := by
  have filled := (namedAlike_withMembers loads.linkedGraph loads.members).size
  have linked := (namedAlike_linkAll loads.declaredGraph loads.links).size
  rw [Loads.filledGraph, filled, Loads.linkedGraph, linked, Loads.declaredGraph,
    Graph.size_withTypes, List.length_map, Loads.places, TypeText.length_allPlaces]

/-- The types of a text are those that its graph does not hold before. -/
theorem Loads.mem_module_types_iff {texts : List TypeText} (loads : Loads graph texts)
    {type : TypeId} :
    type ∈ loads.module.types ↔ loads.filledGraph.HasType type ∧ ¬ graph.HasType type := by
  have numbers : type ∈ loads.module.types ↔
      type.index ∈ loads.places.map (·.type.index) := by
    simp only [Loads.module, List.mem_map]
    refine exists_congr fun place => and_congr_right fun _ => ?_
    rw [TypeId.mk.injEq]
  rw [numbers, Loads.places, TypeText.map_type_allPlaces, List.mem_range'_1, Graph.HasType,
    loads.size_filledGraph, Graph.HasType]
  omega

/-- A text is accepted exactly if all that loading reads can be read, and this is what it leaves. -/
theorem loadTypes_eq_ok_iff {texts : List TypeText} {module : Module} (named : program.Named) :
    (loadTypes texts).run program = (.ok module, reached) ↔
      ∃ loads : Loads program.graph texts, loads.Sound ∧
        module = loads.module ∧ reached = loads.reached program.bodies := by
  have memberless (links : List TypeLink) :
      ∀ entry ∈ (TypeText.allPlaces program.graph.types.size [] texts).map TypePlace.entry,
        Memberless (linkAll (program.graph.withTypes
          ((TypeText.allPlaces program.graph.types.size [] texts).map TypePlace.decl)) links)
          entry.2 := by
    intro entry member
    obtain ⟨place, among, rfl⟩ := List.mem_map.mp member
    exact memberless_linkAll named.members _ _
      (Nat.not_lt.mpr (le_index_of_mem_allPlaces among))
  have distinct :
      (((TypeText.allPlaces program.graph.types.size [] texts).map TypePlace.entry).map
        (·.2)).Nodup := by
    rw [List.map_map]
    exact distinct_places program.graph.types.size texts
  rw [loadTypes, run_bind_eq_ok_iff]
  constructor
  · rintro ⟨declared, between, first, later⟩
    obtain ⟨apart, rfl, rfl⟩ := (addTypes_eq_ok_iff named.types).mp first
    obtain ⟨⟨⟩, linked, second, later⟩ := run_bind_eq_ok later
    obtain ⟨links, linksRead, rfl⟩ := (addAllSupertypes_eq_ok_iff apart).mp second
    have alike := namedAlike_linkAll (program.graph.withTypes
      ((TypeText.allPlaces program.graph.types.size [] texts).map TypePlace.decl)) links
    obtain ⟨results, filled, third, later⟩ := run_bind_eq_ok later
    obtain ⟨members, membersRead, membersApart, rfl, rfl⟩ :=
      (addAllMembers_eq_ok_iff (alike.namesApart apart) (memberless links) distinct).mp third
    obtain ⟨⟨⟩, finished, fourth, last⟩ := run_bind_eq_ok later
    obtain ⟨given, givenRead, rfl⟩ := loadAllBodies_eq_ok_iff.mp fourth
    cases last
    rw [alike.readMembers_eq apart] at membersRead
    rw [methods_linkAll] at givenRead
    refine ⟨⟨links, members, given⟩, ⟨apart, linksRead, membersRead, fun other among =>
      alike.membersApart_iff.mp (membersApart other among), givenRead⟩, ?_, rfl⟩
    rw [List.map_map]
    rfl
  · rintro ⟨⟨links, members, given⟩, ⟨apart, linksRead, membersRead, membersApart, givenRead⟩,
      rfl, rfl⟩
    have alike := namedAlike_linkAll (program.graph.withTypes
      ((TypeText.allPlaces program.graph.types.size [] texts).map TypePlace.decl)) links
    refine ⟨_, _, (addTypes_eq_ok_iff named.types).mpr ⟨apart, rfl, rfl⟩,
      run_bind_eq_ok_iff.mpr ⟨(), _, (addAllSupertypes_eq_ok_iff apart).mpr
        ⟨links, linksRead, rfl⟩, run_bind_eq_ok_iff.mpr ⟨_, _,
          (addAllMembers_eq_ok_iff (alike.namesApart apart) (memberless links) distinct).mpr
            ⟨members, ?_, fun other among => ?_, rfl, rfl⟩,
          run_bind_eq_ok_iff.mpr ⟨(), _, loadAllBodies_eq_ok_iff.mpr ⟨given, ?_, rfl⟩, ?_⟩⟩⟩⟩
    · rw [alike.readMembers_eq apart]
      exact membersRead
    · exact alike.membersApart_iff.mpr (membersApart other among)
    · rw [methods_linkAll]
      exact givenRead
    · rw [List.map_map]
      rfl

end Passes

end Loading

end NullWeave
