import NullWeave.Proofs.OwnedEntries
import NullWeave.Proofs.Text.LoadingResults
import NullWeave.Proofs.Text.RenamedBody
import NullWeave.Proofs.Text.ReorderedPlaces

/-!
# Loading in another order

A text that is accepted is accepted as well if its types come in another order.
Pass by pass, what loading reads is the same up to identities: what the types
extend and name, their members, and the bodies of their methods.
-/

namespace NullWeave

/-! ## What types extend and name -/

section Links

variable {change : Equiv.Perm TypeId} {graph other : Graph}

/-- Types that are the same still are when one of them is said to extend and name the same. -/
theorem Graph.TypesRenamed.link (renamed : graph.TypesRenamed change other)
    (link : Loading.TypeLink) :
    (graph.link link).TypesRenamed change (other.link (link.rename change)) where
  size := by simp only [Graph.link, Array.size_modify, renamed.size]
  hasType type := by
    simp only [Graph.link, Graph.HasType, Array.size_modify]
    exact renamed.hasType type
  library := renamed.library
  type type := by
    have here : (link.rename change).type.index = (change type).index ↔
        link.type.index = type.index := by
      rw [← TypeId.mk.injEq, ← TypeId.mk.injEq]
      exact change.injective.eq_iff
    have known := renamed.hasType type
    rw [Graph.HasType, Graph.HasType] at known
    rw [Graph.link, Graph.link, Graph.type_modify, Graph.type_modify, renamed.type,
      apply_ite (TypeDecl.rename change)]
    refine if_congr (and_congr here known) ?_ rfl
    simp only [TypeDecl.rename, Loading.TypeLink.rename, List.map_append]

theorem Graph.link_comm (graph : Graph) {first second : Loading.TypeLink}
    (differ : first.type ≠ second.type) :
    (graph.link first).link second = (graph.link second).link first := by
  have apart : first.type.index ≠ second.type.index :=
    fun same => differ (congrArg TypeId.mk same)
  rw [link, link, link, link, Graph.mk.injEq]
  refine ⟨Array.ext_getElem? fun index => ?_, rfl, rfl⟩
  simp only [Array.getElem?_modify]
  by_cases here : first.type.index = index
  · have other : second.type.index ≠ index := fun there => apart (here.trans there.symm)
    simp only [if_pos here, if_neg other]
  · simp only [if_neg here]

namespace Loading

/-- Links of different types can be said in any order. -/
theorem linkAll_eq_of_perm {links others : List TypeLink} (reordered : links.Perm others)
    (apart : (links.map (·.type)).Nodup) (graph : Graph) :
    linkAll graph links = linkAll graph others := by
  refine reordered.foldl_eq' (fun first member second memberToo between => ?_) graph
  by_cases same : first.type = second.type
  · rw [List.inj_on_of_nodup_map apart member memberToo same]
  · exact between.link_comm same

theorem typesRenamed_linkAll (renamed : graph.TypesRenamed change other)
    (links : List TypeLink) :
    (linkAll graph links).TypesRenamed change
      (linkAll other (links.map (TypeLink.rename change))) := by
  induction links generalizing graph other with
  | nil =>
      exact renamed
  | cons link rest inductionHypothesis =>
      exact inductionHypothesis (renamed.link link)

end Loading

end Links

/-! ## Members -/

namespace Graph

variable {change : TypeId → TypeId} {graph : Graph}

/-- What a graph can form stays where its types stay. -/
theorem Forms.rename_of_stays (stays : ∀ type, graph.HasType type → change type = type)
    {signature : Signature} (forms : graph.Forms signature) :
    signature.rename change = signature := by
  induction forms with
  | void | param _ =>
      rfl
  | named known =>
      rw [Signature.rename, stays _ known]
  | byRef _ inductionHypothesis | array _ inductionHypothesis =>
      rw [Signature.rename, inductionHypothesis]
  | generic known _ _ _ inductionHypothesis =>
      rw [Signature.rename, stays _ known, Signature.renameAll_eq_map,
        List.map_congr_left inductionHypothesis, List.map_id']

theorem FieldKnown.rename_of_stays (stays : ∀ type, graph.HasType type → change type = type)
    {decl : FieldDecl} (known : graph.FieldKnown decl) : decl.rename change = decl := by
  rw [FieldDecl.rename, stays _ known.owner, known.type.rename_of_stays stays]

theorem MethodKnown.rename_of_stays (stays : ∀ type, graph.HasType type → change type = type)
    {decl : MethodDecl} (known : graph.MethodKnown decl) : decl.rename change = decl := by
  have parameters : decl.parameters.map (Parameter.rename change) = decl.parameters := by
    refine (List.map_congr_left fun parameter member => ?_).trans (List.map_id' _)
    rw [Parameter.rename, (known.parameters parameter member).rename_of_stays stays]
  rw [MethodDecl.rename, stays _ known.owner, known.returnType.rename_of_stays stays, parameters]

theorem fieldsOf_eq_owned (graph : Graph) (type : TypeId) :
    graph.fieldsOf type = (owned FieldDecl.owner graph.fields type).map FieldId.mk := by
  rw [fieldsOf, fieldIds, List.filter_map]
  rfl

theorem methodsOf_eq_owned (graph : Graph) (type : TypeId) :
    graph.methodsOf type = (owned MethodDecl.owner graph.methods type).map MethodId.mk := by
  rw [methodsOf, methodIds, List.filter_map]
  rfl

end Graph

/-- Fields by their numbers. -/
def FieldId.ofNumber : Nat ≃ FieldId where
  toFun := mk
  invFun := index

/-- Methods by their numbers. -/
def MethodId.ofNumber : Nat ≃ MethodId where
  toFun := mk
  invFun := index

namespace Loading

section Members

variable {change : Equiv.Perm TypeId} {graph : Graph}

theorem renamesFields (known : graph.MembersKnown) (root : change default = default)
    (stays : ∀ type, graph.HasType type → change type = type) :
    RenamesBlocks TypeMembers.fields FieldDecl.owner TypeMembers.type (TypeMembers.rename change)
      (FieldDecl.rename change) change graph.fields where
  entries _ := rfl
  name _ := rfl
  owner _ := rfl
  default := congrArg (fun owner => { (default : FieldDecl) with owner }) root
  stays decl member := (known.fields decl member).rename_of_stays stays

theorem renamesMethods (known : graph.MembersKnown) (root : change default = default)
    (stays : ∀ type, graph.HasType type → change type = type) :
    RenamesBlocks TypeMembers.methods MethodDecl.owner TypeMembers.type
      (TypeMembers.rename change) (MethodDecl.rename change) change graph.methods where
  entries _ := rfl
  name _ := rfl
  owner _ := rfl
  default := congrArg (fun owner => { (default : MethodDecl) with owner }) root
  stays decl member := (known.methods decl member).rename_of_stays stays

end Members

/-! ## What is loaded -/

namespace Loads

variable {graph : Graph} {texts order : List TypeText}

theorem fields_filledGraph (loads : Loads graph texts) :
    loads.filledGraph.fields = fill TypeMembers.fields graph.fields loads.members :=
  congrArg (fun fields => fill TypeMembers.fields fields loads.members)
    (fields_linkAll loads.declaredGraph loads.links)

theorem methods_filledGraph (loads : Loads graph texts) :
    loads.filledGraph.methods = fill TypeMembers.methods graph.methods loads.members :=
  congrArg (fun methods => fill TypeMembers.methods methods loads.members)
    (methods_linkAll loads.declaredGraph loads.links)

theorem entries_eq_flatMap (loads : Loads graph texts) :
    loads.entries = (placeBlocks TypeMembers.methods graph.methods.size loads.members).flatMap
      fun placed => placed.1.text.methods.zip (placed.2.map MethodId.mk) := by
  rw [entries]
  generalize graph.methods.size = next
  induction loads.members generalizing next with
  | nil =>
      rfl
  | cons members rest inductionHypothesis =>
      rw [layOut, List.flatten_cons, inductionHypothesis]
      rfl

namespace Sound

variable {loads : Loads graph texts}

theorem types_links (sound : loads.Sound) :
    loads.links.map (·.type) = loads.places.map (·.type) := by
  refine (map_eq_map_of_mapM_eq_ok (fun entry link read => ?_) sound.links).trans
    (List.map_map (g := Prod.snd))
  obtain ⟨base, interfaces, -, -, rfl⟩ := readLink_eq_ok_iff.mp read
  rfl

theorem types_members (sound : loads.Sound) :
    loads.members.map (·.type) = loads.places.map (·.type) := by
  refine (map_eq_map_of_mapM_eq_ok (fun entry members read => ?_) sound.members).trans
    (List.map_map (g := Prod.snd))
  obtain ⟨fields, methods, -, -, rfl⟩ := readMembers_eq_ok_iff.mp read
  rfl

theorem distinct_members (sound : loads.Sound) : (loads.members.map (·.type)).Nodup := by
  rw [sound.types_members]
  exact distinct_places graph.types.size texts

/-- A type of the text is none that was there before. -/
theorem new_of_mem_members (sound : loads.Sound) {type : TypeId}
    (named : type ∈ loads.members.map (·.type)) : ¬ graph.HasType type := by
  rw [sound.types_members] at named
  obtain ⟨place, among, rfl⟩ := List.mem_map.mp named
  exact Nat.not_lt.mpr (le_index_of_mem_allPlaces among)

theorem owners (sound : loads.Sound) {members : TypeMembers} (among : members ∈ loads.members) :
    (∀ decl ∈ members.fields, decl.owner = members.type) ∧
      (∀ decl ∈ members.methods, decl.owner = members.type) := by
  obtain ⟨⟨text, type⟩, -, read⟩ := exists_of_mem_mapM_eq_ok sound.members among
  have owners := owners_of_readMembers read
  obtain ⟨fields, methods, -, -, rfl⟩ := readMembers_eq_ok_iff.mp read
  exact owners

theorem ownedFields (sound : loads.Sound) (known : graph.MembersKnown) :
    OwnedBlocks TypeMembers.fields FieldDecl.owner TypeMembers.type graph.fields
      loads.members where
  belongs _ among := (sound.owners among).1
  apart := sound.distinct_members
  before decl member named := sound.new_of_mem_members named (known.fields decl member).owner

theorem ownedMethods (sound : loads.Sound) (known : graph.MembersKnown) :
    OwnedBlocks TypeMembers.methods MethodDecl.owner TypeMembers.type graph.methods
      loads.members where
  belongs _ among := (sound.owners among).2
  apart := sound.distinct_members
  before decl member named := sound.new_of_mem_members named (known.methods decl member).owner

/-- The methods of the text get the next free identities. -/
theorem methods_given (sound : loads.Sound) :
    loads.given.map (·.1) =
      (List.range' graph.methods.size
        (totalSize (fun members => members.methods.length) loads.members)).map MethodId.mk := by
  have entries : loads.given.map (·.1) = loads.entries.map (·.2) := by
    refine map_eq_map_of_mapM_eq_ok (fun entry given read => ?_) sound.given
    unfold readGiven at read
    split at read
    · cases read
      rfl
    · obtain ⟨body, -, rfl⟩ := map_eq_ok_iff.mp read
      rfl
  have lengths : ∀ members ∈ loads.members,
      members.methods.length = members.text.methods.length := by
    intro members among
    obtain ⟨⟨text, type⟩, -, read⟩ := exists_of_mem_mapM_eq_ok sound.members among
    obtain ⟨fields, methods, -, methodsRead, rfl⟩ := readMembers_eq_ok_iff.mp read
    exact (mapM_eq_ok_iff.mp methodsRead).length_eq.symm
  rw [entries, entries_eq_flatMap, ← flatMap_placeBlocks, List.map_flatMap, List.map_flatMap]
  refine List.flatMap_congr fun placed member => List.map_snd_zip ?_
  obtain ⟨among, length⟩ := mem_of_mem_placeBlocks member
  rw [List.length_map, length, lengths placed.1 among]

/-- The methods of the text have the bodies that were read for them, and others keep theirs. -/
theorem bodies_reached (sound : loads.Sound) {bodies : Bodies}
    (fresh : ∀ method : MethodId, graph.methods.size ≤ method.index → bodies.get? method = none)
    {method : MethodId} {body : MethodBody} :
    (loads.reached bodies).bodies.get? method = some body ↔
      (method, some body) ∈ loads.given ∨ bodies.get? method = some body := by
  refine bodies_foldl_give ?_ fun given among => ?_
  · rw [sound.methods_given]
    exact List.Nodup.map (fun left right same => MethodId.mk.inj same) List.nodup_range'
  · have numbered := List.mem_map_of_mem (f := Prod.fst) among
    rw [sound.methods_given] at numbered
    obtain ⟨number, inside, same⟩ := List.mem_map.mp numbered
    exact fresh given.1 (same ▸ (List.mem_range'_1.mp inside).1)

end Sound

/-- Does a renaming take what is loaded to what another order of the types loads? -/
structure Reordered (change : Renaming) (loads : Loads graph texts) (others : Loads graph order) :
    Prop where
  renames : loads.filledGraph.Renames change others.filledGraph
  types : others.module.types.Perm (loads.module.types.map change.type)
  given : others.given.Perm (loads.given.map fun given =>
    (change.method given.1, given.2.map (MethodBody.rename change)))
  typeStays : ∀ type, graph.HasType type → change.type type = type
  methodStays : ∀ method : MethodId, method.index < graph.methods.size →
    change.method method = method

/-- Where no method had a body before, each has the same one in another order. -/
theorem Reordered.bodies {change : Renaming} {loads : Loads graph texts}
    {others : Loads graph order} (reordered : Reordered change loads others)
    (sound : loads.Sound) (othersSound : others.Sound) (method : MethodId) :
    (others.reached {}).bodies.get? (change.method method) =
      ((loads.reached {}).bodies.get? method).map (MethodBody.rename change) := by
  have fresh (method : MethodId) (_ : graph.methods.size ≤ method.index) :
      ({} : Bodies).get? method = none := Bodies.get?_empty method
  refine Option.ext fun body => ?_
  rw [othersSound.bodies_reached fresh, reordered.given.mem_iff, Option.map_eq_some_iff]
  simp only [sound.bodies_reached fresh, Bodies.get?_empty, reduceCtorEq, or_false,
    List.mem_map, Prod.mk.injEq, change.method.injective.eq_iff, Option.map_eq_some_iff]
  constructor
  · rintro ⟨⟨_, _⟩, among, rfl, read, rfl, rfl⟩
    exact ⟨read, among, rfl⟩
  · rintro ⟨read, among, rfl⟩
    exact ⟨_, among, rfl, read, rfl, rfl⟩

theorem readGiven_renamed {change : Renaming} {graph other : Graph}
    (renames : graph.Renames change other) (apart : graph.NamesApart)
    {entry : MethodText × MethodId} {given : MethodId × Option MethodBody}
    (read : readGiven graph entry = .ok given) :
    readGiven other (entry.1, change.method entry.2) =
      .ok (change.method given.1, given.2.map (MethodBody.rename change)) := by
  unfold readGiven at read ⊢
  dsimp only
  cases body : entry.1.body with
  | none =>
      rw [body] at read
      cases read
      rfl
  | some text =>
      rw [body] at read
      obtain ⟨found, here, rfl⟩ := map_eq_ok_iff.mp read
      dsimp only
      rw [renames.method, renames.readBody apart here]
      rfl

section Reordering

variable {loads : Loads graph texts} {others : Loads graph order}
variable {type : Equiv.Perm TypeId} {field method : Equiv.Perm Nat}

theorem renames (linked : loads.linkedGraph.TypesRenamed type others.linkedGraph)
    (fields : MovesEntries TypeMembers.fields FieldDecl.owner (TypeMembers.rename type)
      (FieldDecl.rename type) type graph.fields loads.members others.members field)
    (methods : MovesEntries TypeMembers.methods MethodDecl.owner (TypeMembers.rename type)
      (MethodDecl.rename type) type graph.methods loads.members others.members method) :
    loads.filledGraph.Renames
      ⟨type, MethodId.ofNumber.permCongr method, FieldId.ofNumber.permCongr field⟩
      others.filledGraph where
  size := linked.size
  hasType := linked.hasType
  library := linked.library
  type := linked.type
  method method := by
    rw [Graph.method, Graph.method, methods_filledGraph, methods_filledGraph]
    exact methods.getD method.index
  field field := by
    rw [Graph.field, Graph.field, fields_filledGraph, fields_filledGraph]
    exact fields.getD field.index
  methodsOf type := by
    rw [Graph.methodsOf_eq_owned, Graph.methodsOf_eq_owned, methods_filledGraph,
      methods_filledGraph, methods.owned, List.map_map, List.map_map]
    rfl
  fieldsOf type := by
    rw [Graph.fieldsOf_eq_owned, Graph.fieldsOf_eq_owned, fields_filledGraph,
      fields_filledGraph, fields.owned, List.map_map, List.map_map]
    rfl

theorem entries_perm
    (methods : MovesEntries TypeMembers.methods MethodDecl.owner (TypeMembers.rename type)
      (MethodDecl.rename type) type graph.methods loads.members others.members method) :
    others.entries.Perm (loads.entries.map fun entry =>
      (entry.1, MethodId.ofNumber.permCongr method entry.2)) := by
  rw [entries_eq_flatMap, entries_eq_flatMap]
  refine (methods.placed.flatMap_right _).trans (.of_eq ?_)
  rw [List.flatMap_map, List.map_flatMap]
  refine List.flatMap_congr fun placed _ => ?_
  have numbers : (placed.2.map method).map MethodId.mk =
      (placed.2.map MethodId.mk).map (MethodId.ofNumber.permCongr method) := by
    rw [List.map_map, List.map_map]
    rfl
  rw [numbers, List.zip_map_right]
  rfl

end Reordering

theorem Sound.exists_reordered {loads : Loads graph texts} (sound : loads.Sound)
    (named : graph.TypesNamed) (known : graph.MembersKnown) (reordered : texts.Perm order) :
    ∃ others : Loads graph order, others.Sound ∧ ∃ change, Reordered change loads others := by
  obtain ⟨type, typeStays, moved, declared⟩ := exists_typesRenamed named reordered
  have alike := declared.namedAlike
  have entries : ((TypeText.allPlaces graph.types.size [] order).map TypePlace.entry).Perm
      ((loads.places.map TypePlace.entry).map fun entry => (entry.1, type entry.2)) := by
    refine (moved.map TypePlace.entry).trans (.of_eq ?_)
    rw [List.map_map, places, List.map_map]
    rfl
  obtain ⟨links, linksRead, linksMoved⟩ := exists_mapM_of_perm
    (fun entry link read => (alike.readLink sound.apart entry.1 entry.2).trans
      (congrArg (TypeLink.rename type <$> ·) read)) entries sound.links
  obtain ⟨members, membersRead, membersMoved⟩ := exists_mapM_of_perm
    (fun entry members read => (alike.readMembers sound.apart entry.1 entry.2).trans
      (congrArg (TypeMembers.rename type <$> ·) read)) entries sound.members
  have root : type default = default :=
    typeStays default (Nat.lt_of_lt_of_le (by decide) named.size)
  obtain ⟨field, fields⟩ := exists_movesEntries (renamesFields known root typeStays)
    (sound.ownedFields known) membersMoved
  obtain ⟨method, methods⟩ := exists_movesEntries (renamesMethods known root typeStays)
    (sound.ownedMethods known) membersMoved
  have linked : loads.linkedGraph.TypesRenamed type
      (linkAll (graph.withTypes ((TypeText.allPlaces graph.types.size [] order).map
        TypePlace.decl)) links) := by
    rw [linkAll_eq_of_perm linksMoved]
    · exact typesRenamed_linkAll declared loads.links
    · have distinct := (distinct_places graph.types.size texts).map type.injective
      rw [← places, ← sound.types_links, List.map_map] at distinct
      rw [(linksMoved.map (·.type)).nodup_iff, List.map_map]
      exact distinct
  have renames := @Loads.renames graph texts order loads ⟨links, members, []⟩ type field method
    linked fields methods
  have filledApart : loads.filledGraph.NamesApart :=
    ((namedAlike_linkAll _ _).trans (namedAlike_withMembers _ _)).namesApart sound.apart
  obtain ⟨given, givenRead, givenMoved⟩ := exists_mapM_of_perm
    (fun entry given read => readGiven_renamed renames filledApart read)
    (@entries_perm graph texts order loads ⟨links, members, []⟩ type method methods) sound.given
  refine ⟨⟨links, members, given⟩, ⟨alike.namesApart sound.apart, linksRead, membersRead, ?_,
    givenRead⟩, _, renames, ?_, givenMoved, typeStays, ?_⟩
  · intro other among
    obtain ⟨first, member, rfl⟩ := List.mem_map.mp (membersMoved.subset among)
    exact alike.membersApart (sound.membersApart first member)
  · refine (moved.map (·.type)).trans (.of_eq ?_)
    rw [module, List.map_map, List.map_map]
    rfl
  · exact fun entry old => congrArg MethodId.mk (methods.fixed entry.index old)

end Loads

end Loading

end NullWeave
