import NullWeave.Proofs.Graph.Renaming
import NullWeave.Proofs.Text.TypePlaces

/-!
# What types extend and name

The second pass over a text says what each type extends and which interfaces it
names.  Names mean the same before and after, so all of it can be read from the
graph that the first pass left, for each type on its own, and the pass goes well
exactly if it can.
-/

namespace NullWeave

namespace Loading

section Parts

variable {α β : Type} {program reached : Program}

theorem run_graph_bind (next : Graph → Loading α) (program : Program) :
    (graph >>= next).run program = (next program.graph).run program := rfl

theorem setGraph_eq_ok_iff {graph : Graph} :
    (setGraph graph).run program = (.ok (), reached) ↔ reached = { program with graph } := by
  change ((.ok (), _) : Except TextError Unit × Program) = _ ↔ _
  rw [Prod.mk.injEq, eq_comm (b := reached)]
  exact and_iff_right rfl

theorem orFail_bind_eq_ok_iff {line : Nat} {result : Except TextFault α}
    {next : α → Loading β} {value : β} :
    (orFail line result >>= next).run program = (.ok value, reached) ↔
      ∃ found, result = .ok found ∧ (next found).run program = (.ok value, reached) := by
  cases result with
  | error fault =>
      exact iff_of_false nofun nofun
  | ok found =>
      rw [orFail, pure_bind]
      simp

end Parts

/-! ## Supertypes -/

/-- What a type extends and which interfaces it names. -/
structure TypeLink where
  type : TypeId
  base : Option TypeId
  interfaces : List TypeId

/-- A link with its types under other identities. -/
def TypeLink.rename (change : TypeId → TypeId) (link : TypeLink) : TypeLink where
  type := change link.type
  base := link.base.map change
  interfaces := link.interfaces.map change

theorem TypeLink.rename_id (link : TypeLink) : link.rename id = link := by
  cases link with
  | mk type base interfaces =>
      rw [TypeLink.rename, Option.map_id, List.map_id]
      rfl

/-- Read what a type extends. -/
def readBase (graph : Graph) (type : TypeId) (header : TypeHeader) :
    Except TextFault (Option TypeId) :=
  match header.base with
  | none => .ok (defaultBase header.kind)
  | some base => some <$> graph.definitionOf type base

/-- Read an interface that a type names. -/
def readInterface (graph : Graph) (type : TypeId) (text : TypeExpr) :
    Except TextFault TypeId := do
  let interface ← graph.definitionOf type text
  if graph.isInterface interface then pure interface
  else throw (.notAnInterface (graph.typeName interface))

/-- Read what a type extends and which interfaces it names. -/
def readLink (graph : Graph) (entry : TypeText × TypeId) : Except TextFault TypeLink := do
  let base ← readBase graph entry.2 entry.1.header
  let interfaces ← entry.1.header.interfaces.mapM (readInterface graph entry.2)
  pure { type := entry.2, base, interfaces }

theorem readLink_eq_ok_iff {graph : Graph} {text : TypeText} {type : TypeId}
    {link : TypeLink} :
    readLink graph (text, type) = .ok link ↔
      ∃ base interfaces, readBase graph type text.header = .ok base ∧
        text.header.interfaces.mapM (readInterface graph type) = .ok interfaces ∧
          link = ⟨type, base, interfaces⟩ := by
  rw [readLink, bind_eq_ok_iff]
  simp only [bind_eq_ok_iff, pure, Except.pure, Except.ok.injEq, exists_and_left,
    eq_comm (b := link)]

end Loading

namespace Graph

/-- A graph in which a type extends and names what a link says. -/
def link (graph : Graph) (link : Loading.TypeLink) : Graph :=
  { graph with
    types := graph.types.modify link.type.index fun decl =>
      { decl with
        base := link.base
        interfaces := decl.interfaces ++ link.interfaces } }

theorem NamedAlike.link (graph : Graph) (link : Loading.TypeLink) :
    graph.NamedAlike (Equiv.refl TypeId) (graph.link link) :=
  .modify graph link.type.index fun _ => ⟨rfl, rfl, rfl, rfl, rfl⟩

theorem NamedAlike.addInterface (graph : Graph) (type interface : TypeId) :
    graph.NamedAlike (Equiv.refl TypeId) (graph.addInterface type interface) :=
  .modify graph type.index fun _ => ⟨rfl, rfl, rfl, rfl, rfl⟩

theorem setBase_eq_link (graph : Graph) (type : TypeId) (base : Option TypeId) :
    graph.setBase type base = graph.link ⟨type, base, []⟩ := by
  rw [setBase, link]
  simp only [List.append_nil]

theorem addInterface_link (graph : Graph) (type : TypeId) (base : Option TypeId)
    (interfaces : List TypeId) (interface : TypeId) :
    (graph.link ⟨type, base, interfaces⟩).addInterface type interface =
      graph.link ⟨type, base, interfaces ++ [interface]⟩ := by
  rw [link, link, Graph.addInterface, Graph.mk.injEq]
  refine ⟨Array.ext_getElem? fun index => ?_, rfl, rfl⟩
  by_cases here : type.index = index <;>
    simp [Array.getElem?_modify, here, Function.comp_def]

end Graph

namespace Loading

section Supertypes

variable {program reached : Program}

theorem addBase_eq_ok_iff {header : TypeHeader} {type : TypeId} :
    (addBase header type).run program = (.ok (), reached) ↔
      ∃ base, readBase program.graph type header = .ok base ∧
        reached = { program with graph := program.graph.setBase type base } := by
  rw [addBase, run_graph_bind, readBase]
  cases header.base with
  | none =>
      simp only [pure_bind, setGraph_eq_ok_iff, Except.ok.injEq, exists_eq_left']
  | some text =>
      simp only [bind_map_left, orFail_bind_eq_ok_iff, setGraph_eq_ok_iff, map_eq_ok_iff,
        and_assoc, existsAndEq, true_and]

theorem addInterface_eq_ok_iff {line : Nat} {type : TypeId} {text : TypeExpr} :
    (addInterface line type text).run program = (.ok (), reached) ↔
      ∃ interface, readInterface program.graph type text = .ok interface ∧
        reached = { program with graph := program.graph.addInterface type interface } := by
  rw [addInterface, run_graph_bind, orFail_bind_eq_ok_iff, readInterface]
  cases program.graph.definitionOf type text with
  | error fault =>
      exact iff_of_false nofun nofun
  | ok interface =>
      change (∃ found, Except.ok interface = Except.ok found ∧ _) ↔
        ∃ found, (if program.graph.isInterface interface then Except.ok interface
          else Except.error _) = Except.ok found ∧ _
      simp only [Except.ok.injEq, exists_eq_left']
      split
      · simp only [setGraph_eq_ok_iff, Except.ok.injEq, exists_eq_left']
      · exact iff_of_false nofun nofun

end Supertypes

end Loading

namespace Graph.NamedAlike

variable {change : Equiv.Perm TypeId} {graph other : Graph}

theorem isInterface (alike : graph.NamedAlike change other) (type : TypeId) :
    other.isInterface (change type) = graph.isInterface type := by
  rw [Graph.isInterface, Graph.isInterface, alike.kind]

theorem defaultBase (alike : graph.NamedAlike change other) (kind : TypeKind) :
    (Loading.defaultBase kind).map change = Loading.defaultBase kind := by
  cases kind with
  | classType =>
      exact congrArg some (alike.library _ (show _ < _ by decide))
  | valueType =>
      exact congrArg some (alike.library _ (show _ < _ by decide))
  | interfaceType =>
      rfl

theorem readBase (alike : graph.NamedAlike change other) (apart : graph.NamesApart)
    (type : TypeId) (header : TypeHeader) :
    Loading.readBase other (change type) header =
      Option.map change <$> Loading.readBase graph type header := by
  unfold Loading.readBase
  cases header.base with
  | none =>
      exact congrArg Except.ok (alike.defaultBase header.kind).symm
  | some text =>
      dsimp only
      rw [alike.definitionOf apart]
      cases graph.definitionOf type text <;> rfl

theorem readInterface (alike : graph.NamedAlike change other) (apart : graph.NamesApart)
    (type : TypeId) (text : TypeExpr) :
    Loading.readInterface other (change type) text =
      change <$> Loading.readInterface graph type text := by
  rw [Loading.readInterface, Loading.readInterface, alike.definitionOf apart]
  cases graph.definitionOf type text with
  | error fault =>
      rfl
  | ok interface =>
      change (if other.isInterface (change interface) then _ else
        Except.error (TextFault.notAnInterface (other.typeName (change interface)))) =
          change <$> (if _ then _ else _)
      rw [alike.isInterface, alike.typeName]
      split <;> rfl

theorem readLink (alike : graph.NamedAlike change other) (apart : graph.NamesApart)
    (text : TypeText) (type : TypeId) :
    Loading.readLink other (text, change type) =
      Loading.TypeLink.rename change <$> Loading.readLink graph (text, type) := by
  rw [Loading.readLink, Loading.readLink, alike.readBase apart,
    mapM_eq_map_mapM (alike.readInterface apart type)]
  cases Loading.readBase graph type text.header with
  | error fault =>
      rfl
  | ok base =>
      cases text.header.interfaces.mapM (Loading.readInterface graph type) <;> rfl

/-! Where identities stay as they are, the same is read. -/

theorem readInterface_eq (alike : graph.NamedAlike (Equiv.refl TypeId) other)
    (apart : graph.NamesApart) (type : TypeId) :
    Loading.readInterface other type = Loading.readInterface graph type := by
  funext text
  have read := alike.readInterface apart type text
  rwa [Equiv.refl_apply, Equiv.coe_refl, id_map] at read

theorem readLink_eq (alike : graph.NamedAlike (Equiv.refl TypeId) other)
    (apart : graph.NamesApart) : Loading.readLink other = Loading.readLink graph := by
  funext entry
  have read := alike.readLink apart entry.1 entry.2
  rwa [Equiv.refl_apply, Equiv.coe_refl, funext Loading.TypeLink.rename_id, id_map'] at read

end Graph.NamedAlike

namespace Loading

variable {program reached : Program}

/-- Interfaces that are added one by one are those of one link. -/
theorem foldl_addInterface (program : Program) (type : TypeId) (base : Option TypeId)
    (named interfaces : List TypeId) :
    interfaces.foldl (fun program interface =>
        { program with graph := program.graph.addInterface type interface })
        { program with graph := program.graph.link ⟨type, base, named⟩ } =
      { program with graph := program.graph.link ⟨type, base, named ++ interfaces⟩ } := by
  induction interfaces generalizing named with
  | nil =>
      rw [List.foldl_nil, List.append_nil]
  | cons interface rest inductionHypothesis =>
      rw [List.foldl_cons, Graph.addInterface_link, inductionHypothesis, List.append_assoc,
        List.singleton_append]

theorem addInterfaces_eq_ok_iff {line : Nat} {type : TypeId} {texts : List TypeExpr}
    (apart : program.graph.NamesApart) :
    (texts.forM (addInterface line type)).run program = (.ok (), reached) ↔
      ∃ interfaces, texts.mapM (readInterface program.graph type) = .ok interfaces ∧
        reached = interfaces.foldl (fun program interface =>
          { program with graph := program.graph.addInterface type interface }) program := by
  refine run_forM_eq_ok_iff (fun program : Program => program.graph.NamesApart)
    (fun program => readInterface program.graph type) _
    (fun program interface apart => ?_) (fun program interface text apart => ?_)
    (fun text program reached _ => addInterface_eq_ok_iff) apart
  · exact (Graph.NamedAlike.addInterface program.graph type interface).namesApart apart
  · rw [(Graph.NamedAlike.addInterface program.graph type interface).readInterface_eq apart]

theorem addSupertypes_eq_ok_iff {text : TypeText} {type : TypeId}
    (apart : program.graph.NamesApart) :
    (addSupertypes text type).run program = (.ok (), reached) ↔
      ∃ link, readLink program.graph (text, type) = .ok link ∧
        reached = { program with graph := program.graph.link link } := by
  have alike (base : Option TypeId) :
      program.graph.NamedAlike (Equiv.refl TypeId) (program.graph.setBase type base) := by
    rw [Graph.setBase_eq_link]
    exact .link program.graph ⟨type, base, []⟩
  rw [addSupertypes, run_bind_eq_ok_iff]
  constructor
  · rintro ⟨⟨⟩, between, said, named⟩
    obtain ⟨base, extended, rfl⟩ := addBase_eq_ok_iff.mp said
    obtain ⟨interfaces, read, rfl⟩ := (addInterfaces_eq_ok_iff ((alike base).namesApart apart)).mp named
    rw [(alike base).readInterface_eq apart] at read
    refine ⟨_, readLink_eq_ok_iff.mpr ⟨base, interfaces, extended, read, rfl⟩, ?_⟩
    rw [Graph.setBase_eq_link, foldl_addInterface]
    rfl
  · rintro ⟨link, read, rfl⟩
    obtain ⟨base, interfaces, extended, named, rfl⟩ := readLink_eq_ok_iff.mp read
    refine ⟨(), _, addBase_eq_ok_iff.mpr ⟨base, extended, rfl⟩,
      (addInterfaces_eq_ok_iff ((alike base).namesApart apart)).mpr ⟨interfaces, ?_, ?_⟩⟩
    · rw [(alike base).readInterface_eq apart]
      exact named
    · rw [Graph.setBase_eq_link, foldl_addInterface]
      rfl

/-- A graph in which several types extend and name what links say. -/
def linkAll (graph : Graph) (links : List TypeLink) : Graph := links.foldl Graph.link graph

theorem namedAlike_linkAll (graph : Graph) (links : List TypeLink) :
    graph.NamedAlike (Equiv.refl TypeId) (linkAll graph links) := by
  induction links generalizing graph with
  | nil =>
      exact .of_types rfl
  | cons link rest inductionHypothesis =>
      exact (Graph.NamedAlike.link graph link).trans (inductionHypothesis (graph.link link))

theorem foldl_link (program : Program) (links : List TypeLink) :
    links.foldl (fun program link =>
        { program with graph := program.graph.link link }) program =
      { program with graph := linkAll program.graph links } := by
  induction links generalizing program with
  | nil =>
      rfl
  | cons link rest inductionHypothesis =>
      exact inductionHypothesis { program with graph := program.graph.link link }

/-- The second pass goes well exactly if what every type extends and names can be read. -/
theorem addAllSupertypes_eq_ok_iff {declared : List (TypeText × TypeId)}
    (apart : program.graph.NamesApart) :
    (declared.forM fun (text, type) => addSupertypes text type).run program =
        (.ok (), reached) ↔
      ∃ links, declared.mapM (readLink program.graph) = .ok links ∧
        reached = { program with graph := linkAll program.graph links } := by
  simp only [← foldl_link]
  refine run_forM_eq_ok_iff (fun program : Program => program.graph.NamesApart)
    (fun program => readLink program.graph) _
    (fun program link apart => ?_) (fun program link entry apart => ?_)
    (fun entry program reached apart => addSupertypes_eq_ok_iff apart) apart
  · exact (Graph.NamedAlike.link program.graph link).namesApart apart
  · rw [(Graph.NamedAlike.link program.graph link).readLink_eq apart]

end Loading

end NullWeave
