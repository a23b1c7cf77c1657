import NullWeave.Proofs.Text.LoadingResults

/-!
# Declarations without their lines

A declaration keeps the line in which it was written, only to say where something
is wrong.  So what loading makes of a text that it accepts does not depend on the
lines, and the same declarations load alike wherever they stand.
-/

namespace NullWeave

/-! ## Forgetting lines -/

/-- An item as it would be in no line. -/
def BodyItem.unnumbered : BodyItem → BodyItem
  | .label _ name => .label 0 name
  | .point _ document span => .point 0 document span
  | .instruction _ mnemonic operands => .instruction 0 mnemonic operands

/-- A handler as it would be in no line. -/
def HandlerText.unnumbered (handler : HandlerText) : HandlerText := { handler with line := 0 }

/-- A body as it would be in no lines. -/
def BodyText.unnumbered (body : BodyText) : BodyText :=
  { body with
    items := body.items.map BodyItem.unnumbered
    handlers := body.handlers.map HandlerText.unnumbered }

/-- A method as it would be in no lines. -/
def MethodText.unnumbered (method : MethodText) : MethodText :=
  { method with line := 0, body := method.body.map BodyText.unnumbered }

/-- A field as it would be in no line. -/
def FieldText.unnumbered (field : FieldText) : FieldText := { field with line := 0 }

/-- The first line of a type as it would be without its number. -/
def TypeHeader.unnumbered (header : TypeHeader) : TypeHeader := { header with line := 0 }

namespace TypeText

mutual

/-- A type as it would be in no lines. -/
def unnumbered : TypeText → TypeText
  | .mk header fields methods nested =>
      .mk header.unnumbered (fields.map FieldText.unnumbered)
        (methods.map MethodText.unnumbered) (allUnnumbered nested)

/-- Several types as they would be in no lines. -/
def allUnnumbered : List TypeText → List TypeText
  | [] => []
  | text :: rest => text.unnumbered :: allUnnumbered rest
end

@[simp]
theorem allUnnumbered_eq_map (texts : List TypeText) :
    allUnnumbered texts = texts.map unnumbered := by
  induction texts with
  | nil =>
      rfl
  | cons text rest inductionHypothesis =>
      rw [allUnnumbered, inductionHypothesis, List.map_cons]

theorem header_unnumbered (text : TypeText) : text.unnumbered.header = text.header.unnumbered := by
  cases text
  rfl

theorem fields_unnumbered (text : TypeText) :
    text.unnumbered.fields = text.fields.map FieldText.unnumbered := by
  cases text
  rfl

theorem methods_unnumbered (text : TypeText) :
    text.unnumbered.methods = text.methods.map MethodText.unnumbered := by
  cases text
  rfl

end TypeText

/-! ## Places -/

/-- A place with a type that is in no lines. -/
def TypePlace.unnumbered (place : TypePlace) : TypePlace :=
  { place with text := place.text.unnumbered }

theorem TypePlace.decl_unnumbered (place : TypePlace) : place.unnumbered.decl = place.decl := by
  rw [decl, decl, unnumbered, TypeText.header_unnumbered]
  rfl

namespace TypeText

mutual

theorem length_withNested_unnumbered :
    ∀ text : TypeText, text.unnumbered.withNested.length = text.withNested.length
  | .mk header fields methods nested => by
      rw [unnumbered, withNested, withNested, List.length_cons, List.length_cons,
        length_allWithNested_unnumbered nested]

theorem length_allWithNested_unnumbered :
    ∀ texts, (allWithNested (allUnnumbered texts)).length = (allWithNested texts).length
  | [] => rfl
  | text :: rest => by
      rw [allUnnumbered, allWithNested, allWithNested, List.length_append, List.length_append,
        length_withNested_unnumbered text, length_allWithNested_unnumbered rest]

end

mutual

theorem places_unnumbered (next : Nat) (enclosing : List TypeId) :
    ∀ text : TypeText,
      text.unnumbered.places next enclosing =
        (text.places next enclosing).map TypePlace.unnumbered
  | .mk header fields methods nested => by
      rw [unnumbered, places, places, List.map_cons, allPlaces_unnumbered]
      rfl

/-- Types have the same places whatever lines they are in. -/
theorem allPlaces_unnumbered (next : Nat) (enclosing : List TypeId) :
    ∀ texts,
      allPlaces next enclosing (allUnnumbered texts) =
        (allPlaces next enclosing texts).map TypePlace.unnumbered
  | [] => rfl
  | text :: rest => by
      rw [allUnnumbered, allPlaces, allPlaces, List.map_append, places_unnumbered,
        length_withNested_unnumbered, allPlaces_unnumbered]

end

end TypeText

/-! ## Bodies -/

namespace BodyItem

theorem isInstruction_unnumbered (item : BodyItem) :
    item.unnumbered.isInstruction = item.isInstruction := by
  cases item <;> rfl

theorem any_isInstruction_unnumbered (items : List BodyItem) :
    (items.map unnumbered).any isInstruction = items.any isInstruction := by
  rw [List.any_map]
  exact congrArg items.any (funext isInstruction_unnumbered)

theorem labelsFrom_unnumbered (id : InstrId) (items : List BodyItem) :
    labelsFrom id (items.map unnumbered) = labelsFrom id items := by
  induction items generalizing id with
  | nil =>
      rfl
  | cons item rest inductionHypothesis =>
      cases item with
      | label line name =>
          rw [List.map_cons, unnumbered, labelsFrom, labelsFrom, any_isInstruction_unnumbered,
            inductionHypothesis]
      | point line document span =>
          exact inductionHypothesis id
      | instruction line mnemonic operands =>
          exact inductionHypothesis id.next

theorem repeatedLabel?_unnumbered (seen : List String) (items : List BodyItem) :
    repeatedLabel? seen (items.map unnumbered) = none ↔ repeatedLabel? seen items = none := by
  induction items generalizing seen with
  | nil =>
      rfl
  | cons item rest inductionHypothesis =>
      cases item with
      | label line name =>
          rw [List.map_cons, unnumbered, repeatedLabel?, repeatedLabel?]
          by_cases repeated : name ∈ seen
          · simp only [if_pos repeated, reduceCtorEq]
          · simp only [if_neg repeated, inductionHypothesis]
      | point line document span =>
          exact inductionHypothesis seen
      | instruction line mnemonic operands =>
          exact inductionHypothesis seen

end BodyItem

namespace BodyScope

theorem readItems_unnumbered_eq_ok_iff (scope : BodyScope) {items : List BodyItem}
    {waiting others : List WaitingPoint} {id : InstrId}
    {result : List Instruction × List SequencePoint}
    (same : others.map (fun point => (point.document, point.span)) =
      waiting.map fun point => (point.document, point.span)) :
    scope.readItems others id (items.map BodyItem.unnumbered) = .ok result ↔
      scope.readItems waiting id items = .ok result := by
  induction items generalizing waiting others id result with
  | nil =>
      have lengths := congrArg List.length same
      rw [List.length_map, List.length_map] at lengths
      cases waiting with
      | nil =>
          rw [List.length_eq_zero_iff.mp lengths]
          rfl
      | cons point rest =>
          obtain ⟨other, others, rfl⟩ := List.exists_cons_of_length_eq_add_one lengths
          constructor <;> intro read <;> cases read
  | cons item rest inductionHypothesis =>
      cases item with
      | label line name =>
          exact inductionHypothesis same
      | point line document span =>
          refine inductionHypothesis ?_
          rw [List.map_append, List.map_append, same]
          rfl
      | instruction line mnemonic operands =>
          have placed : (others.map fun point =>
              BodyItem.placedPoint id point.document point.span) =
                waiting.map fun point =>
                  BodyItem.placedPoint id point.document point.span := by
            have pairs := congrArg
              (List.map fun pair => BodyItem.placedPoint id pair.1 pair.2) same
            rwa [List.map_map, List.map_map] at pairs
          rw [List.map_cons, BodyItem.unnumbered, readItems, readItems, bind_eq_ok_iff,
            bind_eq_ok_iff]
          simp only [inLine_eq_ok_iff, bind_eq_ok_iff, inductionHypothesis rfl, placed]

end BodyScope

theorem BodyText.readsAs_unnumbered_iff {text : BodyText} {graph : Graph} {method : MethodDecl}
    {body : MethodBody} :
    text.unnumbered.ReadsAs graph method body ↔ text.ReadsAs graph method body := by
  have scope : text.unnumbered.scope graph method body.locals =
      text.scope graph method body.locals := by
    rw [BodyText.scope, BodyText.scope, unnumbered, BodyItem.labelsFrom_unnumbered]
  have items : (text.scope graph method body.locals).readItems [] .first
      (text.items.map BodyItem.unnumbered) = .ok (body.instructions, body.debugInfo.points) ↔
        (text.scope graph method body.locals).readItems [] .first text.items =
          .ok (body.instructions, body.debugInfo.points) :=
    BodyScope.readItems_unnumbered_eq_ok_iff _ rfl
  have handlers : text.unnumbered.handlers.mapM
      (text.scope graph method body.locals).readHandler =
        text.handlers.mapM (text.scope graph method body.locals).readHandler := by
    rw [unnumbered, List.mapM_map]
    rfl
  have labels := BodyItem.repeatedLabel?_unnumbered [] text.items
  constructor
  · intro reads
    exact
      { reads with
        labels := labels.mp reads.labels
        items := items.mp (scope ▸ reads.items)
        handlers := handlers ▸ scope ▸ reads.handlers }
  · intro reads
    exact
      { reads with
        labels := labels.mpr reads.labels
        items := scope ▸ items.mpr reads.items
        handlers := scope ▸ handlers ▸ reads.handlers }

/-! ## All passes -/

namespace Loading

variable {graph : Graph}

theorem readGiven_unnumbered_eq_ok_iff {text : MethodText} {method : MethodId}
    {given : MethodId × Option MethodBody} :
    readGiven graph (text.unnumbered, method) = .ok given ↔
      readGiven graph (text, method) = .ok given := by
  rw [readGiven, readGiven, MethodText.unnumbered]
  cases text.body with
  | none =>
      rfl
  | some body =>
      simp only [Option.map_some, map_eq_ok_iff, readBody_eq_ok_iff,
        BodyText.readsAs_unnumbered_iff]

theorem readLink_unnumbered (text : TypeText) (type : TypeId) :
    readLink graph (text.unnumbered, type) = readLink graph (text, type) := by
  rw [readLink, readLink, TypeText.header_unnumbered]
  rfl

/-- Members as they would be in no lines. -/
def TypeMembers.unnumbered (members : TypeMembers) : TypeMembers :=
  { members with text := members.text.unnumbered }

theorem readMembers_unnumbered (text : TypeText) (type : TypeId) :
    readMembers graph (text.unnumbered, type) =
      TypeMembers.unnumbered <$> readMembers graph (text, type) := by
  rw [readMembers, readMembers, TypeText.fields_unnumbered, TypeText.methods_unnumbered,
    List.mapM_map, List.mapM_map]
  simp only [map_bind, map_pure]
  rfl

theorem mapM_readLink_unnumbered (places : List TypePlace) :
    ((places.map TypePlace.unnumbered).map TypePlace.entry).mapM (readLink graph) =
      (places.map TypePlace.entry).mapM (readLink graph) := by
  rw [List.mapM_map, List.mapM_map, List.mapM_map]
  refine congrArg (places.mapM ·) (funext fun place => ?_)
  exact readLink_unnumbered place.text place.type

theorem mapM_readMembers_unnumbered (places : List TypePlace) :
    ((places.map TypePlace.unnumbered).map TypePlace.entry).mapM (readMembers graph) =
      List.map TypeMembers.unnumbered <$>
        (places.map TypePlace.entry).mapM (readMembers graph) := by
  rw [List.mapM_map, List.mapM_map, List.mapM_map]
  exact mapM_eq_map_mapM (fun place => readMembers_unnumbered place.text place.type) places

namespace Loads

variable {texts : List TypeText}

/-- What loading reads, from a text in no lines. -/
def unnumbered (loads : Loads graph texts) : Loads graph (texts.map TypeText.unnumbered) where
  links := loads.links
  members := loads.members.map TypeMembers.unnumbered
  given := loads.given

theorem places_unnumbered (loads : Loads graph texts) :
    loads.unnumbered.places = loads.places.map TypePlace.unnumbered := by
  rw [places, places, ← TypeText.allUnnumbered_eq_map, TypeText.allPlaces_unnumbered]

theorem declaredGraph_unnumbered (loads : Loads graph texts) :
    loads.unnumbered.declaredGraph = loads.declaredGraph := by
  rw [declaredGraph, declaredGraph, places_unnumbered, List.map_map]
  exact congrArg graph.withTypes
    (List.map_congr_left fun place _ => place.decl_unnumbered)

theorem linkedGraph_unnumbered (loads : Loads graph texts) :
    loads.unnumbered.linkedGraph = loads.linkedGraph := by
  rw [linkedGraph, linkedGraph, declaredGraph_unnumbered]
  rfl

theorem filledGraph_unnumbered (loads : Loads graph texts) :
    loads.unnumbered.filledGraph = loads.filledGraph := by
  rw [filledGraph, filledGraph, linkedGraph_unnumbered, withMembers, withMembers, unnumbered,
    List.flatMap_map, List.flatMap_map]
  rfl

theorem entries_unnumbered (loads : Loads graph texts) :
    loads.unnumbered.entries =
      loads.entries.map fun entry => (entry.1.unnumbered, entry.2) := by
  rw [entries, entries, unnumbered, List.map_flatten]
  refine congrArg List.flatten (layOut_map (fun members => ?_) (fun start members => ?_) _ _)
  · rfl
  rw [TypeMembers.entries, TypeMembers.unnumbered, TypeText.methods_unnumbered,
    List.zip_map_left]
  rfl

theorem module_unnumbered (loads : Loads graph texts) :
    loads.unnumbered.module = loads.module := by
  rw [module, module, places_unnumbered, List.map_map]
  rfl

theorem reached_unnumbered (loads : Loads graph texts) (bodies : Bodies) :
    loads.unnumbered.reached bodies = loads.reached bodies := by
  rw [reached, reached, filledGraph_unnumbered]
  rfl

theorem sound_unnumbered_iff {loads : Loads graph texts}
    (read : (loads.places.map TypePlace.entry).mapM (readMembers loads.declaredGraph) =
      .ok loads.members) :
    loads.unnumbered.Sound ↔ loads.Sound := by
  have given : loads.unnumbered.entries.mapM (readGiven loads.unnumbered.filledGraph) =
      .ok loads.given ↔ loads.entries.mapM (readGiven loads.filledGraph) = .ok loads.given := by
    rw [entries_unnumbered, filledGraph_unnumbered, mapM_eq_ok_iff, mapM_eq_ok_iff,
      List.forall₂_map_left_iff]
    simp only [readGiven_unnumbered_eq_ok_iff]
  have links : (loads.unnumbered.places.map TypePlace.entry).mapM
      (readLink loads.unnumbered.declaredGraph) =
        (loads.places.map TypePlace.entry).mapM (readLink loads.declaredGraph) := by
    rw [places_unnumbered, declaredGraph_unnumbered, mapM_readLink_unnumbered]
  have members : (loads.unnumbered.places.map TypePlace.entry).mapM
      (readMembers loads.unnumbered.declaredGraph) = .ok loads.unnumbered.members := by
    rw [places_unnumbered, declaredGraph_unnumbered, mapM_readMembers_unnumbered, read]
    rfl
  have graph := loads.declaredGraph_unnumbered
  constructor
  · intro sound
    exact
      { apart := graph ▸ sound.apart
        links := links ▸ sound.links
        members := read
        membersApart := fun other among => by
          have apart := sound.membersApart other.unnumbered (List.mem_map_of_mem among)
          rw [graph] at apart
          exact ⟨apart.fields, apart.methods⟩
        given := given.mp sound.given }
  · intro sound
    exact
      { apart := graph ▸ sound.apart
        links := links ▸ sound.links
        members := members
        membersApart := fun other among => by
          obtain ⟨numbered, member, rfl⟩ := List.mem_map.mp among
          have apart := sound.membersApart numbered member
          rw [graph]
          exact ⟨apart.fields, apart.methods⟩
        given := given.mpr sound.given }

/-- What is read from a text in no lines is read from the text as well. -/
theorem Sound.exists_numbered {loads : Loads graph (texts.map TypeText.unnumbered)}
    (sound : loads.Sound) :
    ∃ numbered : Loads graph texts, numbered.Sound ∧ numbered.unnumbered = loads := by
  obtain ⟨links, members, given⟩ := loads
  have read := sound.members
  change (((⟨links, [], given⟩ : Loads graph texts).unnumbered.places).map TypePlace.entry).mapM
    (readMembers (⟨links, [], given⟩ : Loads graph texts).unnumbered.declaredGraph) = _ at read
  rw [places_unnumbered, declaredGraph_unnumbered, mapM_readMembers_unnumbered,
    map_eq_ok_iff] at read
  obtain ⟨all, readAll, rfl⟩ := read
  exact ⟨⟨links, all, given⟩, (sound_unnumbered_iff readAll).mp sound, rfl⟩

end Loads

/-- A text is accepted, and leaves the same, whatever lines it is in. -/
theorem loadTypes_unnumbered_eq_ok_iff {program reached : Program} {texts : List TypeText}
    {module : Module} (named : program.Named) :
    (loadTypes (texts.map TypeText.unnumbered)).run program = (.ok module, reached) ↔
      (loadTypes texts).run program = (.ok module, reached) := by
  rw [loadTypes_eq_ok_iff named, loadTypes_eq_ok_iff named]
  constructor
  · rintro ⟨loads, sound, rfl, rfl⟩
    obtain ⟨numbered, numberedSound, rfl⟩ := sound.exists_numbered
    exact ⟨numbered, numberedSound, numbered.module_unnumbered, numbered.reached_unnumbered _⟩
  · rintro ⟨loads, sound, rfl, rfl⟩
    exact ⟨loads.unnumbered, (Loads.sound_unnumbered_iff sound.members).mpr sound,
      loads.module_unnumbered.symm, (loads.reached_unnumbered _).symm⟩

end Loading

end NullWeave
