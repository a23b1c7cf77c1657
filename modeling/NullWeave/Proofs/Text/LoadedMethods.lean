import NullWeave.Proofs.Text.ReorderedLoads
import NullWeave.Proofs.Text.SeparateBlocks
import NullWeave.Proofs.Text.ToldLines

/-!
# Methods that a text declares

Every type of a text has the methods that the text declares on it, in the order
in which they are written.  A method has a body if one was written for it, which
is so exactly if the method is not abstract.
-/

namespace NullWeave

/-! ## Texts of methods -/

/-- Has the text of a method a body, unless the method is abstract? -/
def MethodText.HasDue (text : MethodText) : Prop := text.body.isSome = !text.access.isAbstract

/-- Have all methods of a type, and of those nested in it, the bodies that they should have? -/
def TypeText.HasDue (type : TypeText) : Prop :=
  ∀ inner ∈ type.withNested, ∀ method ∈ inner.methods, method.HasDue

namespace TypeText

theorem hasDue_iff {type : TypeText} :
    type.HasDue ↔ (∀ method ∈ type.methods, method.HasDue) ∧
      ∀ inner ∈ type.nested, inner.HasDue := by
  rw [HasDue, withNested_eq, List.forall_mem_cons, allWithNested_eq_flatMap]
  refine and_congr_right fun _ => ?_
  simp only [HasDue, List.mem_flatMap]
  exact ⟨fun all inner among other inside => all other ⟨inner, among, inside⟩,
    fun all other ⟨inner, among, inside⟩ => all inner among other inside⟩

theorem hasDue_ofHeader (header : TypeHeader) : (ofHeader header).HasDue :=
  hasDue_iff.mpr ⟨List.forall_mem_nil _, List.forall_mem_nil _⟩

variable {type : TypeText}

theorem HasDue.addField (due : type.HasDue) (field : FieldText) :
    (type.addField field).HasDue := by
  obtain ⟨methods, nested⟩ := hasDue_iff.mp due
  cases type
  exact hasDue_iff.mpr ⟨methods, nested⟩

theorem HasDue.addMethod (due : type.HasDue) {method : MethodText} (dueToo : method.HasDue) :
    (type.addMethod method).HasDue := by
  obtain ⟨methods, nested⟩ := hasDue_iff.mp due
  cases type
  exact hasDue_iff.mpr
    ⟨List.forall_mem_append.mpr ⟨methods, List.forall_mem_singleton.mpr dueToo⟩, nested⟩

theorem HasDue.addNested (due : type.HasDue) {inner : TypeText} (dueToo : inner.HasDue) :
    (type.addNested inner).HasDue := by
  obtain ⟨methods, nested⟩ := hasDue_iff.mp due
  cases type
  exact hasDue_iff.mpr
    ⟨methods, List.forall_mem_append.mpr ⟨nested, List.forall_mem_singleton.mpr dueToo⟩⟩

end TypeText

namespace ModuleReader

/-- Does all that a reader takes fit? -/
abbrev Makes {α : Type} (fits : α → Prop) (reader : ModuleReader α) : Prop :=
  Tells (fun _ => True) fits reader

theorem makes_methodWithin (fuel : Nat) {method : MethodText} (bodyless : method.body = none)
    (body : BodyText) : Makes MethodText.HasDue (methodWithin fuel method body) := by
  induction fuel generalizing body with
  | zero =>
      exact tells_fail trivial _
  | succ fuel inductionHypothesis =>
      rw [methodWithin]
      refine tells_nextLine?.andThen fun found _ => ?_
      split
      · exact tells_fail trivial _
      · refine (tells_onLine_any trivial _ _).andThen fun _ _ => ?_
        split
        · rename_i concrete
          refine tells_pure ?_
          rw [MethodText.HasDue, concrete]
          rfl
        rename_i abstract
        split
        · refine tells_pure ?_
          rw [MethodText.HasDue, bodyless, Bool.eq_false_iff.mpr abstract]
          rfl
        · exact tells_fail trivial _
      · refine readerEnds_get_bind fun text => ?_
        refine (tells_onLine_any trivial _ _).andThen fun said _ => ?_
        split
        · exact (tells_setDocument _).andThen fun _ _ => inductionHypothesis _
        · exact inductionHypothesis _

theorem makes_typeWithin (fuel : Nat) (pending : List Attribute) {type : TypeText}
    (due : type.HasDue) : Makes TypeText.HasDue (typeWithin fuel pending type) := by
  induction fuel generalizing pending type with
  | zero =>
      exact tells_fail trivial _
  | succ fuel inductionHypothesis =>
      rw [typeWithin]
      refine tells_nextLine?.andThen fun found _ => ?_
      split
      · exact tells_fail trivial _
      · exact (tells_onLine_any trivial _ _).andThen fun _ _ => inductionHypothesis _ due
      · split
        · refine (tells_onLine_any trivial _ _).andThen fun _ _ => ?_
          split
          · exact tells_pure due
          · exact tells_fail trivial _
        · exact (tells_documentLine trivial _).andThen fun _ _ => inductionHypothesis _ due
        · split
          · exact (tells_onLine_any trivial _ _).andThen fun field _ =>
              inductionHypothesis _ (due.addField field)
          · exact tells_fail trivial _
        · refine (tells_onLine (LineReader.makes_methodHeader _ _) trivial _).andThen
            fun method known => ?_
          exact (makes_methodWithin fuel known.2 {}).andThen fun whole dueToo =>
            inductionHypothesis _ (due.addMethod dueToo)
        · refine (tells_onLine_any trivial _ _).andThen fun header _ => ?_
          exact (inductionHypothesis [] (TypeText.hasDue_ofHeader header)).andThen
            fun inner dueToo => inductionHypothesis _ (due.addNested dueToo)
        · exact tells_fail trivial _
      · exact tells_fail trivial _

theorem makes_typesWithin (lastLine fuel : Nat) (pending : List Attribute) :
    Makes (fun types => ∀ type ∈ types, type.HasDue) (typesWithin lastLine fuel pending) := by
  induction fuel generalizing pending with
  | zero =>
      rw [typesWithin]
      split
      · exact tells_pure (List.forall_mem_nil _)
      · exact tells_fail trivial _
  | succ fuel inductionHypothesis =>
      rw [typesWithin]
      refine tells_nextLine?.andThen fun found _ => ?_
      split
      · split
        · exact tells_pure (List.forall_mem_nil _)
        · exact tells_fail trivial _
      · exact (tells_onLine_any trivial _ _).andThen fun _ _ => inductionHypothesis _
      · split
        · exact (tells_documentLine trivial _).andThen fun _ _ => inductionHypothesis _
        · refine (tells_onLine_any trivial _ _).andThen fun header _ => ?_
          refine (makes_typeWithin fuel [] (TypeText.hasDue_ofHeader header)).andThen
            fun first due => ?_
          exact (inductionHypothesis []).andThen fun others othersDue =>
            tells_pure (List.forall_mem_cons.mpr ⟨due, othersDue⟩)
        · exact tells_fail trivial _
      · exact tells_fail trivial _

end ModuleReader

/-- Methods that were read have bodies exactly if they are not abstract. -/
theorem hasDue_of_readModule {text : String} {types : List TypeText}
    (read : readModule text = .ok types) :
    ∀ type ∈ TypeText.allWithNested types, ∀ method ∈ type.methods, method.HasDue := by
  obtain ⟨lines, -, left, ran⟩ := readModule_eq_ok_iff.mp read
  have due := ((ModuleReader.makes_typesWithin _ _ []) { lines } fun _ _ => trivial).of_ok ran
  intro type member
  rw [TypeText.allWithNested_eq_flatMap] at member
  obtain ⟨outer, among, inside⟩ := List.mem_flatMap.mp member
  exact due.1 outer among type inside

/-! ## Methods of programs -/

/-- Is a method what its text declares, with the body that was read for it? -/
structure Program.Declares (program : Program) (method : MethodId) (text : MethodText) : Prop where
  name : (program.graph.method method).name = text.name
  access : (program.graph.method method).access = text.access
  noBody : text.body = none → program.bodies.get? method = none
  body : ∀ bodyText, text.body = some bodyText → ∃ body,
    program.bodies.get? method = some body ∧
      readBody program.graph (program.graph.method method) text.line bodyText = .ok body

theorem Program.Declares.isSome_body {program : Program} {method : MethodId} {text : MethodText}
    (declares : program.Declares method text) :
    (program.bodies.get? method).isSome = text.body.isSome := by
  cases written : text.body with
  | none =>
      rw [declares.noBody written]
      rfl
  | some bodyText =>
      obtain ⟨body, present, -⟩ := declares.body bodyText written
      rw [present]
      rfl

namespace Loading.Loads.Sound

variable {graph : Graph} {texts : List TypeText} {loads : Loads graph texts}

theorem methodsOf_filledGraph (sound : loads.Sound) (known : graph.MembersKnown)
    {members : TypeMembers} {numbers : List Nat}
    (placed : (members, numbers) ∈ placeBlocks TypeMembers.methods graph.methods.size
      loads.members) :
    loads.filledGraph.methodsOf members.type = numbers.map MethodId.mk ∧
      numbers.map (fun number => loads.filledGraph.method ⟨number⟩) = members.methods := by
  rw [Graph.methodsOf_eq_owned, methods_filledGraph,
    (sound.ownedMethods known).owned_fill placed]
  refine ⟨rfl, ?_⟩
  simp only [Graph.method, methods_filledGraph]
  exact map_getD_of_mem_placeBlocks placed

/-- The methods of the text are numbered behind those that were there before. -/
theorem le_of_mem_placeBlocks {members : TypeMembers} {numbers : List Nat}
    (placed : (members, numbers) ∈ placeBlocks TypeMembers.methods graph.methods.size
      loads.members) {number : Nat} (among : number ∈ numbers) : graph.methods.size ≤ number := by
  have inside : number ∈ (placeBlocks TypeMembers.methods graph.methods.size
      loads.members).flatMap (·.2) := List.mem_flatMap.mpr ⟨_, placed, among⟩
  rw [flatMap_placeBlocks, List.mem_range'_1] at inside
  exact inside.1

/-- No method is given a body twice. -/
theorem distinct_given (sound : loads.Sound) : (loads.given.map (·.1)).Nodup := by
  rw [sound.methods_given]
  exact List.Nodup.map (fun left right same => MethodId.mk.inj same) List.nodup_range'

variable {bodies : Bodies}

/-- A method that is read for a type is what its text declares. -/
theorem declares_of_entry (sound : loads.Sound)
    (fresh : ∀ method : MethodId, graph.methods.size ≤ method.index → bodies.get? method = none)
    {text : MethodText} {method : MethodId} (entry : (text, method) ∈ loads.entries)
    (new : graph.methods.size ≤ method.index) {type : TypeId}
    (read : readMethod loads.declaredGraph type text = .ok (loads.filledGraph.method method)) :
    (loads.reached bodies).Declares method text := by
  obtain ⟨given, among, body⟩ := exists_mem_left (mapM_eq_ok_iff.mp sound.given).flip entry
  have graphSame := loads.graph_reached bodies
  obtain ⟨parameters, -, later⟩ := bind_eq_ok_iff.mp read
  obtain ⟨returnType, -, same⟩ := bind_eq_ok_iff.mp later
  have decl : loads.filledGraph.method method = _ := (Except.ok.inj same).symm
  refine
    { name := by rw [graphSame, decl]
      access := by rw [graphSame, decl]
      noBody := fun none => ?_
      body := fun bodyText written => ?_ }
  · rw [readGiven, none] at body
    obtain rfl : (method, Option.none) = given := Except.ok.inj body
    refine Option.eq_none_iff_forall_ne_some.mpr fun found present => ?_
    rcases (sound.bodies_reached fresh).mp present with givenToo | old
    · cases List.inj_on_of_nodup_map sound.distinct_given among givenToo rfl
    · rw [fresh method new] at old
      cases old
  · rw [readGiven, written] at body
    obtain ⟨found, readHere, rfl⟩ := map_eq_ok_iff.mp body
    rw [graphSame]
    exact ⟨found, (sound.bodies_reached fresh).mpr (.inl among), readHere⟩

/-- The types of a text have the methods that it declares, in its order. -/
theorem declares (sound : loads.Sound) (known : graph.MembersKnown)
    (fresh : ∀ method : MethodId, graph.methods.size ≤ method.index → bodies.get? method = none) :
    List.Forall₂
      (fun type text => List.Forall₂ (loads.reached bodies).Declares
        ((loads.reached bodies).graph.methodsOf type) text.methods)
      loads.module.types (TypeText.allWithNested texts) := by
  rw [module, ← TypeText.map_text_allPlaces graph.types.size [] texts, ← places,
    List.forall₂_map_left_iff, List.forall₂_map_right_iff, List.forall₂_same]
  intro place among
  have readAll := List.forall₂_map_left_iff.mp (mapM_eq_ok_iff.mp sound.members)
  obtain ⟨members, member, read⟩ := exists_mem_left readAll.flip among
  obtain ⟨numbers, placed⟩ := @exists_placed_of_mem _ _ TypeMembers.methods graph.methods.size
    _ _ member
  obtain ⟨fields, declsRead, -, methodsRead, rfl⟩ := readMembers_eq_ok_iff.mp read
  obtain ⟨methods, decls⟩ := sound.methodsOf_filledGraph known placed
  dsimp only at methods decls
  rw [graph_reached, methods, List.forall₂_map_left_iff]
  rw [← decls] at methodsRead
  have reads := List.forall₂_map_right_iff.mp (mapM_eq_ok_iff.mp methodsRead)
  have pairs := List.forall₂_iff_zip.mp reads
  refine List.Forall₂.flip (List.forall₂_iff_zip.mpr ⟨pairs.1, fun {text number} inside => ?_⟩)
  refine sound.declares_of_entry fresh ?_
    (le_of_mem_placeBlocks placed (List.of_mem_zip inside).2) (pairs.2 inside)
  rw [entries_eq_flatMap, List.mem_flatMap]
  refine ⟨_, placed, ?_⟩
  rw [List.zip_map_right]
  exact List.mem_map.mpr ⟨_, inside, rfl⟩

end Loading.Loads.Sound

end NullWeave
