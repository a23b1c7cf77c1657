import NullWeave.Proofs.Text.LoadedProgram
import NullWeave.Proofs.Text.PrintedBodies
import NullWeave.Proofs.Text.PrintedHeaders

/-!
# Printed modules

The lines of a printed module are read as texts of its types, each with the texts
of its methods in their order, and those of the types nested in it.  The document
that was named last goes from each method to the next one, and into nested types.
-/

namespace NullWeave

/-! ## What texts show -/

namespace Program

variable (program : Program)

/-- What is needed to print the body of a method. -/
def namesOf (method : MethodId) (body : MethodBody) : BodyNames where
  graph := program.graph
  method := program.graph.method method
  body

/-- Is a text what a method is printed as: its modifiers, its name and its body? -/
structure ShowsMethod (method : MethodId) (text : MethodText) : Prop where
  access : text.access = (program.graph.method method).access
  name : text.name = (program.graph.method method).name
  noBody : program.bodies.get? method = none → text.body = none
  body : ∀ body, program.bodies.get? method = some body →
    ∃ bodyText, text.body = some bodyText ∧ (program.namesOf method body).ShowsBody bodyText

/-- Are the methods of a text what those of a type are printed as? -/
def ShowsMethods (type : TypeId) (text : TypeText) : Prop :=
  List.Forall₂ program.ShowsMethod (program.graph.methodsOf type) text.methods

/-- Can the method be read again when it is printed? -/
structure PrintsMethod (method : MethodId) : Prop where
  known : program.graph.MethodKnown (program.graph.method method)
  marks : ∀ mark ∈ (program.graph.method method).returnAttributes, isName mark.name = true
  hasBody : (program.bodies.get? method).isSome =
    !(program.graph.method method).access.isAbstract
  distinct : ∀ body, program.bodies.get? method = some body →
    (identities body.instructions).Nodup

end Program

/-- A type with the types nested in it, down to a depth, each before those that it encloses. -/
def Graph.preorder (graph : Graph) : Nat → TypeId → List TypeId
  | 0, _ => []
  | depth + 1, type => type :: (graph.nestedTypes type).flatMap (graph.preorder depth)

/-- Has a type more nested types than another one, which show these and those nested in them? -/
def TypeText.AddsTypes (program : Program) (depth : Nat) (text : TypeText) (types : List TypeId)
    (more : TypeText) : Prop :=
  more.methods = text.methods ∧ ∃ texts, more.nested = text.nested ++ texts ∧
    List.Forall₂ program.ShowsMethods (types.flatMap (program.graph.preorder depth))
      (allWithNested texts)

/-- Has a type more methods than another one, which show these? -/
def TypeText.AddsMethods (program : Program) (text : TypeText) (methods : List MethodId)
    (more : TypeText) : Prop :=
  more.nested = text.nested ∧ ∃ texts, more.methods = text.methods ++ texts ∧
    List.Forall₂ program.ShowsMethod methods texts

namespace Printing

open ModuleReader

variable {program : Program} {level : Nat} {document after : Option String}
variable {printed : List PrintedLine} {lines rest : List NumberedLine}

/-! ## Single lines -/

theorem exists_of_cut_attribute {mark : Attribute} {line : NumberedLine}
    (cut : (PrintedLine.mk level ("[" ++ mark.written ++ "]")).CutAs line) :
    ∃ words, line.lexemes = .mark '[' :: words := by
  rw [PrintedLine.CutAs, String.append_assoc, String.toList_append] at cut
  change lexLine ('[' :: (mark.written ++ "]").toList) = _ at cut
  rw [lexLine_singleMark (by decide) (by decide)] at cut
  obtain ⟨words, -, same⟩ := map_eq_ok_iff.mp cut
  exact ⟨words, same.symm⟩

theorem exists_of_cut_name {word : String} (named : isName word = true) {text : String}
    {front : List Char} (begins : text.toList = word.toList ++ ' ' :: front)
    {line : NumberedLine} (cut : (PrintedLine.mk level text).CutAs line) :
    ∃ words, line.lexemes = .name word :: words := by
  rw [PrintedLine.CutAs, begins, lexLine_nextName named] at cut
  obtain ⟨words, -, same⟩ := map_eq_ok_iff.mp cut
  exact ⟨words, same.symm⟩

theorem eq_of_cut_end {line : NumberedLine} (cut : (PrintedLine.mk level ".end").CutAs line) :
    line.lexemes = [.name ".end"] := by
  have named : isName ".end" = true := by decide
  exact Except.ok.inj (cut.symm.trans (lexLine_mnemonic named))

/-! ## Types -/

section Types

variable {pending : List Attribute} {type : TypeText} {result : TypeText × ModuleText}

theorem reads_attributeLines {marks : List Attribute}
    (cut : List.Forall₂ PrintedLine.CutAs (attributeLines level marks) lines)
    (reads : ReadsType pending type ⟨lines ++ rest, document⟩ result) :
    ∃ more, ReadsType more type ⟨rest, document⟩ result := by
  induction marks generalizing pending lines with
  | nil =>
      cases cut
      exact ⟨pending, reads⟩
  | cons mark marks inductionHypothesis =>
      obtain ⟨⟨number, words⟩, others, here, later, rfl⟩ := List.forall₂_cons_left_iff.mp cut
      obtain ⟨behind, rfl⟩ := exists_of_cut_attribute here
      obtain ⟨more, goesOn⟩ := reads.attributes
      exact inductionHypothesis later goesOn

/-- A method is printed as its attributes, its first line, its body and its end. -/
theorem exists_of_run_methodLines {method : MethodId}
    (run : (methodLines program level method).run document = (printed, after)) :
    ∃ code, printed = attributeLines level (program.graph.method method).attributes ++
        (⟨level, program.graph.methodHeaderWritten (program.graph.method method)⟩ ::
          (code ++ [⟨level, ".end"⟩])) ∧
      (program.bodies.get? method = none → code = [] ∧ after = document) ∧
      ∀ body, program.bodies.get? method = some body →
        (bodyLines (program.namesOf method body) (level + 1)).run document = (code, after) := by
  rw [methodLines] at run
  cases present : program.bodies.get? method with
  | none =>
      rw [present] at run
      cases run
      exact ⟨[], by simp, fun _ => ⟨rfl, rfl⟩, nofun⟩
  | some body =>
      rw [present] at run
      obtain ⟨code, last, runBody, run⟩ := exists_of_run_bind run
      cases run
      refine ⟨code, by simp, nofun, fun other same => ?_⟩
      cases same
      exact runBody

/-- Behind the first line of a method, its body is read as one that shows it, if it has one. -/
theorem showsMethod_of_readsMethod (spelled : program.graph.IsSpelled) {method : MethodId}
    (prints : program.PrintsMethod method) {header text : MethodText}
    (access : header.access = (program.graph.method method).access)
    (name : header.name = (program.graph.method method).name) (empty : header.body = none)
    (withoutBody : program.bodies.get? method = none → printed = [] ∧ after = document)
    (withBody : ∀ body, program.bodies.get? method = some body →
      (bodyLines (program.namesOf method body) (level + 1)).run document = (printed, after))
    (cut : List.Forall₂ PrintedLine.CutAs printed lines) {number : Nat} {left : ModuleText}
    (reads : ReadsMethod header {}
      ⟨lines ++ ⟨number, [.name ".end"]⟩ :: rest, document⟩ (text, left)) :
    program.ShowsMethod method text ∧ left = ⟨rest, after⟩ := by
  have hasBody := prints.hasBody
  cases present : program.bodies.get? method with
  | none =>
      rw [present] at hasBody
      obtain ⟨rfl, rfl⟩ := withoutBody present
      cases cut
      have abstract : header.access.isAbstract = true := by
        rw [access]
        simpa using hasBody
      have finished := reads.finish
      rw [abstract, if_pos rfl] at finished
      cases finished
      refine ⟨⟨access, name, fun _ => empty, fun given there => ?_⟩, rfl⟩
      rw [present] at there
      cases there
  | some given =>
      rw [present] at hasBody
      have concrete : header.access.isAbstract = false := by
        rw [access]
        simpa using hasBody
      obtain ⟨bodyText, shows, further⟩ :=
        reads_bodyLines spelled (prints.distinct given present) (withBody given present) cut reads
      have finished := further.finish
      rw [concrete, if_neg Bool.false_ne_true] at finished
      cases finished
      refine ⟨⟨access, name, fun missing => ?_, fun other there => ?_⟩, rfl⟩
      · rw [present] at missing
        cases missing
      · rw [present] at there
        cases there
        exact ⟨bodyText, rfl, shows⟩

/-- The lines of a method are read as a text that shows it. -/
theorem reads_methodLines (spelled : program.graph.IsSpelled) {method : MethodId}
    (prints : program.PrintsMethod method)
    (run : (methodLines program level method).run document = (printed, after))
    (cut : List.Forall₂ PrintedLine.CutAs printed lines)
    (reads : ReadsType pending type ⟨lines ++ rest, document⟩ result) :
    ∃ text, program.ShowsMethod method text ∧
      ReadsType [] (type.addMethod text) ⟨rest, after⟩ result := by
  obtain ⟨code, rfl, withoutBody, withBody⟩ := exists_of_run_methodLines run
  obtain ⟨marks, back, rfl, cutMarks, cutBack⟩ := exists_append_of_forall₂ cut
  obtain ⟨⟨number, words⟩, back, cutHeader, cutBehind, rfl⟩ :=
    List.forall₂_cons_left_iff.mp cutBack
  obtain ⟨codeLines, back, rfl, cutCode, cutEnd⟩ := exists_append_of_forall₂ cutBehind
  obtain ⟨⟨endNumber, endWords⟩, none, cutLast, nothing, rfl⟩ :=
    List.forall₂_cons_left_iff.mp cutEnd
  cases nothing
  obtain rfl : endWords = _ := eq_of_cut_end cutLast
  rw [List.append_assoc] at reads
  obtain ⟨more, goesOn⟩ := reads_attributeLines cutMarks reads
  obtain ⟨headerWords, rfl, readsHeader⟩ :=
    Graph.reads_methodHeaderWritten spelled prints.known prints.marks cutHeader
  obtain ⟨header, remaining, text, left, ran, body, goesOn⟩ := goesOn.method
  obtain ⟨access, name, empty⟩ := readsHeader _ _ _ _ ran
  change ReadsMethod header {} ⟨(codeLines ++ [_]) ++ rest, document⟩ _ at body
  rw [List.append_assoc] at body
  obtain ⟨shows, rfl⟩ := showsMethod_of_readsMethod spelled prints access name empty withoutBody
    withBody cutCode body
  exact ⟨text, shows, goesOn⟩

theorem reads_methodsLines (spelled : program.graph.IsSpelled) {methods : List MethodId}
    (prints : ∀ method ∈ methods, program.PrintsMethod method)
    {pieces : List (List PrintedLine)}
    (run : (methods.mapM (methodLines program level)).run document = (pieces, after))
    (cut : List.Forall₂ PrintedLine.CutAs pieces.flatten lines)
    (reads : ReadsType [] type ⟨lines ++ rest, document⟩ result) :
    ∃ more, type.AddsMethods program methods more ∧ ReadsType [] more ⟨rest, after⟩ result := by
  refine reads_mapM (fun type text => ReadsType [] type text result)
    (TypeText.AddsMethods program) (fun type => ⟨rfl, [], (List.append_nil _).symm, .nil⟩)
    ?_ ?_ run cut reads
  · rintro start method between methods last ⟨nested, texts, added, shows⟩
      ⟨nestedToo, others, addedToo, showsToo⟩
    refine ⟨nestedToo.trans nested, texts ++ others, ?_, List.rel_append shows showsToo⟩
    rw [addedToo, added, List.append_assoc]
  · intro method member start document after printed lines rest run cut reads
    obtain ⟨text, shows, goesOn⟩ := reads_methodLines spelled (prints method member) run cut reads
    exact ⟨start.addMethod text, ⟨rfl, [text], rfl, .cons shows .nil⟩, goesOn⟩

theorem reads_fieldLines {fields : List FieldId}
    (cut : List.Forall₂ PrintedLine.CutAs
      (fields.map fun field =>
        PrintedLine.mk level (program.graph.fieldLineWritten (program.graph.field field))) lines)
    (reads : ReadsType [] type ⟨lines ++ rest, document⟩ result) :
    ∃ more, more.methods = type.methods ∧ more.nested = type.nested ∧
      ReadsType [] more ⟨rest, document⟩ result := by
  induction fields generalizing type lines with
  | nil =>
      cases cut
      exact ⟨type, rfl, rfl, reads⟩
  | cons field fields inductionHypothesis =>
      obtain ⟨⟨number, words⟩, others, here, later, rfl⟩ := List.forall₂_cons_left_iff.mp cut
      obtain ⟨front, begins⟩ :=
        program.graph.exists_toList_fieldLineWritten (program.graph.field field)
      obtain ⟨behind, rfl⟩ := exists_of_cut_name (by decide) begins here
      obtain ⟨added, goesOn⟩ := reads.field
      obtain ⟨more, methods, nested, further⟩ := inductionHypothesis later goesOn
      exact ⟨more, methods, nested, further⟩

/-- Are the lines of nested types read as texts that show them, down to a depth? -/
def ReadsNested (program : Program) (depth : Nat) (types : List TypeId) : Prop :=
  ∀ {level document after pieces lines rest outer result},
    (types.mapM (typeLines program depth level)).run document = (pieces, after) →
      List.Forall₂ PrintedLine.CutAs pieces.flatten lines →
        ReadsType [] outer ⟨lines ++ rest, document⟩ result →
          ∃ more, outer.AddsTypes program depth types more ∧ ReadsType [] more ⟨rest, after⟩ result

/-- The lines of a type go on, behind its first line, with its members. -/
theorem exists_of_run_typeLines {depth : Nat} {id : TypeId}
    (run : (typeLines program (depth + 1) level id).run document = (printed, after)) :
    ∃ methodPieces between nestedPieces,
      ((program.graph.methodsOf id).mapM (methodLines program (level + 1))).run document =
          (methodPieces, between) ∧
        ((program.graph.nestedTypes id).mapM (typeLines program depth (level + 1))).run between =
            (nestedPieces, after) ∧
          printed = attributeLines level (program.graph.type id).attributes ++
            (⟨level, program.graph.typeHeaderWritten id⟩ ::
              ((program.graph.fieldsOf id).map (fun field =>
                  PrintedLine.mk (level + 1)
                    (program.graph.fieldLineWritten (program.graph.field field))) ++
                (methodPieces.flatten ++ (nestedPieces.flatten ++ [⟨level, ".end"⟩])))) := by
  obtain ⟨methodPieces, between, methods, run⟩ := exists_of_run_bind run
  obtain ⟨nestedPieces, last, nested, run⟩ := exists_of_run_bind run
  cases run
  exact ⟨methodPieces, between, nestedPieces, methods, nested, by simp⟩

/-- The members of a type are read as a text that shows it and the types nested in it. -/
theorem reads_typeLines (spelled : program.graph.IsSpelled) {depth : Nat} {id : TypeId}
    (prints : ∀ method ∈ program.graph.methodsOf id, program.PrintsMethod method)
    (nested : ReadsNested program depth (program.graph.nestedTypes id))
    (run : (typeLines program (depth + 1) level id).run document = (printed, after))
    (cut : List.Forall₂ PrintedLine.CutAs printed lines) :
    ∃ marks number words members,
      List.Forall₂ PrintedLine.CutAs
          (attributeLines level (program.graph.type id).attributes) marks ∧
        lines = marks ++ ⟨number, .name (program.graph.type id).kind.directive :: words⟩ ::
          members ∧
        ∀ {header inner left rest},
          ReadsType [] (.ofHeader header) ⟨members ++ rest, document⟩ (inner, left) →
            List.Forall₂ program.ShowsMethods (program.graph.preorder (depth + 1) id)
                inner.withNested ∧
              left = ⟨rest, after⟩ := by
  obtain ⟨methodPieces, between, nestedPieces, runMethods, runNested, rfl⟩ :=
    exists_of_run_typeLines run
  obtain ⟨marks, back, rfl, cutMarks, cutBack⟩ := exists_append_of_forall₂ cut
  obtain ⟨⟨number, headerWords⟩, members, cutHeader, cutMembers, rfl⟩ :=
    List.forall₂_cons_left_iff.mp cutBack
  obtain ⟨front, begins⟩ := program.graph.exists_toList_typeHeaderWritten id
  obtain ⟨words, rfl⟩ := exists_of_cut_name (by cases (program.graph.type id).kind <;> decide)
    begins cutHeader
  refine ⟨marks, number, words, members, cutMarks, rfl, fun reads => ?_⟩
  obtain ⟨fieldLines, back, rfl, cutFields, cutBack⟩ := exists_append_of_forall₂ cutMembers
  obtain ⟨ofMethods, back, rfl, cutMethods, cutBack⟩ := exists_append_of_forall₂ cutBack
  obtain ⟨ofNested, back, rfl, cutNested, cutEnd⟩ := exists_append_of_forall₂ cutBack
  obtain ⟨⟨endNumber, endWords⟩, none, cutLast, nothing, rfl⟩ :=
    List.forall₂_cons_left_iff.mp cutEnd
  cases nothing
  obtain rfl : endWords = _ := eq_of_cut_end cutLast
  simp only [List.append_assoc] at reads
  obtain ⟨withFields, noMethods, noNested, goesOn⟩ := reads_fieldLines cutFields reads
  obtain ⟨withMethods, ⟨sameNested, texts, methods, shows⟩, goesOn⟩ :=
    reads_methodsLines spelled prints runMethods cutMethods goesOn
  obtain ⟨whole, ⟨sameMethods, others, inside, showsNested⟩, goesOn⟩ :=
    nested runNested cutNested goesOn
  cases goesOn.finish
  refine ⟨?_, rfl⟩
  rw [TypeText.withNested_eq, inside, sameNested, noNested]
  refine .cons ?_ showsNested
  rw [Program.ShowsMethods, sameMethods, methods, noMethods]
  exact shows

theorem addsTypes_nil (depth : Nat) (outer : TypeText) :
    outer.AddsTypes program depth [] outer :=
  ⟨rfl, [], (List.append_nil _).symm, .nil⟩

theorem addsTypes_cons {depth : Nat} {outer between last : TypeText} {id : TypeId}
    {types : List TypeId} (first : outer.AddsTypes program depth [id] between)
    (later : between.AddsTypes program depth types last) :
    outer.AddsTypes program depth (id :: types) last := by
  obtain ⟨methods, texts, nested, shows⟩ := first
  obtain ⟨methodsToo, others, nestedToo, showsToo⟩ := later
  refine ⟨methodsToo.trans methods, texts ++ others, ?_, ?_⟩
  · rw [nestedToo, nested, List.append_assoc]
  · rw [TypeText.allWithNested_append, ← List.singleton_append, List.flatMap_append]
    exact List.rel_append shows showsToo

/-- What holds in all of a type with those nested in it holds in the one and in the others. -/
theorem forall_mem_preorder {depth : Nat} {id : TypeId} {holds : TypeId → Prop}
    (all : ∀ type ∈ program.graph.preorder (depth + 1) id, holds type) :
    holds id ∧ ∀ type ∈ (program.graph.nestedTypes id).flatMap (program.graph.preorder depth),
      holds type :=
  List.forall_mem_cons.mp all

/-- The lines of nested types are read, down to any depth. -/
theorem readsNested (spelled : program.graph.IsSpelled) (depth : Nat) (types : List TypeId)
    (prints : ∀ type ∈ types.flatMap (program.graph.preorder depth),
      ∀ method ∈ program.graph.methodsOf type, program.PrintsMethod method) :
    ReadsNested program depth types := by
  induction depth generalizing types with
  | zero =>
      intro level document after pieces lines rest outer result run cut reads
      refine reads_mapM (fun outer text => ReadsType [] outer text result)
        (TypeText.AddsTypes program 0) (addsTypes_nil 0)
        (fun _ _ _ _ _ first later => addsTypes_cons first later) ?_ run cut reads
      intro id _ start document after printed lines rest run cut reads
      cases run
      cases cut
      exact ⟨start, ⟨rfl, [], (List.append_nil _).symm, .nil⟩, reads⟩
  | succ depth inductionHypothesis =>
      intro level document after pieces lines rest outer result run cut reads
      refine reads_mapM (fun outer text => ReadsType [] outer text result)
        (TypeText.AddsTypes program (depth + 1)) (addsTypes_nil (depth + 1))
        (fun _ _ _ _ _ first later => addsTypes_cons first later) ?_ run cut reads
      intro id member start document after printed lines rest run cut reads
      obtain ⟨here, inside⟩ := forall_mem_preorder fun type among =>
        prints type (List.mem_flatMap.mpr ⟨id, member, among⟩)
      obtain ⟨marks, number, words, members, cutMarks, rfl, readsMembers⟩ :=
        reads_typeLines spelled here (inductionHypothesis _ inside) run cut
      rw [List.append_assoc] at reads
      obtain ⟨more, goesOn⟩ := reads_attributeLines cutMarks reads
      obtain ⟨header, inner, left, readsInner, goesOn⟩ := goesOn.nested
      obtain ⟨shows, rfl⟩ := readsMembers readsInner
      refine ⟨start.addNested inner, ⟨rfl, [inner], rfl, ?_⟩, goesOn⟩
      rw [List.flatMap_singleton, TypeText.allWithNested_eq_flatMap, List.flatMap_singleton]
      exact shows

end Types

/-! ## Modules -/

section Modules

variable {pending : List Attribute} {texts : List TypeText}

theorem readsTypes_attributeLines {marks : List Attribute}
    (cut : List.Forall₂ PrintedLine.CutAs (attributeLines level marks) lines)
    (reads : ReadsTypes pending ⟨lines ++ rest, document⟩ texts) :
    ∃ more, ReadsTypes more ⟨rest, document⟩ texts := by
  induction marks generalizing pending lines with
  | nil =>
      cases cut
      exact ⟨pending, reads⟩
  | cons mark marks inductionHypothesis =>
      obtain ⟨⟨number, words⟩, others, here, later, rfl⟩ := List.forall₂_cons_left_iff.mp cut
      obtain ⟨behind, rfl⟩ := exists_of_cut_attribute here
      obtain ⟨more, goesOn⟩ := reads.attributes
      exact inductionHypothesis later goesOn

/-- The lines of types are read as texts that show them and those nested in them. -/
theorem reads_typesLines (spelled : program.graph.IsSpelled) {depth : Nat} {types : List TypeId}
    (prints : ∀ type ∈ types.flatMap (program.graph.preorder (depth + 1)),
      ∀ method ∈ program.graph.methodsOf type, program.PrintsMethod method)
    {pieces : List (List PrintedLine)}
    (run : (types.mapM (typeLines program (depth + 1) level)).run document = (pieces, after))
    (cut : List.Forall₂ PrintedLine.CutAs pieces.flatten lines)
    (reads : ReadsTypes [] ⟨lines, document⟩ texts) :
    List.Forall₂ program.ShowsMethods (types.flatMap (program.graph.preorder (depth + 1)))
      (TypeText.allWithNested texts) := by
  have begins : ReadsTypes [] ⟨lines ++ [], document⟩ texts := by rwa [List.append_nil]
  suffices step : ∃ last, (∃ front, texts = front ++ last ∧
      List.Forall₂ program.ShowsMethods (types.flatMap (program.graph.preorder (depth + 1)))
        (TypeText.allWithNested front)) ∧ ReadsTypes [] ⟨[], after⟩ last by
    obtain ⟨last, ⟨front, rfl, shows⟩, ends⟩ := step
    rwa [ends.finish, List.append_nil]
  refine reads_mapM (fun texts text => ReadsTypes [] text texts)
    (fun texts types others => ∃ front, texts = front ++ others ∧
      List.Forall₂ program.ShowsMethods (types.flatMap (program.graph.preorder (depth + 1)))
        (TypeText.allWithNested front))
    (fun _ => ⟨[], rfl, .nil⟩) ?_ ?_ run cut begins
  · rintro texts id between types others ⟨front, rfl, shows⟩ ⟨behind, rfl, showsToo⟩
    refine ⟨front ++ behind, (List.append_assoc ..).symm, ?_⟩
    rw [TypeText.allWithNested_append, ← List.singleton_append, List.flatMap_append]
    exact List.rel_append shows showsToo
  · intro id member texts document after printed lines rest run cut reads
    obtain ⟨here, inside⟩ := forall_mem_preorder fun type among =>
      prints type (List.mem_flatMap.mpr ⟨id, member, among⟩)
    obtain ⟨marks, number, words, members, cutMarks, rfl, readsMembers⟩ :=
      reads_typeLines spelled here (readsNested spelled depth _ inside) run cut
    rw [List.append_assoc] at reads
    obtain ⟨more, goesOn⟩ := readsTypes_attributeLines cutMarks reads
    obtain ⟨header, first, left, others, rfl, readsFirst, goesOn⟩ := goesOn.type
    obtain ⟨shows, rfl⟩ := readsMembers readsFirst
    refine ⟨others, ⟨[first], rfl, ?_⟩, goesOn ?_⟩
    · rw [List.flatMap_singleton, TypeText.allWithNested_eq_flatMap, List.flatMap_singleton]
      exact shows
    · exact (List.suffix_append members rest).length_le

end Modules

end Printing

end NullWeave
