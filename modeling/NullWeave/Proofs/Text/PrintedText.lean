import NullWeave.Proofs.Outcomes
import NullWeave.Proofs.Text.PrintedModules
import NullWeave.Proofs.Text.SeparateBlocks
import NullWeave.Proofs.Text.UnbrokenLines

/-!
# Printed texts

The text of a module is cut back into the lines that were printed: no line is
broken, and none of them is without words.
-/

namespace NullWeave

/-! ## Lines that stand for themselves -/

/-- Does a line begin with a character that a word begins with? -/
def beginsLine (text : String) : Bool :=
  text.toList.head?.any fun c => beginsName c || c == '['

theorem beginsLine_append {first : String} (begins : beginsLine first = true) (second : String) :
    beginsLine (first ++ second) = true := by
  rw [beginsLine, String.toList_append]
  cases shown : first.toList with
  | nil =>
      rw [beginsLine, shown] at begins
      cases begins
  | cons c rest =>
      rw [beginsLine, shown] at begins
      exact begins

theorem beginsLine_of_isName {text : String} (named : isName text = true) :
    beginsLine text = true := by
  rw [isName] at named
  rw [beginsLine]
  split at named
  · cases named
  · rename_i c rest shown
    rw [shown]
    simp [(Bool.and_eq_true_iff.mp named).1]

/-- Is a printed line in one line, and does it have words if it can be cut into them? -/
structure PrintedLine.Stands (line : PrintedLine) : Prop where
  unbroken : IsUnbroken line.text
  begins : beginsLine line.text = true

theorem PrintedLine.Stands.words_ne_nil {line : PrintedLine} (stands : line.Stands)
    {words : List Lexeme} (cut : lexLine line.text.toList = .ok words) : words ≠ [] := by
  have begins := stands.begins
  rw [beginsLine] at begins
  cases shown : line.text.toList with
  | nil =>
      rw [shown] at begins
      cases begins
  | cons c rest =>
      rw [shown] at begins cut
      rcases Bool.or_eq_true_iff.mp begins with name | bracket
      · rw [lexLine_of_beginsName name] at cut
        obtain ⟨others, -, rfl⟩ := map_eq_ok_iff.mp cut
        exact List.cons_ne_nil _ _
      · rw [beq_iff_eq.mp bracket, lexLine_singleMark (by decide) (by decide)] at cut
        obtain ⟨others, -, rfl⟩ := map_eq_ok_iff.mp cut
        exact List.cons_ne_nil _ _

theorem beginsLine_of_toList {word text : String} {behind : List Char}
    (shown : text.toList = word.toList ++ behind) (begins : beginsLine word = true) :
    beginsLine text = true := by
  have same : text = word ++ String.ofList behind := by
    rw [← String.toList_inj, String.toList_append, String.toList_ofList, shown]
  exact same ▸ beginsLine_append begins _

/-! ## Lines that are printed -/

/-- Can the lines of a program be cut off again when they are printed? -/
structure Program.Printable (program : Program) : Prop where
  spelled : program.graph.IsSpelled
  members : program.graph.MembersKnown
  marked : program.graph.Marked
  bodies : ∀ method body, program.bodies.get? method = some body → program.graph.KnowsBody body

namespace Printing

/-- Do all printed lines stand for themselves, whatever document was named last? -/
def AllStand (printing : Printing (List PrintedLine)) : Prop :=
  ∀ document, ∀ line ∈ (printing.run document).1, line.Stands

/-- Lines that are printed item by item stand for themselves if those of each item do. -/
theorem stands_of_mem_mapM {α : Type} {lay : α → Printing (List PrintedLine)} {items : List α}
    (each : ∀ item ∈ items, AllStand (lay item)) (document : Option String) :
    ∀ line ∈ ((items.mapM lay).run document).1.flatten, line.Stands := by
  induction items generalizing document with
  | nil =>
      exact List.forall_mem_nil _
  | cons item items inductionHypothesis =>
      obtain ⟨here, later⟩ := List.forall_mem_cons.mp each
      rw [List.mapM_cons]
      exact List.forall_mem_append.mpr ⟨here document, inductionHypothesis later _⟩

theorem stands_attributeLine {level : Nat} {marks : List Attribute}
    (named : ∀ mark ∈ marks, isName mark.name = true) :
    ∀ line ∈ attributeLines level marks, line.Stands := by
  intro line member
  obtain ⟨mark, among, rfl⟩ := List.mem_map.mp member
  exact ⟨isUnbroken_append.mpr ⟨isUnbroken_append.mpr ⟨by decide,
    Attribute.isUnbroken_written (named mark among)⟩, by decide⟩,
      beginsLine_append (beginsLine_append (by decide) _) _⟩

theorem stands_end (level : Nat) : (PrintedLine.mk level ".end").Stands :=
  have unbroken : IsUnbroken ".end" := by decide
  have begins : beginsLine ".end" = true := by decide
  ⟨unbroken, begins⟩

theorem allStand_pointLines (level : Nat) (point : SequencePoint) :
    AllStand (pointLines level point) := by
  have place : (PrintedLine.mk level point.written).Stands := by
    refine ⟨point.isUnbroken_written, ?_⟩
    change beginsLine point.written = true
    rw [SequencePoint.written]
    split
    · decide
    · rw [String.intercalate_cons_cons]
      exact beginsLine_append (beginsLine_append (by decide) _) _
  intro document
  change ∀ line ∈ ((if document = some point.document then pure _ else _ :
    Printing (List PrintedLine)).run document).1, line.Stands
  split
  · exact List.forall_mem_singleton.mpr place
  · refine List.forall_mem_cons.mpr ⟨⟨?_, beginsLine_append (by decide) _⟩,
      List.forall_mem_singleton.mpr place⟩
    exact isUnbroken_append.mpr ⟨by decide, isUnbroken_write point.document⟩

section Bodies

variable {names : BodyNames} (spelled : names.graph.IsSpelled)
variable (members : names.graph.MembersKnown)

theorem beginsLine_operationWritten (operation : Operation) :
    beginsLine (names.operationWritten operation) = true := by
  have mnemonic := BodyNames.isName_mnemonicWritten operation
  cases operation with
  | branch kind form target =>
      exact beginsLine_append (beginsLine_append (beginsLine_of_isName mnemonic) _) _
  | switch targets =>
      exact beginsLine_append (beginsLine_append (by decide) _) _
  | ldStr _ | ldcI4 _ | ldArg _ | ldArgA _ | stArg _ | ldLoc _ | ldLocA _ | stLoc _ | ldObj _
  | box _ | ldFld _ | ldFldA _ | stFld _ | call _ | callVirt _ | newObj _ =>
      exact beginsLine_append (by decide) _
  | _ =>
      exact beginsLine_of_isName mnemonic

include spelled members

theorem allStand_instructionLines (level : Nat) (labelled : List InstrId) (index : Nat)
    {instructions : List Instruction}
    (known : ∀ instruction ∈ instructions, names.graph.KnowsOperation instruction.operation) :
    AllStand (instructionLines names level labelled index instructions) := by
  induction instructions generalizing index with
  | nil =>
      exact fun _ => List.forall_mem_nil _
  | cons instruction rest inductionHypothesis =>
      obtain ⟨here, later⟩ := List.forall_mem_cons.mp known
      intro document
      have unbroken := names.isUnbroken_operationWritten spelled members here
      rw [instructionLines]
      refine List.forall_mem_append.mpr ⟨stands_of_mem_mapM
        (fun point _ => allStand_pointLines level point) document,
          List.forall_mem_cons.mpr ⟨?_, inductionHypothesis (index + 1) later _⟩⟩
      split
      · exact ⟨isUnbroken_append.mpr ⟨isUnbroken_append.mpr
          ⟨names.isUnbroken_labelWritten _, by decide⟩, unbroken⟩,
            beginsLine_append (beginsLine_append
              (beginsLine_of_isName (names.isName_labelWritten _)) _) _⟩
      · exact ⟨unbroken, beginsLine_operationWritten _⟩

theorem allStand_bodyLines (level : Nat) (known : names.graph.KnowsBody names.body) :
    AllStand (bodyLines names level) := by
  intro document
  refine List.forall_mem_append.mpr ⟨fun line member => ?_,
    allStand_instructionLines spelled members level _ 0 known.instructions document⟩
  obtain ⟨text, among, rfl⟩ := List.mem_map.mp member
  rcases List.mem_append.mp among with declared | handled
  · refine ⟨BodyNames.isUnbroken_localsWritten spelled known declared, ?_⟩
    rw [BodyNames.localsWritten] at declared
    split at declared
    · cases declared
    · rw [List.mem_singleton.mp declared]
      exact beginsLine_append (beginsLine_append (beginsLine_append
        (beginsLine_append (by decide) _) _) _) _
  · obtain ⟨handler, -, rfl⟩ := List.mem_map.mp handled
    refine ⟨names.isUnbroken_handlerWritten spelled handler, ?_⟩
    exact beginsLine_of_toList (names.toList_handlerWritten handler)
      (show beginsLine ".try" = true by decide)

end Bodies

section Modules

variable {program : Program} (printable : program.Printable)

include printable

theorem allStand_methodLines (level : Nat) (method : MethodId) :
    AllStand (methodLines program level method) := by
  have marks := printable.marked.method method
  have header : (PrintedLine.mk level
      (program.graph.methodHeaderWritten (program.graph.method method))).Stands := by
    obtain ⟨behind, shown⟩ :=
      @Graph.toList_methodHeaderWritten program.graph (program.graph.method method)
    exact ⟨Graph.isUnbroken_methodHeaderWritten printable.spelled printable.members
      printable.marked method, beginsLine_of_toList shown (by decide)⟩
  intro document
  obtain ⟨code, same, withoutBody, withBody⟩ := @exists_of_run_methodLines program level document
    ((methodLines program level method).run document).2
    ((methodLines program level method).run document).1 method rfl
  rw [same]
  refine List.forall_mem_append.mpr ⟨stands_attributeLine marks.attributes,
    List.forall_mem_cons.mpr ⟨header, List.forall_mem_append.mpr ⟨?_,
      List.forall_mem_singleton.mpr (stands_end level)⟩⟩⟩
  cases present : program.bodies.get? method with
  | none =>
      rw [(withoutBody present).1]
      exact List.forall_mem_nil _
  | some body =>
      have known : (program.namesOf method body).graph.KnowsBody body :=
        printable.bodies method body present
      have stand :=
        allStand_bodyLines printable.spelled printable.members (level + 1) known document
      rwa [withBody body present] at stand

theorem allStand_typeLines (depth level : Nat) (type : TypeId) :
    AllStand (typeLines program depth level type) := by
  induction depth generalizing level type with
  | zero =>
      exact fun _ => List.forall_mem_nil _
  | succ depth inductionHypothesis =>
      intro document
      obtain ⟨methodPieces, between, nestedPieces, methods, nested, same⟩ :=
        @exists_of_run_typeLines program level document
          ((typeLines program (depth + 1) level type).run document).2
          ((typeLines program (depth + 1) level type).run document).1 depth type rfl
      have methodsStand := stands_of_mem_mapM
        (fun method (_ : method ∈ program.graph.methodsOf type) =>
          allStand_methodLines printable (level + 1) method) document
      have nestedStand := stands_of_mem_mapM
        (fun inner (_ : inner ∈ program.graph.nestedTypes type) =>
          inductionHypothesis (level + 1) inner) between
      rw [methods] at methodsStand
      rw [nested] at nestedStand
      obtain ⟨front, shown⟩ := program.graph.exists_toList_typeHeaderWritten type
      have header : (PrintedLine.mk level (program.graph.typeHeaderWritten type)).Stands := by
        refine ⟨Graph.isUnbroken_typeHeaderWritten printable.spelled printable.marked type,
          beginsLine_of_toList shown ?_⟩
        cases (program.graph.type type).kind <;> decide
      rw [same]
      refine List.forall_mem_append.mpr
        ⟨stands_attributeLine (printable.marked.type type).attributes,
          List.forall_mem_cons.mpr ⟨header, List.forall_mem_append.mpr ⟨fun line member => ?_,
            List.forall_mem_append.mpr ⟨methodsStand, List.forall_mem_append.mpr
              ⟨nestedStand, List.forall_mem_singleton.mpr (stands_end level)⟩⟩⟩⟩⟩
      obtain ⟨field, among, rfl⟩ := List.mem_map.mp member
      obtain ⟨front, shown⟩ :=
        program.graph.exists_toList_fieldLineWritten (program.graph.field field)
      exact ⟨Graph.isUnbroken_fieldLineWritten printable.spelled printable.members
        (Graph.mem_fieldsOf.mp among).1, beginsLine_of_toList shown (by decide)⟩

end Modules

end Printing

/-! ## Cutting the text -/

/-- Characters of one line and a line feed are that line. -/
theorem splitLines_unbroken {chars : List Char} (unbroken : ∀ c ∈ chars, c ∉ ['\n', '\r']) :
    splitLines (chars ++ ['\n']) = [chars] := by
  induction chars with
  | nil =>
      rfl
  | cons c chars inductionHypothesis =>
      obtain ⟨here, later⟩ := List.forall_mem_cons.mp unbroken
      simp only [List.mem_cons, List.not_mem_nil, or_false, not_or] at here
      exact splitLines_cons here.1 (fun isReturn => absurd isReturn here.2)
        (inductionHypothesis later)

/-- A printed line as characters, without the line feed behind it. -/
def PrintedLine.chars (line : PrintedLine) : List Char :=
  List.replicate (2 * line.level) ' ' ++ line.text.toList

theorem toList_pushn (text : String) (c : Char) (count : Nat) :
    (text.pushn c count).toList = text.toList ++ List.replicate count c := by
  induction count with
  | zero =>
      exact (List.append_nil _).symm
  | succ count inductionHypothesis =>
      change ((text.pushn c count).push c).toList = _
      rw [String.toList_push, inductionHypothesis, List.append_assoc, List.replicate_succ']

theorem PrintedLine.toList_render (line : PrintedLine) :
    line.render.toList = line.chars ++ ['\n'] := by
  rw [render, String.toList_append, String.toList_append, toList_pushn]
  rfl

theorem PrintedLine.lexLine_chars (line : PrintedLine) :
    lexLine line.chars = lexLine line.text.toList := by
  rw [chars]
  induction 2 * line.level with
  | zero =>
      rfl
  | succ count inductionHypothesis =>
      rw [List.replicate_succ, List.cons_append, lexLine_blank, inductionHypothesis]

theorem PrintedLine.Stands.splitLines_render {line : PrintedLine} (stands : line.Stands) :
    splitLines line.render.toList = [line.chars] := by
  rw [line.toList_render]
  refine splitLines_unbroken fun c member => ?_
  rcases List.mem_append.mp member with blank | inText
  · rw [List.eq_of_mem_replicate blank]
    decide
  · exact stands.unbroken c inText

/-- A text that is put together with nothing between its parts. -/
theorem intercalate_nothing (texts : List String) : "".intercalate texts = String.join texts := by
  rw [← String.toList_inj, String.toList_intercalate, String.toList_join]
  induction texts with
  | nil =>
      rfl
  | cons text others inductionHypothesis =>
      cases others with
      | nil =>
          rfl
      | cons next others =>
          exact congrArg (text.toList ++ ·) inductionHypothesis

theorem splitLines_printed {printed : List PrintedLine} (stand : ∀ line ∈ printed, line.Stands) :
    splitLines ("".intercalate (printed.map PrintedLine.render)).toList =
      printed.map PrintedLine.chars := by
  rw [intercalate_nothing]
  refine (isMadeOf_join ?_).trans ?_
  · intro block member
    obtain ⟨line, -, rfl⟩ := List.mem_map.mp member
    rw [line.toList_render, List.getLast?_concat]
  · rw [List.flatMap_map, List.map_eq_flatMap]
    exact List.flatMap_congr fun line member => (stand line member).splitLines_render

/-- The lines of a printed text are cut from the lines that were printed. -/
theorem cutAs_of_lexText {printed : List PrintedLine} (stand : ∀ line ∈ printed, line.Stands)
    {lines : List NumberedLine}
    (lexed : lexText ("".intercalate (printed.map PrintedLine.render)) = .ok lines) :
    List.Forall₂ PrintedLine.CutAs printed lines := by
  rw [lexText, splitLines_printed stand] at lexed
  obtain ⟨all, cut, kept⟩ := exists_lexLinesFrom_iff.mp ⟨lines, lexed, rfl⟩
  have pieces := List.forall₂_map_left_iff.mp (mapM_eq_ok_iff.mp cut)
  have whole : all.filter (!·.isEmpty) = all := by
    refine List.filter_eq_self.mpr fun words member => ?_
    obtain ⟨line, among, here⟩ := exists_mem_left pieces member
    rw [line.lexLine_chars] at here
    rw [Bool.not_eq_true', List.isEmpty_eq_false_iff]
    exact (stand line among).words_ne_nil here
  rw [whole] at kept
  subst kept
  exact (List.forall₂_map_right_iff.mp pieces).imp fun line _ here =>
    line.lexLine_chars.symm.trans here

/-! ## Modules -/

namespace Program

variable {program : Program}

/-- The types of a module that are not nested, each with those nested in it. -/
def preorder (program : Program) (module : Module) : List TypeId :=
  (module.types.filter fun type => (program.graph.type type).enclosing.isEmpty).flatMap
    (program.graph.preorder program.graph.types.size)

/-- The text of a module is read as texts that show its types. -/
theorem Printable.showsMethods (printable : program.Printable)
    (holdsTypes : program.graph.types.size ≠ 0) {module : Module}
    (prints : ∀ type ∈ program.preorder module, ∀ method ∈ program.graph.methodsOf type,
      program.PrintsMethod method)
    {texts : List TypeText} (read : readModule (program.print module) = .ok texts) :
    List.Forall₂ program.ShowsMethods (program.preorder module)
      (TypeText.allWithNested texts) := by
  obtain ⟨lines, lexed, left, ran⟩ := readModule_eq_ok_iff.mp read
  obtain ⟨depth, size⟩ := Nat.exists_eq_succ_of_ne_zero holdsTypes
  rw [preorder, size] at prints ⊢
  have stand := Printing.stands_of_mem_mapM (fun type
    (_ : type ∈ module.types.filter fun type => (program.graph.type type).enclosing.isEmpty) =>
      Printing.allStand_typeLines printable (depth + 1) 0 type) none
  rw [print, Printing.moduleLines, size] at lexed
  exact Printing.reads_typesLines printable.spelled prints rfl (cutAs_of_lexText stand lexed)
    ⟨_, _, left, Nat.le_refl _, ran⟩

end Program

end NullWeave
