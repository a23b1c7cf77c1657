import NullWeave.Proofs.Text.PrintedBodyLines
import NullWeave.Text.Printing.Module

/-!
# Printed bodies

The lines of a printed body are read one by one: a text shows the body whose
lines it was read from.  It has an item for each sequence point, each label and
each instruction, in their order, and a handler for each handler; the document
that was named last is the same for the printer and the reader.
-/

namespace NullWeave

/-- Was a line that is read cut from a printed line? -/
def PrintedLine.CutAs (printed : PrintedLine) (line : NumberedLine) : Prop :=
  lexLine printed.text.toList = .ok line.lexemes

/-! ## What a text shows -/

/-- The item that a sequence point is read as, in no line. -/
def SequencePoint.item (point : SequencePoint) : BodyItem :=
  .point 0 point.document point.span?

namespace BodyNames

variable (names : BodyNames)

/-- The sequence points on an instruction. -/
def pointsOn (instruction : Instruction) : List SequencePoint :=
  names.body.debugInfo.points.filter fun point => point.instruction == instruction.id

/-- The label before an instruction that something refers to, in no line. -/
def labelItem (instruction : Instruction) : List BodyItem :=
  if instruction.id ∈ names.body.references then
    [.label 0 (names.labelWritten instruction.id)]
  else
    []

/-- Are items what some instructions of a body are printed as? -/
inductive ShowsItems : List Instruction → List BodyItem → Prop where
  | nil : ShowsItems [] []
  | cons {instruction : Instruction} {rest : List Instruction} {mnemonic : String}
      {operands : List Lexeme} {items : List BodyItem} :
      lexLine (names.operationWritten instruction.operation).toList =
        .ok (.name mnemonic :: operands) →
      ShowsItems rest items →
      ShowsItems (instruction :: rest)
        ((names.pointsOn instruction).map SequencePoint.item ++
          (names.labelItem instruction ++ .instruction 0 mnemonic operands :: items))

/-- Is a text what a body is printed as, but for its local variables? -/
structure ShowsBody (text : BodyText) : Prop where
  items : names.ShowsItems names.body.instructions (text.items.map BodyItem.unnumbered)
  handlers : List.Forall₂ names.ShowsHandler names.body.handlers text.handlers

end BodyNames

/-! ## Printing in sequence -/

/-- What is printed after something else is printed where that one stopped. -/
theorem Printing.exists_of_run_bind {α β : Type} {first : Printing α} {next : α → Printing β}
    {document after : Option String} {result : β}
    (run : (first >>= next).run document = (result, after)) :
    ∃ value between, first.run document = (value, between) ∧
      (next value).run between = (result, after) :=
  ⟨_, _, rfl, run⟩

/-! ## Lines that add to a body -/

open ModuleReader

/-- Has a body more items and handlers than another one, and these? -/
structure BodyText.Adds (body more : BodyText) (items : List BodyItem)
    (handlers : List HandlerText) : Prop where
  items : more.items.map BodyItem.unnumbered = body.items.map BodyItem.unnumbered ++ items
  handlers : more.handlers = body.handlers ++ handlers

theorem BodyText.Adds.trans {body between more : BodyText} {items others : List BodyItem}
    {handlers further : List HandlerText} (adds : body.Adds between items handlers)
    (addsToo : between.Adds more others further) :
    body.Adds more (items ++ others) (handlers ++ further) :=
  ⟨by rw [addsToo.items, adds.items, List.append_assoc],
    by rw [addsToo.handlers, adds.handlers, List.append_assoc]⟩

theorem BodyText.adds_refl (body : BodyText) : body.Adds body [] [] :=
  ⟨(List.append_nil _).symm, (List.append_nil _).symm⟩

/-- What goes with two lists in a row is made of what goes with each of them. -/
theorem exists_append_of_forall₂ {α β : Type} {goes : α → β → Prop} {first second : List α}
    {items : List β} (together : List.Forall₂ goes (first ++ second) items) :
    ∃ front back, items = front ++ back ∧ List.Forall₂ goes first front ∧
      List.Forall₂ goes second back := by
  induction first generalizing items with
  | nil =>
      exact ⟨[], items, rfl, .nil, together⟩
  | cons item first inductionHypothesis =>
      obtain ⟨other, others, here, later, rfl⟩ := List.forall₂_cons_left_iff.mp together
      obtain ⟨front, back, rfl, goesFront, goesBack⟩ := inductionHypothesis later
      exact ⟨other :: front, back, rfl, .cons here goesFront, goesBack⟩

namespace Printing

/--
The lines of several things are read one after another.

What each of them adds to what was read is told by `adds`, and so is what
several of them add.
-/
theorem reads_mapM {α σ : Type} {lay : α → Printing (List PrintedLine)}
    (reads : σ → ModuleText → Prop) (adds : σ → List α → σ → Prop)
    (nothing : ∀ start, adds start [] start)
    (goesOn : ∀ start item between items last, adds start [item] between →
      adds between items last → adds start (item :: items) last)
    {items : List α}
    (step : ∀ item ∈ items, ∀ start document after printed lines rest,
      (lay item).run document = (printed, after) → List.Forall₂ PrintedLine.CutAs printed lines →
        reads start ⟨lines ++ rest, document⟩ →
          ∃ more, adds start [item] more ∧ reads more ⟨rest, after⟩)
    {start : σ} {document after : Option String} {pieces : List (List PrintedLine)}
    {lines rest : List NumberedLine}
    (run : (items.mapM lay).run document = (pieces, after))
    (cut : List.Forall₂ PrintedLine.CutAs pieces.flatten lines)
    (begins : reads start ⟨lines ++ rest, document⟩) :
    ∃ last, adds start items last ∧ reads last ⟨rest, after⟩ := by
  induction items generalizing start document lines pieces with
  | nil =>
      cases run
      cases cut
      exact ⟨start, nothing start, begins⟩
  | cons item items inductionHypothesis =>
      obtain ⟨here, later⟩ := List.forall_mem_cons.mp step
      rw [List.mapM_cons] at run
      obtain ⟨piece, between, first, run⟩ := exists_of_run_bind run
      obtain ⟨others, last, second, run⟩ := exists_of_run_bind run
      cases run
      obtain ⟨front, back, rfl, cutFirst, cutLater⟩ := exists_append_of_forall₂ cut
      rw [List.append_assoc] at begins
      obtain ⟨more, adds, readsOn⟩ := here _ _ _ _ _ _ first cutFirst begins
      obtain ⟨most, addsToo, further⟩ := inductionHypothesis later second cutLater readsOn
      exact ⟨most, goesOn _ _ _ _ _ adds addsToo, further⟩

variable {method : MethodText} {body : BodyText} {result : MethodText × ModuleText}
variable {document after : Option String} {printed : List PrintedLine}
variable {lines rest : List NumberedLine} {level : Nat}

/-! ### Sequence points -/

theorem reads_placeLine {line : NumberedLine} {point : SequencePoint}
    (cut : (PrintedLine.mk level point.written).CutAs line)
    (reads : ReadsMethod method body ⟨line :: rest, some point.document⟩ result) :
    ∃ more, body.Adds more [point.item] [] ∧
      ReadsMethod method more ⟨rest, some point.document⟩ result := by
  obtain ⟨number, words⟩ := line
  obtain ⟨place, rfl, placed⟩ := SequencePoint.cut_written cut
  obtain ⟨said, remaining, ran, goesOn⟩ := reads.next (by simp)
  obtain ⟨span, left, taken, rfl⟩ := LineReader.runs_bodyLine_point ran
  obtain rfl := placed span left taken
  exact ⟨body.add _, ⟨List.map_append, (List.append_nil _).symm⟩, goesOn⟩

/-- A document is named where it changes, and a sequence point is read in it. -/
theorem reads_pointLines {point : SequencePoint}
    (run : (pointLines level point).run document = (printed, after))
    (cut : List.Forall₂ PrintedLine.CutAs printed lines)
    (reads : ReadsMethod method body ⟨lines ++ rest, document⟩ result) :
    ∃ more, body.Adds more [point.item] [] ∧
      ReadsMethod method more ⟨rest, after⟩ result := by
  by_cases named : document = some point.document
  · subst named
    change (if some point.document = some point.document then pure _ else _ :
      Printing (List PrintedLine)).run (some point.document) = _ at run
    rw [if_pos rfl] at run
    cases run
    obtain ⟨line, _, here, none, rfl⟩ := List.forall₂_cons_left_iff.mp cut
    cases none
    exact reads_placeLine here reads
  · change (if document = some point.document then pure _ else _ :
      Printing (List PrintedLine)).run document = _ at run
    rw [if_neg named] at run
    cases run
    obtain ⟨⟨number, words⟩, _, first, second, rfl⟩ := List.forall₂_cons_left_iff.mp cut
    obtain ⟨line, _, here, none, rfl⟩ := List.forall₂_cons_left_iff.mp second
    cases none
    have shown : lexLine (".document " ++ Quoted.write point.document).toList =
        .ok [.name ".document", .str point.document] := by
      have last := lexLine_string point.document []
      rw [List.append_nil] at last
      rw [String.toList_append]
      change lexLine (".document".toList ++ ' ' :: (Quoted.write point.document).toList) = _
      rw [lexLine_nextName (by decide), last]
      rfl
    obtain rfl := Except.ok.inj (shown.symm.trans first)
    obtain ⟨said, remaining, ran, goesOn⟩ := reads.next (by simp)
    obtain rfl := LineReader.runs_bodyLine_document ran
    exact reads_placeLine here goesOn

theorem reads_pointsLines {points : List SequencePoint} {pieces : List (List PrintedLine)}
    (run : (points.mapM (pointLines level)).run document = (pieces, after))
    (cut : List.Forall₂ PrintedLine.CutAs pieces.flatten lines)
    (reads : ReadsMethod method body ⟨lines ++ rest, document⟩ result) :
    ∃ more, body.Adds more (points.map SequencePoint.item) [] ∧
      ReadsMethod method more ⟨rest, after⟩ result :=
  reads_mapM (fun body text => ReadsMethod method body text result)
    (fun body points more => body.Adds more (points.map SequencePoint.item) [])
    BodyText.adds_refl (fun _ _ _ _ _ first later => first.trans later)
    (fun _ _ _ _ _ _ _ _ run cut reads => reads_pointLines run cut reads) run cut reads

/-! ### Instructions -/

section Instructions

variable {names : BodyNames}

/-- The words of a label before an instruction. -/
theorem lexLine_labelled (id : InstrId) (text : String) :
    lexLine (names.labelWritten id ++ ": " ++ text).toList =
      (fun words => .name (names.labelWritten id) :: .mark ':' :: words) <$>
        lexLine text.toList := by
  have colon := @lexLine_mark ':' (by decide) (' ' :: text.toList) fun _ => by
    rw [List.head?_cons]
    decide
  rw [String.toList_append, String.toList_append, List.append_assoc]
  change lexLine ((names.labelWritten id).toList ++ ':' :: ' ' :: text.toList) = _
  rw [lexLine_name (names.isName_labelWritten id) (endsName_cons (by decide) _), colon,
    lexLine_blank, Functor.map_map]

/-- The line of an instruction adds it, and its label where it has one. -/
theorem reads_instructionLine (spelled : names.graph.IsSpelled) {instruction : Instruction}
    {line : NumberedLine}
    (cut : (if instruction.id ∈ names.body.references then
      PrintedLine.mk (level - 1) (names.labelWritten instruction.id ++ ": " ++
        names.operationWritten instruction.operation)
    else
      PrintedLine.mk level (names.operationWritten instruction.operation)).CutAs line)
    (reads : ReadsMethod method body ⟨line :: rest, document⟩ result) :
    ∃ mnemonic operands more,
      lexLine (names.operationWritten instruction.operation).toList =
          .ok (.name mnemonic :: operands) ∧
        body.Adds more (names.labelItem instruction ++ [.instruction 0 mnemonic operands]) [] ∧
          ReadsMethod method more ⟨rest, document⟩ result := by
  obtain ⟨number, words⟩ := line
  rw [BodyNames.labelItem]
  split at cut
  · rename_i labelled
    rw [PrintedLine.CutAs, lexLine_labelled] at cut
    obtain ⟨words, lexed, rfl⟩ := map_eq_ok_iff.mp cut
    obtain ⟨operands, rfl, -⟩ := BodyNames.exists_operands spelled lexed
    have notDirective := names.head?_labelWritten_ne instruction.id
    obtain ⟨said, remaining, ran, goesOn⟩ := reads.next fun isEnd => by
      rw [Lexeme.name.inj (Option.some.inj isEnd)] at notDirective
      exact notDirective rfl
    rw [LineReader.run_bodyLine_labelled notDirective] at ran
    cases ran
    rw [if_pos labelled]
    exact ⟨_, operands, body.add _, lexed,
      ⟨List.map_append, (List.append_nil _).symm⟩, goesOn⟩
  · rename_i unlabelled
    obtain ⟨operands, rfl, noColon⟩ := BodyNames.exists_operands spelled cut
    have notDirective := BodyNames.head?_mnemonicWritten instruction.operation
    obtain ⟨said, remaining, ran, goesOn⟩ := reads.next fun isEnd => by
      rw [Lexeme.name.inj (Option.some.inj isEnd)] at notDirective
      exact notDirective rfl
    rw [LineReader.run_bodyLine_instruction notDirective noColon] at ran
    cases ran
    rw [if_neg unlabelled]
    exact ⟨_, operands, body.add _, cut,
      ⟨List.map_append, (List.append_nil _).symm⟩, goesOn⟩

/-- The lines of the instructions from a position on add what they are shown as. -/
theorem reads_instructionLines (spelled : names.graph.IsSpelled)
    (distinct : (identities names.body.instructions).Nodup) {before later : List Instruction}
    (split : names.body.instructions = before ++ later)
    (run : (instructionLines names level names.body.references before.length later).run document =
      (printed, after))
    (cut : List.Forall₂ PrintedLine.CutAs printed lines)
    (reads : ReadsMethod method body ⟨lines ++ rest, document⟩ result) :
    ∃ more items, names.ShowsItems later items ∧ body.Adds more items [] ∧
      ReadsMethod method more ⟨rest, after⟩ result := by
  induction later generalizing before body document lines printed with
  | nil =>
      cases run
      cases cut
      exact ⟨body, [], .nil, body.adds_refl, reads⟩
  | cons instruction later inductionHypothesis =>
      have found := MethodBody.indexOf?_of_split distinct split
      have itsPoints : (names.body.debugInfo.points.filter fun point =>
          point.instruction == instruction.id &&
            names.body.indexOf? instruction.id == some before.length) =
          names.pointsOn instruction := by
        simp only [found, BodyNames.pointsOn, beq_self_eq_true, Bool.and_true]
      rw [instructionLines, itsPoints] at run
      obtain ⟨places, between, first, run⟩ := exists_of_run_bind run
      obtain ⟨printedLater, last, others, run⟩ := exists_of_run_bind run
      cases run
      have splitNext : names.body.instructions = (before ++ [instruction]) ++ later := by
        rw [split, List.append_assoc]
        rfl
      have nextIndex : (before ++ [instruction]).length = before.length + 1 := by
        rw [List.length_append]
        rfl
      obtain ⟨front, back, rfl, cutPlaces, cutLater⟩ := exists_append_of_forall₂ cut
      obtain ⟨line, back, here, cutBack, rfl⟩ := List.forall₂_cons_left_iff.mp cutLater
      rw [List.append_assoc] at reads
      obtain ⟨placed, addsPoints, goesOn⟩ := reads_pointsLines first cutPlaces reads
      obtain ⟨mnemonic, operands, more, lexed, addsInstruction, goesOn⟩ :=
        reads_instructionLine spelled here goesOn
      rw [← nextIndex] at others
      obtain ⟨most, items, shows, addsLater, further⟩ :=
        inductionHypothesis splitNext others cutBack goesOn
      refine ⟨most, _, .cons lexed shows, ?_, further⟩
      have adds := addsPoints.trans (addsInstruction.trans addsLater)
      rwa [List.append_assoc, List.singleton_append] at adds

/-! ### Bodies -/

/-- The line of the local variables begins with its directive. -/
theorem exists_of_lexLine_locals {text : String} (written : text ∈ names.localsWritten)
    {words : List Lexeme} (lexed : lexLine text.toList = .ok words) :
    ∃ behind, words = .name ".locals" :: behind := by
  have named : isName ".locals" = true := by decide
  rw [BodyNames.localsWritten] at written
  split at written
  · cases written
  · obtain rfl := List.mem_singleton.mp written
    simp only [String.toList_append, List.append_assoc] at lexed
    cases init : names.body.initLocals with
    | true | false =>
        rw [init] at lexed
        change lexLine (".locals".toList ++ ' ' :: _) = _ at lexed
        rw [lexLine_nextName named] at lexed
        obtain ⟨behind, -, rfl⟩ := map_eq_ok_iff.mp lexed
        exact ⟨behind, rfl⟩

/-- The line of the local variables adds neither items nor handlers. -/
theorem reads_localsLines
    (cut : List.Forall₂ PrintedLine.CutAs
      (names.localsWritten.map (PrintedLine.mk level)) lines)
    (reads : ReadsMethod method body ⟨lines ++ rest, document⟩ result) :
    ∃ more, body.Adds more [] [] ∧ ReadsMethod method more ⟨rest, document⟩ result := by
  have locals := @exists_of_lexLine_locals names
  generalize names.localsWritten = texts at cut locals
  induction texts generalizing body lines with
  | nil =>
      cases cut
      exact ⟨body, body.adds_refl, reads⟩
  | cons text texts inductionHypothesis =>
      obtain ⟨⟨number, words⟩, others, here, later, rfl⟩ := List.forall₂_cons_left_iff.mp cut
      obtain ⟨behind, rfl⟩ := locals (List.mem_cons_self ..) here
      obtain ⟨said, remaining, ran, goesOn⟩ := reads.next (by simp)
      obtain ⟨init, declared, rfl⟩ := LineReader.runs_bodyLine_locals ran
      obtain ⟨more, adds, further⟩ := inductionHypothesis goesOn later fun member =>
        locals (List.mem_cons_of_mem _ member)
      have first : body.Adds (body.add (.locals init declared)) [] [] :=
        ⟨(List.append_nil _).symm, (List.append_nil _).symm⟩
      exact ⟨more, first.trans adds, further⟩

/-- The lines of handlers add them. -/
theorem reads_handlerLines (spelled : names.graph.IsSpelled) {handlers : List ExceptionHandler}
    (cut : List.Forall₂ PrintedLine.CutAs
      (handlers.map fun handler => PrintedLine.mk level (names.handlerWritten handler)) lines)
    (reads : ReadsMethod method body ⟨lines ++ rest, document⟩ result) :
    ∃ more texts, List.Forall₂ names.ShowsHandler handlers texts ∧ body.Adds more [] texts ∧
      ReadsMethod method more ⟨rest, document⟩ result := by
  induction handlers generalizing body lines with
  | nil =>
      cases cut
      exact ⟨body, [], .nil, body.adds_refl, reads⟩
  | cons handler handlers inductionHypothesis =>
      obtain ⟨⟨number, words⟩, others, here, later, rfl⟩ := List.forall₂_cons_left_iff.mp cut
      obtain ⟨behind, rfl, shows⟩ := BodyNames.showsHandler_of_lexLine spelled here
      obtain ⟨said, remaining, ran, goesOn⟩ := reads.next (by simp)
      obtain ⟨text, read, rfl⟩ := LineReader.runs_bodyLine_handler ran
      obtain ⟨more, texts, showsOthers, adds, further⟩ := inductionHypothesis later goesOn
      have first : body.Adds (body.add (.handler text)) [] [text] :=
        ⟨(List.append_nil _).symm, rfl⟩
      exact ⟨more, text :: texts, .cons (shows _ _ _ read) showsOthers, first.trans adds, further⟩

/-- The lines of a body are read as a text that shows it. -/
theorem reads_bodyLines (spelled : names.graph.IsSpelled)
    (distinct : (identities names.body.instructions).Nodup)
    (run : (bodyLines names level).run document = (printed, after))
    (cut : List.Forall₂ PrintedLine.CutAs printed lines)
    (reads : ReadsMethod method {} ⟨lines ++ rest, document⟩ result) :
    ∃ text, names.ShowsBody text ∧ ReadsMethod method text ⟨rest, after⟩ result := by
  obtain ⟨printedCode, last, code, run⟩ := exists_of_run_bind run
  cases run
  rw [List.map_append, List.map_map, List.append_assoc] at cut
  obtain ⟨front, back, rfl, cutLocals, cutBack⟩ := exists_append_of_forall₂ cut
  obtain ⟨middle, back, rfl, cutHandlers, cutCode⟩ := exists_append_of_forall₂ cutBack
  rw [List.append_assoc, List.append_assoc] at reads
  obtain ⟨declared, addsNothing, goesOn⟩ := reads_localsLines cutLocals reads
  obtain ⟨guarded, texts, shows, addsHandlers, goesOn⟩ :=
    reads_handlerLines spelled cutHandlers goesOn
  obtain ⟨text, items, showsItems, addsItems, further⟩ :=
    @reads_instructionLines _ _ _ _ _ _ _ _ _ _ spelled distinct [] _ rfl code cutCode goesOn
  obtain ⟨sameItems, sameHandlers⟩ := (addsNothing.trans addsHandlers).trans addsItems
  refine ⟨text, ⟨?_, ?_⟩, further⟩
  · rw [sameItems]
    exact showsItems
  · rw [sameHandlers, List.append_nil]
    exact shows

end Instructions

end Printing

end NullWeave
