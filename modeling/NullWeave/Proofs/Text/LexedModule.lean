import NullWeave.Proofs.Text.LexedNames
import NullWeave.Text.Reading.Module

/-!
# Names in modules that were read

All lines of a module are cut into lexemes before the first is read, and each
reader of lines passes on what it leaves.  So the names in every type of the
module, in its members and in the types nested in it are lexed as names.
-/

namespace NullWeave

/-! ## Declarations that grow line by line -/

theorem BodyText.Lexed.add {body : BodyText} {said : LineReader.BodyLine}
    (lexed : body.Lexed) (lexedToo : said.Lexed) : (body.add said).Lexed := by
  cases said with
  | document _ =>
      exact lexed
  | locals _ declared =>
      exact { lexed with locals := List.forall_mem_append.mpr ⟨lexed.locals, lexedToo⟩ }
  | handler text =>
      exact
        { lexed with
          handlers := List.forall_mem_append.mpr
            ⟨lexed.handlers, List.forall_mem_singleton.mpr lexedToo⟩ }
  | items items =>
      exact { lexed with items := List.forall_mem_append.mpr ⟨lexed.items, lexedToo⟩ }

namespace TypeText

variable {type : TypeText}

theorem Lexed.addField {field : FieldText} (lexed : type.Lexed) (lexedToo : field.Lexed) :
    (type.addField field).Lexed := by
  obtain ⟨header, fields, methods, nested⟩ := lexed
  exact .mk header
    (List.forall_mem_append.mpr ⟨fields, List.forall_mem_singleton.mpr lexedToo⟩)
    methods nested

theorem Lexed.addMethod {method : MethodText} (lexed : type.Lexed)
    (lexedToo : method.Lexed) : (type.addMethod method).Lexed := by
  obtain ⟨header, fields, methods, nested⟩ := lexed
  exact .mk header fields
    (List.forall_mem_append.mpr ⟨methods, List.forall_mem_singleton.mpr lexedToo⟩) nested

theorem Lexed.addNested {inner : TypeText} (lexed : type.Lexed) (lexedToo : inner.Lexed) :
    (type.addNested inner).Lexed := by
  obtain ⟨header, fields, methods, nested⟩ := lexed
  exact .mk header fields methods
    (List.forall_mem_append.mpr ⟨nested, List.forall_mem_singleton.mpr lexedToo⟩)

theorem lexed_ofHeader {header : TypeHeader} (lexed : header.Lexed) :
    (ofHeader header).Lexed :=
  .mk lexed (List.forall_mem_nil _) (List.forall_mem_nil _) (List.forall_mem_nil _)

end TypeText

/-! ## Readers of modules -/

namespace ModuleReader

/-- Can the lexemes of all lines be cut from lines? -/
def LinesAreCut (text : ModuleText) : Prop := ∀ line ∈ text.lines, AreCut line.lexemes

/-- Does a reader take a value that fits and leave lines that were cut into lexemes? -/
abbrev Yields {α : Type} (fits : α → Prop) (reader : ModuleReader α) : Prop :=
  NullWeave.Yields LinesAreCut fits reader

theorem yields_nextLine? :
    Yields (fun found => ∀ line ∈ found, AreCut line.lexemes) nextLine? := by
  rintro ⟨_ | ⟨line, rest⟩, document⟩ cut _ _ ⟨⟩
  · exact ⟨nofun, cut⟩
  · refine ⟨?_, fun other member => cut other (List.mem_cons_of_mem _ member)⟩
    rintro _ ⟨⟩
    exact cut line (List.mem_cons_self ..)

theorem yields_onLine {α : Type} {fits : α → Prop} {reader : LineReader α}
    (yields : LineReader.Yields fits reader) {lexemes : List Lexeme}
    (cut : AreCut lexemes) (line : Nat) : Yields fits (onLine line lexemes reader) := by
  unfold onLine
  split
  · exact yields_throw _
  · rename_i value left ran
    exact yields_pure (yields lexemes cut value left ran).1

theorem yields_attributeLine {line : NumberedLine} (cut : AreCut line.lexemes) :
    Yields (fun marks => ∀ mark ∈ marks, mark.Lexed) (attributeLine line) :=
  yields_onLine
    (LineReader.yields_attributes.bind fun _ lexed =>
      LineReader.yields_done.bind fun _ _ => yields_pure lexed)
    cut line.number

theorem yields_setDocument (name : String) :
    Yields (fun _ => True)
      (modify fun text : ModuleText => { text with document := some name }) := by
  rintro text cut _ _ ⟨⟩
  exact ⟨trivial, cut⟩

theorem yields_documentLine {rest : List Lexeme} (cut : AreCut rest) (line : Nat) :
    Yields (fun _ => True) (documentLine line rest) :=
  (yields_onLine
    (LineReader.yields_requireString.bind fun _ _ =>
      LineReader.yields_done.bind fun _ _ => yields_pure trivial)
    cut line).bind fun name _ => yields_setDocument name

theorem yields_methodWithin (fuel : Nat) {method : MethodText} {body : BodyText}
    (lexed : method.Lexed) (lexedToo : body.Lexed) :
    Yields MethodText.Lexed (methodWithin fuel method body) := by
  induction fuel generalizing body with
  | zero =>
      exact yields_throw _
  | succ fuel inductionHypothesis =>
      rw [methodWithin]
      refine yields_nextLine?.bind fun found cut => ?_
      split
      · exact yields_throw _
      · refine (yields_onLine LineReader.yields_done (cut _ rfl).tail _).bind fun _ _ => ?_
        split
        · refine yields_pure { lexed with body := ?_ }
          rintro _ ⟨⟩
          exact lexedToo
        split
        · exact yields_pure lexed
        · exact yields_throw _
      · refine yields_get_bind fun text linesCut => ?_
        refine ((yields_onLine (LineReader.yields_bodyLine _ _) (cut _ rfl) _).bind
          fun said saidLexed => ?_) text linesCut
        have later := inductionHypothesis (lexedToo.add saidLexed)
        split
        · exact (yields_setDocument _).bind fun _ _ => later
        · exact later

theorem yields_typeWithin (fuel : Nat) {pending : List Attribute} {type : TypeText}
    (marked : ∀ mark ∈ pending, mark.Lexed) (lexed : type.Lexed) :
    Yields TypeText.Lexed (typeWithin fuel pending type) := by
  induction fuel generalizing pending type with
  | zero =>
      exact yields_throw _
  | succ fuel inductionHypothesis =>
      have noMarks : ∀ mark ∈ ([] : List Attribute), mark.Lexed := List.forall_mem_nil _
      rw [typeWithin]
      refine yields_nextLine?.bind fun found cut => ?_
      split
      · exact yields_throw _
      · refine (yields_attributeLine (cut _ rfl)).bind fun more moreMarked => ?_
        exact inductionHypothesis (List.forall_mem_append.mpr ⟨marked, moreMarked⟩) lexed
      · have restCut := (cut _ rfl).tail
        split
        · refine (yields_onLine LineReader.yields_done restCut _).bind fun _ _ => ?_
          split
          · exact yields_pure lexed
          · exact yields_throw _
        · exact (yields_documentLine restCut _).bind fun _ _ =>
            inductionHypothesis marked lexed
        · split
          · exact (yields_onLine (LineReader.yields_field _) restCut _).bind
              fun field fieldLexed =>
                inductionHypothesis marked (lexed.addField fieldLexed)
          · exact yields_throw _
        · refine (yields_onLine (LineReader.yields_methodHeader marked) restCut _).bind
            fun method methodLexed => ?_
          have empty : BodyText.Lexed {} :=
            ⟨List.forall_mem_nil _, List.forall_mem_nil _, List.forall_mem_nil _⟩
          exact (yields_methodWithin fuel methodLexed empty).bind
            fun whole wholeLexed =>
              inductionHypothesis noMarks (lexed.addMethod wholeLexed)
        · refine (yields_onLine (LineReader.yields_typeHeader marked) restCut _).bind
            fun header headerLexed => ?_
          exact (inductionHypothesis noMarks (TypeText.lexed_ofHeader headerLexed)).bind
            fun inner innerLexed =>
              inductionHypothesis noMarks (lexed.addNested innerLexed)
        · exact yields_throw _
      · exact yields_throw _

theorem yields_typesWithin (lastLine fuel : Nat) {pending : List Attribute}
    (marked : ∀ mark ∈ pending, mark.Lexed) :
    Yields (fun types => ∀ type ∈ types, type.Lexed)
      (typesWithin lastLine fuel pending) := by
  induction fuel generalizing pending with
  | zero =>
      rw [typesWithin]
      split
      · exact yields_pure (List.forall_mem_nil _)
      · exact yields_throw _
  | succ fuel inductionHypothesis =>
      have noMarks : ∀ mark ∈ ([] : List Attribute), mark.Lexed := List.forall_mem_nil _
      rw [typesWithin]
      refine yields_nextLine?.bind fun found cut => ?_
      split
      · split
        · exact yields_pure (List.forall_mem_nil _)
        · exact yields_throw _
      · refine (yields_attributeLine (cut _ rfl)).bind fun more moreMarked => ?_
        exact inductionHypothesis (List.forall_mem_append.mpr ⟨marked, moreMarked⟩)
      · have restCut := (cut _ rfl).tail
        split
        · exact (yields_documentLine restCut _).bind fun _ _ => inductionHypothesis marked
        · refine (yields_onLine (LineReader.yields_typeHeader marked) restCut _).bind
            fun header headerLexed => ?_
          refine (yields_typeWithin fuel noMarks
            (TypeText.lexed_ofHeader headerLexed)).bind fun first firstLexed => ?_
          exact (inductionHypothesis noMarks).bind fun others othersLexed =>
            yields_pure (List.forall_mem_cons.mpr ⟨firstLexed, othersLexed⟩)
        · exact yields_throw _
      · exact yields_throw _

end ModuleReader

theorem areCut_of_lexLinesFrom {number : Nat} {texts : List (List Char)}
    {lines : List NumberedLine} (lexed : lexLinesFrom number texts = .ok lines) :
    ∀ line ∈ lines, AreCut line.lexemes := by
  induction texts generalizing number lines with
  | nil =>
      cases lexed
      exact List.forall_mem_nil _
  | cons text rest inductionHypothesis =>
      rw [lexLinesFrom] at lexed
      split at lexed
      · cases lexed
      · rename_i lexemes cut
        split at lexed
        · cases lexed
        · rename_i others later
          cases lexed
          split
          · exact inductionHypothesis later
          · exact List.forall_mem_cons.mpr
              ⟨areCut_of_lexLine cut, inductionHypothesis later⟩

/-- The names in all types of a module that was read are lexed as names. -/
theorem lexed_of_readModule {text : String} {types : List TypeText}
    (read : readModule text = .ok types) : ∀ type ∈ types, type.Lexed := by
  unfold readModule at read
  cases lexed : lexText text with
  | error error =>
      rw [lexed] at read
      cases read
  | ok lines =>
      rw [lexed] at read
      change Except.map Prod.fst ((ModuleReader.typesWithin
        ((lines.getLast?.map (·.number)).getD 0) lines.length []).run { lines }) = _ at read
      cases ran : (ModuleReader.typesWithin ((lines.getLast?.map (·.number)).getD 0)
          lines.length []).run { lines } with
      | error error =>
          rw [ran] at read
          cases read
      | ok result =>
          rw [ran] at read
          cases read
          exact (ModuleReader.yields_typesWithin _ _ (List.forall_mem_nil _) { lines }
            (areCut_of_lexLinesFrom lexed) result.1 result.2 ran).1

end NullWeave
