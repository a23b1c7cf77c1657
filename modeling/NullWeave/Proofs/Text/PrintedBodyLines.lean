import NullWeave.Proofs.Text.LineNumbers
import NullWeave.Proofs.Text.NameCapture
import NullWeave.Proofs.Text.PrintedInstructions
import NullWeave.Proofs.Text.ReadLines

/-!
# Printed lines of bodies

What each printed line of a body is cut into, and what is read from it: a
document, local variables, a handler, a sequence point, or an instruction with
the label before it.  Only what a handler catches may be another type, the one
that its full name means where it is read.
-/

namespace NullWeave

/-! ## Numbers -/

/-- A number that is cut from a line is small enough, and is that number. -/
theorem exists_of_lexLine_number {number : Nat} {rest : List Char} (ends : EndsNumber rest)
    {words : List Lexeme} (lexed : lexLine ((toString number).toList ++ rest) = .ok words) :
    ∃ later, lexLine rest = .ok later ∧ words = .int number :: later := by
  by_cases small : number ≤ maxInteger
  · have cut := @lexLine_number number small _ ends
    change lexLine ((toString number).toList ++ rest) = _ at cut
    obtain ⟨later, lexedRest, rfl⟩ := map_eq_ok_iff.mp (cut.symm.trans lexed)
    exact ⟨later, lexedRest, rfl⟩
  · obtain ⟨c, tail, split, digit, digits⟩ := exists_toDigits number
    have begins := @begins_number c tail (by rw [digit, Bool.true_or])
    obtain ⟨notBlank, notSlash, notColon, notQuote⟩ := begins
    have tooLarge : readInteger? (c :: tail) = none := by
      rw [readInteger?_of_isDigit digit, ← split, readMagnitude?_toDigits, Option.filter_some,
        if_neg (by simpa using small)]
      rfl
    have shown : (toString number).toList = c :: tail := by
      rw [← split]
      exact Nat.toList_repr
    rw [shown, List.cons_append, lexLine_cons, lexStep, notBlank, beginsComment_of_ne notSlash,
      digit, spanAlphanum_append digits ends, tooLarge] at lexed
    simp [notColon, notQuote] at lexed

theorem exists_of_lexLine_lastNumber {number : Nat} {words : List Lexeme}
    (lexed : lexLine (toString number).toList = .ok words) : words = [.int number] := by
  rw [← List.append_nil (toString number).toList] at lexed
  obtain ⟨later, lexedRest, rfl⟩ := exists_of_lexLine_number endsName_nil.endsNumber lexed
  cases lexedRest
  rfl

theorem exists_of_lexLine_nextNumber {number : Nat} {rest : List Char} {words : List Lexeme}
    (lexed : lexLine ((toString number).toList ++ ' ' :: rest) = .ok words) :
    ∃ later, lexLine rest = .ok later ∧ words = .int number :: later := by
  obtain ⟨later, lexedRest, rfl⟩ := exists_of_lexLine_number (endsName_blank rest).endsNumber lexed
  rw [lexLine_blank] at lexedRest
  exact ⟨later, lexedRest, rfl⟩

/-! ## Readers of words -/

namespace LineReader

theorem runs_requireWord_iff {word : String} {lexemes left : List Lexeme} :
    (requireWord word).run lexemes = .ok ((), left) ↔ lexemes = .name word :: left := by
  have taken (lexeme : Lexeme) (rest : List Lexeme) (other : lexeme ≠ .name word) :
      (optionalWord word).run (lexeme :: rest) = .ok (false, lexeme :: rest) := by
    cases lexeme with
    | name found =>
        change (if found = word then _ else _ : LineReader Bool).run _ = _
        rw [if_neg fun same => other (congrArg Lexeme.name same)]
        rfl
    | str _ | int _ | mark _ | doubleColon =>
        rfl
  cases lexemes with
  | nil =>
      exact iff_of_false nofun nofun
  | cons lexeme rest =>
      by_cases here : lexeme = .name word
      · subst here
        have found : (optionalWord word).run (.name word :: rest) = .ok (true, rest) := by
          change (if word = word then _ else _ : LineReader Bool).run _ = _
          rw [if_pos rfl]
          rfl
        rw [requireWord, run_bind_of_ok found]
        constructor
        · rintro ⟨⟩
          rfl
        · rintro ⟨⟩
          rfl
      · rw [requireWord, run_bind_of_ok (taken lexeme rest here)]
        exact iff_of_false nofun fun same => here (List.cons.inj same).1

theorem runs_requireName_iff {name : String} {lexemes left : List Lexeme} :
    requireName.run lexemes = .ok (name, left) ↔ lexemes = .name name :: left := by
  constructor
  · intro ran
    cases lexemes with
    | nil =>
        cases ran
    | cons lexeme rest =>
        cases lexeme with
        | name found =>
            cases ran
            rfl
        | str _ | int _ | mark _ | doubleColon =>
            cases ran
  · rintro rfl
    rfl

theorem runs_requirePlace {value : Int} {rest left : List Lexeme} {place : Nat}
    (ran : requirePlace.run (.int value :: rest) = .ok (place, left)) :
    place = value.toNat ∧ left = rest := by
  change (if 0 ≤ value ∧ value < UInt32.size then pure value.toNat else _ : LineReader Nat).run
    rest = _ at ran
  split at ran
  · cases ran
    exact ⟨rfl, rfl⟩
  · cases ran

theorem runs_placeOr {default : Nat} {value : Int} {rest left : List Lexeme} {place : Nat}
    (ran : (placeOr default).run (.int value :: rest) = .ok (place, left)) :
    place = value.toNat ∧ left = rest :=
  runs_requirePlace ran

/-- A name that no mark follows is read as a type: as nothing, a parameter or a named type. -/
theorem runs_type_word {word : String} {rest left : List Lexeme} (ends : EndsType rest)
    {type : TypeExpr} (ran : LineReader.type.run (.name word :: rest) = .ok (type, left)) :
    left = rest ∧ (type = .void ∨ (∃ name, type = .param name false) ∨ type = .named word) := by
  change (typeWithin (2 * (rest.length + 1))).run (.name word :: rest) = _ at ran
  rw [Nat.mul_succ, typeWithin, run_requireName_bind] at ran
  obtain ⟨core, between, named, suffixed⟩ := runs_bind_iff.mp ran
  have done {between : List Lexeme} (same : between = rest)
      (suffixed : (suffixes core).run between = .ok (type, left)) : left = rest ∧ type = core := by
    rw [same, run_suffixes, ends.withSuffixes] at suffixed
    cases suffixed
    exact ⟨rfl, rfl⟩
  rw [typeAfterName] at named
  split at named
  · cases named
    obtain ⟨rfl, rfl⟩ := done rfl suffixed
    exact ⟨rfl, .inl rfl⟩
  split at named
  · rw [run_bind_of_ok (run_optionalStruct_of_ne ends.notColon)] at named
    cases named
    obtain ⟨rfl, rfl⟩ := done rfl suffixed
    exact ⟨rfl, .inr (.inl ⟨_, rfl⟩)⟩
  · rw [run_bind_of_ok (run_optionalMark_of_ne ends.notGeneric)] at named
    cases named
    obtain ⟨rfl, rfl⟩ := done rfl suffixed
    exact ⟨rfl, .inr (.inr rfl)⟩

/-! ## Lines of bodies -/

variable {number : Nat} {document : Option String} {rest remaining : List Lexeme} {said : BodyLine}

theorem runs_bodyLine_document {name : String}
    (ran : (bodyLine number document).run [.name ".document", .str name] = .ok (said, remaining)) :
    said = .document name := by
  cases ran
  rfl

theorem runs_bodyLine_locals
    (ran : (bodyLine number document).run (.name ".locals" :: rest) = .ok (said, remaining)) :
    ∃ init declared, said = .locals init declared := by
  change (optionalWord "init" >>= fun init => parenthesized localVariable >>= fun declared =>
    done >>= fun _ => pure (BodyLine.locals init declared)).run rest = _ at ran
  obtain ⟨init, _, -, ran⟩ := runs_bind_iff.mp ran
  obtain ⟨declared, _, -, ran⟩ := runs_bind_iff.mp ran
  obtain ⟨_, _, -, ran⟩ := runs_bind_iff.mp ran
  cases ran
  exact ⟨init, declared, rfl⟩

theorem runs_bodyLine_point {name : String}
    (ran : (bodyLine number (some name)).run (.name ".line" :: rest) = .ok (said, remaining)) :
    ∃ span left, span?.run rest = .ok (span, left) ∧
      said = .items [.point number name span] := by
  change (span? >>= fun span => done >>= fun _ =>
    pure (BodyLine.items [.point number name span])).run rest = _ at ran
  obtain ⟨span, left, taken, ran⟩ := runs_bind_iff.mp ran
  obtain ⟨_, _, -, ran⟩ := runs_bind_iff.mp ran
  cases ran
  exact ⟨span, left, taken, rfl⟩

theorem runs_bodyLine_handler
    (ran : (bodyLine number document).run (.name ".try" :: rest) = .ok (said, remaining)) :
    ∃ text, (handler number).run rest = .ok (text, remaining) ∧ said = .handler text := by
  change (handler number >>= fun text => pure (BodyLine.handler text)).run rest = _ at ran
  obtain ⟨text, left, taken, ran⟩ := runs_bind_iff.mp ran
  cases ran
  exact ⟨text, taken, rfl⟩

/-- A line that begins with a name that is no directive is code. -/
theorem run_bodyLine_code {name : String} (notDirective : name.toList.head? ≠ some '.') :
    (bodyLine number document).run (.name name :: rest) =
      (code number).run (.name name :: rest) := by
  have differs {directive : String} (dotted : directive.toList.head? = some '.') :
      name ≠ directive := by
    rintro rfl
    exact notDirective dotted
  unfold bodyLine
  rw [StateT.run_bind, StateT.run_get, pure_bind]
  split
  · rename_i found
    exact absurd (Lexeme.name.inj (List.cons.inj found).1) (differs (by decide))
  · rename_i found
    exact absurd (Lexeme.name.inj (List.cons.inj found).1) (differs (by decide))
  · rename_i found
    exact absurd (Lexeme.name.inj (List.cons.inj found).1) (differs (by decide))
  · rename_i found
    exact absurd (Lexeme.name.inj (List.cons.inj found).1) (differs (by decide))
  · rfl
  · rename_i none
    exact absurd rfl (none name rest)

theorem run_bodyLine_instruction {mnemonic : String} {operands : List Lexeme}
    (notDirective : mnemonic.toList.head? ≠ some '.')
    (notLabel : operands.head? ≠ some (.mark ':')) :
    (bodyLine number document).run (.name mnemonic :: operands) =
      .ok (.items [.instruction number mnemonic operands], []) := by
  have noLabel : label?.run (.name mnemonic :: operands) =
      .ok (none, .name mnemonic :: operands) := by
    rw [label?, StateT.run_bind, StateT.run_get, pure_bind]
    split
    · rename_i found
      exact absurd (congrArg List.head? (List.cons.inj found).2) notLabel
    · rfl
  rw [run_bodyLine_code notDirective, code, run_bind_of_ok noLabel]
  rfl

theorem run_bodyLine_labelled {label mnemonic : String} {operands : List Lexeme}
    (notDirective : label.toList.head? ≠ some '.') :
    (bodyLine number document).run
        (.name label :: .mark ':' :: .name mnemonic :: operands) =
      .ok (.items [.label number label, .instruction number mnemonic operands], []) := by
  rw [run_bodyLine_code notDirective]
  rfl

end LineReader

/-! ## Sequence points -/

theorem lexLine_nextName {name : String} (named : isName name = true) (rest : List Char) :
    lexLine (name.toList ++ ' ' :: rest) = (.name name :: ·) <$> lexLine rest := by
  rw [lexLine_name named (endsName_blank rest), lexLine_blank]

theorem SequencePoint.toList_written {point : SequencePoint} (shown : point.isHidden = false) :
    point.written.toList =
      ".line".toList ++ ' ' :: ((toString point.startLine).toList ++ ' ' ::
        ((toString point.startColumn).toList ++ ' ' :: ((toString point.endLine).toList ++ ' ' ::
          (toString point.endColumn).toList))) := by
  have blank : " ".toList = [' '] := rfl
  rw [written, shown, if_neg Bool.false_ne_true, String.toList_intercalate, blank]
  simp [List.intercalate]

/-- A printed sequence point has the place that it is printed with. -/
theorem SequencePoint.cut_written {point : SequencePoint} {words : List Lexeme}
    (lexed : lexLine point.written.toList = .ok words) :
    ∃ rest, words = .name ".line" :: rest ∧
      ∀ span left, LineReader.span?.run rest = .ok (span, left) → span = point.span? := by
  rw [span?]
  cases hidden : point.isHidden with
  | true =>
      have cut : lexLine point.written.toList = .ok [.name ".line", .name "hidden"] := by
        rw [written, hidden, if_pos rfl]
        decide +kernel
      rw [cut] at lexed
      cases lexed
      refine ⟨_, rfl, fun span left ran => ?_⟩
      cases ran
      rfl
  | false =>
      rw [toList_written hidden, lexLine_nextName (by decide)] at lexed
      obtain ⟨_, place, rfl⟩ := map_eq_ok_iff.mp lexed
      obtain ⟨_, afterLine, rfl⟩ := exists_of_lexLine_nextNumber place
      obtain ⟨_, afterColumn, rfl⟩ := exists_of_lexLine_nextNumber afterLine
      obtain ⟨_, last, rfl⟩ := exists_of_lexLine_nextNumber afterColumn
      obtain rfl := exists_of_lexLine_lastNumber last
      refine ⟨_, rfl, fun span left ran => ?_⟩
      obtain ⟨_, _, notWord, ran⟩ := runs_bind_iff.mp ran
      cases notWord
      obtain ⟨startLine, _, first, ran⟩ := runs_bind_iff.mp ran
      obtain ⟨rfl, rfl⟩ := LineReader.runs_requirePlace first
      obtain ⟨startColumn, _, second, ran⟩ := runs_bind_iff.mp ran
      obtain ⟨rfl, rfl⟩ := LineReader.runs_placeOr second
      obtain ⟨endLine, _, third, ran⟩ := runs_bind_iff.mp ran
      obtain ⟨rfl, rfl⟩ := LineReader.runs_placeOr third
      obtain ⟨endColumn, _, fourth, ran⟩ := runs_bind_iff.mp ran
      obtain ⟨rfl, rfl⟩ := LineReader.runs_placeOr fourth
      cases ran
      rfl

/-! ## Handlers -/

/--
Is a kind of handler written as another one is in a graph?

What it catches is written as the full name of a type, and means what this name
means where it is read.
-/
inductive HandlerKind.ShownAs (graph : Graph) : HandlerKind → HandlerKindText → Prop where
  | finally : ShownAs graph .finally .finally
  | catch {type : TypeId} {text : TypeExpr} :
      (∀ (other : Graph) (scope found : TypeId), other.definitionOf scope text = .ok found →
        other.typeInScope scope (graph.typeName type) = .ok found) →
      ShownAs graph (.catch type) (.catch text)

namespace BodyNames

/-- Is a handler written between the labels of its boundaries? -/
structure ShowsHandler (names : BodyNames) (handler : ExceptionHandler) (text : HandlerText) :
    Prop where
  kind : handler.kind.ShownAs names.graph text.kind
  tryStart : text.tryStart = names.labelWritten handler.tryStart
  tryEnd : text.tryEnd = names.labelWritten handler.tryEnd
  handlerStart : text.handlerStart = names.labelWritten handler.handlerStart
  handlerEnd : text.handlerEnd = handler.handlerEnd.map names.labelWritten

variable {names : BodyNames}

/-- Where a handler ends, as it is written. -/
def finishWritten (names : BodyNames) : Option InstrId → String
  | none => ""
  | some id => " to " ++ names.labelWritten id

/-- The words of where a handler ends. -/
def finishWords (names : BodyNames) : Option InstrId → List Lexeme
  | none => []
  | some id => [.name "to", .name (names.labelWritten id)]

/-- The words behind the kind of a handler. -/
def tailWords (names : BodyNames) (handler : ExceptionHandler) : List Lexeme :=
  .name "handler" :: .name (names.labelWritten handler.handlerStart) ::
    names.finishWords handler.handlerEnd

theorem lexLine_tail (handler : ExceptionHandler) :
    lexLine ("handler".toList ++ ' ' :: ((names.labelWritten handler.handlerStart).toList ++
        (names.finishWritten handler.handlerEnd).toList)) = .ok (names.tailWords handler) := by
  have named := names.isName_labelWritten
  have start : isName "handler" = true := by decide
  rw [lexLine_nextName start, tailWords]
  cases handler.handlerEnd with
  | none =>
      rw [finishWritten, finishWords, String.toList_empty, List.append_nil,
        lexLine_mnemonic (named _)]
      rfl
  | some id =>
      have ends : isName "to" = true := by decide
      rw [finishWritten, finishWords, String.toList_append]
      change (_ :: ·) <$> lexLine ((names.labelWritten handler.handlerStart).toList ++
        ' ' :: ("to".toList ++ ' ' :: (names.labelWritten id).toList)) = _
      rw [lexLine_nextName (named _), lexLine_nextName ends, lexLine_mnemonic (named _)]
      rfl

theorem toList_handlerWritten (handler : ExceptionHandler) :
    (names.handlerWritten handler).toList =
      ".try".toList ++ ' ' :: ((names.labelWritten handler.tryStart).toList ++ ' ' ::
        ("to".toList ++ ' ' :: ((names.labelWritten handler.tryEnd).toList ++ ' ' ::
          ((match handler.kind with
            | .catch type => "catch " ++ names.graph.typeName type
            | .finally => "finally").toList ++ ' ' ::
              ("handler".toList ++ ' ' :: ((names.labelWritten handler.handlerStart).toList ++
                (names.finishWritten handler.handlerEnd).toList)))))) := by
  obtain ⟨kind, tryStart, tryEnd, handlerStart, handlerEnd⟩ := handler
  cases kind <;> cases handlerEnd <;> simp [handlerWritten, finishWritten]

/-- A label begins with one of two letters. -/
theorem head?_labelWritten (id : InstrId) :
    (names.labelWritten id).toList.head? = some 'L' ∨
      (names.labelWritten id).toList.head? = some 'i' := by
  rw [labelWritten]
  split
  · exact .inl (by rw [String.toList_append]; rfl)
  · exact .inr (by rw [InstrId.text, String.toList_append]; rfl)

/-- No label is the word before the start of a handler. -/
theorem labelWritten_ne_handler (id : InstrId) : names.labelWritten id ≠ "handler" := by
  intro same
  have begins := names.head?_labelWritten id
  rw [same] at begins
  revert begins
  decide

/-- No label is a directive. -/
theorem head?_labelWritten_ne (id : InstrId) :
    (names.labelWritten id).toList.head? ≠ some '.' := by
  rcases names.head?_labelWritten id with letter | letter <;> rw [letter] <;> decide

/-- What is read behind the kind of a handler. -/
theorem runs_tail {handler : ExceptionHandler} {number : Nat} {kind : HandlerKindText}
    {tryStart tryEnd : String} {text : HandlerText} {remaining : List Lexeme}
    (ran : (do
      LineReader.requireWord "handler"
      let handlerStart ← LineReader.requireName
      let handlerEnd ← if ← LineReader.optionalWord "to" then some <$> LineReader.requireName
        else pure none
      LineReader.done
      pure { line := number, kind, tryStart, tryEnd, handlerStart, handlerEnd } :
        LineReader HandlerText).run (names.tailWords handler) = .ok (text, remaining)) :
    text =
      { line := number
        kind
        tryStart
        tryEnd
        handlerStart := names.labelWritten handler.handlerStart
        handlerEnd := handler.handlerEnd.map names.labelWritten } := by
  rw [tailWords] at ran
  cases finish : handler.handlerEnd with
  | none =>
      rw [finish] at ran
      cases ran
      rfl
  | some id =>
      rw [finish] at ran
      cases ran
      rfl

/-- What is caught is read, if at all, as the type that its full name means. -/
theorem shownAs_catch (spelled : names.graph.IsSpelled) {type : TypeId}
    {handler : ExceptionHandler} {words : List Lexeme}
    (lexed : lexLine ((names.graph.typeName type).toList ++ ' ' ::
      ("handler".toList ++ ' ' :: ((names.labelWritten handler.handlerStart).toList ++
        (names.finishWritten handler.handlerEnd).toList))) = .ok words)
    {caught : TypeExpr} {left : List Lexeme}
    (ran : LineReader.type.run words = .ok (caught, left))
    (goesOn : left.head? = some (.name "handler")) :
    left = names.tailWords handler ∧
      HandlerKind.ShownAs names.graph (.catch type) (.catch caught) := by
  have cut := (spelled.typeName type).cutName (endsName_blank _) lexed
  have ends (word : String) (rest : List Lexeme) : LineReader.EndsType (.name word :: rest) :=
    ⟨⟨nofun, nofun⟩, nofun, nofun⟩
  cases cut with
  | empty _ lexedTail =>
      rw [lexLine_blank, lexLine_tail] at lexedTail
      cases lexedTail
      rw [tailWords] at ran
      obtain ⟨rfl, -⟩ := LineReader.runs_type_word (ends _ _) ran
      exact absurd (Lexeme.name.inj (Option.some.inj goesOn)) (names.labelWritten_ne_handler _)
  | whole _ lexedTail =>
      rw [lexLine_blank, lexLine_tail] at lexedTail
      cases lexedTail
      obtain ⟨rfl, isVoid | ⟨name, isParameter⟩ | isNamed⟩ :=
        LineReader.runs_type_word (ends _ _) ran
      · subst isVoid
        exact ⟨rfl, .catch fun _ _ _ means => by cases means⟩
      · subst isParameter
        exact ⟨rfl, .catch fun _ _ _ means => by cases means⟩
      · subst isNamed
        refine ⟨rfl, .catch fun other scope found means => ?_⟩
        rwa [Graph.definitionOf_named] at means
  | lost short areNames =>
      cases words with
      | nil =>
          cases ran
      | cons word rest =>
          obtain ⟨part, rfl⟩ := areNames word (List.mem_cons_self ..)
          obtain rfl : rest = [] :=
            List.eq_nil_of_length_eq_zero (Nat.le_zero.mp (Nat.le_of_succ_le_succ short))
          obtain ⟨rfl, -⟩ := LineReader.runs_type_word LineReader.endsType_nil ran
          cases goesOn
  | number =>
      cases ran

/-- A printed handler is read between the same labels. -/
theorem showsHandler_of_lexLine (spelled : names.graph.IsSpelled) {handler : ExceptionHandler}
    {words : List Lexeme} (lexed : lexLine (names.handlerWritten handler).toList = .ok words) :
    ∃ rest, words = .name ".try" :: rest ∧
      ∀ number text remaining, (LineReader.handler number).run rest = .ok (text, remaining) →
        names.ShowsHandler handler text := by
  have named := names.isName_labelWritten
  rw [toList_handlerWritten, lexLine_nextName (by decide)] at lexed
  obtain ⟨_, first, rfl⟩ := map_eq_ok_iff.mp lexed
  rw [lexLine_nextName (named _)] at first
  obtain ⟨_, second, rfl⟩ := map_eq_ok_iff.mp first
  rw [lexLine_nextName (by decide)] at second
  obtain ⟨_, third, rfl⟩ := map_eq_ok_iff.mp second
  rw [lexLine_nextName (named _)] at third
  obtain ⟨words, fourth, rfl⟩ := map_eq_ok_iff.mp third
  refine ⟨_, rfl, fun number text remaining ran => ?_⟩
  obtain ⟨_, _, here, ran⟩ := runs_bind_iff.mp ran
  cases here
  obtain ⟨_, _, here, ran⟩ := runs_bind_iff.mp ran
  cases here
  obtain ⟨_, _, here, ran⟩ := runs_bind_iff.mp ran
  cases here
  cases kind : handler.kind with
  | «finally» =>
      rw [kind] at fourth
      have shown : isName "finally" = true := by decide
      rw [lexLine_nextName shown, lexLine_tail] at fourth
      cases fourth
      obtain ⟨_, _, here, ran⟩ := runs_bind_iff.mp ran
      cases here
      obtain ⟨_, _, here, ran⟩ := runs_bind_iff.mp ran
      cases here
      obtain rfl := runs_tail ran
      exact ⟨kind ▸ .finally, rfl, rfl, rfl, rfl⟩
  | «catch» type =>
      rw [kind] at fourth
      have shown : isName "catch" = true := by decide
      have split : ("catch " ++ names.graph.typeName type).toList =
          "catch".toList ++ ' ' :: (names.graph.typeName type).toList := by
        rw [String.toList_append]
        rfl
      dsimp only at fourth
      rw [split, List.append_assoc, List.cons_append, lexLine_nextName shown] at fourth
      obtain ⟨words, caughtWords, rfl⟩ := map_eq_ok_iff.mp fourth
      obtain ⟨_, _, here, ran⟩ := runs_bind_iff.mp ran
      cases here
      obtain ⟨_, _, here, ran⟩ := runs_bind_iff.mp ran
      rw [StateT.run_map] at here
      obtain ⟨⟨caught, left⟩, taken, made⟩ := map_eq_ok_iff.mp here
      cases made
      obtain ⟨⟨⟩, _, handlerWord, -⟩ := runs_bind_iff.mp ran
      have goesOn := LineReader.runs_requireWord_iff.mp handlerWord
      obtain ⟨rfl, shownAs⟩ :=
        shownAs_catch spelled caughtWords taken (congrArg List.head? goesOn)
      obtain rfl := runs_tail ran
      exact ⟨kind ▸ shownAs, rfl, rfl, rfl, rfl⟩

end BodyNames

end NullWeave
