import NullWeave.Proofs.Text.AttributeWriting
import NullWeave.Proofs.Text.PrintedInstructions

/-!
# Attributes among other words

An attribute in writing may be read as one with other arguments, since a bar and
what follows it can be lost.  It is read up to the bracket behind it all the
same: no closing parenthesis is cut from an argument.
-/

namespace NullWeave

namespace LineReader

/-- Arguments are taken up to the first closing parenthesis. -/
theorem exists_attributeArguments {words : List Lexeme} (notClosed : .mark ')' ∉ words)
    (finished : List String) (current : String) (rest : List Lexeme) :
    ∃ arguments,
      attributeArguments finished current (words ++ .mark ')' :: rest) =
        some (arguments, rest) := by
  induction words generalizing finished current with
  | nil =>
      exact ⟨_, rfl⟩
  | cons word words inductionHypothesis =>
      obtain ⟨notHere, notLater⟩ := List.ne_and_not_mem_of_not_mem_cons notClosed
      have later := inductionHypothesis notLater
      rw [List.cons_append]
      by_cases comma : word = .mark ','
      · subst comma
        exact later (finished ++ [current]) ""
      · rw [attributeArguments]
        · exact later finished _
        · exact fun closed => notHere closed.symm
        · exact comma

end LineReader

/-- Arguments in writing are cut into words that close no parenthesis. -/
theorem exists_words_of_argumentsWritten {arguments : List String} (some : arguments ≠ [])
    {rest : List Char} {words : List Lexeme}
    (lexed : lexLine ((commaSeparated (arguments.map argumentWritten)).toList ++ ')' :: rest) =
      .ok words) :
    ∃ front behind, .mark ')' ∉ front ∧ lexLine rest = .ok behind ∧
      words = front ++ .mark ')' :: behind := by
  have ends : EndsName (')' :: rest) := endsName_cons (by decide) rest
  have noClose {argument : String} {front : List Lexeme}
      (cut : lexLine (argumentWritten argument).toList = .ok front) : .mark ')' ∉ front :=
    fun member => absurd (mark_of_mem_argumentWritten cut member) (by decide)
  induction arguments generalizing words with
  | nil =>
      exact absurd rfl some
  | cons argument others inductionHypothesis =>
      cases others with
      | nil =>
          rw [List.map_singleton, commaSeparated, String.intercalate_singleton,
            lexLine_argumentWritten argument ends] at lexed
          obtain ⟨front, cut, lexed⟩ := bind_eq_ok_iff.mp lexed
          rw [lexLine_singleMark (by decide) (by decide), Functor.map_map] at lexed
          obtain ⟨behind, cutBehind, rfl⟩ := map_eq_ok_iff.mp lexed
          exact ⟨front, behind, noClose cut, cutBehind, rfl⟩
      | cons next others =>
          have endsComma := endsName_cons (show continuesName ',' = false by decide)
          rw [List.map_cons, List.map_cons, commaSeparated, String.intercalate_cons_cons,
            ← List.map_cons, String.toList_append, String.toList_append, List.append_assoc,
            List.append_assoc] at lexed
          change lexLine ((argumentWritten argument).toList ++ ',' :: ' ' ::
            ((commaSeparated ((next :: others).map argumentWritten)).toList ++ ')' :: rest)) =
              _ at lexed
          rw [lexLine_argumentWritten argument (endsComma _)] at lexed
          obtain ⟨front, cut, lexed⟩ := bind_eq_ok_iff.mp lexed
          rw [lexLine_comma, lexLine_blank, Functor.map_map] at lexed
          obtain ⟨later, cutLater, rfl⟩ := map_eq_ok_iff.mp lexed
          obtain ⟨more, behind, notClosed, cutBehind, rfl⟩ :=
            inductionHypothesis (List.cons_ne_nil _ _) cutLater
          refine ⟨front ++ .mark ',' :: more, behind, ?_, cutBehind, ?_⟩
          · simp [noClose cut, notClosed]
          · simp

/-- An attribute in writing is read up to the bracket behind it. -/
theorem Attribute.exists_words_of_written {mark : Attribute} (named : isName mark.name = true)
    {rest : List Char} {words : List Lexeme}
    (lexed : lexLine (mark.written.toList ++ ']' :: rest) = .ok words) :
    ∃ front behind, lexLine rest = .ok behind ∧ words = front ++ behind ∧
      ∀ left, ∃ again, LineReader.attributeBody.run (front ++ left) = .ok (again, left) := by
  obtain ⟨name, arguments⟩ := mark
  cases arguments with
  | nil =>
      have written : Attribute.written ⟨name, []⟩ = name := rfl
      rw [written, lexLine_name named (endsName_cons (by decide) _),
        lexLine_singleMark (by decide) (by decide), Functor.map_map] at lexed
      obtain ⟨behind, cut, rfl⟩ := map_eq_ok_iff.mp lexed
      exact ⟨[.name name, .mark ']'], behind, cut, rfl, fun left => ⟨⟨name, []⟩, rfl⟩⟩
  | cons first others =>
      have written : Attribute.written ⟨name, first :: others⟩ =
          name ++ "(" ++ commaSeparated ((first :: others).map argumentWritten) ++ ")" := rfl
      rw [written] at lexed
      simp only [String.toList_append, List.append_assoc] at lexed
      change lexLine (name.toList ++ '(' ::
        ((commaSeparated ((first :: others).map argumentWritten)).toList ++
          ')' :: ']' :: rest)) = _ at lexed
      rw [lexLine_name named (endsName_cons (by decide) _),
        lexLine_singleMark (by decide) (by decide), Functor.map_map] at lexed
      obtain ⟨words, cut, rfl⟩ := map_eq_ok_iff.mp lexed
      obtain ⟨front, behind, notClosed, cutBehind, rfl⟩ :=
        exists_words_of_argumentsWritten (List.cons_ne_nil _ _) cut
      rw [lexLine_singleMark (by decide) (by decide)] at cutBehind
      obtain ⟨behind, cutRest, rfl⟩ := map_eq_ok_iff.mp cutBehind
      refine ⟨.name name :: .mark '(' :: (front ++ [.mark ')', .mark ']']), behind, cutRest,
        by simp, fun left => ?_⟩
      obtain ⟨arguments, taken⟩ :=
        LineReader.exists_attributeArguments notClosed [] "" (.mark ']' :: left)
      refine ⟨⟨name, arguments⟩, ?_⟩
      rw [List.cons_append, List.cons_append, List.append_assoc]
      exact LineReader.runs_attributeBody_iff.mpr ⟨rfl, taken⟩

end NullWeave
