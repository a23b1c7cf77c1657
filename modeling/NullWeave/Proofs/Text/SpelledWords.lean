import NullWeave.Proofs.Text.RawCharacters
import NullWeave.Proofs.Text.Spelling
import NullWeave.Proofs.Text.StringLiterals
import NullWeave.Proofs.Text.WrittenTypes

/-!
# Words of spelled names

A full name is spelled with characters that a name goes on with, but it need not
be one word: a part of it can begin with a digit, be empty, or end in a slash
before another one, and then a number is cut from the line, or nothing, or the
rest of the line is lost as a comment.  Whatever is cut before a blank, what
stands behind it is cut as it would be alone.
-/

namespace NullWeave

/-! ## Characters of names -/

theorem continuesName_ascii :
    ∀ code < 128, continuesName (Char.ofNat code) = true →
      isBlank (Char.ofNat code) = false ∧ Char.ofNat code ∉ [':', '"', '\n', '\r'] := by
  decide

/-- A character that a name goes on with is no blank, colon, quote or end of a line. -/
theorem not_separator_of_continuesName {c : Char} (goesOn : continuesName c = true) :
    isBlank c = false ∧ c ∉ [':', '"', '\n', '\r'] := by
  by_cases ascii : c.toNat < 128
  · have checked := continuesName_ascii c.toNat ascii
    rw [Char.ofNat_toNat] at checked
    exact checked goesOn
  · have beyond : ∀ other : Char, other.toNat < 128 → c ≠ other := by
      rintro other low rfl
      exact ascii low
    refine ⟨?_, ?_⟩
    · have wordChar : isWordChar c = true := by
        simpa [continuesName, beyond '_' (by decide), beyond '.' (by decide),
          beyond '!' (by decide), beyond '$' (by decide), beyond '@' (by decide),
          beyond '`' (by decide), beyond '/' (by decide), beyond '-' (by decide)] using goesOn
      by_cases begins : beginsName c = true
      · exact (beginsOnlyName begins).notBlank
      · have numeral : isNumeral c = true := by
          rw [isWordChar, Bool.or_eq_true] at wordChar
          refine wordChar.resolve_left fun letter => begins ?_
          rw [beginsName, letter, Bool.true_or]
        exact (beginsNothing ascii numeral begins).notBlank
    · simp [beyond ':' (by decide), beyond '"' (by decide), beyond '\n' (by decide),
        beyond '\r' (by decide)]

/-- A name stops among characters that it goes on with only at a comment. -/
theorem spanName_of_continuesName {chars : List Char}
    (goesOn : ∀ c ∈ chars, continuesName c = true) :
    spanName chars = (chars, []) ∨ beginsComment (spanName chars).2 = true := by
  induction chars with
  | nil =>
      exact .inl rfl
  | cons c rest inductionHypothesis =>
      obtain ⟨here, later⟩ := List.forall_mem_cons.mp goesOn
      rw [spanName, here, Bool.true_and]
      cases comment : beginsComment (c :: rest) with
      | true =>
          exact .inr comment
      | false =>
          rcases inductionHypothesis later with whole | stops
          · rw [whole]
            exact .inl rfl
          · exact .inr stops

theorem beginsComment_append_of_begins {chars : List Char}
    (begins : beginsComment chars = true) (rest : List Char) :
    beginsComment (chars ++ rest) = true :=
  beginsComment_iff.mpr ((beginsComment_iff.mp begins).trans (List.prefix_append ..))

theorem lexLine_of_beginsComment {chars : List Char} (begins : beginsComment chars = true) :
    lexLine chars = .ok [] := by
  cases chars with
  | nil =>
      cases begins
  | cons c rest =>
      rw [lexLine_eq_firstPiece, begins]
      rfl

/-! ## A spelled name at the front of a line -/

/-- What can be cut from the front of a line where a spelled name stands. -/
inductive CutName (name : String) (rest : List Char) : List Lexeme → Prop where
  /-- There is no name. -/
  | empty {words : List Lexeme} : name = "" → lexLine rest = .ok words → CutName name rest words
  /-- The name is one word. -/
  | whole {words : List Lexeme} : isName name = true → lexLine rest = .ok words →
      CutName name rest (.name name :: words)
  /-- The rest of the line is lost behind a part of the name. -/
  | lost {words : List Lexeme} : words.length ≤ 1 → (∀ word ∈ words, ∃ part, word = .name part) →
      CutName name rest words
  /-- The name begins with a number. -/
  | number {value : Int} {words : List Lexeme} : CutName name rest (.int value :: words)

/-- A line with a spelled name in front is cut in one of these ways. -/
theorem IsSpelled.cutName {name : String} (spelled : IsSpelled name) {rest : List Char}
    (ends : EndsName rest) {words : List Lexeme}
    (lexed : lexLine (name.toList ++ rest) = .ok words) : CutName name rest words := by
  cases shown : name.toList with
  | nil =>
      rw [shown] at lexed
      exact .empty (String.toList_inj.mp shown) lexed
  | cons c tail =>
      rw [IsSpelled, shown] at spelled
      obtain ⟨here, later⟩ := List.forall_mem_cons.mp spelled
      obtain ⟨notBlank, others⟩ := not_separator_of_continuesName here
      simp only [List.mem_cons, List.not_mem_nil, or_false, not_or] at others
      obtain ⟨notColon, notQuote, -, -⟩ := others
      rw [shown, List.cons_append] at lexed
      by_cases comment : beginsComment (c :: (tail ++ rest)) = true
      · rw [lexLine_of_beginsComment comment] at lexed
        cases lexed
        exact .lost (Nat.zero_le _) (List.forall_mem_nil _)
      by_cases begins : beginsName c = true
      · rw [lexLine_of_beginsName begins, spanName_append_of_endsName ends] at lexed
        rcases spanName_of_continuesName later with whole | stops
        · rw [whole] at lexed
          obtain ⟨words, lexedRest, rfl⟩ := map_eq_ok_iff.mp lexed
          have back : String.ofList (c :: tail) = name := by
            rw [← shown, String.ofList_toList]
          rw [back]
          refine .whole ?_ lexedRest
          rw [isName, shown]
          simp [begins, whole]
        · rw [lexLine_of_beginsComment (beginsComment_append_of_begins stops rest)] at lexed
          cases lexed
          exact .lost (Nat.le_refl _) (List.forall_mem_singleton.mpr ⟨_, rfl⟩)
      · have noMark : c ∉ marks := fun isMark => by
          rw [continuesName_of_mem_marks isMark] at here
          cases here
        rw [lexLine_cons, lexStep, if_neg (by simp [notBlank]), if_neg comment,
          if_neg (by simp [notColon]), if_neg notQuote, if_neg begins, if_neg noMark] at lexed
        split at lexed
        · split at lexed
          · cases lexed
          · obtain ⟨words, -, rfl⟩ := map_eq_ok_iff.mp lexed
            exact .number
        · cases lexed

/-! ## What stands before a blank -/

theorem spanName_isSuffixOf (chars : List Char) : (spanName chars).2 <:+ chars := by
  induction chars with
  | nil =>
      exact List.suffix_rfl
  | cons c rest inductionHypothesis =>
      rw [spanName]
      split
      · exact inductionHypothesis.trans (List.suffix_cons c rest)
      · exact List.suffix_rfl

/-- The first piece of a line ends before a blank, and its marks stand in it. -/
theorem exists_firstPiece_before {c : Char} {front behind left : List Char}
    {words : List Lexeme} (notQuote : c ≠ '"')
    (taken : firstPiece c (front ++ ' ' :: behind) = .ok (words, left)) :
    ∃ after, left = after ++ ' ' :: behind ∧ after <:+ front ∧
      ∀ mark, .mark mark ∈ words → mark = c := by
  have nameHere := spanName_append_of_endsName (endsName_space behind) front
  have numberHere :=
    spanAlphanum_append_of_endsNumber (endsName_space behind).endsNumber front
  simp only [firstPiece, nameHere, numberHere] at taken
  split_ifs at taken with blank colons number name mark
  · cases taken
    exact ⟨front, rfl, List.suffix_rfl, by simp⟩
  · cases taken
    cases front with
    | nil =>
        cases colons.2
    | cons d front =>
        exact ⟨front, rfl, List.suffix_cons d front, by simp⟩
  · split at taken
    · cases taken
    · cases taken
      exact ⟨_, rfl, List.dropWhile_suffix _, by simp⟩
  · cases taken
    exact ⟨_, rfl, spanName_isSuffixOf front, by simp⟩
  · cases taken
    exact ⟨front, rfl, List.suffix_rfl, by simp⟩

/--
A line is cut before a blank, and what stands behind the blank is cut alone,
unless it is lost in a comment.
-/
theorem exists_words_before {front behind : List Char} (noQuote : '"' ∉ front)
    {words : List Lexeme} (lexed : lexLine (front ++ ' ' :: behind) = .ok words) :
    ∃ first, (∀ mark, .mark mark ∈ first → mark ∈ front) ∧
      (words = first ∨ ∃ later, lexLine behind = .ok later ∧ words = first ++ later) := by
  induction size : front.length using Nat.strongRecOn generalizing front words with
  | ind length inductionHypothesis =>
      cases front with
      | nil =>
          rw [List.nil_append, lexLine_blank] at lexed
          exact ⟨[], by simp, .inr ⟨words, lexed, rfl⟩⟩
      | cons c front =>
          have notQuote : c ≠ '"' := fun same => noQuote (same ▸ List.mem_cons_self ..)
          rw [List.cons_append, lexLine_eq_firstPiece] at lexed
          split at lexed
          · cases lexed
            exact ⟨[], by simp, .inl rfl⟩
          · obtain ⟨⟨first, left⟩, taken, goesOn⟩ := bind_eq_ok_iff.mp lexed
            obtain ⟨others, lexedLater, rfl⟩ := map_eq_ok_iff.mp goesOn
            obtain ⟨after, rfl, suffix, marks⟩ := exists_firstPiece_before notQuote taken
            have smaller : after.length < length := by
              rw [← size]
              exact Nat.lt_succ_of_le suffix.length_le
            have noQuoteAfter : '"' ∉ after := fun member =>
              noQuote (List.mem_cons_of_mem _ (suffix.subset member))
            obtain ⟨more, marksToo, cut⟩ :=
              inductionHypothesis _ smaller noQuoteAfter lexedLater rfl
            refine ⟨first ++ more, fun mark member => ?_, ?_⟩
            · rcases List.mem_append.mp member with here | later
              · exact marks mark here ▸ List.mem_cons_self ..
              · exact List.mem_cons_of_mem _ (suffix.subset (marksToo mark later))
            · rcases cut with rfl | ⟨later, lexedBehind, rfl⟩
              · exact .inl rfl
              · exact .inr ⟨later, lexedBehind, (List.append_assoc ..).symm⟩

end NullWeave
