import NullWeave.Proofs.Text.MovedLines

/-!
# Blocks that are read on their own

A text may be made of blocks of lines.  If each of them can be read on its own,
which takes the attributes of a type to stand in its block and the document of
its sequence points to be named there, the text declares what its blocks do, one
after another and but for the lines in which it is declared.
-/

namespace NullWeave

/-! ## Words of blocks -/

/-- Are these the words of the lines of a text, without those that have none? -/
def HasWords (lines : List (List Char)) (words : List (List Lexeme)) : Prop :=
  ∃ all, lines.mapM lexLine = .ok all ∧ all.filter (!·.isEmpty) = words

theorem hasWords_nil : HasWords [] [] := ⟨[], rfl, rfl⟩

theorem HasWords.append {first second : List (List Char)} {words others : List (List Lexeme)}
    (here : HasWords first words) (there : HasWords second others) :
    HasWords (first ++ second) (words ++ others) := by
  obtain ⟨all, cut, rfl⟩ := here
  obtain ⟨allToo, cutToo, rfl⟩ := there
  refine ⟨all ++ allToo, ?_, List.filter_append ..⟩
  rw [List.mapM_append, cut, cutToo]
  rfl

/-- Lines are cut into the same words whatever number the first of them has. -/
theorem exists_lexLinesFrom_iff {number : Nat} {lines : List (List Char)}
    {words : List (List Lexeme)} :
    (∃ numbered, lexLinesFrom number lines = .ok numbered ∧
      numbered.map (·.lexemes) = words) ↔ HasWords lines words := by
  induction lines generalizing number words with
  | nil =>
      constructor
      · rintro ⟨_, ⟨⟩, rfl⟩
        exact hasWords_nil
      · rintro ⟨_, ⟨⟩, rfl⟩
        exact ⟨[], rfl, rfl⟩
  | cons line rest inductionHypothesis =>
      have keeps (lexemes : List Lexeme) {later : List NumberedLine} {all : List (List Lexeme)}
          (same : all.filter (!·.isEmpty) = later.map (·.lexemes)) :
          (if lexemes.isEmpty then later else ⟨number, lexemes⟩ :: later).map (·.lexemes) =
            (lexemes :: all).filter (!·.isEmpty) := by
        cases lexemes <;> simp [same]
      rw [lexLinesFrom, HasWords]
      simp only [mapM_cons_eq_ok_iff]
      cases lexLine line with
      | error fault =>
          refine iff_of_false ?_ ?_
          · rintro ⟨_, ⟨⟩, -⟩
          · rintro ⟨_, ⟨_, _, ⟨⟩, -⟩, -⟩
      | ok lexemes =>
          constructor
          · rintro ⟨numbered, cut, rfl⟩
            dsimp only at cut
            split at cut
            · cases cut
            · rename_i later cutLater
              cases cut
              obtain ⟨all, cutAll, same⟩ := inductionHypothesis.mp ⟨later, cutLater, rfl⟩
              exact ⟨_, ⟨lexemes, all, rfl, cutAll, rfl⟩, (keeps lexemes same).symm⟩
          · rintro ⟨_, ⟨_, all, ⟨⟩, cutAll, rfl⟩, rfl⟩
            obtain ⟨later, cutLater, same⟩ := (@inductionHypothesis (number + 1) _).mpr
              ⟨all, cutAll, rfl⟩
            dsimp only
            rw [cutLater]
            exact ⟨_, rfl, keeps lexemes same.symm⟩

/-! ## Lines of blocks -/

/-- Is a text made of blocks, line by line? -/
def IsMadeOf (text : String) (blocks : List String) : Prop :=
  splitLines text.toList = blocks.flatMap fun block => splitLines block.toList

theorem exists_splitLines_cons (c : Char) (rest : List Char) :
    ∃ line lines, splitLines (c :: rest) = line :: lines := by
  rw [splitLines.eq_def]
  split
  · rename_i empty
    cases empty
  · exact ⟨_, _, rfl⟩
  · exact ⟨_, _, rfl⟩
  · split <;> exact ⟨_, _, rfl⟩

/-- A character that ends no line is in the line before which it stands. -/
theorem splitLines_cons {c : Char} {rest : List Char} (noFeed : c ≠ '\n')
    (noReturn : c = '\r' → rest.head? ≠ some '\n') {line : List Char} {lines : List (List Char)}
    (later : splitLines rest = line :: lines) :
    splitLines (c :: rest) = (c :: line) :: lines := by
  rw [splitLines, later]
  · rintro behind rfl rfl
    exact noReturn rfl rfl
  · exact noFeed

/-- What follows a line feed begins a line of its own. -/
theorem splitLines_append (front rest : List Char) :
    splitLines (front ++ '\n' :: rest) = splitLines (front ++ ['\n']) ++ splitLines rest := by
  induction front with
  | nil =>
      rfl
  | cons c front inductionHypothesis =>
      by_cases feed : c = '\n'
      · subst feed
        exact congrArg ([] :: ·) inductionHypothesis
      by_cases returns : c = '\r' ∧ (front ++ ['\n']).head? = some '\n'
      · obtain ⟨rfl, next⟩ := returns
        cases front with
        | nil =>
            rfl
        | cons d front =>
            cases next
            exact inductionHypothesis
      · have apart (behind : List Char) :
            c = '\r' → (front ++ '\n' :: behind).head? ≠ some '\n' := by
          intro isReturn next
          refine returns ⟨isReturn, ?_⟩
          cases front <;> exact next
        obtain ⟨line, lines, here⟩ : ∃ line lines, splitLines (front ++ ['\n']) = line :: lines := by
          cases front <;> exact exists_splitLines_cons _ _
        rw [here] at inductionHypothesis
        rw [List.cons_append, List.cons_append, splitLines_cons feed (apart rest) inductionHypothesis,
          splitLines_cons feed (apart []) here]
        rfl

/-- Blocks that end with a line feed make a text when they are put one after another. -/
theorem isMadeOf_join {blocks : List String}
    (whole : ∀ block ∈ blocks, block.toList.getLast? = some '\n') :
    IsMadeOf (String.join blocks) blocks := by
  rw [IsMadeOf, String.toList_join]
  induction blocks with
  | nil =>
      rfl
  | cons block rest inductionHypothesis =>
      obtain ⟨here, later⟩ := List.forall_mem_cons.mp whole
      obtain ⟨front, split⟩ := List.getLast?_eq_some_iff.mp here
      rw [List.flatMap_cons, List.flatMap_cons, ← inductionHypothesis later, split,
        List.append_assoc, List.singleton_append, splitLines_append]

/-! ## Types of blocks -/

theorem readModule_eq_ok_iff {text : String} {types : List TypeText} :
    readModule text = .ok types ↔
      ∃ lines, lexText text = .ok lines ∧ ∃ left,
        (ModuleReader.typesWithin ((lines.getLast?.map (·.number)).getD 0) lines.length []).run
          { lines } = .ok (types, left) := by
  rw [readModule, bind_eq_ok_iff]
  refine exists_congr fun lines => and_congr_right fun _ => ?_
  rw [StateT.run'_eq, map_eq_ok_iff]
  constructor
  · rintro ⟨⟨_, left⟩, ran, rfl⟩
    exact ⟨left, ran⟩
  · rintro ⟨left, ran⟩
    exact ⟨(types, left), ran, rfl⟩

theorem ModuleReader.readsLater_nil (lastLine : Nat) : ReadsLater lastLine [] [] := by
  rintro ⟨lines, document⟩ fuel noLines -
  obtain rfl := List.map_eq_nil_iff.mp noLines
  cases fuel <;> exact ⟨[], _, rfl, rfl⟩

/-- Blocks that are read on their own are read one after another as well. -/
theorem exists_words_of_blocks {blocks : List String} {types : List (List TypeText)}
    (read : List.Forall₂ (fun block types => readModule block = .ok types) blocks types) :
    ∃ words, HasWords (blocks.flatMap fun block => splitLines block.toList) words ∧
      ∀ lastLine, ModuleReader.ReadsLater lastLine words
        (types.flatten.map TypeText.unnumbered) := by
  induction read with
  | nil =>
      exact ⟨[], hasWords_nil, ModuleReader.readsLater_nil⟩
  | @cons block first blocks others here _ inductionHypothesis =>
      obtain ⟨words, cut, later⟩ := inductionHypothesis
      obtain ⟨lines, lexed, left, ran⟩ := readModule_eq_ok_iff.mp here
      have cutHere : HasWords (splitLines block.toList) (lines.map (·.lexemes)) :=
        exists_lexLinesFrom_iff.mp ⟨lines, lexed, rfl⟩
      refine ⟨_, cutHere.append cut, fun lastLine module fuel front enough => ?_⟩
      have stands : ModuleText.StandsIn words lines.length fuel { lines } module :=
        { lines := front
          document := nofun
          enough := Nat.le_refl _
          enoughToo := enough }
      obtain ⟨all, leftToo, ranToo, same, -⟩ :=
        ModuleReader.repeats_typesWithin (later lastLine) _ _ stands _ _ ran
      refine ⟨all, leftToo, ranToo, ?_⟩
      rw [same, List.flatten_cons, List.map_append]

/-- A text that is made of blocks declares what they do, but for the lines. -/
theorem exists_readModule_of_blocks {text : String} {blocks : List String}
    {types : List (List TypeText)} (made : IsMadeOf text blocks)
    (read : List.Forall₂ (fun block types => readModule block = .ok types) blocks types) :
    ∃ all, readModule text = .ok all ∧
      all.map TypeText.unnumbered = types.flatten.map TypeText.unnumbered := by
  obtain ⟨words, cut, reads⟩ := exists_words_of_blocks read
  rw [← made] at cut
  obtain ⟨lines, lexed, same⟩ := (@exists_lexLinesFrom_iff 1 _ _).mpr cut
  obtain ⟨all, left, ran, expected⟩ :=
    reads ((lines.getLast?.map (·.number)).getD 0) { lines } lines.length same (Nat.le_refl _)
  exact ⟨all, readModule_eq_ok_iff.mpr ⟨lines, lexed, left, ran⟩, expected⟩

end NullWeave
