import NullWeave.Proofs.Text.SeparateBlocks

/-!
# String literals inside lines

The lexer takes one piece of a line after another, and a piece ends before a
blank.  So a text up to a blank is lexed the same whatever follows it, unless it
holds a comment, which swallows all that follows.

A string literal is written without a line feed and ends in a quote, so all of it
stands in one line, wherever it is put in a text.
-/

namespace NullWeave

/-! ## Pieces of a line -/

/--
The first piece of a line that begins with no comment: its lexemes, of which a
blank has none, and the characters behind it.
-/
def firstPiece (c : Char) (rest : List Char) : Except TextFault (List Lexeme × List Char) :=
  if isBlank c then
    .ok ([], rest)
  else if c = ':' ∧ rest.head? = some ':' then
    .ok ([.doubleColon], rest.tail)
  else if c = '"' then
    match Quoted.readTail rest with
    | .error fault => .error (.badString fault)
    | .ok (text, after) => .ok ([.str (String.ofList text)], after)
  else if c.isDigit || (c == '-' && beginsWithDigit rest) then
    match readInteger? (c :: (spanAlphanum rest).1) with
    | none => .error (.invalidInteger (String.ofList (c :: (spanAlphanum rest).1)))
    | some value => .ok ([.int value], (spanAlphanum rest).2)
  else if beginsName c then
    .ok ([.name (String.ofList (c :: (spanName rest).1))], (spanName rest).2)
  else if c ∈ marks then
    .ok ([.mark c], rest)
  else
    .error (.unexpectedCharacter c)

/-- Does the lexer, going from piece to piece, get to a comment? -/
inductive HoldsComment : List Char → Prop where
  /-- A comment begins here. -/
  | here {chars : List Char} : beginsComment chars = true → HoldsComment chars
  /-- There is a comment behind the first piece. -/
  | behind {c : Char} {rest after : List Char} {words : List Lexeme} :
      firstPiece c rest = .ok (words, after) → HoldsComment after →
      HoldsComment (c :: rest)

theorem not_holdsComment_nil : ¬ HoldsComment [] := by
  rintro (begins | _)
  cases begins

/-- A line holds no comment if it begins with none and there is none behind its first piece. -/
theorem not_holdsComment_cons {c : Char} {rest after : List Char} {words : List Lexeme}
    (begins : beginsComment (c :: rest) = false)
    (taken : firstPiece c rest = .ok (words, after)) (noneBehind : ¬ HoldsComment after) :
    ¬ HoldsComment (c :: rest) := by
  rintro (comment | ⟨takenToo, holds⟩)
  · rw [begins] at comment
    cases comment
  · rw [taken] at takenToo
    cases takenToo
    exact noneBehind holds

theorem beginsComment_of_isBlank {c : Char} (blank : isBlank c = true) (rest : List Char) :
    beginsComment (c :: rest) = false := by
  apply beginsComment_of_ne
  rintro rfl
  exact absurd blank (by decide)

/-- A line is a comment, or it is lexed piece by piece. -/
theorem lexLine_eq_firstPiece (c : Char) (rest : List Char) :
    lexLine (c :: rest) =
      if beginsComment (c :: rest) then
        .ok []
      else
        firstPiece c rest >>= fun (words, after) => (words ++ ·) <$> lexLine after := by
  rw [lexLine_cons, lexStep, firstPiece]
  by_cases blank : isBlank c = true
  · rw [if_pos blank, if_pos blank, beginsComment_of_isBlank blank]
    change lexLine rest = id <$> lexLine rest
    rw [id_map]
  · rw [if_neg blank, if_neg blank]
    split_ifs with comment colons quote number name mark
    · rfl
    · rfl
    · cases Quoted.readTail rest <;> rfl
    · cases readInteger? (c :: (spanAlphanum rest).1) <;> rfl
    · rfl
    · rfl
    · rfl

/-! ## Pieces before a blank -/

theorem endsName_space (rest : List Char) : EndsName (' ' :: rest) :=
  endsName_cons (by decide) rest

/-- Where a name goes on to is the same before all that it cannot go on with. -/
theorem spanName_append_of_endsName {rest : List Char} (ends : EndsName rest)
    (chars : List Char) :
    spanName (chars ++ rest) = ((spanName chars).1, (spanName chars).2 ++ rest) := by
  induction chars with
  | nil =>
      exact spanName_of_endsName ends
  | cons c chars inductionHypothesis =>
      rw [List.cons_append, spanName, spanName, beginsComment_append ends]
      split
      · rw [inductionHypothesis]
      · rfl

/-- Where a number goes on to is the same before all that it cannot go on with. -/
theorem spanAlphanum_append_of_endsNumber {rest : List Char} (ends : EndsNumber rest)
    (chars : List Char) :
    spanAlphanum (chars ++ rest) =
      ((spanAlphanum chars).1, (spanAlphanum chars).2 ++ rest) := by
  induction chars with
  | nil =>
      cases rest with
      | nil =>
          rfl
      | cons c rest =>
          simp [spanAlphanum, ends c rfl]
  | cons c chars inductionHypothesis =>
      simp only [spanAlphanum, Prod.mk.injEq] at inductionHypothesis ⊢
      by_cases goesOn : c.isAlphanum = true
      · simp [goesOn, inductionHypothesis]
      · simp [goesOn]

/-- A literal that was read ends in a quote, and is read alike before anything else. -/
theorem Quoted.exists_literal {chars text after : List Char}
    (read : readTail chars = .ok (text, after)) :
    ∃ literal, chars = literal ++ '"' :: after ∧
      ∀ behind, readTail (literal ++ '"' :: behind) = .ok (text, behind) := by
  fun_induction readTail chars generalizing text with
  | case1 | case3 | case4 | case5 | case7 =>
      cases read
  | case2 rest =>
      cases read
      exact ⟨[], rfl, fun _ => rfl⟩
  | case6 letter rest c known text left later inductionHypothesis =>
      cases read
      obtain ⟨literal, rfl, again⟩ := inductionHypothesis later
      refine ⟨'\\' :: letter :: literal, rfl, ?_⟩
      intro behind
      simp only [List.cons_append, readTail, known, again]
  | case8 c rest notQuote _ notSlash text left later inductionHypothesis =>
      cases read
      obtain ⟨literal, rfl, again⟩ := inductionHypothesis later
      have slash : c ≠ '\\' := by
        rintro rfl
        cases literal with
        | nil =>
            exact notSlash _ _ rfl rfl
        | cons letter literal =>
            exact notSlash _ _ rfl rfl
      refine ⟨c :: literal, rfl, ?_⟩
      intro behind
      rw [List.cons_append, readTail_cons _ notQuote slash, again]

/-- A literal that ends before a blank at the end ends before the same blank in a longer line. -/
theorem Quoted.exists_readTail_space {front text left : List Char}
    (read : readTail (front ++ [' ']) = .ok (text, left)) :
    ∃ after, left = after ++ [' '] ∧
      ∀ behind, readTail (front ++ ' ' :: behind) = .ok (text, after ++ ' ' :: behind) := by
  obtain ⟨literal, split, again⟩ := exists_literal read
  rcases List.eq_nil_or_concat' left with rfl | ⟨after, last, rfl⟩
  · have space := (List.append_inj' split rfl).2
    cases space
  · have parts : front ++ [' '] = (literal ++ '"' :: after) ++ [last] := by
      rw [split, List.append_assoc, List.cons_append]
    obtain ⟨rfl, space⟩ := List.append_inj' parts rfl
    cases space
    refine ⟨after, rfl, ?_⟩
    intro behind
    rw [List.append_assoc, List.cons_append]
    exact again _

/-- The first piece ends before the blank at the end of a line, whatever follows the blank. -/
theorem exists_firstPiece_space {c : Char} {front left : List Char} {words : List Lexeme}
    (taken : firstPiece c (front ++ [' ']) = .ok (words, left)) :
    ∃ after, left = after ++ [' '] ∧ after.length ≤ front.length ∧
      ∀ behind, firstPiece c (front ++ ' ' :: behind) = .ok (words, after ++ ' ' :: behind) := by
  have nameHere := fun behind => spanName_append_of_endsName (endsName_space behind) front
  have numberHere := fun behind =>
    spanAlphanum_append_of_endsNumber (endsName_space behind).endsNumber front
  have digitHere : ∀ behind, beginsWithDigit (front ++ ' ' :: behind) =
      beginsWithDigit (front ++ [' ']) := by
    intro behind
    cases front <;> rfl
  have headHere : ∀ behind, (front ++ ' ' :: behind).head? = (front ++ [' ']).head? := by
    intro behind
    cases front <;> rfl
  simp only [firstPiece, nameHere, numberHere, digitHere, headHere] at taken ⊢
  split_ifs at taken with blank colons quote number name mark
  · cases taken
    exact ⟨front, rfl, Nat.le_refl _, fun _ => if_pos blank⟩
  · cases taken
    cases front with
    | nil =>
        cases colons.2
    | cons d front =>
        refine ⟨front, rfl, Nat.le_succ _, ?_⟩
        intro behind
        rw [if_neg blank, if_pos colons]
        rfl
  · cases read : Quoted.readTail (front ++ [' ']) with
    | error fault =>
        rw [read] at taken
        cases taken
    | ok pair =>
        rw [read] at taken
        cases taken
        obtain ⟨after, split, again⟩ := Quoted.exists_readTail_space read
        refine ⟨after, split, ?_, ?_⟩
        · have shorter := Quoted.length_rest_lt read
          rw [split, List.length_append, List.length_append] at shorter
          exact Nat.le_of_lt (Nat.lt_of_add_lt_add_right shorter)
        · intro behind
          rw [if_neg blank, if_neg colons, if_pos quote, again behind]
  · cases read : readInteger? (c :: (spanAlphanum front).1) with
    | none =>
        rw [read] at taken
        cases taken
    | some value =>
        rw [read] at taken
        cases taken
        refine ⟨_, rfl, length_spanAlphanum_le front, ?_⟩
        intro behind
        rw [if_neg blank, if_neg colons, if_neg quote, if_pos number]
  · cases taken
    refine ⟨_, rfl, length_spanName_le front, ?_⟩
    intro behind
    rw [if_neg blank, if_neg colons, if_neg quote, if_neg number, if_pos name]
  · cases taken
    refine ⟨front, rfl, Nat.le_refl _, ?_⟩
    intro behind
    rw [if_neg blank, if_neg colons, if_neg quote, if_neg number, if_neg name, if_pos mark]

/-- Up to a blank, a line without a comment is lexed the same whatever follows. -/
theorem lexLine_append_of_space {front : List Char} {words : List Lexeme}
    (lexed : lexLine (front ++ [' ']) = .ok words)
    (noComment : ¬ HoldsComment (front ++ [' '])) (behind : List Char) :
    lexLine (front ++ ' ' :: behind) = (words ++ ·) <$> lexLine behind := by
  induction size : front.length using Nat.strongRecOn generalizing front words with
  | ind length inductionHypothesis =>
      cases front with
      | nil =>
          cases lexed
          change lexLine (' ' :: behind) = id <$> lexLine behind
          rw [lexLine_blank, id_map]
      | cons c front =>
          have begins : beginsComment (c :: (front ++ [' '])) = false :=
            Bool.eq_false_iff.mpr fun begins => noComment (.here begins)
          have beginsToo : beginsComment (c :: (front ++ ' ' :: behind)) = false := by
            rw [beginsComment_append (endsName_space behind),
              ← beginsComment_append (endsName_space [])]
            exact begins
          rw [List.cons_append, lexLine_eq_firstPiece, begins] at lexed
          obtain ⟨⟨first, left⟩, taken, later⟩ := bind_eq_ok_iff.mp lexed
          obtain ⟨others, lexedLater, rfl⟩ := map_eq_ok_iff.mp later
          obtain ⟨after, rfl, shorter, takenToo⟩ := exists_firstPiece_space taken
          have smaller : after.length < length := by
            rw [← size]
            exact Nat.lt_succ_of_le shorter
          have noneBehind : ¬ HoldsComment (after ++ [' ']) :=
            fun holds => noComment (.behind taken holds)
          have rest := inductionHypothesis _ smaller lexedLater noneBehind rfl
          rw [List.cons_append, lexLine_eq_firstPiece, beginsToo, takenToo]
          change (first ++ ·) <$> lexLine (after ++ ' ' :: behind) = _
          rw [rest, ← comp_map]
          congr 1
          funext more
          exact (List.append_assoc first others more).symm

/-! ## Literals inside lines -/

theorem Quoted.newline_not_mem_writeChar (c : Char) : '\n' ∉ writeChar c := by
  intro member
  cases written : escapeLetter? c with
  | some letter =>
      rw [writeChar, written] at member
      have known := escaped?_escapeLetter written
      rcases List.mem_cons.mp member with slash | member
      · cases slash
      · rw [← List.mem_singleton.mp member] at known
        cases known
  | none =>
      rw [writeChar, written] at member
      rw [← List.mem_singleton.mp member] at written
      cases written

/-- A literal holds no line feed, so no line ends in it. -/
theorem Quoted.newline_not_mem_write (text : String) : '\n' ∉ (write text).toList := by
  rw [write, String.toList_ofList, writeTail]
  simp [newline_not_mem_writeChar]

theorem Quoted.exists_write_eq_append (text : String) :
    ∃ front, (write text).toList = front ++ ['"'] := by
  refine ⟨'"' :: text.toList.flatMap writeChar, ?_⟩
  rw [write, String.toList_ofList, writeTail, List.cons_append]

/-- The first line of a text is a prefix of it. -/
theorem head?_splitLines_isPrefixOf {chars line : List Char}
    (first : line ∈ (splitLines chars).head?) : line <+: chars := by
  fun_induction splitLines chars generalizing line with
  | case1 =>
      cases first
  | case2 | case3 =>
      cases first
      exact List.nil_prefix
  | case4 c rest _ _ only =>
      cases first
      exact (List.prefix_cons_inj c).mpr List.nil_prefix
  | case5 c rest _ _ later lines split inductionHypothesis =>
      cases first
      apply (List.prefix_cons_inj c).mpr
      apply inductionHypothesis
      rw [split]
      rfl

/-- What holds no line feed and does not end in a carriage return is in one line. -/
theorem exists_splitLines_append {chars : List Char} {last : Char}
    (noFeed : '\n' ∉ chars ++ [last]) (noReturn : last ≠ '\r') (back : List Char) :
    splitLines (chars ++ last :: back) =
      (chars ++ last :: (splitLines back).head?.getD []) :: (splitLines back).tail := by
  induction chars with
  | nil =>
      have feed : last ≠ '\n' := fun same => noFeed (List.mem_singleton.mpr same.symm)
      rw [List.nil_append, splitLines]
      · cases splitLines back <;> rfl
      · exact fun _ isReturn => absurd isReturn noReturn
      · exact feed
  | cons c chars inductionHypothesis =>
      rw [List.cons_append, List.mem_cons, not_or] at noFeed
      obtain ⟨feed, noFeed⟩ := noFeed
      refine splitLines_cons (fun same => feed same.symm) ?_ (inductionHypothesis noFeed)
      intro _ next
      apply noFeed
      cases chars with
      | nil =>
          cases next
          exact List.mem_singleton_self _
      | cons d chars =>
          cases next
          exact List.mem_cons_self ..

/-- What is in front of a literal in its line, and what is behind it. -/
theorem splitLines_write_append {opening : List Char} (noFeed : '\n' ∉ opening)
    (text : String) (back : List Char) :
    splitLines (opening ++ (Quoted.write text).toList ++ back) =
      (opening ++ (Quoted.write text).toList ++ (splitLines back).head?.getD []) ::
        (splitLines back).tail := by
  have whole := Quoted.newline_not_mem_write text
  obtain ⟨front, split⟩ := Quoted.exists_write_eq_append text
  rw [split] at whole ⊢
  have noFeedToo : '\n' ∉ (opening ++ front) ++ ['"'] := by
    rw [List.append_assoc, List.mem_append, not_or]
    exact ⟨noFeed, whole⟩
  have line := exists_splitLines_append noFeedToo (by decide) back
  simpa using line

/--
Wherever literals are put in a text, each stands whole in one line, and what is
around it there does not depend on it.
-/
theorem exists_splitLines_write (front back : List Char) :
    ∃ before opening closing after, opening <:+ front ∧ closing <+: back ∧
      ∀ text : String, splitLines (front ++ (Quoted.write text).toList ++ back) =
        before ++ (opening ++ (Quoted.write text).toList ++ closing) :: after := by
  have closes : (splitLines back).head?.getD [] <+: back := by
    cases first : (splitLines back).head? with
    | none =>
        exact List.nil_prefix
    | some line =>
        exact head?_splitLines_isPrefixOf first
  by_cases feed : '\n' ∈ front
  · -- The last line feed in front of the literal begins the line that holds it.
    obtain ⟨behind, earlier, split, noFeed⟩ :=
      List.eq_append_cons_of_mem (List.mem_reverse.mpr feed)
    have parts : front = earlier.reverse ++ '\n' :: behind.reverse := by
      rw [← List.reverse_reverse front, split]
      simp
    refine ⟨splitLines (earlier.reverse ++ ['\n']), behind.reverse, _,
      (splitLines back).tail, ?_, closes, ?_⟩
    · rw [parts]
      exact (List.suffix_cons ..).trans (List.suffix_append ..)
    · intro text
      have noFeedToo : '\n' ∉ behind.reverse := fun member => noFeed (List.mem_reverse.mp member)
      have here := splitLines_write_append noFeedToo text back
      rw [parts, List.append_assoc, List.append_assoc, List.cons_append, splitLines_append,
        ← List.append_assoc, here]
  · exact ⟨[], front, _, (splitLines back).tail, List.suffix_refl _, closes,
      fun text => splitLines_write_append feed text back⟩

/--
A literal behind a text that ends in a space, and that is lexed on its own and
holds no comment, is lexed as one string behind the lexemes of the text.  No line
feed is in it, and a module that holds it is not cut into lines inside it.
-/
theorem lexLine_append_write {before : List Char} {words : List Lexeme}
    (lexed : lexLine before = .ok words) (noComment : ¬ HoldsComment before)
    (ends : before.getLast? = some ' ') (text : String) :
    lexLine (before ++ (Quoted.write text).toList) = .ok (words ++ [.str text]) ∧
      '\n' ∉ (Quoted.write text).toList ∧
        ∀ front back, ∃ lines opening closing more, opening <:+ front ∧ closing <+: back ∧
          ∀ other : String, splitLines (front ++ (Quoted.write other).toList ++ back) =
            lines ++ (opening ++ (Quoted.write other).toList ++ closing) :: more := by
  obtain ⟨front, rfl⟩ := List.getLast?_eq_some_iff.mp ends
  have literal : lexLine (Quoted.write text).toList = .ok [.str text] := by
    have alone := lexLine_string text []
    rw [List.append_nil, lexLine_nil] at alone
    exact alone
  refine ⟨?_, Quoted.newline_not_mem_write text, exists_splitLines_write⟩
  rw [List.append_assoc, List.singleton_append,
    lexLine_append_of_space lexed noComment, literal]
  rfl

/-- A literal with slashes, a quote, a backslash and a line feed, behind one with slashes. -/
theorem lexLine_append_write_slashes :
    lexLine "[X(\"//\", ".toList =
        .ok [.mark '[', .name "X", .mark '(', .str "//", .mark ','] ∧
      ¬ HoldsComment "[X(\"//\", ".toList ∧
        "[X(\"//\", ".toList.getLast? = some ' ' ∧
          lexLine ("[X(\"//\", ".toList ++ (Quoted.write "// \"\\\n").toList) =
            .ok [.mark '[', .name "X", .mark '(', .str "//", .mark ',', .str "// \"\\\n"] := by
  have lexed : lexLine "[X(\"//\", ".toList =
      .ok [.mark '[', .name "X", .mark '(', .str "//", .mark ','] := by
    decide +kernel
  have noComment : ¬ HoldsComment "[X(\"//\", ".toList := by
    apply not_holdsComment_cons (by decide) rfl
    apply not_holdsComment_cons (by decide) rfl
    apply not_holdsComment_cons (by decide) rfl
    apply not_holdsComment_cons (by decide) rfl
    apply not_holdsComment_cons (by decide) rfl
    apply not_holdsComment_cons (by decide) rfl
    exact not_holdsComment_nil
  have ends : "[X(\"//\", ".toList.getLast? = some ' ' := by
    decide
  exact ⟨lexed, noComment, ends, (lexLine_append_write lexed noComment ends _).1⟩

end NullWeave
