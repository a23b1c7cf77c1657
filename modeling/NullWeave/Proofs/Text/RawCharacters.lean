import NullWeave.Proofs.Sequence
import NullWeave.Proofs.Text.LexedNames
import NullWeave.Proofs.Text.Lexing

/-!
# Letters, numerals and bars

Letters, numerals, underscores, dots and bars are cut into words, and the words
are run together as they are shown.  They are shown as they were exactly if they,
and those behind each bar, begin with a bar, a name or a number in decimal: a
numeral may begin no word, and a number may have been said in other digits than
it is shown in.
-/

namespace NullWeave

/-! ## Characters that are written as they stand -/

/-- May a character be in an argument that is written as it stands? -/
def isRawChar (c : Char) : Bool := isWordChar c || c == '_' || c == '.' || c == '|'

/-- A numeral that begins no word. -/
structure BeginsNothing (c : Char) : Prop where
  notBlank : isBlank c = false
  notSlash : c ≠ '/'
  notColon : c ≠ ':'
  notQuote : c ≠ '"'
  notDigit : c.isDigit = false
  notMinus : c ≠ '-'
  notName : beginsName c = false
  notMark : c ∉ marks

/-- No numeral beyond ASCII is blank. -/
theorem numeralRanges_disjoint :
    ∀ numerals ∈ numeralRanges, ∀ blanks ∈ blankRanges,
      numerals.2 < blanks.1 ∨ blanks.2 < numerals.1 := by
  decide +kernel

theorem toNat_lt_of_mem_marks {mark : Char} (isMark : mark ∈ marks) : mark.toNat < 128 := by
  have all : (marks.all fun mark => mark.toNat < 128) = true := by decide
  exact of_decide_eq_true (List.all_eq_true.mp all mark isMark)

theorem beginsNothing {c : Char} (beyond : ¬ c.toNat < 128) (numeral : isNumeral c = true)
    (notName : ¬ beginsName c = true) : BeginsNothing c := by
  have differs : ∀ other : Char, other.toNat < 128 → c ≠ other := by
    rintro other low rfl
    exact beyond low
  rw [isNumeral, if_neg beyond] at numeral
  exact
    { notBlank := isBlank_of_inRanges numeralRanges_disjoint numeral
      notSlash := differs _ (by decide)
      notColon := differs _ (by decide)
      notQuote := differs _ (by decide)
      notDigit := Bool.eq_false_iff.mpr fun digit => beyond (toNat_lt_of_isDigit digit)
      notMinus := differs _ (by decide)
      notName := Bool.eq_false_iff.mpr notName
      notMark := fun isMark => beyond (toNat_lt_of_mem_marks isMark) }

theorem raw_cases {c : Char} (raw : isRawChar c = true) :
    c = '|' ∨ beginsName c = true ∨ c.isDigit = true ∨ BeginsNothing c := by
  by_cases bar : c = '|'
  · exact .inl bar
  by_cases begins : beginsName c = true
  · exact .inr (.inl begins)
  have others := begins
  simp only [beginsName, List.mem_cons, Bool.or_eq_true, decide_eq_true_eq, not_or] at others
  have numeral : isNumeral c = true := by
    simpa [isRawChar, isWordChar, bar, others.1, others.2.1, others.2.2.1] using raw
  by_cases ascii : c.toNat < 128
  · rw [isNumeral, if_pos ascii] at numeral
    exact .inr (.inr (.inl numeral))
  · exact .inr (.inr (.inr (beginsNothing ascii numeral begins)))

/-- Characters that are written as they stand are taken apart word by word. -/
theorem raw_induction {motive : List Char → Prop} (nil : motive [])
    (bar : ∀ chars, motive chars → motive ('|' :: chars))
    (name : ∀ c chars, beginsName c = true → (∀ d ∈ chars, isRawChar d = true) →
      motive (chars.dropWhile (· != '|')) → motive (c :: chars))
    (number : ∀ c chars, c.isDigit = true → (∀ d ∈ chars, isRawChar d = true) →
      motive (chars.dropWhile (·.isAlphanum)) → motive (c :: chars))
    (nothing : ∀ c chars, BeginsNothing c → motive (c :: chars))
    {chars : List Char} (raw : ∀ c ∈ chars, isRawChar c = true) : motive chars := by
  induction size : chars.length using Nat.strongRecOn generalizing chars with
  | ind size inductionHypothesis =>
      cases chars with
      | nil =>
          exact nil
      | cons c chars =>
          obtain ⟨here, rawLater⟩ := List.forall_mem_cons.mp raw
          have later {after : List Char} (suffix : after <:+ chars) : motive after :=
            inductionHypothesis after.length
              (by rw [← size, List.length_cons]; exact Nat.lt_succ_of_le suffix.length_le)
              (fun d member => rawLater d (suffix.subset member)) rfl
          rcases raw_cases here with rfl | begins | digit | beginsNothing
          · exact bar chars (later List.suffix_rfl)
          · exact name c chars begins rawLater (later (List.dropWhile_suffix _))
          · exact number c chars digit rawLater (later (List.dropWhile_suffix _))
          · exact nothing c chars beginsNothing

/-! ## Cutting them into words -/

theorem spanName_raw {chars rest : List Char} (raw : ∀ c ∈ chars, isRawChar c = true)
    (ends : EndsName rest) :
    spanName (chars ++ rest) =
      (chars.takeWhile (· != '|'), chars.dropWhile (· != '|') ++ rest) := by
  induction chars with
  | nil =>
      exact spanName_of_endsName ends
  | cons c chars inductionHypothesis =>
      have here := raw c (List.mem_cons_self ..)
      have later := inductionHypothesis fun d member => raw d (List.mem_cons_of_mem _ member)
      by_cases bar : c = '|'
      · subst bar
        exact spanName_of_endsName (endsName_cons (by decide) _)
      · have goesOn : continuesName c = true := by
          have cases : isWordChar c = true ∨ c = '_' ∨ c = '.' := by
            simpa [isRawChar, bar, or_assoc] using here
          rcases cases with word | rfl | rfl
          · simp [continuesName, word]
          · decide
          · decide
        have notSlash : c ≠ '/' := by
          rintro rfl
          exact absurd here (by decide)
        simp [spanName, goesOn, beginsComment_of_ne notSlash, later, bar]

theorem spanAlphanum_of_endsNumber (chars : List Char) {rest : List Char}
    (ends : EndsNumber rest) :
    spanAlphanum (chars ++ rest) =
      (chars.takeWhile (·.isAlphanum), chars.dropWhile (·.isAlphanum) ++ rest) := by
  induction chars with
  | nil =>
      cases rest with
      | nil =>
          rfl
      | cons c rest =>
          simp [spanAlphanum, ends c rfl]
  | cons c chars inductionHypothesis =>
      rw [spanAlphanum, Prod.mk.injEq] at inductionHypothesis
      rw [List.cons_append, spanAlphanum]
      cases alphanum : c.isAlphanum with
      | false =>
          simp [alphanum]
      | true =>
          simp [alphanum, inductionHypothesis]

theorem lexLine_bar (chars : List Char) :
    lexLine ('|' :: chars) = (Lexeme.mark '|' :: ·) <$> lexLine chars :=
  lexLine_mark (by decide) fun colon => absurd colon (by decide)

theorem lexLine_digit {c : Char} (digit : c.isDigit = true) (chars : List Char) :
    lexLine (c :: chars) =
      match readInteger? (c :: (spanAlphanum chars).1) with
      | none => .error (.invalidInteger (String.ofList (c :: (spanAlphanum chars).1)))
      | some value => (Lexeme.int value :: ·) <$> lexLine (spanAlphanum chars).2 := by
  have begins : (c.isDigit || (c == '-' && beginsWithDigit chars)) = true := by
    rw [digit, Bool.true_or]
  obtain ⟨notBlank, notSlash, notColon, notQuote⟩ := begins_number begins
  rw [lexLine_cons, lexStep, if_neg (Bool.eq_false_iff.mp notBlank),
    if_neg (Bool.eq_false_iff.mp (beginsComment_of_ne notSlash _)),
    if_neg fun colons => notColon colons.1, if_neg notQuote]
  exact if_pos begins

theorem lexLine_of_beginsNothing {c : Char} (nothing : BeginsNothing c) (chars : List Char) :
    lexLine (c :: chars) = .error (.unexpectedCharacter c) := by
  rw [lexLine_cons, lexStep, nothing.notBlank, beginsComment_of_ne nothing.notSlash,
    nothing.notDigit, nothing.notName]
  simp [nothing.notColon, nothing.notQuote, nothing.notMinus, nothing.notMark]

/-- Characters that are written as they stand are cut before what follows them. -/
theorem lexLine_raw_append {chars rest : List Char} (raw : ∀ c ∈ chars, isRawChar c = true)
    (ends : EndsName rest) :
    lexLine (chars ++ rest) =
      lexLine chars >>= fun front => (front ++ ·) <$> lexLine rest := by
  have cons (lexeme : Lexeme) (result : Except TextFault (List Lexeme)) :
      (lexeme :: ·) <$> (result >>= fun front => (front ++ ·) <$> lexLine rest) =
        (lexeme :: ·) <$> result >>= fun front => (front ++ ·) <$> lexLine rest := by
    cases result <;> cases lexLine rest <;> rfl
  refine raw_induction
    (motive := fun chars => lexLine (chars ++ rest) =
      lexLine chars >>= fun front => (front ++ ·) <$> lexLine rest)
    ?_ (fun chars later => ?_) (fun c chars begins raw later => ?_)
    (fun c chars digit raw later => ?_) (fun c chars nothing => ?_) raw
  · exact (id_map (lexLine rest)).symm
  · rw [List.cons_append, lexLine_bar, lexLine_bar, later, cons]
  · have alone := spanName_raw raw endsName_nil
    rw [List.append_nil, List.append_nil] at alone
    rw [List.cons_append, lexLine_of_beginsName begins, lexLine_of_beginsName begins,
      spanName_raw raw ends, alone, later, cons]
  · have alone := spanAlphanum_of_endsNumber chars endsName_nil.endsNumber
    rw [List.append_nil, List.append_nil] at alone
    rw [List.cons_append, lexLine_digit digit, lexLine_digit digit,
      spanAlphanum_of_endsNumber chars ends.endsNumber, alone]
    dsimp only
    cases readInteger? (c :: chars.takeWhile (·.isAlphanum)) with
    | none =>
        rfl
    | some value =>
        dsimp only
        rw [later, cons]
  · rw [List.cons_append, lexLine_of_beginsNothing nothing, lexLine_of_beginsNothing nothing]
    rfl

/-- No mark but a bar is cut from characters that are written as they stand. -/
theorem mark_of_mem_lexLine_raw {chars : List Char} (raw : ∀ c ∈ chars, isRawChar c = true) :
    ∀ lexemes, lexLine chars = .ok lexemes → ∀ mark, .mark mark ∈ lexemes → mark = '|' := by
  have cons {lexeme : Lexeme} {after : List Char} {lexemes : List Lexeme}
      (later : ∀ others, lexLine after = .ok others →
        ∀ mark, .mark mark ∈ others → mark = '|')
      (here : ∀ mark, .mark mark = lexeme → mark = '|')
      (cut : (lexeme :: ·) <$> lexLine after = .ok lexemes) :
      ∀ mark, .mark mark ∈ lexemes → mark = '|' := by
    obtain ⟨others, cutLater, rfl⟩ := map_eq_ok_iff.mp cut
    intro mark member
    exact (List.mem_cons.mp member).elim (here mark) (later others cutLater mark)
  refine raw_induction
    (motive := fun chars => ∀ lexemes, lexLine chars = .ok lexemes →
      ∀ mark, .mark mark ∈ lexemes → mark = '|')
    ?_ (fun chars later lexemes cut => ?_)
    (fun c chars begins raw later lexemes cut => ?_)
    (fun c chars digit raw later lexemes cut => ?_) (fun c chars nothing lexemes cut => ?_) raw
  · rintro _ ⟨⟩ mark member
    cases member
  · rw [lexLine_bar] at cut
    exact cons later (fun mark same => Lexeme.mark.inj same) cut
  · have name := spanName_raw raw endsName_nil
    rw [List.append_nil, List.append_nil] at name
    rw [lexLine_of_beginsName begins, name] at cut
    exact cons later (fun mark same => by cases same) cut
  · have number := spanAlphanum_of_endsNumber chars endsName_nil.endsNumber
    rw [List.append_nil, List.append_nil] at number
    rw [lexLine_digit digit, number] at cut
    dsimp only at cut
    split at cut
    · cases cut
    · exact cons later (fun mark same => by cases same) cut
  · rw [lexLine_of_beginsNothing nothing] at cut
    cases cut

/-! ## Words as they are shown -/

/-- The characters that words add to an argument. -/
def shownChars (lexemes : List Lexeme) : List Char :=
  lexemes.flatMap fun lexeme => (LineReader.argumentText lexeme).toList

/-- Are characters cut into words that are shown as they were? -/
def IsCutAsShown (chars : List Char) : Prop :=
  ∃ lexemes, lexLine chars = .ok lexemes ∧ shownChars lexemes = chars

/-- Do characters begin with a bar, a name, or a number in decimal before one of these? -/
def BeginsAsShown (chars : List Char) : Prop :=
  (∀ c ∈ chars.head?, c = '|' ∨ beginsName c = true) ∨
    ∃ number ≤ maxInteger, ∃ rest, chars = Nat.toDigits 10 number ++ rest ∧
      ∀ c ∈ rest.head?, c.isAlphanum = false ∧ (c = '|' ∨ beginsName c = true)

/-- Do characters begin as they are shown, and all those after a bar as well? -/
def BarsStayBars (chars : List Char) : Prop :=
  ∀ front rest, chars = front ++ '|' :: rest → BeginsAsShown rest

theorem cutAsShown_nil : IsCutAsShown [] := ⟨[], rfl, rfl⟩

/-- One word and the words after it are shown as they were if both are. -/
theorem cutAsShown_cons_iff {word rest chars : List Char} {lexeme : Lexeme}
    (cut : lexLine chars = (lexeme :: ·) <$> lexLine rest)
    (shown : (LineReader.argumentText lexeme).toList = word) (split : word ++ rest = chars) :
    IsCutAsShown chars ↔ IsCutAsShown rest := by
  subst split
  rw [IsCutAsShown, cut]
  constructor
  · rintro ⟨_, taken, same⟩
    obtain ⟨others, here, rfl⟩ := map_eq_ok_iff.mp taken
    rw [shownChars, List.flatMap_cons, shown] at same
    exact ⟨others, here, List.append_cancel_left same⟩
  · rintro ⟨others, here, same⟩
    refine ⟨_, map_eq_ok_iff.mpr ⟨others, here, rfl⟩, ?_⟩
    rw [shownChars, List.flatMap_cons, shown]
    exact congrArg (word ++ ·) same

theorem cutAsShown_bar (chars : List Char) :
    IsCutAsShown ('|' :: chars) ↔ IsCutAsShown chars :=
  cutAsShown_cons_iff (lexLine_bar chars) (rfl : _ = ['|']) rfl

theorem cutAsShown_name {c : Char} {chars : List Char} (begins : beginsName c = true)
    (raw : ∀ d ∈ chars, isRawChar d = true) :
    IsCutAsShown (c :: chars) ↔ IsCutAsShown (chars.dropWhile (· != '|')) := by
  have name := spanName_raw raw endsName_nil
  rw [List.append_nil, List.append_nil] at name
  have cut := lexLine_of_beginsName begins chars
  rw [name] at cut
  refine cutAsShown_cons_iff cut String.toList_ofList ?_
  rw [List.cons_append, List.takeWhile_append_dropWhile]

theorem not_cutAsShown_of_beginsNothing {c : Char} (nothing : BeginsNothing c)
    (chars : List Char) : ¬ IsCutAsShown (c :: chars) := by
  rintro ⟨lexemes, cut, -⟩
  rw [lexLine_of_beginsNothing nothing] at cut
  cases cut

/-- Words of characters at which a number ends are shown as some at which it ends. -/
theorem endsNumber_shownChars {chars : List Char} (raw : ∀ c ∈ chars, isRawChar c = true)
    (ends : EndsNumber chars) {lexemes : List Lexeme} (cut : lexLine chars = .ok lexemes) :
    EndsNumber (shownChars lexemes) := by
  cases chars with
  | nil =>
      cases cut
      exact ends
  | cons c chars =>
      have notAlphanum : c.isAlphanum = false := ends c rfl
      have ends (rest : List Char) : EndsNumber (c :: rest) := by
        rintro _ ⟨⟩
        exact notAlphanum
      rcases raw_cases (raw c (List.mem_cons_self ..)) with rfl | begins | digit | nothing
      · rw [lexLine_bar] at cut
        obtain ⟨others, -, rfl⟩ := map_eq_ok_iff.mp cut
        exact ends _
      · rw [lexLine_of_beginsName begins] at cut
        obtain ⟨others, -, rfl⟩ := map_eq_ok_iff.mp cut
        have shown : (LineReader.argumentText
            (.name (String.ofList (c :: (spanName chars).1)))).toList =
              c :: (spanName chars).1 := String.toList_ofList
        rw [shownChars, List.flatMap_cons, shown]
        exact ends _
      · rw [Char.isAlphanum, digit, Bool.or_true] at notAlphanum
        cases notAlphanum
      · rw [lexLine_of_beginsNothing nothing] at cut
        cases cut

theorem takeWhile_isAlphanum_append {digits rest : List Char}
    (alphanum : ∀ c ∈ digits, c.isAlphanum = true) (ends : EndsNumber rest) :
    (digits ++ rest).takeWhile (·.isAlphanum) = digits := by
  rw [List.takeWhile_append_of_pos alphanum]
  cases rest with
  | nil =>
      simp
  | cons c rest =>
      simp [ends c rfl]

/-- Letters and numerals part from what follows them at one place only. -/
theorem append_inj_of_endsNumber {word digits rest later : List Char}
    (alphanum : ∀ c ∈ word, c.isAlphanum = true) (alphanumToo : ∀ c ∈ digits, c.isAlphanum = true)
    (ends : EndsNumber rest) (endsToo : EndsNumber later)
    (same : word ++ rest = digits ++ later) : word = digits ∧ rest = later := by
  have words := congrArg (List.takeWhile (·.isAlphanum)) same
  rw [takeWhile_isAlphanum_append alphanum ends,
    takeWhile_isAlphanum_append alphanumToo endsToo] at words
  exact ⟨words, List.append_cancel_left (words ▸ same)⟩

theorem isAlphanum_of_mem_toDigits {number : Nat} {c : Char}
    (member : c ∈ Nat.toDigits 10 number) : c.isAlphanum = true := by
  rw [Char.isAlphanum, isDigit_of_mem_toDigits member, Bool.or_true]

theorem endsNumber_dropWhile (chars : List Char) :
    EndsNumber (chars.dropWhile (·.isAlphanum)) := by
  intro c first
  have stops := List.head?_dropWhile_not (·.isAlphanum) chars
  rw [Option.mem_def.mp first] at stops
  simpa using stops

theorem exists_of_readInteger? {c : Char} (digit : c.isDigit = true) {tail : List Char}
    {value : Int} (said : readInteger? (c :: tail) = some value) :
    ∃ number : Nat, number ≤ maxInteger ∧ value = Int.ofNat number := by
  rw [readInteger?_of_isDigit digit] at said
  cases magnitude : readMagnitude? (c :: tail) with
  | none =>
      rw [magnitude] at said
      cases said
  | some number =>
      rw [magnitude, Option.filter_some] at said
      split at said
      · rename_i small
        cases said
        exact ⟨number, of_decide_eq_true small, rfl⟩
      · cases said

/-- The number that digits and letters say is shown as they were if they are its digits. -/
theorem cutAsShown_digit {c : Char} {chars : List Char} (digit : c.isDigit = true)
    (raw : ∀ d ∈ chars, isRawChar d = true) :
    IsCutAsShown (c :: chars) ↔
      (∃ number ≤ maxInteger,
        c :: chars.takeWhile (·.isAlphanum) = Nat.toDigits 10 number) ∧
          IsCutAsShown (chars.dropWhile (·.isAlphanum)) := by
  have number := spanAlphanum_of_endsNumber chars endsName_nil.endsNumber
  rw [List.append_nil, List.append_nil] at number
  have cut := lexLine_digit digit chars
  rw [number] at cut
  dsimp only at cut
  have split : c :: chars.takeWhile (·.isAlphanum) ++ chars.dropWhile (·.isAlphanum) =
      c :: chars := by
    rw [List.cons_append, List.takeWhile_append_dropWhile]
  have alphanum : ∀ d ∈ c :: chars.takeWhile (·.isAlphanum), d.isAlphanum = true := by
    refine List.forall_mem_cons.mpr ⟨?_, fun _ => List.mem_takeWhile_imp⟩
    rw [Char.isAlphanum, digit, Bool.or_true]
  constructor
  · rintro ⟨lexemes, taken, same⟩
    rw [cut] at taken
    cases said : readInteger? (c :: chars.takeWhile (·.isAlphanum)) with
    | none =>
        rw [said] at taken
        cases taken
    | some value =>
        rw [said] at taken
        obtain ⟨others, later, rfl⟩ := map_eq_ok_iff.mp taken
        obtain ⟨number, small, rfl⟩ := exists_of_readInteger? digit said
        have rawLater : ∀ d ∈ chars.dropWhile (·.isAlphanum), isRawChar d = true :=
          fun d member => raw d ((List.dropWhile_suffix _).subset member)
        have ends := endsNumber_shownChars rawLater (endsNumber_dropWhile chars) later
        have shown : shownChars (.int (.ofNat number) :: others) =
            Nat.toDigits 10 number ++ shownChars others :=
          congrArg (· ++ shownChars others) (toList_toString_ofNat number)
        rw [shown, ← split] at same
        obtain ⟨digits, sameLater⟩ :=
          append_inj_of_endsNumber (fun _ => isAlphanum_of_mem_toDigits) alphanum ends
            (endsNumber_dropWhile chars) same
        exact ⟨⟨number, small, digits.symm⟩, others, later, sameLater⟩
  · rintro ⟨⟨number, small, digits⟩, others, later, same⟩
    have said : readInteger? (c :: chars.takeWhile (·.isAlphanum)) = some (.ofNat number) := by
      rw [digits, ← toList_toString_ofNat]
      exact readInteger?_toString small
    refine ⟨.int (.ofNat number) :: others, ?_, ?_⟩
    · rw [cut, said]
      exact map_eq_ok_iff.mpr ⟨others, later, rfl⟩
    · rw [← split, digits, ← same]
      exact congrArg (· ++ shownChars others) (toList_toString_ofNat number)

/-! ## Which characters are cut as they are shown -/

theorem barsStayBars_append_iff {word rest : List Char} (noBar : '|' ∉ word) :
    BarsStayBars (word ++ rest) ↔ BarsStayBars rest := by
  constructor
  · intro stay front behind split
    exact stay (word ++ front) behind (by rw [split, List.append_assoc])
  · intro stay front behind split
    rcases List.append_eq_append_iff.mp split with ⟨more, -, rfl⟩ | ⟨more, whole, same⟩
    · exact stay more behind rfl
    · cases more with
      | nil =>
          exact stay [] behind same.symm
      | cons c more =>
          rw [List.cons_append, List.cons.injEq] at same
          refine absurd ?_ noBar
          rw [whole, same.1]
          exact List.mem_append_right _ (List.mem_cons_self ..)

/-- What a word is cut off from has all of the bars, if the word does not go on at one. -/
theorem barsStayBars_dropWhile_iff {goesOn : Char → Bool} (stops : goesOn '|' = false)
    {c : Char} (notBar : c ≠ '|') (chars : List Char) :
    BarsStayBars (c :: chars) ↔ BarsStayBars (chars.dropWhile goesOn) := by
  have split : c :: chars.takeWhile goesOn ++ chars.dropWhile goesOn = c :: chars := by
    rw [List.cons_append, List.takeWhile_append_dropWhile]
  rw [← split]
  refine barsStayBars_append_iff fun bar => ?_
  rcases List.mem_cons.mp bar with same | among
  · exact notBar same.symm
  · have goes := List.mem_takeWhile_imp among
    rw [stops] at goes
    cases goes

theorem barsStayBars_bar_iff {rest : List Char} :
    BarsStayBars ('|' :: rest) ↔ BeginsAsShown rest ∧ BarsStayBars rest := by
  constructor
  · intro stay
    refine ⟨stay [] rest rfl, fun front behind split => ?_⟩
    exact stay ('|' :: front) behind (by rw [split, List.cons_append])
  · rintro ⟨begins, stay⟩ front behind split
    cases front with
    | nil =>
        cases split
        exact begins
    | cons c front =>
        rw [List.cons_append, List.cons.injEq] at split
        exact stay front behind split.2

theorem beginsAsShown_of_not_digit {c : Char} {rest : List Char}
    (notDigit : c.isDigit = false) :
    BeginsAsShown (c :: rest) ↔ c = '|' ∨ beginsName c = true := by
  refine ⟨?_, fun begins => .inl (by rintro _ ⟨⟩; exact begins)⟩
  rintro (begins | ⟨number, -, behind, split, -⟩)
  · exact begins c rfl
  · obtain ⟨d, tail, digits, digit, -⟩ := exists_toDigits number
    rw [digits, List.cons_append, List.cons.injEq] at split
    rw [split.1, digit] at notDigit
    cases notDigit

/-- Where a number ends, characters begin as they are shown only with a bar or a name. -/
theorem beginsAsShown_of_endsNumber {chars : List Char} (ends : EndsNumber chars) :
    BeginsAsShown chars ↔ ∀ c ∈ chars.head?, c = '|' ∨ beginsName c = true := by
  cases chars with
  | nil =>
      exact iff_of_true (.inl nofun) nofun
  | cons c rest =>
      have notDigit : c.isDigit = false := by
        have notAlphanum := ends c rfl
        rw [Char.isAlphanum, Bool.or_eq_false_iff] at notAlphanum
        exact notAlphanum.2
      rw [beginsAsShown_of_not_digit notDigit]
      simp

/-- Digits begin as they are shown if they are those of a number, before a bar or a name. -/
theorem beginsAsShown_digit {c : Char} {chars : List Char} (digit : c.isDigit = true) :
    BeginsAsShown (c :: chars) ↔
      (∃ number ≤ maxInteger,
        c :: chars.takeWhile (·.isAlphanum) = Nat.toDigits 10 number) ∧
          BeginsAsShown (chars.dropWhile (·.isAlphanum)) := by
  have split : c :: chars.takeWhile (·.isAlphanum) ++ chars.dropWhile (·.isAlphanum) =
      c :: chars := by
    rw [List.cons_append, List.takeWhile_append_dropWhile]
  have ends := endsNumber_dropWhile chars
  have here : (c :: chars).takeWhile (·.isAlphanum) = c :: chars.takeWhile (·.isAlphanum) := by
    rw [List.takeWhile_cons_of_pos (by rw [Char.isAlphanum, digit, Bool.or_true])]
  rw [beginsAsShown_of_endsNumber ends]
  constructor
  · rintro (begins | ⟨number, small, rest, same, begins⟩)
    · rcases begins c rfl with rfl | begins
      · exact absurd digit (by decide)
      · rw [(beginsOnlyName begins).notDigit] at digit
        cases digit
    · have digits := congrArg (List.takeWhile (·.isAlphanum)) same
      rw [takeWhile_isAlphanum_append (fun _ => isAlphanum_of_mem_toDigits)
        fun d first => (begins d first).1, here] at digits
      rw [← split, ← digits] at same
      rw [List.append_cancel_left same]
      exact ⟨⟨number, small, digits⟩, fun d first => (begins d first).2⟩
  · rintro ⟨⟨number, small, digits⟩, begins⟩
    refine .inr ⟨number, small, chars.dropWhile (·.isAlphanum), ?_, fun d first =>
      ⟨ends d first, begins d first⟩⟩
    rw [← digits, split]

/--
Characters that are written as they stand are cut into words that are shown as
they were exactly if they, and those after each bar, begin as they are shown.
-/
theorem cutAsShown_iff {chars : List Char} (raw : ∀ c ∈ chars, isRawChar c = true) :
    IsCutAsShown chars ↔ BeginsAsShown chars ∧ BarsStayBars chars := by
  refine raw_induction
    (motive := fun chars => IsCutAsShown chars ↔ BeginsAsShown chars ∧ BarsStayBars chars)
    ?_ (fun chars later => ?_) (fun c chars begins raw later => ?_)
    (fun c chars digit raw later => ?_) (fun c chars nothing => ?_) raw
  · exact iff_of_true cutAsShown_nil ⟨.inl nofun, fun front rest split => by simp at split⟩
  · rw [cutAsShown_bar, later, barsStayBars_bar_iff, beginsAsShown_of_not_digit (by decide)]
    simp
  · have stops : BeginsAsShown (chars.dropWhile (· != '|')) := by
      refine .inl fun d first => .inl ?_
      have bar := List.head?_dropWhile_not (· != '|') chars
      rw [Option.mem_def.mp first] at bar
      simpa using bar
    have notBar : c ≠ '|' := by
      rintro rfl
      exact absurd begins (by decide)
    rw [cutAsShown_name begins raw, later,
      @barsStayBars_dropWhile_iff (· != '|') (by decide) _ notBar,
      beginsAsShown_of_not_digit (beginsOnlyName begins).notDigit]
    simp [stops, begins]
  · have notBar : c ≠ '|' := by
      rintro rfl
      exact absurd digit (by decide)
    rw [cutAsShown_digit digit raw, later,
      @barsStayBars_dropWhile_iff (·.isAlphanum) (by decide) _ notBar,
      beginsAsShown_digit digit, and_assoc]
  · refine iff_of_false (not_cutAsShown_of_beginsNothing nothing chars) ?_
    rw [beginsAsShown_of_not_digit nothing.notDigit, nothing.notName]
    rintro ⟨rfl | begins, -⟩
    · exact nothing.notMark (by decide)
    · cases begins

end NullWeave
