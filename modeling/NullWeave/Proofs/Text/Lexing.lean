import NullWeave.Text.Line

/-!
# Lexing piece by piece

How many steps the lexer may take does not matter as long as there are as many
as characters, so a line is lexed from its front: a blank is skipped, and a
name, a number, a string or a mark is lexed before what follows it.  A name or
a number ends where a character stands that it cannot go on with.
-/

namespace NullWeave

/-! ## One step of the lexer -/

theorem length_spanName_le (chars : List Char) :
    (spanName chars).2.length ≤ chars.length := by
  induction chars with
  | nil =>
      exact Nat.le_refl 0
  | cons c rest inductionHypothesis =>
      rw [spanName]
      split
      · exact Nat.le_succ_of_le inductionHypothesis
      · exact Nat.le_refl _

theorem length_spanAlphanum_le (chars : List Char) :
    (spanAlphanum chars).2.length ≤ chars.length :=
  (List.dropWhile_suffix _).length_le

/-- The lexemes of a line, given how the characters after its first lexeme are lexed. -/
def lexStep (next : List Char → Except TextFault (List Lexeme))
    (c : Char) (rest : List Char) : Except TextFault (List Lexeme) :=
  if isBlank c then
    next rest
  else if beginsComment (c :: rest) then
    .ok []
  else if c = ':' ∧ rest.head? = some ':' then
    (Lexeme.doubleColon :: ·) <$> next rest.tail
  else if c = '"' then
    match Quoted.readTail rest with
    | .error fault => .error (.badString fault)
    | .ok (text, after) => (Lexeme.str (String.ofList text) :: ·) <$> next after
  else if c.isDigit || (c == '-' && beginsWithDigit rest) then
    match readInteger? (c :: (spanAlphanum rest).1) with
    | none => .error (.invalidInteger (String.ofList (c :: (spanAlphanum rest).1)))
    | some value => (Lexeme.int value :: ·) <$> next (spanAlphanum rest).2
  else if beginsName c then
    (Lexeme.name (String.ofList (c :: (spanName rest).1)) :: ·) <$>
      next (spanName rest).2
  else if c ∈ marks then
    (Lexeme.mark c :: ·) <$> next rest
  else
    .error (.unexpectedCharacter c)

/-- What follows the first lexeme is no longer than what follows the first character. -/
theorem lexStep_congr
    {next other : List Char → Except TextFault (List Lexeme)}
    {rest : List Char}
    (same : ∀ after : List Char, after.length ≤ rest.length →
      next after = other after)
    (c : Char) :
    lexStep next c rest = lexStep other c rest := by
  have afterColon := same rest.tail (by simp)
  have afterNumber := same _ (length_spanAlphanum_le rest)
  have afterName := same _ (length_spanName_le rest)
  simp only [lexStep, same rest (Nat.le_refl _), afterColon, afterNumber, afterName]
  cases quoted : Quoted.readTail rest with
  | error fault =>
      rfl
  | ok read =>
      dsimp only
      rw [same read.2 (Nat.le_of_lt (Quoted.length_rest_lt quoted))]

/-- More steps than characters change nothing. -/
theorem lexWithin_eq_of_le
    {fuel more : Nat} {chars : List Char}
    (enough : chars.length ≤ fuel) (alsoEnough : chars.length ≤ more) :
    lexWithin fuel chars = lexWithin more chars := by
  induction fuel generalizing more chars with
  | zero =>
      obtain rfl := List.eq_nil_of_length_eq_zero (Nat.le_zero.mp enough)
      cases more <;> rfl
  | succ fuel inductionHypothesis =>
      cases chars with
      | nil =>
          cases more <;> rfl
      | cons c rest =>
          cases more with
          | zero =>
              cases alsoEnough
          | succ more =>
              refine lexStep_congr (fun after shorter => ?_) c
              exact inductionHypothesis
                (Nat.le_trans shorter (Nat.le_of_succ_le_succ enough))
                (Nat.le_trans shorter (Nat.le_of_succ_le_succ alsoEnough))

@[simp]
theorem lexLine_nil : lexLine [] = .ok [] := rfl

/-- A line is lexed from its front. -/
theorem lexLine_cons (c : Char) (rest : List Char) :
    lexLine (c :: rest) = lexStep lexLine c rest :=
  lexStep_congr
    (fun _ shorter => lexWithin_eq_of_le shorter (Nat.le_refl _)) c

theorem lexLine_blank (rest : List Char) :
    lexLine (' ' :: rest) = lexLine rest := by
  rw [lexLine_cons, lexStep, if_pos (by decide)]

/-! ## Names -/

/-- Does what follows a name leave it as it is? -/
def EndsName (rest : List Char) : Prop :=
  ∀ c ∈ rest.head?, continuesName c = false

/-- Is a text lexed as one name? -/
def isName (text : String) : Bool :=
  match text.toList with
  | [] => false
  | c :: rest => beginsName c && spanName rest == (rest, [])

theorem endsName_nil : EndsName [] := nofun

theorem endsName_cons {c : Char} (ends : continuesName c = false)
    (rest : List Char) : EndsName (c :: rest) := by
  intro first isFirst
  cases isFirst
  exact ends

/-- No letter beyond ASCII is blank. -/
theorem letterRanges_disjoint :
    ∀ letters ∈ letterRanges, ∀ blanks ∈ blankRanges,
      letters.2 < blanks.1 ∨ blanks.2 < letters.1 := by
  decide +kernel

/-- No character of ranges that lie apart from those of blanks is blank. -/
theorem isBlank_of_inRanges {ranges : List (Nat × Nat)}
    (apart : ∀ range ∈ ranges, ∀ blanks ∈ blankRanges,
      range.2 < blanks.1 ∨ blanks.2 < range.1)
    {c : Char} (inside : inRanges ranges c.toNat = true) : isBlank c = false := by
  rw [isBlank, Bool.eq_false_iff]
  intro blank
  obtain ⟨range, among, low, high⟩ := (inRanges_eq_true_iff _ _).mp inside
  obtain ⟨blanks, blankRange, blankLow, blankHigh⟩ :=
    (inRanges_eq_true_iff _ _).mp blank
  have disjoint := apart range among blanks blankRange
  omega

/-- A character that begins a name begins no other lexeme. -/
structure BeginsOnlyName (c : Char) : Prop where
  notBlank : isBlank c = false
  notSlash : c ≠ '/'
  notColon : c ≠ ':'
  notQuote : c ≠ '"'
  notDigit : c.isDigit = false
  notMinus : c ≠ '-'

theorem beginsOnlyName_of_ascii :
    ∀ code < 128, beginsName (Char.ofNat code) = true →
      isBlank (Char.ofNat code) = false ∧
        Char.ofNat code ∉ ['/', ':', '"', '-'] ∧
          (Char.ofNat code).isDigit = false := by
  decide

theorem toNat_lt_of_isDigit {c : Char} (digit : c.isDigit = true) :
    c.toNat < 128 := by
  have high : c.toNat ≤ '9'.toNat := (Char.isDigit_iff_toNat.mp digit).2
  exact Nat.lt_of_le_of_lt high (by decide)

theorem beginsOnlyName {c : Char} (begins : beginsName c = true) :
    BeginsOnlyName c := by
  by_cases ascii : c.toNat < 128
  · have checked := beginsOnlyName_of_ascii c.toNat ascii
    rw [Char.ofNat_toNat] at checked
    obtain ⟨notBlank, others, notDigit⟩ := checked begins
    simp only [List.mem_cons, List.not_mem_nil, or_false, not_or] at others
    obtain ⟨notSlash, notColon, notQuote, notMinus⟩ := others
    exact { notBlank, notSlash, notColon, notQuote, notDigit, notMinus }
  · have differs : ∀ other : Char, other.toNat < 128 → c ≠ other := by
      rintro other low rfl
      exact ascii low
    have letter : inRanges letterRanges c.toNat = true := by
      simpa [beginsName, isLetter, ascii, differs _ (show '_'.toNat < 128 by decide),
        differs _ (show '.'.toNat < 128 by decide),
        differs _ (show '!'.toNat < 128 by decide),
        differs _ (show '$'.toNat < 128 by decide),
        differs _ (show '@'.toNat < 128 by decide)] using begins
    exact
      { notBlank := isBlank_of_inRanges letterRanges_disjoint letter
        notSlash := differs _ (by decide)
        notColon := differs _ (by decide)
        notQuote := differs _ (by decide)
        notDigit := Bool.eq_false_iff.mpr fun digit =>
          ascii (toNat_lt_of_isDigit digit)
        notMinus := differs _ (by decide) }

theorem beginsComment_iff {chars : List Char} :
    beginsComment chars = true ↔ ['/', '/'] <+: chars := by
  unfold beginsComment
  split
  · simp
  · rename_i other
    simp only [Bool.false_eq_true, false_iff]
    rintro ⟨rest, rfl⟩
    exact other rest rfl

theorem beginsComment_of_ne {c : Char} (notSlash : c ≠ '/') (rest : List Char) :
    beginsComment (c :: rest) = false := by
  rw [Bool.eq_false_iff, Ne, beginsComment_iff, List.cons_prefix_cons]
  exact fun slashes => notSlash slashes.1.symm

/-- What follows a name has no part in a comment. -/
theorem beginsComment_append {rest : List Char} (ends : EndsName rest)
    (c : Char) (name : List Char) :
    beginsComment (c :: (name ++ rest)) = beginsComment (c :: name) := by
  rw [Bool.eq_iff_iff, beginsComment_iff, beginsComment_iff]
  cases name with
  | cons d name =>
      simp [List.cons_prefix_cons]
  | nil =>
      cases rest with
      | nil =>
          simp
      | cons d rest =>
          have notSlash : '/' ≠ d := by
            rintro rfl
            exact absurd (ends '/' rfl) (by decide)
          simp [List.cons_prefix_cons, notSlash]

theorem spanName_of_endsName {rest : List Char} (ends : EndsName rest) :
    spanName rest = ([], rest) := by
  cases rest with
  | nil =>
      rfl
  | cons c rest =>
      simp [spanName, ends c rfl]

theorem spanName_append {name rest : List Char}
    (whole : spanName name = (name, [])) (ends : EndsName rest) :
    spanName (name ++ rest) = (name, rest) := by
  induction name with
  | nil =>
      exact spanName_of_endsName ends
  | cons c name inductionHypothesis =>
      rw [spanName] at whole
      rw [List.cons_append, spanName, beginsComment_append ends]
      split at whole
      · rename_i goesOn
        simp only [Prod.mk.injEq, List.cons.injEq, true_and] at whole
        rw [if_pos goesOn, inductionHypothesis (Prod.ext whole.1 whole.2)]
      · simp at whole

/-- A character that can begin a name begins one, as long as it goes on. -/
theorem lexLine_of_beginsName {c : Char} (begins : beginsName c = true) (rest : List Char) :
    lexLine (c :: rest) =
      (Lexeme.name (String.ofList (c :: (spanName rest).1)) :: ·) <$>
        lexLine (spanName rest).2 := by
  have only := beginsOnlyName begins
  rw [lexLine_cons, lexStep, only.notBlank, beginsComment_of_ne only.notSlash,
    only.notDigit, begins]
  simp [only.notColon, only.notQuote, only.notMinus]

/-- A name is lexed before what follows it. -/
theorem lexLine_name {text : String} (named : isName text = true)
    {rest : List Char} (ends : EndsName rest) :
    lexLine (text.toList ++ rest) =
      (Lexeme.name text :: ·) <$> lexLine rest := by
  unfold isName at named
  split at named
  · cases named
  · rename_i c name split
    rw [Bool.and_eq_true, beq_iff_eq] at named
    obtain ⟨begins, whole⟩ := named
    have back : String.ofList (c :: name) = text := by
      rw [← split, String.ofList_toList]
    rw [split, List.cons_append, lexLine_of_beginsName begins, spanName_append whole ends,
      back]

/-! ## Strings and marks -/

/-- A string is lexed before what follows it. -/
theorem lexLine_string (text : String) (rest : List Char) :
    lexLine ((Quoted.write text).toList ++ rest) =
      (Lexeme.str text :: ·) <$> lexLine rest := by
  have notBlank : isBlank '"' = false := by decide
  have noComment := beginsComment_of_ne (show '"' ≠ '/' by decide)
  rw [Quoted.write, String.toList_ofList, List.cons_append, lexLine_cons,
    lexStep, notBlank, noComment, Quoted.readTail_writeTail]
  simp

/-- A mark begins no other lexeme, the colon apart. -/
theorem mark_begins_nothing {mark : Char} (isMark : mark ∈ marks) :
    isBlank mark = false ∧ mark ≠ '/' ∧ mark ≠ '"' ∧
      mark.isDigit = false ∧ mark ≠ '-' ∧ beginsName mark = false := by
  have all : (marks.all fun mark =>
      !isBlank mark && mark != '/' && mark != '"' && !mark.isDigit && mark != '-' &&
        !beginsName mark) = true := by
    decide
  have checked := List.all_eq_true.mp all mark isMark
  simpa [and_assoc] using checked

/-- A mark is lexed before what follows it, unless it is one half of a double colon. -/
theorem lexLine_mark {mark : Char} (isMark : mark ∈ marks) {rest : List Char}
    (single : mark = ':' → rest.head? ≠ some ':') :
    lexLine (mark :: rest) = (Lexeme.mark mark :: ·) <$> lexLine rest := by
  obtain ⟨notBlank, notSlash, notQuote, notDigit, notMinus, notName⟩ :=
    mark_begins_nothing isMark
  have notColons : ¬ (mark = ':' ∧ rest.head? = some ':') :=
    fun colons => single colons.1 colons.2
  rw [lexLine_cons, lexStep, notBlank, beginsComment_of_ne notSlash,
    if_neg notColons, notDigit, notName]
  simp [notQuote, notMinus, isMark]

/-! ## Numbers -/

/-- Does what follows a number leave it as it is? -/
def EndsNumber (rest : List Char) : Prop :=
  ∀ c ∈ rest.head?, c.isAlphanum = false

theorem toNat_of_isDigit {c : Char} (digit : c.isDigit = true) :
    48 ≤ c.toNat ∧ c.toNat ≤ 57 :=
  Char.isDigit_iff_toNat.mp digit

theorem digitValue?_of_isDigit {c : Char} (digit : c.isDigit = true) :
    digitValue? 10 c = some (c.toNat - '0'.toNat) := by
  have small : c.toNat - 48 < 10 := by
    have range := toNat_of_isDigit digit
    omega
  simp [digitValue?, digit, small]

theorem foldlM_digits {digits : List Char}
    (allDigits : ∀ c ∈ digits, c.isDigit = true) (start : Nat) :
    digits.foldlM (fun value c =>
        (digitValue? 10 c).map (value * 10 + ·)) start =
      some (Nat.ofDigitChars 10 digits start) := by
  induction digits generalizing start with
  | nil =>
      rfl
  | cons c digits inductionHypothesis =>
      have later := inductionHypothesis
        fun other member => allDigits other (List.mem_cons_of_mem _ member)
      rw [List.foldlM_cons, digitValue?_of_isDigit (allDigits c (List.mem_cons_self ..)),
        Nat.ofDigitChars_cons, Nat.mul_comm, ← later]
      rfl

theorem isDigit_of_mem_toDigits {number : Nat} {c : Char}
    (member : c ∈ Nat.toDigits 10 number) : c.isDigit = true :=
  Nat.isDigit_of_mem_toDigits (by decide) (by decide) member

theorem exists_toDigits (number : Nat) :
    ∃ c tail, Nat.toDigits 10 number = c :: tail ∧ c.isDigit = true ∧
      ∀ d ∈ tail, d.isDigit = true := by
  cases split : Nat.toDigits 10 number with
  | nil =>
      exact absurd split Nat.toDigits_ne_nil
  | cons c tail =>
      have digits : ∀ d ∈ c :: tail, d.isDigit = true :=
        fun d member => isDigit_of_mem_toDigits (split ▸ member)
      exact ⟨c, tail, rfl, digits c (List.mem_cons_self ..),
        fun d member => digits d (List.mem_cons_of_mem _ member)⟩

/-- The decimal digits of a number are read back, and not as those of another base. -/
theorem readMagnitude?_toDigits (number : Nat) :
    readMagnitude? (Nat.toDigits 10 number) = some number := by
  have decimal :
      readMagnitude? (Nat.toDigits 10 number) =
        readDigits? 10 (Nat.toDigits 10 number) := by
    obtain ⟨c, tail, split, -, digits⟩ := exists_toDigits number
    rw [split]
    unfold readMagnitude?
    split
    · rename_i same
      cases same
      exact absurd (digits 'x' (List.mem_cons_self ..)) (by decide)
    · rename_i same
      cases same
      exact absurd (digits 'X' (List.mem_cons_self ..)) (by decide)
    · rfl
  rw [decimal, readDigits?, if_neg (by simp),
    foldlM_digits fun _ => isDigit_of_mem_toDigits,
    Nat.ofDigitChars_toDigits (by decide) (by decide)]

theorem toList_toString_ofNat (number : Nat) :
    (toString (Int.ofNat number)).toList = Nat.toDigits 10 number :=
  Nat.toList_repr

theorem toList_toString_negSucc (number : Nat) :
    (toString (Int.negSucc number)).toList =
      '-' :: Nat.toDigits 10 (number + 1) := by
  change ("-" ++ (number + 1).repr).toList = _
  rw [String.toList_append, Nat.toList_repr]
  rfl

theorem readInteger?_of_isDigit {c : Char} (digit : c.isDigit = true)
    (tail : List Char) :
    readInteger? (c :: tail) =
      ((readMagnitude? (c :: tail)).filter (· ≤ maxInteger)).map
        fun value => (value : Int) := by
  unfold readInteger?
  split
  · rename_i same
    cases same
    exact absurd digit (by decide)
  · rfl

theorem readInteger?_toString {value : Int} (small : value.natAbs ≤ maxInteger) :
    readInteger? (toString value).toList = some value := by
  cases value with
  | ofNat number =>
      have within : decide (number ≤ maxInteger) = true := decide_eq_true small
      obtain ⟨c, tail, split, digit, -⟩ := exists_toDigits number
      rw [toList_toString_ofNat, split, readInteger?_of_isDigit digit, ← split,
        readMagnitude?_toDigits, Option.filter_some, if_pos within]
      rfl
  | negSucc number =>
      have within : decide (number + 1 ≤ maxInteger) = true :=
        decide_eq_true small
      rw [toList_toString_negSucc, readInteger?, readMagnitude?_toDigits,
        Option.filter_some, if_pos within]
      rfl

/-- A number begins with a digit or a minus sign before one, and goes on with digits. -/
theorem exists_toString (value : Int) :
    ∃ c tail, (toString value).toList = c :: tail ∧
      (c.isDigit || (c == '-' && beginsWithDigit tail)) = true ∧
        ∀ d ∈ tail, d.isDigit = true := by
  cases value with
  | ofNat number =>
      obtain ⟨c, tail, split, digit, digits⟩ := exists_toDigits number
      exact ⟨c, tail, by rw [toList_toString_ofNat, split], by simp [digit], digits⟩
  | negSucc number =>
      obtain ⟨c, tail, split, digit, digits⟩ := exists_toDigits (number + 1)
      refine ⟨'-', c :: tail, by rw [toList_toString_negSucc, split],
        by simp [beginsWithDigit, digit], ?_⟩
      exact List.forall_mem_cons.mpr ⟨digit, digits⟩

theorem spanAlphanum_append {tail rest : List Char}
    (digits : ∀ d ∈ tail, d.isDigit = true) (ends : EndsNumber rest) :
    spanAlphanum (tail ++ rest) = (tail, rest) := by
  have alphanum : ∀ d ∈ tail, d.isAlphanum = true := by
    intro d member
    simp [Char.isAlphanum, digits d member]
  rw [spanAlphanum, List.takeWhile_append_of_pos alphanum,
    List.dropWhile_append_of_pos alphanum]
  cases rest with
  | nil =>
      simp
  | cons c rest =>
      simp [ends c rfl]

/-- What begins a number begins no other lexeme that is looked for before. -/
theorem begins_number {c : Char} {tail : List Char}
    (begins : (c.isDigit || (c == '-' && beginsWithDigit tail)) = true) :
    isBlank c = false ∧ c ≠ '/' ∧ c ≠ ':' ∧ c ≠ '"' := by
  rw [Bool.or_eq_true, Bool.and_eq_true, beq_iff_eq] at begins
  rcases begins with digit | ⟨rfl, -⟩
  · have inAscii : ∀ code < 128, (Char.ofNat code).isDigit = true →
        isBlank (Char.ofNat code) = false ∧ Char.ofNat code ≠ '/' ∧
          Char.ofNat code ≠ ':' ∧ Char.ofNat code ≠ '"' := by
      decide
    have checked := inAscii c.toNat (toNat_lt_of_isDigit digit)
    rw [Char.ofNat_toNat] at checked
    exact checked digit
  · decide

/-- A number is lexed before what follows it. -/
theorem lexLine_number {value : Int} (small : value.natAbs ≤ maxInteger)
    {rest : List Char} (ends : EndsNumber rest) :
    lexLine ((toString value).toList ++ rest) =
      (Lexeme.int value :: ·) <$> lexLine rest := by
  have back := readInteger?_toString small
  obtain ⟨c, tail, split, begins, digits⟩ := exists_toString value
  obtain ⟨notBlank, notSlash, notColon, notQuote⟩ := begins_number begins
  rw [split] at back
  have startsNumber :
      (c.isDigit || (c == '-' && beginsWithDigit (tail ++ rest))) = true := by
    cases tail with
    | cons d tail =>
        exact begins
    | nil =>
        have digit : c.isDigit = true := by simpa [beginsWithDigit] using begins
        rw [digit, Bool.true_or]
  rw [split, List.cons_append, lexLine_cons, lexStep, notBlank,
    beginsComment_of_ne notSlash, startsNumber, spanAlphanum_append digits ends, back]
  simp [notColon, notQuote]

/-! ## Words -/

theorem toNat_lt_of_isAlpha {c : Char} (alpha : c.isAlpha = true) :
    c.toNat < 128 := by
  delta Char.isAlpha Char.isUpper Char.isLower at alpha
  simp only [Bool.or_eq_true, Bool.and_eq_true, decide_eq_true_eq,
    UInt32.le_iff_toNat_le, ge_iff_le] at alpha
  change (65 ≤ c.toNat ∧ c.toNat ≤ 90) ∨ (97 ≤ c.toNat ∧ c.toNat ≤ 122) at alpha
  omega

theorem EndsName.endsNumber {rest : List Char} (ends : EndsName rest) :
    EndsNumber rest := by
  intro c isFirst
  refine Bool.eq_false_iff.mpr fun alphanum => ?_
  have wordChar : isWordChar c = true := by
    rw [Char.isAlphanum, Bool.or_eq_true] at alphanum
    rcases alphanum with alpha | digit
    · have ascii := toNat_lt_of_isAlpha alpha
      simp [isWordChar, isLetter_of_isAlpha c ascii alpha]
    · simp [isWordChar, isNumeral, toNat_lt_of_isDigit digit, digit]
  have stops := ends c isFirst
  simp [continuesName, wordChar] at stops

/-- Is a lexeme a name or a number that is lexed as it is shown? -/
def Lexeme.IsWord : Lexeme → Prop
  | .name text => isName text = true
  | .int value => value.natAbs ≤ maxInteger
  | _ => False

/-- A word is lexed before what follows it. -/
theorem lexLine_word {word : Lexeme} (isWord : word.IsWord)
    {rest : List Char} (ends : EndsName rest) :
    lexLine (word.text.toList ++ rest) = (word :: ·) <$> lexLine rest := by
  cases word with
  | name text =>
      exact lexLine_name isWord ends
  | int value =>
      exact lexLine_number isWord ends.endsNumber
  | str _ | mark _ | doubleColon =>
      cases isWord

end NullWeave
