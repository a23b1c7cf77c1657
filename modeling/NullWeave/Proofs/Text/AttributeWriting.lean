import NullWeave.Proofs.Text.RawCharacters
import NullWeave.Text.Printing.Declaration

/-!
# Attributes in writing

An argument of an attribute is written as it stands if it has only letters,
numerals, underscores, dots and bars and begins like a name, and between quotes
otherwise.  Read again, an argument is its words run together, as they are shown.
So one that is written as it stands is kept exactly if its words are shown as
they were.
-/

namespace NullWeave

/-! ## Arguments -/

theorem isRawArgument_iff {argument : String} :
    isRawArgument argument = true ↔
      ∃ c rest, argument.toList = c :: rest ∧ (isLetter c || c == '_') = true ∧
        ∀ d ∈ c :: rest, isRawChar d = true := by
  unfold isRawArgument
  split
  · rename_i empty
    simp [empty]
  · rename_i c rest split
    simp only [split, List.cons.injEq, Bool.and_eq_true, List.all_eq_true]
    constructor
    · rintro ⟨begins, raw⟩
      exact ⟨c, rest, ⟨rfl, rfl⟩, begins, raw⟩
    · rintro ⟨_, _, ⟨rfl, rfl⟩, begins, raw⟩
      exact ⟨begins, raw⟩

/-- Is an argument kept: written between quotes, or with bars that stay bars? -/
def KeepsArgument (argument : String) : Prop :=
  isRawArgument argument = true → BarsStayBars argument.toList

/-- The words that an argument is written as are run together to it if it is kept. -/
theorem keepsArgument_iff (argument : String) :
    KeepsArgument argument ↔
      ∃ lexemes, lexLine (argumentWritten argument).toList = .ok lexemes ∧
        shownChars lexemes = argument.toList := by
  rw [KeepsArgument, argumentWritten]
  by_cases raw : isRawArgument argument = true
  · obtain ⟨c, rest, split, begins, rawChars⟩ := isRawArgument_iff.mp raw
    have beginsToo : BeginsAsShown (c :: rest) := by
      refine .inl ?_
      rintro _ ⟨⟩
      rw [Bool.or_eq_true, beq_iff_eq] at begins
      rcases begins with letter | rfl
      · exact .inr (by simp [beginsName, letter])
      · exact .inr (by decide)
    rw [if_pos raw, split]
    change _ ↔ IsCutAsShown (c :: rest)
    rw [cutAsShown_iff rawChars]
    exact ⟨fun kept => ⟨beginsToo, kept raw⟩, fun kept _ => kept.2⟩
  · have cut := lexLine_string argument []
    rw [List.append_nil, lexLine_nil] at cut
    rw [if_neg raw]
    refine iff_of_true (fun raw' => absurd raw' raw) ⟨_, cut, ?_⟩
    simp [shownChars, LineReader.argumentText]

/-- An argument is cut before what follows it. -/
theorem lexLine_argumentWritten (argument : String) {rest : List Char} (ends : EndsName rest) :
    lexLine ((argumentWritten argument).toList ++ rest) =
      lexLine (argumentWritten argument).toList >>= fun front =>
        (front ++ ·) <$> lexLine rest := by
  rw [argumentWritten]
  split
  · rename_i raw
    obtain ⟨c, tail, split, -, rawChars⟩ := isRawArgument_iff.mp raw
    exact lexLine_raw_append (split ▸ rawChars) ends
  · have alone := lexLine_string argument []
    rw [List.append_nil] at alone
    rw [lexLine_string, alone]
    rfl

/-- No mark but a bar is cut from an argument. -/
theorem mark_of_mem_argumentWritten {argument : String} {lexemes : List Lexeme}
    (cut : lexLine (argumentWritten argument).toList = .ok lexemes) {mark : Char}
    (member : .mark mark ∈ lexemes) : mark = '|' := by
  rw [argumentWritten] at cut
  split at cut
  · rename_i raw
    obtain ⟨c, tail, split, -, rawChars⟩ := isRawArgument_iff.mp raw
    exact mark_of_mem_lexLine_raw (split ▸ rawChars) lexemes cut mark member
  · have alone := lexLine_string argument []
    rw [List.append_nil, lexLine_nil] at alone
    cases alone.symm.trans cut
    rcases List.mem_singleton.mp member with ⟨⟩

/-! ## Lists of arguments -/

namespace LineReader

/-- Words with no comma and no closing parenthesis are run together. -/
theorem attributeArguments_append {words : List Lexeme}
    (bars : ∀ mark, .mark mark ∈ words → mark = '|') (finished : List String)
    (current : String) (rest : List Lexeme) :
    attributeArguments finished current (words ++ rest) =
      attributeArguments finished (current ++ String.ofList (shownChars words)) rest := by
  induction words generalizing current with
  | nil =>
      rw [shownChars, List.flatMap_nil, String.ofList_nil, String.append_empty]
      rfl
  | cons word words inductionHypothesis =>
      have goesOn : attributeArguments finished current (word :: (words ++ rest)) =
          attributeArguments finished (current ++ argumentText word) (words ++ rest) := by
        cases word with
        | mark mark =>
            obtain rfl := bars mark (List.mem_cons_self ..)
            rfl
        | name _ | str _ | int _ | doubleColon =>
            rfl
      have shown : argumentText word ++ String.ofList (shownChars words) =
          String.ofList (shownChars (word :: words)) := by
        rw [shownChars, shownChars, List.flatMap_cons, String.ofList_append,
          String.ofList_toList]
      rw [List.cons_append, goesOn,
        inductionHypothesis fun mark member => bars mark (List.mem_cons_of_mem _ member),
        String.append_assoc, shown]

/-- What was finished stays in front, and no arguments are made of nothing. -/
theorem exists_of_attributeArguments {finished : List String} {current : String}
    {lexemes left : List Lexeme} {arguments : List String}
    (taken : attributeArguments finished current lexemes = some (arguments, left)) :
    (finished = [] ∧ arguments = []) ∨
      ∃ first others, arguments = finished ++ first :: others ∧
        (finished = [] → others = [] → first ≠ "") := by
  fun_induction attributeArguments finished current lexemes with
  | case1 =>
      cases taken
  | case2 finished current rest =>
      obtain ⟨same, -⟩ := Prod.mk.inj (Option.some.inj taken)
      split at same
      · rename_i empty
        rw [Bool.and_eq_true, List.isEmpty_iff] at empty
        exact .inl ⟨empty.2, same.symm⟩
      · rename_i notEmpty
        refine .inr ⟨current, [], same.symm, fun nothing _ empty => notEmpty ?_⟩
        rw [nothing, empty]
        rfl
  | case3 finished current rest inductionHypothesis =>
      rcases inductionHypothesis taken with ⟨nothing, -⟩ | ⟨first, others, same, -⟩
      · exact absurd nothing (by simp)
      · refine .inr ⟨current, first :: others, ?_, fun _ nothing => absurd nothing (by simp)⟩
        rw [same, List.append_assoc]
        rfl
  | case4 finished current lexeme rest _ _ inductionHypothesis =>
      exact inductionHypothesis taken

end LineReader

/-- Are characters cut into words that are taken for arguments, up to the bracket behind them? -/
def AreArguments (finished : List String) (chars : List Char) (arguments : List String) : Prop :=
  ∃ lexemes, lexLine chars = .ok lexemes ∧
    LineReader.attributeArguments finished "" lexemes = some (arguments, [.mark ']'])

/-- Arguments as they are written, with what stands behind them in an attribute. -/
def argumentsWritten (arguments : List String) : List Char :=
  (commaSeparated (arguments.map argumentWritten)).toList ++ [')', ']']

theorem argumentsWritten_singleton (argument : String) :
    argumentsWritten [argument] = (argumentWritten argument).toList ++ [')', ']'] := by
  rw [argumentsWritten, List.map_singleton, commaSeparated, String.intercalate_singleton]

theorem argumentsWritten_cons_cons (first next : String) (others : List String) :
    argumentsWritten (first :: next :: others) =
      (argumentWritten first).toList ++ ',' :: ' ' :: argumentsWritten (next :: others) := by
  rw [argumentsWritten, List.map_cons, List.map_cons, commaSeparated,
    String.intercalate_cons_cons, String.toList_append, String.toList_append,
    List.append_assoc, List.append_assoc]
  rfl

/-- What is taken for an argument before a comma or a parenthesis is the words run together. -/
theorem areArguments_append_iff {finished arguments : List String} {argument : String}
    {rest : List Char} (ends : EndsName rest) :
    AreArguments finished ((argumentWritten argument).toList ++ rest) arguments ↔
      ∃ front behind, lexLine (argumentWritten argument).toList = .ok front ∧
        lexLine rest = .ok behind ∧
        LineReader.attributeArguments finished (String.ofList (shownChars front)) behind =
          some (arguments, [.mark ']']) := by
  rw [AreArguments, lexLine_argumentWritten argument ends]
  constructor
  · rintro ⟨lexemes, cut, taken⟩
    obtain ⟨front, cutFront, cut⟩ := bind_eq_ok_iff.mp cut
    obtain ⟨behind, cutBehind, rfl⟩ := map_eq_ok_iff.mp cut
    rw [LineReader.attributeArguments_append
      fun mark member => mark_of_mem_argumentWritten cutFront member,
      String.empty_append] at taken
    exact ⟨front, behind, cutFront, cutBehind, taken⟩
  · rintro ⟨front, behind, cutFront, cutBehind, taken⟩
    refine ⟨front ++ behind, bind_eq_ok_iff.mpr ⟨front, cutFront,
      map_eq_ok_iff.mpr ⟨behind, cutBehind, rfl⟩⟩, ?_⟩
    rwa [LineReader.attributeArguments_append
      fun mark member => mark_of_mem_argumentWritten cutFront member, String.empty_append]

/-- Arguments in writing are taken for themselves exactly if each of them is kept. -/
theorem areArguments_argumentsWritten_iff {finished : List String} {first : String}
    {others : List String} (some : finished = [] → others = [] → first ≠ "") :
    AreArguments finished (argumentsWritten (first :: others)) (finished ++ first :: others) ↔
      ∀ argument ∈ first :: others, KeepsArgument argument := by
  have shows {text : String} {front : List Lexeme} :
      String.ofList (shownChars front) = text ↔ shownChars front = text.toList := by
    rw [← String.toList_inj, String.toList_ofList]
  induction others generalizing finished first with
  | nil =>
      have ends : EndsName [')', ']'] := endsName_cons (by decide) _
      have closes : lexLine [')', ']'] = .ok [.mark ')', .mark ']'] := by decide
      rw [argumentsWritten_singleton, areArguments_append_iff ends, List.forall_mem_singleton,
        keepsArgument_iff]
      refine exists_congr fun front => ?_
      rw [← shows, closes]
      constructor
      · rintro ⟨behind, cut, ⟨⟩, taken⟩
        obtain ⟨same, -⟩ := Prod.mk.inj (Option.some.inj taken)
        split at same
        · rename_i empty
          rw [Bool.and_eq_true, List.isEmpty_iff] at empty
          rw [empty.2] at same
          cases same
        · exact ⟨cut, (List.cons.inj (List.append_cancel_left same)).1⟩
      · rintro ⟨cut, rfl⟩
        refine ⟨_, cut, rfl, ?_⟩
        rw [LineReader.attributeArguments, if_neg]
        intro empty
        rw [Bool.and_eq_true, String.isEmpty_iff, List.isEmpty_iff] at empty
        exact some empty.2 rfl empty.1
  | cons next others inductionHypothesis =>
      have ends := endsName_cons (show continuesName ',' = false by decide)
        (' ' :: argumentsWritten (next :: others))
      have later := @inductionHypothesis (finished ++ [first]) next
        fun nothing => absurd nothing (by simp)
      rw [List.append_assoc, List.singleton_append] at later
      rw [argumentsWritten_cons_cons, areArguments_append_iff ends, List.forall_mem_cons,
        keepsArgument_iff]
      refine Iff.trans ?_ (and_congr_right' later)
      have comma : lexLine (',' :: ' ' :: argumentsWritten (next :: others)) =
          (.mark ',' :: ·) <$> lexLine (argumentsWritten (next :: others)) := by
        rw [lexLine_mark (by decide) fun colon => absurd colon (by decide), lexLine_blank]
      rw [comma]
      constructor
      · rintro ⟨front, behind, cut, cutBehind, taken⟩
        obtain ⟨words, cutLater, rfl⟩ := map_eq_ok_iff.mp cutBehind
        rw [LineReader.attributeArguments] at taken
        have same : String.ofList (shownChars front) = first := by
          rcases LineReader.exists_of_attributeArguments taken with
            ⟨nothing, -⟩ | ⟨second, more, same, -⟩
          · exact absurd nothing (by simp)
          · rw [List.append_assoc] at same
            exact (List.cons.inj (List.append_cancel_left same)).1.symm
        rw [same] at taken
        exact ⟨⟨front, cut, shows.mp same⟩, words, cutLater, taken⟩
      · rintro ⟨⟨front, cut, same⟩, words, cutLater, taken⟩
        refine ⟨front, _, cut, map_eq_ok_iff.mpr ⟨words, cutLater, rfl⟩, ?_⟩
        rw [LineReader.attributeArguments, shows.mpr same]
        exact taken

/-! ## Attributes -/

namespace LineReader

theorem runs_done_iff {lexemes left : List Lexeme} :
    done.run lexemes = .ok ((), left) ↔ lexemes = [] ∧ left = [] := by
  cases lexemes with
  | nil =>
      constructor
      · rintro ⟨⟩
        exact ⟨rfl, rfl⟩
      · rintro ⟨-, rfl⟩
        rfl
  | cons lexeme rest =>
      exact iff_of_false nofun nofun

theorem runs_requireMark_iff {mark : Char} {lexemes left : List Lexeme} :
    (requireMark mark).run lexemes = .ok ((), left) ↔ lexemes = .mark mark :: left := by
  cases lexemes with
  | nil =>
      exact iff_of_false nofun nofun
  | cons lexeme rest =>
      change (if lexeme = .mark mark then _ else _ : LineReader Unit).run rest = _ ↔ _
      split
      · rename_i same
        rw [same, List.cons_inj_right]
        constructor
        · rintro ⟨⟩
          rfl
        · rintro rfl
          rfl
      · rename_i other
        exact iff_of_false nofun fun same => other (List.cons.inj same).1

theorem runs_attributesWithin_nil_iff {fuel : Nat} {lexemes : List Lexeme} :
    (attributesWithin fuel).run lexemes = .ok ([], []) ↔ lexemes = [] := by
  cases fuel with
  | zero =>
      constructor
      · rintro ⟨⟩
        rfl
      · rintro rfl
        rfl
  | succ fuel =>
      constructor
      · intro ran
        rw [attributesWithin] at ran
        obtain ⟨_, _, ⟨⟩, ran⟩ := runs_bind_iff.mp ran
        split at ran
        · cases ran
        · obtain ⟨-, _, -, ran⟩ := runs_bind_iff.mp ran
          obtain ⟨first, _, -, ran⟩ := runs_bind_iff.mp ran
          obtain ⟨others, _, -, ⟨⟩⟩ := runs_bind_iff.mp ran
        · cases ran
          rfl
      · rintro rfl
        rfl

/-- One attribute is all that is taken if nothing is left after its body. -/
theorem runs_attributes_singleton_iff {name : String} {rest : List Lexeme} {mark : Attribute} :
    attributes.run (.mark '[' :: .name name :: rest) = .ok ([mark], []) ↔
      attributeBody.run (.name name :: rest) = .ok (mark, []) := by
  change (attributeBody >>= fun first => attributesWithin (rest.length + 1) >>= fun others =>
    pure (first :: others)).run (.name name :: rest) = _ ↔ _
  rw [runs_bind_iff]
  constructor
  · rintro ⟨first, left, ran, later⟩
    obtain ⟨others, _, ended, ⟨⟩⟩ := runs_bind_iff.mp later
    rwa [← runs_attributesWithin_nil_iff.mp ended]
  · intro ran
    exact ⟨mark, [], ran, runs_bind_iff.mpr
      ⟨[], [], runs_attributesWithin_nil_iff.mpr rfl, rfl⟩⟩

theorem runs_attributeBody_iff {name : String} {lexemes left : List Lexeme}
    {mark : Attribute} :
    attributeBody.run (.name name :: .mark '(' :: lexemes) = .ok (mark, left) ↔
      name = mark.name ∧
        attributeArguments [] "" lexemes = some (mark.arguments, .mark ']' :: left) := by
  have opened : (optionalMark '(').run (.mark '(' :: lexemes) = .ok (true, lexemes) := by
    rw [run_optionalMark, if_pos rfl]
  have there : (get : LineReader (List Lexeme)).run lexemes = .ok (lexemes, lexemes) := rfl
  rw [attributeBody, run_bind_of_ok (run_requireName name _), run_bind_of_ok opened, if_pos rfl,
    run_bind_of_ok there]
  cases attributeArguments [] "" lexemes with
  | none =>
      refine iff_of_false ?_ ?_
      · rintro ⟨⟩
      · rintro ⟨-, ⟨⟩⟩
  | some taken =>
      obtain ⟨arguments, rest⟩ := taken
      change (requireMark ']' >>= fun _ => pure ⟨name, arguments⟩ : LineReader Attribute).run rest =
        _ ↔ _
      rw [runs_bind_iff]
      constructor
      · rintro ⟨_, _, closed, ⟨⟩⟩
        rw [runs_requireMark_iff.mp closed]
        exact ⟨rfl, rfl⟩
      · rintro ⟨rfl, taken⟩
        cases taken
        exact ⟨(), left, runs_requireMark_iff.mpr rfl, rfl⟩

end LineReader

/-- The attributes that are read where one is written between brackets. -/
def Attribute.reread (mark : Attribute) : Except TextFault (List Attribute) := do
  let lexemes ← lexLine ("[" ++ mark.written ++ "]").toList
  let reader : LineReader (List Attribute) := do
    let marks ← LineReader.attributes
    LineReader.done
    pure marks
  reader.run' lexemes

/-- Can an attribute be taken from a line?  No arguments are made of nothing. -/
structure Attribute.IsTaken (mark : Attribute) : Prop where
  isName : isName mark.name = true
  notOne : mark.arguments ≠ [""]

theorem Attribute.reread_eq_ok_iff {mark : Attribute} {marks : List Attribute} :
    mark.reread = .ok marks ↔
      ∃ lexemes, lexLine ("[" ++ mark.written ++ "]").toList = .ok lexemes ∧
        LineReader.attributes.run lexemes = .ok (marks, []) := by
  rw [Attribute.reread, bind_eq_ok_iff]
  refine exists_congr fun lexemes => and_congr_right fun _ => ?_
  rw [StateT.run'_eq, map_eq_ok_iff]
  constructor
  · rintro ⟨⟨_, left⟩, ran, rfl⟩
    obtain ⟨marks, between, taken, ran⟩ := runs_bind_iff.mp ran
    obtain ⟨_, _, ended, ⟨⟩⟩ := runs_bind_iff.mp ran
    obtain ⟨rfl, -⟩ := LineReader.runs_done_iff.mp ended
    exact taken
  · intro taken
    exact ⟨(marks, []), runs_bind_iff.mpr ⟨marks, [], taken, runs_bind_iff.mpr
      ⟨(), [], LineReader.runs_done_iff.mpr ⟨rfl, rfl⟩, rfl⟩⟩, rfl⟩

/-- An attribute that can be taken from a line is read back exactly if its arguments are kept. -/
theorem Attribute.IsTaken.reread_iff {mark : Attribute} (isTaken : mark.IsTaken) :
    mark.reread = .ok [mark] ↔ ∀ argument ∈ mark.arguments, KeepsArgument argument := by
  obtain ⟨name, arguments⟩ := mark
  have opens (rest : List Char) : lexLine ('[' :: rest) = (.mark '[' :: ·) <$> lexLine rest :=
    lexLine_mark (by decide) fun colon => absurd colon (by decide)
  rw [reread_eq_ok_iff]
  cases arguments with
  | nil =>
      have chars : ("[" ++ Attribute.written ⟨name, []⟩ ++ "]").toList =
          '[' :: (name.toList ++ [']']) := by
        rw [String.toList_append, String.toList_append]
        rfl
      have closes : lexLine [']'] = .ok [.mark ']'] := by decide
      refine iff_of_true ⟨[.mark '[', .name name, .mark ']'], ?_, rfl⟩ (List.forall_mem_nil _)
      rw [chars, opens, lexLine_name isTaken.isName (endsName_cons (by decide) _), closes]
      rfl
  | cons first others =>
      have chars : ("[" ++ Attribute.written ⟨name, first :: others⟩ ++ "]").toList =
          '[' :: (name.toList ++ '(' :: argumentsWritten (first :: others)) := by
        have written : Attribute.written ⟨name, first :: others⟩ =
            name ++ "(" ++ commaSeparated ((first :: others).map argumentWritten) ++ ")" := rfl
        rw [written, argumentsWritten]
        simp only [String.toList_append, List.append_assoc]
        rfl
      have cut : lexLine ("[" ++ Attribute.written ⟨name, first :: others⟩ ++ "]").toList =
          ([.mark '[', .name name, .mark '('] ++ ·) <$>
            lexLine (argumentsWritten (first :: others)) := by
        rw [chars, opens, lexLine_name isTaken.isName (endsName_cons (by decide) _),
          lexLine_mark (by decide) fun colon => absurd colon (by decide), Functor.map_map,
          Functor.map_map]
        rfl
      have some : ([] : List String) = [] → others = [] → first ≠ "" := by
        rintro - rfl rfl
        exact isTaken.notOne rfl
      rw [← areArguments_argumentsWritten_iff some, cut, AreArguments]
      constructor
      · rintro ⟨_, here, ran⟩
        obtain ⟨lexemes, there, rfl⟩ := map_eq_ok_iff.mp here
        exact ⟨lexemes, there, (LineReader.runs_attributeBody_iff.mp
          (LineReader.runs_attributes_singleton_iff.mp ran)).2⟩
      · rintro ⟨lexemes, there, taken⟩
        exact ⟨_, map_eq_ok_iff.mpr ⟨lexemes, there, rfl⟩,
          LineReader.runs_attributes_singleton_iff.mpr
            (LineReader.runs_attributeBody_iff.mpr ⟨rfl, taken⟩)⟩

theorem LineReader.yields_isTaken : Yields Attribute.IsTaken attributeBody := by
  refine yields_requireName.bind fun name named => ?_
  refine (yields_optionalMark '(').bind fun opened _ => ?_
  have finish (arguments : List String) (notOne : arguments ≠ [""]) :
      Yields Attribute.IsTaken (do requireMark ']'; pure { name, arguments }) :=
    (yields_requireMark ']').bind fun _ _ => yields_pure ⟨named, notOne⟩
  dsimp only
  split
  · refine yields_get_bind fun lexemes cut => ?_
    split
    · rintro _ _ ⟨⟩
    · rename_i arguments rest taken
      refine yields_set_bind (areCut_attributeArguments cut taken) (finish arguments ?_) _ cut
      rintro rfl
      rcases exists_of_attributeArguments taken with ⟨-, ⟨⟩⟩ | ⟨first, others, same, notOne⟩
      cases same
      exact notOne rfl rfl rfl
  · exact finish [] (List.cons_ne_nil _ _).symm

/--
An attribute that was taken from a line is read back as it was exactly if each of
its arguments is written between quotes or has only bars that stay bars.
-/
theorem reread_iff_of_lexLine {line : List Char} {lexemes left : List Lexeme}
    {marks : List Attribute} (cut : lexLine line = .ok lexemes)
    (ran : LineReader.attributes.run lexemes = .ok (marks, left)) {mark : Attribute}
    (member : mark ∈ marks) :
    mark.reread = .ok [mark] ↔ ∀ argument ∈ mark.arguments, KeepsArgument argument :=
  ((LineReader.Yields.attributes LineReader.yields_isTaken lexemes
    (areCut_of_lexLine cut) marks left ran).1 mark member).reread_iff

/-- Between bars, a name and a number in decimal are read back. -/
theorem reread_iff_of_lexLine_bars :
    lexLine "[X(\"A|b.c|10\", \"A b\")]".toList =
        .ok [.mark '[', .name "X", .mark '(', .str "A|b.c|10", .mark ',', .str "A b",
          .mark ')', .mark ']'] ∧
      (⟨"X", ["A|b.c|10", "A b"]⟩ : Attribute).reread =
        .ok [⟨"X", ["A|b.c|10", "A b"]⟩] := by
  have cut : lexLine "[X(\"A|b.c|10\", \"A b\")]".toList =
      .ok [.mark '[', .name "X", .mark '(', .str "A|b.c|10", .mark ',', .str "A b",
        .mark ')', .mark ']'] := by
    decide +kernel
  refine ⟨cut, (reread_iff_of_lexLine cut rfl (List.mem_singleton_self _)).mpr ?_⟩
  refine List.forall_mem_cons.mpr ⟨?_, List.forall_mem_singleton.mpr ?_⟩
  · rw [keepsArgument_iff]
    exact ⟨[.name "A", .mark '|', .name "b.c", .mark '|', .int 10], by decide +kernel,
      by decide +kernel⟩
  · rw [keepsArgument_iff]
    exact ⟨[.str "A b"], by decide +kernel, by decide +kernel⟩

/-- A number that begins with a zero is written behind a bar as it stands, and read as another. -/
theorem not_reread_zero :
    lexLine "[X(\"A|01\")]".toList =
        .ok [.mark '[', .name "X", .mark '(', .str "A|01", .mark ')', .mark ']'] ∧
      LineReader.attributes.run
          [.mark '[', .name "X", .mark '(', .str "A|01", .mark ')', .mark ']'] =
        .ok ([⟨"X", ["A|01"]⟩], []) ∧
      (⟨"X", ["A|01"]⟩ : Attribute).reread = .ok [⟨"X", ["A|1"]⟩] := by
  refine ⟨by decide +kernel, by decide +kernel, by decide +kernel⟩

end NullWeave
