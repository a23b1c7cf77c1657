import NullWeave.Proofs.Text.Mention

/-!
# Types in writing

A signature is written as a text that is lexed as the lexemes of its parts, and
these are read as one type in writing, whatever follows that cannot go on with
a type.  The full names that are written have to be plain words for that; the
few types that have words of their own are always written with them.
-/

namespace NullWeave

/-! ## Texts that are lexed piece by piece -/

/-- Is a text lexed as some lexemes before whatever a name ends at? -/
def Lexes (text : String) (lexemes : List Lexeme) : Prop :=
  ∀ rest, EndsName rest →
    lexLine (text.toList ++ rest) = (lexemes ++ ·) <$> lexLine rest

theorem map_append_map {ε : Type} (first second : List Lexeme)
    (result : Except ε (List Lexeme)) :
    (first ++ ·) <$> (second ++ ·) <$> result = (first ++ second ++ ·) <$> result := by
  cases result <;> simp [Functor.map, Except.map]

theorem lexes_name {name : String} (named : isName name = true) :
    Lexes name [.name name] :=
  fun _ ends => lexLine_name named ends

theorem Lexes.append {text other : String} {lexemes others : List Lexeme}
    (lexes : Lexes text lexemes) (lexesToo : Lexes other others)
    (ends : ∀ rest, EndsName rest → EndsName (other.toList ++ rest)) :
    Lexes (text ++ other) (lexemes ++ others) := by
  intro rest restEnds
  rw [String.toList_append, List.append_assoc, lexes _ (ends rest restEnds),
    lexesToo rest restEnds, map_append_map]

/-- A mark that is not a colon is lexed before whatever follows it. -/
theorem lexLine_singleMark {mark : Char} (isMark : mark ∈ marks) (notColon : mark ≠ ':')
    (rest : List Char) :
    lexLine (mark :: rest) = ([.mark mark] ++ ·) <$> lexLine rest :=
  lexLine_mark isMark fun colon => absurd colon notColon

theorem continuesName_of_mem_marks {mark : Char} (isMark : mark ∈ marks) :
    continuesName mark = false := by
  have all : marks.all (fun mark => !continuesName mark) = true := by decide
  simpa using List.all_eq_true.mp all mark isMark

theorem endsName_mark {mark : Char} (isMark : mark ∈ marks) (rest : List Char) :
    EndsName (mark :: rest) :=
  endsName_cons (continuesName_of_mem_marks isMark) rest

/-- Texts with commas between them are lexed one by one. -/
theorem lexes_commaSeparated {texts : List String} {pieces : List (List Lexeme)}
    (lexes : List.Forall₂ Lexes texts pieces) :
    Lexes (commaSeparated texts) ([.mark ','].intercalate pieces) := by
  intro rest ends
  rw [commaSeparated, String.toList_intercalate]
  have comma : ", ".toList = [',', ' '] := rfl
  rw [comma]
  induction lexes with
  | nil =>
      exact (id_map (lexLine rest)).symm
  | @cons text piece texts pieces here later inductionHypothesis =>
      cases later with
      | nil =>
          simpa using here rest ends
      | cons next others =>
          rw [List.map_cons, List.map_cons, List.intercalate_cons_cons, ← List.map_cons,
            List.intercalate_cons_cons, List.append_assoc, List.append_assoc,
            List.cons_append, List.cons_append, List.nil_append,
            here _ (endsName_mark (by decide) _),
            lexLine_singleMark (by decide) (by decide), lexLine_blank, inductionHypothesis,
            map_append_map, map_append_map, List.append_assoc]

/-! ## Signatures as lexemes -/

namespace Graph

mutual

/-- The types whose full names are written for a signature. -/
def typesWritten (graph : Graph) : Signature → List TypeId
  | .void => []
  | .named type => if (wordForName? (graph.typeName type)).isSome then [] else [type]
  | .param _ _ => []
  | .byRef element => graph.typesWritten element
  | .array element => graph.typesWritten element
  | .generic type arguments => type :: graph.allTypesWritten arguments

/-- The types whose full names are written for several signatures. -/
def allTypesWritten (graph : Graph) : List Signature → List TypeId
  | [] => []
  | signature :: rest => graph.typesWritten signature ++ graph.allTypesWritten rest
end

mutual

/-- The lexemes of a signature as it is written. -/
def lexemesWritten (graph : Graph) : Signature → List Lexeme
  | .void => [.name "void"]
  | .named type => [.name (graph.typeWritten type)]
  | .param name isValueType =>
      .name ("!" ++ name) :: if isValueType then [.mark ':', .name "struct"] else []
  | .byRef element => graph.lexemesWritten element ++ [.mark '&']
  | .array element => graph.lexemesWritten element ++ [.mark '[', .mark ']']
  | .generic type arguments =>
      .name (graph.typeName type) :: .mark '<' ::
        ([.mark ','].intercalate (graph.allLexemesWritten arguments) ++ [.mark '>'])

/-- The lexemes of each of several signatures as they are written. -/
def allLexemesWritten (graph : Graph) : List Signature → List (List Lexeme)
  | [] => []
  | signature :: rest => graph.lexemesWritten signature :: graph.allLexemesWritten rest
end

mutual

/-- The type in writing that a signature is read as. -/
def exprWritten (graph : Graph) : Signature → TypeExpr
  | .void => .void
  | .named type => .named (graph.typeWritten type)
  | .param name isValueType => .param name isValueType
  | .byRef element => .byRef (graph.exprWritten element)
  | .array element => .array (graph.exprWritten element)
  | .generic type arguments => .generic (graph.typeName type) (graph.allExprsWritten arguments)

/-- The types in writing that several signatures are read as. -/
def allExprsWritten (graph : Graph) : List Signature → List TypeExpr
  | [] => []
  | signature :: rest => graph.exprWritten signature :: graph.allExprsWritten rest
end

section Lists

variable (graph : Graph) (signatures : List Signature)

@[simp]
theorem allTypesWritten_eq_flatMap :
    graph.allTypesWritten signatures = signatures.flatMap graph.typesWritten := by
  induction signatures with
  | nil =>
      rfl
  | cons signature rest inductionHypothesis =>
      rw [allTypesWritten, inductionHypothesis, List.flatMap_cons]

@[simp]
theorem allLexemesWritten_eq_map :
    graph.allLexemesWritten signatures = signatures.map graph.lexemesWritten := by
  induction signatures with
  | nil =>
      rfl
  | cons signature rest inductionHypothesis =>
      rw [allLexemesWritten, inductionHypothesis, List.map_cons]

@[simp]
theorem allExprsWritten_eq_map :
    graph.allExprsWritten signatures = signatures.map graph.exprWritten := by
  induction signatures with
  | nil =>
      rfl
  | cons signature rest inductionHypothesis =>
      rw [allExprsWritten, inductionHypothesis, List.map_cons]

@[simp]
theorem sigsWritten_eq_map :
    graph.sigsWritten signatures = signatures.map graph.sigWritten := by
  induction signatures with
  | nil =>
      rfl
  | cons signature rest inductionHypothesis =>
      rw [sigsWritten, inductionHypothesis, List.map_cons]

end Lists

/-- Is the full name of a type one plain word, and no other type in writing? -/
structure PlainlyNamed (graph : Graph) (type : TypeId) : Prop where
  isName : isName (graph.typeName type) = true
  notVoid : graph.typeName type ≠ "void"
  notParameter : (graph.typeName type).toList.head? ≠ some '!'

/-- A word for a type is a name and no other type in writing. -/
theorem wordForName?_plain {name word : String} (same : wordForName? name = some word) :
    isName word = true ∧ word ≠ "void" ∧ word.toList.head? ≠ some '!' := by
  unfold wordForName? at same
  split at same <;> cases same <;> decide +kernel

/-- What is written for a named type is a name and no other type in writing. -/
theorem typeWritten_plain {graph : Graph} {type : TypeId}
    (plain : ∀ written ∈ graph.typesWritten (.named type), graph.PlainlyNamed written) :
    isName (graph.typeWritten type) = true ∧ graph.typeWritten type ≠ "void" ∧
      (graph.typeWritten type).toList.head? ≠ some '!' := by
  rw [typeWritten]
  rw [typesWritten] at plain
  cases word : wordForName? (graph.typeName type) with
  | some word =>
      exact wordForName?_plain word
  | none =>
      rw [word] at plain
      have here := plain type (List.mem_singleton_self _)
      exact ⟨here.isName, here.notVoid, here.notParameter⟩

/-- A signature as it is written is lexed as its lexemes. -/
theorem Forms.lexes {graph : Graph} {signature : Signature} (forms : graph.Forms signature)
    (plain : ∀ type ∈ graph.typesWritten signature, graph.PlainlyNamed type) :
    Lexes (graph.sigWritten signature) (graph.lexemesWritten signature) := by
  induction forms with
  | void =>
      have named : isName "void" = true := by decide +kernel
      exact lexes_name named
  | named _ =>
      exact lexes_name (typeWritten_plain plain).1
  | @param name isValueType written =>
      cases isValueType with
      | false =>
          have bare : graph.sigWritten (.param name false) = "!" ++ name := by
            simp [sigWritten]
          rw [bare]
          exact lexes_name written.isName
      | true =>
          have lexesStruct : Lexes ":struct" [.mark ':', .name "struct"] := by
            intro rest ends
            change lexLine (':' :: ("struct".toList ++ rest)) = _
            rw [lexLine_mark (by decide) (by simp), lexes_name (by decide +kernel) rest ends]
            exact map_append_map [.mark ':'] _ _
          exact (lexes_name written.isName).append lexesStruct fun rest _ =>
            endsName_mark (by decide) _
  | byRef _ inductionHypothesis =>
      have lexesMark : Lexes "&" [.mark '&'] := fun rest _ =>
        lexLine_singleMark (by decide) (by decide) rest
      exact (inductionHypothesis plain).append lexesMark fun rest _ =>
        endsName_mark (by decide) _
  | array _ inductionHypothesis =>
      have lexesMarks : Lexes "[]" [.mark '[', .mark ']'] := by
        intro rest _
        change lexLine ('[' :: ']' :: rest) = _
        rw [lexLine_singleMark (by decide) (by decide),
          lexLine_singleMark (by decide) (by decide)]
        exact map_append_map [.mark '['] _ _
      exact (inductionHypothesis plain).append lexesMarks fun rest _ =>
        endsName_mark (by decide) _
  | @generic type arguments _ _ _ _ inductionHypothesis =>
      rw [typesWritten, allTypesWritten_eq_flatMap] at plain
      obtain ⟨here, inside⟩ := List.forall_mem_cons.mp plain
      have pieces : List.Forall₂ Lexes (arguments.map graph.sigWritten)
          (arguments.map graph.lexemesWritten) := by
        rw [List.forall₂_map_left_iff, List.forall₂_map_right_iff, List.forall₂_same]
        intro argument member
        exact inductionHypothesis argument member fun type written =>
          inside type (List.mem_flatMap.mpr ⟨argument, member, written⟩)
      rw [sigWritten, lexemesWritten, sigsWritten_eq_map, allLexemesWritten_eq_map]
      intro rest ends
      rw [String.toList_append, String.toList_append, String.toList_append,
        List.append_assoc, List.append_assoc, List.append_assoc]
      change lexLine ((graph.typeName type).toList ++ '<' ::
        ((commaSeparated (arguments.map graph.sigWritten)).toList ++ '>' :: rest)) = _
      rw [lexes_name here.isName _ (endsName_mark (by decide) _),
        lexLine_singleMark (by decide) (by decide),
        lexes_commaSeparated pieces _ (endsName_mark (by decide) _),
        lexLine_singleMark (by decide) (by decide), map_append_map, map_append_map,
        map_append_map]
      simp

end Graph

/-! ## Reading the lexemes of a signature -/

/-- Can lexemes not go on with a type right after its name, but for marks that follow a type? -/
structure EndsTypeName (left : List Lexeme) : Prop where
  notGeneric : left.head? ≠ some (.mark '<')
  notColon : left.head? ≠ some (.mark ':')

namespace LineReader

theorem run_requireName_bind {α : Type} (name : String) (left : List Lexeme)
    (next : String → LineReader α) :
    (requireName >>= next).run (.name name :: left) = (next name).run left := rfl

theorem run_optionalMark_of_ne {mark : Char} {left : List Lexeme}
    (differs : left.head? ≠ some (.mark mark)) :
    (optionalMark mark).run left = .ok (false, left) := by
  rcases left with _ | ⟨lexeme, rest⟩
  · rfl
  · cases lexeme with
    | mark found =>
        have other : found ≠ mark := by
          rintro rfl
          exact differs rfl
        rw [run_optionalMark, if_neg other]
    | name _ | str _ | int _ | doubleColon =>
        rfl

theorem run_optionalStruct (left : List Lexeme) :
    optionalStruct.run left =
      match left with
      | .mark ':' :: .name "struct" :: rest => .ok (true, rest)
      | other => .ok (false, other) := by
  change (match left with
    | .mark ':' :: .name "struct" :: rest => do
        set rest
        pure true
    | _ => pure false : LineReader Bool).run left = _
  split <;> rfl

theorem run_optionalStruct_of_ne {left : List Lexeme}
    (differs : left.head? ≠ some (.mark ':')) :
    optionalStruct.run left = .ok (false, left) := by
  rw [run_optionalStruct]
  split
  · exact absurd rfl differs
  · rfl

/-- A name behind an exclamation mark is read as a generic parameter. -/
theorem run_typeAfterName_param {arguments : LineReader (List TypeExpr)} {name : String}
    (named : IsParameterName name) (isValueType : Bool) {left : List Lexeme}
    (ends : EndsTypeName left) :
    (typeAfterName arguments ("!" ++ name)).run
        ((if isValueType then [.mark ':', .name "struct"] else []) ++ left) =
      .ok (.param name isValueType, left) := by
  have begins : ("!" ++ name).toList = '!' :: name.toList := by
    rw [String.toList_append]
    rfl
  have notVoid : "!" ++ name ≠ "void" := by
    intro same
    have lists := congrArg String.toList same
    rw [begins] at lists
    cases lists
  have isParameter : ("!" ++ name).toList.head? = some '!' := by
    rw [begins]
    rfl
  have constrained : optionalStruct.run
      ((if isValueType then [.mark ':', .name "struct"] else []) ++ left) =
        .ok (isValueType, left) := by
    cases isValueType with
    | false =>
        exact run_optionalStruct_of_ne ends.notColon
    | true =>
        rfl
  rw [typeAfterName, if_neg notVoid, if_pos isParameter, run_bind_of_ok constrained,
    named.withoutBangs]
  rfl

/-- A plain name is read as the name of a type. -/
theorem run_typeAfterName_named {arguments : LineReader (List TypeExpr)} {name : String}
    (notVoid : name ≠ "void") (notParameter : name.toList.head? ≠ some '!')
    {left : List Lexeme} (ends : EndsTypeName left) :
    (typeAfterName arguments name).run left = .ok (.named name, left) := by
  rw [typeAfterName, if_neg notVoid, if_neg notParameter,
    run_bind_of_ok (run_optionalMark_of_ne ends.notGeneric)]
  rfl

/-- A plain name with types in angle brackets is read as a generic type. -/
theorem run_typeAfterName_generic {arguments : LineReader (List TypeExpr)} {name : String}
    {types : List TypeExpr} {inside left : List Lexeme}
    (notVoid : name ≠ "void") (notParameter : name.toList.head? ≠ some '!')
    (ran : arguments.run inside = .ok (types, .mark '>' :: left)) :
    (typeAfterName arguments name).run (.mark '<' :: inside) =
      .ok (.generic name types, left) := by
  have opened : (optionalMark '<').run (.mark '<' :: inside) = .ok (true, inside) := by
    rw [run_optionalMark, if_pos rfl]
  rw [typeAfterName, if_neg notVoid, if_neg notParameter, run_bind_of_ok opened]
  change (arguments >>= _).run inside = _
  rw [run_bind_of_ok ran, run_bind_of_ok (run_requireMark_self '>' left)]
  rfl

theorem run_suffixes (type : TypeExpr) (left : List Lexeme) :
    (suffixes type).run left = .ok (withSuffixes type left) := rfl

/-- What cannot go on with a type is left by the marks behind it. -/
theorem withSuffixes_of_ne {type : TypeExpr} {left : List Lexeme}
    (notRef : left.head? ≠ some (.mark '&')) (notArray : left.head? ≠ some (.mark '[')) :
    withSuffixes type left = (type, left) := by
  unfold withSuffixes
  split
  · exact absurd rfl notRef
  · exact absurd rfl notArray
  · rfl

/-- Can lexemes not go on with a type at all? -/
structure EndsType (left : List Lexeme) : Prop extends EndsTypeName left where
  notRef : left.head? ≠ some (.mark '&')
  notArray : left.head? ≠ some (.mark '[')

theorem EndsType.withSuffixes {left : List Lexeme} (ends : EndsType left) (type : TypeExpr) :
    LineReader.withSuffixes type left = (type, left) :=
  withSuffixes_of_ne ends.notRef ends.notArray

theorem endsType_nil : EndsType [] := ⟨⟨nofun, nofun⟩, nofun, nofun⟩

theorem endsType_doubleColon (left : List Lexeme) : EndsType (.doubleColon :: left) :=
  ⟨⟨nofun, nofun⟩, nofun, nofun⟩

theorem endsType_mark {mark : Char} (isEnd : mark ∈ [',', '>', ')']) (left : List Lexeme) :
    EndsType (.mark mark :: left) := by
  simp only [List.mem_cons, List.not_mem_nil, or_false] at isEnd
  rcases isEnd with rfl | rfl | rfl <;> exact ⟨⟨by simp, by simp⟩, by simp, by simp⟩

end LineReader

namespace Graph

variable {graph : Graph}

/-- A signature begins with a name. -/
theorem exists_lexemesWritten_eq_cons (graph : Graph) :
    ∀ signature, ∃ name rest, graph.lexemesWritten signature = .name name :: rest
  | .void | .named _ | .param _ _ | .generic _ _ => ⟨_, _, by rw [lexemesWritten]⟩
  | .byRef element | .array element => by
      obtain ⟨name, rest, begins⟩ := graph.exists_lexemesWritten_eq_cons element
      exact ⟨name, rest ++ _, by rw [lexemesWritten, begins, List.cons_append]⟩

/-- A signature is written with one lexeme at least, so reading it takes a step. -/
theorem exists_step {signature : Signature} {fuel : Nat}
    (enough : 2 * (graph.lexemesWritten signature).length ≤ fuel) :
    ∃ less, fuel = less + 1 := by
  obtain ⟨name, rest, begins⟩ := graph.exists_lexemesWritten_eq_cons signature
  rw [begins, List.length_cons] at enough
  exact Nat.exists_eq_add_one_of_ne_zero (by omega)

/-- Types with commas between them are read one by one. -/
theorem run_typesWithin {arguments : List Signature} (someArguments : arguments ≠ [])
    (reads : ∀ argument ∈ arguments, ∀ fuel left,
      2 * (graph.lexemesWritten argument).length ≤ fuel → LineReader.EndsType left →
        (LineReader.typeWithin fuel).run (graph.lexemesWritten argument ++ left) =
          .ok (graph.exprWritten argument, left))
    {fuel : Nat} {left : List Lexeme}
    (enough : 2 * ([.mark ','].intercalate
      (arguments.map graph.lexemesWritten)).length + 1 ≤ fuel)
    (ends : LineReader.EndsType left) (noComma : left.head? ≠ some (.mark ',')) :
    (LineReader.typesWithin fuel).run
        ([.mark ','].intercalate (arguments.map graph.lexemesWritten) ++ left) =
      .ok (arguments.map graph.exprWritten, left) := by
  induction arguments generalizing fuel with
  | nil =>
      exact absurd rfl someArguments
  | cons argument others inductionHypothesis =>
      obtain ⟨readsHere, readsLater⟩ := List.forall_mem_cons.mp reads
      obtain ⟨fuel, rfl⟩ := Nat.exists_eq_add_one_of_ne_zero (show fuel ≠ 0 by omega)
      cases others with
      | nil =>
          rw [List.map_singleton, List.intercalate_singleton] at enough ⊢
          rw [LineReader.typesWithin,
            LineReader.run_bind_of_ok (readsHere fuel left (by omega) ends),
            LineReader.run_bind_of_ok (LineReader.run_optionalMark_of_ne noComma)]
          rfl
      | cons next others =>
          rw [List.map_cons, List.map_cons, List.intercalate_cons_cons, ← List.map_cons]
            at enough ⊢
          rw [List.length_append, List.length_append, List.length_singleton] at enough
          rw [List.append_assoc, List.append_assoc, List.singleton_append,
            LineReader.typesWithin,
            LineReader.run_bind_of_ok
              (readsHere fuel _ (by omega) (LineReader.endsType_mark (by decide) _))]
          have comma := LineReader.run_optionalMark ',' ','
            ([.mark ','].intercalate ((next :: others).map graph.lexemesWritten) ++ left)
          rw [if_pos rfl] at comma
          rw [LineReader.run_bind_of_ok comma]
          change (LineReader.typesWithin fuel >>= _).run _ = _
          rw [LineReader.run_bind_of_ok
            (inductionHypothesis (List.cons_ne_nil _ _) readsLater (by omega))]
          rfl

/-- A signature as it is written is read as a type, with the marks behind it taken too. -/
theorem Forms.run_typeWithin {signature : Signature} (forms : graph.Forms signature)
    (plain : ∀ type ∈ graph.typesWritten signature, graph.PlainlyNamed type)
    {fuel : Nat} {left : List Lexeme}
    (enough : 2 * (graph.lexemesWritten signature).length ≤ fuel)
    (ends : EndsTypeName left) :
    (LineReader.typeWithin fuel).run (graph.lexemesWritten signature ++ left) =
      .ok (LineReader.withSuffixes (graph.exprWritten signature) left) := by
  induction forms generalizing fuel left with
  | void =>
      obtain ⟨fuel, rfl⟩ := exists_step enough
      rfl
  | @named type _ =>
      obtain ⟨fuel, rfl⟩ := exists_step enough
      obtain ⟨-, notVoid, notParameter⟩ := typeWritten_plain plain
      rw [lexemesWritten, List.singleton_append, LineReader.typeWithin,
        LineReader.run_requireName_bind,
        LineReader.run_bind_of_ok (LineReader.run_typeAfterName_named notVoid notParameter ends)]
      rfl
  | @param name isValueType written =>
      obtain ⟨fuel, rfl⟩ := exists_step enough
      rw [lexemesWritten, List.cons_append, LineReader.typeWithin,
        LineReader.run_requireName_bind,
        LineReader.run_bind_of_ok
          (LineReader.run_typeAfterName_param written isValueType ends)]
      rfl
  | byRef _ inductionHypothesis =>
      rw [lexemesWritten, List.length_append] at enough
      rw [lexemesWritten, List.append_assoc]
      exact inductionHypothesis plain (by omega) ⟨by simp, by simp⟩
  | array _ inductionHypothesis =>
      rw [lexemesWritten, List.length_append] at enough
      rw [lexemesWritten, List.append_assoc]
      exact inductionHypothesis plain (by omega) ⟨by simp, by simp⟩
  | @generic type arguments _ someArguments _ _ inductionHypothesis =>
      rw [typesWritten, allTypesWritten_eq_flatMap] at plain
      obtain ⟨here, inside⟩ := List.forall_mem_cons.mp plain
      have reads : ∀ argument ∈ arguments, ∀ fuel left,
          2 * (graph.lexemesWritten argument).length ≤ fuel → LineReader.EndsType left →
            (LineReader.typeWithin fuel).run (graph.lexemesWritten argument ++ left) =
              .ok (graph.exprWritten argument, left) := by
        intro argument member fuel left enough ends
        rw [inductionHypothesis argument member
          (fun type written => inside type (List.mem_flatMap.mpr ⟨argument, member, written⟩))
          enough ends.toEndsTypeName,
          ends.withSuffixes]
      obtain ⟨fuel, rfl⟩ := exists_step enough
      rw [lexemesWritten, allLexemesWritten_eq_map] at enough ⊢
      simp only [List.length_cons, List.length_append, List.length_nil] at enough
      have ran := @run_typesWithin graph arguments someArguments reads fuel
        (.mark '>' :: left) (by omega) (LineReader.endsType_mark (by decide) left) (by simp)
      rw [List.cons_append, List.cons_append, List.append_assoc,
        List.singleton_append, LineReader.typeWithin,
        LineReader.run_requireName_bind,
        LineReader.run_bind_of_ok
          (LineReader.run_typeAfterName_generic here.notVoid here.notParameter ran),
        exprWritten, allExprsWritten_eq_map]
      rfl

/-- A signature as it is written is read as a type, up to what cannot go on with it. -/
theorem Forms.run_type {signature : Signature} (forms : graph.Forms signature)
    (plain : ∀ type ∈ graph.typesWritten signature, graph.PlainlyNamed type)
    {left : List Lexeme} (ends : LineReader.EndsType left) :
    LineReader.type.run (graph.lexemesWritten signature ++ left) =
      .ok (graph.exprWritten signature, left) := by
  have ran := forms.run_typeWithin plain
    (show _ ≤ 2 * (graph.lexemesWritten signature ++ left).length by
      rw [List.length_append]; omega) ends.toEndsTypeName
  rw [ends.withSuffixes] at ran
  exact ran

end Graph

end NullWeave
