import NullWeave.Proofs.Text.LexedNames
import NullWeave.Proofs.Text.PrintedAttributes
import NullWeave.Proofs.Text.PrintedBodyLines

/-!
# Printed first lines of methods

The first line of a method is read with its modifiers and its name, whatever its
types are read as.  A return type that is called like a modifier is taken for
one, but then too little is left of the line, and it is read as nothing at all.
-/

namespace NullWeave

/-! ## Characters of signatures -/

/-- A name with an opening parenthesis behind it is lexed as these two. -/
theorem lexLine_openedName {name : String} (named : isName name = true) (behind : List Char) :
    lexLine (name.toList ++ '(' :: behind) =
      (fun more => .name name :: .mark '(' :: more) <$> lexLine behind := by
  rw [lexLine_name named (endsName_mark (by decide) _),
    lexLine_singleMark (by decide) (by decide), Functor.map_map]
  rfl

namespace Graph

variable {graph : Graph}

/-- The characters of signatures beside those of names. -/
def signatureMarks : List Char := ['&', '[', ']', '<', '>', ',', ' ', ':']

theorem mem_commaSeparated {texts : List String} {c : Char}
    (member : c ∈ (commaSeparated texts).toList) :
    c ∈ [',', ' '] ∨ ∃ text ∈ texts, c ∈ text.toList := by
  rw [commaSeparated, String.toList_intercalate] at member
  induction texts with
  | nil =>
      cases member
  | cons text others inductionHypothesis =>
      cases others with
      | nil =>
          rw [List.map_singleton, List.intercalate_singleton] at member
          exact .inr ⟨text, List.mem_singleton_self _, member⟩
      | cons next others =>
          rw [List.map_cons, List.map_cons, List.intercalate_cons_cons, ← List.map_cons,
            List.mem_append, List.mem_append] at member
          rcases member with (here | comma) | later
          · exact .inr ⟨text, List.mem_cons_self .., here⟩
          · exact .inl comma
          · rcases inductionHypothesis later with comma | ⟨other, among, inside⟩
            · exact .inl comma
            · exact .inr ⟨other, List.mem_cons_of_mem _ among, inside⟩

/-- A signature is written with characters of names and a few marks. -/
theorem Forms.mem_sigWritten (spelled : graph.IsSpelled) {signature : Signature}
    (forms : graph.Forms signature) {c : Char}
    (member : c ∈ (graph.sigWritten signature).toList) :
    continuesName c = true ∨ c ∈ signatureMarks := by
  induction forms with
  | void =>
      exact .inl ((show NullWeave.IsSpelled "void" by decide) c member)
  | named _ =>
      exact .inl (isSpelled_typeWritten spelled _ c member)
  | @param name isValueType written =>
      rw [sigWritten, String.toList_append] at member
      rcases List.mem_append.mp member with inName | inStruct
      · exact .inl (isSpelled_of_isName written.isName c inName)
      · cases isValueType with
        | false =>
            cases inStruct
        | true =>
            have named : isName "struct" = true := by decide
            rcases List.mem_cons.mp (show c ∈ ':' :: "struct".toList from inStruct) with
              rfl | inName
            · exact .inr (by decide)
            · exact .inl (isSpelled_of_isName named c inName)
  | byRef _ inductionHypothesis =>
      rw [sigWritten, String.toList_append] at member
      rcases List.mem_append.mp member with inside | mark
      · exact inductionHypothesis inside
      · exact .inr ((show "&".toList ⊆ signatureMarks by decide) mark)
  | array _ inductionHypothesis =>
      rw [sigWritten, String.toList_append] at member
      rcases List.mem_append.mp member with inside | mark
      · exact inductionHypothesis inside
      · exact .inr ((show "[]".toList ⊆ signatureMarks by decide) mark)
  | @generic type arguments _ _ _ _ inductionHypothesis =>
      rw [sigWritten, sigsWritten_eq_map] at member
      simp only [String.toList_append, List.mem_append] at member
      rcases member with ((inName | opens) | inside) | closes
      · exact .inl (spelled.typeName type c inName)
      · exact .inr ((show "<".toList ⊆ signatureMarks by decide) opens)
      · rcases mem_commaSeparated inside with comma | ⟨text, among, inText⟩
        · exact .inr ((show [',', ' '] ⊆ signatureMarks by decide) comma)
        · obtain ⟨argument, listed, rfl⟩ := List.mem_map.mp among
          exact inductionHypothesis argument listed inText
      · exact .inr ((show ">".toList ⊆ signatureMarks by decide) closes)

/-- What can follow the first name of a signature in writing. -/
inductive SignatureTail : List Char → Prop where
  | nothing : SignatureTail []
  | mark {mark : Char} {rest : List Char} : mark ∈ ['&', '<'] → SignatureTail (mark :: rest)
  | array {rest : List Char} : SignatureTail ('[' :: ']' :: rest)
  | struct {rest : List Char} : SignatureTail (':' :: 's' :: rest)

theorem SignatureTail.append {tail : List Char} (isTail : SignatureTail tail)
    {more : List Char} (isTailToo : SignatureTail more) : SignatureTail (tail ++ more) := by
  cases isTail with
  | nothing =>
      exact isTailToo
  | mark isMark =>
      exact .mark isMark
  | array =>
      exact .array
  | struct =>
      exact .struct

theorem SignatureTail.endsName {tail : List Char} (isTail : SignatureTail tail)
    (rest : List Char) : EndsName (tail ++ ' ' :: rest) := by
  cases isTail with
  | nothing =>
      exact endsName_blank rest
  | mark isMark =>
      exact endsName_mark ((show ['&', '<'] ⊆ marks by decide) isMark) _
  | array | struct =>
      exact endsName_mark (by decide) _

/-- A signature in writing begins with a name. -/
theorem Forms.exists_name (spelled : graph.IsSpelled) {signature : Signature}
    (forms : graph.Forms signature) :
    ∃ name tail, (graph.sigWritten signature).toList = name.toList ++ tail ∧
      NullWeave.IsSpelled name ∧ SignatureTail tail := by
  induction forms with
  | void =>
      exact ⟨"void", [], (List.append_nil _).symm, by decide, .nothing⟩
  | @named type _ =>
      exact ⟨graph.typeWritten type, [], (List.append_nil _).symm,
        isSpelled_typeWritten spelled type, .nothing⟩
  | @param name isValueType written =>
      refine ⟨"!" ++ name, (if isValueType then ":struct" else "").toList,
        by rw [sigWritten, String.toList_append], isSpelled_of_isName written.isName, ?_⟩
      cases isValueType with
      | false =>
          exact .nothing
      | true =>
          exact .struct
  | byRef _ inductionHypothesis =>
      obtain ⟨name, tail, written, spelledName, isTail⟩ := inductionHypothesis
      refine ⟨name, tail ++ ['&'], ?_, spelledName, isTail.append (.mark (by decide))⟩
      rw [sigWritten, String.toList_append, written, List.append_assoc]
      rfl
  | array _ inductionHypothesis =>
      obtain ⟨name, tail, written, spelledName, isTail⟩ := inductionHypothesis
      refine ⟨name, tail ++ ['[', ']'], ?_, spelledName, isTail.append .array⟩
      rw [sigWritten, String.toList_append, written, List.append_assoc]
      rfl
  | @generic type arguments _ _ _ _ _ =>
      refine ⟨graph.typeName type,
        '<' :: ((commaSeparated (graph.sigsWritten arguments)).toList ++ ['>']), ?_,
        spelled.typeName type, .mark (by decide)⟩
      rw [sigWritten]
      simp only [String.toList_append, List.append_assoc]
      rfl

section Names

variable {name : String} {behind : List Char} {words : List Lexeme}

/-- Behind the first name of a signature there is the name of the method, or nothing to read. -/
theorem SignatureTail.cases_of_lexLine {tail : List Char}
    (isTail : SignatureTail tail) (named : isName name = true)
    (lexed : lexLine (tail ++ ' ' :: (name.toList ++ '(' :: behind)) = .ok words) :
    (∃ more, words = .name name :: .mark '(' :: more) ∨
      (∀ word, words.head? ≠ some (.name word)) ∧
        (words.head? = some (.mark '[') → words.tail.head? = some (.mark ']')) := by
  cases isTail with
  | nothing =>
      rw [List.nil_append, lexLine_blank, lexLine_openedName named] at lexed
      obtain ⟨more, -, rfl⟩ := map_eq_ok_iff.mp lexed
      exact .inl ⟨more, rfl⟩
  | @mark mark rest isMark =>
      have among : mark ∈ marks := (show ['&', '<'] ⊆ marks by decide) isMark
      have differs : mark ≠ ':' ∧ mark ≠ '[' :=
        ⟨by rintro rfl; simp at isMark, by rintro rfl; simp at isMark⟩
      rw [List.cons_append, lexLine_singleMark among differs.1] at lexed
      obtain ⟨more, -, rfl⟩ := map_eq_ok_iff.mp lexed
      exact .inr ⟨nofun, fun same => absurd (Lexeme.mark.inj (Option.some.inj same)) differs.2⟩
  | array =>
      rw [List.cons_append, List.cons_append, lexLine_singleMark (by decide) (by decide),
        lexLine_singleMark (by decide) (by decide), Functor.map_map] at lexed
      obtain ⟨more, -, rfl⟩ := map_eq_ok_iff.mp lexed
      exact .inr ⟨nofun, fun _ => rfl⟩
  | struct =>
      rw [List.cons_append, List.cons_append, lexLine_mark (by decide) (by simp)] at lexed
      obtain ⟨more, -, rfl⟩ := map_eq_ok_iff.mp lexed
      exact .inr ⟨nofun, by simp⟩

end Names

end Graph

namespace LineReader

/-! ## Readers that stop at an opening parenthesis -/

/-- Are words the last of some others, with what they lead to behind them? -/
def LeadsTo (first tail words : List Lexeme) : Prop :=
  ∃ front, front <:+ first ∧ words = front ++ tail

section Types

variable {first tail : List Lexeme}

theorem LeadsTo.drop (opens : ∀ word, tail.head? = some word → word = .mark '(') {word : Lexeme}
    {words : List Lexeme} (leads : LeadsTo first tail (word :: words))
    (differs : word ≠ .mark '(') : LeadsTo first tail words := by
  obtain ⟨front, suffix, split⟩ := leads
  cases front with
  | nil =>
      exact absurd (opens word (by rw [← List.nil_append tail, ← split]; rfl)) differs
  | cons other front =>
      obtain ⟨rfl, rfl⟩ := List.cons.inj split
      exact ⟨front, (List.suffix_cons word front).trans suffix, rfl⟩

/-- Words without an opening parenthesis lead to none. -/
theorem not_leadsTo_opened (noneOpens : .mark '(' ∉ first) {word : Lexeme} {rest : List Lexeme} :
    ¬ LeadsTo first [] (word :: .mark '(' :: rest) := by
  rintro ⟨front, suffix, split⟩
  rw [List.append_nil] at split
  refine noneOpens (suffix.subset ?_)
  rw [← split]
  exact List.mem_cons_of_mem _ (List.mem_cons_self ..)

/-- What stands before the first opening parenthesis is the last word before it. -/
theorem LeadsTo.eq_of_opened (noneOpens : .mark '(' ∉ first) {name found : String}
    {more rest : List Lexeme}
    (leads : LeadsTo (first ++ [.name name]) (.mark '(' :: more)
      (.name found :: .mark '(' :: rest)) : found = name := by
  obtain ⟨front, suffix, split⟩ := leads
  cases front with
  | nil =>
      cases split
  | cons word front =>
      obtain ⟨rfl, behindName⟩ := List.cons.inj split
      cases front with
      | nil =>
          obtain ⟨before, same⟩ := suffix
          have lastWord := List.append_inj_right' same rfl
          exact Lexeme.name.inj (List.cons.inj lastWord).1
      | cons next front =>
          obtain ⟨rfl, -⟩ := List.cons.inj behindName
          have inside := suffix.subset (List.mem_cons_of_mem _ (List.mem_cons_self ..))
          exact absurd (by simpa using inside) noneOpens

variable (opens : ∀ word, tail.head? = some word → word = .mark '(')

include opens

theorem leadsTo_requireName :
    NullWeave.Yields (LeadsTo first tail) (fun _ => True) requireName := by
  intro words leads name left ran
  cases words with
  | nil =>
      cases ran
  | cons word words =>
      cases word with
      | name found =>
          cases ran
          exact ⟨trivial, leads.drop opens nofun⟩
      | str _ | int _ | mark _ | doubleColon =>
          cases ran

theorem leadsTo_optionalMark {mark : Char} (notOpen : mark ≠ '(') :
    NullWeave.Yields (LeadsTo first tail) (fun _ => True) (optionalMark mark) := by
  intro words leads found left ran
  refine ⟨trivial, ?_⟩
  cases words with
  | nil =>
      cases ran
      exact leads
  | cons word words =>
      cases word with
      | mark other =>
          rw [run_optionalMark] at ran
          split at ran
          · rename_i same
            cases ran
            exact leads.drop opens fun isOpen => notOpen (same ▸ Lexeme.mark.inj isOpen)
          · cases ran
            exact leads
      | name _ | str _ | int _ | doubleColon =>
          cases ran
          exact leads

theorem leadsTo_requireMark {mark : Char} (notOpen : mark ≠ '(') :
    NullWeave.Yields (LeadsTo first tail) (fun _ => True) (requireMark mark) := by
  intro words leads _ left ran
  rw [runs_requireMark_iff.mp ran] at leads
  exact ⟨trivial, leads.drop opens fun isOpen => notOpen (Lexeme.mark.inj isOpen)⟩

theorem leadsTo_optionalStruct :
    NullWeave.Yields (LeadsTo first tail) (fun _ => True) optionalStruct := by
  intro words leads found left ran
  rw [run_optionalStruct] at ran
  split at ran
  · cases ran
    exact ⟨trivial, (leads.drop opens nofun).drop opens nofun⟩
  · cases ran
    exact ⟨trivial, leads⟩

theorem LeadsTo.withSuffixes {type : TypeExpr} {words : List Lexeme}
    (leads : LeadsTo first tail words) :
    LeadsTo first tail (LineReader.withSuffixes type words).2 := by
  fun_induction LineReader.withSuffixes type words with
  | case1 type rest inductionHypothesis =>
      exact inductionHypothesis (leads.drop opens (by decide))
  | case2 type rest inductionHypothesis =>
      exact inductionHypothesis ((leads.drop opens (by decide)).drop opens (by decide))
  | case3 type rest =>
      exact leads

theorem leadsTo_typeWithin (fuel : Nat) :
    NullWeave.Yields (LeadsTo first tail) (fun _ => True) (typeWithin fuel) ∧
      NullWeave.Yields (LeadsTo first tail) (fun _ => True) (typesWithin fuel) := by
  induction fuel with
  | zero =>
      exact ⟨yields_throw _, yields_throw _⟩
  | succ fuel inductionHypothesis =>
      obtain ⟨one, several⟩ := inductionHypothesis
      constructor
      · rw [typeWithin]
        refine (leadsTo_requireName opens).bind fun name _ => ?_
        have core : NullWeave.Yields (LeadsTo first tail) (fun _ => True)
            (typeAfterName (typesWithin fuel) name) := by
          rw [typeAfterName]
          split
          · exact yields_pure trivial
          split
          · exact (leadsTo_optionalStruct opens).bind fun _ _ => yields_pure trivial
          · refine (leadsTo_optionalMark opens (by decide)).bind fun isGeneric _ => ?_
            split
            · exact several.bind fun _ _ =>
                (leadsTo_requireMark opens (by decide)).bind fun _ _ => yields_pure trivial
            · exact yields_pure trivial
        refine core.bind fun type _ words leads value left ran => ?_
        cases ran
        exact ⟨trivial, leads.withSuffixes opens⟩
      · rw [typesWithin]
        refine one.bind fun type _ => (leadsTo_optionalMark opens (by decide)).bind fun more _ => ?_
        split
        · exact several.bind fun _ _ => yields_pure trivial
        · exact yields_pure trivial

/-- A type is read without taking an opening parenthesis. -/
theorem leadsTo_type : NullWeave.Yields (LeadsTo first tail) (fun _ => True) type :=
  yields_get_bind fun words => (leadsTo_typeWithin opens (2 * words.length)).1 words

end Types

/-! ## Modifiers -/

/-- Are modifiers of a method taken, in as many steps as that takes? -/
def ReadsModifiers (modifiers : MethodModifiers) (words : List Lexeme)
    (result : MethodModifiers × List Lexeme) : Prop :=
  ∃ fuel, (methodModifiersWithin fuel modifiers).run words = .ok result

section Modifiers

variable {modifiers : MethodModifiers} {word : String} {words rest : List Lexeme}
variable {result : MethodModifiers × List Lexeme}

theorem ReadsModifiers.keyword {modifier : MethodAccess}
    (known : MethodAccess.ofKeyword? word = some modifier)
    (reads : ReadsModifiers modifiers (.name word :: rest) result) :
    ReadsModifiers { modifiers with access := modifiers.access.union modifier } rest result := by
  obtain ⟨fuel, ran⟩ := reads
  cases fuel with
  | zero =>
      cases ran
  | succ fuel =>
      rw [methodModifiersWithin, StateT.run_bind, StateT.run_get, pure_bind] at ran
      simp only [known] at ran
      exact ⟨fuel, ran⟩

theorem ReadsModifiers.finish (unknown : MethodAccess.ofKeyword? word = none)
    (reads : ReadsModifiers modifiers (.name word :: rest) result) :
    result = (modifiers, .name word :: rest) := by
  obtain ⟨fuel, ran⟩ := reads
  cases fuel with
  | zero =>
      cases ran
  | succ fuel =>
      rw [methodModifiersWithin, StateT.run_bind, StateT.run_get, pure_bind] at ran
      simp only [unknown] at ran
      exact (Except.ok.inj ran).symm

theorem ReadsModifiers.returnAttribute {front : List Lexeme}
    (takes : ∀ left, ∃ again, attributeBody.run (front ++ left) = .ok (again, left))
    (reads : ReadsModifiers modifiers
      (.mark '[' :: .name "return" :: .mark ':' :: (front ++ rest)) result) :
    ∃ mark, ReadsModifiers
      { modifiers with returnAttributes := modifiers.returnAttributes ++ [mark] } rest result := by
  obtain ⟨fuel, ran⟩ := reads
  cases fuel with
  | zero =>
      cases ran
  | succ fuel =>
      obtain ⟨mark, taken⟩ := takes rest
      change (attributeBody >>= fun mark => methodModifiersWithin fuel
        { modifiers with returnAttributes := modifiers.returnAttributes ++ [mark] }).run
          (front ++ rest) = _ at ran
      rw [run_bind_of_ok taken] at ran
      exact ⟨mark, fuel, ran⟩

/-- Modifiers are not taken where neither one of them nor a type comes next. -/
theorem not_readsModifiers (noName : ∀ word, words.head? ≠ some (.name word))
    (noAttribute : words.head? = some (.mark '[') → words.tail.head? = some (.mark ']')) :
    ¬ ReadsModifiers modifiers words result := by
  rintro ⟨fuel, ran⟩
  cases fuel with
  | zero =>
      cases ran
  | succ fuel =>
      rw [methodModifiersWithin] at ran
      obtain ⟨_, _, here, ran⟩ := runs_bind_iff.mp ran
      cases here
      split at ran
      · cases noAttribute rfl
      · have next := noAttribute rfl
        rename_i rest _ _
        cases rest with
        | nil =>
            cases next
        | cons word rest =>
            cases Option.some.inj next
            cases ran
      · exact noName _ rfl
      · cases ran

end Modifiers

/-! ## Return types and names -/

section Names

variable {name : String} {words more : List Lexeme}
variable {modifiers : MethodModifiers} {result : MethodModifiers × List Lexeme}
variable {type : TypeExpr} {between last : List Lexeme} {found : String}

/-- No type and name are read from one word before an opening parenthesis. -/
theorem not_reads_openedName
    (readsModifiers : ReadsModifiers modifiers (.name name :: .mark '(' :: more) result)
    (readsType : LineReader.type.run result.2 = .ok (type, between)) :
    requireName.run between ≠ .ok (found, last) := by
  cases modifier : MethodAccess.ofKeyword? name with
  | some _ =>
      exact absurd (readsModifiers.keyword modifier) (not_readsModifiers nofun (by simp))
  | none =>
      obtain rfl := readsModifiers.finish modifier
      have ends : EndsType (.mark '(' :: more) := ⟨⟨by simp, by simp⟩, by simp, by simp⟩
      obtain ⟨rfl, -⟩ := runs_type_word ends readsType
      exact nofun

/-- No type and name are read from one word alone. -/
theorem not_reads_lost (short : words.length ≤ 1)
    (areNames : ∀ word ∈ words, ∃ part, word = .name part)
    (readsModifiers : ReadsModifiers modifiers words result)
    (readsType : LineReader.type.run result.2 = .ok (type, between)) :
    requireName.run between ≠ .ok (found, last) := by
  cases words with
  | nil =>
      exact absurd readsModifiers (not_readsModifiers nofun nofun)
  | cons word rest =>
      obtain ⟨part, rfl⟩ := areNames word (List.mem_cons_self ..)
      obtain rfl : rest = [] :=
        List.eq_nil_of_length_eq_zero (Nat.le_zero.mp (Nat.le_of_succ_le_succ short))
      cases modifier : MethodAccess.ofKeyword? part with
      | some _ =>
          exact absurd (readsModifiers.keyword modifier) (not_readsModifiers nofun nofun)
      | none =>
          obtain rfl := readsModifiers.finish modifier
          obtain ⟨rfl, -⟩ := runs_type_word endsType_nil readsType
          exact nofun

variable {graph : Graph} {signature : Signature} {behind : List Char}

/-- No modifier is taken from a return type if a name can still be read behind it. -/
theorem eq_of_readsModifiers (spelled : graph.IsSpelled) (forms : graph.Forms signature)
    (named : isName name = true)
    (lexed : lexLine ((graph.sigWritten signature).toList ++
      ' ' :: (name.toList ++ '(' :: behind)) = .ok words)
    (readsModifiers : ReadsModifiers modifiers words result)
    (readsType : LineReader.type.run result.2 = .ok (type, between))
    (readsName : requireName.run between = .ok (found, last)) :
    result = (modifiers, words) := by
  obtain ⟨front, tail, written, spelledFront, isTail⟩ := forms.exists_name spelled
  rw [written, List.append_assoc] at lexed
  have fails {others : List Lexeme} {modifiers : MethodModifiers}
      (lexedTail : lexLine (tail ++ ' ' :: (name.toList ++ '(' :: behind)) = .ok others) :
      ¬ ReadsModifiers modifiers others result := by
    intro reads
    rcases isTail.cases_of_lexLine named lexedTail with ⟨more, rfl⟩ | ⟨noName, noAttribute⟩
    · exact not_reads_openedName reads readsType readsName
    · exact not_readsModifiers noName noAttribute reads
  cases spelledFront.cutName (isTail.endsName _) lexed with
  | empty _ lexedTail =>
      exact absurd readsModifiers (fails lexedTail)
  | whole _ lexedTail =>
      cases modifier : MethodAccess.ofKeyword? front with
      | some _ =>
          exact absurd (readsModifiers.keyword modifier) (fails lexedTail)
      | none =>
          exact readsModifiers.finish modifier
  | lost short areNames =>
      exact absurd readsName (not_reads_lost short areNames readsModifiers readsType)
  | number =>
      exact absurd readsModifiers (not_readsModifiers nofun nofun)

/-- The name before the first opening parenthesis is read behind a type. -/
theorem eq_of_reads_name (spelled : graph.IsSpelled) (forms : graph.Forms signature)
    (named : isName name = true)
    (lexed : lexLine ((graph.sigWritten signature).toList ++
      ' ' :: (name.toList ++ '(' :: behind)) = .ok words)
    (readsType : LineReader.type.run words = .ok (type, between))
    (readsName : requireName.run between = .ok (found, last))
    (opens : last.head? = some (.mark '(')) : found = name := by
  have without {c : Char} (notInName : continuesName c = false)
      (notMark : c ∉ Graph.signatureMarks) :
      c ∉ (graph.sigWritten signature).toList := fun member =>
    (forms.mem_sigWritten spelled member).elim
      (fun inName => Bool.false_ne_true (notInName.symm.trans inName)) notMark
  obtain ⟨first, marks, cut⟩ :=
    exists_words_before (without (c := '"') (by decide) (by decide)) lexed
  have noneOpens : .mark '(' ∉ first := fun member =>
    without (by decide) (by decide) (marks '(' member)
  obtain ⟨rest, rfl⟩ : ∃ rest, last = .mark '(' :: rest := by
    cases last with
    | nil =>
        cases opens
    | cons word rest =>
        exact ⟨rest, by rw [Option.some.inj opens]⟩
  obtain rfl := runs_requireName_iff.mp readsName
  rcases cut with rfl | ⟨later, lexedLater, rfl⟩
  · obtain ⟨-, leads⟩ := @leadsTo_type words [] nofun _
      ⟨words, List.suffix_rfl, (List.append_nil _).symm⟩ _ _ readsType
    exact absurd leads (not_leadsTo_opened noneOpens)
  · rw [lexLine_openedName named] at lexedLater
    obtain ⟨more, -, rfl⟩ := map_eq_ok_iff.mp lexedLater
    have begins : ∀ word, (Lexeme.mark '(' :: more).head? = some word → word = .mark '(' :=
      fun word same => (Option.some.inj same).symm
    obtain ⟨-, leads⟩ :=
      leadsTo_type begins _ ⟨first ++ [.name name], List.suffix_rfl, by simp⟩ _ _ readsType
    exact leads.eq_of_opened noneOpens

end Names

end LineReader

/-! ## Words with blanks behind them -/

/-- Texts with a blank behind each. -/
def spacedOut (texts : List String) : List Char := texts.flatMap fun text => text.toList ++ [' ']

theorem spacedOut_cons (text : String) (texts : List String) (rest : List Char) :
    spacedOut (text :: texts) ++ rest = text.toList ++ ' ' :: (spacedOut texts ++ rest) := by
  rw [spacedOut, List.flatMap_cons, List.append_assoc, List.append_assoc]
  rfl

/-- The first of several words has a blank behind it. -/
theorem toList_intercalate_cons (text : String) {texts : List String} (more : texts ≠ []) :
    (" ".intercalate (text :: texts)).toList =
      text.toList ++ ' ' :: (" ".intercalate texts).toList := by
  obtain ⟨next, others, rfl⟩ := List.exists_cons_of_ne_nil more
  rw [String.intercalate_cons_cons, String.toList_append, String.toList_append, List.append_assoc]
  rfl

theorem toList_intercalate_blank (texts : List String) (last : String) :
    (" ".intercalate (texts ++ [last])).toList = spacedOut texts ++ last.toList := by
  induction texts with
  | nil =>
      rw [List.nil_append, String.intercalate_singleton]
      rfl
  | cons text texts inductionHypothesis =>
      rw [spacedOut_cons, ← inductionHypothesis, List.cons_append,
        toList_intercalate_cons _ (by simp)]

theorem lexLine_spacedOut {texts : List String} (named : ∀ text ∈ texts, isName text = true)
    (rest : List Char) :
    lexLine (spacedOut texts ++ rest) = (texts.map Lexeme.name ++ ·) <$> lexLine rest := by
  induction texts with
  | nil =>
      exact (id_map (lexLine rest)).symm
  | cons text texts inductionHypothesis =>
      obtain ⟨here, later⟩ := List.forall_mem_cons.mp named
      rw [spacedOut_cons, lexLine_nextName here, inductionHypothesis later, Functor.map_map]
      rfl

/-- The words of a table that are kept are among all of its words. -/
theorem mem_of_mem_heldWords {table : List (Bool × String)} {word : String}
    (member : word ∈ heldWords table) : word ∈ table.map (·.2) := by
  obtain ⟨⟨held, keyword⟩, listed, kept⟩ := List.mem_filterMap.mp member
  cases held with
  | false =>
      cases kept
  | true =>
      cases kept
      exact List.mem_map_of_mem listed

namespace MethodAccess

/-- Modifiers with those that words stand for. -/
def withKeywords (access : MethodAccess) (words : List String) : MethodAccess :=
  words.foldl (fun access word => access.union ((ofKeyword? word).getD {})) access

/-- The keywords of modifiers stand for these modifiers. -/
theorem withKeywords_keywords (access : MethodAccess) :
    withKeywords {} access.keywords = access := by
  obtain ⟨isPublic, isPrivate, isFamily, isAssembly, isStatic, isVirtual, newSlot, isAbstract,
    specialName⟩ := access
  revert isPublic isPrivate isFamily isAssembly isStatic isVirtual newSlot isAbstract specialName
  decide +kernel

/-- A keyword of modifiers is a name, and a modifier. -/
theorem keyword_known {access : MethodAccess} {word : String} (member : word ∈ access.keywords) :
    isName word = true ∧ ∃ modifier, ofKeyword? word = some modifier := by
  have all : ∀ word ∈ ["public", "private", "family", "assembly", "static", "virtual", "abstract",
      "specialname", "newslot"], isName word = true ∧ (ofKeyword? word).isSome = true := by
    decide
  obtain ⟨named, known⟩ := all word (mem_of_mem_heldWords member)
  exact ⟨named, Option.isSome_iff_exists.mp known⟩

end MethodAccess

namespace LineReader

section Headers

variable {modifiers : MethodModifiers} {result : MethodModifiers × List Lexeme}

theorem ReadsModifiers.keywords {keywords : List String} {words : List Lexeme}
    (known : ∀ word ∈ keywords, ∃ modifier, MethodAccess.ofKeyword? word = some modifier)
    (reads : ReadsModifiers modifiers (keywords.map .name ++ words) result) :
    ReadsModifiers { modifiers with access := modifiers.access.withKeywords keywords } words
      result := by
  induction keywords generalizing modifiers with
  | nil =>
      exact reads
  | cons word keywords inductionHypothesis =>
      obtain ⟨⟨modifier, here⟩, later⟩ := List.forall_mem_cons.mp known
      have goesOn := inductionHypothesis later (reads.keyword here)
      rw [MethodAccess.withKeywords, List.foldl_cons, here]
      exact goesOn

/-- An attribute of a return value as it is written. -/
def returnMark (mark : Attribute) : String := "[return: " ++ mark.written ++ "]"

theorem ReadsModifiers.returnMarks {marks : List Attribute} {rest : List Char}
    {words : List Lexeme} (named : ∀ mark ∈ marks, isName mark.name = true)
    (lexed : lexLine (spacedOut (marks.map returnMark) ++ rest) = .ok words)
    (reads : ReadsModifiers modifiers words result) :
    ∃ attributes later, lexLine rest = .ok later ∧
      ReadsModifiers { modifiers with returnAttributes := attributes } later result := by
  induction marks generalizing modifiers words with
  | nil =>
      exact ⟨modifiers.returnAttributes, words, lexed, reads⟩
  | cons mark marks inductionHypothesis =>
      obtain ⟨here, later⟩ := List.forall_mem_cons.mp named
      have start : isName "return" = true := by decide
      rw [List.map_cons, spacedOut_cons, returnMark] at lexed
      simp only [String.toList_append, List.append_assoc] at lexed
      change lexLine ('[' :: ("return".toList ++ ':' :: ' ' :: (mark.written.toList ++
        ']' :: ' ' :: (spacedOut (marks.map returnMark) ++ rest)))) = _ at lexed
      rw [lexLine_singleMark (by decide) (by decide),
        lexLine_name start (endsName_mark (by decide) _), lexLine_mark (by decide) (by simp),
        lexLine_blank, Functor.map_map, Functor.map_map] at lexed
      obtain ⟨words, cut, rfl⟩ := map_eq_ok_iff.mp lexed
      obtain ⟨front, behind, cutBehind, rfl, takes⟩ := Attribute.exists_words_of_written here cut
      rw [lexLine_blank] at cutBehind
      obtain ⟨_, goesOn⟩ := reads.returnAttribute takes
      obtain ⟨attributes, words, lexedRest, readsRest⟩ :=
        inductionHypothesis later cutBehind goesOn
      exact ⟨attributes, words, lexedRest, readsRest⟩

end Headers

end LineReader

namespace Graph

variable {graph : Graph} {decl : MethodDecl}

theorem toList_methodHeaderWritten :
    ∃ behind, (graph.methodHeaderWritten decl).toList =
      ".method".toList ++ ' ' :: (spacedOut decl.access.keywords ++
        (spacedOut (decl.returnAttributes.map LineReader.returnMark) ++
          ((graph.sigWritten decl.returnType).toList ++
            ' ' :: (decl.name.toList ++ '(' :: behind)))) := by
  refine ⟨(commaSeparated (decl.parameters.mapIdx graph.parameterWritten)).toList ++ [')'], ?_⟩
  have joined : (" ".intercalate ([".method"] ++ decl.access.keywords ++
      decl.returnAttributes.map LineReader.returnMark ++
        [graph.sigWritten decl.returnType])).toList =
      ".method".toList ++ ' ' :: (spacedOut decl.access.keywords ++
        (spacedOut (decl.returnAttributes.map LineReader.returnMark) ++
          (graph.sigWritten decl.returnType).toList)) := by
    rw [toList_intercalate_blank, List.append_assoc, List.singleton_append, spacedOut_cons]
    simp only [spacedOut, List.flatMap_append, List.append_assoc]
  change (" ".intercalate ([".method"] ++ decl.access.keywords ++
    decl.returnAttributes.map LineReader.returnMark ++ [graph.sigWritten decl.returnType]) ++
      " " ++ decl.name ++ "(" ++
        commaSeparated (decl.parameters.mapIdx graph.parameterWritten) ++ ")").toList = _
  rw [String.toList_append, String.toList_append, String.toList_append, String.toList_append,
    String.toList_append, joined]
  simp only [List.append_assoc, List.cons_append]
  rfl

/-- The first line of a method is read with its modifiers and its name, if at all. -/
theorem reads_methodHeaderWritten (spelled : graph.IsSpelled) (known : graph.MethodKnown decl)
    (named : ∀ mark ∈ decl.returnAttributes, isName mark.name = true) {words : List Lexeme}
    (lexed : lexLine (graph.methodHeaderWritten decl).toList = .ok words) :
    ∃ rest, words = .name ".method" :: rest ∧
      ∀ number pending text remaining,
        (LineReader.methodHeader number pending).run rest = .ok (text, remaining) →
          text.access = decl.access ∧ text.name = decl.name ∧ text.body = none := by
  obtain ⟨behind, written⟩ := @toList_methodHeaderWritten graph decl
  rw [written, lexLine_nextName (by decide), lexLine_spacedOut fun word member =>
    (MethodAccess.keyword_known member).1] at lexed
  obtain ⟨_, lexedBehind, rfl⟩ := map_eq_ok_iff.mp lexed
  obtain ⟨words, lexedMarks, rfl⟩ := map_eq_ok_iff.mp lexedBehind
  refine ⟨_, rfl, fun number pending text remaining ran => ?_⟩
  obtain ⟨_, _, here, ran⟩ := runs_bind_iff.mp ran
  cases here
  obtain ⟨modifiers, left, readsModifiers, ran⟩ := runs_bind_iff.mp ran
  obtain ⟨type, between, readsType, ran⟩ := runs_bind_iff.mp ran
  obtain ⟨name, last, readsName, ran⟩ := runs_bind_iff.mp ran
  obtain ⟨parameters, finished, readsParameters, ran⟩ := runs_bind_iff.mp ran
  obtain ⟨_, _, -, ran⟩ := runs_bind_iff.mp ran
  cases ran
  have opens : last.head? = some (.mark '(') := by
    obtain ⟨_, _, opened, -⟩ := runs_bind_iff.mp readsParameters
    rw [LineReader.runs_requireMark_iff.mp opened]
    rfl
  have behindKeywords := LineReader.ReadsModifiers.keywords
    (fun word member => (MethodAccess.keyword_known member).2) ⟨_, readsModifiers⟩
  obtain ⟨attributes, later, lexedLater, readsLater⟩ := behindKeywords.returnMarks named lexedMarks
  have same := LineReader.eq_of_readsModifiers spelled known.returnType known.name lexedLater
    readsLater readsType readsName
  cases same
  exact ⟨MethodAccess.withKeywords_keywords _, LineReader.eq_of_reads_name spelled
    known.returnType known.name lexedLater readsType readsName opens, rfl⟩

/-! ## Lines of other declarations -/

/-- The first line of a type begins with the directive of its kind. -/
theorem exists_toList_typeHeaderWritten (graph : Graph) (type : TypeId) :
    ∃ front, (graph.typeHeaderWritten type).toList =
      (graph.type type).kind.directive.toList ++ ' ' :: front := by
  rw [typeHeaderWritten, String.append_assoc, String.append_assoc, String.toList_append,
    List.append_assoc, List.singleton_append, toList_intercalate_cons _ (by simp),
    List.append_assoc]
  exact ⟨_, rfl⟩

/-- The line of a field begins with its directive. -/
theorem exists_toList_fieldLineWritten (graph : Graph) (decl : FieldDecl) :
    ∃ front, (graph.fieldLineWritten decl).toList = ".field".toList ++ ' ' :: front := by
  rw [fieldLineWritten, List.append_assoc, List.singleton_append,
    toList_intercalate_cons _ (by simp)]
  exact ⟨_, rfl⟩

end Graph

end NullWeave
