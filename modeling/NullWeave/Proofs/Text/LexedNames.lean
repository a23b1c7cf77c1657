import Mathlib.Data.List.DropRight
import NullWeave.Proofs.Text.Lexing
import NullWeave.Proofs.Text.LineReading
import NullWeave.Text.Reading.Declaration

/-!
# Names that were read

A name that was cut from a line is lexed as one name again, and so is every
name in what a line declares: a reader takes names from the lexemes of its line
and makes up none.  For a generic parameter this holds of its name behind an
exclamation mark.
-/

namespace NullWeave

/-! ## Lexemes that were cut from a line -/

/-- Can a lexeme be cut from a line?  A name has to be lexed as one. -/
def Lexeme.IsCut : Lexeme → Prop
  | .name text => isName text = true
  | _ => True

/-- Can all lexemes be cut from a line? -/
def AreCut (lexemes : List Lexeme) : Prop := ∀ lexeme ∈ lexemes, lexeme.IsCut

theorem AreCut.tail {lexeme : Lexeme} {rest : List Lexeme}
    (cut : AreCut (lexeme :: rest)) : AreCut rest :=
  fun other member => cut other (List.mem_cons_of_mem _ member)

theorem AreCut.head {lexeme : Lexeme} {rest : List Lexeme}
    (cut : AreCut (lexeme :: rest)) : lexeme.IsCut :=
  cut lexeme (List.mem_cons_self ..)

theorem spanName_isPrefixOf (chars : List Char) : (spanName chars).1 <+: chars := by
  induction chars with
  | nil =>
      exact List.prefix_refl _
  | cons c rest inductionHypothesis =>
      rw [spanName]
      split
      · exact (List.prefix_cons_inj c).mpr inductionHypothesis
      · exact List.nil_prefix

/-- The characters that a name goes on with hold no end of a name. -/
theorem spanName_spanName (chars : List Char) :
    spanName (spanName chars).1 = ((spanName chars).1, []) := by
  induction chars with
  | nil =>
      rfl
  | cons c rest inductionHypothesis =>
      rw [spanName]
      split
      · rename_i goesOn
        rw [Bool.and_eq_true, Bool.not_eq_true'] at goesOn
        have noComment : beginsComment (c :: (spanName rest).1) = false := by
          rw [Bool.eq_false_iff, Ne, beginsComment_iff]
          intro slashes
          have longer := slashes.trans
            ((List.prefix_cons_inj c).mpr (spanName_isPrefixOf rest))
          rw [← beginsComment_iff, goesOn.2] at longer
          cases longer
        simp [spanName, goesOn.1, noComment, inductionHypothesis]
      · rfl

/-- What is left of a name whose first characters were taken holds no end of a name. -/
theorem spanName_of_suffix {name tail : List Char}
    (whole : spanName name = (name, [])) (suffix : tail <:+ name) :
    spanName tail = (tail, []) := by
  induction name with
  | nil =>
      obtain rfl := List.suffix_nil.mp suffix
      rfl
  | cons c rest inductionHypothesis =>
      rcases List.suffix_cons_iff.mp suffix with rfl | shorter
      · exact whole
      · refine inductionHypothesis ?_ shorter
        rw [spanName] at whole
        split at whole
        · simp only [Prod.mk.injEq, List.cons.injEq, true_and] at whole
          exact Prod.ext whole.1 whole.2
        · simp at whole

/-- Every lexeme of a line can be cut from a line. -/
theorem areCut_of_lexLine {chars : List Char} {lexemes : List Lexeme}
    (lexed : lexLine chars = .ok lexemes) : AreCut lexemes := by
  induction size : chars.length using Nat.strongRecOn
    generalizing chars lexemes with
  | ind size inductionHypothesis =>
      cases chars with
      | nil =>
          cases lexed
          exact List.forall_mem_nil _
      | cons c rest =>
          have later {after : List Char} {others : List Lexeme}
              (shorter : after.length ≤ rest.length)
              (lexed : lexLine after = .ok others) : AreCut others :=
            inductionHypothesis after.length
              (by rw [← size, List.length_cons]; omega) lexed rfl
          have cons {lexeme : Lexeme} {after : List Char}
              (shorter : after.length ≤ rest.length)
              (lexed : (lexeme :: ·) <$> lexLine after = .ok lexemes)
              (cut : lexeme.IsCut) : AreCut lexemes := by
            cases others : lexLine after with
            | error fault =>
                rw [others] at lexed
                cases lexed
            | ok words =>
                rw [others] at lexed
                cases lexed
                exact List.forall_mem_cons.mpr ⟨cut, later shorter others⟩
          rw [lexLine_cons, lexStep] at lexed
          split at lexed
          · exact later (Nat.le_refl _) lexed
          split at lexed
          · cases lexed
            exact List.forall_mem_nil _
          split at lexed
          · exact cons (by simp) lexed trivial
          split at lexed
          · split at lexed
            · cases lexed
            · rename_i text after read
              exact cons (Nat.le_of_lt (Quoted.length_rest_lt read)) lexed trivial
          split at lexed
          · split at lexed
            · cases lexed
            · exact cons (length_spanAlphanum_le rest) lexed trivial
          split at lexed
          · rename_i begins
            refine cons (length_spanName_le rest) lexed ?_
            simp [Lexeme.IsCut, isName, begins, spanName_spanName]
          split at lexed
          · exact cons (Nat.le_refl _) lexed trivial
          · cases lexed

/-- Is a name that of a generic parameter, which is written behind an exclamation mark? -/
structure IsParameterName (name : String) : Prop where
  isName : isName ("!" ++ name) = true
  withoutBangs : LineReader.withoutBangs ("!" ++ name) = name

theorem continuesName_of_beginsName {c : Char} (begins : beginsName c = true) :
    continuesName c = true := by
  rw [beginsName, Bool.or_eq_true] at begins
  rcases begins with letter | other
  · simp [continuesName, isWordChar, letter]
  · simp only [decide_eq_true_eq, List.mem_cons, List.not_mem_nil, or_false] at other
    rcases other with rfl | rfl | rfl | rfl | rfl <;> decide

/-- What is left of a name without its exclamation marks is the name of a generic parameter. -/
theorem isParameterName_withoutBangs {name : String} (named : isName name = true) :
    IsParameterName (LineReader.withoutBangs name) := by
  unfold isName at named
  split at named
  · cases named
  · rename_i c rest split
    rw [Bool.and_eq_true, beq_iff_eq] at named
    have suffix : (c :: rest).dropWhile (· == '!') <:+ c :: rest :=
      List.dropWhile_suffix _
    have whole : spanName ((c :: rest).dropWhile (· == '!')) =
        ((c :: rest).dropWhile (· == '!'), []) := by
      rcases List.suffix_cons_iff.mp suffix with same | shorter
      · have only := beginsOnlyName named.1
        rw [same, spanName, continuesName_of_beginsName named.1, beginsComment_of_ne only.notSlash, named.2]
        rfl
      · exact spanName_of_suffix named.2 shorter
    have shown : ("!" ++ LineReader.withoutBangs name).toList =
        '!' :: (c :: rest).dropWhile (· == '!') := by
      rw [LineReader.withoutBangs, split, String.toList_append]
      exact congrArg ('!' :: ·) String.toList_ofList
    refine ⟨?_, ?_⟩
    · rw [isName, shown]
      dsimp only
      rw [whole, beq_self_eq_true, Bool.and_true]
      decide
    · have again : ('!' :: (c :: rest).dropWhile (· == '!')).dropWhile (· == '!') =
          (c :: rest).dropWhile (· == '!') :=
        List.dropWhile_idempotent _ _
      rw [LineReader.withoutBangs, shown, again, LineReader.withoutBangs, split]

/-! ## What lines declare -/

/-- Are the names in a type that was written lexed as names? -/
inductive TypeExpr.Lexed : TypeExpr → Prop where
  | void : Lexed .void
  | named {name : String} : isName name = true → Lexed (.named name)
  | param {name : String} {isValueType : Bool} :
      IsParameterName name → Lexed (.param name isValueType)
  | byRef {element : TypeExpr} : element.Lexed → Lexed (.byRef element)
  | array {element : TypeExpr} : element.Lexed → Lexed (.array element)
  | generic {name : String} {arguments : List TypeExpr} :
      isName name = true → arguments ≠ [] → (∀ argument ∈ arguments, argument.Lexed) →
      Lexed (.generic name arguments)

/-- Is the name of an attribute lexed as one? -/
def Attribute.Lexed (mark : Attribute) : Prop := isName mark.name = true

/-- Are the names in a field that was declared lexed as names? -/
structure FieldText.Lexed (text : FieldText) : Prop where
  name : isName text.name = true
  type : text.type.Lexed

/-- Are the names in a parameter that was declared lexed as names? -/
structure ParameterText.Lexed (text : ParameterText) : Prop where
  attributes : ∀ mark ∈ text.attributes, mark.Lexed
  type : text.type.Lexed
  name : isName text.name = true

/-- Can the operands of an instruction that was declared be cut from a line? -/
def BodyItem.Lexed : BodyItem → Prop
  | .instruction _ _ operands => AreCut operands
  | _ => True

/-- Are the names in what a handler catches lexed as names? -/
def HandlerKindText.Lexed : HandlerKindText → Prop
  | .catch type => type.Lexed
  | .finally => True

/-- Are the names in a body that was declared lexed as names? -/
structure BodyText.Lexed (text : BodyText) : Prop where
  locals : ∀ entry ∈ text.locals, entry.1.Lexed
  items : ∀ item ∈ text.items, item.Lexed
  handlers : ∀ handler ∈ text.handlers, handler.kind.Lexed

/-- Are the names in a method that was declared lexed as names? -/
structure MethodText.Lexed (text : MethodText) : Prop where
  attributes : ∀ mark ∈ text.attributes, mark.Lexed
  returnAttributes : ∀ mark ∈ text.returnAttributes, mark.Lexed
  returnType : text.returnType.Lexed
  name : isName text.name = true
  parameters : ∀ parameter ∈ text.parameters, parameter.Lexed
  body : ∀ body ∈ text.body, body.Lexed

/-- Are the names in the first line of a type lexed as names? -/
structure TypeHeader.Lexed (header : TypeHeader) : Prop where
  attributes : ∀ mark ∈ header.attributes, mark.Lexed
  name : isName header.name = true
  genericParameters : ∀ name ∈ header.genericParameters, IsParameterName name
  base : ∀ base ∈ header.base, base.Lexed
  interfaces : ∀ interface ∈ header.interfaces, interface.Lexed

/-- Are the names in a type that was declared lexed as names? -/
inductive TypeText.Lexed : TypeText → Prop where
  | mk {header : TypeHeader} {fields : List FieldText} {methods : List MethodText}
      {nested : List TypeText} :
      header.Lexed → (∀ field ∈ fields, field.Lexed) →
      (∀ method ∈ methods, method.Lexed) → (∀ inner ∈ nested, inner.Lexed) →
      Lexed (.mk header fields methods nested)

/-! ## Readers that keep to what they read -/

/-- Does a reader, started where something holds, take a value that fits and leave what it holds of? -/
def Yields {state fault α : Type} (holds : state → Prop) (fits : α → Prop)
    (reader : StateT state (Except fault) α) : Prop :=
  ∀ start, holds start → ∀ value left,
    reader.run start = .ok (value, left) → fits value ∧ holds left

section Readers

variable {state fault α β : Type} {holds : state → Prop}
variable {fits : α → Prop} {fitsToo : β → Prop}

theorem yields_pure {value : α} (suits : fits value) :
    Yields holds fits (pure value : StateT state (Except fault) α) := by
  rintro start here _ _ ⟨⟩
  exact ⟨suits, here⟩

theorem yields_throw (error : fault) :
    Yields holds fits (throw error : StateT state (Except fault) α) := by
  rintro start here _ _ ⟨⟩

theorem Yields.bind {first : StateT state (Except fault) α}
    {next : α → StateT state (Except fault) β}
    (yields : Yields holds fits first)
    (yieldsNext : ∀ value, fits value → Yields holds fitsToo (next value)) :
    Yields holds fitsToo (first >>= next) := by
  intro start here value left ran
  rw [StateT.run_bind] at ran
  cases began : first.run start with
  | error error =>
      rw [began] at ran
      cases ran
  | ok between =>
      rw [began] at ran
      obtain ⟨suits, there⟩ := yields start here between.1 between.2 began
      exact yieldsNext between.1 suits between.2 there value left ran

theorem Yields.map {reader : StateT state (Except fault) α} {make : α → β}
    (yields : Yields holds fits reader)
    (suits : ∀ value, fits value → fitsToo (make value)) :
    Yields holds fitsToo (make <$> reader) := by
  rw [← bind_pure_comp]
  exact yields.bind fun value here => yields_pure (suits value here)

/-- What is done after one of two readers. -/
theorem Yields.ite_bind {condition : Prop} [Decidable condition]
    {first other : StateT state (Except fault) α}
    {next : α → StateT state (Except fault) β}
    (yields : Yields holds fits first) (yieldsOther : Yields holds fits other)
    (yieldsNext : ∀ value, fits value → Yields holds fitsToo (next value)) :
    Yields holds fitsToo (if condition then first >>= next else other >>= next) := by
  split
  · exact yields.bind yieldsNext
  · exact yieldsOther.bind yieldsNext

/-- What is done with what is there. -/
theorem yields_get_bind {next : state → StateT state (Except fault) α}
    (yields : ∀ start, holds start → ∀ value left,
      (next start).run start = .ok (value, left) → fits value ∧ holds left) :
    Yields holds fits (get >>= next) :=
  fun start here value left ran => yields start here value left ran

/-- What is done after something else was put there. -/
theorem yields_set_bind {start : state}
    {next : PUnit → StateT state (Except fault) α}
    (here : holds start) (yields : Yields holds fits (next ⟨⟩)) :
    Yields holds fits (set start >>= next) :=
  fun _ _ value left ran => yields start here value left ran

end Readers

/-! ## Readers of lines -/

namespace LineReader

/-- Does a reader take a value that fits and leave lexemes that can be cut from a line? -/
abbrev Yields {α : Type} (fits : α → Prop) (reader : LineReader α) : Prop :=
  NullWeave.Yields AreCut fits reader

section Lexemes

theorem yields_next? :
    Yields (fun found => ∀ lexeme ∈ found, lexeme.IsCut) next? := by
  rintro (_ | ⟨lexeme, rest⟩) cut _ _ ⟨⟩
  · exact ⟨nofun, cut⟩
  · refine ⟨?_, cut.tail⟩
    rintro _ ⟨⟩
    exact cut.head

theorem yields_done : Yields (fun _ => True) done := by
  rintro (_ | ⟨lexeme, rest⟩) cut _ _ ⟨⟩
  exact ⟨trivial, cut⟩

theorem yields_optionalMark (mark : Char) :
    Yields (fun _ => True) (optionalMark mark) := by
  refine yields_get_bind fun lexemes cut value left ran => ?_
  split at ran
  · split at ran
    · cases ran
      exact ⟨trivial, cut.tail⟩
    · cases ran
      exact ⟨trivial, cut⟩
  · cases ran
    exact ⟨trivial, cut⟩

theorem yields_optionalWord (word : String) :
    Yields (fun _ => True) (optionalWord word) := by
  refine yields_get_bind fun lexemes cut value left ran => ?_
  split at ran
  · split at ran
    · cases ran
      exact ⟨trivial, cut.tail⟩
    · cases ran
      exact ⟨trivial, cut⟩
  · cases ran
    exact ⟨trivial, cut⟩

theorem yields_requireMark (mark : Char) :
    Yields (fun _ => True) (requireMark mark) := by
  refine yields_next?.bind fun found _ => ?_
  cases found with
  | none =>
      exact yields_throw _
  | some found =>
      dsimp only
      split
      · exact yields_pure trivial
      · exact yields_throw _

theorem yields_requireWord (word : String) :
    Yields (fun _ => True) (requireWord word) := by
  refine (yields_optionalWord word).bind fun found _ => ?_
  cases found with
  | false =>
      exact yields_throw _
  | true =>
      exact yields_pure trivial

theorem yields_requireName :
    Yields (fun name => isName name = true) requireName := by
  refine yields_next?.bind fun found cut => ?_
  split
  · exact yields_pure (cut _ rfl)
  · exact yields_throw _
  · exact yields_throw _

theorem yields_requireString : Yields (fun _ => True) requireString := by
  refine yields_next?.bind fun found _ => ?_
  split
  · exact yields_pure trivial
  · exact yields_throw _

theorem yields_requireInteger : Yields (fun _ => True) requireInteger := by
  refine yields_next?.bind fun found _ => ?_
  split
  · exact yields_pure trivial
  · exact yields_throw _

theorem yields_requirePlace : Yields (fun _ => True) requirePlace := by
  refine yields_requireInteger.bind fun value _ => ?_
  split
  · exact yields_pure trivial
  · exact yields_throw _

theorem yields_placeOr (default : Nat) :
    Yields (fun _ => True) (placeOr default) := by
  refine yields_get_bind fun lexemes cut value left ran => ?_
  split at ran
  · cases ran
    exact ⟨trivial, cut⟩
  · exact yields_requirePlace lexemes cut value left ran

end Lexemes

section Lists

variable {α : Type} {fits : α → Prop} {item : LineReader α}

theorem yields_itemsWithin (yields : Yields fits item) (close : Char) (fuel : Nat) :
    Yields (fun items => ∀ value ∈ items, fits value)
      (itemsWithin item close fuel) := by
  induction fuel with
  | zero =>
      exact yields_throw _
  | succ fuel inductionHypothesis =>
      rw [itemsWithin]
      refine yields.bind fun first here => ?_
      refine (yields_optionalMark close).bind fun closed _ => ?_
      split
      · exact yields_pure (List.forall_mem_singleton.mpr here)
      · refine (yields_requireMark ',').bind fun _ _ => ?_
        refine inductionHypothesis.bind fun others there => ?_
        exact yields_pure (List.forall_mem_cons.mpr ⟨here, there⟩)

theorem yields_itemsUpTo (yields : Yields fits item) (close : Char) :
    Yields (fun items => ∀ value ∈ items, fits value) (itemsUpTo item close) :=
  yields_get_bind fun lexemes =>
    yields_itemsWithin yields close (lexemes.length + 1) lexemes

theorem yields_parenthesized (yields : Yields fits item) :
    Yields (fun items => ∀ value ∈ items, fits value) (parenthesized item) := by
  refine (yields_requireMark '(').bind fun _ _ => ?_
  refine (yields_optionalMark ')').bind fun closed _ => ?_
  split
  · exact yields_pure (List.forall_mem_nil _)
  · exact yields_itemsUpTo yields ')'

end Lists

/-! ## Types and attributes -/

section Types

theorem withSuffixes_lexed {type : TypeExpr} (lexed : type.Lexed)
    {lexemes : List Lexeme} (cut : AreCut lexemes) :
    (withSuffixes type lexemes).1.Lexed ∧ AreCut (withSuffixes type lexemes).2 := by
  fun_induction withSuffixes type lexemes with
  | case1 type rest inductionHypothesis =>
      exact inductionHypothesis (.byRef lexed) cut.tail
  | case2 type rest inductionHypothesis =>
      exact inductionHypothesis (.array lexed) cut.tail.tail
  | case3 type rest _ _ =>
      exact ⟨lexed, cut⟩

theorem yields_suffixes {type : TypeExpr} (lexed : type.Lexed) :
    Yields TypeExpr.Lexed (suffixes type) := by
  rintro lexemes cut _ _ ⟨⟩
  exact withSuffixes_lexed lexed cut

theorem yields_optionalStruct : Yields (fun _ => True) optionalStruct := by
  refine yields_get_bind fun lexemes cut value left ran => ?_
  split at ran
  · cases ran
    exact ⟨trivial, cut.tail.tail⟩
  · cases ran
    exact ⟨trivial, cut⟩

theorem yields_typeAfterName {arguments : LineReader (List TypeExpr)}
    (yields : Yields (fun types => types ≠ [] ∧ ∀ type ∈ types, type.Lexed) arguments)
    {name : String} (named : isName name = true) :
    Yields TypeExpr.Lexed (typeAfterName arguments name) := by
  rw [typeAfterName]
  split
  · exact yields_pure .void
  split
  · exact yields_optionalStruct.bind fun isValueType _ =>
      yields_pure (.param (isParameterName_withoutBangs named))
  · refine (yields_optionalMark '<').bind fun isGeneric _ => ?_
    split
    · refine yields.bind fun types lexed => ?_
      exact (yields_requireMark '>').bind fun _ _ =>
        yields_pure (.generic named lexed.1 lexed.2)
    · exact yields_pure (.named named)

theorem yields_typeWithin_typesWithin (fuel : Nat) :
    Yields TypeExpr.Lexed (typeWithin fuel) ∧
      Yields (fun types => types ≠ [] ∧ ∀ type ∈ types, type.Lexed)
        (typesWithin fuel) := by
  induction fuel with
  | zero =>
      rw [typeWithin, typesWithin]
      exact ⟨yields_throw _, yields_throw _⟩
  | succ fuel inductionHypothesis =>
      obtain ⟨yieldsType, yieldsTypes⟩ := inductionHypothesis
      constructor
      · rw [typeWithin]
        exact yields_requireName.bind fun name named =>
          (yields_typeAfterName yieldsTypes named).bind fun _ lexed =>
            yields_suffixes lexed
      · rw [typesWithin]
        refine yieldsType.bind fun first here => ?_
        refine (yields_optionalMark ',').bind fun more _ => ?_
        split
        · exact yieldsTypes.bind fun others there => yields_pure
            ⟨List.cons_ne_nil _ _, List.forall_mem_cons.mpr ⟨here, there.2⟩⟩
        · exact yields_pure
            ⟨List.cons_ne_nil _ _, List.forall_mem_singleton.mpr here⟩

theorem yields_type : Yields TypeExpr.Lexed type :=
  yields_get_bind fun lexemes =>
    (yields_typeWithin_typesWithin (2 * lexemes.length)).1 lexemes

theorem yields_types :
    Yields (fun types => types ≠ [] ∧ ∀ type ∈ types, type.Lexed) types :=
  yields_get_bind fun lexemes =>
    (yields_typeWithin_typesWithin (2 * lexemes.length + 1)).2 lexemes

theorem areCut_attributeArguments {finished : List String} {current : String}
    {lexemes left : List Lexeme} {arguments : List String} (cut : AreCut lexemes)
    (taken : attributeArguments finished current lexemes = some (arguments, left)) :
    AreCut left := by
  fun_induction attributeArguments finished current lexemes with
  | case1 =>
      cases taken
  | case2 finished current rest =>
      cases taken
      exact cut.tail
  | case3 finished current rest inductionHypothesis =>
      exact inductionHypothesis cut.tail taken
  | case4 finished current lexeme rest _ _ inductionHypothesis =>
      exact inductionHypothesis cut.tail taken

theorem yields_attributeBody : Yields Attribute.Lexed attributeBody := by
  refine yields_requireName.bind fun name named => ?_
  refine (yields_optionalMark '(').bind fun opened _ => ?_
  have finish (arguments : List String) :
      Yields Attribute.Lexed (do requireMark ']'; pure { name, arguments }) :=
    (yields_requireMark ']').bind fun _ _ => yields_pure named
  dsimp only
  split
  · refine yields_get_bind fun lexemes cut => ?_
    split
    · rintro _ _ ⟨⟩
    · rename_i arguments rest taken
      exact yields_set_bind (areCut_attributeArguments cut taken)
        (finish arguments) _ cut
  · exact finish []

theorem Yields.attributesWithin {fits : Attribute → Prop} (body : Yields fits attributeBody)
    (fuel : Nat) : Yields (fun marks => ∀ mark ∈ marks, fits mark) (attributesWithin fuel) := by
  induction fuel with
  | zero =>
      exact yields_pure (List.forall_mem_nil _)
  | succ fuel inductionHypothesis =>
      rw [LineReader.attributesWithin]
      refine yields_get_bind fun lexemes cut => ?_
      split
      · exact yields_pure (List.forall_mem_nil _) _ cut
      · refine yields_set_bind cut.tail (body.bind fun first here => ?_) _ cut
        exact inductionHypothesis.bind fun others there =>
          yields_pure (List.forall_mem_cons.mpr ⟨here, there⟩)
      · exact yields_pure (List.forall_mem_nil _) _ cut

/-- What is known of every attribute that is taken is known of all of them. -/
theorem Yields.attributes {fits : Attribute → Prop} (body : Yields fits attributeBody) :
    Yields (fun marks => ∀ mark ∈ marks, fits mark) attributes :=
  yields_get_bind fun lexemes => body.attributesWithin lexemes.length lexemes

theorem yields_attributes :
    Yields (fun marks => ∀ mark ∈ marks, mark.Lexed) attributes :=
  Yields.attributes yields_attributeBody

end Types

/-! ## First lines of declarations -/

section Declarations

theorem areCut_typeModifiers (access : TypeAccess) {lexemes : List Lexeme}
    (cut : AreCut lexemes) : AreCut (typeModifiers access lexemes).2 := by
  induction lexemes generalizing access with
  | nil =>
      exact cut
  | cons lexeme rest inductionHypothesis =>
      cases lexeme with
      | name word =>
          rw [typeModifiers]
          split
          · exact inductionHypothesis _ cut.tail
          · exact cut
      | str _ | int _ | mark _ | doubleColon =>
          exact cut

theorem areCut_fieldModifiers (access : FieldAccess) {lexemes : List Lexeme}
    (cut : AreCut lexemes) : AreCut (fieldModifiers access lexemes).2 := by
  fun_induction fieldModifiers access lexemes with
  | case1 access rest inductionHypothesis | case2 access rest inductionHypothesis
  | case3 access rest inductionHypothesis =>
      exact inductionHypothesis cut.tail
  | case4 =>
      exact cut

theorem yields_genericParameter : Yields IsParameterName genericParameter :=
  yields_requireName.bind fun _ named =>
    yields_pure (isParameterName_withoutBangs named)

theorem yields_typeHeader {line : Nat} {marks : List Attribute} {kind : TypeKind}
    (lexed : ∀ mark ∈ marks, mark.Lexed) :
    Yields TypeHeader.Lexed (typeHeader line marks kind) := by
  refine yields_get_bind fun lexemes cut => ?_
  refine yields_set_bind (areCut_typeModifiers {} cut)
    (yields_requireName.bind fun name named => ?_) _ cut
  refine (yields_optionalMark '<').bind fun hasParameters _ => ?_
  refine (yields_itemsUpTo yields_genericParameter '>').ite_bind
    (yields_pure (List.forall_mem_nil _)) fun genericParameters areNames => ?_
  refine (yields_optionalMark ':').bind fun hasBase _ => ?_
  have yieldsBase : Yields (fun base : Option TypeExpr => ∀ type ∈ base, type.Lexed)
      (some <$> type) := by
    refine yields_type.map ?_
    rintro type lexed _ ⟨⟩
    exact lexed
  refine yieldsBase.ite_bind (yields_pure nofun) fun base baseLexed => ?_
  refine (yields_optionalWord "implements").bind fun hasInterfaces _ => ?_
  have yieldsInterfaces : Yields (fun types => ∀ type ∈ types, type.Lexed) types :=
    fun lexemes cut value left ran =>
      (yields_types lexemes cut value left ran).imp_left And.right
  refine yieldsInterfaces.ite_bind (yields_pure (List.forall_mem_nil _))
    fun interfaces interfacesLexed => ?_
  exact yields_done.bind fun _ _ =>
    yields_pure
      { attributes := lexed, name := named, genericParameters := areNames,
        base := baseLexed, interfaces := interfacesLexed }

theorem yields_field (line : Nat) : Yields FieldText.Lexed (field line) := by
  refine yields_get_bind fun lexemes cut => ?_
  refine yields_set_bind (areCut_fieldModifiers {} cut)
    (yields_type.bind fun type lexed => ?_) _ cut
  exact yields_requireName.bind fun name named =>
    yields_done.bind fun _ _ => yields_pure { name := named, type := lexed }

/-- Are the names of attributes in front of a return type lexed as names? -/
structure MethodModifiers.Lexed (modifiers : MethodModifiers) : Prop where
  attributes : ∀ mark ∈ modifiers.attributes, mark.Lexed
  returnAttributes : ∀ mark ∈ modifiers.returnAttributes, mark.Lexed

theorem yields_methodModifiersWithin (fuel : Nat) {modifiers : MethodModifiers}
    (lexed : modifiers.Lexed) :
    Yields MethodModifiers.Lexed (methodModifiersWithin fuel modifiers) := by
  induction fuel generalizing modifiers with
  | zero =>
      exact yields_throw _
  | succ fuel inductionHypothesis =>
      have more {marks : List Attribute} {mark : Attribute}
          (lexed : ∀ mark ∈ marks, mark.Lexed) (lexedToo : mark.Lexed) :
          ∀ other ∈ marks ++ [mark], other.Lexed :=
        List.forall_mem_append.mpr ⟨lexed, List.forall_mem_singleton.mpr lexedToo⟩
      rw [methodModifiersWithin]
      refine yields_get_bind fun lexemes cut => ?_
      split
      · refine yields_set_bind cut.tail.tail.tail
          (yields_attributeBody.bind fun mark lexedToo => ?_) _ cut
        exact inductionHypothesis ⟨lexed.attributes, more lexed.returnAttributes lexedToo⟩
      · refine yields_set_bind cut.tail
          (yields_attributeBody.bind fun mark lexedToo => ?_) _ cut
        exact inductionHypothesis ⟨more lexed.attributes lexedToo, lexed.returnAttributes⟩
      · split
        · rename_i modifier _
          have same : MethodModifiers.Lexed
              { modifiers with access := modifiers.access.union modifier } :=
            ⟨lexed.attributes, lexed.returnAttributes⟩
          exact yields_set_bind cut.tail (inductionHypothesis same) _ cut
        · exact yields_pure lexed _ cut
      · exact yields_throw _ _ cut

theorem yields_parameter : Yields ParameterText.Lexed parameter := by
  refine yields_attributes.bind fun attributes marked => ?_
  refine (yields_optionalWord "out").bind fun isOut _ => ?_
  refine yields_type.bind fun type lexed => ?_
  refine yields_requireName.bind fun name named => ?_
  refine (yields_optionalMark '=').bind fun hasNullDefault _ => ?_
  have suits : Yields ParameterText.Lexed
      (pure { attributes, isOut, type, name, hasNullDefault }) :=
    yields_pure { attributes := marked, type := lexed, name := named }
  cases hasNullDefault with
  | false =>
      exact suits
  | true =>
      exact (yields_requireWord "null").bind fun _ _ => suits

theorem yields_methodHeader {line : Nat} {marks : List Attribute}
    (lexed : ∀ mark ∈ marks, mark.Lexed) :
    Yields MethodText.Lexed (methodHeader line marks) := by
  refine yields_get_bind fun lexemes cut => ?_
  have start : MethodModifiers.Lexed { attributes := marks } :=
    ⟨lexed, List.forall_mem_nil _⟩
  refine ((yields_methodModifiersWithin (lexemes.length + 1) start).bind
    fun modifiers marked => ?_) _ cut
  refine yields_type.bind fun returnType typed => ?_
  refine yields_requireName.bind fun name named => ?_
  refine (yields_parenthesized yields_parameter).bind fun parameters areLexed => ?_
  exact yields_done.bind fun _ _ =>
    yields_pure
      { attributes := marked.attributes, returnAttributes := marked.returnAttributes,
        returnType := typed, name := named, parameters := areLexed, body := nofun }

end Declarations

/-! ## Lines of bodies -/

section Bodies

theorem yields_localVariable : Yields (fun entry => entry.1.Lexed) localVariable :=
  yields_type.bind fun _ lexed => yields_requireName.bind fun _ _ => yields_pure lexed

theorem yields_span? : Yields (fun _ => True) span? := by
  refine (yields_optionalWord "hidden").bind fun hidden _ => ?_
  split
  · exact yields_pure trivial
  · exact yields_requirePlace.bind fun startLine _ =>
      (yields_placeOr 0).bind fun _ _ =>
        (yields_placeOr startLine).bind fun _ _ =>
          (yields_placeOr 0).bind fun _ _ => yields_pure trivial

theorem yields_handler (line : Nat) :
    Yields (fun text => text.kind.Lexed) (handler line) := by
  refine yields_requireName.bind fun tryStart _ => ?_
  refine (yields_requireWord "to").bind fun _ _ => ?_
  refine yields_requireName.bind fun tryEnd _ => ?_
  refine (yields_optionalWord "catch").bind fun catches _ => ?_
  have finish (kind : HandlerKindText) (lexed : kind.Lexed) :
      Yields (fun text : HandlerText => text.kind.Lexed) (do
        requireWord "handler"
        let handlerStart ← requireName
        let handlerEnd ← if ← optionalWord "to" then some <$> requireName else pure none
        done
        pure { line, kind, tryStart, tryEnd, handlerStart, handlerEnd }) := by
    refine (yields_requireWord "handler").bind fun _ _ => ?_
    refine yields_requireName.bind fun handlerStart _ => ?_
    refine (yields_optionalWord "to").bind fun ends _ => ?_
    have yieldsEnd : Yields (fun _ => True) (some <$> requireName) :=
      yields_requireName.map fun _ _ => trivial
    exact yieldsEnd.ite_bind (yields_pure trivial) fun handlerEnd _ =>
      yields_done.bind fun _ _ => yields_pure lexed
  dsimp only
  split
  · have yieldsCatch : Yields HandlerKindText.Lexed (HandlerKindText.catch <$> type) :=
      yields_type.map fun type lexed => lexed
    exact yieldsCatch.bind finish
  · exact (yields_requireWord "finally").bind fun _ _ => finish .finally trivial

/-- Are the names in what a line of a body says lexed as names? -/
def BodyLine.Lexed : BodyLine → Prop
  | .document _ => True
  | .locals _ declared => ∀ entry ∈ declared, entry.1.Lexed
  | .handler text => text.kind.Lexed
  | .items parts => ∀ item ∈ parts, item.Lexed

theorem yields_label? : Yields (fun _ => True) label? := by
  refine yields_get_bind fun lexemes cut value left ran => ?_
  split at ran
  · cases ran
    exact ⟨trivial, cut.tail.tail⟩
  · cases ran
    exact ⟨trivial, cut⟩

theorem yields_instruction (line : Nat) : Yields BodyItem.Lexed (instruction line) := by
  refine yields_requireName.bind fun mnemonic _ => ?_
  rintro operands cut _ _ ⟨⟩
  exact ⟨cut, List.forall_mem_nil _⟩

theorem yields_code (line : Nat) : Yields BodyLine.Lexed (code line) := by
  refine yields_label?.bind fun label _ => ?_
  cases label with
  | none =>
      exact (yields_instruction line).bind fun item lexed =>
        yields_pure (List.forall_mem_singleton.mpr lexed)
  | some name =>
      refine yields_get_bind fun lexemes cut value left ran => ?_
      split at ran
      · cases ran
        exact ⟨List.forall_mem_singleton.mpr trivial, cut⟩
      · refine ((yields_instruction line).bind fun item lexed => ?_) _ cut value left ran
        exact yields_pure
          (List.forall_mem_cons.mpr ⟨trivial, List.forall_mem_singleton.mpr lexed⟩)

theorem yields_bodyLine (line : Nat) (document : Option String) :
    Yields BodyLine.Lexed (bodyLine line document) := by
  refine yields_get_bind fun lexemes cut => ?_
  split
  · refine yields_set_bind cut.tail (yields_requireString.bind fun name _ => ?_) _ cut
    exact yields_done.bind fun _ _ => yields_pure trivial
  · refine yields_set_bind cut.tail
      ((yields_optionalWord "init").bind fun init _ => ?_) _ cut
    refine (yields_parenthesized yields_localVariable).bind fun declared lexed => ?_
    exact yields_done.bind fun _ _ => yields_pure lexed
  · cases document with
    | none =>
        rintro _ _ ⟨⟩
    | some document =>
        refine yields_set_bind cut.tail (yields_span?.bind fun span _ => ?_) _ cut
        exact yields_done.bind fun _ _ =>
          yields_pure (List.forall_mem_singleton.mpr trivial)
  · have yieldsHandler : Yields BodyLine.Lexed (do pure (.handler (← handler line))) :=
      (yields_handler line).bind fun text lexed => yields_pure lexed
    exact yields_set_bind cut.tail yieldsHandler _ cut
  · exact yields_code line _ cut
  · exact yields_throw _ _ cut

end Bodies

end LineReader

end NullWeave
