import NullWeave.Proofs.Text.Lexing
import NullWeave.Proofs.Text.ResolvedBodies
import NullWeave.Text.Reading.Module

/-!
# Lines that faults are told of

A fault is told of a line of the text, and there is something on that line: it is
neither blank nor only a comment.  For blank lines and comments have no lexemes,
lines without lexemes are left out before the first line is read, and every
declaration keeps the number of a line that it was read from.
-/

namespace NullWeave

/-! ## Lines that say something -/

/-- Does a line say nothing, because it is blank or only a comment? -/
def saysNothing (line : List Char) : Bool :=
  (line.dropWhile isBlank).isEmpty || beginsComment (line.dropWhile isBlank)

/-- A line that says nothing has no lexemes. -/
theorem lexLine_of_saysNothing {line : List Char} (nothing : saysNothing line = true) :
    lexLine line = .ok [] := by
  induction line with
  | nil =>
      exact lexLine_nil
  | cons c rest inductionHypothesis =>
      rw [lexLine_cons, lexStep]
      by_cases blank : isBlank c = true
      · rw [if_pos blank]
        apply inductionHypothesis
        rw [saysNothing, List.dropWhile_cons_of_pos blank] at nothing
        exact nothing
      · rw [if_neg blank]
        rw [saysNothing, List.dropWhile_cons_of_neg blank] at nothing
        exact if_pos nothing

/-- Is a number that of a line of a text, counted from one, which says something? -/
structure SaysSomethingAt (text : String) (number : Nat) : Prop where
  fromOne : 1 ≤ number
  toLast : number ≤ (splitLines text.toList).length
  speaks : ∀ line ∈ (splitLines text.toList)[number - 1]?, saysNothing line = false

/-- Lines are lexed, or refused for a line, only where they say something. -/
theorem endsIn_lexLinesFrom {told : Nat → Prop} {number : Nat} {lines : List (List Char)}
    (speaks : ∀ index line, lines[index]? = some line → saysNothing line = false →
      told (number + index)) :
    EndsIn (fun cut => ∀ line ∈ cut, told line.number) (fun error => told error.line)
      (lexLinesFrom number lines) := by
  induction lines generalizing number with
  | nil =>
      exact List.forall_mem_nil _
  | cons line rest inductionHypothesis =>
      have speaksLater : ∀ index other, rest[index]? = some other → saysNothing other = false →
          told (number + 1 + index) := by
        intro index other there said
        rw [Nat.add_right_comm]
        exact speaks (index + 1) other there said
      have later := inductionHypothesis speaksLater
      have here (some : lexLine line ≠ .ok []) : told number := by
        apply speaks 0 line rfl
        rw [Bool.eq_false_iff]
        exact fun nothing => some (lexLine_of_saysNothing nothing)
      rw [lexLinesFrom]
      cases lexed : lexLine line with
      | error fault =>
          apply here
          rw [lexed]
          rintro ⟨⟩
      | ok lexemes =>
          dsimp only
          cases rested : lexLinesFrom (number + 1) rest with
          | error error =>
              exact later.of_error rested
          | ok others =>
              have othersTold := later.of_ok rested
              cases lexemes with
              | nil =>
                  exact othersTold
              | cons lexeme lexemes =>
                  refine List.forall_mem_cons.mpr ⟨here ?_, othersTold⟩
                  rw [lexed]
                  rintro ⟨⟩

theorem endsIn_lexText (text : String) :
    EndsIn (fun cut => ∀ line ∈ cut, SaysSomethingAt text line.number)
      (fun error => SaysSomethingAt text error.line) (lexText text) := by
  apply endsIn_lexLinesFrom
  intro index line here speaks
  have inside : index < (splitLines text.toList).length :=
    (List.getElem?_eq_some_iff.mp here).1
  refine ⟨Nat.le_add_right 1 index, by omega, ?_⟩
  intro other there
  rw [Nat.add_sub_cancel_left, here] at there
  cases there
  exact speaks

/-! ## Lines of declarations -/

section Declarations

variable (told : Nat → Prop)

/-- Does a declared method keep only lines that faults may be told of? -/
structure MethodText.KeepsLines (text : MethodText) : Prop where
  line : told text.line
  body : ∀ body ∈ text.body, ∀ line ∈ body.lines, told line

/-- Does a declared type keep only lines that faults may be told of? -/
inductive TypeText.KeepsLines : TypeText → Prop where
  | mk {header : TypeHeader} {fields : List FieldText} {methods : List MethodText}
      {nested : List TypeText} :
      told header.line → (∀ field ∈ fields, told field.line) →
      (∀ method ∈ methods, method.KeepsLines told) →
      (∀ inner ∈ nested, inner.KeepsLines) →
      KeepsLines (.mk header fields methods nested)

end Declarations

namespace TypeText.KeepsLines

variable {told : Nat → Prop} {type : TypeText}

theorem ofHeader {header : TypeHeader} (line : told header.line) :
    (TypeText.ofHeader header).KeepsLines told :=
  .mk line (List.forall_mem_nil _) (List.forall_mem_nil _) (List.forall_mem_nil _)

theorem header (keeps : type.KeepsLines told) : told type.header.line := by
  cases keeps
  assumption

theorem addField {field : FieldText} (keeps : type.KeepsLines told) (line : told field.line) :
    (type.addField field).KeepsLines told := by
  obtain ⟨header, fields, methods, nested⟩ := keeps
  exact .mk header (List.forall_mem_append.mpr ⟨fields, List.forall_mem_singleton.mpr line⟩)
    methods nested

theorem addMethod {method : MethodText} (keeps : type.KeepsLines told)
    (keepsToo : method.KeepsLines told) : (type.addMethod method).KeepsLines told := by
  obtain ⟨header, fields, methods, nested⟩ := keeps
  exact .mk header fields
    (List.forall_mem_append.mpr ⟨methods, List.forall_mem_singleton.mpr keepsToo⟩) nested

theorem addNested {inner : TypeText} (keeps : type.KeepsLines told)
    (keepsToo : inner.KeepsLines told) : (type.addNested inner).KeepsLines told := by
  obtain ⟨header, fields, methods, nested⟩ := keeps
  exact .mk header fields methods
    (List.forall_mem_append.mpr ⟨nested, List.forall_mem_singleton.mpr keepsToo⟩)

end TypeText.KeepsLines

/-! ## Readers of lines -/

namespace LineReader

/-- Does all that a reader takes fit, whatever it fails with? -/
abbrev Makes {α : Type} (fits : α → Prop) (reader : LineReader α) : Prop :=
  ReaderEnds (fun _ => True) (fun value _ => fits value) (fun _ => True) reader

section Makes

variable {α β : Type} {fits : β → Prop}

theorem makes_pure {value : β} (suits : fits value) : Makes fits (pure value : LineReader β) :=
  readerEnds_pure fun _ _ => suits

/-- What a reader takes is asked for only by its last step. -/
theorem makes_after {first : LineReader α} {next : α → LineReader β}
    (makes : ∀ value, Makes fits (next value)) : Makes fits (first >>= next) :=
  (readerEnds_any first).bind makes

theorem makes_after_either {condition : Prop} [Decidable condition]
    {first other : LineReader α} {next : α → LineReader β}
    (makes : ∀ value, Makes fits (next value)) :
    Makes fits (if condition then first >>= next else other >>= next) := by
  split
  · exact makes_after makes
  · exact makes_after makes

end Makes

variable (line : Nat)

theorem makes_typeHeader (attributes : List Attribute) (kind : TypeKind) :
    Makes (·.line = line) (typeHeader line attributes kind) := by
  refine makes_after fun lexemes => ?_
  refine makes_after fun _ => ?_
  refine makes_after fun name => ?_
  refine makes_after fun hasParameters => ?_
  refine makes_after_either fun genericParameters => ?_
  refine makes_after fun hasBase => ?_
  refine makes_after_either fun base => ?_
  refine makes_after fun hasInterfaces => ?_
  refine makes_after_either fun interfaces => ?_
  exact makes_after fun _ => makes_pure rfl

theorem makes_field : Makes (·.line = line) (field line) := by
  refine makes_after fun lexemes => ?_
  refine makes_after fun _ => ?_
  refine makes_after fun type => ?_
  refine makes_after fun name => ?_
  exact makes_after fun _ => makes_pure rfl

/-- The first line of a method keeps its number, and the method has no body yet. -/
theorem makes_methodHeader (attributes : List Attribute) :
    Makes (fun method => method.line = line ∧ method.body = none)
      (methodHeader line attributes) := by
  refine makes_after fun lexemes => ?_
  refine makes_after fun modifiers => ?_
  refine makes_after fun returnType => ?_
  refine makes_after fun name => ?_
  refine makes_after fun parameters => ?_
  exact makes_after fun _ => makes_pure ⟨rfl, rfl⟩

theorem makes_handler : Makes (·.line = line) (handler line) := by
  refine makes_after fun tryStart => ?_
  refine makes_after fun _ => ?_
  refine makes_after fun tryEnd => ?_
  refine makes_after fun catches => ?_
  have finish (kind : HandlerKindText) :
      Makes (·.line = line) (do
        requireWord "handler"
        let handlerStart ← requireName
        let handlerEnd ← if ← optionalWord "to" then some <$> requireName else pure none
        done
        pure { line, kind, tryStart, tryEnd, handlerStart, handlerEnd } :
          LineReader HandlerText) := by
    refine makes_after fun _ => ?_
    refine makes_after fun handlerStart => ?_
    refine makes_after fun ends => ?_
    refine makes_after_either fun handlerEnd => ?_
    exact makes_after fun _ => makes_pure rfl
  dsimp only
  split
  · exact makes_after finish
  · exact makes_after fun _ => finish .finally

/-- Does what a line of a body says keep the number of that line? -/
def BodyLine.StandsIn (line : Nat) : BodyLine → Prop
  | .handler text => text.line = line
  | .items parts => ∀ item ∈ parts, item.line = line
  | _ => True

theorem makes_instruction : Makes (·.line = line) (instruction line) := by
  refine makes_after fun mnemonic => ?_
  refine makes_after fun operands => ?_
  exact makes_after fun _ => makes_pure rfl

theorem makes_code : Makes (BodyLine.StandsIn line) (code line) := by
  refine makes_after fun label => ?_
  cases label with
  | none =>
      refine (makes_instruction line).bind fun item => ?_
      exact readerEnds_pure fun _ here => List.forall_mem_singleton.mpr here
  | some name =>
      refine makes_after fun lexemes => ?_
      split
      · exact makes_pure (List.forall_mem_singleton.mpr rfl)
      · refine (makes_instruction line).bind fun item => ?_
        exact readerEnds_pure fun _ here =>
          List.forall_mem_cons.mpr ⟨rfl, List.forall_mem_singleton.mpr here⟩

theorem makes_bodyLine (document : Option String) :
    Makes (BodyLine.StandsIn line) (bodyLine line document) := by
  refine makes_after fun lexemes => ?_
  split
  · refine makes_after fun _ => ?_
    refine makes_after fun name => ?_
    exact makes_after fun _ => makes_pure trivial
  · refine makes_after fun _ => ?_
    refine makes_after fun init => ?_
    refine makes_after fun declared => ?_
    exact makes_after fun _ => makes_pure trivial
  · refine makes_after fun _ => ?_
    split
    · exact readerEnds_throw trivial
    · refine makes_after fun span => ?_
      exact makes_after fun _ => makes_pure (List.forall_mem_singleton.mpr rfl)
  · refine makes_after fun _ => ?_
    refine (makes_handler line).bind fun text => ?_
    exact readerEnds_pure fun _ here => here
  · exact makes_code line
  · exact readerEnds_throw trivial

end LineReader

/-! ## Readers of modules -/

theorem BodyText.lines_add {body : BodyText} {said : LineReader.BodyLine} {line : Nat}
    {told : Nat → Prop} (keeps : ∀ number ∈ body.lines, told number) (here : told line)
    (stands : said.StandsIn line) : ∀ number ∈ (body.add said).lines, told number := by
  obtain ⟨items, handlers⟩ := List.forall_mem_append.mp keeps
  cases said with
  | document _ | locals _ _ =>
      exact keeps
  | handler text =>
      refine List.forall_mem_append.mpr ⟨items, ?_⟩
      rw [BodyText.add, List.map_append, List.forall_mem_append]
      refine ⟨handlers, List.forall_mem_singleton.mpr ?_⟩
      rw [LineReader.BodyLine.StandsIn] at stands
      subst stands
      exact here
  | items parts =>
      refine List.forall_mem_append.mpr ⟨?_, handlers⟩
      rw [BodyText.add, List.map_append, List.forall_mem_append]
      refine ⟨items, List.forall_mem_map.mpr fun item member => ?_⟩
      rw [stands item member]
      exact here

namespace ModuleReader

variable {told : Nat → Prop} {α β : Type} {fits : α → Prop}

/-- May faults be told of all lines that are left? -/
def LinesTold (told : Nat → Prop) (text : ModuleText) : Prop :=
  ∀ line ∈ text.lines, told line.number

/-- Does a reader take a value that fits, and tell faults only of lines of which it may? -/
abbrev Tells (told : Nat → Prop) (fits : α → Prop) (reader : ModuleReader α) : Prop :=
  ReaderEnds (LinesTold told) (fun value left => fits value ∧ LinesTold told left)
    (fun error => told error.line) reader

theorem tells_pure {value : α} (suits : fits value) :
    Tells told fits (pure value : ModuleReader α) :=
  readerEnds_pure fun _ left => ⟨suits, left⟩

theorem tells_fail {line : Nat} (here : told line) (fault : TextFault) :
    Tells told fits (fail line fault : ModuleReader α) :=
  readerEnds_throw here

theorem tells_nextLine? :
    Tells told (fun found => ∀ line ∈ found, told line.number) nextLine? := by
  rintro ⟨_ | ⟨line, rest⟩, document⟩ lines
  · refine ⟨?_, lines⟩
    rintro _ ⟨⟩
  · obtain ⟨here, later⟩ := List.forall_mem_cons.mp lines
    refine ⟨?_, later⟩
    rintro _ ⟨⟩
    exact here

theorem tells_onLine {reader : LineReader α} (makes : LineReader.Makes fits reader) {line : Nat}
    (here : told line) (lexemes : List Lexeme) : Tells told fits (onLine line lexemes reader) := by
  have ends := makes lexemes trivial
  unfold onLine
  split
  · exact tells_fail here _
  · rename_i ran
    exact tells_pure (ends.of_ok ran)

/-- A line of which nothing is kept. -/
theorem tells_onLine_any {line : Nat} (here : told line) (lexemes : List Lexeme)
    (reader : LineReader α) : Tells told (fun _ => True) (onLine line lexemes reader) :=
  tells_onLine (readerEnds_any reader) here lexemes

theorem tells_setDocument (name : String) :
    Tells told (fun _ => True)
      (modify fun text : ModuleText => { text with document := some name }) :=
  fun _ lines => ⟨trivial, lines⟩

theorem tells_documentLine {line : Nat} (here : told line) (rest : List Lexeme) :
    Tells told (fun _ => True) (documentLine line rest) :=
  (tells_onLine_any here rest _).andThen fun name _ => tells_setDocument name

theorem tells_methodWithin (fuel : Nat) {method : MethodText} {body : BodyText}
    (keeps : method.KeepsLines told) (keepsToo : ∀ line ∈ body.lines, told line) :
    Tells told (MethodText.KeepsLines told) (methodWithin fuel method body) := by
  induction fuel generalizing body with
  | zero =>
      exact tells_fail keeps.line _
  | succ fuel inductionHypothesis =>
      rw [methodWithin]
      refine tells_nextLine?.andThen fun found toldOf => ?_
      split
      · exact tells_fail keeps.line _
      · have here := toldOf _ rfl
        refine (tells_onLine_any here _ LineReader.done).andThen fun _ _ => ?_
        split
        · refine tells_pure ⟨keeps.line, ?_⟩
          rintro _ ⟨⟩
          exact keepsToo
        split
        · exact tells_pure keeps
        · exact tells_fail here _
      · have here := toldOf _ rfl
        refine readerEnds_get_bind fun text => ?_
        refine (tells_onLine (LineReader.makes_bodyLine _ _) here _).andThen fun said stands => ?_
        have later := inductionHypothesis (BodyText.lines_add keepsToo here stands)
        split
        · exact (tells_setDocument _).andThen fun _ _ => later
        · exact later

theorem tells_typeWithin (fuel : Nat) (pending : List Attribute) {type : TypeText}
    (keeps : type.KeepsLines told) :
    Tells told (TypeText.KeepsLines told) (typeWithin fuel pending type) := by
  induction fuel generalizing pending type with
  | zero =>
      exact tells_fail keeps.header _
  | succ fuel inductionHypothesis =>
      rw [typeWithin]
      refine tells_nextLine?.andThen fun found toldOf => ?_
      split
      · exact tells_fail keeps.header _
      · exact (tells_onLine_any (toldOf _ rfl) _ _).andThen fun more _ =>
          inductionHypothesis _ keeps
      · have here := toldOf _ rfl
        split
        · refine (tells_onLine_any here _ LineReader.done).andThen fun _ _ => ?_
          split
          · exact tells_pure keeps
          · exact tells_fail here _
        · exact (tells_documentLine here _).andThen fun _ _ => inductionHypothesis _ keeps
        · split
          · refine (tells_onLine (LineReader.makes_field _) here _).andThen fun field same => ?_
            exact inductionHypothesis _ (keeps.addField (same.symm ▸ here))
          · exact tells_fail here _
        · refine (tells_onLine (LineReader.makes_methodHeader _ _) here _).andThen
            fun method known => ?_
          have begun : method.KeepsLines told := by
            refine ⟨known.1.symm ▸ here, ?_⟩
            rw [known.2]
            rintro _ ⟨⟩
          refine (tells_methodWithin fuel begun (List.forall_mem_nil _)).andThen
            fun whole wholeKeeps => ?_
          exact inductionHypothesis _ (keeps.addMethod wholeKeeps)
        · refine (tells_onLine (LineReader.makes_typeHeader _ _ _) here _).andThen
            fun header same => ?_
          refine (inductionHypothesis [] (.ofHeader (same.symm ▸ here))).andThen
            fun inner innerKeeps => ?_
          exact inductionHypothesis _ (keeps.addNested innerKeeps)
        · exact tells_fail here _
      · exact tells_fail (toldOf _ rfl) _

theorem tells_typesWithin {lastLine : Nat} (last : told lastLine) (fuel : Nat)
    (pending : List Attribute) :
    Tells told (fun types => ∀ type ∈ types, type.KeepsLines told)
      (typesWithin lastLine fuel pending) := by
  induction fuel generalizing pending with
  | zero =>
      rw [typesWithin]
      split
      · exact tells_pure (List.forall_mem_nil _)
      · exact tells_fail last _
  | succ fuel inductionHypothesis =>
      rw [typesWithin]
      refine tells_nextLine?.andThen fun found toldOf => ?_
      split
      · split
        · exact tells_pure (List.forall_mem_nil _)
        · exact tells_fail last _
      · exact (tells_onLine_any (toldOf _ rfl) _ _).andThen fun more _ => inductionHypothesis _
      · have here := toldOf _ rfl
        split
        · exact (tells_documentLine here _).andThen fun _ _ => inductionHypothesis _
        · refine (tells_onLine (LineReader.makes_typeHeader _ _ _) here _).andThen
            fun header same => ?_
          refine (tells_typeWithin fuel [] (.ofHeader (same.symm ▸ here))).andThen
            fun first firstKeeps => ?_
          refine (inductionHypothesis []).andThen fun others othersKeep => ?_
          exact tells_pure (List.forall_mem_cons.mpr ⟨firstKeeps, othersKeep⟩)
        · exact tells_fail here _
      · exact tells_fail (toldOf _ rfl) _

end ModuleReader

/-- The types of a module keep only lines that say something, or its fault is told of one. -/
theorem endsIn_readModule (text : String) :
    EndsIn (fun types => ∀ type ∈ types, type.KeepsLines (SaysSomethingAt text))
      (fun error => SaysSomethingAt text error.line) (readModule text) := by
  refine (endsIn_lexText text).bind fun lines toldOf => ?_
  cases someLine : lines.getLast? with
  | none =>
      rw [List.getLast?_eq_none_iff] at someLine
      subst someLine
      exact List.forall_mem_nil _
  | some last =>
      exact (ModuleReader.tells_typesWithin (toldOf last (List.mem_of_getLast? someLine))
        lines.length []).run' toldOf

end NullWeave
