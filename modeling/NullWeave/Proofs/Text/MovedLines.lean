import NullWeave.Proofs.Sequence
import NullWeave.Proofs.Text.LineNumbers
import NullWeave.Text.Reading.Module

/-!
# Lines that were moved

What is read of the lines of a declaration is the same wherever they stand, but
for the lines that the declaration keeps.  What follows them does not matter, nor
does a document that was named before, as long as they name their own.
-/

namespace NullWeave

/-! ## Readers that repeat what others read -/

/--
Does a reader, started in a related state, read something related wherever
another one reads something?
-/
def Repeats {σ ε α β : Type} (before after : σ → σ → Prop) (same : α → β → Prop)
    (reader : StateT σ (Except ε) α) (other : StateT σ (Except ε) β) : Prop :=
  ∀ start startToo, before start startToo → ∀ value left,
    reader.run start = .ok (value, left) →
      ∃ valueToo leftToo, other.run startToo = .ok (valueToo, leftToo) ∧
        same value valueToo ∧ after left leftToo

section Readers

variable {σ ε α β γ δ : Type} {before between after : σ → σ → Prop}
variable {same : α → β → Prop} {sameToo : γ → δ → Prop}

theorem repeats_pure {value : α} {valueToo : β} (here : same value valueToo) :
    Repeats before before same (pure value : StateT σ (Except ε) α) (pure valueToo) := by
  rintro start startToo related _ _ ⟨⟩
  exact ⟨valueToo, startToo, rfl, here, related⟩

theorem repeats_throw (fault : ε) (other : StateT σ (Except ε) β) :
    Repeats before after same (throw fault : StateT σ (Except ε) α) other := by
  rintro start startToo related _ _ ⟨⟩

theorem Repeats.bind {reader : StateT σ (Except ε) α} {other : StateT σ (Except ε) β}
    {next : α → StateT σ (Except ε) γ} {nextToo : β → StateT σ (Except ε) δ}
    (repeats : Repeats before between same reader other)
    (repeatsNext : ∀ value valueToo, same value valueToo →
      Repeats between after sameToo (next value) (nextToo valueToo)) :
    Repeats before after sameToo (reader >>= next) (other >>= nextToo) := by
  intro start startToo related result left ran
  obtain ⟨value, middle, first, later⟩ := runs_bind_iff.mp ran
  obtain ⟨valueToo, middleToo, firstToo, here, there⟩ := repeats _ _ related _ _ first
  obtain ⟨resultToo, leftToo, laterToo, last⟩ :=
    repeatsNext value valueToo here _ _ there _ _ later
  exact ⟨resultToo, leftToo, runs_bind_iff.mpr ⟨valueToo, middleToo, firstToo, laterToo⟩, last⟩

theorem repeats_self (reader : StateT σ (Except ε) α) : Repeats Eq Eq Eq reader reader := by
  rintro start _ rfl value left ran
  exact ⟨value, left, ran, rfl, rfl⟩

/-- What is done with what is there. -/
theorem repeats_get_bind {next : σ → StateT σ (Except ε) α} {nextToo : σ → StateT σ (Except ε) β}
    (repeats : ∀ start startToo, before start startToo → ∀ value left,
      (next start).run start = .ok (value, left) →
        ∃ valueToo leftToo, (nextToo startToo).run startToo = .ok (valueToo, leftToo) ∧
          same value valueToo ∧ after left leftToo) :
    Repeats before after same (get >>= next) (get >>= nextToo) :=
  repeats

/-- Readers that read the same when it is shown somehow. -/
theorem repeats_of_map_eq {reader other : StateT σ (Except ε) α} {shown : α → γ}
    (equal : shown <$> reader = shown <$> other) :
    Repeats Eq Eq (fun value valueToo => shown value = shown valueToo) reader other := by
  rintro start _ rfl value left ran
  have run := congrArg (StateT.run · start) equal
  simp only [StateT.run_map, ran] at run
  obtain ⟨⟨valueToo, leftToo⟩, there, pair⟩ := map_eq_ok_iff.mp run.symm
  obtain ⟨equalToo, rfl⟩ := Prod.mk.inj pair
  exact ⟨valueToo, leftToo, there, equalToo.symm, rfl⟩

end Readers

/-! ## Lines -/

/-- What a line of a body says as it would be said in no line. -/
def LineReader.BodyLine.unnumbered : LineReader.BodyLine → LineReader.BodyLine
  | .handler text => .handler text.unnumbered
  | .items parts => .items (parts.map BodyItem.unnumbered)
  | other => other

namespace LineReader

/-- Do two readers read the same, but for the lines that it was read in? -/
abbrev Agree {α β : Type} (shown : α → β) (reader other : LineReader α) : Prop :=
  Repeats Eq Eq (fun value valueToo => shown value = shown valueToo) reader other

variable (line other : Nat)

theorem agree_typeHeader (marks : List Attribute) (kind : TypeKind) :
    Agree TypeHeader.unnumbered (typeHeader line marks kind) (typeHeader other marks kind) := by
  refine repeats_of_map_eq ?_
  simp only [typeHeader, map_bind, map_pure, apply_ite, TypeHeader.unnumbered]

theorem agree_field : Agree FieldText.unnumbered (field line) (field other) := by
  refine repeats_of_map_eq ?_
  simp only [field, map_bind, map_pure, FieldText.unnumbered]

theorem agree_methodHeader (marks : List Attribute) :
    Agree MethodText.unnumbered (methodHeader line marks) (methodHeader other marks) := by
  refine repeats_of_map_eq ?_
  simp only [methodHeader, map_bind, map_pure, MethodText.unnumbered]

theorem agree_handler : Agree HandlerText.unnumbered (handler line) (handler other) := by
  refine repeats_of_map_eq ?_
  simp only [handler, map_bind, map_pure, apply_ite, HandlerText.unnumbered]

theorem agree_instruction : Agree BodyItem.unnumbered (instruction line) (instruction other) := by
  refine repeats_of_map_eq ?_
  simp only [instruction, map_bind, map_pure, BodyItem.unnumbered]

theorem agree_code : Agree BodyLine.unnumbered (code line) (code other) := by
  refine (repeats_self label?).bind ?_
  rintro label _ rfl
  cases label with
  | none =>
      exact (agree_instruction line other).bind fun item itemToo same =>
        repeats_pure (congrArg (fun part => BodyLine.items [part]) same)
  | some name =>
      refine (repeats_self remaining).bind ?_
      rintro lexemes _ rfl
      split
      · exact repeats_pure rfl
      · exact (agree_instruction line other).bind fun item itemToo same =>
          repeats_pure (congrArg (fun part => BodyLine.items [.label 0 name, part]) same)

/-- A document that is named where none was changes nothing but what could not be read. -/
theorem agree_bodyLine {document documentToo : Option String}
    (keeps : ∀ name ∈ document, documentToo = some name) :
    Agree BodyLine.unnumbered (bodyLine line document) (bodyLine other documentToo) := by
  refine repeats_get_bind ?_
  rintro lexemes _ rfl
  split
  · exact repeats_of_map_eq rfl _ _ rfl
  · exact repeats_of_map_eq rfl _ _ rfl
  · cases document with
    | none =>
        rintro _ _ ⟨⟩
    | some name =>
        rw [keeps name rfl]
        refine repeats_of_map_eq ?_ _ _ rfl
        simp only [map_bind, map_pure, BodyLine.unnumbered, List.map_cons, BodyItem.unnumbered]
  · have sameSet : ∀ rest : List Lexeme, Repeats Eq Eq Eq (set rest : LineReader PUnit) (set rest) :=
      fun rest => repeats_self _
    refine ((sameSet _).bind fun _ _ _ => ?_) _ _ rfl
    exact (agree_handler line other).bind fun text textToo same =>
      repeats_pure (congrArg BodyLine.handler same)
  · exact agree_code line other _ _ rfl
  · rintro _ _ ⟨⟩

end LineReader

/-! ## Declarations that grow line by line -/

theorem BodyText.unnumbered_add (body : BodyText) (said : LineReader.BodyLine) :
    (body.add said).unnumbered = body.unnumbered.add said.unnumbered := by
  cases said with
  | document _ | locals _ _ =>
      rfl
  | handler text =>
      simp only [add, unnumbered, LineReader.BodyLine.unnumbered, List.map_append, List.map_cons,
        List.map_nil]
  | items items =>
      simp only [add, unnumbered, LineReader.BodyLine.unnumbered, List.map_append]

namespace TypeText

theorem unnumbered_ofHeader_congr {header other : TypeHeader}
    (same : header.unnumbered = other.unnumbered) :
    (ofHeader header).unnumbered = (ofHeader other).unnumbered :=
  congrArg (mk · [] [] []) same

theorem unnumbered_addField (type : TypeText) (field : FieldText) :
    (type.addField field).unnumbered = type.unnumbered.addField field.unnumbered := by
  obtain ⟨header, fields, methods, nested⟩ := type
  exact congrArg (mk _ · _ _) List.map_append

theorem unnumbered_addMethod (type : TypeText) (method : MethodText) :
    (type.addMethod method).unnumbered = type.unnumbered.addMethod method.unnumbered := by
  obtain ⟨header, fields, methods, nested⟩ := type
  exact congrArg (mk _ _ · _) List.map_append

theorem unnumbered_addNested (type inner : TypeText) :
    (type.addNested inner).unnumbered = type.unnumbered.addNested inner.unnumbered := by
  obtain ⟨header, fields, methods, nested⟩ := type
  have all : allUnnumbered (nested ++ [inner]) = allUnnumbered nested ++ [inner.unnumbered] := by
    rw [allUnnumbered_eq_map, allUnnumbered_eq_map, List.map_append, List.map_singleton]
  exact congrArg (mk _ _ _) all

end TypeText

/-! ## Lines of modules -/

/--
Do lines stand at the front of what is left of a module, before some more, with
enough steps for both?
-/
structure ModuleText.StandsIn (more : List (List Lexeme)) (fuel fuelToo : Nat)
    (text module : ModuleText) : Prop where
  lines : module.lines.map (·.lexemes) = text.lines.map (·.lexemes) ++ more
  document : ∀ name ∈ text.document, module.document = some name
  enough : text.lines.length ≤ fuel
  enoughToo : module.lines.length ≤ fuelToo

namespace ModuleText.StandsIn

variable {more : List (List Lexeme)} {fuel fuelToo : Nat} {text module : ModuleText}

/-- The next line has the same lexemes wherever it stands. -/
theorem next {line : Nat} {lexemes : List Lexeme} {rest : List NumberedLine}
    {document : Option String}
    (stands : StandsIn more (fuel + 1) fuelToo ⟨⟨line, lexemes⟩ :: rest, document⟩ module) :
    ∃ steps lineToo restToo documentToo, fuelToo = steps + 1 ∧
      module = ⟨⟨lineToo, lexemes⟩ :: restToo, documentToo⟩ ∧
        StandsIn more fuel steps ⟨rest, document⟩ ⟨restToo, documentToo⟩ := by
  obtain ⟨_ | ⟨⟨lineToo, lexemesToo⟩, restToo⟩, documentToo⟩ := module
  · cases stands.lines
  · obtain ⟨rfl, lines⟩ := List.cons.inj stands.lines
    obtain ⟨steps, rfl⟩ := Nat.exists_eq_add_of_le' (Nat.le_of_add_left_le stands.enoughToo)
    exact ⟨steps, lineToo, restToo, documentToo, rfl, rfl,
      { lines
        document := stands.document
        enough := Nat.le_of_succ_le_succ stands.enough
        enoughToo := Nat.le_of_succ_le_succ stands.enoughToo }⟩

theorem succ (stands : StandsIn more fuel fuelToo text module) :
    StandsIn more (fuel + 1) (fuelToo + 1) text module :=
  { stands with
    enough := Nat.le_succ_of_le stands.enough
    enoughToo := Nat.le_succ_of_le stands.enoughToo }

end ModuleText.StandsIn

namespace ModuleReader

open ModuleText

variable {α β γ : Type} {more : List (List Lexeme)} {fuel fuelToo : Nat}
variable {before after : ModuleText → ModuleText → Prop} {same : α → β → Prop}

theorem fail_ne_ok {line : Nat} {fault : TextFault} {text : ModuleText}
    {result : α × ModuleText} : (fail line fault : ModuleReader α).run text ≠ .ok result := by
  rintro ⟨⟩

theorem repeats_onLine {shown : α → γ} {reader other : LineReader α}
    (agree : LineReader.Agree shown reader other) (line lineToo : Nat) (lexemes : List Lexeme) :
    Repeats before before (fun value valueToo => shown value = shown valueToo)
      (onLine line lexemes reader) (onLine lineToo lexemes other) := by
  unfold onLine
  cases ran : reader.run lexemes with
  | error fault =>
      exact repeats_throw _ _
  | ok result =>
      obtain ⟨valueToo, leftToo, ranToo, same, -⟩ := agree _ _ rfl _ _ ran
      rw [ranToo]
      exact repeats_pure same

theorem repeats_setDocument (name : String) :
    Repeats (StandsIn more fuel fuelToo) (StandsIn more fuel fuelToo) Eq
      (modify fun text : ModuleText => { text with document := some name } : ModuleReader PUnit)
      (modify fun text : ModuleText => { text with document := some name }) := by
  rintro text module stands _ _ ⟨⟩
  refine ⟨_, _, rfl, rfl, { stands with document := ?_ }⟩
  rintro _ ⟨⟩
  rfl

/-- What is done at the end of a text, and in a line that stands elsewhere as well. -/
theorem repeats_nextLine?_bind {afterLine : ModuleText → ModuleText → Prop}
    {next : Option NumberedLine → ModuleReader α} {nextToo : Option NumberedLine → ModuleReader β}
    (widens : ∀ left leftToo, afterLine left leftToo → after left leftToo)
    (ends : ∀ text module, text.lines = [] → text.StandsIn more (fuel + 1) (fuelToo + 1) module →
      ∀ value left, (next none).run text = .ok (value, left) →
        ∃ valueToo leftToo, (nextLine? >>= nextToo).run module = .ok (valueToo, leftToo) ∧
          same value valueToo ∧ after left leftToo)
    (repeats : ∀ line lineToo lexemes, Repeats (StandsIn more fuel fuelToo) afterLine same
      (next (some ⟨line, lexemes⟩)) (nextToo (some ⟨lineToo, lexemes⟩))) :
    Repeats (StandsIn more (fuel + 1) (fuelToo + 1)) after same (nextLine? >>= next)
      (nextLine? >>= nextToo) := by
  rintro ⟨_ | ⟨⟨line, lexemes⟩, rest⟩, document⟩ module stands value left ran
  · exact ends _ _ rfl stands value left ran
  · obtain ⟨steps, lineToo, restToo, documentToo, one, rfl, behind⟩ := stands.next
    obtain rfl := Nat.succ.inj one
    obtain ⟨valueToo, leftToo, ranToo, here, there⟩ :=
      repeats line lineToo lexemes _ _ behind value left ran
    exact ⟨valueToo, leftToo, ranToo, here, widens _ _ there⟩

/-- A reader that needs a line reads nothing where there are no steps for the other one. -/
theorem repeats_nextLine?_of_zero {next : Option NumberedLine → ModuleReader α}
    (other : ModuleReader β) (fails : ∀ text result, (next none).run text ≠ .ok result) :
    Repeats (StandsIn more (fuel + 1) 0) after same (nextLine? >>= next) other := by
  rintro ⟨_ | ⟨line, rest⟩, document⟩ module stands value left ran
  · exact absurd ran (fails _ _)
  · obtain ⟨steps, _, _, _, noStep, -⟩ := stands.next
    cases noStep

theorem repeats_attributeLine (line lineToo : Nat) (lexemes : List Lexeme) :
    Repeats before before Eq (attributeLine ⟨line, lexemes⟩) (attributeLine ⟨lineToo, lexemes⟩) :=
  @repeats_onLine _ _ _ id _ _ (repeats_of_map_eq rfl) line lineToo lexemes

theorem repeats_done (line lineToo : Nat) (lexemes : List Lexeme) :
    Repeats before before Eq (onLine line lexemes LineReader.done)
      (onLine lineToo lexemes LineReader.done) :=
  @repeats_onLine _ _ _ id _ _ (repeats_of_map_eq rfl) line lineToo lexemes

theorem repeats_documentLine (line lineToo : Nat) (rest : List Lexeme) :
    Repeats (StandsIn more fuel fuelToo) (StandsIn more fuel fuelToo) Eq
      (documentLine line rest) (documentLine lineToo rest) := by
  refine (@repeats_onLine _ _ _ id _ _ (repeats_of_map_eq rfl) line lineToo rest).bind ?_
  rintro name _ rfl
  exact repeats_setDocument name

/-- What a line of a body says is added to the same, wherever the line stands. -/
theorem repeats_methodWithin {method methodToo : MethodText} {body bodyToo : BodyText}
    (same : method.unnumbered = methodToo.unnumbered)
    (sameBody : body.unnumbered = bodyToo.unnumbered) :
    Repeats (StandsIn more fuel fuelToo) (StandsIn more fuel fuelToo)
      (fun value valueToo => value.unnumbered = valueToo.unnumbered)
      (methodWithin fuel method body) (methodWithin fuelToo methodToo bodyToo) := by
  have isAbstract : methodToo.access.isAbstract = method.access.isAbstract :=
    congrArg (·.access.isAbstract) same.symm
  induction fuel generalizing fuelToo body bodyToo with
  | zero =>
      exact repeats_throw _ _
  | succ fuel inductionHypothesis =>
      have isEmpty : bodyToo.items.isEmpty = body.items.isEmpty := by
        have items := congrArg (·.items.isEmpty) sameBody.symm
        simpa [BodyText.unnumbered] using items
      have whole : ({ method with body := some body } : MethodText).unnumbered =
          MethodText.unnumbered { methodToo with body := some bodyToo } := by
        change ({ method.unnumbered with body := some body.unnumbered } : MethodText) =
          { methodToo.unnumbered with body := some bodyToo.unnumbered }
        rw [same, sameBody]
      rw [methodWithin]
      cases fuelToo with
      | zero =>
          exact repeats_nextLine?_of_zero _ (fun _ _ => fail_ne_ok)
      | succ fuelToo =>
          rw [methodWithin]
          refine repeats_nextLine?_bind (fun _ _ => StandsIn.succ)
            (fun _ _ _ _ _ _ ran => absurd ran fail_ne_ok) fun line lineToo lexemes => ?_
          by_cases ends : ∃ rest, lexemes = .name ".end" :: rest
          · obtain ⟨rest, rfl⟩ := ends
            refine (repeats_done _ _ _).bind fun _ _ _ => ?_
            rw [isAbstract, isEmpty]
            split
            · exact repeats_pure whole
            · split
              · exact repeats_pure same
              · exact repeats_throw _ _
          · split
            · rename_i noLine
              cases noLine
            · rename_i found
              cases found
              exact absurd ⟨_, rfl⟩ ends
            rename_i found
            cases found
            split
            · rename_i noLine
              cases noLine
            · rename_i found
              cases found
              exact absurd ⟨_, rfl⟩ ends
            rename_i found
            cases found
            refine repeats_get_bind fun text module stands => ?_
            refine ((repeats_onLine (LineReader.agree_bodyLine line lineToo stands.document)
              line lineToo lexemes).bind fun said saidToo sameSaid => ?_) text module stands
            have later := @inductionHypothesis fuelToo (body.add said) (bodyToo.add saidToo)
              (by rw [BodyText.unnumbered_add, BodyText.unnumbered_add, sameBody, sameSaid])
            cases said with
            | document name =>
                cases saidToo with
                | document nameToo =>
                    cases sameSaid
                    exact (repeats_setDocument name).bind fun _ _ _ => later
                | locals _ _ | handler _ | items _ =>
                    cases sameSaid
            | locals _ _ | handler _ | items _ =>
                cases saidToo with
                | document _ =>
                    cases sameSaid
                | locals _ _ | handler _ | items _ =>
                    exact later

/-- The members of a type are read the same wherever its lines stand. -/
theorem repeats_typeWithin {pending : List Attribute} {type typeToo : TypeText}
    (same : type.unnumbered = typeToo.unnumbered) :
    Repeats (StandsIn more fuel fuelToo) (StandsIn more fuel fuelToo)
      (fun value valueToo => value.unnumbered = valueToo.unnumbered)
      (typeWithin fuel pending type) (typeWithin fuelToo pending typeToo) := by
  induction fuel generalizing fuelToo pending type typeToo with
  | zero =>
      exact repeats_throw _ _
  | succ fuel inductionHypothesis =>
      rw [typeWithin]
      cases fuelToo with
      | zero =>
          exact repeats_nextLine?_of_zero _ (fun _ _ => fail_ne_ok)
      | succ fuelToo =>
          rw [typeWithin]
          refine repeats_nextLine?_bind (fun _ _ => StandsIn.succ)
            (fun _ _ _ _ _ _ ran => absurd ran fail_ne_ok) fun line lineToo lexemes => ?_
          cases lexemes with
          | nil =>
              exact repeats_throw _ _
          | cons lexeme rest =>
              cases lexeme with
              | str _ | int _ | doubleColon =>
                  exact repeats_throw _ _
              | mark mark =>
                  by_cases opens : mark = '['
                  · subst opens
                    refine (repeats_attributeLine _ _ _).bind ?_
                    rintro marks _ rfl
                    exact inductionHypothesis same
                  · split
                    · rename_i noLine
                      cases noLine
                    · rename_i found
                      cases found
                      exact absurd rfl opens
                    · rename_i found
                      cases found
                    · exact repeats_throw _ _
              | name directive =>
                  dsimp only
                  split
                  · refine (repeats_done _ _ _).bind fun _ _ _ => ?_
                    split
                    · exact repeats_pure same
                    · exact repeats_throw _ _
                  · exact (repeats_documentLine _ _ _).bind fun _ _ _ => inductionHypothesis same
                  · split
                    · refine (repeats_onLine (LineReader.agree_field _ _) _ _ _).bind
                        fun field fieldToo sameField => inductionHypothesis ?_
                      rw [TypeText.unnumbered_addField, TypeText.unnumbered_addField, same,
                        sameField]
                    · exact repeats_throw _ _
                  · refine (repeats_onLine (LineReader.agree_methodHeader _ _ _) _ _ _).bind
                      fun method methodToo sameMethod => ?_
                    refine (repeats_methodWithin sameMethod rfl).bind
                      fun method methodToo sameMethod => inductionHypothesis ?_
                    rw [TypeText.unnumbered_addMethod, TypeText.unnumbered_addMethod, same,
                      sameMethod]
                  · refine (repeats_onLine (LineReader.agree_typeHeader _ _ _ _) _ _ _).bind
                      fun header headerToo sameHeader => ?_
                    have empty := TypeText.unnumbered_ofHeader_congr sameHeader
                    refine (inductionHypothesis empty).bind
                      fun inner innerToo sameInner => inductionHypothesis ?_
                    rw [TypeText.unnumbered_addNested, TypeText.unnumbered_addNested, same,
                      sameInner]
                  · exact repeats_throw _ _

/-- Are the types of some lines read as expected, whatever document was named before? -/
def ReadsLater (lastLine : Nat) (more : List (List Lexeme)) (expected : List TypeText) : Prop :=
  ∀ module fuel, module.lines.map (·.lexemes) = more → module.lines.length ≤ fuel →
    ∃ types left, (typesWithin lastLine fuel []).run module = .ok (types, left) ∧
      types.map TypeText.unnumbered = expected

/-- At the end of a text, the types of the lines behind it are read. -/
theorem ReadsLater.exists_typesWithin {lastLine lastToo : Nat} {pending : List Attribute}
    {expected : List TypeText} (later : ReadsLater lastToo more expected)
    {text module : ModuleText} (ended : text.lines = [])
    (stands : text.StandsIn more fuel fuelToo module) (value : List TypeText) (left : ModuleText)
    (ran : (if pending.isEmpty then pure [] else fail lastLine .danglingAttributes :
      ModuleReader (List TypeText)).run text = .ok (value, left)) :
    ∃ typesToo leftToo, (typesWithin lastToo fuelToo pending).run module =
      .ok (typesToo, leftToo) ∧ typesToo.map TypeText.unnumbered =
        value.map TypeText.unnumbered ++ expected ∧ True := by
  have lines := stands.lines
  rw [ended, List.map_nil, List.nil_append] at lines
  split at ran
  · rename_i nothing
    cases ran
    rw [List.isEmpty_iff.mp nothing]
    obtain ⟨types, leftToo, ranToo, same⟩ := later module fuelToo lines stands.enoughToo
    exact ⟨types, leftToo, ranToo, same, trivial⟩
  · cases ran

/-- The types of some lines are read, and then those of the lines behind them. -/
theorem repeats_typesWithin {lastLine lastToo : Nat} {pending : List Attribute}
    {expected : List TypeText} (later : ReadsLater lastToo more expected) :
    Repeats (StandsIn more fuel fuelToo) (fun _ _ => True)
      (fun types typesToo => typesToo.map TypeText.unnumbered =
        types.map TypeText.unnumbered ++ expected)
      (typesWithin lastLine fuel pending) (typesWithin lastToo fuelToo pending) := by
  induction fuel generalizing fuelToo pending with
  | zero =>
      intro text module stands
      exact later.exists_typesWithin
        (List.eq_nil_of_length_eq_zero (Nat.le_zero.mp stands.enough)) stands
  | succ fuel inductionHypothesis =>
      cases fuelToo with
      | zero =>
          rintro ⟨_ | ⟨line, rest⟩, document⟩ module stands value left ran
          · exact later.exists_typesWithin rfl stands value left ran
          · obtain ⟨steps, _, _, _, noStep, -⟩ := stands.next
            cases noStep
      | succ fuelToo =>
          have ends := fun text module ended stands =>
            @later.exists_typesWithin more (fuel + 1) (fuelToo + 1) lastLine lastToo pending
              expected text module ended stands
          rw [typesWithin]
          rw [typesWithin] at ends ⊢
          refine repeats_nextLine?_bind (fun _ _ => id) ends fun line lineToo lexemes => ?_
          cases lexemes with
          | nil =>
              exact repeats_throw _ _
          | cons lexeme rest =>
              cases lexeme with
              | str _ | int _ | doubleColon =>
                  exact repeats_throw _ _
              | mark mark =>
                  by_cases opens : mark = '['
                  · subst opens
                    refine (repeats_attributeLine _ _ _).bind ?_
                    rintro marks _ rfl
                    exact inductionHypothesis
                  · split
                    · rename_i noLine
                      cases noLine
                    · rename_i found
                      cases found
                      exact absurd rfl opens
                    · rename_i found
                      cases found
                    · exact repeats_throw _ _
              | name directive =>
                  dsimp only
                  split
                  · exact (repeats_documentLine _ _ _).bind fun _ _ _ => inductionHypothesis
                  · refine (repeats_onLine (LineReader.agree_typeHeader _ _ _ _) _ _ _).bind
                      fun header headerToo sameHeader => ?_
                    have empty := TypeText.unnumbered_ofHeader_congr sameHeader
                    refine (repeats_typeWithin empty).bind fun first firstToo sameFirst => ?_
                    refine inductionHypothesis.bind fun others othersToo sameOthers => ?_
                    refine repeats_pure ?_
                    rw [List.map_cons, List.map_cons, sameFirst, sameOthers, List.cons_append]
                  · exact repeats_throw _ _

end ModuleReader

end NullWeave
