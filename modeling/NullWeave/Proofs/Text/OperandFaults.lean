import NullWeave.Proofs.Outcomes
import NullWeave.Text.Operand

/-!
# Faults of operands

What goes wrong while operands are taken and looked up is a fault of the text:
a word that may not stand there, or a name that nothing has.  It is never one of
the faults that tell of a disagreement between the passes over a body.
Moreover, a reader of names takes the names that it shows and skips none.
-/

namespace NullWeave

/-- Does a fault say that what was done in several passes does not fit together? -/
def TextFault.isInternal : TextFault → Bool
  | .instructionCountChanged | .code _ => true
  | _ => false

/-- The name that a lexeme is, if it is one. -/
def Lexeme.name? : Lexeme → Option String
  | .name text => some text
  | _ => none

/-- The names among lexemes. -/
def namesAmong (lexemes : List Lexeme) : List String := lexemes.filterMap Lexeme.name?

namespace LineReader

/-! ## Readers of lists -/

section Lists

variable {α : Type} {item : LineReader α}

/-- Does something hold of lexemes when it holds of them behind a mark? -/
def SkipsMarks (holds : List Lexeme → Prop) : Prop :=
  ∀ mark rest, holds (.mark mark :: rest) → holds rest

theorem readerEnds_optionalMark {holds : List Lexeme → Prop} (skips : SkipsMarks holds)
    (mark : Char) :
    ReaderEnds holds (fun _ => holds) (·.isInternal = false) (optionalMark mark) := by
  refine readerEnds_get_bind_same fun lexemes here => ?_
  split
  · split
    · exact readerEnds_set_bind (skips _ _ here) (readerEnds_pure fun _ known => known)
    · exact readerEnds_pure fun left same => same ▸ here
  · exact readerEnds_pure fun left same => same ▸ here

theorem readerEnds_requireMark {holds : List Lexeme → Prop} (skips : SkipsMarks holds)
    (mark : Char) :
    ReaderEnds holds (fun _ => holds) (·.isInternal = false) (requireMark mark) := by
  rintro (_ | ⟨lexeme, rest⟩) here
  · exact rfl
  · change EndsIn _ _ ((if lexeme = .mark mark then pure () else throw _ : LineReader Unit).run rest)
    split
    · rename_i isMark
      subst isMark
      exact skips _ _ here
    · exact rfl

/-- If each item keeps a relation between what was taken and what is left, a list keeps it. -/
theorem readerEnds_itemsWithin {keeps : List α → List Lexeme → Prop}
    (skips : ∀ taken, SkipsMarks (keeps taken))
    (ends : ∀ taken, ReaderEnds (keeps taken) (fun value => keeps (taken ++ [value]))
      (·.isInternal = false) item)
    (close : Char) (fuel : Nat) (taken : List α) :
    ReaderEnds (keeps taken) (fun values => keeps (taken ++ values)) (·.isInternal = false)
      (itemsWithin item close fuel) := by
  induction fuel generalizing taken with
  | zero =>
      exact readerEnds_throw rfl
  | succ fuel inductionHypothesis =>
      rw [itemsWithin]
      refine (ends taken).bind fun first => ?_
      refine (readerEnds_optionalMark (skips _) close).bind fun closed => ?_
      split
      · exact readerEnds_pure fun _ here => here
      · refine (readerEnds_requireMark (skips _) ',').bind fun _ => ?_
        refine (inductionHypothesis (taken ++ [first])).bind fun others => ?_
        refine readerEnds_pure fun left here => ?_
        rw [List.append_assoc] at here
        exact here

theorem readerEnds_parenthesized {keeps : List α → List Lexeme → Prop}
    (skips : ∀ taken, SkipsMarks (keeps taken))
    (ends : ∀ taken, ReaderEnds (keeps taken) (fun value => keeps (taken ++ [value]))
      (·.isInternal = false) item) :
    ReaderEnds (keeps []) keeps (·.isInternal = false) (parenthesized item) := by
  refine (readerEnds_requireMark (skips []) '(').bind fun _ => ?_
  refine (readerEnds_optionalMark (skips []) ')').bind fun closed => ?_
  split
  · exact readerEnds_pure fun left here => here
  · exact readerEnds_get_bind fun lexemes => readerEnds_itemsWithin skips ends ')' _ []

end Lists

/-! ## Readers of names -/

/-- Names that were taken, with the names among the lexemes that are left, are all there were. -/
def NamesAre (wanted taken : List String) (left : List Lexeme) : Prop :=
  taken ++ namesAmong left = wanted

theorem skipsMarks_namesAre (wanted taken : List String) : SkipsMarks (NamesAre wanted taken) :=
  fun _ _ here => here

theorem readerEnds_requireName (wanted taken : List String) :
    ReaderEnds (NamesAre wanted taken) (fun name => NamesAre wanted (taken ++ [name]))
      (·.isInternal = false) requireName := by
  rintro (_ | ⟨_ | _ | _ | _ | _, rest⟩) here
  case cons.name =>
    exact (List.append_assoc _ _ _).trans here
  all_goals exact rfl

/-! ## Readers that blame the text -/

/-- Does a reader fail only with a fault of the text? -/
abbrev BlamesText {α : Type} (reader : LineReader α) : Prop :=
  ReaderEnds (fun _ => True) (fun _ _ => True) (·.isInternal = false) reader

section BlamesText

variable {α β : Type}

theorem blamesText_pure (value : α) : BlamesText (pure value : LineReader α) :=
  readerEnds_pure fun _ _ => trivial

theorem blamesText_throw {fault : TextFault} (ofText : fault.isInternal = false) :
    BlamesText (throw fault : LineReader α) :=
  readerEnds_throw ofText

theorem blamesText_lift {attempt : Except TextFault α}
    (ends : EndsIn (fun _ => True) (·.isInternal = false) attempt) :
    BlamesText (liftM attempt) :=
  readerEnds_lift ends fun _ _ _ _ => trivial

theorem BlamesText.map {reader : LineReader α} (blames : BlamesText reader) (make : α → β) :
    BlamesText (make <$> reader) :=
  ReaderEnds.map (blames.mono (fun _ here => here) fun _ _ _ => trivial)

theorem blamesText_next? : BlamesText next? := by
  rintro (_ | ⟨lexeme, rest⟩) _ <;> exact trivial

theorem blamesText_optionalMark (mark : Char) : BlamesText (optionalMark mark) :=
  readerEnds_optionalMark (fun _ _ _ => trivial) mark

theorem blamesText_requireMark (mark : Char) : BlamesText (requireMark mark) :=
  readerEnds_requireMark (fun _ _ _ => trivial) mark

theorem blamesText_requireName : BlamesText requireName := by
  refine blamesText_next?.bind fun found => ?_
  split
  · exact blamesText_pure _
  · exact blamesText_throw rfl
  · exact blamesText_throw rfl

theorem blamesText_requireString : BlamesText requireString := by
  refine blamesText_next?.bind fun found => ?_
  split
  · exact blamesText_pure _
  · exact blamesText_throw rfl

theorem blamesText_requireInteger : BlamesText requireInteger := by
  refine blamesText_next?.bind fun found => ?_
  split
  · exact blamesText_pure _
  · exact blamesText_throw rfl

theorem blamesText_parenthesized {item : LineReader α} (blames : BlamesText item) :
    BlamesText (parenthesized item) :=
  readerEnds_parenthesized (fun _ _ _ _ => trivial) fun _ => blames

end BlamesText

/-! ## Readers of types -/

theorem blamesText_optionalStruct : BlamesText optionalStruct := by
  refine readerEnds_get_bind fun lexemes => ?_
  split
  · exact readerEnds_set_bind trivial (blamesText_pure _)
  · exact blamesText_pure _

theorem blamesText_typeAfterName {arguments : LineReader (List TypeExpr)}
    (blames : BlamesText arguments) (name : String) :
    BlamesText (typeAfterName arguments name) := by
  unfold typeAfterName
  split
  · exact blamesText_pure _
  split
  · exact blamesText_optionalStruct.map _
  · refine (blamesText_optionalMark '<').bind fun isGeneric => ?_
    split
    · refine blames.bind fun types => ?_
      exact (blamesText_requireMark '>').bind fun _ => blamesText_pure _
    · exact blamesText_pure _

/-- Neither one type nor several are refused for anything but what is written. -/
theorem blamesText_typeWithin (fuel : Nat) :
    BlamesText (typeWithin fuel) ∧ BlamesText (typesWithin fuel) := by
  induction fuel with
  | zero =>
      exact ⟨blamesText_throw rfl, blamesText_throw rfl⟩
  | succ fuel inductionHypothesis =>
      obtain ⟨one, several⟩ := inductionHypothesis
      constructor
      · rw [typeWithin]
        refine blamesText_requireName.bind fun name => ?_
        refine (blamesText_typeAfterName several name).bind fun core => ?_
        exact readerEnds_get_bind fun lexemes => readerEnds_set_bind trivial (blamesText_pure _)
      · rw [typesWithin]
        refine one.bind fun first => ?_
        refine (blamesText_optionalMark ',').bind fun more => ?_
        split
        · exact several.bind fun others => blamesText_pure _
        · exact blamesText_pure _

theorem blamesText_type : BlamesText type :=
  readerEnds_get_bind fun _ => (blamesText_typeWithin _).1

end LineReader

/-! ## Names that are looked up -/

/-- Does an attempt fail only with a fault of the text? -/
abbrev FailsByText {α : Type} (attempt : Except TextFault α) : Prop :=
  EndsIn (fun _ => True) (·.isInternal = false) attempt

namespace Graph

variable (graph : Graph) (scope : TypeId)

theorem failsByText_typeInScope (name : String) : FailsByText (graph.typeInScope scope name) := by
  unfold typeInScope
  split
  · exact trivial
  split
  · exact trivial
  · exact rfl

mutual

theorem failsByText_resolve (text : TypeExpr) : FailsByText (graph.resolve scope text) := by
  cases text with
  | void =>
      exact trivial
  | named name =>
      exact (graph.failsByText_typeInScope scope name).bind fun _ _ => trivial
  | param name isValueType =>
      exact trivial
  | byRef element =>
      exact (failsByText_resolve element).bind fun _ _ => trivial
  | array element =>
      exact (failsByText_resolve element).bind fun _ _ => trivial
  | generic name arguments =>
      rw [resolve]
      refine (graph.failsByText_typeInScope scope name).bind fun type _ => ?_
      dsimp only
      split
      · exact rfl
      · exact (failsByText_signaturesOf arguments).bind fun _ _ => trivial

theorem failsByText_signaturesOf (texts : List TypeExpr) :
    FailsByText (graph.signaturesOf scope texts) := by
  cases texts with
  | nil =>
      exact trivial
  | cons text rest =>
      refine (failsByText_resolve text).bind fun first _ => ?_
      exact (failsByText_signaturesOf rest).bind fun _ _ => trivial

end

theorem failsByText_definitionOf (text : TypeExpr) :
    FailsByText (graph.definitionOf scope text) := by
  refine (graph.failsByText_resolve scope text).bind fun signature _ => ?_
  split
  · exact trivial
  · exact rfl

end Graph

namespace BodyScope

variable (scope : BodyScope)

theorem failsByText_argumentSlot (operand : Option Lexeme) :
    FailsByText (scope.argumentSlot operand) := by
  unfold argumentSlot
  split
  · split <;> trivial
  · split
    · split <;> trivial
    · split <;> trivial
  · trivial

theorem failsByText_localSlot (operand : Option Lexeme) :
    FailsByText (scope.localSlot operand) := by
  unfold localSlot
  split
  · split <;> trivial
  · split <;> trivial
  · trivial

theorem failsByText_fieldOn (owner : TypeId) (name : String) :
    FailsByText (scope.fieldOn owner name) := by
  unfold fieldOn
  split <;> trivial

theorem failsByText_chooseMethod (type : TypeId) (name : String) (parameters : List TypeExpr)
    (candidates : List MethodId) :
    FailsByText (scope.chooseMethod type name parameters candidates) := by
  unfold chooseMethod
  split
  · trivial
  · refine (scope.graph.failsByText_signaturesOf _ parameters).bind fun signatures _ => ?_
    dsimp only
    split <;> trivial

theorem failsByText_methodOn (owner : TypeId) (name : String) (parameters : List TypeExpr) :
    FailsByText (scope.methodOn owner name parameters) := by
  unfold methodOn
  dsimp only
  split
  · exact scope.failsByText_chooseMethod ..
  · trivial

/-! ## Operands without labels -/

open LineReader

theorem blamesText_argumentOperand : BlamesText scope.argumentOperand :=
  blamesText_next?.bind fun _ => blamesText_lift (scope.failsByText_argumentSlot _)

theorem blamesText_localOperand : BlamesText scope.localOperand :=
  blamesText_next?.bind fun _ => blamesText_lift (scope.failsByText_localSlot _)

theorem blamesText_typeOperand : BlamesText scope.typeOperand :=
  blamesText_type.bind fun _ => blamesText_lift (scope.graph.failsByText_resolve _ _)

theorem blamesText_ownerOperand : BlamesText scope.ownerOperand := by
  refine blamesText_type.bind fun owner => ?_
  refine blamesText_next?.bind fun found => ?_
  split
  · exact blamesText_lift (scope.graph.failsByText_definitionOf _ _)
  · exact blamesText_throw rfl

theorem blamesText_fieldOperand : BlamesText scope.fieldOperand := by
  have finish (owner : TypeId) :
      BlamesText (do
        let name ← requireName
        scope.fieldOn owner name) :=
    blamesText_requireName.bind fun _ => blamesText_lift (scope.failsByText_fieldOn _ _)
  refine readerEnds_get_bind fun lexemes => ?_
  dsimp only
  split
  · exact finish _
  · exact scope.blamesText_ownerOperand.bind finish

theorem blamesText_methodOperand : BlamesText scope.methodOperand := by
  refine scope.blamesText_ownerOperand.bind fun owner => ?_
  refine blamesText_requireName.bind fun name => ?_
  refine (blamesText_parenthesized blamesText_type).bind fun parameters => ?_
  exact blamesText_lift (scope.failsByText_methodOn ..)

theorem blamesText_constantOperand : BlamesText constantOperand := by
  refine blamesText_requireInteger.bind fun value => ?_
  split
  · exact blamesText_pure _
  · exact blamesText_throw rfl

/-- Does a reader take an operation that jumps nowhere, or fail with a fault of the text? -/
abbrev JumpsNowhere (reader : LineReader Operation) : Prop :=
  ReaderEnds (fun _ => True) (fun operation _ => operation.targets = []) (·.isInternal = false)
    reader

theorem jumpsNowhere_map {α : Type} {reader : LineReader α} (blames : BlamesText reader)
    {make : α → Operation} (still : ∀ value, (make value).targets = []) :
    JumpsNowhere (make <$> reader) :=
  ReaderEnds.map (blames.mono (fun _ here => here) fun value _ _ => still value)

/-- Only a branch and a switch jump, and no branch is read here. -/
theorem jumpsNowhere_plainOperation {mnemonic : String} (other : mnemonic ≠ "switch") :
    JumpsNowhere (scope.plainOperation mnemonic) := by
  unfold plainOperation
  -- The cases are the mnemonics in the order of the definition, with the unknown ones last.
  split
  case h_3 => exact jumpsNowhere_map blamesText_requireString fun _ => rfl
  case h_4 | h_5 => exact jumpsNowhere_map blamesText_constantOperand fun _ => rfl
  case h_8 | h_9 | h_10 | h_11 | h_12 | h_13 =>
    exact jumpsNowhere_map scope.blamesText_argumentOperand fun _ => rfl
  case h_14 | h_15 | h_16 | h_17 | h_18 | h_19 =>
    exact jumpsNowhere_map scope.blamesText_localOperand fun _ => rfl
  case h_27 | h_28 => exact jumpsNowhere_map scope.blamesText_typeOperand fun _ => rfl
  case h_29 | h_30 | h_31 | h_32 | h_33 | h_34 =>
    exact jumpsNowhere_map scope.blamesText_fieldOperand fun _ => rfl
  case h_35 | h_36 | h_37 =>
    exact jumpsNowhere_map scope.blamesText_methodOperand fun _ => rfl
  case h_38 => exact absurd rfl other
  case h_43 => exact readerEnds_throw rfl
  all_goals exact readerEnds_pure fun _ _ => rfl

theorem targets_of_compactMnemonic? {mnemonic : String} {operation : Operation}
    (compact : compactMnemonic? mnemonic = some operation) : operation.targets = [] := by
  unfold compactMnemonic? at compact
  simp only [Option.bind_eq_bind, Option.bind_eq_some_iff] at compact
  obtain ⟨⟨lead, digits⟩, -, number, -, chosen⟩ := compact
  split at chosen <;> (try split at chosen) <;> cases chosen <;> rfl

end BodyScope

end NullWeave
