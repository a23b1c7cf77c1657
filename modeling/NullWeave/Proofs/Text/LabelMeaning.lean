import NullWeave.Proofs.Text.LoadedBody
import NullWeave.Proofs.Text.OperandFaults
import NullWeave.Proofs.Text.Rereading

/-!
# What labels stand for

A label stands for the first instruction that is written after it, or, if none
is, for the end of the body.  An instruction has the number of those that are
written before it, so a label can be looked up before any instruction is read.
What branches, switches and handlers name is looked up in this way; only the end
of a handler may be the end of the body.
-/

namespace NullWeave

namespace BodyItem

/-! ## Labels among items -/

/-- The name of a label. -/
def labelName? : BodyItem → Option String
  | .label _ name => some name
  | _ => none

/-- What a label among items stands for: the first instruction after it, or the end. -/
inductive StandsFor (items : List BodyItem) (name : String) : Option InstrId → Prop where
  /-- An instruction has the number of those before it. -/
  | instruction {front between back : List BodyItem} {line itsLine : Nat} {mnemonic : String}
      {operands : List Lexeme} :
      items = front ++ .label line name ::
        (between ++ .instruction itsLine mnemonic operands :: back) →
      between.any isInstruction = false →
      StandsFor items name (some ⟨countInstructions front⟩)
  /-- No instruction follows. -/
  | finish {front behind : List BodyItem} {line : Nat} :
      items = front ++ .label line name :: behind →
      behind.any isInstruction = false →
      StandsFor items name none

variable {items : List BodyItem} {name : String}

theorem exists_of_isInstruction {item : BodyItem} (instruction : item.isInstruction = true) :
    ∃ line mnemonic operands, item = .instruction line mnemonic operands := by
  cases item with
  | label _ _ | point _ _ _ =>
      cases instruction
  | instruction line mnemonic operands =>
      exact ⟨line, mnemonic, operands, rfl⟩

/-- A label stands for what is written behind it. -/
theorem standsFor_of_split {front behind : List BodyItem} {line : Nat}
    (split : items = front ++ .label line name :: behind) :
    StandsFor items name
      (if behind.any isInstruction then some ⟨countInstructions front⟩ else none) := by
  split
  · rename_i follows
    obtain ⟨item, found⟩ := Option.isSome_iff_exists.mp
      (List.find?_isSome.mpr (List.any_eq_true.mp follows))
    obtain ⟨instruction, between, back, behindSplit, first⟩ :=
      List.find?_eq_some_iff_append.mp found
    obtain ⟨itsLine, mnemonic, operands, rfl⟩ := exists_of_isInstruction instruction
    refine .instruction (split.trans (by rw [behindSplit])) ?_
    rw [List.any_eq_false]
    intro other member
    simpa using first other member
  · rename_i last
    exact .finish split (Bool.eq_false_iff.mpr last)

/-- Where items are split at a label, the label is the first of them or behind it. -/
theorem exists_split_cons {item : BodyItem} {rest : List BodyItem}
    {holds : List BodyItem → List BodyItem → Prop} :
    (∃ front line behind, item :: rest = front ++ .label line name :: behind ∧
        holds front behind) ↔
      (∃ line, item = .label line name ∧ holds [] rest) ∨
        ∃ front line behind, rest = front ++ .label line name :: behind ∧
          holds (item :: front) behind := by
  constructor
  · rintro ⟨front, line, behind, split, known⟩
    cases front with
    | nil =>
        cases split
        exact .inl ⟨line, rfl, known⟩
    | cons first front =>
        cases split
        exact .inr ⟨front, line, behind, rfl, known⟩
  · rintro (⟨line, rfl, known⟩ | ⟨front, line, behind, rfl, known⟩)
    · exact ⟨[], line, rest, rfl, known⟩
    · exact ⟨item :: front, line, behind, rfl, known⟩

theorem mem_labelsFrom {id : InstrId} {target : Option InstrId} :
    (name, target) ∈ labelsFrom id items ↔
      ∃ front line behind, items = front ++ .label line name :: behind ∧
        target =
          if behind.any isInstruction then some ⟨id.number + countInstructions front⟩
          else none := by
  induction items generalizing id with
  | nil =>
      simp [labelsFrom]
  | cons item rest inductionHypothesis =>
      rw [exists_split_cons]
      cases item with
      | label line itsName =>
          rw [labelsFrom, List.mem_cons, inductionHypothesis]
          refine or_congr ?_ Iff.rfl
          rw [Prod.mk.injEq]
          constructor
          · rintro ⟨rfl, rfl⟩
            exact ⟨line, rfl, rfl⟩
          · rintro ⟨_, ⟨⟩, rfl⟩
            exact ⟨rfl, rfl⟩
      | point line document span =>
          rw [labelsFrom, inductionHypothesis]
          refine ⟨.inr, ?_⟩
          rintro (⟨_, ⟨⟩, _⟩ | behind)
          exact behind
      | instruction line mnemonic operands =>
          rw [labelsFrom, inductionHypothesis]
          simp only [countInstructions_instruction, InstrId.next, Nat.add_right_comm _ 1,
            Nat.add_assoc]
          refine ⟨.inr, ?_⟩
          rintro (⟨_, ⟨⟩, _⟩ | behind)
          exact behind

theorem standsFor_iff_mem {target : Option InstrId} :
    StandsFor items name target ↔ (name, target) ∈ labelsFrom .first items := by
  rw [mem_labelsFrom]
  simp only [InstrId.first, Nat.zero_add]
  constructor
  · rintro (⟨split, none⟩ | ⟨split, none⟩)
    · exact ⟨_, _, _, split, by simp [isInstruction]⟩
    · exact ⟨_, _, _, split, by rw [none]; rfl⟩
  · rintro ⟨front, line, behind, split, rfl⟩
    exact standsFor_of_split split

theorem map_fst_labelsFrom (id : InstrId) (items : List BodyItem) :
    (labelsFrom id items).map (·.1) = items.filterMap labelName? := by
  induction items generalizing id with
  | nil =>
      rfl
  | cons item rest inductionHypothesis =>
      cases item with
      | label line itsName =>
          exact congrArg (itsName :: ·) (inductionHypothesis id)
      | point line document span =>
          exact inductionHypothesis id
      | instruction line mnemonic operands =>
          exact inductionHypothesis id.next

theorem nodup_of_repeatedLabel?_eq_none {seen : List String}
    (fresh : repeatedLabel? seen items = none) :
    (items.filterMap labelName?).Nodup ∧ ∀ name ∈ items.filterMap labelName?, name ∉ seen := by
  induction items generalizing seen with
  | nil =>
      exact ⟨List.nodup_nil, List.forall_mem_nil _⟩
  | cons item rest inductionHypothesis =>
      cases item with
      | label line itsName =>
          rw [repeatedLabel?] at fresh
          split at fresh
          · contradiction
          · rename_i new
            obtain ⟨apart, unseen⟩ := inductionHypothesis fresh
            refine ⟨List.nodup_cons.mpr ⟨fun again => ?_, apart⟩, ?_⟩
            · exact unseen itsName again (List.mem_cons_self ..)
            · refine List.forall_mem_cons.mpr ⟨new, fun other member seenToo => ?_⟩
              exact unseen other member (List.mem_cons_of_mem _ seenToo)
      | point line document span =>
          exact inductionHypothesis fresh
      | instruction line mnemonic operands =>
          exact inductionHypothesis fresh

/-- Where no label comes twice, a label stands for one thing. -/
theorem StandsFor.unique {first second : Option InstrId}
    (fresh : repeatedLabel? [] items = none) (standsFor : StandsFor items name first)
    (standsForToo : StandsFor items name second) : first = second := by
  have apart := (nodup_of_repeatedLabel?_eq_none fresh).1
  rw [← map_fst_labelsFrom .first] at apart
  exact congrArg Prod.snd (List.inj_on_of_nodup_map apart (standsFor_iff_mem.mp standsFor)
    (standsFor_iff_mem.mp standsForToo) rfl)

/-- The instruction that a label stands for is one of those that are written. -/
theorem StandsFor.lt {target : InstrId} (standsFor : StandsFor items name (some target)) :
    target.number < countInstructions items := by
  cases standsFor with
  | @instruction front between back line itsLine mnemonic operands split first =>
      rw [split, countInstructions, countInstructions, List.countP_append]
      apply Nat.lt_add_of_pos_right
      refine List.countP_pos_iff.mpr ⟨.instruction itsLine mnemonic operands, ?_, rfl⟩
      simp

end BodyItem

/-! ## Labels that are used -/

/-- The labels that an instruction names: those of a branch or a switch. -/
def operandLabels (mnemonic : String) (operands : List Lexeme) : List String :=
  if (BodyScope.branchMnemonic? mnemonic).isSome ∨ mnemonic = "switch" then namesAmong operands
  else []

/-- The labels that an item names if it is an instruction. -/
def BodyItem.usedLabels? : BodyItem → Option (List String)
  | .instruction _ mnemonic operands => some (operandLabels mnemonic operands)
  | _ => none

/-- Does an operation jump to the instructions that labels stand for, in their order? -/
def Operation.JumpsTo (items : List BodyItem) (labels : List String) (operation : Operation) :
    Prop :=
  List.Forall₂ (fun name target => BodyItem.StandsFor items name (some target)) labels
    operation.targets

/-- Is a handler bounded by what the labels in its text stand for? -/
structure HandlerText.Bounds (items : List BodyItem) (text : HandlerText)
    (handler : ExceptionHandler) : Prop where
  tryStart : BodyItem.StandsFor items text.tryStart (some handler.tryStart)
  tryEnd : BodyItem.StandsFor items text.tryEnd (some handler.tryEnd)
  handlerStart : BodyItem.StandsFor items text.handlerStart (some handler.handlerStart)
  /-- Without a label at its end, a handler runs to the end of the body. -/
  noEnd : text.handlerEnd = none → handler.handlerEnd = none
  handlerEnd : ∀ name ∈ text.handlerEnd, BodyItem.StandsFor items name handler.handlerEnd

namespace BodyScope

open BodyItem LineReader

variable {scope : BodyScope} {items : List BodyItem}

theorem endsIn_labelTarget (labelled : scope.labels = labelsFrom .first items) (name : String) :
    EndsIn (StandsFor items name) (·.isInternal = false) (scope.labelTarget name) := by
  unfold labelTarget
  split
  · rename_i found target search
    have member := List.mem_of_find?_eq_some search
    obtain rfl : found = name := by simpa using List.find?_some search
    rw [labelled] at member
    exact standsFor_iff_mem.mpr member
  · exact rfl

theorem endsIn_label (labelled : scope.labels = labelsFrom .first items) (name : String) :
    EndsIn (fun target => StandsFor items name (some target)) (·.isInternal = false)
      (scope.label name) := by
  refine (endsIn_labelTarget labelled name).bind fun target standsFor => ?_
  cases target with
  | none =>
      exact rfl
  | some target =>
      exact standsFor

/-- A branch names the one label that it jumps to. -/
theorem readerEnds_labelOperand (labelled : scope.labels = labelsFrom .first items)
    (wanted : List String) :
    ReaderEnds (namesAmong · = wanted)
      (fun target left => ∃ name, StandsFor items name (some target) ∧ NamesAre wanted [name] left)
      (·.isInternal = false) scope.labelOperand := by
  refine (readerEnds_requireName wanted []).bind fun name => ?_
  exact readerEnds_lift (endsIn_label labelled name) fun target standsFor left known =>
    ⟨name, standsFor, known⟩

/-- A switch names the labels that it jumps to, in their order. -/
theorem readerEnds_labelOperands (labelled : scope.labels = labelsFrom .first items)
    (wanted : List String) :
    ReaderEnds (namesAmong · = wanted)
      (fun targets left => ∃ names,
        List.Forall₂ (fun name target => StandsFor items name (some target)) names targets ∧
          NamesAre wanted names left)
      (·.isInternal = false) scope.labelOperands := by
  refine (readerEnds_parenthesized (skipsMarks_namesAre wanted)
    (readerEnds_requireName wanted)).bind fun names => ?_
  refine (readerEnds_mapM fun name _ => ?_).mono (fun _ here => here)
    fun targets left known => ⟨names, known⟩
  exact readerEnds_lift (endsIn_label labelled name) fun target standsFor left known =>
    ⟨standsFor, known⟩

/-- The labels among the operands of an operation are those that it jumps to. -/
theorem readerEnds_operation (labelled : scope.labels = labelsFrom .first items)
    (mnemonic : String) (operands : List Lexeme) :
    ReaderEnds (· = operands)
      (fun operation left => left = [] →
        operation.JumpsTo items (operandLabels mnemonic operands))
      (·.isInternal = false) (scope.operation mnemonic) := by
  -- All names are among the operands when the reader starts.
  have start : ∀ lexemes, lexemes = operands → namesAmong lexemes = namesAmong operands :=
    fun lexemes same => congrArg namesAmong same
  -- When nothing is left, the names that were taken are all there are.
  have allTaken {names : List String} {left : List Lexeme}
      (known : NamesAre (namesAmong operands) names left) (nothing : left = []) :
      namesAmong operands = names := by
    subst nothing
    exact known.symm.trans (List.append_nil names)
  unfold operation
  split
  · rename_i kind form branch
    refine ReaderEnds.map ((readerEnds_labelOperand labelled _).mono start ?_)
    rintro target left ⟨name, standsFor, known⟩ nothing
    rw [operandLabels, branch, if_pos (.inl rfl), allTaken known nothing]
    exact .cons standsFor .nil
  · rename_i operation notBranch compact
    have notSwitch : mnemonic ≠ "switch" := by
      rintro rfl
      have none : (compactMnemonic? "switch").isNone = true := by decide
      rw [compact] at none
      contradiction
    refine readerEnds_pure fun left _ _ => ?_
    rw [operandLabels, notBranch, if_neg (by simp [notSwitch]), Operation.JumpsTo,
      targets_of_compactMnemonic? compact]
    exact .nil
  · rename_i notBranch _
    by_cases isSwitch : mnemonic = "switch"
    · subst isSwitch
      refine ReaderEnds.map ((readerEnds_labelOperands labelled _).mono start ?_)
      rintro targets left ⟨names, standFor, known⟩ nothing
      rw [operandLabels, if_pos (.inr rfl), allTaken known nothing]
      exact standFor
    · refine (scope.jumpsNowhere_plainOperation isSwitch).mono (fun _ _ => trivial) ?_
      intro operation left nowhere _
      rw [operandLabels, notBranch, if_neg (by simp [isSwitch]), Operation.JumpsTo, nowhere]
      exact .nil

theorem endsIn_readInstruction (labelled : scope.labels = labelsFrom .first items)
    (mnemonic : String) (operands : List Lexeme) :
    EndsIn (Operation.JumpsTo items (operandLabels mnemonic operands)) (·.isInternal = false)
      (scope.readInstruction mnemonic operands) := by
  have ends := readerEnds_operation labelled mnemonic operands operands rfl
  rw [readInstruction_eq]
  split
  · rename_i failed
    exact ends.of_error failed
  · rename_i ran
    exact ends.of_ok ran rfl
  · exact rfl

theorem failsByText_readHandlerKind (kind : HandlerKindText) :
    FailsByText (scope.readHandlerKind kind) := by
  unfold readHandlerKind
  split
  · exact trivial
  · rw [← bind_pure_comp]
    exact (scope.graph.failsByText_definitionOf _ _).bind fun _ _ => trivial

theorem endsIn_readHandler (labelled : scope.labels = labelsFrom .first items)
    (text : HandlerText) :
    EndsIn (text.Bounds items) (·.isInternal = false) (scope.readHandler text) := by
  refine (scope.failsByText_readHandlerKind text.kind).bind fun kind _ => ?_
  refine (endsIn_label labelled text.tryStart).bind fun tryStart start => ?_
  refine (endsIn_label labelled text.tryEnd).bind fun tryEnd finish => ?_
  refine (endsIn_label labelled text.handlerStart).bind fun handlerStart handler => ?_
  split
  · rename_i noEnd
    exact
      { tryStart := start
        tryEnd := finish
        handlerStart := handler
        noEnd := fun _ => rfl
        handlerEnd := by simp [noEnd] }
  · rename_i name named
    refine (endsIn_labelTarget labelled name).bind fun handlerEnd standsFor => ?_
    exact
      { tryStart := start
        tryEnd := finish
        handlerStart := handler
        noEnd := by simp [named]
        handlerEnd := by simpa [named] using standsFor }

end BodyScope

end NullWeave
