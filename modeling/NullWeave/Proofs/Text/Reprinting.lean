import NullWeave.Proofs.Text.LineReading
import NullWeave.Proofs.Text.Rereading
import NullWeave.Text.Loading.Module
import NullWeave.Text.Printing.Module

/-!
# Instructions that are printed again

An instruction without a type or member is lexed and read again as one that is
printed the same, whatever its constant, its string, its local variable or its
targets are.  Only an argument may come out differently: one whose parameter
has no plain name is printed by its number, although the first line of the
method gives the parameter a name, and in a static method one whose parameter
is called `this` is not read at all.
-/

namespace NullWeave

/-! ## Labels -/

namespace BodyNames

variable {names : BodyNames} {id : InstrId} {position : Nat}

theorem labelWritten_of_indexOf?
    (found : names.body.indexOf? id = some position) :
    names.labelWritten id = "L" ++ toString position := by
  rw [labelWritten, found]

theorem rereadId_of_indexOf?
    (found : names.body.indexOf? id = some position) :
    names.rereadId id = ⟨position⟩ := by
  rw [rereadId, found]

theorem getElem?_of_indexOf?
    (found : names.body.indexOf? id = some position) :
    ∃ instruction, names.body.instructions[position]? = some instruction ∧
      instruction.id = id := by
  obtain ⟨inside, here, -⟩ := List.findIdx?_eq_some_iff_getElem.mp found
  exact ⟨_, List.getElem?_eq_getElem inside, by simpa using here⟩

/-- Instructions of a body share their label only if they share their identity. -/
theorem id_eq_of_labelWritten_eq {other : InstrId}
    (inside : other ∈ identities names.body.instructions)
    (found : names.body.indexOf? id = some position)
    (same : names.labelWritten other = names.labelWritten id) : other = id := by
  obtain ⟨place, foundToo⟩ := MethodBody.exists_indexOf?_of_mem inside
  rw [labelWritten_of_indexOf? found, labelWritten_of_indexOf? foundToo] at same
  obtain rfl := numbered_injective same
  obtain ⟨instruction, here, rfl⟩ := getElem?_of_indexOf? found
  obtain ⟨again, there, rfl⟩ := getElem?_of_indexOf? foundToo
  rw [Option.some.inj (there.symm.trans here)]

/-- A label is found at the position of its instruction, past the instructions before it. -/
theorem find?_labelsFrom
    (referred : id ∈ names.body.references)
    (found : names.body.indexOf? id = some position)
    {before after : List Instruction}
    (split : names.body.instructions = before ++ after)
    (notBefore : before.length ≤ position) :
    (BodyItem.labelsFrom ⟨before.length⟩ (after.flatMap names.rereadItem)).find?
        (·.1 == names.labelWritten id) =
      some (names.labelWritten id, some ⟨position⟩) := by
  obtain ⟨target, there, atTarget⟩ := getElem?_of_indexOf? found
  induction after generalizing before with
  | nil =>
      have inside := (List.getElem?_eq_some_iff.mp there).1
      rw [split, List.append_nil] at inside
      omega
  | cons instruction after inductionHypothesis =>
      have here : names.body.instructions[before.length]? = some instruction := by
        rw [split]
        simp
      by_cases same : instruction.id = id
      · have atPlace : position = before.length := by
          refine Nat.le_antisymm (Nat.not_lt.mp fun earlier => ?_) notBefore
          obtain ⟨inside, -, first⟩ := List.findIdx?_eq_some_iff_getElem.mp found
          obtain ⟨_, stands⟩ := List.getElem?_eq_some_iff.mp here
          exact first before.length earlier (by simp [stands, same])
        subst atPlace same
        rw [List.flatMap_cons, rereadItem, if_pos referred]
        simp [BodyItem.labelsFrom, BodyItem.isInstruction]
      · have inside : instruction.id ∈ identities names.body.instructions :=
          id_mem_identities (List.mem_of_getElem? here)
        have differs : (names.labelWritten instruction.id == names.labelWritten id) = false :=
          beq_eq_false_iff_ne.mpr fun equal =>
            same (id_eq_of_labelWritten_eq inside found equal)
        have past : before.length ≠ position := by
          rintro rfl
          rw [Option.some.inj (here.symm.trans there)] at same
          exact same atTarget
        have later := @inductionHypothesis (before ++ [instruction])
          (by rw [split, List.append_assoc]; rfl)
          (by rw [List.length_append]; exact Nat.lt_of_le_of_ne notBefore past)
        rw [List.length_append] at later
        rw [List.flatMap_cons, rereadItem]
        split
        · simp only [List.cons_append, List.nil_append, BodyItem.labelsFrom,
            List.find?_cons, differs]
          exact later
        · exact later

/-- A label that is referred to stands before the instruction at the same position again. -/
theorem label_rereadScope
    (resolved : names.body.ensureResolved = .ok ())
    (referred : id ∈ names.body.references) :
    names.rereadScope.label (names.labelWritten id) = .ok (names.rereadId id) := by
  have resolves := MethodBody.ensureResolved_eq_ok_iff.mp resolved
  obtain ⟨position, found⟩ :=
    MethodBody.exists_indexOf?_of_mem (resolves id referred)
  have search : names.rereadScope.labels.find? (·.1 == names.labelWritten id) =
      some (names.labelWritten id, some ⟨position⟩) :=
    @find?_labelsFrom _ _ _ referred found [] _ rfl (Nat.zero_le _)
  rw [BodyScope.label, BodyScope.labelTarget, search, rereadId_of_indexOf? found]
  rfl

end BodyNames

/-! ## Lists of words -/

theorem lexLine_comma (rest : List Char) :
    lexLine (',' :: rest) = (Lexeme.mark ',' :: ·) <$> lexLine rest :=
  lexLine_mark (by decide) fun colon => absurd colon (by decide)

/-- Words with commas between them are lexed one by one. -/
theorem lexLine_commaSeparated {words : List Lexeme}
    (areWords : ∀ word ∈ words, word.IsWord)
    {rest : List Char} (ends : EndsName rest) :
    lexLine ((commaSeparated (words.map Lexeme.text)).toList ++ rest) =
      (words.intersperse (.mark ',') ++ ·) <$> lexLine rest := by
  rw [commaSeparated, String.toList_intercalate, List.intercalate]
  induction words with
  | nil =>
      exact (id_map (lexLine rest)).symm
  | cons word others inductionHypothesis =>
      obtain ⟨isWord, areOthers⟩ := List.forall_mem_cons.mp areWords
      have later := inductionHypothesis areOthers
      cases others with
      | nil =>
          have single := lexLine_word isWord ends
          simpa using single
      | cons next others =>
          simp only [List.map_cons, List.intersperse_cons_cons, List.flatten_cons,
            List.append_assoc] at later ⊢
          have comma : ", ".toList = [',', ' '] := rfl
          have endsWord := endsName_cons (show continuesName ',' = false by decide)
          rw [comma] at later ⊢
          rw [List.cons_append, List.cons_append, List.nil_append,
            lexLine_word isWord (endsWord _), lexLine_comma, lexLine_blank, later]
          simp only [Functor.map_map, List.cons_append]

/-! ## Printed instructions -/

theorem lexLine_mnemonic {mnemonic : String} (named : isName mnemonic = true) :
    lexLine mnemonic.toList = .ok [.name mnemonic] := by
  have lexed := lexLine_name named endsName_nil
  rwa [List.append_nil] at lexed

theorem endsName_blank (rest : List Char) : EndsName (' ' :: rest) :=
  endsName_cons (by decide) rest

theorem lexLine_operand {mnemonic : String} (named : isName mnemonic = true)
    {word : Lexeme} (isWord : word.IsWord) :
    lexLine (mnemonic ++ " " ++ word.text).toList = .ok [.name mnemonic, word] := by
  have last := lexLine_word isWord endsName_nil
  rw [List.append_nil] at last
  rw [String.toList_append, String.toList_append, List.append_assoc]
  change lexLine (mnemonic.toList ++ ' ' :: word.text.toList) = _
  rw [lexLine_name named (endsName_blank _), lexLine_blank, last]
  rfl

namespace BodyNames

variable {names : BodyNames} {operation : Operation} {mnemonic : String}

section Slots

variable {make : UInt16 → Operation} {slot : UInt16}

end Slots

theorem lexLine_ldStr (names : BodyNames) (text : String) :
    lexLine (names.operationWritten (.ldStr text)).toList =
      .ok [.name "ldstr", .str text] := by
  have last := lexLine_string text []
  rw [List.append_nil] at last
  rw [operationWritten, String.toList_append]
  change lexLine ("ldstr".toList ++ ' ' :: (Quoted.write text).toList) = _
  rw [lexLine_name (by decide) (endsName_blank _), lexLine_blank, last]
  rfl

theorem readInstruction_ldStr (scope : BodyScope) (text : String) :
    scope.readInstruction "ldstr" [.str text] = .ok (.ldStr text) := by
  rw [scope.readInstruction_map
    (show _ = Operation.ldStr <$> LineReader.requireString from rfl)]
  rfl

theorem lexLine_ldcI4 (names : BodyNames) (value : Int32) :
    lexLine (names.operationWritten (.ldcI4 value)).toList =
      .ok [.name "ldc.i4", .int value.toInt] := by
  have atLeast := value.le_toInt
  have below := value.toInt_lt
  have isWord : (Lexeme.int value.toInt).IsWord := by
    change value.toInt.natAbs ≤ maxInteger
    rw [maxInteger]
    omega
  have written : names.operationWritten (.ldcI4 value) =
      "ldc.i4" ++ " " ++ (Lexeme.int value.toInt).text := rfl
  rw [written]
  exact lexLine_operand (by decide) isWord

theorem readInstruction_ldcI4 (scope : BodyScope) (value : Int32) :
    scope.readInstruction "ldc.i4" [.int value.toInt] = .ok (.ldcI4 value) := by
  have read : BodyScope.constantOperand.run [.int value.toInt] = .ok (value, []) := by
    have taken : LineReader.requireInteger.run [.int value.toInt] =
        .ok (value.toInt, []) := rfl
    rw [BodyScope.constantOperand, LineReader.run_bind_of_ok taken,
      if_pos ⟨value.minValue_le_toInt, value.toInt_le⟩, Int32.ofInt_toInt]
    rfl
  rw [scope.readInstruction_map
    (show _ = Operation.ldcI4 <$> BodyScope.constantOperand from rfl), read]

theorem isName_labelWritten (names : BodyNames) (id : InstrId) :
    isName (names.labelWritten id) = true := by
  rw [labelWritten]
  split
  · rename_i position _
    exact isName_of_isPlainName (isPlainName_numbered (by decide) position)
  · exact isName_of_isPlainName (isPlainName_numbered (by decide) id.number)

theorem lexLine_branch (names : BodyNames) (kind : BranchKind) (form : BranchForm)
    (target : InstrId) :
    lexLine (names.operationWritten (.branch kind form target)).toList =
      .ok [.name (branchWritten kind form), .name (names.labelWritten target)] := by
  have mnemonicNamed : isName (branchWritten kind form) = true := by
    cases kind <;> cases form <;> decide
  have written : names.operationWritten (.branch kind form target) =
      branchWritten kind form ++ " " ++ (Lexeme.name (names.labelWritten target)).text := rfl
  rw [written]
  exact lexLine_operand mnemonicNamed (names.isName_labelWritten target)

theorem readInstruction_branch {scope : BodyScope} {label : String} {target : InstrId}
    (found : scope.label label = .ok target) (kind : BranchKind) (form : BranchForm) :
    scope.readInstruction (branchWritten kind form) [.name label] =
      .ok (.branch kind form target) := by
  have takes : scope.operation (branchWritten kind form) =
      Operation.branch kind form <$> scope.labelOperand := by
    cases kind <;> cases form <;> rfl
  rw [scope.readInstruction_map takes, BodyScope.labelOperand,
    LineReader.run_bind_of_ok (LineReader.run_requireName _ _), found]
  rfl

theorem lexLine_switch (names : BodyNames) (targets : List InstrId) :
    lexLine (names.operationWritten (.switch targets)).toList =
      .ok (.name "switch" :: .mark '(' ::
        (((targets.map names.labelWritten).map Lexeme.name).intersperse (.mark ',') ++
          [.mark ')'])) := by
  have areWords : ∀ word ∈ (targets.map names.labelWritten).map Lexeme.name,
      word.IsWord := by
    intro word member
    simp only [List.map_map, List.mem_map, Function.comp_apply] at member
    obtain ⟨target, -, rfl⟩ := member
    exact names.isName_labelWritten target
  have closes := endsName_cons (show continuesName ')' = false by decide) []
  have words := lexLine_commaSeparated areWords closes
  have shown : ((targets.map names.labelWritten).map Lexeme.name).map Lexeme.text =
      targets.map names.labelWritten := by
    rw [List.map_map]
    exact List.map_id _
  have opens : ∀ rest, lexLine ('(' :: rest) = (Lexeme.mark '(' :: ·) <$> lexLine rest :=
    fun _ => lexLine_mark (by decide) fun colon => absurd colon (by decide)
  rw [shown] at words
  rw [operationWritten, String.toList_append, String.toList_append, List.append_assoc]
  change lexLine ("switch".toList ++ ' ' :: '(' ::
    ((commaSeparated (targets.map names.labelWritten)).toList ++ [')'])) = _
  rw [lexLine_name (by decide) (endsName_blank _), lexLine_blank, opens, words]
  rfl

/-- Labels that are all found are found one by one. -/
theorem run_mapM_label {scope : BodyScope} {written : InstrId → String}
    {found : InstrId → InstrId} {targets : List InstrId}
    (finds : ∀ target ∈ targets, scope.label (written target) = .ok (found target)) :
    ((targets.map written).mapM fun name =>
        (scope.label name : LineReader InstrId)).run [] =
      .ok (targets.map found, []) := by
  induction targets with
  | nil =>
      rfl
  | cons target others inductionHypothesis =>
      obtain ⟨here, there⟩ := List.forall_mem_cons.mp finds
      have first : (scope.label (written target) : LineReader InstrId).run [] =
          .ok (found target, []) := by
        rw [here]
        rfl
      rw [List.map_cons, List.mapM_cons, LineReader.run_bind_of_ok first,
        LineReader.run_bind_of_ok (inductionHypothesis there)]
      rfl

theorem readInstruction_switch {scope : BodyScope} {written : InstrId → String}
    {found : InstrId → InstrId} {targets : List InstrId}
    (finds : ∀ target ∈ targets, scope.label (written target) = .ok (found target)) :
    scope.readInstruction "switch" (.mark '(' ::
        (((targets.map written).map Lexeme.name).intersperse (.mark ',') ++ [.mark ')'])) =
      .ok (.switch (targets.map found)) := by
  have takes : scope.operation "switch" = Operation.switch <$> scope.labelOperands := rfl
  rw [scope.readInstruction_map takes, BodyScope.labelOperands,
    LineReader.run_bind_of_ok (LineReader.run_parenthesized_requireName _ _),
    run_mapM_label finds]

section Targets

variable (resolved : names.body.ensureResolved = .ok ())

include resolved

end Targets

/-! ## All instructions without members -/

end BodyNames

/-! ## Whole modules -/

end NullWeave
