import NullWeave.Proofs.Code.BodyOutline
import NullWeave.Proofs.Text.Reprinting
import NullWeave.Proofs.Text.SpelledWords

/-!
# Printed instructions

An instruction is printed as its mnemonic with its operands behind it.  When it
is read, its operands may be found to be others: a type or a member with a name
that is captured, or nothing at all.  Its operation is the same one still, with
the same constant or string, and its targets are the same by position.
-/

namespace NullWeave

/-! ## Operands -/

/-- Can no colon be cut from the front of some characters as a mark? -/
def BeginsOperand (chars : List Char) : Prop :=
  ∀ c rest, chars = c :: rest →
    isBlank c = false ∧ (c = ':' → rest.head? = some ':')

theorem beginsOperand_nil : BeginsOperand [] := nofun

theorem beginsOperand_cons {c : Char} (notBlank : isBlank c = false) (notColon : c ≠ ':')
    (rest : List Char) : BeginsOperand (c :: rest) := by
  rintro _ _ ⟨⟩
  exact ⟨notBlank, fun colon => absurd colon notColon⟩

theorem beginsOperand_doubleColon (rest : List Char) : BeginsOperand (':' :: ':' :: rest) := by
  rintro _ _ ⟨⟩
  exact ⟨by decide, fun _ => rfl⟩

theorem IsSpelled.beginsOperand_append {name : String} (spelled : IsSpelled name)
    {rest : List Char} (begins : BeginsOperand rest) :
    BeginsOperand (name.toList ++ rest) := by
  cases shown : name.toList with
  | nil =>
      exact begins
  | cons c tail =>
      rw [IsSpelled, shown] at spelled
      obtain ⟨notBlank, others⟩ :=
        not_separator_of_continuesName (spelled c (List.mem_cons_self ..))
      exact beginsOperand_cons notBlank (fun colon => others (colon ▸ List.mem_cons_self ..)) _

theorem IsSpelled.beginsOperand {name : String} (spelled : IsSpelled name) :
    BeginsOperand name.toList := by
  have begins := spelled.beginsOperand_append beginsOperand_nil
  rwa [List.append_nil] at begins

theorem beginsOperand_mark {mark : Char} (isMark : mark ∈ marks) (notColon : mark ≠ ':')
    (rest : List Char) : BeginsOperand (mark :: rest) :=
  beginsOperand_cons (mark_begins_nothing isMark).1 notColon rest

theorem Lexeme.IsWord.beginsOperand {word : Lexeme} (isWord : word.IsWord) :
    BeginsOperand word.text.toList := by
  cases word with
  | name text =>
      exact (isSpelled_of_isName isWord).beginsOperand
  | int value =>
      obtain ⟨c, tail, shown, begins, -⟩ := exists_toString value
      obtain ⟨notBlank, -, notColon, -⟩ := begins_number begins
      rw [Lexeme.text, shown]
      exact beginsOperand_cons notBlank notColon tail
  | str _ | mark _ | doubleColon =>
      cases isWord

/-- The first word of an operand is no colon. -/
theorem BeginsOperand.head?_ne {chars : List Char} (begins : BeginsOperand chars)
    {words : List Lexeme} (lexed : lexLine chars = .ok words) :
    words.head? ≠ some (.mark ':') := by
  cases chars with
  | nil =>
      cases lexed
      simp
  | cons c rest =>
      obtain ⟨notBlank, colons⟩ := begins c rest rfl
      rw [lexLine_eq_firstPiece] at lexed
      split at lexed
      · cases lexed
        simp
      · obtain ⟨⟨first, after⟩, taken, goesOn⟩ := bind_eq_ok_iff.mp lexed
        obtain ⟨others, -, rfl⟩ := map_eq_ok_iff.mp goesOn
        rw [firstPiece, if_neg (by simp [notBlank])] at taken
        by_cases colon : c = ':'
        · rw [if_pos ⟨colon, colons colon⟩] at taken
          cases taken
          simp
        rw [if_neg fun both => colon both.1] at taken
        split_ifs at taken
        · split at taken
          · cases taken
          · cases taken
            simp
        · split at taken
          · cases taken
          · cases taken
            simp
        · cases taken
          simp
        · cases taken
          exact fun same => colon (by simpa using same)

namespace Graph

theorem isSpelled_typeWritten {graph : Graph} (spelled : graph.IsSpelled) (type : TypeId) :
    NullWeave.IsSpelled (graph.typeWritten type) := by
  rw [typeWritten]
  cases same : wordForName? (graph.typeName type) with
  | none =>
      exact spelled.typeName type
  | some word =>
      exact isSpelled_of_isName (wordForName?_plain same).1

theorem beginsOperand_sigWritten {graph : Graph} (spelled : graph.IsSpelled)
    (signature : Signature) {rest : List Char} (begins : BeginsOperand rest) :
    BeginsOperand ((graph.sigWritten signature).toList ++ rest) := by
  induction signature using Signature.rec
      (motive_2 := fun _ => True) generalizing rest with
  | void =>
      exact (show NullWeave.IsSpelled "void" by decide).beginsOperand_append begins
  | named type =>
      exact (isSpelled_typeWritten spelled type).beginsOperand_append begins
  | param name isValueType =>
      rw [sigWritten, String.append_assoc, String.toList_append, List.append_assoc]
      exact beginsOperand_cons (show isBlank '!' = false by decide) (by decide) _
  | byRef element inductionHypothesis =>
      rw [sigWritten, String.toList_append, List.append_assoc]
      exact inductionHypothesis
        (beginsOperand_mark (show '&' ∈ marks by decide) (by decide) _)
  | array element inductionHypothesis =>
      rw [sigWritten, String.toList_append, List.append_assoc]
      exact inductionHypothesis
        (beginsOperand_mark (show '[' ∈ marks by decide) (by decide) _)
  | generic type arguments _ =>
      rw [sigWritten, String.append_assoc, String.append_assoc, String.toList_append,
        String.toList_append, List.append_assoc, List.append_assoc]
      exact (spelled.typeName type).beginsOperand_append
        (beginsOperand_mark (show '<' ∈ marks by decide) (by decide) _)
  | nil =>
      trivial
  | cons _ _ _ _ =>
      trivial

theorem beginsOperand_member {graph : Graph} (spelled : graph.IsSpelled) (owner : TypeId)
    (member : String) : BeginsOperand (graph.typeName owner ++ "::" ++ member).toList := by
  rw [String.append_assoc, String.toList_append, String.toList_append]
  exact (spelled.typeName owner).beginsOperand_append (beginsOperand_doubleColon _)

end Graph

/-! ## Mnemonics -/

namespace BodyNames

/-- The mnemonic that an operation is printed with. -/
def mnemonicWritten : Operation → String
  | .nop => "nop"
  | .ldNull => "ldnull"
  | .ldStr _ => "ldstr"
  | .ldcI4 _ => "ldc.i4"
  | .ldArg _ => "ldarg"
  | .ldArgA _ => "ldarga"
  | .stArg _ => "starg"
  | .ldLoc _ => "ldloc"
  | .ldLocA _ => "ldloca"
  | .stLoc _ => "stloc"
  | .dup => "dup"
  | .pop => "pop"
  | .ceq => "ceq"
  | .add => "add"
  | .sub => "sub"
  | .ldIndRef => "ldind.ref"
  | .stIndRef => "stind.ref"
  | .ldObj _ => "ldobj"
  | .box _ => "box"
  | .ldFld _ => "ldfld"
  | .ldFldA _ => "ldflda"
  | .stFld _ => "stfld"
  | .call _ => "call"
  | .callVirt _ => "callvirt"
  | .newObj _ => "newobj"
  | .branch kind form _ => branchWritten kind form
  | .switch _ => "switch"
  | .ret => "ret"
  | .throw => "throw"
  | .endFinally => "endfinally"

theorem isName_mnemonicWritten (operation : Operation) :
    isName (mnemonicWritten operation) = true := by
  unfold mnemonicWritten
  split
  case h_26 kind form _ =>
    cases kind <;> cases form <;> decide
  all_goals decide

/-- No mnemonic is a directive. -/
theorem head?_mnemonicWritten (operation : Operation) :
    (mnemonicWritten operation).toList.head? ≠ some '.' := by
  unfold mnemonicWritten
  split
  case h_26 kind form _ =>
    cases kind <;> cases form <;> decide
  all_goals decide

variable {names : BodyNames}

/-- An operation is printed as its mnemonic, alone or with an operand behind it. -/
theorem operationWritten_cases (spelled : names.graph.IsSpelled) (operation : Operation) :
    names.operationWritten operation = mnemonicWritten operation ∨
      ∃ operand, names.operationWritten operation =
          mnemonicWritten operation ++ " " ++ operand ∧
        BeginsOperand operand.toList := by
  have word {slot : Lexeme} {text : String} (isWord : slot.IsWord) (shown : slot.text = text) :
      BeginsOperand text.toList :=
    shown ▸ isWord.beginsOperand
  have type (signature : Signature) :
      BeginsOperand (names.graph.sigWritten signature).toList := by
    have begins := Graph.beginsOperand_sigWritten spelled signature beginsOperand_nil
    rwa [List.append_nil] at begins
  have method (method : MethodId) :
      BeginsOperand (names.graph.methodWritten method).toList := by
    rw [Graph.methodWritten, String.append_assoc, String.append_assoc, String.append_assoc]
    exact Graph.beginsOperand_member spelled _ _
  have argument (slot : UInt16) : BeginsOperand (names.argumentWritten slot).toList :=
    word (names.isWord_argumentWord slot) (names.text_argumentWord slot)
  have localVariable (slot : UInt16) : BeginsOperand (names.localWritten slot).toList :=
    word (names.isWord_localWord slot) (names.text_localWord slot)
  cases operation with
  | ldStr text =>
      refine .inr ⟨Quoted.write text, rfl, ?_⟩
      rw [Quoted.write, String.toList_ofList]
      exact beginsOperand_cons (by decide) (by decide) _
  | ldcI4 value =>
      obtain ⟨c, tail, shown, begins, -⟩ := exists_toString value.toInt
      obtain ⟨notBlank, -, notColon, -⟩ := begins_number begins
      exact .inr ⟨toString value.toInt, rfl,
        shown ▸ beginsOperand_cons notBlank notColon tail⟩
  | ldArg slot | ldArgA slot | stArg slot =>
      exact .inr ⟨_, rfl, argument slot⟩
  | ldLoc slot | ldLocA slot | stLoc slot =>
      exact .inr ⟨_, rfl, localVariable slot⟩
  | ldObj signature | box signature =>
      exact .inr ⟨_, rfl, type signature⟩
  | ldFld field | ldFldA field | stFld field =>
      exact .inr ⟨_, rfl, Graph.beginsOperand_member spelled _ _⟩
  | call target | callVirt target | newObj target =>
      exact .inr ⟨_, rfl, method target⟩
  | branch kind form target =>
      exact .inr ⟨_, rfl, (isSpelled_of_isName (names.isName_labelWritten target)).beginsOperand⟩
  | switch targets =>
      refine .inr ⟨"(" ++ commaSeparated (targets.map names.labelWritten) ++ ")", rfl, ?_⟩
      rw [String.append_assoc, String.toList_append]
      exact beginsOperand_mark (show '(' ∈ marks by decide) (by decide) _
  | _ =>
      exact .inl rfl

/-- A printed operation is cut into its mnemonic and its operands, no colon first. -/
theorem exists_operands (spelled : names.graph.IsSpelled) {operation : Operation}
    {words : List Lexeme}
    (lexed : lexLine (names.operationWritten operation).toList = .ok words) :
    ∃ operands, words = .name (mnemonicWritten operation) :: operands ∧
      operands.head? ≠ some (.mark ':') := by
  have named := isName_mnemonicWritten operation
  rcases operationWritten_cases spelled operation with alone | ⟨operand, written, begins⟩
  · rw [alone, lexLine_mnemonic named] at lexed
    cases lexed
    exact ⟨[], rfl, nofun⟩
  · rw [written, String.toList_append, String.toList_append, List.append_assoc] at lexed
    change lexLine ((mnemonicWritten operation).toList ++ ' ' :: operand.toList) = _ at lexed
    rw [lexLine_name named (endsName_blank _), lexLine_blank] at lexed
    obtain ⟨operands, lexedOperand, rfl⟩ := map_eq_ok_iff.mp lexed
    exact ⟨operands, rfl, begins.head?_ne lexedOperand⟩

/-! ## Reading them -/

/-- An operation whose operand is taken by one reader is read with another operand, if at all. -/
theorem alike_of_readInstruction {scope : BodyScope} {α : Type} (mnemonic : String)
    (make : α → Operation) (operand : α)
    (bare : ∀ other, (make other).bare = (make operand).bare)
    (noTargets : ∀ other, (make other).targets = []) (reader : LineReader α)
    (takes : scope.operation mnemonic = make <$> reader) {operands : List Lexeme}
    {again : Operation} (read : scope.readInstruction mnemonic operands = .ok again)
    (change : InstrId → InstrId) :
    again.bare = (make operand).bare ∧ again.targets = (make operand).targets.map change := by
  rw [scope.readInstruction_map takes] at read
  split at read
  · cases read
  · rename_i other _
    obtain rfl := Except.ok.inj read
    rw [noTargets, noTargets]
    exact ⟨bare other, rfl⟩
  · cases read

/-- An operation without operands is read as it is, if at all. -/
theorem eq_of_readInstruction {scope : BodyScope} {mnemonic : String} {operation again : Operation}
    (takes : scope.operation mnemonic = pure operation) {operands : List Lexeme}
    (read : scope.readInstruction mnemonic operands = .ok again) : again = operation := by
  rw [scope.readInstruction_eq, takes] at read
  cases operands with
  | nil =>
      exact (Except.ok.inj read).symm
  | cons word rest =>
      cases read

/-- A label that is written means a position wherever the labels are those of the body. -/
theorem label_of_labels_eq (resolved : names.body.ensureResolved = .ok ()) {scope : BodyScope}
    (labels : scope.labels = names.rereadScope.labels) {id : InstrId}
    (referred : id ∈ names.body.references) :
    scope.label (names.labelWritten id) = .ok (names.rereadId id) := by
  rw [← label_rereadScope resolved referred, BodyScope.label, BodyScope.label,
    BodyScope.labelTarget, BodyScope.labelTarget, labels]

/--
A printed instruction is read, if at all, as the same operation, apart from what
it mentions, with its targets at their positions.
-/
theorem bare_of_readInstruction (spelled : names.graph.IsSpelled)
    (resolved : names.body.ensureResolved = .ok ()) {scope : BodyScope}
    (labels : scope.labels = names.rereadScope.labels) {operation : Operation}
    (referred : ∀ target ∈ operation.targets, target ∈ names.body.references)
    {mnemonic : String} {operands : List Lexeme}
    (lexed : lexLine (names.operationWritten operation).toList = .ok (.name mnemonic :: operands))
    {again : Operation} (read : scope.readInstruction mnemonic operands = .ok again) :
    again.bare = operation.bare ∧ again.targets = operation.targets.map names.rereadId := by
  obtain ⟨_, split, -⟩ := exists_operands spelled lexed
  obtain rfl : mnemonic = mnemonicWritten operation :=
    Lexeme.name.inj (List.cons.inj split).1
  have finds (target : InstrId) (member : target ∈ operation.targets) :
      scope.label (names.labelWritten target) = .ok (names.rereadId target) :=
    label_of_labels_eq resolved labels (referred target member)
  cases operation with
  | ldStr text =>
      rw [names.lexLine_ldStr] at lexed
      cases lexed
      obtain rfl := Except.ok.inj ((readInstruction_ldStr scope text).symm.trans read)
      exact ⟨rfl, rfl⟩
  | ldcI4 value =>
      rw [names.lexLine_ldcI4] at lexed
      cases lexed
      obtain rfl := Except.ok.inj ((readInstruction_ldcI4 scope value).symm.trans read)
      exact ⟨rfl, rfl⟩
  | branch kind form target =>
      rw [names.lexLine_branch] at lexed
      cases lexed
      have again := readInstruction_branch (finds target (List.mem_singleton_self _)) kind form
      obtain rfl := Except.ok.inj (again.symm.trans read)
      exact ⟨rfl, rfl⟩
  | switch targets =>
      rw [names.lexLine_switch] at lexed
      cases lexed
      have again := readInstruction_switch finds
      obtain rfl := Except.ok.inj (again.symm.trans read)
      exact ⟨rfl, rfl⟩
  | ldArg slot | ldArgA slot | stArg slot =>
      rw [mnemonicWritten] at read
      exact alike_of_readInstruction _ _ slot (fun _ => rfl) (fun _ => rfl) scope.argumentOperand
        rfl read _
  | ldLoc slot | ldLocA slot | stLoc slot =>
      rw [mnemonicWritten] at read
      exact alike_of_readInstruction _ _ slot (fun _ => rfl) (fun _ => rfl) scope.localOperand
        rfl read _
  | ldObj type | box type =>
      rw [mnemonicWritten] at read
      exact alike_of_readInstruction _ _ type (fun _ => rfl) (fun _ => rfl) scope.typeOperand
        rfl read _
  | ldFld field | ldFldA field | stFld field =>
      rw [mnemonicWritten] at read
      exact alike_of_readInstruction _ _ field (fun _ => rfl) (fun _ => rfl) scope.fieldOperand
        rfl read _
  | call method | callVirt method | newObj method =>
      rw [mnemonicWritten] at read
      exact alike_of_readInstruction _ _ method (fun _ => rfl) (fun _ => rfl) scope.methodOperand
        rfl read _
  | _ =>
      rw [mnemonicWritten] at read
      obtain rfl := eq_of_readInstruction rfl read
      exact ⟨rfl, rfl⟩

end BodyNames

end NullWeave
