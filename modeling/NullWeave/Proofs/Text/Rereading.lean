import NullWeave.Proofs.Code.Identity
import NullWeave.Proofs.Text.LineReading
import NullWeave.Proofs.Text.NumberedItems
import NullWeave.Proofs.Text.SlotNames

/-!
# Reading what was printed

A body that is printed and read has its instructions numbered by their
positions, and its parameters and local variables have the names that were
written for them.  The first line of the method and the line of the local
variables are printed from those names as before.  A local variable that an
instruction names is printed again, and an argument is if it is printed under
the name that the first line gives it.
-/

namespace NullWeave

/-! ## What is read again -/

/-- A parameter with the name that is written for it. -/
def Parameter.withWrittenName (index : Nat) (parameter : Parameter) : Parameter :=
  { parameter with name := readableName "A" index parameter.name }

/-- A local variable with the name that is written for it. -/
def LocalVariable.withWrittenName (index : Nat) (entry : LocalVariable) : LocalVariable :=
  { entry with name := readableName "V" index entry.name }

/-- The declaration of a method with the names that its first line gives the parameters. -/
def MethodDecl.withWrittenNames (decl : MethodDecl) : MethodDecl :=
  { decl with parameters := decl.parameters.mapIdx Parameter.withWrittenName }

namespace BodyNames

/-- The identity that an instruction gets when its body is read again: its position. -/
def rereadId (names : BodyNames) (id : InstrId) : InstrId :=
  match names.body.indexOf? id with
  | some position => ⟨position⟩
  | none => id

/-- The items that a printed instruction is read as, without its mnemonic and operands. -/
def rereadItem (names : BodyNames) (instruction : Instruction) : List BodyItem :=
  if instruction.id ∈ names.body.references then
    [.label 0 (names.labelWritten instruction.id), .instruction 0 "" []]
  else
    [.instruction 0 "" []]

/-- What the operands of a printed body can refer to. -/
def rereadScope (names : BodyNames) : BodyScope where
  graph := names.graph
  method := names.method.withWrittenNames
  locals := names.localNames
  labels := BodyItem.labelsFrom .first (names.body.instructions.flatMap names.rereadItem)

/-- What is needed to print a body again that was printed and read. -/
def reread (names : BodyNames) : BodyNames where
  graph := names.graph
  method := names.method.withWrittenNames
  body :=
    { instructions := MethodBody.numberFrom .first
        (names.body.instructions.map (·.operation.mapTargets names.rereadId))
      locals := names.body.locals.mapIdx LocalVariable.withWrittenName
      handlers := names.body.handlers.map (·.mapBoundaries names.rereadId)
      initLocals := names.body.initLocals
      nextId := ⟨names.body.instructions.length⟩ }

end BodyNames

/-- The first line of a method is printed again. -/
theorem Graph.methodHeaderWritten_withWrittenNames (graph : Graph) (decl : MethodDecl) :
    graph.methodHeaderWritten decl.withWrittenNames = graph.methodHeaderWritten decl := by
  have parameters :
      decl.withWrittenNames.parameters.mapIdx graph.parameterWritten =
        decl.parameters.mapIdx graph.parameterWritten := by
    rw [MethodDecl.withWrittenNames, List.mapIdx_mapIdx]
    congr 1
    funext index parameter
    have again := readableName_readableName
      (show isPlainName "A" = true by decide) index parameter.name
    simp only [Function.comp_apply, Graph.parameterWritten, Parameter.withWrittenName, again]
    rfl
  rw [Graph.methodHeaderWritten, Graph.methodHeaderWritten, parameters]
  rfl

/-! ## Reading one instruction -/

namespace BodyScope

variable (scope : BodyScope)

/-- Reading an instruction takes its operands and then leaves nothing. -/
theorem readInstruction_eq (mnemonic : String) (operands : List Lexeme) :
    scope.readInstruction mnemonic operands =
      match (scope.operation mnemonic).run operands with
      | .error fault => .error fault
      | .ok (operation, []) => .ok operation
      | .ok (_, found :: _) => .error (.unexpected found) := by
  change ((scope.operation mnemonic >>= fun operation => do
    LineReader.done
    pure operation).run operands >>= fun result => pure result.1) = _
  rw [StateT.run_bind]
  cases (scope.operation mnemonic).run operands with
  | error fault =>
      rfl
  | ok read =>
      obtain ⟨operation, left⟩ := read
      cases left <;> rfl

/-- Reading an instruction whose operands are taken by one reader. -/
theorem readInstruction_map {α : Type}
    {mnemonic : String} {make : α → Operation} {reader : LineReader α}
    (takes : scope.operation mnemonic = make <$> reader)
    (operands : List Lexeme) :
    scope.readInstruction mnemonic operands =
      match reader.run operands with
      | .error fault => .error fault
      | .ok (value, []) => .ok (make value)
      | .ok (_, found :: _) => .error (.unexpected found) := by
  rw [readInstruction_eq, takes, StateT.run_map]
  cases reader.run operands with
  | error fault =>
      rfl
  | ok read =>
      obtain ⟨value, left⟩ := read
      cases left <;> rfl

end BodyScope

theorem numberedSlot?_toNat (slot : UInt16) :
    BodyScope.numberedSlot? (slot.toNat : Int) = some slot := by
  have small : (slot.toNat : Int) < UInt16.size := by
    exact_mod_cast slot.toNat_lt
  rw [BodyScope.numberedSlot?, if_pos ⟨Int.natCast_nonneg _, small⟩,
    Int.toNat_natCast, UInt16.ofNat_toNat]

/-- Looking for what stands at a position finds it there or something like it before. -/
theorem exists_findIdx?_le {α : Type} {holds : α → Bool} {items : List α}
    {index : Nat} {item : α}
    (here : items[index]? = some item) (right : holds item = true) :
    ∃ first other, first ≤ index ∧ items.findIdx? holds = some first ∧
      items[first]? = some other ∧ holds other = true := by
  obtain ⟨inside, rfl⟩ := List.getElem?_eq_some_iff.mp here
  cases found : items.findIdx? holds with
  | none =>
      have never := List.findIdx?_eq_none_iff.mp found _ (List.getElem_mem inside)
      rw [right] at never
      cases never
  | some first =>
      obtain ⟨firstInside, rightToo, before⟩ :=
        List.findIdx?_eq_some_iff_getElem.mp found
      refine ⟨first, _, Nat.not_lt.mp fun earlier => ?_, rfl,
        List.getElem?_eq_getElem firstInside, rightToo⟩
      exact before index earlier right

/-! ## Parameters -/

namespace MethodDecl

variable {decl : MethodDecl} {slot : UInt16} {parameter : Parameter}

theorem parameterOfSlot?_eq_some_iff :
    decl.parameterOfSlot? slot = some parameter ↔
      ∃ index, slot.toNat = index + decl.hasReceiver.toNat ∧
        decl.parameters[index]? = some parameter := by
  rw [parameterOfSlot?]
  cases decl.hasReceiver with
  | false =>
      simp
  | true =>
      by_cases receiver : slot.toNat = 0
      · simp [receiver]
      · have shifted : ∀ index, slot.toNat = index + 1 ↔ index = slot.toNat - 1 := by
          intro index
          omega
        simp [receiver, shifted]

/-- The slot of the receiver has no parameter. -/
theorem not_receiver_of_parameterOfSlot?
    (found : decl.parameterOfSlot? slot = some parameter) :
    (decl.hasReceiver && slot == 0) = false := by
  obtain ⟨index, shifted, -⟩ := parameterOfSlot?_eq_some_iff.mp found
  cases receiver : decl.hasReceiver with
  | false =>
      rfl
  | true =>
      rw [receiver] at shifted
      rw [Bool.true_and, beq_eq_false_iff_ne]
      rintro rfl
      cases shifted

theorem getElem?_withWrittenNames (index : Nat) :
    decl.withWrittenNames.parameters[index]? =
      decl.parameters[index]?.map (Parameter.withWrittenName index) := by
  rw [withWrittenNames, List.getElem?_mapIdx]

end MethodDecl

/-! ## Arguments -/

namespace BodyNames

variable (names : BodyNames) {slot : UInt16} {parameter : Parameter}

/-- The word that an argument is printed as. -/
def argumentWord (slot : UInt16) : Lexeme :=
  if names.method.hasReceiver && slot == 0 then
    .name "this"
  else
    match names.method.parameterOfSlot? slot with
    | some parameter =>
        if isPlainName parameter.name then .name parameter.name else .int slot.toNat
    | none => .int slot.toNat

theorem text_argumentWord (slot : UInt16) :
    (names.argumentWord slot).text = names.argumentWritten slot := by
  unfold argumentWord argumentWritten
  by_cases receiver : (names.method.hasReceiver && slot == 0) = true
  · rw [if_pos receiver, if_pos receiver]
    rfl
  · rw [if_neg receiver, if_neg receiver]
    cases names.method.parameterOfSlot? slot with
    | none =>
        rfl
    | some parameter =>
        dsimp only
        split <;> rfl

theorem argumentWord_receiver
    (receiver : names.method.hasReceiver = true) :
    names.argumentWord 0 = .name "this" := by
  simp [argumentWord, receiver]

theorem argumentWord_of_plain
    (found : names.method.parameterOfSlot? slot = some parameter)
    (plain : isPlainName parameter.name = true) :
    names.argumentWord slot = .name parameter.name := by
  rw [argumentWord, MethodDecl.not_receiver_of_parameterOfSlot? found, found]
  simp [plain]

theorem argumentWord_of_not_plain
    (found : names.method.parameterOfSlot? slot = some parameter)
    (notPlain : isPlainName parameter.name = false) :
    names.argumentWord slot = .int slot.toNat := by
  rw [argumentWord, MethodDecl.not_receiver_of_parameterOfSlot? found, found]
  simp [notPlain]

theorem argumentWord_of_none
    (notReceiver : (names.method.hasReceiver && slot == 0) = false)
    (none : names.method.parameterOfSlot? slot = none) :
    names.argumentWord slot = .int slot.toNat := by
  rw [argumentWord, notReceiver, none]
  rfl

theorem isWord_slot (slot : UInt16) : (Lexeme.int slot.toNat).IsWord := by
  have small := slot.toNat_lt
  change slot.toNat ≤ maxInteger
  rw [maxInteger]
  omega

theorem isWord_argumentWord (slot : UInt16) :
    (names.argumentWord slot).IsWord := by
  rw [argumentWord]
  split
  · exact show isName "this" = true by decide
  · split
    · split
      · rename_i plain
        exact isName_of_isPlainName plain
      · exact isWord_slot slot
    · exact isWord_slot slot

/-- A name that is read means the first parameter that has it in the first line. -/
theorem argumentSlot_of_findIdx? {name : String} (notThis : name ≠ "this") {first : Nat}
    (search : names.method.withWrittenNames.parameters.findIdx?
      (fun other => other.name == name) = some first) :
    names.rereadScope.argumentSlot (some (.name name)) =
      .ok (names.method.withWrittenNames.argumentSlot first) := by
  rw [BodyScope.argumentSlot, if_neg notThis]
  change (match names.method.withWrittenNames.parameters.findIdx?
      (fun other => other.name == name) with
    | some index => .ok (names.method.withWrittenNames.argumentSlot index)
    | none => .error (.unknownParameter name)) =
      (.ok (names.method.withWrittenNames.argumentSlot first) : Except TextFault UInt16)
  rw [search]

theorem argumentSlot_number (slot : UInt16) :
    names.rereadScope.argumentSlot (some (.int slot.toNat)) = .ok slot := by
  rw [BodyScope.argumentSlot, numberedSlot?_toNat]

/-- The word `this` is the receiver, if there is one. -/
theorem argumentSlot_this :
    names.rereadScope.argumentSlot (some (.name "this")) =
      if names.method.hasReceiver then .ok 0 else .error .noReceiver := rfl

theorem getElem?_localNames (index : Nat) :
    names.localNames[index]? =
      names.body.locals[index]?.map fun entry => readableName "V" index entry.name := by
  rw [localNames, List.getElem?_mapIdx]

/-- Local variables are printed under the same names again. -/
theorem localNames_reread : names.reread.localNames = names.localNames := by
  change (names.body.locals.mapIdx LocalVariable.withWrittenName).mapIdx
    (fun index entry => readableName "V" index entry.name) = _
  rw [List.mapIdx_mapIdx, localNames]
  congr 1
  funext index entry
  exact readableName_readableName (by decide) index entry.name

/-- The line of the local variables is printed again. -/
theorem localsWritten_reread : names.reread.localsWritten = names.localsWritten := by
  have entries : ∀ index, names.reread.body.locals[index]? =
      names.body.locals[index]?.map (LocalVariable.withWrittenName index) :=
    fun _ => List.getElem?_mapIdx
  have empty : names.reread.body.locals.isEmpty = names.body.locals.isEmpty := by
    rw [Bool.eq_iff_iff, List.isEmpty_iff, List.isEmpty_iff]
    exact List.mapIdx_eq_nil_iff
  have declared :
      List.zipWith (fun (entry : LocalVariable) name =>
          names.graph.sigWritten entry.type ++ " " ++ name)
        names.reread.body.locals names.localNames =
      List.zipWith (fun (entry : LocalVariable) name =>
          names.graph.sigWritten entry.type ++ " " ++ name)
        names.body.locals names.localNames := by
    apply List.ext_getElem?
    intro index
    rw [List.getElem?_zipWith, List.getElem?_zipWith, entries]
    cases names.body.locals[index]? <;> cases names.localNames[index]? <;> rfl
  rw [localsWritten, localsWritten, localNames_reread, empty]
  change (if names.body.locals.isEmpty && !names.body.initLocals then _ else
    [".locals" ++ _ ++ " (" ++ commaSeparated (List.zipWith _ _ _) ++ ")"]) = _
  rw [← declared]
  rfl

/-- The word that a local variable is printed as. -/
def localWord (slot : UInt16) : Lexeme :=
  match names.localNames[slot.toNat]? with
  | some name => .name name
  | none => .int slot.toNat

theorem text_localWord (slot : UInt16) :
    (names.localWord slot).text = names.localWritten slot := by
  rw [localWord, localWritten]
  cases names.localNames[slot.toNat]? <;> rfl

theorem isWord_localWord (slot : UInt16) : (names.localWord slot).IsWord := by
  rw [localWord]
  cases found : names.localNames[slot.toNat]? with
  | none =>
      exact isWord_slot slot
  | some name =>
      rw [getElem?_localNames, Option.map_eq_some_iff] at found
      obtain ⟨entry, -, rfl⟩ := found
      exact isName_of_isPlainName
        (isPlainName_readableName (by decide) slot.toNat entry.name)

end BodyNames

end NullWeave
