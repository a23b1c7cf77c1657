import NullWeave.Proofs.Code.Decoding
import NullWeave.Proofs.Code.EncodedLayout

/-!
# Equal code comes of equal instructions

Code is read back operation by operation, so two bodies with the same code are
read back as the same operations.  Those have the same widths, and a
displacement with the offset that it is counted from gives an offset, at which
one instruction only stands.  So targets stand at the same positions too.

The two bodies may belong to different graphs: a token says the full name of
what it stands for and no more.
-/

namespace NullWeave

/--
Do two operations of two graphs tell the same?

They are of the same kind with the same operand.  A field, method or type has the
same full name and the same table of tokens, and targets are related.
-/
inductive Operation.Alike
    (graph other : Graph) (related : InstrId → InstrId → Prop) :
    Operation → Operation → Prop where
  | standsAlone {operation : Operation} :
      operation.standsAlone = true →
      Alike graph other related operation operation
  | ldStr (text : String) :
      Alike graph other related (.ldStr text) (.ldStr text)
  | ldObj {type otherType : Signature} :
      TokenPool.sigTable type = TokenPool.sigTable otherType →
      graph.sigName type = other.sigName otherType →
      Alike graph other related (.ldObj type) (.ldObj otherType)
  | box {type otherType : Signature} :
      TokenPool.sigTable type = TokenPool.sigTable otherType →
      graph.sigName type = other.sigName otherType →
      Alike graph other related (.box type) (.box otherType)
  | ldFld {field otherField : FieldId} :
      (graph.field field).access.isStatic =
        (other.field otherField).access.isStatic →
      graph.fieldName field = other.fieldName otherField →
      Alike graph other related (.ldFld field) (.ldFld otherField)
  | ldFldA {field otherField : FieldId} :
      (graph.field field).access.isStatic =
        (other.field otherField).access.isStatic →
      graph.fieldName field = other.fieldName otherField →
      Alike graph other related (.ldFldA field) (.ldFldA otherField)
  | stFld {field otherField : FieldId} :
      (graph.field field).access.isStatic =
        (other.field otherField).access.isStatic →
      graph.fieldName field = other.fieldName otherField →
      Alike graph other related (.stFld field) (.stFld otherField)
  | call {method otherMethod : MethodId} :
      graph.methodName method = other.methodName otherMethod →
      Alike graph other related (.call method) (.call otherMethod)
  | callVirt {method otherMethod : MethodId} :
      graph.methodName method = other.methodName otherMethod →
      Alike graph other related (.callVirt method) (.callVirt otherMethod)
  | newObj {constructor otherConstructor : MethodId} :
      graph.methodName constructor = other.methodName otherConstructor →
      Alike graph other related (.newObj constructor)
        (.newObj otherConstructor)
  | branch (kind : BranchKind) (form : BranchForm)
      {target otherTarget : InstrId} :
      related target otherTarget →
      Alike graph other related (.branch kind form target)
        (.branch kind form otherTarget)
  | switch {targets otherTargets : List InstrId} :
      List.Forall₂ related targets otherTargets →
      Alike graph other related (.switch targets) (.switch otherTargets)

/-- Operations stay alike where more targets are related. -/
theorem Operation.Alike.imp
    {graph other : Graph} {related wider : InstrId → InstrId → Prop}
    {operation otherOperation : Operation}
    (alike : operation.Alike graph other related otherOperation)
    (implies : ∀ target otherTarget,
      related target otherTarget → wider target otherTarget) :
    operation.Alike graph other wider otherOperation := by
  cases alike with
  | branch kind form same =>
      exact .branch kind form (implies _ _ same)
  | switch same =>
      exact .switch (same.imp implies)
  | standsAlone alone =>
      exact .standsAlone alone
  | ldStr text =>
      exact .ldStr text
  | ldObj table name =>
      exact .ldObj table name
  | box table name =>
      exact .box table name
  | ldFld access name =>
      exact .ldFld access name
  | ldFldA access name =>
      exact .ldFldA access name
  | stFld access name =>
      exact .stFld access name
  | call name =>
      exact .call name
  | callVirt name =>
      exact .callVirt name
  | newObj name =>
      exact .newObj name

/-- What is related to a common list is related item by item. -/
theorem forall₂_of_common
    {α β γ : Type} {left : α → γ → Prop} {right : β → γ → Prop}
    {items : List α} {others : List β} {common : List γ}
    (here : List.Forall₂ left items common)
    (there : List.Forall₂ right others common) :
    List.Forall₂ (fun item other => ∃ same, left item same ∧
      right other same) items others := by
  induction here generalizing others with
  | nil =>
      cases there
      exact .nil
  | cons first _ inductionHypothesis =>
      cases there with
      | cons second behind =>
          exact .cons ⟨_, first, second⟩ (inductionHypothesis behind)

namespace DecodedOperation

/-! ## Operations that are read back as the same -/

section Operations

variable
    {graph other : Graph} {pool : TokenPool}
    {displacement otherDisplacement : InstrId → Except CodeError Int}
    {operation otherOperation : Operation} {decoded : DecodedOperation}

/-- The number of bytes that an operation was read from. -/
def width : DecodedOperation → Nat
  | .whole operation => operation.width
  | .branch _ form _ => Operation.branchWidth form
  | .switch distances => 1 + 4 + 4 * distances.length
  | _ => 5

theorem Tells.width_eq
    (tells : decoded.Tells graph pool displacement operation) :
    operation.width = decoded.width := by
  cases decoded with
  | whole told =>
      obtain ⟨rfl, -⟩ := tells
      rfl
  | branch kind form distance =>
      obtain ⟨target, rfl, -⟩ := tells
      rfl
  | switch distances =>
      obtain ⟨targets, rfl, told⟩ := tells
      rw [Operation.width, width, told.length_eq]
  | _ =>
      obtain ⟨operand, rfl, -⟩ := tells
      rfl

/-- What the same decoded operation tells is alike, but for the targets. -/
theorem Tells.alike
    (issued : pool.Issued)
    (tells : decoded.Tells graph pool displacement operation)
    (otherTells :
      decoded.Tells other pool otherDisplacement otherOperation) :
    operation.Alike graph other
      (fun target otherTarget => ∃ distance,
        displacement target = .ok distance ∧
          otherDisplacement otherTarget = .ok distance)
      otherOperation := by
  cases decoded with
  | whole told =>
      obtain ⟨rfl, alone⟩ := tells
      obtain ⟨rfl, -⟩ := otherTells
      exact .standsAlone alone
  | ldStr token =>
      obtain ⟨text, rfl, names⟩ := tells
      obtain ⟨otherText, rfl, otherNames⟩ := otherTells
      obtain ⟨-, rfl⟩ := issued.names_unique names otherNames
      exact .ldStr text
  | ldObj token =>
      obtain ⟨type, rfl, names⟩ := tells
      obtain ⟨otherType, rfl, otherNames⟩ := otherTells
      obtain ⟨table, name⟩ := issued.names_unique names otherNames
      exact .ldObj table name
  | box token =>
      obtain ⟨type, rfl, names⟩ := tells
      obtain ⟨otherType, rfl, otherNames⟩ := otherTells
      obtain ⟨table, name⟩ := issued.names_unique names otherNames
      exact .box table name
  | ldFld isStatic token =>
      obtain ⟨field, rfl, access, names⟩ := tells
      obtain ⟨otherField, rfl, otherAccess, otherNames⟩ := otherTells
      exact .ldFld (access.trans otherAccess.symm)
        (issued.names_unique names otherNames).2
  | ldFldA isStatic token =>
      obtain ⟨field, rfl, access, names⟩ := tells
      obtain ⟨otherField, rfl, otherAccess, otherNames⟩ := otherTells
      exact .ldFldA (access.trans otherAccess.symm)
        (issued.names_unique names otherNames).2
  | stFld isStatic token =>
      obtain ⟨field, rfl, access, names⟩ := tells
      obtain ⟨otherField, rfl, otherAccess, otherNames⟩ := otherTells
      exact .stFld (access.trans otherAccess.symm)
        (issued.names_unique names otherNames).2
  | call token =>
      obtain ⟨method, rfl, names⟩ := tells
      obtain ⟨otherMethod, rfl, otherNames⟩ := otherTells
      exact .call (issued.names_unique names otherNames).2
  | callVirt token =>
      obtain ⟨method, rfl, names⟩ := tells
      obtain ⟨otherMethod, rfl, otherNames⟩ := otherTells
      exact .callVirt (issued.names_unique names otherNames).2
  | newObj token =>
      obtain ⟨constructor, rfl, names⟩ := tells
      obtain ⟨otherConstructor, rfl, otherNames⟩ := otherTells
      exact .newObj (issued.names_unique names otherNames).2
  | branch kind form distance =>
      obtain ⟨target, rfl, told⟩ := tells
      obtain ⟨otherTarget, rfl, otherTold⟩ := otherTells
      exact .branch kind form ⟨distance, told, otherTold⟩
  | switch distances =>
      obtain ⟨targets, rfl, told⟩ := tells
      obtain ⟨otherTargets, rfl, otherTold⟩ := otherTells
      exact .switch (forall₂_of_common told otherTold)

end Operations

/-! ## Code that is read back -/

/-- Is code read back as some operations, one after another to its end? -/
inductive ReadAs : List UInt8 → List DecodedOperation → Prop where
  | nil : ReadAs [] []
  | cons {code rest : List UInt8} {first : DecodedOperation}
      {others : List DecodedOperation} :
      read? code = some (first, rest) → ReadAs rest others →
      ReadAs code (first :: others)

/-- Code is read back in one way only. -/
theorem ReadAs.unique
    {code : List UInt8} {operations others : List DecodedOperation}
    (here : ReadAs code operations) (there : ReadAs code others) :
    operations = others := by
  induction here generalizing others with
  | nil =>
      cases there with
      | nil =>
          rfl
      | cons read _ =>
          cases read
  | cons read _ inductionHypothesis =>
      cases there with
      | nil =>
          cases read
      | cons otherRead behind =>
          cases read.symm.trans otherRead
          rw [inductionHypothesis behind]

/-- Do decoded operations tell what instructions are that start at an offset? -/
inductive TellFrom
    (graph : Graph) (pool : TokenPool) (placed : List (InstrId × Nat)) :
    Nat → List DecodedOperation → List Instruction → Prop where
  | nil (start : Nat) : TellFrom graph pool placed start [] []
  | cons {start : Nat} {decoded : DecodedOperation}
      {instruction : Instruction} {others : List DecodedOperation}
      {rest : List Instruction} :
      decoded.Tells graph pool
        (MethodBody.displacementFrom placed (start + instruction.width))
        instruction.operation →
      TellFrom graph pool placed (start + instruction.width) others rest →
      TellFrom graph pool placed start (decoded :: others)
        (instruction :: rest)

section Code

variable
    {graph other : Graph} {pool final : TokenPool}
    {placed otherPlaced : List (InstrId × Nat)} {start : Nat}
    {operations : List DecodedOperation}
    {instructions otherInstructions : List Instruction}

/-- The code of instructions is read back as what tells of them. -/
theorem exists_readAs_of_encodeFrom
    {code : List UInt8} (small : codeSize instructions < 2 ^ 31)
    (ran : (MethodBody.encodeFrom graph placed start instructions).run
      pool = (.ok code, final)) :
    ∃ operations,
      ReadAs code operations ∧
        TellFrom graph final placed start operations instructions := by
  induction instructions generalizing start pool code with
  | nil =>
      cases ran
      exact ⟨[], .nil, .nil start⟩
  | cons instruction rest inductionHypothesis =>
      obtain ⟨bytes, between, here, later⟩ := run_bind_eq_ok ran
      obtain ⟨others, last, there, written⟩ := run_bind_eq_ok later
      cases written
      rw [codeSize_cons] at small
      obtain ⟨operations, readRest, tellRest⟩ :=
        inductionHypothesis (by omega) there
      have narrow : instruction.operation.width < 2 ^ 31 := by
        change instruction.width < 2 ^ 31
        omega
      obtain ⟨decoded, read, tells⟩ :=
        exists_read?_of_encode narrow here others
      exact ⟨decoded :: operations, .cons read readRest,
        .cons (tells.mono (MethodBody.extends_of_encodeFrom there))
          tellRest⟩

/-- What is told, is told later too. -/
theorem TellFrom.mono
    (tell : TellFrom graph pool placed start operations instructions)
    (onwards : pool.Extends final) :
    TellFrom graph final placed start operations instructions := by
  induction tell with
  | nil =>
      exact .nil _
  | cons tells _ inductionHypothesis =>
      exact .cons (tells.mono onwards) inductionHypothesis

theorem TellFrom.widths
    (tell : TellFrom graph pool placed start operations instructions) :
    instructions.map (·.width) = operations.map (·.width) := by
  induction tell with
  | nil =>
      rfl
  | cons tells _ inductionHypothesis =>
      rw [List.map_cons, List.map_cons, inductionHypothesis, ← tells.width_eq]
      rfl

/-- Instructions that are told of by the same operations are alike, but for the targets. -/
theorem TellFrom.alike
    (issued : pool.Issued)
    (tell : TellFrom graph pool placed start operations instructions)
    (otherTell :
      TellFrom other pool otherPlaced start operations
        otherInstructions) :
    List.Forall₂
      (fun instruction otherInstruction =>
        instruction.operation.Alike graph other
          (fun target otherTarget => ∃ finish distance,
            MethodBody.displacementFrom placed finish target =
                .ok distance ∧
              MethodBody.displacementFrom otherPlaced finish otherTarget =
                .ok distance)
          otherInstruction.operation)
      instructions otherInstructions := by
  induction tell generalizing otherInstructions with
  | nil =>
      cases otherTell
      exact .nil
  | @cons start decoded instruction others rest tells _
      inductionHypothesis =>
      cases otherTell with
      | @cons _ _ otherInstruction _ otherRest otherTells otherBehind =>
          have width : otherInstruction.width = instruction.width :=
            otherTells.width_eq.trans tells.width_eq.symm
          rw [width] at otherTells otherBehind
          refine .cons ?_ (inductionHypothesis otherBehind)
          exact (tells.alike issued otherTells).imp
            fun _ _ same => ⟨_, same⟩

end Code

end DecodedOperation

/-! ## Positions -/

theorem offsetAt_eq_of_widths
    {instructions others : List Instruction}
    (same : instructions.map (·.width) = others.map (·.width)) :
    offsetAt instructions = offsetAt others := by
  have size : ∀ some : List Instruction,
      codeSize some = (some.map (·.width)).sum := by
    intro some
    induction some with
    | nil =>
        rfl
    | cons instruction rest inductionHypothesis =>
        rw [codeSize_cons, inductionHypothesis, List.map_cons,
          List.sum_cons]
  funext index
  rw [offsetAt, offsetAt, size, size, List.map_take, List.map_take, same]

theorem offsetAt_lt
    {instructions : List Instruction} {first last : Nat}
    (ordered : first < last) (inside : last ≤ instructions.length) :
    offsetAt instructions first < offsetAt instructions last := by
  have here := List.getElem?_eq_getElem (Nat.lt_of_lt_of_le ordered inside)
  have step := offsetAt_succ here
  have positive := instructions[first].operation.width_pos
  have onwards := offsetAt_add_sizeBetween instructions
    (show first + 1 ≤ last from ordered)
  rw [step] at onwards
  change 0 < instructions[first].width at positive
  omega

/-- No two instructions start at the same offset. -/
theorem offsetAt_injective
    {instructions : List Instruction} {first second : Nat}
    (firstInside : first ≤ instructions.length)
    (secondInside : second ≤ instructions.length)
    (same : offsetAt instructions first = offsetAt instructions second) :
    first = second := by
  rcases Nat.lt_trichotomy first second with before | equal | behind
  · have less := offsetAt_lt before secondInside
    omega
  · exact equal
  · have less := offsetAt_lt behind firstInside
    omega

namespace MethodBody

/-- A displacement leads to the offset of an instruction. -/
theorem exists_indexOf?_of_displacementFrom
    {body : MethodBody}
    (distinct : (identities body.instructions).Nodup)
    {finish : Nat} {target : InstrId} {distance : Int}
    (known : displacementFrom (placements body.instructions) finish
      target = .ok distance) :
    ∃ index, body.indexOf? target = some index ∧
      index ≤ body.instructions.length ∧
      (finish : Int) + distance = offsetAt body.instructions index := by
  obtain ⟨offset, found, reaches⟩ := displacementFrom_eq_ok known
  obtain ⟨entry, last, rfl⟩ := Option.map_eq_some_iff.mp found
  obtain ⟨id, offset⟩ := entry
  obtain rfl : id = target := by simpa using List.find?_some last
  obtain ⟨index, instruction, here, sameId, rfl⟩ :=
    mem_placements.mp (List.mem_reverse.mp (List.mem_of_find?_eq_some last))
  exact ⟨index,
    (indexOf?_eq_some_iff distinct).mpr ⟨instruction, here, sameId⟩,
    Nat.le_of_lt (List.getElem?_eq_some_iff.mp here).1, reaches⟩

/--
Encoded code can be decoded in one way only.

If two bodies are encoded one after the other with a pool of tokens, and the code
is the same, then they have as many instructions, and at each position the same
operation with the same operand.  Members and types have the same full names, and
targets stand at the same positions.
-/
theorem alike_of_code_eq
    {graph other : Graph} {body otherBody : MethodBody}
    {returnsValue otherReturnsValue : Bool}
    {pool between final : TokenPool} {encoded otherEncoded : EncodedBody}
    (issued : pool.Issued)
    (distinct : (identities body.instructions).Nodup)
    (otherDistinct : (identities otherBody.instructions).Nodup)
    (small : codeSize body.instructions < 2 ^ 31)
    (otherSmall : codeSize otherBody.instructions < 2 ^ 31)
    (ran : (body.encode graph returnsValue).run pool =
      (.ok encoded, between))
    (otherRan : (otherBody.encode other otherReturnsValue).run between =
      (.ok otherEncoded, final))
    (sameCode : encoded.code = otherEncoded.code) :
    List.Forall₂
      (fun instruction otherInstruction =>
        instruction.operation.Alike graph other
          (fun target otherTarget => ∃ position,
            body.indexOf? target = some position ∧
              otherBody.indexOf? otherTarget = some position)
          otherInstruction.operation)
      body.instructions otherBody.instructions := by
  have issuedFinal : final.Issued :=
    kept_of_encodeFrom
      (fun _ _ _ _ _ issued given => issued.token given)
      (kept_of_encodeFrom
        (fun _ _ _ _ _ issued given => issued.token given) issued
        (of_run_encode ran).1)
      (of_run_encode otherRan).1
  obtain ⟨operations, read, tell⟩ :=
    DecodedOperation.exists_readAs_of_encodeFrom small
      (of_run_encode ran).1
  obtain ⟨others, otherRead, otherTell⟩ :=
    DecodedOperation.exists_readAs_of_encodeFrom otherSmall
      (of_run_encode otherRan).1
  rw [sameCode] at read
  obtain rfl := read.unique otherRead
  have sameOffsets :
      offsetAt body.instructions = offsetAt otherBody.instructions :=
    offsetAt_eq_of_widths (tell.widths.trans otherTell.widths.symm)
  have tellFinal :=
    tell.mono (extends_of_encodeFrom (of_run_encode otherRan).1)
  refine (tellFinal.alike issuedFinal otherTell).imp
    fun _ _ alike => alike.imp ?_
  rintro target otherTarget ⟨finish, distance, known, otherKnown⟩
  obtain ⟨position, found, inside, reaches⟩ :=
    exists_indexOf?_of_displacementFrom distinct known
  obtain ⟨otherPosition, otherFound, otherInside, otherReaches⟩ :=
    exists_indexOf?_of_displacementFrom otherDistinct otherKnown
  have sameLength :
      body.instructions.length = otherBody.instructions.length := by
    have lengths := congrArg List.length
      (tell.widths.trans otherTell.widths.symm)
    simpa using lengths
  have same : position = otherPosition := by
    rw [← sameLength] at otherInside
    refine offsetAt_injective inside otherInside ?_
    rw [sameOffsets]
    rw [sameOffsets] at reaches
    omega
  exact ⟨position, found, same ▸ otherFound⟩

/-! ## A body and the same one under other identities -/

/-- A test that skips a text, with identities in order. -/
def skipsText : MethodBody :=
  append {}
    [.ldArg 0, .branch .ifTrue .short ⟨4⟩, .ldStr "text", .pop, .ret]

/-- The same operations, with identities from the end. -/
def skipsTextBackwards : MethodBody where
  instructions :=
    [⟨⟨4⟩, .ldArg 0⟩, ⟨⟨3⟩, .branch .ifTrue .short ⟨0⟩⟩,
      ⟨⟨2⟩, .ldStr "text"⟩, ⟨⟨1⟩, .pop⟩, ⟨⟨0⟩, .ret⟩]

theorem alike_of_code_eq_skipsText :
    ∃ encoded otherEncoded pool,
      (skipsText.encode {} false).run {} = (.ok encoded, pool) ∧
        (skipsTextBackwards.encode {} false).run pool =
          (.ok otherEncoded, pool) ∧
        encoded.code =
          [0x02, 0x2D, 0x06, 0x72, 0x01, 0x00, 0x00, 0x70, 0x26, 0x2A] ∧
        List.Forall₂
          (fun instruction otherInstruction =>
            instruction.operation.Alike {} {}
              (fun target otherTarget => ∃ position,
                skipsText.indexOf? target = some position ∧
                  skipsTextBackwards.indexOf? otherTarget = some position)
              otherInstruction.operation)
          skipsText.instructions skipsTextBackwards.instructions := by
  have ran :
      (skipsText.encode {} false).run {} =
        (.ok
          { code :=
              [0x02, 0x2D, 0x06, 0x72, 0x01, 0x00, 0x00, 0x70, 0x26, 0x2A]
            maxStack := 1
            initLocals := false
            instructionOffsets :=
              [(⟨0⟩, 0), (⟨1⟩, 1), (⟨2⟩, 3), (⟨3⟩, 8), (⟨4⟩, 9)] },
          ⟨[(0x70, "text")]⟩) := by
    rfl
  have otherRan :
      (skipsTextBackwards.encode {} false).run ⟨[(0x70, "text")]⟩ =
        (.ok
          { code :=
              [0x02, 0x2D, 0x06, 0x72, 0x01, 0x00, 0x00, 0x70, 0x26, 0x2A]
            maxStack := 1
            initLocals := false
            instructionOffsets :=
              [(⟨4⟩, 0), (⟨3⟩, 1), (⟨2⟩, 3), (⟨1⟩, 8), (⟨0⟩, 9)] },
          ⟨[(0x70, "text")]⟩) := by
    rfl
  exact ⟨_, _, _, ran, otherRan, rfl,
    alike_of_code_eq .empty (by decide) (by decide) (by decide) (by decide)
      ran otherRan rfl⟩

end MethodBody

end NullWeave
