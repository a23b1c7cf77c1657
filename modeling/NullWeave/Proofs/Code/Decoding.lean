import NullWeave.Proofs.Code.OperationBytes
import NullWeave.Proofs.Code.TokenRows

/-!
# Reading operations back

The first byte of an operation, or the first two, say which one it is and how
many bytes its operand has.  So encoded code can be cut into its operations
again, one after another and whatever follows.  What a cut shows is an operation
without names: a string, a member or a type is a token, and a target is a
displacement.
-/

namespace NullWeave

/-- An operation as its bytes tell it. -/
inductive DecodedOperation where
  /-- All of the operation is told. -/
  | whole (operation : Operation)
  | ldStr (token : Token)
  | ldObj (token : Token)
  | box (token : Token)
  | ldFld (isStatic : Bool) (token : Token)
  | ldFldA (isStatic : Bool) (token : Token)
  | stFld (isStatic : Bool) (token : Token)
  | call (token : Token)
  | callVirt (token : Token)
  | newObj (token : Token)
  | branch (kind : BranchKind) (form : BranchForm) (distance : Int)
  | switch (distances : List Int)

/-- What an opcode says of the bytes behind it. -/
inductive OperandKind where
  /-- There are none. -/
  | absent (operation : Operation)
  /-- The number of a slot. -/
  | slot (width : Nat) (operation : UInt16 → Operation)
  /-- A constant. -/
  | constant (width : Nat)
  | token (decoded : Token → DecodedOperation)
  /-- The displacement of a branch. -/
  | displacement (kind : BranchKind) (form : BranchForm)
  /-- The number of arms, then as many displacements. -/
  | arms

namespace OperandKind

/-- What follows an opcode of one byte. -/
def ofByte? : UInt8 → Option OperandKind
  | 0x00 => some (.absent .nop)
  | 0x02 => some (.absent (.ldArg 0))
  | 0x03 => some (.absent (.ldArg 1))
  | 0x04 => some (.absent (.ldArg 2))
  | 0x05 => some (.absent (.ldArg 3))
  | 0x06 => some (.absent (.ldLoc 0))
  | 0x07 => some (.absent (.ldLoc 1))
  | 0x08 => some (.absent (.ldLoc 2))
  | 0x09 => some (.absent (.ldLoc 3))
  | 0x0A => some (.absent (.stLoc 0))
  | 0x0B => some (.absent (.stLoc 1))
  | 0x0C => some (.absent (.stLoc 2))
  | 0x0D => some (.absent (.stLoc 3))
  | 0x0E => some (.slot 1 .ldArg)
  | 0x0F => some (.slot 1 .ldArgA)
  | 0x10 => some (.slot 1 .stArg)
  | 0x11 => some (.slot 1 .ldLoc)
  | 0x12 => some (.slot 1 .ldLocA)
  | 0x13 => some (.slot 1 .stLoc)
  | 0x14 => some (.absent .ldNull)
  | 0x15 => some (.absent (.ldcI4 (-1)))
  | 0x16 => some (.absent (.ldcI4 0))
  | 0x17 => some (.absent (.ldcI4 1))
  | 0x18 => some (.absent (.ldcI4 2))
  | 0x19 => some (.absent (.ldcI4 3))
  | 0x1A => some (.absent (.ldcI4 4))
  | 0x1B => some (.absent (.ldcI4 5))
  | 0x1C => some (.absent (.ldcI4 6))
  | 0x1D => some (.absent (.ldcI4 7))
  | 0x1E => some (.absent (.ldcI4 8))
  | 0x1F => some (.constant 1)
  | 0x20 => some (.constant 4)
  | 0x25 => some (.absent .dup)
  | 0x26 => some (.absent .pop)
  | 0x28 => some (.token .call)
  | 0x2A => some (.absent .ret)
  | 0x2B => some (.displacement .always .short)
  | 0x2C => some (.displacement .ifFalse .short)
  | 0x2D => some (.displacement .ifTrue .short)
  | 0x38 => some (.displacement .always .long)
  | 0x39 => some (.displacement .ifFalse .long)
  | 0x3A => some (.displacement .ifTrue .long)
  | 0x45 => some .arms
  | 0x50 => some (.absent .ldIndRef)
  | 0x51 => some (.absent .stIndRef)
  | 0x58 => some (.absent .add)
  | 0x59 => some (.absent .sub)
  | 0x6F => some (.token .callVirt)
  | 0x71 => some (.token .ldObj)
  | 0x72 => some (.token .ldStr)
  | 0x73 => some (.token .newObj)
  | 0x7A => some (.absent .throw)
  | 0x7B => some (.token (.ldFld false))
  | 0x7C => some (.token (.ldFldA false))
  | 0x7D => some (.token (.stFld false))
  | 0x7E => some (.token (.ldFld true))
  | 0x7F => some (.token (.ldFldA true))
  | 0x80 => some (.token (.stFld true))
  | 0x8C => some (.token .box)
  | 0xDC => some (.absent .endFinally)
  | 0xDD => some (.displacement .leave .long)
  | 0xDE => some (.displacement .leave .short)
  | _ => none

/-- What follows an opcode of two bytes, by its second one. -/
def ofSecondByte? : UInt8 → Option OperandKind
  | 0x01 => some (.absent .ceq)
  | 0x09 => some (.slot 2 .ldArg)
  | 0x0A => some (.slot 2 .ldArgA)
  | 0x0B => some (.slot 2 .stArg)
  | 0x0C => some (.slot 2 .ldLoc)
  | 0x0D => some (.slot 2 .ldLocA)
  | 0x0E => some (.slot 2 .stLoc)
  | _ => none

end OperandKind

/-- Does an operation refer neither to a member, a type or a string, nor to a target? -/
def Operation.standsAlone : Operation → Bool
  | .ldStr _ | .ldObj _ | .box _ => false
  | .ldFld _ | .ldFldA _ | .stFld _ => false
  | .call _ | .callVirt _ | .newObj _ => false
  | .branch .. | .switch _ => false
  | _ => true

namespace DecodedOperation

/-- Bytes cut behind a number of them, if there are as many. -/
def cut? (count : Nat) (bytes : List UInt8) :
    Option (List UInt8 × List UInt8) :=
  if count ≤ bytes.length then
    some (bytes.take count, bytes.drop count)
  else
    none

/-- The displacements of arms, and what is behind them. -/
def readArms? : Nat → List UInt8 → Option (List Int × List UInt8)
  | 0, bytes => some ([], bytes)
  | count + 1, bytes => do
      let (arm, others) ← cut? 4 bytes
      let (arms, rest) ← readArms? count others
      pure (signedOf arm :: arms, rest)

/-- An operand of a kind that is known, and what is behind it. -/
def readOperand? :
    OperandKind → List UInt8 → Option (DecodedOperation × List UInt8)
  | .absent operation, bytes => some (.whole operation, bytes)
  | .slot width operation, bytes => do
      let (slot, rest) ← cut? width bytes
      pure (.whole (operation (UInt16.ofNat (unsignedOf slot))), rest)
  | .constant width, bytes => do
      let (value, rest) ← cut? width bytes
      pure (.whole (.ldcI4 (Int32.ofInt (signedOf value))), rest)
  | .token decoded, bytes => do
      let (token, rest) ← cut? 4 bytes
      pure (decoded (.ofBytes token), rest)
  | .displacement kind form, bytes => do
      let (distance, rest) ← cut? (Operation.displacementWidth form) bytes
      pure (.branch kind form (signedOf distance), rest)
  | .arms, bytes => do
      let (count, others) ← cut? 4 bytes
      let (distances, rest) ← readArms? (unsignedOf count) others
      pure (.switch distances, rest)

/-- The first operation of some code, and the code behind it. -/
def read? : List UInt8 → Option (DecodedOperation × List UInt8)
  | 0xFE :: second :: bytes => do
      readOperand? (← OperandKind.ofSecondByte? second) bytes
  | first :: bytes => do
      readOperand? (← OperandKind.ofByte? first) bytes
  | [] => none


/-! ## What a decoded operation tells of the one that was encoded -/

/--
Does a decoded operation tell what an operation is?

Tokens stand for what a pool says, and `displacement` gives how far a target
lies from the end of the operation.
-/
def Tells
    (graph : Graph) (pool : TokenPool)
    (displacement : InstrId → Except CodeError Int) :
    DecodedOperation → Operation → Prop
  | .whole told, operation =>
      operation = told ∧ told.standsAlone = true
  | .ldStr token, operation =>
      ∃ text, operation = .ldStr text ∧
        pool.Names token TokenPool.userString text
  | .ldObj token, operation =>
      ∃ type, operation = .ldObj type ∧
        pool.Names token (TokenPool.sigTable type) (graph.sigName type)
  | .box token, operation =>
      ∃ type, operation = .box type ∧
        pool.Names token (TokenPool.sigTable type) (graph.sigName type)
  | .ldFld isStatic token, operation =>
      ∃ field, operation = .ldFld field ∧
        (graph.field field).access.isStatic = isStatic ∧
        pool.Names token TokenPool.memberRef (graph.fieldName field)
  | .ldFldA isStatic token, operation =>
      ∃ field, operation = .ldFldA field ∧
        (graph.field field).access.isStatic = isStatic ∧
        pool.Names token TokenPool.memberRef (graph.fieldName field)
  | .stFld isStatic token, operation =>
      ∃ field, operation = .stFld field ∧
        (graph.field field).access.isStatic = isStatic ∧
        pool.Names token TokenPool.memberRef (graph.fieldName field)
  | .call token, operation =>
      ∃ method, operation = .call method ∧
        pool.Names token TokenPool.memberRef (graph.methodName method)
  | .callVirt token, operation =>
      ∃ method, operation = .callVirt method ∧
        pool.Names token TokenPool.memberRef (graph.methodName method)
  | .newObj token, operation =>
      ∃ constructor, operation = .newObj constructor ∧
        pool.Names token TokenPool.memberRef
          (graph.methodName constructor)
  | .branch kind form distance, operation =>
      ∃ target, operation = .branch kind form target ∧
        displacement target = .ok distance
  | .switch distances, operation =>
      ∃ targets, operation = .switch targets ∧
        List.Forall₂ (fun target distance =>
          displacement target = .ok distance) targets distances

variable
    {graph : Graph} {pool after : TokenPool} {id : InstrId}
    {displacement : InstrId → Except CodeError Int}
    {operation : Operation} {decoded : DecodedOperation}

/-- What tokens stand for, they stand for later too. -/
theorem Tells.mono
    (tells : decoded.Tells graph pool displacement operation)
    (onwards : pool.Extends after) :
    decoded.Tells graph after displacement operation := by
  cases decoded with
  | whole | branch | switch =>
      exact tells
  | ldStr token | ldObj token | box token | call token | callVirt token
  | newObj token =>
      obtain ⟨operand, same, names⟩ := tells
      exact ⟨operand, same, names.mono onwards⟩
  | ldFld isStatic token | ldFldA isStatic token | stFld isStatic token =>
      obtain ⟨field, same, access, names⟩ := tells
      exact ⟨field, same, access, names.mono onwards⟩

/-! ## Operands -/

theorem cut?_append
    {count : Nat} {front : List UInt8} (length : front.length = count)
    (rest : List UInt8) :
    cut? count (front ++ rest) = some (front, rest) := by
  subst length
  rw [cut?, if_pos (by simp), List.take_left, List.drop_left]

theorem readArms?_of_jumpBytes
    {targets : List InstrId} {arms : List (List UInt8)}
    (written : List.Forall₂ (fun target arm =>
      Operation.jumpBytes id displacement 4 target = .ok arm) targets arms)
    (rest : List UInt8) :
    ∃ distances,
      readArms? targets.length (arms.flatten ++ rest) =
          some (distances, rest) ∧
        List.Forall₂ (fun target distance =>
          displacement target = .ok distance) targets distances := by
  induction written with
  | nil =>
      exact ⟨[], rfl, .nil⟩
  | @cons target arm others arms first _ inductionHypothesis =>
      obtain ⟨distance, known, there⟩ :=
        Operation.jumpBytes_eq_ok_iff.mp first
      obtain ⟨length, told⟩ :=
        Operation.signedOf_displacementBytes (by decide) there
      obtain ⟨distances, read, all⟩ := inductionHypothesis
      refine ⟨distance :: distances, ?_, .cons known all⟩
      rw [List.flatten_cons, List.append_assoc, List.length_cons,
        readArms?, cut?_append length]
      change (readArms? others.length (arms.flatten ++ rest) >>= _) = _
      rw [read, told]
      rfl

theorem readOperand?_token
    (decoded : Token → DecodedOperation) (token : Token)
    (rest : List UInt8) :
    readOperand? (.token decoded) (token.bytes ++ rest) =
      some (decoded token, rest) := by
  rw [readOperand?, cut?_append token.length_bytes]
  simp

theorem readOperand?_slot
    (width : Nat) (operation : UInt16 → Operation) (slot : UInt16)
    (fits : slot.toNat < 256 ^ width) (rest : List UInt8) :
    readOperand? (.slot width operation)
        (littleEndian width slot.toNat ++ rest) =
      some (.whole (operation slot), rest) := by
  rw [readOperand?, cut?_append (length_littleEndian width _)]
  simp [unsignedOf_littleEndian, Nat.mod_eq_of_lt fits]

theorem readOperand?_constant
    (width : Nat) (value : Int32)
    (atLeast : -(256 ^ width : Nat) ≤ 2 * value.toInt)
    (below : 2 * value.toInt < (256 ^ width : Nat))
    (rest : List UInt8) :
    readOperand? (.constant width)
        (signedLittleEndian width value.toInt ++ rest) =
      some (.whole (.ldcI4 value), rest) := by
  rw [readOperand?, cut?_append (length_signedLittleEndian width _)]
  simp [signedOf_signedLittleEndian atLeast below]

/-! ## Operations -/

theorem read?_of_ofByte?
    {first : UInt8} {kind : OperandKind}
    (known : OperandKind.ofByte? first = some kind) (bytes : List UInt8) :
    read? (first :: bytes) = readOperand? kind bytes := by
  unfold read?
  split
  · rename_i two
    cases two
    cases known
  · rename_i one
    cases one
    rw [known]
    rfl
  · rename_i none
    cases none

theorem read?_of_ofSecondByte?
    {second : UInt8} {kind : OperandKind}
    (known : OperandKind.ofSecondByte? second = some kind)
    (bytes : List UInt8) :
    read? (0xFE :: second :: bytes) = readOperand? kind bytes := by
  rw [read?, known]
  rfl

theorem read?_slotBytes
    {short long : UInt8} {operation : UInt16 → Operation}
    (shortKind : OperandKind.ofByte? short = some (.slot 1 operation))
    (longKind : OperandKind.ofSecondByte? long = some (.slot 2 operation))
    (slot : UInt16) (rest : List UInt8) :
    read? (Operation.slotBytes slot short long ++ rest) =
      some (.whole (operation slot), rest) := by
  rw [Operation.slotBytes]
  split
  · rename_i small
    have fits : slot.toNat < 256 ^ 1 :=
      Nat.lt_succ_of_le (UInt16.le_iff_toNat_le.mp small)
    exact (read?_of_ofByte? shortKind _).trans
      (readOperand?_slot 1 operation slot fits rest)
  · exact (read?_of_ofSecondByte? longKind _).trans
      (readOperand?_slot 2 operation slot slot.toNat_lt rest)

/-- A slot up to 3 is one of four. -/
theorem forall_le_three
    {holds : UInt16 → Prop}
    (all : holds 0 ∧ holds 1 ∧ holds 2 ∧ holds 3) :
    ∀ slot : UInt16, slot ≤ 3 → holds slot := by
  intro slot small
  have bound : slot.toNat ≤ 3 := UInt16.le_iff_toNat_le.mp small
  have cases : slot = 0 ∨ slot = 1 ∨ slot = 2 ∨ slot = 3 := by
    simp only [← UInt16.toNat_inj]
    change slot.toNat = 0 ∨ slot.toNat = 1 ∨ slot.toNat = 2 ∨
      slot.toNat = 3
    omega
  obtain ⟨zero, one, two, three⟩ := all
  rcases cases with rfl | rfl | rfl | rfl <;> assumption

theorem read?_compactSlotBytes
    {compact short long : UInt8} {operation : UInt16 → Operation}
    (compactKind : ∀ slot : UInt16, slot ≤ 3 →
      OperandKind.ofByte? (compact + slot.toUInt8) =
        some (.absent (operation slot)))
    (shortKind : OperandKind.ofByte? short = some (.slot 1 operation))
    (longKind : OperandKind.ofSecondByte? long = some (.slot 2 operation))
    (slot : UInt16) (rest : List UInt8) :
    read? (Operation.compactSlotBytes slot compact short long ++ rest) =
      some (.whole (operation slot), rest) := by
  rw [Operation.compactSlotBytes]
  split
  · rename_i small
    exact read?_of_ofByte? (compactKind slot small) rest
  · exact read?_slotBytes shortKind longKind slot rest

/-- A constant with an opcode of its own is one of ten. -/
theorem read?_smallConstant
    {value : Int32} (atLeast : -1 ≤ value) (atMost : value ≤ 8)
    (rest : List UInt8) :
    read? (signedLittleEndian 1 (0x16 + value.toInt) ++ rest) =
      some (.whole (.ldcI4 value), rest) := by
  have lower : -1 ≤ value.toInt := Int32.le_iff_toInt_le.mp atLeast
  have upper : value.toInt ≤ 8 := Int32.le_iff_toInt_le.mp atMost
  obtain ⟨step, small, same⟩ :
      ∃ step : Nat, step < 10 ∧ value = Int32.ofInt (step - 1) := by
    refine ⟨(value.toInt + 1).toNat, by omega, ?_⟩
    rw [show ((value.toInt + 1).toNat : Int) - 1 = value.toInt by omega,
      Int32.ofInt_toInt]
  have cases : step = 0 ∨ step = 1 ∨ step = 2 ∨ step = 3 ∨ step = 4 ∨
      step = 5 ∨ step = 6 ∨ step = 7 ∨ step = 8 ∨ step = 9 := by
    omega
  rcases cases with rfl | rfl | rfl | rfl | rfl | rfl | rfl | rfl | rfl |
    rfl <;>
    subst same <;> rfl

theorem read?_constantBytes (value : Int32) (rest : List UInt8) :
    read? (Operation.constantBytes value ++ rest) =
      some (.whole (.ldcI4 value), rest) := by
  rw [Operation.constantBytes]
  split
  · rename_i small
    exact read?_smallConstant small.1 small.2 rest
  · split
    · rename_i narrow
      have lower : -128 ≤ value.toInt := Int32.le_iff_toInt_le.mp narrow.1
      have upper : value.toInt ≤ 127 := Int32.le_iff_toInt_le.mp narrow.2
      have known : OperandKind.ofByte? 0x1F = some (.constant 1) := rfl
      exact (read?_of_ofByte? known _).trans
        (readOperand?_constant 1 value (by omega) (by omega) rest)
    · have lower := value.le_toInt
      have upper := value.toInt_lt
      have known : OperandKind.ofByte? 0x20 = some (.constant 4) := rfl
      exact (read?_of_ofByte? known _).trans
        (readOperand?_constant 4 value (by omega) (by omega) rest)

variable {bytes : List UInt8}

theorem exists_read?_of_withToken
    {opcode table : UInt8} {key : String}
    {kind : Token → DecodedOperation}
    (known : OperandKind.ofByte? opcode = some (.token kind))
    (ran : (Encoder.withToken opcode table key).run pool =
      (.ok bytes, after))
    (rest : List UInt8) :
    ∃ token,
      read? (bytes ++ rest) = some (kind token, rest) ∧
        after.Names token table key := by
  rw [Operation.run_withToken] at ran
  cases given : pool.token table key with
  | error failure =>
      rw [given] at ran
      cases ran
  | ok result =>
      obtain ⟨reached, token⟩ := result
      rw [given] at ran
      cases ran
      exact ⟨token,
        (read?_of_ofByte? known _).trans (readOperand?_token kind token rest),
        (TokenPool.names_of_token given).1⟩

theorem exists_read?_of_branch
    {kind : BranchKind} {form : BranchForm} {target : InstrId}
    (ran : ((Operation.branch kind form target).encode graph id
      displacement).run pool = (.ok bytes, after))
    (rest : List UInt8) :
    ∃ distance,
      read? (bytes ++ rest) = some (.branch kind form distance, rest) ∧
        displacement target = .ok distance := by
  have known :
      OperandKind.ofByte? (Operation.branchOpcode kind form) =
        some (.displacement kind form) := by
    cases kind <;> cases form <;> rfl
  rw [Operation.run_encode_branch] at ran
  cases field : Operation.jumpBytes id displacement
      (Operation.displacementWidth form) target with
  | error failure =>
      rw [field] at ran
      cases ran
  | ok written =>
      rw [field] at ran
      cases ran
      obtain ⟨distance, found, there⟩ :=
        Operation.jumpBytes_eq_ok_iff.mp field
      obtain ⟨length, told⟩ :=
        Operation.signedOf_displacementBytes
          (Operation.displacementWidth_pos form) there
      refine ⟨distance, (read?_of_ofByte? known (written ++ rest)).trans ?_,
        found⟩
      rw [readOperand?, cut?_append length, ← told]
      rfl

theorem exists_read?_of_switch
    {targets : List InstrId} (few : targets.length < 256 ^ 4)
    (ran : ((Operation.switch targets).encode graph id displacement).run
      pool = (.ok bytes, after))
    (rest : List UInt8) :
    ∃ distances,
      read? (bytes ++ rest) = some (.switch distances, rest) ∧
        List.Forall₂ (fun target distance =>
          displacement target = .ok distance) targets distances := by
  have known : OperandKind.ofByte? 0x45 = some .arms := rfl
  rw [Operation.run_encode_switch] at ran
  cases fields : targets.mapM (Operation.jumpBytes id displacement 4) with
  | error failure =>
      rw [fields] at ran
      cases ran
  | ok arms =>
      rw [fields] at ran
      cases ran
      obtain ⟨distances, read, told⟩ :=
        readArms?_of_jumpBytes (mapM_eq_ok_iff.mp fields) rest
      refine ⟨distances, ?_, told⟩
      dsimp only
      rw [List.cons_append, List.cons_append, List.append_assoc,
        read?_of_ofByte? known, readOperand?,
        cut?_append (length_littleEndian 4 _)]
      change (readArms? (unsignedOf (littleEndian 4 targets.length))
        (arms.flatten ++ rest) >>= _) = _
      rw [unsignedOf_littleEndian, Nat.mod_eq_of_lt few, read]
      rfl

/-- An operation that was encoded is read back, whatever stands behind it. -/
theorem exists_read?_of_encode
    (small : operation.width < 2 ^ 31)
    (ran : (operation.encode graph id displacement).run pool =
      (.ok bytes, after))
    (rest : List UInt8) :
    ∃ decoded,
      read? (bytes ++ rest) = some (decoded, rest) ∧
        decoded.Tells graph after displacement operation := by
  cases operation with
  | ldcI4 value =>
      cases ran
      exact ⟨_, read?_constantBytes value rest, rfl, rfl⟩
  | ldArg slot | ldLoc slot | stLoc slot =>
      cases ran
      exact ⟨_,
        read?_compactSlotBytes (forall_le_three ⟨rfl, rfl, rfl, rfl⟩) rfl
          rfl slot rest, rfl, rfl⟩
  | ldArgA slot | stArg slot | ldLocA slot =>
      cases ran
      exact ⟨_, read?_slotBytes rfl rfl slot rest, rfl, rfl⟩
  | ldStr operand | ldObj operand | box operand | call operand
  | callVirt operand | newObj operand =>
      obtain ⟨token, read, names⟩ := exists_read?_of_withToken rfl ran rest
      exact ⟨_, read, operand, rfl, names⟩
  | ldFld field | ldFldA field | stFld field =>
      cases access : (graph.field field).access.isStatic <;>
        rw [Operation.encode, access] at ran <;>
        obtain ⟨token, read, names⟩ :=
          exists_read?_of_withToken rfl ran rest <;>
        exact ⟨_, read, field, rfl, access, names⟩
  | branch kind form target =>
      obtain ⟨distance, read, told⟩ := exists_read?_of_branch ran rest
      exact ⟨_, read, target, rfl, told⟩
  | switch targets =>
      have few : targets.length < 256 ^ 4 := by
        rw [Operation.width] at small
        omega
      obtain ⟨distances, read, told⟩ :=
        exists_read?_of_switch few ran rest
      exact ⟨_, read, targets, rfl, told⟩
  | _ =>
      cases ran
      exact ⟨_, rfl, rfl, rfl⟩

end DecodedOperation

/-! ## What becomes of the pool -/

section Pool

variable {kept : TokenPool → Prop}

/-- What no request breaks, encoding an operation keeps. -/
theorem Operation.kept_of_encode
    (requested : ∀ pool after table key token, kept pool →
      TokenPool.token pool table key = .ok (after, token) → kept after)
    {graph : Graph} {id : InstrId}
    {displacement : InstrId → Except CodeError Int}
    {operation : Operation} {pool after : TokenPool} {bytes : List UInt8}
    (start : kept pool)
    (ran : (operation.encode graph id displacement).run pool =
      (.ok bytes, after)) :
    kept after := by
  rcases encode_cases graph operation with
    ⟨plain, -, -, runs⟩ | ⟨opcode, table, key, -, -, runs⟩ |
      ⟨kind, form, target, rfl⟩ | ⟨targets, rfl⟩
  · rw [runs] at ran
    cases ran
    exact start
  · rw [runs, run_withToken] at ran
    cases given : pool.token table key with
    | error failure =>
        rw [given] at ran
        cases ran
    | ok result =>
        rw [given] at ran
        cases ran
        exact requested _ _ _ _ _ start given
  · rw [run_encode_branch] at ran
    obtain rfl : pool = after := congrArg Prod.snd ran
    exact start
  · rw [run_encode_switch] at ran
    obtain rfl : pool = after := congrArg Prod.snd ran
    exact start

/-- What no request breaks, encoding instructions keeps. -/
theorem MethodBody.kept_of_encodeFrom
    (requested : ∀ pool after table key token, kept pool →
      TokenPool.token pool table key = .ok (after, token) → kept after)
    {graph : Graph} {placed : List (InstrId × Nat)} {start : Nat}
    {instructions : List Instruction} {pool final : TokenPool}
    {code : List UInt8} (keeps : kept pool)
    (ran : (encodeFrom graph placed start instructions).run pool =
      (.ok code, final)) :
    kept final := by
  induction instructions generalizing start pool code with
  | nil =>
      cases ran
      exact keeps
  | cons instruction rest inductionHypothesis =>
      obtain ⟨bytes, between, here, later⟩ := run_bind_eq_ok ran
      obtain ⟨others, last, there, written⟩ := run_bind_eq_ok later
      cases written
      exact inductionHypothesis
        (Operation.kept_of_encode requested keeps here) there

/-- Encoding instructions leaves every key its row. -/
theorem MethodBody.extends_of_encodeFrom
    {graph : Graph} {placed : List (InstrId × Nat)} {start : Nat}
    {instructions : List Instruction} {pool final : TokenPool}
    {code : List UInt8}
    (ran : (encodeFrom graph placed start instructions).run pool =
      (.ok code, final)) :
    pool.Extends final :=
  kept_of_encodeFrom
    (fun _ _ _ _ _ front given =>
      front.trans (TokenPool.names_of_token given).2)
    (.refl pool) ran

end Pool

end NullWeave
