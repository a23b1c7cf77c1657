import NullWeave.Code.Branches
import NullWeave.Code.StackDepth
import NullWeave.Code.Token
import NullWeave.Graph.Name

/-!
# Encoding bodies

A body is encoded as the bytes of its instructions one after another, each in
the most compact form for its operand; branches keep the form they have.  The
displacement of a jump is counted from the end of the instruction.  Tokens are
asked for in the order of the instructions, and the ones given out before a
fault stay given out.
-/

namespace NullWeave

/-- Encoding gives out tokens as it goes and may fail. -/
abbrev Encoder := ExceptT CodeError (StateM TokenPool)

namespace Encoder

/-- The bytes of the token for a key of a table. -/
def tokenBytes (table : UInt8) (key : String) : Encoder (List UInt8) := do
  match (← get).token table key with
  | .error failure => throw failure
  | .ok (pool, token) =>
      set pool
      pure token.bytes

/-- An opcode followed by the token for a key of a table. -/
def withToken (opcode : UInt8) (table : UInt8) (key : String) : Encoder (List UInt8) := do
  pure (opcode :: (← tokenBytes table key))

end Encoder

namespace Operation

/-- An opcode that ends in the number of a slot up to 3, or one that is followed by the slot. -/
def slotBytes (slot : UInt16) (short long : UInt8) : List UInt8 :=
  if slot ≤ 255 then [short, slot.toUInt8] else [0xFE, long] ++ littleEndian 2 slot.toNat

/-- The bytes for an operation whose slots up to 3 have an opcode of their own. -/
def compactSlotBytes (slot : UInt16) (compact short long : UInt8) : List UInt8 :=
  if slot ≤ 3 then [compact + slot.toUInt8] else slotBytes slot short long

/-- The bytes for a constant. -/
def constantBytes (value : Int32) : List UInt8 :=
  if -1 ≤ value ∧ value ≤ 8 then
    signedLittleEndian 1 (0x16 + value.toInt)
  else if -128 ≤ value ∧ value ≤ 127 then
    0x1F :: signedLittleEndian 1 value.toInt
  else
    0x20 :: signedLittleEndian 4 value.toInt

/-- The opcode of a branch. -/
def branchOpcode : BranchKind → BranchForm → UInt8
  | .always, .short => 0x2B
  | .ifFalse, .short => 0x2C
  | .ifTrue, .short => 0x2D
  | .leave, .short => 0xDE
  | .always, .long => 0x38
  | .ifFalse, .long => 0x39
  | .ifTrue, .long => 0x3A
  | .leave, .long => 0xDD

/-- The number of bytes in the displacement of a branch. -/
def displacementWidth : BranchForm → Nat
  | .short => 1
  | .long => 4

/-- The bytes of a displacement, if it fits. -/
def displacementBytes (id : InstrId) (count : Nat) (displacement : Int) :
    Except CodeError (List UInt8) :=
  let half : Int := (Nat.pow 2 (8 * count - 1) : Nat)
  if -half ≤ displacement ∧ displacement < half then
    .ok (signedLittleEndian count displacement)
  else
    .error (.branchOutOfRange id displacement)

/--
The bytes of an operation.

`displacement` gives how far a jump target lies from the end of the
instruction; `id` names the instruction in a fault.
-/
def encode (graph : Graph) (id : InstrId)
    (displacement : InstrId → Except CodeError Int) :
    Operation → Encoder (List UInt8)
  | .nop => pure [0x00]
  | .ldNull => pure [0x14]
  | .ldStr text => Encoder.withToken 0x72 TokenPool.userString text
  | .ldcI4 value => pure (constantBytes value)
  | .ldArg slot => pure (compactSlotBytes slot 0x02 0x0E 0x09)
  | .ldArgA slot => pure (slotBytes slot 0x0F 0x0A)
  | .stArg slot => pure (slotBytes slot 0x10 0x0B)
  | .ldLoc slot => pure (compactSlotBytes slot 0x06 0x11 0x0C)
  | .ldLocA slot => pure (slotBytes slot 0x12 0x0D)
  | .stLoc slot => pure (compactSlotBytes slot 0x0A 0x13 0x0E)
  | .dup => pure [0x25]
  | .pop => pure [0x26]
  | .ceq => pure [0xFE, 0x01]
  | .add => pure [0x58]
  | .sub => pure [0x59]
  | .ldIndRef => pure [0x50]
  | .stIndRef => pure [0x51]
  | .ldObj type => Encoder.withToken 0x71 (TokenPool.sigTable type) (graph.sigName type)
  | .box type => Encoder.withToken 0x8C (TokenPool.sigTable type) (graph.sigName type)
  | .ldFld field =>
      Encoder.withToken (if (graph.field field).access.isStatic then 0x7E else 0x7B)
        TokenPool.memberRef (graph.fieldName field)
  | .ldFldA field =>
      Encoder.withToken (if (graph.field field).access.isStatic then 0x7F else 0x7C)
        TokenPool.memberRef (graph.fieldName field)
  | .stFld field =>
      Encoder.withToken (if (graph.field field).access.isStatic then 0x80 else 0x7D)
        TokenPool.memberRef (graph.fieldName field)
  | .call method => Encoder.withToken 0x28 TokenPool.memberRef (graph.methodName method)
  | .callVirt method => Encoder.withToken 0x6F TokenPool.memberRef (graph.methodName method)
  | .newObj constructor =>
      Encoder.withToken 0x73 TokenPool.memberRef (graph.methodName constructor)
  | .branch kind form target => do
      let distance ← displacement target
      let bytes ← displacementBytes id (displacementWidth form) distance
      pure (branchOpcode kind form :: bytes)
  | .switch targets => do
      let arms ← targets.mapM fun target => do
        let distance ← displacement target
        displacementBytes id 4 distance
      pure (0x45 :: littleEndian 4 targets.length ++ arms.flatten)
  | .ret => pure [0x2A]
  | .throw => pure [0x7A]
  | .endFinally => pure [0xDC]

end Operation

/-- A body in bytes. -/
structure EncodedBody where
  code : List UInt8
  /-- The greatest depth of the stack. -/
  maxStack : Nat
  initLocals : Bool
  /-- Each instruction with its offset, in order. -/
  instructionOffsets : List (InstrId × Nat)
deriving DecidableEq, Inhabited

/-- The offset of an instruction; of several with its identity, the last one. -/
def lastOffset? (placed : List (InstrId × Nat)) (id : InstrId) : Option Nat :=
  (placed.reverse.find? (·.1 == id)).map (·.2)

/-- The offset of an instruction in an encoded body. -/
def EncodedBody.offset? (encoded : EncodedBody) (id : InstrId) : Option Nat :=
  lastOffset? encoded.instructionOffsets id

namespace MethodBody

/-- How far a target lies from the end of an instruction. -/
def displacementFrom (placed : List (InstrId × Nat)) (finish : Nat) (target : InstrId) :
    Except CodeError Int :=
  match lastOffset? placed target with
  | none => .error (.unknownInstruction target)
  | some offset => .ok (offset - finish : Int)

/-- The bytes of instructions that start at an offset. -/
def encodeFrom (graph : Graph) (placed : List (InstrId × Nat)) (start : Nat) :
    List Instruction → Encoder (List UInt8)
  | [] => pure []
  | instruction :: rest => do
      let finish := start + instruction.width
      let bytes ← instruction.operation.encode graph instruction.id
        (displacementFrom placed finish)
      let others ← encodeFrom graph placed finish rest
      pure (bytes ++ others)

/-- Check the depths of the stack in a body and encode it. -/
def encode (graph : Graph) (body : MethodBody) (returnsValue : Bool) : Encoder EncodedBody := do
  let maxStack ← body.checkDepths graph returnsValue
  if 65535 < maxStack then
    throw (.maxStackOverflow maxStack)
  let placed := (body.instructions.map (·.id)).zip (offsets body.instructions)
  let code ← encodeFrom graph placed 0 body.instructions
  pure {
    code
    maxStack
    initLocals := body.initLocals
    instructionOffsets := placed }

end MethodBody

end NullWeave
