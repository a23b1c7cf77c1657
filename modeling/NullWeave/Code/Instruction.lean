import NullWeave.Graph.Basic

/-!
# Instructions

An instruction is an operation with an identity.  Branches, exception handlers
and sequence points refer to instructions by identity and never by position, so
instructions can be put in anywhere without touching a reference.

An operation says what is done, not how it is written down: the compact forms
for small slots and constants are chosen when code is encoded.  Branches are
the exception.  Each has a form, the width of its displacement, because the
forms are widened before code is put in and narrowed afterwards.
-/

namespace NullWeave

/-- The identity of an instruction in its body. -/
structure InstrId where
  number : Nat
deriving DecidableEq, Inhabited

namespace InstrId

/-- The identity that a fresh body gives out first. -/
def first : InstrId := ⟨0⟩

/-- The identity that is given out after this one. -/
def next (id : InstrId) : InstrId := ⟨id.number + 1⟩

/-- How messages show an identity. -/
def text (id : InstrId) : String := "i" ++ toString id.number

end InstrId

/-- When a branch is taken. -/
inductive BranchKind where
  | always
  /-- Taken on a value that is neither zero nor null. -/
  | ifTrue
  /-- Taken on a value that is zero or null. -/
  | ifFalse
  /-- Always taken, out of a protected region, which empties the stack. -/
  | leave
deriving DecidableEq, Inhabited

/-- How wide the displacement of a branch is. -/
inductive BranchForm where
  /-- One signed byte. -/
  | short
  /-- Four signed bytes. -/
  | long
deriving DecidableEq, Inhabited

/-- What an instruction does. -/
inductive Operation where
  | nop
  | ldNull
  | ldStr (text : String)
  | ldcI4 (value : Int32)
  | ldArg (slot : UInt16)
  | ldArgA (slot : UInt16)
  | stArg (slot : UInt16)
  | ldLoc (slot : UInt16)
  | ldLocA (slot : UInt16)
  | stLoc (slot : UInt16)
  | dup
  | pop
  | ceq
  | add
  | sub
  | ldIndRef
  | stIndRef
  | ldObj (type : Signature)
  | box (type : Signature)
  | ldFld (field : FieldId)
  | ldFldA (field : FieldId)
  | stFld (field : FieldId)
  | call (method : MethodId)
  | callVirt (method : MethodId)
  | newObj (constructor : MethodId)
  | branch (kind : BranchKind) (form : BranchForm) (target : InstrId)
  | switch (targets : List InstrId)
  | ret
  | throw
  | endFinally
deriving Inhabited

namespace Operation

/-- The instructions that the operation may jump to, the next one apart. -/
def targets : Operation → List InstrId
  | .branch _ _ target => [target]
  | .switch targets => targets
  | _ => []

/-- The operation with a function applied to each of its targets. -/
def mapTargets (change : InstrId → InstrId) : Operation → Operation
  | .branch kind form target => .branch kind form (change target)
  | .switch targets => .switch (targets.map change)
  | other => other

/-- The operation with the form of a branch replaced. -/
def withForm (form : BranchForm) : Operation → Operation
  | .branch kind _ target => .branch kind form target
  | other => other

/-- Does control never go on to the next instruction? -/
def neverFallsThrough : Operation → Bool
  | .branch .always _ _ => true
  | .branch .leave _ _ => true
  | .ret => true
  | .throw => true
  | .endFinally => true
  | _ => false

/-- Does the operation end the method? -/
def isRet : Operation → Bool
  | .ret => true
  | _ => false

/-- Is the operation a branch with a narrow displacement? -/
def isShortBranch : Operation → Bool
  | .branch _ .short _ => true
  | _ => false

@[simp]
theorem targets_mapTargets (change : InstrId → InstrId) (operation : Operation) :
    (operation.mapTargets change).targets = operation.targets.map change := by
  cases operation <;> simp [mapTargets, targets]

@[simp]
theorem targets_withForm (form : BranchForm) (operation : Operation) :
    (operation.withForm form).targets = operation.targets := by
  cases operation <;> simp [withForm, targets]

@[simp]
theorem mapTargets_id (operation : Operation) : operation.mapTargets id = operation := by
  cases operation <;> simp [mapTargets]

/-! ## Encoded size -/

/-- The size of an operation whose slots up to 3 have an opcode of their own. -/
def compactSlotWidth (slot : UInt16) : Nat :=
  if slot ≤ 3 then 1 else if slot ≤ 255 then 2 else 4

/-- The size of an operation that always writes its slot. -/
def slotWidth (slot : UInt16) : Nat :=
  if slot ≤ 255 then 2 else 4

/-- The size of a constant: small ones have an opcode of their own or take one byte. -/
def constantWidth (value : Int32) : Nat :=
  if -1 ≤ value ∧ value ≤ 8 then 1 else if -128 ≤ value ∧ value ≤ 127 then 2 else 5

/-- The size of a branch. -/
def branchWidth : BranchForm → Nat
  | .short => 2
  | .long => 5

/-- The number of bytes that the operation takes when it is encoded. -/
def width : Operation → Nat
  | .nop | .ldNull | .dup | .pop | .add | .sub => 1
  | .ldIndRef | .stIndRef | .ret | .throw | .endFinally => 1
  | .ceq => 2
  | .ldStr _ => 5
  | .ldcI4 value => constantWidth value
  | .ldArg slot | .ldLoc slot | .stLoc slot => compactSlotWidth slot
  | .ldArgA slot | .stArg slot | .ldLocA slot => slotWidth slot
  | .ldObj _ | .box _ => 5
  | .ldFld _ | .ldFldA _ | .stFld _ => 5
  | .call _ | .callVirt _ | .newObj _ => 5
  | .branch _ form _ => branchWidth form
  | .switch targets => 1 + 4 + 4 * targets.length

@[simp]
theorem width_mapTargets (change : InstrId → InstrId) (operation : Operation) :
    (operation.mapTargets change).width = operation.width := by
  cases operation <;> simp [mapTargets, width]

theorem width_pos (operation : Operation) : 0 < operation.width := by
  cases operation <;>
    simp only [width, constantWidth, compactSlotWidth, slotWidth, branchWidth] <;>
    (try split) <;> (try split) <;> omega

end Operation

/-- An operation with its identity. -/
structure Instruction where
  id : InstrId
  operation : Operation
deriving Inhabited

namespace Instruction

/-- The number of bytes that the instruction takes when it is encoded. -/
def width (instruction : Instruction) : Nat := instruction.operation.width

/-- The instruction with a function applied to each of its targets. -/
def mapTargets (change : InstrId → InstrId) (instruction : Instruction) : Instruction :=
  { instruction with operation := instruction.operation.mapTargets change }

/-- The instruction with the form of a branch replaced. -/
def withForm (form : BranchForm) (instruction : Instruction) : Instruction :=
  { instruction with operation := instruction.operation.withForm form }

@[simp]
theorem id_mapTargets (change : InstrId → InstrId) (instruction : Instruction) :
    (instruction.mapTargets change).id = instruction.id := rfl

@[simp]
theorem id_withForm (form : BranchForm) (instruction : Instruction) :
    (instruction.withForm form).id = instruction.id := rfl

end Instruction

/-! ## Effect on the stack -/

/-- How many values an operation takes from the stack and how many it puts there. -/
structure StackEffect where
  pops : Nat
  pushes : Nat
deriving DecidableEq, Inhabited

/--
The effect of an operation on the stack.

`leave`, `throw` and `endfinally` also discard what is left; that is a matter
of where control goes next.
-/
def Operation.stackEffect (graph : Graph) : Operation → StackEffect
  | .nop => ⟨0, 0⟩
  | .ldNull | .ldStr _ | .ldcI4 _ => ⟨0, 1⟩
  | .ldArg _ | .ldArgA _ | .ldLoc _ | .ldLocA _ => ⟨0, 1⟩
  | .stArg _ | .stLoc _ | .pop => ⟨1, 0⟩
  | .dup => ⟨1, 2⟩
  | .ceq | .add | .sub => ⟨2, 1⟩
  | .ldIndRef | .ldObj _ | .box _ => ⟨1, 1⟩
  | .stIndRef => ⟨2, 0⟩
  | .ldFld field | .ldFldA field =>
      if (graph.field field).access.isStatic then ⟨0, 1⟩ else ⟨1, 1⟩
  | .stFld field => if (graph.field field).access.isStatic then ⟨1, 0⟩ else ⟨2, 0⟩
  | .call method | .callVirt method =>
      let decl := graph.method method
      ⟨decl.parameters.length + decl.hasReceiver.toNat, (!decl.returnType.isVoid).toNat⟩
  | .newObj constructor => ⟨(graph.method constructor).parameters.length, 1⟩
  | .branch .ifTrue _ _ | .branch .ifFalse _ _ => ⟨1, 0⟩
  | .branch .always _ _ | .branch .leave _ _ => ⟨0, 0⟩
  | .switch _ => ⟨1, 0⟩
  | .ret => ⟨0, 0⟩
  | .throw => ⟨1, 0⟩
  | .endFinally => ⟨0, 0⟩

end NullWeave
