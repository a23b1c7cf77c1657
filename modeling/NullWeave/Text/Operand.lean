import NullWeave.Text.Integer
import NullWeave.Text.Reading.Basic
import NullWeave.Text.TypeName

/-!
# Instructions as written

A mnemonic says which operation an instruction is and what operands follow it.
Arguments and local variables are named or numbered, labels stand for
instructions, and members are looked up along the chain of types that a type
extends.
-/

namespace NullWeave

/-- What the operands of a body can refer to. -/
structure BodyScope where
  graph : Graph
  method : MethodDecl
  /-- The names of the local variables, in the order of their slots. -/
  locals : List String
  /-- The labels, each with the instruction after it, if there is one. -/
  labels : List (String × Option InstrId)
deriving Inhabited

namespace BodyScope

/-! ## Labels, slots and members -/

/-- The instruction after a label, if there is one; the label has to exist. -/
def labelTarget (scope : BodyScope) (name : String) : Except TextFault (Option InstrId) :=
  match scope.labels.find? (·.1 == name) with
  | some (_, target) => .ok target
  | none => .error (.unknownLabel name)

/-- The instruction after a label. -/
def label (scope : BodyScope) (name : String) : Except TextFault InstrId := do
  match ← scope.labelTarget name with
  | some target => pure target
  | none => throw (.labelAtEnd name)

/-- A slot that is given by its number. -/
def numberedSlot? (number : Int) : Option UInt16 :=
  if 0 ≤ number ∧ number < UInt16.size then some (UInt16.ofNat number.toNat) else none

/-- The slot of the argument that an operand names. -/
def argumentSlot (scope : BodyScope) : Option Lexeme → Except TextFault UInt16
  | some (.int number) =>
      match numberedSlot? number with
      | some slot => .ok slot
      | none => .error .argumentOutOfRange
  | some (.name name) =>
      if name = "this" then
        if scope.method.hasReceiver then .ok 0 else .error .noReceiver
      else
        match scope.method.parameters.findIdx? (·.name == name) with
        | some index => .ok (scope.method.argumentSlot index)
        | none => .error (.unknownParameter name)
  | _ => .error .expectedArgument

/-- The slot of the local variable that an operand names. -/
def localSlot (scope : BodyScope) : Option Lexeme → Except TextFault UInt16
  | some (.int number) =>
      match numberedSlot? number with
      | some slot => .ok slot
      | none => .error .localOutOfRange
  | some (.name name) =>
      match scope.locals.findIdx? (· == name) with
      | some index => .ok (UInt16.ofNat index)
      | none => .error (.unknownLocal name)
  | _ => .error .expectedLocal

/-- The field with a name on a type or on one of the types it extends. -/
def fieldOn (scope : BodyScope) (owner : TypeId) (name : String) : Except TextFault FieldId :=
  match (scope.graph.baseChain owner).findSome? fun type => scope.graph.findField? type name with
  | some field => .ok field
  | none => .error (.unknownField (scope.graph.typeName owner) name)

/-- The methods of a type with a name and a number of parameters. -/
def candidates (scope : BodyScope) (type : TypeId) (name : String) (arity : Nat) :
    List MethodId :=
  (scope.graph.methodsNamed type name).filter fun method =>
    (scope.graph.method method).parameters.length == arity

/--
The one method that is meant among the candidates of a type.

A single candidate is taken as it is.  Among several, the full names of the
types of the parameters decide, and exactly one has to agree.
-/
def chooseMethod (scope : BodyScope) (type : TypeId) (name : String)
    (parameters : List TypeExpr) (candidates : List MethodId) : Except TextFault MethodId :=
  match candidates with
  | [method] => .ok method
  | _ => do
      let signatures ← scope.graph.signaturesOf scope.method.owner parameters
      let names := scope.graph.sigNames signatures
      match candidates.filter fun method =>
          scope.graph.parameterNames (scope.graph.method method) == names with
      | [method] => pure method
      | _ => throw (.ambiguousMethod (scope.graph.typeName type) name)

/-- The method with a name on a type or on the nearest type it extends that has candidates. -/
def methodOn (scope : BodyScope) (owner : TypeId) (name : String)
    (parameters : List TypeExpr) : Except TextFault MethodId :=
  let found := (scope.graph.baseChain owner).findSome? fun type =>
    match scope.candidates type name parameters.length with
    | [] => none
    | candidates => some (type, candidates)
  match found with
  | some (type, candidates) => scope.chooseMethod type name parameters candidates
  | none => .error (.unknownMethod (scope.graph.typeName owner) name)

/-! ## Operands -/

/-- Take an argument. -/
def argumentOperand (scope : BodyScope) : LineReader UInt16 := do
  scope.argumentSlot (← LineReader.next?)

/-- Take a local variable. -/
def localOperand (scope : BodyScope) : LineReader UInt16 := do
  scope.localSlot (← LineReader.next?)

/-- Take a type. -/
def typeOperand (scope : BodyScope) : LineReader Signature := do
  scope.graph.resolve scope.method.owner (← LineReader.type)

/-- Take the type in front of the `::` of a member. -/
def ownerOperand (scope : BodyScope) : LineReader TypeId := do
  let owner ← LineReader.type
  match ← LineReader.next? with
  | some .doubleColon => scope.graph.definitionOf scope.method.owner owner
  | _ => throw .expectedDoubleColon

/-- Take a field; a lone name means a field of the type that has the body. -/
def fieldOperand (scope : BodyScope) : LineReader FieldId := do
  let owner ←
    if (← LineReader.remaining).length ≤ 1 then pure scope.method.owner else scope.ownerOperand
  let name ← LineReader.requireName
  scope.fieldOn owner name

/-- Take a method with the types of its parameters. -/
def methodOperand (scope : BodyScope) : LineReader MethodId := do
  let owner ← scope.ownerOperand
  let name ← LineReader.requireName
  let parameters ← LineReader.parenthesized LineReader.type
  scope.methodOn owner name parameters

/-- Take a constant. -/
def constantOperand : LineReader Int32 := do
  let value ← LineReader.requireInteger
  if Int32.minValue.toInt ≤ value ∧ value ≤ Int32.maxValue.toInt then
    pure (Int32.ofInt value)
  else
    throw (.constantOutOfRange value)

/-! ## Mnemonics -/

/-- The branch that a mnemonic says. -/
def branchMnemonic? : String → Option (BranchKind × BranchForm)
  | "br" => some (.always, .long)
  | "br.s" => some (.always, .short)
  | "brtrue" => some (.ifTrue, .long)
  | "brtrue.s" => some (.ifTrue, .short)
  | "brinst" => some (.ifTrue, .long)
  | "brinst.s" => some (.ifTrue, .short)
  | "brfalse" => some (.ifFalse, .long)
  | "brfalse.s" => some (.ifFalse, .short)
  | "brnull" => some (.ifFalse, .long)
  | "brnull.s" => some (.ifFalse, .short)
  | "brzero" => some (.ifFalse, .long)
  | "brzero.s" => some (.ifFalse, .short)
  | "leave" => some (.leave, .long)
  | "leave.s" => some (.leave, .short)
  | _ => none

/-- The operation that a mnemonic says when its operand is a number after its last dot. -/
def compactMnemonic? (mnemonic : String) : Option Operation := do
  let (lead, digits) ← cutAtLastDot? mnemonic.toList
  let number ← readDigits? 10 digits
  match String.ofList lead with
  | "ldarg" => if number ≤ 3 then some (.ldArg (UInt16.ofNat number)) else none
  | "ldloc" => if number ≤ 3 then some (.ldLoc (UInt16.ofNat number)) else none
  | "stloc" => if number ≤ 3 then some (.stLoc (UInt16.ofNat number)) else none
  | "ldc.i4" => if number ≤ 8 then some (.ldcI4 (Int32.ofNat number)) else none
  | _ => none

/-- Take the target of a branch. -/
def labelOperand (scope : BodyScope) : LineReader InstrId := do
  scope.label (← LineReader.requireName)

/-- Take the targets of a switch; they are all read before the first is looked up. -/
def labelOperands (scope : BodyScope) : LineReader (List InstrId) := do
  let names ← LineReader.parenthesized LineReader.requireName
  names.mapM fun name => (scope.label name : LineReader InstrId)

/-- Take the operands of a mnemonic that is neither a branch nor compact. -/
def plainOperation (scope : BodyScope) (mnemonic : String) : LineReader Operation :=
  match mnemonic with
  | "nop" => pure .nop
  | "ldnull" => pure .ldNull
  | "ldstr" => .ldStr <$> LineReader.requireString
  | "ldc.i4" => .ldcI4 <$> constantOperand
  | "ldc.i4.s" => .ldcI4 <$> constantOperand
  | "ldc.i4.m1" => pure (.ldcI4 (-1))
  | "ldc.i4.M1" => pure (.ldcI4 (-1))
  | "ldarg" => .ldArg <$> scope.argumentOperand
  | "ldarg.s" => .ldArg <$> scope.argumentOperand
  | "ldarga" => .ldArgA <$> scope.argumentOperand
  | "ldarga.s" => .ldArgA <$> scope.argumentOperand
  | "starg" => .stArg <$> scope.argumentOperand
  | "starg.s" => .stArg <$> scope.argumentOperand
  | "ldloc" => .ldLoc <$> scope.localOperand
  | "ldloc.s" => .ldLoc <$> scope.localOperand
  | "ldloca" => .ldLocA <$> scope.localOperand
  | "ldloca.s" => .ldLocA <$> scope.localOperand
  | "stloc" => .stLoc <$> scope.localOperand
  | "stloc.s" => .stLoc <$> scope.localOperand
  | "dup" => pure .dup
  | "pop" => pure .pop
  | "ceq" => pure .ceq
  | "add" => pure .add
  | "sub" => pure .sub
  | "ldind.ref" => pure .ldIndRef
  | "stind.ref" => pure .stIndRef
  | "ldobj" => .ldObj <$> scope.typeOperand
  | "box" => .box <$> scope.typeOperand
  | "ldfld" => .ldFld <$> scope.fieldOperand
  | "ldsfld" => .ldFld <$> scope.fieldOperand
  | "ldflda" => .ldFldA <$> scope.fieldOperand
  | "ldsflda" => .ldFldA <$> scope.fieldOperand
  | "stfld" => .stFld <$> scope.fieldOperand
  | "stsfld" => .stFld <$> scope.fieldOperand
  | "call" => .call <$> scope.methodOperand
  | "callvirt" => .callVirt <$> scope.methodOperand
  | "newobj" => .newObj <$> scope.methodOperand
  | "switch" => .switch <$> scope.labelOperands
  | "ret" => pure .ret
  | "throw" => pure .throw
  | "endfinally" => pure .endFinally
  | "endfault" => pure .endFinally
  | _ => throw (.unknownInstruction mnemonic)

/-- Take the operands of a mnemonic. -/
def operation (scope : BodyScope) (mnemonic : String) : LineReader Operation :=
  match branchMnemonic? mnemonic, compactMnemonic? mnemonic with
  | some (kind, form), _ => .branch kind form <$> scope.labelOperand
  | none, some operation => pure operation
  | none, none => scope.plainOperation mnemonic

/-- Read an instruction; its operands have to take up all that follows the mnemonic. -/
def readInstruction (scope : BodyScope) (mnemonic : String) (operands : List Lexeme) :
    Except TextFault Operation :=
  let reader : LineReader Operation := do
    let operation ← scope.operation mnemonic
    LineReader.done
    pure operation
  reader.run' operands

end BodyScope

end NullWeave
