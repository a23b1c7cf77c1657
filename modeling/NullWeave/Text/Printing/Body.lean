import NullWeave.Code.Body
import NullWeave.Text.Printing.Declaration

/-!
# Bodies in writing

How the lines of a body are written.  Labels are made up from the positions of
their instructions, and a slot without a name that can be read back is written
as a number.
-/

namespace NullWeave

/-- What is needed to print the operands of a body. -/
structure BodyNames where
  graph : Graph
  method : MethodDecl
  body : MethodBody
deriving Inhabited

namespace BodyNames

/-- The name of a local variable, for its declaration and its uses. -/
def localNames (names : BodyNames) : List String :=
  names.body.locals.mapIdx fun index entry => readableName "V" index entry.name

/-- A local variable as it is written: by name, or by number if there is no such variable. -/
def localWritten (names : BodyNames) (slot : UInt16) : String :=
  names.localNames[slot.toNat]?.getD (toString slot.toNat)

/-- An argument as it is written: the receiver, a name that can be read back, or a number. -/
def argumentWritten (names : BodyNames) (slot : UInt16) : String :=
  if names.method.hasReceiver && slot == 0 then
    "this"
  else
    match names.method.parameterOfSlot? slot with
    | some parameter =>
        if isPlainName parameter.name then parameter.name else toString slot.toNat
    | none => toString slot.toNat

/-- The label of an instruction, made up from its position. -/
def labelWritten (names : BodyNames) (id : InstrId) : String :=
  match names.body.indexOf? id with
  | some position => "L" ++ toString position
  | none => id.text

/-- The mnemonic of a branch. -/
def branchWritten (kind : BranchKind) (form : BranchForm) : String :=
  let word :=
    match kind with
    | .always => "br"
    | .ifTrue => "brtrue"
    | .ifFalse => "brfalse"
    | .leave => "leave"
  match form with
  | .short => word ++ ".s"
  | .long => word

/-- An operation as it is written. -/
def operationWritten (names : BodyNames) : Operation → String
  | .nop => "nop"
  | .ldNull => "ldnull"
  | .ldStr text => "ldstr " ++ Quoted.write text
  | .ldcI4 value => "ldc.i4 " ++ toString value.toInt
  | .ldArg slot => "ldarg " ++ names.argumentWritten slot
  | .ldArgA slot => "ldarga " ++ names.argumentWritten slot
  | .stArg slot => "starg " ++ names.argumentWritten slot
  | .ldLoc slot => "ldloc " ++ names.localWritten slot
  | .ldLocA slot => "ldloca " ++ names.localWritten slot
  | .stLoc slot => "stloc " ++ names.localWritten slot
  | .dup => "dup"
  | .pop => "pop"
  | .ceq => "ceq"
  | .add => "add"
  | .sub => "sub"
  | .ldIndRef => "ldind.ref"
  | .stIndRef => "stind.ref"
  | .ldObj type => "ldobj " ++ names.graph.sigWritten type
  | .box type => "box " ++ names.graph.sigWritten type
  | .ldFld field => "ldfld " ++ names.graph.fieldWritten field
  | .ldFldA field => "ldflda " ++ names.graph.fieldWritten field
  | .stFld field => "stfld " ++ names.graph.fieldWritten field
  | .call method => "call " ++ names.graph.methodWritten method
  | .callVirt method => "callvirt " ++ names.graph.methodWritten method
  | .newObj constructor => "newobj " ++ names.graph.methodWritten constructor
  | .branch kind form target => branchWritten kind form ++ " " ++ names.labelWritten target
  | .switch targets => "switch (" ++ commaSeparated (targets.map names.labelWritten) ++ ")"
  | .ret => "ret"
  | .throw => "throw"
  | .endFinally => "endfinally"

/-- The line of the local variables, which is left out if it says nothing. -/
def localsWritten (names : BodyNames) : List String :=
  if names.body.locals.isEmpty && !names.body.initLocals then
    []
  else
    let declared := List.zipWith
      (fun (entry : LocalVariable) name => names.graph.sigWritten entry.type ++ " " ++ name)
      names.body.locals names.localNames
    [".locals" ++ (if names.body.initLocals then " init" else "") ++
      " (" ++ commaSeparated declared ++ ")"]

/-- The line of an exception handler. -/
def handlerWritten (names : BodyNames) (handler : ExceptionHandler) : String :=
  let kind :=
    match handler.kind with
    | .catch type => "catch " ++ names.graph.typeName type
    | .finally => "finally"
  let finish :=
    match handler.handlerEnd with
    | none => ""
    | some id => " to " ++ names.labelWritten id
  ".try " ++ names.labelWritten handler.tryStart ++ " to " ++ names.labelWritten handler.tryEnd ++
    " " ++ kind ++ " handler " ++ names.labelWritten handler.handlerStart ++ finish

end BodyNames

/-- The line of the place of a sequence point. -/
def SequencePoint.written (point : SequencePoint) : String :=
  if point.isHidden then
    ".line hidden"
  else
    " ".intercalate
      [".line", toString point.startLine, toString point.startColumn, toString point.endLine,
        toString point.endColumn]

end NullWeave
