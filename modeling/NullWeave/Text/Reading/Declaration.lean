import NullWeave.Text.Reading.Basic

/-!
# Lines of declarations

The readers of the first lines of types and methods, of the lines of fields,
and of the lines of bodies.
-/

namespace NullWeave

namespace LineReader

/-! ## First lines of declarations -/

/-- The access modifiers in front of the name of a type, and what follows them. -/
def typeModifiers (access : TypeAccess) : List Lexeme → TypeAccess × List Lexeme
  | .name word :: rest =>
      match TypeAccess.ofKeyword? word with
      | some modifier => typeModifiers (access.union modifier) rest
      | none => (access, .name word :: rest)
  | rest => (access, rest)

/-- The access modifiers in front of the type of a field, and what follows them. -/
def fieldModifiers (access : FieldAccess) : List Lexeme → FieldAccess × List Lexeme
  | .name "static" :: rest => fieldModifiers (access.union { isStatic := true }) rest
  | .name "public" :: rest => fieldModifiers (access.union { isPublic := true }) rest
  | .name "private" :: rest => fieldModifiers (access.union { isPrivate := true }) rest
  | rest => (access, rest)

/-- Take a generic parameter of a type. -/
def genericParameter : LineReader String := do
  pure (withoutBangs (← requireName))

/-- Take what follows the directive in the first line of a type. -/
def typeHeader (line : Nat) (attributes : List Attribute) (kind : TypeKind) :
    LineReader TypeHeader := do
  let (access, rest) := typeModifiers {} (← get)
  set rest
  let name ← requireName
  let genericParameters ←
    if ← optionalMark '<' then itemsUpTo genericParameter '>' else pure []
  let base ← if ← optionalMark ':' then some <$> type else pure none
  let interfaces ← if ← optionalWord "implements" then types else pure []
  done
  pure { line, attributes, kind, access, name, genericParameters, base, interfaces }

/-- Take what follows the directive in the line of a field. -/
def field (line : Nat) : LineReader FieldText := do
  let (access, rest) := fieldModifiers {} (← get)
  set rest
  let type ← type
  let name ← requireName
  done
  pure { line, access, type, name }

/-- What stands before the return type of a method. -/
structure MethodModifiers where
  access : MethodAccess := {}
  attributes : List Attribute := []
  returnAttributes : List Attribute := []
deriving Inhabited

/-- Take modifiers and attributes up to the return type, at most a number of them. -/
def methodModifiersWithin : Nat → MethodModifiers → LineReader MethodModifiers
  | 0, _ => throw .expectedReturnType
  | fuel + 1, modifiers => do
      match ← get with
      | .mark '[' :: .name "return" :: .mark ':' :: rest =>
          set rest
          let mark ← attributeBody
          methodModifiersWithin fuel
            { modifiers with returnAttributes := modifiers.returnAttributes ++ [mark] }
      | .mark '[' :: rest =>
          set rest
          let mark ← attributeBody
          methodModifiersWithin fuel
            { modifiers with attributes := modifiers.attributes ++ [mark] }
      | .name word :: rest =>
          match MethodAccess.ofKeyword? word with
          | some modifier =>
              set rest
              methodModifiersWithin fuel
                { modifiers with access := modifiers.access.union modifier }
          | none => pure modifiers
      | _ => throw .expectedReturnType

/-- Take a parameter of a method. -/
def parameter : LineReader ParameterText := do
  let attributes ← attributes
  let isOut ← optionalWord "out"
  let type ← type
  let name ← requireName
  let hasNullDefault ← optionalMark '='
  if hasNullDefault then
    requireWord "null"
  pure { attributes, isOut, type, name, hasNullDefault }

/-- Take what follows the directive in the first line of a method; its body is still empty. -/
def methodHeader (line : Nat) (attributes : List Attribute) : LineReader MethodText := do
  let modifiers ← methodModifiersWithin ((← get).length + 1) { attributes }
  let returnType ← type
  let name ← requireName
  let parameters ← parenthesized parameter
  done
  pure {
    line
    attributes := modifiers.attributes
    returnAttributes := modifiers.returnAttributes
    access := modifiers.access
    returnType
    name
    parameters
    body := none }

/-! ## Lines of bodies -/

/-- Take a local variable. -/
def localVariable : LineReader (TypeExpr × String) := do
  let type ← type
  let name ← requireName
  pure (type, name)

/-- Take the place of a sequence point; what is left out ends where it starts. -/
def span? : LineReader (Option Span) := do
  if ← optionalWord "hidden" then
    pure none
  else do
    let startLine ← requirePlace
    let startColumn ← placeOr 0
    let endLine ← placeOr startLine
    let endColumn ← placeOr 0
    pure (some { startLine, startColumn, endLine, endColumn })

/-- Take what follows the directive in the line of a handler. -/
def handler (line : Nat) : LineReader HandlerText := do
  let tryStart ← requireName
  requireWord "to"
  let tryEnd ← requireName
  let kind ←
    if ← optionalWord "catch" then
      HandlerKindText.catch <$> type
    else do
      requireWord "finally"
      pure HandlerKindText.finally
  requireWord "handler"
  let handlerStart ← requireName
  let handlerEnd ← if ← optionalWord "to" then some <$> requireName else pure none
  done
  pure { line, kind, tryStart, tryEnd, handlerStart, handlerEnd }

/-- What a line of a body says. -/
inductive BodyLine where
  | document (name : String)
  | locals (init : Bool) (declared : List (TypeExpr × String))
  | handler (handler : HandlerText)
  | items (items : List BodyItem)
deriving Inhabited

/-- Take a label if one comes next. -/
def label? : LineReader (Option String) := do
  match ← get with
  | .name name :: .mark ':' :: rest =>
      set rest
      pure (some name)
  | _ => pure none

/-- Take an instruction: its mnemonic and all that follows. -/
def instruction (line : Nat) : LineReader BodyItem := do
  let mnemonic ← requireName
  let operands ← remaining
  set ([] : List Lexeme)
  pure (.instruction line mnemonic operands)

/-- Take a label, an instruction, or both. -/
def code (line : Nat) : LineReader BodyLine := do
  match ← label? with
  | none => pure (.items [← instruction line])
  | some name =>
      if (← remaining).isEmpty then
        pure (.items [.label line name])
      else do
        let item ← instruction line
        pure (.items [.label line name, item])

/-- Take a line of a body, given the document that was named last. -/
def bodyLine (line : Nat) (document : Option String) : LineReader BodyLine := do
  match ← get with
  | .name ".document" :: rest =>
      set rest
      let name ← requireString
      done
      pure (.document name)
  | .name ".locals" :: rest =>
      set rest
      let init ← optionalWord "init"
      let declared ← parenthesized localVariable
      done
      pure (.locals init declared)
  | .name ".line" :: rest =>
      set rest
      match document with
      | none => throw .lineWithoutDocument
      | some document => do
          let span ← span?
          done
          pure (.items [.point line document span])
  | .name ".try" :: rest =>
      set rest
      pure (.handler (← handler line))
  | .name _ :: _ => code line
  | _ => throw .expectedInstruction

end LineReader

end NullWeave
