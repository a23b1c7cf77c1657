import NullWeave.Text.Line
import NullWeave.Text.Reading.Declaration

/-!
# Reading modules

A module is a sequence of type declarations, each from its first line to the
`.end` that belongs to it.  Lines of attributes belong to the declaration that
follows.  A `.document` line, wherever it stands, names the document of the
sequence points after it.

The lines are all cut into words before the first of them is read, so a word
that is none is told before any other fault.
-/

namespace NullWeave

/-- A body with what one more line says. -/
def BodyText.add (body : BodyText) : LineReader.BodyLine → BodyText
  | .document _ => body
  | .locals init declared =>
      { body with
        initLocals := body.initLocals || init
        locals := body.locals ++ declared }
  | .handler handler => { body with handlers := body.handlers ++ [handler] }
  | .items items => { body with items := body.items ++ items }

/-! ## Modules -/

/-- The lines that are still to be read, and the document that was named last. -/
structure ModuleText where
  lines : List NumberedLine
  document : Option String := none
deriving Inhabited

/-- Takes lines from the front of a module, or fails. -/
abbrev ModuleReader := StateT ModuleText (Except TextError)

namespace ModuleReader

/-- Take the next line, if there is one. -/
def nextLine? : ModuleReader (Option NumberedLine) := do
  match (← get).lines with
  | [] => pure none
  | line :: rest =>
      modify fun text => { text with lines := rest }
      pure (some line)

/-- Fail in a line. -/
def fail {α : Type} (line : Nat) (fault : TextFault) : ModuleReader α :=
  throw ⟨line, fault⟩

/-- Read some lexemes of a line. -/
def onLine {α : Type} (line : Nat) (lexemes : List Lexeme) (reader : LineReader α) :
    ModuleReader α :=
  match reader.run lexemes with
  | .error fault => fail line fault
  | .ok (value, _) => pure value

/-- Read a line of attributes. -/
def attributeLine (line : NumberedLine) : ModuleReader (List Attribute) :=
  onLine line.number line.lexemes do
    let attributes ← LineReader.attributes
    LineReader.done
    pure attributes

/-- Read what follows the directive in a line that names a document. -/
def documentLine (line : Nat) (rest : List Lexeme) : ModuleReader Unit := do
  let name ← onLine line rest do
    let name ← LineReader.requireString
    LineReader.done
    pure name
  modify fun text => { text with document := some name }

/-- Read the lines of a body up to its `.end`; `fuel` bounds the number of lines. -/
def methodWithin : Nat → MethodText → BodyText → ModuleReader MethodText
  | 0, method, _ => fail method.line (.missingEnd method.name)
  | fuel + 1, method, body => do
      match ← nextLine? with
      | none => fail method.line (.missingEnd method.name)
      | some ⟨line, .name ".end" :: rest⟩ =>
          onLine line rest LineReader.done
          if !method.access.isAbstract then
            pure { method with body := some body }
          else if body.items.isEmpty then
            pure method
          else
            fail line .abstractWithBody
      | some ⟨line, lexemes⟩ =>
          let said ← onLine line lexemes (LineReader.bodyLine line (← get).document)
          if let .document name := said then
            modify fun text => { text with document := some name }
          methodWithin fuel method (body.add said)

/--
Read the lines of a type up to its `.end`; `fuel` bounds the number of lines.

`pending` holds the attributes that still wait for their declaration.
-/
def typeWithin : Nat → List Attribute → TypeText → ModuleReader TypeText
  | 0, _, type => fail type.header.line (.missingEnd type.header.name)
  | fuel + 1, pending, type => do
      match ← nextLine? with
      | none => fail type.header.line (.missingEnd type.header.name)
      | some ⟨line, .mark '[' :: rest⟩ =>
          let more ← attributeLine ⟨line, .mark '[' :: rest⟩
          typeWithin fuel (pending ++ more) type
      | some ⟨line, .name directive :: rest⟩ =>
          match directive, TypeKind.ofDirective? directive with
          | ".end", _ =>
              onLine line rest LineReader.done
              if pending.isEmpty then pure type else fail line .danglingAttributes
          | ".document", _ =>
              documentLine line rest
              typeWithin fuel pending type
          | ".field", _ =>
              if pending.isEmpty then
                let field ← onLine line rest (LineReader.field line)
                typeWithin fuel pending (type.addField field)
              else
                fail line .attributesOnField
          | ".method", _ =>
              let method ← onLine line rest (LineReader.methodHeader line pending)
              let method ← methodWithin fuel method {}
              typeWithin fuel [] (type.addMethod method)
          | _, some kind =>
              let header ← onLine line rest (LineReader.typeHeader line pending kind)
              let inner ← typeWithin fuel [] (.ofHeader header)
              typeWithin fuel [] (type.addNested inner)
          | _, none => fail line (.unexpected (.name directive))
      | some ⟨line, _⟩ => fail line .expectedMemberDeclaration

/-- Read type declarations up to the last line; `fuel` bounds the number of lines. -/
def typesWithin (lastLine : Nat) : Nat → List Attribute → ModuleReader (List TypeText)
  | 0, pending =>
      if pending.isEmpty then pure [] else fail lastLine .danglingAttributes
  | fuel + 1, pending => do
      match ← nextLine? with
      | none => if pending.isEmpty then pure [] else fail lastLine .danglingAttributes
      | some ⟨line, .mark '[' :: rest⟩ =>
          let more ← attributeLine ⟨line, .mark '[' :: rest⟩
          typesWithin lastLine fuel (pending ++ more)
      | some ⟨line, .name directive :: rest⟩ =>
          match directive, TypeKind.ofDirective? directive with
          | ".document", _ =>
              documentLine line rest
              typesWithin lastLine fuel pending
          | _, some kind =>
              let header ← onLine line rest (LineReader.typeHeader line pending kind)
              let first ← typeWithin fuel [] (.ofHeader header)
              let others ← typesWithin lastLine fuel []
              pure (first :: others)
          | _, none => fail line .expectedTypeDeclaration
      | some ⟨line, _⟩ => fail line .expectedTypeDeclaration

end ModuleReader

/-- Read the type declarations of a module. -/
def readModule (text : String) : Except TextError (List TypeText) := do
  let lines ← lexText text
  let lastLine := (lines.getLast?.map (·.number)).getD 0
  (ModuleReader.typesWithin lastLine lines.length []).run' { lines }

end NullWeave
