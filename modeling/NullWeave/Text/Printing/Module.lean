import NullWeave.Program
import NullWeave.Text.Printing.Body

/-!
# Printing modules

A module is printed as a text that loads again: types in order, nested types
inside the type around them, two spaces for each level.

The only thing that one line needs to know of those before it is the document
that was named last, because a document is named only where it changes.
-/

namespace NullWeave

/-- A line of the printed text. -/
structure PrintedLine where
  level : Nat
  text : String
deriving DecidableEq, Inhabited

/-- A line with its indentation and its end. -/
def PrintedLine.render (line : PrintedLine) : String :=
  "".pushn ' ' (2 * line.level) ++ line.text ++ "\n"

/-- Printing remembers the document that was named last. -/
abbrev Printing := StateM (Option String)

namespace Printing

/-- The lines of a sequence point; its document is named if it was not named last. -/
def pointLines (level : Nat) (point : SequencePoint) : Printing (List PrintedLine) := do
  let place : PrintedLine := ⟨level, point.written⟩
  if (← get) = some point.document then
    pure [place]
  else do
    set (some point.document)
    pure [⟨level, ".document " ++ Quoted.write point.document⟩, place]

/--
The lines of instructions that start at a position, each after its sequence points.

Labels stand one level further out.  Should several instructions share an
identity, the first one has the sequence points.
-/
def instructionLines (names : BodyNames) (level : Nat) (labelled : List InstrId)
    (index : Nat) : List Instruction → Printing (List PrintedLine)
  | [] => pure []
  | instruction :: rest => do
      let points := names.body.debugInfo.points.filter fun point =>
        point.instruction == instruction.id && names.body.indexOf? instruction.id == some index
      let places ← points.mapM (pointLines level)
      let text := names.operationWritten instruction.operation
      let line : PrintedLine :=
        if instruction.id ∈ labelled then
          ⟨level - 1, names.labelWritten instruction.id ++ ": " ++ text⟩
        else
          ⟨level, text⟩
      let others ← instructionLines names level labelled (index + 1) rest
      pure (places.flatten ++ line :: others)

/-- The lines of a body. -/
def bodyLines (names : BodyNames) (level : Nat) : Printing (List PrintedLine) := do
  let lead := names.localsWritten ++ names.body.handlers.map names.handlerWritten
  let instructions ←
    instructionLines names level names.body.references 0 names.body.instructions
  pure (lead.map (PrintedLine.mk level) ++ instructions)

/-- The lines of attributes. -/
def attributeLines (level : Nat) (marks : List Attribute) : List PrintedLine :=
  marks.map fun mark => ⟨level, "[" ++ mark.written ++ "]"⟩

/-- The lines of a method. -/
def methodLines (program : Program) (level : Nat) (method : MethodId) :
    Printing (List PrintedLine) := do
  let decl := program.graph.method method
  let body ←
    match program.bodies.get? method with
    | none => pure []
    | some body => bodyLines { graph := program.graph, method := decl, body } (level + 1)
  pure (attributeLines level decl.attributes ++
    [⟨level, program.graph.methodHeaderWritten decl⟩] ++ body ++ [⟨level, ".end"⟩])

/-- The lines of a type with the types nested in it; `depth` bounds how deep they nest. -/
def typeLines (program : Program) : Nat → Nat → TypeId → Printing (List PrintedLine)
  | 0, _, _ => pure []
  | depth + 1, level, type => do
      let graph := program.graph
      let fields := (graph.fieldsOf type).map fun field =>
        PrintedLine.mk (level + 1) (graph.fieldLineWritten (graph.field field))
      let methods ← (graph.methodsOf type).mapM (methodLines program (level + 1))
      let nested ← (graph.nestedTypes type).mapM (typeLines program depth (level + 1))
      pure (attributeLines level (graph.type type).attributes ++
        [⟨level, graph.typeHeaderWritten type⟩] ++ fields ++ methods.flatten ++
        nested.flatten ++ [⟨level, ".end"⟩])

/-- The lines of the types of a module that are not nested. -/
def moduleLines (program : Program) (module : Module) : Printing (List PrintedLine) := do
  let outermost := module.types.filter fun type => (program.graph.type type).enclosing.isEmpty
  let lines ← outermost.mapM (typeLines program program.graph.types.size 0)
  pure lines.flatten

end Printing

/-- A module as a text. -/
def Program.print (program : Program) (module : Module) : String :=
  "".intercalate (((Printing.moduleLines program module).run none).1.map PrintedLine.render)

end NullWeave
