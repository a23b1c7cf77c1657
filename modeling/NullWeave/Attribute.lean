import NullWeave.DottedName

/-!
# Attributes

Types, methods, return values and parameters carry attributes.  An attribute is
recognised by its simple name, which leaves out the namespace and the ending
`Attribute`: a class named `Some.Space.AllowNullAttribute` and one named
`AllowNull` say the same thing about what they are attached to.
-/

namespace NullWeave

/-- What follows the last dot of a name, or the whole name. -/
def lastSegment (name : String) : String :=
  match cutAtLastDot? name.toList with
  | some (_, segment) => String.ofList segment
  | none => name

/-- A name without one given ending; a name that does not end so is kept. -/
def withoutEnding (ending name : String) : String :=
  if ending.toList.isSuffixOf name.toList then
    String.ofList (name.toList.take (name.toList.length - ending.toList.length))
  else
    name

/-- An attribute: the name of its class and its arguments, written as text. -/
structure Attribute where
  name : String
  arguments : List String := []
deriving DecidableEq, Inhabited

namespace Attribute

/-- The name without its namespace and without the ending `Attribute`. -/
def simpleName (mark : Attribute) : String :=
  withoutEnding "Attribute" (lastSegment mark.name)

/-- Does the attribute have this simple name? -/
def isNamed (mark : Attribute) (simpleName : String) : Bool :=
  mark.simpleName == simpleName

/-- The first attribute with a simple name. -/
def find? (attributes : List Attribute) (simpleName : String) : Option Attribute :=
  attributes.find? (·.isNamed simpleName)

/-- Does any attribute have this simple name? -/
def has (attributes : List Attribute) (simpleName : String) : Bool :=
  (find? attributes simpleName).isSome

@[simp]
theorem has_nil (simpleName : String) : has [] simpleName = false := rfl

theorem has_eq_any (attributes : List Attribute) (simpleName : String) :
    has attributes simpleName = attributes.any (·.isNamed simpleName) := by
  apply Bool.eq_iff_iff.2
  simp [has, find?]

/-! ## The simple names with a meaning -/

/-- On a type: which values its methods check. -/
def checkedValues : String := "NullGuard"

/-- On a parameter or return value: null is a permitted value. -/
def allowNull : String := "AllowNull"

/-- On a parameter or return value: null is a permitted value. -/
def canBeNull : String := "CanBeNull"

/-- On a parameter or return value: null is not a permitted value. -/
def notNull : String := "NotNull"

/-- On a type or method: a compiler wrote it. -/
def compilerGenerated : String := "CompilerGenerated"

/-- On a type or method: a code generator wrote it. -/
def generatedCode : String := "GeneratedCode"

/-- On a method: its body lives in a state machine that completes a task. -/
def asyncStateMachine : String := "AsyncStateMachine"

/-- On a method: its body lives in a state machine that yields a sequence. -/
def iteratorStateMachine : String := "IteratorStateMachine"

/-- Do the attributes mark what they are attached to as written by a tool? -/
def markGenerated (attributes : List Attribute) : Bool :=
  has attributes compilerGenerated || has attributes generatedCode

end Attribute

end NullWeave
