import NullWeave.Weave.Settings

/-!
# Which values of a method must not be null

A type with a `NullGuard` attribute that has arguments brings its own flags,
which replace those of the run.  Whether null is forbidden for a value is said
by the attributes on it: in the implicit mode unless one allows null, in the
explicit mode only if one forbids it.
-/

namespace NullWeave

/-- The rules that hold for a method. -/
structure NullPolicy where
  flags : CheckedValues
  explicitMode : Bool
deriving DecidableEq, Inhabited

namespace NullPolicy

/-- The rules for the methods of a type. -/
def ofType (settings : Settings) (decl : TypeDecl) : Except WeaveError NullPolicy := do
  let flags ←
    match Attribute.find? decl.attributes Attribute.checkedValues with
    | none => pure settings.flags
    | some mark =>
        if mark.arguments.isEmpty then
          pure settings.flags
        else
          CheckedValues.parse ("|".intercalate mark.arguments)
  pure { flags, explicitMode := settings.explicitMode }

/-- The rules for a method. -/
def resolve (graph : Graph) (settings : Settings) (method : MethodId) :
    Except WeaveError NullPolicy :=
  ofType settings (graph.type (graph.method method).owner)

/--
Is a method looked at?

Without the flag for other methods, it has to be a public method of a visible
type, or to override or implement one.
-/
def isVisible (graph : Graph) (policy : NullPolicy) (decl : MethodDecl) : Bool :=
  policy.flags.nonPublic ||
    (decl.access.isPublic && graph.isVisible decl.owner) ||
    graph.implementsPublicMember decl

/-- Do attributes let a value be null? -/
def permitsNull (policy : NullPolicy) (attributes : List Attribute) : Bool :=
  if policy.explicitMode then
    !Attribute.has attributes Attribute.notNull
  else
    Attribute.has attributes Attribute.allowNull || Attribute.has attributes Attribute.canBeNull

/--
Is a parameter checked at the entry of the method?

One that is `out` has no value there, and one that is null when it is left out
may be null.
-/
def checksArgument (graph : Graph) (policy : NullPolicy) (parameter : Parameter) : Bool :=
  !policy.permitsNull parameter.attributes && !parameter.hasNullDefault && !parameter.isOut &&
    graph.isNullable parameter.type

/-- May the method return null?  Attributes on the return value or on the method say so. -/
def permitsNullResult (policy : NullPolicy) (decl : MethodDecl) : Bool :=
  if policy.explicitMode then
    policy.permitsNull decl.returnAttributes && policy.permitsNull decl.attributes
  else
    policy.permitsNull decl.returnAttributes || policy.permitsNull decl.attributes

/--
Is a value checked that the method returns?

Its type is given apart, because a method may return a task for the value.
-/
def checksResult (graph : Graph) (policy : NullPolicy) (decl : MethodDecl)
    (valueType : Signature) : Bool :=
  policy.flags.returnValues && !valueType.isVoid && graph.isNullable valueType &&
    !policy.permitsNullResult decl

/-- Is a parameter that is `out` checked where the method returns? -/
def checksOut (graph : Graph) (policy : NullPolicy) (parameter : Parameter) : Bool :=
  (policy.flags.arguments && policy.flags.outValues) && parameter.isOut &&
    graph.isNullable parameter.type && !policy.permitsNull parameter.attributes

end NullPolicy

end NullWeave
