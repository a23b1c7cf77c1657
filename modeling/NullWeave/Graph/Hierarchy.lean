import NullWeave.Graph.Name

/-!
# Enclosing types and supertypes

Two chains lead away from a type.  The types around it decide whether it can
be seen from outside and whether a tool wrote it.  The type it extends and the
interfaces it names, followed any number of steps, are its ancestors; they
decide of what it is a subtype and which members its methods implement.

Ancestors are collected round by round.  A round adds the direct supertypes of
all that was found before, and as many rounds as the graph has types reach
everything that any number of steps can reach.
-/

namespace NullWeave

namespace Graph

/-! ## The types around a type -/

/-- Can a type be seen from outside, given the types that enclose it? -/
def isVisibleWithin (graph : Graph) : TypeId → List TypeId → Bool
  | type, [] => (graph.type type).access.isPublic
  | type, inner :: outer =>
      (graph.type type).access.isPublic ||
        ((graph.type type).access.nestedPublic && graph.isVisibleWithin inner outer)

/--
Can a type be seen from outside its assembly?

A public type can; a nested public one can when the type around it can.
-/
def isVisible (graph : Graph) (type : TypeId) : Bool :=
  graph.isVisibleWithin type (graph.type type).enclosing

/-- Did a tool write the type or a type around it? -/
def isGeneratedType (graph : Graph) (type : TypeId) : Bool :=
  (type :: (graph.type type).enclosing).any fun part =>
    Attribute.markGenerated (graph.type part).attributes

/-- Did a tool write the method or a type around it? -/
def isGeneratedMethod (graph : Graph) (method : MethodId) : Bool :=
  Attribute.markGenerated (graph.method method).attributes ||
    graph.isGeneratedType (graph.method method).owner

/-! ## Supertypes -/

/-- The direct supertypes of a type: the interfaces it names and the type it extends. -/
def supertypes (graph : Graph) (type : TypeId) : List TypeId :=
  (graph.type type).interfaces ++ (graph.type type).base.toList

/-- Some types with all their direct supertypes. -/
def withSupertypes (graph : Graph) (found : List TypeId) : List TypeId :=
  (found ++ found.flatMap graph.supertypes).eraseDups

/-- What a number of rounds adds to some types. -/
def ancestorsAfter (graph : Graph) : Nat → List TypeId → List TypeId
  | 0, found => found
  | rounds + 1, found => graph.ancestorsAfter rounds (graph.withSupertypes found)

/-- The types that one or more steps to a direct supertype reach from a type. -/
def ancestors (graph : Graph) (type : TypeId) : List TypeId :=
  graph.ancestorsAfter graph.types.size (graph.supertypes type)

/-- Is a type another one, or does the other one occur among its ancestors? -/
def isSubtypeOf (graph : Graph) (type other : TypeId) : Bool :=
  (type :: graph.ancestors type).any fun ancestor => graph.sameType ancestor other

/-- Does a type that is visible from outside declare a public method with this signature? -/
def offersPublicly (graph : Graph) (type : TypeId) (decl : MethodDecl) : Bool :=
  graph.isVisible type &&
    (graph.methodsOf type).any fun method =>
      (graph.method method).access.isPublic &&
        graph.sameMethodSignature (graph.method method) decl

/-- Does a virtual method override or implement a public method of a visible type? -/
def implementsPublicMember (graph : Graph) (decl : MethodDecl) : Bool :=
  decl.access.isVirtual &&
    (graph.ancestors decl.owner).any fun ancestor => graph.offersPublicly ancestor decl

/-- A number of types, each extended by the one before it. -/
def baseChainWithin (graph : Graph) : Nat → TypeId → List TypeId
  | 0, _ => []
  | steps + 1, type =>
      type ::
        match (graph.type type).base with
        | none => []
        | some base => graph.baseChainWithin steps base

/-- A type, the type it extends, the type that one extends, and so on. -/
def baseChain (graph : Graph) (type : TypeId) : List TypeId :=
  graph.baseChainWithin graph.types.size type

end Graph

end NullWeave
