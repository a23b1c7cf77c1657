import NullWeave.Attribute

/-!
# Identities and type signatures

Types, methods and fields live in a graph and refer to each other by identity.
A type signature is what stands where a value has a type: a named type, a
generic parameter, a managed pointer, an array, or an instance of a generic
type.  What a signature says about a named type depends on the graph, so the
questions asked here need no graph; the others are in the graph's modules.
-/

namespace NullWeave

/-- The identity of a type in its graph. -/
structure TypeId where
  index : Nat
deriving DecidableEq, Inhabited

/-- The identity of a method in its graph. -/
structure MethodId where
  index : Nat
deriving DecidableEq, Inhabited

/-- The identity of a field in its graph. -/
structure FieldId where
  index : Nat
deriving DecidableEq, Inhabited

/-- A type as it appears in a signature. -/
inductive Signature where
  /-- The absence of a value; only methods return it. -/
  | void
  /-- A type without generic arguments. -/
  | named (type : TypeId)
  /-- A generic parameter; one that is constrained to value types is never null. -/
  | param (name : String) (isValueType : Bool)
  /-- A managed pointer, the type of `ref` and `out` parameters. -/
  | byRef (element : Signature)
  /-- An array counted from zero, of one dimension. -/
  | array (element : Signature)
  /-- An instance of a generic type. -/
  | generic (type : TypeId) (arguments : List Signature)
deriving Inhabited

namespace Signature

/-- Is there no value at all? -/
def isVoid : Signature → Bool
  | .void => true
  | _ => false

/-- Is the type a generic parameter? -/
def isParam : Signature → Bool
  | .param _ _ => true
  | _ => false

/-- The type that a managed pointer points at; any other type is its own element. -/
def pointee : Signature → Signature
  | .byRef element => element
  | other => other

/-- The type in the graph behind a named type or a generic instance. -/
def definition? : Signature → Option TypeId
  | .named type => some type
  | .generic type _ => some type
  | _ => none

@[simp]
theorem isVoid_eq_true_iff (signature : Signature) :
    signature.isVoid = true ↔ signature = .void := by
  cases signature <;> simp [isVoid]

@[simp]
theorem isParam_eq_true_iff (signature : Signature) :
    signature.isParam = true ↔
      ∃ name isValueType, signature = .param name isValueType := by
  cases signature <;> simp [isParam]

end Signature

end NullWeave
