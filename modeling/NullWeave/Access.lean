/-!
# Access modifiers

Types, methods and fields carry independent modifiers: nothing forbids a type
to be both public and nested public, so each modifier is a truth value of its
own.  Every modifier has one bit in the packed form and one keyword in the
textual form; the keywords of a set of modifiers are listed in the order of
the textual form.
-/

namespace NullWeave

/-- The words of a table whose entry holds, in the order of the table. -/
def heldWords (table : List (Bool × String)) : List String :=
  table.filterMap fun (held, word) => if held then some word else none

/-- The sum of the weights of a table whose entry holds. -/
def heldWeight : List (Bool × Nat) → Nat
  | [] => 0
  | (held, weight) :: rest => (if held then weight else 0) + heldWeight rest

/-! ## Types -/

/-- The modifiers of a type; a type with none of them is internal. -/
structure TypeAccess where
  isPublic : Bool := false
  nestedPublic : Bool := false
  nestedPrivate : Bool := false
  nestedFamily : Bool := false
  nestedAssembly : Bool := false
  isAbstract : Bool := false
  isSealed : Bool := false
deriving DecidableEq, Inhabited

namespace TypeAccess

/-- Read the packed form; bits without a modifier are dropped. -/
def ofBits (bits : Nat) : TypeAccess where
  isPublic := bits.testBit 0
  nestedPublic := bits.testBit 1
  nestedPrivate := bits.testBit 2
  nestedFamily := bits.testBit 3
  nestedAssembly := bits.testBit 4
  isAbstract := bits.testBit 7
  isSealed := bits.testBit 8

/-- The packed form. -/
def bits (access : TypeAccess) : Nat :=
  heldWeight
    [(access.isPublic, 0x0001), (access.nestedPublic, 0x0002),
      (access.nestedPrivate, 0x0004), (access.nestedFamily, 0x0008),
      (access.nestedAssembly, 0x0010), (access.isAbstract, 0x0080),
      (access.isSealed, 0x0100)]

/-- The modifiers that either side holds. -/
def union (left right : TypeAccess) : TypeAccess where
  isPublic := left.isPublic || right.isPublic
  nestedPublic := left.nestedPublic || right.nestedPublic
  nestedPrivate := left.nestedPrivate || right.nestedPrivate
  nestedFamily := left.nestedFamily || right.nestedFamily
  nestedAssembly := left.nestedAssembly || right.nestedAssembly
  isAbstract := left.isAbstract || right.isAbstract
  isSealed := left.isSealed || right.isSealed

/--
The modifier that a keyword stands for.

A type that no modifier makes visible is internal, so `internal` and `private`
are accepted and add nothing.
-/
def ofKeyword? : String → Option TypeAccess
  | "public" => some { isPublic := true }
  | "internal" => some {}
  | "private" => some {}
  | "nested-public" => some { nestedPublic := true }
  | "nested-private" => some { nestedPrivate := true }
  | "nested-family" => some { nestedFamily := true }
  | "nested-assembly" => some { nestedAssembly := true }
  | "abstract" => some { isAbstract := true }
  | "sealed" => some { isSealed := true }
  | _ => none

/-- The keywords that read back as these modifiers. -/
def keywords (access : TypeAccess) : List String :=
  heldWords
    [(access.isPublic, "public"), (access.nestedPublic, "nested-public"),
      (access.nestedPrivate, "nested-private"), (access.nestedFamily, "nested-family"),
      (access.nestedAssembly, "nested-assembly"), (access.isAbstract, "abstract"),
      (access.isSealed, "sealed")]

end TypeAccess

/-! ## Methods -/

/-- The modifiers of a method; a method without a visibility is private to its type. -/
structure MethodAccess where
  isPublic : Bool := false
  isPrivate : Bool := false
  isFamily : Bool := false
  isAssembly : Bool := false
  isStatic : Bool := false
  isVirtual : Bool := false
  newSlot : Bool := false
  isAbstract : Bool := false
  specialName : Bool := false
deriving DecidableEq, Inhabited

namespace MethodAccess

/-- Read the packed form; bits without a modifier are dropped. -/
def ofBits (bits : Nat) : MethodAccess where
  isPublic := bits.testBit 0
  isPrivate := bits.testBit 1
  isFamily := bits.testBit 2
  isAssembly := bits.testBit 3
  isStatic := bits.testBit 4
  isVirtual := bits.testBit 6
  newSlot := bits.testBit 8
  isAbstract := bits.testBit 10
  specialName := bits.testBit 11

/-- The packed form. -/
def bits (access : MethodAccess) : Nat :=
  heldWeight
    [(access.isPublic, 0x0001), (access.isPrivate, 0x0002), (access.isFamily, 0x0004),
      (access.isAssembly, 0x0008), (access.isStatic, 0x0010), (access.isVirtual, 0x0040),
      (access.newSlot, 0x0100), (access.isAbstract, 0x0400), (access.specialName, 0x0800)]

/-- The modifiers that either side holds. -/
def union (left right : MethodAccess) : MethodAccess where
  isPublic := left.isPublic || right.isPublic
  isPrivate := left.isPrivate || right.isPrivate
  isFamily := left.isFamily || right.isFamily
  isAssembly := left.isAssembly || right.isAssembly
  isStatic := left.isStatic || right.isStatic
  isVirtual := left.isVirtual || right.isVirtual
  newSlot := left.newSlot || right.newSlot
  isAbstract := left.isAbstract || right.isAbstract
  specialName := left.specialName || right.specialName

/-- The modifier that a keyword stands for; family and assembly have two spellings. -/
def ofKeyword? : String → Option MethodAccess
  | "public" => some { isPublic := true }
  | "private" => some { isPrivate := true }
  | "family" => some { isFamily := true }
  | "protected" => some { isFamily := true }
  | "assembly" => some { isAssembly := true }
  | "internal" => some { isAssembly := true }
  | "static" => some { isStatic := true }
  | "virtual" => some { isVirtual := true }
  | "abstract" => some { isAbstract := true }
  | "specialname" => some { specialName := true }
  | "newslot" => some { newSlot := true }
  | _ => none

/-- The keywords that read back as these modifiers. -/
def keywords (access : MethodAccess) : List String :=
  heldWords
    [(access.isPublic, "public"), (access.isPrivate, "private"),
      (access.isFamily, "family"), (access.isAssembly, "assembly"),
      (access.isStatic, "static"), (access.isVirtual, "virtual"),
      (access.isAbstract, "abstract"), (access.specialName, "specialname"),
      (access.newSlot, "newslot")]

end MethodAccess

/-! ## Fields -/

/-- The modifiers of a field. -/
structure FieldAccess where
  isPublic : Bool := false
  isPrivate : Bool := false
  isStatic : Bool := false
deriving DecidableEq, Inhabited

namespace FieldAccess

/-- Read the packed form; bits without a modifier are dropped. -/
def ofBits (bits : Nat) : FieldAccess where
  isPublic := bits.testBit 0
  isPrivate := bits.testBit 1
  isStatic := bits.testBit 4

/-- The packed form. -/
def bits (access : FieldAccess) : Nat :=
  heldWeight
    [(access.isPublic, 0x0001), (access.isPrivate, 0x0002), (access.isStatic, 0x0010)]

/-- The modifiers that either side holds. -/
def union (left right : FieldAccess) : FieldAccess where
  isPublic := left.isPublic || right.isPublic
  isPrivate := left.isPrivate || right.isPrivate
  isStatic := left.isStatic || right.isStatic

end FieldAccess

end NullWeave
