import NullWeave.Code.Instruction
import NullWeave.Graph.SystemLibrary

/-!
# Guards

A guard loads a value, goes on if it is not null, and otherwise constructs an
exception and leaves.  In debug builds it first asserts what it checks.  Where
the value is not null, a guard leaves the stack as it found it.
-/

namespace NullWeave

/-- The value that a guard checks. -/
inductive GuardedValue where
  /-- The argument in a slot; a managed pointer is followed. -/
  | argument (slot : UInt16) (type : Signature)
  /-- The value on top of the stack, which stays there. -/
  | stackTop (type : Signature)
deriving Inhabited

/-- The exception for a value that is null. -/
inductive GuardFailure where
  /-- An argument is null; the exception names the parameter. -/
  | argumentNull (parameter : String)
  /-- A result is null. -/
  | invalidOperation
deriving DecidableEq, Inhabited

/-- How a guard leaves with its exception. -/
inductive GuardExit where
  | throw
  /-- Hand the exception to a method, whose receiver lies under the value, and return. -/
  | report (setException : MethodId)
deriving DecidableEq, Inhabited

/-- A guard, but for the place where it goes on. -/
structure Guard where
  subject : GuardedValue
  message : String
  failure : GuardFailure
  exit : GuardExit := .throw
deriving Inhabited

namespace GuardedValue

/--
The operations that load the value.

A generic value is boxed, because only a reference can be tested for null.
-/
def load : GuardedValue → List Operation
  | .argument slot (.byRef element) =>
      if element.isParam then
        [.ldArg slot, .ldObj element, .box element]
      else
        [.ldArg slot, .ldIndRef]
  | .argument slot type =>
      if type.isParam then [.ldArg slot, .box type] else [.ldArg slot]
  | .stackTop type => if type.isParam then [.dup, .box type] else [.dup]

/-- The operations that take the value away where it is null. -/
def discard : GuardedValue → List Operation
  | .argument _ _ => []
  | .stackTop _ => [.pop]

end GuardedValue

/-- The operations that construct the exception. -/
def GuardFailure.construct (message : String) : GuardFailure → List Operation
  | .argumentNull parameter =>
      [.ldStr parameter, .ldStr message, .newObj SystemLibrary.argumentNullInitMessage]
  | .invalidOperation => [.ldStr message, .newObj SystemLibrary.invalidOperationInit]

/-- The operations that leave with the exception. -/
def GuardExit.leave : GuardExit → List Operation
  | .throw => [.throw]
  | .report setException => [.call setException, .ret]

namespace Guard

/-- The operations that assert, in debug builds, that the value is not null. -/
def assertion (guard : Guard) : List Operation :=
  guard.subject.load ++
    [.ldNull, .ceq, .ldcI4 0, .ceq, .ldStr guard.message, .call SystemLibrary.debugAssert]

/-- The operations of a guard that goes on at an instruction. -/
def operations (debugBuild : Bool) (guard : Guard) (continuation : InstrId) : List Operation :=
  (if debugBuild then guard.assertion else []) ++ guard.subject.load ++
    [.branch .ifTrue .long continuation] ++ guard.subject.discard ++
    guard.failure.construct guard.message ++ guard.exit.leave

end Guard

end NullWeave
