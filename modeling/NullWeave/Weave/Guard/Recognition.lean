import NullWeave.Code.Body
import NullWeave.Graph.SystemLibrary

/-!
# Guards that are already there

A body may check a parameter on its own.  Two shapes of operations are
recognised, wherever they stand: the name of the parameter, perhaps a message,
the construction of an exception for a null argument, and a throw.
-/

namespace NullWeave

/-- Does an operation construct with a constructor of a given full name? -/
def constructsWith (graph : Graph) (constructor : MethodId) : Operation → Bool
  | .newObj found => graph.methodName found == graph.methodName constructor
  | _ => false

/-- Does an operation load a given string? -/
def loadsString (text : String) : Operation → Bool
  | .ldStr found => found == text
  | _ => false

/-- Does an operation throw? -/
def throwsException : Operation → Bool
  | .throw => true
  | _ => false

/-- Do operations begin with a guard of a parameter that names no message? -/
def beginsWithShortGuard (graph : Graph) (parameter : String) : List Operation → Bool
  | name :: construct :: leave :: _ =>
      loadsString parameter name &&
        constructsWith graph SystemLibrary.argumentNullInit construct && throwsException leave
  | _ => false

/--
Do operations begin with a guard of a parameter that brings a message?

The message may be loaded by any one operation.
-/
def beginsWithLongGuard (graph : Graph) (parameter : String) : List Operation → Bool
  | name :: _ :: construct :: leave :: _ =>
      loadsString parameter name &&
        constructsWith graph SystemLibrary.argumentNullInitMessage construct &&
        throwsException leave
  | _ => false

/-- Do operations hold, anywhere, a guard of a parameter? -/
def alreadyGuards (graph : Graph) (parameter : String) : List Operation → Bool
  | [] => false
  | operation :: rest =>
      beginsWithShortGuard graph parameter (operation :: rest) ||
        beginsWithLongGuard graph parameter (operation :: rest) ||
        alreadyGuards graph parameter rest

/-- Does a body hold, anywhere, a guard of a parameter? -/
def MethodBody.alreadyGuards (graph : Graph) (body : MethodBody) (parameter : String) : Bool :=
  NullWeave.alreadyGuards graph parameter (body.instructions.map (·.operation))

end NullWeave
