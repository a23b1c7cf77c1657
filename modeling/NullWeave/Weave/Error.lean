import NullWeave.Text.Fault

/-!
# Why weaving fails

An error of weaving either is a cause of its own or wraps another error; the
chain of an error lists it with all that it wraps.
-/

namespace NullWeave

/-- Why a program could not be woven. -/
inductive WeaveError where
  | code (error : CodeError)
  | text (error : TextError)
  /-- A text names flags that there are not. -/
  | invalidFlags (written : String)
  /-- One method could not be processed, which ends the run. -/
  | inMethod (method : String) (cause : WeaveError)
deriving DecidableEq, Inhabited

namespace WeaveError

/-- The wording of an error; an error that only wraps one has the wording of that one. -/
def message : WeaveError → String
  | .code error => error.message
  | .text error => error.message
  | .invalidFlags written => "invalid validation flags '" ++ written ++ "'"
  | .inMethod method _ =>
      "An error occurred processing method '" ++ method ++ "'."

/-- The wordings of an error of code and of what it wraps. -/
def codeChain : CodeError → List String
  | .io reason => [CodeError.message (.io reason), reason]
  | error => [error.message]

/-- The wordings of an error and of all that it wraps, from the outside in. -/
def chain : WeaveError → List String
  | .code error => error.message :: codeChain error
  | .text error => [error.message, error.message]
  | .invalidFlags written => [message (.invalidFlags written)]
  | .inMethod method cause => message (.inMethod method cause) :: cause.chain

end WeaveError

end NullWeave
