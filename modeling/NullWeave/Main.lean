import NullWeave.CommandLine

/-!
# The program

Reads the arguments and the input, runs, and writes the result to the standard
output or to a file.
-/

namespace NullWeave

/-- The error for a reason that the system gave. -/
def ioFailure (error : IO.Error) : WeaveError := .code (.io (toString error))

/-- Tell a failure and give the exit code for it. -/
def failWith (error : WeaveError) : IO UInt32 := do
  IO.eprintln error.report
  pure 1

/-- Write the woven text where it belongs. -/
def writeResult (options : Options) (text : String) : IO Unit :=
  match options.output with
  | some file => IO.FS.writeFile file text
  | none => IO.print text

/-- Run on an input file. -/
def runOn (options : Options) (file : String) : IO UInt32 := do
  match options.settings with
  | .error error => failWith error
  | .ok _ =>
      match ← (IO.FS.readFile file).toBaseIO with
      | .error error => failWith (ioFailure error)
      | .ok text =>
          match options.run text with
          | .error error => failWith error
          | .ok woven =>
              match ← (writeResult options woven).toBaseIO with
              | .error error => failWith (ioFailure error)
              | .ok () => pure 0

end NullWeave

open NullWeave in
/-- The entry point. -/
def main (arguments : List String) : IO UInt32 := do
  match Options.read arguments with
  | .error fault =>
      IO.eprintln ("error: " ++ fault.message)
      pure 2
  | .ok options => runOn options (options.input.getD "")
