import NullWeave.Text.Loading.Module
import NullWeave.Text.Printing.Module
import NullWeave.Weave.ErrorForm
import NullWeave.Weave.Weaver

/-!
# The command line

A run reads a module, weaves it, on request encodes every body, and gives the
woven module as a text.  The first failure ends the run, and then there is no
text.
-/

namespace NullWeave

/-- What the command line asks for. -/
structure Options where
  flags : Option String := none
  explicitMode : Bool := false
  debugBuild : Bool := false
  encode : Bool := false
  output : Option String := none
  input : Option String := none
deriving DecidableEq, Inhabited

/-- Why arguments are refused. -/
inductive ArgumentFault where
  | unexpected (argument : String)
  | repeated (name : String)
  | valueMissing (name : String)
  | inputMissing
deriving DecidableEq, Inhabited

/-- The wording of a refusal. -/
def ArgumentFault.message : ArgumentFault → String
  | .unexpected argument => "unexpected argument '" ++ argument ++ "' found"
  | .repeated name => "the argument '" ++ name ++ "' cannot be used multiple times"
  | .valueMissing name => "a value is required for '" ++ name ++ "' but none was supplied"
  | .inputMissing => "the following required arguments were not provided: <INPUT>"

namespace Options

/-- What follows an equals sign after the name of an option. -/
def valueAfter? (name argument : String) : Option String :=
  let start := (name ++ "=").toList
  if start.isPrefixOf argument.toList then
    some (String.ofList (argument.toList.drop start.length))
  else
    none

/-- Is an argument an option, and not a value or the name of a file? -/
def isOption (argument : String) : Bool :=
  argument.toList.head? == some '-' && argument != "-"

/-- Set the flags, which may be given once. -/
def withFlags (options : Options) (value : String) : Except ArgumentFault Options :=
  if options.flags.isSome then
    .error (.repeated "--flags <FLAGS>")
  else
    .ok { options with flags := some value }

/-- Set the output file, which may be given once. -/
def withOutput (options : Options) (value : String) : Except ArgumentFault Options :=
  if options.output.isSome then
    .error (.repeated "--output <FILE>")
  else
    .ok { options with output := some value }

/-- Take in an argument that needs no other one. -/
def withArgument (options : Options) (argument : String) : Except ArgumentFault Options :=
  match argument with
  | "--explicit" =>
      if options.explicitMode then .error (.repeated argument)
      else .ok { options with explicitMode := true }
  | "--debug-build" =>
      if options.debugBuild then .error (.repeated argument)
      else .ok { options with debugBuild := true }
  | "--encode" =>
      if options.encode then .error (.repeated argument)
      else .ok { options with encode := true }
  | _ =>
      match valueAfter? "--flags" argument, valueAfter? "--output" argument with
      | some value, _ => options.withFlags value
      | none, some value => options.withOutput value
      | none, none =>
          if isOption argument || options.input.isSome then
            .error (.unexpected argument)
          else
            .ok { options with input := some argument }

/-- The option that takes the next argument as its value. -/
def valueSetter? : String → Option (Options → String → Except ArgumentFault Options)
  | "--flags" => some withFlags
  | "--output" => some withOutput
  | "-o" => some withOutput
  | _ => none

/-- Read arguments from left to right.  An option is not taken for a value. -/
def readInto (options : Options) : List String → Except ArgumentFault Options
  | [] => .ok options
  | argument :: rest =>
      match valueSetter? argument with
      | none => do
          readInto (← options.withArgument argument) rest
      | some set =>
          match rest with
          | [] => .error (.valueMissing argument)
          | value :: others =>
              if isOption value then
                .error (.valueMissing argument)
              else do
                readInto (← set options value) others

/-- Read all arguments, among which the input has to be. -/
def read (arguments : List String) : Except ArgumentFault Options := do
  let options ← readInto {} arguments
  if options.input.isNone then
    throw .inputMissing
  pure options

/-- The settings that options ask for. -/
def settings (options : Options) : Except WeaveError Settings := do
  let flags ←
    match options.flags with
    | none => pure CheckedValues.allPublic
    | some written => CheckedValues.parse written
  pure { flags, explicitMode := options.explicitMode, debugBuild := options.debugBuild }

end Options

/-- Weave the module that a text holds, as options ask; the result is the woven text. -/
def Options.run (options : Options) (text : String) : Except WeaveError String := do
  let settings ← options.settings
  match Program.initial.load text with
  | (.error error, _) => throw (.text error)
  | (.ok module, program) => do
      let outcome := program.weave settings module
      if let some failure := outcome.failure then
        throw failure
      let woven := outcome.program
      if options.encode then
        match ((woven.encodeAll (module.methods woven.graph)).run {}).1 with
        | .error failure => throw (.code failure)
        | .ok () => pure ()
      pure (woven.print module)

/-- How a failure is told. -/
def WeaveError.report (error : WeaveError) : String := "Error: " ++ error.shown

end NullWeave
