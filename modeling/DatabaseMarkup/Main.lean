import DatabaseMarkup.CommandLine.Run

/-!
# The program

The outer layer of the command line: the access to the files of the system, and what becomes of the
outcome of a run.
-/

namespace DatabaseMarkup.Program

/-- The number of an error of the system, which some operations report with a minus sign. -/
def errorNumber (n : UInt32) : UInt32 :=
  min n (-n)

/-- The reason behind an error of the system. -/
def fileError (e : IO.Error) : FileError :=
  match e with
  | .noFileOrDirectory .. => .notFound
  | .inappropriateType _ n _ | .invalidArgument _ n _ | .noSuchThing _ n _
  | .resourceExhausted _ n _ =>
    match errorNumber n with
    | 6 => .noDevice
    | 20 => .notDirectory
    | 21 => .isDirectory
    | 28 => .noSpace
    | 36 => .nameTooLong
    | _ => .system (toString e)
  | _ => .system (toString e)

/-- What an action yields, or the reason why it fails. -/
def attempt {α : Type} (action : IO α) : IO (Except FileError α) := do
  try
    return .ok (← action)
  catch e =>
    return .error (fileError e)

/-- The access to the files of the system. -/
def files : FileAccess IO where
  read path := attempt (IO.FS.readBinFile path)
  write path contents := attempt (IO.FS.writeBinFile path contents)

/-- The levels of a log at which warnings are not shown. -/
def quietLevels : List String := ["off", "error", "0", "1"]

/-- The environment of a run.  Of the filters that can be named in it, only a level is known. -/
def environment : IO CommandLine.Environment := do
  match ← IO.getEnv "RUST_LOG" with
  | some level => return ⟨some fun _ => !quietLevels.contains level.toLower⟩
  | none => return { }

end DatabaseMarkup.Program

open DatabaseMarkup in
/-- Reads a schema and prints it as JSON. -/
def main (arguments : List String) : IO UInt32 := do
  let outcome ← CommandLine.run Program.files (← Program.environment) arguments
  for warning in outcome.warnings do
    IO.eprintln ("WARN " ++ warning)
  if outcome.exitCode = 2 then
    IO.eprint helpText
  IO.print outcome.output
  if let some message := outcome.errors then
    IO.eprintln message
  return outcome.exitCode.toUInt32
