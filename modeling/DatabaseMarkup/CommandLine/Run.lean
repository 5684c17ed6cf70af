import DatabaseMarkup.CommandLine.Arguments
import DatabaseMarkup.CommandLine.FileSystem
import DatabaseMarkup.Document.Json
import DatabaseMarkup.Document.Reader

/-!
# Running the program

`Invocation.respond` says what the program answers to the contents of its input: the warnings,
one for each diagnostic, and the text to write or the message of a failure.  `CommandLine.run`
is a whole run, from the arguments to the exit code, with any access to files.
-/

namespace DatabaseMarkup

/-- What the program answers to the contents of its input. -/
structure Response where
  warnings : List String
  result : Except String String

/-- The hexadecimal digits of a number. -/
def hexadecimal (n : Nat) : String :=
  String.ofList (Nat.toDigits 16 n)

/-- A character of a warning.  Characters that a terminal would act upon are written as
escapes. -/
def escapeWarning (c : Char) : String :=
  let n := c.toNat
  if n = 0x07 || n = 0x08 then "\\x0" ++ hexadecimal n
  else if n = 0x0C then "\\x0c"
  else if n = 0x1B then "\\x1b"
  else if n = 0x7F then "\\x7f"
  else if 0x80 ≤ n && n ≤ 0x9F then "\\u\x7b" ++ hexadecimal n ++ "\x7d"
  else c.toString

/-- The warning about a diagnostic of the file at a path. -/
def Diagnostic.warning (path : String) (d : Diagnostic) : String :=
  String.join (((path ++ ": " ++ d.display).toList).map escapeWarning)

/-- The JSON text of a document. -/
def Document.render (document : Document) (compact : Bool) : String :=
  if compact then document.toJson.compact else document.toJson.pretty

/-- The JSON text, on one line, of the document that a source declares where tables go before
partials, or the wording of its refusal.  A reading is strict only if it is said to be. -/
def Document.jsonOfSource (source : String) (strict : Option Bool) : Except String String :=
  match (Reading.ofSource { strict := strict.getD false } source).result with
  | .ok document => .ok (document.render true)
  | .error rejection => .error rejection.message

namespace Invocation

/-- How an invocation reads its input. -/
def options (invocation : Invocation) : ReadingOptions :=
  ⟨invocation.mergePolicy, invocation.strict⟩

/-- What the program answers to a source. -/
def respondTo (invocation : Invocation) (source : String) : Response :=
  let reading := Reading.ofSource invocation.options source
  { warnings := reading.diagnostics.map (Diagnostic.warning invocation.input)
    result :=
      match reading.result with
      | .ok document => .ok (document.render invocation.compact ++ "\n")
      | .error rejection => .error ("Parse error: " ++ rejection.message) }

/-- What the program answers to the contents of its input, which it may not have been able to
read. -/
def respond (invocation : Invocation) (contents : Except FileError ByteArray) : Response :=
  let unreadable (e : FileError) : Response :=
    ⟨[], .error ("Failed to read " ++ invocation.input ++ ": " ++ e.message)⟩
  match contents with
  | .error e => unreadable e
  | .ok bytes =>
    match String.fromUTF8? bytes with
    | some source => invocation.respondTo source
    | none => unreadable .notText

end Invocation

/-- The message of a failure to write. -/
def writeFailure (path : String) (e : FileError) : String :=
  "Failed to write " ++ path ++ ": " ++ e.message

/-- The text that the option for the version asks for. -/
def versionText : String := "dbml 0.1.0\n"

/-- The text that the option for help asks for. -/
def helpText : String :=
  "Parse a DBML schema and print it as JSON\n\n"
    ++ "Usage: dbml [OPTIONS] <INPUT>\n"

namespace CommandLine

/-- What a run finds around it: which warnings are to be shown, if anything says so. -/
structure Environment where
  warningFilter? : Option (String → Bool) := none

/-- Whether a warning is shown. -/
def Environment.admits (environment : Environment) (warning : String) : Bool :=
  match environment.warningFilter? with
  | some admits => admits warning
  | none => true

/-- The end of a run: the exit code, what was written to the standard output, the warnings that were
shown, and what else was written to the standard error, without its last newline.  The wording of an
error of the arguments is not part of it. -/
structure Outcome where
  exitCode : Nat
  output : String
  warnings : List String
  errors : Option String
  deriving DecidableEq, Repr

/-- The end of a run that shows the given warnings.  What was to be answered is a text, which goes to
the path if there is one and to the standard output otherwise, or the message of a failure. -/
def conclude {m : Type → Type} [Monad m] (files : FileAccess m) (warnings : List String)
    (output : Option String) (result : Except String String) : m Outcome :=
  match result, output with
  | .error message, _ => return ⟨1, "", warnings, some message⟩
  | .ok text, none => return ⟨0, text, warnings, none⟩
  | .ok text, some path => do
    match ← files.write path text.toUTF8 with
    | .ok () => return ⟨0, "", warnings, none⟩
    | .error e => return ⟨1, "", warnings, some (writeFailure path e)⟩

/-- A run of the program with the given arguments. -/
def run {m : Type → Type} [Monad m] (files : FileAccess m) (environment : Environment)
    (arguments : List String) : m Outcome :=
  match Request.ofArguments? arguments with
  | none => return ⟨2, "", [], none⟩
  | some .showVersion => return ⟨0, versionText, [], none⟩
  | some .showHelp => return ⟨0, helpText, [], none⟩
  | some (.run invocation) => do
    let response := invocation.respond (← files.read invocation.input)
    let warnings := response.warnings.filter environment.admits
    conclude files warnings invocation.output response.result

/-- A run on the files of a state, and the state that it leaves. -/
def runOn {σ : Type} (system : FileSystem σ) (environment : Environment)
    (arguments : List String) (files : σ) : Outcome × σ :=
  Id.run ((run system.access environment arguments).run files)

end CommandLine

end DatabaseMarkup
