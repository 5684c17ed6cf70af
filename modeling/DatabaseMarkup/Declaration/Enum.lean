import DatabaseMarkup.Diagnostic.Problem
import DatabaseMarkup.Settings.Reader
import DatabaseMarkup.Text.Name

/-!
# Enums

The body of an enum has one value on every line: a name, which settings may follow.
`EnumValue.readAll` reads the lines of a body; blank lines stand for nothing.
-/

namespace DatabaseMarkup

open Text

/-- A value of an enum. -/
structure EnumValue where
  name : String
  settings : Settings
  note : Option String
  deriving DecidableEq, Repr

/-- An enum. -/
structure Enum where
  schema : String
  name : String
  values : List EnumValue
  deriving DecidableEq, Repr

namespace EnumValue

/-- The value that a line describes. -/
def readLine? (line : Text) : Option EnumValue :=
  match splitName? (trim line) with
  | some (name, rest) =>
    let (settings, rest) := Settings.readGroups (trimStart rest)
    if allBlank rest then
      some ⟨String.ofList (unquote name), settings, settings.getText? "note"⟩
    else
      none
  | none => none

/-- The value that a line at an offset describes, or the problem with the line. -/
def readLine (offset : Nat) (line : Text) : Except Finding EnumValue :=
  match readLine? line with
  | some value => .ok value
  | none => .error (.placed offset (.malformedLine .enumValue (trim line)))

/-- What the lines of a body at an offset describe. -/
def readAll (offset : Nat) (body : Text) : List (Except Finding EnumValue) :=
  ((lines offset body).filter fun (_, line) => !allBlank line).map
    fun (offset, line) => readLine offset line

end EnumValue

/-- The enum that a block declares. -/
def Enum.ofBlock (block : Block) : Enum where
  schema := block.schemaText
  name := block.nameText
  values := Finding.successes (EnumValue.readAll block.offset block.body)

end DatabaseMarkup
