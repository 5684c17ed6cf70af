import DatabaseMarkup.Block.Basic

/-!
# Problems

A `Problem` says what could not be understood.  `Problem.kind` sorts the problems into seven
kinds and `Problem.message` puts each of them into words.  A `Finding` is a problem with the
offset of the text that it concerns.
-/

namespace DatabaseMarkup

/-- The kinds of problems. -/
inductive ProblemKind where
  | unterminatedBlock
  | unknownDeclaration
  | duplicateDeclaration
  | malformedLine
  | unknownSection
  | unknownPartial
  | unresolvedEndpoint
  deriving DecidableEq, Repr

/-- What a line of a body could not be read as. -/
inductive LineForm where
  | column
  | index
  | enumValue
  | tableName
  | relationship
  deriving DecidableEq, Repr

/-- What was expected of a line of the given form. -/
def LineForm.expectation : LineForm → String
  | column => "a column definition"
  | index => "an index definition"
  | enumValue => "an enum value"
  | tableName => "a table name"
  | relationship => "a relationship"

/-- A text of a document that was skipped, or a name that nothing declares. -/
inductive Problem where
  | unterminatedBlock (kind : BlockKind)
  | unknownDeclaration (line : Text)
  | duplicateProject
  | unclosedGroup
  | unclosedNote
  | malformedLine (form : LineForm) (line : Text)
  | unknownSection (word : Text)
  | unknownPartial (name : String)
  | unresolvedEndpoint (table : String)
  deriving DecidableEq, Repr

namespace Problem

/-- The kind of a problem. -/
def kind : Problem → ProblemKind
  | unterminatedBlock _ => .unterminatedBlock
  | unknownDeclaration _ => .unknownDeclaration
  | duplicateProject => .duplicateDeclaration
  | unclosedGroup => .malformedLine
  | unclosedNote => .malformedLine
  | malformedLine _ _ => .malformedLine
  | unknownSection _ => .unknownSection
  | unknownPartial _ => .unknownPartial
  | unresolvedEndpoint _ => .unresolvedEndpoint

/-- A text between backticks. -/
def quote (s : String) : String :=
  "`" ++ s ++ "`"

/-- A line without blanks at its ends and cut after its first forty characters. -/
def preview (line : Text) : String :=
  let line := Text.trim line
  if line.length ≤ 40 then
    String.ofList line
  else
    String.ofList (line.take 40) ++ "..."

/-- The wording of a problem. -/
def message : Problem → String
  | unterminatedBlock kind => quote kind.keyword ++ " block is never closed"
  | unknownDeclaration line => "skipped unrecognised text " ++ quote (preview line)
  | duplicateProject => "only the first `Project` block is used"
  | unclosedGroup => "unclosed `\x7b`"
  | unclosedNote => "unclosed note group"
  | malformedLine form line =>
    "not " ++ form.expectation ++ ": " ++ quote (String.ofList line)
  | unknownSection word => "skipped unknown section " ++ quote (String.ofList word)
  | unknownPartial name => "unknown partial " ++ quote name
  | unresolvedEndpoint table =>
    "relationship endpoint " ++ quote table ++ " names no table or alias"

end Problem

/-- A problem and the offset of the text that it concerns, if it concerns a single place. -/
structure Finding where
  offset : Option Nat
  problem : Problem
  deriving DecidableEq, Repr

/-- A problem at an offset. -/
def Finding.placed (offset : Nat) (problem : Problem) : Finding :=
  ⟨some offset, problem⟩

/-- A problem that concerns no single place. -/
def Finding.unplaced (problem : Problem) : Finding :=
  ⟨none, problem⟩

/-- The things that were read among a list of things and problems. -/
def Finding.successes {α : Type} (results : List (Except Finding α)) : List α :=
  results.filterMap Except.toOption

/-- The problems among a list of things and problems. -/
def Finding.failures {α : Type} (results : List (Except Finding α)) : List Finding :=
  results.filterMap fun
    | .ok _ => none
    | .error finding => some finding

end DatabaseMarkup
