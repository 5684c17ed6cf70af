import DatabaseMarkup.Diagnostic.Problem
import DatabaseMarkup.Text.Position

/-!
# Diagnostics

A `Diagnostic` is a problem as it is reported: its kind, its line and column, and its wording.
One that concerns no single place has line zero.  `Diagnostic.sort` orders diagnostics by line,
with those without a place at the end, and leaves those of one line in their order.  A
`Rejection` is the refusal of a document that has diagnostics.
-/

namespace DatabaseMarkup

/-- A problem with its position and wording. -/
structure Diagnostic where
  kind : ProblemKind
  line : Nat
  column : Nat
  message : String
  deriving DecidableEq, Repr

namespace Diagnostic

/-- A diagnostic at an offset of a text with the given lines. -/
def placed (index : LineIndex) (offset : Nat) (kind : ProblemKind) (message : String) :
    Diagnostic :=
  let position := index.locate offset
  ⟨kind, position.line, position.column, message⟩

/-- A diagnostic that concerns no single place. -/
def unplaced (kind : ProblemKind) (message : String) : Diagnostic :=
  ⟨kind, 0, 0, message⟩

/-- The diagnostic of a finding in a text with the given lines. -/
def ofFinding (index : LineIndex) (finding : Finding) : Diagnostic :=
  match finding.offset with
  | some offset => placed index offset finding.problem.kind finding.problem.message
  | none => unplaced finding.problem.kind finding.problem.message

/-- The line in which a diagnostic is shown to a reader. -/
def display (d : Diagnostic) : String :=
  if d.line = 0 then
    d.message
  else
    toString d.line ++ ":" ++ toString d.column ++ ": " ++ d.message

/-- Whether a diagnostic may stand before another one. -/
def precedes (d e : Diagnostic) : Bool :=
  e.line = 0 || (d.line ≠ 0 && d.line ≤ e.line)

/-- Diagnostics in the order of their lines. -/
def sort (ds : List Diagnostic) : List Diagnostic :=
  ds.mergeSort precedes

end Diagnostic

/-- The refusal of a document: its first diagnostic and all of them. -/
structure Rejection where
  first : Diagnostic
  diagnostics : List Diagnostic
  deriving DecidableEq, Repr

namespace Rejection

/-- The refusal of a document with the given diagnostics, if there are any. -/
def ofDiagnostics? : List Diagnostic → Option Rejection
  | [] => none
  | d :: ds => some ⟨d, d :: ds⟩

/-- The wording of a refusal. -/
def message (r : Rejection) : String :=
  toString r.diagnostics.length ++ " problem(s) in input, first: " ++ r.first.display

end Rejection

end DatabaseMarkup
