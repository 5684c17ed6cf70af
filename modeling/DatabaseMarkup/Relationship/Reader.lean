import DatabaseMarkup.Block.Basic
import DatabaseMarkup.Diagnostic.Problem
import DatabaseMarkup.Relationship.Basic
import DatabaseMarkup.Settings.Reader
import DatabaseMarkup.Text.Name

/-!
# Written relationships

A relationship is written on one line as two endpoints with a symbol between them, followed by
settings.  An endpoint names a table, which a schema may qualify, and a column or a list of
columns in parentheses.  `Relationship.readLine?` reads such a line, `Relationship.readShort`
and `Relationship.readBlock` the bodies of the two forms of reference blocks, and
`InlineRef.read?` the value of the setting `ref` of a column.
-/

namespace DatabaseMarkup

open Text

namespace RelationKind

/-- The kind that a text gives the symbol of.  A text that is no symbol means one to many. -/
def ofSymbol (t : Text) : RelationKind :=
  let symbol := trim t
  if symbol = ['>'] then manyToOne
  else if symbol = ['-'] then oneToOne
  else if symbol = ['<', '>'] then manyToMany
  else oneToMany

/-- The kind whose symbol a text begins with, and the text after the symbol. -/
def split? : Text → Option (RelationKind × Text)
  | [] => none
  | c :: t =>
    if c = '<' then
      match splitChar? '>' t with
      | some rest => some (manyToMany, rest)
      | none => some (oneToMany, t)
    else if c = '>' then some (manyToOne, t)
    else if c = '-' then some (oneToOne, t)
    else none

end RelationKind

/-- One side of a relationship. -/
structure Endpoint where
  schema : Option String
  table : String
  columns : List String
  deriving DecidableEq, Repr

namespace Endpoint

/-- The columns at the start of a text, a single one or a list in parentheses, and the text
after them.  A list ends at the first closing parenthesis. -/
def splitColumns? : Text → Option (List String × Text)
  | [] => none
  | c :: t =>
    if c = '(' then
      match cutAtMark [')'] t with
      | some (inner, rest) =>
        let names := ((splitTopLevel ',' inner).map unquote).filter fun n => !n.isEmpty
        some (names.map String.ofList, rest)
      | none => none
    else
      match splitName? (c :: t) with
      | some (name, rest) => some ([String.ofList (unquote name)], rest)
      | none => none

/-- The name and the dot at the start of a text, and the text after them. -/
def splitQualifier? (t : Text) : Option (Text × Text) :=
  match splitName? t with
  | some (name, rest) => (splitChar? '.' rest).map fun rest => (name, rest)
  | none => none

/-- The endpoint at the start of a text and the text after it. -/
def split? (t : Text) : Option (Endpoint × Text) := do
  let (first, afterFirst) ← splitQualifier? t
  let qualified := do
    let (second, afterSecond) ← splitQualifier? afterFirst
    let (columns, rest) ← splitColumns? afterSecond
    return (⟨some (String.ofList (unquote first)), String.ofList (unquote second), columns⟩, rest)
  let unqualified := do
    let (columns, rest) ← splitColumns? afterFirst
    return (⟨none, String.ofList (unquote first), columns⟩, rest)
  qualified <|> unqualified

end Endpoint

namespace Relationship

/-- The relationship that a line describes.  Both endpoints must have a column, and nothing but
settings may follow the second one.  Flags among the settings are dropped. -/
def readLine? (name : Option Text) (line : Text) : Option Relationship := do
  let (left, rest) ← Endpoint.split? (trim line)
  let (kind, rest) ← RelationKind.split? (trimStart rest)
  let (right, rest) ← Endpoint.split? (trimStart rest)
  let (settings, rest) := Settings.readGroups (trimStart rest)
  if allBlank rest && !left.columns.isEmpty && !right.columns.isEmpty then
    return {
      name := name.map fun n => String.ofList (unquote n)
      leftSchema := left.schema
      leftTable := left.table
      leftColumns := left.columns
      rightSchema := right.schema
      rightTable := right.table
      rightColumns := right.columns
      kind
      settings := settings.filter Attribute.isPair }
  else
    none

/-- The relationship that a line at an offset describes, or the problem with the line. -/
def readLine (name : Option Text) (offset : Nat) (line : Text) : Except Finding Relationship :=
  match readLine? name line with
  | some relationship => .ok relationship
  | none => .error (.placed offset (.malformedLine .relationship (trim line)))

/-- What the lines of a reference block describe.  Blank lines describe nothing. -/
def readBlock (block : Block) : List (Except Finding Relationship) :=
  ((lines block.offset block.body).filter fun (_, line) => !allBlank line).map
    fun (offset, line) => readLine block.header.name offset line

/-- What the line of a short reference describes. -/
def readShort (block : Block) : Except Finding Relationship :=
  readLine block.header.name block.offset block.body

end Relationship

namespace InlineRef

/-- The other side of a relationship that the value of the setting `ref` describes: a symbol and
a dotted path of two or three names. -/
def read? (value : Text) : Option InlineRef := do
  let (kind, rest) ← RelationKind.split? (trim value)
  let target := trimStart rest
  let (_, afterFirst) ← Endpoint.splitQualifier? target
  let (_, afterSecond) ← splitName? afterFirst
  let wellFormed :=
    afterSecond.isEmpty ||
      match (splitChar? '.' afterSecond).bind splitName? with
      | some (_, rest) => rest.isEmpty
      | none => false
  if wellFormed then
    match (splitPath target).reverse with
    | column :: table :: schema =>
      return {
        kind
        schema := schema.head?.map String.ofList
        table := String.ofList table
        column := String.ofList column }
    | _ => none
  else
    none

end InlineRef

end DatabaseMarkup
