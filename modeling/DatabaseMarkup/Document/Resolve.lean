import DatabaseMarkup.Diagnostic.Problem
import DatabaseMarkup.Document.Basic

/-!
# Endpoints and aliases

The sides of a relationship may name a table by its alias.  `Document.assemble` turns the inline
references of columns into relationships, replaces aliases by the tables that they stand for,
and reports every side that names neither a table nor an alias.

A name of a table is never read as an alias.  Where tables share an alias, it stands for the
last one.
-/

namespace DatabaseMarkup

/-- The schema of a table as an endpoint gives it: none for the default schema. -/
def Table.givenSchema (table : Table) : Option String :=
  if table.schema = defaultSchema then none else some table.schema

/-- A table as a side of a relationship names it. -/
structure TableRef where
  schema : Option String
  table : String
  deriving DecidableEq, Repr

namespace TableRef

/-- Whether a name is that of a table. -/
def isTable (tables : List Table) (name : String) : Bool :=
  tables.any fun t => t.name = name

/-- The table that an alias stands for. -/
def aliased? (tables : List Table) (name : String) : Option Table :=
  tables.reverse.find? fun t => t.aliasName = some name

/-- Whether a name is that of a table or an alias. -/
def isKnown (tables : List Table) (name : String) : Bool :=
  isTable tables name || (aliased? tables name).isSome

/-- A reference with the table in place of its alias.  The schema of the table is added where
none was given. -/
def resolve (tables : List Table) (r : TableRef) : TableRef :=
  if isTable tables r.table then
    r
  else
    match aliased? tables r.table with
    | some t => ⟨r.schema <|> t.givenSchema, t.name⟩
    | none => r

end TableRef

namespace Relationship

/-- The left side of a relationship. -/
def left (r : Relationship) : TableRef :=
  ⟨r.leftSchema, r.leftTable⟩

/-- The right side of a relationship. -/
def right (r : Relationship) : TableRef :=
  ⟨r.rightSchema, r.rightTable⟩

/-- A relationship with the alias on its left side replaced. -/
def resolveLeft (tables : List Table) (r : Relationship) : Relationship :=
  let side := r.left.resolve tables
  { r with leftSchema := side.schema, leftTable := side.table }

/-- A relationship with the alias on its right side replaced. -/
def resolveRight (tables : List Table) (r : Relationship) : Relationship :=
  let side := r.right.resolve tables
  { r with rightSchema := side.schema, rightTable := side.table }

/-- A relationship with the aliases on both sides replaced. -/
def resolve (tables : List Table) (r : Relationship) : Relationship :=
  (r.resolveLeft tables).resolveRight tables

/-- The relationship that the inline reference of a column of a table declares. -/
def ofInline (table : Table) (column : Column) (target : InlineRef) : Relationship where
  name := none
  leftSchema := table.givenSchema
  leftTable := table.name
  leftColumns := [column.name]
  rightSchema := target.schema
  rightTable := target.table
  rightColumns := [target.column]
  kind := target.kind
  settings := []

/-- The relationships that the columns of the tables declare, in order. -/
def inline (tables : List Table) : List Relationship :=
  tables.flatMap fun table =>
    table.columns.filterMap fun column => column.inlineRef.map (ofInline table column)

/-- The sides of a relationship that name neither a table nor an alias. -/
def findings (tables : List Table) (r : Relationship) : List Finding :=
  ([r.leftTable, r.rightTable].filter fun name => !TableRef.isKnown tables name).map
    fun name => .unplaced (.unresolvedEndpoint name)

end Relationship

namespace Document

/-- The relationships of a document: those that it declares on their own with both sides
resolved, and those of its columns with the right side resolved. -/
def resolvedRelationships (document : Document) : List Relationship :=
  document.relationships.map (Relationship.resolve document.tables)
    ++ (Relationship.inline document.tables).map (Relationship.resolveRight document.tables)

/-- A document with all of its relationships, and the sides of these that name nothing. -/
def assemble (document : Document) : Document × List Finding :=
  let relationships := document.resolvedRelationships
  ({ document with relationships },
    relationships.flatMap (Relationship.findings document.tables))

end Document

end DatabaseMarkup
