import DatabaseMarkup.Relationship.Basic

/-!
# Tables

A `Table` has columns and indexes.  A `TablePartial` has them too and lends them to the tables
that inject it.  The settings of a column and of an index are kept as they are written; the
other fields say what the known settings mean.
-/

namespace DatabaseMarkup

/-- A column of a table. -/
structure Column where
  name : String
  dataType : String
  default : Option Value := none
  note : Option String := none
  settings : Settings := []
  isPrimaryKey : Bool := false
  isNullable : Bool := false
  isNotNull : Bool := false
  isUnique : Bool := false
  isIncrement : Bool := false
  inlineRef : Option InlineRef := none
  deriving DecidableEq, Repr

/-- What an index is built on: a column or an expression. -/
inductive IndexColumn where
  | name (content : String)
  | expression (content : String)
  deriving DecidableEq, Repr

namespace IndexColumn

/-- The name of a column or the text of an expression. -/
def content : IndexColumn → String
  | name s => s
  | expression s => s

/-- Whether an index is built on an expression here. -/
def isExpression : IndexColumn → Bool
  | name _ => false
  | expression _ => true

end IndexColumn

/-- An index of a table. -/
structure Index where
  columns : List IndexColumn
  settings : Settings
  isPrimaryKey : Bool
  isUnique : Bool
  isExpression : Bool
  deriving DecidableEq, Repr

namespace Index

/-- The index on the given columns with the given settings. -/
def ofColumns (columns : List IndexColumn) (settings : Settings) : Index where
  columns
  settings
  isPrimaryKey := settings.isPrimaryKey
  isUnique := settings.hasFlag "unique"
  isExpression := columns.any IndexColumn.isExpression

/-- Whether an index is built on more than one column. -/
def isComposite (index : Index) : Bool :=
  1 < index.columns.length

end Index

/-- A table.  `injectedPartials` names the partials that it injects, in order. -/
structure Table where
  schema : String
  name : String
  aliasName : Option String
  settings : Settings
  columns : List Column
  indexes : List Index
  note : Option String
  injectedPartials : List String
  deriving DecidableEq, Repr

/-- The first column of a table with the given name. -/
def Table.column? (table : Table) (name : String) : Option Column :=
  table.columns.find? fun c => c.name = name

/-- A partial. -/
structure TablePartial where
  name : String
  settings : Settings
  columns : List Column
  indexes : List Index
  note : Option String
  deriving DecidableEq, Repr

end DatabaseMarkup
