import DatabaseMarkup.Settings.Basic

/-!
# Relationships

A `Relationship` joins columns of a left and a right table.  An `InlineRef` is what the setting
`ref` of a column says: its left side is the column itself.
-/

namespace DatabaseMarkup

/-- How many rows of either table a relationship joins. -/
inductive RelationKind where
  | oneToMany
  | manyToOne
  | oneToOne
  | manyToMany
  deriving DecidableEq, Repr

namespace RelationKind

/-- The symbol that stands between the two sides of a relationship. -/
def symbol : RelationKind → String
  | oneToMany => "<"
  | manyToOne => ">"
  | oneToOne => "-"
  | manyToMany => "<>"

/-- The name of a kind. -/
def label : RelationKind → String
  | oneToMany => "one_to_many"
  | manyToOne => "many_to_one"
  | oneToOne => "one_to_one"
  | manyToMany => "many_to_many"

end RelationKind

/-- The other side of a relationship that a column declares. -/
structure InlineRef where
  kind : RelationKind
  schema : Option String
  table : String
  column : String
  deriving DecidableEq, Repr

/-- A relationship between columns of two tables. -/
structure Relationship where
  name : Option String
  leftSchema : Option String
  leftTable : String
  leftColumns : List String
  rightSchema : Option String
  rightTable : String
  rightColumns : List String
  kind : RelationKind
  settings : Settings
  deriving DecidableEq, Repr

end DatabaseMarkup
