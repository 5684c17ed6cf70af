import DatabaseMarkup.Document.Basic
import DatabaseMarkup.Json

/-!
# Documents as JSON

Every type of the document has a function `toJson`.  Objects name their fields in the order of
the type.  A value or an attribute is an object whose first member says its form.
-/

namespace DatabaseMarkup

namespace Value

/-- The name of the form of a value. -/
def form : Value → String
  | text _ => "text"
  | expression _ => "expression"
  | bare _ => "bare"

/-- A value as JSON. -/
def toJson (value : Value) : Json :=
  .object [("kind", .string value.form), ("value", .string value.content)]

end Value

/-- An attribute as JSON. -/
def Attribute.toJson : Attribute → Json
  | .flag name => .object [("kind", .string "flag"), ("name", .string name)]
  | .pair key value =>
    .object [("kind", .string "pair"), ("key", .string key), ("value", value.toJson)]

/-- Settings as JSON. -/
def Settings.toJson (settings : Settings) : Json :=
  .list (settings.map Attribute.toJson)

/-- A kind of relationship as JSON. -/
def RelationKind.toJson (kind : RelationKind) : Json :=
  .string kind.label

/-- An inline reference as JSON. -/
def InlineRef.toJson (r : InlineRef) : Json :=
  .object [
    ("kind", r.kind.toJson),
    ("schema", .ofString? r.schema),
    ("table", .string r.table),
    ("column", .string r.column)]

/-- A relationship as JSON. -/
def Relationship.toJson (r : Relationship) : Json :=
  .object [
    ("name", .ofString? r.name),
    ("left_schema", .ofString? r.leftSchema),
    ("left_table", .string r.leftTable),
    ("left_columns", .ofStrings r.leftColumns),
    ("right_schema", .ofString? r.rightSchema),
    ("right_table", .string r.rightTable),
    ("right_columns", .ofStrings r.rightColumns),
    ("kind", r.kind.toJson),
    ("settings", r.settings.toJson)]

/-- A column as JSON. -/
def Column.toJson (c : Column) : Json :=
  .object [
    ("name", .string c.name),
    ("data_type", .string c.dataType),
    ("default", (c.default.map Value.toJson).getD .null),
    ("note", .ofString? c.note),
    ("settings", c.settings.toJson),
    ("is_primary_key", .bool c.isPrimaryKey),
    ("is_nullable", .bool c.isNullable),
    ("is_not_null", .bool c.isNotNull),
    ("is_unique", .bool c.isUnique),
    ("is_increment", .bool c.isIncrement),
    ("inline_ref", (c.inlineRef.map InlineRef.toJson).getD .null)]

/-- A column of an index as JSON. -/
def IndexColumn.toJson (c : IndexColumn) : Json :=
  .object [
    ("kind", .string (if c.isExpression then "expression" else "name")),
    ("value", .string c.content)]

/-- An index as JSON. -/
def Index.toJson (i : Index) : Json :=
  .object [
    ("columns", .list (i.columns.map IndexColumn.toJson)),
    ("settings", i.settings.toJson),
    ("is_primary_key", .bool i.isPrimaryKey),
    ("is_unique", .bool i.isUnique),
    ("is_expression", .bool i.isExpression)]

/-- A table as JSON. -/
def Table.toJson (t : Table) : Json :=
  .object [
    ("schema", .string t.schema),
    ("name", .string t.name),
    ("alias", .ofString? t.aliasName),
    ("settings", t.settings.toJson),
    ("columns", .list (t.columns.map Column.toJson)),
    ("indexes", .list (t.indexes.map Index.toJson)),
    ("note", .ofString? t.note),
    ("injected_partials", .ofStrings t.injectedPartials)]

/-- A partial as JSON. -/
def TablePartial.toJson (p : TablePartial) : Json :=
  .object [
    ("name", .string p.name),
    ("settings", p.settings.toJson),
    ("columns", .list (p.columns.map Column.toJson)),
    ("indexes", .list (p.indexes.map Index.toJson)),
    ("note", .ofString? p.note)]

/-- A value of an enum as JSON. -/
def EnumValue.toJson (v : EnumValue) : Json :=
  .object [
    ("name", .string v.name),
    ("settings", v.settings.toJson),
    ("note", .ofString? v.note)]

/-- An enum as JSON. -/
def Enum.toJson (e : Enum) : Json :=
  .object [
    ("schema", .string e.schema),
    ("name", .string e.name),
    ("values", .list (e.values.map EnumValue.toJson))]

/-- A project as JSON. -/
def Project.toJson (p : Project) : Json :=
  .object [
    ("name", .string p.name),
    ("database_type", .ofString? p.databaseType),
    ("settings", p.settings.toJson),
    ("note", .ofString? p.note)]

/-- A group of tables as JSON. -/
def TableGroup.toJson (g : TableGroup) : Json :=
  .object [
    ("name", .string g.name),
    ("settings", g.settings.toJson),
    ("note", .ofString? g.note),
    ("tables", .ofStrings g.tables)]

/-- A sticky note as JSON. -/
def StickyNote.toJson (n : StickyNote) : Json :=
  .object [("name", .string n.name), ("content", .string n.content)]

/-- A document as JSON. -/
def Document.toJson (d : Document) : Json :=
  .object [
    ("project", (d.project.map Project.toJson).getD .null),
    ("tables", .list (d.tables.map Table.toJson)),
    ("enums", .list (d.enums.map Enum.toJson)),
    ("relationships", .list (d.relationships.map Relationship.toJson)),
    ("table_groups", .list (d.tableGroups.map TableGroup.toJson)),
    ("table_partials", .list (d.tablePartials.map TablePartial.toJson)),
    ("sticky_notes", .list (d.stickyNotes.map StickyNote.toJson))]

end DatabaseMarkup
