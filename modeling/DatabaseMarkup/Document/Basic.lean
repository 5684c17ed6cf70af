import DatabaseMarkup.Declaration.Enum
import DatabaseMarkup.Declaration.Project
import DatabaseMarkup.Declaration.StickyNote
import DatabaseMarkup.Declaration.TableGroup
import DatabaseMarkup.Table.Basic

/-!
# Documents

A `Document` holds what a text declares, sorted by kind and otherwise in the order of the text.
-/

namespace DatabaseMarkup

/-- The declarations of a text. -/
structure Document where
  project : Option Project := none
  tables : List Table := []
  enums : List Enum := []
  relationships : List Relationship := []
  tableGroups : List TableGroup := []
  tablePartials : List TablePartial := []
  stickyNotes : List StickyNote := []
  deriving DecidableEq, Repr

namespace Document

/-- The first table with the given name, in any schema. -/
def table? (document : Document) (name : String) : Option Table :=
  document.tables.find? fun t => t.name = name

/-- The first table with the given name in the given schema. -/
def tableIn? (document : Document) (schema name : String) : Option Table :=
  document.tables.find? fun t => t.schema = schema && t.name = name

end Document

end DatabaseMarkup
