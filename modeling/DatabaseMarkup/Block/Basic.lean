import DatabaseMarkup.Settings.Basic
import DatabaseMarkup.Text.Unquote

/-!
# Blocks

A document is a sequence of blocks.  A `Block` has a header, made of a keyword, names and
settings, and a body, which is the text between its braces or, for a short reference, the rest
of its line.
-/

namespace DatabaseMarkup

/-- The kinds of blocks. -/
inductive BlockKind where
  | project
  | table
  | tablePartial
  | tableGroup
  | enum
  | stickyNote
  | refBlock
  | refShort
  deriving DecidableEq, Repr

/-- The keyword that begins a block. -/
def BlockKind.keyword : BlockKind → String
  | project => "Project"
  | table => "Table"
  | tablePartial => "TablePartial"
  | tableGroup => "TableGroup"
  | enum => "enum"
  | stickyNote => "Note"
  | refBlock => "Ref"
  | refShort => "Ref"

/-- The header of a block up to its settings.  The names still have their quotes. -/
structure Header where
  kind : BlockKind
  schema : Option Text := none
  name : Option Text := none
  aliasName : Option Text := none
  deriving DecidableEq, Repr

/-- A block with its settings, its body and the offset at which the body begins. -/
structure Block where
  header : Header
  settings : Settings
  body : Text
  offset : Nat
  deriving DecidableEq, Repr

/-- The schema of a declaration that names none. -/
def defaultSchema : String := "public"

namespace Block

/-- The offset at which the body of a block ends. -/
def finish (block : Block) : Nat :=
  block.offset + Text.size block.body

/-- The name of a block without quotes.  A block without a name has the empty name. -/
def nameText (block : Block) : String :=
  match block.header.name with
  | some name => String.ofList (Text.unquote name)
  | none => ""

/-- The schema of a block without quotes. -/
def schemaText (block : Block) : String :=
  match block.header.schema with
  | some schema => String.ofList (Text.unquote schema)
  | none => defaultSchema

end Block

end DatabaseMarkup
