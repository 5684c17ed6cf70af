import DatabaseMarkup.Block.Header
import DatabaseMarkup.Block.Note
import DatabaseMarkup.Settings.Reader

/-!
# Groups of tables

The body of a group names one table on every line.  It may also hold notes and lines of the form
`key: value`, which add to the settings of the group.
-/

namespace DatabaseMarkup

open Text

/-- A group of tables, which are given by their names. -/
structure TableGroup where
  name : String
  settings : Settings
  note : Option String
  tables : List String
  deriving DecidableEq, Repr

/-- What a part of the body of a group says. -/
inductive TableGroupEntry where
  | table (name : String)
  | setting (a : Attribute)
  | note (text : String)
  deriving DecidableEq, Repr

namespace TableGroupEntry

/-- Whether a line is the name of a table, which a schema may qualify. -/
def isTableName (line : Text) : Bool :=
  match qualifiedName? line with
  | some (_, _, rest) => rest.isEmpty
  | none => false

/-- What the first line of a text says.  The text ends at `finish`. -/
def ofFirstLine (finish : Nat) (t : Text) : Except Finding TableGroupEntry :=
  let line := trim (firstLine t)
  if isTableName line then
    .ok (.table (String.ofList ((splitPath line).intersperse ['.']).flatten))
  else
    match cutAtMark [':'] line with
    | some (key, value) => .ok (.setting (.pair (normalName key) (Value.read (trim value)).1))
    | none => .error (.placed (startOf finish t) (.malformedLine .tableName line))

/-- What the part at the start of a text that ends at `finish` says, and the text after it. -/
def splitFirst (finish : Nat) (t : Text) : Except Finding TableGroupEntry × Text :=
  match Note.split? finish t with
  | some (text, rest) => (text.map note, rest)
  | none => (ofFirstLine finish t, dropLine t)

/-- Cutting off an entry leaves less text. -/
theorem length_splitFirst_lt (finish : Nat) (c : Char) (t : Text) :
  (splitFirst finish (c :: t)).2.length < (c :: t).length
  := by
  rw [splitFirst]
  split
  · rename_i h
    exact Note.length_split_lt h
  · exact length_dropLine_lt c t

/-- What the parts of a body that ends at `finish` say. -/
def readAll (finish : Nat) (t : Text) : List (Except Finding TableGroupEntry) :=
  match _ : skipBlanks t with
  | [] => []
  | c :: u =>
    let first := splitFirst finish (c :: u)
    first.1 :: readAll finish first.2
termination_by t.length
decreasing_by
  have h : skipBlanks t = c :: u := by assumption
  have := length_splitFirst_lt finish c u
  have := length_skipBlanks_le t
  rw [h] at this
  omega

/-- The name of the table that an entry adds. -/
def table? : TableGroupEntry → Option String
  | table name => some name
  | _ => none

/-- The attribute that an entry adds. -/
def setting? : TableGroupEntry → Option Attribute
  | setting a => some a
  | _ => none

/-- The note that an entry sets. -/
def note? : TableGroupEntry → Option String
  | note text => some text
  | _ => none

end TableGroupEntry

namespace TableGroup

/-- What the parts of the body of a block say. -/
def entries (block : Block) : List (Except Finding TableGroupEntry) :=
  TableGroupEntry.readAll block.finish block.body

/-- The group that a block declares.  The last note in the body goes before a note in the
settings of the header. -/
def ofBlock (block : Block) : TableGroup :=
  let entries := Finding.successes (entries block)
  { name := block.nameText
    settings := block.settings ++ entries.filterMap TableGroupEntry.setting?
    note := (entries.filterMap TableGroupEntry.note?).getLast?
      <|> block.settings.getText? "note"
    tables := entries.filterMap TableGroupEntry.table? }

end TableGroup

end DatabaseMarkup
