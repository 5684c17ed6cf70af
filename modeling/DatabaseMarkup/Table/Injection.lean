import DatabaseMarkup.Settings.Merge
import DatabaseMarkup.Table.Body

/-!
# Injection of partials

An entry `~name` of a body stands for the partial of that name: its columns and indexes come in
the place of the entry, and its settings are merged into those of the table by the policy.  The
functions of `TableEntry` say what an entry contributes where certain partials are available, and
`Table.ofBlock` and `TablePartial.ofBlock` put the contributions together.  An injection for
which there is no partial contributes a problem and nothing else.
-/

namespace DatabaseMarkup

open Text

namespace TablePartial

/-- The first of the partials with the given name. -/
def find? (partials : List TablePartial) (name : String) : Option TablePartial :=
  List.find? (fun p => p.name = name) partials

end TablePartial

namespace TableEntry

/-- The partial that an entry injects. -/
def injected? (partials : List TablePartial) : TableEntry → Option TablePartial
  | injection name _ => TablePartial.find? partials name
  | _ => none

/-- The columns that an entry contributes. -/
def columnsOf (partials : List TablePartial) : TableEntry → List Column
  | column c => [c]
  | injection name _ =>
    match TablePartial.find? partials name with
    | some p => p.columns
    | none => []
  | _ => []

/-- The indexes that an entry contributes. -/
def indexesOf (partials : List TablePartial) : TableEntry → List Index
  | index i => [i]
  | injection name _ =>
    match TablePartial.find? partials name with
    | some p => p.indexes
    | none => []
  | _ => []

/-- The note that an entry sets. -/
def note? : TableEntry → Option String
  | note text => some text
  | _ => none

/-- The problem with an entry. -/
def finding? (partials : List TablePartial) : TableEntry → Option Finding
  | problem finding => some finding
  | injection name offset =>
    match TablePartial.find? partials name with
    | some _ => none
    | none => some (.placed offset (.unknownPartial name))
  | _ => none

/-- The columns that a list of entries contributes. -/
def columns (partials : List TablePartial) (entries : List TableEntry) : List Column :=
  entries.flatMap (columnsOf partials)

/-- The indexes that a list of entries contributes. -/
def indexes (partials : List TablePartial) (entries : List TableEntry) : List Index :=
  entries.flatMap (indexesOf partials)

/-- The partials that a list of entries injects, in order. -/
def injected (partials : List TablePartial) (entries : List TableEntry) : List TablePartial :=
  entries.filterMap (injected? partials)

/-- The note that a list of entries sets, which is the last one. -/
def noteOf? (entries : List TableEntry) : Option String :=
  (entries.filterMap note?).getLast?

/-- The problems with a list of entries. -/
def findings (partials : List TablePartial) (entries : List TableEntry) : List Finding :=
  entries.filterMap (finding? partials)

end TableEntry

/-- The settings of a header with those of the given partials merged in one after another. -/
def MergePolicy.mergeAll (policy : MergePolicy) (settings : Settings)
    (partials : List TablePartial) : Settings :=
  partials.foldl (fun s p => policy.merge s p.settings) settings

namespace Block

/-- The entries in the body of a table or a partial. -/
def entries (block : Block) : List TableEntry :=
  TableEntry.readAll block.finish block.body

end Block

/-- The partial that a block declares where the given partials are available. -/
def TablePartial.ofBlock (policy : MergePolicy) (earlier : List TablePartial) (block : Block) :
    TablePartial where
  name := block.nameText
  settings := policy.mergeAll block.settings (TableEntry.injected earlier block.entries)
  columns := TableEntry.columns earlier block.entries
  indexes := TableEntry.indexes earlier block.entries
  note := TableEntry.noteOf? block.entries

/-- The table that a block declares where the given partials are available.  A note in the body
goes before a note in the settings. -/
def Table.ofBlock (policy : MergePolicy) (partials : List TablePartial) (block : Block) :
    Table :=
  let entries := block.entries
  let injected := TableEntry.injected partials entries
  let settings := policy.mergeAll block.settings injected
  { schema := block.schemaText
    name := block.nameText
    aliasName := block.header.aliasName.map fun a => String.ofList (unquote a)
    settings
    columns := TableEntry.columns partials entries
    indexes := TableEntry.indexes partials entries
    note := TableEntry.noteOf? entries <|> settings.getText? "note"
    injectedPartials := injected.map TablePartial.name }

/-- The partials that a list of blocks declares after the given ones, and the problems with
them.  Every partial can inject those before it. -/
def TablePartial.ofBlocksAfter (policy : MergePolicy) (earlier : List TablePartial) :
    List Block → List TablePartial × List Finding
  | [] => ([], [])
  | block :: blocks =>
    let first := TablePartial.ofBlock policy earlier block
    let (partials, findings) := ofBlocksAfter policy (earlier ++ [first]) blocks
    (first :: partials, TableEntry.findings earlier block.entries ++ findings)

end DatabaseMarkup
