import DatabaseMarkup.Block.Segment
import DatabaseMarkup.Diagnostic.Basic
import DatabaseMarkup.Document.Resolve
import DatabaseMarkup.Relationship.Reader
import DatabaseMarkup.Table.Injection
import DatabaseMarkup.Text.Comment

/-!
# Reading a document

`Document.ofBlocks` makes a document of the blocks of a text.  Partials are read first and then
the tables, so that a table may inject any partial; all other blocks are read in order.
`Report.ofSource` reads a whole text.  It always yields a document; what could not be understood
is left out of the document and is among the diagnostics of the report.  `Reading.ofSource` reads
with options, and a strict reading rejects a document that has diagnostics.
-/

namespace DatabaseMarkup

namespace Block

/-- The blocks of a given kind. -/
def ofKind (kind : BlockKind) (blocks : List Block) : List Block :=
  blocks.filter fun b => b.header.kind = kind

/-- The relationships that a block describes, and the problems with them. -/
def relationships (block : Block) : List (Except Finding Relationship) :=
  match block.header.kind with
  | .refShort => [Relationship.readShort block]
  | .refBlock => Relationship.readBlock block
  | _ => []

/-- The problems with a block that is no table or partial. -/
def bodyFindings (block : Block) : List Finding :=
  match block.header.kind with
  | .enum => Finding.failures (EnumValue.readAll block.offset block.body)
  | .tableGroup => Finding.failures (TableGroup.entries block)
  | .refShort => Finding.failures block.relationships
  | .refBlock => Finding.failures block.relationships
  | _ => []

/-- The problems with a list of blocks that are no tables or partials.  Only the first project
is read, and `projectSeen` says whether it came before the blocks. -/
def findingsAfter (projectSeen : Bool) : List Block → List Finding
  | [] => []
  | block :: blocks =>
    if block.header.kind = .project then
      if projectSeen then
        .placed block.offset .duplicateProject :: findingsAfter true blocks
      else
        Finding.failures (Project.entries block) ++ findingsAfter true blocks
    else
      block.bodyFindings ++ findingsAfter projectSeen blocks

end Block

namespace Document

/-- The document that a list of blocks declares, before its endpoints are resolved, and the
problems with the blocks. -/
def ofBlocks (policy : MergePolicy) (blocks : List Block) : Document × List Finding :=
  let (partials, partialFindings) :=
    TablePartial.ofBlocksAfter policy [] (Block.ofKind .tablePartial blocks)
  let tables := Block.ofKind .table blocks
  let document := {
    project := (Block.ofKind .project blocks).head?.map Project.ofBlock
    tables := tables.map (Table.ofBlock policy partials)
    enums := (Block.ofKind .enum blocks).map Enum.ofBlock
    relationships := blocks.flatMap fun b => Finding.successes b.relationships
    tableGroups := (Block.ofKind .tableGroup blocks).map TableGroup.ofBlock
    tablePartials := partials
    stickyNotes := (Block.ofKind .stickyNote blocks).map StickyNote.ofBlock }
  (document,
    partialFindings ++ tables.flatMap (fun b => TableEntry.findings partials b.entries)
      ++ Block.findingsAfter false blocks)

/-- The document that a text without comments declares, and all problems with the text. -/
def ofText (policy : MergePolicy) (t : Text) : Document × List Finding :=
  let segments := Segment.ofText t
  let (declared, blockFindings) := ofBlocks policy (segments.filterMap Segment.block?)
  let (document, endpointFindings) := declared.assemble
  (document, segments.filterMap Segment.finding? ++ blockFindings ++ endpointFindings)

end Document

/-- The result of reading a text: a document and what was left out of it. -/
structure Report where
  document : Document
  diagnostics : List Diagnostic
  deriving DecidableEq, Repr

namespace Report

/-- The result of reading a source with the given policy. -/
def ofSource (policy : MergePolicy) (source : String) : Report :=
  let t := Text.stripComments source.toList
  let (document, findings) := Document.ofText policy t
  let index := LineIndex.ofText t
  ⟨document, Diagnostic.sort (findings.map (Diagnostic.ofFinding index))⟩

/-- The document of a report, which a strict reading rejects if there are diagnostics. -/
def result (report : Report) (strict : Bool) : Except Rejection Document :=
  if strict then
    match Rejection.ofDiagnostics? report.diagnostics with
    | some rejection => .error rejection
    | none => .ok report.document
  else
    .ok report.document

end Report

/-- How a source is to be read. -/
structure ReadingOptions where
  mergePolicy : MergePolicy := .tableWins
  strict : Bool := false
  deriving DecidableEq, Repr

/-- A report that knows whether it comes of a strict reading. -/
structure Reading extends Report where
  isStrict : Bool
  deriving DecidableEq, Repr

namespace Reading

/-- The result of reading a source with the given options. -/
def ofSource (options : ReadingOptions) (source : String) : Reading where
  toReport := Report.ofSource options.mergePolicy source
  isStrict := options.strict

/-- The document of a reading, if the reading does not reject it. -/
def result (reading : Reading) : Except Rejection Document :=
  reading.toReport.result reading.isStrict

end Reading

end DatabaseMarkup
