import DatabaseMarkup.Document.Reader
import DatabaseMarkup.Proofs.Checked.Body
import DatabaseMarkup.Proofs.Checked.Comment
import DatabaseMarkup.Proofs.Checked.Declaration
import DatabaseMarkup.Proofs.Checked.Position
import DatabaseMarkup.Proofs.Checked.Segment

/-!
# Reading never fails

`Checked.report` reads a source by offsets throughout, from its comments to the positions of the
diagnostics.  `reading_never_fails` states that it comes to the report of every source: no slice
cuts a character in two or ends before it begins, no index lies behind the end of what it looks
into, no subtraction falls below zero, and every loop moves on.
-/

namespace DatabaseMarkup

namespace Checked

open Text

/-! ## Tables and partials -/

/-- The table that a block declares where the given partials are available, and the problems with
it. -/
def readTable (policy : MergePolicy) (partials : List TablePartial) (block : Block) :
    Checked (Table × List Finding) := do
  let entries ← readBody block.body block.offset
  let schema ← blockSchema block
  let name ← blockName block
  let aliasName ← unquoteName? block.header.aliasName
  let injected := TableEntry.injected partials entries
  let settings := policy.mergeAll block.settings injected
  let table : Table := {
    schema
    name
    aliasName
    settings
    columns := TableEntry.columns partials entries
    indexes := TableEntry.indexes partials entries
    note := TableEntry.noteOf? entries <|> settings.getText? "note"
    injectedPartials := injected.map TablePartial.name }
  return (table, TableEntry.findings partials entries)

/-- The partial that a block declares where the given partials are available, and the problems
with it. -/
def readPartial (policy : MergePolicy) (earlier : List TablePartial) (block : Block) :
    Checked (TablePartial × List Finding) := do
  let entries ← readBody block.body block.offset
  let name ← blockName block
  let declared : TablePartial := {
    name
    settings := policy.mergeAll block.settings (TableEntry.injected earlier entries)
    columns := TableEntry.columns earlier entries
    indexes := TableEntry.indexes earlier entries
    note := TableEntry.noteOf? entries }
  return (declared, TableEntry.findings earlier entries)

/-- A table is read by offsets with the findings in its body. -/
theorem readTable_eq (policy : MergePolicy) (partials : List TablePartial) (block : Block) :
  readTable policy partials block
    = .ok (Table.ofBlock policy partials block, TableEntry.findings partials block.entries)
  := by
  rw [readTable, readBody_eq, ok_bind, blockSchema_eq, ok_bind, blockName_eq, ok_bind,
    unquoteName?_eq]
  rfl

/-- A partial is read by offsets with the findings in its body. -/
theorem readPartial_eq (policy : MergePolicy) (earlier : List TablePartial) (block : Block) :
  readPartial policy earlier block
    = .ok (TablePartial.ofBlock policy earlier block, TableEntry.findings earlier block.entries)
  := by
  rw [readPartial, readBody_eq, ok_bind, blockName_eq]
  rfl

/-! ## Documents -/

/-- A document as far as it has been read, with the problems so far. -/
abbrev Progress := Document × List Finding

/-- The progress after a block that declares a partial. -/
def addPartial (policy : MergePolicy) (s : Progress) (block : Block) : Checked Progress := do
  let (document, findings) := s
  let (declared, more) ← readPartial policy document.tablePartials block
  return ({ document with tablePartials := document.tablePartials ++ [declared] }, findings ++ more)

/-- The progress after a block that declares a table. -/
def addTable (policy : MergePolicy) (s : Progress) (block : Block) : Checked Progress := do
  let (document, findings) := s
  let (table, more) ← readTable policy document.tablePartials block
  return ({ document with tables := document.tables ++ [table] }, findings ++ more)

/-- The progress after the relationships that a block describes. -/
def addRelationships (s : Progress) (results : List (Except Finding Relationship)) : Progress :=
  ({ s.1 with relationships := s.1.relationships ++ Finding.successes results },
    s.2 ++ Finding.failures results)

/-- The progress after a block that declares no table or partial. -/
def addBlock (s : Progress) (block : Block) : Checked Progress :=
  let (document, findings) := s
  match block.header.kind with
  | .project =>
    match document.project with
    | some _ => return (document, findings ++ [.placed block.offset .duplicateProject])
    | none => do
      let (project, more) ← readProject block
      return ({ document with project := some project }, findings ++ more)
  | .enum => do
    let (e, more) ← readEnum block
    return ({ document with enums := document.enums ++ [e] }, findings ++ more)
  | .tableGroup => do
    let (group, more) ← readTableGroup block
    return ({ document with tableGroups := document.tableGroups ++ [group] }, findings ++ more)
  | .stickyNote => do
    let note ← readStickyNote block
    return ({ document with stickyNotes := document.stickyNotes ++ [note] }, findings)
  | .refShort => do
    let result ← readShort block
    return addRelationships s [result]
  | .refBlock => do
    let results ← readReferences block
    return addRelationships s results
  | .table => return s
  | .tablePartial => return s

/-- The document that a list of blocks declares, and the problems with the blocks. -/
def readBlocks (policy : MergePolicy) (blocks : List Block) : Checked Progress := do
  let s ← (Block.ofKind .tablePartial blocks).foldlM (addPartial policy) ({}, [])
  let s ← (Block.ofKind .table blocks).foldlM (addTable policy) s
  blocks.foldlM addBlock s

/-- The blocks of partials are read in a row, each with those before it at hand. -/
theorem foldlM_addPartial (policy : MergePolicy) (blocks : List Block) (document : Document)
    (findings : List Finding) :
  blocks.foldlM (addPartial policy) (document, findings)
    = .ok ({ document with
        tablePartials := document.tablePartials
          ++ (TablePartial.ofBlocksAfter policy document.tablePartials blocks).1 },
      findings ++ (TablePartial.ofBlocksAfter policy document.tablePartials blocks).2)
  := by
  induction blocks generalizing document findings with
  | nil =>
    rw [TablePartial.ofBlocksAfter, List.append_nil, List.append_nil]
    rfl
  | cons block blocks ih =>
    rw [List.foldlM_cons, addPartial, readPartial_eq, ok_bind]
    dsimp only
    rw [pure_eq, ok_bind, ih, TablePartial.ofBlocksAfter]
    dsimp only
    rw [List.append_assoc, List.append_assoc]
    rfl

/-- The blocks of tables are read in a row, with all partials at hand. -/
theorem foldlM_addTable (policy : MergePolicy) (blocks : List Block) (document : Document)
    (findings : List Finding) :
  blocks.foldlM (addTable policy) (document, findings)
    = .ok ({ document with
        tables := document.tables ++ blocks.map (Table.ofBlock policy document.tablePartials) },
      findings ++ blocks.flatMap fun b => TableEntry.findings document.tablePartials b.entries)
  := by
  induction blocks generalizing document findings with
  | nil =>
    rw [List.map_nil, List.flatMap_nil, List.append_nil, List.append_nil]
    rfl
  | cons block blocks ih =>
    rw [List.foldlM_cons, addTable, readTable_eq, ok_bind]
    dsimp only
    rw [pure_eq, ok_bind, ih, List.map_cons, List.flatMap_cons, List.append_assoc,
      List.append_assoc]
    rfl

/-- The progress after a list of blocks that declare no tables or partials. -/
def afterBlocks (s : Progress) (blocks : List Block) : Progress :=
  ({ s.1 with
      project := s.1.project <|> (Block.ofKind .project blocks).head?.map Project.ofBlock
      enums := s.1.enums ++ (Block.ofKind .enum blocks).map Enum.ofBlock
      relationships := s.1.relationships
        ++ blocks.flatMap fun b => Finding.successes b.relationships
      tableGroups := s.1.tableGroups ++ (Block.ofKind .tableGroup blocks).map TableGroup.ofBlock
      stickyNotes := s.1.stickyNotes ++ (Block.ofKind .stickyNote blocks).map StickyNote.ofBlock },
    s.2 ++ Block.findingsAfter s.1.project.isSome blocks)

theorem ofKind_cons (kind : BlockKind) (block : Block) (blocks : List Block) :
  Block.ofKind kind (block :: blocks) = Block.ofKind kind [block] ++ Block.ofKind kind blocks
  := List.filter_append [block] blocks

/-- A project counts as seen behind the first block that declares one. -/
theorem findingsAfter_cons (projectSeen : Bool) (block : Block) (blocks : List Block) :
  Block.findingsAfter projectSeen (block :: blocks)
    = Block.findingsAfter projectSeen [block]
      ++ Block.findingsAfter (projectSeen || (Block.ofKind .project [block]).head?.isSome) blocks
  := by
  by_cases hk : block.header.kind = .project <;> cases projectSeen <;>
    simp [Block.findingsAfter, Block.ofKind, hk]

/-- Reading blocks in a row is reading the first and then the others. -/
theorem afterBlocks_cons (s : Progress) (block : Block) (blocks : List Block) :
  afterBlocks s (block :: blocks) = afterBlocks (afterBlocks s [block]) blocks
  := by
  obtain ⟨document, findings⟩ := s
  simp only [afterBlocks, ofKind_cons _ block blocks, findingsAfter_cons _ block blocks,
    List.map_append, List.flatMap_cons, List.flatMap_nil, List.append_nil, List.append_assoc,
    List.head?_append, Option.map_or, Option.or_assoc, Option.isSome_or, Option.isSome_map,
    Option.orElse_eq_orElse, Option.orElse_eq_or]

/-- A block adds to a document what it declares, whatever its kind is. -/
theorem addBlock_eq (s : Progress) (block : Block) :
  addBlock s block = .ok (afterBlocks s [block])
  := by
  obtain ⟨⟨project⟩, findings⟩ := s
  rw [addBlock, afterBlocks]
  cases hk : block.header.kind with
  | project =>
    cases project <;>
      simp [Block.ofKind, Block.relationships, Block.findingsAfter, hk, readProject_eq,
        Finding.successes]
  | _ =>
    simp [Block.ofKind, Block.relationships, Block.findingsAfter, Block.bodyFindings, hk,
      readEnum_eq, readTableGroup_eq, readStickyNote_eq, readShort_eq, readReferences_eq,
      addRelationships, Finding.successes]

/-- Entering the blocks one by one by offsets comes to what `afterBlocks` says. -/
theorem foldlM_addBlock (s : Progress) (blocks : List Block) :
  blocks.foldlM addBlock s = .ok (afterBlocks s blocks)
  := by
  induction blocks generalizing s with
  | nil => simp [afterBlocks, Block.ofKind, Block.findingsAfter]
  | cons block blocks ih => rw [List.foldlM_cons, addBlock_eq, ok_bind, ih, ← afterBlocks_cons]

/-- The blocks of a text are read by offsets as the document that they declare, with the same
findings. -/
theorem readBlocks_eq (policy : MergePolicy) (blocks : List Block) :
  readBlocks policy blocks = .ok (Document.ofBlocks policy blocks)
  := by
  rw [readBlocks, foldlM_addPartial, ok_bind, foldlM_addTable, ok_bind, foldlM_addBlock,
    Document.ofBlocks]
  rfl

/-! ## Diagnostics -/

/-- A line without blanks at its ends and cut in front of its forty-first character. -/
def preview (line : Text) : Checked String := do
  let line := trim line
  if 40 < line.length then
    let start ← slice line 0 (size (line.take 40))
    return String.ofList start ++ "..."
  else
    return String.ofList line

/-- The wording of a problem. -/
def message (problem : Problem) : Checked String :=
  match problem with
  | .unknownDeclaration line => do
    let line ← preview line
    return "skipped unrecognised text " ++ Problem.quote line
  | problem => return problem.message

/-- The diagnostic of a finding in a text. -/
def diagnostic (t : Text) (finding : Finding) : Checked Diagnostic := do
  let message ← message finding.problem
  match finding.offset with
  | some offset => do
    let position ← locate t offset
    return ⟨finding.problem.kind, position.line, position.column, message⟩
  | none => return .unplaced finding.problem.kind message

/-- The preview of a skipped line is cut at a boundary. -/
theorem preview_eq (line : Text) :
  preview line = .ok (Problem.preview line)
  := by
  rw [preview, Problem.preview]
  split
  · rename_i hl
    have h : At (trim line) 0 ((trim line).take 40 ++ (trim line).drop 40) := by
      rw [List.take_append_drop]
      exact at_zero _
    have hs := h.slice_eq
    rw [Nat.zero_add] at hs
    rw [hs, if_neg (Nat.not_le.mpr hl)]
    rfl
  · rename_i hl
    rw [if_pos (Nat.not_lt.mp hl)]
    rfl

theorem message_eq (problem : Problem) :
  message problem = .ok problem.message
  := by
  cases problem with
  | unknownDeclaration line =>
    rw [message, preview_eq]
    rfl
  | _ => rfl

/-- A finding is put in its place if the place is one of the text. -/
theorem diagnostic_eq {t : Text} {f : Finding} (h : f.offset = none ∨ f.IsAt t) :
  diagnostic t f = .ok (Diagnostic.ofFinding (.ofText t) f)
  := by
  rw [diagnostic, message_eq, ok_bind, Diagnostic.ofFinding]
  rcases h with h | ⟨before, after, rfl, h, -⟩
  · rw [h]
    rfl
  · rw [h]
    dsimp only
    rw [locate, locateBy_eq, splitAtByte_size_append, Diagnostic.placed, LineIndex.locate_size]
    rfl

/-! ## Reports -/

/-- The block that a segment holds. -/
def segmentBlock? : Nat × SegmentContent → Option Block
  | (_, .block block) => some block
  | _ => none

/-- The problem of a segment that was skipped. -/
def segmentFinding? : Nat × SegmentContent → Option Finding
  | (offset, .skipped problem) => some (.placed offset problem)
  | _ => none

/-- The document that a text without comments declares, and all problems with the text. -/
def readText (policy : MergePolicy) (t : Text) : Checked (Document × List Finding) := do
  let pairs ← pairs t
  let segments ← segments t pairs
  let (declared, blockFindings) ← readBlocks policy (segments.filterMap segmentBlock?)
  let (document, endpointFindings) := declared.assemble
  return (document, segments.filterMap segmentFinding? ++ blockFindings ++ endpointFindings)

/-- The result of reading a source with the given policy. -/
def report (policy : MergePolicy) (source : String) : Checked Report := do
  let t ← stripComments source.toList
  let (document, findings) ← readText policy t
  let diagnostics ← findings.mapM (diagnostic t)
  return ⟨document, Diagnostic.sort diagnostics⟩

/-- A text is read by offsets as the document that it declares, with the same findings. -/
theorem readText_eq (policy : MergePolicy) (t : Text) :
  readText policy t = .ok (Document.ofText policy t)
  := by
  have hblock (s : Segment) : (visible? s).bind segmentBlock? = s.block? := by
    rw [visible?, Segment.block?]
    cases s.content <;> rfl
  have hfinding (s : Segment) : (visible? s).bind segmentFinding? = s.finding? := by
    rw [visible?, Segment.finding?]
    cases s.content <;> rfl
  rw [readText, pairs_eq, ok_bind, segments_eq, ok_bind, List.filterMap_filterMap,
    List.filterMap_filterMap, funext hblock, funext hfinding, readBlocks_eq]
  rfl

end Checked

/-- Every source is read without a fault, and the result is its report. -/
theorem reading_never_fails (policy : MergePolicy) (source : String) :
  Checked.report policy source = .ok (Report.ofSource policy source)
  := by
  rw [Checked.report, Checked.stripComments_eq, Checked.ok_bind, Checked.readText_eq,
    Checked.ok_bind]
  dsimp only
  rw [Checked.mapM_eq fun f hf => Checked.diagnostic_eq (Document.exists_place hf)]
  rfl

end DatabaseMarkup
