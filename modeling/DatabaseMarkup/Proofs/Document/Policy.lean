import DatabaseMarkup.Proofs.Document.Injection

/-!
# What the merge policy decides

The policy decides which settings a table or a partial has once partials are injected into it.  A
table without a note of its own takes its note from these settings, and that is as far as the policy
reaches: `withoutMerged` takes both away from a document, and `policy_touches_settings_only` states
that what is left is the same under all policies, and so are the diagnostics.

A partial lends its columns, its indexes and its settings, but no settings are read on the way to
columns and indexes.  So partials that are alike without their settings lend alike, and the partials
of a text are alike one after another.
-/

namespace DatabaseMarkup

open Text

/-- A partial without its settings. -/
def TablePartial.withoutMerged (p : TablePartial) : TablePartial :=
  { p with settings := [] }

/-- A table without its settings and its note. -/
def Table.withoutMerged (table : Table) : Table :=
  { table with settings := [], note := none }

/-- A document without the settings of its tables and partials and without the notes of its
tables. -/
def Document.withoutMerged (document : Document) : Document :=
  { document with
    tables := document.tables.map Table.withoutMerged
    tablePartials := document.tablePartials.map TablePartial.withoutMerged }

theorem Table.ext_withoutMerged {table table' : Table}
    (h : table.withoutMerged = table'.withoutMerged) (hs : table.settings = table'.settings)
    (hn : table.note = table'.note) :
  table = table'
  := by
  cases table
  cases table'
  simp only [withoutMerged, mk.injEq, true_and] at h hs hn
  simp only [h, hs, hn]

theorem TablePartial.ext_withoutMerged {p p' : TablePartial}
    (h : p.withoutMerged = p'.withoutMerged) (hs : p.settings = p'.settings) :
  p = p'
  := by
  cases p
  cases p'
  simp only [withoutMerged, mk.injEq, true_and] at h hs
  simp only [h, hs]

/-! ## Injections -/

section

variable {partials partials' : List TablePartial}
  (h : partials.map TablePartial.withoutMerged = partials'.map TablePartial.withoutMerged)

include h

/-- Among partials that are alike, a name finds partials that are alike. -/
theorem TablePartial.find?_alike (name : String) :
  (find? partials name).map withoutMerged = (find? partials' name).map withoutMerged
  := by
  have hmap (ps : List TablePartial) :
      (ps.map withoutMerged).find? (fun p => p.name = name)
        = (find? ps name).map withoutMerged := by
    rw [List.find?_map]
    rfl
  rw [← hmap, h, hmap]

namespace TableEntry

variable (entry : TableEntry) (entries : List TableEntry)

/-- An entry injects the same partial, apart from what the policy merges. -/
theorem injected?_alike :
  (injected? partials entry).map TablePartial.withoutMerged
    = (injected? partials' entry).map TablePartial.withoutMerged
  := by
  cases entry with
  | injection name offset => exact TablePartial.find?_alike h name
  | column c => rfl
  | index i => rfl
  | note text => rfl
  | problem finding => rfl

/-- An entry contributes the same as long as partials lend the same without their settings. -/
theorem contribution_alike {α : Type} (own : TableEntry → List α) {lent : TablePartial → List α}
    (hl : ∀ p, lent p.withoutMerged = lent p) :
  contribution own lent partials entry = contribution own lent partials' entry
  := by
  cases entry with
  | injection name offset =>
    have hlent (x : Option TablePartial) : x.map lent = (x.map .withoutMerged).map lent := by
      cases x with
      | none => rfl
      | some p => exact congrArg some (hl p).symm
    rw [contribution, contribution, hlent, TablePartial.find?_alike h, ← hlent]
  | column c => rfl
  | index i => rfl
  | note text => rfl
  | problem finding => rfl

/-- An entry is the same problem under every policy. -/
theorem finding?_alike :
  finding? partials entry = finding? partials' entry
  := by
  cases entry with
  | injection name offset =>
    have hf := TablePartial.find?_alike h name
    rw [finding?, finding?]
    cases hp : TablePartial.find? partials name with
    | none =>
      rw [hp, Option.map_none] at hf
      rw [Option.map_eq_none_iff.mp hf.symm]
    | some p =>
      rw [hp, Option.map_some] at hf
      obtain ⟨p', hp', _⟩ := Option.map_eq_some_iff.mp hf.symm
      rw [hp']
  | column c => rfl
  | index i => rfl
  | note text => rfl
  | problem finding => rfl

/-- The columns of a body are the same under every policy. -/
theorem columns_alike :
  columns partials entries = columns partials' entries
  := by
  rw [columns, columns, columnsOf_eq, columnsOf_eq]
  apply List.flatMap_congr
  intro entry _
  exact contribution_alike h entry _ fun _ => rfl

/-- The indexes of a body are the same under every policy. -/
theorem indexes_alike :
  indexes partials entries = indexes partials' entries
  := by
  rw [indexes, indexes, indexesOf_eq, indexesOf_eq]
  apply List.flatMap_congr
  intro entry _
  exact contribution_alike h entry _ fun _ => rfl

theorem injected_alike :
  (injected partials entries).map TablePartial.withoutMerged
    = (injected partials' entries).map .withoutMerged
  := by
  rw [injected, injected, List.map_filterMap, List.map_filterMap]
  apply List.filterMap_congr
  intro entry _
  exact injected?_alike h entry

/-- The findings in a body are the same under every policy. -/
theorem findings_alike :
  findings partials entries = findings partials' entries
  := by
  apply List.filterMap_congr
  intro entry _
  exact finding?_alike h entry

end TableEntry

/-! ## Tables and partials -/

variable (policy policy' : MergePolicy)

/-- A table is the same under every policy, apart from what the policy merges. -/
theorem Table.ofBlock_alike (block : Block) :
  (ofBlock policy partials block).withoutMerged = (ofBlock policy' partials' block).withoutMerged
  := by
  have hnames (ps : List TablePartial) :
      ps.map TablePartial.name = (ps.map .withoutMerged).map TablePartial.name := by
    rw [List.map_map]
    rfl
  have hinjected : (TableEntry.injected partials block.entries).map TablePartial.name
      = (TableEntry.injected partials' block.entries).map TablePartial.name := by
    rw [hnames, TableEntry.injected_alike h, ← hnames]
  rw [withoutMerged, withoutMerged, ofBlock, ofBlock]
  dsimp only
  rw [TableEntry.columns_alike h, TableEntry.indexes_alike h, hinjected]

/-- A partial is the same under every policy, apart from what the policy merges. -/
theorem TablePartial.ofBlock_alike (block : Block) :
  (ofBlock policy partials block).withoutMerged = (ofBlock policy' partials' block).withoutMerged
  := by
  rw [withoutMerged, withoutMerged, ofBlock, ofBlock]
  dsimp only
  rw [TableEntry.columns_alike h, TableEntry.indexes_alike h]

/-- Partials that are declared after partials that are alike are alike, and so are the problems with
them. -/
theorem TablePartial.ofBlocksAfter_alike (blocks : List Block) :
  (ofBlocksAfter policy partials blocks).1.map withoutMerged
      = (ofBlocksAfter policy' partials' blocks).1.map withoutMerged
    ∧ (ofBlocksAfter policy partials blocks).2 = (ofBlocksAfter policy' partials' blocks).2
  := by
  induction blocks generalizing partials partials' with
  | nil => exact ⟨rfl, rfl⟩
  | cons b blocks ih =>
    have hfirst := ofBlock_alike h policy policy' b
    have hearlier : (partials ++ [ofBlock policy partials b]).map withoutMerged
        = (partials' ++ [ofBlock policy' partials' b]).map withoutMerged := by
      rw [List.map_append, List.map_append, h, List.map_singleton, List.map_singleton, hfirst]
    obtain ⟨hlater, hfindings⟩ := ih hearlier
    rw [ofBlocksAfter, ofBlocksAfter]
    dsimp only
    constructor
    · rw [List.map_cons, List.map_cons, hfirst, hlater]
    · rw [TableEntry.findings_alike h, hfindings]

end

/-! ## Endpoints -/

section

variable (tables : List Table)

theorem TableRef.isTable_withoutMerged (name : String) :
  isTable (tables.map Table.withoutMerged) name = isTable tables name
  := by
  rw [isTable, List.any_map]
  rfl

theorem TableRef.aliased?_withoutMerged (name : String) :
  aliased? (tables.map Table.withoutMerged) name = (aliased? tables name).map Table.withoutMerged
  := by
  rw [aliased?, ← List.map_reverse, List.find?_map]
  rfl

/-- What the policy merges does not matter to the resolution of a table. -/
theorem TableRef.resolve_withoutMerged (r : TableRef) :
  r.resolve (tables.map Table.withoutMerged) = r.resolve tables
  := by
  rw [resolve, resolve, isTable_withoutMerged, aliased?_withoutMerged]
  cases aliased? tables r.table <;> rfl

theorem Relationship.resolveLeft_withoutMerged (r : Relationship) :
  r.resolveLeft (tables.map Table.withoutMerged) = r.resolveLeft tables
  := by
  rw [resolveLeft, resolveLeft, TableRef.resolve_withoutMerged]

theorem Relationship.resolveRight_withoutMerged (r : Relationship) :
  r.resolveRight (tables.map Table.withoutMerged) = r.resolveRight tables
  := by
  rw [resolveRight, resolveRight, TableRef.resolve_withoutMerged]

theorem Relationship.inline_withoutMerged :
  inline (tables.map Table.withoutMerged) = inline tables
  := by
  rw [inline, List.flatMap_map]
  rfl

/-- What the policy merges does not matter to whether endpoints are resolved. -/
theorem Relationship.findings_withoutMerged (r : Relationship) :
  r.findings (tables.map Table.withoutMerged) = r.findings tables
  := by
  have hknown (name : String) :
      TableRef.isKnown (tables.map Table.withoutMerged) name = TableRef.isKnown tables name := by
    rw [TableRef.isKnown, TableRef.isTable_withoutMerged, TableRef.aliased?_withoutMerged,
      Option.isSome_map]
    rfl
  rw [findings, findings]
  simp only [hknown]

end

namespace Document

/-- The endpoints of a document are resolved without settings and notes. -/
theorem assemble_withoutMerged (document : Document) :
  document.withoutMerged.assemble = (document.assemble.1.withoutMerged, document.assemble.2)
  := by
  have hresolved : document.withoutMerged.resolvedRelationships
      = document.resolvedRelationships := by
    rw [resolvedRelationships, resolvedRelationships, withoutMerged]
    dsimp only
    rw [Relationship.inline_withoutMerged]
    congr 1
    · apply List.map_congr_left
      intro r _
      rw [Relationship.resolve, Relationship.resolve, Relationship.resolveRight_withoutMerged,
        Relationship.resolveLeft_withoutMerged]
    · apply List.map_congr_left
      intro r _
      apply Relationship.resolveRight_withoutMerged
  have hfindings : Relationship.findings document.withoutMerged.tables
      = Relationship.findings document.tables :=
    funext fun r => Relationship.findings_withoutMerged document.tables r
  rw [assemble, assemble, hresolved]
  dsimp only
  rw [hfindings]
  rfl

/-- The policy changes nothing in the document of some blocks but what it merges, and no finding.
-/
theorem ofBlocks_alike (policy policy' : MergePolicy) (blocks : List Block) :
  (ofBlocks policy blocks).1.withoutMerged = (ofBlocks policy' blocks).1.withoutMerged
    ∧ (ofBlocks policy blocks).2 = (ofBlocks policy' blocks).2
  := by
  obtain ⟨hpartials, hfindings⟩ := TablePartial.ofBlocksAfter_alike rfl policy policy'
    (Block.ofKind .tablePartial blocks)
  rw [ofBlocks, ofBlocks]
  dsimp only
  constructor
  · rw [withoutMerged, withoutMerged]
    dsimp only
    rw [hpartials, List.map_map, List.map_map]
    congr 1
    apply List.map_congr_left
    intro b _
    exact Table.ofBlock_alike hpartials policy policy' b
  · rw [hfindings]
    congr 2
    apply List.flatMap_congr
    intro b _
    exact TableEntry.findings_alike hpartials b.entries

/-- The policy changes nothing in the document of a text but what it merges, and no finding. -/
theorem ofText_alike (policy policy' : MergePolicy) (t : Text) :
  (ofText policy t).1.withoutMerged = (ofText policy' t).1.withoutMerged
    ∧ (ofText policy t).2 = (ofText policy' t).2
  := by
  obtain ⟨hdocument, hfindings⟩ := ofBlocks_alike policy policy'
    ((Segment.ofText t).filterMap Segment.block?)
  have hassemble := congrArg assemble hdocument
  rw [assemble_withoutMerged, assemble_withoutMerged] at hassemble
  obtain ⟨hresolved, hendpoints⟩ := Prod.ext_iff.mp hassemble
  refine ⟨hresolved, ?_⟩
  rw [ofText, ofText]
  dsimp only at hendpoints ⊢
  rw [hfindings, hendpoints]

end Document

/-! ## Blocks that the policy does not reach -/

/-- The partials that blocks declare are alike under all policies. -/
theorem TablePartial.declared_alike (policy policy' : MergePolicy) (blocks : List Block) :
  (declared policy blocks).map withoutMerged = (declared policy' blocks).map withoutMerged
  := (ofBlocksAfter_alike rfl policy policy' blocks).1

section

variable {available : List Block} {block : Block} (policy policy' : MergePolicy)

/-- A block that injects nothing keeps its own settings. -/
theorem MergePolicy.mergeAll_of_injectedNames_eq_nil (h : block.injectedNames available = []) :
  policy.mergeAll block.settings
      (TableEntry.injected (TablePartial.declared policy available) block.entries)
    = block.settings
  := by
  rw [← Block.map_name_injected policy, List.map_eq_nil_iff] at h
  rw [h]
  rfl

/-- A partial that injects nothing is the same under all policies. -/
theorem TablePartial.ofBlock_of_injectedNames_eq_nil (h : block.injectedNames available = []) :
  ofBlock policy (declared policy available) block
    = ofBlock policy' (declared policy' available) block
  := by
  have hs := policy.mergeAll_of_injectedNames_eq_nil h
  have hs' := policy'.mergeAll_of_injectedNames_eq_nil h
  apply ext_withoutMerged
  · apply ofBlock_alike
    apply declared_alike
  · exact hs.trans hs'.symm

/-- A table that injects nothing is the same under all policies. -/
theorem Table.ofBlock_of_injectedNames_eq_nil (h : block.injectedNames available = []) :
  ofBlock policy (TablePartial.declared policy available) block
    = ofBlock policy' (TablePartial.declared policy' available) block
  := by
  have hs := policy.mergeAll_of_injectedNames_eq_nil h
  have hs' := policy'.mergeAll_of_injectedNames_eq_nil h
  apply ext_withoutMerged
  · apply ofBlock_alike
    apply TablePartial.declared_alike
  · exact hs.trans hs'.symm
  · rw [ofBlock, ofBlock]
    dsimp only
    rw [hs, hs']

/-- The note of a table is the one of its body if there is one. -/
theorem Table.note_ofBlock {text : String} (h : .note text ∈ block.entries)
    (partials : List TablePartial) :
  (ofBlock policy partials block).note = TableEntry.noteOf? block.entries
  := by
  have hm : text ∈ block.entries.filterMap TableEntry.note? :=
    List.mem_filterMap.mpr ⟨_, h, rfl⟩
  obtain ⟨last, hlast⟩ := Option.isSome_iff_exists.mp
    (List.getLast?_isSome.mpr (List.ne_nil_of_mem hm))
  rw [ofBlock]
  dsimp only
  rw [TableEntry.noteOf?, hlast]
  rfl

end

/-- Under all policies a source has the same diagnostics and the same document, apart from the
settings of tables and partials and the notes of tables.  A table or a partial that injects nothing
is the same all in all, and a table with a note in its body has the same note. -/
theorem policy_touches_settings_only (policy policy' : MergePolicy) (source : String) :
  let blocks := Block.ofSource source
  let partials := Block.ofKind .tablePartial blocks
  let report := Report.ofSource policy source
  let report' := Report.ofSource policy' source
  report.diagnostics = report'.diagnostics
    ∧ report.document.withoutMerged = report'.document.withoutMerged
    ∧ (∀ (n : Nat) (b : Block), (Block.ofKind .table blocks)[n]? = some b →
        ∃ table table' : Table, report.document.tables[n]? = some table
          ∧ report'.document.tables[n]? = some table'
          ∧ (b.injectedNames partials = [] → table = table')
          ∧ ((∃ text, .note text ∈ b.entries) → table.note = table'.note))
    ∧ (∀ (n : Nat) (available : List Block) (b : Block),
        (Block.withEarlier [] partials)[n]? = some (available, b) →
        ∃ p p' : TablePartial, report.document.tablePartials[n]? = some p
          ∧ report'.document.tablePartials[n]? = some p'
          ∧ (b.injectedNames available = [] → p = p'))
  := by
  intro blocks partials report report'
  obtain ⟨hdocument, hfindings⟩ := Document.ofText_alike policy policy' (stripComments source.toList)
  refine ⟨?_, hdocument, ?_, ?_⟩
  · exact congrArg (fun findings => Diagnostic.sort
      (findings.map (Diagnostic.ofFinding (.ofText (stripComments source.toList))))) hfindings
  · intro n b hb
    refine ⟨Table.ofBlock policy (TablePartial.declared policy partials) b,
      Table.ofBlock policy' (TablePartial.declared policy' partials) b, ?_, ?_, ?_, ?_⟩
    · rw [Report.tables_ofSource, List.getElem?_map, hb, Option.map_some]
    · rw [Report.tables_ofSource, List.getElem?_map, hb, Option.map_some]
    · exact Table.ofBlock_of_injectedNames_eq_nil policy policy'
    · rintro ⟨text, ht⟩
      rw [Table.note_ofBlock policy ht, Table.note_ofBlock policy' ht]
  · intro n available b hb
    refine ⟨TablePartial.ofBlock policy (TablePartial.declared policy available) b,
      TablePartial.ofBlock policy' (TablePartial.declared policy' available) b, ?_, ?_, ?_⟩
    · rw [Report.tablePartials_ofSource, List.getElem?_map, hb, Option.map_some]
    · rw [Report.tablePartials_ofSource, List.getElem?_map, hb, Option.map_some]
    · exact TablePartial.ofBlock_of_injectedNames_eq_nil policy policy'

/-- By one of the policies the note of a partial replaces the one in the settings of a table.  A note
in a body, a table that injects nothing and the partial itself stay as they are. -/
theorem policy_touches_settings_of_injection :
  let source := "TablePartial p [note: b]\x7b\x7d\nTable t [note: a]\x7b~p\x7d\n"
    ++ "Table u\x7b~p\nNote: c\x7d\nTable v\x7bn int\x7d"
  let report := Report.ofSource .tableWins source
  let report' := Report.ofSource .partialWins source
  report.diagnostics = report'.diagnostics
    ∧ report.document.withoutMerged = report'.document.withoutMerged
    ∧ (∃ table table', report.document.tables[1]? = some table
        ∧ report'.document.tables[1]? = some table' ∧ table.note = table'.note)
    ∧ (∃ table, report.document.tables[2]? = some table ∧ report'.document.tables[2]? = some table)
    ∧ (∃ p, report.document.tablePartials[0]? = some p
        ∧ report'.document.tablePartials[0]? = some p)
    ∧ report.document.tables.map Table.note ≠ report'.document.tables.map Table.note
  := by
  intro source report report'
  obtain ⟨hdiagnostics, hdocument, htables, hpartials⟩ :=
    policy_touches_settings_only .tableWins .partialWins source
  obtain ⟨u, u', hu, hu', _, hnote⟩ := htables 1
    ⟨{ kind := .table, name := some ['u'] }, [], "~p\nNote: c".toList, 57⟩
    (by decide +kernel +zetaReduce)
  obtain ⟨v, v', hv, hv', hsame, _⟩ := htables 2
    ⟨{ kind := .table, name := some ['v'] }, [], "n int".toList, 77⟩
    (by decide +kernel +zetaReduce)
  obtain ⟨p, p', hp, hp', hpartial⟩ := hpartials 0 []
    ⟨{ kind := .tablePartial, name := some ['p'] }, [.pair "note" (.bare "b")], [], 25⟩
    (by decide +kernel +zetaReduce)
  refine ⟨hdiagnostics, hdocument, ⟨u, u', hu, hu', ?_⟩, ⟨v, hv, ?_⟩, ⟨p, hp, ?_⟩, ?_⟩
  · exact hnote ⟨"c", by decide +kernel⟩
  · rw [hsame (by decide +kernel +zetaReduce), hv']
  · rw [hpartial (by decide +kernel), hp']
  · decide +kernel +zetaReduce

end DatabaseMarkup
