import DatabaseMarkup.Document.Reader
import DatabaseMarkup.Proofs.Diagnostic.Kind
import DatabaseMarkup.Proofs.Table.Injection
import Mathlib.Data.List.Forall2

/-!
# Injections in a document

The partials of a document are what their blocks come to where those before them are available,
and the tables what theirs come to where all partials are.  `injections_flatten_partials` says so
of every source, together with the diagnostics: an injection is reported exactly when there is no
partial for it.
-/

namespace DatabaseMarkup

open Text

/-- The blocks of a source. -/
def Block.ofSource (source : String) : List Block :=
  (Segment.ofText (stripComments source.toList)).filterMap Segment.block?

/-! ## Unknown partials -/

/-- Whether a problem is that there is no partial of some name. -/
def Finding.isUnknownPartial (f : Finding) : Bool :=
  f.problem.kind = .unknownPartial

/-- The unknown partials among the problems with a body are those of its injections. -/
theorem Block.filter_findings (policy : MergePolicy) (available : List Block) (block : Block) :
  (TableEntry.findings (TablePartial.declared policy available) block.entries).filter
      Finding.isUnknownPartial
    = block.unknownInjections available
  := by
  rw [TableEntry.findings, List.filter_filterMap, unknownInjections]
  apply List.filterMap_congr
  intro entry hm
  cases entry with
  | injection name offset =>
    rw [TableEntry.finding?, TablePartial.find?_declared]
    dsimp only
    cases h : named? available name with
    | none =>
      rw [if_pos (named?_eq_none_iff.mp h)]
      rfl
    | some p =>
      obtain ⟨hp, hn⟩ := mem_of_named? h
      rw [if_neg fun hall => hall p hp hn]
      rfl
  | problem finding =>
    have hkind : finding.isUnknownPartial = false := by
      apply decide_eq_false
      intro hu
      rcases TableEntry.kind_of_mem_readAll hm with h | h
      · cases h.symm.trans hu
      · cases h.symm.trans hu
    rw [TableEntry.finding?, Option.filter_some, hkind]
    rfl
  | column c => rfl
  | index i => rfl
  | note text => rfl

/-- Findings of other kinds are no unknown partials. -/
theorem Finding.filter_isUnknownPartial {findings : List Finding}
    (h : ∀ f ∈ findings, f.problem.kind ≠ .unknownPartial) :
  findings.filter isUnknownPartial = []
  := by
  apply List.filter_eq_nil_iff.mpr
  intro f hf hu
  exact h f hf (of_decide_eq_true hu)

namespace Document

/-- What is wrong with a text is found in its segments, in the bodies of its blocks and in the
relationships. -/
theorem findings_ofText (policy : MergePolicy) (t : Text) :
  let blocks := (Segment.ofText t).filterMap Segment.block?
  let partials := Block.ofKind .tablePartial blocks
  (ofText policy t).2
    = (Segment.ofText t).filterMap Segment.finding?
      ++ ((Block.withEarlier [] partials).flatMap (fun (available, b) =>
            TableEntry.findings (TablePartial.declared policy available) b.entries)
          ++ (Block.ofKind .table blocks).flatMap (fun b =>
            TableEntry.findings (TablePartial.declared policy partials) b.entries)
          ++ Block.findingsAfter false blocks)
      ++ (ofBlocks policy blocks).1.assemble.2
  := by
  intro blocks partials
  have hpartials : TablePartial.ofBlocksAfter policy [] partials
      = (TablePartial.declared policy partials,
        (Block.withEarlier [] partials).flatMap fun (available, b) =>
          TableEntry.findings (TablePartial.declared policy available) b.entries) := by
    have hsecond := congrArg Prod.snd (TablePartial.ofBlocksAfter_declared policy [] partials)
    apply Prod.ext
    · rfl
    · exact hsecond
  rw [ofText]
  dsimp only
  rw [ofBlocks, hpartials]

/-- Unknown partials are found in the bodies of partials and tables only. -/
theorem filter_findings (policy : MergePolicy) (t : Text) :
  let blocks := (Segment.ofText t).filterMap Segment.block?
  let partials := Block.ofKind .tablePartial blocks
  (ofText policy t).2.filter Finding.isUnknownPartial
    = (Block.withEarlier [] partials).flatMap (fun (available, b) => b.unknownInjections available)
      ++ (Block.ofKind .table blocks).flatMap (Block.unknownInjections partials)
  := by
  intro blocks partials
  have hsegments : ((Segment.ofText t).filterMap Segment.finding?).filter
      Finding.isUnknownPartial = [] := by
    apply Finding.filter_isUnknownPartial
    intro f hf hu
    obtain ⟨s, hs, hf⟩ := List.mem_filterMap.mp hf
    rcases Segment.kind_of_finding? hs hf with h | h
    · cases h.symm.trans hu
    · cases h.symm.trans hu
  have hbodies (bs : List Block) :
      (Block.findingsAfter false bs).filter Finding.isUnknownPartial = [] := by
    apply Finding.filter_isUnknownPartial
    intro f hf hu
    rcases Block.kind_of_mem_findingsAfter hf with h | h
    · cases h.symm.trans hu
    · cases h.symm.trans hu
  have hendpoints (document : Document) :
      document.assemble.2.filter Finding.isUnknownPartial = [] := by
    apply Finding.filter_isUnknownPartial
    intro f hf hu
    obtain ⟨r, _, hf⟩ := List.mem_flatMap.mp hf
    cases (Relationship.kind_of_mem_findings hf).symm.trans hu
  rw [findings_ofText]
  simp only [List.filter_append, hsegments, hbodies, hendpoints, List.filter_flatMap,
    Block.filter_findings, List.nil_append, List.append_nil]
  rfl

end Document

namespace Report

/-- The diagnostics of a report that are about unknown partials, in some order. -/
theorem perm_unknownPartials (policy : MergePolicy) (source : String) :
  let t := stripComments source.toList
  ((ofSource policy source).diagnostics.filter fun d => d.kind = .unknownPartial).Perm
    (((Document.ofText policy t).2.filter Finding.isUnknownPartial).map
      (Diagnostic.ofFinding (.ofText t)))
  := by
  intro t
  have hkind (index : LineIndex) (f : Finding) :
      decide ((Diagnostic.ofFinding index f).kind = .unknownPartial) = f.isUnknownPartial := by
    rw [Diagnostic.ofFinding]
    split
    · rfl
    · rfl
  have hperm := List.mergeSort_perm
    ((Document.ofText policy t).2.map (Diagnostic.ofFinding (.ofText t))) Diagnostic.precedes
  have hfilter := hperm.filter fun d => d.kind = .unknownPartial
  rw [List.filter_map] at hfilter
  have hcomp : (fun d : Diagnostic => decide (d.kind = .unknownPartial))
      ∘ Diagnostic.ofFinding (.ofText t) = Finding.isUnknownPartial :=
    funext fun f => hkind _ f
  rw [hcomp] at hfilter
  exact hfilter

/-- The tables of a report are what their blocks come to where all partials are available. -/
theorem tables_ofSource (policy : MergePolicy) (source : String) :
  let blocks := Block.ofSource source
  (ofSource policy source).document.tables
    = (Block.ofKind .table blocks).map
        (Table.ofBlock policy (TablePartial.declared policy (Block.ofKind .tablePartial blocks)))
  := rfl

/-- The partials of a report are what their blocks come to where those before them are available. -/
theorem tablePartials_ofSource (policy : MergePolicy) (source : String) :
  (ofSource policy source).document.tablePartials
    = (Block.withEarlier [] (Block.ofKind .tablePartial (Block.ofSource source))).map
        fun (available, b) => TablePartial.ofBlock policy (TablePartial.declared policy available) b
  := congrArg Prod.fst (TablePartial.ofBlocksAfter_declared policy [] _)

end Report

/-- In every source and by either policy, injections stand for partials.  The entries of a body
are those of the text in order, through all groups of columns.  A partial has the columns, indexes
and settings that its block comes to where the partials before it are available, and a table those
that its block comes to where all partials are.  A table names the partials that it injects, and
an injection is reported, once, when there is no partial for it. -/
theorem injections_flatten_partials (policy : MergePolicy) (source : String) :
  let blocks := Block.ofSource source
  let partials := Block.ofKind .tablePartial blocks
  let tables := Block.ofKind .table blocks
  let report := Report.ofSource policy source
  (∀ b ∈ blocks, TableEntry.Reads b.finish b.body b.entries)
    ∧ List.Forall₂ (fun (available, b) => TablePartial.IsFlattened policy available b)
        (Block.withEarlier [] partials) report.document.tablePartials
    ∧ List.Forall₂ (Table.IsFlattened policy partials) tables report.document.tables
    ∧ (report.diagnostics.filter fun d => d.kind = .unknownPartial).Perm
        (((Block.withEarlier [] partials).flatMap (fun (available, b) =>
            b.unknownInjections available)
          ++ tables.flatMap (Block.unknownInjections partials)).map
            (Diagnostic.ofFinding (.ofText (stripComments source.toList))))
  := by
  intro blocks partials tables report
  refine ⟨?_, ?_, ?_, ?_⟩
  · intro b _
    apply TableEntry.reads_iff.mpr rfl
  · rw [Report.tablePartials_ofSource]
    apply List.forall₂_map_right_iff.mpr
    apply List.forall₂_same.mpr
    rintro ⟨available, b⟩ _
    apply TablePartial.isFlattened_ofBlock
  · rw [Report.tables_ofSource]
    apply List.forall₂_map_right_iff.mpr
    apply List.forall₂_same.mpr
    intro b _
    apply Table.isFlattened_ofBlock
  · have hperm := Report.perm_unknownPartials policy source
    dsimp only at hperm
    rw [Document.filter_findings] at hperm
    exact hperm

/-- A partial cannot inject itself, but it can inject an earlier one of its name. -/
example :
  let report := Report.ofSource .tableWins
    "TablePartial p \x7b a int\n ~p \x7d\nTablePartial p \x7b ~p\n b int \x7d\nTable t \x7b ~p \x7d"
  report.document.tablePartials.map (fun p => p.columns.map Column.name) = [["a"], ["a", "b"]]
    ∧ report.document.tables.map (fun t => t.columns.map Column.name) = [["a"]]
    ∧ report.diagnostics.map Diagnostic.kind = [.unknownPartial]
  := by
  decide +kernel

end DatabaseMarkup
