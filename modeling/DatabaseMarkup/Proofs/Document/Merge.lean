import DatabaseMarkup.Proofs.Document.Injection
import DatabaseMarkup.Proofs.Settings.Merge

/-!
# The last partial of a document

The settings of a table of a document are those of its header with those of the partials that its
body injects.  `Block.Injects` says which partials these are, from the text of the body on: a table
has all partials of the document available, and a partial those in front of it.
`last_injection_decides` states what follows for the settings where partials win.
-/

namespace DatabaseMarkup

/-- Whether the body of a block injects the given ones of the available partials, in their order. -/
def Block.Injects (block : Block) (available injected : List TablePartial) : Prop :=
  ∃ entries, TableEntry.Reads block.finish block.body entries
    ∧ TableEntry.Injects available entries injected

/-- The partials that are merged into a block are those that its `~name` lines inject. -/
theorem Block.injects_injected (block : Block) (available : List TablePartial) :
  block.Injects available (TableEntry.injected available block.entries)
  := ⟨block.entries, TableEntry.reads_iff.mpr rfl, TableEntry.injects_injected _ _⟩

namespace Report

variable {policy : MergePolicy} {source : String} {n : Nat}

/-- A table of a document is what its block declares where all partials of the document are
available. -/
theorem exists_of_getElem?_tables {table : Table}
    (h : (ofSource policy source).document.tables[n]? = some table) :
  ∃ block, (Block.ofKind .table (Block.ofSource source))[n]? = some block
    ∧ table = Table.ofBlock policy (ofSource policy source).document.tablePartials block
  := by
  rw [tables_ofSource, List.getElem?_map] at h
  obtain ⟨block, hb, rfl⟩ := Option.map_eq_some_iff.mp h
  exact ⟨block, hb, rfl⟩

/-- A partial of a document is what its block declares where the partials in front of it are
available. -/
theorem exists_of_getElem?_tablePartials {p : TablePartial}
    (h : (ofSource policy source).document.tablePartials[n]? = some p) :
  ∃ block, (Block.ofKind .tablePartial (Block.ofSource source))[n]? = some block
    ∧ p = TablePartial.ofBlock policy
        ((ofSource policy source).document.tablePartials.take n) block
  := TablePartial.exists_of_getElem?_declared policy h

end Report

/-- Where partials win, the last of the partials that a table or a partial injects decides over its
settings.  A table injects partials of the whole document, and a partial those in front of it. -/
theorem last_injection_decides (source : String) :
  let blocks := Block.ofSource source
  let document := (Report.ofSource .partialWins source).document
  (∀ (n : Nat) (table : Table), document.tables[n]? = some table →
      ∃ block injected, (Block.ofKind .table blocks)[n]? = some block
        ∧ block.Injects document.tablePartials injected
        ∧ table.injectedPartials = injected.map TablePartial.name
        ∧ Settings.LastDecides block.settings (injected.map TablePartial.settings)
            table.settings)
    ∧ ∀ (n : Nat) (p : TablePartial), document.tablePartials[n]? = some p →
      ∃ block injected, (Block.ofKind .tablePartial blocks)[n]? = some block
        ∧ block.Injects (document.tablePartials.take n) injected
        ∧ Settings.LastDecides block.settings (injected.map TablePartial.settings) p.settings
  := by
  intro blocks document
  constructor
  · intro n table h
    obtain ⟨block, hb, rfl⟩ := Report.exists_of_getElem?_tables h
    exact ⟨block, _, hb, block.injects_injected _, rfl, Settings.lastDecides_mergeAll _ _⟩
  · intro n p h
    obtain ⟨block, hb, hp⟩ := Report.exists_of_getElem?_tablePartials h
    refine ⟨block, _, hb, block.injects_injected _, ?_⟩
    rw [hp]
    exact Settings.lastDecides_mergeAll _ _

/-- Of two partials the second one decides over a key that both have, and over the key that only the
first one has it is the last of two values that counts.  A flag and a key of one name are kept
apart. -/
theorem last_of_two_injections_decides :
  let source := "TablePartial p [note: a, x: 1] [x: 2, pk]\x7b\x7d\n"
    ++ "TablePartial q [note: b]\x7b\x7d\nTable t [x: 0, note, y: 3, y: 4]\x7b\n~p\n~q\n~r\n\x7d"
  let document := (Report.ofSource .partialWins source).document
  ∃ table, document.tables[0]? = some table
    ∧ table.injectedPartials = ["p", "q"]
    ∧ table.settings = [.flag "note", .pair "y" (.bare "3"), .pair "y" (.bare "4"),
        .pair "x" (.bare "2"), .flag "pk", .pair "note" (.bare "b")]
    ∧ ∃ (block : Block) (injected : List TablePartial),
      block.Injects document.tablePartials injected
      ∧ injected.map TablePartial.name = ["p", "q"]
      ∧ Settings.LastDecides block.settings (injected.map TablePartial.settings) table.settings
  := by
  intro source document
  let table : Table := {
    schema := "public", name := "t", aliasName := none, columns := [], indexes := []
    settings := [.flag "note", .pair "y" (.bare "3"), .pair "y" (.bare "4"),
      .pair "x" (.bare "2"), .flag "pk", .pair "note" (.bare "b")]
    note := some "b", injectedPartials := ["p", "q"] }
  have htable : document.tables[0]? = some table := by decide +kernel +zetaReduce
  obtain ⟨block, injected, -, hinjects, hnames, hlast⟩ :=
    (last_injection_decides source).1 0 table htable
  exact ⟨table, htable, rfl, rfl, block, injected, hinjects, hnames.symm, hlast⟩

end DatabaseMarkup
