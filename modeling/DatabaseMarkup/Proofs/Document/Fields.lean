import DatabaseMarkup.Proofs.Document.Injection
import DatabaseMarkup.Proofs.Table.Column

/-!
# The fields of columns and indexes

The settings of a column or an index are kept as they are written, and its other fields say what
they mean.  Each column is made by `Column.ofSettings` and each index by `Index.ofColumns`, so this
holds of every entry of a body (`TableEntry.Reads.isRead`).  An injection brings in columns and
indexes of other blocks as they are, so it holds of whatever a block comes to
(`Block.forall_mem_columns`), and from there of all tables and partials.
-/

namespace DatabaseMarkup

open Text

/-! ## Indexes -/

namespace Index

/-- Whether the fields of an index say what its columns and its settings say. -/
structure ShowsSettings (index : Index) : Prop where
  columns_ne_nil : index.columns ≠ []
  isExpression : index.isExpression ↔ ∃ c ∈ index.columns, c.isExpression
  isPrimaryKey : index.isPrimaryKey
    ↔ index.settings.hasFlag "pk" ∨ index.settings.hasFlag "primary key"
  isUnique : index.isUnique ↔ index.settings.hasFlag "unique"

/-- An index shows the settings that it is made from. -/
theorem showsSettings_ofColumns {columns : List IndexColumn} (h : columns ≠ [])
    (settings : Settings) :
  (ofColumns columns settings).ShowsSettings
  := ⟨h, List.any_eq_true, Bool.or_eq_true_iff, Iff.rfl⟩

/-- An item has a column. -/
theorem columns_ne_nil_of_splitColumns {c : Char} {t rest : Text} {columns : List IndexColumn}
    (h : splitColumns? c t = some (columns, rest)) :
  columns ≠ []
  := by
  rw [splitColumns?] at h
  split at h
  · split at h
    · rename_i inner after _
      simp only [Option.ite_none_left_eq_some, Option.some.injEq, Prod.mk.injEq] at h
      obtain ⟨hparts, rfl, _⟩ := h
      rw [List.isEmpty_iff] at hparts
      exact mt List.map_eq_nil_iff.mp hparts
    · cases h
  split at h
  · simp only [Option.ite_none_left_eq_some, Option.some.injEq, Prod.mk.injEq] at h
    obtain ⟨_, rfl, _⟩ := h
    apply List.cons_ne_nil
  split at h
  · cases h
    apply List.cons_ne_nil
  · cases h

/-- An index that is read has the settings in the groups behind its columns. -/
theorem exists_of_mem_readAll {finish : Nat} {t : Text} {index : Index}
    (h : .ok index ∈ readAll finish t) :
  ∃ c u columns rest, splitColumns? c u = some (columns, rest)
    ∧ index = ofColumns columns (Settings.readGroups rest).1
  := by
  fun_induction readAll finish t with
  | case1 => cases h
  | case2 t c u _ first ih =>
    rcases List.mem_cons.mp h with hfirst | h
    · have hs : (splitFirst finish c u).1 = .ok index := hfirst.symm
      rw [splitFirst] at hs
      split at hs
      · rename_i columns rest hc
        cases hs
        exact ⟨c, u, columns, rest, hc, rfl⟩
      · cases hs
    · exact ih h

/-- Every index that is read shows its settings. -/
theorem showsSettings_of_mem_readAll {finish : Nat} {t : Text} {index : Index}
    (h : .ok index ∈ readAll finish t) :
  index.ShowsSettings
  := by
  obtain ⟨c, u, columns, rest, hc, rfl⟩ := exists_of_mem_readAll h
  exact showsSettings_ofColumns (columns_ne_nil_of_splitColumns hc) _

end Index

/-! ## Entries -/

/-- A column that is read is made of the settings in the groups behind its type. -/
theorem Column.exists_of_read {line : Text} {column : Column} (h : read? line = some column) :
  ∃ name dataType groups, column = ofSettings name dataType (Settings.readGroups groups).1
  := by
  rw [read?] at h
  simp only [Option.bind_eq_bind, Option.bind_eq_some_iff] at h
  obtain ⟨⟨name, rest⟩, _, after, _, h⟩ := h
  dsimp only at h
  split at h
  · cases h
    exact ⟨_, _, _, rfl⟩
  · cases h

/-- Every column that is read shows its settings. -/
theorem Column.showsSettings_of_read {line : Text} {column : Column}
    (h : read? line = some column) :
  column.ShowsSettings
  := by
  obtain ⟨name, dataType, groups, rfl⟩ := exists_of_read h
  apply showsSettings_ofSettings

namespace TableEntry

/-- Whether the column or the index that an entry is was read from some text. -/
def IsRead : TableEntry → Prop
  | column c => ∃ line, Column.read? line = some c
  | index i => ∃ finish t, .ok i ∈ Index.readAll finish t
  | _ => True

theorem isRead_ofFirstLine (finish : Nat) (t : Text) :
  (ofFirstLine finish t).IsRead
  := by
  rw [ofFirstLine]
  split
  · trivial
  · split
    · rename_i hc
      exact ⟨_, hc⟩
    · trivial

theorem isRead_of_splitFirst {finish : Nat} {t rest : Text} {entries : List TableEntry}
    (hs : TablePart.splitFirst finish t = (.entries entries, rest)) {entry : TableEntry}
    (h : entry ∈ entries) :
  entry.IsRead
  := by
  rw [TablePart.splitFirst] at hs
  split at hs
  · rename_i note after _
    cases hs
    rw [List.mem_singleton.mp h]
    cases note with
    | ok text => trivial
    | error finding => trivial
  split at hs
  · split at hs
    · rw [TablePart.ofGroup] at hs
      split at hs
      · cases hs
        obtain ⟨result, hr, rfl⟩ := List.mem_map.mp h
        cases result with
        | ok index => exact ⟨_, _, hr⟩
        | error finding => trivial
      · split at hs
        · cases hs
        · cases hs
          rw [List.mem_singleton.mp h]
          trivial
    · cases hs
      rw [List.mem_singleton.mp h]
      trivial
  · cases hs
    rw [List.mem_singleton.mp h]
    apply isRead_ofFirstLine

/-- The entries of a body are those of its parts. -/
theorem Reads.isRead {finish : Nat} {t : Text} {entries : List TableEntry}
    (h : Reads finish t entries) :
  ∀ entry ∈ entries, entry.IsRead
  := by
  induction h with
  | blank ht => exact List.forall_mem_nil _
  | entries ht hs _ ih =>
    intro entry h
    rcases List.mem_append.mp h with h | h
    · exact isRead_of_splitFirst hs h
    · exact ih entry h
  | columns ht hs _ _ ihInner ih =>
    intro entry h
    rcases List.mem_append.mp h with h | h
    · exact ihInner entry h
    · exact ih entry h

end TableEntry

/-! ## What blocks come to -/

namespace Block

/-- What holds of all that the entries of blocks are themselves holds of what a block comes to. -/
theorem forall_mem_flatten {α : Type} {own : TableEntry → List α} {P : α → Prop}
    (hown : ∀ (b : Block), ∀ entry ∈ b.entries, ∀ a ∈ own entry, P a)
    (available : List Block) (block : Block) :
  ∀ a ∈ block.flatten own available, P a
  := by
  fun_induction flatten own available block with
  | case1 available block ih =>
    intro a h
    obtain ⟨entry, hentry, ha⟩ := List.mem_flatMap.mp h
    split at ha
    · split at ha
      · rename_i name _ p hp
        exact ih name p hp a ha
      · cases ha
    · exact hown block entry hentry a ha

variable (available : List Block) (block : Block)

/-- Every entry of a body is one that a reader returns. -/
theorem isRead_entries :
  ∀ entry ∈ block.entries, entry.IsRead
  := (TableEntry.reads_iff.mpr rfl).isRead

/-- What holds of all columns that are read holds of those that a block comes to. -/
theorem forall_mem_columns {P : Column → Prop}
    (hP : ∀ line column, Column.read? line = some column → P column) :
  ∀ column ∈ block.flatten TableEntry.ownColumns available, P column
  := by
  apply forall_mem_flatten
  intro b entry hentry column hc
  have h := b.isRead_entries entry hentry
  cases entry with
  | column c =>
    rw [List.mem_singleton.mp hc]
    obtain ⟨line, h⟩ := h
    exact hP line c h
  | _ => cases hc

/-- What holds of all indexes that are read holds of those that a block comes to. -/
theorem forall_mem_indexes {P : Index → Prop}
    (hP : ∀ finish t index, .ok index ∈ Index.readAll finish t → P index) :
  ∀ index ∈ block.flatten TableEntry.ownIndexes available, P index
  := by
  apply forall_mem_flatten
  intro b entry hentry index hi
  have h := b.isRead_entries entry hentry
  cases entry with
  | index i =>
    rw [List.mem_singleton.mp hi]
    obtain ⟨finish, t, h⟩ := h
    exact hP finish t i h
  | _ => cases hi

end Block

/-! ## Tables and partials -/

/-- What holds of all columns that are read holds of those of all tables and partials. -/
theorem Report.forall_mem_columns {P : Column → Prop}
    (hP : ∀ line column, Column.read? line = some column → P column) (policy : MergePolicy)
    (source : String) :
  let document := (ofSource policy source).document
  (∀ table ∈ document.tables, ∀ column ∈ table.columns, P column)
    ∧ ∀ p ∈ document.tablePartials, ∀ column ∈ p.columns, P column
  := by
  intro document
  constructor
  · rw [tables_ofSource, List.forall_mem_map]
    intro b _
    rw [(Table.isFlattened_ofBlock policy _ b).columns]
    exact b.forall_mem_columns _ hP
  · rw [tablePartials_ofSource, List.forall_mem_map]
    rintro ⟨available, b⟩ _
    rw [(TablePartial.isFlattened_ofBlock policy available b).columns]
    exact b.forall_mem_columns _ hP

/-- What holds of all indexes that are read holds of those of all tables and partials. -/
theorem Report.forall_mem_indexes {P : Index → Prop}
    (hP : ∀ finish t index, .ok index ∈ Index.readAll finish t → P index) (policy : MergePolicy)
    (source : String) :
  let document := (ofSource policy source).document
  (∀ table ∈ document.tables, ∀ index ∈ table.indexes, P index)
    ∧ ∀ p ∈ document.tablePartials, ∀ index ∈ p.indexes, P index
  := by
  intro document
  constructor
  · rw [tables_ofSource, List.forall_mem_map]
    intro b _
    rw [(Table.isFlattened_ofBlock policy _ b).indexes]
    exact b.forall_mem_indexes _ hP
  · rw [tablePartials_ofSource, List.forall_mem_map]
    rintro ⟨available, b⟩ _
    rw [(TablePartial.isFlattened_ofBlock policy available b).indexes]
    exact b.forall_mem_indexes _ hP

/-- In every source and by either policy, the fields of all columns and indexes of tables and of
partials say what their settings say, also of those that are injected. -/
theorem fields_show_settings (policy : MergePolicy) (source : String) :
  let document := (Report.ofSource policy source).document
  (∀ table ∈ document.tables, (∀ column ∈ table.columns, column.ShowsSettings)
      ∧ ∀ index ∈ table.indexes, index.ShowsSettings)
    ∧ ∀ p ∈ document.tablePartials, (∀ column ∈ p.columns, column.ShowsSettings)
      ∧ ∀ index ∈ p.indexes, index.ShowsSettings
  := by
  intro document
  obtain ⟨htables, hpartials⟩ :=
    Report.forall_mem_columns (fun _ _ => Column.showsSettings_of_read) policy source
  obtain ⟨htables', hpartials'⟩ :=
    Report.forall_mem_indexes (fun _ _ _ => Index.showsSettings_of_mem_readAll) policy source
  exact ⟨fun table ht => ⟨htables table ht, htables' table ht⟩,
    fun p hp => ⟨hpartials p hp, hpartials' p hp⟩⟩

/-- The last of the flags counts, whatever the brackets, unless the column is a primary key. -/
example :
  let report := Report.ofSource .tableWins
    "Table t \x7b\n a int [not null] [null]\n b int [null, pk]\n \x7d"
  report.document.tables.flatMap (fun t => t.columns.map fun c => (c.isNullable, c.isNotNull))
    = [(true, false), (false, true)]
  := by
  decide +kernel

end DatabaseMarkup
