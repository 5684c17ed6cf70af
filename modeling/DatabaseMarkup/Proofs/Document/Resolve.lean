import DatabaseMarkup.Document.Resolve
import Mathlib.Data.List.Forall2

/-!
# What the endpoints of a document stand for

`TableRef.Resolves` says which table a side of a relationship stands for: the table of its name, or
else the last table that has its name as an alias.  Resolved sides need no further resolution, and
those without a schema of their own lead to a table.

`Relationship.IsResolved` says this of both sides of a relationship and `Relationship.IsDeclared`
of the relationship that an inline reference declares.  `assemble_resolves_endpoints` puts the
relationships of a document together.
-/

namespace DatabaseMarkup

namespace TableRef

/-- Whether a name is that of a table. -/
def IsName (tables : List Table) (name : String) : Prop :=
  ∃ t ∈ tables, t.name = name

/-- Whether a name is an alias of a table. -/
def IsAlias (tables : List Table) (name : String) : Prop :=
  ∃ t ∈ tables, t.aliasName = some name

/-- Whether a table is the last one with the given alias. -/
def IsLastAliased (tables : List Table) (name : String) (t : Table) : Prop :=
  ∃ before after, tables = before ++ t :: after ∧ t.aliasName = some name
    ∧ ∀ u ∈ after, u.aliasName ≠ some name

/-- Whether a reference stands for another one. -/
inductive Resolves (tables : List Table) (r : TableRef) : TableRef → Prop
  | name (h : IsName tables r.table) : Resolves tables r r
  | aliased {t : Table} (hn : ¬IsName tables r.table) (ht : IsLastAliased tables r.table t) :
      Resolves tables r
        ⟨r.schema.or (if t.schema = "public" then none else some t.schema), t.name⟩
  | unknown (hn : ¬IsName tables r.table) (ha : ¬IsAlias tables r.table) : Resolves tables r r

variable {tables : List Table} {name : String} {r s : TableRef}

/-! ## Names and aliases -/

theorem isTable_iff :
  isTable tables name ↔ IsName tables name
  := by
  simp [isTable, IsName]

/-- The table that is found by an alias is the last one with it. -/
theorem aliased?_eq_some {t : Table} (h : aliased? tables name = some t) :
  IsLastAliased tables name t
  := by
  obtain ⟨ha, after, before, ht, hb⟩ := List.find?_eq_some_iff_append.mp h
  refine ⟨before.reverse, after.reverse, ?_, of_decide_eq_true ha, ?_⟩
  · rw [← List.reverse_reverse tables, ht]
    simp
  · intro u hu
    simpa using hb u (List.mem_reverse.mp hu)

theorem aliased?_eq_none_iff :
  aliased? tables name = none ↔ ¬IsAlias tables name
  := by
  simp [aliased?, IsAlias]

theorem IsLastAliased.mem {t : Table} (h : IsLastAliased tables name t) :
  t ∈ tables
  := by
  obtain ⟨before, after, rfl, _, _⟩ := h
  apply List.mem_append_right _ List.mem_cons_self

/-- A name is known when a table has it as its name or its alias. -/
theorem not_isKnown_iff :
  isKnown tables name = false ↔ ∀ t ∈ tables, t.name ≠ name ∧ t.aliasName ≠ some name
  := by
  rw [isKnown, Bool.or_eq_false_iff, Bool.eq_false_iff, Ne, isTable_iff, Option.isSome_eq_false_iff,
    Option.isNone_iff_eq_none, aliased?_eq_none_iff]
  constructor
  · rintro ⟨hn, ha⟩ t ht
    exact ⟨fun h => hn ⟨t, ht, h⟩, fun h => ha ⟨t, ht, h⟩⟩
  · intro h
    constructor
    · rintro ⟨t, ht, hn⟩
      exact (h t ht).1 hn
    · rintro ⟨t, ht, ha⟩
      exact (h t ht).2 ha

/-! ## Resolution -/

/-- A reference to a table resolves to what the reader looks up. -/
theorem resolves_resolve (tables : List Table) (r : TableRef) :
  Resolves tables r (r.resolve tables)
  := by
  rw [resolve]
  split
  · rename_i h
    exact .name (isTable_iff.mp h)
  · rename_i h
    have hn : ¬IsName tables r.table := fun h' => h (isTable_iff.mpr h')
    split
    · rename_i t ht
      have hs : (r.schema <|> t.givenSchema) = r.schema.or t.givenSchema := by
        cases r.schema with
        | none => rfl
        | some _ => rfl
      rw [hs]
      exact .aliased hn (aliased?_eq_some ht)
    · rename_i ht
      exact .unknown hn (aliased?_eq_none_iff.mp ht)

/-- What a reference stands for names a table, or nothing is known of it. -/
theorem Resolves.isName_or (h : Resolves tables r s) :
  IsName tables s.table ∨ ¬IsName tables s.table ∧ ¬IsAlias tables s.table
  := by
  cases h with
  | name h => exact .inl h
  | aliased _ ht => exact .inl ⟨_, ht.mem, rfl⟩
  | unknown hn ha => exact .inr ⟨hn, ha⟩

/-- A reference to the name of a table stays as it is. -/
theorem resolve_of_isName (h : IsName tables r.table) :
  r.resolve tables = r
  := by
  rw [resolve, if_pos (isTable_iff.mpr h)]

/-- What a reference stands for stands for itself. -/
theorem Resolves.resolve_eq (h : Resolves tables r s) :
  s.resolve tables = s
  := by
  rcases h.isName_or with hn | ⟨hn, ha⟩
  · apply resolve_of_isName hn
  · rw [resolve, if_neg fun h => hn (isTable_iff.mp h), aliased?_eq_none_iff.mpr ha]

/-- What stands for itself is an alias only if it is a name as well. -/
theorem isName_of_isAlias (h : r.resolve tables = r) (ha : IsAlias tables r.table) :
  IsName tables r.table
  := by
  have hr := (resolves_resolve tables r).isName_or
  rw [h] at hr
  rcases hr with hn | ⟨_, hn⟩
  · exact hn
  · exact absurd ha hn

/-- The table that an alias without a schema stands for can be found. -/
theorem Resolves.exists_tableIn? {document : Document} (h : Resolves document.tables r s)
    (hr : r.schema = none) (hn : ¬IsName document.tables r.table)
    (ha : IsAlias document.tables r.table) :
  ∃ t, document.tableIn? (s.schema.getD "public") s.table = some t
  := by
  cases h with
  | name h => exact absurd h hn
  | unknown _ h => exact absurd ha h
  | @aliased t _ ht =>
    apply Option.isSome_iff_exists.mp
    rw [Document.tableIn?, List.find?_isSome]
    refine ⟨t, ht.mem, ?_⟩
    rw [hr, Option.none_or]
    split
    · rename_i h
      simp [h]
    · simp

end TableRef

namespace Relationship

/-- Whether a relationship is another one in which both sides are resolved. -/
structure IsResolved (tables : List Table) (given r : Relationship) : Prop where
  left : TableRef.Resolves tables given.left r.left
  right : TableRef.Resolves tables given.right r.right
  name : r.name = given.name
  leftColumns : r.leftColumns = given.leftColumns
  rightColumns : r.rightColumns = given.rightColumns
  kind : r.kind = given.kind
  settings : r.settings = given.settings

/-- Whether a relationship is what an inline reference of a column declares, with its right side
resolved.  The left side is the table itself. -/
structure IsDeclared (tables : List Table) (table : Table) (column : Column) (target : InlineRef)
    (r : Relationship) : Prop where
  left : r.left = ⟨if table.schema = "public" then none else some table.schema, table.name⟩
  right : TableRef.Resolves tables ⟨target.schema, target.table⟩ r.right
  name : r.name = none
  leftColumns : r.leftColumns = [column.name]
  rightColumns : r.rightColumns = [target.column]
  kind : r.kind = target.kind
  settings : r.settings = []

/-- The inline references of the columns of the tables, in order, with their columns and tables. -/
def inlineRefs (tables : List Table) : List (Table × Column × InlineRef) :=
  tables.flatMap fun table =>
    table.columns.filterMap fun column => column.inlineRef.map fun target => (table, column, target)

/-- A relationship is resolved at both of its ends. -/
theorem isResolved_resolve (tables : List Table) (r : Relationship) :
  IsResolved tables r (r.resolve tables)
  := by
  constructor
  · apply TableRef.resolves_resolve
  · apply TableRef.resolves_resolve
  · rfl
  · rfl
  · rfl
  · rfl
  · rfl

theorem isDeclared_resolveRight (tables : List Table) (table : Table) (column : Column)
    (target : InlineRef) :
  IsDeclared tables table column target ((ofInline table column target).resolveRight tables)
  := by
  constructor
  · rfl
  · apply TableRef.resolves_resolve
  · rfl
  · rfl
  · rfl
  · rfl
  · rfl

/-- There is one relationship for every inline reference. -/
theorem inline_eq_map (tables : List Table) :
  inline tables = (inlineRefs tables).map fun (table, column, target) =>
    ofInline table column target
  := by
  rw [inline, inlineRefs, List.map_flatMap]
  congr 1
  funext table
  rw [List.map_filterMap]
  congr 1
  funext column
  rw [Option.map_map]
  rfl

theorem mem_inlineRefs {tables : List Table} {table : Table} {column : Column}
    {target : InlineRef} (h : (table, column, target) ∈ inlineRefs tables) :
  table ∈ tables
  := by
  obtain ⟨t, ht, h⟩ := List.mem_flatMap.mp h
  obtain ⟨c, _, h⟩ := List.mem_filterMap.mp h
  obtain ⟨_, _, h⟩ := Option.map_eq_some_iff.mp h
  cases h
  exact ht

/-- A relationship whose sides stand for themselves is not changed. -/
theorem resolve_eq_self {tables : List Table} {r : Relationship}
    (hl : r.left.resolve tables = r.left) (hr : r.right.resolve tables = r.right) :
  r.resolve tables = r
  := by
  have hleft : r.resolveLeft tables = r := by
    rw [resolveLeft, hl]
    rfl
  rw [resolve, hleft, resolveRight, hr]
  rfl

/-- The problems with a relationship are its sides that are neither names nor aliases. -/
theorem findings_eq (tables : List Table) (r : Relationship) :
  r.findings tables
    = ([r.leftTable, r.rightTable].filter
        fun name => ∀ t ∈ tables, t.name ≠ name ∧ t.aliasName ≠ some name).map
          fun name => .unplaced (.unresolvedEndpoint name)
  := by
  rw [findings]
  congr 2
  funext name
  rw [Bool.eq_iff_iff, Bool.not_eq_true', TableRef.not_isKnown_iff, decide_eq_true_iff]

end Relationship

namespace Document

/-- Both sides of all relationships of a document stand for themselves. -/
theorem resolve_sides (document : Document) {r : Relationship}
    (h : r ∈ document.resolvedRelationships) :
  r.left.resolve document.tables = r.left ∧ r.right.resolve document.tables = r.right
  := by
  rcases List.mem_append.mp h with h | h
  · obtain ⟨given, _, rfl⟩ := List.mem_map.mp h
    have hr := Relationship.isResolved_resolve document.tables given
    exact ⟨hr.left.resolve_eq, hr.right.resolve_eq⟩
  · rw [Relationship.inline_eq_map, List.map_map] at h
    obtain ⟨⟨table, column, target⟩, hm, rfl⟩ := List.mem_map.mp h
    have hr := Relationship.isDeclared_resolveRight document.tables table column target
    refine ⟨?_, hr.right.resolve_eq⟩
    apply TableRef.resolve_of_isName
    exact ⟨table, Relationship.mem_inlineRefs hm, rfl⟩

end Document

/-- The relationships of a document are those that it declares on their own, with both sides
resolved, and one for every inline reference, in order.  An alias without a schema leads to a
table.  No side is left to be resolved, and just the sides that name neither a table nor an alias
are reported. -/
theorem assemble_resolves_endpoints (document : Document) :
  ∃ explicit inline : List Relationship,
    document.assemble.1 = { document with relationships := explicit ++ inline }
      ∧ List.Forall₂ (Relationship.IsResolved document.tables) document.relationships explicit
      ∧ List.Forall₂
          (fun (table, column, target) =>
            Relationship.IsDeclared document.tables table column target)
          (Relationship.inlineRefs document.tables) inline
      ∧ (∀ r s : TableRef, TableRef.Resolves document.tables r s → r.schema = none →
          ¬TableRef.IsName document.tables r.table → TableRef.IsAlias document.tables r.table →
            ∃ t, document.tableIn? (s.schema.getD "public") s.table = some t)
      ∧ (∀ r ∈ explicit ++ inline, r.resolve document.tables = r
          ∧ ∀ side ∈ [r.left, r.right], TableRef.IsAlias document.tables side.table →
              TableRef.IsName document.tables side.table)
      ∧ document.assemble.2
        = (((explicit ++ inline).flatMap fun r => [r.leftTable, r.rightTable]).filter
            fun name => ∀ t ∈ document.tables, t.name ≠ name ∧ t.aliasName ≠ some name).map
              fun name => .unplaced (.unresolvedEndpoint name)
  := by
  refine ⟨document.relationships.map (Relationship.resolve document.tables),
    (Relationship.inline document.tables).map (Relationship.resolveRight document.tables), rfl,
    ?_, ?_, ?_, ?_, ?_⟩
  · apply List.forall₂_map_right_iff.mpr
    apply List.forall₂_same.mpr
    intro r _
    apply Relationship.isResolved_resolve
  · rw [Relationship.inline_eq_map, List.map_map]
    apply List.forall₂_map_right_iff.mpr
    apply List.forall₂_same.mpr
    rintro ⟨table, column, target⟩ _
    apply Relationship.isDeclared_resolveRight
  · intro r s h
    apply h.exists_tableIn?
  · intro r hr
    obtain ⟨hleft, hright⟩ := document.resolve_sides hr
    refine ⟨Relationship.resolve_eq_self hleft hright, ?_⟩
    intro side hs
    simp only [List.mem_cons, List.not_mem_nil, or_false] at hs
    rcases hs with rfl | rfl
    · apply TableRef.isName_of_isAlias hleft
    · apply TableRef.isName_of_isAlias hright
  · rw [List.filter_flatMap, List.map_flatMap]
    apply List.flatMap_congr
    intro r _
    apply Relationship.findings_eq

end DatabaseMarkup
