import DatabaseMarkup.Proofs.Document.Content
import DatabaseMarkup.Proofs.Document.Fields
import DatabaseMarkup.Proofs.Settings.Name
import DatabaseMarkup.Proofs.Text.Parts

/-!
# Names of the attributes of a document

`Document.settingsOf` lists the settings that a document holds, by what they belong to.
`attribute_names_are_normal` states that the names of all attributes in them are normal forms, so
that every attribute is found under its name, and that no name is empty but for two kinds of lines:
a line of a project that holds blanks only, none of which is one of ASCII at its start, and a line
of a group of tables that begins with its colon.

Bracket groups yield named attributes only.  The lines of projects and of groups of tables are read
part by part, so what holds of them is said of the parts that the reading comes to.
-/

namespace DatabaseMarkup

open Unicode Text

/-! ## Parts of a body -/

theorem Finding.mem_successes {α : Type} {results : List (Except Finding α)} {a : α} :
  a ∈ successes results ↔ .ok a ∈ results
  := by
  rw [successes, List.mem_filterMap]
  constructor
  · rintro ⟨result, hm, h⟩
    cases result with
    | ok b =>
      cases h
      exact hm
    | error f => cases h
  · intro h
    exact ⟨_, h, rfl⟩

theorem Text.firstLine_cons {c : Char} (hc : isBlank c = false) (t : Text) :
  firstLine (c :: t) = c :: firstLine t
  := by
  apply List.takeWhile_cons_of_pos
  rw [bne_iff_ne]
  rintro rfl
  cases hc

/-! ## Lines of a project -/

namespace Project

theorem isBlank_eq_false_of_isKeyChar {c : Char} (h : isKeyChar c) :
  isBlank c = false
  := by
  rw [isKeyChar, Bool.or_eq_true, decide_eq_true_eq] at h
  rcases h with h | rfl
  · exact isBlank_eq_false_of_isAlphanumeric h
  · rfl

/-- A part that begins with a key holds a named attribute, if any. -/
theorem isNamed_of_isKeyChar {finish : Nat} {c : Char} {u : Text} (hc : isKeyChar c)
    {a : Attribute} (h : (splitFirst finish (c :: u)).1 = .ok a) :
  a.IsNamed
  := by
  have hb := isBlank_eq_false_of_isKeyChar hc
  have hkey : allBlank ((c :: u).takeWhile isKeyChar) = false := by
    rw [List.takeWhile_cons_of_pos hc, allBlank, List.all_cons, hb, Bool.false_and]
  have hline : allBlank (firstLine (c :: u)) = false := by
    rw [firstLine_cons hb, allBlank, List.all_cons, hb, Bool.false_and]
  rw [splitFirst] at h
  dsimp only at h
  split at h
  · cases h
    exact Attribute.isNamed_flag hline
  · split at h
    · cases h
      exact Attribute.isNamed_pair hkey _
    · split at h
      · split at h
        · cases h
          exact Attribute.isNamed_pair hkey _
        · cases h
      · cases h
        exact Attribute.isNamed_flag hline

/-- A part that begins with no key is a flag. -/
theorem splitFirst_of_not_isKeyChar (finish : Nat) {c : Char} (hc : ¬isKeyChar c) (u : Text) :
  (splitFirst finish (c :: u)).1 = .ok (flagOf (firstLine (c :: u)))
  := by
  rw [splitFirst, List.takeWhile_cons_of_neg hc]
  rfl

/-- Only a flag may be without a name, and it is if its line is blank. -/
theorem isNormal_of_splitFirst {finish : Nat} {c : Char} {u : Text} {a : Attribute}
    (h : (splitFirst finish (c :: u)).1 = .ok a) :
  a.IsNormal ∧ (a.name = "" → a = .flag "" ∧ allBlank (firstLine (c :: u)))
  := by
  by_cases hc : isKeyChar c
  · obtain ⟨hnormal, hname⟩ := isNamed_of_isKeyChar hc h
    exact ⟨hnormal, fun hn => absurd hn hname⟩
  · rw [splitFirst_of_not_isKeyChar finish hc] at h
    cases h
    refine ⟨normalName_normalName _, fun hn => ⟨?_, normalName_eq_empty_iff.mp hn⟩⟩
    exact congrArg Attribute.flag hn

/-- A line that shows nothing and is not skipped as blank is read as a flag without a name. -/
theorem splitFirst_of_allBlank (finish : Nat) {c : Char} {u : Text}
    (h : allBlank (firstLine (c :: u))) :
  (splitFirst finish (c :: u)).1 = .ok (.flag "")
  := by
  have hc : ¬isKeyChar c := by
    intro hc
    have hb := isBlank_eq_false_of_isKeyChar hc
    rw [firstLine_cons hb, allBlank, List.all_cons, hb] at h
    cases h
  rw [splitFirst_of_not_isKeyChar finish hc, flagOf, normalName_eq_empty_iff.mpr h]

variable {block : Block} {a : Attribute}

/-- The settings of a project are those of its header and of the parts of its body. -/
theorem mem_settings_iff :
  a ∈ (ofBlock block).settings ↔ a ∈ block.settings
    ∨ ∃ before c u, Reaches (splitFirst block.finish) block.body before (c :: u)
        ∧ (splitFirst block.finish (c :: u)).1 = .ok a
  := by
  have hparts := mem_read_iff (t := block.body) (a := .ok a) (readAll_eq block.finish)
    (length_splitFirst_lt block.finish)
  rw [← hparts, ← entries, ← Finding.mem_successes]
  exact List.mem_append

/-- The settings of a project are named, apart from the flag that a blank line makes. -/
theorem isNormal_of_mem_settings (hb : block.settings.IsNamed)
    (h : a ∈ (ofBlock block).settings) :
  a.IsNormal ∧ (a.name = "" → a = .flag "")
  := by
  rcases mem_settings_iff.mp h with h | ⟨_, c, u, _, ha⟩
  · exact ⟨(hb a h).1, fun hn => absurd hn (hb a h).2⟩
  · obtain ⟨hnormal, hname⟩ := isNormal_of_splitFirst ha
    exact ⟨hnormal, fun hn => (hname hn).1⟩

/-- Whether the reading of the body of a project comes to a line that holds blanks only. -/
def ComesToBlankLine (block : Block) : Prop :=
  ∃ before c u, Reaches (splitFirst block.finish) block.body before (c :: u)
    ∧ allBlank (firstLine (c :: u))

/-- A project has a setting without a name exactly when its reader comes to a blank line. -/
theorem exists_unnamed_iff (hb : block.settings.IsNamed) :
  (∃ a ∈ (ofBlock block).settings, a.name = "") ↔ ComesToBlankLine block
  := by
  constructor
  · rintro ⟨a, h, hn⟩
    rcases mem_settings_iff.mp h with h | ⟨before, c, u, hp, ha⟩
    · exact absurd hn (hb a h).2
    · exact ⟨before, c, u, hp, ((isNormal_of_splitFirst ha).2 hn).2⟩
  · rintro ⟨before, c, u, hp, hblank⟩
    have ha := splitFirst_of_allBlank block.finish hblank
    exact ⟨_, mem_settings_iff.mpr (.inr ⟨before, c, u, hp, ha⟩), rfl⟩

end Project

/-! ## Lines of a group of tables -/

theorem Text.spells_of_isBlank {c : Char} (hc : isBlank c) :
  spells 'n' c = false
  := by
  have hn : c ≠ 'n' := by
    rintro rfl
    cases hc
  rw [spells, toLower_of_isBlank hc, decide_eq_false hn]
  rfl

theorem Note.split?_eq_none {c : Char} (hc : spells 'n' c = false) (finish : Nat) (t : Text) :
  split? finish (c :: t) = none
  := by
  rw [split?, splitKeyword?, if_neg (ne_true_of_eq_false hc)]

namespace TableGroupEntry

theorem isTableName_colon (t : Text) :
  isTableName (':' :: t) = false
  := rfl

/-- A line that begins with its colon is a pair without a key. -/
theorem splitFirst_of_colon (finish : Nat) {c : Char} {u : Text}
    (h : (trim (firstLine (c :: u))).head? = some ':') :
  ∃ value, (splitFirst finish (c :: u)).1 = .ok (.setting (.pair "" value))
  := by
  obtain ⟨v, hv⟩ := List.head?_eq_some_iff.mp h
  have hc : spells 'n' c = false := by
    by_cases hb : isBlank c
    · exact spells_of_isBlank hb
    · have hb := eq_false_of_ne_true hb
      rw [firstLine_cons hb, trim_cons hb] at hv
      obtain ⟨rfl, _⟩ := List.cons.inj hv
      rfl
  have hcut : cutAtMark [':'] (':' :: v) = some ([], v) :=
    cutAtMark_of_isPrefix (List.cons_ne_nil _ _) v
  refine ⟨(Value.read (trim v)).1, ?_⟩
  rw [splitFirst, Note.split?_eq_none hc]
  dsimp only
  rw [ofFirstLine, hv, isTableName_colon, if_neg Bool.false_ne_true, hcut]
  rfl

/-- Only a pair may be without a name, and it is if its line begins with the colon. -/
theorem isNormal_of_splitFirst {finish : Nat} {t : Text} {a : Attribute}
    (h : (splitFirst finish t).1 = .ok (.setting a)) :
  a.IsNormal
    ∧ (a.name = "" → (∃ value, a = .pair "" value) ∧ (trim (firstLine t)).head? = some ':')
  := by
  rw [splitFirst] at h
  split at h
  · rename_i text rest _
    cases text <;> cases h
  · rw [ofFirstLine] at h
    split at h
    · cases h
    · split at h
      · rename_i key value hcut
        cases h
        refine ⟨normalName_normalName key, fun hn => ⟨⟨_, congrArg (Attribute.pair · _) hn⟩, ?_⟩⟩
        have hline := eq_append_of_cutAtMark hcut
        cases key with
        | nil =>
          rw [hline]
          rfl
        | cons k key =>
          have hk : isBlank k = false := (trimmed_trim _).1 k (by rw [hline]; rfl)
          have hkey := normalName_eq_empty_iff.mp hn
          rw [allBlank, List.all_cons, hk] at hkey
          cases hkey
      · cases h

end TableGroupEntry

namespace TableGroup

variable {block : Block} {a : Attribute}

/-- The settings of a table group are those of its header and of the parts of its body. -/
theorem mem_settings_iff :
  a ∈ (ofBlock block).settings ↔ a ∈ block.settings
    ∨ ∃ before c u, Reaches (TableGroupEntry.splitFirst block.finish) block.body before (c :: u)
        ∧ (TableGroupEntry.splitFirst block.finish (c :: u)).1 = .ok (.setting a)
  := by
  have hentry (entry : TableGroupEntry) :
      entry.setting? = some a ↔ entry = .setting a := by
    cases entry <;> simp [TableGroupEntry.setting?]
  have hparts := mem_read_iff (t := block.body) (a := .ok (.setting a))
    (TableGroupEntry.readAll_eq block.finish) (TableGroupEntry.length_splitFirst_lt block.finish)
  rw [ofBlock]
  dsimp only
  rw [List.mem_append, List.mem_filterMap, ← hparts, ← entries, ← Finding.mem_successes]
  simp only [hentry, exists_eq_right]

/-- The settings of a table group are named, apart from those with an empty key. -/
theorem isNormal_of_mem_settings (hb : block.settings.IsNamed)
    (h : a ∈ (ofBlock block).settings) :
  a.IsNormal ∧ (a.name = "" → ∃ value, a = .pair "" value)
  := by
  rcases mem_settings_iff.mp h with h | ⟨_, c, u, _, ha⟩
  · exact ⟨(hb a h).1, fun hn => absurd hn (hb a h).2⟩
  · obtain ⟨hnormal, hname⟩ := TableGroupEntry.isNormal_of_splitFirst ha
    exact ⟨hnormal, fun hn => (hname hn).1⟩

/-- Whether the reading of the body of a group comes to a line that begins with a colon. -/
def ComesToLineWithoutKey (block : Block) : Prop :=
  ∃ before c u, Reaches (TableGroupEntry.splitFirst block.finish) block.body before (c :: u)
    ∧ (trim (firstLine (c :: u))).head? = some ':'

/-- A table group has a setting without a name exactly when its reader comes to a line without a
key. -/
theorem exists_unnamed_iff (hb : block.settings.IsNamed) :
  (∃ a ∈ (ofBlock block).settings, a.name = "") ↔ ComesToLineWithoutKey block
  := by
  constructor
  · rintro ⟨a, h, hn⟩
    rcases mem_settings_iff.mp h with h | ⟨before, c, u, hp, ha⟩
    · exact absurd hn (hb a h).2
    · exact ⟨before, c, u, hp, ((TableGroupEntry.isNormal_of_splitFirst ha).2 hn).2⟩
  · rintro ⟨before, c, u, hp, hcolon⟩
    obtain ⟨value, ha⟩ := TableGroupEntry.splitFirst_of_colon block.finish hcolon
    exact ⟨_, mem_settings_iff.mpr (.inr ⟨before, c, u, hp, ha⟩), rfl⟩

end TableGroup

/-! ## The other declarations -/

/-- The settings of a column are named. -/
theorem Column.isNamed_settings_of_read {line : Text} {column : Column}
    (h : read? line = some column) :
  column.settings.IsNamed
  := by
  obtain ⟨name, dataType, groups, rfl⟩ := exists_of_read h
  rw [(becomes_ofSettings name dataType _).settings]
  apply Settings.isNamed_readGroups

/-- The settings of an index are named. -/
theorem Index.isNamed_settings_of_mem_readAll {finish : Nat} {t : Text} {index : Index}
    (h : .ok index ∈ readAll finish t) :
  index.settings.IsNamed
  := by
  obtain ⟨c, u, columns, rest, _, rfl⟩ := exists_of_mem_readAll h
  exact Settings.isNamed_readGroups rest

/-- The settings of a value of an enum are named. -/
theorem EnumValue.isNamed_settings_of_readLine {line : Text} {value : EnumValue}
    (h : readLine? line = some value) :
  value.settings.IsNamed
  := by
  rw [readLine?] at h
  split at h
  · dsimp only at h
    split at h
    · cases h
      apply Settings.isNamed_readGroups
    · cases h
  · cases h

/-- The settings of a relationship are named. -/
theorem Relationship.isNamed_settings_of_readLine {name : Option Text} {line : Text}
    {r : Relationship} (h : readLine? name line = some r) :
  r.settings.IsNamed
  := by
  rw [readLine?] at h
  simp only [Option.bind_eq_bind, Option.bind_eq_some_iff] at h
  obtain ⟨_, _, _, _, ⟨right, rest⟩, _, h⟩ := h
  dsimp only at h
  split at h
  · cases h
    intro a ha
    exact Settings.isNamed_readGroups _ a (List.mem_filter.mp ha).1
  · cases h

theorem Enum.isNamed_settings (block : Block) :
  ∀ value ∈ (ofBlock block).values, value.settings.IsNamed
  := by
  intro value h
  rw [ofBlock] at h
  dsimp only at h
  rw [EnumValue.readAll, Finding.successes_lines EnumValue.toOption_readLine] at h
  obtain ⟨line, _, hv⟩ := List.mem_filterMap.mp h
  exact EnumValue.isNamed_settings_of_readLine hv

theorem Block.isNamed_relationships (block : Block) :
  ∀ r ∈ Finding.successes block.relationships, r.settings.IsNamed
  := by
  intro r h
  rw [Finding.mem_successes, relationships] at h
  split at h
  · have hr := congrArg Except.toOption (List.mem_singleton.mp h)
    rw [Relationship.readShort, Relationship.toOption_readLine] at hr
    exact Relationship.isNamed_settings_of_readLine hr.symm
  · rw [← Finding.mem_successes, Relationship.readBlock,
      Finding.successes_lines (Relationship.toOption_readLine block.header.name)] at h
    obtain ⟨line, _, hr⟩ := List.mem_filterMap.mp h
    exact Relationship.isNamed_settings_of_readLine hr
  · cases h

/-- Endpoints are resolved without a change to the settings, and references of columns have
none. -/
theorem Document.isNamed_resolvedRelationships {document : Document}
    (h : ∀ r ∈ document.relationships, r.settings.IsNamed) :
  ∀ r ∈ document.resolvedRelationships, r.settings.IsNamed
  := by
  intro r hr
  rcases List.mem_append.mp hr with hr | hr
  · obtain ⟨given, hg, rfl⟩ := List.mem_map.mp hr
    exact h given hg
  · obtain ⟨given, hg, rfl⟩ := List.mem_map.mp hr
    obtain ⟨table, _, hg⟩ := List.mem_flatMap.mp hg
    obtain ⟨column, _, hg⟩ := List.mem_filterMap.mp hg
    obtain ⟨target, _, rfl⟩ := Option.map_eq_some_iff.mp hg
    exact Settings.isNamed_nil

/-! ## The settings of a document -/

/-- What settings belong to. -/
inductive SettingsOwner where
  | project
  | table
  | column
  | index
  | enumValue
  | relationship
  | tableGroup
  | tablePartial
  | partialColumn
  | partialIndex
  deriving DecidableEq, Repr

/-- All settings of a document that belong to the given kind of owner, in order. -/
def Document.settingsOf (document : Document) : SettingsOwner → List Settings
  | .project => document.project.toList.map Project.settings
  | .table => document.tables.map Table.settings
  | .column => document.tables.flatMap fun t => t.columns.map Column.settings
  | .index => document.tables.flatMap fun t => t.indexes.map Index.settings
  | .enumValue => document.enums.flatMap fun e => e.values.map EnumValue.settings
  | .relationship => document.relationships.map Relationship.settings
  | .tableGroup => document.tableGroups.map TableGroup.settings
  | .tablePartial => document.tablePartials.map TablePartial.settings
  | .partialColumn => document.tablePartials.flatMap fun p => p.columns.map Column.settings
  | .partialIndex => document.tablePartials.flatMap fun p => p.indexes.map Index.settings

/-- Whether settings are found to have an attribute when its name is looked up in its normal
form. -/
def Settings.Finds (settings : Settings) : Attribute → Prop
  | .flag name => settings.hasFlag (normalName name.toList)
  | .pair key _ => (settings.get? (normalName key.toList)).isSome

/-- A setting with a normal name is found under that name. -/
theorem Settings.finds_of_isNormal {settings : Settings} {a : Attribute} (h : a ∈ settings)
    (hn : a.IsNormal) :
  settings.Finds a
  := by
  have hslot : settings.hasSlot a.slot := hasSlot_iff.mpr ⟨a, h, rfl⟩
  cases a with
  | flag name =>
    have hn : normalName name.toList = name := hn
    rw [Finds, hn, hasFlag_eq_hasSlot]
    exact hslot
  | pair key value =>
    have hn : normalName key.toList = key := hn
    rw [Finds, hn, Option.isSome_iff_ne_none, Ne, get?_eq_none_iff]
    exact ne_false_of_eq_true hslot

namespace Report

variable (policy : MergePolicy) (source : String)

theorem isNamed_settings_of_mem_ofKind {kind : BlockKind} :
  ∀ b ∈ Block.ofKind kind (Block.ofSource source), b.settings.IsNamed
  := by
  intro b hb
  exact Block.isNamed_settings (List.mem_filter.mp hb).1

/-- The settings of the tables of a document are named. -/
theorem isNamed_tables :
  ∀ table ∈ (ofSource policy source).document.tables, table.settings.IsNamed
  := by
  rw [tables_ofSource, List.forall_mem_map]
  intro b hb
  rw [(Table.isFlattened_ofBlock policy _ b).settings]
  exact Block.isNamed_mergedSettings policy (isNamed_settings_of_mem_ofKind source)
    (isNamed_settings_of_mem_ofKind source b hb)

/-- The settings of the partials of a document are named. -/
theorem isNamed_tablePartials :
  ∀ p ∈ (ofSource policy source).document.tablePartials, p.settings.IsNamed
  := by
  rw [tablePartials_ofSource, List.forall_mem_map]
  rintro ⟨available, b⟩ h
  obtain ⟨between, after, hb, rfl⟩ := Block.mem_withEarlier.mp h
  have hnamed := @isNamed_settings_of_mem_ofKind source .tablePartial
  rw [hb] at hnamed
  rw [(TablePartial.isFlattened_ofBlock policy _ b).settings]
  apply Block.isNamed_mergedSettings
  · intro c hc
    exact hnamed c (List.mem_append_left _ hc)
  · exact hnamed b (List.mem_append_right _ List.mem_cons_self)

/-- The settings of the relationships of a document are named. -/
theorem isNamed_relationships :
  ∀ r ∈ (ofSource policy source).document.relationships, r.settings.IsNamed
  := by
  apply Document.isNamed_resolvedRelationships
  intro r hr
  obtain ⟨b, _, hr⟩ := List.mem_flatMap.mp hr
  exact b.isNamed_relationships r hr

/-- All settings are named but for those of projects and of groups of tables. -/
theorem isNamed_settingsOf {owner : SettingsOwner} (hp : owner ≠ .project)
    (hg : owner ≠ .tableGroup) :
  ∀ settings ∈ (ofSource policy source).document.settingsOf owner, settings.IsNamed
  := by
  obtain ⟨hcolumns, hcolumns'⟩ :=
    forall_mem_columns (fun _ _ => Column.isNamed_settings_of_read) policy source
  obtain ⟨hindexes, hindexes'⟩ :=
    forall_mem_indexes (fun _ _ _ => Index.isNamed_settings_of_mem_readAll) policy source
  cases owner with
  | project => exact absurd rfl hp
  | tableGroup => exact absurd rfl hg
  | table => exact List.forall_mem_map.mpr (isNamed_tables policy source)
  | tablePartial => exact List.forall_mem_map.mpr (isNamed_tablePartials policy source)
  | relationship => exact List.forall_mem_map.mpr (isNamed_relationships policy source)
  | column =>
    rw [Document.settingsOf, List.forall_mem_flatMap]
    exact fun table ht => List.forall_mem_map.mpr (hcolumns table ht)
  | index =>
    rw [Document.settingsOf, List.forall_mem_flatMap]
    exact fun table ht => List.forall_mem_map.mpr (hindexes table ht)
  | partialColumn =>
    rw [Document.settingsOf, List.forall_mem_flatMap]
    exact fun p hm => List.forall_mem_map.mpr (hcolumns' p hm)
  | partialIndex =>
    rw [Document.settingsOf, List.forall_mem_flatMap]
    exact fun p hm => List.forall_mem_map.mpr (hindexes' p hm)
  | enumValue =>
    rw [Document.settingsOf, List.forall_mem_flatMap]
    exact List.forall_mem_map.mpr fun b _ => List.forall_mem_map.mpr (Enum.isNamed_settings b)

theorem tableGroups_ofSource :
  (ofSource policy source).document.tableGroups
    = (Block.ofKind .tableGroup (Block.ofSource source)).map TableGroup.ofBlock
  := rfl

end Report

/-- In every source and by either policy, the names of all attributes are normal forms, so that
every attribute is found under its name.  An attribute has no name only if it is a flag of the
project or a pair of a group of tables.  There is such a flag if the body of the project comes to a
line that holds blanks only, and such a pair if that of the group comes to a line that begins with
its colon. -/
theorem attribute_names_are_normal (policy : MergePolicy) (source : String) :
  let blocks := Block.ofSource source
  let document := (Report.ofSource policy source).document
  (∀ owner, ∀ settings ∈ document.settingsOf owner, ∀ a ∈ settings,
      a.IsNormal ∧ settings.Finds a
        ∧ (a.name = "" → (owner = .project ∧ a = .flag "")
          ∨ (owner = .tableGroup ∧ ∃ value, a = .pair "" value)))
    ∧ (∀ project ∈ document.project, ∃ block,
        (Block.ofKind .project blocks).head? = some block ∧ project = Project.ofBlock block
          ∧ ((∃ a ∈ project.settings, a.name = "") ↔ Project.ComesToBlankLine block))
    ∧ List.Forall₂ (fun block group =>
          (∃ a ∈ group.settings, a.name = "") ↔ TableGroup.ComesToLineWithoutKey block)
        (Block.ofKind .tableGroup blocks) document.tableGroups
  := by
  intro blocks document
  have hproject {project : Project} (h : project ∈ document.project) : ∃ block,
      (Block.ofKind .project blocks).head? = some block ∧ Project.ofBlock block = project
        ∧ block.settings.IsNamed := by
    obtain ⟨block, hb, rfl⟩ := Option.map_eq_some_iff.mp h
    exact ⟨block, hb, rfl,
      Report.isNamed_settings_of_mem_ofKind source block (List.mem_of_head? hb)⟩
  refine ⟨?_, ?_, ?_⟩
  · intro owner settings hs a ha
    by_cases hp : owner = .project
    · subst hp
      obtain ⟨project, hm, rfl⟩ := List.mem_map.mp hs
      obtain ⟨block, _, rfl, hb⟩ := hproject (Option.mem_toList.mp hm)
      obtain ⟨hnormal, hname⟩ := Project.isNormal_of_mem_settings hb ha
      exact ⟨hnormal, Settings.finds_of_isNormal ha hnormal, fun hn => .inl ⟨rfl, hname hn⟩⟩
    by_cases hg : owner = .tableGroup
    · subst hg
      obtain ⟨group, hm, rfl⟩ := List.mem_map.mp hs
      obtain ⟨block, hmem, rfl⟩ := List.mem_map.mp hm
      have hb := Report.isNamed_settings_of_mem_ofKind source block hmem
      obtain ⟨hnormal, hname⟩ := TableGroup.isNormal_of_mem_settings hb ha
      exact ⟨hnormal, Settings.finds_of_isNormal ha hnormal, fun hn => .inr ⟨rfl, hname hn⟩⟩
    · obtain ⟨hnormal, hname⟩ := Report.isNamed_settingsOf policy source hp hg settings hs a ha
      exact ⟨hnormal, Settings.finds_of_isNormal ha hnormal, fun hn => absurd hn hname⟩
  · intro project h
    obtain ⟨block, hhead, rfl, hb⟩ := hproject h
    exact ⟨block, hhead, rfl, Project.exists_unnamed_iff hb⟩
  · rw [Report.tableGroups_ofSource, List.forall₂_map_right_iff, List.forall₂_same]
    intro block hmem
    exact TableGroup.exists_unnamed_iff (Report.isNamed_settings_of_mem_ofKind source block hmem)

/-- A line of a group of tables that begins with its colon is kept under the empty key. -/
theorem line_without_key_is_kept :
  ¬∀ (policy : MergePolicy) (source : String) (owner : SettingsOwner),
    ∀ settings ∈ (Report.ofSource policy source).document.settingsOf owner,
      ∀ a ∈ settings, a.IsNormal ∧ a.name ≠ ""
  := by
  intro h
  have hs : [.pair "" (.bare "x")] ∈ (Report.ofSource .tableWins
      "TableGroup g \x7b\n: x\n\x7d\n").document.settingsOf .tableGroup := by
    decide +kernel
  exact (h _ _ _ _ hs _ List.mem_cons_self).2 rfl

/-- A no-break space alone on a line of a project is kept as a flag without a name. -/
example :
  (Report.ofSource .tableWins "Project p \x7b\n\u00a0\n\x7d\n").document.settingsOf .project
    = [[.flag ""]]
  := by
  decide +kernel

end DatabaseMarkup
