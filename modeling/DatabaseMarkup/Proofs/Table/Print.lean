import DatabaseMarkup.Document.Reader
import DatabaseMarkup.Proofs.Block.Print
import DatabaseMarkup.Proofs.Table.Body
import DatabaseMarkup.Proofs.Table.Column

/-!
# Printed tables

A `TableSource` is a table as it is written: its schema, its name and its alias between double
quotes, and one line for each column with its name, its type and its settings.
`tables_survive_printing` states that such a table is read back as it was written, whatever its
names and the texts of its settings hold.
-/

namespace DatabaseMarkup

open Unicode Text

/-! ## Types -/

namespace Text

/-- Whether a text closes its parentheses and `depth` ones that are open before it. -/
def isBalanced (depth : Nat) : Text → Bool
  | [] => depth = 0
  | c :: t =>
    if c = '(' then isBalanced (depth + 1) t
    else if c = ')' then 0 < depth && isBalanced (depth - 1) t
    else isBalanced depth t

/-- A number of array marks. -/
def arrayMarks : Nat → Text
  | 0 => []
  | n + 1 => '[' :: ']' :: arrayMarks n

/-- Whether a character may stand in the name of a type. -/
def isTypeNameChar (c : Char) : Bool :=
  isAsciiAlphanumeric c || ['_', ' ', ',', '(', ')'].contains c

/-- Behind its first character a balanced text is balanced at the depth that the character leads
to. -/
theorem isBalanced_parenthesesAfter {depth : Nat} {c : Char} {t : Text}
    (h : isBalanced depth (c :: t)) :
  isBalanced (parenthesesAfter depth (.plain c)) t
  := by
  rw [isBalanced] at h
  simp only [parenthesesAfter, Lexeme.plain.injEq]
  split
  · rename_i hc
    rwa [if_pos hc] at h
  · rename_i hc
    rw [if_neg hc] at h
    split
    · rename_i hd
      rw [if_pos hd, Bool.and_eq_true] at h
      exact h.2
    · rename_i hd
      rwa [if_neg hd] at h

/-- A group does not begin before the parentheses of a type are closed. -/
theorem cutAtGroup_balanced {depth : Nat} {t : Text} (ht : '[' ∉ t) (hb : isBalanced depth t)
    (ls : List Lexeme) :
  cutAtGroup depth (t.map .plain ++ ls) = (t ++ (cutAtGroup 0 ls).1, (cutAtGroup 0 ls).2)
  := by
  induction t generalizing depth with
  | nil =>
    obtain rfl := of_decide_eq_true hb
    rfl
  | cons c t ih =>
    rw [List.mem_cons, not_or] at ht
    have hc : Lexeme.plain c ≠ .plain '[' := by
      rintro ⟨⟩
      exact ht.1 rfl
    rw [List.map_cons, List.cons_append, cutAtGroup.eq_def]
    dsimp only
    rw [decide_eq_false hc, Bool.false_and, if_neg Bool.false_ne_true,
      ih ht.2 (isBalanced_parenthesesAfter hb)]
    rfl

/-- A group does not begin before the array marks of a type. -/
theorem cutAtGroup_arrayMarks (n : Nat) (ls : List Lexeme) :
  cutAtGroup 0 ((arrayMarks n).map .plain ++ ls)
    = (arrayMarks n ++ (cutAtGroup 0 ls).1, (cutAtGroup 0 ls).2)
  := by
  induction n with
  | zero => rfl
  | succ n ih =>
    rw [arrayMarks, List.map_cons, List.map_cons, List.cons_append, List.cons_append, cutAtGroup,
      if_pos (by rfl), ih]
    rfl

/-- A group begins at a bracket that is no array mark. -/
theorem cutAtGroup_bracket {l : Lexeme} (hl : l ≠ .plain ']') (ls : List Lexeme) :
  cutAtGroup 0 (.plain ' ' :: .plain '[' :: l :: ls) = ([' '], ofLexemes (.plain '[' :: l :: ls))
  := by
  have hb : cutAtGroup 0 (.plain '[' :: l :: ls) = ([], ofLexemes (.plain '[' :: l :: ls)) := by
    rw [cutAtGroup, if_pos (by rfl)]
    rintro ms h
    apply hl (List.cons.inj h).1
  have hd : parenthesesAfter 0 (.plain ' ') = 0 := rfl
  rw [cutAtGroup.eq_def]
  dsimp only
  rw [if_neg (by decide), hd, hb]
  rfl

theorem isArrayMarks_arrayMarks (n : Nat) :
  isArrayMarks (arrayMarks n)
  := by
  induction n with
  | zero => rfl
  | succ n ih =>
    rw [arrayMarks, isArrayMarks, ih]
    rfl

end Text

/-- The type of a column as it is written: a name, which may have parentheses, and array marks
behind it. -/
structure WrittenType where
  name : Text
  arrays : Nat
  name_ne_nil : name ≠ []
  isTypeNameChar_name : ∀ c ∈ name, isTypeNameChar c
  isBalanced_name : isBalanced 0 name
  trimmed : Trimmed (name ++ arrayMarks arrays)

namespace WrittenType

/-- A type as it is written. -/
def text (t : WrittenType) : Text :=
  t.name ++ arrayMarks t.arrays

variable (t : WrittenType)

theorem of_mem_text {c : Char} (h : c ∈ t.text) :
  isTypeNameChar c ∨ c = '[' ∨ c = ']'
  := by
  have hm (n : Nat) (h : c ∈ arrayMarks n) : c = '[' ∨ c = ']' := by
    induction n with
    | zero => cases h
    | succ n ih =>
      rw [arrayMarks, List.mem_cons, List.mem_cons] at h
      rcases h with h | h | h
      · exact .inl h
      · exact .inr h
      · apply ih h
  rcases List.mem_append.mp h with h | h
  · exact .inl (t.isTypeNameChar_name c h)
  · exact .inr (hm _ h)

/-- The characters of a type are those of names and brackets. -/
theorem notMem_of_mem_text {c : Char} (h : c ∈ t.text) {l : List Char}
    (hl : l.all fun d => !isTypeNameChar d && d != '[' && d != ']') :
  c ∉ l
  := by
  intro hc
  have hl := List.all_eq_true.mp hl c hc
  rcases t.of_mem_text h with h | rfl | rfl
  · rw [h] at hl
    cases hl
  · cases hl
  · cases hl

theorem isQuote_of_mem_text {c : Char} (h : c ∈ t.text) :
  isQuote c = false
  := isQuote_of_notMem (t.notMem_of_mem_text h (by decide))

theorem newline_notMem_text :
  '\n' ∉ t.text
  := fun h => t.notMem_of_mem_text h (by decide : ['\n'].all _) List.mem_cons_self

theorem text_ne_nil :
  t.text ≠ []
  := List.append_ne_nil_of_left_ne_nil t.name_ne_nil _

theorem flat_text {s : Text} (h : Flat s) :
  Flat (t.text ++ s)
  := h.plains fun _ hc => ⟨t.isQuote_of_mem_text hc, t.notMem_of_mem_text hc (by decide)⟩

/-- A written type is one. -/
theorem isType_text :
  isType t.text
  := by
  have hn : ∀ c ∈ t.name, isTypeChar c := by
    intro c hc
    have hm := notMem_of_all (by decide : ['{', '}', ':', '~', '[', ']'].all _)
      (t.isTypeNameChar_name c hc)
    simp only [List.mem_cons, List.not_mem_nil, or_false, not_or] at hm
    simp [isTypeChar, hm]
  have hmarks : (arrayMarks t.arrays).dropWhile isTypeChar = arrayMarks t.arrays := by
    cases t.arrays with
    | zero => rfl
    | succ n => rfl
  have hne : (t.name ++ (arrayMarks t.arrays).takeWhile isTypeChar).isEmpty = false := by
    rw [Bool.eq_false_iff, ne_eq, List.isEmpty_iff]
    apply List.append_ne_nil_of_left_ne_nil t.name_ne_nil _
  rw [isType, text, List.takeWhile_append_of_pos hn, List.dropWhile_append_of_pos hn, hmarks, hne,
    isArrayMarks_arrayMarks]
  rfl

/-- The blanks behind a type are trimmed. -/
theorem trim_append {s : Text} (hs : ∀ c ∈ s, isBlank c) :
  trim (t.text ++ s) = t.text
  := Text.trim_append (List.forall_mem_nil _) t.trimmed hs

theorem unquote_append {s : Text} (hs : ∀ c ∈ s, isBlank c) :
  unquote (t.text ++ s) = t.text
  := unquote_bare (List.forall_mem_nil _) t.trimmed (fun _ => t.isQuote_of_mem_text) hs

/-- A type is cut from the settings behind it, and the blanks between them are left to it. -/
theorem cutAtGroup_lexemes (s : Text) :
  cutAtGroup 0 (lexemes (t.text ++ s))
    = (t.text ++ (cutAtGroup 0 (lexemes s)).1, (cutAtGroup 0 (lexemes s)).2)
  := by
  have hb : '[' ∉ t.name := fun h =>
    notMem_of_all (by decide : ['['].all _) (t.isTypeNameChar_name _ h) List.mem_cons_self
  rw [lexemes_append fun _ => t.isQuote_of_mem_text, text, List.map_append, List.append_assoc,
    cutAtGroup_balanced hb t.isBalanced_name, cutAtGroup_arrayMarks, List.append_assoc]

end WrittenType

/-! ## Columns -/

/-- The flags that a column may have. -/
inductive ColumnFlag where
  | pk
  | primaryKey
  | null
  | notNull
  | unique
  | increment
  deriving DecidableEq, Repr

/-- The name of a flag. -/
def ColumnFlag.name : ColumnFlag → String
  | pk => "pk"
  | primaryKey => "primary key"
  | null => "null"
  | notNull => "not null"
  | unique => "unique"
  | increment => "increment"

/-- A setting of a column: a flag, or a default or a note with any text. -/
inductive ColumnSetting where
  | flag (flag : ColumnFlag)
  | default (content : String)
  | note (content : String)
  deriving DecidableEq, Repr

namespace ColumnSetting

/-- A setting as an attribute. -/
def toAttribute : ColumnSetting → Attribute
  | flag f => .flag f.name
  | default s => .pair "default" (.text s)
  | note s => .pair "note" (.text s)

/-- The text of a default. -/
def default? : ColumnSetting → Option String
  | default s => some s
  | _ => none

/-- The text of a note. -/
def note? : ColumnSetting → Option String
  | note s => some s
  | _ => none

/-- The names of the settings of columns are in normal form and have no delimiters. -/
theorem isWritable_name (a : ColumnSetting) :
  a.toAttribute.name.toList ≠ [] ∧ normalize a.toAttribute.name.toList = a.toAttribute.name.toList
    ∧ a.toAttribute.name.toList.all fun c => isAlphanumeric c || c = '_' || c = ' '
  := by
  cases a with
  | flag f => cases f <;> decide
  | default s =>
    rw [toAttribute, Attribute.name]
    decide
  | note s =>
    rw [toAttribute, Attribute.name]
    decide

theorem isSimple_toAttribute (a : ColumnSetting) :
  a.toAttribute.IsSimple
  := by
  obtain ⟨hn, ht, hc⟩ := a.isWritable_name
  refine ⟨hn, ht, ?_, ?_⟩
  · intro c h
    have h := List.all_eq_true.mp hc c h
    rwa [Bool.or_eq_true, Bool.or_eq_true, decide_eq_true_eq, decide_eq_true_eq, or_assoc] at h
  · intro key value h
    cases a with
    | flag f => cases h
    | default s =>
      cases h
      exact ⟨s, rfl⟩
    | note s =>
      cases h
      exact ⟨s, rfl⟩

end ColumnSetting

/-- A column as it is written. -/
structure ColumnSource where
  name : QuotableName
  dataType : WrittenType
  attributes : List ColumnSetting

namespace ColumnSource

/-- The settings of a column. -/
def settings (c : ColumnSource) : Settings :=
  c.attributes.map ColumnSetting.toAttribute

/-- The settings of a column as they are written.  There are no brackets without settings. -/
def group (c : ColumnSource) : Text :=
  if c.settings.isEmpty then [] else c.settings.printGroup

/-- The line of a column. -/
def print (c : ColumnSource) : Text :=
  c.name.written.text ++ ' ' :: (c.dataType.text ++ c.group)

/-- The column that a line stands for. -/
def column (c : ColumnSource) : Column :=
  .ofSettings (String.ofList c.name.content) (String.ofList c.dataType.text) c.settings

variable (c : ColumnSource)

/-- The settings of a written column are simple. -/
theorem isSimple_settings :
  ∀ a ∈ c.settings, a.IsSimple
  := by
  intro a ha
  obtain ⟨b, _, rfl⟩ := List.mem_map.mp ha
  apply b.isSimple_toAttribute

theorem isPrintable_settings :
  ∀ a ∈ c.settings, a.IsPrintable
  := fun a ha => (c.isSimple_settings a ha).isPrintable

/-- There are no brackets without settings. -/
theorem group_eq :
  (c.settings = [] ∧ c.group = []) ∨ (c.settings ≠ [] ∧ c.group = Settings.printGroup c.settings)
  := by
  rw [group]
  split
  · rename_i h
    exact .inl ⟨List.isEmpty_iff.mp h, rfl⟩
  · rename_i h
    exact .inr ⟨mt List.isEmpty_iff.mpr h, rfl⟩

/-- A line of a column is trimmed. -/
theorem trimmed_print :
  Trimmed c.print
  := by
  rw [print]
  rcases c.group_eq with ⟨_, hg⟩ | ⟨_, hg⟩
  · rw [hg, List.append_nil]
    apply c.name.written.trimmed_text.append c.dataType.trimmed c.name.written.text_ne_nil
      c.dataType.text_ne_nil [' ']
  · have hb : Trimmed [']'] := trimmed_of_forall (List.forall_mem_singleton.mpr rfl)
    have hsplit : ' ' :: (c.dataType.text ++ c.group)
        = ' ' :: (c.dataType.text ++ ' ' :: '[' :: c.settings.print) ++ [']'] := by
      rw [hg, Settings.printGroup, List.cons_append, List.append_assoc]
      rfl
    rw [hsplit]
    apply c.name.written.trimmed_text.append hb c.name.written.text_ne_nil (List.cons_ne_nil _ _) _

/-- A column is printed on one line. -/
theorem newline_notMem_print :
  '\n' ∉ c.print
  := by
  have hg : '\n' ∉ c.group := by
    rcases c.group_eq with ⟨_, hg⟩ | ⟨_, hg⟩
    · rw [hg]
      apply List.not_mem_nil
    · rw [hg]
      apply Settings.newline_notMem_printGroup c.isSimple_settings
  simp only [print, List.mem_append, List.mem_cons, not_or]
  exact ⟨c.name.written.newline_notMem_text, by decide, c.dataType.newline_notMem_text, hg⟩

/-- A printed column has neither comments nor braces. -/
theorem flat_print :
  Flat c.print
  := by
  have hg : Flat c.group := by
    rcases c.group_eq with ⟨_, hg⟩ | ⟨_, hg⟩
    · rw [hg]
      exact flat_nil
    · rw [hg]
      apply Settings.flat_printGroup c.isSimple_settings
  exact ((c.dataType.flat_text hg).chars (by decide : [' '].all _)).name c.name.written

/-- The settings of a column are cut from its type, and are read back. -/
theorem cutAtGroup_group :
  ∃ s t, cutAtGroup 0 (lexemes c.group) = (s, t) ∧ (∀ d ∈ s, isBlank d)
    ∧ Settings.readGroups t = (c.settings, [])
  := by
  rcases c.group_eq with ⟨hs, hg⟩ | ⟨hs, hg⟩
  · refine ⟨[], [], ?_, List.forall_mem_nil _, ?_⟩
    · rw [hg, lexemes]
      rfl
    · rw [hs, Settings.readGroups_eq_nil (by rintro ⟨⟩)]
  · have hl := Settings.lexes_printGroup c.isPrintable_settings
    have hp := Settings.lexes_print c.isPrintable_settings
    -- what the settings begin with is no closing bracket
    obtain ⟨l, ls, hm⟩ := List.exists_cons_of_ne_nil
      (Settings.lexemes_ne_nil c.isPrintable_settings hs)
    have hb : l ≠ .plain ']' := by
      rintro rfl
      have hp := Settings.plains_brackets c.isPrintable_settings
      rw [hm, Lexeme.plains_plain] at hp
      exact hp.1.2 rfl
    refine ⟨[' '], '[' :: (Settings.print c.settings ++ [']']), ?_,
      List.forall_mem_singleton.mpr rfl, ?_⟩
    · rw [hg, hl.lexemes_eq, hm, List.cons_append, cutAtGroup_bracket hb, ← List.cons_append, ← hm,
        ofLexemes_cons, ofLexemes_append, hp.ofLexemes_eq]
      rfl
    · apply Settings.readGroups_printGroup c.isPrintable_settings (List.forall_mem_nil _)

/-- A column is read from its line. -/
theorem read?_print :
  Column.read? c.print = some c.column
  := by
  obtain ⟨s, t, hcut, hs, hread⟩ := c.cutAtGroup_group
  have hname : splitName? c.print
      = some (c.name.written.text, ' ' :: (c.dataType.text ++ c.group)) := by
    apply WrittenName.splitName?_append
    rintro d ⟨⟩
    rfl
  have htype : splitBlanks? (' ' :: (c.dataType.text ++ c.group))
      = some (c.dataType.text ++ c.group) := by
    apply splitBlanks?_space
    rw [List.head?_append_of_ne_nil _ c.dataType.text_ne_nil]
    exact c.dataType.trimmed.1
  rw [Column.read?, hname]
  dsimp only [bind, Option.bind]
  rw [htype]
  dsimp only
  rw [c.dataType.cutAtGroup_lexemes, hcut]
  dsimp only
  rw [hread]
  dsimp only
  rw [c.dataType.trim_append hs, c.dataType.unquote_append hs, c.dataType.isType_text,
    c.name.written.unquote_eq]
  rfl

theorem becomes_column :
  Column.Becomes
    { name := String.ofList c.name.content
      dataType := String.ofList c.dataType.text
      settings := c.settings }
    c.settings c.column
  := Column.becomes_ofSettings _ _ _

/-- The default of a column is the last one among its attributes. -/
theorem default_column :
  c.column.default = (c.attributes.filterMap ColumnSetting.default?).getLast?.map .text
  := by
  have ha (a : ColumnSetting) : a.toAttribute.valueOf? "default" = a.default?.map .text := by
    cases a with
    | flag f => rfl
    | default s => rfl
    | note s => rfl
  rw [c.becomes_column.default, Option.or_none, Settings.get?, settings, ← List.map_reverse,
    List.findSome?_map, List.getLast?_filterMap, List.map_findSome?]
  exact congrArg (List.findSome? · c.attributes.reverse) (funext ha)

/-- The note of a column is the last one among its attributes. -/
theorem note_column :
  c.column.note = (c.attributes.filterMap ColumnSetting.note?).getLast?
  := by
  have ha (a : ColumnSetting) :
      (a.toAttribute.valueOf? "note").map Value.content = a.note? := by
    cases a with
    | flag f => rfl
    | default s => rfl
    | note s => rfl
  rw [c.becomes_column.note, Option.or_none, Settings.getText?, Settings.get?, settings,
    ← List.map_reverse, List.findSome?_map, List.getLast?_filterMap, List.map_findSome?]
  exact congrArg (List.findSome? · c.attributes.reverse) (funext ha)

theorem inlineRef_column :
  c.column.inlineRef = none
  := by
  rw [c.becomes_column.inlineRef, Option.or_none, Settings.inlineRef?]
  apply List.findSome?_eq_none_iff.mpr
  intro a ha
  obtain ⟨b, _, rfl⟩ := List.mem_map.mp (List.mem_reverse.mp ha)
  cases b with
  | flag f => rfl
  | default s => rfl
  | note s => rfl

end ColumnSource

/-! ## Tables -/

/-- Columns contribute nothing but themselves. -/
theorem TableEntry.contribution_map_column (partials : List TablePartial) (cs : List Column) :
  columns partials (cs.map .column) = cs ∧ indexes partials (cs.map .column) = []
    ∧ injected partials (cs.map .column) = [] ∧ noteOf? (cs.map .column) = none
    ∧ findings partials (cs.map .column) = []
  := by
  induction cs with
  | nil => exact ⟨rfl, rfl, rfl, rfl, rfl⟩
  | cons c cs ih =>
    obtain ⟨hc, hi, hp, hn, hf⟩ := ih
    exact ⟨congrArg (c :: ·) hc, hi, hp, hn, hf⟩

/-- A single table declares nothing but itself. -/
theorem Document.ofBlocks_table (policy : MergePolicy) {b : Block} (hk : b.header.kind = .table) :
  ofBlocks policy [b]
    = ({ tables := [Table.ofBlock policy [] b] }, TableEntry.findings [] b.entries)
  := by
  simp [ofBlocks, Block.ofKind, Block.findingsAfter, Block.bodyFindings, Block.relationships,
    TablePartial.ofBlocksAfter, Finding.successes, hk]

/-- No other form of headers has the keyword of a table before a space. -/
theorem Header.read?_table {t rest : Text} {header : Header}
    (h : HeaderForm.table.readNames (' ' :: t) = some (header, rest)) :
  read? ('T' :: 'a' :: 'b' :: 'l' :: 'e' :: ' ' :: t) = some (header, rest)
  := by
  have hkeyword : HeaderForm.table.read? ('T' :: 'a' :: 'b' :: 'l' :: 'e' :: ' ' :: t)
      = HeaderForm.table.readNames (' ' :: t) := rfl
  have hother : ∀ form ∈ HeaderForm.all.take 3,
      form.read? ('T' :: 'a' :: 'b' :: 'l' :: 'e' :: ' ' :: t) = none := by
    intro form hf
    simp only [HeaderForm.all, List.take_succ_cons, List.take_zero, List.mem_cons,
      List.not_mem_nil, or_false] at hf
    rcases hf with rfl | rfl | rfl
    · rfl
    · rfl
    · rfl
  have hdrop : HeaderForm.all.drop 3
      = HeaderForm.table :: (HeaderForm.all.drop 4) := rfl
  rw [read?, ← List.take_append_drop 3 HeaderForm.all, List.findSome?_append,
    List.findSome?_eq_none_iff.mpr hother, Option.none_or, hdrop, List.findSome?_cons, hkeyword, h]

/-- A table as it is written. -/
structure TableSource where
  schema : QuotableName
  name : QuotableName
  aliasName? : Option QuotableName
  columns : List ColumnSource

namespace TableSource

/-- The alias of a table as it is written. -/
def aliasClause (t : TableSource) : Text :=
  match t.aliasName? with
  | some n => ' ' :: 'a' :: 's' :: ' ' :: n.written.text
  | none => []

/-- The header of a table. -/
def opening (t : TableSource) : Text :=
  'T' :: 'a' :: 'b' :: 'l' :: 'e' :: ' '
    :: (t.schema.written.text ++ '.' :: (t.name.written.text ++ (t.aliasClause ++ [' '])))

/-- The body of a table. -/
def body (t : TableSource) : Text :=
  '\n' :: ofLines (t.columns.map ColumnSource.print)

/-- The text of a table. -/
def print (t : TableSource) : Text :=
  t.opening ++ '{' :: (t.body ++ ['}'])

/-- The table that a text stands for. -/
def table (t : TableSource) : Table where
  schema := String.ofList t.schema.content
  name := String.ofList t.name.content
  aliasName := t.aliasName?.map fun n => String.ofList n.content
  settings := []
  columns := t.columns.map ColumnSource.column
  indexes := []
  note := none
  injectedPartials := []

variable (t : TableSource)

theorem flat_opening :
  Flat t.opening
  := by
  have ha : Flat t.aliasClause := by
    rw [aliasClause]
    cases t.aliasName? with
    | none => exact flat_nil
    | some n => exact (flat_name n.written).chars (by decide : [' ', 'a', 's', ' '].all _)
  have hs : Flat [' '] := flat_nil.chars (by decide : [' '].all _)
  have hname := (ha.append hs (by rintro ⟨⟩)).name t.name.written
  have hdot := hname.chars (by decide : ['.'].all _)
  exact (hdot.name t.schema.written).chars (by decide : ['T', 'a', 'b', 'l', 'e', ' '].all _)

/-- The body of a printed table has neither comments nor braces. -/
theorem flat_body :
  Flat t.body
  := by
  have hlines : Flat (ofLines (t.columns.map ColumnSource.print)) := by
    apply flat_ofLines
    intro line hl
    obtain ⟨c, _, rfl⟩ := List.mem_map.mp hl
    apply c.flat_print
  apply hlines.chars (by decide : ['\n'].all _)

/-- The header of a table as it is read. -/
def header : Header where
  kind := .table
  schema := some t.schema.written.text
  name := some t.name.written.text
  aliasName := t.aliasName?.map fun n => n.written.text

/-- A printed alias is read back. -/
theorem aliasClause?_append (rest : Text) :
  aliasClause? (t.aliasClause ++ ' ' :: '{' :: rest)
    = t.aliasName?.map fun n => (n.written.text, ' ' :: '{' :: rest)
  := by
  have hr : ∀ c ∈ (' ' :: '{' :: rest).head?, isWord c = false := by
    rintro c ⟨⟩
    rfl
  rw [aliasClause, Text.aliasClause?]
  cases t.aliasName? with
  | none =>
    have hs : splitBlanks? (' ' :: '{' :: rest) = some ('{' :: rest) :=
      splitBlanks?_space (by rintro c ⟨⟩; rfl)
    rw [List.nil_append, hs]
    rfl
  | some n =>
    have hs (u : Text) : splitBlanks? (' ' :: 'a' :: u) = some ('a' :: u) :=
      splitBlanks?_space (by rintro c ⟨⟩; rfl)
    dsimp only [List.cons_append]
    rw [hs, Option.bind_some]
    apply spacedName?_append n.written hr

/-- The header of a table is read up to its brace. -/
theorem read?_header (rest : Text) :
  Header.read? (t.opening ++ '{' :: rest) = some (t.header, ' ' :: '{' :: rest)
  := by
  have hr : ∀ c ∈ (t.aliasClause ++ ' ' :: '{' :: rest).head?, isWord c = false := by
    rw [aliasClause]
    cases t.aliasName? with
    | none =>
      rintro c ⟨⟩
      rfl
    | some n =>
      rintro c ⟨⟩
      rfl
  have hs : splitBlanks? (' ' :: (t.schema.written.text ++ '.'
        :: (t.name.written.text ++ (t.aliasClause ++ ' ' :: '{' :: rest))))
      = some (t.schema.written.text ++ '.'
        :: (t.name.written.text ++ (t.aliasClause ++ ' ' :: '{' :: rest))) := by
    apply splitBlanks?_space
    rw [List.head?_append_of_ne_nil _ t.schema.written.text_ne_nil]
    exact t.schema.written.trimmed_text.1
  have hnames : HeaderForm.table.readNames (' ' :: (t.schema.written.text ++ '.'
        :: (t.name.written.text ++ (t.aliasClause ++ ' ' :: '{' :: rest))))
      = some (t.header, ' ' :: '{' :: rest) := by
    dsimp only [HeaderForm.table]
    rw [hs, Option.bind_some, qualifiedName?_append _ _ hr]
    dsimp only
    rw [t.aliasClause?_append, header, aliasClause]
    cases t.aliasName? with
    | none => rfl
    | some n => rfl
  have hopening : t.opening ++ '{' :: rest = 'T' :: 'a' :: 'b' :: 'l' :: 'e' :: ' '
      :: (t.schema.written.text ++ '.'
        :: (t.name.written.text ++ (t.aliasClause ++ ' ' :: '{' :: rest))) := by
    simp only [opening, List.cons_append, List.append_assoc, List.nil_append]
  rw [hopening, Header.read?_table hnames]

/-- The line of a column is a part of the body that describes the column. -/
theorem splitFirst_line (finish : Nat) (c : ColumnSource) (rest : Text) :
  TablePart.splitFirst finish (c.print ++ '\n' :: rest) = (.entries [.column c.column], rest)
  := by
  have hend : EndsLine ('\n' :: rest) := .inr ⟨rest, rfl⟩
  have hline : trim (firstLine (c.print ++ '\n' :: rest)) = c.print := by
    rw [firstLine_append c.newline_notMem_print hend, c.trimmed_print.trim_eq]
  have hdrop : dropLine (c.print ++ '\n' :: rest) = rest := by
    rw [dropLine, fromLineEnd_append c.newline_notMem_print hend]
    rfl
  -- the line begins with a quote, so that it is neither a note nor a group nor an injection
  obtain ⟨u, hu⟩ : ∃ u, c.print = quotationMark :: u := ⟨_, rfl⟩
  have hnote : Note.split? finish (c.print ++ '\n' :: rest) = none := by
    rw [hu]
    rfl
  have hgroup : TablePart.groupWord? (c.print ++ '\n' :: rest) = none := by
    rw [hu]
    rfl
  have hinjected : TableEntry.injectedName? c.print = none := by
    rw [hu]
    rfl
  rw [TablePart.splitFirst, hnote, hgroup, hdrop, TableEntry.ofFirstLine, hline, hinjected,
    c.read?_print]

/-- The lines of the columns are read one after another. -/
theorem readAll_lines (finish : Nat) (columns : List ColumnSource) :
  TableEntry.readAll finish (ofLines (columns.map ColumnSource.print))
    = columns.map fun c => .column c.column
  := by
  induction columns with
  | nil =>
    rw [List.map_nil, List.map_nil, TableEntry.readAll]
    rfl
  | cons c columns ih =>
    have hfirst := splitFirst_line finish c (ofLines (columns.map ColumnSource.print))
    rw [List.map_cons, List.map_cons, ofLines_cons, TableEntry.readAll_entries rfl hfirst, ih]
    rfl

/-- The body of a printed table is read back as its columns. -/
theorem readAll_body (finish : Nat) :
  TableEntry.readAll finish t.body = (t.columns.map ColumnSource.column).map .column
  := by
  rw [body, TableEntry.readAll_newline, readAll_lines, List.map_map]
  rfl

/-- The text of a table is one block. -/
theorem ofText_print :
  ∃ span, Segment.ofText t.print
    = [⟨0, span, .block ⟨t.header, [], t.body, size t.opening + 1⟩⟩]
  := by
  apply Segment.ofText_block t.flat_opening t.flat_body
  · apply List.cons_ne_nil
  · rintro c ⟨⟩
    rfl
  · apply t.read?_header
  · rintro ⟨⟩
  · rfl

/-- The block of a table declares the table, without problems. -/
theorem ofBlocks_block (policy : MergePolicy) (offset : Nat) :
  Document.ofBlocks policy [⟨t.header, [], t.body, offset⟩] = ({ tables := [t.table] }, [])
  := by
  obtain ⟨hc, hi, hp, hn, hf⟩ :=
    TableEntry.contribution_map_column [] (t.columns.map ColumnSource.column)
  have hentries : Block.entries ⟨t.header, [], t.body, offset⟩
      = (t.columns.map ColumnSource.column).map .column := t.readAll_body _
  have htable : Table.ofBlock policy [] ⟨t.header, [], t.body, offset⟩ = t.table := by
    rw [Table.ofBlock, hentries, hc, hi, hp, hn, table, Block.schemaText, Block.nameText, header]
    dsimp only
    rw [t.schema.written.unquote_eq, t.name.written.unquote_eq, Option.map_map]
    have halias : (fun a => String.ofList (unquote a)) ∘ (fun n : QuotableName => n.written.text)
        = fun n => String.ofList n.content :=
      funext fun n => congrArg String.ofList n.written.unquote_eq
    rw [halias]
    rfl
  have hfindings : TableEntry.findings [] (Block.entries ⟨t.header, [], t.body, offset⟩) = [] := by
    rw [hentries, hf]
  rw [Document.ofBlocks_table policy (by rfl), htable, hfindings]

/-- A table without references declares no relationships. -/
theorem assemble_table :
  Document.assemble { tables := [t.table] } = ({ tables := [t.table] }, [])
  := by
  have hinline : Relationship.inline [t.table] = [] := by
    rw [Relationship.inline, List.flatMap_singleton, List.filterMap_eq_nil_iff]
    intro column hm
    obtain ⟨c, _, rfl⟩ := List.mem_map.mp hm
    rw [c.inlineRef_column]
    rfl
  rw [Document.assemble, Document.resolvedRelationships, hinline]
  rfl

end TableSource

/-- A table is read back from its text, without problems.  Each column has its name, its type
and its settings, and the last default and the last note among these. -/
theorem tables_survive_printing (policy : MergePolicy) (t : TableSource) :
  Report.ofSource policy (String.ofList t.print) = ⟨{ tables := [t.table] }, []⟩
    ∧ ∀ c ∈ t.columns, c.column.name = String.ofList c.name.content
      ∧ c.column.dataType = String.ofList c.dataType.text
      ∧ c.column.settings = c.attributes.map ColumnSetting.toAttribute
      ∧ c.column.default = (c.attributes.filterMap ColumnSetting.default?).getLast?.map .text
      ∧ c.column.note = (c.attributes.filterMap ColumnSetting.note?).getLast?
  := by
  constructor
  · obtain ⟨span, hsegments⟩ := t.ofText_print
    have hstrip : stripComments t.print = t.print :=
      Segment.stripComments_block t.flat_opening t.flat_body
    have hdocument : Document.ofText policy t.print = ({ tables := [t.table] }, []) := by
      have hblocks := t.ofBlocks_block policy (size t.opening + 1)
      have hfound : (Segment.ofText t.print).filterMap Segment.finding? = [] := by
        rw [hsegments]
        rfl
      have hdeclared : (Segment.ofText t.print).filterMap Segment.block?
          = [⟨t.header, [], t.body, size t.opening + 1⟩] := by
        rw [hsegments]
        rfl
      rw [Document.ofText, hdeclared, hfound, hblocks]
      dsimp only
      rw [t.assemble_table]
      rfl
    rw [Report.ofSource, String.toList_ofList, hstrip, hdocument]
    dsimp only
    rw [List.map_nil, Diagnostic.sort, List.mergeSort_nil]
  · intro c _
    exact ⟨c.becomes_column.name, c.becomes_column.dataType, c.becomes_column.settings,
      c.default_column, c.note_column⟩

end DatabaseMarkup
