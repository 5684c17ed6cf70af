import DatabaseMarkup.Proofs.Settings.Group
import DatabaseMarkup.Table.Index
import Mathlib.Data.List.Forall2

/-!
# Written indexes

An `IndexSource` is an index as it is written: columns in parentheses with commas between them, or
a single column, and bracket groups.  The blanks in front of every part of it are given with it, so
that it may stand on one line with others or span several lines.  `IndexSource.Describes` says which
columns, tags and settings the index has that it stands for, and `indexes_are_read_as_a_stream`
states that a list of indexes is read back in order, whatever the blanks.
-/

namespace DatabaseMarkup

open Unicode Text

/-! ## Columns -/

/-- A column of an index as it is written: a name between double quotes, or an expression between
backticks, which may be empty. -/
inductive IndexColumnSource where
  | name (name : QuotableName)
  | expression (content : Text) (backtick_notMem : backtick ∉ content)
      (newline_notMem : '\n' ∉ content)

namespace IndexColumnSource

/-- The quote around a column. -/
def quote : IndexColumnSource → Char
  | name _ => quotationMark
  | expression _ _ _ => backtick

/-- What stands between the quotes of a column. -/
def content : IndexColumnSource → Text
  | name n => n.content
  | expression t _ _ => t

/-- A column as it is written. -/
def text (c : IndexColumnSource) : Text :=
  c.quote :: (c.content ++ [c.quote])

/-- The lexemes of a written column. -/
def lexemes (c : IndexColumnSource) : List Lexeme :=
  [.quoted c.quote (c.content ++ [c.quote])]

/-- The column that a text stands for. -/
def column : IndexColumnSource → IndexColumn
  | name n => .name (String.ofList n.content)
  | expression t _ _ => .expression (String.ofList t)

variable (c : IndexColumnSource)

theorem isQuote_quote :
  isQuote c.quote
  := by
  cases c with
  | name n => rfl
  | expression t _ _ => rfl

theorem quote_ne_apostrophe :
  c.quote ≠ apostrophe
  := by
  cases c with
  | name n => rintro ⟨⟩
  | expression t _ _ => rintro ⟨⟩

/-- A column holds nothing that its quotes would take for its end. -/
theorem closeLine_content (rest : Text) :
  closeLine c.quote (c.content ++ c.quote :: rest) = some (c.content, rest)
  := by
  cases c with
  | name n =>
    exact closeLine_of_notMem rfl n.quotationMark_notMem (fun _ => n.backslash_notMem)
      n.newline_notMem rest
  | expression t hb hn => exact closeLine_of_notMem rfl hb (absurd rfl) hn rest

/-- The first lexeme of a quoted index column is its literal. -/
theorem first_text (rest : Text) :
  Lexeme.first c.quote (c.content ++ c.quote :: rest)
    = (.quoted c.quote (c.content ++ [c.quote]), rest)
  := Lexeme.first_literal c.isQuote_quote (c.closeLine_content [])
    fun ha => absurd ha c.quote_ne_apostrophe

/-- A quoted column is a piece. -/
theorem lexes_text :
  Lexes c.text c.lexemes
  := lexes_nil.literal c.isQuote_quote (c.closeLine_content [])
    fun ha => absurd ha c.quote_ne_apostrophe

theorem trimmed_text :
  Trimmed c.text
  := trimmed_enclosed (isBlank_quote c.isQuote_quote) (isBlank_quote c.isQuote_quote) c.content

/-- The quotes of a column tell a name from an expression, whatever the blanks around them. -/
theorem read_append {s u : Text} (hs : ∀ d ∈ s, isBlank d) (hu : ∀ d ∈ u, isBlank d) :
  IndexColumn.read (s ++ (c.text ++ u)) = c.column
  := by
  rw [IndexColumn.read, trim_append hs c.trimmed_text hu, text]
  dsimp only
  cases c with
  | name n =>
    have hq : ¬(quotationMark = backtick && (n.content ++ [quotationMark]).getLast? = some backtick)
        = true := by
      rw [Bool.and_eq_true, decide_eq_true_eq]
      rintro ⟨⟨⟩, _⟩
    apply (if_neg hq).trans
    exact congrArg (fun t => IndexColumn.name (String.ofList t)) n.written.unquote_eq
  | expression t _ _ =>
    have hq : (backtick = backtick && (t ++ [backtick]).getLast? = some backtick) = true := by
      rw [List.getLast?_concat]
      rfl
    apply (if_pos hq).trans
    rw [content, quote, List.dropLast_concat]
    rfl

end IndexColumnSource

/-- A column in a list together with the blanks around it. -/
structure ListedColumn where
  before : Text
  source : IndexColumnSource
  after : Text
  isBlank_before : ∀ c ∈ before, isBlank c
  isBlank_after : ∀ c ∈ after, isBlank c

namespace ListedColumn

/-- A column as it is written in a list. -/
def text (c : ListedColumn) : Text :=
  c.before ++ (c.source.text ++ c.after)

/-- The lexemes of a column in a list. -/
def lexemes (c : ListedColumn) : List Lexeme :=
  c.before.map .plain ++ (c.source.lexemes ++ c.after.map .plain)

variable (c : ListedColumn)

/-- A column of an index is read back with its kind. -/
theorem read_text :
  IndexColumn.read c.text = c.source.column
  := c.source.read_append c.isBlank_before c.isBlank_after

/-- A column of an index is a piece. -/
theorem lexes_text :
  Lexes c.text c.lexemes
  := c.source.lexes_text.padded c.isBlank_before c.isBlank_after

/-- A column of an index holds nothing outside of literals that ends an item. -/
theorem plains_lexemes :
  Lexeme.Plains (fun d => d ∉ itemEnds) c.lexemes
  := by
  have hends {s : Text} (hs : ∀ d ∈ s, isBlank d) : ∀ d ∈ s, d ∉ itemEnds :=
    fun d hd => (isItemChar_of_isBlank (hs d hd)).2.2
  rw [lexemes, IndexColumnSource.lexemes, Lexeme.plains_append, Lexeme.plains_append,
    Lexeme.plains_map, Lexeme.plains_map, Lexeme.plains_quoted]
  exact ⟨hends c.isBlank_before, Lexeme.plains_nil, hends c.isBlank_after⟩

theorem not_allBlank_text :
  allBlank c.text = false
  := by
  rw [allBlank, List.all_eq_false]
  refine ⟨c.source.quote, ?_, ?_⟩
  · apply List.mem_append_right
    exact List.mem_cons_self
  · rw [isBlank_quote c.source.isQuote_quote]
    exact Bool.false_ne_true

end ListedColumn

/-- The columns of an index: a single one, or a list in parentheses, which is not empty. -/
inductive IndexColumnsSource where
  | single (column : IndexColumnSource)
  | list (first : ListedColumn) (more : List ListedColumn)

namespace IndexColumnsSource

/-- What stands between the parentheses of a list. -/
def inner (cs : List ListedColumn) : Text :=
  [','].intercalate (cs.map ListedColumn.text)

/-- Columns as they are written. -/
def text : IndexColumnsSource → Text
  | single c => c.text
  | list c cs => '(' :: (inner (c :: cs) ++ [')'])

/-- The columns that a text stands for. -/
def columns : IndexColumnsSource → List IndexColumn
  | single c => [c.column]
  | list c cs => (c :: cs).map fun d => d.source.column

/-- A list is closed by the parenthesis behind it. -/
theorem splitGroup?_list (cs : List ListedColumn) (rest : Text) :
  splitGroup? ('(' :: (inner cs ++ ')' :: rest)) = some (inner cs, rest)
  := by
  have hl : Lexes (inner cs) ([.plain ','].intercalate (cs.map ListedColumn.lexemes)) :=
    lexes_intercalate rfl (List.forall_mem_nil _) fun c _ => c.lexes_text
  have hp : Lexeme.Plains (fun c => c ≠ '(' ∧ c ≠ ')')
      ([.plain ','].intercalate (cs.map ListedColumn.lexemes)) := by
    refine plains_intercalate (by decide) (List.forall_mem_nil _) fun c _ => ?_
    refine c.plains_lexemes.mono fun d hd => ⟨?_, ?_⟩
    · rintro rfl
      exact hd (by decide)
    · rintro rfl
      exact hd (by decide)
  exact closeGroup_append rfl rfl (by decide) hl hp rest

/-- The columns of a list are cut at its commas. -/
theorem splitTopLevel_list (c : ListedColumn) (cs : List ListedColumn) :
  splitTopLevel ',' (inner (c :: cs)) = (c :: cs).map ListedColumn.text
  := by
  have hl : ∀ d ∈ c :: cs, Lexes d.text d.lexemes := fun d _ => d.lexes_text
  have hd : ∀ d ∈ c :: cs, ∀ l ∈ d.lexemes, l ≠ .plain ',' ∧ isDelimiter l = false :=
    fun d _ => not_isDelimiter_of_plains d.plains_lexemes
  have hcomma : isQuote ',' = false := rfl
  have hlexemes := (lexes_intercalate hcomma (List.forall_mem_nil _) hl).lexemes_eq
  rw [splitTopLevel, inner, hlexemes]
  exact splitLexemes_intercalate (by decide) (List.forall_mem_nil _) hl hd

/-- Columns are taken from the start of a text, whatever follows them. -/
theorem splitColumns?_append (cs : IndexColumnsSource) (rest : Text) :
  ∃ c t, cs.text ++ rest = c :: t ∧ (isQuote c ∨ c = '(')
    ∧ Index.splitColumns? c t = some (cs.columns, rest)
  := by
  cases cs with
  | single c =>
    have ht : (IndexColumnsSource.single c).text ++ rest
        = c.quote :: (c.content ++ c.quote :: rest) := by
      simp only [text, IndexColumnSource.text, List.cons_append, List.append_assoc,
        List.nil_append]
    refine ⟨_, _, ht, .inl c.isQuote_quote, ?_⟩
    have hc : c.quote ≠ '(' := by
      intro hc
      have hq := c.isQuote_quote
      rw [hc] at hq
      cases hq
    have hn : (Lexeme.quoted c.quote (c.content ++ [c.quote])).text.length ≠ 1 := by
      rw [Lexeme.text, List.length_cons, List.length_append, List.length_singleton]
      omega
    have hread := c.read_append (List.forall_mem_nil _) (List.forall_mem_nil _)
    rw [List.nil_append, List.append_nil] at hread
    rw [Index.splitColumns?, if_neg hc, if_pos c.isQuote_quote, c.first_text]
    dsimp only
    rw [if_neg hn, Lexeme.text, ← IndexColumnSource.text, hread]
    rfl
  | list c cs =>
    have ht : (IndexColumnsSource.list c cs).text ++ rest
        = '(' :: (inner (c :: cs) ++ ')' :: rest) := by
      simp only [text, List.cons_append, List.append_assoc, List.nil_append]
    refine ⟨_, _, ht, .inr rfl, ?_⟩
    have hfilter : ((c :: cs).map ListedColumn.text).filter (fun part => !allBlank part)
        = (c :: cs).map ListedColumn.text := by
      apply List.filter_eq_self.mpr
      intro t hm
      obtain ⟨d, _, rfl⟩ := List.mem_map.mp hm
      rw [d.not_allBlank_text, Bool.not_false]
    have hread : ((c :: cs).map ListedColumn.text).map IndexColumn.read
        = (c :: cs).map fun d => d.source.column := by
      rw [List.map_map]
      exact List.map_congr_left fun d _ => d.read_text
    rw [Index.splitColumns?, if_pos rfl, splitGroup?_list]
    dsimp only
    rw [splitTopLevel_list, hfilter, hread]
    rfl

end IndexColumnsSource

/-! ## Indexes -/

/-- The items of a text are the first one and those of what is left. -/
theorem Index.readAll_eq (finish : Nat) (t : Text) :
  readAll finish t = match skipBlanks t with
    | [] => []
    | c :: u => (splitFirst finish c u).1 :: readAll finish (splitFirst finish c u).2
  := by
  rw [readAll]
  split <;> (rename_i ht; rw [ht])

/-- An index as it is written, with the blanks before it. -/
structure IndexSource where
  before : Text
  columns : IndexColumnsSource
  groups : List WrittenGroup
  isAsciiBlank_before : ∀ c ∈ before, isAsciiBlank c

namespace IndexSource

/-- The text of an index. -/
def text (i : IndexSource) : Text :=
  i.before ++ (i.columns.text ++ i.groups.flatMap WrittenGroup.text)

/-- The index that a text stands for. -/
def index (i : IndexSource) : Index :=
  .ofColumns i.columns.columns (i.groups.flatMap WrittenGroup.settings)

/-- Whether an index is the one that a text stands for: it has the columns that are written, as
names or as expressions, and the settings of the groups, which say what kind of index it is. -/
structure Describes (i : IndexSource) (index : Index) : Prop where
  columns : index.columns = i.columns.columns
  settings : index.settings = i.groups.flatMap WrittenGroup.settings
  isPrimaryKey_iff : index.isPrimaryKey
    ↔ .flag "pk" ∈ index.settings ∨ .flag "primary key" ∈ index.settings
  isUnique_iff : index.isUnique ↔ .flag "unique" ∈ index.settings
  isExpression_iff : index.isExpression ↔ ∃ c ∈ index.columns, c.isExpression

/-- A text stands for one index only. -/
theorem Describes.unique {i : IndexSource} {index other : Index} (h : i.Describes index)
    (h' : i.Describes other) :
  index = other
  := by
  have hsettings := h.settings.trans h'.settings.symm
  have hcolumns := h.columns.trans h'.columns.symm
  have hk := h.isPrimaryKey_iff
  have hu := h.isUnique_iff
  have he := h.isExpression_iff
  rw [hsettings, ← h'.isPrimaryKey_iff] at hk
  rw [hsettings, ← h'.isUnique_iff] at hu
  rw [hcolumns, ← h'.isExpression_iff] at he
  rw [Index.mk.injEq]
  exact ⟨hcolumns, hsettings, Bool.eq_iff_iff.mpr hk, Bool.eq_iff_iff.mpr hu,
    Bool.eq_iff_iff.mpr he⟩

/-- The index that a source declares has the columns, the kinds and the settings that the source
lists. -/
theorem describes_index (i : IndexSource) :
  i.Describes i.index
  := by
  have hflag (settings : Settings) (name : String) :
      settings.hasFlag name ↔ .flag name ∈ settings := by
    simp only [Settings.hasFlag, List.any_eq_true, decide_eq_true_eq, exists_eq_right]
  constructor
  · rfl
  · rfl
  · rw [index, Index.ofColumns]
    dsimp only
    rw [Settings.isPrimaryKey, Bool.or_eq_true, hflag, hflag]
  · exact hflag _ _
  · exact List.any_eq_true

/-- An index begins with a quote or a parenthesis. -/
theorem exists_skipBlanks (i : IndexSource) (rest : Text) :
  ∃ c t, skipBlanks (i.text ++ rest) = c :: t ∧ c ≠ '['
    ∧ Index.splitColumns? c t
      = some (i.columns.columns, i.groups.flatMap WrittenGroup.text ++ rest)
  := by
  obtain ⟨c, t, ht, hc, hsplit⟩ :=
    i.columns.splitColumns?_append (i.groups.flatMap WrittenGroup.text ++ rest)
  have hblank : isAsciiBlank c = false ∧ c ≠ '[' := by
    rcases hc with hc | rfl
    · simp only [isQuote, Bool.or_eq_true, decide_eq_true_eq] at hc
      rcases hc with (rfl | rfl) | rfl <;> decide
    · decide
  refine ⟨c, t, ?_, hblank.2, hsplit⟩
  rw [text, List.append_assoc, List.append_assoc, ht, skipBlanks,
    List.dropWhile_append_of_pos i.isAsciiBlank_before, List.dropWhile_cons, hblank.1,
    if_neg Bool.false_ne_true]

/-- Behind a list of indexes, or between two of them, no bracket group goes on. -/
theorem head?_skipBlanks (is : List IndexSource) {trailing : Text}
    (ht : ∀ c ∈ trailing, isAsciiBlank c) :
  (skipBlanks (is.flatMap text ++ trailing)).head? ≠ some '['
  := by
  cases is with
  | nil =>
    have hn : skipBlanks trailing = [] := List.dropWhile_eq_nil_iff.mpr ht
    rw [List.flatMap_nil, List.nil_append, hn]
    rintro ⟨⟩
  | cons i is =>
    obtain ⟨c, t, hs, hc, _⟩ := i.exists_skipBlanks (is.flatMap text ++ trailing)
    rw [List.flatMap_cons, List.append_assoc, hs, List.head?_cons]
    exact fun h => hc (Option.some.inj h)

/-- The first of a list of indexes is read before the others. -/
theorem readAll_append (finish : Nat) (i : IndexSource) {rest : Text}
    (hr : (skipBlanks rest).head? ≠ some '[') :
  Index.readAll finish (i.text ++ rest) = .ok i.index :: Index.readAll finish rest
  := by
  obtain ⟨c, t, hs, _, hsplit⟩ := i.exists_skipBlanks rest
  have hfirst : Index.splitFirst finish c t = (.ok i.index, rest) := by
    rw [Index.splitFirst, hsplit]
    dsimp only
    rw [Settings.readGroups_texts i.groups hr]
    rfl
  rw [Index.readAll_eq, hs]
  dsimp only
  rw [hfirst]

/-- Every index of a list is read before those behind it. -/
theorem readAll_flatMap_text (finish : Nat) (is : List IndexSource) {trailing : Text}
    (ht : ∀ c ∈ trailing, isAsciiBlank c) :
  Index.readAll finish (is.flatMap text ++ trailing) = is.map fun i => .ok i.index
  := by
  induction is with
  | nil =>
    have hn : skipBlanks trailing = [] := List.dropWhile_eq_nil_iff.mpr ht
    rw [List.flatMap_nil, List.nil_append, Index.readAll_eq, hn]
    rfl
  | cons i is ih =>
    rw [List.flatMap_cons, List.append_assoc, i.readAll_append finish (head?_skipBlanks is ht), ih,
      List.map_cons]

end IndexSource

/-- Indexes are read back in order, each with its columns and its settings, however they are laid
out, and there is no problem with any of them. -/
theorem indexes_are_read_as_a_stream (finish : Nat) (indexes : List IndexSource) (trailing : Text)
    (ht : ∀ c ∈ trailing, isAsciiBlank c) :
  ∃ read : List Index,
    Index.readAll finish (indexes.flatMap IndexSource.text ++ trailing) = read.map .ok
      ∧ List.Forall₂ IndexSource.Describes indexes read
  := by
  refine ⟨indexes.map IndexSource.index, ?_, ?_⟩
  · rw [IndexSource.readAll_flatMap_text finish indexes ht, List.map_map]
    rfl
  · rw [List.forall₂_map_right_iff, List.forall₂_same]
    exact fun i _ => i.describes_index

/-- Parentheses, commas and brackets inside of columns end neither a column nor an index. -/
theorem four_indexes_are_read_back :
  let trailing := "\n".toList
  let written :=
    "(\x60a)\x60 , \"b, c\") [pk]\n\n \"x[y\"\t\x60f(\x27z)\x60[unique] \"q\"".toList
  let indexes : List Index := [
    { columns := [.expression "a)", .name "b, c"], settings := [.flag "pk"]
      isPrimaryKey := true, isUnique := false, isExpression := true },
    { columns := [.name "x[y"], settings := []
      isPrimaryKey := false, isUnique := false, isExpression := false },
    { columns := [.expression "f(\x27z)"], settings := [.flag "unique"]
      isPrimaryKey := false, isUnique := true, isExpression := true },
    { columns := [.name "q"], settings := []
      isPrimaryKey := false, isUnique := false, isExpression := false }]
  (∀ c ∈ trailing, isAsciiBlank c)
    ∧ Index.readAll 0 (written ++ trailing) = indexes.map .ok
  := by
  intro trailing written indexes
  have hnil : ∀ c ∈ ([] : Text), isBlank c := List.forall_mem_nil _
  have hspace : ∀ c ∈ [' '], isBlank c := List.forall_mem_singleton.mpr rfl
  have hblank : ∀ c ∈ [' '], isAsciiBlank c := forall_mem_of_all (by decide)
  have hlines : ∀ c ∈ "\n\n ".toList, isAsciiBlank c := forall_mem_of_all (by decide)
  have htab : ∀ c ∈ ['\t'], isAsciiBlank c := forall_mem_of_all (by decide)
  have hpk : Attribute.IsPrintable (.flag "pk") :=
    ⟨by decide, by decide +kernel, forall_mem_of_all (by decide +kernel)⟩
  have hunique : Attribute.IsPrintable (.flag "unique") :=
    ⟨by decide, by decide +kernel, forall_mem_of_all (by decide +kernel)⟩
  let bc : QuotableName := ⟨"b, c".toList, by decide, by decide, by decide, by decide⟩
  let xy : QuotableName := ⟨"x[y".toList, by decide, by decide, by decide, by decide⟩
  let q : QuotableName := ⟨"q".toList, by decide, by decide, by decide, by decide⟩
  let sources : List IndexSource :=
    [⟨[], .list ⟨[], .expression "a)".toList (by decide) (by decide), [' '], hnil, hspace⟩
          [⟨[' '], .name bc, [], hspace, hnil⟩],
        [⟨[' '], [⟨_, [], [], [], [], hpk, hnil, hnil, hnil, hnil⟩], hblank⟩],
        List.forall_mem_nil _⟩,
      ⟨"\n\n ".toList, .single (.name xy), [], hlines⟩,
      ⟨['\t'], .single (.expression "f(\x27z)".toList (by decide) (by decide)),
        [⟨[], [⟨_, [], [], [], [], hunique, hnil, hnil, hnil, hnil⟩], List.forall_mem_nil _⟩],
        htab⟩,
      ⟨[' '], .single (.name q), [], hblank⟩]
  have ht : ∀ c ∈ trailing, isAsciiBlank c := forall_mem_of_all (by decide)
  have hwritten : sources.flatMap IndexSource.text = written := rfl
  have hindexes : List.Forall₂ IndexSource.Describes sources indexes :=
    .cons ⟨rfl, rfl, by decide, by decide, by decide⟩
      (.cons ⟨rfl, rfl, by decide, by decide, by decide⟩
        (.cons ⟨rfl, rfl, by decide, by decide, by decide⟩
          (.cons ⟨rfl, rfl, by decide, by decide, by decide⟩ .nil)))
  obtain ⟨read, hread, hd⟩ := indexes_are_read_as_a_stream 0 sources trailing ht
  rw [hwritten] at hread
  have hunique : Relator.RightUnique IndexSource.Describes := fun _ _ _ h h' => h.unique h'
  obtain rfl : read = indexes := List.right_unique_forall₂' hunique hd hindexes
  exact ⟨ht, hread⟩

end DatabaseMarkup
