import DatabaseMarkup.Proofs.Document.Content
import DatabaseMarkup.Proofs.Table.Note
import DatabaseMarkup.Proofs.Text.Name
import DatabaseMarkup.Proofs.Text.Parts
import Mathlib.Data.List.Infix

/-!
# The two spellings of a note

A note is written on a line, `Note: q`, or as a group, `Note { q }`.  The literal of the former is
read with its escapes, and that of the latter only loses its quotes.
`note_spellings_agree_without_escapes` states for every literal when the two set the same text.
-/

namespace DatabaseMarkup

open Unicode Text

namespace Text

/-! ## Escapes -/

/-- Whether a backslash in a text that stands between quotes is dropped or replaced. -/
def HasEscape (quote : Char) (t : Text) : Prop :=
  ∃ c ∈ [quote, '\\', 'n', 't'], ['\\', c] <:+: t

instance (quote : Char) (t : Text) : Decidable (HasEscape quote t) :=
  List.decidableBEx (fun c => ['\\', c] <:+: t) [quote, '\\', 'n', 't']

theorem not_hasEscape_of_length_le {quote : Char} {t : Text} (ht : t.length ≤ 1) :
  ¬HasEscape quote t
  := by
  rintro ⟨c, _, h⟩
  have hl := h.length_le
  rw [List.length_cons, List.length_singleton] at hl
  omega

theorem hasEscape_cons {quote c : Char} (hc : c ≠ '\\') (t : Text) :
  HasEscape quote (c :: t) ↔ HasEscape quote t
  := by
  constructor
  · rintro ⟨e, he, h⟩
    rcases List.infix_cons_iff.mp h with h | h
    · exact absurd (List.cons_prefix_cons.mp h).1.symm hc
    · exact ⟨e, he, h⟩
  · rintro ⟨e, he, h⟩
    exact ⟨e, he, List.infix_cons h⟩

/-- A backslash that is kept does not protect the character behind it. -/
theorem hasEscape_backslash {quote d : Char} (hd : d ∉ [quote, '\\', 'n', 't']) (t : Text) :
  HasEscape quote ('\\' :: d :: t) ↔ HasEscape quote t
  := by
  have hb : d ≠ '\\' := by
    rintro rfl
    apply hd
    simp
  rw [← hasEscape_cons hb t]
  constructor
  · rintro ⟨e, he, h⟩
    rcases List.infix_cons_iff.mp h with h | h
    · have hed : e = d := (List.cons_prefix_cons.mp (List.cons_prefix_cons.mp h).2).1
      rw [hed] at he
      exact absurd he hd
    · exact ⟨e, he, h⟩
  · rintro ⟨e, he, h⟩
    exact ⟨e, he, List.infix_cons h⟩

/-- Reading escapes makes no text longer. -/
theorem length_unescape_le (quote : Char) (t : Text) :
  (unescape quote t).length ≤ t.length
  := by
  fun_induction unescape quote t with
  | case1 => exact Nat.le_refl _
  | case2 => exact Nat.le_refl _
  | _ =>
    simp only [List.length_cons]
    omega

/-- Only a text with escapes is changed when they are resolved. -/
theorem unescape_eq_self_iff {quote : Char} {t : Text} :
  unescape quote t = t ↔ ¬HasEscape quote t
  := by
  -- a resolved escape makes the text shorter
  have hshorter {d e : Char} {u : Text} (hd : d ∈ [quote, '\\', 'n', 't']) :
      e :: unescape quote u = '\\' :: d :: u ↔ ¬HasEscape quote ('\\' :: d :: u) := by
    constructor
    · intro h
      have hl := congrArg List.length h
      have := length_unescape_le quote u
      simp only [List.length_cons] at hl
      omega
    · intro h
      exact absurd ⟨d, hd, (List.prefix_append ['\\', d] u).isInfix⟩ h
  fun_induction unescape quote t with
  | case1 => exact iff_of_true rfl (not_hasEscape_of_length_le (Nat.zero_le _))
  | case2 => exact iff_of_true rfl (not_hasEscape_of_length_le (Nat.le_refl _))
  | case3 d u hd _ =>
    apply hshorter
    rw [Bool.or_eq_true, decide_eq_true_eq, decide_eq_true_eq] at hd
    rcases hd with rfl | rfl
    · exact List.mem_cons_self
    · exact List.mem_cons_of_mem _ List.mem_cons_self
  | case4 => exact hshorter (by simp)
  | case5 => exact hshorter (by simp)
  | case6 d u hd hn ht ih =>
    have hkept : d ∉ [quote, '\\', 'n', 't'] := by
      rw [Bool.or_eq_true, decide_eq_true_eq, decide_eq_true_eq, not_or] at hd
      simp only [List.mem_cons, List.not_mem_nil, or_false, not_or]
      exact ⟨hd.1, hd.2, hn, ht⟩
    rw [hasEscape_backslash hkept, List.cons.injEq, List.cons.injEq, and_iff_right rfl,
      and_iff_right rfl]
    exact ih
  | case7 c u hc ih =>
    rw [hasEscape_cons hc, List.cons.injEq, and_iff_right rfl]
    exact ih

/-! ## Literals between braces -/

/-- Whether a text is a literal on one line with escapes between its quotes. -/
def HasEscapes (q : Text) : Prop :=
  ∃ quote inner, q = quote :: (inner ++ [quote]) ∧ quote ≠ backtick ∧ ¬tripleQuote <+: q
    ∧ HasEscape quote inner

/-- A literal on a line has escapes exactly when it is no expression and no block literal and its
inside has some. -/
theorem hasEscapes_line {quote : Char} {inner : Text} :
  HasEscapes (quote :: (inner ++ [quote]))
    ↔ quote ≠ backtick ∧ ¬tripleQuote <+: quote :: (inner ++ [quote]) ∧ HasEscape quote inner
  := by
  constructor
  · rintro ⟨quote', inner', h, hb, ht, hescape⟩
    obtain ⟨rfl, h⟩ := List.cons.inj h
    obtain rfl := List.append_cancel_right h
    exact ⟨hb, ht, hescape⟩
  · rintro ⟨hb, ht, hescape⟩
    exact ⟨quote, inner, rfl, hb, ht, hescape⟩

/-- A complete literal is a lexeme. -/
theorem IsLiteral.exists_lexes {q : Text} (hq : IsLiteral q) :
  ∃ quote tail, Lexes q [.quoted quote tail]
  := by
  cases hq with
  | @line quote inner hq hi =>
    refine ⟨quote, inner ++ [quote], ?_⟩
    exact lexes_nil.literal hq hi fun _ _ => nofun
  | @block inner hi =>
    refine ⟨apostrophe, [apostrophe, apostrophe] ++ inner ++ tripleQuote, ?_⟩
    intro u _
    have hc : cutAtMark tripleQuote (inner ++ tripleQuote ++ u) = some (inner, u) :=
      (cutAtMark_eq_some_iff (List.cons_ne_nil _ _)).mpr ⟨rfl, hi⟩
    have ht : tripleQuote ++ (inner ++ tripleQuote) ++ u
        = apostrophe :: ([apostrophe, apostrophe] ++ inner ++ tripleQuote ++ u) := by
      simp only [List.cons_append, List.nil_append, List.append_assoc]
    rw [ht, lexemes_cons, Lexeme.first_tripleQuote hc]
    rfl

theorem IsLiteral.trimmed {q : Text} (hq : IsLiteral q) :
  Trimmed q
  := by
  cases hq with
  | line hq _ => exact trimmed_enclosed (isBlank_quote hq) (isBlank_quote hq) _
  | @block inner _ =>
    have ht : Trimmed tripleQuote := trimmed_of_forall (forall_mem_of_all (by decide))
    exact ht.append ht (List.cons_ne_nil _ _) (List.cons_ne_nil _ _) inner

/-- The blanks around a literal do not matter to its content. -/
theorem unquoteBlock_padded {s t u : Text} (hs : ∀ c ∈ s, isBlank c) (ht : Trimmed t)
    (hu : ∀ c ∈ u, isBlank c) :
  unquoteBlock (s ++ (t ++ u)) = unquoteBlock t
  := by
  rw [unquoteBlock, trim_append hs ht hu, unquoteBlock, ht.trim_eq]

/-- The content of a literal on a line is its inside as it is written. -/
theorem unquoteBlock_line {quote : Char} {inner : Text} (hq : isQuote quote)
    (ht : ¬tripleQuote <+: quote :: (inner ++ [quote])) :
  unquoteBlock (quote :: (inner ++ [quote])) = inner
  := by
  have hblank := isBlank_quote hq
  have hp : tripleQuote.isPrefixOf (quote :: (inner ++ [quote])) = false := by
    apply eq_false_of_ne_true
    exact fun h => ht (List.isPrefixOf_iff_prefix.mp h)
  have hunquote := unquote_quoted hq inner (List.forall_mem_nil _) (List.forall_mem_nil _)
  rw [List.nil_append, List.append_nil] at hunquote
  rw [unquoteBlock, (trimmed_enclosed hblank hblank inner).trim_eq, hp, Bool.and_false,
    Bool.false_and, if_neg Bool.false_ne_true, hunquote]

/-- The content of a block literal is its inside without the blanks around it. -/
theorem unquoteBlock_block (inner : Text) :
  unquoteBlock (tripleQuote ++ (inner ++ tripleQuote)) = trim inner
  := by
  have ht : Trimmed tripleQuote := trimmed_of_forall (forall_mem_of_all (by decide))
  have htrim := ht.append ht (List.cons_ne_nil _ _) (List.cons_ne_nil _ _) inner
  have hp : tripleQuote.isPrefixOf (tripleQuote ++ (inner ++ tripleQuote)) :=
    List.isPrefixOf_iff_prefix.mpr (List.prefix_append _ _)
  have hs : tripleQuote.isSuffixOf (tripleQuote ++ (inner ++ tripleQuote)) := by
    rw [List.isSuffixOf_iff_suffix, ← List.append_assoc]
    apply List.suffix_append
  have hl : (tripleQuote ++ (inner ++ tripleQuote)).length = inner.length + 6 := by
    simp only [List.length_append, List.length_cons, List.length_nil]
    omega
  have hcut : ((tripleQuote ++ (inner ++ tripleQuote)).drop 3).take (inner.length + 6 - 6)
      = inner := List.take_left
  rw [unquoteBlock, htrim.trim_eq, hp, hs, hl, hcut, Bool.and_true, Bool.and_true,
    if_pos (decide_eq_true (Nat.le_add_left 6 _))]

/-- The two ways to read a literal of a note differ where it has escapes and nowhere else. -/
theorem IsLiteral.content_eq_iff {q : Text} (hq : IsLiteral q) :
  (Value.read q).1.content = String.ofList (unquoteBlock q) ↔ ¬HasEscapes q
  := by
  cases hq with
  | @line quote inner hq hi =>
    have hn : ([] : Text).head? ≠ some apostrophe := nofun
    have ht : ¬tripleQuote <+: quote :: (inner ++ [quote]) := by
      intro h
      obtain ⟨rfl, h⟩ := List.cons_prefix_cons.mp h
      exact Lexeme.not_isPrefixOf_literal hi (fun _ => hn) (List.isPrefixOf_iff_prefix.mpr h)
    rw [unquoteBlock_line hq ht, hasEscapes_line]
    by_cases hb : quote = backtick
    · subst hb
      rw [Value.read_expression (backtick_notMem_of_closeLine hi)]
      exact iff_of_true rfl fun h => h.1 rfl
    · rw [Value.read_line hq hb hi fun _ => hn, Value.content, String.ofList_inj,
        unescape_eq_self_iff, and_iff_right hb, and_iff_right ht]
  | @block inner hi =>
    have hread := Value.read_block hi []
    rw [List.append_nil] at hread
    rw [hread, unquoteBlock_block]
    apply iff_of_true rfl
    rintro ⟨quote, inner', _, _, ht, _⟩
    exact ht (List.prefix_append _ _)

end Text

/-! ## The last note of a body -/

namespace Note

/-- A note that is written as a group, with blanks around the literal. -/
def printGroup (s q u : Text) : Text :=
  ['N', 'o', 't', 'e', ' ', '{'] ++ (s ++ (q ++ u) ++ ['}'])

/-- A note that is written as a group is read up to the end of the group. -/
theorem split?_printGroup {s q u : Text} (hs : ∀ c ∈ s, isBlank c) (hq : IsLiteral q)
    (hu : ∀ c ∈ u, isBlank c) (finish : Nat) (after : Text) :
  split? finish (printGroup s q u ++ after) = some (.ok (String.ofList (unquoteBlock q)), after)
  := by
  have hk : splitKeyword? ['n', 'o', 't', 'e'] (printGroup s q u ++ after)
      = some (' ' :: '{' :: (s ++ (q ++ u) ++ ['}'] ++ after)) := rfl
  have ht : trimStart (' ' :: '{' :: (s ++ (q ++ u) ++ ['}'] ++ after))
      = '{' :: (s ++ (q ++ u) ++ ['}'] ++ after) := rfl
  have hclose : splitGroup? ('{' :: (s ++ (q ++ u) ++ ['}'] ++ after))
      = some (s ++ (q ++ u), after) := by
    obtain ⟨quote, tail, hl⟩ := hq.exists_lexes
    have hbrace {v : Text} (hv : ∀ c ∈ v, isBlank c) : ∀ c ∈ v, c ≠ '{' ∧ c ≠ '}' := by
      intro c hc
      constructor
      · rintro rfl
        cases hv _ hc
      · rintro rfl
        cases hv _ hc
    have hp : Lexeme.Plains (fun c => c ≠ '{' ∧ c ≠ '}')
        (s.map .plain ++ ([.quoted quote tail] ++ u.map .plain)) := by
      rw [Lexeme.plains_append, Lexeme.plains_append, Lexeme.plains_map, Lexeme.plains_map,
        Lexeme.plains_quoted]
      exact ⟨hbrace hs, Lexeme.plains_nil, hbrace hu⟩
    rw [List.append_assoc (s ++ (q ++ u))]
    exact closeGroup_append rfl rfl (by decide) (hl.padded hs hu) hp after
  rw [split?, hk]
  dsimp only
  rw [ht]
  dsimp only
  rw [if_neg (by decide), if_pos rfl, hclose]
  dsimp only
  rw [unquoteBlock_padded hs hq.trimmed hu]

end Note

namespace TableEntry

/-- There is no note exactly when no entry is one. -/
theorem noteOf?_eq_none_iff {entries : List TableEntry} :
  noteOf? entries = none ↔ entries.filterMap note? = []
  := List.getLast?_eq_none_iff

/-- The last note is the one that has no other behind it. -/
theorem noteOf?_append_note {before behind : List TableEntry} (text : String)
    (h : noteOf? behind = none) :
  noteOf? (before ++ .note text :: behind) = some text
  := by
  have hnotes : (.note text :: behind).filterMap note? = [text] := by
    rw [List.filterMap_cons, noteOf?_eq_none_iff.mp h]
    rfl
  rw [noteOf?, List.filterMap_append, hnotes, List.getLast?_concat]

/-- Whether the last note in a body that ends at `finish` is written in the given way, with a text
behind it that has no note. -/
def HasLastNote (finish : Nat) (body written after : Text) : Prop :=
  ∃ innerFinish before behind, Reaches finish body before innerFinish (written ++ after) behind
    ∧ noteOf? (readAll innerFinish after ++ behind) = none

end TableEntry

namespace TableGroupEntry

/-- A note is the first entry of a text that begins with it. -/
theorem readAll_of_split? {finish : Nat} {t rest : Text} {text : String}
    (h : Note.split? finish ('N' :: t) = some (.ok text, rest)) :
  readAll finish ('N' :: t) = .ok (.note text) :: readAll finish rest
  := by
  have ht : skipBlanks ('N' :: t) = 'N' :: t := rfl
  have hs : splitFirst finish ('N' :: t) = (.ok (.note text), rest) := by
    rw [splitFirst, h]
    rfl
  rw [TableGroupEntry.readAll_eq, ht]
  dsimp only
  rw [hs]

/-- Whether the last note in the body of a group that ends at `finish` is written in the given way,
with a text behind it that has no note. -/
def HasLastNote (finish : Nat) (body written after : Text) : Prop :=
  ∃ before, Text.Reaches (splitFirst finish) body before (written ++ after)
    ∧ (Finding.successes (readAll finish after)).filterMap note? = []

end TableGroupEntry

/-- Whether a note that is written in the given way, with the given text behind it, sets the note of
every table, every partial and every group of tables in whose body it is the last one. -/
structure Note.Sets (written after : Text) (note : String) : Prop where
  table {block : Block} (h : TableEntry.HasLastNote block.finish block.body written after)
    (policy : MergePolicy) (partials : List TablePartial) :
    (Table.ofBlock policy partials block).note = some note
  tablePartial {block : Block} (h : TableEntry.HasLastNote block.finish block.body written after)
    (policy : MergePolicy) (earlier : List TablePartial) :
    (TablePartial.ofBlock policy earlier block).note = some note
  tableGroup {block : Block}
    (h : TableGroupEntry.HasLastNote block.finish block.body written after) :
    (TableGroup.ofBlock block).note = some note

/-- What is read at the start of a note is what the note sets. -/
theorem Note.sets_of_split? {t after rest : Text} {note : String}
    (h : ∀ finish, split? finish ('N' :: (t ++ after)) = some (.ok note, rest))
    (hrest : skipBlanks rest = skipBlanks after) :
  Sets ('N' :: t) after note
  := by
  have hbody {finish : Nat} {body : Text}
      (hlast : TableEntry.HasLastNote finish body ('N' :: t) after) :
      TableEntry.noteOf? (TableEntry.readAll finish body) = some note := by
    obtain ⟨innerFinish, before, behind, hreaches, hnone⟩ := hlast
    rw [← TableEntry.readAll_skipBlanks, ← hrest, TableEntry.readAll_skipBlanks] at hnone
    rw [hreaches.readAll_eq, List.cons_append, TableEntry.readAll_of_split? (h innerFinish),
      List.cons_append, TableEntry.noteOf?_append_note note hnone]
  constructor
  · intro block hlast policy partials
    rw [Table.ofBlock, Block.entries]
    dsimp only
    rw [hbody hlast]
    rfl
  · intro block hlast policy earlier
    rw [TablePartial.ofBlock, Block.entries]
    exact hbody hlast
  · rintro block ⟨before, hreaches, hnone⟩
    have hread := TableGroupEntry.readAll_eq block.finish
    rw [← read_skipBlanks hread, ← hrest, read_skipBlanks hread] at hnone
    have hnotes : (Finding.successes (TableGroup.entries block)).filterMap TableGroupEntry.note?
        = (Finding.successes before).filterMap TableGroupEntry.note? ++ [note] := by
      rw [TableGroup.entries, hreaches.read_eq hread, List.cons_append,
        TableGroupEntry.readAll_of_split? (h block.finish), Finding.successes,
        List.filterMap_append, List.filterMap_append, List.filterMap_cons]
      exact congrArg (_ ++ note :: ·) hnone
    rw [TableGroup.ofBlock]
    dsimp only
    rw [hnotes, List.getLast?_concat]
    rfl

/-- A note on a line and a note in a group set the same text, unless their literal is one on a single
line that has escapes: the former resolves these and the latter does not. -/
theorem note_spellings_agree_without_escapes {q : Text} (hq : IsLiteral q) :
  ∃ inLine inGroup : String, (inLine = inGroup ↔ ¬HasEscapes q)
    ∧ (∀ after, EndsLine after → Note.Sets (Note.print q) after inLine)
    ∧ (∀ s u after, (∀ c ∈ s, isBlank c) → (∀ c ∈ u, isBlank c) →
        Note.Sets (Note.printGroup s q u) after inGroup)
  := by
  refine ⟨(Value.read q).1.content, String.ofList (unquoteBlock q), hq.content_eq_iff, ?_, ?_⟩
  · intro after ha
    have hhead : after.head? ≠ some apostrophe := by
      rcases ha with rfl | ⟨u, rfl⟩
      · rintro ⟨⟩
      · rintro ⟨⟩
    apply Note.sets_of_split? fun finish => Note.split?_print hq finish hhead
    rcases ha with rfl | ⟨u, rfl⟩
    · rfl
    · rfl
  · intro s u after hs hu
    exact Note.sets_of_split? (fun finish => Note.split?_printGroup hs hq hu finish after) rfl

/-- Neither a closing brace between quotes nor a backslash in front of another letter makes a
difference to the note of a table, which is the last one of its body. -/
theorem note_spellings_agree_on_brace :
  let old := apostrophe :: ("old".toList ++ [apostrophe])
  let inner := "\\d \x7d \\w".toList
  let q := apostrophe :: (inner ++ [apostrophe])
  let table written after : Block :=
    ⟨⟨.table, none, some ['t'], none⟩, [], Note.print old ++ '\n' :: (written ++ after), 9⟩
  let inLine := table (Note.print q) ['\n']
  let inGroup := table (Note.printGroup [' '] q ['\n']) "\n  id int\n".toList
  IsLiteral q ∧ ¬HasEscapes q
    ∧ TableEntry.HasLastNote inLine.finish inLine.body (Note.print q) ['\n']
    ∧ TableEntry.HasLastNote inGroup.finish inGroup.body (Note.printGroup [' '] q ['\n'])
        "\n  id int\n".toList
    ∧ (Table.ofBlock .tableWins [] inLine).note = some (String.ofList inner)
    ∧ (Table.ofBlock .tableWins [] inGroup).note = some (String.ofList inner)
  := by
  intro old inner q table inLine inGroup
  have hclose : closeLine apostrophe (inner ++ [apostrophe]) = some (inner, []) := by decide +kernel
  have hkept : ¬HasEscape apostrophe inner := by decide +kernel
  have hq : IsLiteral q := .line rfl hclose
  have hplain : ¬HasEscapes q := fun h => hkept (hasEscapes_line.mp h).2.2
  have hold : IsLiteral old := .line rfl (by decide +kernel)
  -- The note in front is an entry of its own, whatever is written below it.
  have hsplit (finish : Nat) (t : Text) : TablePart.splitFirst finish (Note.print old ++ '\n' :: t)
      = (.entries [.note (Value.read old).1.content], dropLine ('\n' :: t)) := by
    rw [TablePart.splitFirst, Note.split?_print hold finish (by rintro ⟨⟩)]
    rfl
  have hlastLine : TableEntry.HasLastNote inLine.finish inLine.body (Note.print q) ['\n'] :=
    ⟨_, _, [], .later rfl (hsplit _ _) (.here rfl), by decide +kernel⟩
  have hlastGroup : TableEntry.HasLastNote inGroup.finish inGroup.body
      (Note.printGroup [' '] q ['\n']) "\n  id int\n".toList :=
    ⟨_, _, [], .later rfl (hsplit _ _) (.here rfl), by decide +kernel⟩
  obtain ⟨noteInLine, noteInGroup, hsame, hline, hgroup⟩ := note_spellings_agree_without_escapes hq
  have hline := (hline ['\n'] (.inr ⟨[], rfl⟩)).table hlastLine .tableWins []
  have hgroup := (hgroup [' '] ['\n'] "\n  id int\n".toList (forall_mem_of_all (by decide))
    (forall_mem_of_all (by decide))).table hlastGroup .tableWins []
  have hnote : (Table.ofBlock .tableWins [] inGroup).note = some (String.ofList inner) := by
    decide +kernel
  obtain rfl : noteInGroup = String.ofList inner := Option.some.inj (hgroup.symm.trans hnote)
  rw [hsame.mpr hplain] at hline
  exact ⟨hq, hplain, hlastLine, hlastGroup, hline, hgroup⟩

/-- An escaped quote is resolved in one spelling only. -/
theorem note_in_group_keeps_escape :
  let inLine := Report.ofSource .tableWins "Table t \x7b\n  Note: \x27it\\\x27s\x27\n\x7d\n"
  let inGroup :=
    Report.ofSource .tableWins "Table t \x7b\n  Note \x7b \x27it\\\x27s\x27 \x7d\n\x7d\n"
  inLine.document.tables.map Table.note = [some "it\x27s"]
    ∧ inGroup.document.tables.map Table.note = [some "it\\\x27s"]
    ∧ inLine.diagnostics = [] ∧ inGroup.diagnostics = []
  := by
  refine ⟨?_, ?_, ?_, ?_⟩
  all_goals decide +kernel

end DatabaseMarkup
