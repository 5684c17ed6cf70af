import DatabaseMarkup.Document.Reader
import DatabaseMarkup.Proofs.Table.Body
import DatabaseMarkup.Proofs.Settings.Literal
import DatabaseMarkup.Proofs.Text.Parts

/-!
# Text behind a note

A note in a body takes its line with it.  `note_takes_its_line` states what becomes of a text that
stands behind a literal on the line of a note: the entries of the body are those without the text,
and none of them is a problem.  On a line of its own the same text is read like any other line.
-/

namespace DatabaseMarkup

open Text

/-! ## The line of a note -/

/-- A note and a literal, which is its value, up to the end of the literal. -/
def Note.print (q : Text) : Text :=
  ['N', 'o', 't', 'e', ':', ' '] ++ q

namespace Note

variable {q line after : Text}

theorem isQuote_head_literal (hq : IsLiteral q) (u : Text) :
  skipSpaces (' ' :: (q ++ u)) = q ++ u
  := by
  have hskip {c : Char} (hc : isQuote c) (v : Text) : skipSpaces (' ' :: c :: v) = c :: v := by
    simp only [isQuote, Bool.or_eq_true, decide_eq_true_eq] at hc
    rcases hc with (rfl | rfl) | rfl <;> rfl
  cases hq with
  | line hq _ => exact hskip hq _
  | block _ => exact hskip (c := apostrophe) rfl _

/-- A note with a literal is read up to the end of its line. -/
theorem split?_print (hq : IsLiteral q) (finish : Nat) {u : Text} (hu : u.head? ≠ some apostrophe) :
  split? finish (print q ++ u) = some (.ok (Value.read q).1.content, dropLine u)
  := by
  have hk : splitKeyword? ['n', 'o', 't', 'e'] (print q ++ u) = some (':' :: ' ' :: (q ++ u)) := rfl
  have ht : trimStart (':' :: ' ' :: (q ++ u)) = ':' :: ' ' :: (q ++ u) := rfl
  rw [split?, hk]
  dsimp only
  rw [ht]
  dsimp only
  rw [if_pos rfl, isQuote_head_literal hq, Value.read_literal hq hu]

end Note

namespace TableEntry

/-- Whether the reading of a text that ends at `finish` comes to a part of it, which ends at
`innerFinish`, with some entries before and some behind that part. -/
inductive Reaches : Nat → Text → List TableEntry → Nat → Text → List TableEntry → Prop
  | here {finish : Nat} {t part : Text} (ht : skipBlanks t = part) :
      Reaches finish t [] finish part []
  | later {finish innerFinish : Nat} {c : Char} {t u rest part : Text}
      {entries before behind : List TableEntry} (ht : skipBlanks t = c :: u)
      (hs : TablePart.splitFirst finish (c :: u) = (.entries entries, rest))
      (h : Reaches finish rest before innerFinish part behind) :
      Reaches finish t (entries ++ before) innerFinish part behind
  | behindGroup {finish groupFinish innerFinish : Nat} {c : Char} {t u inner rest part : Text}
      {before behind : List TableEntry} (ht : skipBlanks t = c :: u)
      (hs : TablePart.splitFirst finish (c :: u) = (.columns groupFinish inner, rest))
      (h : Reaches finish rest before innerFinish part behind) :
      Reaches finish t (readAll groupFinish inner ++ before) innerFinish part behind
  | inGroup {finish groupFinish innerFinish : Nat} {c : Char} {t u inner rest part : Text}
      {before behind : List TableEntry} (ht : skipBlanks t = c :: u)
      (hs : TablePart.splitFirst finish (c :: u) = (.columns groupFinish inner, rest))
      (h : Reaches groupFinish inner before innerFinish part behind) :
      Reaches finish t before innerFinish part (behind ++ readAll finish rest)

theorem readAll_skipBlanks (finish : Nat) (t : Text) :
  readAll finish (skipBlanks t) = readAll finish t
  := by
  have hs := skipBlanks_skipBlanks t
  cases ht : skipBlanks t with
  | nil => rw [readAll_blank ht, readAll_blank rfl]
  | cons c u =>
    rw [ht] at hs
    rw [readAll_part ht, readAll_part hs]

/-- The entries of the part stand between those before and those behind it. -/
theorem Reaches.readAll_eq {finish innerFinish : Nat} {t part : Text}
    {before behind : List TableEntry} (h : Reaches finish t before innerFinish part behind) :
  readAll finish t = before ++ (readAll innerFinish part ++ behind)
  := by
  induction h with
  | here ht => rw [← ht, readAll_skipBlanks, List.nil_append, List.append_nil]
  | later ht hs _ ih => rw [readAll_entries ht hs, ih, List.append_assoc]
  | behindGroup ht hs _ ih => rw [readAll_columns ht hs, ih, List.append_assoc]
  | inGroup ht hs _ ih => rw [readAll_columns ht hs, ih, List.append_assoc, List.append_assoc]

/-- A note is the first entry of a text that begins with it. -/
theorem readAll_of_split? {finish : Nat} {t rest : Text} {note : String}
    (h : Note.split? finish ('N' :: t) = some (.ok note, rest)) :
  readAll finish ('N' :: t) = .note note :: readAll finish rest
  := by
  have ht : skipBlanks ('N' :: t) = 'N' :: t := rfl
  have hs : TablePart.splitFirst finish ('N' :: t) = (.entries [.note note], rest) := by
    rw [TablePart.splitFirst, h]
    rfl
  exact readAll_entries ht hs

/-- A note is an entry of its own, and the rest of its line is dropped. -/
theorem readAll_note {q u : Text} (hq : IsLiteral q) (finish : Nat)
    (hu : u.head? ≠ some apostrophe) :
  readAll finish (Note.print q ++ u) = .note (Value.read q).1.content :: readAll finish (dropLine u)
  := readAll_of_split? (Note.split?_print hq finish hu)

end TableEntry

open TableEntry in
/-- A body in which a text stands behind a literal on the line of a note has the entries that it has
without the text, and no problem with the line.  Where the text stands on the next line instead, its
own entries come in addition. -/
theorem note_takes_its_line {finish innerFinish : Nat} {body part : Text}
    {before behind : List TableEntry}
    (hbody : Reaches finish body before innerFinish part behind) {q line after : Text}
    (hq : IsLiteral q) (hl : '\n' ∉ line) (ha : EndsLine after) :
  (part = Note.print q ++ ' ' :: (line ++ after) →
      readAll finish body
        = before ++ (.note (Value.read q).1.content
            :: readAll innerFinish (after.drop 1) ++ behind))
    ∧ (part = Note.print q ++ '\n' :: (line ++ after) →
        readAll finish body
          = before ++ (.note (Value.read q).1.content
              :: readAll innerFinish (line ++ after) ++ behind))
  := by
  have hentries {u : Text} (hu : u.head? ≠ some apostrophe) (hp : part = Note.print q ++ u) :
      readAll finish body
        = before ++ (.note (Value.read q).1.content
            :: readAll innerFinish (dropLine u) ++ behind) := by
    rw [hbody.readAll_eq, hp, readAll_note hq innerFinish hu]
  constructor
  · intro hp
    have hhead : (' ' :: (line ++ after)).head? ≠ some apostrophe := by
      rintro ⟨⟩
    have hline : '\n' ∉ ' ' :: line := by
      rw [List.mem_cons, not_or]
      exact ⟨by decide, hl⟩
    rw [hentries hhead hp, ← List.cons_append, dropLine,
      fromLineEnd_append hline ha]
  · intro hp
    have hhead : ('\n' :: (line ++ after)).head? ≠ some apostrophe := by
      rintro ⟨⟩
    rw [hentries hhead hp]
    rfl

/-- A column on the line of a note is lost; on the next line it is read. -/
theorem note_takes_column :
  TableEntry.readAll 24 "\n  Note: \x27x\x27 id int\n  ".toList = [.note "x"]
    ∧ TableEntry.readAll 24 "\n  Note: \x27x\x27\nid int\n  ".toList
      = .note "x" :: TableEntry.readAll 24 "id int\n  ".toList
  := by
  have hq : IsLiteral (apostrophe :: (['x'] ++ [apostrophe])) := .line rfl rfl
  have hl : '\n' ∉ "id int".toList := by decide
  have ha : EndsLine "\n  ".toList := .inr ⟨_, rfl⟩
  have hone : TableEntry.Reaches 24 "\n  Note: \x27x\x27 id int\n  ".toList [] 24 _ [] := .here rfl
  have htwo : TableEntry.Reaches 24 "\n  Note: \x27x\x27\nid int\n  ".toList [] 24 _ [] := .here rfl
  constructor
  · rw [(note_takes_its_line hone hq hl ha).1 rfl]
    have hblank : TableEntry.readAll 24 ("\n  ".toList.drop 1) = [] := TableEntry.readAll_blank rfl
    rw [hblank]
    rfl
  · rw [(note_takes_its_line htwo hq hl ha).2 rfl, List.append_nil]
    rfl

/-- A column that follows a note on its line is neither read nor reported, and a strict reading
accepts the document without it. -/
theorem column_behind_note_is_lost :
  let oneLine := Report.ofSource .tableWins "Table t \x7b\n  Note: \x27x\x27 id int\n\x7d\n"
  let twoLines := Report.ofSource .tableWins "Table t \x7b\n  Note: \x27x\x27\nid int\n\x7d\n"
  oneLine.document.tables.map (fun t => t.columns.map Column.name) = [[]]
    ∧ twoLines.document.tables.map (fun t => t.columns.map Column.name) = [["id"]]
    ∧ oneLine.diagnostics = []
    ∧ oneLine.result true = .ok oneLine.document
  := by
  refine ⟨?_, ?_, ?_, ?_⟩
  all_goals decide +kernel

end DatabaseMarkup
