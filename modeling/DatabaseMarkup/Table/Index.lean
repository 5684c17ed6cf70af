import DatabaseMarkup.Diagnostic.Problem
import DatabaseMarkup.Settings.Reader
import DatabaseMarkup.Table.Basic

/-!
# Written indexes

The indexes of a table are read as a stream of items, whatever the lines they stand on.  An item
is a list of columns in parentheses, a quoted name or expression, or a bare name, and settings
may follow it.  `Index.readAll` reads the stream.  A text that is no item is skipped to the end
of its line.
-/

namespace DatabaseMarkup

open Text

namespace IndexColumn

/-- The column or expression that a text stands for. -/
def read (t : Text) : IndexColumn :=
  match trim t with
  | [] => .name ""
  | c :: t =>
    if c = backtick && t.getLast? = some backtick then
      .expression (String.ofList t.dropLast)
    else
      .name (String.ofList (unquote (c :: t)))

end IndexColumn

namespace Index

/-- Whether a character belongs to a bare name of an index. -/
def isBareChar (c : Char) : Bool :=
  Unicode.isAsciiAlphanumeric c || c = '_' || 0x80 ≤ c.toNat

/-- The columns of the item at the start of the text `c :: t`, and the text after them. -/
def splitColumns? (c : Char) (t : Text) : Option (List IndexColumn × Text) :=
  if c = '(' then
    match splitGroup? (c :: t) with
    | some (inner, rest) =>
      let parts := (splitTopLevel ',' inner).filter fun part => !allBlank part
      if parts.isEmpty then none else some (parts.map IndexColumn.read, rest)
    | none => none
  else if isQuote c then
    let (literal, rest) := Lexeme.first c t
    if literal.text.length = 1 then none else some ([IndexColumn.read literal.text], rest)
  else if isBareChar c then
    some ([.name (String.ofList (c :: t.takeWhile isBareChar))], t.dropWhile isBareChar)
  else
    none

/-- The item at the start of the text `c :: t` that ends at `finish`, or the problem with its
line, and the text after it. -/
def splitFirst (finish : Nat) (c : Char) (t : Text) : Except Finding Index × Text :=
  match splitColumns? c t with
  | some (columns, rest) =>
    let (settings, rest) := Settings.readGroups rest
    (.ok (ofColumns columns settings), rest)
  | none =>
    let line := trim (firstLine (c :: t))
    (.error (.placed (startOf finish (c :: t)) (.malformedLine .index line)),
      fromLineEnd (c :: t))

theorem length_splitColumns {c : Char} {t rest : Text} {columns : List IndexColumn}
    (h : splitColumns? c t = some (columns, rest)) :
  rest.length ≤ t.length
  := by
  rw [splitColumns?] at h
  split at h
  · split at h
    · rename_i hg
      have := length_splitGroup hg
      simp only [Option.ite_none_left_eq_some, Option.some.injEq, Prod.mk.injEq] at h
      rw [← h.2.2]
      rw [List.length_cons] at this
      omega
    · simp at h
  · split at h
    · simp only [Option.ite_none_left_eq_some, Option.some.injEq, Prod.mk.injEq] at h
      rw [← h.2.2]
      exact Lexeme.length_first_le c t
    · simp only [Option.ite_none_right_eq_some, Option.some.injEq, Prod.mk.injEq] at h
      rw [← h.2.2]
      exact length_dropWhile_le _ t

/-- Cutting off an index leaves less text. -/
theorem length_splitFirst_lt (finish : Nat) (c : Char) (t : Text) (hc : c ≠ '\n') :
  (splitFirst finish c t).2.length < (c :: t).length
  := by
  rw [splitFirst]
  split
  · rename_i columns rest h
    exact Nat.lt_succ_of_le
      (Nat.le_trans (Settings.length_readGroups_le rest) (length_splitColumns h))
  · exact length_fromLineEnd_lt hc t

/-- The items of a text that ends at `finish`. -/
def readAll (finish : Nat) (t : Text) : List (Except Finding Index) :=
  match _ : skipBlanks t with
  | [] => []
  | c :: u =>
    let first := splitFirst finish c u
    first.1 :: readAll finish first.2
termination_by t.length
decreasing_by
  have h : skipBlanks t = c :: u := by assumption
  have := length_splitFirst_lt finish c u (ne_newline_of_skipBlanks h)
  have := length_skipBlanks_le t
  rw [h] at this
  omega

end Index

end DatabaseMarkup
