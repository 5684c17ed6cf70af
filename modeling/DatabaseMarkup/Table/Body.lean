import DatabaseMarkup.Block.Note
import DatabaseMarkup.Table.Column
import DatabaseMarkup.Table.Index

/-!
# Bodies of tables and partials

`TableEntry.readAll` reads the body of a table or a partial as a list of entries in the order in
which they are written: columns, indexes, notes, injections of partials, and problems.  A group
`columns { … }` stands for the entries inside of it and a group `indexes { … }` for the indexes
inside of it; any other group is skipped.

Reading a body needs no partial.  What an injection stands for is the matter of
`DatabaseMarkup.Table.Injection`.
-/

namespace DatabaseMarkup

open Text

/-- What a part of a body says about its table. -/
inductive TableEntry where
  | column (column : Column)
  | index (index : Index)
  | note (text : String)
  | injection (name : String) (offset : Nat)
  | problem (finding : Finding)
  deriving DecidableEq, Repr

/-- A part of a body: its entries, or a group of columns with the text inside of it and the offset
at which that text ends. -/
inductive TablePart where
  | entries (entries : List TableEntry)
  | columns (finish : Nat) (inner : Text)
  deriving DecidableEq, Repr

namespace TableEntry

/-- The entry that a note stands for. -/
def ofNote : Except Finding String → TableEntry
  | .ok text => note text
  | .error finding => problem finding

/-- The entry that an index stands for. -/
def ofIndex : Except Finding Index → TableEntry
  | .ok i => .index i
  | .error finding => problem finding

/-- The name of the partial that a line injects. -/
def injectedName? : Text → Option Text
  | [] => none
  | c :: t =>
    if c = '~' then
      match splitName? t with
      | some (name, rest) => if rest.isEmpty then some (unquote name) else none
      | none => none
    else
      none

/-- The entry that the first line of a text stands for.  The text ends at `finish`. -/
def ofFirstLine (finish : Nat) (t : Text) : TableEntry :=
  let line := trim (firstLine t)
  match injectedName? line with
  | some name => injection (String.ofList name) (startOf finish t)
  | none =>
    match Column.read? line with
    | some c => .column c
    | none => problem (.placed (startOf finish t) (.malformedLine .column line))

end TableEntry

namespace TablePart

/-- The word that begins a group, and the text from the opening brace of the group on. -/
def groupWord? (t : Text) : Option (Text × Text) :=
  let word := t.takeWhile Unicode.isWord
  let tail := trimStart (t.dropWhile Unicode.isWord)
  if !word.isEmpty && tail.head? = some '{' then some (word, tail) else none

/-- The part that a group with the given word stands for.  The text inside of it ends before
`rest`, which ends at `finish`, and the whole group begins with `t`. -/
def ofGroup (finish : Nat) (t word inner rest : Text) : TablePart :=
  if splitKeyword? ['i', 'n', 'd', 'e', 'x', 'e', 's'] word = some [] then
    .entries ((Index.readAll (startOf finish rest - 1) inner).map TableEntry.ofIndex)
  else if splitKeyword? ['c', 'o', 'l', 'u', 'm', 'n', 's'] word = some [] then
    .columns (startOf finish rest - 1) inner
  else
    .entries [.problem (.placed (startOf finish t) (.unknownSection word))]

/-- The part at the start of a text that ends at `finish`, and the text after it.  The text does
not begin with a blank. -/
def splitFirst (finish : Nat) (t : Text) : TablePart × Text :=
  match Note.split? finish t with
  | some (note, rest) => (.entries [.ofNote note], rest)
  | none =>
    match groupWord? t with
    | some (word, tail) =>
      match splitGroup? tail with
      | some (inner, rest) =>
        (ofGroup finish t word inner rest, rest)
      | none => (.entries [.problem (.placed (startOf finish t) .unclosedGroup)], dropLine t)
    | none => (.entries [.ofFirstLine finish t], dropLine t)

theorem length_groupWord {t word tail : Text} (h : groupWord? t = some (word, tail)) :
  tail.length ≤ t.length
  := by
  simp only [groupWord?, Option.ite_none_right_eq_some, Option.some.injEq, Prod.mk.injEq] at h
  rw [← h.2.2]
  exact Nat.le_trans (length_dropWhile_le _ _) (length_dropWhile_le _ t)

/-- Cutting off a part of a body leaves less text. -/
theorem length_splitFirst_lt (finish : Nat) (c : Char) (t : Text) :
  (splitFirst finish (c :: t)).2.length < (c :: t).length
  := by
  rw [splitFirst]
  split
  · rename_i h
    exact Note.length_split_lt h
  · split
    · rename_i h
      have := length_groupWord h
      split
      · rename_i hg
        have := length_splitGroup hg
        dsimp only
        omega
      · exact length_dropLine_lt c t
    · exact length_dropLine_lt c t

/-- The body of a `columns` group is shorter than the text that it is cut from. -/
theorem length_columns_lt {finish innerFinish : Nat} {t inner rest : Text}
    (h : splitFirst finish t = (.columns innerFinish inner, rest)) :
  inner.length < t.length
  := by
  rw [splitFirst] at h
  split at h
  · simp at h
  · split at h
    · rename_i hw
      have := length_groupWord hw
      split at h
      · rename_i hg
        have := length_splitGroup hg
        simp only [ofGroup, Prod.mk.injEq] at h
        obtain ⟨h, _⟩ := h
        split at h
        · simp at h
        · split at h
          · simp only [columns.injEq] at h
            rw [← h.2]
            omega
          · simp at h
      · simp at h
    · simp at h

end TablePart

namespace TableEntry

/-- The entries of a body that ends at `finish`. -/
def readAll (finish : Nat) (t : Text) : List TableEntry :=
  match _ : skipBlanks t with
  | [] => []
  | c :: u =>
    match _ : TablePart.splitFirst finish (c :: u) with
    | (.entries entries, rest) => entries ++ readAll finish rest
    | (.columns innerFinish inner, rest) => readAll innerFinish inner ++ readAll finish rest
termination_by t.length
decreasing_by
  all_goals
    have hb := length_skipBlanks_le t
    have ht : skipBlanks t = c :: u := by assumption
    rw [ht] at hb
    have := TablePart.length_splitFirst_lt finish c u
  · have hs : TablePart.splitFirst finish (c :: u) = (.entries entries, rest) := by assumption
    rw [hs] at this
    dsimp only at this
    omega
  · have := TablePart.length_columns_lt (by assumption)
    omega
  · have hs : TablePart.splitFirst finish (c :: u) = (.columns innerFinish inner, rest) := by
      assumption
    rw [hs] at this
    dsimp only at this
    omega

end TableEntry

end DatabaseMarkup
