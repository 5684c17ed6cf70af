import DatabaseMarkup.Settings.Basic
import DatabaseMarkup.Text.Unquote

/-!
# Written values

`Value.read` reads the value at the start of a text and returns what follows it.  A value in
triple quotes may span lines and loses the blanks at its ends.  A value in backticks is an
expression, kept as it is written.  A value in other quotes is read with its escapes.  Anything
else is bare and reaches to the end of the line.
-/

namespace DatabaseMarkup

namespace Text

/-- A quoted text with its escapes resolved: a backslash before the quote or another backslash
is dropped, `n` and `t` after one become a newline and a tab, and any other one is kept. -/
def unescape (quote : Char) : Text → Text
  | [] => []
  | c :: t =>
    if c = '\\' then
      match t with
      | [] => [c]
      | d :: u =>
        if d = quote || d = '\\' then d :: unescape quote u
        else if d = 'n' then '\n' :: unescape quote u
        else if d = 't' then '\t' :: unescape quote u
        else c :: d :: unescape quote u
    else
      c :: unescape quote t

end Text

namespace Value

open Text

/-- The bare value at the start of a text, which is its first line. -/
def readBare (t : Text) : Value × Text :=
  (.bare (String.ofList (trim (firstLine t))), fromLineEnd t)

/-- The value at the start of a text and what follows it. -/
def read (t : Text) : Value × Text :=
  if tripleQuote.isPrefixOf t then
    match cutAtMark tripleQuote (t.drop 3) with
    | some (inner, rest) => (.text (String.ofList (trim inner)), rest)
    | none => (.text (String.ofList (trim (t.drop 3))), [])
  else
    match t with
    | [] => readBare []
    | c :: u =>
      if c = backtick then
        match cutAtMark [backtick] u with
        | some (inner, rest) => (.expression (String.ofList inner), rest)
        | none => (.expression (String.ofList (trim u)), [])
      else if isQuote c then
        match closeLine c u with
        | some (inner, rest) => (.text (String.ofList (unescape c inner)), rest)
        | none => readBare (c :: u)
      else
        readBare (c :: u)

theorem length_read_le (t : Text) :
  (read t).2.length ≤ t.length
  := by
  rw [read.eq_def]
  split
  · split
    · rename_i h
      have := length_cutAtMark h
      rw [List.length_drop] at this
      simp only
      omega
    · simp
  · split
    · simp [readBare, fromLineEnd]
    · split
      · split
        · rename_i h
          have := length_cutAtMark h
          simp only [List.length_cons]
          omega
        · simp
      · split
        · split
          · rename_i h
            have := congrArg List.length (closeLine_append h)
            simp only [List.length_append, List.length_cons] at this ⊢
            omega
          · exact length_fromLineEnd_le _
        · exact length_fromLineEnd_le _

end Value

end DatabaseMarkup
