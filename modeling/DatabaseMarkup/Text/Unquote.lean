import DatabaseMarkup.Text.Delimiter

/-!
# Quotes around a text

`Text.unquote` takes one pair of quotes off a text, and `Text.unquoteBlock` takes three
apostrophes off either end where it can.  `Text.splitPath` splits a dotted path, such as a
schema with a table, into parts without quotes.
-/

namespace DatabaseMarkup

namespace Text

/-- A text without blanks at its ends and without the pair of equal quotes around it. -/
def unquote (t : Text) : Text :=
  match trim t with
  | [] => []
  | [c] => [c]
  | c :: d :: t =>
    if isQuote c && (d :: t).getLast? = some c then (d :: t).dropLast else c :: d :: t

/-- A text without blanks at its ends and without the quotes around it, which may be three
apostrophes on either side; the text between these loses the blanks at its ends too. -/
def unquoteBlock (t : Text) : Text :=
  let trimmed := trim t
  if 6 ≤ trimmed.length && tripleQuote.isPrefixOf trimmed && tripleQuote.isSuffixOf trimmed then
    trim ((trimmed.drop 3).take (trimmed.length - 6))
  else
    unquote trimmed

/-- The parts of a dotted path, without quotes. -/
def splitPath (t : Text) : List Text :=
  (splitTopLevel '.' t).map unquote

end Text

end DatabaseMarkup
