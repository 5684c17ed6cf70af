import DatabaseMarkup.Unicode.Age
import DatabaseMarkup.Unicode.Alphabetic
import DatabaseMarkup.Unicode.Mark
import DatabaseMarkup.Unicode.Number

/-!
# Classes of characters

`isBlank` holds of the characters with the property White_Space and `isAsciiBlank` of those of
them that separate declarations.  `isAlphanumeric` and `isWord` are the two classes of letters
and digits: the former admits every number, the latter marks, connectors and joiners, which is
what a bare name is made of, but only characters assigned before Unicode 17.  Both are decided
without the tables on ASCII characters.
-/

namespace DatabaseMarkup.Unicode

/-- The characters with the property White_Space. -/
def isBlank (c : Char) : Bool :=
  let n := c.toNat
  n = 0x20 || (0x09 ≤ n && n ≤ 0x0D) || n = 0x85 || n = 0xA0 || n = 0x1680
    || (0x2000 ≤ n && n ≤ 0x200A) || n = 0x2028 || n = 0x2029 || n = 0x202F || n = 0x205F
    || n = 0x3000

/-- The characters that may stand between declarations: tab, newline, form feed, carriage
return and space. -/
def isAsciiBlank (c : Char) : Bool :=
  let n := c.toNat
  n = 0x20 || n = 0x09 || n = 0x0A || n = 0x0C || n = 0x0D

/-- The letters and digits of ASCII. -/
def isAsciiAlphanumeric (c : Char) : Bool :=
  let n := c.toNat
  (0x30 ≤ n && n ≤ 0x39) || (0x41 ≤ n && n ≤ 0x5A) || (0x61 ≤ n && n ≤ 0x7A)

/-- The characters that are alphabetic or a number of any kind. -/
def isAlphanumeric (c : Char) : Bool :=
  let n := c.toNat
  if n < 0x80 then
    isAsciiAlphanumeric c
  else
    CodeRange.covers alphabetic n || CodeRange.covers decimalNumber n
      || CodeRange.covers otherNumber n

/-- The connector punctuation, of which the underscore is one. -/
def isConnector (c : Char) : Bool :=
  let n := c.toNat
  n = 0x5F || n = 0x203F || n = 0x2040 || n = 0x2054 || n = 0xFE33 || n = 0xFE34
    || (0xFE4D ≤ n && n ≤ 0xFE4F) || n = 0xFF3F

/-- The zero width joiner and non-joiner. -/
def isJoinControl (c : Char) : Bool :=
  c.toNat = 0x200C || c.toNat = 0x200D

/-- The characters of a bare name: alphabetic ones, marks, decimal digits, connectors and join
controls, as far as they were assigned before Unicode 17. -/
def isWord (c : Char) : Bool :=
  let n := c.toNat
  if n < 0x80 then
    isAsciiAlphanumeric c || n = 0x5F
  else
    (CodeRange.covers alphabetic n || CodeRange.covers mark n || CodeRange.covers decimalNumber n
      || isConnector c || isJoinControl c) && !CodeRange.covers assignedSince17 n

theorem isBlank_of_isAsciiBlank {c : Char} (h : isAsciiBlank c) :
  isBlank c
  := by
  simp only [isAsciiBlank, isBlank, Bool.or_eq_true, Bool.and_eq_true, decide_eq_true_eq] at h ⊢
  omega

end DatabaseMarkup.Unicode
