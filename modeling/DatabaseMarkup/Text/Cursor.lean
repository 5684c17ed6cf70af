import DatabaseMarkup.Text.Basic

/-!
# Cursors

A `Cursor` reads a text from front to back.  Its position is a number of bytes that never
exceeds the size of the text.
-/

namespace DatabaseMarkup

/-- A position in a text. -/
structure Cursor where
  source : Text
  position : Nat
  position_le : position ≤ source.size

namespace Cursor

/-- The cursor at the start of a text. -/
def start (source : Text) : Cursor :=
  ⟨source, 0, Nat.zero_le _⟩

/-- The cursor at byte `n` of its text, or at the end of the text. -/
def moveTo (cursor : Cursor) (n : Nat) : Cursor :=
  ⟨cursor.source, min n cursor.source.size, Nat.min_le_right _ _⟩

/-- Whether a cursor is at the end of its text. -/
def atEnd (cursor : Cursor) : Bool :=
  cursor.source.size ≤ cursor.position

/-- The byte at the position of a cursor. -/
def peek? (cursor : Cursor) : Option UInt8 :=
  cursor.source.bytes[cursor.position]?

/-- The text from the position of a cursor on. -/
def rest (cursor : Cursor) : Text :=
  (Text.splitAtByte cursor.position cursor.source).2

/-- Whether the position of a cursor lies between two characters. -/
def onBoundary (cursor : Cursor) : Bool :=
  (Text.fromByte? cursor.position cursor.source).isSome

/-- The offset of the next newline, or of the end of the text. -/
def lineEnd (cursor : Cursor) : Nat :=
  cursor.position + (Text.firstLine cursor.rest).size

/-- The cursor after the current line and its newline. -/
def skipLine (cursor : Cursor) : Cursor :=
  cursor.moveTo (cursor.lineEnd + 1)

/-- The rest of the current line, without its newline, and the cursor after it. -/
def takeLine (cursor : Cursor) : Text × Cursor :=
  (Text.firstLine cursor.rest, cursor.skipLine)

/-- The cursor after the ASCII blanks that begin at its position. -/
def skipBlanks (cursor : Cursor) : Cursor :=
  cursor.moveTo (cursor.position + Text.size (cursor.rest.takeWhile Unicode.isAsciiBlank))

end Cursor

end DatabaseMarkup
