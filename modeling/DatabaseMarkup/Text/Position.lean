import DatabaseMarkup.Text.Width

/-!
# Lines and columns

`Position.after` is the position at the end of a text: its line counts the newlines and its
column is the width of the last line, both from one.  A `LineIndex` holds the lines of a text
with the offsets they begin at and finds the position of an offset among them.  Nothing but the
columns depends on how wide a text is, so that `Position.afterBy` and `LineIndex.locateBy` take any
measure of width.
-/

namespace DatabaseMarkup

/-- A line and a display column, both counted from one. -/
structure Position where
  line : Nat
  column : Nat
  deriving DecidableEq, Repr

/-- The last line of a text. -/
def Text.lastLine (t : Text) : Text :=
  (t.reverse.takeWhile fun c => c != '\n').reverse

/-- The position at the end of a text, by a measure of width. -/
def Position.afterBy (width : Text → Nat) (t : Text) : Position where
  line := 1 + t.count '\n'
  column := 1 + width (Text.lastLine t)

/-- The position at the end of a text. -/
def Position.after (t : Text) : Position :=
  afterBy Text.displayWidth t

/-- The lines of a text with their offsets. -/
structure LineIndex where
  lines : List (Nat × Text)

namespace LineIndex

/-- The index of a text. -/
def ofText (t : Text) : LineIndex where
  lines := Text.lines 0 t

/-- The position of an offset among lines of which the first one has the number `line`. -/
def locateFrom (width : Text → Nat) (line : Nat) (offset : Nat) : List (Nat × Text) → Position
  | [] => ⟨line, 1⟩
  | [(start, t)] => ⟨line, 1 + width (Text.splitAtByte (offset - start) t).1⟩
  | (start, t) :: (next, u) :: rest =>
    if offset < next then
      ⟨line, 1 + width (Text.splitAtByte (offset - start) t).1⟩
    else
      locateFrom width (line + 1) offset ((next, u) :: rest)

/-- The position of an offset, by a measure of width.  An offset inside a character has the position
of the character, and one beyond the text that of the end of the text. -/
def locateBy (width : Text → Nat) (index : LineIndex) (offset : Nat) : Position :=
  locateFrom width 1 offset index.lines

/-- The position of an offset. -/
def locate (index : LineIndex) (offset : Nat) : Position :=
  index.locateBy Text.displayWidth offset

end LineIndex

end DatabaseMarkup
