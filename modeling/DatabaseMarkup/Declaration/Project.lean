import DatabaseMarkup.Diagnostic.Problem
import DatabaseMarkup.Settings.Reader

/-!
# Projects

The body of a project is a list of settings: lines `key: value`, groups `key { text }`, and
lines that are flags.
-/

namespace DatabaseMarkup

open Text

/-- A project. -/
structure Project where
  name : String
  databaseType : Option String
  settings : Settings
  note : Option String
  deriving DecidableEq, Repr

namespace Project

/-- Whether a character belongs to the key of a setting. -/
def isKeyChar (c : Char) : Bool :=
  Unicode.isAlphanumeric c || c = '_'

/-- The flag that a line stands for. -/
def flagOf (line : Text) : Attribute :=
  .flag (normalName line)

/-- The setting at the start of a text that ends at `finish`, or the problem with it, and the
text after it.  The text does not begin with a blank. -/
def splitFirst (finish : Nat) (t : Text) : Except Finding Attribute × Text :=
  let key := t.takeWhile isKeyChar
  let tail := skipSpaces (t.dropWhile isKeyChar)
  if key.isEmpty then
    (.ok (flagOf (firstLine t)), dropLine t)
  else if tail.head? = some ':' then
    let (value, rest) := Value.read (skipSpaces (tail.drop 1))
    (.ok (.pair (normalName key) value), dropLine rest)
  else if tail.head? = some '{' then
    match splitGroup? tail with
    | some (inner, rest) =>
      (.ok (.pair (normalName key) (.text (String.ofList (unquoteBlock inner)))), rest)
    | none => (.error (.placed (startOf finish t) .unclosedGroup), dropLine t)
  else
    (.ok (flagOf (firstLine t)), dropLine t)

/-- Cutting off a setting leaves less text. -/
theorem length_splitFirst_lt (finish : Nat) (c : Char) (t : Text) :
  (splitFirst finish (c :: t)).2.length < (c :: t).length
  := by
  rw [splitFirst]
  have hk := length_dropWhile_le isKeyChar (c :: t)
  have hs : (skipSpaces ((c :: t).dropWhile isKeyChar)).length
      ≤ ((c :: t).dropWhile isKeyChar).length := length_dropWhile_le _ _
  dsimp only
  split
  · exact length_dropLine_lt c t
  · split
    · rename_i h
      generalize skipSpaces ((c :: t).dropWhile isKeyChar) = tail at h hs
      match tail with
      | [] => simp at h
      | d :: u =>
        have := length_dropLine_le (Value.read (skipSpaces ((d :: u).drop 1))).2
        have := Value.length_read_le (skipSpaces ((d :: u).drop 1))
        have : (skipSpaces ((d :: u).drop 1)).length ≤ u.length := length_dropWhile_le _ u
        rw [List.length_cons] at hs
        dsimp only
        omega
    · split
      · split
        · rename_i hg
          have := length_splitGroup hg
          dsimp only
          omega
        · exact length_dropLine_lt c t
      · exact length_dropLine_lt c t

/-- The settings in a body that ends at `finish`. -/
def readAll (finish : Nat) (t : Text) : List (Except Finding Attribute) :=
  match _ : skipBlanks t with
  | [] => []
  | c :: u =>
    let first := splitFirst finish (c :: u)
    first.1 :: readAll finish first.2
termination_by t.length
decreasing_by
  have h : skipBlanks t = c :: u := by assumption
  have := length_splitFirst_lt finish c u
  have := length_skipBlanks_le t
  rw [h] at this
  omega

/-- The settings in the body of a block. -/
def entries (block : Block) : List (Except Finding Attribute) :=
  readAll block.finish block.body

/-- The project that a block declares. -/
def ofBlock (block : Block) : Project :=
  let settings := block.settings ++ Finding.successes (entries block)
  { name := block.nameText
    databaseType := settings.getText? "database_type"
    settings
    note := settings.getText? "note" }

end Project

end DatabaseMarkup
