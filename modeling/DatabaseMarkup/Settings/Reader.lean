import DatabaseMarkup.Settings.Value
import DatabaseMarkup.Unicode.Lowercase

/-!
# Bracket groups

Settings are written as items between brackets, separated by commas: `[pk, note: 'x']`.
`Settings.readList` reads the inside of one group and `Settings.readGroups` all groups at the
start of a text.  Names of flags and keys are kept in the form that `Text.normalize` gives
them, so that they can be looked up whatever their spelling.
-/

namespace DatabaseMarkup

namespace Text

/-- The words of a text in lower case with single spaces between them. -/
def normalize (t : Text) : Text :=
  Unicode.lowercase ((words t).intersperse [' ']).flatten

/-- The normal form of a text as a name. -/
def normalName (t : Text) : String :=
  String.ofList (normalize t)

/-- Whether a text can be a key: letters, digits, underscores, spaces and tabs. -/
def isKey (t : Text) : Bool :=
  !t.isEmpty && t.all fun c => Unicode.isAlphanumeric c || c = '_' || c = ' ' || c = '\t'

end Text

namespace Settings

open Text

/-- The attribute that an item of a group stands for, and `none` for a blank item.  An item is
a pair if it has a colon outside of literals and parentheses and a key before it. -/
def readItem? (item : Text) : Option Attribute :=
  let item := trim item
  if item.isEmpty then
    none
  else
    match cutAtUnquoted ':' item with
    | some (before, after) =>
      if isKey (trim before) then
        some (.pair (normalName before) (Value.read (trimStart (after.drop 1))).1)
      else
        some (.flag (normalName item))
    | none => some (.flag (normalName item))

/-- The settings between the brackets of one group. -/
def readList (t : Text) : Settings :=
  (splitTopLevel ',' t).filterMap readItem?

/-- The settings of all groups at the start of a text, and the text after the last group.  A
group that is never closed reaches to the end of the text. -/
def readGroups (t : Text) : Settings × Text :=
  if (skipBlanks t).head? = some '[' then
    match _ : splitGroup? (skipBlanks t) with
    | some (inner, rest) =>
      let (settings, rest) := readGroups rest
      (readList inner ++ settings, rest)
    | none => (readList ((skipBlanks t).drop 1), [])
  else
    ([], t)
termination_by t.length
decreasing_by
  have := length_splitGroup (by assumption)
  have := length_skipBlanks_le t
  omega

theorem length_readGroups_le (t : Text) :
  (readGroups t).2.length ≤ t.length
  := by
  fun_induction readGroups t with
  | case1 t _ _ _ h _ _ hr ih =>
    have := length_splitGroup h
    have := length_skipBlanks_le t
    rw [hr] at ih
    simp only at ih ⊢
    omega
  | case2 => simp
  | case3 => exact Nat.le_refl _

end Settings

end DatabaseMarkup
