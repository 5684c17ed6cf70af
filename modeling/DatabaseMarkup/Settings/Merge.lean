import DatabaseMarkup.Settings.Basic
import DatabaseMarkup.Unicode.Lowercase

/-!
# Merging settings

A `MergePolicy` decides what happens when the settings of a partial meet those of the table
that it is injected into.  `MergePolicy.merge` adds the attributes of the partial one by one.
-/

namespace DatabaseMarkup

/-- The side whose attributes are kept where a partial and its table set the same slot. -/
inductive MergePolicy where
  | tableWins
  | partialWins
  deriving DecidableEq, Repr

namespace MergePolicy

/-- The policy of a given name.  Case does not matter, nor does the choice between hyphen and
underscore. -/
def ofName? (name : String) : Option MergePolicy :=
  let folded := String.ofList <|
    (Unicode.lowercase name.toList).map fun c => if c = '_' then '-' else c
  if folded = "table-wins" || folded = "table" then some tableWins
  else if folded = "partial-wins" || folded = "partial" then some partialWins
  else none

/-- The settings of a table with an attribute of a partial added. -/
def insert (policy : MergePolicy) (settings : Settings) (a : Attribute) : Settings :=
  match policy with
  | tableWins => settings.insertMissing a
  | partialWins => settings.insertReplacing a

/-- The settings of a table with those of a partial added. -/
def merge (policy : MergePolicy) (settings injected : Settings) : Settings :=
  injected.foldl policy.insert settings

end MergePolicy

end DatabaseMarkup
