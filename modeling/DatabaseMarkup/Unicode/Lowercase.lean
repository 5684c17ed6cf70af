import DatabaseMarkup.Unicode.CaseContext
import DatabaseMarkup.Unicode.CaseRun

/-!
# Lower case

`lowercase` writes a text in lower case.  Every character is mapped on its own, except that
U+0130 becomes two characters and that a capital sigma at the end of a word takes its final
form.
-/

namespace DatabaseMarkup.Unicode

/-- Whether a text begins, after its case-ignorable characters, with a cased one. -/
def beginsCased (t : List Char) : Bool :=
  match t.dropWhile fun c => CodeRange.covers caseIgnorable c.toNat with
  | [] => false
  | c :: _ => CodeRange.covers cased c.toNat

/-- The lower-case form of a character that does not depend on its neighbours. -/
def lowerChar (c : Char) : Char :=
  if c.toNat < 0x80 then
    c.toLower
  else
    match lowerRuns.findSome? fun r => r.lower? c.toNat with
    | some n => Char.ofNat n
    | none => c

/-- The lower-case form of a character between the text before it, read backwards, and the
text after it. -/
def lowerBetween (before : List Char) (c : Char) (after : List Char) : List Char :=
  if c.toNat = 0x0130 then
    [Char.ofNat 0x69, Char.ofNat 0x0307]
  else if c.toNat = 0x03A3 && beginsCased before && !beginsCased after then
    [Char.ofNat 0x03C2]
  else
    [lowerChar c]

/-- The lower-case form of a text that stands after another one, which is given backwards. -/
def lowercaseAfter (before : List Char) : List Char → List Char
  | [] => []
  | c :: t => lowerBetween before c t ++ lowercaseAfter (c :: before) t

/-- The lower-case form of a text. -/
def lowercase (t : List Char) : List Char :=
  lowercaseAfter [] t

end DatabaseMarkup.Unicode
