import DatabaseMarkup.Table.Body
import Mathlib.Tactic.Common

/-!
# The entries of a body

`TableEntry.Reads` says which entries a text has, part by part: those of a group of columns stand
in the place of the group.  `TableEntry.reads_iff` says that they are what is read.
-/

namespace DatabaseMarkup

open Text

namespace TableEntry

/-- Whether the entries of a text that ends at `finish` are the given ones. -/
inductive Reads : Nat → Text → List TableEntry → Prop
  | blank {finish : Nat} {t : Text} (ht : skipBlanks t = []) : Reads finish t []
  | entries {finish : Nat} {c : Char} {t u rest : Text} {entries more : List TableEntry}
      (ht : skipBlanks t = c :: u)
      (hs : TablePart.splitFirst finish (c :: u) = (.entries entries, rest))
      (hm : Reads finish rest more) :
      Reads finish t (entries ++ more)
  | columns {finish innerFinish : Nat} {c : Char} {t u inner rest : Text}
      {entries more : List TableEntry} (ht : skipBlanks t = c :: u)
      (hs : TablePart.splitFirst finish (c :: u) = (.columns innerFinish inner, rest))
      (hi : Reads innerFinish inner entries) (hm : Reads finish rest more) :
      Reads finish t (entries ++ more)

/-! ## Reading one part after another -/

section

variable {finish : Nat} {c : Char} {t u rest : Text}

theorem readAll_blank (ht : skipBlanks t = []) :
  readAll finish t = []
  := by
  rw [readAll]
  split
  · rfl
  · rename_i h
    rw [h] at ht
    cases ht

/-- A body is read part by part, and the body of a `columns` group is read in its place. -/
theorem readAll_part (ht : skipBlanks t = c :: u) :
  readAll finish t = match TablePart.splitFirst finish (c :: u) with
    | (.entries entries, rest) => entries ++ readAll finish rest
    | (.columns innerFinish inner, rest) => readAll innerFinish inner ++ readAll finish rest
  := by
  rw [readAll]
  split
  · rename_i h
    rw [h] at ht
    cases ht
  · rename_i d v h
    obtain ⟨rfl, rfl⟩ := List.cons.inj (ht.symm.trans h)
    split
    · rename_i hs
      rw [hs]
    · rename_i hs
      rw [hs]

/-- The entries of a part come before those of the text after it. -/
theorem readAll_entries {entries : List TableEntry} (ht : skipBlanks t = c :: u)
    (hs : TablePart.splitFirst finish (c :: u) = (.entries entries, rest)) :
  readAll finish t = entries ++ readAll finish rest
  := by
  rw [readAll_part ht, hs]

/-- The entries of a group of columns come before those of the text after it. -/
theorem readAll_columns {innerFinish : Nat} {inner : Text} (ht : skipBlanks t = c :: u)
    (hs : TablePart.splitFirst finish (c :: u) = (.columns innerFinish inner, rest)) :
  readAll finish t = readAll innerFinish inner ++ readAll finish rest
  := by
  rw [readAll_part ht, hs]

/-- A newline at the start of a body does not matter. -/
theorem readAll_newline (finish : Nat) (t : Text) :
  readAll finish ('\n' :: t) = readAll finish t
  := by
  rw [readAll, readAll]
  rfl

end

/-- The entries that are read are those of the text and no other ones. -/
theorem reads_iff {finish : Nat} {t : Text} {entries : List TableEntry} :
  Reads finish t entries ↔ readAll finish t = entries
  := by
  constructor
  · intro h
    induction h with
    | blank ht => apply readAll_blank ht
    | entries ht hs _ ih => rw [readAll_entries ht hs, ih]
    | columns ht hs _ _ ihInner ih => rw [readAll_columns ht hs, ihInner, ih]
  · rintro rfl
    fun_induction readAll finish t with
    | case1 finish t ht => exact .blank ht
    | case2 finish t c u ht entries rest hs ih => exact .entries ht hs ih
    | case3 finish t c u ht innerFinish inner rest hs ihInner ih =>
      exact .columns ht hs ihInner ih

end TableEntry

end DatabaseMarkup
