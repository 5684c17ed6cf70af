import DatabaseMarkup.Diagnostic.Problem
import DatabaseMarkup.Settings.Value
import DatabaseMarkup.Text.Name

/-!
# Notes in a body

The body of a block may hold a note, written as `Note: value` or as `Note { value }`.
`Note.split?` recognises both.  The former takes the rest of its line with it.
-/

namespace DatabaseMarkup

open Text

namespace Note

/-- The note at the start of a text that ends at `finish`, or the problem with it, and the text
after the note. -/
def split? (finish : Nat) (t : Text) : Option (Except Finding String × Text) :=
  match splitKeyword? ['n', 'o', 't', 'e'] t with
  | none => none
  | some rest =>
    match trimStart rest with
    | [] => none
    | c :: rest =>
      if c = ':' then
        let (value, rest) := Value.read (skipSpaces rest)
        some (.ok value.content, dropLine rest)
      else if c = '{' then
        match splitGroup? (c :: rest) with
        | some (inner, rest) => some (.ok (String.ofList (unquoteBlock inner)), rest)
        | none => some (.error (.placed (startOf finish t) .unclosedNote), dropLine t)
      else
        none

/-- Reading a note leaves less text. -/
theorem length_split_lt {finish : Nat} {t rest : Text} {note : Except Finding String}
    (h : split? finish t = some (note, rest)) :
  rest.length < t.length
  := by
  rw [split?] at h
  split at h
  · simp at h
  · rename_i u hu
    have hu := length_splitKeyword hu
    have ht : (trimStart u).length ≤ u.length := length_dropWhile_le _ u
    simp only [List.length_cons, List.length_nil] at hu
    split at h
    · simp at h
    · rename_i c v hv
      rw [hv, List.length_cons] at ht
      split at h
      · simp only [Option.some.injEq, Prod.mk.injEq] at h
        have := Value.length_read_le (skipSpaces v)
        have : (skipSpaces v).length ≤ v.length := length_dropWhile_le _ v
        have := length_dropLine_le (Value.read (skipSpaces v)).2
        rw [← h.2]
        omega
      · split at h
        · split at h
          · rename_i hg
            have := length_splitGroup hg
            simp only [Option.some.injEq, Prod.mk.injEq] at h
            rw [List.length_cons] at this
            rw [← h.2]
            omega
          · simp only [Option.some.injEq, Prod.mk.injEq] at h
            rw [← h.2]
            cases t with
            | nil => simp at hu
            | cons d t => exact length_dropLine_lt d t
        · simp at h

end Note

end DatabaseMarkup
