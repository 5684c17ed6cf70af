import DatabaseMarkup.Diagnostic.Problem
import DatabaseMarkup.Proofs.Checked.Basic
import DatabaseMarkup.Proofs.Text.Position

/-!
# Checked lines

The body of an enum and that of a block of references are read line by line.  `Checked.readLines`
takes the lines off a body one after another and reads each of them that is not blank.
-/

namespace DatabaseMarkup

namespace Text

/-- The lines of a text that are not blank, with their offsets. -/
def visibleLines (offset : Nat) (t : Text) : List (Nat × Text) :=
  (lines offset t).filter fun (_, line) => !allBlank line

theorem visibleLines_nil (offset : Nat) :
  visibleLines offset [] = []
  := rfl

/-- The lines of a text are its first line and those behind it. -/
theorem visibleLines_eq (offset : Nat) (t : Text) :
  visibleLines offset t
    = (if allBlank (firstLine t) then [] else [(offset, firstLine t)])
      ++ visibleLines (offset + (size t - size (dropLine t))) (dropLine t)
  := by
  rcases eq_firstLine_or t with ht | ⟨l, u, hl, rfl⟩
  · have hf := firstLine_append ht (.inl rfl)
    have he := fromLineEnd_append ht (.inl rfl)
    rw [List.append_nil] at hf he
    rw [visibleLines, lines, splitWhere_eq_singleton (beq_newline_of_notMem ht), hf, dropLine, he]
    exact filter_visible offset t []
  · have hd : dropLine (l ++ '\n' :: u) = u := by
      rw [dropLine, fromLineEnd_append hl (.inr ⟨u, rfl⟩)]
      rfl
    have hs : size (l ++ '\n' :: u) - size u = size l + 1 := by
      have hn : ('\n' : Char).utf8Size = 1 := rfl
      rw [size_append, size_cons, hn, ← Nat.add_assoc, Nat.add_sub_cancel]
    rw [visibleLines, lines, splitWhere_append_cons (beq_newline_of_notMem hl) rfl,
      firstLine_append hl (.inr ⟨u, rfl⟩), hd, hs, linesFrom, filter_visible, ← Nat.add_assoc]
    rfl

end Text

namespace Checked

open Text

section

variable {α : Type} (read : Text → Checked (Option α)) (form : LineForm)

/-- What a line at an offset is read as, or the problem with the line. -/
def readLine (offset : Nat) (line : Text) : Checked (Except Finding α) := do
  let line := trim line
  match ← read line with
  | some a => return .ok a
  | none => return .error (.placed offset (.malformedLine form line))

/-- A step of the reading of lines. -/
def lineStep (t : Text) (offset p : Nat) : Checked (Option (List (Except Finding α) × Nat)) :=
  if size t ≤ p then
    return none
  else do
    let (line, next) ← takeLine t p
    if allBlank line then
      return some ([], next)
    else
      let result ← readLine read form (offset + p) line
      return some ([result], next)

/-- What the lines of a text that begins at an offset are read as. -/
def readLines (t : Text) (offset : Nat) : Checked (List (Except Finding α)) :=
  gather (size t) (lineStep read form t offset) 0

variable {read} {form} {result : Nat → Text → Except Finding α}

/-- Reading line by line by offsets gives the result of every visible line, at the offset of the
line. -/
theorem gather_lineStep (h : ∀ o line, readLine read form o line = .ok (result o line))
    {text t : Text} {p : Nat} (ht : At text p t) (offset : Nat) :
  gather (size text) (lineStep read form text offset) p
    = .ok ((visibleLines (offset + p) t).map fun (o, line) => result o line)
  := by
  by_cases hn : t = []
  · subst hn
    rw [visibleLines_nil]
    exact gather_done (if_pos ht.size_le)
  · obtain ⟨c, u, rfl⟩ := List.exists_cons_of_ne_nil hn
    obtain ⟨q, hq, hl⟩ := ht.takeLine
    have hq' := ht.suffix (s := dropLine (c :: u)) (dropLine_suffix _)
    have hlt := length_dropLine_lt c u
    have ih := gather_lineStep h hq offset
    have hs : lineStep read form text offset p = _ := if_neg (Nat.not_le.mpr ht.lt_size)
    rw [hl, ok_bind] at hs
    rw [visibleLines_eq, List.map_append, Nat.add_assoc, ← hq.unique hq']
    apply gather_next ht hq hlt _ ih
    rw [hs]
    dsimp only
    split
    · rfl
    · rw [h]
      rfl
termination_by t.length

/-- All lines are read, each with the offset that it begins at. -/
theorem readLines_eq (h : ∀ o line, readLine read form o line = .ok (result o line)) (t : Text)
    (offset : Nat) :
  readLines read form t offset
    = .ok ((visibleLines offset t).map fun (o, line) => result o line)
  := gather_lineStep h (at_zero t) offset

end

end Checked

end DatabaseMarkup
