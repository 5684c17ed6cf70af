import DatabaseMarkup.Text.Lexeme

/-!
# Comments

A comment begins with two slashes and reaches to the end of the line, or it stands between
`/*` and `*/`.  `Text.stripComments` writes a space for every byte of a comment but keeps its
newlines, so that all other characters keep their line and their distance in bytes from the
start of the text.  Quoted literals are copied, so that a mark inside of one begins no comment.
-/

namespace DatabaseMarkup

namespace Text

/-- The blanks that a character of a comment leaves behind. -/
def blankOut (c : Char) : Text :=
  if c = '\n' then [c] else List.replicate c.utf8Size ' '

/-- The blanks that a comment leaves behind. -/
def blanked (t : Text) : Text :=
  t.flatMap blankOut

theorem size_blankOut (c : Char) :
  size (blankOut c) = c.utf8Size
  := by
  rw [blankOut]
  split
  · simp
  · have h (n : Nat) : size (List.replicate n ' ') = n := by
      induction n with
      | zero => rfl
      | succ n ih =>
        rw [List.replicate_succ, size_cons, ih, Nat.add_comm]
        rfl
    exact h _

/-- Blanking keeps the size of a text. -/
theorem size_blanked (t : Text) :
  size (blanked t) = size t
  := by
  induction t with
  | nil => rfl
  | cons c t ih =>
    rw [blanked] at ih ⊢
    rw [List.flatMap_cons, size_append, size_blankOut, size_cons, ih]

/-- The comment at the start of a text and what follows it. -/
def splitComment? (t : Text) : Option (Text × Text) :=
  if ['/', '/'].isPrefixOf t then
    some (firstLine t, fromLineEnd t)
  else if ['/', '*'].isPrefixOf t then
    match cutAtMark ['*', '/'] (t.drop 2) with
    | some (inner, rest) => some (['/', '*'] ++ inner ++ ['*', '/'], rest)
    | none => some (t, [])
  else
    none

/-- Cutting off a comment leaves less text. -/
theorem length_splitComment {t comment rest : Text} (h : splitComment? t = some (comment, rest)) :
  rest.length < t.length
  := by
  rw [splitComment?] at h
  match t with
  | [] => simp at h
  | c :: t =>
    split at h
    · rename_i hc
      simp only [Option.some.injEq, Prod.mk.injEq] at h
      obtain ⟨u, hu⟩ := List.isPrefixOf_iff_prefix.mp hc
      obtain rfl : '/' = c := (List.cons.inj hu).1
      rw [← h.2, fromLineEnd, List.dropWhile_cons]
      exact Nat.lt_succ_of_le (length_dropWhile_le _ t)
    · split at h
      · split at h
        · rename_i hm
          simp only [Option.some.injEq, Prod.mk.injEq] at h
          have := length_cutAtMark hm
          rw [← h.2]
          simp only [List.length_drop, List.length_cons] at this ⊢
          omega
        · simp only [Option.some.injEq, Prod.mk.injEq] at h
          simp [← h.2]
      · simp at h

/-- A text with blanks in place of its comments. -/
def stripComments : Text → Text
  | [] => []
  | c :: t =>
    if isQuote c then
      (Lexeme.first c t).1.text ++ stripComments (Lexeme.first c t).2
    else
      match _ : splitComment? (c :: t) with
      | some (comment, rest) => blanked comment ++ stripComments rest
      | none => c :: stripComments t
termination_by t => t.length
decreasing_by
  · have := Lexeme.length_first_le c t
    simp only [List.length_cons]
    omega
  · exact length_splitComment (by assumption)
  · simp

end Text

end DatabaseMarkup
