import DatabaseMarkup.Unicode.Character

/-!
# Texts

A `Text` is a list of characters.  Places in a text are counted in bytes of its UTF-8 form:
`Text.size` is the number of bytes of a text and `Text.splitAtByte` cuts a text at a byte.  The
other operations cut a text at its lines, at blank characters or at a given mark.  Each of them
returns the parts themselves, so that no operation can leave the text.
-/

namespace DatabaseMarkup

open Unicode

/-- A text is the list of its characters. -/
abbrev Text := List Char

namespace Text

/-! ## Bytes -/

/-- The number of bytes of a text in UTF-8. -/
def size : Text → Nat
  | [] => 0
  | c :: t => c.utf8Size + size t

@[simp]
theorem size_nil :
  size [] = 0
  := rfl

@[simp]
theorem size_cons (c : Char) (t : Text) :
  size (c :: t) = c.utf8Size + size t
  := rfl

@[simp]
theorem size_append (s t : Text) :
  size (s ++ t) = size s + size t
  := by
  induction s with
  | nil => simp
  | cons c s ih => simp [ih, Nat.add_assoc]

/-- The offset at which a text begins that ends at the offset `finish`. -/
def startOf (finish : Nat) (t : Text) : Nat :=
  finish - size t

/-- The bytes of a text in UTF-8. -/
def bytes (t : Text) : List UInt8 :=
  t.flatMap String.utf8EncodeChar

/-- The parts of a text before and after byte `n`.  The cut is moved back to the boundary
between two characters, and to the end of the text. -/
def splitAtByte (n : Nat) : Text → Text × Text
  | [] => ([], [])
  | c :: t =>
    if c.utf8Size ≤ n then
      let (before, after) := splitAtByte (n - c.utf8Size) t
      (c :: before, after)
    else
      ([], c :: t)

/-- The two parts of a cut text make up the text. -/
theorem splitAtByte_append (n : Nat) (t : Text) :
  (splitAtByte n t).1 ++ (splitAtByte n t).2 = t
  := by
  induction t generalizing n with
  | nil => rfl
  | cons c t ih =>
    rw [splitAtByte]
    split
    · simp [ih]
    · rfl

theorem length_splitAtByte_le (n : Nat) (t : Text) :
  (splitAtByte n t).2.length ≤ t.length
  := by
  have h := congrArg List.length (splitAtByte_append n t)
  rw [List.length_append] at h
  omega

/-- The text from byte `n` on, without the rest of a character that `n` lies inside of. -/
def dropBytes (n : Nat) : Text → Text
  | [] => []
  | c :: t => if n = 0 then c :: t else dropBytes (n - c.utf8Size) t

/-- The text from byte `n` on, if `n` is a boundary between two characters. -/
def fromByte? (n : Nat) (t : Text) : Option Text :=
  let (before, after) := splitAtByte n t
  if before.size = n then some after else none

/-! ## Blank characters -/

/-- A text without the blank characters at its start. -/
def trimStart (t : Text) : Text :=
  t.dropWhile isBlank

/-- A text without the blank characters at its end. -/
def trimEnd (t : Text) : Text :=
  (t.reverse.dropWhile isBlank).reverse

/-- A text without the blank characters at either end. -/
def trim (t : Text) : Text :=
  trimEnd (trimStart t)

/-- Whether a text consists of blank characters only. -/
def allBlank (t : Text) : Bool :=
  t.all isBlank

/-- A text without the ASCII blanks at its start. -/
def skipBlanks (t : Text) : Text :=
  t.dropWhile isAsciiBlank

/-- A text without the spaces and tabs at its start. -/
def skipSpaces (t : Text) : Text :=
  t.dropWhile fun c => c = ' ' || c = '\t'

theorem length_dropWhile_le (p : Char → Bool) (t : Text) :
  (t.dropWhile p).length ≤ t.length
  := by
  induction t with
  | nil => simp
  | cons c t ih =>
    rw [List.dropWhile_cons]
    split
    · exact Nat.le_succ_of_le ih
    · exact Nat.le_refl _

theorem length_skipBlanks_le (t : Text) :
  (skipBlanks t).length ≤ t.length
  := length_dropWhile_le _ t

/-- A text without its leading blanks does not begin with one. -/
theorem isAsciiBlank_head_skipBlanks {t u : Text} {c : Char} (h : skipBlanks t = c :: u) :
  isAsciiBlank c = false
  := by
  rw [skipBlanks] at h
  have := List.head?_dropWhile_not isAsciiBlank t
  rw [h] at this
  simpa using this

/-- What follows the blanks is no newline. -/
theorem ne_newline_of_skipBlanks {t u : Text} {c : Char} (h : skipBlanks t = c :: u) :
  c ≠ '\n'
  := by
  rintro rfl
  exact absurd (isAsciiBlank_head_skipBlanks h) (by decide)

/-! ## Pieces -/

/-- The pieces of a text between the characters that satisfy `p`. -/
def splitWhere (p : Char → Bool) : Text → List Text
  | [] => [[]]
  | c :: t =>
    if p c then
      [] :: splitWhere p t
    else
      match splitWhere p t with
      | [] => [[c]]
      | piece :: pieces => (c :: piece) :: pieces

/-- The words of a text, which blank characters separate. -/
def words (t : Text) : List Text :=
  (splitWhere isBlank t).filter fun w => !w.isEmpty

/-- The first line of a text, without its newline. -/
def firstLine (t : Text) : Text :=
  t.takeWhile fun c => c != '\n'

/-- The text from the end of its first line on. -/
def fromLineEnd (t : Text) : Text :=
  t.dropWhile fun c => c != '\n'

/-- The text after its first line and the newline that ends it. -/
def dropLine (t : Text) : Text :=
  (fromLineEnd t).drop 1

theorem length_fromLineEnd_le (t : Text) :
  (fromLineEnd t).length ≤ t.length
  := length_dropWhile_le _ t

theorem length_fromLineEnd_lt {c : Char} (hc : c ≠ '\n') (t : Text) :
  (fromLineEnd (c :: t)).length < (c :: t).length
  := by
  have : (c != '\n') = true := by simpa using hc
  rw [fromLineEnd, List.dropWhile_cons, if_pos this, List.length_cons]
  exact Nat.lt_succ_of_le (length_dropWhile_le _ t)

/-- Dropping a line leaves less text. -/
theorem length_dropLine_lt (c : Char) (t : Text) :
  (dropLine (c :: t)).length < (c :: t).length
  := by
  have := length_fromLineEnd_le (c :: t)
  rw [dropLine, List.length_drop]
  rw [List.length_cons] at this ⊢
  omega

theorem length_dropLine_le (t : Text) :
  (dropLine t).length ≤ t.length
  := by
  have h := length_fromLineEnd_le t
  rw [dropLine, List.length_drop]
  omega

/-- The lines of a text, each with its distance in bytes from `offset`. -/
def linesFrom (offset : Nat) : List Text → List (Nat × Text)
  | [] => []
  | line :: lines => (offset, line) :: linesFrom (offset + size line + 1) lines

/-- The lines of a text that begins at `offset`, each with the offset it begins at. -/
def lines (offset : Nat) (t : Text) : List (Nat × Text) :=
  linesFrom offset (splitWhere (fun c => c == '\n') t)

/-- The parts of a text before and after the first place where `mark` stands. -/
def cutAtMark (mark : Text) : Text → Option (Text × Text)
  | [] => none
  | c :: t =>
    if mark.isPrefixOf (c :: t) then
      some ([], (c :: t).drop mark.length)
    else
      (cutAtMark mark t).map fun (before, after) => (c :: before, after)

/-- Nothing is lost at a cut. -/
theorem eq_append_of_cutAtMark {mark t before after : Text}
    (h : cutAtMark mark t = some (before, after)) :
  t = before ++ mark ++ after
  := by
  induction t generalizing before with
  | nil => simp [cutAtMark] at h
  | cons c t ih =>
    rw [cutAtMark] at h
    split at h
    · rename_i hm
      obtain ⟨u, hu⟩ := List.isPrefixOf_iff_prefix.mp hm
      simp only [Option.some.injEq, Prod.mk.injEq] at h
      rw [← h.1, ← h.2, ← hu, List.nil_append, List.drop_left]
    · simp only [Option.map_eq_some_iff, Prod.mk.injEq, Prod.exists] at h
      obtain ⟨b, a, hb, rfl, rfl⟩ := h
      simp [ih hb]

theorem length_cutAtMark {mark t before after : Text}
    (h : cutAtMark mark t = some (before, after)) :
  after.length ≤ t.length
  := by
  have := congrArg List.length (eq_append_of_cutAtMark h)
  simp only [List.length_append] at this
  omega

end Text

end DatabaseMarkup
