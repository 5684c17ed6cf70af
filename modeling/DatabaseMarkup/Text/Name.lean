import DatabaseMarkup.Text.Lexeme

/-!
# Names and keywords

A name is a run of word characters, or a text between two equal quotes that holds neither that
quote nor a newline; there are no escapes in it.  `Text.splitName?` takes the name at the start
of a text, with its quotes.  `Text.splitKeyword?` takes a given keyword, written in any case.
-/

namespace DatabaseMarkup

open Unicode

namespace Text

/-- The name at the start of a text, with its quotes, and what follows it. -/
def splitName? : Text → Option (Text × Text)
  | [] => none
  | c :: t =>
    if isQuote c then
      match t.takeWhile (fun d => d != c && d != '\n'),
          t.dropWhile (fun d => d != c && d != '\n') with
      | i :: inner, d :: rest => if d = c then some (c :: i :: inner ++ [c], rest) else none
      | _, _ => none
    else if isWord c then
      some (c :: t.takeWhile isWord, t.dropWhile isWord)
    else
      none

/-- Nothing is lost between a name and what follows it. -/
theorem eq_append_of_splitName {t name rest : Text} (h : splitName? t = some (name, rest)) :
  t = name ++ rest
  := by
  match t with
  | [] => simp [splitName?] at h
  | c :: t =>
    rw [splitName?] at h
    split at h
    · split at h
      · rename_i i inner d u hi hd
        split at h
        · rename_i hc
          simp only [Option.some.injEq, Prod.mk.injEq] at h
          have ht := @List.takeWhile_append_dropWhile _ (fun e => e != c && e != '\n') t
          rw [← h.1, ← h.2, ← ht, hi, hd, hc]
          simp
        · simp at h
      · simp at h
    · split at h
      · simp only [Option.some.injEq, Prod.mk.injEq] at h
        rw [← h.1, ← h.2, List.cons_append, List.takeWhile_append_dropWhile]
      · simp at h

theorem length_splitName {t name rest : Text} (h : splitName? t = some (name, rest)) :
  rest.length ≤ t.length
  := by
  rw [eq_append_of_splitName h, List.length_append]
  omega

/-- Whether a character is a spelling of a letter of a keyword, which is given in lower case.
The long s and the Kelvin sign count as the letters that they look like. -/
def spells (letter c : Char) : Bool :=
  c.toLower = letter || (letter = 's' && c.toNat = 0x017F) || (letter = 'k' && c.toNat = 0x212A)

/-- The text after a keyword, which is given in lower case. -/
def splitKeyword? : Text → Text → Option Text
  | [], t => some t
  | _ :: _, [] => none
  | letter :: letters, c :: t => if spells letter c then splitKeyword? letters t else none

/-- Cutting off a keyword leaves as much less text as it is long. -/
theorem length_splitKeyword {keyword t rest : Text} (h : splitKeyword? keyword t = some rest) :
  rest.length + keyword.length = t.length
  := by
  fun_induction splitKeyword? keyword t with
  | case1 => simp_all
  | case2 => simp at h
  | case3 _ _ _ _ _ ih =>
    have := ih h
    simp only [List.length_cons]
    omega
  | case4 => simp at h

/-- The text after the blank characters at its start, of which there is at least one. -/
def splitBlanks? : Text → Option Text
  | [] => none
  | c :: t => if Unicode.isBlank c then some (trimStart t) else none

theorem length_splitBlanks {t rest : Text} (h : splitBlanks? t = some rest) :
  rest.length ≤ t.length
  := by
  match t with
  | [] => simp [splitBlanks?] at h
  | c :: t =>
    simp only [splitBlanks?, Option.ite_none_right_eq_some, Option.some.injEq] at h
    rw [← h.2, List.length_cons]
    exact Nat.le_succ_of_le (length_dropWhile_le _ t)

/-- The text after a character that it must begin with. -/
def splitChar? (expected : Char) : Text → Option Text
  | [] => none
  | c :: t => if c = expected then some t else none

theorem length_splitChar {expected : Char} {t rest : Text}
    (h : splitChar? expected t = some rest) :
  rest.length ≤ t.length
  := by
  match t with
  | [] => simp [splitChar?] at h
  | c :: t =>
    simp only [splitChar?, Option.ite_none_right_eq_some, Option.some.injEq] at h
    rw [← h.2, List.length_cons]
    exact Nat.le_succ _

/-- Whether a text begins with a word character. -/
def beginsWithWord : Text → Bool
  | [] => false
  | c :: _ => isWord c

end Text

end DatabaseMarkup
