import DatabaseMarkup.Text.Basic

/-!
# Lexemes

Delimiters count only outside of quoted literals.  `lexemes` cuts a text from left to right
into quoted literals, each of which is stepped over as a whole, and plain characters.

A literal that opens with three apostrophes reaches to the next three and may span lines.  Any
other literal ends on the line it begins on: `closeLine` finds its closing quote, where a
backslash protects the character after it, except between backticks.  A quote without a
partner stands for itself.
-/

namespace DatabaseMarkup

/-! ## Quotes -/

/-- The single quote. -/
abbrev apostrophe : Char := '\x27'

/-- The double quote. -/
abbrev quotationMark : Char := '\x22'

/-- The quote of expressions. -/
abbrev backtick : Char := '\x60'

/-- The three apostrophes around a literal that may span lines. -/
abbrev tripleQuote : Text := [apostrophe, apostrophe, apostrophe]

/-- Whether a character is one of the three quotes. -/
def isQuote (c : Char) : Bool :=
  c = apostrophe || c = quotationMark || c = backtick

namespace Text

/-- The parts of a text before and after the quote that closes a literal opened by `quote`
right before the text.  There is none when the line or the text ends first. -/
def closeLine (quote : Char) : Text → Option (Text × Text)
  | [] => none
  | c :: t =>
    if c = '\n' then
      none
    else if c = '\\' && quote != backtick then
      match t with
      | [] => none
      | d :: u => (closeLine quote u).map fun (inner, rest) => (c :: d :: inner, rest)
    else if c = quote then
      some ([], t)
    else
      (closeLine quote t).map fun (inner, rest) => (c :: inner, rest)

/-- A literal on a line is its inside, its closing quote and what follows. -/
theorem closeLine_append {quote : Char} {t inner rest : Text}
    (h : closeLine quote t = some (inner, rest)) :
  t = inner ++ quote :: rest
  := by
  fun_induction closeLine quote t generalizing inner with
  | case1 => simp at h
  | case2 => simp at h
  | case3 => simp at h
  | case4 c _ _ d u ih =>
    simp only [Option.map_eq_some_iff, Prod.mk.injEq, Prod.exists] at h
    obtain ⟨i, r, hi, rfl, rfl⟩ := h
    simp [ih hi]
  | case5 =>
    simp only [Option.some.injEq, Prod.mk.injEq] at h
    obtain ⟨rfl, rfl⟩ := h
    simp
  | case6 c t _ _ _ ih =>
    simp only [Option.map_eq_some_iff, Prod.mk.injEq, Prod.exists] at h
    obtain ⟨i, r, hi, rfl, rfl⟩ := h
    simp [ih hi]

end Text

/-! ## Lexemes -/

/-- A lexeme is a quoted literal, given by its opening quote and the text from there to its
end, or a plain character.  A quote without a partner is a literal that ends where it opens. -/
inductive Lexeme where
  | quoted (quote : Char) (tail : Text)
  | plain (c : Char)
  deriving DecidableEq, Repr

namespace Lexeme

/-- The text of a lexeme. -/
def text : Lexeme → Text
  | quoted quote tail => quote :: tail
  | plain c => [c]

/-- The first character of a lexeme. -/
def head : Lexeme → Char
  | quoted quote _ => quote
  | plain c => c

/-- The first lexeme of the text `c :: t` and what follows it. -/
def first (c : Char) (t : Text) : Lexeme × Text :=
  if c = apostrophe && [apostrophe, apostrophe].isPrefixOf t then
    match Text.cutAtMark tripleQuote (t.drop 2) with
    | some (inner, rest) =>
      (quoted c ([apostrophe, apostrophe] ++ inner ++ tripleQuote), rest)
    | none => (quoted c [apostrophe, apostrophe], t.drop 2)
  else if isQuote c then
    match Text.closeLine c t with
    | some (inner, rest) => (quoted c (inner ++ [c]), rest)
    | none => (quoted c [], t)
  else
    (plain c, t)

/-- Nothing is lost between a lexeme and what follows it. -/
theorem text_first_append (c : Char) (t : Text) :
  (first c t).1.text ++ (first c t).2 = c :: t
  := by
  rw [first]
  split
  · rename_i hp
    rw [Bool.and_eq_true] at hp
    obtain ⟨u, rfl⟩ := List.isPrefixOf_iff_prefix.mp hp.2
    split
    · rename_i h
      have := Text.eq_append_of_cutAtMark h
      simp only [List.cons_append, List.nil_append, List.drop_succ_cons, List.drop_zero] at this
      simp [text, this]
    · simp [text]
  · split
    · split
      · rename_i h
        simp [text, Text.closeLine_append h]
      · rfl
    · rfl

/-- Cutting off a lexeme leaves no more text than stands behind its first character. -/
theorem length_first_le (c : Char) (t : Text) :
  (first c t).2.length ≤ t.length
  := by
  have h := congrArg List.length (text_first_append c t)
  have : 1 ≤ (first c t).1.text.length := by
    cases (first c t).1 <;> simp [text]
  simp only [List.length_append, List.length_cons] at h
  omega

end Lexeme

namespace Text

/-- The lexemes of a text. -/
def lexemes : Text → List Lexeme
  | [] => []
  | c :: t => (Lexeme.first c t).1 :: lexemes (Lexeme.first c t).2
termination_by t => t.length
decreasing_by
  have := Lexeme.length_first_le c t
  simp only [List.length_cons]
  omega

/-- The text that a list of lexemes was cut from. -/
def ofLexemes (ls : List Lexeme) : Text :=
  ls.flatMap Lexeme.text

@[simp]
theorem ofLexemes_nil :
  ofLexemes [] = []
  := rfl

@[simp]
theorem ofLexemes_cons (l : Lexeme) (ls : List Lexeme) :
  ofLexemes (l :: ls) = l.text ++ ofLexemes ls
  := rfl

/-- The lexemes of a text make up the text. -/
theorem ofLexemes_lexemes (t : Text) :
  ofLexemes (lexemes t) = t
  := by
  fun_induction lexemes t with
  | case1 => rfl
  | case2 c t ih => rw [ofLexemes_cons, ih, Lexeme.text_first_append]

end Text

end DatabaseMarkup
