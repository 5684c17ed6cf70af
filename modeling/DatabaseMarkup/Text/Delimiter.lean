import DatabaseMarkup.Text.Lexeme

/-!
# Delimiters

The operations of this module look at the plain characters of a text and step over its quoted
literals.

* `Text.splitGroup?` cuts a text that opens with a brace, a bracket or a parenthesis at the
  delimiter that closes it.  It counts the delimiters of that kind only.
* `DelimiterPairs.ofText` pairs all braces and brackets of a text in one pass.
* `Text.cutUnquoted` finds a character outside of literals and parentheses.
* `Text.splitTopLevel` splits a text at a separator outside of literals and of all groups.
-/

namespace DatabaseMarkup

/-! ## Groups -/

/-- The delimiter that closes a group. -/
def closerOf? (opener : Char) : Option Char :=
  if opener = '{' then some '}'
  else if opener = '[' then some ']'
  else if opener = '(' then some ')'
  else none

namespace Text

/-- The texts before and after the delimiter that closes a group, where `depth` further groups
of the kind are open. -/
def closeGroup (opener closer : Char) (depth : Nat) : Text → Option (Text × Text)
  | [] => none
  | c :: t =>
    if c = closer then
      match depth with
      | 0 => some ([], t)
      | depth + 1 =>
        (closeGroup opener closer depth t).map fun (inner, rest) => (c :: inner, rest)
    else
      let l := Lexeme.first c t
      (closeGroup opener closer (if c = opener then depth + 1 else depth) l.2).map
        fun (inner, rest) => (l.1.text ++ inner, rest)
termination_by t => t.length
decreasing_by
  · simp
  · exact Nat.lt_succ_of_le (Lexeme.length_first_le c t)

/-- The text inside the group that a text opens with, and the text after the group. -/
def splitGroup? : Text → Option (Text × Text)
  | [] => none
  | opener :: t =>
    match closerOf? opener with
    | some closer => closeGroup opener closer 0 t
    | none => none

/-- Nothing but the closing delimiter stands between a group and what follows it. -/
theorem eq_append_of_closeGroup {opener closer : Char} {depth : Nat} {t inner rest : Text}
    (h : closeGroup opener closer depth t = some (inner, rest)) :
  t = inner ++ closer :: rest
  := by
  fun_induction closeGroup opener closer depth t generalizing inner with
  | case1 => simp at h
  | case2 => simp_all
  | case3 =>
    rename_i ih
    simp only [Option.map_eq_some_iff, Prod.mk.injEq, Prod.exists] at h
    obtain ⟨i, r, hi, rfl, rfl⟩ := h
    simp [ih hi]
  | case4 _ c t =>
    rename_i ih
    simp only [Option.map_eq_some_iff, Prod.mk.injEq, Prod.exists] at h
    obtain ⟨i, r, hi, rfl, rfl⟩ := h
    rw [List.append_assoc, ← ih hi]
    exact (Lexeme.text_first_append c t).symm

/-- The inside of a group and the rest leave room for two delimiters. -/
theorem length_splitGroup {t inner rest : Text} (h : splitGroup? t = some (inner, rest)) :
  inner.length + rest.length + 2 ≤ t.length
  := by
  match t with
  | [] => simp [splitGroup?] at h
  | opener :: t =>
    rw [splitGroup?] at h
    split at h
    · rw [eq_append_of_closeGroup h]
      simp only [List.length_cons, List.length_append]
      omega
    · simp at h

/-- The offset of the delimiter that closes the one at byte `opener`. -/
def matchingClose? (t : Text) (opener : Nat) : Option Nat := do
  let group ← fromByte? opener t
  let (inner, _) ← splitGroup? group
  return opener + 1 + size inner

end Text

/-! ## Pairs -/

/-- The braces and brackets of a text, each given by its offset and that of the delimiter that
closes it. -/
structure DelimiterPairs where
  closes : List (Nat × Nat)

namespace DelimiterPairs

/-- The pairs of a list of lexemes that begins at `offset`, where the given braces and brackets
are open, innermost first. -/
def pairUp (offset : Nat) (braces brackets : List Nat) : List Lexeme → List (Nat × Nat)
  | [] => []
  | l :: ls =>
    let next := offset + Text.size l.text
    if l = .plain '{' then
      pairUp next (offset :: braces) brackets ls
    else if l = .plain '[' then
      pairUp next braces (offset :: brackets) ls
    else if l = .plain '}' then
      match braces with
      | [] => pairUp next [] brackets ls
      | opener :: braces => (opener, offset) :: pairUp next braces brackets ls
    else if l = .plain ']' then
      match brackets with
      | [] => pairUp next braces [] ls
      | opener :: brackets => (opener, offset) :: pairUp next braces brackets ls
    else
      pairUp next braces brackets ls

/-- The pairs of a text. -/
def ofText (t : Text) : DelimiterPairs where
  closes := pairUp 0 [] [] (Text.lexemes t)

/-- The offset of the delimiter that closes the one at `opener`. -/
def closeOf? (pairs : DelimiterPairs) (opener : Nat) : Option Nat :=
  pairs.closes.lookup opener

/-- The pairs in the order of their opening delimiters. -/
def toList (pairs : DelimiterPairs) : List (Nat × Nat) :=
  pairs.closes.mergeSort fun a b => a.1 ≤ b.1

/-- The text inside the group that a text opens with, and the text after the group, as far as the
pairs have recorded the group.  The text ends at `finish`. -/
def splitGroup? (pairs : DelimiterPairs) (finish : Nat) : Text → Option (Text × Text)
  | [] => none
  | opener :: t =>
    let start := Text.startOf finish (opener :: t)
    match pairs.closeOf? start with
    | some close =>
      let (inner, rest) := Text.splitAtByte (close - (start + 1)) t
      some (inner, rest.drop 1)
    | none => none

/-- Cutting off a group leaves less text. -/
theorem length_splitGroup {pairs : DelimiterPairs} {finish : Nat} {t inner rest : Text}
    (h : pairs.splitGroup? finish t = some (inner, rest)) :
  rest.length < t.length
  := by
  match t with
  | [] => simp [splitGroup?] at h
  | c :: t =>
    rw [splitGroup?] at h
    dsimp only at h
    split at h
    · simp only [Option.some.injEq, Prod.mk.injEq] at h
      rw [← h.2, List.length_drop, List.length_cons]
      have := Text.length_splitAtByte_le
      exact Nat.lt_succ_of_le (Nat.le_trans (Nat.sub_le _ _) (this _ t))
    · simp at h

end DelimiterPairs

namespace Text

/-! ## Characters outside of groups -/

/-- The number of open parentheses after a lexeme. -/
def parenthesesAfter (depth : Nat) (l : Lexeme) : Nat :=
  if l = .plain '(' then depth + 1
  else if l = .plain ')' then depth - 1
  else depth

/-- The parts of a list of lexemes before and from the first one that begins with `target` and
is not in parentheses, of which `depth` are open. -/
def cutUnquoted (target : Char) (depth : Nat) : List Lexeme → Option (Text × Text)
  | [] => none
  | l :: ls =>
    if depth = 0 && l.head = target then
      some ([], ofLexemes (l :: ls))
    else
      (cutUnquoted target (parenthesesAfter depth l) ls).map fun (before, after) =>
        (l.text ++ before, after)

/-- The parts of a text before and from the first `target` outside of literals and
parentheses. -/
def cutAtUnquoted (target : Char) (t : Text) : Option (Text × Text) :=
  cutUnquoted target 0 (lexemes t)

/-- The offset of the first `target` that stands at byte `start` or later and outside of
literals and parentheses. -/
def findUnquoted (t : Text) (start : Nat) (target : Char) : Option Nat :=
  let tail := dropBytes start t
  (cutAtUnquoted target tail).map fun (before, _) => size t - size tail + size before

/-- The number of open groups of any kind after a lexeme. -/
def groupsAfter (depth : Nat) (l : Lexeme) : Nat :=
  if l = .plain '(' || l = .plain '[' || l = .plain '{' then depth + 1
  else if l = .plain ')' || l = .plain ']' || l = .plain '}' then depth - 1
  else depth

/-- Whether a lexeme is a delimiter of a group. -/
def isDelimiter (l : Lexeme) : Bool :=
  l = .plain '(' || l = .plain '[' || l = .plain '{'
    || l = .plain ')' || l = .plain ']' || l = .plain '}'

/-- The parts of a list of lexemes between the separators outside of groups, of which `depth`
are open. -/
def splitLexemes (separator : Char) (depth : Nat) : List Lexeme → List Text
  | [] => [[]]
  | l :: ls =>
    if l = .plain separator && depth = 0 && !isDelimiter l then
      [] :: splitLexemes separator depth ls
    else
      match splitLexemes separator (groupsAfter depth l) ls with
      | [] => [l.text]
      | part :: parts => (l.text ++ part) :: parts

/-- The parts of a text between the separators outside of literals and groups. -/
def splitTopLevel (separator : Char) (t : Text) : List Text :=
  splitLexemes separator 0 (lexemes t)

end Text

end DatabaseMarkup
