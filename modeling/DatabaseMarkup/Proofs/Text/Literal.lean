import DatabaseMarkup.Proofs.Text.Comment
import DatabaseMarkup.Proofs.Text.Delimiter
import DatabaseMarkup.Settings.Value

/-!
# The lexemes of a written text

A text that is written piece by piece is cut into the lexemes of its pieces.  `Text.Lexes` states
so of one piece, whatever follows it; as a literal of two apostrophes would become one of three,
no apostrophe may follow.  What the readers of a text look for are plain characters, and
`Lexeme.Plains` restricts these.

`Text.escape` writes a text between apostrophes, and `Text.unescape_escape` reads it back.
-/

namespace DatabaseMarkup

/-! ## Plain characters -/

/-- Whether all plain characters among the lexemes satisfy `P`. -/
def Lexeme.Plains (P : Char → Prop) (ls : List Lexeme) : Prop :=
  ∀ c, .plain c ∈ ls → P c

namespace Lexeme

variable {P : Char → Prop}

@[simp]
theorem plains_nil :
  Plains P []
  := fun _ h => (List.not_mem_nil h).elim

@[simp]
theorem plains_quoted (q : Char) (tail : Text) (ls : List Lexeme) :
  Plains P (.quoted q tail :: ls) ↔ Plains P ls
  := by
  constructor
  · intro h c hc
    apply h c (List.mem_cons_of_mem _ hc)
  · intro h c hc
    apply h c (List.mem_of_ne_of_mem _ hc)
    rintro ⟨⟩

@[simp]
theorem plains_plain (c : Char) (ls : List Lexeme) :
  Plains P (.plain c :: ls) ↔ P c ∧ Plains P ls
  := by
  constructor
  · intro h
    exact ⟨h c List.mem_cons_self, fun d hd => h d (List.mem_cons_of_mem _ hd)⟩
  · rintro ⟨hc, h⟩ d hd
    rcases List.mem_cons.mp hd with hd | hd
    · cases hd
      exact hc
    · apply h d hd

@[simp]
theorem plains_append (ls ms : List Lexeme) :
  Plains P (ls ++ ms) ↔ Plains P ls ∧ Plains P ms
  := by
  constructor
  · intro h
    constructor
    · intro c hc
      apply h c (List.mem_append_left _ hc)
    · intro c hc
      apply h c (List.mem_append_right _ hc)
  · rintro ⟨hl, hm⟩ c hc
    rcases List.mem_append.mp hc with hc | hc
    · apply hl c hc
    · apply hm c hc

@[simp]
theorem plains_map (s : Text) :
  Plains P (s.map .plain) ↔ ∀ c ∈ s, P c
  := by
  constructor
  · intro h c hc
    apply h c (List.mem_map_of_mem hc)
  · intro h c hc
    obtain ⟨d, hd, ⟨⟩⟩ := List.mem_map.mp hc
    apply h c hd

/-- Characters outside of literals that satisfy a predicate satisfy a weaker one. -/
theorem Plains.mono {Q : Char → Prop} {ls : List Lexeme} (h : Plains P ls) (hp : ∀ c, P c → Q c) :
  Plains Q ls
  := fun c hc => hp c (h c hc)

end Lexeme

namespace Text

open Lexeme

@[simp]
theorem ofLexemes_map_plain (s : Text) :
  ofLexemes (s.map .plain) = s
  := by
  induction s with
  | nil => rfl
  | cons c s ih =>
    rw [List.map_cons, ofLexemes_cons, ih]
    rfl

/-! ## Pieces of a text -/

/-- Whether a text is cut into the given lexemes whatever follows it but an apostrophe. -/
def Lexes (s : Text) (ls : List Lexeme) : Prop :=
  ∀ u : Text, u.head? ≠ some apostrophe → lexemes (s ++ u) = ls ++ lexemes u

theorem lexes_nil :
  Lexes [] []
  := fun _ _ => rfl

section

variable {s t : Text} {ls ms : List Lexeme}

/-- Text without quotes is cut into its characters. -/
theorem lexemes_append {r : Text} (hr : ∀ c ∈ r, isQuote c = false) (t : Text) :
  lexemes (r ++ t) = r.map .plain ++ lexemes t
  := by
  induction r with
  | nil => rfl
  | cons c r ih =>
    obtain ⟨hc, hr⟩ := List.forall_mem_cons.mp hr
    rw [List.cons_append, lexemes_cons, first_plain hc]
    dsimp only
    rw [ih hr, List.map_cons, List.cons_append]

/-- Text without quotes may be put in front of a piece. -/
theorem Lexes.plains {r : Text} (hr : ∀ c ∈ r, isQuote c = false) (h : Lexes s ls) :
  Lexes (r ++ s) (r.map .plain ++ ls)
  := by
  intro u hu
  rw [List.append_assoc, lexemes_append hr, h u hu, List.append_assoc]

theorem lexes_map_plain {r : Text} (hr : ∀ c ∈ r, isQuote c = false) :
  Lexes r (r.map .plain)
  := by
  have h := lexes_nil.plains hr
  rwa [List.append_nil, List.append_nil] at h

theorem Lexes.plain {c : Char} (hc : isQuote c = false) (h : Lexes s ls) :
  Lexes (c :: s) (.plain c :: ls)
  := h.plains (List.forall_mem_singleton.mpr hc)

/-- A literal is one lexeme.  An empty one may not be followed by another apostrophe. -/
theorem Lexes.literal {q : Char} (hq : isQuote q) {inner : Text}
    (hi : closeLine q (inner ++ [q]) = some (inner, []))
    (hs : q = apostrophe → inner = [] → s.head? ≠ some apostrophe) (h : Lexes s ls) :
  Lexes (q :: (inner ++ q :: s)) (.quoted q (inner ++ [q]) :: ls)
  := by
  intro u hu
  have hr : q = apostrophe → inner = [] → (s ++ u).head? ≠ some apostrophe := by
    intro ha hn
    cases s with
    | nil => exact hu
    | cons c s => apply hs ha hn
  rw [List.cons_append, List.append_assoc, List.cons_append, lexemes_cons,
    first_literal hq hi hr]
  dsimp only
  rw [h u hu, List.cons_append]

/-- Two pieces in a row are a piece when the second does not start with an apostrophe. -/
theorem Lexes.append (hs : Lexes s ls) (ht : Lexes t ms) (hh : t.head? ≠ some apostrophe) :
  Lexes (s ++ t) (ls ++ ms)
  := by
  intro u hu
  have htu : (t ++ u).head? ≠ some apostrophe := by
    cases t with
    | nil => exact hu
    | cons c t => exact hh
  rw [List.append_assoc, hs _ htu, ht u hu, List.append_assoc]

/-- A piece is cut into its lexemes. -/
theorem Lexes.lexemes_eq (h : Lexes s ls) :
  lexemes s = ls
  := by
  have h := h [] (fun h => nomatch h)
  rwa [List.append_nil, lexemes, List.append_nil] at h

/-- The lexemes of a piece make up the piece. -/
theorem Lexes.ofLexemes_eq (h : Lexes s ls) :
  ofLexemes ls = s
  := by
  rw [← h.lexemes_eq, ofLexemes_lexemes]

end

/-! ## Reading over lexemes -/

/-- Lexemes that are no delimiters of the kind lie inside of the group. -/
theorem closeLexemes_append {opener closer : Char} {ls : List Lexeme}
    (h : Plains (fun c => c ≠ opener ∧ c ≠ closer) ls) (depth : Nat) (ms : List Lexeme) :
  closeLexemes opener closer depth (ls ++ ms)
    = (closeLexemes opener closer depth ms).map fun (inner, rest) => (ls ++ inner, rest)
  := by
  induction ls with
  | nil => exact Option.map_id'.symm
  | cons l ls ih =>
    have hn {d : Char} (hd : d = opener ∨ d = closer) : l ≠ .plain d := by
      rintro rfl
      obtain ⟨hc, _⟩ := (plains_plain d ls).mp h
      rcases hd with rfl | rfl
      · exact hc.1 rfl
      · exact hc.2 rfl
    have hls : Plains (fun c => c ≠ opener ∧ c ≠ closer) ls :=
      fun c hc => h c (List.mem_cons_of_mem _ hc)
    rw [List.cons_append, closeLexemes_of_ne (hn (.inl rfl)) (hn (.inr rfl)), ih hls,
      Option.map_map]
    rfl

/-- Nothing is found among lexemes that neither begin with the character nor are parentheses. -/
theorem cutUnquoted_append {target : Char} {ls : List Lexeme}
    (h : ∀ l ∈ ls, l.head ≠ target ∧ l ≠ .plain '(' ∧ l ≠ .plain ')') (ms : List Lexeme) :
  cutUnquoted target 0 (ls ++ ms)
    = (cutUnquoted target 0 ms).map fun (before, after) => (ofLexemes ls ++ before, after)
  := by
  induction ls with
  | nil => exact Option.map_id'.symm
  | cons l ls ih =>
    obtain ⟨⟨ht, ho, hc⟩, h⟩ := List.forall_mem_cons.mp h
    have hp : parenthesesAfter 0 l = 0 := by
      rw [parenthesesAfter, if_neg ho, if_neg hc]
    rw [List.cons_append, cutUnquoted, decide_eq_false ht, Bool.and_false,
      if_neg Bool.false_ne_true, hp, ih h, Option.map_map]
    congr 1
    funext p
    exact congrArg (·, p.2) (List.append_assoc l.text (ofLexemes ls) p.1).symm

section

variable {separator : Char} {ls : List Lexeme}

/-- Lexemes that are neither separators nor delimiters belong to the first part. -/
theorem splitLexemes_append (h : ∀ l ∈ ls, l ≠ .plain separator ∧ isDelimiter l = false)
    {ms : List Lexeme} {part : Text} {parts : List Text}
    (hm : splitLexemes separator 0 ms = part :: parts) :
  splitLexemes separator 0 (ls ++ ms) = (ofLexemes ls ++ part) :: parts
  := by
  induction ls with
  | nil => exact hm
  | cons l ls ih =>
    obtain ⟨⟨hs, hd⟩, h⟩ := List.forall_mem_cons.mp h
    rw [List.cons_append, splitLexemes, decide_eq_false hs, Bool.false_and, Bool.false_and,
      if_neg Bool.false_ne_true, groupsAfter_of_isDelimiter_eq_false hd, ih h, ofLexemes_cons,
      List.append_assoc]

/-- Lexemes without a separator or a delimiter are a single part. -/
theorem splitLexemes_eq_singleton
    (h : ∀ l ∈ ls, l ≠ .plain separator ∧ isDelimiter l = false) :
  splitLexemes separator 0 ls = [ofLexemes ls]
  := by
  have hs := splitLexemes_append h (show splitLexemes separator 0 [] = [[]] from rfl)
  rwa [List.append_nil, List.append_nil] at hs

/-- A separator behind lexemes without one ends the first part. -/
theorem splitLexemes_append_separator
    (h : ∀ l ∈ ls, l ≠ .plain separator ∧ isDelimiter l = false)
    (hd : isDelimiter (.plain separator) = false) (ms : List Lexeme) :
  splitLexemes separator 0 (ls ++ .plain separator :: ms)
    = ofLexemes ls :: splitLexemes separator 0 ms
  := by
  rw [splitLexemes_append h (splitLexemes_separator hd ms), List.append_nil]

end

/-! ## Lists with separators -/

/-- What is between the items of a list is one of its items or the separator. -/
theorem forall_mem_intercalate {α : Type} {P : α → Prop} {separator : List α} {ls : List (List α)}
    (hs : ∀ a ∈ separator, P a) (h : ∀ l ∈ ls, ∀ a ∈ l, P a) :
  ∀ a ∈ separator.intercalate ls, P a
  := by
  induction ls with
  | nil => apply List.forall_mem_nil
  | cons l ls ih =>
    obtain ⟨hl, h⟩ := List.forall_mem_cons.mp h
    cases ls with
    | nil =>
      rw [List.intercalate_singleton]
      exact hl
    | cons m ls =>
      rw [List.intercalate_cons_cons]
      exact List.forall_mem_append.mpr ⟨List.forall_mem_append.mpr ⟨hl, hs⟩, ih h⟩

section

variable {α : Type} {f : α → Text} {g : α → List Lexeme} {separator : Char} {pad : Text}

/-- Pieces with a separator between them are a piece. -/
theorem lexes_intercalate (hs : isQuote separator = false) (hp : ∀ c ∈ pad, isQuote c = false)
    {as : List α} (h : ∀ a ∈ as, Lexes (f a) (g a)) :
  Lexes ((separator :: pad).intercalate (as.map f))
    ((.plain separator :: pad.map .plain).intercalate (as.map g))
  := by
  induction as with
  | nil => exact lexes_nil
  | cons a as ih =>
    obtain ⟨ha, h⟩ := List.forall_mem_cons.mp h
    cases as with
    | nil =>
      rw [List.map_singleton, List.map_singleton, List.intercalate_singleton,
        List.intercalate_singleton]
      exact ha
    | cons b as =>
      rw [List.map_cons, List.map_cons, List.map_cons, List.map_cons, List.intercalate_cons_cons,
        List.intercalate_cons_cons, List.append_assoc, List.append_assoc, ← List.map_cons,
        ← List.map_cons]
      apply ha.append (((ih h).plains hp).plain hs)
      rintro ⟨⟩
      cases hs

/-- What holds of the characters of the pieces and of the separator holds of all of them together.
-/
theorem plains_intercalate {P : Char → Prop} (hc : P separator) (hp : ∀ c ∈ pad, P c) {as : List α}
    (h : ∀ a ∈ as, Plains P (g a)) :
  Plains P ((.plain separator :: pad.map .plain).intercalate (as.map g))
  := by
  have hs : Plains P (.plain separator :: pad.map .plain) := by
    rw [plains_plain, plains_map]
    exact ⟨hc, hp⟩
  have hl : ∀ l ∈ (.plain separator :: pad.map .plain).intercalate (as.map g),
      ∀ c, l = .plain c → P c := by
    apply forall_mem_intercalate
    · rintro l hl c rfl
      exact hs c hl
    · intro ls hm
      obtain ⟨a, ha, rfl⟩ := List.mem_map.mp hm
      rintro l hl c rfl
      exact h a ha c hl
  exact fun c hm => hl _ hm c rfl

/-- The parts of a list are its items, all but the first one behind what follows a separator. -/
theorem splitLexemes_intercalate (hs : isDelimiter (.plain separator) = false)
    (hp : ∀ c ∈ pad, .plain c ≠ Lexeme.plain separator ∧ isDelimiter (.plain c) = false) {a : α}
    {as : List α} (h : ∀ b ∈ a :: as, Lexes (f b) (g b))
    (hd : ∀ b ∈ a :: as, ∀ l ∈ g b, l ≠ .plain separator ∧ isDelimiter l = false) :
  splitLexemes separator 0 ((.plain separator :: pad.map .plain).intercalate ((a :: as).map g))
    = f a :: as.map fun b => pad ++ f b
  := by
  induction as generalizing a with
  | nil =>
    obtain ⟨ha, _⟩ := List.forall_mem_cons.mp h
    obtain ⟨hda, _⟩ := List.forall_mem_cons.mp hd
    rw [List.map_singleton, List.intercalate_singleton, splitLexemes_eq_singleton hda,
      ha.ofLexemes_eq]
    rfl
  | cons b as ih =>
    obtain ⟨ha, h⟩ := List.forall_mem_cons.mp h
    obtain ⟨hda, hd⟩ := List.forall_mem_cons.mp hd
    have hpad : ∀ l ∈ pad.map Lexeme.plain, l ≠ .plain separator ∧ isDelimiter l = false := by
      rw [List.forall_mem_map]
      exact hp
    have hb := splitLexemes_append hpad (ih h hd)
    rw [ofLexemes_map_plain] at hb
    rw [List.map_cons, List.map_cons, List.intercalate_cons_cons, ← List.map_cons,
      List.append_assoc]
    apply (splitLexemes_append_separator hda hs _).trans
    rw [ha.ofLexemes_eq]
    exact congrArg (f a :: ·) hb

end

/-- A group is closed behind a text that holds no delimiters of its kind. -/
theorem closeGroup_append {opener closer : Char} (ho : isQuote opener = false)
    (hc : isQuote closer = false) (ha : closer ≠ apostrophe) {s : Text} {ls : List Lexeme}
    (hs : Lexes s ls) (hp : Plains (fun c => c ≠ opener ∧ c ≠ closer) ls) (rest : Text) :
  closeGroup opener closer 0 (s ++ closer :: rest) = some (s, rest)
  := by
  have hh : (closer :: rest).head? ≠ some apostrophe := by
    rw [List.head?_cons, ne_eq, Option.some.injEq]
    exact ha
  rw [closeGroup_eq ho hc, hs _ hh, closeLexemes_append hp, lexemes_cons, first_plain hc,
    closeLexemes_closer_zero, Option.map_some, Option.map_some]
  dsimp only
  rw [List.append_nil, hs.ofLexemes_eq, ofLexemes_lexemes]

/-- A text without plain slashes has no comments. -/
theorem stripComments_eq_self {t : Text} (h : Plains (fun c => c ≠ '/') (lexemes t)) :
  stripComments t = t
  := by
  fun_induction stripComments t with
  | case1 => rfl
  | case2 c t hq ih =>
    rw [lexemes_cons] at h
    rw [ih fun d hd => h d (List.mem_cons_of_mem _ hd), text_first_append]
  | case3 c t hq comment rest hc ih =>
    rw [lexemes_cons, first_plain (eq_false_of_ne_true hq), plains_plain] at h
    rw [splitComment?_eq_none_of_ne h.1] at hc
    cases hc
  | case4 c t hq hc ih =>
    rw [lexemes_cons, first_plain (eq_false_of_ne_true hq), plains_plain] at h
    rw [ih h.2]

/-! ## Escapes -/

/-- A character as it is written between apostrophes. -/
def escapeChar (c : Char) : Text :=
  if c = '\\' then ['\\', '\\']
  else if c = apostrophe then ['\\', apostrophe]
  else if c = '\n' then ['\\', 'n']
  else if c = '\t' then ['\\', 't']
  else [c]

/-- A text as it is written between apostrophes. -/
def escape (t : Text) : Text :=
  t.flatMap escapeChar

/-- A character is written behind a backslash, from where it is read back, or as it is. -/
theorem escapeChar_eq (c : Char) :
  (∃ d, escapeChar c = ['\\', d] ∧ d ≠ '\n'
      ∧ ∀ u, unescape apostrophe ('\\' :: d :: u) = c :: unescape apostrophe u)
    ∨ (escapeChar c = [c] ∧ c ≠ '\\' ∧ c ≠ apostrophe ∧ c ≠ '\n')
  := by
  rw [escapeChar]
  split
  · rename_i hb
    subst hb
    exact .inl ⟨'\\', rfl, by decide, fun u => by rw [unescape]; rfl⟩
  split
  · rename_i ha
    subst ha
    exact .inl ⟨apostrophe, rfl, by decide, fun u => by rw [unescape]; rfl⟩
  split
  · rename_i hn
    subst hn
    exact .inl ⟨'n', rfl, by decide, fun u => by rw [unescape]; rfl⟩
  split
  · rename_i ht
    subst ht
    exact .inl ⟨'t', rfl, by decide, fun u => by rw [unescape]; rfl⟩
  · rename_i hb ha hn _
    exact .inr ⟨rfl, hb, ha, hn⟩

/-- An escaped text ends at the apostrophe behind it. -/
theorem closeLine_escape_append (t u : Text) :
  closeLine apostrophe (escape t ++ apostrophe :: u) = some (escape t, u)
  := by
  induction t with
  | nil => apply closeLine_quote rfl
  | cons c t ih =>
    rw [escape, List.flatMap_cons, ← escape, List.append_assoc]
    rcases escapeChar_eq c with ⟨d, he, _, _⟩ | ⟨he, hb, ha, hn⟩
    · rw [he, List.cons_append, List.cons_append, List.nil_append, closeLine_escape (by decide), ih]
      rfl
    · rw [he, List.singleton_append, closeLine_of_ne hn (by simp [hb]) ha, ih]
      rfl

/-- An escaped text is read back. -/
theorem unescape_escape (t : Text) :
  unescape apostrophe (escape t) = t
  := by
  induction t with
  | nil => rfl
  | cons c t ih =>
    rw [escape, List.flatMap_cons, ← escape]
    rcases escapeChar_eq c with ⟨d, he, _, hu⟩ | ⟨he, hb, _, _⟩
    · rw [he, List.cons_append, List.cons_append, List.nil_append, hu, ih]
    · rw [he, List.singleton_append, unescape.eq_def]
      dsimp only
      rw [if_neg hb, ih]

/-- An escaped text stays on its line. -/
theorem newline_notMem_escape (t : Text) :
  '\n' ∉ escape t
  := by
  intro h
  obtain ⟨c, _, hc⟩ := List.mem_flatMap.mp h
  rcases escapeChar_eq c with ⟨d, he, hd, _⟩ | ⟨he, _, _, hn⟩
  · rw [he] at hc
    rcases List.mem_pair.mp hc with h | rfl
    · cases h
    · apply hd rfl
  · rw [he, List.mem_singleton] at hc
    apply hn hc.symm

end Text

end DatabaseMarkup
