import DatabaseMarkup.Proofs.Block.Segment
import DatabaseMarkup.Proofs.Settings.Print

/-!
# Printed blocks

A text is `Flat` if it has neither comments nor braces outside of its literals.  A document made
of a flat header and a flat body between braces is a single block, as
`Segment.ofText_block` states.  A line with a flat header of a short reference is one, too.
-/

namespace DatabaseMarkup

open Unicode Text

namespace Text

/-- The characters that begin a comment, open a block or close one. -/
def blockMarks : Text :=
  ['/', '{', '}']

/-- Whether a text has neither comments nor braces, whatever follows it but an apostrophe. -/
def Flat (s : Text) : Prop :=
  ∃ ls, Lexes s ls ∧ Lexeme.Plains (fun c => c ∉ blockMarks) ls

theorem flat_nil :
  Flat []
  := ⟨[], lexes_nil, Lexeme.plains_nil⟩

section

variable {s t : Text}

/-- Text without quotes and marks in front of a flat text makes a flat text. -/
theorem Flat.plains {r : Text} (hr : ∀ c ∈ r, isQuote c = false ∧ c ∉ blockMarks) (h : Flat s) :
  Flat (r ++ s)
  := by
  obtain ⟨ls, hl, hp⟩ := h
  refine ⟨r.map .plain ++ ls, hl.plains fun c hc => (hr c hc).1, ?_⟩
  rw [Lexeme.plains_append, Lexeme.plains_map]
  exact ⟨fun c hc => (hr c hc).2, hp⟩

/-- Written characters are flat if none of them is a quote or a mark of blocks. -/
theorem Flat.chars {r : Text} (hr : r.all fun c => !isQuote c && !decide (c ∈ blockMarks))
    (h : Flat s) :
  Flat (r ++ s)
  := by
  refine h.plains fun c hc => ?_
  have hc := List.all_eq_true.mp hr c hc
  rw [Bool.and_eq_true, Bool.not_eq_true', Bool.not_eq_true', decide_eq_false_iff_not] at hc
  exact hc

/-- Two flat texts in a row are flat when the second does not start with an apostrophe. -/
theorem Flat.append (hs : Flat s) (ht : Flat t) (hh : t.head? ≠ some apostrophe) :
  Flat (s ++ t)
  := by
  obtain ⟨ls, hl, hp⟩ := hs
  obtain ⟨ms, hm, hq⟩ := ht
  exact ⟨ls ++ ms, hl.append hm hh, (Lexeme.plains_append ls ms).mpr ⟨hp, hq⟩⟩

theorem Flat.name (n : WrittenName) (h : Flat s) :
  Flat (n.text ++ s)
  := by
  obtain ⟨ls, hl, hp⟩ := h
  refine ⟨n.lexemes ++ ls, n.lexes hl, ?_⟩
  rw [Lexeme.plains_append]
  exact ⟨n.plains_lexemes.mono fun c hc => notMem_of_all (by decide) hc, hp⟩

theorem flat_name (n : WrittenName) :
  Flat n.text
  := by
  have h := flat_nil.name n
  rwa [List.append_nil] at h

/-- A flat text has no comments to blank. -/
theorem Flat.stripComments_eq (h : Flat s) :
  stripComments s = s
  := by
  obtain ⟨ls, hl, hp⟩ := h
  apply stripComments_eq_self
  rw [hl.lexemes_eq]
  refine hp.mono fun c hc => ?_
  rintro rfl
  apply hc (by decide)

end

/-- A list with commas is flat if its items are. -/
theorem flat_intercalate {ts : List Text} (h : ∀ t ∈ ts, Flat t) :
  Flat ([',', ' '].intercalate ts)
  := by
  induction ts with
  | nil => exact flat_nil
  | cons t ts ih =>
    obtain ⟨ht, h⟩ := List.forall_mem_cons.mp h
    cases ts with
    | nil =>
      rw [List.intercalate_singleton]
      exact ht
    | cons u ts =>
      rw [List.intercalate_cons_cons, List.append_assoc]
      apply ht.append ((ih h).chars (by decide : [',', ' '].all _))
      rintro ⟨⟩

/-- The text of some lines, each of which ends with a newline. -/
def ofLines (lines : List Text) : Text :=
  lines.flatMap fun line => line ++ ['\n']

theorem ofLines_cons (line : Text) (lines : List Text) :
  ofLines (line :: lines) = line ++ '\n' :: ofLines lines
  := by
  rw [ofLines, List.flatMap_cons, ← ofLines, List.append_assoc, List.singleton_append]

/-- Behind the last newline there is an empty line. -/
theorem splitWhere_ofLines {lines : List Text} (h : ∀ line ∈ lines, '\n' ∉ line) :
  splitWhere (fun c => c == '\n') (ofLines lines) = lines ++ [[]]
  := by
  induction lines with
  | nil => rfl
  | cons line lines ih =>
    obtain ⟨hl, h⟩ := List.forall_mem_cons.mp h
    rw [ofLines_cons, splitWhere_append_cons (beq_newline_of_notMem hl) (by rfl), ih h,
      List.cons_append]

/-- Flat lines make a flat text. -/
theorem flat_ofLines {lines : List Text} (h : ∀ line ∈ lines, Flat line) :
  Flat (ofLines lines)
  := by
  induction lines with
  | nil => exact flat_nil
  | cons line lines ih =>
    obtain ⟨hl, h⟩ := List.forall_mem_cons.mp h
    have hn : Flat ('\n' :: ofLines lines) := (ih h).chars (by decide : ['\n'].all _)
    rw [ofLines_cons]
    apply hl.append hn
    rintro ⟨⟩

end Text

/-- The brackets of settings with simple names are flat. -/
theorem Settings.flat_printGroup {settings : Settings} (h : ∀ a ∈ settings, a.IsSimple) :
  Flat (printGroup settings)
  := by
  refine ⟨_, lexes_printGroup fun a ha => (h a ha).isPrintable, ?_⟩
  rw [Lexeme.plains_plain, Lexeme.plains_plain, Lexeme.plains_append, Lexeme.plains_plain]
  refine ⟨by decide, by decide, ?_, by decide, Lexeme.plains_nil⟩
  refine plains_lexemes (by decide) (by decide) fun a ha => ?_
  refine (h a ha).plains_lexemes (fun c hc => ?_) (by decide)
  apply Attribute.notMem_of_isKeyChar hc (by decide)

/-! ## Names in headers -/

namespace Text

variable {rest : Text}

/-- A written name behind a space is read back. -/
theorem spacedName?_append (n : WrittenName) (hr : ∀ c ∈ rest.head?, isWord c = false) :
  spacedName? (' ' :: (n.text ++ rest)) = some (n.text, rest)
  := by
  have hs : splitBlanks? (' ' :: (n.text ++ rest)) = some (n.text ++ rest) := by
    apply splitBlanks?_space
    rw [List.head?_append_of_ne_nil _ n.text_ne_nil]
    exact n.trimmed_text.1
  rw [spacedName?, hs, Option.bind_some, n.splitName?_append hr]

/-- A written name with a qualifier is read back. -/
theorem qualifiedName?_append (m n : WrittenName) (hr : ∀ c ∈ rest.head?, isWord c = false) :
  qualifiedName? (m.text ++ '.' :: (n.text ++ rest)) = some (some m.text, n.text, rest)
  := by
  have hm : splitName? (m.text ++ '.' :: (n.text ++ rest))
      = some (m.text, '.' :: (n.text ++ rest)) := by
    apply m.splitName?_append
    rintro c ⟨⟩
    rfl
  rw [qualifiedName?, hm]
  dsimp only
  rw [splitChar?_cons, Option.bind_some, n.splitName?_append hr]

end Text

/-! ## Blocks -/

namespace Segment

section

variable {opening body : Text}

/-- The lexemes of a header and a body between braces. -/
theorem exists_lexemes_block (ho : Flat opening) (hb : Flat body) :
  ∃ ls ms, lexemes (opening ++ '{' :: (body ++ ['}'])) = ls ++ .plain '{' :: (ms ++ [.plain '}'])
    ∧ ofLexemes ls = opening ∧ ofLexemes ms = body
    ∧ Lexeme.Plains (fun c => c ∉ blockMarks) ls ∧ Lexeme.Plains (fun c => c ∉ blockMarks) ms
  := by
  obtain ⟨ls, hl, hp⟩ := ho
  obtain ⟨ms, hm, hq⟩ := hb
  refine ⟨ls, ms, ?_, hl.ofLexemes_eq, hm.ofLexemes_eq, hp, hq⟩
  have hclose : lexemes (body ++ ['}']) = ms ++ [.plain '}'] := by
    rw [hm _ (by rintro ⟨⟩), lexemes_cons, Lexeme.first_plain rfl]
    dsimp only
    rw [lexemes]
  rw [hl _ (by rintro ⟨⟩), lexemes_cons, Lexeme.first_plain rfl]
  dsimp only
  rw [hclose]

/-- A header and a body between braces have no comments. -/
theorem stripComments_block (ho : Flat opening) (hb : Flat body) :
  stripComments (opening ++ '{' :: (body ++ ['}'])) = opening ++ '{' :: (body ++ ['}'])
  := by
  obtain ⟨ls, ms, h, _, _, hp, hq⟩ := exists_lexemes_block ho hb
  have hm : ∀ c, c ∉ blockMarks → c ≠ '/' := by
    rintro c hc rfl
    apply hc (by decide)
  apply stripComments_eq_self
  rw [h]
  simp only [Lexeme.plains_append, Lexeme.plains_plain, Lexeme.plains_nil]
  exact ⟨hp.mono hm, by decide, hq.mono hm, by decide, trivial⟩

/-- The braces around a body are paired. -/
theorem closeOf?_block (ho : Flat opening) (hb : Flat body) :
  (DelimiterPairs.ofText (opening ++ '{' :: (body ++ ['}']))).closeOf? (size opening)
    = some (size opening + 1 + size body)
  := by
  obtain ⟨ls, ms, h, hl, hm, _, hq⟩ := exists_lexemes_block ho hb
  have hp : DelimiterPairs.IsPair '{' '}' := .inl ⟨rfl, rfl⟩
  have hc : Lexeme.Plains (fun c => c ≠ '{' ∧ c ≠ '}') ms := by
    refine hq.mono fun c hc => ?_
    constructor
    · rintro rfl
      apply hc (by decide)
    · rintro rfl
      apply hc (by decide)
  have hclose := DelimiterPairs.closeOf?_lexeme hp h
  rw [closeOffset?, closeLexemes_append hc, closeLexemes_closer_zero, Option.map_some,
    Option.map_some] at hclose
  dsimp only at hclose
  rw [List.append_nil, hl, hm] at hclose
  exact hclose

/-- A header and a body between braces are read as one block. -/
theorem splitFirst_block {names : Text} {header : Header} (ho : Flat opening) (hb : Flat body)
    (hr : Header.read? (opening ++ '{' :: (body ++ ['}'])) = some (header, names))
    (hk : header.kind ≠ .refShort) (hs : skipBlanks names = '{' :: (body ++ ['}'])) :
  splitFirst (.ofText (opening ++ '{' :: (body ++ ['}'])))
      (size (opening ++ '{' :: (body ++ ['}']))) (opening ++ '{' :: (body ++ ['}']))
    = (.block ⟨header, [], body, size opening + 1⟩, [])
  := by
  have hgroup := DelimiterPairs.splitGroup?_of_closeOf? rfl (closeOf?_block ho hb)
  have hsettings : headerSettings? (.ofText (opening ++ '{' :: (body ++ ['}'])))
      (size (opening ++ '{' :: (body ++ ['}']))) names = some ([], '{' :: (body ++ ['}'])) := by
    rw [headerSettings?, hs, if_neg (by rintro ⟨⟩)]
  rw [splitFirst, hr]
  dsimp only
  rw [if_neg hk, hsettings]
  dsimp only
  rw [List.head?_cons, if_pos rfl, hgroup, startOf_append]

/-- A document made of a header and a body between braces is one block. -/
theorem ofText_block {names : Text} {header : Header} (ho : Flat opening) (hb : Flat body)
    (hn : opening ≠ []) (hh : ∀ c ∈ opening.head?, Unicode.isAsciiBlank c = false)
    (hr : Header.read? (opening ++ '{' :: (body ++ ['}'])) = some (header, names))
    (hk : header.kind ≠ .refShort) (hs : skipBlanks names = '{' :: (body ++ ['}'])) :
  ∃ span, ofText (opening ++ '{' :: (body ++ ['}']))
    = [⟨0, span, .block ⟨header, [], body, size opening + 1⟩⟩]
  := by
  have hfirst := splitFirst_block ho hb hr hk hs
  obtain ⟨c, t, rfl⟩ := List.exists_cons_of_ne_nil hn
  rw [List.cons_append] at hfirst ⊢
  rw [ofText, split, hh c rfl, if_neg Bool.false_ne_true, hfirst]
  dsimp only
  rw [split]
  exact ⟨_, rfl⟩

end

end Segment

end DatabaseMarkup
