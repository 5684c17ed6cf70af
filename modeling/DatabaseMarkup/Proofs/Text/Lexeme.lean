import DatabaseMarkup.Text.Lexeme
import DatabaseMarkup.Proofs.Text.Basic

/-!
# Marks and literals

What `Text.cutAtMark` and `Text.closeLine` find does not depend on the text after it.
`Text.cutAtMark_eq_some_iff` characterizes the place of a mark as the first one, and
`Lexeme.first_literal` states that a literal is read back whatever stands after it.
-/

namespace DatabaseMarkup

namespace Text

/-! ## Marks -/

/-- A mark that stands in front of a text with a longer beginning stands in that beginning. -/
theorem isPrefix_append_of_length_le {mark s t : Text} (h : mark <+: s ++ t)
    (hl : mark.length ≤ s.length) :
  mark <+: s
  := List.prefix_of_prefix_length_le h (List.prefix_append s t) hl

/-- A mark at the start of a text is found there. -/
theorem cutAtMark_of_isPrefix {mark : Text} (hm : mark ≠ []) (after : Text) :
  cutAtMark mark (mark ++ after) = some ([], after)
  := by
  obtain ⟨c, more, rfl⟩ := List.exists_cons_of_ne_nil hm
  have hp : (c :: more).isPrefixOf (c :: (more ++ after)) :=
    List.isPrefixOf_iff_prefix.mpr (List.prefix_append (c :: more) after)
  rw [List.cons_append, cutAtMark, if_pos hp, ← List.cons_append, List.drop_left]

/-- A mark is no part of what it is without its last character. -/
theorem not_isInfix_dropLast {mark : Text} (hm : mark ≠ []) :
  ¬mark <:+: mark.dropLast
  := by
  intro h
  have hl := h.length_le
  have := List.length_pos_iff.mpr hm
  rw [List.length_dropLast] at hl
  omega

/-- The mark does not end before the place where a text is cut at it. -/
theorem not_isInfix_of_cutAtMark {mark t before after : Text} (hm : mark ≠ [])
    (h : cutAtMark mark t = some (before, after)) :
  ¬mark <:+: before ++ mark.dropLast
  := by
  induction t generalizing before with
  | nil => simp [cutAtMark] at h
  | cons c t ih =>
    rw [cutAtMark] at h
    split at h
    · simp only [Option.some.injEq, Prod.mk.injEq] at h
      rw [← h.1, List.nil_append]
      apply not_isInfix_dropLast hm
    · rename_i hp
      simp only [Option.map_eq_some_iff, Prod.mk.injEq, Prod.exists] at h
      obtain ⟨b, a, hb, rfl, rfl⟩ := h
      intro hi
      rcases List.infix_cons_iff.mp hi with hi | hi
      · apply hp
        apply List.isPrefixOf_iff_prefix.mpr
        apply List.IsPrefix.trans hi
        rw [eq_append_of_cutAtMark hb, List.append_assoc]
        apply (List.prefix_cons_inj c).mpr
        apply (List.prefix_append_right_inj b).mpr
        exact (List.dropLast_prefix mark).trans (List.prefix_append mark a)
      · exact ih hb hi

/-- A text is cut at the first place where the mark stands. -/
theorem cutAtMark_eq_some_iff {mark : Text} (hm : mark ≠ []) {t before after : Text} :
  cutAtMark mark t = some (before, after)
    ↔ t = before ++ mark ++ after ∧ ¬mark <:+: before ++ mark.dropLast
  := by
  constructor
  · intro h
    exact ⟨eq_append_of_cutAtMark h, not_isInfix_of_cutAtMark hm h⟩
  · rintro ⟨rfl, h⟩
    induction before with
    | nil =>
      rw [List.nil_append]
      apply cutAtMark_of_isPrefix hm
    | cons c before ih =>
      rw [List.cons_append] at h
      have hp : ¬mark.isPrefixOf (c :: (before ++ mark ++ after)) := by
        intro hp
        apply h
        apply List.IsPrefix.isInfix
        apply isPrefix_append_of_length_le (t := mark.getLast hm :: after)
        · have hl : c :: (before ++ mark ++ after)
              = c :: (before ++ mark.dropLast) ++ mark.getLast hm :: after := by
            conv_lhs => rw [← List.dropLast_concat_getLast hm]
            simp
          rw [← hl]
          exact List.isPrefixOf_iff_prefix.mp hp
        · rw [List.length_cons, List.length_append, List.length_dropLast]
          omega
      rw [List.cons_append, List.cons_append, cutAtMark, if_neg hp,
        ih fun hi => h (List.infix_cons hi)]
      rfl

/-- A single character is found behind a text that does not hold it. -/
theorem cutAtMark_append {c : Char} {t : Text} (h : c ∉ t) (rest : Text) :
  cutAtMark [c] (t ++ c :: rest) = some (t, rest)
  := by
  apply (cutAtMark_eq_some_iff (List.cons_ne_nil _ _)).mpr
  constructor
  · rw [List.append_assoc, List.singleton_append]
  · rw [List.dropLast_singleton, List.append_nil]
    intro hi
    apply h (hi.subset List.mem_cons_self)

/-- A mark is not found exactly when it is no part of the text. -/
theorem cutAtMark_eq_none_iff {mark : Text} (hm : mark ≠ []) {t : Text} :
  cutAtMark mark t = none ↔ ¬mark <:+: t
  := by
  induction t with
  | nil =>
    rw [List.infix_nil, cutAtMark]
    exact ⟨fun _ => hm, fun _ => rfl⟩
  | cons c t ih =>
    rw [cutAtMark, List.infix_cons_iff, ← List.isPrefixOf_iff_prefix, not_or, ← ih]
    split
    · rename_i hp
      constructor
      · intro h
        cases h
      · intro h
        exact absurd hp h.1
    · rename_i hp
      rw [Option.map_eq_none_iff]
      exact (and_iff_right hp).symm

/-! ## Literals on one line -/

theorem closeLine_newline (quote : Char) (t : Text) :
  closeLine quote ('\n' :: t) = none
  := by
  rw [closeLine.eq_def]
  apply if_pos rfl

/-- A character behind a backslash does not close a literal. -/
theorem closeLine_escape {quote : Char} (hb : quote ≠ backtick) (d : Char) (t : Text) :
  closeLine quote ('\\' :: d :: t)
    = (closeLine quote t).map fun (inner, rest) => ('\\' :: d :: inner, rest)
  := by
  have hb : (decide ('\\' = '\\') && quote != backtick) = true := by
    rw [decide_eq_true rfl, Bool.true_and]
    exact bne_iff_ne.mpr hb
  rw [closeLine, if_neg (by decide), if_pos hb]

theorem closeLine_quote {quote : Char} (hq : isQuote quote) (t : Text) :
  closeLine quote (quote :: t) = some ([], t)
  := by
  simp only [isQuote, Bool.or_eq_true, decide_eq_true_eq] at hq
  rw [closeLine.eq_def]
  dsimp only
  rcases hq with (rfl | rfl) | rfl <;> rw [if_neg (by decide), if_neg (by decide), if_pos rfl]

/-- A character that does not close a literal belongs to it. -/
theorem closeLine_of_ne {quote c : Char} (hn : c ≠ '\n')
    (hb : ¬(c = '\\' && quote != backtick) = true) (hq : c ≠ quote) (t : Text) :
  closeLine quote (c :: t) = (closeLine quote t).map fun (inner, rest) => (c :: inner, rest)
  := by
  rw [closeLine.eq_def]
  dsimp only
  rw [if_neg hn, if_neg hb, if_neg hq]

/-- The end of a literal does not depend on the text after it. -/
theorem closeLine_reread {quote : Char} (hq : isQuote quote) {t inner rest : Text}
    (h : closeLine quote t = some (inner, rest)) (u : Text) :
  closeLine quote (inner ++ quote :: u) = some (inner, u)
  := by
  fun_induction closeLine quote t generalizing inner with
  | case1 => cases h
  | case2 => cases h
  | case3 => cases h
  | case4 c hn hb d v ih =>
    simp only [Bool.and_eq_true, decide_eq_true_eq, bne_iff_ne] at hb
    obtain ⟨rfl, hb⟩ := hb
    simp only [Option.map_eq_some_iff, Prod.mk.injEq, Prod.exists] at h
    obtain ⟨i, r, hi, rfl, rfl⟩ := h
    rw [List.cons_append, List.cons_append, closeLine_escape hb, ih hi, Option.map_some]
  | case5 v hn hb =>
    simp only [Option.some.injEq, Prod.mk.injEq] at h
    obtain ⟨rfl, rfl⟩ := h
    apply closeLine_quote hq
  | case6 c v hn hb hq ih =>
    simp only [Option.map_eq_some_iff, Prod.mk.injEq, Prod.exists] at h
    obtain ⟨i, r, hi, rfl, rfl⟩ := h
    rw [List.cons_append, closeLine_of_ne hn hb hq, ih hi, Option.map_some]

end Text

namespace Lexeme

open Text

/-- The first lexeme of a text starts with its first character. -/
theorem exists_text_first (c : Char) (t : Text) :
  ∃ tail, (first c t).1.text = c :: tail
  := by
  have h := text_first_append c t
  cases hl : (first c t).1 with
  | quoted q tail =>
    rw [hl, text, List.cons_append, List.cons.injEq] at h
    exact ⟨tail, by rw [text, h.1]⟩
  | plain d =>
    rw [hl, text, List.cons_append, List.cons.injEq] at h
    exact ⟨[], by rw [text, h.1]⟩

/-- Two quotes begin a literal of three quotes only if a third one follows them. -/
theorem not_isPrefixOf_literal {inner rest : Text}
    (h : closeLine apostrophe (inner ++ [apostrophe]) = some (inner, []))
    (hr : inner = [] → rest.head? ≠ some apostrophe) :
  ¬[apostrophe, apostrophe].isPrefixOf (inner ++ apostrophe :: rest)
  := by
  intro hp
  obtain ⟨u, hu⟩ := List.isPrefixOf_iff_prefix.mp hp
  cases inner with
  | nil =>
    apply hr rfl
    rw [List.nil_append, List.cons_append, List.cons.injEq] at hu
    rw [← hu.2]
    rfl
  | cons c inner =>
    obtain rfl : apostrophe = c := (List.cons.inj hu).1
    rw [List.cons_append, closeLine_quote rfl] at h
    cases h

/-- A literal on one line is a lexeme whatever follows it, except that two apostrophes must not
be followed by a third one. -/
theorem first_literal {quote : Char} (hq : isQuote quote) {inner rest : Text}
    (h : closeLine quote (inner ++ [quote]) = some (inner, []))
    (hr : quote = apostrophe → inner = [] → rest.head? ≠ some apostrophe) :
  first quote (inner ++ quote :: rest) = (quoted quote (inner ++ [quote]), rest)
  := by
  have ht : ¬(quote = apostrophe && [apostrophe, apostrophe].isPrefixOf (inner ++ quote :: rest))
      = true := by
    rw [Bool.and_eq_true, decide_eq_true_eq]
    rintro ⟨rfl, hp⟩
    exact not_isPrefixOf_literal h (hr rfl) hp
  rw [first, if_neg ht, if_pos hq, closeLine_reread hq h]

/-- A quote that is not closed on its line stands for itself. -/
theorem first_lone {quote : Char} (hq : isQuote quote) {t : Text}
    (hp : ¬(quote = apostrophe && [apostrophe, apostrophe].isPrefixOf t) = true)
    (h : closeLine quote t = none) :
  first quote t = (quoted quote [], t)
  := by
  rw [first, if_neg hp, if_pos hq, h]

/-- A literal between three apostrophes on either side is a lexeme whatever follows it. -/
theorem first_tripleQuote {inner rest : Text}
    (h : cutAtMark tripleQuote (inner ++ tripleQuote ++ rest) = some (inner, rest)) :
  first apostrophe ([apostrophe, apostrophe] ++ inner ++ tripleQuote ++ rest)
    = (quoted apostrophe ([apostrophe, apostrophe] ++ inner ++ tripleQuote), rest)
  := by
  have hp : (apostrophe = apostrophe && [apostrophe, apostrophe].isPrefixOf
      ([apostrophe, apostrophe] ++ (inner ++ tripleQuote ++ rest))) = true := rfl
  rw [List.append_assoc, List.append_assoc, ← List.append_assoc inner, first, if_pos hp]
  simp only [List.cons_append, List.nil_append, List.drop_succ_cons, List.drop_zero]
  rw [h]

/-- Three apostrophes that are not closed stand for themselves. -/
theorem first_lone_tripleQuote {t : Text} (h : cutAtMark tripleQuote t = none) :
  first apostrophe ([apostrophe, apostrophe] ++ t)
    = (quoted apostrophe [apostrophe, apostrophe], t)
  := by
  have hp : (apostrophe = apostrophe && [apostrophe, apostrophe].isPrefixOf
      ([apostrophe, apostrophe] ++ t)) = true := rfl
  rw [first, if_pos hp]
  simp only [List.cons_append, List.nil_append, List.drop_succ_cons, List.drop_zero]
  rw [h]

theorem first_plain {c : Char} (hc : isQuote c = false) (t : Text) :
  first c t = (plain c, t)
  := by
  have ha : c ≠ apostrophe := by
    rintro rfl
    cases hc
  rw [first, decide_eq_false ha, Bool.false_and, if_neg Bool.false_ne_true, hc,
    if_neg Bool.false_ne_true]

end Lexeme

end DatabaseMarkup
