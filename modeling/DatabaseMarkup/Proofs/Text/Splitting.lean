import DatabaseMarkup.Proofs.Text.Pairing

/-!
# Splitting at separators

Where a text is cut between two lexemes, no quote in front of the cut changes its partner: a run of
lexemes of a text consists of the same lexemes when it stands alone, which `Text.lexemes_ofLexemes_run`
states.  The parts of a text between its separators are such runs, and no group is open where one of
them begins.  So each of them is split as it was split in the text, that is, not at all.

`top_level_parts_are_atomic` states this together with what the parts have to do with the text: the
separators that the text has outside of its literals and groups stand between them.
-/

namespace DatabaseMarkup

/-! ## Lexemes in front of a cut -/

namespace Lexeme

open Text

/-- A lexeme is not changed by the end of the text moving up to some place behind it. -/
theorem first_of_append {c : Char} {t u rest : Text} {l : Lexeme}
    (h : first c (t ++ u) = (l, rest ++ u)) :
  first c t = (l, rest)
  := by
  have htext : l.text ++ rest = c :: t := by
    have ht := text_first_append c (t ++ u)
    rw [h] at ht
    dsimp only at ht
    rw [← List.append_assoc, ← List.cons_append] at ht
    exact List.append_cancel_right ht
  have htriple : ¬(c = apostrophe && [apostrophe, apostrophe].isPrefixOf (t ++ u)) = true →
      ¬(c = apostrophe && [apostrophe, apostrophe].isPrefixOf t) = true := by
    simp only [Bool.and_eq_true, decide_eq_true_eq, List.isPrefixOf_iff_prefix]
    rintro hn ⟨hc, hp⟩
    exact hn ⟨hc, hp.trans (List.prefix_append t u)⟩
  rw [first] at h
  split at h
  · rename_i hp
    rw [Bool.and_eq_true, decide_eq_true_eq] at hp
    obtain ⟨rfl, -⟩ := hp
    split at h
    · rename_i inner after hcut
      obtain ⟨rfl, rfl⟩ := Prod.mk.inj h
      obtain rfl := (List.cons.inj htext).2
      apply first_tripleQuote
      apply (cutAtMark_eq_some_iff (List.cons_ne_nil _ _)).mpr
      exact ⟨rfl, not_isInfix_of_cutAtMark (List.cons_ne_nil _ _) hcut⟩
    · rename_i hcut
      obtain ⟨rfl, hrest⟩ := Prod.mk.inj h
      obtain rfl := (List.cons.inj htext).2
      apply first_lone_tripleQuote
      rw [hrest, cutAtMark_eq_none_iff (List.cons_ne_nil _ _)] at hcut
      apply (cutAtMark_eq_none_iff (List.cons_ne_nil _ _)).mpr
      exact fun hi => hcut (hi.trans (List.infix_append' [] rest u))
  · rename_i hp
    split at h
    · rename_i hq
      split at h
      · rename_i inner after hclose
        obtain ⟨rfl, rfl⟩ := Prod.mk.inj h
        obtain rfl : inner ++ [c] ++ rest = t := (List.cons.inj htext).2
        rw [first, if_neg (htriple hp), if_pos hq, List.append_assoc, List.singleton_append,
          closeLine_reread hq hclose rest]
      · rename_i hclose
        obtain ⟨rfl, -⟩ := Prod.mk.inj h
        obtain rfl := (List.cons.inj htext).2
        apply first_lone hq (htriple hp)
        apply Option.eq_none_iff_forall_not_mem.mpr
        rintro ⟨inner, after⟩ hc
        have hreread := closeLine_reread hq hc (after ++ u)
        rw [← List.cons_append, ← List.append_assoc, ← closeLine_append hc, hclose] at hreread
        cases hreread
    · rename_i hq
      obtain ⟨rfl, -⟩ := Prod.mk.inj h
      obtain rfl := (List.cons.inj htext).2
      apply first_plain (eq_false_of_ne_true hq)

end Lexeme

namespace Text

/-- The lexemes in front of some of those of a text are the lexemes of the text that they make up. -/
theorem lexemes_ofLexemes_left {t : Text} {before after : List Lexeme}
    (h : lexemes t = before ++ after) :
  lexemes (ofLexemes before) = before
  := by
  induction before generalizing t with
  | nil => rw [ofLexemes_nil, lexemes]
  | cons l before ih =>
    cases t with
    | nil =>
      rw [lexemes] at h
      cases h
    | cons c t =>
      rw [lexemes_cons] at h
      rw [List.cons_append, List.cons.injEq] at h
      obtain ⟨rfl, hrest⟩ := h
      have hbehind : (Lexeme.first c t).2 = ofLexemes before ++ ofLexemes after := by
        rw [← ofLexemes_append, ← hrest, ofLexemes_lexemes]
      obtain ⟨tail, htail⟩ := Lexeme.exists_text_first c t
      have ht : t = tail ++ ofLexemes before ++ ofLexemes after := by
        have htext := Lexeme.text_first_append c t
        rw [htail, hbehind, List.cons_append, List.cons.injEq] at htext
        rw [← htext.2, List.append_assoc]
      have hfirst : Lexeme.first c (tail ++ ofLexemes before)
          = ((Lexeme.first c t).1, ofLexemes before) := by
        apply Lexeme.first_of_append (u := ofLexemes after)
        rw [← ht, ← hbehind]
      rw [ofLexemes_cons, htail, List.cons_append, lexemes_cons, hfirst, ih hrest]

/-- A run of lexemes of a text consists of the same lexemes when it stands alone. -/
theorem lexemes_ofLexemes_run {t : Text} {before run after : List Lexeme}
    (h : lexemes t = before ++ (run ++ after)) :
  lexemes (ofLexemes run) = run
  := lexemes_ofLexemes_left (lexemes_ofLexemes h)

/-! ## Cuts at a separator -/

section

variable {separator : Char}

/-- The parts of the lexemes on both sides of a separator outside of groups are those of all of
them. -/
theorem splitLexemes_append_cut (hd : isDelimiter (.plain separator) = false) {depth : Nat}
    {ls : List Lexeme} (hg : ls.foldl groupsAfter depth = 0) (ms : List Lexeme) :
  splitLexemes separator depth (ls ++ .plain separator :: ms)
    = splitLexemes separator depth ls ++ splitLexemes separator 0 ms
  := by
  induction ls generalizing depth with
  | nil =>
    obtain rfl : depth = 0 := hg
    exact splitLexemes_separator hd ms
  | cons l ls ih =>
    rw [List.foldl_cons] at hg
    rw [List.cons_append]
    by_cases h : (l = .plain separator && depth = 0 && !isDelimiter l) = true
    · simp only [Bool.and_eq_true, decide_eq_true_eq] at h
      obtain ⟨⟨rfl, rfl⟩, -⟩ := h
      rw [groupsAfter_of_isDelimiter_eq_false hd] at hg
      rw [splitLexemes_separator hd, splitLexemes_separator hd, ih hg, List.cons_append]
    · obtain ⟨part, parts, hp⟩ :=
        List.exists_cons_of_ne_nil (splitLexemes_ne_nil separator (groupsAfter depth l) ls)
      rw [splitLexemes_of_ne h, splitLexemes_of_ne h, ih hg, hp]
      rfl

/-- Between two parts stands a separator outside of groups. -/
theorem exists_cut_of_splitLexemes {depth : Nat} {ls : List Lexeme} {ps qs : List Text}
    (h : splitLexemes separator depth ls = ps ++ qs) (hp : ps ≠ []) (hq : qs ≠ []) :
  ∃ ms ns, ls = ms ++ .plain separator :: ns ∧ ms.foldl groupsAfter depth = 0
    ∧ isDelimiter (.plain separator) = false ∧ splitLexemes separator depth ms = ps
    ∧ splitLexemes separator 0 ns = qs
  := by
  obtain ⟨p, ps, rfl⟩ := List.exists_cons_of_ne_nil hp
  induction ls generalizing depth p ps with
  | nil =>
    obtain ⟨-, h⟩ := List.cons.inj h
    exact absurd (List.append_eq_nil_iff.mp h.symm).2 hq
  | cons l ls ih =>
    by_cases hl : (l = .plain separator && depth = 0 && !isDelimiter l) = true
    · simp only [Bool.and_eq_true, decide_eq_true_eq, Bool.not_eq_true'] at hl
      obtain ⟨⟨rfl, rfl⟩, hd⟩ := hl
      rw [splitLexemes_separator hd, List.cons_append, List.cons.injEq] at h
      obtain ⟨rfl, h⟩ := h
      cases ps with
      | nil => exact ⟨[], ls, rfl, rfl, hd, rfl, h⟩
      | cons q ps =>
        obtain ⟨ms, ns, rfl, hg, -, hms, hns⟩ := ih q ps h (List.cons_ne_nil _ _)
        refine ⟨.plain separator :: ms, ns, rfl, ?_, hd, ?_, hns⟩
        · rw [List.foldl_cons, groupsAfter_of_isDelimiter_eq_false hd, hg]
        · rw [splitLexemes_separator hd, hms]
    · obtain ⟨part, parts, hparts⟩ :=
        List.exists_cons_of_ne_nil (splitLexemes_ne_nil separator (groupsAfter depth l) ls)
      rw [splitLexemes_of_ne hl, hparts] at h
      obtain ⟨rfl, rfl⟩ := List.cons.inj h
      obtain ⟨ms, ns, rfl, hg, hd, hms, hns⟩ := ih part ps hparts (List.cons_ne_nil _ _)
      refine ⟨l :: ms, ns, rfl, hg, hd, ?_, hns⟩
      rw [splitLexemes_of_ne hl, hms]
      rfl

/-- A part is made of a run of the lexemes, which is not split further. -/
theorem exists_run_of_mem_splitLexemes {ls : List Lexeme} {part : Text}
    (h : part ∈ splitLexemes separator 0 ls) :
  ∃ before run after, ls = before ++ (run ++ after) ∧ splitLexemes separator 0 run = [part]
  := by
  obtain ⟨ps, qs, h⟩ := List.append_of_mem h
  obtain ⟨before, behind, rfl, hbehind⟩ :
      ∃ before behind, ls = before ++ behind ∧ splitLexemes separator 0 behind = part :: qs := by
    cases ps with
    | nil => exact ⟨[], ls, rfl, h⟩
    | cons p ps =>
      obtain ⟨ms, ns, rfl, -, -, -, hns⟩ :=
        exists_cut_of_splitLexemes h (List.cons_ne_nil _ _) (List.cons_ne_nil _ _)
      exact ⟨ms ++ [.plain separator], ns, (List.append_cons ..), hns⟩
  cases qs with
  | nil => exact ⟨before, behind, [], by rw [List.append_nil], hbehind⟩
  | cons q qs =>
    have hcut : splitLexemes separator 0 behind = [part] ++ q :: qs := hbehind
    obtain ⟨run, ns, rfl, -, -, hrun, -⟩ :=
      exists_cut_of_splitLexemes hcut (List.cons_ne_nil _ _) (List.cons_ne_nil _ _)
    exact ⟨before, run, .plain separator :: ns, rfl, hrun⟩

end

/-- Whether a text has the separator between two parts of it, outside of its literals and of its
groups of any kind. -/
def SeparatesAt (separator : Char) (t before after : Text) : Prop :=
  ∃ ls ms, lexemes t = ls ++ .plain separator :: ms ∧ ls.foldl groupsAfter 0 = 0
    ∧ isDelimiter (.plain separator) = false ∧ before = ofLexemes ls ∧ after = ofLexemes ms

end Text

open Text

/-- The parts of a text are joined to the text by the separator.  None of them can be split again,
and the places between them are those where the text has the separator outside of its literals and
groups. -/
theorem top_level_parts_are_atomic (separator : Char) (t : Text) :
  let parts := splitTopLevel separator t
  [separator].intercalate parts = t
    ∧ (∀ part ∈ parts, splitTopLevel separator part = [part])
    ∧ ∀ before after, SeparatesAt separator t before after
      ↔ ∃ ps qs, parts = ps ++ qs ∧ ps ≠ [] ∧ qs ≠ []
          ∧ before = [separator].intercalate ps ∧ after = [separator].intercalate qs
  := by
  intro parts
  refine ⟨intercalate_splitTopLevel separator t, ?_, ?_⟩
  · intro part hpart
    obtain ⟨before, run, after, hl, hrun⟩ := exists_run_of_mem_splitLexemes hpart
    have hpart : part = ofLexemes run := by
      rw [← intercalate_splitLexemes separator 0 run, hrun, List.intercalate_singleton]
    rw [splitTopLevel, hpart, lexemes_ofLexemes_run hl, hrun, ← hpart]
  · intro before after
    constructor
    · rintro ⟨ls, ms, hl, hg, hd, rfl, rfl⟩
      refine ⟨splitLexemes separator 0 ls, splitLexemes separator 0 ms, ?_,
        splitLexemes_ne_nil separator 0 ls, splitLexemes_ne_nil separator 0 ms,
        (intercalate_splitLexemes separator 0 ls).symm,
        (intercalate_splitLexemes separator 0 ms).symm⟩
      rw [← splitLexemes_append_cut hd hg, ← hl]
      rfl
    · rintro ⟨ps, qs, hparts, hp, hq, rfl, rfl⟩
      obtain ⟨ls, ms, hl, hg, hd, rfl, rfl⟩ := exists_cut_of_splitLexemes hparts hp hq
      rw [intercalate_splitLexemes, intercalate_splitLexemes]
      exact ⟨ls, ms, hl, hg, hd, rfl, rfl⟩

/-- A closing delimiter without a partner, a quote without one and three of them do not keep a text
from being split, and a group that is never closed does. -/
example :
  let parts := splitTopLevel ',' "a), it\x27s, \x27b,\x27 \x27\x27\x27,[c,d".toList
  parts = ["a)".toList, " it\x27s, \x27b".toList, "\x27 \x27\x27\x27".toList, "[c,d".toList]
  := by
  decide +kernel

end DatabaseMarkup
