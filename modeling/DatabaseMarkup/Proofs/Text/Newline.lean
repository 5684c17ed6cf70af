import DatabaseMarkup.Proofs.Settings.Literal
import DatabaseMarkup.Proofs.Text.Literal
import DatabaseMarkup.Proofs.Text.Seam
import DatabaseMarkup.Proofs.Text.Trim

/-!
# A newline behind a text

No quote in front of some characters is closed by one of them if none of them is a quote.  So the
lexemes of a text stay as they are before such characters, and a group of the text does if none of
the characters closes it.

A reader therefore finds in a text with a newline behind it what it finds in the text alone.  What
it leaves over has the newline behind it or is empty in both cases: `Text.WithNewline` says so.
-/

namespace DatabaseMarkup

namespace Text

/-! ## Lexemes -/

section

variable {r : Text}

/-- Text that shares no characters with a mark does not complete it. -/
theorem isPrefixOf_append {mark : Text} (hr : ∀ c ∈ r, c ∉ mark) (t : Text) :
  mark.isPrefixOf (t ++ r) = mark.isPrefixOf t
  := by
  rw [Bool.eq_iff_iff, List.isPrefixOf_iff_prefix, List.isPrefixOf_iff_prefix]
  constructor
  · rintro ⟨u, hu⟩
    rcases List.append_eq_append_iff.mp hu with ⟨w, rfl, _⟩ | ⟨w, rfl, rfl⟩
    · apply List.prefix_append
    · cases w with
      | nil => rw [List.append_nil]
      | cons c w => exact absurd (by simp) (hr c (by simp))
  · intro h
    exact h.trans (List.prefix_append t r)

/-- A mark is not found in characters that do not belong to it. -/
theorem cutAtMark_append_of_notMem {mark : Text} (hm : mark ≠ []) (hr : ∀ c ∈ r, c ∉ mark)
    (t : Text) :
  cutAtMark mark (t ++ r)
    = (cutAtMark mark t).map fun (before, after) => (before, after ++ r)
  := by
  induction t with
  | nil =>
    apply (cutAtMark_eq_none_iff hm).mpr
    intro h
    obtain ⟨c, more, rfl⟩ := List.exists_cons_of_ne_nil hm
    exact hr c (h.subset List.mem_cons_self) List.mem_cons_self
  | cons c t ih =>
    rw [List.cons_append, cutAtMark, cutAtMark, ← List.cons_append, isPrefixOf_append hr]
    split
    · rename_i hp
      have hl := (List.isPrefixOf_iff_prefix.mp hp).length_le
      rw [List.drop_append_of_le_length hl]
      rfl
    · rw [ih, Option.map_map, Option.map_map]
      rfl

/-- A literal whose quote does not occur again is open. -/
theorem closeLine_eq_none {quote : Char} {t : Text} (h : quote ∉ t) :
  closeLine quote t = none
  := by
  rw [Option.eq_none_iff_forall_not_mem]
  rintro ⟨inner, rest⟩ hc
  rw [closeLine_append hc] at h
  exact h (List.mem_append_right inner List.mem_cons_self)

/-- A literal is not closed by characters that are no quotes, also when a backslash stands before
them. -/
theorem closeLine_append_of_notMem {quote : Char} (hq : isQuote quote) (hr : quote ∉ r) (t : Text) :
  closeLine quote (t ++ r) = (closeLine quote t).map fun (inner, rest) => (inner, rest ++ r)
  := by
  fun_induction closeLine quote t with
  | case1 => apply closeLine_eq_none hr
  | case2 v =>
    apply closeLine_newline
  | case3 c hn hb =>
    apply closeLine_eq_none
    rw [List.singleton_append, List.mem_cons, not_or]
    refine ⟨?_, hr⟩
    rintro rfl
    rw [Bool.and_eq_true, decide_eq_true_eq] at hb
    rw [hb.1] at hq
    exact absurd hq (by decide)
  | case4 c hn hb d v ih =>
    rw [Bool.and_eq_true, decide_eq_true_eq] at hb
    obtain ⟨rfl, hb⟩ := hb
    rw [List.cons_append, List.cons_append, closeLine_escape (bne_iff_ne.mp hb), ih, Option.map_map,
      Option.map_map]
    rfl
  | case5 v =>
    rw [List.cons_append, closeLine_quote hq]
    rfl
  | case6 c v hn hb hc ih =>
    rw [List.cons_append, closeLine_of_ne hn hb hc, ih, Option.map_map, Option.map_map]
    rfl

/-- Text without quotes behind a text does not change its first lexeme. -/
theorem first_append_of_notQuote (hr : ∀ c ∈ r, isQuote c = false) (c : Char) (t : Text) :
  Lexeme.first c (t ++ r) = ((Lexeme.first c t).1, (Lexeme.first c t).2 ++ r)
  := by
  have hmark {mark : Text} (hm : ∀ d ∈ mark, isQuote d) : ∀ d ∈ r, d ∉ mark := by
    intro d hd h
    have hq := hm d h
    rw [hr d hd] at hq
    cases hq
  have hp : [apostrophe, apostrophe].isPrefixOf (t ++ r) = [apostrophe, apostrophe].isPrefixOf t :=
    isPrefixOf_append (hmark (Unicode.forall_mem_of_all (by decide))) t
  rw [Lexeme.first, Lexeme.first, hp]
  split
  · rename_i h
    rw [Bool.and_eq_true] at h
    have hl : 2 ≤ t.length := (List.isPrefixOf_iff_prefix.mp h.2).length_le
    rw [List.drop_append_of_le_length hl,
      cutAtMark_append_of_notMem (List.cons_ne_nil _ _)
        (hmark (Unicode.forall_mem_of_all (by decide)))]
    cases cutAtMark tripleQuote (t.drop 2) <;> rfl
  · split
    · rename_i hq
      have hc : c ∉ r := by
        intro hm
        rw [hr c hm] at hq
        cases hq
      rw [closeLine_append_of_notMem hq hc]
      cases closeLine c t <;> rfl
    · rfl

/-- The lexemes of a text stay as they are before characters that are no quotes. -/
theorem lexemes_append_of_notQuote (hr : ∀ c ∈ r, isQuote c = false) (t : Text) :
  lexemes (t ++ r) = lexemes t ++ r.map .plain
  := by
  fun_induction lexemes t with
  | case1 =>
    have h := lexemes_append hr []
    rwa [List.append_nil, lexemes, List.append_nil] at h
  | case2 c t ih =>
    rw [List.cons_append, lexemes_cons, first_append_of_notQuote hr, ih, List.cons_append]

end

/-! ## Groups -/

/-- A group is not closed by lexemes among which there is no closing delimiter. -/
theorem closeLexemes_append_of_notMem {opener closer : Char} {ms : List Lexeme}
    (hm : .plain closer ∉ ms) (depth : Nat) (ls : List Lexeme) :
  closeLexemes opener closer depth (ls ++ ms)
    = (closeLexemes opener closer depth ls).map fun (inner, rest) => (inner, rest ++ ms)
  := by
  cases h : closeLexemes opener closer depth ls with
  | some group => exact DelimiterPairs.closeLexemes_append_right h ms
  | none =>
    fun_induction closeLexemes opener closer depth ls with
    | case1 depth =>
      rw [Option.map_none, Option.eq_none_iff_forall_not_mem]
      rintro ⟨inner, rest⟩ hc
      have he := eq_append_of_closeLexemes hc
      rw [List.nil_append] at he
      rw [he] at hm
      exact hm (List.mem_append_right inner List.mem_cons_self)
    | case2 ls => cases h
    | case3 ls depth ih =>
      rw [List.cons_append, closeLexemes_closer_succ, ih (Option.map_eq_none_iff.mp h)]
      rfl
    | case4 depth l ls hc ih =>
      rw [List.cons_append, closeLexemes_ne_closer hc, ih (Option.map_eq_none_iff.mp h)]
      rfl

/-- Delimiters are neither quotes nor newlines. -/
theorem closerOf?_ne {opener closer : Char} (h : closerOf? opener = some closer) :
  isQuote opener = false ∧ isQuote closer = false ∧ closer ≠ '\n'
  := by
  rw [closerOf?] at h
  split at h
  · rename_i ho
    cases h
    rw [ho]
    decide
  · split at h
    · rename_i ho
      cases h
      rw [ho]
      decide
    · split at h
      · rename_i ho
        cases h
        rw [ho]
        decide
      · cases h

/-- A group ends in front of a newline where it ends without it. -/
theorem splitGroup?_concat_newline {t : Text} (ht : t ≠ []) :
  splitGroup? (t ++ ['\n'])
    = (splitGroup? t).map fun (inner, rest) => (inner, rest ++ ['\n'])
  := by
  obtain ⟨opener, t, rfl⟩ := List.exists_cons_of_ne_nil ht
  rw [List.cons_append, splitGroup?, splitGroup?]
  cases h : closerOf? opener with
  | none => rfl
  | some closer =>
    obtain ⟨ho, hc, hn⟩ := closerOf?_ne h
    have hm : Lexeme.plain closer ∉ ['\n'].map Lexeme.plain := by
      intro hm
      exact hn (Lexeme.plain.inj (List.mem_singleton.mp hm))
    dsimp only
    rw [closeGroup_eq ho hc, closeGroup_eq ho hc,
      lexemes_append_of_notQuote (List.forall_mem_singleton.mpr rfl),
      closeLexemes_append_of_notMem hm, Option.map_map, Option.map_map]
    congr 1
    funext group
    exact congrArg (_, ·) (ofLexemes_append group.2 (['\n'].map .plain))

/-! ## What is left over -/

/-- Whether a text is another one with a newline behind it, or both are empty. -/
inductive WithNewline : Text → Text → Prop
  | nil : WithNewline [] []
  | newline (t : Text) : WithNewline t (t ++ ['\n'])

/-- Whether two readers find the same, where the second one reads a newline more. -/
def ReadsAlike {α : Type} (x y : α × Text) : Prop :=
  x.1 = y.1 ∧ WithNewline x.2 y.2

section

variable {t u : Text}

theorem dropWhile_concat {p : Char → Bool} {c : Char} (ht : t.dropWhile p ≠ []) :
  (t ++ [c]).dropWhile p = t.dropWhile p ++ [c]
  := by
  rw [List.dropWhile_append, if_neg]
  rw [List.isEmpty_iff]
  exact ht

theorem dropWhile_concat_of_eq_nil {p : Char → Bool} {c : Char} (hc : p c)
    (ht : t.dropWhile p = []) :
  (t ++ [c]).dropWhile p = []
  := by
  rw [List.dropWhile_append, ht, List.isEmpty_nil, if_pos rfl, List.dropWhile_cons, if_pos hc,
    List.dropWhile_nil]

theorem takeWhile_concat {p : Char → Bool} {c : Char} (hc : p c = false) (t : Text) :
  (t ++ [c]).takeWhile p = t.takeWhile p
  := by
  induction t with
  | nil => rw [List.nil_append, List.takeWhile_cons, if_neg (by rw [hc]; decide), List.takeWhile_nil]
  | cons d t ih => rw [List.cons_append, List.takeWhile_cons, List.takeWhile_cons, ih]

/-- Dropping characters from the start leaves the newline at the end, or nothing at all. -/
theorem WithNewline.dropWhile (h : WithNewline t u) (p : Char → Bool) :
  WithNewline (t.dropWhile p) (u.dropWhile p)
  := by
  cases h with
  | nil => exact .nil
  | newline t =>
    by_cases ht : t.dropWhile p = []
    · rw [List.dropWhile_append, ht, List.isEmpty_nil, if_pos rfl, List.dropWhile_cons]
      split
      · exact .nil
      · exact .newline []
    · rw [dropWhile_concat ht]
      exact .newline _

theorem WithNewline.drop_one (h : WithNewline t u) :
  WithNewline (t.drop 1) (u.drop 1)
  := by
  cases h with
  | nil => exact .nil
  | newline t =>
    cases t with
    | nil => exact .nil
    | cons c t => exact .newline t

theorem WithNewline.dropLine (h : WithNewline t u) :
  WithNewline (dropLine t) (dropLine u)
  := (h.dropWhile _).drop_one

/-- A newline at the end does not change the first line. -/
theorem firstLine_concat_newline (t : Text) :
  firstLine (t ++ ['\n']) = firstLine t
  := takeWhile_concat rfl t

/-- A newline at the end is trimmed. -/
theorem trim_concat_newline (t : Text) :
  trim (t ++ ['\n']) = trim t
  := by
  by_cases ht : trimStart t = []
  · rw [trim, trimStart, dropWhile_concat_of_eq_nil rfl ht, trim, ht]
  · have hb : Unicode.isBlank '\n' = true := rfl
    rw [trim, trimStart, dropWhile_concat ht, trimEnd, List.reverse_append, List.reverse_singleton,
      List.singleton_append, List.dropWhile_cons, if_pos hb]
    rfl

/-- A newline at the end does not change whether a text starts with a keyword. -/
theorem splitKeyword?_concat_newline {keyword : Text} (hk : ∀ c ∈ keyword, spells c '\n' = false)
    (t : Text) :
  splitKeyword? keyword (t ++ ['\n']) = (splitKeyword? keyword t).map (· ++ ['\n'])
  := by
  induction keyword generalizing t with
  | nil => rfl
  | cons letter letters ih =>
    obtain ⟨hl, hk⟩ := List.forall_mem_cons.mp hk
    cases t with
    | nil =>
      rw [List.nil_append, splitKeyword?.eq_def]
      dsimp only
      rw [hl, if_neg Bool.false_ne_true]
      rfl
    | cons c t =>
      rw [List.cons_append, splitKeyword?, splitKeyword?, ih hk]
      split <;> rfl

end

end Text

open Text

namespace Value

/-- A newline at the end does not change a bare value. -/
theorem readsAlike_readBare (t : Text) :
  ReadsAlike (readBare t) (readBare (t ++ ['\n']))
  := by
  constructor
  · rw [readBare, readBare, firstLine_concat_newline]
  · exact (WithNewline.newline t).dropWhile _

/-- A newline at the end does not change a value. -/
theorem readsAlike_read_concat (t : Text) :
  ReadsAlike (read t) (read (t ++ ['\n']))
  := by
  have hn (mark : Text) (hm : '\n' ∉ mark) : ∀ c ∈ ['\n'], c ∉ mark :=
    List.forall_mem_singleton.mpr hm
  by_cases ht : tripleQuote.isPrefixOf t
  · have ht' : tripleQuote.isPrefixOf (t ++ ['\n']) := by
      rw [isPrefixOf_append (hn _ (by decide))]
      exact ht
    have hl : 3 ≤ t.length := (List.isPrefixOf_iff_prefix.mp ht).length_le
    rw [read.eq_def, read.eq_def, if_pos ht, if_pos ht', List.drop_append_of_le_length hl,
      cutAtMark_append_of_notMem (List.cons_ne_nil _ _) (hn _ (by decide))]
    cases cutAtMark tripleQuote (t.drop 3) with
    | none =>
      refine ⟨?_, .nil⟩
      rw [Option.map_none, trim_concat_newline]
    | some cut => exact ⟨rfl, .newline _⟩
  · have ht' : ¬tripleQuote.isPrefixOf (t ++ ['\n']) := by
      rw [isPrefixOf_append (hn _ (by decide))]
      exact ht
    have hbare := readsAlike_readBare t
    rw [read.eq_def, read.eq_def, if_neg ht, if_neg ht']
    cases t with
    | nil => exact hbare
    | cons c t =>
      rw [List.cons_append] at hbare ⊢
      dsimp only
      split
      · rename_i hc
        rw [cutAtMark_append_of_notMem (List.cons_ne_nil _ _) (hn _ (by decide))]
        cases cutAtMark [backtick] t with
        | none =>
          refine ⟨?_, .nil⟩
          rw [Option.map_none, trim_concat_newline]
        | some cut => exact ⟨rfl, .newline _⟩
      · split
        · rename_i hq
          have hc : c ∉ ['\n'] := by
            intro h
            rw [List.mem_singleton.mp h] at hq
            exact absurd hq (by decide)
          rw [closeLine_append_of_notMem hq hc]
          cases closeLine c t with
          | none => exact hbare
          | some cut => exact ⟨rfl, .newline _⟩
        · exact hbare

/-- A value is the same with a newline behind the text. -/
theorem readsAlike_read {t u : Text} (h : WithNewline t u) :
  ReadsAlike (read t) (read u)
  := by
  cases h with
  | nil => exact ⟨rfl, .nil⟩
  | newline t => exact readsAlike_read_concat t

end Value

end DatabaseMarkup
