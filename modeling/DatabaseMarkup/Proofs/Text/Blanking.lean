import DatabaseMarkup.Proofs.Text.Comment
import DatabaseMarkup.Proofs.Text.Position

/-!
# Positions behind blanked comments

`Blanking s s'` says that `s'` is `s` with its comments blanked, where both are the beginnings of a
text before and after `Text.stripComments`.  `exists_blanking` states that a place of the stripped
text is a place of the text itself, at the same offset, unless it lies among the blanks that a
comment left behind.

Two such beginnings end on the same line.  They end in the same column too if no character beyond
ASCII was blanked on that line, which is `Blanking.displayWidth_eq`.  A comment of such characters
leaves more spaces behind than it took columns, or fewer.
-/

namespace DatabaseMarkup

open Text

namespace Text

/-! ## Last lines -/

/-- The last line of two texts is that of the second if a line begins in it. -/
theorem lastLine_append_of_newline_mem (s : Text) {t : Text} (ht : '\n' ∈ t) :
  lastLine (s ++ t) = lastLine t
  := by
  obtain ⟨a, b, rfl⟩ := List.append_of_mem ht
  rw [← List.append_assoc, lastLine_append_newline, lastLine_append_newline]

/-- A text without a newline goes on with the last line of the text before it. -/
theorem lastLine_append_of_newline_notMem (s : Text) {t : Text} (ht : '\n' ∉ t) :
  lastLine (s ++ t) = lastLine s ++ t
  := by
  have hp : ∀ c ∈ t.reverse, (c != '\n') = true := by
    intro c hc
    apply bne_iff_ne.mpr
    rintro rfl
    exact ht (List.mem_reverse.mp hc)
  rw [lastLine, List.reverse_append, List.takeWhile_append_of_pos hp, List.reverse_append,
    List.reverse_reverse, lastLine]

theorem newline_notMem_lastLine (t : Text) :
  '\n' ∉ lastLine t
  := by
  intro h
  have := List.mem_takeWhile_imp (List.mem_reverse.mp h)
  cases this

/-! ## What comments leave behind -/

theorem blanked_cons (c : Char) (t : Text) :
  blanked (c :: t) = blankOut c ++ blanked t
  := List.flatMap_cons

/-- Blanking a character keeps it if it is a newline, and puts none in its place otherwise. -/
theorem count_newline_blankOut (c : Char) :
  (blankOut c).count '\n' = [c].count '\n'
  := by
  rw [blankOut]
  split
  · rfl
  · rename_i hc
    rw [List.count_eq_zero_of_not_mem, List.count_eq_zero_of_not_mem]
    · rw [List.mem_singleton]
      exact Ne.symm hc
    · intro h
      cases List.eq_of_mem_replicate h

/-- Blanking a text keeps its newlines. -/
theorem count_newline_blanked (t : Text) :
  (blanked t).count '\n' = t.count '\n'
  := by
  induction t with
  | nil => rfl
  | cons c t ih =>
    rw [blanked_cons, List.count_append, count_newline_blankOut, ih, ← List.count_append]
    rfl

theorem newline_mem_blanked_iff (t : Text) :
  '\n' ∈ blanked t ↔ '\n' ∈ t
  := by
  rw [← List.count_pos_iff, count_newline_blanked, List.count_pos_iff]

/-- Only spaces and newlines are left of a blanked text. -/
theorem eq_space_or_newline_of_mem_blanked {c : Char} {t : Text} (h : c ∈ blanked t) :
  c = ' ' ∨ c = '\n'
  := by
  obtain ⟨d, _, hd⟩ := List.mem_flatMap.mp h
  rw [blankOut] at hd
  split at hd
  · rename_i hn
    rw [hn, List.mem_singleton] at hd
    exact .inr hd
  · exact .inl (List.eq_of_mem_replicate hd)

/-- Blanking a text blanks its last line. -/
theorem lastLine_blanked (t : Text) :
  lastLine (blanked t) = blanked (lastLine t)
  := by
  induction t with
  | nil => rfl
  | cons c t ih =>
    rw [blanked_cons]
    by_cases ht : '\n' ∈ t
    · have hl : lastLine (c :: t) = lastLine t := lastLine_append_of_newline_mem [c] ht
      rw [lastLine_append_of_newline_mem _ ((newline_mem_blanked_iff t).mpr ht), ih, hl]
    · have hl : lastLine (c :: t) = lastLine [c] ++ t := lastLine_append_of_newline_notMem [c] ht
      have hb := mt (newline_mem_blanked_iff t).mp ht
      rw [lastLine_append_of_newline_notMem _ hb, hl, blanked_append]
      congr 1
      rw [blankOut]
      split
      · rename_i hc
        rw [hc]
        rfl
      · rename_i hc
        have hn : '\n' ∉ List.replicate c.utf8Size ' ' := by
          intro h
          cases List.eq_of_mem_replicate h
        have hn' : '\n' ∉ [c] := by
          rw [List.mem_singleton]
          exact Ne.symm hc
        rw [lastLine_of_newline_notMem hn, lastLine_of_newline_notMem hn', blanked,
          List.flatMap_singleton, blankOut, if_neg hc]

/-- A part of a blanked comment that ends with its line is what a part of the comment leaves
behind. -/
theorem exists_append_of_blanked {t before after : Text} (h : blanked t = before ++ '\n' :: after) :
  ∃ s u, t = s ++ '\n' :: u ∧ before = blanked s
  := by
  induction t generalizing before with
  | nil => exact absurd h.symm (List.append_ne_nil_of_right_ne_nil _ (List.cons_ne_nil _ _))
  | cons c t ih =>
    rw [blanked_cons] at h
    by_cases hc : c = '\n'
    · subst hc
      cases before with
      | nil => exact ⟨[], t, rfl, rfl⟩
      | cons d before =>
        obtain ⟨rfl, hb⟩ := List.cons.inj (show '\n' :: blanked t = _ from h)
        obtain ⟨s, u, rfl, rfl⟩ := ih hb
        exact ⟨'\n' :: s, u, rfl, rfl⟩
    · -- the newline does not lie among the spaces that the first character leaves behind
      have hn : '\n' ∉ blankOut c := by
        rw [blankOut, if_neg hc]
        intro h
        cases List.eq_of_mem_replicate h
      rcases List.append_eq_append_iff.mp h with ⟨v, rfl, hb⟩ | ⟨v, hv, hb⟩
      · obtain ⟨s, u, rfl, rfl⟩ := ih hb
        exact ⟨c :: s, u, rfl, (blanked_cons c s).symm⟩
      · cases v with
        | nil =>
          rw [List.append_nil] at hv
          have hb : blanked t = [] ++ '\n' :: after := hb.symm
          obtain ⟨s, u, rfl, hs⟩ := ih hb
          refine ⟨c :: s, u, rfl, ?_⟩
          rw [blanked_cons, ← hs, List.append_nil, hv]
        | cons d v =>
          obtain ⟨rfl, _⟩ := List.cons.inj hb
          rw [hv] at hn
          exact absurd (List.mem_append_right _ List.mem_cons_self) hn

/-! ## The width of ASCII characters -/

/-- The characters of a text that are no ASCII characters. -/
def beyondAscii (t : Text) : Text :=
  t.filter fun c => !decide (Octets.IsAscii c)

theorem beyondAscii_append (s t : Text) :
  beyondAscii (s ++ t) = beyondAscii s ++ beyondAscii t
  := List.filter_append ..

theorem beyondAscii_cons (c : Char) (t : Text) :
  beyondAscii (c :: t) = beyondAscii [c] ++ beyondAscii t
  := beyondAscii_append [c] t

/-- A text has no characters beyond ASCII exactly when all of its characters are ASCII. -/
theorem beyondAscii_eq_nil_iff {t : Text} :
  beyondAscii t = [] ↔ ∀ c ∈ t, Octets.IsAscii c
  := by
  simp [beyondAscii]

theorem isAscii_of_mem_blanked {c : Char} {t : Text} (h : c ∈ blanked t) :
  Octets.IsAscii c
  := by
  rcases eq_space_or_newline_of_mem_blanked h with rfl | rfl <;> decide

/-- The width of a text is that of its tail and what its first character adds before that tail. -/
theorem widthAndTrail_cons (c : Char) (t : Text) :
  widthAndTrail (c :: t)
    = ((widthAndTrail t).1 + ((widthAndTrail t).2.step c).1, ((widthAndTrail t).2.step c).2)
  := rfl

/-- An ASCII character that no variation selector follows takes one column. -/
theorem step_of_isAscii {c : Char} (ha : Octets.IsAscii c) (hn : c ≠ '\n') :
  (Trail.plain .other).step c = (1, .plain .other)
  := by
  have hv : c.toNat ≤ 127 := UInt32.le_iff_toNat_le.mp ha
  have hs : ¬(Selector.emoji ∈ (Trail.plain .other).selectors ∧ Unicode.isEmojiBase c) :=
    fun h => absurd h.1 List.not_mem_nil
  have hr : ¬(c = '\r' ∧ Trail.plain .other = .plain .newline) := by
    rintro ⟨_, h⟩
    cases h
  rw [Trail.step, if_neg hs, if_pos (Nat.le_trans hv (by decide)), Trail.stepBasic, if_neg hr,
    if_neg hn]

/-- The slash that ends a comment and the space in its place take one column whatever follows
them. -/
theorem step_of_slash_or_space {c : Char} (hc : c = '/' ∨ c = ' ') (trail : Trail) :
  trail.step c = (1, .plain .other)
  := by
  have he : Unicode.isEmojiBase c = false := by
    rcases hc with rfl | rfl <;> decide +kernel
  have hs : ¬(Selector.emoji ∈ trail.selectors ∧ Unicode.isEmojiBase c) := by
    rw [he]
    exact fun h => Bool.false_ne_true h.2
  have hr : ¬(c = '\r' ∧ trail = .plain .newline) := by
    rintro ⟨rfl, _⟩
    rcases hc with h | h <;> cases h
  have hn : c ≠ '\n' := by
    rintro rfl
    rcases hc with h | h <;> cases h
  have hv : c.toNat ≤ 0xA0 := by
    rcases hc with rfl | rfl <;> decide
  rw [Trail.step, if_neg hs, if_pos hv, Trail.stepBasic, if_neg hr, if_neg hn]

/-- A part of a line that is made of ASCII characters takes one column for each of them. -/
theorem widthAndTrail_append {u : Text} (ha : ∀ c ∈ u, Octets.IsAscii c) (hn : '\n' ∉ u) {d : Char}
    (hd : d = '/' ∨ d = ' ') (t : Text) :
  widthAndTrail (u ++ d :: t) = ((widthAndTrail t).1 + (u.length + 1), .plain .other)
  := by
  induction u with
  | nil => rw [List.nil_append, widthAndTrail_cons, step_of_slash_or_space hd, List.length_nil]; rfl
  | cons c u ih =>
    obtain ⟨hc, ha⟩ := List.forall_mem_cons.mp ha
    obtain ⟨hcn, hn⟩ := not_or.mp (mt List.mem_cons.mpr hn)
    rw [List.cons_append, widthAndTrail_cons, ih ha hn]
    dsimp only
    rw [step_of_isAscii hc (Ne.symm hcn), List.length_cons, Int.natCast_succ,
      Int.add_assoc]

end Text

/-! ## Beginnings of a text and of the stripped text -/

/-- Whether a text becomes another one when comments are blanked.  A comment ends with a slash or
at the end of its line. -/
inductive Blanking : Text → Text → Prop
  | nil : Blanking [] []
  | kept (c : Char) {s s' : Text} (h : Blanking s s') : Blanking (c :: s) (c :: s')
  | comment {u s s' : Text}
      (hu : u.getLast? = some '/' ∨ u.getLast? = some '\n' ∨ s.head? = some '\n')
      (h : Blanking s s') : Blanking (u ++ s) (blanked u ++ s')

namespace Blanking

variable {s s' : Text}

/-- What stands before the blanked part stays. -/
theorem append (t : Text) (h : Blanking s s') :
  Blanking (t ++ s) (t ++ s')
  := by
  induction t with
  | nil => exact h
  | cons c t ih => exact .kept c ih

theorem refl (t : Text) :
  Blanking t t
  := by
  have h := append t .nil
  rwa [List.append_nil] at h

/-- Blanking comments keeps the size. -/
theorem size_eq (h : Blanking s s') :
  size s = size s'
  := by
  induction h with
  | nil => rfl
  | kept c _ ih => rw [size_cons, size_cons, ih]
  | comment _ _ ih => rw [size_append, size_append, size_blanked, ih]

/-- Blanking comments keeps the number of newlines. -/
theorem count_newline_eq (h : Blanking s s') :
  s.count '\n' = s'.count '\n'
  := by
  induction h with
  | nil => rfl
  | kept c _ ih => rw [List.count_cons, List.count_cons, ih]
  | comment _ _ ih => rw [List.count_append, List.count_append, count_newline_blanked, ih]

theorem newline_mem_iff (h : Blanking s s') :
  '\n' ∈ s ↔ '\n' ∈ s'
  := by
  rw [← List.count_pos_iff, h.count_newline_eq, List.count_pos_iff]

/-- A newline at the start of the stripped text is one of the text. -/
theorem head?_newline (h : Blanking s s') (hs : s'.head? = some '\n') :
  s.head? = some '\n'
  := by
  cases h with
  | nil => exact hs
  | kept c _ => exact hs
  | @comment u t t' hu h =>
    cases u with
    | nil =>
      rcases hu with hu | hu | hu
      · cases hu
      · cases hu
      · exact hu
    | cons c u =>
      rw [blanked_cons, blankOut] at hs
      split at hs
      · rename_i hc
        rw [hc]
        rfl
      · obtain ⟨n, hn⟩ := Nat.exists_eq_succ_of_ne_zero (Char.utf8Size_pos c).ne'
        rw [hn, List.replicate_succ] at hs
        cases hs

/-- What is blanked of a line is blanked of the text that ends with the line. -/
theorem lastLine (h : Blanking s s') :
  Blanking (Text.lastLine s) (Text.lastLine s')
  := by
  induction h with
  | nil => exact .nil
  | @kept c s s' h ih =>
    by_cases hs : '\n' ∈ s
    · have hl := lastLine_append_of_newline_mem [c] hs
      have hl' := lastLine_append_of_newline_mem [c] (h.newline_mem_iff.mp hs)
      rw [List.singleton_append] at hl hl'
      rwa [hl, hl']
    · have hl := lastLine_append_of_newline_notMem [c] hs
      have hl' := lastLine_append_of_newline_notMem [c] (mt h.newline_mem_iff.mpr hs)
      rw [List.singleton_append] at hl hl'
      rw [hl, hl']
      exact append _ h
  | @comment u s s' hu h ih =>
    by_cases hs : '\n' ∈ s
    · rwa [lastLine_append_of_newline_mem _ hs,
        lastLine_append_of_newline_mem _ (h.newline_mem_iff.mp hs)]
    · rw [lastLine_append_of_newline_notMem _ hs,
        lastLine_append_of_newline_notMem _ (mt h.newline_mem_iff.mpr hs), lastLine_blanked]
      rcases hu with hu | hu | hu
      · obtain ⟨v, rfl⟩ := List.getLast?_eq_some_iff.mp hu
        apply comment _ h
        rw [lastLine_append_of_newline_notMem _ (by decide), List.getLast?_concat]
        exact .inl rfl
      · obtain ⟨v, rfl⟩ := List.getLast?_eq_some_iff.mp hu
        rw [lastLine_append_newline]
        exact h
      · exact absurd (List.mem_of_mem_head? hu) hs

/-- Blanking comments only takes characters beyond ASCII away. -/
theorem sublist_beyondAscii (h : Blanking s s') :
  (beyondAscii s').Sublist (beyondAscii s)
  := by
  induction h with
  | nil => exact List.Sublist.refl _
  | @kept c s s' _ ih =>
    rw [beyondAscii_cons c s, beyondAscii_cons c s']
    exact (List.append_sublist_append_left _).mpr ih
  | @comment u s s' _ _ ih =>
    have hu : beyondAscii (blanked u) = [] := by
      apply beyondAscii_eq_nil_iff.mpr
      intro c hc
      apply isAscii_of_mem_blanked hc
    rw [beyondAscii_append, beyondAscii_append, hu, List.nil_append]
    exact ih.trans (List.sublist_append_right _ _)

/-- Spaces in the place of ASCII characters take as many columns. -/
theorem widthAndTrail_eq (h : Blanking s s') (hs : '\n' ∉ s)
    (ha : beyondAscii s = beyondAscii s') :
  widthAndTrail s = widthAndTrail s'
  := by
  induction h with
  | nil => rfl
  | @kept c s s' _ ih =>
    rw [beyondAscii_cons c s, beyondAscii_cons c s'] at ha
    rw [widthAndTrail_cons, widthAndTrail_cons,
      ih (not_or.mp (mt List.mem_cons.mpr hs)).2 (List.append_cancel_left ha)]
  | @comment u s s' hu h ih =>
    obtain ⟨hun, hsn⟩ := not_or.mp (mt List.mem_append.mpr hs)
    have hb : beyondAscii (blanked u) = [] := by
      apply beyondAscii_eq_nil_iff.mpr
      intro c hc
      apply isAscii_of_mem_blanked hc
    rw [beyondAscii_append, beyondAscii_append, hb, List.nil_append] at ha
    -- what is left of the line holds no fewer characters beyond ASCII than what it becomes
    have hl := h.sublist_beyondAscii.length_le
    have hlen := congrArg List.length ha
    rw [List.length_append] at hlen
    have hu0 : beyondAscii u = [] := List.eq_nil_of_length_eq_zero (by omega)
    rw [hu0, List.nil_append] at ha
    have hascii := beyondAscii_eq_nil_iff.mp hu0
    rcases hu with hu | hu | hu
    · obtain ⟨v, rfl⟩ := List.getLast?_eq_some_iff.mp hu
      obtain ⟨hv, _⟩ := List.forall_mem_append.mp hascii
      have hvn : '\n' ∉ v := fun hv => hun (List.mem_append_left _ hv)
      have hvb : ∀ c ∈ blanked v, Octets.IsAscii c := fun c hc => isAscii_of_mem_blanked hc
      have hlen : (blanked v).length = v.length := by
        have hone (t : Text) (ht : ∀ c ∈ t, Octets.IsAscii c) : size t = t.length := by
          induction t with
          | nil => rfl
          | cons c t ih =>
            obtain ⟨hc, ht⟩ := List.forall_mem_cons.mp ht
            rw [size_cons, ih ht, Char.utf8Size_eq_one_iff.mpr hc, List.length_cons, Nat.add_comm]
        rw [← hone _ hvb, ← hone _ hv, size_blanked]
      have hslash : blanked ['/'] = [' '] := rfl
      rw [blanked_append, hslash, List.append_assoc, List.append_assoc, List.singleton_append,
        List.singleton_append, widthAndTrail_append hv hvn (.inl rfl),
        widthAndTrail_append hvb (mt (newline_mem_blanked_iff v).mp hvn) (.inr rfl), hlen,
        ih hsn ha]
    · exact absurd (List.mem_of_getLast? hu) hun
    · exact absurd (List.mem_of_mem_head? hu) hsn

/-- The last lines take as many columns if no character beyond ASCII was blanked on them. -/
theorem displayWidth_eq (h : Blanking s s')
    (ha : beyondAscii (Text.lastLine s) = beyondAscii (Text.lastLine s')) :
  (Text.lastLine s).displayWidth = (Text.lastLine s').displayWidth
  := by
  rw [displayWidth, displayWidth, h.lastLine.widthAndTrail_eq (newline_notMem_lastLine s) ha]

end Blanking

/-! ## Places of the stripped text -/

/-- Whether a place between two texts is none of those among the blanks of a comment: a line begins
there, or another character than a space stands before it or another one than a blank behind
it. -/
def IsApparent (before after : Text) : Prop :=
  before.getLast? ≠ some ' ' ∨ ∃ c ∈ after.head?, Unicode.isAsciiBlank c = false

/-- Only the text right before a place, if there is some, matters to whether it is apparent. -/
theorem IsApparent.of_append {s t u : Text} (ht : t ≠ []) (h : IsApparent (s ++ t) u) :
  IsApparent t u
  := by
  rcases h with h | h
  · rw [List.getLast?_append_of_ne_nil _ ht] at h
    exact .inl h
  · exact .inr h

/-- An apparent place before a blank does not follow a space. -/
theorem IsApparent.getLast?_ne {before after : Text} (h : IsApparent before after)
    (ha : ∀ c ∈ after.head?, Unicode.isAsciiBlank c) :
  before.getLast? ≠ some ' '
  := by
  rcases h with h | ⟨c, hc, hb⟩
  · exact h
  · rw [ha c hc] at hb
    cases hb

theorem isAsciiBlank_of_mem_blanked {c : Char} {t : Text} (h : c ∈ blanked t) :
  Unicode.isAsciiBlank c
  := by
  rcases eq_space_or_newline_of_mem_blanked h with rfl | rfl <;> rfl

theorem isAsciiBlank_head?_of_endsLine {t : Text} (h : EndsLine t) :
  ∀ c ∈ t.head?, Unicode.isAsciiBlank c
  := by
  rcases h with rfl | ⟨u, rfl⟩
  · exact fun _ hc => nomatch hc
  · rintro _ ⟨⟩
    rfl

/-- A comment ends with a slash or at the end of its line. -/
theorem isComment_ends {comment rest : Text} (h : IsComment comment rest) :
  comment.getLast? = some '/' ∨ EndsLine (stripComments rest)
  := by
  cases h with
  | line _ hr => exact .inr (endsLine_stripComments hr)
  | block _ =>
    left
    rw [show (['*', '/'] : Text) = ['*'] ++ ['/'] from rfl, ← List.append_assoc,
      List.getLast?_concat]
  | endless _ =>
    rw [stripComments]
    exact .inr (.inl rfl)

/-- A place within what a comment left behind is one of the comment if no space stands before it,
since a line begins there then. -/
theorem exists_blanking_within {comment before' u : Text} (hu : blanked comment = before' ++ u)
    (hl : before'.getLast? ≠ some ' ') :
  ∃ before after, comment = before ++ after ∧ Blanking before before'
  := by
  rcases List.eq_nil_or_concat' before' with rfl | ⟨v, d, rfl⟩
  · exact ⟨[], comment, rfl, .nil⟩
  · rw [List.getLast?_concat] at hl
    obtain rfl : d = '\n' := by
      have hd : d ∈ blanked comment := by
        rw [hu]
        apply List.mem_append_left _ List.mem_concat_self
      rcases eq_space_or_newline_of_mem_blanked hd with rfl | rfl
      · exact absurd rfl hl
      · rfl
    rw [List.append_assoc, List.singleton_append] at hu
    obtain ⟨s, w, rfl, rfl⟩ := exists_append_of_blanked hu
    refine ⟨s ++ ['\n'], w, by simp, ?_⟩
    have hb : Blanking ((s ++ ['\n']) ++ []) (blanked (s ++ ['\n']) ++ []) :=
      .comment (.inr (.inl List.getLast?_concat)) .nil
    rw [List.append_nil, List.append_nil, blanked_append] at hb
    exact hb

/-- A place behind a comment is one of the text if those of what follows the comment are. -/
theorem exists_blanking_behind {comment rest u after' : Text} (hc : IsComment comment rest)
    (hr : stripComments rest = u ++ after') (ha : IsApparent (blanked comment ++ u) after')
    (ih : IsApparent u after' → ∃ before after, rest = before ++ after ∧ Blanking before u) :
  ∃ before after, comment ++ rest = before ++ after ∧ Blanking before (blanked comment ++ u)
  := by
  cases u with
  | nil =>
    rcases isComment_ends hc with hs | he
    · exact ⟨comment ++ [], rest, by rw [List.append_nil], .comment (.inl hs) .nil⟩
    · rw [hr, List.nil_append] at he
      rw [List.append_nil] at ha ⊢
      have hl := ha.getLast?_ne (isAsciiBlank_head?_of_endsLine he)
      obtain ⟨before, after, rfl, hb⟩ := exists_blanking_within (List.append_nil _).symm hl
      exact ⟨before, after ++ rest, List.append_assoc _ _ _, hb⟩
  | cons d u =>
    obtain ⟨before, after, hrest, hb⟩ := ih (ha.of_append (List.cons_ne_nil d u))
    refine ⟨comment ++ before, after, by rw [hrest, List.append_assoc], ?_⟩
    rcases isComment_ends hc with hs | he
    · exact .comment (.inl hs) hb
    · rcases he with he | ⟨v, he⟩
      · rw [he] at hr
        cases hr
      · rw [he] at hr
        obtain ⟨rfl, -⟩ := List.cons.inj hr
        exact .comment (.inr (.inr (hb.head?_newline rfl))) hb

/-- A place of the stripped text that does not lie among the blanks of a comment is a place of the
text. -/
theorem exists_blanking {t before' after' : Text} (h : stripComments t = before' ++ after')
    (ha : IsApparent before' after') :
  ∃ before after, t = before ++ after ∧ Blanking before before'
  := by
  fun_induction stripComments t generalizing before' with
  | case1 =>
    obtain ⟨rfl, rfl⟩ := List.append_eq_nil_iff.mp h.symm
    exact ⟨[], [], rfl, .nil⟩
  | case2 c t hq ih =>
    rw [← Lexeme.text_first_append c t]
    generalize (Lexeme.first c t).1.text = literal at h
    generalize (Lexeme.first c t).2 = rest at h ih
    rcases List.append_eq_append_iff.mp h.symm with ⟨u, rfl, _⟩ | ⟨u, rfl, hr⟩
    · exact ⟨before', u ++ rest, List.append_assoc _ _ _, .refl _⟩
    · by_cases hu : u = []
      · subst hu
        rw [List.append_nil]
        exact ⟨literal, rest, rfl, .refl _⟩
      · obtain ⟨before, after, rfl, hb⟩ := ih hr (ha.of_append hu)
        exact ⟨literal ++ before, after, (List.append_assoc _ _ _).symm, hb.append _⟩
  | case3 c t hq comment rest hc ih =>
    obtain ⟨ht, hi⟩ := splitComment?_eq_some_iff.mp hc
    rw [ht]
    rcases List.append_eq_append_iff.mp h.symm with ⟨u, hu, hr⟩ | ⟨u, rfl, hr⟩
    · cases u with
      | nil =>
        rw [List.append_nil] at hu
        rw [← hu, ← List.append_nil (blanked comment)] at ha ⊢
        exact exists_blanking_behind hi hr.symm ha (ih hr.symm)
      | cons d u =>
        have hd : d ∈ blanked comment := by
          rw [hu]
          apply List.mem_append_right _ List.mem_cons_self
        have hafter : ∀ e ∈ after'.head?, Unicode.isAsciiBlank e := by
          rw [hr]
          rintro _ ⟨⟩
          exact isAsciiBlank_of_mem_blanked hd
        obtain ⟨before, after, rfl, hb⟩ := exists_blanking_within hu (ha.getLast?_ne hafter)
        exact ⟨before, after ++ rest, List.append_assoc _ _ _, hb⟩
    · exact exists_blanking_behind hi hr ha (ih hr)
  | case4 c t hq hc ih =>
    cases before' with
    | nil => exact ⟨[], c :: t, rfl, .nil⟩
    | cons d before' =>
      obtain ⟨rfl, hr⟩ := List.cons.inj h
      by_cases hb : before' = []
      · subst hb
        exact ⟨[c], t, rfl, .refl _⟩
      · obtain ⟨before, after, rfl, hb⟩ := ih hr (ha.of_append (s := [c]) hb)
        exact ⟨c :: before, after, rfl, .kept c hb⟩

end DatabaseMarkup
