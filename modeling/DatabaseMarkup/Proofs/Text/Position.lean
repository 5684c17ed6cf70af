import DatabaseMarkup.Proofs.Text.Basic
import DatabaseMarkup.Text.Position

/-!
# Positions of offsets

`LineIndex.locateBy_eq_afterBy` states that the position which a `LineIndex` finds for an offset is the
one at the end of the text in front of it.
-/

namespace DatabaseMarkup

namespace Text

/-! ## Pieces -/

theorem splitWhere_ne_nil (p : Char → Bool) (t : Text) :
  splitWhere p t ≠ []
  := by
  cases t with
  | nil => apply List.cons_ne_nil
  | cons c t =>
    rw [splitWhere]
    split
    · apply List.cons_ne_nil
    · split <;> apply List.cons_ne_nil

/-- A part ends at the first character that splits. -/
theorem splitWhere_append_cons {p : Char → Bool} {s : Text} (hs : ∀ c ∈ s, p c = false) {d : Char}
    (hd : p d) (t : Text) :
  splitWhere p (s ++ d :: t) = s :: splitWhere p t
  := by
  induction s with
  | nil => rw [List.nil_append, splitWhere, if_pos hd]
  | cons c s ih =>
    obtain ⟨hc, hs⟩ := List.forall_mem_cons.mp hs
    rw [List.cons_append, splitWhere, hc, if_neg Bool.false_ne_true, ih hs]

theorem splitWhere_eq_singleton {p : Char → Bool} {s : Text} (hs : ∀ c ∈ s, p c = false) :
  splitWhere p s = [s]
  := by
  induction s with
  | nil => rfl
  | cons c s ih =>
    obtain ⟨hc, hs⟩ := List.forall_mem_cons.mp hs
    rw [splitWhere, hc, if_neg Bool.false_ne_true, ih hs]

theorem beq_newline_of_notMem {s : Text} (hs : '\n' ∉ s) :
  ∀ c ∈ s, (c == '\n') = false
  := by
  intro c hc
  apply beq_eq_false_iff_ne.mpr
  rintro rfl
  exact hs hc

/-- A text is one line, or a line and what follows its newline. -/
theorem eq_firstLine_or (t : Text) :
  '\n' ∉ t ∨ ∃ line u, '\n' ∉ line ∧ t = line ++ '\n' :: u
  := by
  have h := firstLine_append_fromLineEnd t
  have hn := newline_notMem_firstLine t
  rcases endsLine_fromLineEnd t with he | ⟨u, he⟩
  · rw [he, List.append_nil] at h
    rw [h] at hn
    exact .inl hn
  · rw [he] at h
    exact .inr ⟨firstLine t, u, hn, h.symm⟩

/-! ## Last lines -/

theorem lastLine_of_newline_notMem {t : Text} (ht : '\n' ∉ t) :
  lastLine t = t
  := by
  rw [lastLine, List.takeWhile_eq_self_iff.mpr, List.reverse_reverse]
  intro c hc
  apply bne_iff_ne.mpr
  rintro rfl
  exact ht (List.mem_reverse.mp hc)

/-- The last line is sought behind every newline. -/
theorem lastLine_append_newline (s t : Text) :
  lastLine (s ++ '\n' :: t) = lastLine t
  := by
  rw [lastLine, lastLine, List.reverse_append, List.reverse_cons, List.append_assoc,
    List.takeWhile_append]
  split
  · rename_i hl
    have hr : t.reverse.takeWhile (fun c => c != '\n') = t.reverse :=
      (List.takeWhile_prefix _).eq_of_length hl
    rw [hr]
    apply congrArg List.reverse
    apply List.append_nil
  · rfl

/-- The last line of a text stands behind its last newline. -/
theorem exists_append_lastLine (t : Text) :
  ∃ before, t = before ++ lastLine t ∧ (before = [] ∨ before.getLast? = some '\n')
    ∧ '\n' ∉ lastLine t
  := by
  rcases eq_firstLine_or t with ht | ⟨l, u, hl, rfl⟩
  · rw [lastLine_of_newline_notMem ht]
    exact ⟨[], rfl, .inl rfl, ht⟩
  · obtain ⟨before, hu, hb, hn⟩ := exists_append_lastLine u
    rw [lastLine_append_newline]
    refine ⟨l ++ '\n' :: before, ?_, .inr ?_, hn⟩
    · rw [List.append_assoc, List.cons_append, ← hu]
    · rw [List.getLast?_append, List.getLast?_cons]
      rcases hb with rfl | hb
      · rfl
      · rw [hb]
        rfl
termination_by t.length
decreasing_by
  subst_vars
  rw [List.length_append, List.length_cons]
  omega

end Text

namespace LineIndex

open Text

variable (width : Text → Nat)

/-- The lines below the first one are searched like the whole text, with the lines in front of them
counted. -/
theorem locateFrom_eq (n : Nat) (t : Text) (line start : Nat) :
  locateFrom width line (start + n) (linesFrom start (splitWhere (fun c => c == '\n') t))
    = ⟨line + (splitAtByte n t).1.count '\n', 1 + width (lastLine (splitAtByte n t).1)⟩
  := by
  have hline {s : Text} (hs : '\n' ∉ s) :
      (⟨line, 1 + width (splitAtByte n s).1⟩ : Position)
        = ⟨line + (splitAtByte n s).1.count '\n', 1 + width (lastLine (splitAtByte n s).1)⟩ := by
    have hn : '\n' ∉ (splitAtByte n s).1 := fun h => hs ((splitAtByte_isPrefix n s).subset h)
    rw [List.count_eq_zero_of_not_mem hn, lastLine_of_newline_notMem hn, Nat.add_zero]
  rcases eq_firstLine_or t with ht | ⟨l, u, hl, rfl⟩
  · rw [splitWhere_eq_singleton (beq_newline_of_notMem ht), linesFrom, linesFrom, locateFrom,
      Nat.add_sub_cancel_left, hline ht]
  · obtain ⟨m, ms, hm⟩ := List.exists_cons_of_ne_nil (splitWhere_ne_nil (fun c => c == '\n') u)
    have ih := locateFrom_eq (n - size l - 1) u (line + 1) (start + size l + 1)
    rw [hm, linesFrom] at ih
    rw [splitWhere_append_cons (beq_newline_of_notMem hl) rfl, hm, linesFrom, linesFrom, locateFrom]
    split
    · rw [Nat.add_sub_cancel_left, splitAtByte_append_of_le_size (by omega), hline hl]
    · have h1 : size (l ++ ['\n']) = size l + 1 := size_append _ _
      have hcut : (splitAtByte n (l ++ '\n' :: u)).1
          = l ++ '\n' :: (splitAtByte (n - size l - 1) u).1 := by
        rw [List.append_cons, splitAtByte_append_of_size_le (by omega), h1, Nat.sub_sub]
        exact (List.append_cons _ _ _).symm
      rw [hcut, lastLine_append_newline, List.count_append, List.count_cons_self,
        List.count_eq_zero_of_not_mem hl]
      convert ih using 2 <;> omega
termination_by t.length
decreasing_by
  subst_vars
  rw [List.length_append, List.length_cons]
  omega

/-- The position of an offset is that at the end of the text in front of it. -/
theorem locateBy_eq_afterBy (t : Text) (n : Nat) :
  (ofText t).locateBy width n = Position.afterBy width (splitAtByte n t).1
  := by
  have h := locateFrom_eq width n t 1 0
  rw [Nat.zero_add] at h
  exact h

/-- The position found between two parts of a text is that at the end of the first one. -/
theorem locate_size (s u : Text) :
  (ofText (s ++ u)).locate (size s) = Position.after s
  := by
  rw [locate, locateBy_eq_afterBy, splitAtByte_size_append, Position.after]

end LineIndex

end DatabaseMarkup
