import DatabaseMarkup.Text.Basic
import Mathlib.Data.List.TakeWhile
import Mathlib.Tactic.Common

/-!
# Cutting a text

Where a text is cut at a byte or at the end of a line.  `Text.append_inj_of_size` states that a
byte lies between the same characters however the text is cut there.
-/

namespace DatabaseMarkup

namespace Text

/-! ## Bytes -/

theorem splitAtByte_zero (t : Text) :
  splitAtByte 0 t = ([], t)
  := by
  cases t with
  | nil => rfl
  | cons c t =>
    rw [splitAtByte, if_neg]
    exact Nat.not_le.mpr (Char.utf8Size_pos c)

/-- A text is cut between two of its parts at the size of the first one. -/
theorem splitAtByte_size_append (s t : Text) :
  splitAtByte (size s) (s ++ t) = (s, t)
  := by
  induction s with
  | nil => apply splitAtByte_zero
  | cons c s ih =>
    rw [List.cons_append, splitAtByte, size_cons, if_pos (Nat.le_add_right _ _),
      Nat.add_sub_cancel_left, ih]

/-- A cut behind the first of two texts cuts the second. -/
theorem splitAtByte_append_of_size_le {n : Nat} {s : Text} (h : size s ≤ n) (t : Text) :
  splitAtByte n (s ++ t)
    = (s ++ (splitAtByte (n - size s) t).1, (splitAtByte (n - size s) t).2)
  := by
  induction s generalizing n with
  | nil => rfl
  | cons c s ih =>
    rw [size_cons] at h
    rw [List.cons_append, splitAtByte, if_pos (Nat.le_trans (Nat.le_add_right _ _) h),
      ih (by omega), size_cons, Nat.sub_sub]
    rfl

/-- A cut in the first of two texts does not depend on the second. -/
theorem splitAtByte_append_of_le_size {n : Nat} {s : Text} (h : n ≤ size s) (t : Text) :
  (splitAtByte n (s ++ t)).1 = (splitAtByte n s).1
  := by
  induction s generalizing n with
  | nil => rw [Nat.le_zero.mp h, splitAtByte_zero, splitAtByte_zero]
  | cons c s ih =>
    rw [size_cons] at h
    rw [List.cons_append, splitAtByte, splitAtByte]
    split
    · dsimp only
      rw [ih (by omega)]
    · rfl

theorem size_splitAtByte_le (n : Nat) (t : Text) :
  size (splitAtByte n t).1 ≤ n
  := by
  induction t generalizing n with
  | nil => exact Nat.zero_le _
  | cons c t ih =>
    rw [splitAtByte]
    split
    · have := ih (n - c.utf8Size)
      rw [size_cons]
      omega
    · exact Nat.zero_le _

/-- The part in front of a cut goes as far as the byte allows. -/
theorem prefix_splitAtByte {n : Nat} {s t : Text} (h : s <+: t) (hs : size s ≤ n) :
  s <+: (splitAtByte n t).1
  := by
  obtain ⟨u, rfl⟩ := h
  rw [splitAtByte_append_of_size_le hs]
  apply List.prefix_append

/-- What stands before a cut is a prefix. -/
theorem splitAtByte_isPrefix (n : Nat) (t : Text) :
  (splitAtByte n t).1 <+: t
  := ⟨_, splitAtByte_append n t⟩

/-- A prefix is not larger than the text. -/
theorem size_le_of_prefix {s t : Text} (h : s <+: t) :
  size s ≤ size t
  := by
  obtain ⟨u, rfl⟩ := h
  rw [size_append]
  apply Nat.le_add_right

theorem size_le_of_suffix {s t : Text} (h : s <:+ t) :
  size s ≤ size t
  := by
  obtain ⟨u, rfl⟩ := h
  rw [size_append]
  apply Nat.le_add_left

/-- Two cuts of a text after the same number of bytes are the same. -/
theorem append_inj_of_size {s s' t t' : Text} (h : s ++ t = s' ++ t') (hs : size s = size s') :
  s = s' ∧ t = t'
  := by
  have hl := splitAtByte_size_append s t
  rw [h, hs, splitAtByte_size_append, Prod.mk.injEq] at hl
  exact ⟨hl.1.symm, hl.2.symm⟩

/-- A suffix starts behind what stands before it. -/
theorem startOf_append (s t : Text) :
  startOf (size (s ++ t)) t = size s
  := by
  rw [startOf, size_append, Nat.add_sub_cancel]

theorem skipBlanks_suffix (t : Text) :
  skipBlanks t <:+ t
  := List.dropWhile_suffix _

/-! ## Lines -/

/-- Whether a text, which follows another one, leaves its last line as it is: it is empty or
begins with a newline. -/
def EndsLine (t : Text) : Prop :=
  t = [] ∨ ∃ u, t = '\n' :: u

/-- A text is its first line and what follows that line. -/
theorem firstLine_append_fromLineEnd (t : Text) :
  firstLine t ++ fromLineEnd t = t
  := List.takeWhile_append_dropWhile

theorem fromLineEnd_suffix (t : Text) :
  fromLineEnd t <:+ t
  := List.dropWhile_suffix _

theorem dropLine_suffix (t : Text) :
  dropLine t <:+ t
  := (List.drop_suffix _ _).trans (fromLineEnd_suffix t)

theorem newline_notMem_firstLine (t : Text) :
  '\n' ∉ firstLine t
  := by
  intro h
  have := List.mem_takeWhile_imp h
  cases this

theorem endsLine_fromLineEnd (t : Text) :
  EndsLine (fromLineEnd t)
  := by
  cases h : fromLineEnd t with
  | nil => exact .inl rfl
  | cons c u =>
    have hd := List.head?_dropWhile_not (fun c => c != '\n') t
    have hc : t.dropWhile (fun c => c != '\n') = c :: u := h
    rw [hc] at hd
    have hn : c = '\n' := by simpa using hd
    exact .inr ⟨u, by rw [hn]⟩

/-- Text without a newline is the first line of a text when the line ends behind it. -/
theorem firstLine_append {s t : Text} (hs : '\n' ∉ s) (ht : EndsLine t) :
  firstLine (s ++ t) = s
  := by
  have hp : ∀ c ∈ s, (c != '\n') = true := by
    intro c hc
    apply bne_iff_ne.mpr
    rintro rfl
    exact hs hc
  rw [firstLine, List.takeWhile_append_of_pos hp]
  rcases ht with rfl | ⟨u, rfl⟩
  · exact List.append_nil s
  · exact List.append_nil s

/-- What follows the first line starts where the line ends. -/
theorem fromLineEnd_append {s t : Text} (hs : '\n' ∉ s) (ht : EndsLine t) :
  fromLineEnd (s ++ t) = t
  := by
  have h := firstLine_append_fromLineEnd (s ++ t)
  rw [firstLine_append hs ht] at h
  exact List.append_cancel_left h

/-! ## Lines -/

/-- Among the lines that are not blank are a first line that is not blank and those behind it. -/
theorem filter_visible (offset : Nat) (line : Text) (ls : List (Nat × Text)) :
  ((offset, line) :: ls).filter (fun (_, line) => !allBlank line)
    = (if allBlank line then [] else [(offset, line)])
      ++ ls.filter fun (_, line) => !allBlank line
  := by
  cases h : allBlank line with
  | true =>
    rw [List.filter_cons_of_neg (by simp [h]), if_pos rfl]
    rfl
  | false =>
    rw [List.filter_cons_of_pos (by simp [h]), if_neg Bool.false_ne_true]
    rfl

end Text

end DatabaseMarkup
