import DatabaseMarkup.Proofs.Checked.Basic
import DatabaseMarkup.Proofs.Text.Position

/-!
# Checked positions

The position of an offset, found by the offsets at which the lines begin.  The offset may be any
number: it is moved to the end of the text if it lies behind it, and then back to a boundary
between two characters.
-/

namespace DatabaseMarkup

namespace Text

/-! ## Boundaries -/

/-- Splitting behind the end of a text leaves nothing. -/
theorem splitAtByte_of_size_le {n : Nat} {t : Text} (h : size t ≤ n) :
  splitAtByte n t = (t, [])
  := by
  induction t generalizing n with
  | nil => rfl
  | cons c t ih =>
    rw [size_cons] at h
    rw [splitAtByte, if_pos (by omega), ih (by omega)]

/-- Splitting behind the end of a text is splitting at its end. -/
theorem splitAtByte_min (n : Nat) (t : Text) :
  splitAtByte (min n (size t)) t = splitAtByte n t
  := by
  rcases Nat.le_total n (size t) with h | h
  · rw [Nat.min_eq_left h]
  · rw [Nat.min_eq_right h, splitAtByte_of_size_le h, splitAtByte_of_size_le (Nat.le_refl _)]

/-- Inside of a character a text is cut where it is cut one byte before. -/
theorem splitAtByte_succ {n : Nat} {t : Text} (h : ¬size (splitAtByte (n + 1) t).1 = n + 1) :
  splitAtByte (n + 1) t = splitAtByte n t
  := by
  induction t generalizing n with
  | nil => rfl
  | cons c t ih =>
    rw [splitAtByte] at h ⊢
    rw [splitAtByte]
    by_cases hn : c.utf8Size ≤ n
    · have hs : n + 1 - c.utf8Size = n - c.utf8Size + 1 := by omega
      rw [if_pos (Nat.le_succ_of_le hn), hs] at h ⊢
      rw [if_pos hn, ih]
      intro he
      apply h
      rw [size_cons, he]
      omega
    · rw [if_neg hn]
      split at h
      · -- the character ends at the cut, which is a boundary then
        rename_i hn'
        have hs : n + 1 - c.utf8Size = 0 := by omega
        rw [hs, splitAtByte_zero] at h
        exact absurd (Nat.le_antisymm hn' (Nat.not_le.mp hn)) h
      · rename_i hn'
        rw [if_neg hn']

/-! ## The beginnings of lines -/

/-- The offsets behind the newlines of a text that begins at `offset`. -/
def newlineEnds (offset : Nat) : Text → List Nat
  | [] => []
  | c :: t =>
    let next := offset + c.utf8Size
    if c = '\n' then next :: newlineEnds next t else newlineEnds next t

/-- The newlines of two texts in a row are those of the first and then those of the second. -/
theorem newlineEnds_append (offset : Nat) (s t : Text) :
  newlineEnds offset (s ++ t) = newlineEnds offset s ++ newlineEnds (offset + size s) t
  := by
  induction s generalizing offset with
  | nil => rfl
  | cons c s ih =>
    rw [List.cons_append, newlineEnds, newlineEnds, ih, size_cons, Nat.add_assoc]
    split <;> rfl

/-- There is one line start for every newline. -/
theorem length_newlineEnds (offset : Nat) (t : Text) :
  (newlineEnds offset t).length = t.count '\n'
  := by
  induction t generalizing offset with
  | nil => rfl
  | cons c t ih =>
    rw [newlineEnds, List.count_cons]
    split
    · rename_i hc
      rw [hc, beq_self_eq_true, if_pos rfl, List.length_cons, ih]
    · rename_i hc
      rw [beq_eq_false_iff_ne.mpr hc, if_neg Bool.false_ne_true, ih, Nat.add_zero]

/-- A line starts behind the start of the text and not behind its end. -/
theorem lt_of_mem_newlineEnds {offset n : Nat} {t : Text} (h : n ∈ newlineEnds offset t) :
  offset < n ∧ n ≤ offset + size t
  := by
  induction t generalizing offset with
  | nil => cases h
  | cons c t ih =>
    have := Char.utf8Size_pos c
    rw [size_cons]
    rw [newlineEnds] at h
    split at h
    · rcases List.mem_cons.mp h with rfl | h
      · omega
      · have := ih h
        omega
    · have := ih h
      omega

theorem newlineEnds_eq_nil {offset : Nat} {t : Text} (h : '\n' ∉ t) :
  newlineEnds offset t = []
  := by
  apply List.eq_nil_of_length_eq_zero
  rw [length_newlineEnds, List.count_eq_zero_of_not_mem h]

/-- The last line of a text begins behind its last newline. -/
theorem exists_lastLine (offset : Nat) (t : Text) :
  ∃ before, t = before ++ lastLine t
    ∧ (offset :: newlineEnds offset t).getLast (List.cons_ne_nil _ _) = offset + size before
  := by
  obtain ⟨before, ht, hb, hn⟩ := exists_append_lastLine t
  refine ⟨before, ht, ?_⟩
  have hends : newlineEnds offset t = newlineEnds offset before := by
    conv_lhs => rw [ht, newlineEnds_append, newlineEnds_eq_nil hn, List.append_nil]
  rcases hb with rfl | hb
  · simp only [hends, newlineEnds, List.getLast_singleton, size_nil, Nat.add_zero]
  · obtain ⟨above, rfl⟩ := List.getLast?_eq_some_iff.mp hb
    have hlast : newlineEnds offset (above ++ ['\n'])
        = newlineEnds offset above ++ [offset + size (above ++ ['\n'])] := by
      rw [newlineEnds_append, size_append, ← Nat.add_assoc]
      rfl
    simp only [hends, hlast, ← List.cons_append, List.getLast_concat]

end Text

namespace Checked

open Text

/-- A step back to a boundary. -/
def backStep (t : Text) (n : Nat) : Checked (Step Nat Nat) :=
  if IsBoundary t n then
    return .done n
  else do
    let m ← subtract n 1
    return .next m

/-- The greatest boundary up to an offset. -/
def backToBoundary (t : Text) (n : Nat) : Checked Nat :=
  loop (fun n => n) (backStep t) n

/-- The element of a list at an index. -/
def elementAt (ns : List Nat) (i : Nat) : Checked Nat :=
  match ns[i]? with
  | some n => .ok n
  | none => .error .index

/-- The position of an offset, by a measure of width. -/
def locateBy (width : Text → Nat) (t : Text) (offset : Nat) : Checked Position := do
  let starts := 0 :: newlineEnds 0 t
  let offset ← backToBoundary t (min offset (size t))
  let line := (starts.takeWhile fun start => start ≤ offset).length
  let last ← subtract line 1
  let start ← elementAt starts last
  let before ← slice t start offset
  return ⟨line, width before + 1⟩

/-- The position of an offset. -/
def locate (t : Text) (offset : Nat) : Checked Position :=
  locateBy displayWidth t offset

/-- Going back from an offset ends at the last boundary that is not behind it. -/
theorem backToBoundary_eq (t : Text) (n : Nat) :
  backToBoundary t n = .ok (size (splitAtByte n t).1)
  := by
  induction n with
  | zero =>
    rw [splitAtByte_zero]
    apply loop_done
    rw [backStep, if_pos (by rw [IsBoundary, splitAtByte_zero]; rfl)]
    rfl
  | succ n ih =>
    by_cases h : IsBoundary t (n + 1)
    · rw [h]
      exact loop_done (if_pos h)
    · have hs : backStep t (n + 1) = .ok (.next n) := by
        rw [backStep, if_neg h, subtract_succ]
        rfl
      rw [splitAtByte_succ h, ← ih]
      exact loop_next hs (Nat.lt_succ_self n)

/-- The lines that begin up to the end of a part of a text are those of the part. -/
theorem takeWhile_starts (s u : Text) :
  ((0 :: newlineEnds 0 (s ++ u)).takeWhile fun start => start ≤ size s) = 0 :: newlineEnds 0 s
  := by
  have hs : ∀ n ∈ newlineEnds 0 s, decide (n ≤ size s) = true := by
    intro n hn
    apply decide_eq_true
    have := lt_of_mem_newlineEnds hn
    omega
  have hu : (newlineEnds (0 + size s) u).takeWhile (fun start => start ≤ size s) = [] := by
    cases hn : newlineEnds (0 + size s) u with
    | nil => rfl
    | cons n ns =>
      have hlt : n ∈ newlineEnds (0 + size s) u := by
        rw [hn]
        exact List.mem_cons_self
      apply List.takeWhile_cons_of_neg
      rw [decide_eq_true_eq, Nat.not_le, ← Nat.zero_add (size s)]
      exact (lt_of_mem_newlineEnds hlt).1
  rw [List.takeWhile_cons_of_pos (by simp), newlineEnds_append, List.takeWhile_append_of_pos hs, hu,
    List.append_nil]

/-- Every offset has a position, which is that at the end of the text in front of it. -/
theorem locateBy_eq (width : Text → Nat) (t : Text) (n : Nat) :
  locateBy width t n = .ok (Position.afterBy width (splitAtByte n t).1)
  := by
  have ht := splitAtByte_append n t
  rw [locateBy, backToBoundary_eq, splitAtByte_min, ok_bind]
  generalize splitAtByte n t = cut at ht ⊢
  obtain ⟨s, u⟩ := cut
  subst ht
  obtain ⟨before, hs, hlast⟩ := exists_lastLine 0 s
  have hstart : elementAt (0 :: newlineEnds 0 (s ++ u)) (newlineEnds 0 s).length
      = .ok (size before) := by
    have hl := List.getLast?_eq_getElem? (l := 0 :: newlineEnds 0 s)
    rw [List.getLast?_eq_some_getLast (List.cons_ne_nil _ _), hlast, Nat.zero_add, List.length_cons,
      Nat.add_sub_cancel] at hl
    rw [elementAt, newlineEnds_append, ← List.cons_append,
      List.getElem?_append_left (by rw [List.length_cons]; exact Nat.lt_succ_self _), ← hl]
  have hslice : slice (s ++ u) (size before) (size s) = .ok (lastLine s) := by
    have h : At (s ++ u) (size before) (lastLine s ++ u) := by
      refine ⟨before, ?_, rfl⟩
      rw [← List.append_assoc, ← hs]
    have := h.slice_eq
    rwa [← size_append, ← hs] at this
  dsimp only
  rw [takeWhile_starts, List.length_cons, subtract_succ, ok_bind, hstart, ok_bind, hslice,
    length_newlineEnds, Position.afterBy, Nat.add_comm 1, Nat.add_comm 1]
  rfl

end Checked

end DatabaseMarkup
