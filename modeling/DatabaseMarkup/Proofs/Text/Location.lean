import DatabaseMarkup.Proofs.Checked.Position

/-!
# Finding the position of an offset

A `LineIndex` looks for the line of an offset among the offsets at which the lines begin, and
measures what stands in front of the offset on that line.  `locate_counts_directly` states that this
is the position which counting the newlines from the start of the text gives, for every offset: on a
newline, behind one, inside of a character, and at the end of the text or beyond it.  It does not
depend on how wide a text is taken to be.
-/

namespace DatabaseMarkup

open Text

/-! ## Search by halves -/

namespace Checked

/-- A step of a search by halves: the sought index lies among the `size` ones behind `base`. -/
def halve (p : Nat → Bool) (ns : List Nat) : Nat × Nat → Checked (Step (Nat × Nat) Nat)
  | (base, size) =>
    if 1 < size then do
      let middle := base + size / 2
      let n ← elementAt ns middle
      let rest ← subtract size (size / 2)
      return .next (if p n then middle else base, rest)
    else do
      let n ← elementAt ns base
      return .done (if p n then base + 1 else base)

/-- The index of the first element of a list that does not satisfy a predicate, where all before it
do and none behind it does. -/
def partitionPoint (p : Nat → Bool) (ns : List Nat) : Checked Nat :=
  if ns.isEmpty then return 0 else loop Prod.snd (halve p ns) (0, ns.length)

section

variable {p : Nat → Bool} {lower upper : List Nat}

/-- An index is in front of the sought one if its element satisfies the predicate. -/
theorem exists_elementAt (hl : ∀ n ∈ lower, p n) (hu : ∀ n ∈ upper, p n = false) {i : Nat}
    (hi : i < (lower ++ upper).length) :
  ∃ n, elementAt (lower ++ upper) i = .ok n ∧ (p n ↔ i < lower.length)
  := by
  refine ⟨(lower ++ upper)[i], ?_, ?_⟩
  · rw [elementAt, List.getElem?_eq_getElem hi]
  · rw [List.getElem_append]
    split
    · rename_i h
      exact iff_of_true (hl _ (List.getElem_mem _)) h
    · rename_i h
      refine iff_of_false ?_ h
      rw [hu _ (List.getElem_mem _)]
      exact Bool.false_ne_true

/-- Halving the range ends at the first entry that does not satisfy the predicate, in a list in
which those that satisfy it come first. -/
theorem loop_halve (hl : ∀ n ∈ lower, p n) (hu : ∀ n ∈ upper, p n = false) (base size : Nat)
    (hs : 0 < size) (he : base + size ≤ (lower ++ upper).length) (hb : base ≤ lower.length)
    (hk : lower.length ≤ base + size) :
  loop Prod.snd (halve p (lower ++ upper)) (base, size) = .ok lower.length
  := by
  induction hn : size using Nat.strong_induction_on generalizing base size with
  | h n ih =>
    subst hn
    by_cases h : 1 < size
    · obtain ⟨n, he, hp⟩ := exists_elementAt hl hu (i := base + size / 2) (by omega)
      have hstep : halve p (lower ++ upper) (base, size)
          = .ok (.next (if p n then base + size / 2 else base, size - size / 2)) := by
        rw [halve, if_pos h]
        dsimp only
        rw [he, ok_bind, subtract_eq (Nat.div_le_self _ _)]
        rfl
      rw [loop_next hstep (by dsimp only; omega)]
      split
      · rename_i hpn
        have := hp.mp hpn
        exact ih _ (by omega) _ _ (by omega) (by omega) (by omega) (by omega) rfl
      · rename_i hpn
        have := mt hp.mpr hpn
        exact ih _ (by omega) _ _ (by omega) (by omega) (by omega) (by omega) rfl
    · obtain ⟨n, he, hp⟩ := exists_elementAt hl hu (i := base) (by omega)
      have hstep : halve p (lower ++ upper) (base, size)
          = .ok (.done (if p n then base + 1 else base)) := by
        rw [halve, if_neg h, he]
        rfl
      rw [loop_done hstep]
      congr 1
      split
      · rename_i hpn
        have := hp.mp hpn
        omega
      · rename_i hpn
        have := mt hp.mpr hpn
        omega

/-- The search finds where a list is divided by a predicate. -/
theorem partitionPoint_eq (hl : ∀ n ∈ lower, p n) (hu : ∀ n ∈ upper, p n = false) :
  partitionPoint p (lower ++ upper) = .ok lower.length
  := by
  rw [partitionPoint]
  split
  · rename_i h
    rw [List.isEmpty_iff, List.append_eq_nil_iff] at h
    rw [h.1]
    rfl
  · rename_i h
    rw [List.isEmpty_iff, ← ne_eq, ← List.length_pos_iff] at h
    apply loop_halve hl hu _ _ h
    · omega
    · omega
    · rw [List.length_append]
      omega

end

/-- The search among the offsets at which the lines of a text begin finds the number of the line at
the end of a part of the text. -/
theorem partitionPoint_starts (s u : Text) :
  partitionPoint (fun start => start ≤ size s) (0 :: newlineEnds 0 (s ++ u))
    = .ok (Position.after s).line
  := by
  have hs : ∀ n ∈ 0 :: newlineEnds 0 s, decide (n ≤ size s) = true := by
    rintro n (_ | ⟨_, hn⟩)
    · exact decide_eq_true (Nat.zero_le _)
    · have := lt_of_mem_newlineEnds hn
      apply decide_eq_true
      omega
  have hu : ∀ n ∈ newlineEnds (0 + size s) u, decide (n ≤ size s) = false := by
    intro n hn
    have := lt_of_mem_newlineEnds hn
    apply decide_eq_false
    omega
  rw [newlineEnds_append, ← List.cons_append, partitionPoint_eq hs hu, List.length_cons,
    length_newlineEnds, Position.after, Position.afterBy, Nat.add_comm]

end Checked

/-- For every offset into a text, inside of it or not, there is a longest part of the text that ends
up to the offset and the end of the text, and the position of the offset counts the newlines of that
part and measures its last line, however texts are measured.  The position is computed without a
fault, from a search by halves among the offsets at which the lines begin, and its line never
decreases as the offset grows. -/
theorem locate_counts_directly (width : Text → Nat) (t : Text) (offset : Nat) :
  let position := (LineIndex.ofText t).locateBy width offset
  (∃ above line after, t = above ++ line ++ after
      ∧ size (above ++ line) ≤ min offset (size t)
      ∧ (∀ s, s <+: t → size s ≤ min offset (size t) → size s ≤ size (above ++ line))
      ∧ (above = [] ∨ above.getLast? = some '\n') ∧ '\n' ∉ line
      ∧ position.line = 1 + (above ++ line).count '\n'
      ∧ position.column = 1 + width line
      ∧ Checked.backToBoundary t (min offset (size t)) = .ok (size (above ++ line))
      ∧ Checked.partitionPoint (fun start => start ≤ size (above ++ line)) (0 :: newlineEnds 0 t)
          = .ok position.line)
    ∧ Checked.locateBy width t offset = .ok position
    ∧ (∀ later, offset ≤ later → position.line ≤ ((LineIndex.ofText t).locateBy width later).line)
    ∧ (LineIndex.ofText t).locate offset = (LineIndex.ofText t).locateBy displayWidth offset
    ∧ Checked.locate t offset = Checked.locateBy displayWidth t offset
  := by
  intro position
  have hposition : position = Position.afterBy width (splitAtByte offset t).1 :=
    LineIndex.locateBy_eq_afterBy width t offset
  refine ⟨?_, ?_, ?_, rfl, rfl⟩
  · obtain ⟨above, hcut, ha, hn⟩ := exists_append_lastLine (splitAtByte offset t).1
    have ht := splitAtByte_append offset t
    rw [hcut] at ht
    refine ⟨above, lastLine (splitAtByte offset t).1, (splitAtByte offset t).2, ht.symm, ?_, ?_, ha,
      hn, ?_, ?_, ?_, ?_⟩
    · rw [← hcut]
      exact Nat.le_min.mpr ⟨size_splitAtByte_le offset t, size_le_of_prefix (splitAtByte_isPrefix _ _)⟩
    · intro s hs hsize
      rw [← hcut]
      exact size_le_of_prefix (prefix_splitAtByte hs (Nat.le_min.mp hsize).1)
    · rw [← hcut]
      exact congrArg Position.line hposition
    · exact congrArg Position.column hposition
    · rw [← hcut, Checked.backToBoundary_eq, splitAtByte_min]
    · have h := Checked.partitionPoint_starts (splitAtByte offset t).1 (splitAtByte offset t).2
      rw [splitAtByte_append] at h
      rw [← hcut, h, hposition]
      rfl
  · rw [Checked.locateBy_eq, hposition]
  · intro later hlater
    have hcuts : (splitAtByte offset t).1 <+: (splitAtByte later t).1 :=
      prefix_splitAtByte (splitAtByte_isPrefix _ _) (Nat.le_trans (size_splitAtByte_le _ _) hlater)
    rw [hposition, LineIndex.locateBy_eq_afterBy]
    exact Nat.add_le_add_left (hcuts.sublist.count_le _) 1

end DatabaseMarkup
