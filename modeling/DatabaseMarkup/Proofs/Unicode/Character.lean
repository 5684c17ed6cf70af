import DatabaseMarkup.Unicode.Character
import DatabaseMarkup.Unicode.Lowercase
import Mathlib.Tactic.Common

/-!
# Blank characters and letters

No word character and no letter is blank, and no character becomes blank in lower case.  The
tables are compared range by range, with `blankRanges`.
-/

namespace DatabaseMarkup.Unicode

/-- The ranges of the code points with the property White_Space. -/
def blankRanges : List CodeRange :=
  [ (0x09, 0x0D), (0x20, 0x20), (0x85, 0x85), (0xA0, 0xA0), (0x1680, 0x1680), (0x2000, 0x200A),
    (0x2028, 0x2029), (0x202F, 0x202F), (0x205F, 0x205F), (0x3000, 0x3000) ]

/-- Whether two ranges have no code point in common. -/
def CodeRange.isApart (r s : CodeRange) : Bool :=
  r.2 < s.1 || s.2 < r.1

/-- A blank lies in one of the ranges of blanks. -/
theorem exists_mem_blankRanges {c : Char} (h : isBlank c) :
  ∃ s ∈ blankRanges, s.1 ≤ c.toNat ∧ c.toNat ≤ s.2
  := by
  simp only [isBlank, Bool.or_eq_true, Bool.and_eq_true, decide_eq_true_eq] at h
  simp only [blankRanges, List.mem_cons, List.not_mem_nil, or_false, exists_eq_or_imp,
    exists_eq_left]
  omega

/-- A character is not blank whose code point lies in a range apart from those of the blanks. -/
theorem isBlank_eq_false_of_isApart {r : CodeRange} (hr : blankRanges.all r.isApart) {c : Char}
    (hl : r.1 ≤ c.toNat) (hu : c.toNat ≤ r.2) :
  isBlank c = false
  := by
  apply Bool.eq_false_iff.mpr
  intro hb
  obtain ⟨s, hs, hsl, hsu⟩ := exists_mem_blankRanges hb
  have ha := List.all_eq_true.mp hr s hs
  rw [CodeRange.isApart, Bool.or_eq_true, decide_eq_true_eq, decide_eq_true_eq] at ha
  omega

/-- The tables of letters, marks and numbers. -/
def letterTables : List (List CodeRange) :=
  [alphabetic, mark, decimalNumber, otherNumber]

/-- No range of letters or digits meets a range of blanks. -/
theorem letterTables_isApart :
  letterTables.all fun rs => rs.all fun r => blankRanges.all r.isApart
  := by decide +kernel

/-- A character in one of the tables of letters is no blank. -/
theorem isBlank_eq_false_of_covers {rs : List CodeRange} (hrs : rs ∈ letterTables) {c : Char}
    (h : CodeRange.covers rs c.toNat) :
  isBlank c = false
  := by
  have hr := List.all_eq_true.mp letterTables_isApart rs hrs
  obtain ⟨r, hm, hl, hu⟩ := CodeRange.exists_mem_of_covers h
  apply isBlank_eq_false_of_isApart (List.all_eq_true.mp hr r hm) hl hu

theorem isBlank_eq_false_of_isAsciiAlphanumeric {c : Char} (h : isAsciiAlphanumeric c) :
  isBlank c = false
  := by
  apply Bool.eq_false_iff.mpr
  intro hb
  simp only [isBlank, isAsciiAlphanumeric, Bool.or_eq_true, Bool.and_eq_true,
    decide_eq_true_eq] at h hb
  omega

theorem isBlank_eq_false_of_isConnector {c : Char} (h : isConnector c) :
  isBlank c = false
  := by
  apply Bool.eq_false_iff.mpr
  intro hb
  simp only [isBlank, isConnector, Bool.or_eq_true, Bool.and_eq_true,
    decide_eq_true_eq] at h hb
  omega

theorem isBlank_eq_false_of_isJoinControl {c : Char} (h : isJoinControl c) :
  isBlank c = false
  := by
  apply Bool.eq_false_iff.mpr
  intro hb
  simp only [isBlank, isJoinControl, Bool.or_eq_true, Bool.and_eq_true,
    decide_eq_true_eq] at h hb
  omega

/-- A bare name holds no blanks. -/
theorem isBlank_eq_false_of_isWord {c : Char} (h : isWord c) :
  isBlank c = false
  := by
  rw [isWord] at h
  split at h
  · rcases Bool.or_eq_true _ _ |>.mp h with h | h
    · apply isBlank_eq_false_of_isAsciiAlphanumeric h
    · apply isBlank_eq_false_of_isConnector
      rw [isConnector]
      simp only [h, Bool.true_or]
  · rw [Bool.and_eq_true] at h
    simp only [Bool.or_eq_true] at h
    obtain ⟨(((h | h) | h) | h) | h, _⟩ := h
    · apply isBlank_eq_false_of_covers (.head _) h
    · apply isBlank_eq_false_of_covers (.tail _ (.head _)) h
    · apply isBlank_eq_false_of_covers (.tail _ (.tail _ (.head _))) h
    · apply isBlank_eq_false_of_isConnector h
    · apply isBlank_eq_false_of_isJoinControl h

/-- Letters and digits are no blanks. -/
theorem isBlank_eq_false_of_isAlphanumeric {c : Char} (h : isAlphanumeric c) :
  isBlank c = false
  := by
  rw [isAlphanumeric] at h
  split at h
  · apply isBlank_eq_false_of_isAsciiAlphanumeric h
  · rw [Bool.or_eq_true, Bool.or_eq_true] at h
    obtain (h | h) | h := h
    · apply isBlank_eq_false_of_covers (.head _) h
    · apply isBlank_eq_false_of_covers (.tail _ (.tail _ (.head _))) h
    · apply isBlank_eq_false_of_covers (.tail _ (.tail _ (.tail _ (.head _)))) h

/-! ## Lower case -/

/-- A blank is no letter of ASCII. -/
theorem toLower_of_isBlank {c : Char} (h : isBlank c) :
  c.toLower = c
  := by
  delta Char.toLower
  apply dif_neg
  rintro ⟨hl, hu⟩
  have hl : 65 ≤ c.val.toNat := UInt32.le_iff_toNat_le.mp hl
  have hu : c.val.toNat ≤ 90 := UInt32.le_iff_toNat_le.mp hu
  simp only [isBlank, Char.toNat, Bool.or_eq_true, Bool.and_eq_true, decide_eq_true_eq] at h
  omega

/-- No range of lower-case letters meets a range of blanks. -/
theorem lowerRuns_isApart :
  lowerRuns.all fun r =>
    blankRanges.all (CodeRange.isApart (r.target, r.target + (r.last - r.first)))
  := by decide +kernel

theorem toNat_ofNat {n : Nat} (hn : n.isValidChar) :
  (Char.ofNat n).toNat = n
  := by
  rw [Char.ofNat, dif_pos hn]
  rfl

/-- A code outside of the ranges of blanks is that of no blank. -/
theorem isBlank_ofNat {n : Nat} (h : ∀ s ∈ blankRanges, n < s.1 ∨ s.2 < n) :
  isBlank (Char.ofNat n) = false
  := by
  by_cases hn : n.isValidChar
  · apply Bool.eq_false_iff.mpr
    intro hb
    obtain ⟨s, hs, hl, hu⟩ := exists_mem_blankRanges hb
    rw [toNat_ofNat hn] at hl hu
    have := h s hs
    omega
  · rw [Char.ofNat, dif_neg hn]
    rfl

/-- Lower case makes no blanks. -/
theorem isBlank_lowerChar {c : Char} (h : isBlank c = false) :
  isBlank (lowerChar c) = false
  := by
  rw [lowerChar]
  split
  · delta Char.toLower
    split
    · rename_i hc
      have hl : 65 ≤ c.val.toNat := UInt32.le_iff_toNat_le.mp hc.1
      have hu : c.val.toNat ≤ 90 := UInt32.le_iff_toNat_le.mp hc.2
      have hd : ('a'.val - 'A'.val).toNat = 32 := rfl
      apply Bool.eq_false_iff.mpr
      intro hb
      simp only [isBlank, Char.toNat, UInt32.toNat_add, hd, Bool.or_eq_true, Bool.and_eq_true,
        decide_eq_true_eq] at hb
      omega
    · exact h
  · split
    · rename_i n hn
      obtain ⟨r, hr, hl⟩ := List.exists_of_findSome?_eq_some hn
      rw [CaseRun.lower?, Option.ite_none_right_eq_some] at hl
      obtain ⟨⟨hf, hu, _⟩, hl⟩ := hl
      have hl := Option.some.inj hl
      apply isBlank_ofNat
      intro s hs
      have ha := List.all_eq_true.mp (List.all_eq_true.mp lowerRuns_isApart r hr) s hs
      rw [CodeRange.isApart, Bool.or_eq_true, decide_eq_true_eq, decide_eq_true_eq] at ha
      dsimp only at ha
      omega
    · exact h

/-- A character that is not blank has a lower-case form without blanks, which is not empty. -/
theorem isBlank_lowerBetween {c : Char} (h : isBlank c = false) (before after : List Char) :
  lowerBetween before c after ≠ [] ∧ ∀ d ∈ lowerBetween before c after, isBlank d = false
  := by
  rw [lowerBetween]
  split
  · refine ⟨List.cons_ne_nil _ _, List.forall_mem_cons.mpr ⟨by decide, ?_⟩⟩
    exact List.forall_mem_singleton.mpr (by decide)
  · split
    · exact ⟨List.cons_ne_nil _ _, List.forall_mem_singleton.mpr (by decide)⟩
    · exact ⟨List.cons_ne_nil _ _, List.forall_mem_singleton.mpr (isBlank_lowerChar h)⟩

/-! ## Delimiters -/

/-- All characters of a closed text are checked by evaluation. -/
theorem forall_mem_of_all {p : Char → Prop} [DecidablePred p] {l : List Char}
    (h : l.all fun c => p c) :
  ∀ c ∈ l, p c
  := fun c hc => of_decide_eq_true (List.all_eq_true.mp h c hc)

theorem notMem_of_all {p : Char → Bool} {l : List Char} (hl : l.all fun d => !p d) {c : Char}
    (hc : p c) :
  c ∉ l
  := by
  intro h
  have hp := List.all_eq_true.mp hl c h
  rw [hc] at hp
  cases hp

end DatabaseMarkup.Unicode
