import DatabaseMarkup.Proofs.Unicode.Character

/-!
# Texts in lower case

A character is in lower case if the tables have no other form for it.  The form of a character is
(`isLower_of_mem_lowerBetween`), and a text of such characters is left as it is
(`lowercaseAfter_eq_self`).
-/

namespace DatabaseMarkup.Unicode

/-- The lower-case form of a code point, if it is another single one. -/
def lowerCode? (n : Nat) : Option Nat :=
  lowerRuns.findSome? fun r => r.lower? n

/-- Whether a character is its own lower-case form. -/
def IsLower (c : Char) : Prop :=
  lowerCode? c.toNat = none ∧ c.toNat ≠ 0x0130

/-! ## The forms in the tables -/

/-- The distances of the code points of a run from its first one. -/
def CaseRun.offsets (r : CaseRun) : List Nat :=
  (List.range (r.last - r.first + 1)).filter fun k => k % r.step = 0

/-- A run sends the code at one of its offsets to the code at the same offset of its target. -/
theorem CaseRun.exists_of_lower? {r : CaseRun} {n m : Nat} (h : r.lower? n = some m) :
  ∃ k ∈ r.offsets, n = r.first + k ∧ m = r.target + k
  := by
  rw [CaseRun.lower?, Option.ite_none_right_eq_some] at h
  obtain ⟨⟨hl, hu, hs⟩, hm⟩ := h
  refine ⟨n - r.first, List.mem_filter.mpr ⟨?_, decide_eq_true hs⟩, ?_, ?_⟩
  · apply List.mem_range.mpr
    omega
  · omega
  · exact (Option.some.inj hm).symm

/-- The code points that have another form. -/
def upperCodes : List Nat :=
  0x0130 :: lowerRuns.flatMap fun r => r.offsets.map (r.first + ·)

/-- The code points of ASCII that are no capital letters. -/
def asciiCodes : List Nat :=
  (List.range 0x80).filter fun n => n < 0x41 ∨ 0x5A < n

/-- The forms, and the code points that are written beside them. -/
def lowerCodes : List Nat :=
  0x0307 :: 0x03C2 :: asciiCodes ++ lowerRuns.flatMap fun r => r.offsets.map (r.target + ·)

/-- Some code points as the number in which their bits are set. -/
def bits (ns : List Nat) : Nat :=
  ns.foldr (fun n m => 1 <<< n ||| m) 0

theorem testBit_bits {ns : List Nat} {n : Nat} (h : n ∈ ns) :
  (bits ns).testBit n
  := by
  induction ns with
  | nil => cases h
  | cons m ns ih =>
    rw [bits, List.foldr_cons, Nat.testBit_or, Bool.or_eq_true]
    rcases List.mem_cons.mp h with rfl | h
    · left
      rw [Nat.testBit_shiftLeft, Nat.sub_self, decide_eq_true (Nat.le_refl _)]
      rfl
    · exact .inr (ih h)

/-- Lists whose numbers set no common bit have no common number. -/
theorem disjoint_of_bits {ns ms : List Nat} (h : bits ns &&& bits ms = 0) :
  ns.Disjoint ms
  := by
  intro n hn hm
  have hb := Nat.testBit_and (bits ns) (bits ms) n
  rw [h, Nat.zero_testBit, testBit_bits hn, testBit_bits hm] at hb
  cases hb

-- The lists are too long to compare their members with each other.
/-- No code of a lower-case letter has a lower case of its own. -/
theorem upperCodes_disjoint_lowerCodes :
  upperCodes.Disjoint lowerCodes
  := by
  apply disjoint_of_bits
  decide +kernel

/-- A form has no other form. -/
theorem lowerCode?_of_mem_lowerCodes {n : Nat} (h : n ∈ lowerCodes) :
  lowerCode? n = none ∧ n ≠ 0x0130
  := by
  have hn : n ∉ upperCodes := fun hu => upperCodes_disjoint_lowerCodes hu h
  constructor
  · apply List.findSome?_eq_none_iff.mpr
    intro r hr
    apply Option.eq_none_iff_forall_not_mem.mpr
    intro m hm
    obtain ⟨k, hk, rfl, -⟩ := CaseRun.exists_of_lower? hm
    exact hn (.tail _ (List.mem_flatMap.mpr ⟨r, hr, List.mem_map_of_mem hk⟩))
  · rintro rfl
    exact hn (.head _)

/-- The lower case of a code is among the codes of lower-case letters. -/
theorem mem_lowerCodes_of_lowerCode? {n m : Nat} (h : lowerCode? n = some m) :
  m ∈ lowerCodes
  := by
  obtain ⟨r, hr, hl⟩ := List.exists_of_findSome?_eq_some h
  obtain ⟨k, hk, -, rfl⟩ := CaseRun.exists_of_lower? hl
  apply List.mem_append_right
  exact List.mem_flatMap.mpr ⟨r, hr, List.mem_map_of_mem hk⟩

/-- The ASCII codes outside of the capital letters are kept in lower case. -/
theorem mem_lowerCodes_of_lt {n : Nat} (hl : n < 0x80) (h : n < 0x41 ∨ 0x5A < n) :
  n ∈ lowerCodes
  := by
  apply List.mem_append_left
  apply List.mem_cons_of_mem
  apply List.mem_cons_of_mem
  exact List.mem_filter.mpr ⟨List.mem_range.mpr hl, decide_eq_true h⟩

/-! ## Characters in lower case -/

theorem toLower_eq {c : Char} (hc : c.toNat < 0x80) :
  c.toLower = ((lowerCode? c.toNat).map Char.ofNat).getD c
  := by
  delta Char.toLower
  split
  · rename_i h
    have hl : 65 ≤ c.toNat := UInt32.le_iff_toNat_le.mp h.1
    have hu : c.toNat ≤ 90 := UInt32.le_iff_toNat_le.mp h.2
    -- The capital letters of ASCII are the first run.
    have hr : lowerRuns = ⟨0x41, 0x5A, 1, 0x61⟩ :: lowerRuns.tail := rfl
    have hf : lowerCode? c.toNat = some (0x61 + (c.toNat - 0x41)) := by
      rw [lowerCode?, hr, List.findSome?_cons, CaseRun.lower?, if_pos ⟨hl, hu, Nat.mod_one _⟩]
    have hd : (c.val + ('a'.val - 'A'.val)).toNat = 0x61 + (c.toNat - 0x41) := by
      have he : ('a'.val - 'A'.val).toNat = 32 := rfl
      rw [UInt32.toNat_add, he]
      rw [Char.toNat] at hl hu ⊢
      omega
    rw [hf, Option.map_some, Option.getD_some, ← hd]
    exact (Char.ofNat_toNat _).symm
  · rename_i h
    have hm : c.toNat ∈ lowerCodes := by
      apply mem_lowerCodes_of_lt hc
      by_contra hn
      apply h
      rw [not_or, Nat.not_lt, Nat.not_lt] at hn
      exact ⟨UInt32.le_iff_toNat_le.mpr hn.1, UInt32.le_iff_toNat_le.mpr hn.2⟩
    rw [(lowerCode?_of_mem_lowerCodes hm).1]
    rfl

/-- The lower case of a character is looked up by its code. -/
theorem lowerChar_eq (c : Char) :
  lowerChar c = ((lowerCode? c.toNat).map Char.ofNat).getD c
  := by
  rw [lowerChar]
  split
  · rename_i hc
    exact toLower_eq hc
  · rw [lowerCode?]
    cases lowerRuns.findSome? fun r => r.lower? c.toNat <;> rfl

theorem isLower_ofNat {n : Nat} (h : n ∈ lowerCodes) :
  IsLower (Char.ofNat n)
  := by
  by_cases hv : n.isValidChar
  · rw [IsLower, toNat_ofNat hv]
    exact lowerCode?_of_mem_lowerCodes h
  · rw [Char.ofNat, dif_neg hv]
    exact lowerCode?_of_mem_lowerCodes (mem_lowerCodes_of_lt (by decide) (by decide))

/-- The lower case of a character is in lower case. The capital I with a dot has two characters as
its lower case. -/
theorem isLower_lowerChar {c : Char} (hc : c.toNat ≠ 0x0130) :
  IsLower (lowerChar c)
  := by
  rw [lowerChar_eq]
  cases h : lowerCode? c.toNat with
  | none => exact ⟨h, hc⟩
  | some n => exact isLower_ofNat (mem_lowerCodes_of_lowerCode? h)

/-- Whatever its neighbours are, a character is written in lower case. -/
theorem isLower_of_mem_lowerBetween {before after : List Char} {c d : Char}
    (h : d ∈ lowerBetween before c after) :
  IsLower d
  := by
  rw [lowerBetween] at h
  split at h
  · rcases List.mem_cons.mp h with rfl | h
    · exact isLower_ofNat (mem_lowerCodes_of_lt (by decide) (by decide))
    · rw [List.mem_singleton.mp h]
      exact isLower_ofNat (.head _)
  · rename_i hc
    split at h
    · rw [List.mem_singleton.mp h]
      exact isLower_ofNat (.tail _ (.head _))
    · rw [List.mem_singleton.mp h]
      exact isLower_lowerChar hc

/-- A character in lower case stays as it is wherever it stands. -/
theorem lowerBetween_of_isLower {c : Char} (h : IsLower c) (before after : List Char) :
  lowerBetween before c after = [c]
  := by
  obtain ⟨hn, hd⟩ := h
  have hsigma : c.toNat ≠ 0x03A3 := by
    intro hc
    have hf : lowerCode? 0x03A3 = some 0x03C3 := rfl
    rw [hc, hf] at hn
    cases hn
  rw [lowerBetween, if_neg hd, decide_eq_false hsigma, Bool.false_and, Bool.false_and,
    if_neg Bool.false_ne_true, lowerChar_eq, hn]
  rfl

/-! ## Texts in lower case -/

/-- A text in lower case stays as it is. -/
theorem lowercaseAfter_eq_self {t : List Char} (ht : ∀ c ∈ t, IsLower c) (before : List Char) :
  lowercaseAfter before t = t
  := by
  induction t generalizing before with
  | nil => rfl
  | cons c t ih =>
    obtain ⟨hc, ht⟩ := List.forall_mem_cons.mp ht
    rw [lowercaseAfter, lowerBetween_of_isLower hc, ih ht, List.singleton_append]

end DatabaseMarkup.Unicode
