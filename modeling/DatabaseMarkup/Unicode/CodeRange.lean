/-!
# Ranges of code points

A property of characters is given by the list of the ranges of its code points.
`CodeRange.covers` looks a code point up in such a list.  The lists are in ascending order, so
that the search ends at the first range that begins above the code point.
-/

namespace DatabaseMarkup.Unicode

/-- A range of code points, given by its first and its last one. -/
abbrev CodeRange := Nat × Nat

/-- Whether a code point lies in one of the ranges of an ascending list. -/
def CodeRange.covers : List CodeRange → Nat → Bool
  | [], _ => false
  | (first, last) :: rest, n => first ≤ n && (n ≤ last || covers rest n)

/-- A code point that the search accepts lies in one of the ranges. -/
theorem CodeRange.exists_mem_of_covers {rs : List CodeRange} {n : Nat} (h : covers rs n) :
  ∃ r ∈ rs, r.1 ≤ n ∧ n ≤ r.2
  := by
  induction rs with
  | nil => simp [covers] at h
  | cons r rs ih =>
    simp only [covers, Bool.and_eq_true, Bool.or_eq_true, decide_eq_true_eq] at h
    rcases h with ⟨hl, hu | h⟩
    · exact ⟨r, List.mem_cons_self, hl, hu⟩
    · obtain ⟨s, hs, hn⟩ := ih h
      exact ⟨s, List.mem_cons_of_mem r hs, hn⟩

end DatabaseMarkup.Unicode
