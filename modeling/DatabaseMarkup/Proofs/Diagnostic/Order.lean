import DatabaseMarkup.Diagnostic.Basic

/-!
# The order of diagnostics

`Diagnostic.sort` puts diagnostics in the order of their lines and those without a place at the end.
Diagnostics of one line stay in the order in which they were found.  `Diagnostic.isOrdered_iff`
states that no other list of the same diagnostics is in such an order.
-/

namespace DatabaseMarkup.Diagnostic

variable {d e : Diagnostic} {found ds es : List Diagnostic}

/-- A diagnostic precedes the ones on no line and those on the same or a later line. -/
theorem precedes_iff :
  d.precedes e ↔ e.line = 0 ∨ (d.line ≠ 0 ∧ d.line ≤ e.line)
  := by
  rw [precedes, Bool.or_eq_true, Bool.and_eq_true, decide_eq_true_iff, decide_eq_true_iff,
    decide_eq_true_iff]

theorem precedes_trans (d e f : Diagnostic) (hde : d.precedes e) (hef : e.precedes f) :
  d.precedes f
  := by
  rw [precedes_iff] at *
  omega

theorem precedes_total (d e : Diagnostic) :
  (d.precedes e || e.precedes d) = true
  := by
  rw [Bool.or_eq_true, precedes_iff, precedes_iff]
  omega

theorem precedes_of_line_eq (h : d.line = e.line) :
  d.precedes e
  := by
  rw [precedes_iff]
  omega

/-- Diagnostics that may stand in either order are of one line. -/
theorem line_eq_of_precedes (hde : d.precedes e) (hed : e.precedes d) :
  d.line = e.line
  := by
  rw [precedes_iff] at *
  omega

/-- The diagnostics of a line, in order. -/
def ofLine (line : Nat) (ds : List Diagnostic) : List Diagnostic :=
  ds.filter fun d => d.line = line

/-- Whether diagnostics stand in the order of their lines, those without a place last, and those of
one line in the order in which they were found. -/
structure IsOrdered (found ds : List Diagnostic) : Prop where
  perm : ds.Perm found
  pairwise : ds.Pairwise fun d e => e.line = 0 ∨ (d.line ≠ 0 ∧ d.line ≤ e.line)
  stable : ∀ line, ofLine line ds = ofLine line found

/-- Sorting orders diagnostics by their lines and keeps those of one line in their order. -/
theorem isOrdered_sort (found : List Diagnostic) :
  IsOrdered found (sort found)
  := by
  have hperm : (sort found).Perm found := List.mergeSort_perm found precedes
  constructor
  · exact hperm
  · apply (List.pairwise_mergeSort precedes_trans precedes_total found).imp
    intro d e h
    exact precedes_iff.mp h
  · intro line
    have hline : (ofLine line found).Pairwise fun d e => d.precedes e := by
      apply List.pairwise_of_forall_mem_list
      intro d hd e he
      apply precedes_of_line_eq
      rw [of_decide_eq_true (List.mem_filter.mp hd).2, of_decide_eq_true (List.mem_filter.mp he).2]
    -- the diagnostics of a line are in order already, so sorting keeps them as they are
    have hsub : (ofLine line found).Sublist (sort found) :=
      List.sublist_mergeSort precedes_trans precedes_total hline List.filter_sublist
    have hfilter := hsub.filter fun d => d.line = line
    rw [ofLine, List.filter_filter] at hfilter
    simp only [Bool.and_self] at hfilter
    symm
    apply hfilter.eq_of_length
    exact (hperm.filter _).length_eq.symm

theorem ofLine_cons (line : Nat) (d : Diagnostic) (ds : List Diagnostic) :
  ofLine line (d :: ds) = if d.line = line then d :: ofLine line ds else ofLine line ds
  := by
  rw [ofLine, List.filter_cons]
  simp only [decide_eq_true_eq]
  rfl

/-- The diagnostics of all lines are all diagnostics. -/
theorem mem_congr (h : ∀ line, ofLine line ds = ofLine line es) (d : Diagnostic) :
  d ∈ ds ↔ d ∈ es
  := by
  have hmem (ds : List Diagnostic) : d ∈ ofLine d.line ds ↔ d ∈ ds := by simp [ofLine]
  rw [← hmem, h, hmem]

/-- An order of lines is determined by the diagnostics of every line. -/
theorem eq_of_pairwise (hd : ds.Pairwise fun d e => d.precedes e)
    (he : es.Pairwise fun d e => d.precedes e) (h : ∀ line, ofLine line ds = ofLine line es) :
  ds = es
  := by
  induction ds generalizing es with
  | nil =>
    cases es with
    | nil => rfl
    | cons e es => cases (mem_congr h e).mpr List.mem_cons_self
  | cons d ds ih =>
    cases es with
    | nil => cases (mem_congr h d).mp List.mem_cons_self
    | cons e es =>
      obtain ⟨hdds, hds⟩ := List.pairwise_cons.mp hd
      obtain ⟨hees, hes⟩ := List.pairwise_cons.mp he
      have hde : d.precedes e := by
        rcases List.mem_cons.mp ((mem_congr h e).mpr List.mem_cons_self) with rfl | hm
        · exact precedes_of_line_eq rfl
        · exact hdds e hm
      have hed : e.precedes d := by
        rcases List.mem_cons.mp ((mem_congr h d).mp List.mem_cons_self) with rfl | hm
        · exact precedes_of_line_eq rfl
        · exact hees d hm
      have hfirst := h d.line
      rw [ofLine_cons, ofLine_cons, if_pos rfl, if_pos (line_eq_of_precedes hde hed).symm] at hfirst
      obtain rfl := (List.cons.inj hfirst).1
      have hrest (line : Nat) : ofLine line ds = ofLine line es := by
        have hl := h line
        rw [ofLine_cons, ofLine_cons] at hl
        split at hl
        · exact (List.cons.inj hl).2
        · exact hl
      rw [ih hds hes hrest]

/-- Sorting is the only way to put diagnostics in order. -/
theorem isOrdered_iff :
  IsOrdered found ds ↔ ds = sort found
  := by
  constructor
  · intro h
    have hs := isOrdered_sort found
    apply eq_of_pairwise
    · exact h.pairwise.imp precedes_iff.mpr
    · exact hs.pairwise.imp precedes_iff.mpr
    · intro line
      rw [h.stable, hs.stable]
  · rintro rfl
    exact isOrdered_sort found

/-- Problems without a place are reported in the order in which they were found. -/
theorem sort_unplaced (h : ∀ d ∈ ds, d.line = 0) :
  sort ds = ds
  := by
  have hordered : IsOrdered ds ds := by
    refine ⟨.refl ds, ?_, fun _ => rfl⟩
    apply List.pairwise_of_forall_mem_list
    intro d _ e he
    exact .inl (h e he)
  exact (isOrdered_iff.mp hordered).symm

end DatabaseMarkup.Diagnostic
