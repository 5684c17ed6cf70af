import DatabaseMarkup.Block.Header
import Mathlib.Tactic.Common

/-!
# What a header leaves

Every reader of a header leaves an end of the text that it was given.  `Header.exists_append`
states so of the header as a whole, of which there is at least one character.
-/

namespace DatabaseMarkup

namespace Text

theorem suffix_of_splitName {t name rest : Text} (h : splitName? t = some (name, rest)) :
  rest <:+ t
  := ⟨name, (eq_append_of_splitName h).symm⟩

theorem suffix_of_splitBlanks {t rest : Text} (h : splitBlanks? t = some rest) :
  rest <:+ t
  := by
  cases t with
  | nil =>
    rw [splitBlanks?] at h
    cases h
  | cons c t =>
    obtain ⟨_, rfl⟩ := Option.ite_none_right_eq_some.mp h |>.imp_right Option.some.inj
    apply (List.dropWhile_suffix _).trans (List.suffix_cons c t)

theorem suffix_of_splitChar {expected : Char} {t rest : Text}
    (h : splitChar? expected t = some rest) :
  rest <:+ t
  := by
  cases t with
  | nil =>
    rw [splitChar?] at h
    cases h
  | cons c t =>
    obtain ⟨_, rfl⟩ := Option.ite_none_right_eq_some.mp h |>.imp_right Option.some.inj
    apply List.suffix_cons

/-- A keyword is written out in front of what follows it. -/
theorem exists_keyword {keyword t rest : Text} (h : splitKeyword? keyword t = some rest) :
  ∃ word, t = word ++ rest ∧ splitKeyword? keyword word = some []
  := by
  fun_induction splitKeyword? keyword t with
  | case1 t =>
    obtain rfl := Option.some.inj h
    exact ⟨[], rfl, rfl⟩
  | case2 => cases h
  | case3 letter letters c t hc ih =>
    obtain ⟨word, rfl, hw⟩ := ih h
    refine ⟨c :: word, rfl, ?_⟩
    rw [splitKeyword?, if_pos hc, hw]
  | case4 => cases h

theorem suffix_of_splitKeyword {keyword t rest : Text} (h : splitKeyword? keyword t = some rest) :
  rest <:+ t
  := by
  fun_induction splitKeyword? keyword t with
  | case1 =>
    obtain rfl := Option.some.inj h
    apply List.suffix_rfl
  | case2 => cases h
  | case3 _ _ _ _ _ ih => apply (ih h).trans (List.suffix_cons _ _)
  | case4 => cases h

theorem suffix_of_spacedName {t name rest : Text} (h : spacedName? t = some (name, rest)) :
  rest <:+ t
  := by
  obtain ⟨u, hu, hn⟩ := Option.bind_eq_some_iff.mp h
  apply (suffix_of_splitName hn).trans (suffix_of_splitBlanks hu)

theorem suffix_of_qualifiedName {t name rest : Text} {qualifier : Option Text}
    (h : qualifiedName? t = some (qualifier, name, rest)) :
  rest <:+ t
  := by
  rw [qualifiedName?] at h
  split at h
  · rename_i hu
    have hs := suffix_of_splitName hu
    split at h
    · rename_i hv
      obtain ⟨w, hw, hv⟩ := Option.bind_eq_some_iff.mp hv
      cases h
      apply (suffix_of_splitName hv).trans ((suffix_of_splitChar hw).trans hs)
    · cases h
      exact hs
  · cases h

theorem suffix_of_aliasClause {t name rest : Text} (h : aliasClause? t = some (name, rest)) :
  rest <:+ t
  := by
  obtain ⟨v, hv, h⟩ := Option.bind_eq_some_iff.mp h
  obtain ⟨u, hu, hv⟩ := Option.bind_eq_some_iff.mp hv
  apply (suffix_of_spacedName h).trans
  apply (suffix_of_splitKeyword hv).trans (suffix_of_splitBlanks hu)

end Text

namespace HeaderForm

open Text

theorem suffix_of_referenceEnd {name : Option Text} {t rest : Text} {header : Header}
    (h : referenceEnd? name t = some (header, rest)) :
  rest <:+ t
  := by
  have ht : trimStart t <:+ t := List.dropWhile_suffix _
  rw [referenceEnd?] at h
  split at h
  · cases h
  · rename_i c u hu
    rw [hu] at ht
    split at h
    · cases h
      apply (List.suffix_cons c _).trans ht
    · split at h
      · cases h
        exact ht
      · cases h

theorem suffix_of_named {keyword t rest : Text} {kind : BlockKind} {header : Header}
    (h : (named keyword kind).readNames t = some (header, rest)) :
  rest <:+ t
  := by
  obtain ⟨⟨name, u⟩, hn, hu⟩ := Option.map_eq_some_iff.mp h
  cases hu
  apply suffix_of_spacedName hn

theorem suffix_of_qualified {t name rest : Text} {qualifier : Option Text}
    (h : (splitBlanks? t).bind qualifiedName? = some (qualifier, name, rest)) :
  rest <:+ t
  := by
  obtain ⟨u, hu, h⟩ := Option.bind_eq_some_iff.mp h
  apply (suffix_of_qualifiedName h).trans (suffix_of_splitBlanks hu)

theorem suffix_of_table {t rest : Text} {header : Header}
    (h : table.readNames t = some (header, rest)) :
  rest <:+ t
  := by
  simp only [table] at h
  split at h
  · rename_i hq
    have hq := suffix_of_qualified hq
    split at h
    · rename_i ha
      cases h
      apply (suffix_of_aliasClause ha).trans hq
    · cases h
      exact hq
  · cases h

/-- What follows a header is a suffix. -/
theorem suffix_of_readNames {form : HeaderForm} (hf : form ∈ all) {t rest : Text}
    {header : Header} (h : form.readNames t = some (header, rest)) :
  rest <:+ t
  := by
  simp only [all, List.mem_cons, List.not_mem_nil, or_false] at hf
  rcases hf with rfl | rfl | rfl | rfl | rfl | rfl | rfl
  · simp only [reference, Option.ite_none_left_eq_some] at h
    obtain ⟨_, h⟩ := h
    split at h
    · rename_i hn
      apply (suffix_of_referenceEnd h).trans (suffix_of_spacedName hn)
    · apply suffix_of_referenceEnd h
  · apply suffix_of_named h
  · apply suffix_of_named h
  · apply suffix_of_table h
  · simp only [project, Option.ite_none_left_eq_some] at h
    obtain ⟨_, h⟩ := h
    split at h
    · rename_i hn
      cases h
      apply suffix_of_spacedName hn
    · cases h
      apply List.suffix_rfl
  · simp only [enum, Option.map_eq_some_iff, Prod.exists, Prod.mk.injEq] at h
    obtain ⟨_, _, _, hq, _, rfl⟩ := h
    apply suffix_of_qualified hq
  · apply suffix_of_named h

end HeaderForm

namespace Header

open Text

/-- A header is a part of the text at its start, and is not empty. -/
theorem exists_append {t rest : Text} {header : Header} (h : read? t = some (header, rest)) :
  ∃ names, t = names ++ rest ∧ names ≠ []
  := by
  have hl := length_read_lt h
  obtain ⟨form, hf, h⟩ := List.exists_of_findSome?_eq_some h
  obtain ⟨u, hu, h⟩ := Option.bind_eq_some_iff.mp h
  obtain ⟨names, rfl⟩ :=
    (HeaderForm.suffix_of_readNames hf h).trans (Text.suffix_of_splitKeyword hu)
  refine ⟨names, rfl, ?_⟩
  rintro rfl
  rw [List.nil_append] at hl
  exact absurd hl (Nat.lt_irrefl _)

/-- A header does not begin with a blank. -/
theorem isAsciiBlank_head {c : Char} {t rest : Text} {header : Header}
    (h : read? (c :: t) = some (header, rest)) :
  Unicode.isAsciiBlank c = false
  := by
  obtain ⟨form, hf, h⟩ := List.exists_of_findSome?_eq_some h
  obtain ⟨u, hu, h⟩ := Option.bind_eq_some_iff.mp h
  apply eq_false_of_ne_true
  intro hb
  have hc : c = ' ' ∨ c = '\t' ∨ c = '\n' ∨ c = '\x0c' ∨ c = '\r' := by
    simp only [Unicode.isAsciiBlank, Bool.or_eq_true, decide_eq_true_eq, or_assoc] at hb
    simp only [← Char.toNat_inj]
    exact hb
  simp only [HeaderForm.all, List.mem_cons, List.not_mem_nil, or_false] at hf
  rcases hf with rfl | rfl | rfl | rfl | rfl | rfl | rfl <;>
    rcases hc with rfl | rfl | rfl | rfl | rfl <;> cases hu

/-- The header of a reference is read by its own form. -/
theorem exists_referenceEnd {t rest : Text} {header : Header}
    (h : read? t = some (header, rest))
    (hk : header.kind = .refShort ∨ header.kind = .refBlock) :
  ∃ name u, u <:+ t ∧ HeaderForm.referenceEnd? name u = some (header, rest)
  := by
  obtain ⟨form, hf, h⟩ := List.exists_of_findSome?_eq_some h
  obtain ⟨u, hu, h⟩ := Option.bind_eq_some_iff.mp h
  have hs := suffix_of_splitKeyword hu
  simp only [HeaderForm.all, List.mem_cons, List.not_mem_nil, or_false] at hf
  rcases hf with rfl | hf
  · obtain ⟨_, h⟩ := Option.ite_none_left_eq_some.mp h
    split at h
    · rename_i hn
      exact ⟨_, _, (suffix_of_spacedName hn).trans hs, h⟩
    · exact ⟨_, _, hs, h⟩
  · -- every other form makes a header of its own kind
    exfalso
    rcases hf with rfl | rfl | rfl | rfl | rfl | rfl
    · obtain ⟨_, _, hh⟩ := Option.map_eq_some_iff.mp h
      cases hh
      rcases hk with ⟨⟨⟩⟩ | ⟨⟨⟩⟩
    · obtain ⟨_, _, hh⟩ := Option.map_eq_some_iff.mp h
      cases hh
      rcases hk with ⟨⟨⟩⟩ | ⟨⟨⟩⟩
    · simp only [HeaderForm.table] at h
      split at h
      · split at h <;> (cases h; rcases hk with ⟨⟨⟩⟩ | ⟨⟨⟩⟩)
      · cases h
    · obtain ⟨_, h⟩ := Option.ite_none_left_eq_some.mp h
      split at h <;> (cases h; rcases hk with ⟨⟨⟩⟩ | ⟨⟨⟩⟩)
    · obtain ⟨_, _, hh⟩ := Option.map_eq_some_iff.mp h
      cases hh
      rcases hk with ⟨⟨⟩⟩ | ⟨⟨⟩⟩
    · obtain ⟨_, _, hh⟩ := Option.map_eq_some_iff.mp h
      cases hh
      rcases hk with ⟨⟨⟩⟩ | ⟨⟨⟩⟩

/-- The header of a short reference ends with a colon. -/
theorem exists_colon {t rest : Text} {header : Header} (h : read? t = some (header, rest))
    (hk : header.kind = .refShort) :
  ∃ names, t = names ++ ':' :: rest
  := by
  obtain ⟨name, u, hu, h⟩ := exists_referenceEnd h (.inl hk)
  have hv : trimStart u <:+ t := (List.dropWhile_suffix _).trans hu
  rw [HeaderForm.referenceEnd?] at h
  split at h
  · cases h
  · rename_i c v hc
    rw [hc] at hv
    split at h
    · rename_i hcolon
      cases h
      rw [hcolon] at hv
      obtain ⟨names, rfl⟩ := hv
      exact ⟨names, rfl⟩
    · obtain ⟨_, h⟩ := Option.ite_none_right_eq_some.mp h
      cases h
      cases hk

/-- The header of a reference block ends before a brace. -/
theorem exists_brace {t rest : Text} {header : Header} (h : read? t = some (header, rest))
    (hk : header.kind = .refBlock) :
  ∃ u, rest = '{' :: u
  := by
  obtain ⟨name, u, -, h⟩ := exists_referenceEnd h (.inr hk)
  rw [HeaderForm.referenceEnd?] at h
  split at h
  · cases h
  · split at h
    · cases h
      cases hk
    · obtain ⟨hc, h⟩ := Option.ite_none_right_eq_some.mp h
      cases h
      exact ⟨_, by rw [hc]⟩

end Header

end DatabaseMarkup
