import DatabaseMarkup.Proofs.Text.Position
import DatabaseMarkup.Proofs.Unicode.Character
import DatabaseMarkup.Settings.Reader
import Mathlib.Data.List.Basic
import Mathlib.Data.List.Induction

/-!
# Blanks at the ends of a text

A text is `Trimmed` if it neither begins nor ends with a blank.  `Text.trim_append` takes the
blanks around such a text away, and `Text.normalize_trim` states that they do not matter to a
normal form.
-/

namespace DatabaseMarkup

open Unicode

namespace Text

/-- Whether a text neither begins nor ends with a blank. -/
def Trimmed (t : Text) : Prop :=
  (∀ c ∈ t.head?, isBlank c = false) ∧ ∀ c ∈ t.getLast?, isBlank c = false

/-- Blanks at the start of a text are trimmed. -/
theorem trimStart_append {s t : Text} (hs : ∀ c ∈ s, isBlank c)
    (ht : ∀ c ∈ t.head?, isBlank c = false) :
  trimStart (s ++ t) = t
  := by
  rw [trimStart, List.dropWhile_append_of_pos hs]
  cases t with
  | nil => rfl
  | cons c t => rw [List.dropWhile_cons, ht c rfl, if_neg Bool.false_ne_true]

theorem trimStart_eq_self {t : Text} (ht : ∀ c ∈ t.head?, isBlank c = false) :
  trimStart t = t
  := trimStart_append (List.forall_mem_nil _) ht

/-- Blanks at the end of a text are trimmed. -/
theorem trimEnd_append {s t : Text} (hs : ∀ c ∈ s.getLast?, isBlank c = false)
    (ht : ∀ c ∈ t, isBlank c) :
  trimEnd (s ++ t) = s
  := by
  have hr : trimStart (t.reverse ++ s.reverse) = s.reverse := by
    apply trimStart_append
    · intro c hc
      apply ht c (List.mem_reverse.mp hc)
    · rwa [List.head?_reverse]
  rw [trimEnd, List.reverse_append, ← trimStart, hr, List.reverse_reverse]

/-- The blanks around a text are taken away. -/
theorem trim_append {s t u : Text} (hs : ∀ c ∈ s, isBlank c) (ht : Trimmed t)
    (hu : ∀ c ∈ u, isBlank c) :
  trim (s ++ (t ++ u)) = t
  := by
  cases t with
  | nil =>
    have hsu := trimStart_append (t := []) (List.forall_mem_append.mpr ⟨hs, hu⟩)
      (fun c hc => nomatch hc)
    rw [List.append_nil] at hsu
    rw [List.nil_append, trim, hsu]
    rfl
  | cons c t =>
    rw [trim, trimStart_append hs, trimEnd_append ht.2 hu]
    exact ht.1

theorem trim_append_left {s t : Text} (hs : ∀ c ∈ s, isBlank c) (ht : Trimmed t) :
  trim (s ++ t) = t
  := by
  have h := trim_append hs ht (List.forall_mem_nil _)
  rwa [List.append_nil] at h

/-- A trimmed text is not trimmed further. -/
theorem Trimmed.trim_eq {t : Text} (ht : Trimmed t) :
  trim t = t
  := trim_append_left (List.forall_mem_nil _) ht

theorem trimmed_nil :
  Trimmed []
  := ⟨fun _ hc => (nomatch hc), fun _ hc => (nomatch hc)⟩

theorem trimmed_of_forall {t : Text} (ht : ∀ c ∈ t, isBlank c = false) :
  Trimmed t
  := ⟨fun c hc => ht c (List.mem_of_head? hc), fun c hc => ht c (List.mem_of_getLast? hc)⟩

/-- What stands between two texts does not matter. -/
theorem Trimmed.append {s t : Text} (hs : Trimmed s) (ht : Trimmed t) (hsn : s ≠ []) (htn : t ≠ [])
    (u : Text) :
  Trimmed (s ++ (u ++ t))
  := by
  constructor
  · rw [List.head?_append_of_ne_nil _ hsn]
    exact hs.1
  · rw [← List.append_assoc, List.getLast?_append_of_ne_nil _ htn]
    exact ht.2

/-- A text between two characters that are no blanks is trimmed. -/
theorem trimmed_enclosed {c d : Char} (hc : isBlank c = false) (hd : isBlank d = false) (t : Text) :
  Trimmed (c :: (t ++ [d]))
  := by
  have hs : Trimmed [c] := trimmed_of_forall (List.forall_mem_singleton.mpr hc)
  have ht : Trimmed [d] := trimmed_of_forall (List.forall_mem_singleton.mpr hd)
  exact hs.append ht (List.cons_ne_nil _ _) (List.cons_ne_nil _ _) t

/-- Trimming leaves no blank at the start or at the end. -/
theorem trimmed_trim (t : Text) :
  Trimmed (trim t)
  := by
  have hr : trim t = ((trimStart t).reverse.dropWhile isBlank).reverse := rfl
  constructor
  · intro c hc
    have hs := List.dropWhile_suffix (l := (trimStart t).reverse) isBlank
    rw [← List.reverse_prefix, List.reverse_reverse, ← hr] at hs
    obtain ⟨u, hu⟩ := List.head?_eq_some_iff.mp hc
    obtain ⟨v, hv⟩ := hs
    have hn := List.head?_dropWhile_not isBlank t
    rw [hu, trimStart] at hv
    rw [← hv] at hn
    exact hn
  · intro c hc
    have hn := List.head?_dropWhile_not isBlank (trimStart t).reverse
    rw [hr, List.getLast?_reverse] at hc
    rw [Option.mem_def.mp hc] at hn
    exact hn

theorem trim_trim (t : Text) :
  trim (trim t) = trim t
  := (trimmed_trim t).trim_eq

/-- Nothing is taken from the end of a text that ends with a trimmed one. -/
theorem trim_append_trimmed (s : Text) {t : Text} (ht : Trimmed t) (hn : t ≠ []) :
  trim (s ++ t) = trimStart s ++ t
  := by
  have htrimmed : Trimmed (trimStart s ++ t) := by
    constructor
    · intro c hc
      cases hs : trimStart s with
      | nil =>
        rw [hs] at hc
        apply ht.1 c hc
      | cons d u =>
        have hd := List.head?_dropWhile_not isBlank s
        rw [← trimStart, hs] at hd
        rw [hs] at hc
        cases hc
        exact hd
    · rw [List.getLast?_append_of_ne_nil _ hn]
      exact ht.2
  have hsplit : s.takeWhile isBlank ++ trimStart s = s := List.takeWhile_append_dropWhile
  have hblank : ∀ c ∈ s.takeWhile isBlank, isBlank c := fun c hc => List.mem_takeWhile_imp hc
  have h := trim_append_left hblank htrimmed
  rwa [← List.append_assoc, hsplit] at h

/-- Where the first character is no blank, only the end is trimmed. -/
theorem trim_cons {c : Char} (hc : isBlank c = false) (t : Text) :
  trim (c :: t) = c :: trimEnd t
  := by
  have hstart : trimStart (c :: t) = c :: t := by
    apply trimStart_eq_self
    rintro d ⟨⟩
    exact hc
  rw [trim, hstart, trimEnd, trimEnd, List.reverse_cons, List.dropWhile_append]
  split
  · rename_i h
    rw [List.isEmpty_iff.mp h, List.dropWhile_cons, hc, if_neg Bool.false_ne_true]
    rfl
  · rw [List.reverse_append]
    rfl

theorem trimEnd_subset (t : Text) :
  trimEnd t ⊆ t
  := by
  intro c hc
  rw [trimEnd, List.mem_reverse] at hc
  exact List.mem_reverse.mp ((List.dropWhile_sublist isBlank).subset hc)

theorem trim_subset (t : Text) :
  trim t ⊆ t
  := by
  intro c hc
  exact (List.dropWhile_sublist isBlank).subset (trimEnd_subset _ hc)

/-- A trimmed text that is not empty holds more than blanks. -/
theorem not_allBlank {t : Text} (ht : Trimmed t) (hn : t ≠ []) :
  allBlank t = false
  := by
  obtain ⟨c, u, rfl⟩ := List.exists_cons_of_ne_nil hn
  rw [allBlank, List.all_cons, ht.1 c rfl, Bool.false_and]

/-! ## Normal forms -/

/-- No part holds a character that splits. -/
theorem not_of_mem_splitWhere {p : Char → Bool} {t w : Text} (h : w ∈ splitWhere p t) :
  ∀ c ∈ w, p c = false
  := by
  induction t generalizing w with
  | nil =>
    rw [splitWhere, List.mem_singleton] at h
    subst h
    apply List.forall_mem_nil
  | cons c t ih =>
    rw [splitWhere] at h
    split at h
    · rcases List.mem_cons.mp h with rfl | h
      · apply List.forall_mem_nil
      · apply ih h
    · rename_i hc
      have hc := eq_false_of_ne_true hc
      split at h
      · rw [List.mem_singleton] at h
        subst h
        exact List.forall_mem_singleton.mpr hc
      · rename_i piece pieces hp
        rw [hp] at ih
        rcases List.mem_cons.mp h with rfl | h
        · exact List.forall_mem_cons.mpr ⟨hc, ih List.mem_cons_self⟩
        · apply ih (List.mem_cons_of_mem _ h)

theorem splitWhere_concat {p : Char → Bool} {c : Char} (hc : p c) (t : Text) :
  splitWhere p (t ++ [c]) = splitWhere p t ++ [[]]
  := by
  induction t with
  | nil =>
    rw [List.nil_append, splitWhere.eq_def]
    dsimp only
    rw [if_pos hc]
    rfl
  | cons d t ih =>
    rw [List.cons_append, splitWhere, splitWhere, ih]
    split
    · rfl
    · obtain ⟨piece, pieces, h⟩ := List.exists_cons_of_ne_nil (splitWhere_ne_nil p t)
      rw [h]
      rfl

/-- A blank in front adds no word. -/
theorem words_cons_blank {c : Char} (hc : isBlank c) (t : Text) :
  words (c :: t) = words t
  := by
  rw [words, splitWhere, if_pos hc]
  rfl

/-- A blank at the end adds no word. -/
theorem words_concat_blank {c : Char} (hc : isBlank c) (t : Text) :
  words (t ++ [c]) = words t
  := by
  rw [words, splitWhere_concat hc, List.filter_append, words]
  exact List.append_nil _

theorem words_trimStart (t : Text) :
  words (trimStart t) = words t
  := by
  induction t with
  | nil => rfl
  | cons c t ih =>
    rw [trimStart, List.dropWhile_cons]
    split
    · rename_i hc
      rw [words_cons_blank hc, ← trimStart, ih]
    · rfl

theorem words_trimEnd (t : Text) :
  words (trimEnd t) = words t
  := by
  induction t using List.reverseRec with
  | nil => rfl
  | append_singleton t c ih =>
    rw [trimEnd, List.reverse_append, List.reverse_singleton, List.singleton_append,
      List.dropWhile_cons]
    split
    · rename_i hc
      rw [words_concat_blank hc, ← trimEnd, ih]
    · rw [List.reverse_cons, List.reverse_reverse]

/-- The normal form of a text does not depend on the blanks around it. -/
theorem normalize_trim (t : Text) :
  normalize (trim t) = normalize t
  := by
  rw [normalize, trim, words_trimEnd, words_trimStart, normalize]

end Text

end DatabaseMarkup
