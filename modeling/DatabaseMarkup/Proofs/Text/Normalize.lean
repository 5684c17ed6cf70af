import DatabaseMarkup.Proofs.Text.Trim
import DatabaseMarkup.Proofs.Unicode.Lowercase

/-!
# Normal forms of names

The normal forms are the texts that are made of words in lower case with single spaces between
them: `Text.isNormal_normalize` states that every text is brought into such a form, and
`Text.normalize_of_isNormal` that such a form is left as it is.
-/

namespace DatabaseMarkup

open Unicode

namespace Text

/-! ## Joined words -/

/-- Whether a text is a word: it is not empty, and it holds no blank. -/
def IsBlankless (w : Text) : Prop :=
  w ≠ [] ∧ ∀ c ∈ w, isBlank c = false

/-- The given words with single spaces between them. -/
def joinWords (ws : List Text) : Text :=
  (ws.intersperse [' ']).flatten

theorem joinWords_singleton (w : Text) :
  joinWords [w] = w
  := List.flatten_singleton

theorem joinWords_cons_cons (w v : Text) (ws : List Text) :
  joinWords (w :: v :: ws) = w ++ ' ' :: joinWords (v :: ws)
  := rfl

/-- The words of a text are words. -/
theorem isBlankless_of_mem_words {t w : Text} (h : w ∈ words t) :
  IsBlankless w
  := by
  obtain ⟨hw, hn⟩ := List.mem_filter.mp h
  refine ⟨?_, not_of_mem_splitWhere hw⟩
  rintro rfl
  cases hn

/-- A word ends at a blank. -/
theorem words_append_blank {w : Text} (hw : IsBlankless w) {c : Char} (hc : isBlank c) (t : Text) :
  words (w ++ c :: t) = w :: words t
  := by
  obtain ⟨hn, hw⟩ := hw
  rw [words, splitWhere_append_cons hw hc, List.filter_cons_of_pos, words]
  rwa [Bool.not_eq_true', List.isEmpty_eq_false_iff]

/-- A word is its only word. -/
theorem words_of_isBlankless {w : Text} (hw : IsBlankless w) :
  words w = [w]
  := by
  obtain ⟨hn, hw⟩ := hw
  rw [words, splitWhere_eq_singleton hw, List.filter_cons_of_pos]
  · rfl
  · rwa [Bool.not_eq_true', List.isEmpty_eq_false_iff]

/-- The words that are joined are those of the whole text. -/
theorem words_joinWords {ws : List Text} (h : ∀ w ∈ ws, IsBlankless w) :
  words (joinWords ws) = ws
  := by
  induction ws with
  | nil => rfl
  | cons w ws ih =>
    obtain ⟨hw, hws⟩ := List.forall_mem_cons.mp h
    cases ws with
    | nil => rw [joinWords_singleton, words_of_isBlankless hw]
    | cons v ws => rw [joinWords_cons_cons, words_append_blank hw rfl, ih hws]

/-- Joined words are empty only if there are none. -/
theorem joinWords_eq_nil_iff {ws : List Text} (h : ∀ w ∈ ws, IsBlankless w) :
  joinWords ws = [] ↔ ws = []
  := by
  constructor
  · intro hn
    rw [← words_joinWords h, hn]
    rfl
  · rintro rfl
    rfl

/-- Joined words neither start nor end with a blank. -/
theorem trimmed_joinWords {ws : List Text} (h : ∀ w ∈ ws, IsBlankless w) :
  Trimmed (joinWords ws)
  := by
  induction ws with
  | nil => exact trimmed_nil
  | cons w ws ih =>
    obtain ⟨⟨hn, hw⟩, hws⟩ := List.forall_mem_cons.mp h
    cases ws with
    | nil =>
      rw [joinWords_singleton]
      exact trimmed_of_forall hw
    | cons v ws =>
      have hne : joinWords (v :: ws) ≠ [] :=
        mt (joinWords_eq_nil_iff hws).mp (List.cons_ne_nil v ws)
      rw [joinWords_cons_cons]
      exact (trimmed_of_forall hw).append (ih hws) hn hne [' ']

/-- A text without words is blank. -/
theorem words_eq_nil_iff {t : Text} :
  words t = [] ↔ allBlank t
  := by
  induction t with
  | nil => exact iff_of_true rfl rfl
  | cons c t ih =>
    rw [allBlank, List.all_cons]
    by_cases hc : isBlank c
    · rw [words_cons_blank hc, ih, hc, Bool.true_and, allBlank]
    · obtain ⟨piece, pieces, hp⟩ := List.exists_cons_of_ne_nil (splitWhere_ne_nil isBlank t)
      rw [words, splitWhere, if_neg hc, hp, eq_false_of_ne_true hc, Bool.false_and]
      exact iff_of_false (List.cons_ne_nil _ _) Bool.false_ne_true

/-! ## Words in lower case -/

/-- Whether a text is a word in lower case. -/
def IsLowerWord (w : Text) : Prop :=
  IsBlankless w ∧ ∀ c ∈ w, IsLower c

/-- A word is written as a word, whatever stands around it. -/
theorem exists_lowercaseAfter_append {w : Text} (hw : ∀ c ∈ w, isBlank c = false)
    (before t : Text) :
  ∃ v, lowercaseAfter before (w ++ t) = v ++ lowercaseAfter (w.reverse ++ before) t
    ∧ (w ≠ [] → v ≠ []) ∧ (∀ c ∈ v, isBlank c = false) ∧ ∀ c ∈ v, IsLower c
  := by
  induction w generalizing before with
  | nil => exact ⟨[], rfl, absurd rfl, List.forall_mem_nil _, List.forall_mem_nil _⟩
  | cons c w ih =>
    obtain ⟨hc, hw⟩ := List.forall_mem_cons.mp hw
    obtain ⟨v, hv, -, hblank, hlower⟩ := ih hw (c :: before)
    obtain ⟨hn, hb⟩ := isBlank_lowerBetween hc before (w ++ t)
    refine ⟨lowerBetween before c (w ++ t) ++ v, ?_, ?_, ?_, ?_⟩
    · rw [List.cons_append, lowercaseAfter, hv, List.append_assoc, List.reverse_cons,
        List.append_assoc, List.singleton_append]
    · exact fun _ => List.append_ne_nil_of_left_ne_nil hn _
    · exact List.forall_mem_append.mpr ⟨hb, hblank⟩
    · exact List.forall_mem_append.mpr ⟨fun _ => isLower_of_mem_lowerBetween, hlower⟩

theorem isLower_space :
  IsLower ' '
  := ⟨by decide +kernel, by decide⟩

/-- A space stays, and what follows it is put in lower case behind it. -/
theorem lowercaseAfter_space (before t : Text) :
  lowercaseAfter before (' ' :: t) = ' ' :: lowercaseAfter (' ' :: before) t
  := by
  rw [lowercaseAfter, lowerBetween_of_isLower isLower_space, List.singleton_append]

/-- Joined words are written as as many words in lower case. -/
theorem exists_lowercaseAfter_joinWords {ws : List Text} (h : ∀ w ∈ ws, IsBlankless w)
    (before : Text) :
  ∃ vs, lowercaseAfter before (joinWords ws) = joinWords vs ∧ vs.length = ws.length
    ∧ ∀ v ∈ vs, IsLowerWord v
  := by
  induction ws generalizing before with
  | nil => exact ⟨[], rfl, rfl, List.forall_mem_nil _⟩
  | cons w ws ih =>
    obtain ⟨⟨hn, hw⟩, hws⟩ := List.forall_mem_cons.mp h
    cases ws with
    | nil =>
      obtain ⟨v, hv, hvn, hblank, hlower⟩ := exists_lowercaseAfter_append hw before []
      rw [List.append_nil, lowercaseAfter, List.append_nil] at hv
      refine ⟨[v], ?_, rfl, List.forall_mem_singleton.mpr ⟨⟨hvn hn, hblank⟩, hlower⟩⟩
      rw [joinWords_singleton, joinWords_singleton, hv]
    | cons w' ws =>
      obtain ⟨v, hv, hvn, hblank, hlower⟩ :=
        exists_lowercaseAfter_append hw before (' ' :: joinWords (w' :: ws))
      obtain ⟨vs, hvs, hl, hwords⟩ := ih hws (' ' :: (w.reverse ++ before))
      obtain ⟨v', vs, rfl⟩ := List.exists_cons_of_length_eq_add_one hl
      refine ⟨v :: v' :: vs, ?_, congrArg Nat.succ hl, ?_⟩
      · rw [joinWords_cons_cons, joinWords_cons_cons, hv, lowercaseAfter_space, hvs]
      · exact List.forall_mem_cons.mpr ⟨⟨⟨hvn hn, hblank⟩, hlower⟩, hwords⟩

/-! ## Normal forms -/

/-- Whether a text is made of words in lower case with single spaces between them. -/
def IsNormal (t : Text) : Prop :=
  ∃ ws, (∀ w ∈ ws, IsLowerWord w) ∧ t = joinWords ws

/-- A normalized text is made of as many words as the text, all in lower case. -/
theorem exists_normalize (t : Text) :
  ∃ vs, normalize t = joinWords vs ∧ vs.length = (words t).length ∧ ∀ v ∈ vs, IsLowerWord v
  := exists_lowercaseAfter_joinWords (fun _ => isBlankless_of_mem_words) []

/-- A normalized text is normal. -/
theorem isNormal_normalize (t : Text) :
  IsNormal (normalize t)
  := by
  obtain ⟨vs, hv, -, hwords⟩ := exists_normalize t
  exact ⟨vs, hwords, hv⟩

/-- A normal form neither begins nor ends with a blank. -/
theorem IsNormal.trimmed {t : Text} (h : IsNormal t) :
  Trimmed t
  := by
  obtain ⟨ws, hws, rfl⟩ := h
  exact trimmed_joinWords fun w hw => (hws w hw).1

theorem isLower_of_mem_joinWords {ws : List Text} (h : ∀ w ∈ ws, IsLowerWord w) :
  ∀ c ∈ joinWords ws, IsLower c
  := by
  induction ws with
  | nil => exact List.forall_mem_nil _
  | cons w ws ih =>
    obtain ⟨hw, hws⟩ := List.forall_mem_cons.mp h
    cases ws with
    | nil =>
      rw [joinWords_singleton]
      exact hw.2
    | cons v ws =>
      rw [joinWords_cons_cons]
      exact List.forall_mem_append.mpr
        ⟨hw.2, List.forall_mem_cons.mpr ⟨isLower_space, ih hws⟩⟩

/-- A normal form is left as it is. -/
theorem normalize_of_isNormal {t : Text} (h : IsNormal t) :
  normalize t = t
  := by
  obtain ⟨ws, hws, rfl⟩ := h
  have hwords := words_joinWords fun w hw => (hws w hw).1
  have hlower := isLower_of_mem_joinWords hws
  rw [normalize, hwords]
  exact lowercaseAfter_eq_self hlower []

/-- Normalizing twice is normalizing once. -/
theorem normalize_normalize (t : Text) :
  normalize (normalize t) = normalize t
  := normalize_of_isNormal (isNormal_normalize t)

/-- Only a blank text has an empty normal form. -/
theorem normalize_eq_nil_iff {t : Text} :
  normalize t = [] ↔ allBlank t
  := by
  obtain ⟨vs, hv, hl, hwords⟩ := exists_normalize t
  rw [hv, joinWords_eq_nil_iff fun v h => (hwords v h).1, ← List.length_eq_zero_iff, hl,
    List.length_eq_zero_iff, words_eq_nil_iff]

end Text

end DatabaseMarkup
