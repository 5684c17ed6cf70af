import DatabaseMarkup.Proofs.Text.Literal
import DatabaseMarkup.Proofs.Text.Trim
import DatabaseMarkup.Text.Name

/-!
# Written names

An `AcceptedName` is a name together with the quotes that it is written in.  What
`Text.splitName?` takes from the start of a text is such a name, if it is followed by no word
character, and `Text.unquote` gives back its content.  For the scanners of delimiters a backslash
protects the quote behind it, so that a name in quotes is one lexeme only if it `IsClosed`.  A
`WrittenName` holds no backslash and always is.
-/

namespace DatabaseMarkup

open Unicode Text

/-- A name and the quotes around it, if there are any.  It holds neither its quotes nor a newline.
Only a name of word characters is written without quotes. -/
structure AcceptedName where
  content : Text
  quote? : Option Char
  content_ne_nil : content ≠ []
  newline_notMem : '\n' ∉ content
  quote_notMem : ∀ q ∈ quote?, isQuote q ∧ q ∉ content
  isWord_of_bare : quote? = none → ∀ c ∈ content, isWord c

theorem isQuote_of_notMem {c : Char} (h : c ∉ [apostrophe, quotationMark, backtick]) :
  isQuote c = false
  := by
  simp only [List.mem_cons, List.not_mem_nil, or_false, not_or] at h
  rw [isQuote, decide_eq_false h.1, decide_eq_false h.2.1, decide_eq_false h.2.2]
  rfl

theorem isQuote_of_isWord {c : Char} (h : isWord c) :
  isQuote c = false
  := isQuote_of_notMem (notMem_of_all (by decide) h)

theorem isBlank_quote {q : Char} (hq : isQuote q) :
  isBlank q = false
  := by
  simp only [isQuote, Bool.or_eq_true, decide_eq_true_eq] at hq
  rcases hq with (rfl | rfl) | rfl <;> rfl

/-- A literal ends at the next quote of its kind if no backslash stands in front of that. -/
theorem Text.closeLine_of_getLast? {q : Char} (hq : isQuote q) {inner : Text} (hc : q ∉ inner)
    (hb : q ≠ backtick → inner.getLast? ≠ some '\\') (hn : '\n' ∉ inner) (u : Text) :
  closeLine q (inner ++ q :: u) = some (inner, u)
  := by
  induction hl : inner.length using Nat.strongRecOn generalizing inner with
  | ind l ih =>
    cases inner with
    | nil => apply closeLine_quote hq
    | cons c inner =>
      rw [List.mem_cons, not_or] at hc hn
      rw [List.length_cons] at hl
      by_cases hs : (c = '\\' && q != backtick) = true
      · rw [Bool.and_eq_true, decide_eq_true_eq, bne_iff_ne] at hs
        obtain ⟨rfl, hquote⟩ := hs
        -- the backslash is not the last character, and it protects the one behind it
        cases inner with
        | nil => exact absurd rfl (hb hquote)
        | cons d inner =>
          rw [List.mem_cons, not_or] at hc hn
          have hlast : q ≠ backtick → inner.getLast? ≠ some '\\' := by
            intro _ h
            apply hb hquote
            rw [List.getLast?_cons_cons, List.getLast?_cons, h]
            rfl
          rw [List.length_cons] at hl
          rw [List.cons_append, List.cons_append, closeLine_escape hquote,
            ih inner.length (by omega) hc.2.2 hlast hn.2.2 rfl]
          rfl
      · have hlast : q ≠ backtick → inner.getLast? ≠ some '\\' := by
          intro h hlast
          apply hb h
          rw [List.getLast?_cons, hlast]
          rfl
        rw [List.cons_append, closeLine_of_ne (Ne.symm hn.1) hs (Ne.symm hc.1),
          ih inner.length (by omega) hc.2 hlast hn.2 rfl]
        rfl

/-- A literal without escapes ends at the next quote of its kind. -/
theorem Text.closeLine_of_notMem {q : Char} (hq : isQuote q) {inner : Text} (hc : q ∉ inner)
    (hb : q ≠ backtick → '\\' ∉ inner) (hn : '\n' ∉ inner) (u : Text) :
  closeLine q (inner ++ q :: u) = some (inner, u)
  := closeLine_of_getLast? hq hc (fun h hlast => hb h (List.mem_of_getLast? hlast)) hn u

/-- No blank is a quote. -/
theorem Text.isQuote_of_isBlank {s : Text} (hs : ∀ c ∈ s, isBlank c) :
  ∀ c ∈ s, isQuote c = false
  := by
  intro c hc
  by_contra hq
  have hblank := hs c hc
  rw [isBlank_quote (eq_true_of_ne_false hq)] at hblank
  cases hblank

/-- Blanks around a text are lexemes of their own. -/
theorem Text.Lexes.padded {s t u : Text} {ls : List Lexeme} (hs : ∀ c ∈ s, isBlank c)
    (h : Lexes t ls) (hu : ∀ c ∈ u, isBlank c) :
  Lexes (s ++ (t ++ u)) (s.map .plain ++ (ls ++ u.map .plain))
  := by
  have hhead : u.head? ≠ some apostrophe := by
    intro ha
    cases hu _ (List.mem_of_head? ha)
  exact (h.append (lexes_map_plain (isQuote_of_isBlank hu)) hhead).plains (isQuote_of_isBlank hs)

/-- Quotes come off a text if there are equal ones at both ends. -/
theorem Text.unquote_of_trim {t v : Text} {c e : Char} (h : trim t = c :: (v ++ [e])) :
  unquote t = if isQuote c && e = c then v else c :: (v ++ [e])
  := by
  rw [unquote, h]
  cases v with
  | nil =>
    rw [List.nil_append]
    dsimp only
    rw [List.getLast?_singleton, List.dropLast_singleton]
    simp only [Option.some.injEq]
  | cons d v =>
    rw [List.cons_append]
    dsimp only
    rw [← List.cons_append, List.getLast?_concat, List.dropLast_concat]
    simp only [Option.some.injEq]

/-- If a text loses more than the blanks around it, it loses a pair of quotes. -/
theorem Text.unquote_eq_or (t : Text) :
  unquote t = trim t ∨ ∃ q, isQuote q ∧ trim t = q :: (unquote t ++ [q])
  := by
  cases ht : trim t with
  | nil => exact .inl (by rw [unquote, ht])
  | cons c u =>
    rcases List.eq_nil_or_concat u with rfl | ⟨v, e, rfl⟩
    · exact .inl (by rw [unquote, ht])
    · rw [List.concat_eq_append] at ht ⊢
      rw [unquote_of_trim ht]
      split
      · rename_i hq
        rw [Bool.and_eq_true, decide_eq_true_eq] at hq
        obtain ⟨hq, rfl⟩ := hq
        exact .inr ⟨e, hq, rfl⟩
      · exact .inl rfl

/-- Taking quotes off adds no characters. -/
theorem Text.unquote_subset (t : Text) :
  unquote t ⊆ t
  := by
  intro c hc
  apply trim_subset t
  rcases unquote_eq_or t with hu | ⟨q, _, hu⟩
  · rwa [← hu]
  · rw [hu]
    apply List.mem_cons_of_mem _ (List.mem_append_left _ hc)

/-- A quote without a partner stays. -/
theorem Text.unquote_cons_of_notMem {q : Char} (hq : isQuote q) {t : Text} (h : q ∉ t) :
  unquote (q :: t) = q :: trimEnd t
  := by
  have htrim : trim (q :: t) = q :: trimEnd t := trim_cons (isBlank_quote hq) t
  rcases unquote_eq_or (q :: t) with hu | ⟨q', _, hu⟩
  · rw [hu, htrim]
  · rw [htrim, List.cons.injEq] at hu
    obtain ⟨rfl, hu⟩ := hu
    apply absurd (trimEnd_subset t _) h
    rw [hu]
    apply List.mem_append_right _ List.mem_cons_self

/-- The quotes around a text are taken off, and the blanks around them. -/
theorem Text.unquote_quoted {q : Char} (hq : isQuote q) (inner : Text) {s u : Text}
    (hs : ∀ c ∈ s, isBlank c) (hu : ∀ c ∈ u, isBlank c) :
  unquote (s ++ (q :: (inner ++ [q]) ++ u)) = inner
  := by
  have ht : Trimmed (q :: (inner ++ [q])) :=
    trimmed_enclosed (isBlank_quote hq) (isBlank_quote hq) inner
  rw [unquote_of_trim (trim_append hs ht hu), hq, Bool.true_and, decide_eq_true rfl, if_pos rfl]

/-- A text that does not begin with a quote only loses the blanks around it. -/
theorem Text.unquote_bare {s t u : Text} (hs : ∀ c ∈ s, isBlank c) (ht : Trimmed t)
    (hq : ∀ c ∈ t, isQuote c = false) (hu : ∀ c ∈ u, isBlank c) :
  unquote (s ++ (t ++ u)) = t
  := by
  rw [unquote, trim_append hs ht hu]
  match t with
  | [] => rfl
  | [c] => rfl
  | c :: d :: t =>
    dsimp only
    rw [hq c List.mem_cons_self, Bool.false_and, if_neg Bool.false_ne_true]

theorem Text.splitBlanks?_space {t : Text} (ht : ∀ c ∈ t.head?, isBlank c = false) :
  splitBlanks? (' ' :: t) = some t
  := by
  rw [splitBlanks?, if_pos (by rfl), trimStart_eq_self ht]

theorem Text.splitChar?_cons (c : Char) (t : Text) :
  splitChar? c (c :: t) = some t
  := by
  rw [splitChar?, if_pos rfl]

namespace AcceptedName

/-- A name between quotes. -/
def enclosed (q : Char) (content : Text) (hq : isQuote q) (hne : content ≠ [])
    (hn : '\n' ∉ content) (hc : q ∉ content) : AcceptedName where
  content
  quote? := some q
  content_ne_nil := hne
  newline_notMem := hn
  quote_notMem := by
    rintro _ ⟨⟩
    exact ⟨hq, hc⟩
  isWord_of_bare := by
    rintro ⟨⟩

/-- A name without quotes. -/
def bare (content : Text) (hne : content ≠ []) (hw : ∀ c ∈ content, isWord c) : AcceptedName where
  content
  quote? := none
  content_ne_nil := hne
  newline_notMem := fun hm => absurd (hw _ hm) (by decide)
  quote_notMem := by
    rintro _ ⟨⟩
  isWord_of_bare _ := hw

/-- A name as it is written. -/
def text (n : AcceptedName) : Text :=
  match n.quote? with
  | some q => q :: (n.content ++ [q])
  | none => n.content

/-- The lexemes of a written name. -/
def lexemes (n : AcceptedName) : List Lexeme :=
  match n.quote? with
  | some q => [.quoted q (n.content ++ [q])]
  | none => n.content.map .plain

/-- Whether the quote that a name opens with is closed by the quote behind the name. -/
def IsClosed (n : AcceptedName) : Prop :=
  ∀ q ∈ n.quote?, closeLine q (n.content ++ [q]) = some (n.content, [])

variable (n : AcceptedName)

/-- An accepted name is quoted, with a quote that its content lacks, or it is a word. -/
theorem text_eq :
  (∃ q, n.quote? = some q ∧ isQuote q ∧ q ∉ n.content ∧ n.text = q :: (n.content ++ [q])
      ∧ n.lexemes = [.quoted q (n.content ++ [q])])
    ∨ (n.quote? = none ∧ (∀ c ∈ n.content, isWord c) ∧ n.text = n.content
      ∧ n.lexemes = n.content.map .plain)
  := by
  cases h : n.quote? with
  | some q =>
    obtain ⟨hq, hc⟩ := n.quote_notMem q h
    refine .inl ⟨q, rfl, hq, hc, ?_, ?_⟩
    · rw [text, h]
    · rw [lexemes, h]
  | none =>
    refine .inr ⟨rfl, n.isWord_of_bare h, ?_, ?_⟩
    · rw [text, h]
    · rw [lexemes, h]

theorem text_ne_nil :
  n.text ≠ []
  := by
  rcases n.text_eq with ⟨q, _, _, _, ht, _⟩ | ⟨_, _, ht, _⟩
  · rw [ht]
    apply List.cons_ne_nil
  · rw [ht]
    apply n.content_ne_nil

theorem trimmed_text :
  Trimmed n.text
  := by
  rcases n.text_eq with ⟨q, _, hq, _, ht, _⟩ | ⟨_, hw, ht, _⟩
  · rw [ht]
    apply trimmed_enclosed (isBlank_quote hq) (isBlank_quote hq)
  · rw [ht]
    apply trimmed_of_forall fun c hc => isBlank_eq_false_of_isWord (hw c hc)

theorem content_subset_text :
  n.content ⊆ n.text
  := by
  rcases n.text_eq with ⟨q, _, _, _, ht, _⟩ | ⟨_, _, ht, _⟩
  · rw [ht]
    intro c hc
    apply List.mem_cons_of_mem _ (List.mem_append_left _ hc)
  · rw [ht]
    apply List.Subset.refl

/-- A character that neither belongs to a word nor is a quote is in a name only if the name has
quotes. -/
theorem mem_content_of_mem_text {c : Char} (hc : isQuote c = false) (h : c ∈ n.text) :
  c ∈ n.content
  := by
  rcases n.text_eq with ⟨q, _, hq, _, ht, _⟩ | ⟨_, _, ht, _⟩
  · have hne : c ≠ q := by
      rintro rfl
      rw [hq] at hc
      cases hc
    rw [ht, List.mem_cons, List.mem_append, List.mem_singleton] at h
    rcases h with h | h | h
    · exact absurd h hne
    · exact h
    · exact absurd h hne
  · rwa [ht] at h

theorem newline_notMem_text :
  '\n' ∉ n.text
  := fun h => n.newline_notMem (n.mem_content_of_mem_text rfl h)

/-- A name is taken from the start of a text as it is written. -/
theorem splitName?_append {rest : Text} (hr : ∀ c ∈ rest.head?, isWord c = false) :
  splitName? (n.text ++ rest) = some (n.text, rest)
  := by
  obtain ⟨i, inner, hi⟩ := List.exists_cons_of_ne_nil n.content_ne_nil
  rcases n.text_eq with ⟨q, _, hq, hc, ht, _⟩ | ⟨_, hw, ht, _⟩
  · have hp : ∀ d ∈ n.content, (d != q && d != '\n') = true := by
      intro d hd
      rw [Bool.and_eq_true, bne_iff_ne, bne_iff_ne]
      constructor
      · rintro rfl
        apply hc hd
      · rintro rfl
        apply n.newline_notMem hd
    have hs : (q != q && q != '\n') = false := by
      rw [bne_self_eq_false, Bool.false_and]
    have htake : (n.content ++ q :: rest).takeWhile (fun d => d != q && d != '\n') = n.content := by
      rw [List.takeWhile_append_of_pos hp, List.takeWhile_cons, hs, if_neg Bool.false_ne_true,
        List.append_nil]
    have hdrop : (n.content ++ q :: rest).dropWhile (fun d => d != q && d != '\n') = q :: rest := by
      rw [List.dropWhile_append_of_pos hp, List.dropWhile_cons, hs, if_neg Bool.false_ne_true]
    rw [ht, List.cons_append, List.append_assoc, List.singleton_append, splitName?, if_pos hq,
      htake, hdrop, hi]
    dsimp only
    rw [if_pos rfl]
    rfl
  · rw [hi, List.forall_mem_cons] at hw
    have hrest : rest.takeWhile isWord = [] ∧ rest.dropWhile isWord = rest := by
      cases rest with
      | nil => exact ⟨rfl, rfl⟩
      | cons c rest =>
        have hc : ¬isWord c = true := Bool.eq_false_iff.mp (hr c rfl)
        rw [List.takeWhile_cons, List.dropWhile_cons, if_neg hc, if_neg hc]
        exact ⟨rfl, rfl⟩
    rw [ht, hi, List.cons_append, splitName?, isQuote_of_isWord hw.1, if_neg Bool.false_ne_true,
      if_pos hw.1, List.takeWhile_append_of_pos hw.2, List.dropWhile_append_of_pos hw.2,
      hrest.1, hrest.2, List.append_nil]

/-- The quotes of a name are taken off, and the blanks around it. -/
theorem unquote_text {s u : Text} (hs : ∀ c ∈ s, isBlank c) (hu : ∀ c ∈ u, isBlank c) :
  unquote (s ++ (n.text ++ u)) = n.content
  := by
  rcases n.text_eq with ⟨q, _, hq, _, ht, _⟩ | ⟨_, hw, ht, _⟩
  · rw [ht]
    apply unquote_quoted hq n.content hs hu
  · have htrim := n.trimmed_text
    rw [ht] at htrim ⊢
    apply unquote_bare hs htrim _ hu
    intro c hc
    apply isQuote_of_isWord (hw c hc)

/-- The content of an accepted name is what its text is without the quotes. -/
theorem unquote_eq :
  unquote n.text = n.content
  := by
  have h := n.unquote_text (List.forall_mem_nil _) (List.forall_mem_nil _)
  rwa [List.nil_append, List.append_nil] at h

/-- A closed name in front of a piece makes a piece. -/
theorem lexes (hn : n.IsClosed) {s : Text} {ls : List Lexeme} (h : Lexes s ls) :
  Lexes (n.text ++ s) (n.lexemes ++ ls)
  := by
  rcases n.text_eq with ⟨q, hs, hq, _, ht, hl⟩ | ⟨_, hw, ht, hl⟩
  · rw [ht, hl, List.cons_append, List.append_assoc, List.singleton_append]
    apply Lexes.literal hq
    · apply hn q hs
    · intro _ hn
      exact absurd hn n.content_ne_nil
    · exact h
  · rw [ht, hl]
    apply Lexes.plains _ h
    intro c hc
    apply isQuote_of_isWord (hw c hc)

theorem lexes_text (hn : n.IsClosed) :
  Lexes n.text n.lexemes
  := by
  have h := n.lexes hn lexes_nil
  rwa [List.append_nil, List.append_nil] at h

/-- A name begins with its quote or with a word character. -/
theorem of_mem_head? {c : Char} (h : c ∈ n.text.head?) :
  isQuote c ∨ isWord c
  := by
  rcases n.text_eq with ⟨q, _, hq, _, ht, _⟩ | ⟨_, hw, ht, _⟩
  · rw [ht] at h
    cases h
    exact .inl hq
  · rw [ht] at h
    exact .inr (hw c (List.mem_of_head? h))

/-- The characters of a name outside of literals are those of words. -/
theorem plains_lexemes :
  Lexeme.Plains (fun c => isWord c) n.lexemes
  := by
  rcases n.text_eq with ⟨q, _, _, _, _, hl⟩ | ⟨_, hw, _, hl⟩
  · rw [hl]
    simp
  · rw [hl]
    simpa using hw

/-- A name is closed if no backslash stands in front of the quote behind it. -/
theorem isClosed_of_getLast? (h : ∀ q ∈ n.quote?, q ≠ backtick → n.content.getLast? ≠ some '\\') :
  n.IsClosed
  := by
  intro q hs
  obtain ⟨hq, hc⟩ := n.quote_notMem q hs
  exact closeLine_of_getLast? hq hc (h q hs) n.newline_notMem []

end AcceptedName

/-- A name and the quotes around it, if there are any.  It holds neither its quotes nor a
backslash or a newline.  Only a name of word characters is written without quotes. -/
structure WrittenName where
  content : Text
  quote? : Option Char
  content_ne_nil : content ≠ []
  backslash_notMem : '\\' ∉ content
  newline_notMem : '\n' ∉ content
  quote_notMem : ∀ q ∈ quote?, isQuote q ∧ q ∉ content
  isWord_of_bare : quote? = none → ∀ c ∈ content, isWord c

namespace WrittenName

/-- A name as it is written. -/
def text (n : WrittenName) : Text :=
  match n.quote? with
  | some q => q :: (n.content ++ [q])
  | none => n.content

/-- The lexemes of a written name. -/
def lexemes (n : WrittenName) : List Lexeme :=
  match n.quote? with
  | some q => [.quoted q (n.content ++ [q])]
  | none => n.content.map .plain

/-- A written name is accepted. -/
def accepted (n : WrittenName) : AcceptedName where
  content := n.content
  quote? := n.quote?
  content_ne_nil := n.content_ne_nil
  newline_notMem := n.newline_notMem
  quote_notMem := n.quote_notMem
  isWord_of_bare := n.isWord_of_bare

variable (n : WrittenName)

/-- The quotes of a written name close. -/
theorem isClosed_accepted :
  n.accepted.IsClosed
  := by
  intro q hq
  obtain ⟨hq, hc⟩ := n.quote_notMem q hq
  exact closeLine_of_notMem hq hc (fun _ => n.backslash_notMem) n.newline_notMem []

theorem text_ne_nil :
  n.text ≠ []
  := n.accepted.text_ne_nil

theorem trimmed_text :
  Trimmed n.text
  := n.accepted.trimmed_text

theorem newline_notMem_text :
  '\n' ∉ n.text
  := n.accepted.newline_notMem_text

/-- A name is taken from the start of a text as it is written. -/
theorem splitName?_append {rest : Text} (hr : ∀ c ∈ rest.head?, isWord c = false) :
  splitName? (n.text ++ rest) = some (n.text, rest)
  := n.accepted.splitName?_append hr

/-- The quotes of a name are taken off, and the blanks around it. -/
theorem unquote_text {s u : Text} (hs : ∀ c ∈ s, isBlank c) (hu : ∀ c ∈ u, isBlank c) :
  unquote (s ++ (n.text ++ u)) = n.content
  := n.accepted.unquote_text hs hu

/-- The content of a written name is what its text is without the quotes. -/
theorem unquote_eq :
  unquote n.text = n.content
  := n.accepted.unquote_eq

/-- A written name in front of a piece makes a piece. -/
theorem lexes {s : Text} {ls : List Lexeme} (h : Lexes s ls) :
  Lexes (n.text ++ s) (n.lexemes ++ ls)
  := n.accepted.lexes n.isClosed_accepted h

theorem lexes_text :
  Lexes n.text n.lexemes
  := n.accepted.lexes_text n.isClosed_accepted

theorem plains_lexemes :
  Lexeme.Plains (fun c => isWord c) n.lexemes
  := n.accepted.plains_lexemes

end WrittenName

/-- A name that can be written between double quotes. -/
structure QuotableName where
  content : Text
  content_ne_nil : content ≠ []
  quotationMark_notMem : quotationMark ∉ content
  backslash_notMem : '\\' ∉ content
  newline_notMem : '\n' ∉ content

/-- A name between double quotes. -/
def QuotableName.written (n : QuotableName) : WrittenName where
  content := n.content
  quote? := some quotationMark
  content_ne_nil := n.content_ne_nil
  backslash_notMem := n.backslash_notMem
  newline_notMem := n.newline_notMem
  quote_notMem := by
    rintro q ⟨⟩
    exact ⟨rfl, n.quotationMark_notMem⟩
  isWord_of_bare := nofun

end DatabaseMarkup
