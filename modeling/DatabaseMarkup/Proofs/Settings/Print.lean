import DatabaseMarkup.Proofs.Settings.Literal
import DatabaseMarkup.Proofs.Text.Name
import DatabaseMarkup.Proofs.Text.Normalize

/-!
# Printed settings

`Settings.print` writes settings as the items of a bracket group, with commas between them, and
`Settings.readList_print` reads them back.  Not all settings can be written: names of flags and
keys have to be in normal form and without delimiters, and so have to be bare values.  A text may
be any text.
-/

namespace DatabaseMarkup

open Unicode Text

/-! ## Values -/

/-- The characters that end an item of a group or nest another group in it. -/
def Text.itemEnds : Text :=
  [',', '(', ')', '[', ']', '{', '}']

/-- Whether a character may stand outside of literals in an item of a group. -/
def Text.IsItemChar (c : Char) : Prop :=
  isQuote c = false ∧ c ∉ itemEnds

instance (c : Char) : Decidable (IsItemChar c) :=
  inferInstanceAs (Decidable (_ ∧ _))

/-- Lexemes without the characters that end an item neither separate nor delimit. -/
theorem Text.not_isDelimiter_of_plains {ls : List Lexeme}
    (h : Lexeme.Plains (fun c => c ∉ itemEnds) ls) :
  ∀ l ∈ ls, l ≠ .plain ',' ∧ isDelimiter l = false
  := by
  intro l hl
  cases l with
  | quoted q tail => exact ⟨nofun, rfl⟩
  | plain c =>
    have hc := h c hl
    simp only [itemEnds, List.mem_cons, List.not_mem_nil, or_false, not_or] at hc
    simp [isDelimiter, hc]

theorem Text.isItemChar_of_isAlphanumeric {c : Char} (h : isAlphanumeric c) :
  IsItemChar c
  := by
  constructor
  · apply isQuote_of_notMem (notMem_of_all (by decide) h)
  · apply notMem_of_all (by decide) h

theorem Text.isItemChar_of_isBlank {c : Char} (h : isBlank c) :
  c ≠ ':' ∧ IsItemChar c
  := by
  refine ⟨?_, isQuote_of_notMem (notMem_of_all (by decide) h), notMem_of_all (by decide) h⟩
  rintro rfl
  cases h

theorem Text.not_isDelimiter_of_isBlank {c : Char} (h : isBlank c) :
  .plain c ≠ Lexeme.plain ',' ∧ isDelimiter (.plain c) = false
  := by
  apply @not_isDelimiter_of_plains [.plain c]
  · rw [Lexeme.plains_plain]
    exact ⟨(isItemChar_of_isBlank h).2.2, Lexeme.plains_nil⟩
  · apply List.mem_singleton_self

theorem Text.not_isBracket_of_notMem {c : Char} (h : c ∉ itemEnds) :
  c ≠ '[' ∧ c ≠ ']'
  := by
  constructor
  · rintro rfl
    apply h (by decide)
  · rintro rfl
    apply h (by decide)

namespace Value

/-- A value as it is written. -/
def print : Value → Text
  | text s => apostrophe :: (escape s.toList ++ [apostrophe])
  | expression s => backtick :: (s.toList ++ [backtick])
  | bare s => s.toList

/-- The lexemes of a written value. -/
def lexemes : Value → List Lexeme
  | text s => [.quoted apostrophe (escape s.toList ++ [apostrophe])]
  | expression s => [.quoted backtick (s.toList ++ [backtick])]
  | bare s => s.toList.map .plain

/-- Whether a value can be written. -/
def IsPrintable : Value → Prop
  | text _ => True
  | expression s => backtick ∉ s.toList ∧ '\n' ∉ s.toList
  | bare s => Trimmed s.toList ∧ '\n' ∉ s.toList ∧ ∀ c ∈ s.toList, IsItemChar c

/-- A printed text is read back. -/
theorem read_text (t : Text) :
  read (apostrophe :: (escape t ++ [apostrophe])) = (.text (String.ofList t), [])
  := by
  have hn : escape t = [] → ([] : Text).head? ≠ some apostrophe := fun _ => nofun
  rw [read_line rfl (by decide) (closeLine_escape_append t []) hn, unescape_escape]

/-- A bare value without blanks around it and without quotes is read back. -/
theorem read_bare {t : Text} (ht : Trimmed t) (hn : '\n' ∉ t) (h : ∀ c ∈ t, isQuote c = false) :
  (read t).1 = .bare (String.ofList t)
  := by
  have hb : (readBare t).1 = .bare (String.ofList t) := by
    have hf := firstLine_append hn (.inl rfl)
    rw [List.append_nil] at hf
    rw [readBare, hf, ht.trim_eq]
  cases t with
  | nil => exact hb
  | cons c t =>
    have hc := h c List.mem_cons_self
    have ha : apostrophe ≠ c := by
      rintro rfl
      cases hc
    have hq : c ≠ backtick := by
      rintro rfl
      cases hc
    have hp : (apostrophe == c) = false := beq_eq_false_iff_ne.mpr ha
    rw [read.eq_def, List.isPrefixOf_cons_cons, hp, Bool.false_and, if_neg Bool.false_ne_true]
    dsimp only
    rw [if_neg hq, hc, if_neg Bool.false_ne_true]
    exact hb

/-- A value is read back as it was written. -/
theorem read_print {v : Value} (h : v.IsPrintable) :
  (read v.print).1 = v
  := by
  cases v with
  | text s => rw [print, read_text, String.ofList_toList]
  | expression s => rw [print, read_expression h.1, String.ofList_toList]
  | bare s => rw [print, read_bare h.1 h.2.1 fun c hc => (h.2.2 c hc).1, String.ofList_toList]

/-- A printed value is a piece. -/
theorem lexes_print {v : Value} (h : v.IsPrintable) :
  Lexes v.print v.lexemes
  := by
  cases v with
  | text s =>
    apply lexes_nil.literal rfl (closeLine_escape_append _ _)
    rintro _ _ ⟨⟩
  | expression s =>
    apply lexes_nil.literal rfl (closeLine_of_notMem rfl h.1 (absurd rfl) h.2 [])
    rintro ⟨⟩
  | bare s => exact lexes_map_plain fun c hc => (h.2.2 c hc).1

/-- A printed value has no blanks around it. -/
theorem trimmed_print {v : Value} (h : v.IsPrintable) :
  Trimmed v.print
  := by
  cases v with
  | text s => exact trimmed_enclosed rfl rfl _
  | expression s => exact trimmed_enclosed rfl rfl _
  | bare s => exact h.1

/-- A printed value holds nothing outside of literals that ends an item. -/
theorem plains_lexemes {v : Value} (h : v.IsPrintable) :
  Lexeme.Plains (fun c => c ∉ itemEnds) v.lexemes
  := by
  cases v with
  | text s => simp [lexemes]
  | expression s => simp [lexemes]
  | bare s =>
    rw [lexemes, Lexeme.plains_map]
    intro c hc
    exact (h.2.2 c hc).2

end Value

/-! ## Attributes -/

namespace Attribute

/-- An attribute as it is written. -/
def print : Attribute → Text
  | flag name => name.toList
  | pair key value => key.toList ++ ':' :: ' ' :: value.print

/-- The lexemes of a written attribute. -/
def lexemes : Attribute → List Lexeme
  | flag name => name.toList.map .plain
  | pair key value => key.toList.map .plain ++ .plain ':' :: .plain ' ' :: value.lexemes

/-- Whether an attribute can be written. -/
def IsPrintable : Attribute → Prop
  | flag name => name.toList ≠ [] ∧ normalize name.toList = name.toList
      ∧ ∀ c ∈ name.toList, c ≠ ':' ∧ IsItemChar c
  | pair key value => key.toList ≠ [] ∧ normalize key.toList = key.toList
      ∧ (∀ c ∈ key.toList, isAlphanumeric c ∨ c = '_' ∨ c = ' ') ∧ value.IsPrintable

theorem isItemChar_key {c : Char} (h : isAlphanumeric c ∨ c = '_' ∨ c = ' ') :
  c ≠ ':' ∧ IsItemChar c
  := by
  rcases h with h | rfl | rfl
  · refine ⟨?_, isItemChar_of_isAlphanumeric h⟩
    rintro rfl
    cases h
  · exact ⟨by decide, rfl, by decide⟩
  · exact ⟨by decide, rfl, by decide⟩

section

variable {t : Text}

/-- The colon behind a key is the first one outside of literals. -/
theorem cutUnquoted_key (h : ∀ c ∈ t, c ≠ ':' ∧ IsItemChar c) (ms : List Lexeme) :
  cutUnquoted ':' 0 (t.map .plain ++ ms)
    = (cutUnquoted ':' 0 ms).map fun (before, after) => (t ++ before, after)
  := by
  rw [cutUnquoted_append, ofLexemes_map_plain]
  intro l hl
  obtain ⟨c, hc, rfl⟩ := List.mem_map.mp hl
  obtain ⟨hn, _, hd⟩ := h c hc
  refine ⟨hn, ?_, ?_⟩
  · rintro ⟨⟩
    apply hd (by decide)
  · rintro ⟨⟩
    apply hd (by decide)

/-- The blanks before an item do not matter. -/
theorem readItem?_append_left {s : Text} (hs : ∀ c ∈ s, isBlank c) (t : Text) :
  Settings.readItem? (s ++ t) = Settings.readItem? t
  := by
  have htrim : trim (s ++ t) = trim t := by
    rw [trim, trim, trimStart, List.dropWhile_append_of_pos hs, ← trimStart]
  rw [Settings.readItem?, Settings.readItem?, htrim]

/-- A normalized name without a colon is read as a flag, whatever blanks follow it. -/
theorem readItem?_flag (hn : t ≠ []) (ht : normalize t = t)
    (hc : ∀ c ∈ t, c ≠ ':' ∧ IsItemChar c) {u : Text} (hu : ∀ c ∈ u, isBlank c) :
  Settings.readItem? (t ++ u) = some (.flag (String.ofList t))
  := by
  have hcut : cutAtUnquoted ':' t = none := by
    have hl := lexemes_append (fun c h => (hc c h).2.1) []
    rw [List.append_nil] at hl
    rw [cutAtUnquoted, hl, cutUnquoted_key hc, Text.lexemes]
    rfl
  have htrim : trim (t ++ u) = t :=
    trim_append (List.forall_mem_nil _) (ht ▸ (isNormal_normalize t).trimmed) hu
  rw [Settings.readItem?, htrim, if_neg (mt List.isEmpty_iff.mp hn), hcut]
  dsimp only
  rw [normalName, ht]

/-- A pair is read whatever blanks stand around its colon and after it. -/
theorem readItem?_pair (hn : t ≠ []) (ht : normalize t = t)
    (hc : ∀ c ∈ t, isAlphanumeric c ∨ c = '_' ∨ c = ' ') {v : Value} (hv : v.IsPrintable)
    {p q u : Text} (hp : ∀ c ∈ p, isBlank c) (hq : ∀ c ∈ q, isBlank c) (hu : ∀ c ∈ u, isBlank c) :
  Settings.readItem? (t ++ (p ++ ':' :: (q ++ (v.print ++ u)))) = some (.pair (String.ofList t) v)
  := by
  have htrim : Trimmed t := ht ▸ (isNormal_normalize t).trimmed
  -- an empty bare value leaves blanks at the end of the item
  obtain ⟨tail, hitem, htail⟩ : ∃ tail,
      trim (t ++ (p ++ ':' :: (q ++ (v.print ++ u)))) = t ++ (p ++ ':' :: tail)
        ∧ trimStart tail = v.print := by
    have hcolon : Trimmed [':'] := trimmed_of_forall (List.forall_mem_singleton.mpr rfl)
    have hprint := Value.trimmed_print hv
    by_cases hempty : v.print = []
    · have hkey : Trimmed (t ++ (p ++ [':'])) := htrim.append hcolon hn (List.cons_ne_nil _ _) p
      refine ⟨[], ?_, ?_⟩
      · have h := trim_append (List.forall_mem_nil _) hkey (List.forall_mem_append.mpr ⟨hq, hu⟩)
        rw [hempty]
        simpa only [List.nil_append, List.append_assoc, List.singleton_append] using h
      · rw [hempty]
        rfl
    · have hkey : Trimmed (t ++ (p ++ ':' :: q ++ v.print)) :=
        htrim.append hprint hn hempty (p ++ ':' :: q)
      refine ⟨q ++ v.print, ?_, trimStart_append hq hprint.1⟩
      have h := trim_append (List.forall_mem_nil _) hkey hu
      simpa only [List.nil_append, List.append_assoc, List.cons_append] using h
  have hchars : ∀ c ∈ t ++ p, c ≠ ':' ∧ IsItemChar c :=
    List.forall_mem_append.mpr ⟨fun c h => isItemChar_key (hc c h),
      fun c h => isItemChar_of_isBlank (hp c h)⟩
  have hcut : cutAtUnquoted ':' (t ++ (p ++ ':' :: tail)) = some (t ++ p, ':' :: tail) := by
    rw [← List.append_assoc, cutAtUnquoted, lexemes_append fun c h => (hchars c h).2.1,
      cutUnquoted_key hchars, lexemes_cons, Lexeme.first_plain rfl, cutUnquoted, if_pos (by rfl),
      Option.map_some, ofLexemes_cons, ofLexemes_lexemes]
    dsimp only
    rw [List.append_nil]
    rfl
  have hkey : isKey t = true := by
    have ha : t.all (fun c => isAlphanumeric c || c = '_' || c = ' ' || c = '\t') := by
      apply List.all_eq_true.mpr
      intro c h
      rcases hc c h with h | rfl | rfl
      · rw [h]
        rfl
      · rfl
      · rfl
    rw [isKey, ha, Bool.and_true, Bool.not_eq_true', Bool.eq_false_iff, ne_eq, List.isEmpty_iff]
    exact hn
  have hname : trim (t ++ p) = t := trim_append (List.forall_mem_nil _) htrim hp
  rw [Settings.readItem?, hitem, if_neg, hcut]
  · dsimp only
    rw [hname, if_pos hkey, normalName, ← normalize_trim, hname, ht, List.drop_one,
      List.tail_cons, htail, Value.read_print hv]
  · rw [List.isEmpty_iff]
    apply List.append_ne_nil_of_left_ne_nil hn _

end

/-- An attribute is read back as it was written. -/
theorem readItem?_print {a : Attribute} (h : a.IsPrintable) :
  Settings.readItem? a.print = some a
  := by
  have hnil : ∀ c ∈ ([] : Text), isBlank c := List.forall_mem_nil _
  cases a with
  | flag name =>
    have hread := readItem?_flag h.1 h.2.1 h.2.2 hnil
    rwa [List.append_nil, String.ofList_toList] at hread
  | pair key value =>
    have hread := readItem?_pair h.1 h.2.1 h.2.2.1 h.2.2.2 hnil
      (List.forall_mem_singleton.mpr rfl : ∀ c ∈ [' '], isBlank c) hnil
    rwa [List.append_nil, String.ofList_toList] at hread

/-- A printed attribute is a piece. -/
theorem lexes_print {a : Attribute} (h : a.IsPrintable) :
  Lexes a.print a.lexemes
  := by
  cases a with
  | flag name => exact lexes_map_plain fun c hc => (h.2.2 c hc).2.1
  | pair key value =>
    apply Lexes.plains
    · intro c hc
      exact (isItemChar_key (h.2.2.1 c hc)).2.1
    · apply ((Value.lexes_print h.2.2.2).plain rfl).plain rfl

/-- A printed attribute holds nothing outside of literals that ends an item. -/
theorem plains_lexemes {a : Attribute} (h : a.IsPrintable) :
  Lexeme.Plains (fun c => c ∉ itemEnds) a.lexemes
  := by
  cases a with
  | flag name =>
    rw [lexemes, Lexeme.plains_map]
    intro c hc
    exact (h.2.2 c hc).2.2
  | pair key value =>
    rw [lexemes, Lexeme.plains_append, Lexeme.plains_map, Lexeme.plains_plain,
      Lexeme.plains_plain]
    refine ⟨?_, by decide, by decide, Value.plains_lexemes h.2.2.2⟩
    intro c hc
    exact (isItemChar_key (h.2.2.1 c hc)).2.2

/-- Whether an attribute is a flag, or a pair with a text, of a name with no characters but
letters, digits, underscores and spaces. -/
structure IsSimple (a : Attribute) : Prop where
  name_ne_nil : a.name.toList ≠ []
  normalize_name : normalize a.name.toList = a.name.toList
  name_chars : ∀ c ∈ a.name.toList, isAlphanumeric c ∨ c = '_' ∨ c = ' '
  value_text : ∀ key value, a = .pair key value → ∃ s, value = .text s

theorem notMem_of_isKeyChar {c : Char} (h : isAlphanumeric c ∨ c = '_' ∨ c = ' ') {l : List Char}
    (hl : l.all fun d => !isAlphanumeric d && d != '_' && d != ' ') :
  c ∉ l
  := by
  intro hc
  have hl := List.all_eq_true.mp hl c hc
  rcases h with h | rfl | rfl
  · rw [h] at hl
    cases hl
  · cases hl
  · cases hl

namespace IsSimple

variable {a : Attribute}

/-- A simple attribute is printable. -/
theorem isPrintable (h : a.IsSimple) :
  a.IsPrintable
  := by
  cases a with
  | flag name =>
    refine ⟨h.name_ne_nil, h.normalize_name, fun c hc => ?_⟩
    apply isItemChar_key (h.name_chars c hc)
  | pair key value =>
    obtain ⟨s, rfl⟩ := h.value_text key value rfl
    exact ⟨h.name_ne_nil, h.normalize_name, h.name_chars, trivial⟩

theorem plains_lexemes (h : a.IsSimple) {P : Char → Prop}
    (hn : ∀ c, isAlphanumeric c ∨ c = '_' ∨ c = ' ' → P c) (hc : P ':') :
  Lexeme.Plains P a.lexemes
  := by
  cases a with
  | flag name =>
    rw [lexemes, Lexeme.plains_map]
    exact fun c hc => hn c (h.name_chars c hc)
  | pair key value =>
    obtain ⟨s, rfl⟩ := h.value_text key value rfl
    rw [lexemes, Value.lexemes, Lexeme.plains_append, Lexeme.plains_map, Lexeme.plains_plain,
      Lexeme.plains_plain, Lexeme.plains_quoted]
    exact ⟨fun c hc => hn c (h.name_chars c hc), hc, hn ' ' (.inr (.inr rfl)), Lexeme.plains_nil⟩

/-- A simple attribute is printed on one line. -/
theorem newline_notMem_print (h : a.IsSimple) :
  '\n' ∉ a.print
  := by
  have hname : '\n' ∉ a.name.toList := fun hm =>
    notMem_of_isKeyChar (h.name_chars _ hm) (by decide : ['\n'].all _) List.mem_cons_self
  cases a with
  | flag name => exact hname
  | pair key value =>
    obtain ⟨s, rfl⟩ := h.value_text key value rfl
    rw [print, Value.print]
    simp only [List.mem_append, List.mem_cons, List.not_mem_nil, or_false, not_or]
    exact ⟨hname, by decide, by decide, by decide, newline_notMem_escape _, by decide⟩

end IsSimple

end Attribute

namespace Settings

/-- Settings as they are written between brackets. -/
def print (settings : Settings) : Text :=
  [',', ' '].intercalate (settings.map Attribute.print)

/-- The lexemes of written settings. -/
def lexemes (settings : Settings) : List Lexeme :=
  [.plain ',', .plain ' '].intercalate (settings.map Attribute.lexemes)

/-- The items of a list are read one by one, whatever blanks stand behind its commas. -/
theorem readList_intercalate {α : Type} {f : α → Text} {g : α → List Lexeme} {attr : α → Attribute}
    {pad : Text} (hp : ∀ c ∈ pad, isBlank c) {as : List α} (hl : ∀ a ∈ as, Lexes (f a) (g a))
    (hd : ∀ a ∈ as, Lexeme.Plains (fun c => c ∉ itemEnds) (g a))
    (hr : ∀ a ∈ as, readItem? (f a) = some (attr a)) :
  readList ((',' :: pad).intercalate (as.map f)) = as.map attr
  := by
  have hcomma : isQuote ',' = false := rfl
  have hlexes := lexes_intercalate hcomma (isQuote_of_isBlank hp) hl
  rw [readList, splitTopLevel, hlexes.lexemes_eq]
  cases as with
  | nil => rfl
  | cons a as =>
    have hrest : ∀ b ∈ as, readItem? (pad ++ f b) = some (attr b) := by
      intro b hb
      rw [Attribute.readItem?_append_left hp, hr b (List.mem_cons_of_mem _ hb)]
    rw [splitLexemes_intercalate (by decide) (fun c hc => not_isDelimiter_of_isBlank (hp c hc)) hl
        (fun b hb => not_isDelimiter_of_plains (hd b hb)),
      List.filterMap_cons_some (hr a List.mem_cons_self), List.filterMap_map, List.map_cons]
    apply congrArg (attr a :: ·)
    rw [← List.filterMap_eq_map]
    exact List.filterMap_congr hrest

variable {settings : Settings}

/-- Printed settings are a piece. -/
theorem lexes_print (h : ∀ a ∈ settings, a.IsPrintable) :
  Lexes (print settings) (lexemes settings)
  := by
  have hq : ∀ c ∈ [' '], isQuote c = false := List.forall_mem_singleton.mpr rfl
  exact lexes_intercalate rfl hq fun a ha => Attribute.lexes_print (h a ha)

/-- Settings are read back from between brackets. -/
theorem readList_print (h : ∀ a ∈ settings, a.IsPrintable) :
  readList (print settings) = settings
  := by
  have hs : ∀ c ∈ [' '], isBlank c := List.forall_mem_singleton.mpr rfl
  have hread := readList_intercalate hs (fun a ha => Attribute.lexes_print (h a ha))
    (fun a ha => Attribute.plains_lexemes (h a ha)) fun a ha => Attribute.readItem?_print (h a ha)
  rwa [List.map_id'] at hread

theorem plains_lexemes {P : Char → Prop} (hc : P ',') (hs : P ' ')
    (h : ∀ a ∈ settings, Lexeme.Plains P a.lexemes) :
  Lexeme.Plains P (lexemes settings)
  := plains_intercalate hc (List.forall_mem_singleton.mpr hs) h

/-- Printed settings hold no brackets outside of literals. -/
theorem plains_brackets (h : ∀ a ∈ settings, a.IsPrintable) :
  Lexeme.Plains (fun c => c ≠ '[' ∧ c ≠ ']') (lexemes settings)
  := by
  refine plains_lexemes (by decide) (by decide) fun a ha => ?_
  exact (Attribute.plains_lexemes (h a ha)).mono fun c => not_isBracket_of_notMem

theorem lexemes_ne_nil (h : ∀ a ∈ settings, a.IsPrintable) (hn : settings ≠ []) :
  lexemes settings ≠ []
  := by
  obtain ⟨a, more, rfl⟩ := List.exists_cons_of_ne_nil hn
  have ha : a.lexemes ≠ [] := by
    cases a with
    | flag name =>
      rw [Attribute.lexemes, ne_eq, List.map_eq_nil_iff]
      exact (h _ List.mem_cons_self).1
    | pair key value => exact List.append_ne_nil_of_right_ne_nil _ (List.cons_ne_nil _ _)
  rw [lexemes, List.map_cons]
  cases more with
  | nil =>
    rw [List.map_nil, List.intercalate_singleton]
    exact ha
  | cons b more =>
    rw [List.map_cons, List.intercalate_cons_cons, List.append_assoc]
    apply List.append_ne_nil_of_left_ne_nil ha _

/-- A group that holds no brackets outside of literals is read before the groups behind it. -/
theorem readGroups_brackets {inner : Text} {ls : List Lexeme} (hl : Lexes inner ls)
    (hp : Lexeme.Plains (fun c => c ≠ '[' ∧ c ≠ ']') ls) {s : Text} (hs : ∀ c ∈ s, isAsciiBlank c)
    (rest : Text) :
  readGroups (s ++ '[' :: (inner ++ ']' :: rest))
    = (readList inner ++ (readGroups rest).1, (readGroups rest).2)
  := by
  have hg : splitGroup? ('[' :: (inner ++ ']' :: rest)) = some (inner, rest) :=
    closeGroup_append rfl rfl (by decide) hl hp rest
  have hk : skipBlanks (s ++ '[' :: (inner ++ ']' :: rest)) = '[' :: (inner ++ ']' :: rest) := by
    rw [skipBlanks, List.dropWhile_append_of_pos hs]
    rfl
  rw [readGroups, if_pos (by rw [hk]; rfl)]
  split
  · rename_i inner' u hu
    rw [hk, hg] at hu
    obtain ⟨rfl, rfl⟩ := Prod.mk.inj (Option.some.inj hu)
    rfl
  · rename_i hu
    rw [hk, hg] at hu
    cases hu

/-- A bracket group of written settings is read back. -/
theorem readGroups_group (h : ∀ a ∈ settings, a.IsPrintable) {s : Text}
    (hs : ∀ c ∈ s, isAsciiBlank c) (rest : Text) :
  readGroups (s ++ '[' :: (print settings ++ ']' :: rest))
    = (settings ++ (readGroups rest).1, (readGroups rest).2)
  := by
  rw [readGroups_brackets (lexes_print h) (plains_brackets h) hs, readList_print h]

/-- Where no group starts there are no settings. -/
theorem readGroups_eq_nil {t : Text} (h : (skipBlanks t).head? ≠ some '[') :
  readGroups t = ([], t)
  := by
  rw [readGroups, if_neg h]

/-- Settings as a bracket group of their own, behind a space. -/
def printGroup (settings : Settings) : Text :=
  ' ' :: '[' :: (print settings ++ [']'])

/-- A printed group is a piece. -/
theorem lexes_printGroup (h : ∀ a ∈ settings, a.IsPrintable) :
  Lexes (printGroup settings)
    (.plain ' ' :: .plain '[' :: (lexemes settings ++ [.plain ']']))
  := by
  apply Lexes.plain rfl
  apply Lexes.plain rfl
  apply (lexes_print h).append (lexes_nil.plain rfl)
  rintro ⟨⟩

/-- A group of simple attributes is printed on one line. -/
theorem newline_notMem_printGroup (h : ∀ a ∈ settings, a.IsSimple) :
  '\n' ∉ printGroup settings
  := by
  have hprint : ∀ c ∈ print settings, c ≠ '\n' := by
    apply forall_mem_intercalate
    · simp
    · intro l hl
      obtain ⟨a, ha, rfl⟩ := List.mem_map.mp hl
      rintro c hc rfl
      exact (h a ha).newline_notMem_print hc
  rw [printGroup]
  simp only [List.mem_append, List.mem_cons, List.not_mem_nil, or_false, not_or]
  exact ⟨by decide, by decide, fun hn => hprint _ hn rfl, by decide⟩

/-- A printed group is read back as its settings. -/
theorem readGroups_printGroup (h : ∀ a ∈ settings, a.IsPrintable) {s : Text}
    (hs : ∀ c ∈ s, isAsciiBlank c) :
  readGroups (s ++ '[' :: (print settings ++ [']'])) = (settings, [])
  := by
  rw [readGroups_group h hs, readGroups_eq_nil (by rintro ⟨⟩), List.append_nil]

end Settings

end DatabaseMarkup
