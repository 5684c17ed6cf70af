import DatabaseMarkup.Proofs.Block.Header
import DatabaseMarkup.Proofs.Text.Basic

/-!
# Headers before a brace

A header is not read beyond a brace, so that the lines behind a text which ends with one have no
part in the header at its start.  `Text.Extends` relates such a text to the same text before further
lines.  Every reader of a header finds the same in both and leaves two texts that are again related,
and `Header.rel_read?` states so of the header as a whole.
-/

namespace DatabaseMarkup

open Unicode

namespace Text

/-- Whether a text ends with a brace. -/
def EndsWithBrace (t : Text) : Prop :=
  ∃ brace ∈ ['{', '}'], [brace] <:+ t

/-- Whether a class of characters has no brace in it. -/
def hasNoBrace (p : Char → Bool) : Bool :=
  !p '{' && !p '}'

/-- Whether a text ends with a brace and `u` is the text before the lines `after`. -/
def Extends (after t u : Text) : Prop :=
  EndsWithBrace t ∧ u = t ++ after

/-- Whether two readers found the same and left texts of which one extends the other. -/
def Leaves {α : Type} (after : Text) (x y : α × Text) : Prop :=
  x.1 = y.1 ∧ Extends after x.2 y.2

/-! ## Texts that end with a brace -/

theorem eq_false_of_hasNoBrace {p : Char → Bool} (hp : hasNoBrace p) {brace : Char}
    (hm : brace ∈ ['{', '}']) :
  p brace = false
  := by
  simp only [hasNoBrace, Bool.and_eq_true, Bool.not_eq_true'] at hp
  simp only [List.mem_cons, List.not_mem_nil, or_false] at hm
  rcases hm with rfl | rfl
  · exact hp.1
  · exact hp.2

theorem EndsWithBrace.ne_nil {t : Text} (h : EndsWithBrace t) :
  t ≠ []
  := by
  obtain ⟨brace, _, hb⟩ := h
  rintro rfl
  cases List.suffix_nil.mp hb

/-- What is left at the end of a text that ends with a brace ends with it too. -/
theorem EndsWithBrace.of_suffix {r t : Text} (h : EndsWithBrace t) (hs : r <:+ t) (hr : r ≠ []) :
  EndsWithBrace r
  := by
  obtain ⟨brace, hm, hb⟩ := h
  use brace, hm
  apply List.suffix_of_suffix_length_le hb hs
  exact List.length_pos_iff.mpr hr

/-- What follows a character that is no brace still ends with one. -/
theorem EndsWithBrace.behind {u rest : Text} {c : Char} (h : EndsWithBrace (u ++ c :: rest))
    (hc : c ∉ ['{', '}']) :
  EndsWithBrace rest
  := by
  have hs : c :: rest <:+ u ++ c :: rest := List.suffix_append _ _
  apply h.of_suffix ((List.suffix_cons c rest).trans hs)
  rintro rfl
  obtain ⟨brace, hm, hb⟩ := h.of_suffix hs (List.cons_ne_nil c [])
  obtain rfl := List.mem_singleton.mp (hb.subset List.mem_cons_self)
  exact hc hm

/-- A text that ends with a brace does not end with a backslash. -/
theorem EndsWithBrace.not_backslash {t : Text} (h : EndsWithBrace t) :
  ¬['\\'] <:+ t
  := by
  rintro ⟨u, rfl⟩
  exact (h.behind (by decide)).ne_nil rfl

section

variable {α β : Type} {after t u : Text}

/-- Lines may be added behind the tail of a text that goes on behind its first character, if that
is no brace. -/
theorem Extends.tail {p : Char → Bool} (hp : hasNoBrace p) {c : Char} (hc : p c)
    (h : Extends after (c :: t) u) :
  ∃ v, u = c :: v ∧ Extends after t v
  := by
  obtain ⟨hb, rfl⟩ := h
  refine ⟨t ++ after, rfl, hb.behind (u := []) ?_, rfl⟩
  intro hm
  rw [eq_false_of_hasNoBrace hp hm] at hc
  cases hc

/-- A run of characters that are no braces ends before the last one. -/
theorem Extends.dropWhile {p : Char → Bool} (hp : hasNoBrace p) (h : Extends after t u) :
  t.takeWhile p = u.takeWhile p ∧ Extends after (t.dropWhile p) (u.dropWhile p)
  := by
  obtain ⟨hb, rfl⟩ := h
  have hd : t.dropWhile p ≠ [] := by
    intro hd
    obtain ⟨brace, hm, hs⟩ := hb
    have := List.dropWhile_eq_nil_iff.mp hd brace (hs.subset List.mem_cons_self)
    rw [eq_false_of_hasNoBrace hp hm] at this
    cases this
  have hl : (t.takeWhile p).length ≠ t.length := by
    intro hl
    apply hd
    rw [← List.length_eq_zero_iff]
    have := congrArg List.length (@List.takeWhile_append_dropWhile _ p t)
    rw [List.length_append] at this
    omega
  constructor
  · rw [List.takeWhile_append, if_neg hl]
  · refine ⟨hb.of_suffix (List.dropWhile_suffix p) hd, ?_⟩
    rw [List.dropWhile_append, if_neg (by simpa using hd)]

theorem rel_bind {R : α → α → Prop} {S : β → β → Prop} {x y : Option α} {f : α → Option β}
    (h : Option.Rel R x y) (hf : ∀ a b, R a b → Option.Rel S (f a) (f b)) :
  Option.Rel S (x.bind f) (y.bind f)
  := by
  cases h with
  | none => exact .none
  | some h => apply hf _ _ h

/-! ## Names and keywords -/

/-- Lines behind a brace do not change how blanks are skipped. -/
theorem rel_splitBlanks? (h : Extends after t u) :
  Option.Rel (Extends after) (splitBlanks? t) (splitBlanks? u)
  := by
  cases t with
  | nil => exact absurd rfl h.1.ne_nil
  | cons c t =>
    by_cases hc : isBlank c = true
    · obtain ⟨v, rfl, hv⟩ := h.tail rfl hc
      rw [splitBlanks?, splitBlanks?, if_pos hc, if_pos hc]
      exact .some (hv.dropWhile rfl).2
    · rw [h.2, List.cons_append, splitBlanks?, splitBlanks?, if_neg hc, if_neg hc]
      exact .none

/-- Lines behind a brace do not change whether a text starts with a character other than a brace.
-/
theorem rel_splitChar? {expected : Char} (he : expected ∉ ['{', '}']) (h : Extends after t u) :
  Option.Rel (Extends after) (splitChar? expected t) (splitChar? expected u)
  := by
  cases t with
  | nil => exact absurd rfl h.1.ne_nil
  | cons c t =>
    by_cases hc : c = expected
    · have hp : hasNoBrace (· == expected) := by
        simp only [List.mem_cons, List.not_mem_nil, or_false, not_or] at he
        simp only [hasNoBrace, beq_eq_false_iff_ne.mpr (Ne.symm he.1),
          beq_eq_false_iff_ne.mpr (Ne.symm he.2), Bool.not_false, Bool.and_self]
      obtain ⟨v, rfl, hv⟩ := h.tail hp (beq_iff_eq.mpr hc)
      rw [splitChar?, splitChar?, if_pos hc, if_pos hc]
      exact .some hv
    · rw [h.2, List.cons_append, splitChar?, splitChar?, if_neg hc, if_neg hc]
      exact .none

/-- Lines behind a brace do not change whether a text starts with a keyword. -/
theorem rel_splitKeyword? {keyword : Text}
    (hk : keyword.all fun letter => hasNoBrace (spells letter)) (h : Extends after t u) :
  Option.Rel (Extends after) (splitKeyword? keyword t) (splitKeyword? keyword u)
  := by
  induction keyword generalizing t u with
  | nil => exact .some h
  | cons letter keyword ih =>
    rw [List.all_cons, Bool.and_eq_true] at hk
    obtain ⟨hl, hk⟩ := hk
    cases t with
    | nil => exact absurd rfl h.1.ne_nil
    | cons c t =>
      by_cases hc : spells letter c = true
      · obtain ⟨v, rfl, hv⟩ := h.tail hl hc
        rw [splitKeyword?, splitKeyword?, if_pos hc, if_pos hc]
        apply ih hk hv
      · rw [h.2, List.cons_append, splitKeyword?, splitKeyword?, if_neg hc, if_neg hc]
        exact .none

/-- A run of characters that are no newlines ends with its line. -/
theorem takeWhile_append_endsLine {p : Char → Bool} (hp : p '\n' = false) (ha : EndsLine after)
    (t : Text) :
  (t ++ after).takeWhile p = t.takeWhile p ∧ (t ++ after).dropWhile p = t.dropWhile p ++ after
  := by
  induction t with
  | nil =>
    rcases ha with rfl | ⟨v, rfl⟩
    · exact ⟨rfl, rfl⟩
    · rw [List.nil_append, List.takeWhile_cons, List.dropWhile_cons, hp]
      exact ⟨rfl, rfl⟩
  | cons c t ih =>
    rw [List.cons_append, List.takeWhile_cons, List.takeWhile_cons, List.dropWhile_cons,
      List.dropWhile_cons, ih.1, ih.2]
    cases p c <;> exact ⟨rfl, rfl⟩

/-- Lines behind a brace do not change the name at the start of a text. -/
theorem rel_splitName? (ha : EndsLine after) (h : Extends after t u) :
  Option.Rel (Leaves after) (splitName? t) (splitName? u)
  := by
  cases t with
  | nil => exact absurd rfl h.1.ne_nil
  | cons c t =>
    by_cases hq : isQuote c = true
    · obtain ⟨v, rfl, hb, rfl⟩ := h.tail rfl hq
      obtain ⟨hat, had⟩ := takeWhile_append_endsLine (p := fun d => d != c && d != '\n')
        (Bool.and_false _) ha t
      have hs : t.dropWhile (fun d => d != c && d != '\n') <:+ t := List.dropWhile_suffix _
      rw [splitName?, splitName?, if_pos hq, if_pos hq, hat, had]
      generalize t.takeWhile (fun d => d != c && d != '\n') = inner
      generalize t.dropWhile (fun d => d != c && d != '\n') = rest at hs
      cases inner with
      | nil => exact .none
      | cons i inner =>
        cases rest with
        | nil =>
          -- the quote is not closed, and a newline does not close it
          rcases ha with rfl | ⟨v, rfl⟩
          · exact .none
          · have hn : '\n' ≠ c := by
              rintro rfl
              cases hq
            dsimp only [List.nil_append]
            rw [if_neg hn]
            exact .none
        | cons d rest =>
          by_cases hd : d = c
          · rw [hd] at hs
            have hr := @Extends.tail after _ _ isQuote rfl c hq
              ⟨hb.of_suffix hs (List.cons_ne_nil _ _), rfl⟩
            obtain ⟨v, hv, hr⟩ := hr
            obtain ⟨-, rfl⟩ := List.cons.inj hv
            dsimp only [List.cons_append]
            rw [if_pos hd, if_pos hd]
            exact .some ⟨rfl, hr⟩
          · dsimp only [List.cons_append]
            rw [if_neg hd, if_neg hd]
            exact .none
    · by_cases hw : isWord c = true
      · obtain ⟨v, rfl, hv⟩ := h.tail rfl hw
        obtain ⟨ht, hd⟩ := hv.dropWhile (p := isWord) rfl
        rw [splitName?, splitName?, if_neg hq, if_neg hq, if_pos hw, if_pos hw, ht]
        exact .some ⟨rfl, hd⟩
      · rw [h.2, List.cons_append, splitName?, splitName?, if_neg hq, if_neg hq, if_neg hw,
          if_neg hw]
        exact .none

theorem rel_spacedName? (ha : EndsLine after) (h : Extends after t u) :
  Option.Rel (Leaves after) (spacedName? t) (spacedName? u)
  := rel_bind (rel_splitBlanks? h) fun _ _ => rel_splitName? ha

/-- Lines behind a brace do not change a name and its qualifier. -/
theorem rel_qualifiedName? (ha : EndsLine after) (h : Extends after t u) :
  Option.Rel (fun x y => x.1 = y.1 ∧ Leaves after x.2 y.2) (qualifiedName? t) (qualifiedName? u)
  := by
  rw [qualifiedName?, qualifiedName?]
  have hf := rel_splitName? ha h
  generalize splitName? t = x at hf ⊢
  generalize splitName? u = y at hf ⊢
  cases hf with
  | none => exact .none
  | @some x y hf =>
    obtain ⟨hname, hrest⟩ := hf
    have hs := rel_bind (@rel_splitChar? _ _ _ '.' (by decide) hrest)
      fun _ _ => rel_splitName? ha
    dsimp only
    generalize (splitChar? '.' x.2).bind splitName? = z at hs ⊢
    generalize (splitChar? '.' y.2).bind splitName? = w at hs ⊢
    rw [hname]
    cases hs with
    | none => exact .some ⟨rfl, rfl, hrest⟩
    | some hs => exact .some ⟨rfl, hs⟩

/-- Lines behind a brace do not change an alias. -/
theorem rel_aliasClause? (ha : EndsLine after) (h : Extends after t u) :
  Option.Rel (Leaves after) (aliasClause? t) (aliasClause? u)
  := rel_bind (rel_bind (rel_splitBlanks? h) fun _ _ => rel_splitKeyword? rfl)
    fun _ _ => rel_spacedName? ha

end

end Text

namespace HeaderForm

open Text

variable {after t u : Text}

/-! ## Headers -/

/-- Lines behind a brace do not change how the header of a relationship ends. -/
theorem rel_referenceEnd? (name : Option Text) (h : Extends after t u) :
  Option.Rel (Leaves after) (referenceEnd? name t) (referenceEnd? name u)
  := by
  have hs : Extends after (trimStart t) (trimStart u) := (h.dropWhile rfl).2
  rw [referenceEnd?, referenceEnd?]
  generalize trimStart t = v at hs
  generalize trimStart u = w at hs
  cases v with
  | nil => exact absurd rfl hs.1.ne_nil
  | cons c v =>
    by_cases hc : c = ':'
    · obtain ⟨x, rfl, hx⟩ := hs.tail (p := (· == ':')) rfl (beq_iff_eq.mpr hc)
      dsimp only
      rw [if_pos hc, if_pos hc]
      exact .some ⟨rfl, hx⟩
    · have hw := hs.2
      subst hw
      dsimp only [List.cons_append]
      rw [if_neg hc, if_neg hc]
      split
      · exact .some ⟨rfl, hs⟩
      · exact .none

theorem beginsWithWord_eq (h : Extends after t u) :
  beginsWithWord t = beginsWithWord u
  := by
  cases t with
  | nil => exact absurd rfl h.1.ne_nil
  | cons c t =>
    rw [h.2]
    rfl

theorem rel_named (ha : EndsLine after) (keyword : Text) (kind : BlockKind)
    (h : Extends after t u) :
  Option.Rel (Leaves after) ((named keyword kind).readNames t) ((named keyword kind).readNames u)
  := by
  have hs := rel_spacedName? ha h
  simp only [named]
  generalize spacedName? t = x at hs
  generalize spacedName? u = y at hs
  cases hs with
  | none => exact .none
  | some hs => exact .some ⟨by dsimp only; rw [hs.1], hs.2⟩

theorem rel_qualified (ha : EndsLine after) (h : Extends after t u) :
  Option.Rel (fun x y => x.1 = y.1 ∧ Leaves after x.2 y.2) ((splitBlanks? t).bind qualifiedName?)
    ((splitBlanks? u).bind qualifiedName?)
  := rel_bind (rel_splitBlanks? h) fun _ _ => rel_qualifiedName? ha

/-- Lines behind a brace do not change the header of a table. -/
theorem rel_table (ha : EndsLine after) (h : Extends after t u) :
  Option.Rel (Leaves after) (table.readNames t) (table.readNames u)
  := by
  have hs := rel_qualified ha h
  simp only [table]
  generalize (splitBlanks? t).bind qualifiedName? = x at hs
  generalize (splitBlanks? u).bind qualifiedName? = y at hs
  cases hs with
  | none => exact .none
  | @some x y hs =>
    obtain ⟨hschema, hname, hrest⟩ := hs
    have hal := rel_aliasClause? ha hrest
    dsimp only
    generalize aliasClause? x.2.2 = z at hal
    generalize aliasClause? y.2.2 = w at hal
    rw [hschema, hname]
    cases hal with
    | none => exact .some ⟨rfl, hrest⟩
    | some hal => exact .some ⟨by rw [hal.1], hal.2⟩

/-- Lines behind a brace do not change the names in a header, whatever its form. -/
theorem rel_readNames (ha : EndsLine after) {form : HeaderForm} (hf : form ∈ all)
    (h : Extends after t u) :
  Option.Rel (Leaves after) (form.readNames t) (form.readNames u)
  := by
  simp only [all, List.mem_cons, List.not_mem_nil, or_false] at hf
  rcases hf with rfl | rfl | rfl | rfl | rfl | rfl | rfl
  · have hs := rel_spacedName? ha h
    simp only [reference]
    rw [beginsWithWord_eq h]
    generalize spacedName? t = x at hs
    generalize spacedName? u = y at hs
    split
    · exact .none
    · cases hs with
      | none => apply rel_referenceEnd? none h
      | some hs =>
        dsimp only
        rw [hs.1]
        apply rel_referenceEnd? _ hs.2
  · apply rel_named ha _ _ h
  · apply rel_named ha _ _ h
  · apply rel_table ha h
  · have hs := rel_spacedName? ha h
    simp only [project]
    rw [beginsWithWord_eq h]
    generalize spacedName? t = x at hs
    generalize spacedName? u = y at hs
    split
    · exact .none
    · cases hs with
      | none => exact .some ⟨rfl, h⟩
      | some hs => exact .some ⟨by rw [hs.1], hs.2⟩
  · have hs := rel_qualified ha h
    simp only [enum]
    generalize (splitBlanks? t).bind qualifiedName? = x at hs
    generalize (splitBlanks? u).bind qualifiedName? = y at hs
    cases hs with
    | none => exact .none
    | some hs => exact .some ⟨by dsimp only; rw [hs.1, hs.2.1], hs.2.2⟩
  · apply rel_named ha _ _ h

/-- No keyword holds a brace. -/
theorem hasNoBrace_keyword {form : HeaderForm} (hf : form ∈ all) :
  form.keyword.all fun letter => hasNoBrace (spells letter)
  := by
  simp only [all, List.mem_cons, List.not_mem_nil, or_false] at hf
  rcases hf with rfl | rfl | rfl | rfl | rfl | rfl | rfl <;> rfl

end HeaderForm

namespace Header

open Text

/-- The same header is read from a text that ends with a brace and from the text before further
lines. -/
theorem rel_read? {after t u : Text} (ha : EndsLine after) (h : Extends after t u) :
  Option.Rel (Leaves after) (read? t) (read? u)
  := by
  have hform : ∀ form ∈ HeaderForm.all,
      Option.Rel (Leaves after) (form.read? t) (form.read? u) :=
    fun form hf => rel_bind (rel_splitKeyword? (HeaderForm.hasNoBrace_keyword hf) h)
      fun _ _ => HeaderForm.rel_readNames ha hf
  rw [read?, read?]
  generalize HeaderForm.all = forms at hform
  induction forms with
  | nil => exact .none
  | cons form forms ih =>
    obtain ⟨hr, hforms⟩ := List.forall_mem_cons.mp hform
    rw [List.findSome?_cons, List.findSome?_cons]
    generalize form.read? t = x at hr
    generalize form.read? u = y at hr
    cases hr with
    | none => apply ih hforms
    | some hr => exact .some hr

/-- What is read from a text that ends with a brace is read before further lines. -/
theorem read?_append {after t : Text} (ha : EndsLine after) (ht : EndsWithBrace t) :
  read? (t ++ after) = (read? t).map fun (header, rest) => (header, rest ++ after)
  := by
  have h := rel_read? ha ⟨ht, rfl⟩
  generalize read? t = x at h
  generalize read? (t ++ after) = y at h
  cases h with
  | none => rfl
  | some h =>
    obtain ⟨hheader, -, hrest⟩ := h
    rw [Option.map_some]
    dsimp only
    rw [hheader, ← hrest]

/-- A header leaves the brace at the end of a text. -/
theorem endsWithBrace_of_read? {t rest : Text} {header : Header} (ht : EndsWithBrace t)
    (h : read? t = some (header, rest)) :
  EndsWithBrace rest
  := by
  have hr := rel_read? (.inl rfl) ⟨ht, rfl⟩
  rw [h] at hr
  generalize read? (t ++ []) = y at hr
  cases hr with
  | some hr => exact hr.2.1

end Header

end DatabaseMarkup
