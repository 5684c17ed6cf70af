import DatabaseMarkup.Proofs.Text.Delimiter

/-!
# Literals and groups inside of each other

The lexemes of a text do not overlap, so that a literal holds no place where another lexeme begins.
Closed groups of a kind are nested: `HasGroup.exists_of_lt` states that a delimiter between two that
are paired is closed before the second one.
-/

namespace DatabaseMarkup

open Text

namespace Text

/-- Whether a text has a quoted literal which begins at `a` and ends before `b`. -/
def HasLiteral (t : Text) (a b : Nat) : Prop :=
  ∃ before quote tail after, lexemes t = before ++ .quoted quote tail :: after
    ∧ a = size (ofLexemes before) ∧ b = a + size (quote :: tail)

/-- Whether a text has a brace at `a`, outside of its literals, which the brace at `b` closes. -/
def HasBraces (t : Text) (a b : Nat) : Prop :=
  ∃ before after, lexemes t = before ++ .plain '{' :: after
    ∧ a = size (ofLexemes before) ∧ (DelimiterPairs.ofText t).closeOf? a = some b

section

variable {t : Text} {a b : Nat}

/-! ## Places in a text -/

/-- A character at a place of a part of a text belongs to the part. -/
theorem mem_of_size_le {u s v x y : Text} {c : Char} (h : u ++ (s ++ v) = x ++ c :: y)
    (hu : size u ≤ size x) (hs : size x < size u + size s) :
  c ∈ s
  := by
  have hx : ∃ w, x = u ++ w ∧ s ++ v = w ++ c :: y := by
    rcases List.append_eq_append_iff.mp h with ⟨w, rfl, hw⟩ | ⟨w, rfl, hw⟩
    · exact ⟨w, rfl, hw⟩
    · rw [size_append] at hu
      have hz : size w = 0 := by omega
      cases w with
      | nil => exact ⟨[], by simp, hw.symm⟩
      | cons d w =>
        rw [size_cons] at hz
        have := Char.utf8Size_pos d
        omega
  obtain ⟨w, rfl, hw⟩ := hx
  rw [size_append] at hs
  rcases List.append_eq_append_iff.mp hw with ⟨z, rfl, _⟩ | ⟨z, rfl, hz⟩
  · rw [size_append] at hs
    omega
  · cases z with
    | nil =>
      rw [List.append_nil] at hs
      omega
    | cons d z =>
      rw [List.cons_append, List.cons.injEq] at hz
      rw [hz.1]
      apply List.mem_append_right _ List.mem_cons_self

/-- Two cuts of a text at the same offset are before the same character. -/
theorem char_inj_of_size {u v x y : Text} {c d : Char} (h : u ++ c :: v = x ++ d :: y)
    (hs : size u = size x) :
  c = d
  := (List.cons.inj (append_inj_of_size h hs).2).1

/-- A quoted lexeme starts with a quote. -/
theorem isQuote_of_quoted_mem {quote : Char} {tail : Text} (h : .quoted quote tail ∈ lexemes t) :
  isQuote quote
  := by
  fun_induction lexemes t with
  | case1 => cases h
  | case2 c t ih =>
    rcases List.mem_cons.mp h with h | h
    · by_cases hc : isQuote c = true
      · obtain ⟨u, hu⟩ := Lexeme.exists_text_first c t
        rw [← h] at hu
        rw [(List.cons.inj hu).1]
        exact hc
      · rw [Lexeme.first_plain (eq_false_of_ne_true hc)] at h
        cases h
    · exact ih h

/-- A literal begins with a quote. -/
theorem HasLiteral.exists_quote (h : HasLiteral t a b) :
  ∃ before quote after, t = before ++ quote :: after ∧ a = size before ∧ isQuote quote
  := by
  obtain ⟨before, quote, tail, after, hl, ha, _⟩ := h
  refine ⟨ofLexemes before, quote, tail ++ ofLexemes after, ?_, ha, ?_⟩
  · rw [← ofLexemes_lexemes t, hl, ofLexemes_append]
    rfl
  · have hm : .quoted quote tail ∈ lexemes t := by
      rw [hl]
      apply List.mem_append_right _ List.mem_cons_self
    exact isQuote_of_quoted_mem hm

/-- A pair of braces encloses a part of the text. -/
theorem HasBraces.exists_brace (h : HasBraces t a b) :
  ∃ before after, t = before ++ '{' :: after ∧ a = size before
  := by
  obtain ⟨before, after, hl, ha, _⟩ := h
  refine ⟨ofLexemes before, ofLexemes after, ?_, ha⟩
  rw [← ofLexemes_lexemes t, hl, ofLexemes_append]
  rfl

/-! ## Lexemes do not overlap -/

/-- A literal holds no place between two lexemes. -/
theorem HasLiteral.le_or_le (h : HasLiteral t a b) {before after : List Lexeme}
    (hl : lexemes t = before ++ after) :
  size (ofLexemes before) ≤ a ∨ b ≤ size (ofLexemes before)
  := by
  obtain ⟨ls, quote, tail, ms, hs, rfl, rfl⟩ := h
  rw [hl] at hs
  rcases List.append_eq_append_iff.mp hs with ⟨u, rfl, _⟩ | ⟨u, rfl, hu⟩
  · left
    rw [ofLexemes_append, size_append]
    apply Nat.le_add_right
  · cases u with
    | nil =>
      left
      rw [List.append_nil]
    | cons l u =>
      right
      rw [List.cons_append, List.cons.injEq] at hu
      rw [ofLexemes_append, ofLexemes_cons, ← hu.1, size_append, size_append, ← Nat.add_assoc]
      apply Nat.le_add_right

/-- A literal behind the first lexeme of a text is one of the text. -/
theorem HasLiteral.behind {rest : Text} {l : Lexeme} {a b : Nat}
    (hl : lexemes t = l :: lexemes rest) (h : HasLiteral rest a b) :
  HasLiteral t (size l.text + a) (size l.text + b)
  := by
  obtain ⟨ls, q, tail, ms, hls, rfl, rfl⟩ := h
  refine ⟨l :: ls, q, tail, ms, by rw [hl, hls]; rfl, ?_, ?_⟩
  · rw [ofLexemes_cons, size_append]
  · rw [Nat.add_assoc]

/-- A character other than a quote is a lexeme of its own or part of a literal. -/
theorem plain_or_literal {c : Char} (hc : isQuote c = false) {before after : Text}
    (ht : t = before ++ c :: after) :
  (∃ ls ms, lexemes t = ls ++ .plain c :: ms ∧ size (ofLexemes ls) = size before)
    ∨ ∃ a b, HasLiteral t a b ∧ a ≤ size before ∧ size before < b
  := by
  fun_induction lexemes t generalizing before with
  | case1 => exact absurd ht.symm (List.append_ne_nil_of_right_ne_nil _ (List.cons_ne_nil _ _))
  | case2 d t ih =>
    have hl := lexemes_cons d t
    have htext := Lexeme.text_first_append d t
    generalize Lexeme.first d t = first at ih hl htext
    obtain ⟨l, rest⟩ := first
    dsimp only at ih hl htext
    -- the character is found in the rest of the text
    have hrest {w : Text} (hb : before = l.text ++ w) (hr : rest = w ++ c :: after) :
        (∃ ls ms, l :: lexemes rest = ls ++ .plain c :: ms ∧ size (ofLexemes ls) = size before)
          ∨ ∃ a b, HasLiteral (d :: t) a b ∧ a ≤ size before ∧ size before < b := by
      rw [hb, size_append]
      rcases ih hr with ⟨ls, ms, hls, hs⟩ | ⟨a, b, h, ha, hb⟩
      · left
        refine ⟨l :: ls, ms, by rw [hls]; rfl, ?_⟩
        rw [ofLexemes_cons, size_append, hs]
      · exact .inr ⟨_, _, h.behind hl, Nat.add_le_add_left ha _, Nat.add_lt_add_left hb _⟩
    rw [← htext] at ht
    rcases List.append_eq_append_iff.mp ht with ⟨w, hb, hr⟩ | ⟨w, hb, hr⟩
    · exact hrest hb hr
    · cases w with
      | nil =>
        rw [List.append_nil] at hb
        apply hrest (w := [])
        · rw [hb, List.append_nil]
        · exact hr.symm
      | cons e w =>
        obtain ⟨rfl, -⟩ := List.cons.inj hr
        cases l with
        | quoted q tail =>
          right
          refine ⟨0, 0 + size (q :: tail), ⟨[], q, tail, _, hl, rfl, rfl⟩, Nat.zero_le _, ?_⟩
          have hb : q :: tail = before ++ c :: w := hb
          rw [hb, size_append, size_cons]
          have := Char.utf8Size_pos c
          omega
        | plain e =>
          left
          have hb : [e] = before ++ c :: w := hb
          cases before with
          | nil =>
            obtain ⟨rfl, -⟩ := List.cons.inj hb
            exact ⟨[], _, rfl, rfl⟩
          | cons _ before =>
            obtain ⟨-, hb⟩ := List.cons.inj hb
            exact absurd hb.symm (List.append_ne_nil_of_right_ne_nil _ (List.cons_ne_nil _ _))

end

/-! ## Groups are nested -/

section

variable {opener closer : Char} {ls inner rest : List Lexeme}

/-- To close several groups is to close some of them first. -/
theorem exists_of_closeLexemes_add {depth n : Nat}
    (h : closeLexemes opener closer (n + 1 + depth) ls = some (inner, rest)) :
  ∃ i j r, closeLexemes opener closer n ls = some (i, r)
    ∧ closeLexemes opener closer depth r = some (j, rest) ∧ inner = i ++ .plain closer :: j
  := by
  induction ls generalizing n inner with
  | nil => cases h
  | cons l ls ih =>
    by_cases hc : l = .plain closer
    · subst hc
      rw [Nat.add_right_comm, closeLexemes_closer_succ] at h
      obtain ⟨⟨i, r⟩, hi, hr⟩ := Option.map_eq_some_iff.mp h
      obtain ⟨rfl, rfl⟩ := Prod.mk.inj hr
      cases n with
      | zero =>
        rw [Nat.zero_add] at hi
        exact ⟨[], i, ls, closeLexemes_closer_zero ls, hi, rfl⟩
      | succ n =>
        obtain ⟨i', j, r', hi', hj, rfl⟩ := ih hi
        refine ⟨.plain closer :: i', j, r', ?_, hj, rfl⟩
        rw [closeLexemes_closer_succ, hi']
        rfl
    · rw [closeLexemes_ne_closer hc] at h
      obtain ⟨⟨i, r⟩, hi, hr⟩ := Option.map_eq_some_iff.mp h
      obtain ⟨rfl, rfl⟩ := Prod.mk.inj hr
      have hd : (if l = .plain opener then n + 1 + depth + 1 else n + 1 + depth)
          = (if l = .plain opener then n + 1 else n) + 1 + depth := by
        split <;> omega
      rw [hd] at hi
      obtain ⟨i', j, r', hi', hj, rfl⟩ := ih hi
      refine ⟨l :: i', j, r', ?_, hj, rfl⟩
      rw [closeLexemes_ne_closer hc, hi']
      rfl

/-- A group inside of another one is closed inside of it. -/
theorem exists_of_closeLexemes (hd : opener ≠ closer) {before inside : List Lexeme} {depth : Nat}
    (h : closeLexemes opener closer depth (before ++ .plain opener :: inside)
      = some (before ++ .plain opener :: inner, rest)) :
  ∃ i j r, closeLexemes opener closer 0 inside = some (i, r) ∧ inner = i ++ .plain closer :: j
  := by
  induction before generalizing depth with
  | nil =>
    rw [List.nil_append, closeLexemes_opener hd] at h
    obtain ⟨⟨i, r⟩, hi, hr⟩ := Option.map_eq_some_iff.mp h
    obtain ⟨hir, -⟩ := Prod.mk.inj hr
    obtain ⟨-, rfl⟩ := List.cons.inj hir
    rw [Nat.add_comm, ← Nat.zero_add 1] at hi
    obtain ⟨i', j, r', hi', _, rfl⟩ := exists_of_closeLexemes_add hi
    exact ⟨i', j, r', hi', rfl⟩
  | cons l before ih =>
    rw [List.cons_append, List.cons_append] at h
    by_cases hc : l = .plain closer
    · subst hc
      cases depth with
      | zero =>
        rw [closeLexemes_closer_zero] at h
        cases h
      | succ depth =>
        rw [closeLexemes_closer_succ] at h
        obtain ⟨⟨i, r⟩, hi, hr⟩ := Option.map_eq_some_iff.mp h
        cases hr
        exact ih hi
    · rw [closeLexemes_ne_closer hc] at h
      obtain ⟨⟨i, r⟩, hi, hr⟩ := Option.map_eq_some_iff.mp h
      cases hr
      exact ih hi

end

/-- Whether a text has a delimiter at `a`, outside of its literals, which the one at `b` closes. -/
def HasGroup (opener : Char) (t : Text) (a b : Nat) : Prop :=
  ∃ before after, lexemes t = before ++ .plain opener :: after
    ∧ a = size (ofLexemes before) ∧ (DelimiterPairs.ofText t).closeOf? a = some b

section

variable {opener closer : Char} {t : Text} {a b : Nat}

/-- What is between two delimiters that are paired. -/
theorem HasGroup.exists_inner (hp : DelimiterPairs.IsPair opener closer)
    (h : HasGroup opener t a b) :
  ∃ before inner rest, lexemes t = before ++ .plain opener :: (inner ++ .plain closer :: rest)
    ∧ a = size (ofLexemes before) ∧ b = a + 1 + size (ofLexemes inner)
    ∧ closeLexemes opener closer 0 (inner ++ .plain closer :: rest) = some (inner, rest)
  := by
  obtain ⟨before, after, hl, rfl, hc⟩ := h
  rw [DelimiterPairs.closeOf?_lexeme hp hl] at hc
  obtain ⟨⟨inner, rest⟩, hi, hb⟩ := Option.map_eq_some_iff.mp hc
  have ha := eq_append_of_closeLexemes hi
  rw [ha] at hl hi
  rw [(DelimiterPairs.size_delimiter hp).1] at hb
  exact ⟨before, inner, rest, hl, rfl, hb.symm, hi⟩

/-- A delimiter between two that are paired is closed before the second one. -/
theorem HasGroup.exists_of_lt (hp : DelimiterPairs.IsPair opener closer)
    (h : HasGroup opener t a b) {before inside : List Lexeme}
    (hl : lexemes t = before ++ .plain opener :: inside) (ha : a < size (ofLexemes before))
    (hb : size (ofLexemes before) < b) :
  ∃ c, (DelimiterPairs.ofText t).closeOf? (size (ofLexemes before)) = some c ∧ c < b
  := by
  obtain ⟨outer, inner, rest, hl', rfl, rfl, hc⟩ := h.exists_inner hp
  have hd : opener ≠ closer := by
    rcases hp with ⟨rfl, rfl⟩ | ⟨rfl, rfl⟩ <;> decide
  obtain ⟨ho, hsize⟩ := DelimiterPairs.size_delimiter hp
  have hopener : size (Lexeme.plain opener).text = 1 := ho
  have hcloser : size (Lexeme.plain closer).text = 1 := hsize
  have hinner : ∃ u v, before = outer ++ .plain opener :: u ∧ inner = u ++ .plain opener :: v
      ∧ inner ++ .plain closer :: rest = u ++ .plain opener :: inside := by
    rw [hl] at hl'
    rcases List.append_eq_append_iff.mp hl' with ⟨w, hw, _⟩ | ⟨w, rfl, hw⟩
    · rw [hw, ofLexemes_append, size_append] at ha
      omega
    · cases w with
      | nil =>
        rw [List.append_nil] at ha
        exact absurd ha (Nat.lt_irrefl _)
      | cons l u =>
        obtain ⟨rfl, hu⟩ := List.cons.inj hw
        rcases List.append_eq_append_iff.mp hu with ⟨v, rfl, _⟩ | ⟨v, hv, hr⟩
        · rw [ofLexemes_append, ofLexemes_cons, ofLexemes_append, size_append, size_append,
            size_append, hopener] at hb
          omega
        · cases v with
          | nil => exact absurd (Lexeme.plain.inj (List.cons.inj hr).1) hd
          | cons l v =>
            obtain ⟨rfl, -⟩ := List.cons.inj hr
            exact ⟨u, v, rfl, hv, hu⟩
  obtain ⟨u, v, rfl, rfl, hu⟩ := hinner
  rw [hu] at hc
  obtain ⟨i, j, r, hi, rfl⟩ := exists_of_closeLexemes hd hc
  refine ⟨_, by rw [DelimiterPairs.closeOf?_lexeme hp hl, closeOffset?, hi]; rfl, ?_⟩
  simp only [ofLexemes_append, ofLexemes_cons, size_append, ho, hopener, hcloser]
  omega

/-- A closing brace ends a lexeme. -/
theorem HasBraces.exists_behind (h : HasBraces t a b) :
  ∃ before after, lexemes t = before ++ after ∧ size (ofLexemes before) = b + 1
  := by
  obtain ⟨before, inner, rest, hl, rfl, rfl, _⟩ := HasGroup.exists_inner (.inl ⟨rfl, rfl⟩) h
  refine ⟨before ++ .plain '{' :: (inner ++ [.plain '}']), rest, by rw [hl]; simp, ?_⟩
  rw [ofLexemes_append, ofLexemes_cons, ofLexemes_append, size_append, size_append, size_append]
  have ho : size (Lexeme.plain '{').text = 1 := rfl
  have hc : size (ofLexemes [.plain '}']) = 1 := rfl
  rw [ho, hc]
  omega

/-- A brace between two that are paired is closed before the second one. -/
theorem HasBraces.exists_of_lt (h : HasBraces t a b) {before inside : List Lexeme}
    (hl : lexemes t = before ++ .plain '{' :: inside) (ha : a < size (ofLexemes before))
    (hb : size (ofLexemes before) < b) :
  ∃ c, (DelimiterPairs.ofText t).closeOf? (size (ofLexemes before)) = some c ∧ c < b
  := HasGroup.exists_of_lt (.inl ⟨rfl, rfl⟩) h hl ha hb

end

end Text

end DatabaseMarkup
