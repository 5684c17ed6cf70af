import DatabaseMarkup.Proofs.Text.Lexeme
import DatabaseMarkup.Text.Delimiter

/-!
# Pairs of delimiters

`DelimiterPairs.ofText` finds the pairs of all braces and brackets in one pass.
`DelimiterPairs.closeOf?_lexeme` and `DelimiterPairs.closeOf?_eq_some` state which pairs these are:
every brace or bracket among the lexemes of a text is paired with the delimiter that closes it, as
`closeLexemes` finds it by counting the delimiters of its kind only, and nothing else is paired.
-/

namespace DatabaseMarkup

namespace Text

/-! ## The lexemes of a part of a text -/

/-- A text is cut into its first lexeme and those of the text behind it. -/
theorem lexemes_cons (c : Char) (t : Text) :
  lexemes (c :: t) = (Lexeme.first c t).1 :: lexemes (Lexeme.first c t).2
  := by
  rw [lexemes]

theorem ofLexemes_append (ls ms : List Lexeme) :
  ofLexemes (ls ++ ms) = ofLexemes ls ++ ofLexemes ms
  := List.flatMap_append

/-! ## The end of a group -/

/-- The lexemes before and after the delimiter that closes a group, where `depth` further groups
of the kind are open. -/
def closeLexemes (opener closer : Char) (depth : Nat) :
    List Lexeme → Option (List Lexeme × List Lexeme)
  | [] => none
  | l :: ls =>
    if l = .plain closer then
      match depth with
      | 0 => some ([], ls)
      | depth + 1 =>
        (closeLexemes opener closer depth ls).map fun (inner, rest) => (l :: inner, rest)
    else
      (closeLexemes opener closer (if l = .plain opener then depth + 1 else depth) ls).map
        fun (inner, rest) => (l :: inner, rest)

section

variable {opener closer : Char}

theorem closeLexemes_closer_zero (ls : List Lexeme) :
  closeLexemes opener closer 0 (.plain closer :: ls) = some ([], ls)
  := if_pos rfl

theorem closeLexemes_closer_succ (depth : Nat) (ls : List Lexeme) :
  closeLexemes opener closer (depth + 1) (.plain closer :: ls)
    = (closeLexemes opener closer depth ls).map
        fun (inner, rest) => (.plain closer :: inner, rest)
  := if_pos rfl

/-- A lexeme that is no closing delimiter is part of the group, and an opening one makes its
nesting deeper. -/
theorem closeLexemes_ne_closer {l : Lexeme} (hc : l ≠ .plain closer) (depth : Nat)
    (ls : List Lexeme) :
  closeLexemes opener closer depth (l :: ls)
    = (closeLexemes opener closer (if l = .plain opener then depth + 1 else depth) ls).map
        fun (inner, rest) => (l :: inner, rest)
  := by
  rw [closeLexemes.eq_def]
  apply if_neg hc

theorem closeLexemes_opener (hd : opener ≠ closer) (depth : Nat) (ls : List Lexeme) :
  closeLexemes opener closer depth (.plain opener :: ls)
    = (closeLexemes opener closer (depth + 1) ls).map
        fun (inner, rest) => (.plain opener :: inner, rest)
  := by
  rw [closeLexemes_ne_closer, if_pos rfl]
  rintro ⟨⟩
  exact hd rfl

theorem closeLexemes_of_ne {l : Lexeme} (ho : l ≠ .plain opener) (hc : l ≠ .plain closer)
    (depth : Nat) (ls : List Lexeme) :
  closeLexemes opener closer depth (l :: ls)
    = (closeLexemes opener closer depth ls).map fun (inner, rest) => (l :: inner, rest)
  := by
  rw [closeLexemes_ne_closer hc, if_neg ho]

/-- A group is what stands before its closing delimiter. -/
theorem eq_append_of_closeLexemes {depth : Nat} {ls inner rest : List Lexeme}
    (h : closeLexemes opener closer depth ls = some (inner, rest)) :
  ls = inner ++ .plain closer :: rest
  := by
  fun_induction closeLexemes opener closer depth ls generalizing inner with
  | case1 => cases h
  | case2 =>
    obtain ⟨rfl, rfl⟩ := Prod.mk.inj (Option.some.inj h)
    rfl
  | case3 _ _ ih =>
    obtain ⟨⟨i, r⟩, hi, hr⟩ := Option.map_eq_some_iff.mp h
    obtain ⟨rfl, rfl⟩ := Prod.mk.inj hr
    rw [ih hi, List.cons_append]
  | case4 _ _ _ _ ih =>
    obtain ⟨⟨i, r⟩, hi, hr⟩ := Option.map_eq_some_iff.mp h
    obtain ⟨rfl, rfl⟩ := Prod.mk.inj hr
    rw [ih hi, List.cons_append]

/-- To close a group in a text is to close it among the lexemes of the text. -/
theorem closeGroup_eq (ho : isQuote opener = false) (hc : isQuote closer = false) (depth : Nat)
    (t : Text) :
  closeGroup opener closer depth t
    = (closeLexemes opener closer depth (lexemes t)).map
        fun (inner, rest) => (ofLexemes inner, ofLexemes rest)
  := by
  fun_induction closeGroup opener closer depth t with
  | case1 =>
    rw [lexemes]
    rfl
  | case2 =>
    rw [lexemes_cons, Lexeme.first_plain hc, closeLexemes_closer_zero, Option.map_some]
    dsimp only
    rw [ofLexemes_lexemes, ofLexemes_nil]
  | case3 _ _ ih =>
    rw [ih, lexemes_cons, Lexeme.first_plain hc, closeLexemes_closer_succ, Option.map_map,
      Option.map_map]
    rfl
  | case4 depth c t hn l ih =>
    have hl : l.1 ≠ .plain closer := by
      intro h
      obtain ⟨tail, ht⟩ := Lexeme.exists_text_first c t
      rw [show (Lexeme.first c t).1 = _ from h] at ht
      exact hn (List.cons.inj ht).1.symm
    have hp : l.1 = .plain opener ↔ c = opener := by
      constructor
      · intro h
        obtain ⟨tail, ht⟩ := Lexeme.exists_text_first c t
        rw [show (Lexeme.first c t).1 = _ from h] at ht
        exact (List.cons.inj ht).1.symm
      · rintro rfl
        exact congrArg Prod.fst (Lexeme.first_plain ho t)
    simp only [dite_eq_ite] at ih
    rw [ih, lexemes_cons, closeLexemes_ne_closer hl, Option.map_map, Option.map_map]
    simp only [hp, l]
    rfl

/-- The offset of the delimiter that closes a group, where the lexemes begin at `offset`. -/
def closeOffset? (opener closer : Char) (offset depth : Nat) (ls : List Lexeme) : Option Nat :=
  (closeLexemes opener closer depth ls).map fun (inner, _) => offset + size (ofLexemes inner)

theorem closeOffset?_map (offset : Nat) (l : Lexeme)
    (group : Option (List Lexeme × List Lexeme)) :
  (group.map fun (inner, rest) => (l :: inner, rest)).map
      (fun (inner, _) => offset + size (ofLexemes inner))
    = group.map fun (inner, _) => offset + size l.text + size (ofLexemes inner)
  := by
  rw [Option.map_map]
  congr 1
  funext ⟨inner, rest⟩
  simp only [Function.comp_apply, ofLexemes_cons, size_append, Nat.add_assoc]

theorem closeOffset?_closer_zero (offset : Nat) (ls : List Lexeme) :
  closeOffset? opener closer offset 0 (.plain closer :: ls) = some offset
  := by
  rw [closeOffset?, closeLexemes_closer_zero]
  rfl

theorem closeOffset?_closer_succ (offset depth : Nat) (ls : List Lexeme) :
  closeOffset? opener closer offset (depth + 1) (.plain closer :: ls)
    = closeOffset? opener closer (offset + size (Lexeme.plain closer).text) depth ls
  := by
  rw [closeOffset?, closeLexemes_closer_succ, closeOffset?_map]
  rfl

theorem closeOffset?_opener (hd : opener ≠ closer) (offset depth : Nat) (ls : List Lexeme) :
  closeOffset? opener closer offset depth (.plain opener :: ls)
    = closeOffset? opener closer (offset + size (Lexeme.plain opener).text) (depth + 1) ls
  := by
  rw [closeOffset?, closeLexemes_opener hd, closeOffset?_map]
  rfl

/-- A lexeme that is no delimiter of the pair is stepped over. -/
theorem closeOffset?_of_ne {l : Lexeme} (ho : l ≠ .plain opener) (hc : l ≠ .plain closer)
    (offset depth : Nat) (ls : List Lexeme) :
  closeOffset? opener closer offset depth (l :: ls)
    = closeOffset? opener closer (offset + size l.text) depth ls
  := by
  rw [closeOffset?, closeLexemes_of_ne ho hc, closeOffset?_map]
  rfl

end

/-- A group that is closed stands between its delimiters. -/
theorem exists_of_splitGroup? {t inner rest : Text} (h : splitGroup? t = some (inner, rest)) :
  ∃ opener closer, closerOf? opener = some closer ∧ t = opener :: (inner ++ closer :: rest)
  := by
  cases t with
  | nil => cases h
  | cons opener t =>
    rw [splitGroup?] at h
    split at h
    · rename_i closer hc
      exact ⟨opener, closer, hc, by rw [eq_append_of_closeGroup h]⟩
    · cases h

/-- What follows a group is a suffix. -/
theorem suffix_of_splitGroup? {t inner rest : Text} (h : splitGroup? t = some (inner, rest)) :
  rest <:+ t
  := by
  obtain ⟨opener, closer, _, rfl⟩ := exists_of_splitGroup? h
  exact (List.suffix_cons _ _).trans ((List.suffix_append _ _).trans (List.suffix_cons _ _))

end Text

namespace DelimiterPairs

open Text

/-! ## Pairs of one kind -/

/-- The pairs of one kind in a list of lexemes that begins at `offset`, where the delimiters at
the given offsets are open, innermost first. -/
def pairKind (opener closer : Char) (offset : Nat) (openers : List Nat) :
    List Lexeme → List (Nat × Nat)
  | [] => []
  | l :: ls =>
    let next := offset + size l.text
    if l = .plain opener then
      pairKind opener closer next (offset :: openers) ls
    else if l = .plain closer then
      match openers with
      | [] => pairKind opener closer next [] ls
      | o :: openers => (o, offset) :: pairKind opener closer next openers ls
    else
      pairKind opener closer next openers ls

/-- Braces are paired as if there were no brackets, and brackets as if there were no braces. -/
theorem mem_pairUp (p : Nat × Nat) (offset : Nat) (braces brackets : List Nat)
    (ls : List Lexeme) :
  p ∈ pairUp offset braces brackets ls
    ↔ p ∈ pairKind '{' '}' offset braces ls ∨ p ∈ pairKind '[' ']' offset brackets ls
  := by
  induction ls generalizing offset braces brackets with
  | nil => simp [pairUp, pairKind]
  | cons l ls ih =>
    rw [pairUp.eq_def, pairKind.eq_def, pairKind.eq_def]
    dsimp only
    by_cases h₁ : l = .plain '{'
    · subst h₁
      apply ih
    by_cases h₂ : l = .plain '['
    · subst h₂
      apply ih
    by_cases h₃ : l = .plain '}'
    · subst h₃
      cases braces with
      | nil => apply ih
      | cons o braces =>
        refine List.mem_cons.trans (Iff.trans (or_congr_right (ih _ _ _)) ?_)
        rw [← or_assoc, ← List.mem_cons]
        rfl
    by_cases h₄ : l = .plain ']'
    · subst h₄
      cases brackets with
      | nil => apply ih
      | cons o brackets =>
        refine List.mem_cons.trans (Iff.trans (or_congr_right (ih _ _ _)) ?_)
        rw [or_left_comm, ← List.mem_cons]
        rfl
    simp only [h₁, h₂, h₃, h₄, if_false]
    apply ih

section

variable {opener closer : Char}

/-- Whether `b` closes the delimiter open at `a`, where the delimiters at the given offsets are
open, innermost first, below `depth` others. -/
def ClosesOpen (opener closer : Char) (a b offset depth : Nat) (ls : List Lexeme) :
    List Nat → Prop
  | [] => False
  | o :: openers =>
    (a = o ∧ closeOffset? opener closer offset depth ls = some b)
      ∨ ClosesOpen opener closer a b offset (depth + 1) ls openers

/-- Whether `a` and `b` are the offsets of a delimiter among the lexemes, which begin at
`offset`, and of the one that closes it. -/
def ClosesAmong (opener closer : Char) (a b offset : Nat) (ls : List Lexeme) : Prop :=
  ∃ before inside, ls = before ++ .plain opener :: inside
    ∧ a = offset + size (ofLexemes before)
    ∧ closeOffset? opener closer (a + size [opener]) 0 inside = some b

theorem not_closesOpen_nil {a b offset depth : Nat} (openers : List Nat) :
  ¬ClosesOpen opener closer a b offset depth [] openers
  := by
  induction openers generalizing depth with
  | nil => exact id
  | cons o openers ih =>
    rintro (⟨_, h⟩ | h)
    · cases h
    · exact ih h

/-- Which open delimiters are closed depends only on where each depth is closed. -/
theorem closesOpen_congr {a b offset offset' depth depth' : Nat} {ls ls' : List Lexeme}
    (h : ∀ n, closeOffset? opener closer offset (depth + n) ls
      = closeOffset? opener closer offset' (depth' + n) ls') (openers : List Nat) :
  ClosesOpen opener closer a b offset depth ls openers
    ↔ ClosesOpen opener closer a b offset' depth' ls' openers
  := by
  induction openers generalizing depth depth' with
  | nil => rfl
  | cons o openers ih =>
    rw [ClosesOpen, ClosesOpen, show closeOffset? opener closer offset depth ls = _ from h 0,
      Nat.add_zero, ih]
    intro n
    rw [Nat.add_right_comm, Nat.add_right_comm depth']
    apply h (n + 1)

/-- A pair among lexemes opens at the first of them or is a pair among the others. -/
theorem closesAmong_cons (a b offset : Nat) (l : Lexeme) (ls : List Lexeme) :
  ClosesAmong opener closer a b offset (l :: ls)
    ↔ (l = .plain opener ∧ a = offset
        ∧ closeOffset? opener closer (a + size [opener]) 0 ls = some b)
      ∨ ClosesAmong opener closer a b (offset + size l.text) ls
  := by
  constructor
  · rintro ⟨before, inside, hl, ha, hb⟩
    cases before with
    | nil =>
      obtain ⟨rfl, rfl⟩ := List.cons.inj hl
      exact .inl ⟨rfl, ha, hb⟩
    | cons m before =>
      obtain ⟨rfl, rfl⟩ := List.cons.inj hl
      rw [ofLexemes_cons, size_append, ← Nat.add_assoc] at ha
      exact .inr ⟨before, inside, rfl, ha, hb⟩
  · rintro (⟨rfl, ha, hb⟩ | ⟨before, inside, rfl, ha, hb⟩)
    · exact ⟨[], ls, rfl, ha, hb⟩
    · refine ⟨l :: before, inside, rfl, ?_, hb⟩
      rw [ofLexemes_cons, size_append, ← Nat.add_assoc]
      exact ha

/-- A pair is that of a delimiter which was open before, or of one among the lexemes. -/
theorem mem_pairKind (hd : opener ≠ closer) (a b offset : Nat) (openers : List Nat)
    (ls : List Lexeme) :
  (a, b) ∈ pairKind opener closer offset openers ls
    ↔ ClosesOpen opener closer a b offset 0 ls openers
      ∨ ClosesAmong opener closer a b offset ls
  := by
  induction ls generalizing offset openers with
  | nil =>
    constructor
    · intro h
      cases h
    · rintro (h | ⟨before, inside, h, _⟩)
      · exact absurd h (not_closesOpen_nil openers)
      · exact absurd h.symm (List.append_ne_nil_of_right_ne_nil _ (List.cons_ne_nil _ _))
  | cons l ls ih =>
    rw [pairKind.eq_def, closesAmong_cons]
    dsimp only
    by_cases ho : l = .plain opener
    · subst ho
      have hn : ∀ n, closeOffset? opener closer offset (0 + n) (.plain opener :: ls)
          = closeOffset? opener closer (offset + size [opener]) (1 + n) ls := by
        intro n
        rw [closeOffset?_opener hd, Nat.zero_add, Nat.add_comm n]
        rfl
      have ha : (a = offset ∧ closeOffset? opener closer (offset + size [opener]) 0 ls = some b)
          ↔ Lexeme.plain opener = .plain opener ∧ a = offset
            ∧ closeOffset? opener closer (a + size [opener]) 0 ls = some b := by
        constructor
        · rintro ⟨rfl, h⟩
          exact ⟨rfl, rfl, h⟩
        · rintro ⟨_, rfl, h⟩
          exact ⟨rfl, h⟩
      rw [if_pos rfl, ih, closesOpen_congr hn, ← ha, ClosesOpen, or_assoc, or_left_comm]
      rfl
    rw [if_neg ho]
    by_cases hc : l = .plain closer
    · subst hc
      have hn : ∀ n, closeOffset? opener closer offset (1 + n) (.plain closer :: ls)
          = closeOffset? opener closer (offset + size [closer]) (0 + n) ls := by
        intro n
        rw [Nat.add_comm 1, closeOffset?_closer_succ, Nat.zero_add]
        rfl
      rw [if_pos rfl]
      simp only [ho, false_and, false_or]
      cases openers with
      | nil => apply ih
      | cons o openers =>
        rw [List.mem_cons, ih, ClosesOpen, closesOpen_congr hn, closeOffset?_closer_zero,
          or_assoc, Prod.mk.injEq, Option.some.injEq, eq_comm (a := offset)]
        rfl
    · have hn : ∀ n, closeOffset? opener closer offset (0 + n) (l :: ls)
          = closeOffset? opener closer (offset + size l.text) (0 + n) ls := by
        intro n
        rw [closeOffset?_of_ne ho hc]
      rw [if_neg hc, ih, closesOpen_congr hn]
      simp only [ho, false_and, false_or]

end

/-! ## All pairs -/

/-- Whether `closer` closes the groups of braces or of brackets that `opener` opens. -/
def IsPair (opener closer : Char) : Prop :=
  (opener = '{' ∧ closer = '}') ∨ (opener = '[' ∧ closer = ']')

/-- The pairs of a text are those of an opening delimiter and the one that closes it. -/
theorem mem_closes_ofText (a b : Nat) (t : Text) :
  (a, b) ∈ (ofText t).closes
    ↔ ∃ opener closer, IsPair opener closer ∧ ClosesAmong opener closer a b 0 (lexemes t)
  := by
  rw [ofText, mem_pairUp, mem_pairKind (by decide), mem_pairKind (by decide), ClosesOpen,
    ClosesOpen, false_or, false_or]
  constructor
  · rintro (h | h)
    · exact ⟨'{', '}', .inl ⟨rfl, rfl⟩, h⟩
    · exact ⟨'[', ']', .inr ⟨rfl, rfl⟩, h⟩
  · rintro ⟨opener, closer, ⟨rfl, rfl⟩ | ⟨rfl, rfl⟩, h⟩
    · exact .inl h
    · exact .inr h

/-- An offset among the lexemes of a text determines the lexemes before it. -/
theorem before_inj {before before' after after' : List Lexeme}
    (h : before ++ after = before' ++ after')
    (hs : size (ofLexemes before) = size (ofLexemes before')) :
  before = before' ∧ after = after'
  := by
  have hz {ls : List Lexeme} (hl : size (ofLexemes ls) = 0) : ls = [] := by
    cases ls with
    | nil => rfl
    | cons l ls =>
      have hp : 0 < size l.text := by
        cases l <;> apply Nat.add_pos_left (Char.utf8Size_pos _)
      rw [ofLexemes_cons, size_append] at hl
      omega
  rcases List.append_eq_append_iff.mp h with ⟨ls, rfl, rfl⟩ | ⟨ls, rfl, rfl⟩
  · rw [ofLexemes_append, size_append] at hs
    obtain rfl := hz (Nat.left_eq_add.mp hs)
    exact ⟨(List.append_nil _).symm, rfl⟩
  · rw [ofLexemes_append, size_append] at hs
    obtain rfl := hz (Nat.left_eq_add.mp hs.symm)
    exact ⟨List.append_nil _, rfl⟩

/-- An opening delimiter has one closing delimiter. -/
theorem IsPair.closer_inj {opener closer closer' : Char} (h : IsPair opener closer)
    (h' : IsPair opener closer') :
  closer = closer'
  := by
  rcases h with ⟨rfl, rfl⟩ | ⟨rfl, rfl⟩ <;> rcases h' with ⟨h, rfl⟩ | ⟨h, rfl⟩ <;> trivial

/-- Only a brace or a bracket among the lexemes of a text is paired. -/
theorem closeOf?_eq_some {t : Text} {a b : Nat} (h : (ofText t).closeOf? a = some b) :
  ∃ opener closer before inside, IsPair opener closer
    ∧ lexemes t = before ++ .plain opener :: inside
    ∧ a = size (ofLexemes before)
    ∧ closeOffset? opener closer (a + size [opener]) 0 inside = some b
  := by
  obtain ⟨l₁, l₂, hl, _⟩ := List.lookup_eq_some_iff.mp h
  have hm : (a, b) ∈ (ofText t).closes := by
    rw [hl]
    apply List.mem_append_right _ List.mem_cons_self
  obtain ⟨opener, closer, hp, before, inside, ht, ha, hb⟩ := (mem_closes_ofText a b t).mp hm
  rw [Nat.zero_add] at ha
  exact ⟨opener, closer, before, inside, hp, ht, ha, hb⟩

/-- The delimiter that closes a brace or a bracket among the lexemes of a text is found by
counting the delimiters of that kind after it. -/
theorem closeOf?_lexeme {opener closer : Char} (hp : IsPair opener closer) {t : Text}
    {before inside : List Lexeme} (h : lexemes t = before ++ .plain opener :: inside) :
  (ofText t).closeOf? (size (ofLexemes before))
    = closeOffset? opener closer (size (ofLexemes before) + size [opener]) 0 inside
  := by
  have hf {b : Nat} (hb : (ofText t).closeOf? (size (ofLexemes before)) = some b) :
      closeOffset? opener closer (size (ofLexemes before) + size [opener]) 0 inside = some b := by
    obtain ⟨opener', closer', before', inside', hp', h', hs, hc⟩ := closeOf?_eq_some hb
    obtain ⟨rfl, hi⟩ := before_inj (h.symm.trans h') hs
    obtain ⟨⟨⟩, rfl⟩ := List.cons.inj hi
    obtain rfl := hp.closer_inj hp'
    exact hc
  cases hc : closeOffset? opener closer (size (ofLexemes before) + size [opener]) 0 inside with
  | none =>
    cases hb : (ofText t).closeOf? (size (ofLexemes before)) with
    | none => rfl
    | some b =>
      rw [hf hb] at hc
      cases hc
  | some b =>
    have hm : (size (ofLexemes before), b) ∈ (ofText t).closes := by
      apply (mem_closes_ofText _ _ t).mpr
      exact ⟨opener, closer, hp, before, inside, h, (Nat.zero_add _).symm, hc⟩
    obtain ⟨b', hb'⟩ : ∃ b', (ofText t).closeOf? (size (ofLexemes before)) = some b' := by
      apply Option.isSome_iff_exists.mp
      apply List.lookup_isSome_iff.mpr ⟨_, hm, beq_self_eq_true _⟩
    rw [hb', ← hf hb', hc]

/-! ## Groups in a text -/

theorem size_delimiter {opener closer : Char} (hp : IsPair opener closer) :
  size [opener] = 1 ∧ size [closer] = 1
  := by
  rcases hp with ⟨rfl, rfl⟩ | ⟨rfl, rfl⟩ <;> decide

theorem size_append_group {opener closer : Char} (hp : IsPair opener closer)
    (before inner : Text) :
  size (before ++ opener :: (inner ++ [closer])) = size before + 1 + size inner + 1
  := by
  obtain ⟨ho, hc⟩ := size_delimiter hp
  rw [size_cons, size_nil, Nat.add_zero] at ho hc
  simp only [size_append, size_cons, size_nil, ho, hc]
  omega

/-- A pair encloses a part of the text. -/
theorem exists_group_of_closeOf? {before t : Text} {b : Nat}
    (h : (ofText (before ++ t)).closeOf? (size before) = some b) :
  ∃ opener closer inner rest, IsPair opener closer
    ∧ t = opener :: (inner ++ closer :: rest)
    ∧ b = size before + 1 + size inner
  := by
  obtain ⟨opener, closer, ls, inside, hp, hl, hs, hc⟩ := closeOf?_eq_some h
  obtain ⟨⟨inner, rest⟩, hi, hb⟩ := Option.map_eq_some_iff.mp hc
  have ht := ofLexemes_lexemes (before ++ t)
  rw [hl, eq_append_of_closeLexemes hi, ofLexemes_append] at ht
  obtain ⟨_, ht⟩ := append_inj_of_size ht hs.symm
  refine ⟨opener, closer, ofLexemes inner, ofLexemes rest, hp, ?_, ?_⟩
  · rw [← ht, ofLexemes_cons, ofLexemes_append, ofLexemes_cons]
    rfl
  · rw [← hb, (size_delimiter hp).1]

section

variable {text before t : Text}

/-- A recorded group stands between two delimiters that are paired. -/
theorem splitGroup?_eq_some (ht : text = before ++ t) {inner rest : Text}
    (h : (ofText text).splitGroup? (size text) t = some (inner, rest)) :
  ∃ opener closer, IsPair opener closer
    ∧ t = opener :: (inner ++ closer :: rest)
    ∧ (ofText text).closeOf? (size before) = some (size before + 1 + size inner)
  := by
  subst ht
  cases t with
  | nil =>
    rw [splitGroup?] at h
    cases h
  | cons c u =>
    rw [splitGroup?, startOf_append] at h
    dsimp only at h
    split at h
    · rename_i b hb
      obtain ⟨opener, closer, i, r, hp, ht, rfl⟩ := exists_group_of_closeOf? hb
      obtain ⟨rfl, rfl⟩ := List.cons.inj ht
      rw [Nat.add_sub_cancel_left, splitAtByte_size_append] at h
      obtain ⟨rfl, rfl⟩ := Prod.mk.inj (Option.some.inj h)
      exact ⟨c, closer, hp, rfl, hb⟩
    · cases h

/-- Where a pair is recorded, the group between its delimiters is cut off. -/
theorem splitGroup?_of_closeOf? {c d : Char} {inner rest : Text}
    (ht : text = before ++ c :: (inner ++ d :: rest))
    (h : (ofText text).closeOf? (size before) = some (size before + 1 + size inner)) :
  (ofText text).splitGroup? (size text) (c :: (inner ++ d :: rest)) = some (inner, rest)
  := by
  subst ht
  rw [splitGroup?, startOf_append, h]
  dsimp only
  rw [Nat.add_sub_cancel_left, splitAtByte_size_append]
  rfl

/-- Where no pair is recorded, no group is cut off. -/
theorem splitGroup?_of_closeOf?_eq_none {c : Char} (ht : text = before ++ c :: t)
    (h : (ofText text).closeOf? (size before) = none) :
  (ofText text).splitGroup? (size text) (c :: t) = none
  := by
  subst ht
  rw [splitGroup?, startOf_append, h]

/-- Where no group is cut off, no pair is recorded. -/
theorem splitGroup?_eq_none {c : Char} (ht : text = before ++ c :: t)
    (h : (ofText text).splitGroup? (size text) (c :: t) = none) :
  (ofText text).closeOf? (size before) = none
  := by
  subst ht
  rw [splitGroup?, startOf_append] at h
  dsimp only at h
  split at h
  · cases h
  · assumption

end

end DelimiterPairs

namespace Text

/-! ## Characters outside of groups -/

/-- The text is cut before the target, and the parts make up the text. -/
theorem eq_append_of_cutUnquoted {target : Char} {depth : Nat} {ls : List Lexeme}
    {before after : Text} (h : cutUnquoted target depth ls = some (before, after)) :
  ∃ tail, after = target :: tail ∧ ofLexemes ls = before ++ after
  := by
  induction ls generalizing depth before with
  | nil => cases h
  | cons l ls ih =>
    rw [cutUnquoted] at h
    split at h
    · rename_i hl
      rw [Bool.and_eq_true, decide_eq_true_eq, decide_eq_true_eq] at hl
      obtain ⟨rfl, rfl⟩ := Prod.mk.inj (Option.some.inj h)
      rw [List.nil_append, ← hl.2]
      cases l with
      | quoted q tail => exact ⟨tail ++ ofLexemes ls, rfl, rfl⟩
      | plain c => exact ⟨ofLexemes ls, rfl, rfl⟩
    · obtain ⟨⟨u, v⟩, hu, hv⟩ := Option.map_eq_some_iff.mp h
      obtain ⟨rfl, rfl⟩ := Prod.mk.inj hv
      obtain ⟨tail, ht, hl⟩ := ih hu
      refine ⟨tail, ht, ?_⟩
      rw [ofLexemes_cons, hl, List.append_assoc]

/-- A character that is found outside of literals is the first one after the cut. -/
theorem eq_append_of_cutAtUnquoted {target : Char} {t before after : Text}
    (h : cutAtUnquoted target t = some (before, after)) :
  ∃ tail, after = target :: tail ∧ t = before ++ after
  := by
  have h := eq_append_of_cutUnquoted h
  rwa [ofLexemes_lexemes] at h

/-! ## Parts between separators -/

/-- There is at least one part. -/
theorem splitLexemes_ne_nil (separator : Char) (depth : Nat) (ls : List Lexeme) :
  splitLexemes separator depth ls ≠ []
  := by
  cases ls with
  | nil => apply List.cons_ne_nil
  | cons l ls =>
    rw [splitLexemes]
    split
    · apply List.cons_ne_nil
    · split <;> apply List.cons_ne_nil

theorem splitTopLevel_ne_nil (separator : Char) (t : Text) :
  splitTopLevel separator t ≠ []
  := splitLexemes_ne_nil separator 0 (lexemes t)

/-- A lexeme that does not separate goes to the first part. -/
theorem splitLexemes_of_ne {separator : Char} {depth : Nat} {l : Lexeme}
    (h : ¬(l = .plain separator && depth = 0 && !isDelimiter l) = true) (ls : List Lexeme) :
  splitLexemes separator depth (l :: ls)
    = (splitLexemes separator (groupsAfter depth l) ls).modifyHead (l.text ++ ·)
  := by
  obtain ⟨part, parts, hp⟩ :=
    List.exists_cons_of_ne_nil (splitLexemes_ne_nil separator (groupsAfter depth l) ls)
  rw [splitLexemes, if_neg h, hp]
  rfl

/-- A separator at the top level ends a part. -/
theorem splitLexemes_separator {separator : Char} (hd : isDelimiter (.plain separator) = false)
    (ls : List Lexeme) :
  splitLexemes separator 0 (.plain separator :: ls) = [] :: splitLexemes separator 0 ls
  := by
  rw [splitLexemes, hd, decide_eq_true rfl]
  rfl

theorem groupsAfter_of_isDelimiter_eq_false {l : Lexeme} (hd : isDelimiter l = false)
    (depth : Nat) :
  groupsAfter depth l = depth
  := by
  simp only [isDelimiter, Bool.or_eq_false_iff] at hd
  simp only [groupsAfter, hd, Bool.or_false, if_neg Bool.false_ne_true]

/-- Nothing but the separator stands between two parts. -/
theorem intercalate_splitLexemes (separator : Char) (depth : Nat) (ls : List Lexeme) :
  [separator].intercalate (splitLexemes separator depth ls) = ofLexemes ls
  := by
  induction ls generalizing depth with
  | nil => exact List.intercalate_singleton
  | cons l ls ih =>
    by_cases h : (l = .plain separator && depth = 0 && !isDelimiter l) = true
    · obtain ⟨part, parts, hp⟩ :=
        List.exists_cons_of_ne_nil (splitLexemes_ne_nil separator depth ls)
      rw [splitLexemes, if_pos h, ofLexemes_cons, ← ih depth, hp, List.intercalate_cons_cons]
      rw [Bool.and_eq_true, Bool.and_eq_true, decide_eq_true_eq] at h
      rw [h.1.1]
      rfl
    · obtain ⟨part, parts, hp⟩ :=
        List.exists_cons_of_ne_nil (splitLexemes_ne_nil separator (groupsAfter depth l) ls)
      rw [splitLexemes_of_ne h, ofLexemes_cons, ← ih (groupsAfter depth l), hp,
        List.modifyHead_cons]
      cases parts with
      | nil => rw [List.intercalate_singleton, List.intercalate_singleton]
      | cons q parts =>
        rw [List.intercalate_cons_cons, List.intercalate_cons_cons, List.append_assoc,
          List.append_assoc, List.append_assoc]

/-- The parts, with the separator between them, make up the text. -/
theorem intercalate_splitTopLevel (separator : Char) (t : Text) :
  [separator].intercalate (splitTopLevel separator t) = t
  := by
  rw [splitTopLevel, intercalate_splitLexemes, ofLexemes_lexemes]

/-- With a separator behind the last item of a list too, every item has one behind it. -/
theorem intercalate_append_separator (c : Char) {parts : List Text} (h : parts ≠ []) :
  [c].intercalate parts ++ [c] = parts.flatMap fun part => part ++ [c]
  := by
  induction parts with
  | nil => exact absurd rfl h
  | cons part parts ih =>
    cases parts with
    | nil => rw [List.intercalate_singleton, List.flatMap_singleton]
    | cons p parts =>
      rw [List.flatMap_cons, List.intercalate_cons_cons, List.append_assoc,
        ih (List.cons_ne_nil _ _)]

end Text

end DatabaseMarkup
