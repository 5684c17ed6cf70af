import DatabaseMarkup.Proofs.Text.Nesting
import DatabaseMarkup.Proofs.Text.Seam

/-!
# One pass over all delimiters

`DelimiterPairs.ofText` pairs all braces and brackets of a text in one pass with a stack for each
kind, and `Text.matchingClose?` looks for the end of a single group by counting.  Both find what
`closeLexemes` finds among the lexemes behind the opening delimiter.  From there they agree wherever
the pass meets a brace or a bracket, and pairs of one kind are nested.
-/

namespace DatabaseMarkup

open Text

namespace Text

/-- Whether a text has the given brace or bracket at `a`, outside of its literals. -/
def OpensAt (t : Text) (opener : Char) (a : Nat) : Prop :=
  (opener = '{' ∨ opener = '[')
    ∧ ∃ before after, lexemes t = before ++ .plain opener :: after ∧ a = size (ofLexemes before)

/-- Whether one of two groups ends before the other one begins or is inside of it.  The groups are
given by the offsets of their delimiters. -/
def DisjointOrNested (a b a' b' : Nat) : Prop :=
  b < a' ∨ b' < a ∨ (a < a' ∧ b' < b) ∨ (a' < a ∧ b < b')

/-! ## The direct matcher -/

/-- Behind a prefix, at its size, stands the rest. -/
theorem fromByte?_size_append (s t : Text) :
  fromByte? (size s) (s ++ t) = some t
  := by
  rw [fromByte?, splitAtByte_size_append]
  apply if_pos rfl

/-- The lexemes behind some of those of a text are the lexemes of the text that they make up. -/
theorem lexemes_ofLexemes {t : Text} {before after : List Lexeme}
    (h : lexemes t = before ++ after) :
  lexemes (ofLexemes after) = after
  := by
  induction before generalizing t with
  | nil =>
    rw [List.nil_append] at h
    rw [← h, ofLexemes_lexemes]
  | cons l before ih =>
    cases t with
    | nil =>
      rw [lexemes] at h
      cases h
    | cons c t =>
      rw [lexemes_cons] at h
      exact ih (List.cons.inj h).2

theorem closerOf?_eq_some {opener closer : Char} (hp : DelimiterPairs.IsPair opener closer) :
  closerOf? opener = some closer
  := by
  rcases hp with ⟨rfl, rfl⟩ | ⟨rfl, rfl⟩
  · rfl
  · rfl

/-- The delimiter that closes a brace or a bracket is found by counting the delimiters of that kind
among the lexemes after it. -/
theorem matchingClose?_lexeme {opener closer : Char} (hp : DelimiterPairs.IsPair opener closer)
    {t : Text} {before inside : List Lexeme} (h : lexemes t = before ++ .plain opener :: inside) :
  t.matchingClose? (size (ofLexemes before))
    = closeOffset? opener closer (size (ofLexemes before) + size [opener]) 0 inside
  := by
  have ht : t = ofLexemes before ++ opener :: ofLexemes inside := by
    rw [← ofLexemes_lexemes t, h, ofLexemes_append]
    rfl
  have hi : lexemes (ofLexemes inside) = inside := by
    have hl : lexemes t = before ++ [.plain opener] ++ inside := by
      rw [h, List.append_assoc, List.singleton_append]
    exact lexemes_ofLexemes hl
  have hquote : isQuote opener = false ∧ isQuote closer = false := by
    rcases hp with ⟨rfl, rfl⟩ | ⟨rfl, rfl⟩
    · exact ⟨rfl, rfl⟩
    · exact ⟨rfl, rfl⟩
  rw [ht, matchingClose?, fromByte?_size_append, closeOffset?, (DelimiterPairs.size_delimiter hp).1]
  dsimp only [Option.bind_eq_bind, Option.bind_some]
  rw [splitGroup?, closerOf?_eq_some hp]
  dsimp only
  rw [closeGroup_eq hquote.1 hquote.2, hi]
  cases closeLexemes opener closer 0 inside with
  | none => rfl
  | some group => rfl

/-! ## Groups of one kind -/

section

variable {opener closer opener' closer' : Char} {t : Text} {a b a' b' : Nat}

/-- The second of two delimiters that are paired is a lexeme of its own. -/
theorem HasGroup.exists_closer (hp : DelimiterPairs.IsPair opener closer)
    (h : HasGroup opener t a b) :
  ∃ before after, lexemes t = before ++ .plain closer :: after
    ∧ b = size (ofLexemes before) ∧ a < b
  := by
  obtain ⟨before, inner, rest, hl, rfl, rfl, _⟩ := h.exists_inner hp
  refine ⟨before ++ .plain opener :: inner, rest, ?_, ?_, ?_⟩
  · rw [hl, List.append_assoc, List.cons_append]
  · have ho : size (Lexeme.plain opener).text = 1 := (DelimiterPairs.size_delimiter hp).1
    rw [ofLexemes_append, size_append, ofLexemes_cons, size_append, ho, Nat.add_assoc]
  · omega

/-- A group closes behind where it opens. -/
theorem HasGroup.lt (hp : DelimiterPairs.IsPair opener closer) (h : HasGroup opener t a b) :
  a < b
  := by
  obtain ⟨_, _, _, _, hlt⟩ := h.exists_closer hp
  exact hlt

/-- A delimiter does not open a group where one of its kind is closed. -/
theorem HasGroup.ne (hp : DelimiterPairs.IsPair opener closer) (h : HasGroup opener t a b)
    (h' : HasGroup opener t a' b') :
  b ≠ a'
  := by
  intro he
  obtain ⟨before, after, hl, rfl, _⟩ := h.exists_closer hp
  obtain ⟨before', after', hl', hs, _⟩ := h'
  obtain ⟨_, hc⟩ := DelimiterPairs.before_inj (hl.symm.trans hl') (he.trans hs)
  obtain ⟨⟨⟩, -⟩ := List.cons.inj hc
  rcases hp with ⟨ho, hc⟩ | ⟨ho, hc⟩
  · cases ho.symm.trans hc
  · cases ho.symm.trans hc

/-- A group that begins behind another one of its kind is disjoint from it or inside of it. -/
theorem HasGroup.lt_or_lt (hp : DelimiterPairs.IsPair opener closer) (h : HasGroup opener t a b)
    (h' : HasGroup opener t a' b') (ha : a < a') :
  b < a' ∨ b' < b
  := by
  rcases Nat.lt_trichotomy b a' with hlt | he | hgt
  · exact .inl hlt
  · exact absurd he (h.ne hp h')
  · right
    obtain ⟨before, after, hl, rfl, hb'⟩ := h'
    obtain ⟨c, hc, hlt⟩ := h.exists_of_lt hp hl ha hgt
    obtain rfl := Option.some.inj (hb'.symm.trans hc)
    exact hlt

/-- Two groups of one kind are the same, disjoint or nested. -/
theorem HasGroup.disjointOrNested (hp : DelimiterPairs.IsPair opener closer)
    (h : HasGroup opener t a b) (h' : HasGroup opener t a' b') :
  (a, b) = (a', b') ∨ DisjointOrNested a b a' b'
  := by
  rcases Nat.lt_trichotomy a a' with hlt | rfl | hgt
  · right
    rcases h.lt_or_lt hp h' hlt with hb | hb
    · exact .inl hb
    · exact .inr (.inr (.inl ⟨hlt, hb⟩))
  · left
    obtain ⟨_, _, _, _, hb⟩ := h
    obtain ⟨_, _, _, _, hb'⟩ := h'
    rw [Option.some.inj (hb.symm.trans hb')]
  · right
    rcases h'.lt_or_lt hp h hgt with hb | hb
    · exact .inr (.inl hb)
    · exact .inr (.inr (.inr ⟨hgt, hb⟩))

/-- A delimiter closes one group only. -/
theorem HasGroup.eq (hp : DelimiterPairs.IsPair opener closer)
    (hp' : DelimiterPairs.IsPair opener' closer') (h : HasGroup opener t a b)
    (h' : HasGroup opener' t a' b) :
  a = a'
  := by
  have ho : opener = opener' := by
    obtain ⟨before, after, hl, hb, _⟩ := h.exists_closer hp
    obtain ⟨before', after', hl', hb', _⟩ := h'.exists_closer hp'
    obtain ⟨_, hc⟩ := DelimiterPairs.before_inj (hl.symm.trans hl') (hb.symm.trans hb')
    obtain ⟨⟨⟩, -⟩ := List.cons.inj hc
    rcases hp with ⟨rfl, rfl⟩ | ⟨rfl, rfl⟩ <;> rcases hp' with ⟨rfl, hc⟩ | ⟨rfl, hc⟩ <;> trivial
  subst ho
  have hlt := h.lt hp
  have hlt' := h'.lt hp
  rcases h.disjointOrNested hp h' with he | hd
  · exact (Prod.mk.inj he).1
  · rw [DisjointOrNested] at hd
    omega

end

end Text

namespace DelimiterPairs

/-- A recorded pair is the one that is looked up at its opening delimiter. -/
theorem mem_closes_iff {t : Text} {a b : Nat} :
  (a, b) ∈ (ofText t).closes ↔ (ofText t).closeOf? a = some b
  := by
  constructor
  · intro h
    obtain ⟨opener, closer, hp, before, inside, hl, ha, hc⟩ := (mem_closes_ofText a b t).mp h
    rw [Nat.zero_add] at ha
    exact closeOf?_eq_some_iff.mpr ⟨opener, closer, before, inside, hp, hl, ha, hc⟩
  · intro h
    obtain ⟨before, after, hl, _⟩ := List.lookup_eq_some_iff.mp h
    rw [hl]
    apply List.mem_append_right _ List.mem_cons_self

theorem exists_isPair {opener : Char} (h : opener = '{' ∨ opener = '[') :
  ∃ closer, IsPair opener closer
  := by
  rcases h with rfl | rfl
  · exact ⟨'}', .inl ⟨rfl, rfl⟩⟩
  · exact ⟨']', .inr ⟨rfl, rfl⟩⟩

/-- A pair is only recorded at an opening delimiter. -/
theorem opensAt_of_closeOf? {t : Text} {a b : Nat} (h : (ofText t).closeOf? a = some b) :
  ∃ opener, OpensAt t opener a
  := by
  obtain ⟨opener, closer, before, inside, hp, hl, ha, _⟩ := closeOf?_eq_some h
  exact ⟨opener, hp.imp And.left And.left, before, inside, hl, ha⟩

/-- What is paired is a group. -/
theorem hasGroup_of_mem_closes {t : Text} {a b : Nat} (h : (a, b) ∈ (ofText t).closes) :
  ∃ opener closer, IsPair opener closer ∧ HasGroup opener t a b
  := by
  have hb := mem_closes_iff.mp h
  obtain ⟨opener, closer, before, inside, hp, hl, ha, _⟩ := closeOf?_eq_some hb
  exact ⟨opener, closer, hp, before, inside, hl, ha, hb⟩

end DelimiterPairs

open DelimiterPairs

/-- The pairs of a text agree with the direct matcher on every brace or bracket outside of the
literals of the text, and nothing else is paired, in particular nothing inside of a literal.  No
delimiter closes two others, and two pairs of one kind are disjoint or nested. -/
theorem pairs_agree_with_matching (t : Text) :
  let pairs := DelimiterPairs.ofText t
  (∀ a, (∃ opener, OpensAt t opener a) → pairs.closeOf? a = t.matchingClose? a)
    ∧ (∀ a, (¬∃ opener, OpensAt t opener a) → pairs.closeOf? a = none)
    ∧ (∀ a b c, HasLiteral t a b → a ≤ c → c < b → pairs.closeOf? c = none)
    ∧ (∀ a a' b, (a, b) ∈ pairs.closes → (a', b) ∈ pairs.closes → a = a')
    ∧ ∀ opener a b a' b', OpensAt t opener a → OpensAt t opener a' →
        (a, b) ∈ pairs.closes → (a', b') ∈ pairs.closes →
        (a, b) = (a', b') ∨ DisjointOrNested a b a' b'
  := by
  intro pairs
  have hnone {a : Nat} (h : ¬∃ opener, OpensAt t opener a) : pairs.closeOf? a = none := by
    apply Option.eq_none_iff_forall_ne_some.mpr
    intro b hb
    exact h (opensAt_of_closeOf? hb)
  refine ⟨?_, fun _ => hnone, ?_, ?_, ?_⟩
  · rintro _ ⟨opener, ho, before, inside, hl, rfl⟩
    obtain ⟨closer, hp⟩ := exists_isPair ho
    rw [closeOf?_lexeme hp hl, matchingClose?_lexeme hp hl]
  · intro a b c hlit ha hb
    apply hnone
    rintro ⟨opener, ho, before, inside, hl, rfl⟩
    -- a lexeme that is no literal does not begin where a literal does
    obtain ⟨ls, quote, tail, ms, hls, rfl, rfl⟩ := hlit
    rcases HasLiteral.le_or_le ⟨ls, quote, tail, ms, hls, rfl, rfl⟩ hl with h | h
    · obtain ⟨_, hc⟩ := DelimiterPairs.before_inj (hl.symm.trans hls) (Nat.le_antisymm h ha)
      cases (List.cons.inj hc).1
    · omega
  · intro a a' b h h'
    obtain ⟨opener, closer, hp, hg⟩ := hasGroup_of_mem_closes h
    obtain ⟨opener', closer', hp', hg'⟩ := hasGroup_of_mem_closes h'
    exact hg.eq hp hp' hg'
  · intro opener a b a' b' ⟨ho, before, inside, hl, ha⟩ ⟨_, before', inside', hl', ha'⟩ h h'
    obtain ⟨closer, hp⟩ := exists_isPair ho
    exact HasGroup.disjointOrNested hp ⟨before, inside, hl, ha, mem_closes_iff.mp h⟩
      ⟨before', inside', hl', ha', mem_closes_iff.mp h'⟩

/-- Groups of different kinds may cross.  The direct matcher also finds the end of a group inside of
a literal, and neither finds the end of a group that is not closed. -/
theorem pairs_of_crossing_groups :
  let t : Text := "\x7b[\x7d]\x27\x7b\x7d\x27\x7b\x7b\x7d".toList
  let pairs := DelimiterPairs.ofText t
  pairs.closes = [(0, 2), (1, 3), (9, 10)]
    ∧ (matchingClose? t 1 = some 3 ∧ pairs.closeOf? 1 = matchingClose? t 1)
    ∧ (matchingClose? t 5 = some 6 ∧ pairs.closeOf? 5 = none)
    ∧ (matchingClose? t 8 = none ∧ pairs.closeOf? 8 = matchingClose? t 8)
    ∧ ((0, 2) = (9, 10) ∨ DisjointOrNested 0 2 9 10)
  := by
  intro t pairs
  obtain ⟨hopener, _, hliteral, _, hnested⟩ := pairs_agree_with_matching t
  have hlexemes : lexemes t = [.plain '{', .plain '[', .plain '}', .plain ']',
      .quoted apostrophe ['{', '}', apostrophe], .plain '{', .plain '{',
      .plain '}'] := by decide +kernel
  have hcloses : pairs.closes = [(0, 2), (1, 3), (9, 10)] := by decide +kernel
  have hfirst : OpensAt t '{' 0 := ⟨.inl rfl, [], _, hlexemes, rfl⟩
  have hbracket : OpensAt t '[' 1 := ⟨.inr rfl, [.plain '{'], _, hlexemes, rfl⟩
  have hquoted : HasLiteral t 4 8 :=
    ⟨[.plain '{', .plain '[', .plain '}', .plain ']'], _, _, _, hlexemes, rfl, rfl⟩
  have hopen : OpensAt t '{' 8 :=
    ⟨.inl rfl, [.plain '{', .plain '[', .plain '}', .plain ']',
      .quoted apostrophe ['{', '}', apostrophe]], _, hlexemes, rfl⟩
  have hlast : OpensAt t '{' 9 :=
    ⟨.inl rfl, [.plain '{', .plain '[', .plain '}', .plain ']',
      .quoted apostrophe ['{', '}', apostrophe], .plain '{'], _, hlexemes, rfl⟩
  refine ⟨hcloses, ⟨by decide +kernel, hopener 1 ⟨_, hbracket⟩⟩,
    ⟨by decide +kernel, hliteral 4 8 5 hquoted (by decide) (by decide)⟩,
    ⟨by decide +kernel, hopener 8 ⟨_, hopen⟩⟩, ?_⟩
  apply hnested '{' 0 2 9 10 hfirst hlast
  · rw [hcloses]
    decide
  · rw [hcloses]
    decide

end DatabaseMarkup
