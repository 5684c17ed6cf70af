import DatabaseMarkup.Proofs.Text.Delimiter
import Mathlib.Data.List.Infix

/-!
# Two texts joined by a newline

A literal on one line does not reach over a newline behind a text, and `Text.lexemes_append_newline`
states that the lexemes of two texts which a newline joins are those of the one and of the other.
The delimiters of the second text are then paired as they are in that text alone, whatever is open in
front of it, and those of the first text are if nothing in it stays open.
-/

namespace DatabaseMarkup

open Text

/-- The lexeme of three apostrophes that are not closed. -/
def Lexeme.loneTripleQuote : Lexeme :=
  .quoted apostrophe [apostrophe, apostrophe]

namespace Text

/-- Whether the lexemes of a text end where the text does, if a newline follows it: it does not end
with a backslash, and none of its literals waits for three apostrophes. -/
structure ClosesLiterals (s : Text) : Prop where
  backslash : ¬['\\'] <:+ s
  tripleQuote : Lexeme.loneTripleQuote ∉ lexemes s

/-- Whether every brace and every bracket of a text, outside of its literals, is closed. -/
def ClosesGroups (s : Text) : Prop :=
  ∀ before opener after, lexemes s = before ++ .plain opener :: after →
    opener = '{' ∨ opener = '[' → ((DelimiterPairs.ofText s).closeOf? (size (ofLexemes before))).isSome

/-- Whether no brace of a text, outside of its literals, closes one in front of the text. -/
def ClosesOwnBraces (t : Text) : Prop :=
  ∀ ls, ls <+: lexemes t → ls.count (.plain '}') ≤ ls.count (.plain '{')

instance : DecidablePred ClosesOwnBraces :=
  fun t => decidable_of_iff
    (∀ ls ∈ (lexemes t).inits, ls.count (.plain '}') ≤ ls.count (.plain '{'))
    (forall_congr' fun ls => by rw [List.mem_inits])

/-- A text closes its groups when every opening brace or bracket among its lexemes has its closing
delimiter recorded. -/
theorem closesGroups_iff {s : Text} :
  ClosesGroups s ↔ ∀ n < (lexemes s).length,
    (lexemes s)[n]? = some (.plain '{') ∨ (lexemes s)[n]? = some (.plain '[') →
      ((DelimiterPairs.ofText s).closeOf? (size (ofLexemes ((lexemes s).take n)))).isSome
  := by
  constructor
  · intro h n hn ho
    have hl := List.take_append_drop n (lexemes s)
    rw [List.drop_eq_getElem_cons hn] at hl
    rw [List.getElem?_eq_getElem hn, Option.some.injEq, Option.some.injEq] at ho
    rcases ho with ho | ho
    · rw [ho] at hl
      apply h _ _ _ hl.symm (.inl rfl)
    · rw [ho] at hl
      apply h _ _ _ hl.symm (.inr rfl)
  · intro h before opener after hl ho
    have hn := h before.length
    rw [hl, List.length_append, List.length_cons, List.getElem?_append_right (Nat.le_refl _),
      Nat.sub_self, List.take_left, List.getElem?_cons_zero] at hn
    apply hn (Nat.lt_add_of_pos_right (Nat.succ_pos _))
    rcases ho with rfl | rfl
    · exact .inl rfl
    · exact .inr rfl

instance : DecidablePred ClosesGroups :=
  fun _ => decidable_of_iff _ closesGroups_iff.symm

/-! ## Lexemes -/

/-- A literal on a line without a trailing backslash does not reach the next line. -/
theorem closeLine_append_newline {quote : Char} (hq : isQuote quote) {t : Text}
    (ht : ¬['\\'] <:+ t) (u : Text) :
  closeLine quote (t ++ '\n' :: u)
    = (closeLine quote t).map fun (inner, rest) => (inner, rest ++ '\n' :: u)
  := by
  have htail {c : Char} {v : Text} (h : ¬['\\'] <:+ c :: v) : ¬['\\'] <:+ v :=
    fun hv => h (hv.trans (List.suffix_cons c v))
  fun_induction closeLine quote t with
  | case1 =>
    rw [List.nil_append, closeLine_newline]
    rfl
  | case2 t =>
    rw [List.cons_append, closeLine_newline]
    rfl
  | case3 c _ hb =>
    simp only [Bool.and_eq_true, decide_eq_true_eq] at hb
    rw [hb.1] at ht
    exact absurd List.suffix_rfl ht
  | case4 c _ hb d v ih =>
    simp only [Bool.and_eq_true, decide_eq_true_eq, bne_iff_ne] at hb
    obtain ⟨rfl, hb⟩ := hb
    rw [List.cons_append, List.cons_append, closeLine_escape hb, ih (htail (htail ht)),
      Option.map_map, Option.map_map]
    rfl
  | case5 v =>
    rw [List.cons_append, closeLine_quote hq]
    rfl
  | case6 c v hn hb hc ih =>
    rw [List.cons_append, closeLine_of_ne hn hb hc, ih (htail ht), Option.map_map, Option.map_map]
    rfl

theorem isPrefixOf_append_newline (t u : Text) :
  [apostrophe, apostrophe].isPrefixOf (t ++ '\n' :: u) = [apostrophe, apostrophe].isPrefixOf t
  := by
  match t with
  | [] => rfl
  | [c] => rfl
  | c :: d :: t => rfl

/-- The first lexeme of a text is the same before a newline, unless it waits for three
apostrophes. -/
theorem first_append_newline {c : Char} {t : Text} (ht : ¬['\\'] <:+ t)
    (hl : (Lexeme.first c t).1 ≠ Lexeme.loneTripleQuote) (u : Text) :
  Lexeme.first c (t ++ '\n' :: u) = ((Lexeme.first c t).1, (Lexeme.first c t).2 ++ '\n' :: u)
  := by
  rw [Lexeme.first, Lexeme.first, isPrefixOf_append_newline] at *
  split at hl
  · rename_i hp
    rw [if_pos hp, if_pos hp]
    rw [Bool.and_eq_true, decide_eq_true_eq] at hp
    obtain ⟨rfl, hp⟩ := hp
    obtain ⟨v, rfl⟩ := List.isPrefixOf_iff_prefix.mp hp
    simp only [List.cons_append, List.nil_append, List.drop_succ_cons, List.drop_zero] at hl ⊢
    cases hc : cutAtMark tripleQuote v with
    | none =>
      rw [hc] at hl
      exact absurd rfl hl
    | some cut =>
      have h := (cutAtMark_eq_some_iff (List.cons_ne_nil _ _)).mp hc
      have hu : cutAtMark tripleQuote (v ++ '\n' :: u) = some (cut.1, cut.2 ++ '\n' :: u) := by
        apply (cutAtMark_eq_some_iff (List.cons_ne_nil _ _)).mpr
        refine ⟨?_, h.2⟩
        rw [h.1]
        simp only [List.append_assoc]
      rw [hu]
  · rename_i hp
    rw [if_neg hp, if_neg hp]
    split
    · rename_i hq
      rw [closeLine_append_newline hq ht]
      cases closeLine c t <;> rfl
    · rfl

/-- The lexemes of two texts that a newline joins. -/
theorem lexemes_append_newline {s : Text} (hs : ClosesLiterals s) (u : Text) :
  lexemes (s ++ '\n' :: u) = lexemes s ++ .plain '\n' :: lexemes u
  := by
  obtain ⟨hb, hq⟩ := hs
  fun_induction lexemes s with
  | case1 => rw [List.nil_append, List.nil_append, lexemes_cons, Lexeme.first_plain rfl]
  | case2 c t ih =>
    obtain ⟨hf, hr⟩ := not_or.mp (mt List.mem_cons.mpr hq)
    have htext := Lexeme.text_first_append c t
    have hrest : (Lexeme.first c t).2 <:+ c :: t := ⟨_, htext⟩
    have ht : ¬['\\'] <:+ t := fun h => hb (h.trans (List.suffix_cons c t))
    rw [List.cons_append, lexemes_cons, first_append_newline ht (Ne.symm hf)]
    dsimp only
    rw [ih (fun h => hb (h.trans hrest)) hr, List.cons_append]

/-- A lexeme of several characters ends with a quote. -/
theorem plain_or_isQuote_getLast (c : Char) (t : Text) :
  (∃ d, (Lexeme.first c t).1 = .plain d)
    ∨ ∃ u quote, (Lexeme.first c t).1.text = u ++ [quote] ∧ isQuote quote
  := by
  rw [Lexeme.first]
  split
  · right
    split
    · rename_i inner rest _
      exact ⟨c :: ([apostrophe, apostrophe] ++ inner ++ [apostrophe, apostrophe]), apostrophe,
        by simp [Lexeme.text], rfl⟩
    · exact ⟨[c, apostrophe], apostrophe, rfl, rfl⟩
  · split
    · rename_i hq
      right
      split
      · rename_i inner rest _
        exact ⟨c :: inner, c, rfl, hq⟩
      · exact ⟨[], c, rfl, hq⟩
    · exact .inl ⟨c, rfl⟩

/-- A character at the end of a text is a lexeme of its own if it is no quote. -/
theorem exists_lexemes_concat {c : Char} (hc : isQuote c = false) {t u : Text}
    (ht : t = u ++ [c]) :
  ∃ ls, lexemes t = ls ++ [.plain c]
  := by
  fun_induction lexemes t generalizing u with
  | case1 => exact absurd ht.symm (List.append_ne_nil_of_right_ne_nil _ (List.cons_ne_nil _ _))
  | case2 d t ih =>
    have htext := Lexeme.text_first_append d t
    have hlast := plain_or_isQuote_getLast d t
    generalize Lexeme.first d t = first at ih htext hlast
    obtain ⟨l, rest⟩ := first
    dsimp only at ih htext hlast ⊢
    rw [ht] at htext
    rcases List.eq_nil_or_concat rest with rfl | ⟨v, e, rfl⟩
    · rw [List.append_nil] at htext
      rcases hlast with ⟨e, rfl⟩ | ⟨v, quote, hv, hq⟩
      · have hone : [] ++ [e] = u ++ [c] := htext
        obtain ⟨-, he⟩ := List.append_inj' hone rfl
        obtain ⟨rfl, -⟩ := List.cons.inj he
        use []
        rw [lexemes]
        rfl
      · rw [htext] at hv
        obtain ⟨-, he⟩ := List.append_inj' hv rfl
        obtain ⟨rfl, -⟩ := List.cons.inj he
        rw [hc] at hq
        cases hq
    · rw [List.concat_eq_append, ← List.append_assoc] at htext
      obtain ⟨-, he⟩ := List.append_inj' htext rfl
      obtain ⟨rfl, -⟩ := List.cons.inj he
      obtain ⟨ls, hls⟩ := ih (List.concat_eq_append ..)
      use l :: ls
      rw [hls, List.cons_append]

end Text

namespace DelimiterPairs

/-! ## Pairs -/

section

variable {opener closer : Char} {depth : Nat} {ls : List Lexeme}

/-- A group that is closed stays so before further lexemes. -/
theorem closeLexemes_append_right {inner rest : List Lexeme}
    (h : closeLexemes opener closer depth ls = some (inner, rest)) (ms : List Lexeme) :
  closeLexemes opener closer depth (ls ++ ms) = some (inner, rest ++ ms)
  := by
  fun_induction closeLexemes opener closer depth ls generalizing inner with
  | case1 => cases h
  | case2 ls =>
    obtain ⟨rfl, rfl⟩ := Prod.mk.inj (Option.some.inj h)
    rw [List.cons_append, closeLexemes_closer_zero]
  | case3 ls depth ih =>
    obtain ⟨⟨i, r⟩, hi, hr⟩ := Option.map_eq_some_iff.mp h
    obtain ⟨rfl, rfl⟩ := Prod.mk.inj hr
    rw [List.cons_append, closeLexemes_closer_succ, ih hi]
    rfl
  | case4 depth l ls hc ih =>
    obtain ⟨⟨i, r⟩, hi, hr⟩ := Option.map_eq_some_iff.mp h
    obtain ⟨rfl, rfl⟩ := Prod.mk.inj hr
    rw [List.cons_append, closeLexemes_ne_closer hc, ih hi]
    rfl

/-- Nothing closes a group behind which the delimiters keep the balance. -/
theorem closeLexemes_eq_none (hd : opener ≠ closer)
    (h : ∀ ms, ms <+: ls → ms.count (.plain closer) ≤ ms.count (.plain opener) + depth) :
  closeLexemes opener closer depth ls = none
  := by
  have hne : Lexeme.plain closer ≠ .plain opener := fun he => hd (Lexeme.plain.inj he).symm
  fun_induction closeLexemes opener closer depth ls with
  | case1 => rfl
  | case2 ls =>
    have hm := h [.plain closer] (List.prefix_append _ ls)
    rw [List.count_cons_self, List.count_cons_of_ne hne] at hm
    cases hm
  | case3 ls depth ih =>
    rw [ih, Option.map_none]
    intro ms hms
    have hm := h (.plain closer :: ms) ((List.prefix_cons_inj _).mpr hms)
    rw [List.count_cons_self, List.count_cons_of_ne hne] at hm
    omega
  | case4 depth l ls hc ih =>
    rw [ih, Option.map_none]
    intro ms hms
    have hm := h (l :: ms) ((List.prefix_cons_inj _).mpr hms)
    rw [List.count_cons_of_ne hc, List.count_cons] at hm
    split
    · rename_i ho
      rw [if_pos (beq_iff_eq.mpr ho)] at hm
      omega
    · rename_i ho
      rw [if_neg (mt beq_iff_eq.mp ho)] at hm
      omega

/-- The place where a group closes moves with the lexemes. -/
theorem closeOffset?_add (n offset : Nat) :
  closeOffset? opener closer (n + offset) depth ls
    = (closeOffset? opener closer offset depth ls).map (n + ·)
  := by
  rw [closeOffset?, closeOffset?, Option.map_map]
  congr 1
  funext group
  exact Nat.add_assoc n offset _

end

/-- What closes a brace or a bracket of a text is found among the lexemes behind it. -/
theorem closeOf?_eq_some_iff {t : Text} {a b : Nat} :
  (ofText t).closeOf? a = some b
    ↔ ∃ opener closer before inside, IsPair opener closer
      ∧ lexemes t = before ++ .plain opener :: inside
      ∧ a = size (ofLexemes before)
      ∧ closeOffset? opener closer (a + size [opener]) 0 inside = some b
  := by
  constructor
  · intro h
    apply closeOf?_eq_some h
  · rintro ⟨opener, closer, before, inside, hp, hl, rfl, hc⟩
    rw [closeOf?_lexeme hp hl, hc]

/-- Of two cuts between lexemes, the later one cuts the lexemes behind the first one. -/
theorem exists_append_of_size_le {ls ms before after : List Lexeme}
    (h : ls ++ ms = before ++ after) (hs : size (ofLexemes ls) ≤ size (ofLexemes before)) :
  ∃ more, before = ls ++ more ∧ ms = more ++ after
  := by
  rcases List.append_eq_append_iff.mp h with ⟨more, hb, hm⟩ | ⟨more, rfl, _⟩
  · exact ⟨more, hb, hm⟩
  · rw [ofLexemes_append, size_append] at hs
    have hz : size (ofLexemes (before ++ more)) = size (ofLexemes before) := by
      rw [ofLexemes_append, size_append]
      omega
    obtain ⟨hb, rfl⟩ := before_inj h hz
    exact ⟨[], by rw [List.append_nil, hb], rfl⟩

section

variable {s t : Text} {ls ms : List Lexeme} {a b : Nat}

/-- The delimiters at the end of a text are paired as they are there alone, whatever is open in
front of them. -/
theorem closeOf?_behind (ht : lexemes t = ls ++ lexemes s) (a : Nat) :
  (ofText t).closeOf? (size (ofLexemes ls) + a)
    = ((ofText s).closeOf? a).map (size (ofLexemes ls) + ·)
  := by
  apply Option.ext
  intro b
  rw [closeOf?_eq_some_iff, Option.map_eq_some_iff]
  constructor
  · rintro ⟨opener, closer, before, inside, hp, hl, ha, hc⟩
    obtain ⟨more, rfl, hs⟩ :=
      exists_append_of_size_le (ht.symm.trans hl) (Nat.le.intro ha)
    rw [ofLexemes_append, size_append, Nat.add_left_cancel_iff] at ha
    rw [Nat.add_assoc, closeOffset?_add] at hc
    obtain ⟨c, hc, hb⟩ := Option.map_eq_some_iff.mp hc
    use c
    exact ⟨closeOf?_eq_some_iff.mpr ⟨opener, closer, more, inside, hp, hs, ha, hc⟩, hb⟩
  · rintro ⟨c, hc, rfl⟩
    obtain ⟨opener, closer, before, inside, hp, hl, rfl, hc⟩ := closeOf?_eq_some hc
    refine ⟨opener, closer, ls ++ before, inside, hp, ?_, ?_, ?_⟩
    · rw [ht, hl, List.append_assoc]
    · rw [ofLexemes_append, size_append]
    · rw [Nat.add_assoc, closeOffset?_add, hc]
      rfl

/-- A delimiter that is closed at the start of a text is closed there. -/
theorem closeOf?_of_append (ht : lexemes t = lexemes s ++ ms)
    (h : (ofText s).closeOf? a = some b) :
  (ofText t).closeOf? a = some b
  := by
  obtain ⟨opener, closer, before, inside, hp, hl, ha, hc⟩ := closeOf?_eq_some h
  obtain ⟨⟨inner, rest⟩, hi, hb⟩ := Option.map_eq_some_iff.mp hc
  apply closeOf?_eq_some_iff.mpr
  refine ⟨opener, closer, before, inside ++ ms, hp, ?_, ha, ?_⟩
  · rw [ht, hl, List.append_assoc, List.cons_append]
  · rw [closeOffset?, closeLexemes_append_right hi, ← hb]
    rfl

/-- The delimiters at the start of a text are paired as they are there alone if all of them are
closed there. -/
theorem closeOf?_before (ht : lexemes t = lexemes s ++ ms) (hg : ClosesGroups s)
    (ha : a < size s) :
  (ofText t).closeOf? a = (ofText s).closeOf? a
  := by
  cases hs : (ofText s).closeOf? a with
  | some b => apply closeOf?_of_append ht hs
  | none =>
    cases h : (ofText t).closeOf? a with
    | none => rfl
    | some b =>
      exfalso
      obtain ⟨opener, closer, before, inside, hp, hl, rfl, _⟩ := closeOf?_eq_some h
      have ho : opener = '{' ∨ opener = '[' := hp.imp And.left And.left
      -- the delimiter is one of the lexemes at the start
      have hl : ∃ after, lexemes s = before ++ .plain opener :: after := by
        rcases List.append_eq_append_iff.mp (ht.symm.trans hl) with ⟨more, rfl, _⟩ | ⟨more, hm, hi⟩
        · rw [ofLexemes_append, size_append, ofLexemes_lexemes] at ha
          omega
        · cases more with
          | nil =>
            rw [List.append_nil] at hm
            rw [← hm, ofLexemes_lexemes] at ha
            exact absurd ha (Nat.lt_irrefl _)
          | cons l more =>
            obtain ⟨rfl, -⟩ := List.cons.inj hi
            exact ⟨more, hm⟩
      obtain ⟨after, hl⟩ := hl
      have := hg before opener after hl ho
      rw [hs] at this
      cases this

end

end DelimiterPairs

end DatabaseMarkup
