import DatabaseMarkup.Proofs.Block.Segment
import DatabaseMarkup.Proofs.Text.Nesting

/-!
# What encloses a block

A literal that spans lines, or a closed group of braces, may enclose the place where a block begins.
`blocks_begin_outside` states which ones do so.  They begin in an earlier segment that is cut at the
end of its line, though the literal or the group reaches on, or in a header whose brace belongs to a
literal; a group may also begin in front of the brace that a segment is paired by.  Nothing that
begins between the braces of a block, or of a text that is skipped as a whole, reaches beyond them.
-/

namespace DatabaseMarkup

open Text

namespace Segment

variable {t : Text} {r : Segment} {a b : Nat}

/-- Whether an offset lies in a segment. -/
def Covers (r : Segment) (a : Nat) : Prop :=
  r.offset ≤ a ∧ a < r.offset + size r.span

/-- Whether a segment may end inside of a literal or a group that begins in it: it is a short
reference, or a line that is no block and opens no closed group, or a header whose brace is part of
a literal. -/
inductive LeavesOpen (t : Text) (r : Segment) : Prop
  | reference {block : Block} (hc : r.content = .block block)
      (hk : block.header.kind = .refShort)
  | line (hc : r.content = .skipped (.unknownDeclaration r.span))
      (ho : ∀ before after, cutAtUnquoted '{' r.span = some (before, after) →
        (DelimiterPairs.ofText t).closeOf? (r.offset + size before) = none)
  | unclosed {kind : BlockKind} {opening : Text} {c d : Nat}
      (hc : r.content = .skipped (.unterminatedBlock kind)) (hs : r.span = opening ++ ['{'])
      (hl : HasLiteral t c d) (hcp : c ≤ r.offset + size opening)
      (hdp : r.offset + size opening < d)

/-- Whether a segment ends with the brace that is paired with one behind the offset `a`. -/
def OpensBehind (t : Text) (r : Segment) (a : Nat) : Prop :=
  ∃ opening inner, r.span = opening ++ '{' :: (inner ++ ['}'])
    ∧ HasBraces t (r.offset + size opening) (r.offset + size opening + 1 + size inner)
    ∧ a < r.offset + size opening

/-! ## What begins in a segment -/

section

variable {u v : Text} (ht : t = u ++ (r.span ++ v)) (hr : r.offset = size u)

include ht hr in
theorem mem_span {x y : Text} {c : Char} (h : t = x ++ c :: y) (ha : r.Covers (size x)) :
  c ∈ r.span
  := by
  rw [ht] at h
  apply mem_of_size_le h
  · rw [← hr]
    exact ha.1
  · rw [← hr]
    exact ha.2

include ht hr in
/-- The braces that a segment is paired by. -/
theorem hasBraces_of_closeOf? {opening inner : Text} {q : Nat}
    (hs : r.span = opening ++ '{' :: inner)
    (hc : (DelimiterPairs.ofText t).closeOf? (r.offset + size opening) = some q) :
  HasBraces t (r.offset + size opening) q
  := by
  obtain ⟨opener, closer, before, inside, _, hl, hsize, _⟩ := DelimiterPairs.closeOf?_eq_some hc
  have h := ofLexemes_lexemes t
  rw [hl, ofLexemes_append, ht, hs] at h
  have h :
      ofLexemes before ++ opener :: ofLexemes inside = (u ++ opening) ++ '{' :: (inner ++ v) := by
    rw [List.append_assoc u]
    rw [List.append_assoc] at h
    exact h
  obtain rfl := char_inj_of_size h (by rw [← hsize, size_append, hr])
  exact ⟨before, inside, hl, hsize, hc⟩

include ht hr in
/-- What begins in a segment that is paired by its braces ends in it, unless it is a group that
begins in front of the first one. -/
theorem not_lt_of_braces {opening inner : Text} (hs : r.span = opening ++ '{' :: (inner ++ ['}']))
    (hb : HasBraces t (r.offset + size opening) (r.offset + size opening + 1 + size inner))
    (ha : r.Covers a) (hend : r.offset + size r.span < b) :
  ¬HasLiteral t a b ∧ (HasBraces t a b → a < r.offset + size opening)
  := by
  have hsize : r.offset + size r.span = r.offset + size opening + 1 + size inner + 1 := by
    rw [hs]
    have h := DelimiterPairs.size_append_group (.inl ⟨rfl, rfl⟩) opening inner
    omega
  have hlt := ha.2
  constructor
  · intro hlit
    obtain ⟨before, after, hl, hq⟩ := hb.exists_behind
    rcases hlit.le_or_le hl with h | h <;> omega
  · intro hab
    by_contra hle
    have hle := Nat.le_of_not_lt hle
    obtain ⟨before, after, hl, hsa, hc⟩ := id hab
    rcases Nat.eq_or_lt_of_le hle with heq | hgt
    · -- the group is that of the segment
      obtain ⟨_, _, _, _, hq⟩ := hb
      rw [heq, hc] at hq
      cases hq
      omega
    · have hnext : a < r.offset + size opening + 1 + size inner := by
        -- the last character is no opening brace
        apply Nat.lt_of_le_of_ne (by omega)
        intro heq
        obtain ⟨x, y, hx, hax⟩ := hab.exists_brace
        have h : u ++ (opening ++ '{' :: inner) ++ '}' :: v = x ++ '{' :: y := by
          rw [← hx, ht, hs]
          simp
        have hbrace : ('{' : Char).utf8Size = 1 := rfl
        have := char_inj_of_size h (by
          rw [← hax, heq, size_append, size_append, size_cons, hr, hbrace]
          omega)
        cases this
      rw [hsa] at hgt hnext hc
      obtain ⟨c, hc', hlt⟩ := hb.exists_of_lt hl hgt hnext
      rw [hc] at hc'
      cases hc'
      omega

include ht hr in
/-- No literal or group begins among blanks. -/
theorem not_encloses_of_blank (hb : ∀ c ∈ r.span, Unicode.isAsciiBlank c) (ha : r.Covers a) :
  ¬HasLiteral t a b ∧ ¬HasBraces t a b
  := by
  constructor
  · intro h
    obtain ⟨x, quote, y, hx, rfl, hq⟩ := h.exists_quote
    have hblank := hb _ (mem_span ht hr hx ha)
    simp only [isQuote, Bool.or_eq_true, decide_eq_true_eq] at hq
    rcases hq with (rfl | rfl) | rfl <;> cases hblank
  · intro h
    obtain ⟨x, y, hx, rfl⟩ := h.exists_brace
    have hblank := hb _ (mem_span ht hr hx ha)
    cases hblank

include ht hr in
/-- A group ends behind a segment that ends with an unpaired brace only if this brace is a part of a
literal that ends behind the segment, too. -/
theorem exists_literal_of_unclosed {opening : Text} (hspan : r.span = opening ++ ['{'])
    (hc : (DelimiterPairs.ofText t).closeOf? (r.offset + size opening) = none)
    (ha : a ≤ r.offset + size opening) (hb : r.offset + size opening < b) (h : HasBraces t a b) :
  ∃ c d, HasLiteral t c d ∧ c ≤ r.offset + size opening ∧ r.offset + size opening < d
  := by
  have hlt : a < r.offset + size opening := by
    apply Nat.lt_of_le_of_ne ha
    rintro rfl
    obtain ⟨_, _, _, _, hb⟩ := h
    rw [hc] at hb
    cases hb
  have htext : t = (u ++ opening) ++ '{' :: v := by
    rw [ht, hspan]
    simp
  have hsize : size (u ++ opening) = r.offset + size opening := by
    rw [size_append, hr]
  rcases plain_or_literal rfl htext with ⟨ls, ms, hl, hs⟩ | ⟨c, d, hl, hcp, hdp⟩
  · -- a brace between two that are paired would be closed
    rw [hsize] at hs
    rw [← hs] at hlt hb hc
    obtain ⟨c, hc', _⟩ := h.exists_of_lt hl hlt hb
    rw [hc] at hc'
    cases hc'
  · rw [hsize] at hcp hdp
    exact ⟨c, d, hl, hcp, hdp⟩

include ht hr in
/-- What begins in a segment and does not end in it. -/
theorem leavesOpen_of_holds (hh : Holds (.ofText t) r.offset r.content r.span v)
    (ha : r.Covers a) (hend : r.offset + size r.span < b) :
  (HasLiteral t a b → r.LeavesOpen t)
    ∧ (HasBraces t a b → r.LeavesOpen t ∨ r.OpensBehind t a)
  := by
  -- a segment that is paired by its braces
  have hbraces {opening inner : Text} (hs : r.span = opening ++ '{' :: (inner ++ ['}']))
      (hc : (DelimiterPairs.ofText t).closeOf? (r.offset + size opening)
        = some (r.offset + size opening + 1 + size inner)) :
      (HasLiteral t a b → r.LeavesOpen t)
        ∧ (HasBraces t a b → r.LeavesOpen t ∨ r.OpensBehind t a) := by
    have hb := hasBraces_of_closeOf? ht hr hs hc
    obtain ⟨hlit, hopen⟩ := not_lt_of_braces ht hr hs hb ha hend
    exact ⟨fun h => absurd h hlit, fun h => .inr ⟨opening, inner, hs, hb, hopen h⟩⟩
  have hopen (h : r.LeavesOpen t) : (HasLiteral t a b → r.LeavesOpen t)
      ∧ (HasBraces t a b → r.LeavesOpen t ∨ r.OpensBehind t a) :=
    ⟨fun _ => h, fun _ => .inl h⟩
  generalize hcontent : r.content = content at hh
  generalize hspan : r.span = span at hh
  cases hh with
  | blank hb _ =>
    rw [← hspan] at hb
    obtain ⟨hlit, hnone⟩ := not_encloses_of_blank ht hr hb ha
    exact ⟨fun h => absurd h hlit, fun h => absurd h hnone⟩
  | shortReference _ hk _ _ => exact hopen (.reference hcontent hk)
  | braces _ hc => exact hbraces hspan hc
  | @unclosed header settings opening _ ho hc =>
    have hp : a ≤ r.offset + size opening := by
      have := ha.2
      rw [hspan, size_append] at this
      exact Nat.le_of_lt_succ this
    have hq : r.offset + size opening < b := by
      rw [hspan, size_append] at hend
      exact Nat.lt_of_le_of_lt (by omega) hend
    constructor
    · intro h
      exact .unclosed hcontent hspan h hp hq
    · intro h
      obtain ⟨c, d, hl, hcp, hdp⟩ := exists_literal_of_unclosed ht hr hspan hc hp hq h
      exact .inl (.unclosed hcontent hspan hl hcp hdp)
  | unknownLine _ _ _ hc =>
    apply hopen
    apply LeavesOpen.line
    · rw [hcontent, hspan]
    · rw [hspan]
      exact hc
  | unknownGroup _ _ hc => exact hbraces hspan hc

end

/-! ## Segments and what encloses them -/

/-- An offset in front of a segment lies in an earlier one. -/
theorem exists_covering {segments : List Segment} (h : a < size (segments.flatMap span)) :
  ∃ before r after, segments = before ++ r :: after ∧ size (before.flatMap span) ≤ a
    ∧ a < size (before.flatMap span) + size r.span
  := by
  induction segments generalizing a with
  | nil => exact absurd h (Nat.not_lt_zero a)
  | cons s segments ih =>
    by_cases hs : a < size s.span
    · exact ⟨[], s, segments, rfl, Nat.zero_le _, by rwa [List.flatMap_nil, size_nil, Nat.zero_add]⟩
    · rw [List.flatMap_cons, size_append] at h
      obtain ⟨before, r, after, rfl, hb, ha⟩ := ih (a := a - size s.span) (by omega)
      refine ⟨s :: before, r, after, rfl, ?_, ?_⟩
      · rw [List.flatMap_cons, size_append]
        omega
      · rw [List.flatMap_cons, size_append]
        omega

/-- What encloses the beginning of a segment begins in an earlier one. -/
theorem exists_leavesOpen {before after : List Segment} {s : Segment}
    (h : ofText t = before ++ s :: after) (ha : a < s.offset) (hb : s.offset < b) :
  ∃ r ∈ before, r.Covers a ∧ (HasLiteral t a b → r.LeavesOpen t)
    ∧ (HasBraces t a b → r.LeavesOpen t ∨ r.OpensBehind t a)
  := by
  have htiles := tiles_ofText t
  have hf := htiles.flatMap_span
  rw [h] at htiles hf
  rw [htiles.holds.1, Nat.zero_add] at ha hb
  obtain ⟨l, r, m, rfl, hl, hr⟩ := exists_covering ha
  rw [List.append_assoc, List.cons_append] at htiles hf
  obtain ⟨ho, _, hh⟩ := htiles.holds
  rw [Nat.zero_add] at ho
  rw [List.flatMap_append, List.flatMap_cons] at hf
  have hcover : r.Covers a := ⟨by rwa [ho], by rwa [ho]⟩
  have hend : r.offset + size r.span < b := by
    apply Nat.lt_of_le_of_lt _ hb
    rw [List.flatMap_append, List.flatMap_cons, size_append, size_append, ho]
    omega
  refine ⟨r, List.mem_append_right _ List.mem_cons_self, hcover, ?_⟩
  exact leavesOpen_of_holds hf.symm ho hh hcover hend

end Segment

/-! ## Blocks -/

/-- A block begins with a letter of its keyword, which is no quote. -/
theorem Header.isQuote_head {c : Char} {t rest : Text} {header : Header}
    (h : read? (c :: t) = some (header, rest)) :
  isQuote c = false
  := by
  obtain ⟨form, hf, h⟩ := List.exists_of_findSome?_eq_some h
  obtain ⟨u, hu, h⟩ := Option.bind_eq_some_iff.mp h
  apply eq_false_of_ne_true
  intro hq
  simp only [isQuote, Bool.or_eq_true, decide_eq_true_eq] at hq
  simp only [HeaderForm.all, List.mem_cons, List.not_mem_nil, or_false] at hf
  rcases hf with rfl | rfl | rfl | rfl | rfl | rfl | rfl <;>
    rcases hq with (rfl | rfl) | rfl <;> cases hu

/-- The segment of a block begins with the header of the block. -/
theorem Segment.Holds.exists_header {pairs : DelimiterPairs} {start : Nat} {block : Block}
    {span after : Text} (h : Holds pairs start (.block block) span after) :
  ∃ rest, Header.read? (span ++ after) = some (block.header, rest)
  := by
  cases h with
  | shortReference hr _ _ _ => exact ⟨_, hr⟩
  | @braces header settings opening body _ ho _ =>
    obtain ⟨names, groups, _, hr, _, _⟩ := ho
    refine ⟨groups ++ '{' :: (body ++ '}' :: after), ?_⟩
    rw [List.append_assoc, List.cons_append, List.append_assoc, List.singleton_append]
    exact hr

/-- No literal begins where a block does. -/
theorem Block.not_hasLiteral {t : Text} {s : Segment} {block : Block}
    (hs : s ∈ Segment.ofText t) (hb : s.block? = some block) (b : Nat) :
  ¬HasLiteral t s.offset b
  := by
  intro h
  obtain ⟨l, m, hl⟩ := List.append_of_mem hs
  have htiles := Segment.tiles_ofText t
  have hf := htiles.flatMap_span
  rw [hl] at htiles hf
  obtain ⟨ho, _, hh⟩ := htiles.holds
  rw [Segment.block?_eq_some hb] at hh
  obtain ⟨rest, hr⟩ := hh.exists_header
  obtain ⟨x, quote, y, hx, hoff, hq⟩ := h.exists_quote
  rw [List.flatMap_append, List.flatMap_cons, hx] at hf
  obtain ⟨_, hy⟩ := append_inj_of_size hf (by rw [← hoff, ho, Nat.zero_add])
  rw [hy] at hr
  rw [Header.isQuote_head hr] at hq
  cases hq

/-- A literal or a closed group of braces encloses the beginning of a segment, of a block among
others, only if it begins in an earlier segment that leaves it open: in a short reference or a
skipped line, which end with their line, or in a header whose brace is part of a literal.  A group
may also begin in front of the braces that an earlier segment is paired by.  No literal begins where
a block does. -/
theorem blocks_begin_outside (t : Text) :
  (∀ before s after, Segment.ofText t = before ++ s :: after → ∀ a b, a < s.offset → s.offset < b →
      (HasLiteral t a b → ∃ r ∈ before, r.Covers a ∧ r.LeavesOpen t)
        ∧ (HasBraces t a b →
            ∃ r ∈ before, r.Covers a ∧ (r.LeavesOpen t ∨ r.OpensBehind t a)))
    ∧ ∀ s ∈ Segment.ofText t, ∀ block, s.block? = some block → ∀ b, ¬HasLiteral t s.offset b
  := by
  constructor
  · intro before s after h a b ha hb
    obtain ⟨r, hr, hc, hlit, hbraces⟩ := Segment.exists_leavesOpen h ha hb
    exact ⟨fun h => ⟨r, hr, hc, hlit h⟩, fun h => ⟨r, hr, hc, hbraces h⟩⟩
  · intro s hs block hb
    exact Block.not_hasLiteral hs hb

/-- A brace in parentheses is not seen on the line that is skipped, and three apostrophes are not
seen to go on behind it. -/
theorem block_begins_inside :
  let grouped := "Widget (x \x7b\nTable inner \x7b id int \x7d\n\x7d\n".toList
  let quoted := "foo \x27\x27\x27\nRef: a.b > c.d\n\x27\x27\x27\n".toList
  (HasBraces grouped 10 35
      ∧ ((Segment.ofText grouped).filter fun s => s.block?.isSome).map Segment.offset = [12])
    ∧ HasLiteral quoted 4 26
      ∧ ((Segment.ofText quoted).filter fun s => s.block?.isSome).map Segment.offset = [8]
  := by
  refine ⟨⟨⟨"Widget (x ".toList.map .plain,
      lexemes "\nTable inner \x7b id int \x7d\n\x7d\n".toList, ?_, ?_, ?_⟩, ?_⟩,
    ⟨"foo ".toList.map .plain, apostrophe,
      "\x27\x27\nRef: a.b > c.d\n\x27\x27\x27".toList, [.plain '\n'], ?_, ?_, ?_⟩, ?_⟩
  all_goals decide +kernel

end DatabaseMarkup
