import DatabaseMarkup.Proofs.Block.Brace
import DatabaseMarkup.Proofs.Block.Segment
import DatabaseMarkup.Proofs.Text.Seam
import Mathlib.Data.List.Basic

/-!
# Documents joined by a newline

The segments of a part of a text are those of the part alone if its delimiters are paired as they
are there and nothing behind it belongs to its last line.  `Segment.StandsAlone` says so of a part,
and `Segment.split_part` gives its segments, moved by what stands in front of it.

Two documents that a newline joins are such parts when the first one leaves nothing open.
`scan_of_complete_document` states that they are then scanned one after the other.
-/

namespace DatabaseMarkup

open Text

/-! ## Places further on -/

/-- A block of a text that stands `n` bytes further on. -/
def Block.moved (n : Nat) (block : Block) : Block :=
  { block with offset := n + block.offset }

/-- The content of a segment of a text that stands `n` bytes further on. -/
def SegmentContent.moved (n : Nat) : SegmentContent → SegmentContent
  | .block b => .block (b.moved n)
  | .skipped problem => .skipped problem
  | .blank => .blank

/-- A segment of a text that stands `n` bytes further on. -/
def Segment.moved (n : Nat) (s : Segment) : Segment :=
  ⟨n + s.offset, s.span, s.content.moved n⟩

/-- A diagnostic of a text that stands `n` lines further down. -/
def Diagnostic.moved (n : Nat) (d : Diagnostic) : Diagnostic :=
  { d with line := n + d.line }

theorem Block.moved_zero (block : Block) :
  block.moved 0 = block
  := by
  rw [moved, Nat.zero_add]

theorem Block.moved_moved (n m : Nat) (block : Block) :
  (block.moved m).moved n = block.moved (n + m)
  := by
  rw [moved, moved, moved, Nat.add_assoc]

theorem Diagnostic.moved_zero (d : Diagnostic) :
  d.moved 0 = d
  := by
  rw [moved, Nat.zero_add]

theorem Diagnostic.moved_moved (n m : Nat) (d : Diagnostic) :
  (d.moved m).moved n = d.moved (n + m)
  := by
  rw [moved, moved, moved, Nat.add_assoc]

namespace Segment

/-- The blocks of a document, in its order. -/
def blocks (t : Text) : List Block :=
  (ofText t).filterMap block?

/-- The diagnostics of what is skipped in a document, in its order. -/
def diagnostics (t : Text) : List Diagnostic :=
  ((ofText t).filterMap finding?).map (Diagnostic.ofFinding (.ofText t))

theorem block?_moved (n : Nat) (s : Segment) :
  (s.moved n).block? = s.block?.map (Block.moved n)
  := by
  obtain ⟨offset, span, content⟩ := s
  cases content <;> rfl

/-- Whether a part of a text is read as it is alone: its delimiters are paired as they are in the
part alone, what follows it does not belong to its last line, and if anything does, the part ends
with a brace. -/
structure StandsAlone (before part after : Text) : Prop where
  closeOf?_eq : ∀ a < size part, (DelimiterPairs.ofText (before ++ (part ++ after))).closeOf?
    (size before + a) = ((DelimiterPairs.ofText part).closeOf? a).map (size before + ·)
  endsLine : EndsLine after
  brace : after ≠ [] → EndsWithBrace part

section

variable {before part after : Text}

/-! ## Readers of a part of a text -/

section

variable {q r : Text}

/-- A text that is left of a part starts behind what stands before the part. -/
theorem startOf_part (hq : part = q ++ r) :
  startOf (size (before ++ (part ++ after))) (r ++ after) = size before + startOf (size part) r
  := by
  subst hq
  rw [startOf_append, List.append_assoc, ← List.append_assoc, startOf_append, size_append]

/-- The header of a part is read alike whatever follows the part. -/
theorem read?_part (ha : EndsLine after) (hr : after ≠ [] → EndsWithBrace r) :
  Header.read? (r ++ after)
    = (Header.read? r).map fun (header, rest) => (header, rest ++ after)
  := by
  by_cases hn : after = []
  · subst hn
    simp
  · apply Header.read?_append ha (hr hn)

/-- A group of a part is cut off alike wherever the part stands. -/
theorem splitGroup?_part (h : StandsAlone before part after) (hq : part = q ++ r)
    (hr : after ≠ [] → EndsWithBrace r) :
  (DelimiterPairs.ofText (before ++ (part ++ after))).splitGroup?
      (size (before ++ (part ++ after))) (r ++ after)
    = ((DelimiterPairs.ofText part).splitGroup? (size part) r).map
        fun (inner, rest) => (inner, rest ++ after)
  := by
  cases r with
  | nil =>
    by_cases ha : after = []
    · subst ha
      rfl
    · exact absurd rfl (hr ha).ne_nil
  | cons c r =>
    have hlt : size q < size part := by
      rw [hq, size_append, size_cons]
      have := Char.utf8Size_pos c
      omega
    have hclose := h.closeOf?_eq _ hlt
    cases hg : (DelimiterPairs.ofText part).splitGroup? (size part) (c :: r) with
    | some group =>
      obtain ⟨inner, rest⟩ := group
      obtain ⟨opener, closer, hp, hc, hb⟩ := DelimiterPairs.splitGroup?_eq_some hq hg
      obtain ⟨rfl, rfl⟩ := List.cons.inj hc
      rw [hb, Option.map_some, ← size_append] at hclose
      rw [Option.map_some, List.cons_append, List.append_assoc, List.cons_append]
      apply @DelimiterPairs.splitGroup?_of_closeOf? _ (before ++ q) c closer
      · rw [hq]
        simp
      · rw [hclose, size_append]
        congr 1
        omega
    | none =>
      rw [DelimiterPairs.splitGroup?_eq_none hq hg, Option.map_none, ← size_append] at hclose
      rw [Option.map_none, List.cons_append]
      apply DelimiterPairs.splitGroup?_of_closeOf?_eq_none _ hclose
      rw [hq, List.append_assoc, List.append_assoc, List.cons_append]

/-- The blanks of a part do not reach beyond it. -/
theorem takeWhile_part (hr : after ≠ [] → EndsWithBrace r) :
  (r ++ after).takeWhile Unicode.isAsciiBlank = r.takeWhile Unicode.isAsciiBlank
    ∧ skipBlanks (r ++ after) = skipBlanks r ++ after
    ∧ (after ≠ [] → EndsWithBrace (skipBlanks r))
  := by
  by_cases ha : after = []
  · subst ha
    rw [List.append_nil, List.append_nil]
    exact ⟨rfl, rfl, fun h => absurd rfl h⟩
  · obtain ⟨ht, hb, hs⟩ := Extends.dropWhile (p := Unicode.isAsciiBlank) rfl ⟨hr ha, rfl⟩
    exact ⟨ht.symm, hs, fun _ => hb⟩

theorem head?_part (hr : after ≠ [] → EndsWithBrace r) :
  (r ++ after).head? = r.head?
  := by
  cases r with
  | nil =>
    by_cases ha : after = []
    · rw [ha]
      rfl
    · exact absurd rfl (hr ha).ne_nil
  | cons c r => rfl

/-- The settings of a header are those of its first group and of the groups behind that. -/
theorem headerSettings?_eq (pairs : DelimiterPairs) (finish : Nat) (t : Text) :
  headerSettings? pairs finish t
    = if (skipBlanks t).head? = some '[' then
        (pairs.splitGroup? finish (skipBlanks t)).bind fun (inner, rest) =>
          (headerSettings? pairs finish rest).map
            fun (settings, rest) => (Settings.readList inner ++ settings, rest)
      else
        some ([], skipBlanks t)
  := by
  rw [headerSettings?]
  split
  · split
    · rename_i hg
      rw [hg]
      rfl
    · rename_i hg
      rw [hg]
      rfl
  · rfl

/-- The settings of a header are those of the part alone. -/
theorem headerSettings?_part (h : StandsAlone before part after) (hq : part = q ++ r)
    (hr : after ≠ [] → EndsWithBrace r) :
  headerSettings? (.ofText (before ++ (part ++ after))) (size (before ++ (part ++ after)))
      (r ++ after)
    = (headerSettings? (.ofText part) (size part) r).map
        fun (settings, rest) => (settings, rest ++ after)
  := by
  induction hn : r.length using Nat.strong_induction_on generalizing q r with
  | h n ih =>
    obtain ⟨-, hk, hkr⟩ := takeWhile_part hr
    obtain ⟨u, hu⟩ := skipBlanks_suffix r
    have hqk : part = (q ++ u) ++ skipBlanks r := by
      rw [hq, List.append_assoc, hu]
    rw [headerSettings?_eq, headerSettings?_eq (.ofText part), hk, head?_part hkr,
      splitGroup?_part h hqk hkr]
    split
    · rename_i hh
      cases hg : (DelimiterPairs.ofText part).splitGroup? (size part) (skipBlanks r) with
      | none => rfl
      | some group =>
        obtain ⟨inner, rest⟩ := group
        obtain ⟨opener, closer, hp, hc, -⟩ := DelimiterPairs.splitGroup?_eq_some hqk hg
        rw [hc, List.head?_cons, Option.some.injEq] at hh
        subst hh
        obtain rfl := hp.closer_inj (.inr ⟨rfl, rfl⟩)
        have hq' : part = (q ++ u ++ '[' :: (inner ++ [']'])) ++ rest := by
          rw [hqk, hc]
          simp
        have hr' : after ≠ [] → EndsWithBrace rest := by
          intro ha
          have hb := hkr ha
          rw [hc, ← List.cons_append] at hb
          apply hb.behind (by decide)
        have hl : rest.length < n := by
          have := DelimiterPairs.length_splitGroup hg
          have := length_skipBlanks_le r
          omega
        rw [Option.map_some, Option.bind_some, Option.bind_some]
        dsimp only
        rw [ih _ hl hq' hr' rfl, Option.map_map, Option.map_map]
        rfl
    · rfl

/-- A text that is no block ends where it ends in the part alone. -/
theorem unknown_part (h : StandsAlone before part after) (hq : part = q ++ r)
    (hr : after ≠ [] → EndsWithBrace r) :
  unknown (.ofText (before ++ (part ++ after))) (size (before ++ (part ++ after))) (r ++ after)
    = ((unknown (.ofText part) (size part) r).1,
        (unknown (.ofText part) (size part) r).2 ++ after)
  := by
  obtain ⟨hf, hl⟩ := @takeWhile_append_endsLine after (fun c => c != '\n') rfl h.endsLine r
  rw [← firstLine, ← firstLine] at hf
  rw [← fromLineEnd, ← fromLineEnd] at hl
  rw [unknown, unknown, hf, afterSkipped, afterSkipped, hf, hl]
  cases hu : cutAtUnquoted '{' (firstLine r) with
  | none => rfl
  | some cut =>
    obtain ⟨u, rest⟩ := cut
    obtain ⟨tail, rfl, hline⟩ := eq_append_of_cutAtUnquoted hu
    obtain ⟨v, hv⟩ : ∃ v, r = u ++ '{' :: v := by
      have hline' := firstLine_append_fromLineEnd r
      rw [hline, List.append_assoc] at hline'
      exact ⟨_, hline'.symm⟩
    have hq' : part = (q ++ u) ++ '{' :: v := by
      rw [hq, hv, List.append_assoc]
    have hr' : after ≠ [] → EndsWithBrace ('{' :: v) :=
      fun ha => (hr ha).of_suffix ⟨u, hv.symm⟩ (List.cons_ne_nil _ _)
    have hgroup := splitGroup?_part h hq' hr'
    dsimp only
    rw [hv, List.append_assoc, List.drop_left, List.drop_left, hgroup]
    cases (DelimiterPairs.ofText part).splitGroup? (size part) ('{' :: v) <;> rfl

/-- No brace ends the bracket groups of a header. -/
theorem BracketGroups.not_endsWithBrace {pairs : DelimiterPairs} {start : Nat} {groups : Text}
    {settings : Settings} (h : BracketGroups pairs start groups settings) :
  ¬EndsWithBrace groups
  := by
  induction h with
  | blanks hb =>
    rintro ⟨brace, hm, hs⟩
    have hblank := hb brace (hs.subset List.mem_cons_self)
    rw [@eq_false_of_hasNoBrace Unicode.isAsciiBlank rfl _ hm] at hblank
    cases hblank
  | @group start blanks inner more settings hb hc hm ih =>
    intro h
    rw [← List.cons_append, ← List.append_assoc] at h
    exact ih (h.behind (by decide))

theorem endsWithBrace_of_headerSettings? {rest : Text} {settings : Settings} (hq : part = q ++ r)
    (hs : headerSettings? (.ofText part) (size part) r = some (settings, rest))
    (hr : EndsWithBrace r) :
  EndsWithBrace rest
  := by
  obtain ⟨groups, rfl, hg⟩ := bracketGroups_of_headerSettings? hq hs
  apply hr.of_suffix (List.suffix_append _ _)
  rintro rfl
  rw [List.append_nil] at hr
  exact hg.not_endsWithBrace hr

/-- The first segment of a part is that of the part alone. -/
theorem splitFirst_part (h : StandsAlone before part after) (hq : part = q ++ r)
    (hr : after ≠ [] → EndsWithBrace r) :
  splitFirst (.ofText (before ++ (part ++ after))) (size (before ++ (part ++ after))) (r ++ after)
    = ((splitFirst (.ofText part) (size part) r).1.moved (size before),
        (splitFirst (.ofText part) (size part) r).2 ++ after)
  := by
  have hunknown := unknown_part h hq hr
  rw [splitFirst, splitFirst, read?_part h.endsLine hr]
  cases hread : Header.read? r with
  | none => exact hunknown
  | some read =>
    obtain ⟨header, rest⟩ := read
    obtain ⟨names, rfl, -⟩ := Header.exists_append hread
    rw [← List.append_assoc] at hq
    rw [Option.map_some]
    dsimp only
    split
    · obtain ⟨hf, hl⟩ := @takeWhile_append_endsLine after (fun c => c != '\n') rfl h.endsLine rest
      rw [firstLine, fromLineEnd, hf, hl, startOf_part hq]
      rfl
    · have hrest : after ≠ [] → EndsWithBrace rest :=
        fun ha => Header.endsWithBrace_of_read? (hr ha) hread
      rw [headerSettings?_part h hq hrest]
      cases hs : headerSettings? (.ofText part) (size part) rest with
      | none => exact hunknown
      | some settings =>
        obtain ⟨settings, behind⟩ := settings
        have hbehind : after ≠ [] → EndsWithBrace behind :=
          fun ha => endsWithBrace_of_headerSettings? hq hs (hrest ha)
        obtain ⟨groups, rfl, -⟩ := bracketGroups_of_headerSettings? hq hs
        rw [← List.append_assoc] at hq
        rw [Option.map_some]
        dsimp only
        rw [head?_part hbehind, splitGroup?_part h hq hbehind, startOf_part hq]
        split
        · rename_i hh
          obtain ⟨u, rfl⟩ := List.head?_eq_some_iff.mp hh
          cases (DelimiterPairs.ofText part).splitGroup? (size part) ('{' :: u) <;> rfl
        · exact hunknown

end

/-- The segments of a part are those of the part alone, and the others follow them. -/
theorem split_part (h : StandsAlone before part after) {q r : Text} (hq : part = q ++ r) :
  split (.ofText (before ++ (part ++ after))) (size before + size q)
      (size (before ++ (part ++ after))) (r ++ after)
    = (split (.ofText part) (size q) (size part) r).map (Segment.moved (size before))
      ++ split (.ofText (before ++ (part ++ after))) (size before + size part)
          (size (before ++ (part ++ after))) after
  := by
  induction hn : r.length using Nat.strong_induction_on generalizing q r with
  | h n ih =>
    cases r with
    | nil =>
      rw [List.append_nil] at hq
      rw [List.nil_append, split, List.map_nil, List.nil_append, hq]
    | cons c r =>
      have hr : after ≠ [] → EndsWithBrace (c :: r) :=
        fun ha => (h.brace ha).of_suffix ⟨q, hq.symm⟩ (List.cons_ne_nil _ _)
      -- the segments behind the first one, where it is `span` and `rest` follows it
      have hcons {span rest : Text} (hs : c :: r = span ++ rest) (hne : span ≠ []) :
          split (.ofText (before ++ (part ++ after))) (size before + (size q + size span))
              (size (before ++ (part ++ after))) (rest ++ after)
            = (split (.ofText part) (size q + size span) (size part) rest).map
                (Segment.moved (size before))
              ++ split (.ofText (before ++ (part ++ after))) (size before + size part)
                (size (before ++ (part ++ after))) after := by
        have hl : rest.length < n := by
          rw [← hn, hs, List.length_append]
          exact Nat.lt_add_of_pos_left (List.length_pos_iff.mpr hne)
        have hq' : part = (q ++ span) ++ rest := by
          rw [hq, hs, List.append_assoc]
        rw [← size_append q]
        apply ih _ hl hq' rfl
      by_cases hc : Unicode.isAsciiBlank c
      · obtain ⟨ht, hk, -⟩ := takeWhile_part hr
        have hs : c :: r = (c :: r).takeWhile Unicode.isAsciiBlank ++ skipBlanks (c :: r) :=
          List.takeWhile_append_dropWhile.symm
        have hne : (c :: r).takeWhile Unicode.isAsciiBlank ≠ [] := by
          rw [List.takeWhile_cons_of_pos hc]
          apply List.cons_ne_nil
        rw [List.cons_append] at ht hk ⊢
        rw [split_of_isAsciiBlank _ _ _ hc, split_of_isAsciiBlank _ _ _ hc, ht, hk, Nat.add_assoc,
          hcons hs hne]
        rfl
      · have hq' : before ++ (part ++ after) = (before ++ q) ++ c :: (r ++ after) := by
          rw [hq]
          simp
        obtain ⟨span, hs, hne, -, heq⟩ := exists_split_eq_cons hq hc
        obtain ⟨span', hs', -, -, heq'⟩ := exists_split_eq_cons hq' hc
        rw [← List.cons_append, splitFirst_part h hq hr] at hs' heq'
        dsimp only at hs' heq'
        have hspan : span = span' := by
          apply (List.append_left_inj (_ ++ after)).mp
          rw [← hs', ← List.append_assoc, ← hs]
        subst hspan
        rw [size_append, Nat.add_assoc] at heq'
        rw [heq', heq, hcons hs hne]
        rfl

end

/-! ## Two documents -/

section

variable {s : Text}

/-- The end of a text behind a newline stands alone. -/
theorem standsAlone_behind (hs : ClosesLiterals s) (t : Text) :
  StandsAlone (s ++ ['\n']) t []
  := by
  constructor
  · intro a _
    have ht : s ++ ['\n'] ++ (t ++ []) = s ++ '\n' :: t := by simp
    have hl : lexemes (s ++ '\n' :: t) = (lexemes s ++ [.plain '\n']) ++ lexemes t := by
      rw [lexemes_append_newline hs, List.append_assoc]
      rfl
    have hsize : size (ofLexemes (lexemes s ++ [.plain '\n'])) = size (s ++ ['\n']) := by
      rw [ofLexemes_append, ofLexemes_lexemes]
      rfl
    rw [ht, ← hsize]
    apply DelimiterPairs.closeOf?_behind hl
  · exact .inl rfl
  · intro h
    exact absurd rfl h

/-- The start of a text before a newline stands alone if its groups are closed. -/
theorem standsAlone_before (hs : ClosesLiterals s) (hg : ClosesGroups s) (hb : EndsWithBrace s)
    (t : Text) :
  StandsAlone [] s ('\n' :: t)
  := by
  constructor
  · intro a ha
    rw [List.nil_append, size_nil, Nat.zero_add,
      DelimiterPairs.closeOf?_before (lexemes_append_newline hs t) hg ha]
    simp
  · exact .inr ⟨t, rfl⟩
  · exact fun _ => hb

theorem map_moved_zero (segments : List Segment) :
  segments.map (Segment.moved 0) = segments
  := by
  have h : Segment.moved 0 = id := by
    funext ⟨offset, span, content⟩
    cases content <;> simp [Segment.moved, SegmentContent.moved, Block.moved_zero]
  rw [h, List.map_id]

/-- What a text holds behind a newline is what the rest of it holds alone. -/
theorem filterMap_split_newline {α : Type} {f : Segment → Option α}
    (hf : ∀ start span, f ⟨start, span, .blank⟩ = none) (hs : ClosesLiterals s) (t : Text) :
  (split (.ofText (s ++ '\n' :: t)) (size s) (size (s ++ '\n' :: t)) ('\n' :: t)).filterMap f
    = ((ofText t).map (Segment.moved (size s + 1))).filterMap f
  := by
  have h := split_part (standsAlone_behind hs t) (List.nil_append t).symm
  have ht : s ++ ['\n'] ++ (t ++ []) = s ++ '\n' :: t := by simp
  have hsize : size (s ++ ['\n']) = size s + 1 := by
    rw [size_append]
    rfl
  rw [ht, split, List.append_nil, List.append_nil, hsize, size_nil, Nat.add_zero] at h
  rw [ofText, ← h, filterMap_split hf, filterMap_split hf _ (size s + 1)]
  have hn : Unicode.isAsciiBlank '\n' = true := rfl
  rw [List.takeWhile_cons, if_pos hn, skipBlanks, List.dropWhile_cons_of_pos hn, size_cons,
    ← Nat.add_assoc]
  rfl

/-- The segments of two documents that a newline joins. -/
theorem filterMap_ofText_append_newline {α : Type} {f : Segment → Option α}
    (hf : ∀ start span, f ⟨start, span, .blank⟩ = none) (hs : ClosesLiterals s)
    (hg : ClosesGroups s) (hb : EndsWithBrace s) (t : Text) :
  (ofText (s ++ '\n' :: t)).filterMap f
    = (ofText s).filterMap f ++ ((ofText t).map (Segment.moved (size s + 1))).filterMap f
  := by
  have h := split_part (standsAlone_before hs hg hb t) (List.nil_append s).symm
  rw [List.nil_append, size_nil, Nat.zero_add, Nat.zero_add, map_moved_zero] at h
  rw [ofText, h, List.filterMap_append, filterMap_split_newline hf hs]
  rfl

/-! ### Blocks and diagnostics -/

theorem filterMap_block?_moved (n : Nat) (segments : List Segment) :
  (segments.map (Segment.moved n)).filterMap block?
    = (segments.filterMap block?).map (Block.moved n)
  := by
  rw [List.filterMap_map, List.map_filterMap]
  congr 1
  funext r
  apply block?_moved

/-- Positions behind a newline are counted from the next line on. -/
theorem position_after_newline (s t : Text) :
  Position.after (s ++ '\n' :: t)
    = ⟨s.count '\n' + 1 + (Position.after t).line, (Position.after t).column⟩
  := by
  rw [Position.after, Position.after, Position.afterBy, Position.afterBy, lastLine_append_newline, List.count_append,
    List.count_cons_self, Position.mk.injEq]
  dsimp only
  exact ⟨by omega, rfl⟩

/-- The diagnostic of a segment of a document, where the document stands before or behind other
text. -/
def diagnostic? (t : Text) (r : Segment) : Option Diagnostic :=
  r.finding?.map (Diagnostic.ofFinding (.ofText t))

theorem diagnostics_eq (t : Text) :
  diagnostics t = (ofText t).filterMap (diagnostic? t)
  := List.map_filterMap

/-- What follows a document has no part in its diagnostics. -/
theorem filterMap_diagnostic?_append (s t : Text) :
  (ofText s).filterMap (diagnostic? (s ++ t)) = diagnostics s
  := by
  rw [diagnostics_eq]
  apply List.filterMap_congr
  intro r hr
  obtain ⟨before, after, rfl, ho⟩ := exists_offset hr
  rw [diagnostic?, diagnostic?, List.append_assoc, finding?_map_ofFinding _ _ ho,
    finding?_map_ofFinding _ _ ho]

/-- The diagnostics of a document behind a newline are further down. -/
theorem filterMap_diagnostic?_moved (s t : Text) :
  ((ofText t).map (Segment.moved (size s + 1))).filterMap (diagnostic? (s ++ '\n' :: t))
    = (diagnostics t).map (Diagnostic.moved (s.count '\n' + 1))
  := by
  rw [diagnostics_eq, List.filterMap_map, List.map_filterMap]
  apply List.filterMap_congr
  intro r hr
  obtain ⟨before, after, rfl, ho⟩ := exists_offset hr
  have hm : (r.moved (size s + 1)).offset = size (s ++ '\n' :: before) := by
    have hn : ('\n' : Char).utf8Size = 1 := rfl
    rw [size_append, size_cons, ← ho, hn, ← Nat.add_assoc]
    rfl
  rw [Function.comp_apply, diagnostic?, diagnostic?, ← List.cons_append, ← List.append_assoc,
    finding?_map_ofFinding _ _ hm, finding?_map_ofFinding _ _ ho, position_after_newline]
  obtain ⟨offset, span, content⟩ := r
  cases content <;> rfl

end

end Segment

/-! ## Complete documents -/

/-- Whether a document is complete: the brace which closes its last block is its end, and no group
and no literal between three apostrophes is left open. -/
structure IsComplete (s : Text) : Prop where
  lastBlock : ∃ block, (Segment.blocks s).getLast? = some block ∧ block.header.kind ≠ .refShort
    ∧ size s = block.finish + 1
  closesGroups : ClosesGroups s
  tripleQuote : Lexeme.loneTripleQuote ∉ lexemes s

/-- A complete text ends with a brace. -/
theorem IsComplete.endsWithBrace {s : Text} (hs : IsComplete s) :
  EndsWithBrace s
  := by
  obtain ⟨block, hl, hk, hsize⟩ := hs.lastBlock
  obtain ⟨before, after, hb, ho, hbraces⟩ := exists_append_of_mem_blocks (List.mem_of_getLast? hl)
  obtain ⟨u, v, rfl, rfl, -⟩ := hbraces hk
  have hv : v = [] := by
    cases v with
    | nil => rfl
    | cons c v =>
      have hc : ('}' : Char).utf8Size = 1 := rfl
      have := Char.utf8Size_pos c
      simp only [hb, Block.finish, ho, size_append, size_cons, hc] at hsize
      omega
  use '}', by decide
  rw [hb, hv]
  exact ⟨u ++ ['{'] ++ block.body, List.append_assoc _ _ _⟩

/-- A complete document and the text behind it are scanned one after the other: the blocks are
those of the one and those of the other, further on by the document and a newline, and so are the
diagnostics, further down by the lines of the document. -/
theorem scan_of_complete_document {s : Text} (hs : IsComplete s) (t : Text) :
  Segment.blocks (s ++ '\n' :: t)
      = Segment.blocks s ++ (Segment.blocks t).map (Block.moved (size s + 1))
    ∧ Segment.diagnostics (s ++ '\n' :: t)
      = Segment.diagnostics s ++ (Segment.diagnostics t).map (Diagnostic.moved (s.count '\n' + 1))
  := by
  have hl : ClosesLiterals s := ⟨hs.endsWithBrace.not_backslash, hs.tripleQuote⟩
  constructor
  · rw [Segment.blocks, Segment.filterMap_ofText_append_newline (fun _ _ => rfl) hl
      hs.closesGroups hs.endsWithBrace, Segment.filterMap_block?_moved]
    rfl
  · rw [Segment.diagnostics_eq, Segment.filterMap_ofText_append_newline (fun _ _ => rfl) hl
      hs.closesGroups hs.endsWithBrace, Segment.filterMap_diagnostic?_append,
      Segment.filterMap_diagnostic?_moved]

/-- A table with a lone quote, a literal that holds a brace and a group in brackets is complete, so
that what follows it is scanned as it is alone. -/
theorem scan_of_table_before_enum :
  let table := "Table a [color: #fff] \x7b\n  it\x27s \x22\x7b\x22 [note]\n\x7d".toList
  let rest := "?\nenum e \x7b\x7d".toList
  IsComplete table
    ∧ Segment.blocks (table ++ '\n' :: rest)
      = Segment.blocks table ++ (Segment.blocks rest).map (Block.moved (size table + 1))
    ∧ Segment.diagnostics (table ++ '\n' :: rest)
      = Segment.diagnostics table
        ++ (Segment.diagnostics rest).map (Diagnostic.moved (table.count '\n' + 1))
  := by
  have hs : IsComplete "Table a [color: #fff] \x7b\n  it\x27s \x22\x7b\x22 [note]\n\x7d".toList := by
    constructor
    · use ⟨{ kind := .table, name := some ['a'] }, Settings.readList "color: #fff".toList,
        "\n  it\x27s \x22\x7b\x22 [note]\n".toList, 23⟩
      decide +kernel
    · decide +kernel
    · decide +kernel
  exact ⟨hs, scan_of_complete_document hs _⟩

end DatabaseMarkup
