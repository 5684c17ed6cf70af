import DatabaseMarkup.Block.Segment
import DatabaseMarkup.Diagnostic.Basic
import DatabaseMarkup.Proofs.Block.Header
import DatabaseMarkup.Proofs.Text.Delimiter
import DatabaseMarkup.Proofs.Text.Position

/-!
# What the segments of a document are

`Segment.Holds` says what a segment of a document may be, by the five ways in which it ends:
blanks, a short reference, a block with braces, the header of a block that is never closed, and
a text that is no block.  `Segment.Tiles` says that segments follow each other without gaps and
overlaps, and `Segment.tiles_ofText` that those of a document do.  The position of every problem
and the place of every body are read off from there.
-/

namespace DatabaseMarkup

open Text

namespace Segment

/-! ## The shapes of segments -/

/-- Whether a text that begins at `start` is made of blanks and of bracket groups, closed where
the pairs say so, which hold the given settings. -/
inductive BracketGroups (pairs : DelimiterPairs) : Nat → Text → Settings → Prop
  | blanks {start : Nat} {blanks : Text} (hb : ∀ c ∈ blanks, Unicode.isAsciiBlank c) :
      BracketGroups pairs start blanks []
  | group {start : Nat} {blanks inner more : Text} {settings : Settings}
      (hb : ∀ c ∈ blanks, Unicode.isAsciiBlank c)
      (hc : pairs.closeOf? (start + size blanks) = some (start + size blanks + 1 + size inner))
      (hm : BracketGroups pairs (start + size blanks + 1 + size inner + 1) more settings) :
      BracketGroups pairs start (blanks ++ '[' :: (inner ++ ']' :: more))
        (Settings.readList inner ++ settings)

/-- Whether a text that begins at `start` opens a block with braces: `opening` is its header and
settings, and `rest` follows the opening brace. -/
def Opens (pairs : DelimiterPairs) (start : Nat) (header : Header) (settings : Settings)
    (opening rest : Text) : Prop :=
  ∃ names groups, opening = names ++ groups
    ∧ Header.read? (opening ++ '{' :: rest) = some (header, groups ++ '{' :: rest)
    ∧ header.kind ≠ .refShort
    ∧ BracketGroups pairs (start + size names) groups settings

/-- Whether a text that begins at `start` begins with the header of a block. -/
def BeginsBlock (pairs : DelimiterPairs) (start : Nat) (t : Text) : Prop :=
  (∃ header rest, Header.read? t = some (header, rest) ∧ header.kind = .refShort)
    ∨ ∃ header settings opening rest, t = opening ++ '{' :: rest
        ∧ Opens pairs start header settings opening rest

/-- Whether a segment `span` that begins at `start`, before the text `after`, is rightly said to
hold the given content. -/
inductive Holds (pairs : DelimiterPairs) (start : Nat) : SegmentContent → Text → Text → Prop
  | blank {span after : Text} (hb : ∀ c ∈ span, Unicode.isAsciiBlank c)
      (ha : ∀ c ∈ after.head?, Unicode.isAsciiBlank c = false) :
      Holds pairs start .blank span after
  | shortReference {names line after : Text} {header : Header}
      (hr : Header.read? (names ++ line ++ after) = some (header, line ++ after))
      (hk : header.kind = .refShort) (hl : '\n' ∉ line) (ha : EndsLine after) :
      Holds pairs start (.block ⟨header, [], line, start + size names⟩) (names ++ line) after
  | braces {header : Header} {settings : Settings} {opening body after : Text}
      (ho : Opens pairs start header settings opening (body ++ '}' :: after))
      (hc : pairs.closeOf? (start + size opening) = some (start + size opening + 1 + size body)) :
      Holds pairs start (.block ⟨header, settings, body, start + size opening + 1⟩)
        (opening ++ '{' :: (body ++ ['}'])) after
  | unclosed {header : Header} {settings : Settings} {opening after : Text}
      (ho : Opens pairs start header settings opening after)
      (hc : pairs.closeOf? (start + size opening) = none) :
      Holds pairs start (.skipped (.unterminatedBlock header.kind)) (opening ++ ['{']) after
  | unknownLine {line after : Text} (hb : ¬BeginsBlock pairs start (line ++ after))
      (hl : '\n' ∉ line) (ha : EndsLine after)
      (hc : ∀ before rest, cutAtUnquoted '{' line = some (before, rest) →
        pairs.closeOf? (start + size before) = none) :
      Holds pairs start (.skipped (.unknownDeclaration line)) line after
  | unknownGroup {before inner after : Text}
      (hb : ¬BeginsBlock pairs start (before ++ '{' :: (inner ++ '}' :: after)))
      (hl : ∃ rest, cutAtUnquoted '{' (firstLine (before ++ '{' :: (inner ++ '}' :: after)))
        = some (before, rest))
      (hc : pairs.closeOf? (start + size before) = some (start + size before + 1 + size inner)) :
      Holds pairs start
        (.skipped (.unknownDeclaration (firstLine (before ++ '{' :: (inner ++ '}' :: after)))))
        (before ++ '{' :: (inner ++ ['}'])) after

/-- Whether the segments, of which the first one begins at `start`, follow each other and make up
a text. -/
inductive Tiles (pairs : DelimiterPairs) : Nat → Text → List Segment → Prop
  | nil {start : Nat} : Tiles pairs start [] []
  | cons {start : Nat} {content : SegmentContent} {span after : Text} {segments : List Segment}
      (hn : span ≠ []) (h : Holds pairs start content span after)
      (hs : Tiles pairs (start + size span) after segments) :
      Tiles pairs start (span ++ after) (⟨start, span, content⟩ :: segments)

/-! ## Settings in a header -/

theorem skipBlanks_append {s t : Text} (hs : ∀ c ∈ s, Unicode.isAsciiBlank c)
    (ht : ∀ c ∈ t.head?, Unicode.isAsciiBlank c = false) :
  skipBlanks (s ++ t) = t
  := by
  rw [skipBlanks, List.dropWhile_append_of_pos hs]
  cases t with
  | nil => rfl
  | cons c t => rw [List.dropWhile_cons, ht c rfl, if_neg Bool.false_ne_true]

/-- The settings that are read are those in the groups. -/
theorem bracketGroups_of_headerSettings? {text before t rest : Text} {settings : Settings}
    (ht : text = before ++ t)
    (h : headerSettings? (.ofText text) (size text) t = some (settings, rest)) :
  ∃ groups, t = groups ++ rest
    ∧ BracketGroups (.ofText text) (size before) groups settings
  := by
  fun_induction headerSettings? (.ofText text) (size text) t generalizing before settings with
  | case1 t hh inner u hg ih =>
    obtain ⟨⟨more, v⟩, hm, hv⟩ := Option.map_eq_some_iff.mp h
    obtain ⟨rfl, rfl⟩ := Prod.mk.inj hv
    have hb : ∀ c ∈ t.takeWhile Unicode.isAsciiBlank, Unicode.isAsciiBlank c :=
      fun c hc => List.mem_takeWhile_imp hc
    have hk : t.takeWhile Unicode.isAsciiBlank ++ skipBlanks t = t :=
      List.takeWhile_append_dropWhile
    generalize t.takeWhile Unicode.isAsciiBlank = blanks at hb hk
    rw [← hk, ← List.append_assoc] at ht
    obtain ⟨opener, closer, hp, hs, hc⟩ := DelimiterPairs.splitGroup?_eq_some ht hg
    rw [hs, List.head?_cons, Option.some.injEq] at hh
    subst hh
    obtain rfl := hp.closer_inj (.inr ⟨rfl, rfl⟩)
    rw [hs] at ht hk
    have hu : text = (before ++ blanks ++ '[' :: (inner ++ [']'])) ++ u := by
      rw [ht]
      simp
    obtain ⟨groups, rfl, hb'⟩ := ih hu hm
    refine ⟨blanks ++ '[' :: (inner ++ ']' :: groups), ?_, .group hb ?_ ?_⟩
    · rw [← hk]
      simp
    · rwa [size_append] at hc
    · rwa [DelimiterPairs.size_append_group (.inr ⟨rfl, rfl⟩), size_append] at hb'
  | case2 => cases h
  | case3 t _ =>
    obtain ⟨rfl, rfl⟩ := Prod.mk.inj (Option.some.inj h)
    refine ⟨t.takeWhile Unicode.isAsciiBlank, List.takeWhile_append_dropWhile.symm, .blanks ?_⟩
    intro c hc
    apply List.mem_takeWhile_imp hc

/-- All settings in the groups are read. -/
theorem headerSettings?_of_bracketGroups {text groups : Text} {settings : Settings} {start : Nat}
    (h : BracketGroups (.ofText text) start groups settings) {before rest : Text}
    (ht : text = before ++ (groups ++ '{' :: rest)) (hs : start = size before) :
  headerSettings? (.ofText text) (size text) (groups ++ '{' :: rest)
    = some (settings, '{' :: rest)
  := by
  induction h generalizing before with
  | blanks hb =>
    have hk : skipBlanks (_ ++ '{' :: rest) = _ := skipBlanks_append hb (by simp; rfl)
    rw [headerSettings?, hk, if_neg (by simp)]
  | @group start blanks inner more settings hb hc hm ih =>
    subst hs
    rw [List.append_assoc, List.cons_append, List.append_assoc, List.cons_append] at ht ⊢
    have hk : skipBlanks (blanks ++ '[' :: (inner ++ ']' :: (more ++ '{' :: rest)))
        = '[' :: (inner ++ ']' :: (more ++ '{' :: rest)) :=
      skipBlanks_append hb (by simp; rfl)
    rw [← size_append] at hc
    rw [← List.append_assoc] at ht
    have hg := DelimiterPairs.splitGroup?_of_closeOf? ht hc
    have hu : text = (before ++ blanks ++ '[' :: (inner ++ [']'])) ++ (more ++ '{' :: rest) := by
      rw [ht]
      simp
    have hs := DelimiterPairs.size_append_group (.inr ⟨rfl, rfl⟩) (before ++ blanks) inner
    rw [size_append before blanks] at hs
    have ih := ih hu hs.symm
    rw [headerSettings?, if_pos (by rw [hk]; rfl)]
    split
    · rename_i i u hg'
      rw [hk, hg] at hg'
      obtain ⟨rfl, rfl⟩ := Prod.mk.inj (Option.some.inj hg')
      rw [ih]
      rfl
    · rename_i hg'
      rw [hk, hg] at hg'
      cases hg'

/-! ## The first segment -/

section

variable {text before t : Text}

/-- A header and its settings, before a brace, open a block. -/
theorem opens_of_read? (ht : text = before ++ t) {header : Header} {settings : Settings}
    {rest after : Text} (hr : Header.read? t = some (header, rest)) (hk : header.kind ≠ .refShort)
    (hs : headerSettings? (.ofText text) (size text) rest = some (settings, '{' :: after)) :
  ∃ opening, t = opening ++ '{' :: after
    ∧ Opens (.ofText text) (size before) header settings opening after
  := by
  obtain ⟨names, rfl, _⟩ := Header.exists_append hr
  rw [← List.append_assoc] at ht
  obtain ⟨groups, rfl, hg⟩ := bracketGroups_of_headerSettings? ht hs
  rw [size_append] at hg
  refine ⟨names ++ groups, (List.append_assoc _ _ _).symm, names, groups, rfl, ?_, hk, hg⟩
  rw [List.append_assoc]
  exact hr

/-- A text that opens a block is read as one. -/
theorem Opens.read (ht : text = before ++ t) {header : Header} {settings : Settings}
    {opening after : Text} (ho : Opens (.ofText text) (size before) header settings opening after)
    (h : t = opening ++ '{' :: after) :
  ∃ rest, Header.read? t = some (header, rest) ∧ header.kind ≠ .refShort
    ∧ headerSettings? (.ofText text) (size text) rest = some (settings, '{' :: after)
  := by
  obtain ⟨names, groups, rfl, hr, hk, hg⟩ := ho
  refine ⟨groups ++ '{' :: after, ?_, hk, ?_⟩
  · rw [h]
    exact hr
  · have hu : text = (before ++ names) ++ (groups ++ '{' :: after) := by
      rw [ht, h]
      simp
    apply headerSettings?_of_bracketGroups hg hu
    rw [size_append]

/-- The segment of a text that is no block. -/
theorem holds_unknown (ht : text = before ++ t)
    (hb : ¬BeginsBlock (.ofText text) (size before) t) :
  ∃ span, t = span ++ (unknown (.ofText text) (size text) t).2
    ∧ Holds (.ofText text) (size before) (unknown (.ofText text) (size text) t).1 span
        (unknown (.ofText text) (size text) t).2
  := by
  have hline (hc : ∀ u rest, cutAtUnquoted '{' (firstLine t) = some (u, rest) →
      (DelimiterPairs.ofText text).closeOf? (size before + size u) = none) :
      ∃ span, t = span ++ fromLineEnd t
        ∧ Holds (.ofText text) (size before) (.skipped (.unknownDeclaration (firstLine t))) span
            (fromLineEnd t) := by
    refine ⟨firstLine t, (firstLine_append_fromLineEnd t).symm, .unknownLine ?_ ?_ ?_ hc⟩
    · rwa [firstLine_append_fromLineEnd]
    · apply newline_notMem_firstLine
    · apply endsLine_fromLineEnd
  rw [unknown]
  dsimp only
  rw [afterSkipped]
  split
  · rename_i u rest hu
    obtain ⟨tail, rfl, hf⟩ := eq_append_of_cutAtUnquoted hu
    have hd : t = u ++ '{' :: (tail ++ fromLineEnd t) := by
      have h := firstLine_append_fromLineEnd t
      rw [hf, List.append_assoc, List.cons_append] at h
      exact h.symm
    generalize tail ++ fromLineEnd t = after at hd
    have hs : t.drop u.length = '{' :: after := by
      rw [hd, List.drop_left]
    have hu' : text = (before ++ u) ++ '{' :: after := by
      rw [ht, hd, List.append_assoc]
    rw [hs]
    split
    · rename_i inner rest hg
      obtain ⟨opener, closer, hp, ho, hc⟩ := DelimiterPairs.splitGroup?_eq_some hu' hg
      obtain ⟨rfl, rfl⟩ := List.cons.inj ho
      obtain rfl := hp.closer_inj (.inl ⟨rfl, rfl⟩)
      subst hd
      rw [size_append] at hc
      refine ⟨u ++ '{' :: (inner ++ ['}']), by simp, .unknownGroup hb ⟨_, hu⟩ hc⟩
    · rename_i hg
      have hc := DelimiterPairs.splitGroup?_eq_none hu' hg
      apply hline
      intro v w hv
      rw [hu, Option.some.injEq, Prod.mk.injEq] at hv
      rw [← hv.1, ← size_append]
      exact hc
  · rename_i hu
    apply hline
    intro u rest h
    rw [hu] at h
    cases h

/-- There is only one header to read, so that a text begins no block if its header begins none. -/
theorem not_beginsBlock (ht : text = before ++ t)
    (h : ∀ header rest, Header.read? t = some (header, rest) → header.kind ≠ .refShort
      ∧ ∀ settings after,
        headerSettings? (.ofText text) (size text) rest ≠ some (settings, '{' :: after)) :
  ¬BeginsBlock (.ofText text) (size before) t
  := by
  rintro (⟨header, rest, hr, hk⟩ | ⟨header, settings, opening, after, hopening, ho⟩)
  · exact (h header rest hr).1 hk
  · obtain ⟨rest, hr, -, hs⟩ := ho.read ht hopening
    exact (h header rest hr).2 settings after hs

/-- The segment of a short reference ends with its line. -/
theorem holds_shortReference (ht : text = before ++ t) {header : Header} {rest : Text}
    (hr : Header.read? t = some (header, rest)) (hk : header.kind = .refShort) :
  ∃ span, t = span ++ fromLineEnd rest
    ∧ Holds (.ofText text) (size before)
        (.block ⟨header, [], firstLine rest, startOf (size text) rest⟩) span (fromLineEnd rest)
  := by
  obtain ⟨names, rfl, _⟩ := Header.exists_append hr
  have hl := firstLine_append_fromLineEnd rest
  have ho : startOf (size text) rest = size before + size names := by
    rw [ht, ← List.append_assoc, startOf_append, size_append]
  rw [ho]
  refine ⟨names ++ firstLine rest, ?_, .shortReference ?_ hk ?_ ?_⟩
  · rw [List.append_assoc, hl]
  · rw [List.append_assoc, hl]
    exact hr
  · apply newline_notMem_firstLine
  · apply endsLine_fromLineEnd

/-- The segment of a block with braces ends with the brace that closes it. -/
theorem holds_braces (ht : text = before ++ t) {header : Header} {settings : Settings}
    {opening body rest after : Text} (h : t = opening ++ '{' :: after)
    (ho : Opens (.ofText text) (size before) header settings opening after)
    (hg : (DelimiterPairs.ofText text).splitGroup? (size text) ('{' :: after) = some (body, rest)) :
  ∃ span, t = span ++ rest
    ∧ Holds (.ofText text) (size before)
        (.block ⟨header, settings, body, startOf (size text) ('{' :: after) + 1⟩) span rest
  := by
  have hu : text = (before ++ opening) ++ '{' :: after := by
    rw [ht, h, List.append_assoc]
  obtain ⟨opener, closer, hp, hb, hc⟩ := DelimiterPairs.splitGroup?_eq_some hu hg
  obtain ⟨rfl, rfl⟩ := List.cons.inj hb
  obtain rfl := hp.closer_inj (.inl ⟨rfl, rfl⟩)
  have hs : startOf (size text) ('{' :: (body ++ '}' :: rest)) = size before + size opening := by
    rw [hu, startOf_append, size_append]
  rw [hs]
  rw [size_append] at hc
  refine ⟨opening ++ '{' :: (body ++ ['}']), ?_, .braces ho hc⟩
  rw [h]
  simp

/-- The segment of a block that is never closed ends with its opening brace. -/
theorem holds_unclosed (ht : text = before ++ t) {header : Header} {settings : Settings}
    {opening after : Text} (h : t = opening ++ '{' :: after)
    (ho : Opens (.ofText text) (size before) header settings opening after)
    (hg : (DelimiterPairs.ofText text).splitGroup? (size text) ('{' :: after) = none) :
  ∃ span, t = span ++ after
    ∧ Holds (.ofText text) (size before) (.skipped (.unterminatedBlock header.kind)) span after
  := by
  have hu : text = (before ++ opening) ++ '{' :: after := by
    rw [ht, h, List.append_assoc]
  have hc := DelimiterPairs.splitGroup?_eq_none hu hg
  rw [size_append] at hc
  refine ⟨opening ++ ['{'], ?_, .unclosed ho hc⟩
  rw [h]
  simp

/-- The first segment of a text that begins with no blank holds what it is said to hold. -/
theorem holds_splitFirst (ht : text = before ++ t) :
  ∃ span, t = span ++ (splitFirst (.ofText text) (size text) t).2
    ∧ Holds (.ofText text) (size before) (splitFirst (.ofText text) (size text) t).1 span
        (splitFirst (.ofText text) (size text) t).2
  := by
  rw [splitFirst]
  split
  · rename_i hr
    apply holds_unknown ht (not_beginsBlock ht _)
    intro header rest h
    rw [hr] at h
    cases h
  · rename_i header rest hr
    -- the settings behind the header do not lead to a brace
    have hunknown (hk : header.kind ≠ .refShort) (hs : ∀ settings after,
        headerSettings? (.ofText text) (size text) rest ≠ some (settings, '{' :: after)) :=
      holds_unknown ht (not_beginsBlock ht fun header' rest' hr' => by
        rw [hr] at hr'
        cases hr'
        exact ⟨hk, hs⟩)
    split
    · rename_i hk
      exact holds_shortReference ht hr hk
    · rename_i hk
      split
      · rename_i hs
        apply hunknown hk
        intro settings after h
        rw [hs] at h
        cases h
      · rename_i settings rest' hs
        split
        · rename_i hh
          obtain ⟨after, rfl⟩ := List.head?_eq_some_iff.mp hh
          obtain ⟨opening, h, ho⟩ := opens_of_read? ht hr hk hs
          split
          · rename_i body u hg
            exact holds_braces ht h ho hg
          · rename_i hg
            exact holds_unclosed ht h ho hg
        · rename_i hh
          apply hunknown hk
          intro settings after h
          rw [hs] at h
          cases h
          exact hh rfl

/-- A run of blanks is a segment. -/
theorem split_of_isAsciiBlank (pairs : DelimiterPairs) (start finish : Nat) {c : Char}
    (hc : Unicode.isAsciiBlank c) (t : Text) :
  split pairs start finish (c :: t)
    = ⟨start, (c :: t).takeWhile Unicode.isAsciiBlank, .blank⟩
      :: split pairs (start + size ((c :: t).takeWhile Unicode.isAsciiBlank)) finish
          (skipBlanks (c :: t))
  := by
  have hs : skipBlanks (c :: t) = skipBlanks t := List.dropWhile_cons_of_pos hc
  rw [split, if_pos hc, List.takeWhile_cons_of_pos hc, hs]

/-- Where no blank stands, the first segment is split off and takes something with it. -/
theorem exists_split_eq_cons {c : Char} {u : Text} (ht : text = before ++ c :: u)
    (hc : ¬Unicode.isAsciiBlank c) :
  ∃ span, c :: u = span ++ (splitFirst (.ofText text) (size text) (c :: u)).2 ∧ span ≠ []
    ∧ Holds (.ofText text) (size before) (splitFirst (.ofText text) (size text) (c :: u)).1 span
        (splitFirst (.ofText text) (size text) (c :: u)).2
    ∧ split (.ofText text) (size before) (size text) (c :: u)
      = ⟨size before, span, (splitFirst (.ofText text) (size text) (c :: u)).1⟩
        :: split (.ofText text) (size before + size span) (size text)
            (splitFirst (.ofText text) (size text) (c :: u)).2
  := by
  have hl : (splitFirst (.ofText text) (size text) (c :: u)).2.length < (c :: u).length := by
    apply length_splitFirst_lt
    rintro rfl
    exact hc rfl
  obtain ⟨span, hs, hh⟩ := holds_splitFirst ht
  refine ⟨span, hs, ?_, hh, ?_⟩
  · rintro rfl
    exact absurd (congrArg List.length hs) (Nat.ne_of_gt hl)
  · rw [split, if_neg hc]
    generalize splitFirst (.ofText text) (size text) (c :: u) = first at hs
    have ho : startOf (size text) first.2 = size before + size span := by
      rw [ht, hs, ← List.append_assoc, startOf_append, size_append]
    dsimp only
    rw [ho, Nat.add_sub_cancel_left, hs, splitAtByte_size_append]

/-- The segments of an end of a text tile it. -/
theorem tiles_split (ht : text = before ++ t) :
  Tiles (.ofText text) (size before) t (split (.ofText text) (size before) (size text) t)
  := by
  induction hn : t.length using Nat.strong_induction_on generalizing before t with
  | h n ih =>
    have hcons {content : SegmentContent} {span after : Text} (h : t = span ++ after)
        (hs : span ≠ []) (hh : Holds (.ofText text) (size before) content span after) :
        Tiles (.ofText text) (size before) t (⟨size before, span, content⟩ ::
          split (.ofText text) (size before + size span) (size text) after) := by
      have hl : after.length < n := by
        rw [← hn, h, List.length_append]
        exact Nat.lt_add_of_pos_left (List.length_pos_iff.mpr hs)
      have hu : text = (before ++ span) ++ after := by
        rw [ht, h, List.append_assoc]
      have ih := ih after.length hl hu rfl
      rw [size_append] at ih
      rw [h]
      apply Tiles.cons hs hh ih
    cases t with
    | nil =>
      rw [split]
      apply Tiles.nil
    | cons c t =>
      by_cases hc : Unicode.isAsciiBlank c
      · rw [split_of_isAsciiBlank _ _ _ hc]
        apply hcons List.takeWhile_append_dropWhile.symm
        · rw [List.takeWhile_cons_of_pos hc]
          apply List.cons_ne_nil
        · apply Holds.blank
          · intro d hd
            apply List.mem_takeWhile_imp hd
          · intro d hd
            obtain ⟨u, hu⟩ := List.head?_eq_some_iff.mp hd
            apply isAsciiBlank_head_skipBlanks hu
      · obtain ⟨span, hs, hne, hh, heq⟩ := exists_split_eq_cons ht hc
        rw [heq]
        apply hcons hs hne hh

/-- The segments of a text tile it. -/
theorem tiles_ofText (t : Text) :
  Tiles (.ofText t) 0 t (ofText t)
  := tiles_split (List.nil_append t).symm

end

/-- Blanks at the start of a text are one segment, or belong to none. -/
theorem filterMap_split {α : Type} {f : Segment → Option α}
    (hf : ∀ start span, f ⟨start, span, .blank⟩ = none) (pairs : DelimiterPairs)
    (start finish : Nat) (t : Text) :
  (split pairs start finish t).filterMap f
    = (split pairs (start + size (t.takeWhile Unicode.isAsciiBlank)) finish
        (skipBlanks t)).filterMap f
  := by
  cases t with
  | nil => rfl
  | cons c t =>
    by_cases hc : Unicode.isAsciiBlank c
    · rw [split_of_isAsciiBlank _ _ _ hc]
      apply List.filterMap_cons_none (hf _ _)
    · rw [skipBlanks, List.dropWhile_cons, if_neg hc, List.takeWhile_cons, if_neg hc]
      rfl

/-! ## Segments that follow each other -/

section

variable {pairs : DelimiterPairs} {start : Nat} {t : Text} {segments : List Segment}

/-- The spans of segments that tile a text make up the text. -/
theorem Tiles.flatMap_span (h : Tiles pairs start t segments) :
  segments.flatMap Segment.span = t
  := by
  induction h with
  | nil => rfl
  | cons _ _ _ ih => rw [List.flatMap_cons, ih]

/-- A segment begins where those before it end. -/
theorem Tiles.holds {before after : List Segment} {s : Segment}
    (h : Tiles pairs start t (before ++ s :: after)) :
  s.offset = start + size (before.flatMap Segment.span) ∧ s.span ≠ []
    ∧ Holds pairs s.offset s.content s.span (after.flatMap Segment.span)
  := by
  induction before generalizing start t with
  | nil =>
    rw [List.nil_append] at h
    cases h with
    | cons hn hh hs =>
      rw [hs.flatMap_span]
      exact ⟨rfl, hn, hh⟩
  | cons r before ih =>
    rw [List.cons_append] at h
    cases h with
    | cons hn hh hs =>
      rw [List.flatMap_cons, size_append, ← Nat.add_assoc]
      apply ih hs

/-- A segment of a document begins between two parts of it. -/
theorem exists_offset {s : Segment} (hs : s ∈ ofText t) :
  ∃ before after, t = before ++ after ∧ s.offset = size before
  := by
  obtain ⟨l, r, hl⟩ := List.append_of_mem hs
  have ht := tiles_ofText t
  have hf := ht.flatMap_span
  rw [hl] at ht hf
  obtain ⟨ho, -, -⟩ := ht.holds
  rw [Nat.zero_add] at ho
  rw [List.flatMap_append] at hf
  exact ⟨_, _, hf.symm, ho⟩

/-- No segment starts before the text. -/
theorem Tiles.start_le (h : Tiles pairs start t segments) :
  ∀ s ∈ segments, start ≤ s.offset
  := by
  intro s hs
  obtain ⟨before, after, rfl⟩ := List.append_of_mem hs
  rw [h.holds.1]
  apply Nat.le_add_right

/-- Segments that tile a text do not overlap, and they stand in their order. -/
theorem Tiles.pairwise (h : Tiles pairs start t segments) :
  segments.Pairwise fun s s' => s.offset + size s.span ≤ s'.offset
  := by
  induction h with
  | nil => apply List.Pairwise.nil
  | cons _ _ hs ih => apply List.Pairwise.cons hs.start_le ih

end

/-! ## The bodies of blocks -/

/-- The body of a block lies in the segment of the block, behind its header.  That of a block
with braces lies between them, and the pairs say so. -/
theorem Holds.body {pairs : DelimiterPairs} {start : Nat} {block : Block} {span after : Text}
    (h : Holds pairs start (.block block) span after) :
  ∃ head tail, span = head ++ (block.body ++ tail) ∧ head ≠ []
    ∧ block.offset = start + size head
    ∧ (block.header.kind ≠ .refShort → ∃ opening, head = opening ++ ['{'] ∧ tail = ['}']
        ∧ pairs.closeOf? (start + size opening) = some block.finish)
  := by
  cases h with
  | @shortReference names line _ header hr hk hl ha =>
    refine ⟨names, [], ?_, ?_, rfl, fun h => absurd hk h⟩
    · rw [List.append_nil]
    · rintro rfl
      have := Header.length_read_lt hr
      rw [List.nil_append] at this
      exact absurd this (Nat.lt_irrefl _)
  | @braces header settings opening body _ ho hc =>
    refine ⟨opening ++ ['{'], ['}'], ?_, ?_, ?_, ?_⟩
    · simp
    · simp
    · rw [size_append]
      rfl
    · intro _
      exact ⟨opening, rfl, rfl, hc⟩

theorem block?_eq_some {s : Segment} {block : Block} (h : s.block? = some block) :
  s.content = .block block
  := by
  rw [block?] at h
  split at h
  · rename_i hc
    rw [hc, Option.some.inj h]
  · cases h

/-- A problem is reported where its segment begins. -/
theorem finding?_map_ofFinding (before after : Text) {s : Segment} (hs : s.offset = size before) :
  s.finding?.map (Diagnostic.ofFinding (.ofText (before ++ after)))
    = match s.content with
      | .skipped problem => some ⟨problem.kind, (Position.after before).line,
          (Position.after before).column, problem.message⟩
      | _ => none
  := by
  rw [finding?, hs, ← LineIndex.locate_size before after]
  cases s.content <;> rfl

end Segment

/-- A block of a document is held by a part of it. -/
theorem exists_holds_of_mem_blocks {t : Text} {block : Block}
    (h : block ∈ (Segment.ofText t).filterMap Segment.block?) :
  ∃ before span after, t = before ++ (span ++ after)
    ∧ Segment.Holds (.ofText t) (size before) (.block block) span after
  := by
  obtain ⟨s, hs, hb⟩ := List.mem_filterMap.mp h
  obtain ⟨l, r, hl⟩ := List.append_of_mem hs
  have ht := Segment.tiles_ofText t
  have hf := ht.flatMap_span
  rw [hl] at ht hf
  obtain ⟨ho, _, hh⟩ := ht.holds
  rw [Nat.zero_add] at ho
  rw [Segment.block?_eq_some hb, ho] at hh
  rw [List.flatMap_append, List.flatMap_cons] at hf
  exact ⟨_, _, _, hf.symm, hh⟩

/-- A block of a document is a part of it. -/
theorem exists_append_of_mem_blocks {t : Text} {block : Block}
    (h : block ∈ (Segment.ofText t).filterMap Segment.block?) :
  ∃ before after, t = before ++ (block.body ++ after) ∧ block.offset = size before
    ∧ (block.header.kind ≠ .refShort → ∃ u v, before = u ++ ['{'] ∧ after = '}' :: v
        ∧ (DelimiterPairs.ofText t).closeOf? (size u) = some block.finish)
  := by
  obtain ⟨u, _, v, ht, hh⟩ := exists_holds_of_mem_blocks h
  obtain ⟨head, tail, rfl, _, hoff, hbraces⟩ := hh.body
  refine ⟨u ++ head, tail ++ v, ?_, ?_, ?_⟩
  · rw [ht]
    simp only [List.append_assoc]
  · rw [hoff, size_append]
  · intro hk
    obtain ⟨opening, rfl, rfl, hc⟩ := hbraces hk
    refine ⟨u ++ opening, v, ?_, rfl, ?_⟩
    · rw [List.append_assoc]
    · rwa [size_append]

/-- The bodies of the blocks of a document follow each other, with something in between. -/
theorem pairwise_blocks (t : Text) :
  ((Segment.ofText t).filterMap Segment.block?).Pairwise fun b b' => b.finish < b'.offset
  := by
  have ht := Segment.tiles_ofText t
  have hh {s : Segment} (hs : s ∈ Segment.ofText t) {block : Block} (hb : s.block? = some block) :
      s.offset < block.offset ∧ block.finish ≤ s.offset + size s.span := by
    obtain ⟨l, r, hl⟩ := List.append_of_mem hs
    rw [hl] at ht
    obtain ⟨_, _, hh⟩ := ht.holds
    rw [Segment.block?_eq_some hb] at hh
    obtain ⟨head, tail, hspan, hne, hoff, _⟩ := hh.body
    have hp : 0 < size head := by
      obtain ⟨c, head, rfl⟩ := List.exists_cons_of_ne_nil hne
      apply Nat.add_pos_left (Char.utf8Size_pos c)
    rw [Block.finish, hspan, hoff, size_append, size_append]
    constructor <;> omega
  apply List.pairwise_filterMap.mpr
  apply ht.pairwise.imp_of_mem
  intro s s' hs hs' hle b hb b' hb'
  have h₁ := (hh hs hb).2
  have h₂ := (hh hs' hb').1
  omega

/-- The segments of a document account for every byte of it once.  Each of them begins where the
last one ended and holds what it is said to hold; one that is skipped is reported where it begins,
and no other one is.  The body of every block stands in the text at its offset, that of a block
with braces between them, and the blocks come in the order of the text. -/
theorem segments_account_for_text (t : Text) :
  (Segment.ofText t).flatMap Segment.span = t
    ∧ (∀ before s after, Segment.ofText t = before ++ s :: after →
        s.offset = size (before.flatMap Segment.span) ∧ s.span ≠ []
          ∧ Segment.Holds (.ofText t) s.offset s.content s.span (after.flatMap Segment.span)
          ∧ s.finding?.map (Diagnostic.ofFinding (.ofText t))
            = match s.content with
              | .skipped problem =>
                some ⟨problem.kind, (Position.after (before.flatMap Segment.span)).line,
                  (Position.after (before.flatMap Segment.span)).column, problem.message⟩
              | _ => none)
    ∧ (∀ block ∈ (Segment.ofText t).filterMap Segment.block?,
        ∃ before after, t = before ++ (block.body ++ after) ∧ block.offset = size before
          ∧ (block.header.kind ≠ .refShort → ∃ u v, before = u ++ ['{'] ∧ after = '}' :: v
              ∧ (DelimiterPairs.ofText t).closeOf? (size u) = some block.finish))
    ∧ ((Segment.ofText t).filterMap Segment.block?).Pairwise fun b b' => b.finish < b'.offset
  := by
  have ht := Segment.tiles_ofText t
  refine ⟨ht.flatMap_span, ?_, fun _ => exists_append_of_mem_blocks, pairwise_blocks t⟩
  intro before s after h
  have hf := ht.flatMap_span
  rw [h] at ht hf
  obtain ⟨ho, hn, hh⟩ := ht.holds
  rw [Nat.zero_add] at ho
  rw [List.flatMap_append] at hf
  have hd := Segment.finding?_map_ofFinding _ ((s :: after).flatMap Segment.span) ho
  rw [hf] at hd
  exact ⟨ho, hn, hh, hd⟩

end DatabaseMarkup
