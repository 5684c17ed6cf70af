import DatabaseMarkup.Proofs.Block.Seam

/-!
# Headers of blocks that are never closed

A block that is never closed is skipped up to its opening brace.
`unclosed_headers_cost_themselves` states that the text behind such a header is then scanned as it
is alone, provided that no brace of it closes the one of the header, and so is a text behind any
number of such headers.
-/

namespace DatabaseMarkup

open Text

namespace Segment

/-- Whether a text is the header of a block of the given kind, up to its opening brace, in which the
bracket groups of the settings are closed and no literal waits for three apostrophes. -/
structure IsOpening (kind : BlockKind) (h : Text) : Prop where
  opens : ∃ header settings opening, h = opening ++ ['{'] ∧ header.kind = kind
    ∧ Opens (.ofText h) 0 header settings opening []
  tripleQuote : Lexeme.loneTripleQuote ∉ lexemes h

/-- The diagnostic of a block of the given kind that begins on the given line and is never closed. -/
def unterminated (line : Nat) (kind : BlockKind) : Diagnostic :=
  let problem := Problem.unterminatedBlock kind
  ⟨problem.kind, line, 1, problem.message⟩

/-- The diagnostics of headers that stand below each other, from the given line on. -/
def unterminatedFrom (line : Nat) : List (BlockKind × Text) → List Diagnostic
  | [] => []
  | (kind, h) :: headers =>
    unterminated line kind :: unterminatedFrom (line + h.count '\n' + 1) headers

/-- Headers that stand below each other, with a text below them. -/
def below (headers : List (BlockKind × Text)) (t : Text) : Text :=
  headers.foldr (fun (_, h) u => h ++ '\n' :: u) t

section

variable {kind : BlockKind} {h : Text}

/-! ## The segment of a header -/

/-- A header that opens a block ends with its brace. -/
theorem IsOpening.endsWithBrace (hh : IsOpening kind h) :
  EndsWithBrace h
  := by
  obtain ⟨header, settings, opening, rfl, -⟩ := hh.opens
  use '{', by decide
  apply List.suffix_append

theorem IsOpening.closesLiterals (hh : IsOpening kind h) :
  ClosesLiterals h
  := ⟨hh.endsWithBrace.not_backslash, hh.tripleQuote⟩

/-- The bracket groups of a header are closed where they were if more pairs are recorded. -/
theorem BracketGroups.mono {pairs pairs' : DelimiterPairs}
    (hp : ∀ a b, pairs.closeOf? a = some b → pairs'.closeOf? a = some b) {start : Nat}
    {groups : Text} {settings : Settings} (hg : BracketGroups pairs start groups settings) :
  BracketGroups pairs' start groups settings
  := by
  induction hg with
  | blanks hb => exact .blanks hb
  | group hb hc _ ih => exact .group hb (hp _ _ hc) ih

/-- A header opens its block also before other text. -/
theorem IsOpening.opens_append (hh : IsOpening kind h) (t : Text) :
  ∃ header settings opening, h = opening ++ ['{'] ∧ header.kind = kind
    ∧ Opens (.ofText (h ++ '\n' :: t)) 0 header settings opening ('\n' :: t)
  := by
  obtain ⟨header, settings, opening, hopening, hkind, names, groups, rfl, hr, hk, hg⟩ := hh.opens
  refine ⟨header, settings, names ++ groups, hopening, hkind, names, groups, rfl, ?_, hk, ?_⟩
  · rw [hopening] at hh
    have hread := Header.read?_append (.inr ⟨t, rfl⟩) hh.endsWithBrace
    rw [hr] at hread
    simpa using hread
  · apply hg.mono
    intro a b hab
    apply DelimiterPairs.closeOf?_of_append (lexemes_append_newline hh.closesLiterals t) hab

/-- The brace of a header is not closed by a text that closes its own braces only. -/
theorem IsOpening.closeOf?_eq_none (hh : IsOpening kind h) {opening t : Text}
    (ho : h = opening ++ ['{']) (ht : ClosesOwnBraces t) :
  (DelimiterPairs.ofText (h ++ '\n' :: t)).closeOf? (size opening) = none
  := by
  obtain ⟨ls, hls⟩ := exists_lexemes_concat rfl ho
  have hl := lexemes_append_newline hh.closesLiterals t
  rw [hls, List.append_assoc, List.singleton_append] at hl
  have hsize : size (ofLexemes ls) = size opening := by
    have h := congrArg size (ofLexemes_lexemes h)
    rw [hls, ofLexemes_append, size_append, ho, size_append] at h
    exact Nat.add_right_cancel h
  rw [← hsize, DelimiterPairs.closeOf?_lexeme (.inl ⟨rfl, rfl⟩) hl, closeOffset?,
    DelimiterPairs.closeLexemes_eq_none (by decide), Option.map_none]
  intro ms hms
  rcases ms with _ | ⟨m, ms⟩
  · exact Nat.zero_le _
  · obtain ⟨rfl, hprefix⟩ := List.cons_prefix_cons.mp hms
    rw [List.count_cons_of_ne (by decide), List.count_cons_of_ne (by decide)]
    apply ht ms hprefix

/-- The first segment of a text behind a header that is never closed is the header. -/
theorem IsOpening.ofText_append (hh : IsOpening kind h) {t : Text} (ht : ClosesOwnBraces t) :
  ofText (h ++ '\n' :: t)
    = ⟨0, h, .skipped (.unterminatedBlock kind)⟩
      :: split (.ofText (h ++ '\n' :: t)) (size h) (size (h ++ '\n' :: t)) ('\n' :: t)
  := by
  obtain ⟨header, settings, opening, ho, hkind, hopens⟩ := hh.opens_append t
  have hclose := hh.closeOf?_eq_none ho ht
  have htext : h ++ '\n' :: t = opening ++ '{' :: '\n' :: t := by
    rw [ho, List.append_assoc, List.singleton_append]
  obtain ⟨rest, hr, hk, hs⟩ := hopens.read (List.nil_append _).symm htext
  have hgroup := DelimiterPairs.splitGroup?_of_closeOf?_eq_none htext hclose
  have hfirst : splitFirst (.ofText (h ++ '\n' :: t)) (size (h ++ '\n' :: t)) (h ++ '\n' :: t)
      = (.skipped (.unterminatedBlock kind), '\n' :: t) := by
    rw [splitFirst, hr]
    dsimp only
    rw [if_neg hk, hs]
    dsimp only
    rw [List.head?_cons, if_pos rfl, hgroup, hkind]
    rfl
  obtain ⟨c, u, hc⟩ := List.exists_cons_of_ne_nil hh.endsWithBrace.ne_nil
  have hblank : ¬Unicode.isAsciiBlank c := by
    rw [hc, List.cons_append] at hr
    rw [Header.isAsciiBlank_head hr]
    exact Bool.false_ne_true
  have hcons : h ++ '\n' :: t = [] ++ c :: (u ++ '\n' :: t) := by
    rw [hc]
    rfl
  obtain ⟨span, hspan, -, -, hsplit⟩ := exists_split_eq_cons hcons hblank
  rw [← List.cons_append, ← hc, hfirst] at hspan hsplit
  obtain rfl := (List.append_left_inj _).mp hspan
  rw [size_nil, Nat.zero_add] at hsplit
  exact hsplit

/-- A header that is never closed is one diagnostic, and what follows is scanned as it is alone. -/
theorem IsOpening.scan_append (hh : IsOpening kind h) {t : Text} (ht : ClosesOwnBraces t) :
  blocks (h ++ '\n' :: t) = (blocks t).map (Block.moved (size h + 1))
    ∧ diagnostics (h ++ '\n' :: t)
      = unterminated 1 kind :: (diagnostics t).map (Diagnostic.moved (h.count '\n' + 1))
  := by
  have hsegments := hh.ofText_append ht
  constructor
  · rw [blocks, hsegments, List.filterMap_cons_none rfl,
      filterMap_split_newline (fun _ _ => rfl) hh.closesLiterals, filterMap_block?_moved]
    rfl
  · have hd : diagnostic? (h ++ '\n' :: t) ⟨0, h, .skipped (.unterminatedBlock kind)⟩
        = some (unterminated 1 kind) := finding?_map_ofFinding [] (h ++ '\n' :: t) rfl
    rw [diagnostics_eq, hsegments, List.filterMap_cons_some hd,
      filterMap_split_newline (fun _ _ => rfl) hh.closesLiterals, filterMap_diagnostic?_moved]

/-! ## Headers below each other -/

/-- Two texts on lines of their own close their braces together if each of them does. -/
theorem closesOwnBraces_append_newline {s t : Text} (hl : ClosesLiterals s)
    (hs : ClosesOwnBraces s) (ht : ClosesOwnBraces t) :
  ClosesOwnBraces (s ++ '\n' :: t)
  := by
  rintro ms ⟨rest, hms⟩
  rw [lexemes_append_newline hl] at hms
  rcases List.append_eq_append_iff.mp hms with ⟨more, hm, -⟩ | ⟨more, rfl, hm⟩
  · apply hs ms ⟨more, hm.symm⟩
  · have hlexemes := hs (lexemes s) List.prefix_rfl
    rcases more with _ | ⟨m, more⟩
    · rwa [List.append_nil]
    · obtain ⟨rfl, hmore⟩ := List.cons.inj hm
      have := ht more ⟨rest, hmore.symm⟩
      rw [List.count_append, List.count_append, List.count_cons_of_ne (by decide),
        List.count_cons_of_ne (by decide)]
      omega

/-- Headers that close their own braces and a text that does go together, on lines of their own. -/
theorem closesOwnBraces_below {headers : List (BlockKind × Text)} {t : Text}
    (hh : ∀ p ∈ headers, IsOpening p.1 p.2) (hb : ∀ p ∈ headers, ClosesOwnBraces p.2)
    (ht : ClosesOwnBraces t) :
  ClosesOwnBraces (below headers t)
  := by
  induction headers with
  | nil => exact ht
  | cons p headers ih =>
    obtain ⟨hp, hh⟩ := List.forall_mem_cons.mp hh
    obtain ⟨hpb, hb⟩ := List.forall_mem_cons.mp hb
    apply closesOwnBraces_append_newline hp.closesLiterals hpb (ih hh hb)

/-- The diagnostics of unterminated headers move with their lines. -/
theorem map_moved_unterminatedFrom (n line : Nat) (headers : List (BlockKind × Text)) :
  (unterminatedFrom line headers).map (Diagnostic.moved n) = unterminatedFrom (n + line) headers
  := by
  induction headers generalizing line with
  | nil => rfl
  | cons p headers ih =>
    rw [unterminatedFrom, unterminatedFrom, List.map_cons, ih, ← Nat.add_assoc, ← Nat.add_assoc]
    rfl

/-- Each of the headers is one diagnostic, and the text below them is scanned as it is alone. -/
theorem scan_below {headers : List (BlockKind × Text)} {t : Text}
    (hh : ∀ p ∈ headers, IsOpening p.1 p.2) (hb : ∀ p ∈ headers.tail, ClosesOwnBraces p.2)
    (ht : ClosesOwnBraces t) :
  blocks (below headers t) = (blocks t).map (Block.moved (size (below headers [])))
    ∧ diagnostics (below headers t) = unterminatedFrom 1 headers
      ++ (diagnostics t).map (Diagnostic.moved ((below headers []).count '\n'))
  := by
  induction headers with
  | nil =>
    constructor
    · exact (List.map_id'' Block.moved_zero _).symm
    · exact (List.map_id'' Diagnostic.moved_zero _).symm
  | cons p headers ih =>
    obtain ⟨kind, h⟩ := p
    obtain ⟨hp, hh⟩ := List.forall_mem_cons.mp hh
    rw [List.tail_cons] at hb
    obtain ⟨hblocks, hdiagnostics⟩ := ih hh fun p hm => hb p (List.mem_of_mem_tail hm)
    have hscan := hp.scan_append (closesOwnBraces_below hh hb ht)
    have hbelow (u : Text) : below ((kind, h) :: headers) u = h ++ '\n' :: below headers u := rfl
    constructor
    · have hsize : size (below ((kind, h) :: headers) []) = size h + 1 + size (below headers []) := by
        rw [hbelow, size_append, size_cons, ← Nat.add_assoc]
        rfl
      rw [hbelow, hscan.1, hblocks, List.map_map, hsize]
      congr 1
      funext block
      apply Block.moved_moved
    · have hcount : (below ((kind, h) :: headers) []).count '\n'
          = h.count '\n' + 1 + (below headers []).count '\n' := by
        rw [hbelow, List.count_append, List.count_cons_self]
        omega
      rw [hbelow, hscan.2, hdiagnostics, List.map_append, map_moved_unterminatedFrom, List.map_map,
        hcount, unterminatedFrom, List.cons_append, Nat.add_comm 1 (h.count '\n'),
        Nat.add_right_comm]
      congr 3
      funext d
      apply Diagnostic.moved_moved

/-- A header and its settings, before a brace that is the last character, are an opening. -/
theorem isOpening_of_read? {header : Header} {settings : Settings} {rest : Text}
    (hr : Header.read? h = some (header, rest)) (hk : header.kind = kind ∧ kind ≠ .refShort)
    (hs : headerSettings? (.ofText h) (size h) rest = some (settings, ['{']))
    (hq : Lexeme.loneTripleQuote ∉ lexemes h) :
  IsOpening kind h
  := by
  obtain ⟨opening, ho, hopens⟩ := opens_of_read? (List.nil_append h).symm hr (hk.1 ▸ hk.2) hs
  exact ⟨⟨header, settings, opening, ho, hk.1, hopens⟩, hq⟩

end

end Segment

open Segment

/-- The header of a block that is never closed is one diagnostic, where it begins, and the text behind
it is scanned as it is alone, further on by the header, if no brace of the text closes that of the
header.  The same holds of any number of headers below each other, each of which is one diagnostic
where it begins, if neither the text nor a header other than the first one has a brace that closes one
in front of it. -/
theorem unclosed_headers_cost_themselves :
  (∀ (kind : BlockKind) (h t : Text), IsOpening kind h → ClosesOwnBraces t →
      blocks (h ++ '\n' :: t) = (blocks t).map (Block.moved (size h + 1))
        ∧ diagnostics (h ++ '\n' :: t)
          = unterminated 1 kind :: (diagnostics t).map (Diagnostic.moved (h.count '\n' + 1)))
    ∧ ∀ (headers : List (BlockKind × Text)) (t : Text), (∀ p ∈ headers, IsOpening p.1 p.2) →
      (∀ p ∈ headers.tail, ClosesOwnBraces p.2) → ClosesOwnBraces t →
      blocks (below headers t) = (blocks t).map (Block.moved (size (below headers [])))
        ∧ diagnostics (below headers t) = unterminatedFrom 1 headers
          ++ (diagnostics t).map (Diagnostic.moved ((below headers []).count '\n'))
  := by
  constructor
  · intro kind h t hh ht
    exact hh.scan_append ht
  · intro headers t hh hb ht
    exact scan_below hh hb ht

/-- Two headers that are never closed, of which the second one has braces in its name and in its
settings, cost two diagnostics. -/
theorem two_unclosed_headers :
  let first := "Table a \x7b".toList
  let second := "enum \x22\x7d\x22 [note: \x27\x7d\x27,\n  x \x7b\x7d]\n\x7b".toList
  let headers := [(BlockKind.table, first), (BlockKind.enum, second)]
  let t := "id int\nTable b \x7b id int \x7d".toList
  (IsOpening .table first ∧ IsOpening .enum second ∧ ClosesOwnBraces second ∧ ClosesOwnBraces t)
    ∧ blocks (below headers t) = (blocks t).map (Block.moved (size (below headers [])))
    ∧ diagnostics (below headers t) = unterminatedFrom 1 headers
      ++ (diagnostics t).map (Diagnostic.moved ((below headers []).count '\n'))
  := by
  have hfirst : IsOpening .table "Table a \x7b".toList :=
    @isOpening_of_read? _ _ { kind := .table, name := some ['a'] } [] " \x7b".toList
      (by decide +kernel) (by decide) (by decide +kernel) (by decide +kernel)
  have hsecond : IsOpening .enum
      "enum \x22\x7d\x22 [note: \x27\x7d\x27,\n  x \x7b\x7d]\n\x7b".toList :=
    @isOpening_of_read? _ _ { kind := .enum, name := some "\x22\x7d\x22".toList }
      (Settings.readList "note: \x27\x7d\x27,\n  x \x7b\x7d".toList)
      " [note: \x27\x7d\x27,\n  x \x7b\x7d]\n\x7b".toList
      (by decide +kernel) (by decide) (by decide +kernel) (by decide +kernel)
  have hbraces : ClosesOwnBraces "enum \x22\x7d\x22 [note: \x27\x7d\x27,\n  x \x7b\x7d]\n\x7b".toList := by
    decide +kernel
  have ht : ClosesOwnBraces "id int\nTable b \x7b id int \x7d".toList := by
    decide +kernel
  refine ⟨⟨hfirst, hsecond, hbraces, ht⟩, unclosed_headers_cost_themselves.2 _ _ ?_ ?_ ht⟩
  · exact List.forall_mem_cons.mpr ⟨hfirst, List.forall_mem_singleton.mpr hsecond⟩
  · exact List.forall_mem_singleton.mpr hbraces

/-- A brace in the settings of a header that is never closed closes the brace of a header above it,
which is then a block. -/
theorem unclosed_header_closes_another :
  let first := "Table a \x7b".toList
  let second := "Table b [x \x7d] \x7b".toList
  let headers := [(BlockKind.table, first), (BlockKind.table, second)]
  (IsOpening .table first ∧ IsOpening .table second ∧ ClosesOwnBraces [])
    ∧ (blocks (below headers [])).map Block.body = ["\nTable b [x ".toList]
    ∧ blocks (below headers []) ≠ (blocks []).map (Block.moved (size (below headers [])))
    ∧ diagnostics (below headers [])
      = [⟨.unknownDeclaration, 2, 13, (Problem.unknownDeclaration "] \x7b".toList).message⟩]
  := by
  have hfirst : IsOpening .table "Table a \x7b".toList :=
    @isOpening_of_read? _ _ { kind := .table, name := some ['a'] } [] " \x7b".toList
      (by decide +kernel) (by decide) (by decide +kernel) (by decide +kernel)
  have hsecond : IsOpening .table "Table b [x \x7d] \x7b".toList :=
    @isOpening_of_read? _ _ { kind := .table, name := some ['b'] }
      (Settings.readList "x \x7d".toList) " [x \x7d] \x7b".toList
      (by decide +kernel) (by decide) (by decide +kernel) (by decide +kernel)
  refine ⟨⟨hfirst, hsecond, ?_⟩, ?_, ?_, ?_⟩
  all_goals decide +kernel

end DatabaseMarkup
