import DatabaseMarkup.Document.Reader
import DatabaseMarkup.Proofs.Text.Octets
import Mathlib.Data.List.Forall2

/-!
# Blanking of comments

A text is read from left to right as quoted literals, comments and other characters
(`CommentReading`).  `Text.stripComments` keeps all of it but the comments, of which every byte
other than a newline becomes a space, so that no byte moves.

To blank the comments a second time changes nothing.  A quote without a partner stays without
one: blanking takes quotes and backslashes away, and the only backslash whose loss matters is
the last character of a comment, after which the line or the text ends.  `LineScan` follows the
search for the partner of a quote character by character, and `foldl_step_stripComments` carries
the argument.
-/

namespace DatabaseMarkup

open Text

/-! ## Comments -/

/-- `IsComment comment rest`: in front of `rest` the text `comment` is a comment.  It reaches to
the end of the line, or to the first `*/` after its first two characters, or to the end of the
text if there is none. -/
inductive IsComment : Text → Text → Prop where
  | line {body rest : Text} (hb : '\n' ∉ body) (hr : EndsLine rest) :
      IsComment ('/' :: '/' :: body) rest
  | block {body rest : Text} (hb : ¬['*', '/'] <:+: body ++ ['*']) :
      IsComment ('/' :: '*' :: body ++ ['*', '/']) rest
  | endless {body : Text} (hb : ¬['*', '/'] <:+: body) :
      IsComment ('/' :: '*' :: body) []

/-- What is cut off as a comment is one. -/
theorem IsComment.of_splitComment {t comment rest : Text}
    (h : splitComment? t = some (comment, rest)) :
  t = comment ++ rest ∧ IsComment comment rest
  := by
  obtain ⟨more, -, ht⟩ := Octets.eq_append_of_splitComment h
  use ht
  rw [splitComment?] at h
  split at h
  · rename_i hp
    obtain ⟨u, rfl⟩ := List.isPrefixOf_iff_prefix.mp hp
    simp only [Option.some.injEq, Prod.mk.injEq] at h
    obtain ⟨rfl, rfl⟩ := h
    apply IsComment.line
    · apply newline_notMem_firstLine
    · apply endsLine_fromLineEnd
  · split at h
    · rename_i hp
      obtain ⟨u, rfl⟩ := List.isPrefixOf_iff_prefix.mp hp
      split at h
      · rename_i hm
        simp only [Option.some.injEq, Prod.mk.injEq] at h
        obtain ⟨rfl, rfl⟩ := h
        apply IsComment.block
        apply not_isInfix_of_cutAtMark (by decide) hm
      · rename_i hm
        simp only [Option.some.injEq, Prod.mk.injEq] at h
        obtain ⟨rfl, rfl⟩ := h
        apply IsComment.endless
        apply (cutAtMark_eq_none_iff (by decide)).mp hm
    · cases h

/-- A comment is cut off as a whole. -/
theorem IsComment.splitComment {comment rest : Text} (h : IsComment comment rest) :
  splitComment? (comment ++ rest) = some (comment, rest)
  := by
  cases h with
  | @line body _ hb hr =>
    have hn : '\n' ∉ '/' :: '/' :: body := by
      rintro (_ | ⟨_, _ | ⟨_, h⟩⟩)
      exact hb h
    have hp : ['/', '/'].isPrefixOf ('/' :: '/' :: body ++ rest) := rfl
    rw [splitComment?, if_pos hp, firstLine_append hn hr, fromLineEnd_append hn hr]
  | @block body _ hb =>
    have hm : cutAtMark ['*', '/'] (body ++ ['*', '/'] ++ rest) = some (body, rest) :=
      (cutAtMark_eq_some_iff (by decide)).mpr ⟨rfl, hb⟩
    have hl : ¬['/', '/'].isPrefixOf ('/' :: '*' :: body ++ ['*', '/'] ++ rest) := by simp
    have hp : ['/', '*'].isPrefixOf ('/' :: '*' :: body ++ ['*', '/'] ++ rest) := rfl
    rw [splitComment?, if_neg hl, if_pos hp]
    simp only [List.cons_append, List.drop_succ_cons, List.drop_zero, hm]
    rfl
  | @endless body hb =>
    have hm := (cutAtMark_eq_none_iff (by decide)).mpr hb
    have hl : ¬['/', '/'].isPrefixOf ('/' :: '*' :: body ++ []) := by simp
    have hp : ['/', '*'].isPrefixOf ('/' :: '*' :: body ++ []) := rfl
    rw [splitComment?, if_neg hl, if_pos hp]
    simp only [List.append_nil, List.drop_succ_cons, List.drop_zero, hm]

/-- `splitComment?` finds the comments. -/
theorem splitComment?_eq_some_iff {t comment rest : Text} :
  splitComment? t = some (comment, rest) ↔ t = comment ++ rest ∧ IsComment comment rest
  := by
  constructor
  · exact IsComment.of_splitComment
  · rintro ⟨rfl, h⟩
    exact h.splitComment

/-! ## The parts of a text -/

/-- A part of a text that is read with its comments: a quoted literal, a comment or another
character. -/
inductive CommentPart where
  | literal (text : Text)
  | comment (text : Text)
  | plain (c : Char)

namespace CommentPart

/-- The text of a part. -/
def text : CommentPart → Text
  | literal t => t
  | comment t => t
  | plain c => [c]

/-- What is left of a part when comments are blanked. -/
def stripped : CommentPart → Text
  | literal t => t
  | comment t => blanked t
  | plain c => [c]

end CommentPart

/-- `CommentReading t parts`: read from left to right, the text `t` consists of the given parts.
A quote begins a literal wherever it is met outside of literals and comments. -/
inductive CommentReading : Text → List CommentPart → Prop where
  | nil : CommentReading [] []
  | literal {c : Char} {t : Text} {parts : List CommentPart} (hq : isQuote c)
      (h : CommentReading (Lexeme.first c t).2 parts) :
      CommentReading (c :: t) (.literal (Lexeme.first c t).1.text :: parts)
  | comment {comment rest : Text} {parts : List CommentPart} (hc : IsComment comment rest)
      (h : CommentReading rest parts) :
      CommentReading (comment ++ rest) (.comment comment :: parts)
  | plain {c : Char} {t : Text} {parts : List CommentPart} (hq : ¬isQuote c)
      (hc : ∀ comment rest, c :: t = comment ++ rest → ¬IsComment comment rest)
      (h : CommentReading t parts) :
      CommentReading (c :: t) (.plain c :: parts)

/-- The parts of a reading make up the text. -/
theorem CommentReading.flatMap_text {t : Text} {parts : List CommentPart}
    (h : CommentReading t parts) :
  parts.flatMap CommentPart.text = t
  := by
  induction h with
  | nil => rfl
  | literal hq h ih =>
    rw [List.flatMap_cons, ih]
    apply Lexeme.text_first_append
  | comment hc h ih =>
    rw [List.flatMap_cons, ih]
    rfl
  | plain hq hc h ih =>
    rw [List.flatMap_cons, ih]
    rfl

/-- A literal is kept as it is, and comments are sought behind it. -/
theorem stripComments_literal {c : Char} (hq : isQuote c) (t : Text) :
  stripComments (c :: t) = (Lexeme.first c t).1.text ++ stripComments (Lexeme.first c t).2
  := by
  rw [stripComments, if_pos hq]

/-- A comment is blanked, and further ones are sought behind it. -/
theorem stripComments_comment {comment rest : Text} (h : IsComment comment rest) :
  stripComments (comment ++ rest) = blanked comment ++ stripComments rest
  := by
  have hs := h.splitComment
  obtain ⟨more, rfl, -⟩ := Octets.eq_append_of_splitComment hs
  rw [List.cons_append] at hs ⊢
  rw [stripComments, if_neg (by decide)]
  split
  · rename_i hs'
    rw [hs, Option.some.injEq, Prod.mk.injEq] at hs'
    rw [hs'.1, hs'.2]
  · rename_i hs'
    rw [hs] at hs'
    cases hs'

/-- A character that starts neither a literal nor a comment is kept. -/
theorem stripComments_plain {c : Char} {t : Text} (hq : isQuote c = false)
    (hc : splitComment? (c :: t) = none) :
  stripComments (c :: t) = c :: stripComments t
  := by
  rw [stripComments, hq, if_neg Bool.false_ne_true]
  split
  · rename_i h
    rw [hc] at h
    cases h
  · rfl

/-- No comment is cut off where none starts. -/
theorem splitComment?_eq_none {t : Text}
    (h : ∀ comment rest, t = comment ++ rest → ¬IsComment comment rest) :
  splitComment? t = none
  := by
  apply Option.eq_none_iff_forall_ne_some.mpr
  rintro ⟨comment, rest⟩ hs
  obtain ⟨ht, hc⟩ := splitComment?_eq_some_iff.mp hs
  exact h comment rest ht hc

/-- Only the comments that are read are blanked. -/
theorem CommentReading.flatMap_stripped {t : Text} {parts : List CommentPart}
    (h : CommentReading t parts) :
  parts.flatMap CommentPart.stripped = stripComments t
  := by
  induction h with
  | nil => rw [stripComments, List.flatMap_nil]
  | literal hq h ih =>
    rw [stripComments_literal hq, List.flatMap_cons, ih]
    rfl
  | comment hc h ih =>
    rw [stripComments_comment hc, List.flatMap_cons, ih]
    rfl
  | plain hq hc h ih =>
    rw [stripComments_plain (eq_false_of_ne_true hq) (splitComment?_eq_none hc),
      List.flatMap_cons, ih]
    rfl

/-- Every text has a reading into comments, literals and other characters. -/
theorem exists_commentReading (t : Text) :
  ∃ parts, CommentReading t parts
  := by
  fun_induction stripComments t with
  | case1 => exact ⟨[], .nil⟩
  | case2 c t hq ih =>
    obtain ⟨parts, h⟩ := ih
    exact ⟨_, .literal hq h⟩
  | case3 c t hq comment rest hc ih =>
    obtain ⟨parts, h⟩ := ih
    obtain ⟨ht, hc⟩ := splitComment?_eq_some_iff.mp hc
    rw [ht]
    exact ⟨_, .comment hc h⟩
  | case4 c t hq hc ih =>
    obtain ⟨parts, h⟩ := ih
    use .plain c :: parts
    apply CommentReading.plain hq _ h
    intro comment rest ht hi
    rw [ht, hi.splitComment] at hc
    cases hc

/-! ## Bytes keep their places -/

/-- What may become of a byte when comments are blanked: it stays, or it becomes a space in the
place of a byte that is no newline. -/
def KeptOrBlank (b d : UInt8) : Prop :=
  d = b ∨ d = Octets.octet ' ' ∧ b ≠ Octets.octet '\n'

/-- Blanking a byte keeps a newline and makes a space of any other byte. -/
theorem keptOrBlank_blankOut (b : UInt8) :
  KeptOrBlank b (Octets.blankOut b)
  := by
  rw [Octets.blankOut]
  split
  · exact .inl rfl
  · rename_i h
    exact .inr ⟨rfl, h⟩

/-- Every byte is kept or blanked where it stands, whatever is left to copy or to blank. -/
theorem forall₂_stripFrom (copied blanked : Nat) (bs : List UInt8) :
  List.Forall₂ KeptOrBlank bs (Octets.stripFrom copied blanked bs)
  := by
  fun_induction Octets.stripFrom copied blanked bs with
  | case1 => exact .nil
  | case2 _ _ _ _ ih => exact .cons (.inl rfl) ih
  | case3 _ _ _ ih => exact .cons (keptOrBlank_blankOut _) ih
  | case4 _ _ _ ih => exact .cons (.inl rfl) ih
  | case5 _ _ _ _ ih => exact .cons (keptOrBlank_blankOut _) ih
  | case6 _ _ _ ih => exact .cons (.inl rfl) ih
  | case7 _ _ _ _ ih => exact .cons (.inl rfl) ih

/-- Every byte of a text without comments is that of the text, or a space. -/
theorem forall₂_stripComments (t : Text) :
  List.Forall₂ KeptOrBlank (bytes t) (bytes (stripComments t))
  := by
  rw [← Octets.stripComments_bytes]
  apply forall₂_stripFrom

theorem forall₂_append_stripComments (s t : Text) :
  List.Forall₂ KeptOrBlank (bytes (s ++ t)) (bytes (s ++ stripComments t))
  := by
  rw [bytes_append, bytes_append]
  apply List.rel_append
  · exact List.forall₂_same.mpr fun _ _ => .inl rfl
  · apply forall₂_stripComments

/-- A mark without spaces stands only where it stood before. -/
theorem isPrefixOf_of_forall₂ {mark bs ds : List UInt8} (hm : Octets.octet ' ' ∉ mark)
    (h : List.Forall₂ KeptOrBlank bs ds) (hp : mark.isPrefixOf ds) :
  mark.isPrefixOf bs
  := by
  induction h generalizing mark with
  | nil => exact hp
  | @cons b d bs ds hbd h ih =>
    cases mark with
    | nil => rfl
    | cons m mark =>
      rw [List.isPrefixOf_cons_cons, Bool.and_eq_true, beq_iff_eq] at hp ⊢
      obtain ⟨rfl, hp⟩ := hp
      constructor
      · rcases hbd with rfl | ⟨rfl, -⟩
        · rfl
        · exact absurd List.mem_cons_self hm
      · exact ih (fun hs => hm (List.mem_cons_of_mem m hs)) hp

/-- A mark without spaces that is not found is not found either once bytes are kept or blanked. -/
theorem find?_eq_none_of_forall₂ {mark bs ds : List UInt8} (hm : Octets.octet ' ' ∉ mark)
    (h : List.Forall₂ KeptOrBlank bs ds) (hn : Octets.find? mark bs = none) :
  Octets.find? mark ds = none
  := by
  induction h with
  | nil => exact hn
  | @cons b d bs ds hbd h ih =>
    rw [Octets.find?] at hn ⊢
    split at hn
    · cases hn
    · rename_i hp
      rw [if_neg fun h' => hp (isPrefixOf_of_forall₂ hm (.cons hbd h) h'),
        ih (Option.map_eq_none_iff.mp hn)]
      rfl

/-- A mark that stands in a stripped text stands in the text. -/
theorem isPrefixOf_of_stripComments {mark : Text} (ha : ∀ c ∈ mark, Octets.IsAscii c)
    (hm : ' ' ∉ mark) {s t : Text} (hp : mark.isPrefixOf (s ++ stripComments t)) :
  mark.isPrefixOf (s ++ t)
  := by
  rw [← Octets.isPrefixOf_bytes mark ha] at hp ⊢
  apply isPrefixOf_of_forall₂ _ (forall₂_append_stripComments s t) hp
  intro h
  obtain ⟨c, hc, hs⟩ := List.mem_map.mp h
  obtain rfl := (Octets.octet_inj (ha c hc) (by decide)).mp hs
  exact hm hc

/-- Blanking comments closes no open block literal. -/
theorem cutAtMark_tripleQuote_stripComments {t : Text} (h : cutAtMark tripleQuote t = none) :
  cutAtMark tripleQuote (stripComments t) = none
  := by
  have hf (u : Text) :=
    Octets.find?_bytes tripleQuote Octets.isAscii_of_mem_tripleQuote (by decide) u
  have hn := hf t
  rw [h, Option.map_none] at hn
  have hs := find?_eq_none_of_forall₂ (by decide) (forall₂_stripComments t) hn
  rw [hf] at hs
  exact Option.map_eq_none_iff.mp hs

/-! ## Quotes without a partner -/

theorem blanked_append (s t : Text) :
  blanked (s ++ t) = blanked s ++ blanked t
  := List.flatMap_append

/-- Where the search for the quote that closes a literal stands: inside of the literal, right
after a backslash, at the end of the line, or past the closing quote. -/
inductive LineScan where
  | inside
  | escaped
  | ended
  | closed
  deriving DecidableEq

namespace LineScan

/-- The search after one more character. -/
def step (quote : Char) : LineScan → Char → LineScan
  | inside, c =>
    if c = '\n' then ended
    else if c = '\\' && quote != backtick then escaped
    else if c = quote then closed
    else inside
  | escaped, _ => inside
  | ended, _ => ended
  | closed, _ => closed

/-- The search stays past the quote that it has found. -/
theorem foldl_step_closed (quote : Char) (t : Text) :
  t.foldl (step quote) closed = closed
  := by
  induction t with
  | nil => rfl
  | cons c t ih => exact ih

/-- The search stays at the end of the line. -/
theorem foldl_step_ended (quote : Char) (t : Text) :
  t.foldl (step quote) ended = ended
  := by
  induction t with
  | nil => rfl
  | cons c t ih => exact ih

/-- A literal is closed on its line if the search comes past the closing quote. -/
theorem isSome_closeLine_iff (quote : Char) (t : Text) :
  (closeLine quote t).isSome ↔ t.foldl (step quote) inside = closed
  := by
  fun_induction closeLine quote t with
  | case1 => simp
  | case2 t =>
    rw [List.foldl_cons, step, if_pos rfl, foldl_step_ended]
    simp
  | case3 c hn hb =>
    rw [List.foldl_cons, step, if_neg hn, if_pos hb]
    simp
  | case4 c hn hb d u ih =>
    rw [List.foldl_cons, step, if_neg hn, if_pos hb, List.foldl_cons, step, Option.isSome_map, ih]
  | case5 t hn hb =>
    rw [List.foldl_cons, step, if_neg hn, if_neg hb, if_pos rfl, foldl_step_closed]
    simp
  | case6 c t hn hb hc ih =>
    rw [List.foldl_cons, step, if_neg hn, if_neg hb, if_neg hc, Option.isSome_map, ih]

/-- A line does not end without a newline. -/
theorem foldl_step_ne_ended {quote : Char} {t : Text} (ht : '\n' ∉ t) {s : LineScan}
    (hs : s ≠ ended) :
  t.foldl (step quote) s ≠ ended
  := by
  induction t generalizing s with
  | nil => exact hs
  | cons c t ih =>
    rw [List.mem_cons, not_or] at ht
    apply ih ht.2
    cases s with
    | inside =>
      have hn : c ≠ '\n' := fun h => ht.1 h.symm
      rw [step, if_neg hn]
      split
      · decide
      · split <;> decide
    | escaped => exact LineScan.noConfusion
    | ended => exact absurd rfl hs
    | closed => exact LineScan.noConfusion

section Blank

variable {quote : Char} (hq : isQuote quote)
include hq

theorem step_space {s : LineScan} (hs : s = inside ∨ s = escaped) :
  step quote s ' ' = inside
  := by
  have hne : ' ' ≠ quote := by
    rintro rfl
    cases hq
  rcases hs with rfl | rfl
  · rw [step, if_neg (by decide), decide_eq_false (by decide), Bool.false_and,
      if_neg Bool.false_ne_true, if_neg hne]
  · rfl

/-- Spaces leave the search inside of the literal. -/
theorem foldl_step_replicate {s : LineScan} (hs : s = inside ∨ s = escaped) (n : Nat) :
  (List.replicate (n + 1) ' ').foldl (step quote) s = inside
  := by
  induction n generalizing s with
  | zero => exact step_space hq hs
  | succ n ih =>
    rw [List.replicate_succ, List.foldl_cons, step_space hq hs]
    apply ih (.inl rfl)

/-- Blanks of a comment without a newline bring the search back into the literal. -/
theorem foldl_step_blanked {s : LineScan} (hs : s = inside ∨ s = escaped) {t : Text}
    (ht : '\n' ∉ t) (hne : t ≠ []) :
  (blanked t).foldl (step quote) s = inside
  := by
  induction t generalizing s with
  | nil => exact absurd rfl hne
  | cons c t ih =>
    rw [List.mem_cons, not_or] at ht
    have hn : c ≠ '\n' := fun h => ht.1 h.symm
    obtain ⟨n, hc⟩ := Nat.exists_eq_succ_of_ne_zero (Nat.ne_of_gt (Char.utf8Size_pos c))
    rw [blanked, List.flatMap_cons, List.foldl_append, blankOut, if_neg hn, hc,
      foldl_step_replicate hq hs]
    cases t with
    | nil => rfl
    | cons d t => exact ih (.inl rfl) ht.2 (List.cons_ne_nil d t)

/-- Blanks of a comment with a newline end the line. -/
theorem foldl_step_blanked_newline {s : LineScan} (hs : s = inside ∨ s = escaped) {c : Char}
    (hc : c ≠ '\n') {t : Text} (ht : '\n' ∈ t) :
  (blanked (c :: t)).foldl (step quote) s = ended
  := by
  obtain ⟨u, v, rfl, hu⟩ := List.eq_append_cons_of_mem ht
  have hn : '\n' ∉ c :: u := by
    rw [List.mem_cons, not_or]
    exact ⟨hc.symm, hu⟩
  rw [← List.cons_append, blanked_append, List.foldl_append,
    foldl_step_blanked hq hs hn (List.cons_ne_nil c u)]
  apply foldl_step_ended

end Blank

/-- The last character of a comment protects the next one only where the line or the text ends
with the comment. -/
theorem endsLine_of_foldl_step_escaped {quote : Char} {s : LineScan} {comment rest : Text}
    (h : IsComment comment rest) (hs : comment.foldl (step quote) s = escaped) :
  EndsLine rest
  := by
  cases h with
  | line hb hr => exact hr
  | @block body _ hb =>
    have hl : '/' :: '*' :: body ++ ['*', '/'] = ('/' :: '*' :: body ++ ['*']) ++ ['/'] := by
      simp
    rw [hl, List.foldl_append, List.foldl_cons, List.foldl_nil] at hs
    exfalso
    generalize ('/' :: '*' :: body ++ ['*']).foldl (step quote) s = s' at hs
    cases s' with
    | inside =>
      rw [step, if_neg (by decide), decide_eq_false (by decide), Bool.false_and,
        if_neg Bool.false_ne_true] at hs
      split at hs <;> cases hs
    | escaped => cases hs
    | ended => cases hs
    | closed => cases hs
  | endless hb => exact .inl rfl

/-- At the end of the line no quote closes the literal. -/
theorem foldl_step_endsLine_ne_closed {quote : Char} {t : Text} (ht : EndsLine t) :
  t.foldl (step quote) inside ≠ closed
  := by
  rcases ht with rfl | ⟨u, rfl⟩
  · exact LineScan.noConfusion
  · rw [List.foldl_cons, step, if_pos rfl, foldl_step_ended]
    exact LineScan.noConfusion

end LineScan

theorem stripComments_newline (t : Text) :
  stripComments ('\n' :: t) = '\n' :: stripComments t
  := by
  rw [stripComments, if_neg (by decide)]
  split
  · rename_i h
    obtain ⟨more, rfl, ht⟩ := Octets.eq_append_of_splitComment h
    cases ht
  · rfl

theorem endsLine_stripComments {t : Text} (h : EndsLine t) :
  EndsLine (stripComments t)
  := by
  rcases h with rfl | ⟨u, rfl⟩
  · rw [stripComments]
    exact .inl rfl
  · rw [stripComments_newline]
    exact .inr ⟨_, rfl⟩

namespace LineScan

/-- A search that does not end in a comment and its rest does not end in the blanks of the
comment and any text that can stand for the rest. -/
theorem foldl_step_comment {quote : Char} (hq : isQuote quote) {s : LineScan}
    (hs : s = inside ∨ s = escaped) {comment rest rest' : Text} (hc : IsComment comment rest)
    (h : (comment ++ rest).foldl (step quote) s ≠ closed)
    (hr : rest.foldl (step quote) inside ≠ closed → rest'.foldl (step quote) inside ≠ closed)
    (he : EndsLine rest → EndsLine rest') :
  (blanked comment ++ rest').foldl (step quote) s ≠ closed
  := by
  obtain ⟨more, rfl⟩ : ∃ more, comment = '/' :: more := by
    cases hc <;> exact ⟨_, rfl⟩
  rw [List.foldl_append] at h ⊢
  by_cases hn : '\n' ∈ more
  · rw [foldl_step_blanked_newline hq hs (by decide) hn, foldl_step_ended]
    exact LineScan.noConfusion
  · have hn : '\n' ∉ '/' :: more := by
      rw [List.mem_cons, not_or]
      exact ⟨by decide, hn⟩
    have hse : s ≠ ended := by
      rcases hs with rfl | rfl <;> exact LineScan.noConfusion
    rw [foldl_step_blanked hq hs hn (List.cons_ne_nil _ _)]
    cases hf : ('/' :: more).foldl (step quote) s with
    | inside =>
      rw [hf] at h
      exact hr h
    | escaped =>
      apply foldl_step_endsLine_ne_closed
      apply he
      exact endsLine_of_foldl_step_escaped hc hf
    | ended => exact absurd hf (foldl_step_ne_ended hn hse)
    | closed =>
      rw [hf, foldl_step_closed] at h
      exact absurd rfl h

/-- A literal that is never closed is not closed after its comments are blanked either. -/
theorem foldl_step_stripComments {quote : Char} (hq : isQuote quote) {t : Text} {s : LineScan}
    (h : t.foldl (step quote) s ≠ closed) :
  (stripComments t).foldl (step quote) s ≠ closed
  := by
  fun_induction stripComments t generalizing s with
  | case1 => exact h
  | case2 c t _ ih =>
    rw [← Lexeme.text_first_append c t, List.foldl_append] at h
    rw [List.foldl_append]
    exact ih h
  | case3 c t _ comment rest hc ih =>
    obtain ⟨ht, hc⟩ := splitComment?_eq_some_iff.mp hc
    rw [ht] at h
    cases s with
    | inside => exact foldl_step_comment hq (.inl rfl) hc h ih endsLine_stripComments
    | escaped => exact foldl_step_comment hq (.inr rfl) hc h ih endsLine_stripComments
    | ended =>
      rw [foldl_step_ended]
      exact LineScan.noConfusion
    | closed =>
      rw [foldl_step_closed] at h
      exact absurd rfl h
  | case4 c t _ _ ih => exact ih h

end LineScan

/-- Blanking comments closes no open literal. -/
theorem closeLine_stripComments {quote : Char} (hq : isQuote quote) {t : Text}
    (h : closeLine quote t = none) :
  closeLine quote (stripComments t) = none
  := by
  rw [← Option.not_isSome_iff_eq_none, LineScan.isSome_closeLine_iff] at h ⊢
  exact LineScan.foldl_step_stripComments hq h

/-! ## Blanking a second time -/

theorem splitComment?_eq_none_of_ne {c : Char} (hc : c ≠ '/') (t : Text) :
  splitComment? (c :: t) = none
  := by
  apply Option.eq_none_iff_forall_ne_some.mpr
  rintro ⟨comment, rest⟩ h
  obtain ⟨more, rfl, ht⟩ := Octets.eq_append_of_splitComment h
  exact hc (List.cons.inj ht).1

/-- The blanks of a comment hold no comment and no literal. -/
theorem stripComments_blanked_append (s t : Text) :
  stripComments (blanked s ++ t) = blanked s ++ stripComments t
  := by
  have hb : ∀ c ∈ blanked s, c = ' ' ∨ c = '\n' := by
    intro c hc
    obtain ⟨d, -, hd⟩ := List.mem_flatMap.mp hc
    rw [blankOut] at hd
    split at hd
    · rename_i hn
      exact .inr ((List.mem_singleton.mp hd).trans hn)
    · exact .inl (List.eq_of_mem_replicate hd)
  generalize blanked s = u at hb ⊢
  induction u with
  | nil => rfl
  | cons c u ih =>
    have hq : isQuote c = false ∧ c ≠ '/' := by
      rcases hb c List.mem_cons_self with rfl | rfl <;> exact ⟨rfl, by decide⟩
    rw [List.cons_append, stripComments_plain hq.1 (splitComment?_eq_none_of_ne hq.2 _),
      ih fun d hd => hb d (List.mem_cons_of_mem c hd), List.cons_append]

/-- A slash that starts no comment starts none before stripped text. -/
theorem splitComment?_stripComments {t : Text} (h : splitComment? ('/' :: t) = none) :
  splitComment? ('/' :: stripComments t) = none
  := by
  have hl {m : Char} (ha : Octets.IsAscii m) (hs : ' ' ≠ m)
      (hp : ¬['/', m].isPrefixOf ('/' :: t)) :
      ¬['/', m].isPrefixOf ('/' :: stripComments t) := by
    intro hp'
    apply hp
    apply isPrefixOf_of_stripComments (s := ['/']) _ _ hp'
    · intro c hc
      simp only [List.mem_cons, List.not_mem_nil, or_false] at hc
      rcases hc with rfl | rfl
      · decide
      · exact ha
    · simp only [List.mem_cons, List.not_mem_nil, or_false, not_or]
      exact ⟨by decide, hs⟩
  rw [splitComment?] at h
  split at h
  · cases h
  · rename_i h₁
    split at h
    · split at h <;> cases h
    · rename_i h₂
      rw [splitComment?, if_neg (hl (by decide) (by decide) h₁),
        if_neg (hl (by decide) (by decide) h₂)]

/-- Blanking comments puts only spaces at the start of a text. -/
theorem head?_stripComments {c : Char} (ha : Octets.IsAscii c) (hc : c ≠ ' ') {t : Text}
    (h : t.head? ≠ some c) :
  (stripComments t).head? ≠ some c
  := by
  intro hs
  have hp : [c].isPrefixOf ([] ++ stripComments t) := by
    cases hu : stripComments t with
    | nil =>
      rw [hu] at hs
      cases hs
    | cons d u =>
      rw [hu, List.head?_cons, Option.some.injEq] at hs
      rw [hs]
      simp
  have hp := isPrefixOf_of_stripComments (by simpa using ha) (by simpa using hc.symm) hp
  obtain ⟨u, rfl⟩ := List.isPrefixOf_iff_prefix.mp hp
  exact h rfl

/-- The first lexeme of a text that begins with a quote is the same after what follows it has
lost its comments. -/
theorem first_stripComments {c : Char} (hq : isQuote c) {t rest : Text} {l : Lexeme}
    (h : Lexeme.first c t = (l, rest)) {tail : Text} (ht : l.text = c :: tail) :
  Lexeme.first c (tail ++ stripComments rest) = (l, stripComments rest)
  := by
  rw [Lexeme.first] at h
  split at h
  · rename_i hp
    rw [Bool.and_eq_true, decide_eq_true_eq] at hp
    obtain ⟨rfl, hp⟩ := hp
    obtain ⟨u, rfl⟩ := List.isPrefixOf_iff_prefix.mp hp
    split at h
    · rename_i inner rest' hm
      obtain ⟨rfl, rfl⟩ := Prod.mk.inj h
      obtain rfl := (List.cons.inj ht).2
      apply Lexeme.first_tripleQuote
      apply (cutAtMark_eq_some_iff (by decide)).mpr
      exact ⟨rfl, not_isInfix_of_cutAtMark (by decide) hm⟩
    · rename_i hm
      obtain ⟨rfl, rfl⟩ := Prod.mk.inj h
      obtain rfl := (List.cons.inj ht).2
      apply Lexeme.first_lone_tripleQuote
      exact cutAtMark_tripleQuote_stripComments hm
  · rename_i hp
    split at h
    · rename_i inner rest' hm
      obtain ⟨rfl, rfl⟩ := Prod.mk.inj h
      obtain rfl := (List.cons.inj ht).2
      rw [List.append_assoc]
      apply Lexeme.first_literal hq (closeLine_reread hq hm [])
      rintro rfl rfl
      apply head?_stripComments (by decide) (by decide)
      intro hr
      apply hp
      obtain ⟨u, rfl⟩ := List.head?_eq_some_iff.mp hr
      rw [closeLine_append hm]
      rfl
    · rename_i hm
      obtain ⟨rfl, rfl⟩ := Prod.mk.inj h
      obtain rfl := (List.cons.inj ht).2
      apply Lexeme.first_lone hq _ (closeLine_stripComments hq hm)
      intro hp'
      apply hp
      rw [Bool.and_eq_true] at hp' ⊢
      have ha : ∀ c ∈ [apostrophe, apostrophe], Octets.IsAscii c :=
        Octets.forall_isAscii (by decide)
      exact ⟨hp'.1, isPrefixOf_of_stripComments (s := []) ha (by decide) hp'.2⟩

/-- To blank the comments of a text a second time changes nothing. -/
theorem stripComments_stripComments (t : Text) :
  stripComments (stripComments t) = stripComments t
  := by
  fun_induction stripComments t with
  | case1 => rw [stripComments]
  | case2 c t hq ih =>
    obtain ⟨tail, ht⟩ := Lexeme.exists_text_first c t
    have hf := first_stripComments hq (Prod.eta _).symm ht
    rw [ht, List.cons_append, stripComments, if_pos hq, hf, ih, ht, List.cons_append]
  | case3 c t _ comment rest hc ih => rw [stripComments_blanked_append, ih]
  | case4 c t hq hc ih =>
    have hq := eq_false_of_ne_true hq
    by_cases hs : c = '/'
    · subst hs
      rw [stripComments_plain hq (splitComment?_stripComments hc), ih]
    · rw [stripComments_plain hq (splitComment?_eq_none_of_ne hs _), ih]

/-- Blanking the comments of a text moves nothing.  It gives the bytes of a text, as many as
before, of which each one is kept or is a space in the place of a byte that is no newline;
however the text is read, its literals and all else outside of comments are kept; and a text
whose comments have been blanked, once or twice, is read as the text itself is. -/
theorem stripComments_keeps_places (t : Text) :
  Octets.stripComments (bytes t) = bytes (stripComments t)
    ∧ (Octets.stripComments (bytes t)).toByteArray.IsValidUTF8
    ∧ (bytes (stripComments t)).length = (bytes t).length
    ∧ List.Forall₂ KeptOrBlank (bytes t) (bytes (stripComments t))
    ∧ (∃ parts, CommentReading t parts)
    ∧ (∀ parts, CommentReading t parts →
        parts.flatMap CommentPart.text = t
          ∧ parts.flatMap CommentPart.stripped = stripComments t)
    ∧ stripComments (stripComments t) = stripComments t
    ∧ ∀ policy, Report.ofSource policy (String.ofList (stripComments t))
        = Report.ofSource policy (String.ofList t)
  := by
  have hb := Octets.stripComments_bytes t
  have hf := forall₂_stripComments t
  have hs := stripComments_stripComments t
  refine ⟨hb, ?_, hf.length_eq.symm, hf, exists_commentReading t, ?_, hs, ?_⟩
  · rw [hb]
    exact ⟨stripComments t, rfl⟩
  · intro parts h
    exact ⟨h.flatMap_text, h.flatMap_stripped⟩
  · intro policy
    rw [Report.ofSource, Report.ofSource, String.toList_ofList, String.toList_ofList, hs]

end DatabaseMarkup
