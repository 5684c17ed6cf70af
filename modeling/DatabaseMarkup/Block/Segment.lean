import DatabaseMarkup.Block.Header
import DatabaseMarkup.Diagnostic.Problem
import DatabaseMarkup.Settings.Reader

/-!
# Segments of a document

`Segment.ofText` cuts a document from left to right into segments.  A segment is a run of
blanks, a block, or a text that is skipped because it is no block.  What is skipped is the rest
of a line, or all of a brace group that opens on the line, or the header of a block that is
never closed.  `Segment.block?` gives the block of a segment and `Segment.finding?` the problem
of one that is skipped.

Braces and brackets are paired once for the whole document, so that a block which is never
closed does not make the rest of the document unreadable.
-/

namespace DatabaseMarkup

open Text

/-- What a segment holds. -/
inductive SegmentContent where
  | blank
  | block (block : Block)
  | skipped (problem : Problem)
  deriving DecidableEq, Repr

/-- A part of a document with the offset at which it begins. -/
structure Segment where
  offset : Nat
  span : Text
  content : SegmentContent
  deriving DecidableEq, Repr

namespace Segment

/-- The settings in the bracket groups at the start of a text that ends at `finish`, and the text
after them and the blanks that follow.  There are none when a group is never closed. -/
def headerSettings? (pairs : DelimiterPairs) (finish : Nat) (t : Text) :
    Option (Settings × Text) :=
  if (skipBlanks t).head? = some '[' then
    match _ : pairs.splitGroup? finish (skipBlanks t) with
    | some (inner, rest) =>
      (headerSettings? pairs finish rest).map
        fun (settings, rest) => (Settings.readList inner ++ settings, rest)
    | none => none
  else
    some ([], skipBlanks t)
termination_by t.length
decreasing_by
  have := DelimiterPairs.length_splitGroup (by assumption)
  have : (skipBlanks t).length ≤ t.length := length_dropWhile_le _ t
  omega

/-- The rest of a text that is no block and ends at `finish`: all of it after the first line, or
after the brace group that opens on the line. -/
def afterSkipped (pairs : DelimiterPairs) (finish : Nat) (t : Text) : Text :=
  match cutAtUnquoted '{' (firstLine t) with
  | some (before, _) =>
    match pairs.splitGroup? finish (t.drop before.length) with
    | some (_, rest) => rest
    | none => fromLineEnd t
  | none => fromLineEnd t

/-- The segment of a text that is no block and ends at `finish`, and the text after it. -/
def unknown (pairs : DelimiterPairs) (finish : Nat) (t : Text) : SegmentContent × Text :=
  (.skipped (.unknownDeclaration (firstLine t)), afterSkipped pairs finish t)

/-- The content of the first segment of a text that ends at `finish`, and the text after the
segment.  The text does not begin with a blank. -/
def splitFirst (pairs : DelimiterPairs) (finish : Nat) (t : Text) : SegmentContent × Text :=
  match Header.read? t with
  | none => unknown pairs finish t
  | some (header, rest) =>
    if header.kind = .refShort then
      (.block ⟨header, [], firstLine rest, startOf finish rest⟩, fromLineEnd rest)
    else
      match headerSettings? pairs finish rest with
      | none => unknown pairs finish t
      | some (settings, rest) =>
        if rest.head? = some '{' then
          match pairs.splitGroup? finish rest with
          | some (body, after) =>
            (.block ⟨header, settings, body, startOf finish rest + 1⟩, after)
          | none => (.skipped (.unterminatedBlock header.kind), rest.drop 1)
        else
          unknown pairs finish t

theorem length_headerSettings {pairs : DelimiterPairs} {finish : Nat} {t rest : Text}
    {settings : Settings} (h : headerSettings? pairs finish t = some (settings, rest)) :
  rest.length ≤ t.length
  := by
  fun_induction headerSettings? pairs finish t generalizing settings with
  | case1 t _ _ _ hg ih =>
    simp only [Option.map_eq_some_iff, Prod.mk.injEq, Prod.exists] at h
    obtain ⟨s, u, hs, _, rfl⟩ := h
    have := ih hs
    have := DelimiterPairs.length_splitGroup hg
    have := length_skipBlanks_le t
    omega
  | case2 => simp at h
  | case3 t =>
    simp only [Option.some.injEq, Prod.mk.injEq] at h
    rw [← h.2]
    exact length_skipBlanks_le t

/-- Skipping text that is no block leaves less of it. -/
theorem length_afterSkipped_lt (pairs : DelimiterPairs) (finish : Nat) (c : Char) (t : Text)
    (hc : c ≠ '\n') :
  (afterSkipped pairs finish (c :: t)).length < (c :: t).length
  := by
  have hl := length_fromLineEnd_lt hc t
  rw [afterSkipped]
  split
  · split
    · rename_i hg
      have := DelimiterPairs.length_splitGroup hg
      rw [List.length_drop] at this
      simp only [List.length_cons] at this ⊢
      omega
    · exact hl
  · exact hl

/-- Cutting off a segment leaves less text. -/
theorem length_splitFirst_lt (pairs : DelimiterPairs) (finish : Nat) (c : Char) (t : Text)
    (hc : c ≠ '\n') :
  (splitFirst pairs finish (c :: t)).2.length < (c :: t).length
  := by
  have hu := length_afterSkipped_lt pairs finish c t hc
  rw [splitFirst]
  split
  · exact hu
  · rename_i hr
    have hr := Header.length_read_lt hr
    split
    · exact Nat.lt_of_le_of_lt (length_fromLineEnd_le _) hr
    · split
      · exact hu
      · rename_i hs
        have hs := length_headerSettings hs
        split
        · split
          · rename_i hg
            have := DelimiterPairs.length_splitGroup hg
            dsimp only
            omega
          · rw [List.length_drop]
            omega
        · exact hu

/-- The segments of a text between the offsets `start` and `finish`. -/
def split (pairs : DelimiterPairs) (start finish : Nat) : Text → List Segment
  | [] => []
  | c :: t =>
    if Unicode.isAsciiBlank c then
      let span := c :: t.takeWhile Unicode.isAsciiBlank
      ⟨start, span, .blank⟩ :: split pairs (start + size span) finish (skipBlanks t)
    else
      let first := splitFirst pairs finish (c :: t)
      let next := startOf finish first.2
      let span := (splitAtByte (next - start) (c :: t)).1
      ⟨start, span, first.1⟩ :: split pairs next finish first.2
termination_by t => t.length
decreasing_by
  · exact Nat.lt_succ_of_le (length_dropWhile_le _ t)
  · rename_i hc
    apply length_splitFirst_lt
    rintro rfl
    exact hc rfl

/-- The segments of a document. -/
def ofText (t : Text) : List Segment :=
  split (DelimiterPairs.ofText t) 0 (size t) t

/-- The block that a segment holds. -/
def block? (s : Segment) : Option Block :=
  match s.content with
  | .block block => some block
  | _ => none

/-- The problem of a segment that was skipped. -/
def finding? (s : Segment) : Option Finding :=
  match s.content with
  | .skipped problem => some (.placed s.offset problem)
  | _ => none

end Segment

end DatabaseMarkup
