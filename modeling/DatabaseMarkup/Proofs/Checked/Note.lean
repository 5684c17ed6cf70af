import DatabaseMarkup.Block.Note
import DatabaseMarkup.Proofs.Block.Header
import DatabaseMarkup.Proofs.Checked.Value

/-!
# Checked notes

The reader of a note in a body by offsets.  The header of the note, which a pattern matches, ends
with the colon or the brace; the reader goes back to this byte and finds the value, whose length
is counted from behind the spaces in front of it.
-/

namespace DatabaseMarkup.Checked

open Text Octets

/-- The number of bytes up to the colon or the brace of the note that a text begins with, which is
among them. -/
def noteHeader? (t : Text) : Option Nat :=
  match splitKeyword? ['n', 'o', 't', 'e'] t with
  | none => none
  | some rest =>
    match trimStart rest with
    | [] => none
    | c :: rest => if c = ':' || c = '{' then some (size t - size rest) else none

/-- The value behind the spaces at the start of an end of a text, and the offset behind the line on
which the value ends. -/
def readLastValue (t behind : Text) : Checked (Value × Nat) := do
  let written := skipSpaces behind
  let start ← subtract (size t) (size written)
  let (value, used) ← readValue written
  let next ← skipLine t (min (start + used) (size t))
  return (value, next)

/-- The note at an offset `p`, or the problem with it, and the offset behind it.  The header takes
`length` bytes, and the text begins at `offset`. -/
def readNote (t : Text) (offset p length : Nat) : Checked (Except Finding String × Nat) := do
  let opener ← subtract (p + length) 1
  let b ← byteAt (bytes t) opener
  if b = octet '{' then
    match ← matchingClose t opener with
    | some close => do
      let inner ← slice t (opener + 1) close
      let content ← unquoteBlock inner
      return (.ok (String.ofList content), min (close + 1) (size t))
    | none => do
      let next ← skipLine t p
      return (.error (.placed (offset + p) .unclosedNote), next)
  else
    let behind ← sliceFrom t (opener + 1)
    let (value, next) ← readLastValue t behind
    return (.ok value.content, next)

/-- The value at the start of a text is read by offsets, and the rest of its line is dropped. -/
theorem At.readLastValue {text t : Text} {p : Nat} (h : At text p t) :
  Reads text (readLastValue text t)
    ((Value.read (skipSpaces t)).1, Text.dropLine (Value.read (skipSpaces t)).2)
  := by
  have hw := h.suffix (s := skipSpaces t) (List.dropWhile_suffix _)
  obtain ⟨n, hn, hv⟩ := readValue_eq (skipSpaces t)
  have hrest := hw.trans hn
  obtain ⟨q, hq, hskip⟩ := hrest.skipLine
  refine ⟨q, hq, ?_⟩
  rw [Checked.readLastValue, hw.subtract_eq, ok_bind, hv, ok_bind]
  dsimp only
  rw [hrest.min_size, hskip]
  rfl

section

variable {text t rest : Text} {p : Nat} {note : Except Finding String}

/-- A text that does not start with a note is no header of one. -/
theorem noteHeader?_eq_none {finish : Nat} (h : Note.split? finish t = none) :
  noteHeader? t = none
  := by
  rw [Note.split?] at h
  rw [noteHeader?]
  split
  · rfl
  · rename_i hk
    rw [hk] at h
    dsimp only at h
    split
    · rfl
    · rename_i ht
      rw [ht] at h
      dsimp only at h
      split at h
      · cases h
      · split at h
        · split at h <;> cases h
        · rename_i hcolon hbrace
          rw [decide_eq_false hcolon, decide_eq_false hbrace]
          rfl

/-- The header of a note ends with its colon or brace. -/
theorem exists_noteHeader {u v : Text} {c : Char}
    (hk : splitKeyword? ['n', 'o', 't', 'e'] t = some u) (hu : trimStart u = c :: v)
    (hc : c = ':' ∨ c = '{') :
  ∃ s, t = s ++ c :: v ∧ noteHeader? t = some (size s + 1)
  := by
  have hs : c :: v <:+ t := by
    rw [← hu]
    exact (List.dropWhile_suffix _).trans (suffix_of_splitKeyword hk)
  obtain ⟨s, rfl⟩ := hs
  refine ⟨s, rfl, ?_⟩
  have h1 : c.utf8Size = 1 := by rcases hc with rfl | rfl <;> rfl
  rw [noteHeader?, hk]
  dsimp only
  rw [hu]
  dsimp only
  rw [if_pos (by simpa using hc), size_append, size_cons, h1, ← Nat.add_assoc, Nat.add_sub_cancel]

/-- The note at a place of a text is read up to the place behind it. -/
theorem At.readNote (h : At text p t) (offset : Nat)
    (hn : Note.split? (offset + size text) t = some (note, rest)) :
  ∃ n, noteHeader? t = some n ∧ Reads text (Checked.readNote text offset p n) (note, rest)
  := by
  rw [Note.split?] at hn
  split at hn
  · cases hn
  · rename_i u hk
    split at hn
    · cases hn
    · rename_i c v hu
      split at hn
      · rename_i hc
        obtain ⟨s, rfl, hl⟩ := exists_noteHeader hk hu (.inl hc)
        subst hc
        cases hn
        have hcolon := h.append
        have hv := hcolon.cons_ascii (by decide)
        obtain ⟨q, hq, hvalue⟩ := hv.readLastValue
        refine ⟨_, hl, q, hq, ?_⟩
        have hsub : subtract (p + (size s + 1)) 1 = .ok (p + size s) := subtract_succ _
        rw [Checked.readNote, hsub, ok_bind, hcolon.byteAt_eq (by decide), ok_bind,
          if_neg (by decide), hv.sliceFrom_eq, ok_bind, hvalue]
        rfl
      · split at hn
        · rename_i hc
          obtain ⟨s, rfl, hl⟩ := exists_noteHeader hk hu (.inr hc)
          subst hc
          have hbrace := h.append
          have hsub : subtract (p + (size s + 1)) 1 = .ok (p + size s) :=
            subtract_succ _
          split at hn
          · rename_i inner rest' hg
            cases hn
            obtain ⟨hclose, hinner, hrest⟩ := hbrace.group hg
            refine ⟨_, hl, _, hrest, ?_⟩
            rw [Checked.readNote, hsub, ok_bind, hbrace.byteAt_eq (by decide), ok_bind,
              if_pos rfl, hclose, ok_bind]
            dsimp only
            rw [hinner, ok_bind, unquoteBlock_eq, ok_bind, hrest.min_size]
            rfl
          · rename_i hg
            cases hn
            obtain ⟨q, hq, hskip⟩ := h.skipLine
            refine ⟨_, hl, q, hq, ?_⟩
            rw [Checked.readNote, hsub, ok_bind, hbrace.byteAt_eq (by decide), ok_bind,
              if_pos rfl, hbrace.not_group hg, ok_bind]
            dsimp only
            rw [hskip, ok_bind, h.startOf_add]
            rfl
        · cases hn

end

end DatabaseMarkup.Checked
