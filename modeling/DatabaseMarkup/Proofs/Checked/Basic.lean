import DatabaseMarkup.Proofs.Text.Basic
import DatabaseMarkup.Proofs.Text.Octets

/-!
# Checked access to a text

A reader that keeps offsets into the bytes of a text can go wrong where one that keeps the rest of
the text cannot: an index may lie behind the end, a slice may cut a character in two or end before
it begins, a subtraction may fall below zero.  A `Checked` computation stops with a `Fault` when
this happens, and also when a loop does not move on.

The readers of this library are written down once more as checked computations, byte by byte where
only ASCII characters matter, and shown to come to the results of the readers without a fault.
`At text p t` says that `p` is a place of the text, with `t` behind it; what is sliced between two
such places is a part of the text.
-/

namespace DatabaseMarkup

open Text Octets

/-- What can go wrong. -/
inductive Fault where
  | index
  | slice
  | subtraction
  | encoding
  | stall
  deriving DecidableEq, Repr

/-- A computation that stops when something goes wrong. -/
abbrev Checked := Except Fault

namespace Checked

/-! ## Access -/

/-- The byte at an index. -/
def byteAt (bs : List UInt8) (i : Nat) : Checked UInt8 :=
  match bs[i]? with
  | some b => .ok b
  | none => .error .index

/-- The bytes from an index on. -/
def bytesFrom (bs : List UInt8) (i : Nat) : Checked (List UInt8) :=
  if i ≤ bs.length then .ok (bs.drop i) else .error .slice

/-- The bytes between two indexes. -/
def bytesBetween (bs : List UInt8) (i j : Nat) : Checked (List UInt8) :=
  if i ≤ j ∧ j ≤ bs.length then .ok ((bs.drop i).take (j - i)) else .error .slice

/-- Whether a byte offset lies between two characters of a text. -/
def IsBoundary (t : Text) (n : Nat) : Prop :=
  size (splitAtByte n t).1 = n

instance (t : Text) (n : Nat) : Decidable (IsBoundary t n) :=
  inferInstanceAs (Decidable (_ = _))

/-- The part of a text between two byte offsets, which must be boundaries. -/
def slice (t : Text) (i j : Nat) : Checked Text :=
  if i ≤ j ∧ IsBoundary t i ∧ IsBoundary t j then
    .ok (splitAtByte (j - i) (splitAtByte i t).2).1
  else
    .error .slice

/-- The text from a byte offset on. -/
def sliceFrom (t : Text) (i : Nat) : Checked Text :=
  slice t i (size t)

/-- The difference of two numbers, of which the first one must not be less. -/
def subtract (m n : Nat) : Checked Nat :=
  if n ≤ m then .ok (m - n) else .error .subtraction

section

variable {α β : Type}

@[simp]
theorem ok_bind (a : α) (f : α → Checked β) :
  (Except.ok a >>= f) = f a
  := rfl

@[simp]
theorem pure_eq (a : α) :
  (pure a : Checked α) = .ok a
  := rfl

/-- A list of computations that come to results comes to the list of these. -/
theorem mapM_eq {f : α → Checked β} {g : α → β} {l : List α} (h : ∀ a ∈ l, f a = .ok (g a)) :
  l.mapM f = .ok (l.map g)
  := by
  induction l with
  | nil => rfl
  | cons a l ih =>
    obtain ⟨ha, hl⟩ := List.forall_mem_cons.mp h
    rw [List.mapM_cons, ha, ok_bind, ih hl]
    rfl

/-- A fold whose steps all pass their checks is the fold of their results. -/
theorem foldlM_eq {f : β → α → Checked β} {g : β → α → β} (h : ∀ b a, f b a = .ok (g b a)) (b : β)
    (l : List α) :
  l.foldlM f b = .ok (l.foldl g b)
  := by
  induction l generalizing b with
  | nil => rfl
  | cons a l ih => rw [List.foldlM_cons, h, ok_bind, ih, List.foldl_cons]

end

/-- The byte at an offset is the first of the bytes from that offset on. -/
theorem byteAt_eq {bs rest : List UInt8} {i : Nat} {b : UInt8} (h : bs.drop i = b :: rest) :
  byteAt bs i = .ok b
  := by
  have hi := congrArg List.head? h
  rw [List.head?_drop, List.head?_cons] at hi
  rw [byteAt, hi]

/-- Bytes can be taken from every offset up to the length. -/
theorem bytesFrom_eq {bs : List UInt8} {i : Nat} (h : i ≤ bs.length) :
  bytesFrom bs i = .ok (bs.drop i)
  := if_pos h

/-- A number can be subtracted from one that is not smaller. -/
theorem subtract_eq {m n : Nat} (h : n ≤ m) :
  subtract m n = .ok (m - n)
  := if_pos h

theorem subtract_succ (n : Nat) :
  subtract (n + 1) 1 = .ok n
  := subtract_eq (Nat.le_add_left _ _)

theorem lt_length_of_drop {bs rest : List UInt8} {i : Nat} {b : UInt8} (h : bs.drop i = b :: rest) :
  i < bs.length
  := by
  have hl := congrArg List.length h
  rw [List.length_drop, List.length_cons] at hl
  omega

/-- One offset further there is one byte less. -/
theorem drop_succ {bs rest : List UInt8} {i : Nat} {b : UInt8} (h : bs.drop i = b :: rest) :
  bs.drop (i + 1) = rest
  := by
  rw [← List.drop_drop, h, List.drop_succ_cons, List.drop_zero]

/-- There is a byte at every offset below the length. -/
theorem exists_drop {bs : List UInt8} {i : Nat} (h : i < bs.length) :
  ∃ b rest, bs.drop i = b :: rest
  := ⟨_, _, List.drop_eq_getElem_cons h⟩

/-! ## Places of a text -/

/-- A byte of a character is that of an ASCII character only if both characters are the same. -/
theorem eq_octet_iff {c d : Char} {b : UInt8} (hb : b ∈ String.utf8EncodeChar c) (hd : IsAscii d) :
  b = octet d ↔ c = d
  := by
  by_cases hc : IsAscii c
  · rw [utf8EncodeChar_of_isAscii hc, List.mem_singleton] at hb
    rw [hb, octet_inj hc hd]
  · constructor
    · intro h
      exact absurd h ((high_utf8EncodeChar hc).ne hb hd)
    · rintro rfl
      exact absurd hd hc

/-- A byte of a character is the octet of an ASCII character exactly when it is that character. No
byte of a longer encoding is an ASCII octet. -/
theorem decide_eq_octet {c d : Char} {b : UInt8} (hb : b ∈ String.utf8EncodeChar c)
    (hd : IsAscii d) :
  decide (b = octet d) = decide (c = d)
  := decide_eq_decide.mpr (eq_octet_iff hb hd)

theorem bytes_nil :
  bytes [] = []
  := rfl

theorem exists_first_byte (c : Char) (t : Text) :
  ∃ b ∈ String.utf8EncodeChar c, ∃ bs, bytes (c :: t) = b :: bs
  := by
  obtain ⟨b, bs, hb⟩ := List.exists_cons_of_ne_nil (String.utf8EncodeChar_ne_nil (c := c))
  refine ⟨b, ?_, bs ++ bytes t, ?_⟩
  · rw [hb]
    exact List.mem_cons_self
  · rw [bytes_cons, hb, List.cons_append]

/-- Whether `t` is what follows the offset `p` of a text. -/
def At (text : Text) (p : Nat) (t : Text) : Prop :=
  ∃ before, text = before ++ t ∧ p = size before

/-- The size of a prefix is a boundary. -/
theorem isBoundary_size (s t : Text) :
  IsBoundary (s ++ t) (size s)
  := by
  rw [IsBoundary, splitAtByte_size_append]

theorem at_zero (t : Text) :
  At t 0 t
  := ⟨[], rfl, rfl⟩

theorem at_size (t : Text) :
  At t (size t) []
  := ⟨t, (List.append_nil t).symm, rfl⟩

namespace At

section

variable {text s t : Text} {p : Nat}

/-- The offset and the size of the text behind it add up to the size of the whole. -/
theorem add_size (h : At text p t) :
  p + size t = size text
  := by
  obtain ⟨before, rfl, rfl⟩ := h
  rw [size_append]

/-- Behind a prefix of what stands at `p` stands the rest, the size of the prefix further. -/
theorem append (h : At text p (s ++ t)) :
  At text (p + size s) t
  := by
  obtain ⟨before, rfl, rfl⟩ := h
  exact ⟨before ++ s, (List.append_assoc _ _ _).symm, (size_append _ _).symm⟩

theorem cons {c : Char} (h : At text p (c :: t)) :
  At text (p + c.utf8Size) t
  := append (s := [c]) h

/-- An ASCII character takes one byte. -/
theorem cons_ascii {c : Char} (h : At text p (c :: t)) (hc : IsAscii c) :
  At text (p + 1) t
  := by
  rw [← Char.utf8Size_eq_one_iff.mpr hc]
  exact h.cons

/-- An end of what follows a place begins at another one. -/
theorem suffix (h : At text p t) (hs : s <:+ t) :
  At text (p + (size t - size s)) s
  := by
  obtain ⟨u, rfl⟩ := hs
  rw [size_append, Nat.add_sub_cancel]
  exact h.append

/-- A place is determined by what follows it. -/
theorem unique {q : Nat} (hp : At text p t) (hq : At text q t) :
  p = q
  := by
  have := hp.add_size
  have := hq.add_size
  omega

/-- A place of what follows a place is one of the whole text. -/
theorem trans {q : Nat} (h : At text p t) (hs : At t q s) :
  At text (p + q) s
  := by
  obtain ⟨before, rfl, rfl⟩ := hs
  exact h.append

/-- A prefix of what stands at `p` is the slice of its size. -/
theorem slice_eq (h : At text p (s ++ t)) :
  slice text p (p + size s) = .ok s
  := by
  obtain ⟨before, rfl, rfl⟩ := h
  have hi : IsBoundary (before ++ (s ++ t)) (size before) := isBoundary_size _ _
  have hj : IsBoundary (before ++ (s ++ t)) (size before + size s) := by
    rw [← List.append_assoc, ← size_append]
    apply isBoundary_size
  rw [slice, if_pos ⟨Nat.le_add_right _ _, hi, hj⟩, splitAtByte_size_append,
    Nat.add_sub_cancel_left, splitAtByte_size_append]

/-- What stands at `p` is the slice from `p` on. -/
theorem sliceFrom_eq (h : At text p t) :
  sliceFrom text p = .ok t
  := by
  rw [sliceFrom, ← h.add_size]
  apply slice_eq (t := [])
  rwa [List.append_nil]

/-- The characters at a place that satisfy a predicate are a part of the text. -/
theorem run (h : At text p t) (q : Char → Bool) :
  Checked.slice text p (p + size (t.takeWhile q)) = .ok (t.takeWhile q)
    ∧ At text (p + size (t.takeWhile q)) (t.dropWhile q)
  := by
  rw [← List.takeWhile_append_dropWhile (p := q) (l := t)] at h
  exact ⟨h.slice_eq, h.append⟩

/-- The bytes from `p` on are those of the text that stands at `p`. -/
theorem drop_bytes (h : At text p t) :
  (bytes text).drop p = bytes t
  := by
  obtain ⟨before, rfl, rfl⟩ := h
  rw [bytes_append, ← length_bytes, List.drop_left]

theorem lt_size {c : Char} (h : At text p (c :: t)) :
  p < size text
  := by
  have := h.add_size
  have := Char.utf8Size_pos c
  rw [size_cons] at *
  omega

theorem lt_length {c : Char} (h : At text p (c :: t)) :
  p < (bytes text).length
  := by
  rw [length_bytes]
  exact h.lt_size

theorem le_size (h : At text p t) :
  p ≤ size text
  := by
  rw [← h.add_size]
  apply Nat.le_add_right

theorem le_length (h : At text p t) :
  p ≤ (bytes text).length
  := by
  rw [length_bytes]
  exact h.le_size

/-- An offset is recovered from the text that stands there. -/
theorem startOf_eq (h : At text p t) :
  startOf (size text) t = p
  := by
  rw [startOf, ← h.add_size, Nat.add_sub_cancel]

theorem length_le (h : At text p t) :
  t.length ≤ text.length
  := by
  obtain ⟨before, rfl, -⟩ := h
  rw [List.length_append]
  apply Nat.le_add_left

theorem min_size (h : At text p t) :
  min p (size text) = p
  := Nat.min_eq_left h.le_size

theorem subtract_eq (h : At text p t) :
  subtract (size text) (size t) = .ok p
  := by
  rw [← h.add_size, Checked.subtract_eq (Nat.le_add_left _ _), Nat.add_sub_cancel]

/-- What stands at a place of a text begins there, too, if the text begins at an offset. -/
theorem startOf_add (h : At text p t) (offset : Nat) :
  startOf (offset + size text) t = offset + p
  := by
  rw [startOf, ← h.add_size, ← Nat.add_assoc, Nat.add_sub_cancel]

/-- Of two places of a text, the one with less behind it is the later one. -/
theorem suffix_of_length_le {q : Nat} (hp : At text p t) (hq : At text q s)
    (hl : s.length ≤ t.length) :
  s <:+ t
  := by
  obtain ⟨before, ht, _⟩ := hp
  obtain ⟨before', hs, _⟩ := hq
  exact List.suffix_of_suffix_length_le ⟨before', hs.symm⟩ ⟨before, ht.symm⟩ hl

/-- Of two texts that stand in the same one, the longer starts first. -/
theorem lt {q : Nat} (hp : At text p t) (hq : At text q s) (hl : s.length < t.length) :
  p < q
  := by
  obtain ⟨u, rfl⟩ := hp.suffix_of_length_le hq (Nat.le_of_lt hl)
  have hu : 0 < size u := by
    cases u with
    | nil => exact absurd hl (Nat.lt_irrefl _)
    | cons c u => exact Nat.lt_of_lt_of_le (Char.utf8Size_pos c) (Nat.le_add_right _ _)
  have := hp.add_size
  have := hq.add_size
  rw [size_append] at *
  omega

/-- The number of bytes that are left falls from one place to a later one. -/
theorem sub_lt_sub {q : Nat} (hp : At text p t) (hq : At text q s) (hl : s.length < t.length) :
  (bytes text).length - q < (bytes text).length - p
  := by
  have := hp.lt hq hl
  have := hq.le_length
  omega

theorem size_le (h : At text p []) :
  size text ≤ p
  := by
  rw [← h.add_size]
  exact Nat.le_refl _

theorem not_lt_length (h : At text p []) :
  ¬p < (bytes text).length
  := by
  rw [length_bytes]
  exact Nat.not_lt.mpr h.size_le

theorem drop_bytes_ascii {c : Char} (h : At text p (c :: t)) (hc : IsAscii c) :
  (bytes text).drop p = octet c :: bytes t
  := by
  rw [h.drop_bytes, bytes_cons_ascii hc]

/-- Where an ASCII character stands, its octet is read. -/
theorem byteAt_eq {c : Char} (h : At text p (c :: t)) (hc : IsAscii c) :
  byteAt (bytes text) p = .ok (octet c)
  := Checked.byteAt_eq (h.drop_bytes_ascii hc)

/-- The bytes between the ends of a slice are those of the slice. -/
theorem bytesBetween_eq (h : At text p (s ++ t)) :
  bytesBetween (bytes text) p (p + size s) = .ok (bytes s)
  := by
  rw [bytesBetween, if_pos ⟨Nat.le_add_right _ _, h.append.le_length⟩, h.drop_bytes, bytes_append,
    Nat.add_sub_cancel_left, ← length_bytes, List.take_left]

/-- The byte at a place, if there is one. -/
theorem getElem?_eq (h : At text p t) :
  (bytes text)[p]? = (bytes t).head?
  := by
  rw [← h.drop_bytes, List.head?_drop]

/-- The byte at a place is that of an ASCII character if this character begins what follows. -/
theorem getElem?_eq_some_iff (h : At text p t) {c : Char} (hc : IsAscii c) :
  (bytes text)[p]? = some (octet c) ↔ t.head? = some c
  := by
  rw [h.getElem?_eq]
  cases t with
  | nil => exact ⟨nofun, nofun⟩
  | cons d t =>
    obtain ⟨b, hd, bs, hb⟩ := exists_first_byte d t
    rw [hb, List.head?_cons, List.head?_cons, Option.some.injEq, Option.some.injEq,
      ← eq_octet_iff hd hc]

/-- The place at the end of the first line of what follows a place. -/
theorem firstLine (h : At text p t) :
  At text (p + size (Text.firstLine t)) (fromLineEnd t)
  := by
  apply append
  rwa [firstLine_append_fromLineEnd]

/-- The line at `p` is the slice of its size. -/
theorem slice_firstLine (h : At text p t) :
  Checked.slice text p (p + size (Text.firstLine t)) = .ok (Text.firstLine t)
  := by
  rw [← firstLine_append_fromLineEnd t] at h
  exact h.slice_eq

end

end At

/-- Whether a computation comes to what has been read of a text and the place of what is left of
it. -/
def Reads {α : Type} (text : Text) (computation : Checked (α × Nat)) (result : α × Text) : Prop :=
  ∃ p, At text p result.2 ∧ computation = .ok (result.1, p)

/-- Whether a computation comes to what may have been read of a text and the place of what is left
of it. -/
def ReadsOption {α : Type} (text : Text) (computation : Checked (Option (α × Nat)))
    (result : Option (α × Text)) : Prop :=
  match result with
  | some (a, rest) => ∃ p, At text p rest ∧ computation = .ok (some (a, p))
  | none => computation = .ok none

/-! ## Loops -/

/-- What a step of a loop leads to: a further step or the end of the loop. -/
inductive Step (σ β : Type) where
  | next (s : σ)
  | done (b : β)

section

variable {σ β : Type}

/-- A loop that goes on until its body ends it.  The measure has to fall with every step. -/
def loop (measure : σ → Nat) (body : σ → Checked (Step σ β)) (s : σ) : Checked β := do
  match ← body s with
  | .next s' => if measure s' < measure s then loop measure body s' else .error .stall
  | .done b => return b
termination_by measure s

/-- A step that makes the measure smaller is followed by the rest of the loop. -/
theorem loop_next {measure : σ → Nat} {body : σ → Checked (Step σ β)} {s r : σ}
    (h : body s = .ok (.next r)) (hm : measure r < measure s) :
  loop measure body s = loop measure body r
  := by
  rw [loop, h, ok_bind]
  exact if_pos hm

/-- A step that ends the loop gives its result. -/
theorem loop_done {measure : σ → Nat} {body : σ → Checked (Step σ β)} {s : σ} {b : β}
    (h : body s = .ok (.done b)) :
  loop measure body s = .ok b
  := by
  rw [loop, h]
  rfl

end

section

variable {α : Type}

/-- What is found from an offset on up to the offset `finish`: the body yields what it finds at an
offset and the offset to go on at, which has to be greater, or nothing at the end. -/
def gather (finish : Nat) (body : Nat → Checked (Option (List α × Nat))) (p : Nat) :
    Checked (List α) := do
  match ← body p with
  | none => return []
  | some (found, next) =>
    if p < next ∧ next ≤ finish then
      return found ++ (← gather finish body next)
    else
      .error .stall
termination_by finish - p

theorem gather_done {finish p : Nat} {body : Nat → Checked (Option (List α × Nat))}
    (h : body p = .ok none) :
  gather finish body p = .ok []
  := by
  rw [gather, h]
  rfl

/-- What is found at a place stands before what is found from the next place on. -/
theorem gather_next {text t rest : Text} {p q : Nat} {body : Nat → Checked (Option (List α × Nat))}
    {found more : List α} (hp : At text p t) (hq : At text q rest) (hr : rest.length < t.length)
    (h : body p = .ok (some (found, q))) (hm : gather (size text) body q = .ok more) :
  gather (size text) body p = .ok (found ++ more)
  := by
  rw [gather, h, ok_bind]
  dsimp only
  rw [if_pos ⟨hp.lt hq hr, hq.le_size⟩, hm]
  rfl

end

/-! ## Runs of bytes -/

/-- The first index from `i` on of a byte that does not satisfy `p`. -/
def skipWhile (p : UInt8 → Bool) (bs : List UInt8) (i : Nat) : Checked Nat :=
  if i < bs.length then do
    let b ← byteAt bs i
    if p b then skipWhile p bs (i + 1) else return i
  else
    return i
termination_by bs.length - i

/-- Skipping bytes ends behind the bytes that satisfy the predicate. -/
theorem skipWhile_eq (p : UInt8 → Bool) (bs : List UInt8) (i : Nat) :
  skipWhile p bs i = .ok (i + ((bs.drop i).takeWhile p).length)
  := by
  induction hn : bs.length - i using Nat.strong_induction_on generalizing i with
  | h n ih =>
    rw [skipWhile]
    split
    · rename_i hi
      obtain ⟨b, rest, hb⟩ := exists_drop hi
      rw [byteAt_eq hb, ok_bind, hb, List.takeWhile_cons]
      split
      · rw [ih (bs.length - (i + 1)) (by omega) (i + 1) rfl, drop_succ hb, List.length_cons]
        congr 1
        omega
      · rfl
    · rename_i hi
      rw [List.drop_eq_nil_of_le (Nat.le_of_not_lt hi)]
      rfl

/-- A run of bytes is a run of characters if all bytes of a character count as the character
does. -/
theorem length_takeWhile_bytes {p : UInt8 → Bool} {q : Char → Bool}
    (h : ∀ c, ∀ b ∈ String.utf8EncodeChar c, p b = q c) (t : Text) :
  ((bytes t).takeWhile p).length = size (t.takeWhile q)
  := by
  induction t with
  | nil => rfl
  | cons c t ih =>
    rw [List.takeWhile_cons]
    split
    · rename_i hc
      have hp : ∀ b ∈ String.utf8EncodeChar c, p b := fun b hb => (h c b hb).trans hc
      rw [bytes_cons, List.takeWhile_append_of_pos hp, List.length_append,
        String.length_utf8EncodeChar, ih, size_cons]
    · rename_i hc
      obtain ⟨b, hmem, bs, hb⟩ := exists_first_byte c t
      rw [← h c b hmem] at hc
      rw [hb, List.takeWhile_cons, if_neg hc]
      rfl

/-- Skipping bytes ends behind the characters that satisfy `q`, where every byte of a character is
tested as the character is. -/
theorem At.skipWhile_eq {p : UInt8 → Bool} {q : Char → Bool}
    (hpq : ∀ c, ∀ b ∈ String.utf8EncodeChar c, p b = q c) {text t : Text} {i : Nat}
    (h : At text i t) :
  skipWhile p (bytes text) i = .ok (i + size (t.takeWhile q))
  := by
  rw [Checked.skipWhile_eq, h.drop_bytes, length_takeWhile_bytes hpq]

/-! ## Blanks and lines -/

/-- Whether a byte is an ASCII blank. -/
def isBlankByte (b : UInt8) : Bool :=
  b = octet ' ' || b = octet '\t' || b = octet '\n' || b = octet '\x0c' || b = octet '\r'

theorem isAsciiBlank_eq (c : Char) :
  Unicode.isAsciiBlank c = (c = ' ' || c = '\t' || c = '\n' || c = '\x0c' || c = '\r')
  := by
  have h (d : Char) : decide (c = d) = decide (c.toNat = d.toNat) :=
    decide_eq_decide.mpr Char.toNat_inj.symm
  rw [h, h, h, h, h]
  rfl

/-- Every byte of a character is tested as blank exactly when the character is an ASCII blank. -/
theorem isBlankByte_eq (c : Char) :
  ∀ b ∈ String.utf8EncodeChar c, isBlankByte b = Unicode.isAsciiBlank c
  := by
  intro b hb
  rw [isBlankByte, isAsciiBlank_eq, decide_eq_octet hb (by decide), decide_eq_octet hb (by decide),
    decide_eq_octet hb (by decide), decide_eq_octet hb (by decide), decide_eq_octet hb (by decide)]

/-- The offset from `p` on of the first byte that is no ASCII blank. -/
def skipBlanks (t : Text) (p : Nat) : Checked Nat :=
  skipWhile isBlankByte (bytes t) p

/-- The offset of the first newline from `p` on, or of the end of the text. -/
def lineEnd (t : Text) (p : Nat) : Checked Nat := do
  let rest ← sliceFrom t p
  return p + size (firstLine rest)

/-- The rest of the line from `p` on, without its newline, and the offset behind it. -/
def takeLine (t : Text) (p : Nat) : Checked (Text × Nat) := do
  let finish ← lineEnd t p
  let line ← slice t p finish
  return (line, min (finish + 1) (size t))

/-- The offset behind the rest of the line from `p` on. -/
def skipLine (t : Text) (p : Nat) : Checked Nat := do
  let finish ← lineEnd t p
  return min (finish + 1) (size t)

namespace At

variable {text t : Text} {p : Nat}

/-- Skipping blanks by offsets ends where the text without its leading blanks stands. -/
theorem skipBlanks (h : At text p t) :
  ∃ q, At text q (Text.skipBlanks t) ∧ Checked.skipBlanks text p = .ok q
  := ⟨_, (h.run _).2, h.skipWhile_eq isBlankByte_eq⟩

/-- The end of the line is the size of the line further. -/
theorem lineEnd_eq (h : At text p t) :
  lineEnd text p = .ok (p + size (Text.firstLine t))
  := by
  rw [lineEnd, h.sliceFrom_eq]
  rfl

/-- The next line stands behind the newline, or at the end of the text. -/
theorem dropLine (h : At text p t) :
  At text (min (p + size (Text.firstLine t) + 1) (size text)) (dropLine t)
  := by
  have hl := h.firstLine
  rw [Text.dropLine]
  cases hr : fromLineEnd t with
  | nil =>
    rw [hr] at hl
    have := hl.add_size
    rw [size_nil, Nat.add_zero] at this
    rwa [Nat.min_eq_right (by omega), ← this]
  | cons c u =>
    have hc : c = '\n' := by
      rcases endsLine_fromLineEnd t with hn | ⟨v, hv⟩
      · rw [hr] at hn
        cases hn
      · rw [hr] at hv
        exact (List.cons.inj hv).1
    subst hc
    rw [hr] at hl
    have hn := hl.cons_ascii (by decide)
    rwa [Nat.min_eq_left hn.le_size]

/-- Taking a line by offsets gives the line and ends where the next one stands. -/
theorem takeLine (h : At text p t) :
  Reads text (takeLine text p) (Text.firstLine t, Text.dropLine t)
  := by
  refine ⟨_, h.dropLine, ?_⟩
  rw [Checked.takeLine, h.lineEnd_eq, ok_bind, h.slice_firstLine]
  rfl

/-- Skipping a line by offsets ends where the next one stands. -/
theorem skipLine (h : At text p t) :
  ∃ q, At text q (Text.dropLine t) ∧ skipLine text p = .ok q
  := by
  refine ⟨_, h.dropLine, ?_⟩
  rw [Checked.skipLine, h.lineEnd_eq]
  rfl

end At

/-! ## Entries -/

section

variable {α : Type}

/-- A step of the reading of entries between which there are blanks. -/
def entryStep (t : Text) (read : Nat → Checked (List α × Nat)) (p : Nat) :
    Checked (Option (List α × Nat)) := do
  let p ← skipBlanks t p
  if size t ≤ p then
    return none
  else
    let entry ← read p
    return some entry

variable {text t : Text} {p : Nat} {read : Nat → Checked (List α × Nat)}

/-- Where only blanks are left there is no further entry. -/
theorem gather_entryStep_nil (h : At text p t) (ht : Text.skipBlanks t = []) :
  gather (size text) (entryStep text read) p = .ok []
  := by
  obtain ⟨q, hq, hs⟩ := h.skipBlanks
  rw [ht] at hq
  apply gather_done
  rw [entryStep, hs, ok_bind, if_pos hq.size_le]
  rfl

/-- Text that is shorter than what follows the blanks is shorter than the text with its blanks. -/
theorem length_lt_of_skipBlanks {c : Char} {u rest : Text} (ht : Text.skipBlanks t = c :: u)
    (hl : rest.length < (c :: u).length) :
  rest.length < t.length
  := by
  rw [← ht] at hl
  exact Nat.lt_of_lt_of_le hl (length_skipBlanks_le t)

/-- The entries from a place on are those of the first reading and those behind it. -/
theorem gather_entryStep_cons {c : Char} {u rest : Text} {found more : List α} (h : At text p t)
    (ht : Text.skipBlanks t = c :: u) (hl : rest.length < (c :: u).length)
    (hr : ∀ q, At text q (c :: u) → Reads text (read q) (found, rest))
    (hm : ∀ q, At text q rest → gather (size text) (entryStep text read) q = .ok more) :
  gather (size text) (entryStep text read) p = .ok (found ++ more)
  := by
  obtain ⟨q, hq, hs⟩ := h.skipBlanks
  rw [ht] at hq
  obtain ⟨r, hrest, hread⟩ := hr q hq
  apply gather_next h hrest (length_lt_of_skipBlanks ht hl) _ (hm r hrest)
  rw [entryStep, hs, ok_bind, if_neg (Nat.not_le.mpr hq.lt_size), hread]
  rfl

end

end Checked

end DatabaseMarkup
