import DatabaseMarkup.Proofs.Checked.Delimiter
import DatabaseMarkup.Proofs.Text.Name
import DatabaseMarkup.Settings.Value

/-!
# Checked quotes and values

The operations that take quotes off a text and the reader of written values, by offsets.
`Checked.readValue` yields a value together with the number of bytes that it takes.
-/

namespace DatabaseMarkup.Checked

open Text Octets

/-! ## Quotes around a text -/

/-- A text without blanks at its ends and without the pair of equal quotes around it. -/
def unquote (t : Text) : Checked Text := do
  let value := trim t
  if 2 ≤ size value then
    let first ← byteAt (bytes value) 0
    let finish ← subtract (size value) 1
    let last ← byteAt (bytes value) finish
    if first = last && Octets.isQuote first then
      slice value 1 finish
    else
      return value
  else
    return value

/-- A text without blanks at its ends and without the quotes around it, which may be three
apostrophes on either side. -/
def unquoteBlock (t : Text) : Checked Text := do
  let value := trim t
  if 6 ≤ size value && tripleQuote.isPrefixOf value && tripleQuote.isSuffixOf value then
    let finish ← subtract (size value) 3
    let inner ← slice value 3 finish
    return trim inner
  else
    unquote value

/-- The parts of a dotted path, without quotes. -/
def splitPath (t : Text) : Checked (List Text) := do
  let parts ← splitTopLevel (octet '.') t
  parts.mapM unquote

/-- The first byte of a text belongs to its first character. -/
theorem exists_byteAt_first (c : Char) (t : Text) :
  ∃ b ∈ String.utf8EncodeChar c, byteAt (bytes (c :: t)) 0 = .ok b
  := by
  obtain ⟨b, hmem, bs, hb⟩ := exists_first_byte c t
  rw [← List.drop_zero (l := bytes (c :: t))] at hb
  exact ⟨b, hmem, byteAt_eq hb⟩

/-- The last byte of a text belongs to its last character. -/
theorem exists_byteAt_last (t : Text) (c : Char) :
  ∃ b ∈ String.utf8EncodeChar c, byteAt (bytes (t ++ [c])) (size (t ++ [c]) - 1) = .ok b
  := by
  have hn : String.utf8EncodeChar c ≠ [] := String.utf8EncodeChar_ne_nil
  have hb : bytes (t ++ [c]) = (bytes t ++ (String.utf8EncodeChar c).dropLast)
      ++ [(String.utf8EncodeChar c).getLast hn] := by
    rw [bytes_append, List.append_assoc, List.dropLast_concat_getLast hn]
    rw [bytes_cons, bytes_nil, List.append_nil]
  have hl : size (t ++ [c]) - 1 = (bytes t ++ (String.utf8EncodeChar c).dropLast).length := by
    have := congrArg List.length hb
    rw [length_bytes, List.length_append, List.length_singleton] at this
    omega
  have hd : (bytes (t ++ [c])).drop (size (t ++ [c]) - 1)
      = [(String.utf8EncodeChar c).getLast hn] := by
    rw [hb, hl, List.drop_left]
  exact ⟨_, List.getLast_mem hn, byteAt_eq hd⟩

/-- The bytes at both ends of a text are equal quotes only if the characters are. -/
theorem ends_eq {c e : Char} {b d : UInt8} (hb : b ∈ String.utf8EncodeChar c)
    (hd : d ∈ String.utf8EncodeChar e) :
  (b = d && Octets.isQuote b) = (isQuote c && e = c)
  := by
  rw [isQuote_byte hb, Bool.and_comm]
  cases hq : isQuote c with
  | false => rfl
  | true =>
    have ha := isAscii_of_isQuote hq
    rw [utf8EncodeChar_of_isAscii ha, List.mem_singleton] at hb
    rw [Bool.true_and, Bool.true_and, hb, ← decide_eq_octet hd ha]
    exact decide_eq_decide.mpr eq_comm

theorem size_enclosed {q : Char} (hq : IsAscii q) (v : Text) :
  size (q :: (v ++ [q])) = 1 + size v + 1
  := by
  rw [size_cons, size_append, size_cons, size_nil, Char.utf8Size_eq_one_iff.mpr hq, Nat.add_assoc]

/-- What stands between two ASCII characters is cut out by offsets. -/
theorem slice_enclosed {q : Char} (hq : IsAscii q) (v : Text) :
  slice (q :: (v ++ [q])) 1 (1 + size v) = .ok v
  := by
  apply At.slice_eq (t := [q])
  exact (at_zero _).cons_ascii hq

/-- The quotes around a text are taken off by their bytes. -/
theorem unquote_eq (t : Text) :
  unquote t = .ok (Text.unquote t)
  := by
  rw [unquote]
  cases h : trim t with
  | nil =>
    rw [Text.unquote, h]
    rfl
  | cons c u =>
    obtain ⟨b, hb, hfirst⟩ := exists_byteAt_first c u
    rcases List.eq_nil_or_concat u with rfl | ⟨v, e, rfl⟩
    · have hu : Text.unquote t = [c] := by rw [Text.unquote, h]
      rw [hu]
      split
      · rename_i hs
        obtain ⟨d, hd, hlast⟩ := exists_byteAt_last [] c
        have hq : ¬(b = d && Octets.isQuote b) = true := by
          rw [isQuote_byte hb, Bool.and_eq_true]
          rintro ⟨-, hq⟩
          rw [size_cons, Char.utf8Size_eq_one_iff.mpr (isAscii_of_isQuote hq)] at hs
          exact absurd hs (by decide)
        rw [List.nil_append] at hlast
        rw [hfirst, ok_bind, subtract_eq (by omega), ok_bind, hlast, ok_bind, if_neg hq]
        rfl
      · rfl
    · obtain ⟨d, hd, hlast⟩ := exists_byteAt_last (c :: v) e
      rw [List.cons_append] at hlast
      rw [List.concat_eq_append] at h hfirst ⊢
      have hs : 2 ≤ size (c :: (v ++ [e])) := by
        have := Char.utf8Size_pos c
        have := Char.utf8Size_pos e
        simp only [size_cons, size_append]
        omega
      rw [if_pos hs, hfirst, ok_bind, subtract_eq (by omega), ok_bind, hlast, ok_bind,
        unquote_of_trim h, ends_eq hb hd]
      split
      · rename_i hq
        rw [Bool.and_eq_true, decide_eq_true_eq] at hq
        obtain ⟨hq, rfl⟩ := hq
        have ha := isAscii_of_isQuote hq
        rw [size_enclosed ha, Nat.add_sub_cancel, slice_enclosed ha]
      · rfl

theorem length_le_size (t : Text) :
  t.length ≤ size t
  := by
  induction t with
  | nil => exact Nat.le_refl _
  | cons c t ih =>
    have := Char.utf8Size_pos c
    rw [List.length_cons, size_cons]
    omega

/-- A text with three apostrophes at both ends has room for all six of them if it has six bytes:
what is shorter consists of apostrophes. -/
theorem six_le_length {t : Text} (hp : tripleQuote <+: t) (hs : tripleQuote <:+ t)
    (h : 6 ≤ size t) :
  6 ≤ t.length
  := by
  obtain ⟨u, rfl⟩ := hp
  by_contra hl
  rw [List.length_append] at hl
  simp only [List.length_cons, List.length_nil] at hl
  have hu : u <:+ tripleQuote := by
    apply List.suffix_of_suffix_length_le (List.suffix_append _ _) hs
    simp only [List.length_cons, List.length_nil]
    omega
  obtain ⟨w, hw⟩ := hu
  have hsize := congrArg size hw
  have hlength := congrArg List.length hw
  have := length_le_size w
  have ht : size tripleQuote = 3 := rfl
  rw [size_append, ht] at hsize h
  rw [List.length_append] at hlength
  simp only [List.length_cons, List.length_nil] at hlength
  omega

/-- A text that starts and ends with three quotes and has room for both encloses what is between
them. -/
theorem exists_of_tripleQuotes {t : Text} (hp : tripleQuote <+: t) (hs : tripleQuote <:+ t)
    (h : 6 ≤ t.length) :
  ∃ inner, t = tripleQuote ++ (inner ++ tripleQuote)
  := by
  obtain ⟨u, rfl⟩ := hp
  have hu : tripleQuote <:+ u := by
    apply List.suffix_of_suffix_length_le hs (List.suffix_append _ _)
    rw [List.length_append] at h
    simp only [List.length_cons, List.length_nil] at h ⊢
    omega
  obtain ⟨inner, rfl⟩ := hu
  exact ⟨inner, rfl⟩

/-- Taking the quotes off a block literal passes every check. -/
theorem unquoteBlock_eq (t : Text) :
  unquoteBlock t = .ok (Text.unquoteBlock t)
  := by
  rw [unquoteBlock, Text.unquoteBlock]
  by_cases hq : tripleQuote <+: trim t ∧ tripleQuote <:+ trim t
  · obtain ⟨hp, hs⟩ := hq
    have hsize : 6 ≤ size (trim t) ↔ 6 ≤ (trim t).length :=
      ⟨six_le_length hp hs, fun h => Nat.le_trans h (length_le_size _)⟩
    simp only [List.isPrefixOf_iff_prefix.mpr hp, List.isSuffixOf_iff_suffix.mpr hs,
      Bool.and_true, decide_eq_decide.mpr hsize]
    split
    · rename_i hl
      obtain ⟨inner, hi⟩ := exists_of_tripleQuotes hp hs (of_decide_eq_true hl)
      have h3 : size tripleQuote = 3 := rfl
      have hat : At (trim t) 3 (inner ++ tripleQuote) := ⟨tripleQuote, hi, rfl⟩
      have hn : size (trim t) - 3 = 3 + size inner := by
        rw [hi, size_append, size_append, h3]
        omega
      have hd : ((trim t).drop 3).take ((trim t).length - 6) = inner := by
        have hlen : (trim t).length - 6 = inner.length := by
          rw [hi, List.length_append, List.length_append]
          simp only [List.length_cons, List.length_nil]
          omega
        rw [hlen, hi]
        exact List.take_left
      rw [subtract_eq (by omega), ok_bind, hn, hat.slice_eq, hd]
      rfl
    · rw [unquote_eq]
  · have hq : ¬(tripleQuote.isPrefixOf (trim t) && tripleQuote.isSuffixOf (trim t)) = true := by
      rwa [Bool.and_eq_true, List.isPrefixOf_iff_prefix, List.isSuffixOf_iff_suffix]
    rw [Bool.and_assoc, Bool.and_assoc, eq_false_of_ne_true hq, Bool.and_false, Bool.and_false,
      if_neg Bool.false_ne_true, if_neg Bool.false_ne_true, unquote_eq]

/-- A path is split by offsets at its dots. -/
theorem splitPath_eq (t : Text) :
  splitPath t = .ok (Text.splitPath t)
  := by
  rw [splitPath, splitTopLevel_eq (by decide) (by decide), ok_bind]
  exact mapM_eq fun part _ => unquote_eq part

/-! ## Written values -/

/-- The offset of the first place where a mark stands in a text. -/
def findMark (mark t : Text) : Option Nat :=
  (cutAtMark mark t).map fun (before, _) => size before

/-- The bare value at the start of a text, which is its first line. -/
def readBare (t : Text) : Checked (Value × Nat) := do
  let finish ← lineEnd t 0
  let line ← slice t 0 finish
  return (.bare (String.ofList (trim line)), finish)

/-- The literal at the start of a text, whose opening quote is given, or the bare value there if
the quote has no partner. -/
def readLiteral (quote : UInt8) (t : Text) : Checked (Value × Nat) := do
  let finish ← quotedEnd (bytes t) 0
  if 2 ≤ finish then
    let stop ← subtract finish 1
    let last ← byteAt (bytes t) stop
    if last = quote then
      let inner ← slice t 1 stop
      return (.text (String.ofList (unescape (Char.ofNat quote.toNat) inner)), finish)
    else
      readBare t
  else
    readBare t

/-- The value at the start of a text and the number of bytes that it takes. -/
def readValue (t : Text) : Checked (Value × Nat) :=
  if tripleQuote.isPrefixOf t then do
    let opened ← sliceFrom t 3
    match findMark tripleQuote opened with
    | some n => do
      let inner ← slice t 3 (3 + n)
      return (.text (String.ofList (trim inner)), 3 + n + 3)
    | none => do
      let inner ← sliceFrom t 3
      return (.text (String.ofList (trim inner)), size t)
  else
    match (bytes t)[0]? with
    | none => readBare t
    | some quote =>
      if quote = octet backtick then do
        let opened ← sliceFrom t 1
        match findMark [backtick] opened with
        | some n => do
          let inner ← slice t 1 (1 + n)
          return (.expression (String.ofList inner), n + 2)
        | none => do
          let inner ← sliceFrom t 1
          return (.expression (String.ofList (trim inner)), size t)
      else if Octets.isQuote quote then
        readLiteral quote t
      else
        readBare t

/-- A bare value is read by offsets to the end of its line. -/
theorem readBare_eq (t : Text) :
  Reads t (readBare t) (Value.readBare t)
  := by
  refine ⟨_, (at_zero t).firstLine, ?_⟩
  rw [readBare, (at_zero t).lineEnd_eq, ok_bind, (at_zero t).slice_firstLine]
  rfl

/-- A literal that does not begin with three apostrophes is read up to the quote that closes it. -/
theorem readLiteral_eq {quote : Char} {u : Text} (hq : isQuote quote)
    (hp : ¬tripleQuote.isPrefixOf (quote :: u) = true) :
  Reads (quote :: u) (readLiteral (octet quote) (quote :: u))
    (match closeLine quote u with
      | some (inner, rest) => (.text (String.ofList (unescape quote inner)), rest)
      | none => Value.readBare (quote :: u))
  := by
  have ha := isAscii_of_isQuote hq
  have h1 := Char.utf8Size_eq_one_iff.mpr ha
  have h := at_zero (quote :: u)
  have hp : ¬(quote = apostrophe && [apostrophe, apostrophe].isPrefixOf u) = true := by
    rw [Bool.and_eq_true, decide_eq_true_eq]
    rintro ⟨rfl, hu⟩
    exact hp hu
  have hc : Char.ofNat (octet quote).toNat = quote := by
    simp only [isQuote, Bool.or_eq_true, decide_eq_true_eq] at hq
    rcases hq with (rfl | rfl) | rfl <;> rfl
  rw [readLiteral, quotedEnd_eq h hq, ok_bind, Lexeme.first, if_neg hp, if_pos hq, hc]
  cases hcl : closeLine quote u with
  | none =>
    obtain ⟨n, hn, hr⟩ := readBare_eq (quote :: u)
    refine ⟨n, hn, ?_⟩
    dsimp only
    rw [Lexeme.text, size_cons, h1, if_neg (by decide), hr]
  | some p =>
    obtain ⟨inner, rest⟩ := p
    have hu := closeLine_append hcl
    dsimp only
    have hopen : At (quote :: u) 1 (inner ++ quote :: rest) := by
      rw [← hu]
      exact h.cons_ascii ha
    have hend : At (quote :: u) (1 + size inner + 1) rest := hopen.append.cons_ascii ha
    refine ⟨_, hend, ?_⟩
    have hn : 0 + size (Lexeme.quoted quote (inner ++ [quote])).text = 1 + size inner + 1 := by
      simp only [Lexeme.text, size_cons, size_append, size_nil, h1]
      omega
    rw [hn, if_pos (by omega), subtract_eq (by omega), ok_bind, Nat.add_sub_cancel,
      hopen.append.byteAt_eq ha, ok_bind, if_pos rfl, hopen.slice_eq]
    rfl

/-- What stands in front of a mark is cut out, and what follows the mark is found behind it. -/
theorem At.inFrontOfMark {text t mark inner rest : Text} {p : Nat} (h : At text p t)
    (hc : cutAtMark mark t = some (inner, rest)) :
  slice text p (p + size inner) = .ok inner ∧ At text (p + size inner + size mark) rest
  := by
  rw [eq_append_of_cutAtMark hc, List.append_assoc] at h
  exact ⟨h.slice_eq, h.append.append⟩

/-- A value is read by offsets as `Value.read` reads it, and to the same end. -/
theorem readValue_eq (t : Text) :
  Reads t (readValue t) (Value.read t)
  := by
  rw [readValue, Value.read.eq_def]
  split
  · rename_i hp
    obtain ⟨u, rfl⟩ := List.isPrefixOf_iff_prefix.mp hp
    have h3 : At (tripleQuote ++ u) 3 u := (at_zero (tripleQuote ++ u)).append
    have hd : (tripleQuote ++ u).drop 3 = u := rfl
    rw [h3.sliceFrom_eq, ok_bind, findMark, hd]
    cases hc : cutAtMark tripleQuote u with
    | none => exact ⟨_, at_size _, rfl⟩
    | some p =>
      obtain ⟨inner, rest⟩ := p
      obtain ⟨hslice, hrest⟩ := h3.inFrontOfMark hc
      refine ⟨_, hrest, ?_⟩
      rw [Option.map_some]
      dsimp only
      rw [hslice]
      rfl
  · rename_i hp
    have h := at_zero t
    cases t with
    | nil => exact readBare_eq []
    | cons c u =>
      obtain ⟨b, hb, bs, hbs⟩ := exists_first_byte c u
      rw [h.getElem?_eq, hbs, List.head?_cons]
      simp only [eq_octet_iff hb (show IsAscii backtick by decide), isQuote_byte hb]
      split
      · rename_i hc
        subst hc
        have h1 : At (backtick :: u) 1 u := h.cons_ascii (by decide)
        rw [h1.sliceFrom_eq, ok_bind, findMark]
        cases hc : cutAtMark [backtick] u with
        | none => exact ⟨_, at_size _, rfl⟩
        | some p =>
          obtain ⟨inner, rest⟩ := p
          obtain ⟨hslice, hrest⟩ := h1.inFrontOfMark hc
          refine ⟨_, hrest, ?_⟩
          rw [Option.map_some]
          dsimp only
          rw [hslice, Nat.add_comm 1]
          rfl
      · split
        · rename_i hq
          have ha := isAscii_of_isQuote hq
          rw [utf8EncodeChar_of_isAscii ha, List.mem_singleton] at hb
          rw [hb]
          exact readLiteral_eq hq hp
        · exact readBare_eq (c :: u)

end DatabaseMarkup.Checked
