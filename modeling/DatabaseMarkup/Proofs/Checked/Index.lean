import DatabaseMarkup.Proofs.Checked.Settings
import DatabaseMarkup.Proofs.Diagnostic.Place
import DatabaseMarkup.Table.Index

/-!
# Checked indexes

The stream of the indexes of a table by offsets.  What begins an item decides how its end is
found: a parenthesis that closes it, a quote, or the end of a run of bytes.
-/

namespace DatabaseMarkup.Checked

open Text Octets

/-! ## Items -/

/-- Whether a byte belongs to a bare name. -/
def isBareByte (b : UInt8) : Bool :=
  let n := b.toNat
  (0x30 ≤ n && n ≤ 0x39) || (0x41 ≤ n && n ≤ 0x5A) || (0x61 ≤ n && n ≤ 0x7A)
    || b = octet '_' || 0x80 ≤ n

/-- The column or expression that a text stands for. -/
def readIndexColumn (t : Text) : Checked IndexColumn := do
  let raw := trim t
  if 2 ≤ size raw && raw.head? = some backtick && raw.getLast? = some backtick then
    let finish ← subtract (size raw) 1
    let inner ← slice raw 1 finish
    return .expression (String.ofList inner)
  else
    let name ← unquote raw
    return .name (String.ofList name)

/-- The columns of the item at an offset, and the offset behind them. -/
def readColumns (t : Text) (p : Nat) : Checked (Option (List IndexColumn × Nat)) := do
  let b ← byteAt (bytes t) p
  if b = octet '(' then
    match ← matchingClose t p with
    | some close => do
      let inner ← slice t (p + 1) close
      let parts ← splitTopLevel (octet ',') inner
      let columns ← (parts.filter fun part => !allBlank part).mapM readIndexColumn
      return some (columns, close + 1)
    | none => return none
  else if Octets.isQuote b then
    let finish ← quotedEnd (bytes t) p
    if p + 1 < finish then
      let raw ← slice t p finish
      let column ← readIndexColumn raw
      return some ([column], finish)
    else
      return none
  else if isBareByte b then
    let behind ← bytesFrom (bytes t) p
    let finish := p + (behind.takeWhile isBareByte).length
    let name ← slice t p finish
    return some ([.name (String.ofList name)], finish)
  else
    return none

/-- The item at an offset, or the problem with its line, and the offset behind it.  The text begins
at `offset`. -/
def readIndex (t : Text) (offset p : Nat) : Checked (List (Except Finding Index) × Nat) := do
  let item ← readColumns t p
  match item.filter fun (columns, _) => !columns.isEmpty with
  | some (columns, after) => do
    let behind ← sliceFrom t after
    let (settings, used) ← readGroups behind
    return ([.ok (Index.ofColumns columns settings)], after + used)
  | none => do
    let finish ← lineEnd t p
    let line ← slice t p finish
    return ([.error (.placed (offset + p) (.malformedLine .index (trim line)))], finish)

/-- The items of a text that begins at `offset`. -/
def readIndexes (t : Text) (offset : Nat) : Checked (List (Except Finding Index)) :=
  gather (size t) (entryStep t (readIndex t offset)) 0

/-! ## Results -/

/-- Every byte of a character is tested as the character is, so a bare column ends at a boundary.
-/
theorem isBareByte_eq (c : Char) :
  ∀ b ∈ String.utf8EncodeChar c, isBareByte b = Index.isBareChar c
  := by
  intro b hb
  rw [isBareByte, Index.isBareChar, decide_eq_octet hb (by decide)]
  by_cases hc : IsAscii c
  · rw [utf8EncodeChar_of_isAscii hc, List.mem_singleton] at hb
    have hn : b.toNat = c.toNat := by rw [hb, toNat_octet hc]
    rw [hn]
    rfl
  · have hb : 0x80 ≤ b.toNat := high_utf8EncodeChar hc b hb
    have hc : 0x80 ≤ c.toNat := Nat.not_le.mp hc
    rw [decide_eq_true hb, decide_eq_true hc, Bool.or_true, Bool.or_true]

/-- A text stands between backticks by its ends only if it is longer than one of them. -/
theorem between_backticks_iff (c : Char) (u : Text) :
  (2 ≤ size (c :: u) ∧ (c :: u).head? = some backtick ∧ (c :: u).getLast? = some backtick)
    ↔ c = backtick ∧ u.getLast? = some backtick
  := by
  have h1 : backtick.utf8Size = 1 := rfl
  constructor
  · rintro ⟨hs, hc, hl⟩
    obtain rfl := Option.some.inj hc
    cases u with
    | nil =>
      rw [size_cons, h1] at hs
      exact absurd hs (by decide)
    | cons d u => exact ⟨rfl, hl⟩
  · rintro ⟨rfl, hl⟩
    cases u with
    | nil => cases hl
    | cons d u =>
      have := Char.utf8Size_pos d
      refine ⟨?_, rfl, hl⟩
      rw [size_cons, size_cons, h1]
      omega

/-- A column of an index is read by offsets with its kind. -/
theorem readIndexColumn_eq (t : Text) :
  readIndexColumn t = .ok (IndexColumn.read t)
  := by
  have hname : (do
      let name ← unquote (trim t)
      return IndexColumn.name (String.ofList name))
      = .ok (.name (String.ofList (Text.unquote (trim t)))) := by
    rw [unquote_eq]
    rfl
  rw [readIndexColumn, IndexColumn.read]
  cases ht : trim t with
  | nil => rfl
  | cons c u =>
    rw [ht] at hname
    simp only [Bool.and_eq_true, decide_eq_true_eq, and_assoc, between_backticks_iff]
    split
    · rename_i hq
      obtain ⟨rfl, hl⟩ := hq
      obtain ⟨v, rfl⟩ := List.getLast?_eq_some_iff.mp hl
      have ha : IsAscii backtick := by decide
      rw [size_enclosed ha, subtract_succ, ok_bind, slice_enclosed ha, List.dropLast_concat]
      rfl
    · exact hname

/-- A literal takes a single byte only if there is nothing but its opening quote. -/
theorem one_lt_size_first_iff {c : Char} (hq : isQuote c) (u : Text) :
  1 < size (Lexeme.first c u).1.text ↔ (Lexeme.first c u).1.text.length ≠ 1
  := by
  obtain ⟨tail, ht⟩ := Lexeme.exists_text_first c u
  rw [ht, size_cons, Char.utf8Size_eq_one_iff.mpr (isAscii_of_isQuote hq)]
  cases tail with
  | nil => simp
  | cons d tail =>
    have := Char.utf8Size_pos d
    rw [size_cons, List.length_cons, List.length_cons]
    omega

section

variable {text : Text} {p : Nat} {c : Char} {u : Text}

/-- The columns of an item are read up to the place behind them. -/
theorem At.readColumns (h : At text p (c :: u)) :
  ∃ item, readColumns text p = .ok item
    ∧ ReadsOption text (.ok (item.filter fun (columns, _) => !columns.isEmpty))
      (Index.splitColumns? c u)
  := by
  obtain ⟨b, hmem, bs, hbs⟩ := exists_first_byte c u
  have hb := h.drop_bytes.trans hbs
  rw [Checked.readColumns, Checked.byteAt_eq hb, ok_bind, Index.splitColumns?,
    isQuote_byte hmem, isBareByte_eq c b hmem]
  simp only [eq_octet_iff hmem (by decide : IsAscii '(')]
  split
  · cases hg : splitGroup? (c :: u) with
    | none =>
      rw [h.not_group hg]
      exact ⟨none, rfl, rfl⟩
    | some group =>
      obtain ⟨inner, rest⟩ := group
      obtain ⟨hclose, hinner, hrest⟩ := h.group hg
      rw [hclose, ok_bind]
      dsimp only
      rw [hinner, ok_bind, splitTopLevel_eq (by decide) (by decide), ok_bind,
        mapM_eq fun part _ => readIndexColumn_eq part]
      refine ⟨_, rfl, ?_⟩
      generalize (Text.splitTopLevel ',' inner).filter (fun part => !allBlank part) = parts
      cases parts with
      | nil => rfl
      | cons part parts => exact ⟨_, hrest, rfl⟩
  · split
    · rename_i hq
      have hl := h
      rw [← Lexeme.text_first_append] at hl
      rw [quotedEnd_eq h hq, ok_bind, hl.slice_eq]
      simp only [Nat.add_lt_add_iff_left, one_lt_size_first_iff hq]
      by_cases hs : (Lexeme.first c u).1.text.length = 1
      · rw [if_neg (not_not_intro hs), if_pos hs]
        exact ⟨none, rfl, rfl⟩
      · rw [if_pos hs, if_neg hs, ok_bind, readIndexColumn_eq]
        exact ⟨_, rfl, _, hl.append, rfl⟩
    · split
      · rename_i hc
        obtain ⟨hslice, hrest⟩ := h.run Index.isBareChar
        rw [List.dropWhile_cons_of_pos hc] at hrest
        rw [bytesFrom_eq h.le_length, ok_bind, h.drop_bytes, length_takeWhile_bytes isBareByte_eq,
          hslice, List.takeWhile_cons_of_pos hc]
        rw [List.takeWhile_cons_of_pos hc] at hrest
        exact ⟨_, rfl, _, hrest, rfl⟩
      · exact ⟨none, rfl, rfl⟩

/-- The part at `p` is read by offsets as one index and leaves the text behind that part. -/
theorem At.readIndex (h : At text p (c :: u)) (offset : Nat) :
  Reads text (readIndex text offset p)
    ([(Index.splitFirst (offset + size text) c u).1], (Index.splitFirst (offset + size text) c u).2)
  := by
  obtain ⟨item, hi, hr⟩ := h.readColumns
  rw [Checked.readIndex, hi, ok_bind, Index.splitFirst]
  cases hc : Index.splitColumns? c u with
  | none =>
    rw [hc] at hr
    have hn : item.filter (fun (columns, _) => !columns.isEmpty) = none := Except.ok.inj hr
    refine ⟨_, h.firstLine, ?_⟩
    rw [hn]
    dsimp only
    rw [h.lineEnd_eq, ok_bind, h.slice_firstLine, h.startOf_add]
    rfl
  | some columns =>
    obtain ⟨columns, rest⟩ := columns
    rw [hc] at hr
    obtain ⟨q, hq, hs⟩ := hr
    obtain ⟨n, hn, hg⟩ := readGroups_eq rest
    refine ⟨q + n, hq.trans hn, ?_⟩
    rw [Except.ok.inj hs]
    dsimp only
    rw [hq.sliceFrom_eq, ok_bind, hg]
    rfl

end

/-- The items from a place on are read. -/
theorem gather_readIndex {text t : Text} {p : Nat} (h : At text p t) (offset : Nat) :
  gather (size text) (entryStep text (readIndex text offset)) p
    = .ok (Index.readAll (offset + size text) t)
  := by
  fun_induction Index.readAll (offset + size text) t generalizing p with
  | case1 t ht => exact gather_entryStep_nil h ht
  | case2 t c u ht first =>
    rename_i ih
    have hl := Index.length_splitFirst_lt (offset + size text) c u (ne_newline_of_skipBlanks ht)
    exact gather_entryStep_cons h ht hl (fun q hq => hq.readIndex offset) fun q hq => ih hq

/-- The body of an `indexes` block is read by offsets as `Index.readAll` reads it. -/
theorem readIndexes_eq (t : Text) (offset : Nat) :
  readIndexes t offset = .ok (Index.readAll (offset + size t) t)
  := gather_readIndex (at_zero t) offset

end DatabaseMarkup.Checked
