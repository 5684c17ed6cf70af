import DatabaseMarkup.Proofs.Checked.Column
import DatabaseMarkup.Proofs.Checked.Index
import DatabaseMarkup.Proofs.Checked.Note
import DatabaseMarkup.Proofs.Table.Body

/-!
# Checked bodies of tables and partials

The reader of a body by offsets.  A group is cut out of the body between the brace that its header
ends with and the one that closes it, and a group of columns is read as a body again.
-/

namespace DatabaseMarkup.Checked

open Text Octets

/-! ## Lines -/

/-- The name of the partial that a line injects, with its quotes. -/
def injection? : Text → Option Text
  | [] => none
  | c :: t =>
    if c = '~' then
      match splitName? t with
      | some (name, rest) => if rest.isEmpty then some name else none
      | none => none
    else
      none

/-- The entry that a line at an offset stands for. -/
def readEntryLine (offset : Nat) (line : Text) : Checked TableEntry :=
  match injection? line with
  | some name => do
    let name ← unquoteName name
    return .injection name offset
  | none => do
    match ← readColumn line with
    | some c => return .column c
    | none => return .problem (.placed offset (.malformedLine .column line))

/-- The partial that a line injects is first cut out as it is written and then unquoted. -/
theorem injectedName?_eq (line : Text) :
  TableEntry.injectedName? line = (injection? line).map Text.unquote
  := by
  cases line with
  | nil => rfl
  | cons c t =>
    rw [TableEntry.injectedName?, injection?]
    split
    · cases splitName? t with
      | none => rfl
      | some n =>
        dsimp only
        split <;> rfl
    · rfl

/-- The first line of what stands at a place of a text is read. -/
theorem At.readEntryLine {text t : Text} {p : Nat} (h : At text p t) (offset : Nat) :
  readEntryLine (offset + p) (trim (Text.firstLine t))
    = .ok (TableEntry.ofFirstLine (offset + size text) t)
  := by
  rw [Checked.readEntryLine, TableEntry.ofFirstLine, injectedName?_eq, h.startOf_add]
  cases injection? (trim (Text.firstLine t)) with
  | some name =>
    dsimp only
    rw [unquoteName_eq]
    rfl
  | none =>
    dsimp only
    rw [readColumn_eq, ok_bind]
    cases Column.read? (trim (Text.firstLine t)) <;> rfl

/-! ## Groups -/

/-- The word that a group begins with, and the number of bytes up to its brace, which is among
them. -/
def groupHeader? (t : Text) : Option (Text × Nat) :=
  (TablePart.groupWord? t).map fun (word, tail) => (word, size t - size (tail.drop 1))

section

variable (columns : Text → Nat → Checked (List TableEntry)) (t : Text) (offset p : Nat)

/-- The entries that a group stands for.  The text inside of it begins at `start`, and what begins
with the group is `rest`, of which its header takes `length` bytes. -/
def readSection (inner : Text) (start : Nat) (rest word : Text) (length : Nat) :
    Checked (List TableEntry) :=
  if splitKeyword? ['i', 'n', 'd', 'e', 'x', 'e', 's'] word = some [] then do
    let indexes ← readIndexes inner start
    return indexes.map TableEntry.ofIndex
  else if splitKeyword? ['c', 'o', 'l', 'u', 'm', 'n', 's'] word = some [] then
    columns inner start
  else do
    let finish ← subtract length 1
    let head ← slice rest 0 finish
    return [.problem (.placed (offset + p) (.unknownSection (trim head)))]

/-- The entries of the group at an offset, and the offset behind it. -/
def readGroup (rest word : Text) (length : Nat) : Checked (List TableEntry × Nat) := do
  let opener ← subtract (p + length) 1
  match ← matchingClose t opener with
  | some close => do
    let inner ← slice t (opener + 1) close
    let entries ← readSection columns offset p inner (offset + opener + 1) rest word length
    return (entries, min (close + 1) (size t))
  | none => do
    let next ← skipLine t p
    return ([.problem (.placed (offset + p) .unclosedGroup)], next)

/-- The entries of the part at an offset, and the offset behind it. -/
def readPart : Checked (List TableEntry × Nat) := do
  let rest ← sliceFrom t p
  match noteHeader? rest with
  | some length => do
    let (note, next) ← readNote t offset p length
    return ([.ofNote note], next)
  | none =>
    match groupHeader? rest with
    | some (word, length) => readGroup columns t offset p rest word length
    | none => do
      let (line, next) ← takeLine t p
      let entry ← readEntryLine (offset + p) (trim line)
      return ([entry], next)

end

/-- The entries of a body that begins at `offset`. -/
def readBody (t : Text) (offset : Nat) : Checked (List TableEntry) :=
  let columns (inner : Text) (start : Nat) : Checked (List TableEntry) :=
    if inner.length < t.length then readBody inner start else .error .stall
  gather (size t) (entryStep t (readPart columns t offset)) 0
termination_by t.length

/-- The entries that a part of a body stands for. -/
def entriesOf : TablePart → List TableEntry
  | .entries entries => entries
  | .columns finish inner => TableEntry.readAll finish inner

/-! ## Results -/

/-- The header of a group is its word, blanks, and the brace. -/
theorem exists_groupHeader {t word tail : Text} (h : TablePart.groupWord? t = some (word, tail)) :
  ∃ blanks u, tail = '{' :: u ∧ t = (word ++ blanks) ++ '{' :: u ∧ trim (word ++ blanks) = word
    ∧ groupHeader? t = some (word, size (word ++ blanks) + 1)
  := by
  have hlength : groupHeader? t = some (word, size t - size (tail.drop 1)) := by
    rw [groupHeader?, h]
    rfl
  rw [TablePart.groupWord?] at h
  obtain ⟨hc, hw⟩ := Option.ite_none_right_eq_some.mp h
  rw [Bool.and_eq_true, decide_eq_true_eq] at hc
  obtain ⟨u, hu⟩ := List.head?_eq_some_iff.mp hc.2
  obtain ⟨rfl, rfl⟩ := Prod.mk.inj (Option.some.inj hw)
  have ht : t = (t.takeWhile Unicode.isWord
      ++ (t.dropWhile Unicode.isWord).takeWhile Unicode.isBlank) ++ '{' :: u := by
    rw [← hu, trimStart, List.append_assoc, List.takeWhile_append_dropWhile,
      List.takeWhile_append_dropWhile]
  refine ⟨_, u, hu, ht, ?_, ?_⟩
  · have hword : Trimmed (t.takeWhile Unicode.isWord) :=
      trimmed_of_forall fun c hc => Unicode.isBlank_eq_false_of_isWord (List.mem_takeWhile_imp hc)
    exact trim_append (List.forall_mem_nil _) hword fun c hc => List.mem_takeWhile_imp hc
  · have hb : ('{' : Char).utf8Size = 1 := rfl
    have hs := congrArg size ht
    rw [size_append, size_cons, hb, ← Nat.add_assoc] at hs
    rw [hlength, hu, hs, List.drop_succ_cons, List.drop_zero, Nat.add_sub_cancel]

/-- A text that does not start with the word of a group is no header of one. -/
theorem groupHeader?_eq_none {t : Text} (h : TablePart.groupWord? t = none) :
  groupHeader? t = none
  := by
  rw [groupHeader?, h]
  rfl

section

variable {columns : Text → Nat → Checked (List TableEntry)} {text t : Text} {p : Nat}

/-- The text between the braces of a group is read as what its word says. -/
theorem At.readSection (h : At text p t) (offset : Nat)
    (hcolumns : ∀ inner start, inner.length < text.length →
      columns inner start = .ok (TableEntry.readAll (start + size inner) inner))
    {word blanks u inner rest : Text} (ht : t = (word ++ blanks) ++ '{' :: u)
    (hw : trim (word ++ blanks) = word) (hg : splitGroup? ('{' :: u) = some (inner, rest))
    (hrest : At text (p + size (word ++ blanks) + 1 + size inner + 1) rest) :
  readSection columns offset p inner (offset + (p + size (word ++ blanks)) + 1) t word
      (size (word ++ blanks) + 1)
    = .ok (entriesOf (TablePart.ofGroup (offset + size text) t word inner rest))
  := by
  have hlt : inner.length < text.length := by
    have := length_splitGroup hg
    have := h.length_le
    rw [ht, List.length_append] at this
    omega
  have hfinish : startOf (offset + size text) rest - 1
      = offset + (p + size (word ++ blanks)) + 1 + size inner := by
    rw [hrest.startOf_add]
    omega
  have hhead : slice t 0 (size (word ++ blanks)) = .ok (word ++ blanks) := by
    have := (at_zero ((word ++ blanks) ++ '{' :: u)).slice_eq
    rwa [Nat.zero_add, ← ht] at this
  rw [Checked.readSection, TablePart.ofGroup, hfinish]
  split
  · rw [readIndexes_eq]
    rfl
  · split
    · exact hcolumns _ _ hlt
    · rw [subtract_succ, ok_bind, hhead, ok_bind, hw, h.startOf_add]
      rfl

/-- The group at a place of a text is read up to the place behind it, if every text that is
shorter is read as a body. -/
theorem At.readGroup (h : At text p t) (offset : Nat)
    (hcolumns : ∀ inner start, inner.length < text.length →
      columns inner start = .ok (TableEntry.readAll (start + size inner) inner))
    {word blanks u : Text} (ht : t = (word ++ blanks) ++ '{' :: u)
    (hw : trim (word ++ blanks) = word) :
  Reads text (readGroup columns text offset p t word (size (word ++ blanks) + 1))
    (match splitGroup? ('{' :: u) with
      | some (inner, rest) =>
        (entriesOf (TablePart.ofGroup (offset + size text) t word inner rest), rest)
      | none =>
        ([.problem (.placed (startOf (offset + size text) t) .unclosedGroup)], Text.dropLine t))
  := by
  have hb := h
  rw [ht] at hb
  have hbrace := hb.append
  have hopener : subtract (p + (size (word ++ blanks) + 1)) 1 = .ok (p + size (word ++ blanks)) :=
    subtract_succ _
  rw [Checked.readGroup, hopener, ok_bind]
  cases hg : splitGroup? ('{' :: u) with
  | none =>
    obtain ⟨q, hq, hskip⟩ := h.skipLine
    refine ⟨q, hq, ?_⟩
    rw [hbrace.not_group hg, ok_bind]
    dsimp only
    rw [hskip, h.startOf_add]
    rfl
  | some group =>
    obtain ⟨inner, rest⟩ := group
    obtain ⟨hclose, hinner, hrest⟩ := hbrace.group hg
    refine ⟨_, hrest, ?_⟩
    rw [hclose, ok_bind]
    dsimp only
    rw [hinner, ok_bind, h.readSection offset hcolumns ht hw hg hrest, ok_bind, hrest.min_size]
    rfl

/-- The part at a place of a text is read up to the place behind it. -/
theorem At.readPart (h : At text p t) (offset : Nat)
    (hcolumns : ∀ inner start, inner.length < text.length →
      columns inner start = .ok (TableEntry.readAll (start + size inner) inner)) :
  Reads text (readPart columns text offset p)
    (entriesOf (TablePart.splitFirst (offset + size text) t).1,
      (TablePart.splitFirst (offset + size text) t).2)
  := by
  rw [Checked.readPart, h.sliceFrom_eq, ok_bind, TablePart.splitFirst]
  cases hn : Note.split? (offset + size text) t with
  | some result =>
    obtain ⟨note, rest⟩ := result
    obtain ⟨n, hheader, q, hq, hread⟩ := h.readNote offset hn
    refine ⟨q, hq, ?_⟩
    rw [hheader]
    dsimp only
    rw [hread]
    rfl
  | none =>
    rw [noteHeader?_eq_none hn]
    dsimp only
    cases hw : TablePart.groupWord? t with
    | none =>
      obtain ⟨q, hq, hl⟩ := h.takeLine
      refine ⟨q, hq, ?_⟩
      rw [groupHeader?_eq_none hw]
      dsimp only
      rw [hl, ok_bind]
      dsimp only
      rw [h.readEntryLine offset]
      rfl
    | some group =>
      obtain ⟨word, tail⟩ := group
      obtain ⟨blanks, u, rfl, ht, htrim, hheader⟩ := exists_groupHeader hw
      have hr := h.readGroup offset hcolumns ht htrim
      rw [hheader]
      dsimp only
      cases hg : splitGroup? ('{' :: u) with
      | none =>
        rw [hg] at hr
        exact hr
      | some parts =>
        rw [hg] at hr
        exact hr

end

/-- The parts of a body from a place on are read. -/
theorem gather_readPart {columns : Text → Nat → Checked (List TableEntry)} {text t : Text} {p : Nat}
    (h : At text p t) (offset : Nat)
    (hcolumns : ∀ inner start, inner.length < text.length →
      columns inner start = .ok (TableEntry.readAll (start + size inner) inner)) :
  gather (size text) (entryStep text (readPart columns text offset)) p
    = .ok (TableEntry.readAll (offset + size text) t)
  := by
  cases ht : Text.skipBlanks t with
  | nil => rw [gather_entryStep_nil h ht, TableEntry.readAll_blank ht]
  | cons c u =>
    have hl := TablePart.length_splitFirst_lt (offset + size text) c u
    have hlt := length_lt_of_skipBlanks ht hl
    have hread q (hq : At text q (c :: u)) := hq.readPart offset hcolumns
    rw [gather_entryStep_cons h ht hl hread fun q hq => gather_readPart hq offset hcolumns,
      TableEntry.readAll_part ht]
    generalize TablePart.splitFirst (offset + size text) (c :: u) = part
    obtain ⟨part, rest⟩ := part
    cases part <;> rfl
termination_by t.length

/-- The body of a table is read by offsets as `TableEntry.readAll` reads it. -/
theorem readBody_eq (t : Text) (offset : Nat) :
  readBody t offset = .ok (TableEntry.readAll (offset + size t) t)
  := by
  rw [readBody]
  apply gather_readPart (at_zero t)
  intro inner start hl
  rw [if_pos hl]
  exact readBody_eq inner start
termination_by t.length

end DatabaseMarkup.Checked
