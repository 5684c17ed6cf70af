import DatabaseMarkup.Document.Reader
import DatabaseMarkup.Proofs.Table.Body
import DatabaseMarkup.Proofs.Table.Index
import Mathlib.Data.List.Basic

/-!
# What a block declares, wherever it stands

The offset of a block is told to the readers of its body so that they can say where a problem is.
What they read does not depend on it: `Block.unplaced` puts a block at the start of a text, and every
declaration is that of the unplaced block.
-/

namespace DatabaseMarkup

open Text

/-- A block without its place in the text. -/
def Block.unplaced (block : Block) : Block :=
  { block with offset := 0 }

/-! ## Lines -/

theorem Text.map_snd_linesFrom (offset : Nat) (ls : List Text) :
  (linesFrom offset ls).map Prod.snd = ls
  := by
  induction ls generalizing offset with
  | nil => rfl
  | cons line ls ih => rw [linesFrom, List.map_cons, ih]

/-- What is read line by line is read from the lines alone. -/
theorem Finding.successes_lines {α : Type} {read : Nat → Text → Except Finding α}
    {read? : Text → Option α} (hr : ∀ offset line, (read offset line).toOption = read? line)
    (offset : Nat) (t : Text) :
  successes (((lines offset t).filter fun (_, line) => !allBlank line).map
      fun (offset, line) => read offset line)
    = ((splitWhere (fun c => c == '\n') t).filter fun line => !allBlank line).filterMap read?
  := by
  conv_rhs => rw [← map_snd_linesFrom offset (splitWhere (fun c => c == '\n') t)]
  rw [lines, List.filter_map, List.filterMap_map, successes, List.filterMap_map]
  apply List.filterMap_congr
  intro p _
  apply hr

theorem EnumValue.toOption_readLine (offset : Nat) (line : Text) :
  (readLine offset line).toOption = readLine? line
  := by
  rw [readLine]
  cases readLine? line <;> rfl

theorem Relationship.toOption_readLine (name : Option Text) (offset : Nat) (line : Text) :
  (readLine name offset line).toOption = readLine? name line
  := by
  rw [readLine]
  cases readLine? name line <;> rfl

/-! ## Parts of a body -/

/-- Whether the same is read, with the same text after it, up to the place of a problem. -/
def Finding.Agrees {α : Type} (x y : Except Finding α × Text) : Prop :=
  x.1.toOption = y.1.toOption ∧ x.2 = y.2

open Finding

section

variable (finish finish' : Nat)

/-- A note is the same wherever the text that it is read from ends. -/
theorem Note.rel_split? (t : Text) :
  Option.Rel Agrees (split? finish t) (split? finish' t)
  := by
  rw [split?, split?]
  cases splitKeyword? ['n', 'o', 't', 'e'] t with
  | none => exact .none
  | some rest =>
    dsimp only
    cases trimStart rest with
    | nil => exact .none
    | cons c rest =>
      dsimp only
      split
      · exact .some ⟨rfl, rfl⟩
      · split
        · cases splitGroup? (c :: rest) with
          | none => exact .some ⟨rfl, rfl⟩
          | some group => exact .some ⟨rfl, rfl⟩
        · exact .none

/-- An index is the same wherever the text that it is read from ends. -/
theorem Index.agrees_splitFirst (c : Char) (t : Text) :
  Agrees (splitFirst finish c t) (splitFirst finish' c t)
  := by
  rw [splitFirst, splitFirst]
  cases splitColumns? c t with
  | none => exact ⟨rfl, rfl⟩
  | some columns => exact ⟨rfl, rfl⟩

/-- A setting is the same wherever the text that it is read from ends. -/
theorem Project.agrees_splitFirst (t : Text) :
  Agrees (splitFirst finish t) (splitFirst finish' t)
  := by
  rw [splitFirst, splitFirst]
  dsimp only
  split
  · exact ⟨rfl, rfl⟩
  · split
    · exact ⟨rfl, rfl⟩
    · split
      · cases splitGroup? (skipSpaces (t.dropWhile isKeyChar)) with
        | none => exact ⟨rfl, rfl⟩
        | some group => exact ⟨rfl, rfl⟩
      · exact ⟨rfl, rfl⟩

/-- An entry is the same wherever the text that it is read from ends. -/
theorem TableGroupEntry.agrees_splitFirst (t : Text) :
  Agrees (splitFirst finish t) (splitFirst finish' t)
  := by
  have hn := Note.rel_split? finish finish' t
  rw [splitFirst, splitFirst]
  generalize Note.split? finish t = x at hn
  generalize Note.split? finish' t = y at hn
  cases hn with
  | none =>
    refine ⟨?_, rfl⟩
    dsimp only
    rw [ofFirstLine, ofFirstLine]
    split
    · rfl
    · cases cutAtMark [':'] (trim (firstLine t)) <;> rfl
  | @some x y hn =>
    obtain ⟨text, rest⟩ := x
    obtain ⟨text', rest'⟩ := y
    obtain ⟨ht, hr⟩ := hn
    refine ⟨?_, hr⟩
    cases text <;> cases text' <;> cases ht <;> rfl

end

/-! ## Bodies -/

/-- A reader that reads one part after another reads the same if the parts agree. -/
theorem Finding.successes_parts {α : Type} {read : Nat → Text → List (Except Finding α)}
    {first : Nat → Char → Text → Except Finding α × Text}
    (hread : ∀ finish t, read finish t = match skipBlanks t with
      | [] => []
      | c :: u => (first finish c u).1 :: read finish (first finish c u).2)
    (hl : ∀ finish c u, c ≠ '\n' → (first finish c u).2.length < (c :: u).length)
    (ha : ∀ finish finish' c u, Agrees (first finish c u) (first finish' c u))
    (finish finish' : Nat) (t : Text) :
  successes (read finish t) = successes (read finish' t)
  := by
  induction hn : t.length using Nat.strongRecOn generalizing t with
  | ind n ih =>
    rw [hread, hread finish']
    cases ht : skipBlanks t with
    | nil => rfl
    | cons c u =>
      have hlt : (first finish' c u).2.length < n := by
        have h := hl finish' c u (ne_newline_of_skipBlanks ht)
        rw [← ht] at h
        have := length_skipBlanks_le t
        omega
      obtain ⟨hfirst, hrest⟩ := ha finish finish' c u
      have ih := ih _ hlt _ rfl
      rw [successes, successes] at ih
      dsimp only
      rw [successes, successes, List.filterMap_cons, List.filterMap_cons, hfirst, hrest, ih]

theorem Project.readAll_eq (finish : Nat) (t : Text) :
  readAll finish t = match skipBlanks t with
    | [] => []
    | c :: u => (splitFirst finish (c :: u)).1 :: readAll finish (splitFirst finish (c :: u)).2
  := by
  rw [readAll]
  split <;> (rename_i ht; rw [ht])

theorem TableGroupEntry.readAll_eq (finish : Nat) (t : Text) :
  readAll finish t = match skipBlanks t with
    | [] => []
    | c :: u => (splitFirst finish (c :: u)).1 :: readAll finish (splitFirst finish (c :: u)).2
  := by
  rw [readAll]
  split <;> (rename_i ht; rw [ht])

section

variable (finish finish' : Nat) (t : Text)

/-- The indexes of a body do not depend on its offset. -/
theorem Index.successes_readAll :
  successes (readAll finish t) = successes (readAll finish' t)
  := successes_parts readAll_eq length_splitFirst_lt agrees_splitFirst finish finish' t

/-- The settings of a project do not depend on its offset. -/
theorem Project.successes_readAll :
  successes (readAll finish t) = successes (readAll finish' t)
  := successes_parts readAll_eq (fun finish c u _ => length_splitFirst_lt finish c u)
    (fun finish finish' c u => agrees_splitFirst finish finish' (c :: u)) finish finish' t

/-- The entries of a table group do not depend on its offset. -/
theorem TableGroupEntry.successes_readAll :
  successes (readAll finish t) = successes (readAll finish' t)
  := successes_parts readAll_eq (fun finish c u _ => length_splitFirst_lt finish c u)
    (fun finish finish' c u => agrees_splitFirst finish finish' (c :: u)) finish finish' t

end

/-! ## Tables and partials -/

namespace TableEntry

/-- What an entry declares, without the place of an injection. -/
def declared? : TableEntry → Option TableEntry
  | injection name _ => some (injection name 0)
  | problem _ => none
  | entry => some entry

/-- What the entries of a list declare. -/
def declaredBy (entries : List TableEntry) : List TableEntry :=
  entries.filterMap declared?

end TableEntry

/-- Whether two parts of a body declare the same. -/
inductive TablePart.Agrees : TablePart → TablePart → Prop
  | entries {entries entries' : List TableEntry}
      (h : TableEntry.declaredBy entries = TableEntry.declaredBy entries') :
      Agrees (.entries entries) (.entries entries')
  | columns (finish finish' : Nat) (inner : Text) :
      Agrees (.columns finish inner) (.columns finish' inner)

section

variable (finish finish' : Nat)

theorem TableEntry.declaredBy_ofIndex (indexes : List (Except Finding Index)) :
  declaredBy (indexes.map ofIndex) = (successes indexes).map index
  := by
  rw [declaredBy, List.filterMap_map, successes, List.map_filterMap]
  apply List.filterMap_congr
  intro i _
  cases i <;> rfl

/-- What a group in a body declares does not depend on its offset. -/
theorem TablePart.agrees_ofGroup (t word inner rest : Text) :
  Agrees (ofGroup finish t word inner rest) (ofGroup finish' t word inner rest)
  := by
  rw [ofGroup, ofGroup]
  split
  · apply Agrees.entries
    rw [TableEntry.declaredBy_ofIndex, TableEntry.declaredBy_ofIndex,
      Index.successes_readAll]
  · split
    · apply Agrees.columns
    · apply Agrees.entries
      rfl

/-- What a line in a body declares does not depend on its offset. -/
theorem TableEntry.declared?_ofFirstLine (t : Text) :
  declared? (ofFirstLine finish t) = declared? (ofFirstLine finish' t)
  := by
  rw [ofFirstLine, ofFirstLine]
  cases injectedName? (trim (firstLine t)) with
  | some name => rfl
  | none =>
    dsimp only
    cases Column.read? (trim (firstLine t)) <;> rfl

/-- What a part of a body declares does not depend on its offset. -/
theorem TablePart.agrees_splitFirst (t : Text) :
  Agrees (splitFirst finish t).1 (splitFirst finish' t).1
    ∧ (splitFirst finish t).2 = (splitFirst finish' t).2
  := by
  have hn := Note.rel_split? finish finish' t
  rw [splitFirst, splitFirst]
  generalize Note.split? finish t = x at hn
  generalize Note.split? finish' t = y at hn
  cases hn with
  | none =>
    dsimp only
    cases groupWord? t with
    | none =>
      refine ⟨.entries ?_, rfl⟩
      rw [TableEntry.declaredBy, TableEntry.declaredBy, List.filterMap_cons, List.filterMap_cons,
        TableEntry.declared?_ofFirstLine]
    | some group =>
      dsimp only
      cases splitGroup? group.2 with
      | none => exact ⟨.entries rfl, rfl⟩
      | some inside => exact ⟨agrees_ofGroup finish finish' t _ _ _, rfl⟩
  | @some x y hn =>
    obtain ⟨text, rest⟩ := x
    obtain ⟨text', rest'⟩ := y
    obtain ⟨ht, hr⟩ := hn
    refine ⟨.entries ?_, hr⟩
    cases text <;> cases text' <;> cases ht <;> rfl

/-- The entries of a body declare the same wherever the body ends. -/
theorem TableEntry.declaredBy_readAll (t : Text) :
  declaredBy (readAll finish t) = declaredBy (readAll finish' t)
  := by
  induction hn : t.length using Nat.strongRecOn generalizing finish finish' t with
  | ind n ih =>
    cases ht : skipBlanks t with
    | nil => rw [readAll_blank ht, readAll_blank ht]
    | cons c u =>
      have hb := length_skipBlanks_le t
      rw [ht] at hb
      have hlt := TablePart.length_splitFirst_lt finish' c u
      obtain ⟨hpart, hrest⟩ := TablePart.agrees_splitFirst finish finish' (c :: u)
      rw [readAll_part ht, readAll_part ht]
      cases hs : TablePart.splitFirst finish (c :: u) with
      | mk part rest =>
        cases hs' : TablePart.splitFirst finish' (c :: u) with
        | mk part' rest' =>
          rw [hs, hs'] at hpart hrest
          rw [hs'] at hlt
          dsimp only at hpart hrest hlt
          subst hrest
          have ih' := ih rest.length (by omega) finish finish' rest rfl
          cases hpart with
          | entries h =>
            dsimp only
            rw [declaredBy, List.filterMap_append, ← declaredBy, ← declaredBy, h, ih']
            exact List.filterMap_append.symm
          | columns innerFinish innerFinish' inner =>
            have hi := TablePart.length_columns_lt hs
            have hinner := ih inner.length (by omega) innerFinish innerFinish' inner rfl
            dsimp only
            rw [declaredBy, List.filterMap_append, ← declaredBy, ← declaredBy, hinner, ih']
            exact List.filterMap_append.symm

end

namespace TableEntry

section

variable {α : Type} {entries entries' : List TableEntry}

/-- A reading of entries that needs neither problems nor places is one of what they declare. -/
theorem filterMap_congr_declaredBy {f : TableEntry → Option α}
    (hf : ∀ entry, f entry = (declared? entry).bind f)
    (h : declaredBy entries = declaredBy entries') :
  entries.filterMap f = entries'.filterMap f
  := by
  have hd (entries : List TableEntry) : entries.filterMap f = (declaredBy entries).filterMap f := by
    rw [declaredBy, List.filterMap_filterMap]
    apply List.filterMap_congr
    intro entry _
    apply hf
  rw [hd, hd entries', h]

/-- A list that is made from what entries declare only depends on what they declare. -/
theorem flatMap_congr_declaredBy {f : TableEntry → List α}
    (hf : ∀ entry, f entry = ((declared? entry).map f).getD [])
    (h : declaredBy entries = declaredBy entries') :
  entries.flatMap f = entries'.flatMap f
  := by
  have hd (entries : List TableEntry) : entries.flatMap f = (declaredBy entries).flatMap f := by
    induction entries with
    | nil => rfl
    | cons entry entries ih =>
      rw [List.flatMap_cons, hf, ih, declaredBy, declaredBy, List.filterMap_cons]
      cases declared? entry <;> rfl
  rw [hd, hd entries', h]

theorem columns_congr (partials : List TablePartial)
    (h : declaredBy entries = declaredBy entries') :
  columns partials entries = columns partials entries'
  := flatMap_congr_declaredBy (fun entry => by cases entry <;> rfl) h

theorem indexes_congr (partials : List TablePartial)
    (h : declaredBy entries = declaredBy entries') :
  indexes partials entries = indexes partials entries'
  := flatMap_congr_declaredBy (fun entry => by cases entry <;> rfl) h

theorem injected_congr (partials : List TablePartial)
    (h : declaredBy entries = declaredBy entries') :
  injected partials entries = injected partials entries'
  := filterMap_congr_declaredBy (fun entry => by cases entry <;> rfl) h

theorem noteOf?_congr (h : declaredBy entries = declaredBy entries') :
  noteOf? entries = noteOf? entries'
  := congrArg List.getLast? (filterMap_congr_declaredBy (fun entry => by cases entry <;> rfl) h)

end

end TableEntry

/-! ## Blocks -/

section

variable (block : Block)

/-- What the body of a block declares does not depend on its offset. -/
theorem Block.declaredBy_entries :
  TableEntry.declaredBy block.unplaced.entries = TableEntry.declaredBy block.entries
  := TableEntry.declaredBy_readAll _ _ _

/-- A table does not depend on more of its block than the header, the settings and what the body
declares. -/
theorem Table.ofBlock_congr {block block' : Block} (hheader : block.header = block'.header)
    (hsettings : block.settings = block'.settings)
    (h : TableEntry.declaredBy block.entries = TableEntry.declaredBy block'.entries)
    (policy : MergePolicy) (partials : List TablePartial) :
  ofBlock policy partials block = ofBlock policy partials block'
  := by
  rw [ofBlock, ofBlock, TableEntry.columns_congr partials h, TableEntry.indexes_congr partials h,
    TableEntry.injected_congr partials h, TableEntry.noteOf?_congr h, Block.schemaText,
    Block.schemaText, Block.nameText, Block.nameText, hheader, hsettings]

/-- A partial does not depend on more of its block than a table does. -/
theorem TablePartial.ofBlock_congr {block block' : Block} (hheader : block.header = block'.header)
    (hsettings : block.settings = block'.settings)
    (h : TableEntry.declaredBy block.entries = TableEntry.declaredBy block'.entries)
    (policy : MergePolicy) (earlier : List TablePartial) :
  ofBlock policy earlier block = ofBlock policy earlier block'
  := by
  rw [ofBlock, ofBlock, TableEntry.columns_congr earlier h, TableEntry.indexes_congr earlier h,
    TableEntry.injected_congr earlier h, TableEntry.noteOf?_congr h, Block.nameText, Block.nameText,
    hheader, hsettings]

/-- The table that a block declares does not depend on its offset. -/
theorem Table.ofBlock_unplaced (policy : MergePolicy) (partials : List TablePartial) :
  ofBlock policy partials block.unplaced = ofBlock policy partials block
  := by
  apply ofBlock_congr _ _ block.declaredBy_entries <;> rfl

/-- The partial that a block declares does not depend on its offset. -/
theorem TablePartial.ofBlock_unplaced (policy : MergePolicy) (earlier : List TablePartial) :
  ofBlock policy earlier block.unplaced = ofBlock policy earlier block
  := by
  apply ofBlock_congr _ _ block.declaredBy_entries <;> rfl

theorem Project.ofBlock_unplaced :
  ofBlock block.unplaced = ofBlock block
  := by
  rw [ofBlock, ofBlock, entries, successes_readAll _ block.finish]
  rfl

theorem TableGroup.ofBlock_unplaced :
  ofBlock block.unplaced = ofBlock block
  := by
  rw [ofBlock, ofBlock, entries, TableGroupEntry.successes_readAll _ block.finish]
  rfl

theorem Enum.ofBlock_unplaced :
  ofBlock block.unplaced = ofBlock block
  := by
  rw [ofBlock, ofBlock, EnumValue.readAll, EnumValue.readAll,
    successes_lines EnumValue.toOption_readLine, successes_lines EnumValue.toOption_readLine]
  rfl

theorem StickyNote.ofBlock_unplaced :
  ofBlock block.unplaced = ofBlock block
  := rfl

/-- The relationships that a block declares do not depend on its offset. -/
theorem Block.successes_relationships_unplaced :
  successes block.unplaced.relationships = successes block.relationships
  := by
  have hshort (b : Block) : successes [Relationship.readShort b]
      = [b].filterMap fun b => Relationship.readLine? b.header.name b.body := by
    rw [successes, List.filterMap_cons, List.filterMap_cons, Relationship.readShort,
      Relationship.toOption_readLine]
    rfl
  have hblock (b : Block) := successes_lines (Relationship.toOption_readLine b.header.name)
    b.offset b.body
  have hkind : block.unplaced.header.kind = block.header.kind := rfl
  rw [relationships, relationships, hkind]
  split
  · exact (hshort block.unplaced).trans (hshort block).symm
  · exact (hblock block.unplaced).trans (hblock block).symm
  · rfl

end

end DatabaseMarkup
