import DatabaseMarkup.Declaration.Enum
import DatabaseMarkup.Declaration.Project
import DatabaseMarkup.Declaration.StickyNote
import DatabaseMarkup.Declaration.TableGroup
import DatabaseMarkup.Proofs.Checked.Note
import DatabaseMarkup.Proofs.Checked.Relationship

/-!
# Checked declarations

The readers of enums, projects, groups of tables and sticky notes by offsets.  Each of them yields
what a block declares together with the problems in its body.
-/

namespace DatabaseMarkup.Checked

open Text Octets

/-! ## Names of blocks -/

/-- The name of a block without quotes. -/
def blockName (block : Block) : Checked String :=
  match block.header.name with
  | some name => unquoteName name
  | none => return ""

/-- The schema of a block without quotes. -/
def blockSchema (block : Block) : Checked String :=
  match block.header.schema with
  | some schema => unquoteName schema
  | none => return defaultSchema

/-- The name of a block passes every check. -/
theorem blockName_eq (block : Block) :
  blockName block = .ok block.nameText
  := by
  rw [blockName, Block.nameText]
  cases block.header.name with
  | some name => exact unquoteName_eq name
  | none => rfl

/-- The schema of a block passes every check. -/
theorem blockSchema_eq (block : Block) :
  blockSchema block = .ok block.schemaText
  := by
  rw [blockSchema, Block.schemaText]
  cases block.header.schema with
  | some schema => exact unquoteName_eq schema
  | none => rfl

/-! ## Enums -/

/-- The value of an enum that a line describes. -/
def readEnumValue (line : Text) : Checked (Option EnumValue) :=
  match splitName? line with
  | none => return none
  | some (name, rest) => do
    let rest := trimStart rest
    let (settings, finish) ← readGroups rest
    let behind ← sliceFrom rest finish
    if allBlank behind then
      let name ← unquoteName name
      return some ⟨name, settings, settings.getText? "note"⟩
    else
      return none

/-- What the lines of the body of an enum describe. -/
def readEnumValues (t : Text) (offset : Nat) : Checked (List (Except Finding EnumValue)) :=
  readLines readEnumValue .enumValue t offset

/-- The enum that a block declares. -/
def readEnum (block : Block) : Checked (Enum × List Finding) := do
  let values ← readEnumValues block.body block.offset
  let schema ← blockSchema block
  let name ← blockName block
  return (⟨schema, name, Finding.successes values⟩, Finding.failures values)

/-- A trimmed line is read by offsets as the value of an enum that the line holds. -/
theorem readEnumValue_eq (line : Text) :
  readEnumValue (trim line) = .ok (EnumValue.readLine? line)
  := by
  rw [readEnumValue, EnumValue.readLine?]
  cases splitName? (trim line) with
  | none => rfl
  | some n =>
    obtain ⟨name, rest⟩ := n
    obtain ⟨q, hq, hg⟩ := readGroups_eq (trimStart rest)
    dsimp only
    rw [hg, ok_bind]
    dsimp only
    rw [hq.sliceFrom_eq, ok_bind, unquoteName_eq]
    split <;> rfl

/-- The lines of a body are read by offsets as the values of an enum, in their order. -/
theorem readEnumValues_eq (t : Text) (offset : Nat) :
  readEnumValues t offset = .ok (EnumValue.readAll offset t)
  := by
  apply readLines_eq
  intro o line
  rw [readLine, readEnumValue_eq, ok_bind, EnumValue.readLine]
  cases EnumValue.readLine? line <;> rfl

/-- An enum is read by offsets with its values and the findings at the lines that hold none. -/
theorem readEnum_eq (block : Block) :
  readEnum block
    = .ok (Enum.ofBlock block, Finding.failures (EnumValue.readAll block.offset block.body))
  := by
  rw [readEnum, readEnumValues_eq, ok_bind, blockSchema_eq, ok_bind, blockName_eq]
  rfl

/-! ## Groups of tables -/

/-- What a line of the body of a group of tables says. -/
def readMember (offset : Nat) (line : Text) : Checked (Except Finding TableGroupEntry) :=
  if TableGroupEntry.isTableName line then do
    let path ← splitPath line
    return .ok (.table (String.ofList (path.intersperse ['.']).flatten))
  else
    match cutAtMark [':'] line with
    | some (key, written) => do
      let (value, _) ← readValue (trim written)
      return .ok (.setting (.pair (normalName key) value))
    | none => return .error (.placed offset (.malformedLine .tableName line))

/-- What the part of the body of a group of tables at an offset says, and the offset behind it. -/
def readTableGroupEntry (t : Text) (offset p : Nat) :
    Checked (List (Except Finding TableGroupEntry) × Nat) := do
  let rest ← sliceFrom t p
  match noteHeader? rest with
  | some length => do
    let (note, next) ← readNote t offset p length
    return ([note.map .note], next)
  | none => do
    let (line, next) ← takeLine t p
    let entry ← readMember (offset + p) (trim line)
    return ([entry], next)

/-- What the parts of the body of a group of tables say. -/
def readTableGroupEntries (t : Text) (offset : Nat) :
    Checked (List (Except Finding TableGroupEntry)) :=
  gather (size t) (entryStep t (readTableGroupEntry t offset)) 0

/-- The group of tables that a block declares. -/
def readTableGroup (block : Block) : Checked (TableGroup × List Finding) := do
  let parts ← readTableGroupEntries block.body block.offset
  let name ← blockName block
  let entries := Finding.successes parts
  let group : TableGroup := {
    name
    settings := block.settings ++ entries.filterMap TableGroupEntry.setting?
    note := (entries.filterMap TableGroupEntry.note?).getLast? <|> block.settings.getText? "note"
    tables := entries.filterMap TableGroupEntry.table? }
  return (group, Finding.failures parts)

/-- The line at `p` is read by offsets as the entry of a table group that the line holds, at the
offset of its start. -/
theorem At.readMember {text t : Text} {p : Nat} (h : At text p t) (offset : Nat) :
  readMember (offset + p) (trim (Text.firstLine t))
    = .ok (TableGroupEntry.ofFirstLine (offset + size text) t)
  := by
  rw [Checked.readMember, TableGroupEntry.ofFirstLine, h.startOf_add]
  dsimp only
  split
  · rw [splitPath_eq]
    rfl
  · cases cutAtMark [':'] (trim (Text.firstLine t)) with
    | none => rfl
    | some cut =>
      obtain ⟨key, written⟩ := cut
      obtain ⟨n, -, hv⟩ := readValue_eq (trim written)
      dsimp only
      rw [hv]
      rfl

/-- The part at `p` is read by offsets as one entry of a table group and leaves the text behind
that part. -/
theorem At.readTableGroupEntry {text t : Text} {p : Nat} (h : At text p t) (offset : Nat) :
  Reads text (readTableGroupEntry text offset p)
    ([(TableGroupEntry.splitFirst (offset + size text) t).1],
      (TableGroupEntry.splitFirst (offset + size text) t).2)
  := by
  rw [Checked.readTableGroupEntry, h.sliceFrom_eq, ok_bind, TableGroupEntry.splitFirst]
  cases hn : Note.split? (offset + size text) t with
  | some result =>
    obtain ⟨note, rest⟩ := result
    obtain ⟨n, hheader, q, hq, hread⟩ := h.readNote offset hn
    refine ⟨q, hq, ?_⟩
    rw [hheader]
    dsimp only
    rw [hread]
    rfl
  | none =>
    obtain ⟨q, hq, hl⟩ := h.takeLine
    refine ⟨q, hq, ?_⟩
    rw [noteHeader?_eq_none hn]
    dsimp only
    rw [hl, ok_bind]
    dsimp only
    rw [h.readMember offset]
    rfl

/-- The entries of a table group are gathered from `p` on as `TableGroupEntry.readAll` reads them.
-/
theorem gather_readTableGroupEntry {text t : Text} {p : Nat} (h : At text p t) (offset : Nat) :
  gather (size text) (entryStep text (readTableGroupEntry text offset)) p
    = .ok (TableGroupEntry.readAll (offset + size text) t)
  := by
  fun_induction TableGroupEntry.readAll (offset + size text) t generalizing p with
  | case1 t ht => exact gather_entryStep_nil h ht
  | case2 t c u ht first =>
    rename_i ih
    have hl := TableGroupEntry.length_splitFirst_lt (offset + size text) c u
    exact gather_entryStep_cons h ht hl (fun q hq => hq.readTableGroupEntry offset)
      fun q hq => ih hq

/-- A table group is read by offsets with the findings in its body. -/
theorem readTableGroup_eq (block : Block) :
  readTableGroup block
    = .ok (TableGroup.ofBlock block, Finding.failures (TableGroup.entries block))
  := by
  rw [readTableGroup, readTableGroupEntries, gather_readTableGroupEntry (at_zero block.body),
    ok_bind, blockName_eq]
  rfl

/-! ## Projects -/

/-- The setting of a project at an offset, or the problem with it, and the offset behind it. -/
def readSetting (t : Text) (offset p : Nat) : Checked (List (Except Finding Attribute) × Nat) := do
  let rest ← sliceFrom t p
  let length := size (rest.takeWhile Project.isKeyChar)
  let behind ← sliceFrom rest length
  let tail := skipSpaces behind
  let gap ← subtract (size rest) (size tail)
  let separator := p + gap
  if (bytes tail)[0]? = some (octet ':') && 0 < length then
    let written ← sliceFrom tail 1
    let (value, next) ← readLastValue t written
    let key ← slice rest 0 length
    return ([.ok (.pair (normalName key) value)], next)
  else if (bytes tail)[0]? = some (octet '{') && 0 < length then
    match ← matchingClose t separator with
    | some close => do
      let inner ← slice t (separator + 1) close
      let content ← unquoteBlock inner
      let key ← slice rest 0 length
      return ([.ok (.pair (normalName key) (.text (String.ofList content)))],
        min (close + 1) (size t))
    | none => do
      let next ← skipLine t p
      return ([.error (.placed (offset + p) .unclosedGroup)], next)
  else
    let (line, next) ← takeLine t p
    return ([.ok (.flag (normalName (trim line)))], next)

/-- The settings in the body of a project. -/
def readSettings (t : Text) (offset : Nat) : Checked (List (Except Finding Attribute)) :=
  gather (size t) (entryStep t (readSetting t offset)) 0

/-- The project that a block declares. -/
def readProject (block : Block) : Checked (Project × List Finding) := do
  let entries ← readSettings block.body block.offset
  let name ← blockName block
  let settings := block.settings ++ Finding.successes entries
  let project : Project := {
    name
    databaseType := settings.getText? "database_type"
    settings
    note := settings.getText? "note" }
  return (project, Finding.failures entries)

theorem size_pos_iff (t : Text) :
  0 < size t ↔ t.isEmpty = false
  := by
  cases t with
  | nil => simp
  | cons c t =>
    have := Char.utf8Size_pos c
    rw [size_cons]
    simp
    omega

/-- A line that is neither a pair nor a group is a flag. -/
theorem At.readFlag {text t : Text} {p : Nat} (h : At text p t) :
  Reads text
    (do
      let (line, next) ← Checked.takeLine text p
      return ([.ok (.flag (normalName (trim line)))], next))
    (([.ok (Project.flagOf (Text.firstLine t))] : List (Except Finding Attribute)),
      Text.dropLine t)
  := by
  obtain ⟨q, hq, hl⟩ := h.takeLine
  refine ⟨q, hq, ?_⟩
  rw [hl, ok_bind, Project.flagOf]
  dsimp only
  rw [normalName, normalName, normalize_trim]
  rfl

/-- The part at `p` is read by offsets as one setting of a project and leaves the text behind that
part. -/
theorem At.readSetting {text t : Text} {p : Nat} (h : At text p t) (offset : Nat) :
  Reads text (readSetting text offset p)
    ([(Project.splitFirst (offset + size text) t).1], (Project.splitFirst (offset + size text) t).2)
  := by
  obtain ⟨hkey, hbehind⟩ := (at_zero t).run Project.isKeyChar
  rw [Nat.zero_add] at hkey hbehind
  have htail := (at_zero t).suffix (s := skipSpaces (t.dropWhile Project.isKeyChar))
    ((List.dropWhile_suffix _).trans (List.dropWhile_suffix _))
  have hplace := h.trans htail
  rw [Checked.readSetting, h.sliceFrom_eq, ok_bind]
  dsimp only
  rw [hbehind.sliceFrom_eq, ok_bind, htail.subtract_eq, ok_bind, Project.splitFirst]
  generalize skipSpaces (t.dropWhile Project.isKeyChar) = tail at htail hplace ⊢
  simp only [(at_zero tail).getElem?_eq_some_iff (by decide : IsAscii ':'),
    (at_zero tail).getElem?_eq_some_iff (by decide : IsAscii '{')]
  cases hk : (t.takeWhile Project.isKeyChar).isEmpty with
  | true =>
    have hs : ¬0 < size (t.takeWhile Project.isKeyChar) := by
      rw [size_pos_iff, hk]
      decide
    rw [decide_eq_false hs, Bool.and_false, Bool.and_false, if_neg Bool.false_ne_true]
    exact h.readFlag
  | false =>
    have hs := (size_pos_iff _).mpr hk
    simp only [decide_eq_true hs, Bool.and_true, decide_eq_true_eq]
    rw [if_neg Bool.false_ne_true]
    by_cases hc : tail.head? = some ':'
    · obtain ⟨v, rfl⟩ := List.head?_eq_some_iff.mp hc
      have hwritten := (at_zero (':' :: v)).cons_ascii (by decide)
      obtain ⟨r, hr, hvalue⟩ := (hplace.cons_ascii (by decide)).readLastValue
      rw [if_pos hc, if_pos hc, hwritten.sliceFrom_eq, ok_bind, hvalue, ok_bind]
      dsimp only
      rw [hkey]
      exact ⟨r, hr, rfl⟩
    · rw [if_neg hc, if_neg hc]
      by_cases hb : tail.head? = some '{'
      · rw [if_pos hb, if_pos hb]
        cases hg : splitGroup? tail with
        | none =>
          obtain ⟨r, hr, hskip⟩ := h.skipLine
          rw [hplace.not_group hg, ok_bind]
          dsimp only
          rw [hskip, h.startOf_add]
          exact ⟨r, hr, rfl⟩
        | some group =>
          obtain ⟨inner, rest⟩ := group
          obtain ⟨hclose, hinner, hrest⟩ := hplace.group hg
          rw [hclose, ok_bind]
          dsimp only
          rw [hinner, ok_bind, unquoteBlock_eq, ok_bind, hkey, ok_bind, hrest.min_size]
          exact ⟨_, hrest, rfl⟩
      · rw [if_neg hb, if_neg hb]
        exact h.readFlag

/-- The settings of a project are gathered from `p` on as `Project.readAll` reads them. -/
theorem gather_readSetting {text t : Text} {p : Nat} (h : At text p t) (offset : Nat) :
  gather (size text) (entryStep text (readSetting text offset)) p
    = .ok (Project.readAll (offset + size text) t)
  := by
  fun_induction Project.readAll (offset + size text) t generalizing p with
  | case1 t ht => exact gather_entryStep_nil h ht
  | case2 t c u ht first =>
    rename_i ih
    have hl := Project.length_splitFirst_lt (offset + size text) c u
    exact gather_entryStep_cons h ht hl (fun q hq => hq.readSetting offset) fun q hq => ih hq

/-- A project is read by offsets with the findings in its body. -/
theorem readProject_eq (block : Block) :
  readProject block = .ok (Project.ofBlock block, Finding.failures (Project.entries block))
  := by
  rw [readProject, readSettings, gather_readSetting (at_zero block.body), ok_bind, blockName_eq]
  rfl

/-! ## Sticky notes -/

/-- The sticky note that a block declares. -/
def readStickyNote (block : Block) : Checked StickyNote := do
  let name ← blockName block
  let content ← unquoteBlock block.body
  return ⟨name, String.ofList content⟩

/-- A sticky note is read by offsets as `StickyNote.ofBlock` reads it. -/
theorem readStickyNote_eq (block : Block) :
  readStickyNote block = .ok (StickyNote.ofBlock block)
  := by
  rw [readStickyNote, blockName_eq, ok_bind, unquoteBlock_eq]
  rfl

end DatabaseMarkup.Checked
