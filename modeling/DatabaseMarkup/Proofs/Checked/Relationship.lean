import DatabaseMarkup.Proofs.Checked.Lines
import DatabaseMarkup.Proofs.Checked.Settings
import DatabaseMarkup.Relationship.Reader

/-!
# Checked relationships

The readers of relationships and of inline references.  A pattern finds the parts of a line; the
lists and quotes in them and the settings behind them are read by offsets.
-/

namespace DatabaseMarkup.Checked

open Text Octets

/-! ## Names -/

/-- A name without its quotes. -/
def unquoteName (name : Text) : Checked String := do
  let content ← unquote name
  return String.ofList content

/-- A name that may be missing, without its quotes. -/
def unquoteName? : Option Text → Checked (Option String)
  | some name => do
    let content ← unquoteName name
    return some content
  | none => return none

/-- Taking the quotes off a name passes every check. -/
theorem unquoteName_eq (name : Text) :
  unquoteName name = .ok (String.ofList (Text.unquote name))
  := by
  rw [unquoteName, unquote_eq]
  rfl

theorem unquoteName?_eq (name : Option Text) :
  unquoteName? name = .ok (name.map fun n => String.ofList (Text.unquote n))
  := by
  cases name with
  | none => rfl
  | some name =>
    rw [unquoteName?, unquoteName_eq]
    rfl

/-! ## Endpoints -/

/-- The columns of an endpoint as they are written: a list between parentheses or a single name. -/
inductive WrittenColumns where
  | list (inner : Text)
  | single (name : Text)

namespace WrittenColumns

/-- The columns at the start of a text and the text after them. -/
def split? : Text → Option (WrittenColumns × Text)
  | [] => none
  | c :: t =>
    if c = '(' then
      (cutAtMark [')'] t).map fun (inner, rest) => (list inner, rest)
    else
      (splitName? (c :: t)).map fun (name, rest) => (single name, rest)

/-- The names of written columns. -/
def names : WrittenColumns → List String
  | list inner =>
    (((Text.splitTopLevel ',' inner).map Text.unquote).filter fun n => !n.isEmpty).map String.ofList
  | single name => [String.ofList (Text.unquote name)]

/-- The names of written columns, read by offsets. -/
def read : WrittenColumns → Checked (List String)
  | list inner => do
    let parts ← splitTopLevel (octet ',') inner
    let names ← parts.mapM unquote
    return (names.filter fun n => !n.isEmpty).map String.ofList
  | single name => do
    let name ← unquoteName name
    return [name]

theorem read_eq (columns : WrittenColumns) :
  columns.read = .ok columns.names
  := by
  cases columns with
  | list inner =>
    rw [read, splitTopLevel_eq (by decide) (by decide), ok_bind, mapM_eq fun n _ => unquote_eq n]
    rfl
  | single name =>
    rw [read, unquoteName_eq]
    rfl

/-- The columns of an endpoint are first cut out as they are written and then named. -/
theorem splitColumns?_eq (t : Text) :
  Endpoint.splitColumns? t = (split? t).map fun (columns, rest) => (columns.names, rest)
  := by
  cases t with
  | nil => rfl
  | cons c t =>
    rw [Endpoint.splitColumns?, split?]
    split
    · cases cutAtMark [')'] t <;> rfl
    · cases splitName? (c :: t) <;> rfl

end WrittenColumns

/-- An endpoint as it is written. -/
structure WrittenEndpoint where
  schema : Option Text
  table : Text
  columns : WrittenColumns

namespace WrittenEndpoint

/-- The endpoint at the start of a text and the text after it. -/
def split? (t : Text) : Option (WrittenEndpoint × Text) := do
  let (first, afterFirst) ← Endpoint.splitQualifier? t
  let qualified := do
    let (second, afterSecond) ← Endpoint.splitQualifier? afterFirst
    let (columns, rest) ← WrittenColumns.split? afterSecond
    return (⟨some first, second, columns⟩, rest)
  let unqualified := do
    let (columns, rest) ← WrittenColumns.split? afterFirst
    return (⟨none, first, columns⟩, rest)
  qualified <|> unqualified

/-- What a written endpoint names. -/
def endpoint (e : WrittenEndpoint) : Endpoint where
  schema := e.schema.map fun n => String.ofList (Text.unquote n)
  table := String.ofList (Text.unquote e.table)
  columns := e.columns.names

/-- What a written endpoint names, read by offsets.  There has to be a column. -/
def read (e : WrittenEndpoint) : Checked (Option Endpoint) := do
  let columns ← e.columns.read
  if columns.isEmpty then
    return none
  else
    let schema ← unquoteName? e.schema
    let table ← unquoteName e.table
    return some ⟨schema, table, columns⟩

theorem read_eq (e : WrittenEndpoint) :
  e.read = .ok (if e.endpoint.columns.isEmpty then none else some e.endpoint)
  := by
  rw [read, WrittenColumns.read_eq, ok_bind, unquoteName?_eq, unquoteName_eq, endpoint]
  split <;> rfl

/-- An endpoint is first cut out as it is written and then named. -/
theorem split?_eq (t : Text) :
  Endpoint.split? t = (split? t).map fun (e, rest) => (e.endpoint, rest)
  := by
  rw [Endpoint.split?, split?]
  cases Endpoint.splitQualifier? t with
  | none => rfl
  | some first =>
    obtain ⟨first, afterFirst⟩ := first
    simp only [Option.bind_eq_bind, Option.bind_some, WrittenColumns.splitColumns?_eq]
    cases Endpoint.splitQualifier? afterFirst with
    | none => cases WrittenColumns.split? afterFirst <;> rfl
    | some second =>
      obtain ⟨second, afterSecond⟩ := second
      rw [Option.bind_some, Option.bind_some]
      cases WrittenColumns.split? afterSecond with
      | none => cases WrittenColumns.split? afterFirst <;> rfl
      | some columns => rfl

end WrittenEndpoint

/-! ## Lines -/

/-- The endpoints of a line and the symbol between them, and the text after the second one. -/
def splitLine? (t : Text) : Option (WrittenEndpoint × RelationKind × WrittenEndpoint × Text) := do
  let (left, rest) ← WrittenEndpoint.split? t
  let (kind, rest) ← RelationKind.split? (trimStart rest)
  let (right, rest) ← WrittenEndpoint.split? (trimStart rest)
  return (left, kind, right, trimStart rest)

/-- The relationship that a line describes. -/
def readRelationship (name : Option Text) (line : Text) : Checked (Option Relationship) :=
  match splitLine? (trim line) with
  | none => return none
  | some (left, kind, right, rest) => do
    let (settings, finish) ← readGroups rest
    let behind ← sliceFrom rest finish
    if allBlank behind then
      match ← left.read, ← right.read with
      | some left, some right => do
        let name ← unquoteName? name
        return some {
          name
          leftSchema := left.schema
          leftTable := left.table
          leftColumns := left.columns
          rightSchema := right.schema
          rightTable := right.table
          rightColumns := right.columns
          kind
          settings := settings.filter Attribute.isPair }
      | _, _ => return none
    else
      return none

/-- What the line of a short reference describes. -/
def readShort (block : Block) : Checked (Except Finding Relationship) := do
  match ← readRelationship block.header.name block.body with
  | some relationship => return .ok relationship
  | none => return .error (.placed block.offset (.malformedLine .relationship (trim block.body)))

/-- What the lines of a reference block describe. -/
def readReferences (block : Block) : Checked (List (Except Finding Relationship)) :=
  readLines (readRelationship block.header.name) .relationship block.body block.offset

/-- A relationship on a line is read by offsets as `Relationship.readLine?` reads it, with or
without the name of a block. -/
theorem readRelationship_eq (name : Option Text) (line : Text) :
  readRelationship name line = .ok (Relationship.readLine? name line)
  := by
  rw [readRelationship, splitLine?, Relationship.readLine?, WrittenEndpoint.split?_eq]
  cases WrittenEndpoint.split? (trim line) with
  | none => rfl
  | some l =>
    obtain ⟨left, rest⟩ := l
    simp only [Option.bind_eq_bind, Option.bind_some, Option.map_some]
    cases RelationKind.split? (trimStart rest) with
    | none => rfl
    | some k =>
      obtain ⟨kind, rest⟩ := k
      simp only [Option.bind_some, WrittenEndpoint.split?_eq]
      cases WrittenEndpoint.split? (trimStart rest) with
      | none => rfl
      | some r =>
        obtain ⟨right, rest⟩ := r
        obtain ⟨p, hp, hg⟩ := readGroups_eq (trimStart rest)
        simp only [Option.bind_some, Option.map_some, Option.pure_def]
        rw [hg, ok_bind]
        dsimp only
        rw [hp.sliceFrom_eq, ok_bind, WrittenEndpoint.read_eq, WrittenEndpoint.read_eq,
          unquoteName?_eq]
        cases allBlank (Settings.readGroups (trimStart rest)).2 <;>
          cases left.endpoint.columns.isEmpty <;> cases right.endpoint.columns.isEmpty <;> rfl

/-- A one-line block is read by offsets as `Relationship.readShort` reads it. -/
theorem readShort_eq (block : Block) :
  readShort block = .ok (Relationship.readShort block)
  := by
  rw [readShort, readRelationship_eq, ok_bind, Relationship.readShort, Relationship.readLine]
  cases Relationship.readLine? block.header.name block.body <;> rfl

/-- The blanks around a line do not matter to the relationship on it. -/
theorem readLine?_trim (name : Option Text) (line : Text) :
  Relationship.readLine? name (trim line) = Relationship.readLine? name line
  := by
  rw [Relationship.readLine?, trim_trim, Relationship.readLine?]

/-- A block of relationships is read by offsets as `Relationship.readBlock` reads it, with the
same findings. -/
theorem readReferences_eq (block : Block) :
  readReferences block = .ok (Relationship.readBlock block)
  := by
  apply readLines_eq
  intro o line
  rw [readLine, readRelationship_eq, ok_bind, readLine?_trim, Relationship.readLine]
  cases Relationship.readLine? block.header.name line <;> rfl

/-! ## Inline references -/

/-- The symbol and the dotted path that the value of the setting `ref` consists of. -/
def splitInline? (t : Text) : Option (RelationKind × Text) := do
  let (kind, rest) ← RelationKind.split? t
  let target := trimStart rest
  let (_, afterFirst) ← Endpoint.splitQualifier? target
  let (_, afterSecond) ← splitName? afterFirst
  let wellFormed :=
    afterSecond.isEmpty ||
      match (splitChar? '.' afterSecond).bind splitName? with
      | some (_, rest) => rest.isEmpty
      | none => false
  if wellFormed then return (kind, target) else none

/-- The other side of a relationship that the value of the setting `ref` describes. -/
def readInlineRef (value : Text) : Checked (Option InlineRef) :=
  match splitInline? (trim value) with
  | none => return none
  | some (kind, target) => do
    let path ← splitPath target
    match path.reverse with
    | column :: table :: schema =>
      return some {
        kind
        schema := schema.head?.map String.ofList
        table := String.ofList table
        column := String.ofList column }
    | _ => return none

/-- The value of a `ref` setting is read by offsets as `InlineRef.read?` reads it. -/
theorem readInlineRef_eq (value : Text) :
  readInlineRef value = .ok (InlineRef.read? value)
  := by
  rw [readInlineRef, splitInline?, InlineRef.read?]
  cases RelationKind.split? (trim value) with
  | none => rfl
  | some k =>
    obtain ⟨kind, rest⟩ := k
    simp only [Option.bind_eq_bind, Option.bind_some]
    cases Endpoint.splitQualifier? (trimStart rest) with
    | none => rfl
    | some first =>
      obtain ⟨first, afterFirst⟩ := first
      simp only [Option.bind_some]
      cases splitName? afterFirst with
      | none => rfl
      | some second =>
        simp only [Option.bind_some]
        generalize (second.2.isEmpty || _) = wellFormed
        cases wellFormed with
        | false => rfl
        | true =>
          rw [if_pos rfl, if_pos rfl]
          dsimp only [Option.pure_def]
          rw [splitPath_eq, ok_bind]
          rcases (Text.splitPath (trimStart rest)).reverse
            with _ | ⟨column, _ | ⟨table, schema⟩⟩ <;> rfl

end DatabaseMarkup.Checked
