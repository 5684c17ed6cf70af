import DatabaseMarkup.Relationship.Reader
import DatabaseMarkup.Table.Basic

/-!
# Written columns

A column is written on one line as its name, its type and its settings.  `Column.read?` reads
such a line.  The type ends at the first bracket that does not belong to an array mark `[]`.
`Column.withAttribute` says what each setting means for the column.
-/

namespace DatabaseMarkup

open Text

namespace Text

/-- The parts of a list of lexemes before and from the first bracket group, where `depth`
parentheses are open.  An empty group is an array mark and does not count, nor does a bracket in
parentheses. -/
def cutAtGroup (depth : Nat) : List Lexeme → Text × Text
  | [] => ([], [])
  | l :: ls =>
    if l = .plain '[' && depth = 0 then
      match ls with
      | .plain ']' :: ls =>
        let (before, after) := cutAtGroup depth ls
        ('[' :: ']' :: before, after)
      | _ => ([], ofLexemes (l :: ls))
    else
      let (before, after) := cutAtGroup (parenthesesAfter depth l) ls
      (l.text ++ before, after)

/-- Whether a text is a sequence of array marks. -/
def isArrayMarks : Text → Bool
  | [] => true
  | [_] => false
  | c :: d :: t => c = '[' && d = ']' && isArrayMarks t

/-- Whether a character may stand in a type before its array marks. -/
def isTypeChar (c : Char) : Bool :=
  c != '{' && c != '}' && c != ':' && c != '~' && c != '[' && c != ']'

/-- Whether a text can be the type of a column. -/
def isType (t : Text) : Bool :=
  !(t.takeWhile isTypeChar).isEmpty && isArrayMarks (t.dropWhile isTypeChar)

end Text

namespace Column

/-- What a flag means for a column. -/
def withFlag (column : Column) (flag : String) : Column :=
  if flag = "pk" || flag = "primary key" then { column with isPrimaryKey := true }
  else if flag = "null" then { column with isNullable := true, isNotNull := false }
  else if flag = "not null" then { column with isNotNull := true, isNullable := false }
  else if flag = "unique" then { column with isUnique := true }
  else if flag = "increment" then { column with isIncrement := true }
  else column

/-- What a pair means for a column.  A value of `ref` that is no reference means nothing. -/
def withPair (column : Column) (key : String) (value : Value) : Column :=
  if key = "note" then { column with note := some value.content }
  else if key = "default" then { column with default := some value }
  else if key = "ref" then
    match InlineRef.read? value.content.toList with
    | some target => { column with inlineRef := some target }
    | none => column
  else column

/-- What an attribute means for a column. -/
def withAttribute (column : Column) : Attribute → Column
  | .flag name => column.withFlag name
  | .pair key value => column.withPair key value

/-- The column of a given name and type with the given settings.  A primary key is never
null. -/
def ofSettings (name dataType : String) (settings : Settings) : Column :=
  let column := settings.foldl withAttribute { name, dataType, settings }
  if column.isPrimaryKey then { column with isNotNull := true, isNullable := false } else column

/-- The column that a line describes. -/
def read? (line : Text) : Option Column := do
  let (name, rest) ← splitName? line
  let rest ← splitBlanks? rest
  let (dataType, groups) := cutAtGroup 0 (lexemes rest)
  let (settings, rest) := Settings.readGroups groups
  if isType (trim dataType) && allBlank rest then
    return ofSettings (String.ofList (unquote name)) (String.ofList (unquote dataType)) settings
  else
    none

end Column

end DatabaseMarkup
