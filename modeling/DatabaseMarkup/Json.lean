/-!
# Documents of JSON

A `Json` value has two written forms.  `Json.compact` writes it on one line without spaces.
`Json.pretty` writes every member of a list or an object on a line of its own, indented by two
spaces for each level; empty lists and objects stay on one line.
-/

namespace DatabaseMarkup

/-- A value of JSON without numbers.  The members of an object keep their order. -/
inductive Json where
  | null
  | bool (value : Bool)
  | string (value : String)
  | list (items : List Json)
  | object (members : List (String × Json))

namespace Json

/-- The digits of a number below sixteen, in lower case. -/
def hexDigit (n : Nat) : Char :=
  if n < 10 then Char.ofNat (0x30 + n) else Char.ofNat (0x57 + n)

/-- The written form of a character in a string. -/
def escapeChar (c : Char) : List Char :=
  let n := c.toNat
  if n = 0x22 then ['\\', c]
  else if n = 0x5C then ['\\', c]
  else if n = 0x08 then ['\\', 'b']
  else if n = 0x09 then ['\\', 't']
  else if n = 0x0A then ['\\', 'n']
  else if n = 0x0C then ['\\', 'f']
  else if n = 0x0D then ['\\', 'r']
  else if n < 0x20 then ['\\', 'u', '0', '0', hexDigit (n / 16), hexDigit (n % 16)]
  else [c]

/-- The written form of a string. -/
def quoted (s : String) : String :=
  String.ofList ('\x22' :: s.toList.flatMap escapeChar ++ ['\x22'])

/-- The opening brace of an object. -/
def openBrace : String := "\x7b"

/-- The closing brace of an object. -/
def closeBrace : String := "\x7d"

mutual

/-- The form of a value on one line. -/
def compact : Json → String
  | null => "null"
  | bool true => "true"
  | bool false => "false"
  | string s => quoted s
  | list items => "[" ++ ",".intercalate (compactItems items) ++ "]"
  | object members => openBrace ++ ",".intercalate (compactMembers members) ++ closeBrace

/-- The forms of the items of a list on one line. -/
def compactItems : List Json → List String
  | [] => []
  | item :: items => compact item :: compactItems items

/-- The forms of the members of an object on one line. -/
def compactMembers : List (String × Json) → List String
  | [] => []
  | (key, value) :: members => (quoted key ++ ":" ++ compact value) :: compactMembers members

end

/-- A new line that is indented by two spaces for each level. -/
def newline (level : Nat) : String :=
  String.ofList ('\n' :: List.replicate (2 * level) ' ')

/-- Written members between brackets, each on a line of its own. -/
def onLines (level : Nat) (opening : String) (members : List String) (closing : String) :
    String :=
  if members.isEmpty then
    opening ++ closing
  else
    opening ++ newline (level + 1) ++ ("," ++ newline (level + 1)).intercalate members
      ++ newline level ++ closing

mutual

/-- The indented form of a value at a level. -/
def prettyAt (level : Nat) : Json → String
  | null => "null"
  | bool true => "true"
  | bool false => "false"
  | string s => quoted s
  | list items => onLines level "[" (prettyItems (level + 1) items) "]"
  | object members => onLines level openBrace (prettyMembers (level + 1) members) closeBrace

/-- The indented forms of the items of a list at a level. -/
def prettyItems (level : Nat) : List Json → List String
  | [] => []
  | item :: items => prettyAt level item :: prettyItems level items

/-- The indented forms of the members of an object at a level. -/
def prettyMembers (level : Nat) : List (String × Json) → List String
  | [] => []
  | (key, value) :: members =>
    (quoted key ++ ": " ++ prettyAt level value) :: prettyMembers level members

end

/-- The indented form of a value. -/
def pretty (value : Json) : String :=
  prettyAt 0 value

/-- A string that may be missing. -/
def ofString? : Option String → Json
  | some s => string s
  | none => null

/-- A list of strings. -/
def ofStrings (items : List String) : Json :=
  list (items.map string)

end Json

end DatabaseMarkup
