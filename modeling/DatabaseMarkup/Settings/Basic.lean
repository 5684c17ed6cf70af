/-!
# Settings

The settings of a declaration are a list of attributes in the order in which they are written.
An attribute is a flag or a pair of a key and a value.  Nothing is lost when a key is written
twice: `Settings.get?` finds the value written last.

The slot of an attribute is its name together with the choice between flag and pair.
`Settings.insertMissing` and `Settings.insertReplacing` add an attribute to settings that may
have its slot already.
-/

namespace DatabaseMarkup

/-- A value is a quoted text without its quotes, an expression between backticks, or a bare
word or phrase. -/
inductive Value where
  | text (content : String)
  | expression (content : String)
  | bare (content : String)
  deriving DecidableEq, Repr

namespace Value

/-- The content of a value, whatever its form. -/
def content : Value → String
  | text s => s
  | expression s => s
  | bare s => s

/-- Whether a value is an expression. -/
def isExpression : Value → Bool
  | expression _ => true
  | _ => false

end Value

/-- An item of a list of settings. -/
inductive Attribute where
  | flag (name : String)
  | pair (key : String) (value : Value)
  deriving DecidableEq, Repr

/-- What an attribute sets: a flag of some name or the value of some key. -/
inductive Slot where
  | flag (name : String)
  | pair (key : String)
  deriving DecidableEq, Repr

namespace Attribute

/-- The name of a flag or the key of a pair. -/
def name : Attribute → String
  | flag name => name
  | pair key _ => key

/-- The slot of an attribute. -/
def slot : Attribute → Slot
  | flag name => .flag name
  | pair key _ => .pair key

/-- Whether an attribute is a pair. -/
def isPair : Attribute → Bool
  | flag _ => false
  | pair _ _ => true

/-- The value of a pair with the given key. -/
def valueOf? (key : String) : Attribute → Option Value
  | pair k value => if k = key then some value else none
  | flag _ => none

end Attribute

/-- The attributes of a declaration in the order in which they are written. -/
abbrev Settings := List Attribute

namespace Settings

/-- The value of the last pair with the given key. -/
def get? (settings : Settings) (key : String) : Option Value :=
  settings.reverse.findSome? (Attribute.valueOf? key)

/-- The content of the value of the last pair with the given key. -/
def getText? (settings : Settings) (key : String) : Option String :=
  (settings.get? key).map Value.content

/-- Whether the settings have a flag. -/
def hasFlag (settings : Settings) (name : String) : Bool :=
  settings.any fun a => a = .flag name

/-- Whether the settings have an attribute of the given slot. -/
def hasSlot (settings : Settings) (slot : Slot) : Bool :=
  settings.any fun a => a.slot = slot

/-- The settings with an attribute added, unless they have its slot already. -/
def insertMissing (settings : Settings) (a : Attribute) : Settings :=
  if settings.hasSlot a.slot then settings else settings ++ [a]

/-- The settings with an attribute added in place of all those of the same slot. -/
def insertReplacing (settings : Settings) (a : Attribute) : Settings :=
  settings.filter (fun b => b.slot ≠ a.slot) ++ [a]

/-- Whether the settings mark a primary key. -/
def isPrimaryKey (settings : Settings) : Bool :=
  settings.hasFlag "pk" || settings.hasFlag "primary key"

end Settings

end DatabaseMarkup
