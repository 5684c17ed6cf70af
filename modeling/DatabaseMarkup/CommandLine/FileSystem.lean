/-!
# Files

The program knows a file by its path only.  `FileAccess` is what it can do with files.  A
`FileSystem` says how files behave that make up a state: what is read at a path, and which state a
write leaves.  What stands at a path, and when it can be read or written, is not said here.
-/

namespace DatabaseMarkup

/-- The reason why a file cannot be read or written. -/
inductive FileError where
  | notFound
  | notDirectory
  | isDirectory
  | noDevice
  | noSpace
  | nameTooLong
  | notText
  | system (description : String)
  deriving DecidableEq, Repr

/-- The wording of a reason. -/
def FileError.message : FileError → String
  | notFound => "No such file or directory (os error 2)"
  | notDirectory => "Not a directory (os error 20)"
  | isDirectory => "Is a directory (os error 21)"
  | noDevice => "No such device or address (os error 6)"
  | noSpace => "No space left on device (os error 28)"
  | nameTooLong => "File name too long (os error 36)"
  | notText => "stream did not contain valid UTF-8"
  | system description => description

/-- How the file at a path is read as a whole, and how it is made to hold the given contents and
nothing else. -/
structure FileAccess (m : Type → Type) where
  read : String → m (Except FileError ByteArray)
  write : String → ByteArray → m (Except FileError Unit)

/-- Files that make up a state.  Reading leaves the state as it is.  A write may change the state
also where it fails. -/
structure FileSystem (σ : Type) where
  read : String → σ → Except FileError ByteArray
  write : String → ByteArray → σ → Except FileError Unit × σ

/-- The access to the files of a state. -/
def FileSystem.access {σ : Type} (system : FileSystem σ) : FileAccess (StateM σ) where
  read path := return system.read path (← get)
  write path contents := modifyGet (system.write path contents)

end DatabaseMarkup
