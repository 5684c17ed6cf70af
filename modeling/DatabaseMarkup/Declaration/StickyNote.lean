import DatabaseMarkup.Block.Basic

/-!
# Sticky notes

A sticky note is a text with a name that belongs to no declaration.
-/

namespace DatabaseMarkup

/-- A sticky note. -/
structure StickyNote where
  name : String
  content : String
  deriving DecidableEq, Repr

/-- The sticky note that a block declares. -/
def StickyNote.ofBlock (block : Block) : StickyNote where
  name := block.nameText
  content := String.ofList (Text.unquoteBlock block.body)

end DatabaseMarkup
