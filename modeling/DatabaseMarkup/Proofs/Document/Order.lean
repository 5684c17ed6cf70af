import DatabaseMarkup.Proofs.Document.Content
import DatabaseMarkup.Proofs.Document.Injection

/-!
# The order of declarations

A document depends on its blocks of each kind in their order, and on nothing else:
`document_ignores_interleaving` states that two sources declare the same document however the kinds
are mixed and wherever the blocks stand.
-/

namespace DatabaseMarkup

open Text

namespace Block

/-- Whether a block describes relationships, in either form. -/
def isReference (block : Block) : Bool :=
  block.header.kind = .refShort || block.header.kind = .refBlock

/-- Whether two lists of blocks have the same blocks of every kind in the same order, apart from
their places.  The two forms of references count as one kind. -/
structure SameOrder (blocks blocks' : List Block) : Prop where
  declarations : ∀ kind, kind ≠ .refShort → kind ≠ .refBlock →
    (ofKind kind blocks).map unplaced = (ofKind kind blocks').map unplaced
  references :
    (blocks.filter isReference).map unplaced = (blocks'.filter isReference).map unplaced

/-- The kinds of blocks other than references. -/
def declarationKinds : List BlockKind :=
  [.project, .table, .tablePartial, .tableGroup, .enum, .stickyNote]

theorem mem_declarationKinds {kind : BlockKind} :
  kind ∈ declarationKinds ↔ kind ≠ .refShort ∧ kind ≠ .refBlock
  := by
  cases kind <;> decide

instance (blocks blocks' : List Block) : Decidable (SameOrder blocks blocks') :=
  decidable_of_iff
    ((∀ kind ∈ declarationKinds,
        (ofKind kind blocks).map unplaced = (ofKind kind blocks').map unplaced)
      ∧ (blocks.filter isReference).map unplaced = (blocks'.filter isReference).map unplaced)
    ⟨fun h => ⟨fun kind hs hb => h.1 kind (mem_declarationKinds.mpr ⟨hs, hb⟩), h.2⟩,
      fun h => ⟨fun kind hk => h.1 kind (mem_declarationKinds.mp hk).1
        (mem_declarationKinds.mp hk).2, h.2⟩⟩

/-- What does not depend on offsets is the same for blocks that differ only in them. -/
theorem map_congr_unplaced {α : Type} {f : Block → α} (hf : ∀ b, f b.unplaced = f b)
    {blocks blocks' : List Block} (h : blocks.map unplaced = blocks'.map unplaced) :
  blocks.map f = blocks'.map f
  := by
  have hu : f = f ∘ unplaced := funext fun b => (hf b).symm
  rw [hu, ← List.map_map, h, List.map_map]

/-- Blocks that are no references describe no relationships. -/
theorem flatMap_relationships (blocks : List Block) :
  blocks.flatMap (fun b => Finding.successes b.relationships)
    = (blocks.filter isReference).flatMap fun b => Finding.successes b.relationships
  := by
  induction blocks with
  | nil => rfl
  | cons b blocks ih =>
    rw [List.flatMap_cons, ih, List.filter_cons]
    split
    · rw [List.flatMap_cons]
    · rename_i hb
      have hn : b.relationships = [] := by
        rw [relationships]
        split
        · rename_i hk
          exact absurd (by rw [isReference, hk]; rfl) hb
        · rename_i hk
          exact absurd (by rw [isReference, hk]; rfl) hb
        · rfl
      rw [hn]
      rfl

end Block

open Block

/-- The partials that blocks declare do not depend on where the blocks stand. -/
theorem TablePartial.ofBlocksAfter_unplaced (policy : MergePolicy) (earlier : List TablePartial)
    (blocks : List Block) :
  (ofBlocksAfter policy earlier (blocks.map unplaced)).1 = (ofBlocksAfter policy earlier blocks).1
  := by
  induction blocks generalizing earlier with
  | nil => rfl
  | cons b blocks ih =>
    rw [List.map_cons, ofBlocksAfter, ofBlocksAfter]
    dsimp only
    rw [ofBlock_unplaced, ih]

/-- The partials that blocks declare do not depend on offsets. -/
theorem TablePartial.ofBlocksAfter_congr {policy : MergePolicy} {blocks blocks' : List Block}
    (h : blocks.map unplaced = blocks'.map unplaced) :
  (ofBlocksAfter policy [] blocks).1 = (ofBlocksAfter policy [] blocks').1
  := by
  rw [← ofBlocksAfter_unplaced, h, ofBlocksAfter_unplaced]

/-- The document that blocks declare is made of their blocks of each kind. -/
theorem Document.ofBlocks_congr (policy : MergePolicy) {blocks blocks' : List Block}
    (h : SameOrder blocks blocks') :
  (ofBlocks policy blocks).1 = (ofBlocks policy blocks').1
  := by
  obtain ⟨hd, hr⟩ := h
  have hpartials := @TablePartial.ofBlocksAfter_congr policy _ _
    (hd .tablePartial (by decide) (by decide))
  have htables (partials : List TablePartial) :=
    map_congr_unplaced (fun b => Table.ofBlock_unplaced b policy partials)
      (hd .table (by decide) (by decide))
  have hprojects := map_congr_unplaced Project.ofBlock_unplaced
    (hd .project (by decide) (by decide))
  have henums := map_congr_unplaced Enum.ofBlock_unplaced (hd .enum (by decide) (by decide))
  have hgroups := map_congr_unplaced TableGroup.ofBlock_unplaced
    (hd .tableGroup (by decide) (by decide))
  have hnotes := map_congr_unplaced StickyNote.ofBlock_unplaced
    (hd .stickyNote (by decide) (by decide))
  have hrelationships : blocks.flatMap (fun b => Finding.successes b.relationships)
      = blocks'.flatMap fun b => Finding.successes b.relationships := by
    have hreferences := @map_congr_unplaced _ (fun b => Finding.successes b.relationships)
      successes_relationships_unplaced _ _ hr
    rw [flatMap_relationships blocks, flatMap_relationships blocks', List.flatMap_def,
      List.flatMap_def, hreferences]
  rw [ofBlocks, ofBlocks]
  dsimp only
  rw [hpartials, htables, ← List.head?_map, ← List.head?_map, hprojects, henums, hgroups, hnotes,
    hrelationships]

/-- Two sources that have the same blocks of every kind in the same order declare the same document,
however the kinds are mixed and wherever the blocks stand.  Of the projects the first one is kept. -/
theorem document_ignores_interleaving (policy : MergePolicy) {source source' : String}
    (h : SameOrder (Block.ofSource source) (Block.ofSource source')) :
  (Report.ofSource policy source).document = (Report.ofSource policy source').document
    ∧ (Report.ofSource policy source).document.project
      = (ofKind .project (Block.ofSource source)).head?.map Project.ofBlock
  := by
  constructor
  · exact congrArg (fun document => (Document.assemble document).1)
      (Document.ofBlocks_congr policy h)
  · rfl

/-- An alias and a partial that are used before they are declared, as well as after, and a second
project, which is left out wherever the first one stands. -/
theorem document_ignores_interleaving_of_uses :
  let source :=
    "Ref: x.n > t.n\nProject a \x7b\x7d\nTable t as x \x7b~p\x7d\nTablePartial p \x7bn int\x7d\nProject b \x7b\x7d"
  let source' :=
    "TablePartial p \x7bn int\x7d\nTable t as x \x7b~p\x7d\nProject a \x7b\x7d\nProject b \x7b\x7d\nRef: x.n > t.n"
  SameOrder (Block.ofSource source) (Block.ofSource source')
    ∧ (Report.ofSource .tableWins source).document = (Report.ofSource .tableWins source').document
    ∧ (Report.ofSource .tableWins source).document.project
      = (ofKind .project (Block.ofSource source)).head?.map Project.ofBlock
  := by
  suffices h : SameOrder (Block.ofSource _) (Block.ofSource _) from
    ⟨h, document_ignores_interleaving .tableWins h⟩
  decide +kernel

end DatabaseMarkup
