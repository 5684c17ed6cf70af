import DatabaseMarkup.Proofs.Table.Body
import DatabaseMarkup.Table.Injection
import Mathlib.Data.List.Basic

/-!
# What an injection stands for

A partial can be injected by name into whatever has it available: a table has all partials of its
document and a partial those declared before it.  `Block.flatten` says what the entries of a block
come to when every injection is replaced by what the first available partial of its name comes to,
and `Block.mergedSettings` says the same of the settings.  Both recur on the blocks that are
available, of which there are ever fewer.

Partials are not read in this way but one after another, each of them with those before it:
`TableEntry.Injects` says which partials a body injects where certain ones are available.
`TablePartial.find?_declared` says what a name finds among them, and from there
`TablePartial.isFlattened_ofBlock` and `Table.isFlattened_ofBlock` say that what is read is what the
blocks come to.
-/

namespace DatabaseMarkup

namespace TableEntry

/-- The columns that an entry is itself. -/
def ownColumns : TableEntry → List Column
  | column c => [c]
  | _ => []

/-- The indexes that an entry is itself. -/
def ownIndexes : TableEntry → List Index
  | index i => [i]
  | _ => []

/-- What an entry contributes: what it is itself, or what the partial that it injects lends. -/
def contribution {α : Type} (own : TableEntry → List α) (lent : TablePartial → List α)
    (partials : List TablePartial) : TableEntry → List α
  | injection name _ => ((TablePartial.find? partials name).map lent).getD []
  | entry => own entry

/-- The columns of a body are its own and those of the partials that it injects, in their order.
-/
theorem columnsOf_eq (partials : List TablePartial) :
  columnsOf partials = contribution ownColumns TablePartial.columns partials
  := by
  funext entry
  cases entry with
  | injection name offset =>
    rw [columnsOf, contribution]
    cases TablePartial.find? partials name with
    | none => rfl
    | some p => rfl
  | column c => rfl
  | index i => rfl
  | note text => rfl
  | problem finding => rfl

/-- The indexes of a body are its own and those of the partials that it injects, in their order.
-/
theorem indexesOf_eq (partials : List TablePartial) :
  indexesOf partials = contribution ownIndexes TablePartial.indexes partials
  := by
  funext entry
  cases entry with
  | injection name offset =>
    rw [indexesOf, contribution]
    cases TablePartial.find? partials name with
    | none => rfl
    | some p => rfl
  | column c => rfl
  | index i => rfl
  | note text => rfl
  | problem finding => rfl

/-- Whether a list of entries injects the given partials in their order: each entry that is an
injection stands for the first of the available partials with its name, or for none if there is no
partial of the name. -/
inductive Injects (available : List TablePartial) : List TableEntry → List TablePartial → Prop
  | nil : Injects available [] []
  | injection {name : String} {offset : Nat} {p : TablePartial} {before after : List TablePartial}
      {entries : List TableEntry} {injected : List TablePartial}
      (ha : available = before ++ p :: after) (hn : p.name = name)
      (hb : ∀ q ∈ before, q.name ≠ name) (h : Injects available entries injected) :
      Injects available (.injection name offset :: entries) (p :: injected)
  | unknown {name : String} {offset : Nat} {entries : List TableEntry}
      {injected : List TablePartial} (hn : ∀ q ∈ available, q.name ≠ name)
      (h : Injects available entries injected) :
      Injects available (.injection name offset :: entries) injected
  | other {entry : TableEntry} {entries : List TableEntry} {injected : List TablePartial}
      (he : ∀ name offset, entry ≠ .injection name offset)
      (h : Injects available entries injected) :
      Injects available (entry :: entries) injected

/-- The partials whose settings are merged are those that the entries inject. -/
theorem injects_injected (available : List TablePartial) (entries : List TableEntry) :
  Injects available entries (injected available entries)
  := by
  induction entries with
  | nil => exact .nil
  | cons entry entries ih =>
    cases entry with
    | injection name offset =>
      cases h : TablePartial.find? available name with
      | none =>
        have hn : ∀ q ∈ available, q.name ≠ name := by
          simpa [TablePartial.find?] using h
        have hi : injected? available (.injection name offset) = none := h
        rw [injected, List.filterMap_cons_none hi]
        exact .unknown hn ih
      | some p =>
        obtain ⟨hp, before, after, ha, hb⟩ := List.find?_eq_some_iff_append.mp h
        have hb : ∀ q ∈ before, q.name ≠ name := by
          intro q hq
          simpa using hb q hq
        have hi : injected? available (.injection name offset) = some p := h
        rw [injected, List.filterMap_cons_some hi]
        exact .injection ha (of_decide_eq_true hp) hb ih
    | column c => exact .other (by rintro _ _ ⟨⟩) ih
    | index i => exact .other (by rintro _ _ ⟨⟩) ih
    | note text => exact .other (by rintro _ _ ⟨⟩) ih
    | problem finding => exact .other (by rintro _ _ ⟨⟩) ih

/-- The name of the partial that an entry injects. -/
def injectedPartial? : TableEntry → Option String
  | injection name _ => some name
  | _ => none

end TableEntry

namespace Block

/-! ## Blocks by name -/

/-- The first of the blocks with the given name. -/
def named? (blocks : List Block) (name : String) : Option Block :=
  blocks.find? fun b => b.nameText = name

/-- The blocks before the first one with the given name. -/
def beforeNamed (blocks : List Block) (name : String) : List Block :=
  blocks.takeWhile fun b => b.nameText ≠ name

/-- No block is found exactly when none has the name. -/
theorem named?_eq_none_iff {blocks : List Block} {name : String} :
  named? blocks name = none ↔ ∀ b ∈ blocks, b.nameText ≠ name
  := by
  simp [named?]

/-- The block that is found is one of the given ones and has the name. -/
theorem mem_of_named? {blocks : List Block} {name : String} {p : Block}
    (h : named? blocks name = some p) :
  p ∈ blocks ∧ p.nameText = name
  := ⟨List.mem_of_find?_eq_some h, of_decide_eq_true (List.find?_some h :)⟩

/-- The first block with a name stands behind blocks of other names. -/
theorem named?_eq_some {blocks : List Block} {name : String} {p : Block}
    (h : named? blocks name = some p) :
  ∃ after, blocks = beforeNamed blocks name ++ p :: after ∧ p.nameText = name
    ∧ ∀ b ∈ beforeNamed blocks name, b.nameText ≠ name
  := by
  obtain ⟨hp, before, after, rfl, hb⟩ := List.find?_eq_some_iff_append.mp h
  have hn : ∀ b ∈ before, b.nameText ≠ name := by
    intro b hm
    simpa using hb b hm
  have ht : beforeNamed (before ++ p :: after) name = before := by
    rw [beforeNamed, List.takeWhile_append_of_pos fun b hm => decide_eq_true (hn b hm),
      List.takeWhile_cons, if_neg (by simpa using hp), List.append_nil]
  rw [ht]
  exact ⟨after, rfl, of_decide_eq_true hp, hn⟩

theorem length_beforeNamed_lt {blocks : List Block} {name : String} {p : Block}
    (h : named? blocks name = some p) :
  (beforeNamed blocks name).length < blocks.length
  := by
  obtain ⟨after, ha, _, _⟩ := named?_eq_some h
  have hl := congrArg List.length ha
  rw [List.length_append, List.length_cons] at hl
  omega

/-- Every block of a list together with the blocks before it, of which `earlier` are the first. -/
def withEarlier (earlier : List Block) : List Block → List (List Block × Block)
  | [] => []
  | b :: blocks => (earlier, b) :: withEarlier (earlier ++ [b]) blocks

/-- A block is together with the blocks that stand before it and with no other ones. -/
theorem mem_withEarlier {earlier before blocks : List Block} {b : Block} :
  (before, b) ∈ withEarlier earlier blocks
    ↔ ∃ between after, blocks = between ++ b :: after ∧ before = earlier ++ between
  := by
  induction blocks generalizing earlier with
  | nil => simp [withEarlier]
  | cons c blocks ih =>
    rw [withEarlier, List.mem_cons, ih]
    constructor
    · rintro (h | ⟨between, after, rfl, rfl⟩)
      · cases h
        exact ⟨[], blocks, rfl, (List.append_nil _).symm⟩
      · exact ⟨c :: between, after, rfl, by simp⟩
    · rintro ⟨between, after, h, rfl⟩
      cases between with
      | nil =>
        cases h
        exact .inl (by rw [List.append_nil])
      | cons d between =>
        cases h
        exact .inr ⟨between, after, rfl, by simp⟩

/-! ## What a block comes to -/

/-- What the entries of a block come to: what they are themselves, and in the place of an
injection what the first available partial of its name comes to, where those before that partial
are available. -/
def flatten {α : Type} (own : TableEntry → List α) (available : List Block) (block : Block) :
    List α :=
  block.entries.flatMap fun
    | .injection name _ =>
      match _ : named? available name with
      | some p => p.flatten own (beforeNamed available name)
      | none => []
    | entry => own entry
termination_by available.length
decreasing_by
  apply length_beforeNamed_lt
  assumption

/-- The settings of a block with those of the partials that it injects merged in one after
another. -/
def mergedSettings (policy : MergePolicy) (available : List Block) (block : Block) : Settings :=
  block.entries.foldl
    (fun settings entry =>
      match entry with
      | .injection name _ =>
        match _ : named? available name with
        | some p => policy.merge settings (p.mergedSettings policy (beforeNamed available name))
        | none => settings
      | _ => settings)
    block.settings
termination_by available.length
decreasing_by
  apply length_beforeNamed_lt
  assumption

/-- The names that a block injects and that an available partial has, in order. -/
def injectedNames (available : List Block) (block : Block) : List String :=
  (block.entries.filterMap TableEntry.injectedPartial?).filter fun name =>
    ∃ p ∈ available, p.nameText = name

/-- The problems with the injections of a block for which there is no available partial. -/
def unknownInjections (available : List Block) (block : Block) : List Finding :=
  block.entries.filterMap fun
    | .injection name offset =>
      if ∀ p ∈ available, p.nameText ≠ name then some (.placed offset (.unknownPartial name))
      else none
    | _ => none

end Block

/-! ## Partials that are read -/

namespace TablePartial

variable (policy : MergePolicy)

/-- The partials that blocks declare one after another. -/
def declared (blocks : List Block) : List TablePartial :=
  (ofBlocksAfter policy [] blocks).1

/-- Partials are declared one after the other, each with those before it at hand. -/
theorem ofBlocksAfter_append (earlier : List TablePartial) (blocks more : List Block) :
  (ofBlocksAfter policy earlier (blocks ++ more)).1
    = (ofBlocksAfter policy earlier blocks).1
      ++ (ofBlocksAfter policy (earlier ++ (ofBlocksAfter policy earlier blocks).1) more).1
  := by
  induction blocks generalizing earlier with
  | nil => rw [List.nil_append, ofBlocksAfter, List.append_nil, List.nil_append]
  | cons b blocks ih =>
    rw [List.cons_append, ofBlocksAfter, ofBlocksAfter]
    dsimp only
    rw [ih, List.append_assoc, List.singleton_append, List.cons_append]

/-- A block declares its partial with those before it at hand, whatever follows. -/
theorem declared_append_cons (before after : List Block) (b : Block) :
  ∃ later, declared policy (before ++ b :: after)
    = declared policy before ++ ofBlock policy (declared policy before) b :: later
  := by
  rw [declared, ofBlocksAfter_append, List.nil_append, ofBlocksAfter]
  exact ⟨_, rfl⟩

/-- The last block declares its partial with all others at hand. -/
theorem declared_concat (blocks : List Block) (b : Block) :
  declared policy (blocks ++ [b])
    = declared policy blocks ++ [ofBlock policy (declared policy blocks) b]
  := by
  rw [declared, ofBlocksAfter_append, List.nil_append, ofBlocksAfter, ofBlocksAfter]
  rfl

/-- Every partial is read with those available that are declared before it, and what is wrong
with it is found there. -/
theorem ofBlocksAfter_declared (earlier blocks : List Block) :
  ofBlocksAfter policy (declared policy earlier) blocks
    = ((Block.withEarlier earlier blocks).map fun (before, b) =>
        ofBlock policy (declared policy before) b,
      (Block.withEarlier earlier blocks).flatMap fun (before, b) =>
        TableEntry.findings (declared policy before) b.entries)
  := by
  induction blocks generalizing earlier with
  | nil => rfl
  | cons b blocks ih =>
    rw [ofBlocksAfter, ← declared_concat, ih]
    rfl

/-- The partials have the names of their blocks. -/
theorem map_name_declared (blocks : List Block) :
  (declared policy blocks).map TablePartial.name = blocks.map Block.nameText
  := by
  rw [declared]
  generalize ([] : List TablePartial) = earlier
  induction blocks generalizing earlier with
  | nil => rfl
  | cons b blocks ih =>
    rw [ofBlocksAfter]
    dsimp only
    rw [List.map_cons, List.map_cons, ih]
    rfl

theorem length_declared (blocks : List Block) :
  (declared policy blocks).length = blocks.length
  := by
  have h := congrArg List.length (map_name_declared policy blocks)
  rwa [List.length_map, List.length_map] at h

/-- A partial is what its block declares where the partials in front of it are available. -/
theorem exists_of_getElem?_declared {blocks : List Block} {n : Nat} {p : TablePartial}
    (h : (declared policy blocks)[n]? = some p) :
  ∃ b, blocks[n]? = some b ∧ p = ofBlock policy ((declared policy blocks).take n) b
  := by
  obtain ⟨hn, -⟩ := List.getElem?_eq_some_iff.mp h
  rw [length_declared] at hn
  obtain ⟨later, hd⟩ :=
    declared_append_cons policy (blocks.take n) (blocks.drop (n + 1)) blocks[n]
  rw [List.getElem_cons_drop, List.take_append_drop] at hd
  have hl : (declared policy (blocks.take n)).length = n := by
    rw [length_declared, List.length_take_of_le (Nat.le_of_lt hn)]
  refine ⟨blocks[n], List.getElem?_eq_getElem hn, ?_⟩
  rw [hd, List.getElem?_append_right (Nat.le_of_eq hl), hl, Nat.sub_self,
    List.getElem?_cons_zero] at h
  rw [hd, List.take_left' hl]
  exact (Option.some.inj h).symm

/-- A name finds the partial of the first block of the name. -/
theorem find?_declared (blocks : List Block) (name : String) :
  find? (declared policy blocks) name = (Block.named? blocks name).map fun p =>
    ofBlock policy (declared policy (Block.beforeNamed blocks name)) p
  := by
  have hname {bs : List Block} (h : ∀ b ∈ bs, b.nameText ≠ name) :
      find? (declared policy bs) name = none := by
    rw [find?, List.find?_eq_none]
    intro q hq
    have hm : q.name ∈ bs.map Block.nameText := by
      rw [← map_name_declared policy]
      apply List.mem_map_of_mem hq
    obtain ⟨b, hb, hn⟩ := List.mem_map.mp hm
    rw [← hn, decide_eq_true_iff]
    apply h b hb
  cases h : Block.named? blocks name with
  | none => rw [hname (Block.named?_eq_none_iff.mp h), Option.map_none]
  | some p =>
    obtain ⟨after, hb, hp, hbefore⟩ := Block.named?_eq_some h
    generalize Block.beforeNamed blocks name = before at hb hbefore
    obtain ⟨later, hd⟩ := declared_append_cons policy before after p
    have hfirst := hname hbefore
    rw [find?] at hfirst
    rw [hb, hd, find?, List.find?_append, hfirst, Option.none_or, List.find?_cons_of_pos]
    · rfl
    · apply decide_eq_true hp

end TablePartial

/-! ## Bodies that are read -/

namespace Block

variable (policy : MergePolicy)

/-- What the entries of a block contribute, where the declared partials lend what the entries of
their blocks contribute, is what they come to. -/
theorem flatMap_contribution {α : Type} {own : TableEntry → List α} {lent : TablePartial → List α}
    (hl : ∀ partials b, lent (TablePartial.ofBlock policy partials b)
      = b.entries.flatMap (TableEntry.contribution own lent partials))
    (available : List Block) (block : Block) :
  block.entries.flatMap
      (TableEntry.contribution own lent (TablePartial.declared policy available))
    = block.flatten own available
  := by
  -- the induction is on the blocks that are available, as the recursion of `flatten` is
  fun_induction flatten own available block with
  | case1 available block ih =>
    apply List.flatMap_congr
    intro entry _
    cases entry with
    | injection name offset =>
      rw [TableEntry.contribution, TablePartial.find?_declared]
      dsimp only
      split
      · rename_i p hp
        rw [hp, Option.map_some, Option.map_some, Option.getD_some, hl, ih name p hp]
      · rename_i hn
        rw [hn]
        rfl
    | column c => rfl
    | index i => rfl
    | note text => rfl
    | problem finding => rfl

/-- The settings of the declared partials that a block injects are merged in as they should. -/
theorem mergeAll_injected (available : List Block) (block : Block) :
  policy.mergeAll block.settings
      (TableEntry.injected (TablePartial.declared policy available) block.entries)
    = block.mergedSettings policy available
  := by
  fun_induction mergedSettings policy available block with
  | case1 available block ih =>
    rw [MergePolicy.mergeAll, TableEntry.injected, List.foldl_filterMap]
    apply List.foldl_ext
    intro settings entry _
    cases entry with
    | injection name offset =>
      rw [TableEntry.injected?, TablePartial.find?_declared]
      dsimp only
      split
      · rename_i q hq
        obtain ⟨p, hp, rfl⟩ := Option.map_eq_some_iff.mp hq
        split
        · rename_i p' hp'
          cases hp.symm.trans hp'
          rw [← ih name p hp]
          rfl
        · rename_i hn
          cases hp.symm.trans hn
      · rename_i hq
        rw [Option.map_eq_none_iff] at hq
        split
        · rename_i p hp
          cases hq.symm.trans hp
        · rfl
    | column c => rfl
    | index i => rfl
    | note text => rfl
    | problem finding => rfl

/-- The partials that a body injects have the names that it lists and that are declared. -/
theorem map_name_injected (available : List Block) (block : Block) :
  (TableEntry.injected (TablePartial.declared policy available) block.entries).map
      TablePartial.name
    = block.injectedNames available
  := by
  rw [TableEntry.injected, List.map_filterMap, injectedNames, List.filter_filterMap]
  apply List.filterMap_congr
  intro entry _
  cases entry with
  | injection name offset =>
    rw [TableEntry.injected?, TablePartial.find?_declared, TableEntry.injectedPartial?,
      Option.filter_some]
    cases h : named? available name with
    | none =>
      rw [if_neg]
      · rfl
      · rw [decide_eq_true_iff]
        rintro ⟨p, hp, hn⟩
        exact named?_eq_none_iff.mp h p hp hn
    | some p =>
      obtain ⟨hp, hn⟩ := mem_of_named? h
      rw [if_pos (decide_eq_true ⟨p, hp, hn⟩)]
      exact congrArg some hn
  | column c => rfl
  | index i => rfl
  | note text => rfl
  | problem finding => rfl

end Block

/-! ## Tables and partials -/

/-- Whether a partial is what a block comes to where the given blocks are available. -/
structure TablePartial.IsFlattened (policy : MergePolicy) (available : List Block) (block : Block)
    (p : TablePartial) : Prop where
  name : p.name = block.nameText
  columns : p.columns = block.flatten TableEntry.ownColumns available
  indexes : p.indexes = block.flatten TableEntry.ownIndexes available
  settings : p.settings = block.mergedSettings policy available

/-- Whether a table is what a block comes to where the given blocks are available. -/
structure Table.IsFlattened (policy : MergePolicy) (available : List Block) (block : Block)
    (table : Table) : Prop where
  name : table.name = block.nameText
  columns : table.columns = block.flatten TableEntry.ownColumns available
  indexes : table.indexes = block.flatten TableEntry.ownIndexes available
  settings : table.settings = block.mergedSettings policy available
  injectedPartials : table.injectedPartials = block.injectedNames available

section

variable (policy : MergePolicy) (available : List Block) (block : Block)

/-- The columns read from a body are those that its block flattens to. -/
theorem TableEntry.columns_declared :
  columns (TablePartial.declared policy available) block.entries
    = block.flatten ownColumns available
  := by
  rw [columns, columnsOf_eq]
  apply Block.flatMap_contribution
  intro partials b
  rw [← columnsOf_eq]
  rfl

/-- The indexes read from a body are those that its block flattens to. -/
theorem TableEntry.indexes_declared :
  indexes (TablePartial.declared policy available) block.entries
    = block.flatten ownIndexes available
  := by
  rw [indexes, indexesOf_eq]
  apply Block.flatMap_contribution
  intro partials b
  rw [← indexesOf_eq]
  rfl

/-- A partial is declared with everything that it injects in place. -/
theorem TablePartial.isFlattened_ofBlock :
  IsFlattened policy available block (ofBlock policy (declared policy available) block)
  := by
  constructor
  · rfl
  · apply TableEntry.columns_declared
  · apply TableEntry.indexes_declared
  · apply Block.mergeAll_injected

/-- A table is declared with everything that it injects in place. -/
theorem Table.isFlattened_ofBlock :
  IsFlattened policy available block
    (ofBlock policy (TablePartial.declared policy available) block)
  := by
  constructor
  · rfl
  · apply TableEntry.columns_declared
  · apply TableEntry.indexes_declared
  · apply Block.mergeAll_injected
  · apply Block.map_name_injected

end

end DatabaseMarkup
