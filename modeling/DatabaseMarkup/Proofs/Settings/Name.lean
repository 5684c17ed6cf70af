import DatabaseMarkup.Proofs.Block.Segment
import DatabaseMarkup.Proofs.Settings.Merge
import DatabaseMarkup.Proofs.Table.Injection
import DatabaseMarkup.Proofs.Text.Normalize

/-!
# Names of attributes

An attribute is named if its name is a normal form and not empty.  The readers of bracket groups
yield named attributes only (`Settings.isNamed_readGroups`), so the settings in the header of every
block are named, and they stay so when the settings of partials are merged in.
-/

namespace DatabaseMarkup

open Unicode

namespace Text

/-- A normalized name is normal. -/
theorem normalName_normalName (t : Text) :
  normalName (normalName t).toList = normalName t
  := by
  rw [normalName, normalName, String.toList_ofList, normalize_normalize]

/-- The name of a text is empty only if the text is blank. -/
theorem normalName_eq_empty_iff {t : Text} :
  normalName t = "" ↔ allBlank t
  := by
  rw [← normalize_eq_nil_iff, normalName, String.ofList_eq_empty_iff]

end Text

open Text

/-- Whether the name of an attribute is a normal form, as a look-up expects it. -/
def Attribute.IsNormal (a : Attribute) : Prop :=
  normalName a.name.toList = a.name

/-- Whether an attribute has a name, which is a normal form. -/
def Attribute.IsNamed (a : Attribute) : Prop :=
  a.IsNormal ∧ a.name ≠ ""

/-- The slot of an attribute determines its name. -/
theorem Attribute.name_eq_of_slot {a b : Attribute} (h : a.slot = b.slot) :
  a.name = b.name
  := by
  cases a <;> cases b <;> cases h <;> rfl

/-- An attribute that fills the slot of a named one is named. -/
theorem Attribute.IsNamed.of_slot {a b : Attribute} (hb : b.IsNamed) (h : b.slot = a.slot) :
  a.IsNamed
  := by
  have hn := name_eq_of_slot h
  rw [IsNamed, IsNormal] at hb ⊢
  rwa [hn] at hb

theorem Attribute.isNamed_flag {t : Text} (ht : allBlank t = false) :
  (Attribute.flag (normalName t)).IsNamed
  := ⟨normalName_normalName t, mt normalName_eq_empty_iff.mp (ne_true_of_eq_false ht)⟩

theorem Attribute.isNamed_pair {t : Text} (ht : allBlank t = false) (value : Value) :
  (Attribute.pair (normalName t) value).IsNamed
  := ⟨normalName_normalName t, mt normalName_eq_empty_iff.mp (ne_true_of_eq_false ht)⟩

namespace Settings

/-- Whether all attributes have names. -/
def IsNamed (settings : Settings) : Prop :=
  ∀ a ∈ settings, a.IsNamed

theorem isNamed_nil :
  IsNamed []
  := List.forall_mem_nil _

theorem IsNamed.append {settings more : Settings} (hs : settings.IsNamed) (hm : more.IsNamed) :
  IsNamed (settings ++ more)
  := List.forall_mem_append.mpr ⟨hs, hm⟩

/-! ## Bracket groups -/

/-- An item is no blank, and neither is its key. -/
theorem isNamed_of_readItem? {item : Text} {a : Attribute} (h : readItem? item = some a) :
  a.IsNamed
  := by
  rw [readItem?] at h
  split at h
  · cases h
  · rename_i hn
    have hitem : allBlank (trim item) = false :=
      not_allBlank (trimmed_trim item) (mt List.isEmpty_iff.mpr hn)
    split at h
    · rename_i before after _
      split at h
      · rename_i hk
        have hbefore : allBlank (trim before) = false := by
          rw [isKey, Bool.and_eq_true, Bool.not_eq_true', List.isEmpty_eq_false_iff] at hk
          exact not_allBlank (trimmed_trim before) hk.1
        have hname : normalName before = normalName (trim before) := by
          rw [normalName, normalName, normalize_trim]
        cases h
        rw [hname]
        exact Attribute.isNamed_pair hbefore _
      · cases h
        exact Attribute.isNamed_flag hitem
    · cases h
      exact Attribute.isNamed_flag hitem

/-- Every setting in a group has a name. -/
theorem isNamed_readList (t : Text) :
  (readList t).IsNamed
  := by
  intro a h
  obtain ⟨item, _, ha⟩ := List.mem_filterMap.mp h
  exact isNamed_of_readItem? ha

/-- Whether they are closed or not, bracket groups hold named attributes. -/
theorem isNamed_readGroups (t : Text) :
  (readGroups t).1.IsNamed
  := by
  fun_induction readGroups t with
  | case1 t _ inner _ _ _ _ hr ih =>
    rw [hr] at ih
    exact (isNamed_readList inner).append ih
  | case2 => apply isNamed_readList
  | case3 => exact isNamed_nil

end Settings

open Settings

/-! ## Headers -/

/-- Every setting in the groups behind a header has a name. -/
theorem Segment.BracketGroups.isNamed {pairs : DelimiterPairs} {start : Nat} {groups : Text}
    {settings : Settings} (h : BracketGroups pairs start groups settings) :
  settings.IsNamed
  := by
  induction h with
  | blanks => exact isNamed_nil
  | @group start blanks inner more settings _ _ _ ih => exact (isNamed_readList inner).append ih

/-- The settings of every block of a text are named. -/
theorem Block.isNamed_settings {t : Text} {block : Block}
    (h : block ∈ (Segment.ofText t).filterMap Segment.block?) :
  block.settings.IsNamed
  := by
  obtain ⟨_, _, _, _, hh⟩ := exists_holds_of_mem_blocks h
  cases hh with
  | shortReference => exact isNamed_nil
  | braces ho =>
    obtain ⟨names, groups, _, _, _, hg⟩ := ho
    exact hg.isNamed

/-! ## Merged settings -/

/-- Merging keeps settings named. -/
theorem MergePolicy.isNamed_merge (policy : MergePolicy) {settings injected : Settings}
    (hs : settings.IsNamed) (hi : injected.IsNamed) :
  (policy.merge settings injected).IsNamed
  := by
  intro a h
  have hslot := hasSlot_iff.mpr ⟨a, h, rfl⟩
  rw [hasSlot_merge, Bool.or_eq_true] at hslot
  rcases hslot with hslot | hslot
  · obtain ⟨b, hb, hba⟩ := hasSlot_iff.mp hslot
    exact (hs b hb).of_slot hba
  · obtain ⟨b, hb, hba⟩ := hasSlot_iff.mp hslot
    exact (hi b hb).of_slot hba

/-- The settings of a block are named with all that is merged into them. -/
theorem Block.isNamed_mergedSettings (policy : MergePolicy) {available : List Block}
    {block : Block} (ha : ∀ b ∈ available, b.settings.IsNamed) (hb : block.settings.IsNamed) :
  (block.mergedSettings policy available).IsNamed
  := by
  fun_induction mergedSettings policy available block with
  | case1 available block ih =>
    refine List.foldlRecOn _ _ hb ?_
    intro settings hs entry _
    cases entry with
    | injection name offset =>
      dsimp only
      split
      · rename_i p hp
        apply policy.isNamed_merge hs
        apply ih name p hp _ (ha p (mem_of_named? hp).1)
        intro b hb
        exact ha b (List.takeWhile_subset _ hb)
      · exact hs
    | _ => exact hs

end DatabaseMarkup
