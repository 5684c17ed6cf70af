import DatabaseMarkup.Settings.Basic
import Mathlib.Tactic.Common

/-!
# Looking up settings

`Settings.get?`, `Settings.hasFlag` and `Settings.hasSlot` on settings that follow each other, and
after an attribute is added by `Settings.insertMissing` or `Settings.insertReplacing`.  A key has a
value exactly when its slot is taken.
-/

namespace DatabaseMarkup

namespace Attribute

/-- An attribute gives no value to a key unless it fills the slot of that key. -/
theorem valueOf?_eq_none_iff {a : Attribute} {key : String} :
  a.valueOf? key = none ↔ a.slot ≠ .pair key
  := by
  cases a with
  | flag name => simp [valueOf?, slot]
  | pair k value => simp [valueOf?, slot]

end Attribute

namespace Settings

/-! ## Values of keys -/

/-- The value of a key is the one written last. -/
theorem get?_append (settings more : Settings) (key : String) :
  get? (settings ++ more) key = (more.get? key).or (settings.get? key)
  := by
  rw [get?, List.reverse_append, List.findSome?_append]
  rfl

theorem get?_singleton (a : Attribute) (key : String) :
  get? [a] key = a.valueOf? key
  := by
  rw [get?, List.reverse_singleton, List.findSome?_singleton]

/-- A later value of a key hides an earlier one. -/
theorem get?_cons (a : Attribute) (settings : Settings) (key : String) :
  get? (a :: settings) key = (get? settings key).or (a.valueOf? key)
  := by
  rw [← List.singleton_append, get?_append, get?_singleton]

theorem get?_pair (key : String) (value : Value) (key' : String) :
  get? [.pair key value] key' = if key = key' then some value else none
  := by
  rw [get?_singleton, Attribute.valueOf?]

/-- A text among later settings hides one among earlier settings. -/
theorem getText?_append (settings more : Settings) (key : String) :
  getText? (settings ++ more) key = (more.getText? key).or (settings.getText? key)
  := by
  rw [getText?, get?_append, Option.map_or]
  rfl

/-- A key has no value exactly when its slot is not filled. -/
theorem get?_eq_none_iff {settings : Settings} {key : String} :
  settings.get? key = none ↔ settings.hasSlot (.pair key) = false
  := by
  simp [get?, hasSlot, Attribute.valueOf?_eq_none_iff]

/-- Attributes of other slots do not matter for the value of a key. -/
theorem get?_filter {settings : Settings} {key : String} {p : Attribute → Bool}
    (hp : ∀ a : Attribute, a.slot = .pair key → p a) :
  get? (settings.filter p) key = settings.get? key
  := by
  induction settings with
  | nil => rfl
  | cons a settings ih =>
    rw [List.filter_cons, get?_cons]
    split
    · rw [get?_cons, ih]
    · rename_i ha
      have hn : a.valueOf? key = none := by
        apply Attribute.valueOf?_eq_none_iff.mpr
        intro hs
        exact ha (hp a hs)
      rw [ih, hn, Option.or_none]

/-! ## Slots -/

/-- A slot is filled exactly when some attribute fills it. -/
theorem hasSlot_iff {settings : Settings} {slot : Slot} :
  settings.hasSlot slot ↔ ∃ a ∈ settings, a.slot = slot
  := by
  simp [hasSlot]

theorem hasSlot_append (settings more : Settings) (slot : Slot) :
  hasSlot (settings ++ more) slot = (settings.hasSlot slot || more.hasSlot slot)
  := List.any_append

/-- A flag is what takes the slot of the flag. -/
theorem hasFlag_eq_hasSlot (settings : Settings) (name : String) :
  settings.hasFlag name = settings.hasSlot (.flag name)
  := by
  rw [hasFlag, hasSlot]
  congr 1
  funext a
  cases a with
  | flag name' => simp [Attribute.slot]
  | pair key value => simp [Attribute.slot]

/-! ## Adding an attribute -/

/-- An attribute inserted where it is missing gives its value only to a key that had none. -/
theorem get?_insertMissing (settings : Settings) (a : Attribute) (key : String) :
  (settings.insertMissing a).get? key = (settings.get? key).or (a.valueOf? key)
  := by
  rw [insertMissing]
  by_cases ha : a.slot = .pair key
  · rw [ha]
    cases hs : settings.hasSlot (.pair key) with
    | true =>
      have hsome : settings.get? key ≠ none := by
        rw [Ne, get?_eq_none_iff, hs]
        simp
      obtain ⟨value, hv⟩ := Option.ne_none_iff_exists'.mp hsome
      rw [if_pos rfl, hv, Option.some_or]
    | false =>
      rw [if_neg Bool.false_ne_true, get?_append, get?_singleton, get?_eq_none_iff.mpr hs,
        Option.or_none, Option.none_or]
  · rw [Attribute.valueOf?_eq_none_iff.mpr ha, Option.or_none]
    split
    · rfl
    · rw [get?_append, get?_singleton, Attribute.valueOf?_eq_none_iff.mpr ha, Option.none_or]

/-- An attribute inserted as a replacement gives its value to its key whatever value that had. -/
theorem get?_insertReplacing (settings : Settings) (a : Attribute) (key : String) :
  (settings.insertReplacing a).get? key = (a.valueOf? key).or (settings.get? key)
  := by
  rw [insertReplacing, get?_append, get?_singleton]
  cases ha : a.valueOf? key with
  | some value => rfl
  | none =>
    rw [Option.none_or, Option.none_or]
    apply get?_filter
    intro b hb
    rw [hb]
    apply decide_eq_true
    exact (Attribute.valueOf?_eq_none_iff.mp ha).symm

/-- Inserting an attribute where it is missing fills its slot and no other. -/
theorem hasSlot_insertMissing (settings : Settings) (a : Attribute) (slot : Slot) :
  (settings.insertMissing a).hasSlot slot = (settings.hasSlot slot || hasSlot [a] slot)
  := by
  rw [insertMissing]
  split
  · rename_i h
    cases ha : hasSlot [a] slot with
    | false => rw [Bool.or_false]
    | true =>
      have hs : a.slot = slot := by simpa [hasSlot] using ha
      rw [← hs, h]
      rfl
  · rw [hasSlot_append]

/-- Inserting an attribute as a replacement fills its slot and no other. -/
theorem hasSlot_insertReplacing (settings : Settings) (a : Attribute) (slot : Slot) :
  (settings.insertReplacing a).hasSlot slot = (settings.hasSlot slot || hasSlot [a] slot)
  := by
  rw [insertReplacing, hasSlot_append]
  cases ha : hasSlot [a] slot with
  | true => rw [Bool.or_true, Bool.or_true]
  | false =>
    have hs : a.slot ≠ slot := by simpa [hasSlot] using ha
    rw [Bool.or_false, Bool.or_false, Bool.eq_iff_iff, hasSlot_iff, hasSlot_iff]
    constructor
    · rintro ⟨b, hb, rfl⟩
      exact ⟨b, (List.mem_filter.mp hb).1, rfl⟩
    · rintro ⟨b, hb, rfl⟩
      exact ⟨b, List.mem_filter.mpr ⟨hb, decide_eq_true hs.symm⟩, rfl⟩

/-- Inserting where it is missing changes nothing that stood before. -/
theorem prefix_insertMissing (settings : Settings) (a : Attribute) :
  settings <+: settings.insertMissing a
  := by
  rw [insertMissing]
  split
  · apply List.prefix_rfl
  · apply List.prefix_append

/-- An attribute that replaces those of its slot is the only one of the slot. -/
theorem countP_insertReplacing (settings : Settings) (a : Attribute) (slot : Slot) :
  (settings.insertReplacing a).countP (fun b => b.slot = slot)
    = if a.slot = slot then 1 else settings.countP fun b => b.slot = slot
  := by
  rw [insertReplacing, List.countP_append, List.countP_filter]
  split
  · rename_i h
    have hnone :
        settings.countP (fun b => decide (b.slot = slot) && decide (b.slot ≠ a.slot)) = 0 := by
      apply List.countP_eq_zero.mpr
      intro b _
      simp [h]
    rw [hnone, List.countP_singleton, if_pos (decide_eq_true h)]
  · rename_i h
    rw [List.countP_singleton, if_neg (by simpa using h), Nat.add_zero]
    apply List.countP_congr
    intro b _
    simp only [Bool.and_eq_true, decide_eq_true_eq]
    constructor
    · exact And.left
    · rintro rfl
      exact ⟨rfl, Ne.symm h⟩

/-- Attributes of other slots stay where they are. -/
theorem filter_insertReplacing {settings : Settings} {a : Attribute} {p : Attribute → Bool}
    (hp : ∀ b, p b → b.slot ≠ a.slot) :
  (settings.insertReplacing a).filter p = settings.filter p
  := by
  have ha : [a].filter p = [] := by
    apply List.filter_eq_nil_iff.mpr
    intro b hb h
    rw [List.mem_singleton.mp hb] at h
    exact hp a h rfl
  rw [insertReplacing, List.filter_append, List.filter_filter, ha, List.append_nil]
  apply List.filter_congr
  intro b _
  cases hb : p b with
  | false => rfl
  | true => rw [Bool.true_and, decide_eq_true (hp b hb)]

end Settings

end DatabaseMarkup
