import DatabaseMarkup.Document.Reader
import DatabaseMarkup.Proofs.Settings.Basic
import DatabaseMarkup.Proofs.Table.Injection

/-!
# Who wins when settings are merged

A declaration with settings of its own injects partials one after another.  Where the table wins,
a value of its own is kept, and otherwise the first partial that has the key gives its value;
`Settings.FillsGaps` says so.  Where the partial wins, the last one that has the key gives its
value, and of each injected slot a single attribute remains; `Settings.LastDecides` says so.

The table does not win in quite the way one would expect: of several values that one partial gives
for a key, the look-up in the partial finds the last, but the first one is injected.
-/

namespace DatabaseMarkup

namespace Settings

/-- The value of the first pair with the given key. -/
def first? (settings : Settings) (key : String) : Option Value :=
  settings.findSome? (Attribute.valueOf? key)

/-- Where a key has at most one value, it does not matter which one is looked for. -/
theorem first?_eq_get? {settings : Settings} {key : String}
    (h : settings.countP (fun a => a.slot = .pair key) ≤ 1) :
  settings.first? key = settings.get? key
  := by
  induction settings with
  | nil => rfl
  | cons a settings ih =>
    rw [first?, List.findSome?_cons, get?_cons]
    rw [List.countP_cons] at h
    cases ha : a.valueOf? key with
    | none =>
      rw [Option.or_none]
      apply ih
      omega
    | some value =>
      have hs : a.slot = .pair key := by
        apply Decidable.by_contra
        intro hs
        rw [Attribute.valueOf?_eq_none_iff.mpr hs] at ha
        cases ha
      rw [if_pos (decide_eq_true hs)] at h
      have hn : hasSlot settings (.pair key) = false := by
        apply Bool.eq_false_iff.mpr
        intro h'
        obtain ⟨b, hb, hs'⟩ := hasSlot_iff.mp h'
        have : 0 < settings.countP fun a => a.slot = .pair key :=
          List.countP_pos_iff.mpr ⟨b, hb, decide_eq_true hs'⟩
        omega
      rw [get?_eq_none_iff.mpr hn, Option.none_or]

/-- Where each of the settings sets a key at most once, the first value in each is the last one as
well. -/
theorem findSome?_first? {given : List Settings} {key : String}
    (h : ∀ s ∈ given, s.countP (fun a => a.slot = .pair key) ≤ 1) :
  (given.findSome? fun s => s.first? key) = given.findSome? fun s => s.get? key
  := by
  induction given with
  | nil => rfl
  | cons s given ih =>
    rw [List.findSome?_cons, List.findSome?_cons, first?_eq_get? (h s List.mem_cons_self),
      ih fun s hs => h s (List.mem_cons_of_mem _ hs)]

end Settings

namespace MergePolicy

variable (policy : MergePolicy) (settings injected : Settings)

/-! ## One partial -/

theorem merge_cons (a : Attribute) :
  policy.merge settings (a :: injected) = policy.merge (policy.insert settings a) injected
  := rfl

/-- Whoever wins, the slots of both sides are taken and no other ones. -/
theorem hasSlot_merge (slot : Slot) :
  (policy.merge settings injected).hasSlot slot
    = (settings.hasSlot slot || injected.hasSlot slot)
  := by
  induction injected generalizing settings with
  | nil => exact (Bool.or_false _).symm
  | cons a injected ih =>
    have ha : (policy.insert settings a).hasSlot slot
        = (settings.hasSlot slot || Settings.hasSlot [a] slot) := by
      cases policy with
      | tableWins => apply Settings.hasSlot_insertMissing
      | partialWins => apply Settings.hasSlot_insertReplacing
    rw [merge_cons, ih, ha, Bool.or_assoc, ← Settings.hasSlot_append, List.singleton_append]

/-- Where the table wins, a key that it lacks takes the first value that the partial gives. -/
theorem get?_merge_tableWins (key : String) :
  (tableWins.merge settings injected).get? key = (settings.get? key).or (injected.first? key)
  := by
  induction injected generalizing settings with
  | nil => exact (Option.or_none).symm
  | cons a injected ih =>
    have ha : (tableWins.insert settings a).get? key = (settings.get? key).or (a.valueOf? key) :=
      Settings.get?_insertMissing settings a key
    rw [merge_cons, ih, ha, Option.or_assoc, Settings.first?, Settings.first?, List.findSome?_cons]
    cases a.valueOf? key with
    | none => rw [Option.none_or]
    | some value => rw [Option.some_or]

/-- Merging under `tableWins` changes nothing that stood before. -/
theorem prefix_merge_tableWins :
  settings <+: tableWins.merge settings injected
  := by
  induction injected generalizing settings with
  | nil => apply List.prefix_rfl
  | cons a injected ih =>
    apply List.IsPrefix.trans (Settings.prefix_insertMissing settings a)
    apply ih

/-- Where the partial wins, a key takes the last value that the partial gives, if any. -/
theorem get?_merge_partialWins (key : String) :
  (partialWins.merge settings injected).get? key = (injected.get? key).or (settings.get? key)
  := by
  induction injected generalizing settings with
  | nil => rfl
  | cons a injected ih =>
    have ha : (partialWins.insert settings a).get? key = (a.valueOf? key).or (settings.get? key) :=
      Settings.get?_insertReplacing settings a key
    rw [merge_cons, ih, ha, Settings.get?_cons, Option.or_assoc]

/-- Where the partial wins, each slot that it sets is left with one attribute. -/
theorem countP_merge_partialWins (slot : Slot) :
  (partialWins.merge settings injected).countP (fun a => a.slot = slot)
    = if injected.hasSlot slot then 1 else settings.countP fun a => a.slot = slot
  := by
  induction injected generalizing settings with
  | nil => rfl
  | cons a injected ih =>
    have ha : (partialWins.insert settings a).countP (fun b => b.slot = slot)
        = if a.slot = slot then 1 else settings.countP fun b => b.slot = slot :=
      Settings.countP_insertReplacing settings a slot
    have hs : Settings.hasSlot (a :: injected) slot
        = (decide (a.slot = slot) || Settings.hasSlot injected slot) := rfl
    rw [merge_cons, ih, ha, hs]
    by_cases h : a.slot = slot
    · simp [h]
    · simp [h]

/-- Where the partial wins, attributes of slots that it does not set stay where they are. -/
theorem filter_merge_partialWins {p : Attribute → Bool}
    (hp : ∀ a, p a → injected.hasSlot a.slot = false) :
  (partialWins.merge settings injected).filter p = settings.filter p
  := by
  induction injected generalizing settings with
  | nil => rfl
  | cons a injected ih =>
    have hs {b : Attribute} (hb : p b) :
        a.slot ≠ b.slot ∧ Settings.hasSlot injected b.slot = false := by
      have h := hp b hb
      rwa [Settings.hasSlot, List.any_cons, Bool.or_eq_false_iff, decide_eq_false_iff_not] at h
    have ha : (partialWins.insert settings a).filter p = settings.filter p :=
      Settings.filter_insertReplacing fun b hb => (hs hb).1.symm
    rw [merge_cons, ih _ fun b hb => (hs hb).2, ha]

/-! ## Partials one after another -/

variable (partials : List TablePartial)

theorem mergeAll_cons (p : TablePartial) :
  policy.mergeAll settings (p :: partials)
    = policy.mergeAll (policy.merge settings p.settings) partials
  := rfl

/-- A slot is filled after merging exactly when it was filled in any of the settings. -/
theorem hasSlot_mergeAll (slot : Slot) :
  (policy.mergeAll settings partials).hasSlot slot
    = (settings :: partials.map TablePartial.settings).any fun s => s.hasSlot slot
  := by
  induction partials generalizing settings with
  | nil => exact (Bool.or_false _).symm
  | cons p partials ih =>
    rw [mergeAll_cons, ih, List.any_cons, hasSlot_merge, List.map_cons, List.any_cons,
      List.any_cons, Bool.or_assoc]

/-- A flag is set after merging exactly when it was set in any of the settings. -/
theorem hasFlag_mergeAll (name : String) :
  (policy.mergeAll settings partials).hasFlag name
    ↔ ∃ s ∈ settings :: partials.map TablePartial.settings, s.hasFlag name
  := by
  rw [Settings.hasFlag_eq_hasSlot, hasSlot_mergeAll, List.any_eq_true]
  simp only [Settings.hasFlag_eq_hasSlot]

/-- Under `tableWins` a key that the table lacks takes the first value that the partials give it.
-/
theorem get?_mergeAll_tableWins (key : String) :
  (tableWins.mergeAll settings partials).get? key
    = (settings.get? key).or
        ((partials.map TablePartial.settings).findSome? fun s => s.first? key)
  := by
  induction partials generalizing settings with
  | nil => exact (Option.or_none).symm
  | cons p partials ih =>
    rw [mergeAll_cons, ih, get?_merge_tableWins, Option.or_assoc, List.map_cons,
      List.findSome?_cons]
    cases p.settings.first? key with
    | none => rw [Option.none_or]
    | some value => rw [Option.some_or]

/-- Under `tableWins` the settings of the table stay in front. -/
theorem prefix_mergeAll_tableWins :
  settings <+: tableWins.mergeAll settings partials
  := by
  induction partials generalizing settings with
  | nil => apply List.prefix_rfl
  | cons p partials ih =>
    apply List.IsPrefix.trans (prefix_merge_tableWins settings p.settings)
    apply ih

/-- Under `partialWins` the last of all settings with a key decides over it. -/
theorem get?_mergeAll_partialWins (key : String) :
  (partialWins.mergeAll settings partials).get? key
    = (settings :: partials.map TablePartial.settings).reverse.findSome? fun s => s.get? key
  := by
  induction partials generalizing settings with
  | nil => exact (List.findSome?_singleton ..).symm
  | cons p partials ih =>
    rw [mergeAll_cons, ih, List.map_cons, List.reverse_cons, List.reverse_cons, List.reverse_cons,
      List.append_assoc, List.findSome?_append, List.findSome?_append, List.findSome?_append,
      List.findSome?_singleton, List.findSome?_singleton, List.findSome?_singleton,
      get?_merge_partialWins]

/-- Under `partialWins` a slot that a partial fills is filled once. -/
theorem countP_mergeAll_partialWins (slot : Slot) :
  (partialWins.mergeAll settings partials).countP (fun a => a.slot = slot)
    = if (partials.map TablePartial.settings).any (fun s => s.hasSlot slot) then 1
      else settings.countP fun a => a.slot = slot
  := by
  induction partials generalizing settings with
  | nil => rfl
  | cons p partials ih =>
    rw [mergeAll_cons, ih, countP_merge_partialWins, List.map_cons, List.any_cons]
    cases p.settings.hasSlot slot with
    | false => rfl
    | true => simp

/-- Under `partialWins` the attributes whose slots no partial fills stay as they are. -/
theorem filter_mergeAll_partialWins {p : Attribute → Bool}
    (hp : ∀ a, p a → ∀ s ∈ partials.map TablePartial.settings, s.hasSlot a.slot = false) :
  (partialWins.mergeAll settings partials).filter p = settings.filter p
  := by
  induction partials generalizing settings with
  | nil => rfl
  | cons q partials ih =>
    rw [mergeAll_cons, ih, filter_merge_partialWins]
    · intro a ha
      apply hp a ha
      apply List.mem_cons_self
    · intro a ha s hs
      apply hp a ha
      apply List.mem_cons_of_mem _ hs

end MergePolicy

/-! ## Settings of tables and partials -/

namespace Settings

/-- Whether the settings `result` are settings of a declaration in which the given ones, one after
another, fill the gaps. -/
structure FillsGaps (own : Settings) (given : List Settings) (result : Settings) : Prop where
  /-- The value of a key is the declaration's own or else the first one in the first of the given
  settings that have the key. -/
  get?_eq : ∀ key, result.get? key
    = (own.get? key).or (given.findSome? fun s => s.first? key)
  /-- A key that no given settings repeat has the value that it has in the first settings that
  have the key. -/
  get?_of_unrepeated : ∀ key, (∀ s ∈ given, s.countP (fun a => a.slot = .pair key) ≤ 1) →
    result.get? key = (own :: given).findSome? fun s => s.get? key
  hasFlag_iff : ∀ name, result.hasFlag name ↔ ∃ s ∈ own :: given, s.hasFlag name
  isPrefix : own <+: result

/-- Whether the settings `result` are settings of a declaration in which the given ones, one after
another, replace what they set. -/
structure LastDecides (own : Settings) (given : List Settings) (result : Settings) : Prop where
  /-- The value of a key is that in the last settings that have the key. -/
  get?_eq : ∀ key, result.get? key = (own :: given).reverse.findSome? fun s => s.get? key
  hasFlag_iff : ∀ name, result.hasFlag name ↔ ∃ s ∈ own :: given, s.hasFlag name
  /-- A slot that is given is taken by one attribute. -/
  countP_eq_one : ∀ slot, (∃ s ∈ given, s.hasSlot slot) →
    result.countP (fun a => a.slot = slot) = 1
  /-- The attributes of the slots that are not given are those of the declaration, in order. -/
  filter_eq : result.filter (fun a => given.all fun s => !s.hasSlot a.slot)
    = own.filter fun a => given.all fun s => !s.hasSlot a.slot

/-- Merging under `tableWins` fills the gaps of the own settings. -/
theorem fillsGaps_mergeAll (own : Settings) (partials : List TablePartial) :
  FillsGaps own (partials.map TablePartial.settings)
    (MergePolicy.tableWins.mergeAll own partials)
  := by
  constructor
  · apply MergePolicy.get?_mergeAll_tableWins
  · intro key h
    rw [MergePolicy.get?_mergeAll_tableWins, findSome?_first? h, List.findSome?_cons]
    cases own.get? key with
    | none => rw [Option.none_or]
    | some value => rw [Option.some_or]
  · apply MergePolicy.hasFlag_mergeAll
  · apply MergePolicy.prefix_mergeAll_tableWins

/-- Merging under `partialWins` lets the last partial decide. -/
theorem lastDecides_mergeAll (own : Settings) (partials : List TablePartial) :
  LastDecides own (partials.map TablePartial.settings)
    (MergePolicy.partialWins.mergeAll own partials)
  := by
  constructor
  · apply MergePolicy.get?_mergeAll_partialWins
  · apply MergePolicy.hasFlag_mergeAll
  · intro slot h
    rw [MergePolicy.countP_mergeAll_partialWins, if_pos (List.any_eq_true.mpr h)]
  · apply MergePolicy.filter_mergeAll_partialWins
    intro a ha s hs
    rw [List.all_eq_true] at ha
    simpa using ha s hs

end Settings

/-- Where the table wins, the settings of the partials that a table or a partial injects fill the
gaps in its own.  These partials are the ones that the injections in its body name. -/
theorem injected_settings_fill_gaps (partials : List TablePartial) (block : Block) :
  let injected := TableEntry.injected partials block.entries
  TableEntry.Injects partials block.entries injected
    ∧ Settings.FillsGaps block.settings (injected.map TablePartial.settings)
      (Table.ofBlock .tableWins partials block).settings
    ∧ Settings.FillsGaps block.settings (injected.map TablePartial.settings)
      (TablePartial.ofBlock .tableWins partials block).settings
  := by
  refine ⟨?_, ?_, ?_⟩
  · apply TableEntry.injects_injected
  · apply Settings.fillsGaps_mergeAll
  · apply Settings.fillsGaps_mergeAll

/-- A table without settings injects a partial that gives a key two values.  The partial has the
last of them and the table the first. -/
theorem repeated_key_injects_first_value :
  let document := (Report.ofSource .tableWins
    "TablePartial p [note: a] [note: b] \x7b\n\x7d\nTable t \x7b\n  ~p\n\x7d\n").document
  document.tablePartials.map (fun p => p.settings.get? "note") = [some (.bare "b")]
    ∧ document.tables.map (fun t => t.injectedPartials) = [["p"]]
    ∧ document.tables.map (fun t => t.settings.get? "note") = [some (.bare "a")]
  := by
  decide +kernel

end DatabaseMarkup
