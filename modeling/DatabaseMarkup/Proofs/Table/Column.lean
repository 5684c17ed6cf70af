import DatabaseMarkup.Proofs.Settings.Basic
import DatabaseMarkup.Table.Column

/-!
# What settings mean for a column

`Column.ofSettings` keeps the name, the type and the settings of a column as they are given.  The
default and the note are the values that `Settings.get?` finds for their keys, and the reference
is the last one among the settings.  `Column.showsSettings_ofSettings` adds what the flags mean: a
primary key is never null, and of the flags `null` and `not null` the last one counts.
-/

namespace DatabaseMarkup

/-- The reference that an attribute holds, if it can be read. -/
def Attribute.inlineRef? (a : Attribute) : Option InlineRef :=
  (a.valueOf? "ref").bind fun value => InlineRef.read? value.content.toList

namespace Settings

/-- The last reference that can be read. -/
def inlineRef? (settings : Settings) : Option InlineRef :=
  settings.reverse.findSome? Attribute.inlineRef?

/-- The last reference among the settings decides. -/
theorem inlineRef?_append (settings more : Settings) :
  inlineRef? (settings ++ more) = more.inlineRef?.or settings.inlineRef?
  := by
  rw [inlineRef?, List.reverse_append, List.findSome?_append]
  rfl

/-- The last of the flags `null` and `not null`. -/
def lastNullFlag? (settings : Settings) : Option Attribute :=
  (settings.filter fun a => a = .flag "null" || a = .flag "not null").getLast?

theorem lastNullFlag?_append (settings more : Settings) :
  lastNullFlag? (settings ++ more) = more.lastNullFlag?.or settings.lastNullFlag?
  := by
  rw [lastNullFlag?, List.filter_append, List.getLast?_append]
  rfl

theorem hasFlag_append (settings more : Settings) (name : String) :
  hasFlag (settings ++ more) name = (settings.hasFlag name || more.hasFlag name)
  := List.any_append

/-- A column is a primary key if any of its settings say so. -/
theorem isPrimaryKey_append (settings more : Settings) :
  isPrimaryKey (settings ++ more) = (settings.isPrimaryKey || more.isPrimaryKey)
  := by
  simp only [isPrimaryKey, hasFlag_append]
  ac_rfl

end Settings

namespace Column

/-! ## Single attributes -/

/-- A flag changes what it is about and nothing else. -/
theorem withFlag_eq (column : Column) (flag : String) :
  column.withFlag flag = { column with
    isPrimaryKey := column.isPrimaryKey || flag = "pk" || flag = "primary key"
    isNullable := if flag = "null" then true else if flag = "not null" then false
      else column.isNullable
    isNotNull := if flag = "not null" then true else if flag = "null" then false
      else column.isNotNull
    isUnique := column.isUnique || flag = "unique"
    isIncrement := column.isIncrement || flag = "increment" }
  := by
  rw [withFlag]
  split
  · rename_i h
    rcases (Bool.or_eq_true _ _).mp h with h | h
    · obtain rfl := of_decide_eq_true h
      simp
    · obtain rfl := of_decide_eq_true h
      simp
  rename_i hk
  simp only [Bool.or_eq_true, decide_eq_true_eq, not_or] at hk
  simp only [hk, decide_false, Bool.or_false]
  split
  · rename_i h
    subst h
    simp
  split
  · rename_i h
    subst h
    simp
  split
  · rename_i h
    subst h
    simp
  split
  · rename_i h
    subst h
    simp
  · rename_i hu hi
    simp [hu, hi]

/-- A pair changes what it is about and nothing else. -/
theorem withPair_eq (column : Column) (key : String) (value : Value) :
  column.withPair key value = { column with
    default := if key = "default" then some value else column.default
    note := if key = "note" then some value.content else column.note
    inlineRef := if key = "ref" then (InlineRef.read? value.content.toList).or column.inlineRef
      else column.inlineRef }
  := by
  rw [withPair]
  split
  · rename_i h
    subst h
    rfl
  split
  · rename_i h
    subst h
    rfl
  split
  · rename_i h
    subst h
    split
    · rename_i target ht
      rw [ht]
      rfl
    · rename_i ht
      rw [ht]
      rfl
  · rfl

/-! ## Defaults, notes and references -/

/-- Whether settings make another column of a column.  What they do not say of the default, the
note or the reference is left as it was. -/
structure Becomes (column : Column) (given : Settings) (column' : Column) : Prop where
  name : column'.name = column.name
  dataType : column'.dataType = column.dataType
  settings : column'.settings = column.settings
  default : column'.default = (given.get? "default").or column.default
  note : column'.note = (given.getText? "note").or column.note
  inlineRef : column'.inlineRef = given.inlineRef?.or column.inlineRef

/-- What settings make of a column is made by them one after the other. -/
theorem Becomes.trans {c c' c'' : Column} {settings more : Settings} (h : Becomes c settings c')
    (h' : Becomes c' more c'') :
  Becomes c (settings ++ more) c''
  := by
  constructor
  · rw [h'.name, h.name]
  · rw [h'.dataType, h.dataType]
  · rw [h'.settings, h.settings]
  · rw [h'.default, h.default, Settings.get?_append, Option.or_assoc]
  · rw [h'.note, h.note, Settings.getText?_append, Option.or_assoc]
  · rw [h'.inlineRef, h.inlineRef, Settings.inlineRef?_append, Option.or_assoc]

/-- A flag changes a column as the definition of its fields says. -/
theorem becomes_flag (column : Column) (flag : String) :
  Becomes column [.flag flag] (column.withFlag flag)
  := by
  rw [withFlag_eq]
  exact ⟨rfl, rfl, rfl, rfl, rfl, rfl⟩

/-- A key with a value changes a column as the definition of its fields says. -/
theorem becomes_pair (column : Column) (key : String) (value : Value) :
  Becomes column [.pair key value] (column.withPair key value)
  := by
  have hget := Settings.get?_pair key value
  have href : Settings.inlineRef? [.pair key value]
      = if key = "ref" then InlineRef.read? value.content.toList else none := by
    rw [Settings.inlineRef?, List.reverse_singleton, List.findSome?_singleton,
      Attribute.inlineRef?, Attribute.valueOf?]
    split
    · rfl
    · rfl
  rw [withPair_eq]
  refine ⟨rfl, rfl, rfl, ?_, ?_, ?_⟩
  · rw [hget]
    dsimp only
    split
    · rfl
    · rfl
  · rw [Settings.getText?, hget]
    dsimp only
    split
    · rfl
    · rfl
  · rw [href]
    dsimp only
    split
    · rfl
    · rfl

/-- The settings of a column are taken in one after another. -/
theorem becomes_settings (column : Column) (settings : Settings) :
  Becomes column settings (settings.foldl withAttribute column)
  := by
  induction settings generalizing column with
  | nil => exact ⟨rfl, rfl, rfl, rfl, rfl, rfl⟩
  | cons a settings ih =>
    have ha : Becomes column [a] (column.withAttribute a) := by
      cases a with
      | flag name => apply becomes_flag
      | pair key value => apply becomes_pair
    rw [List.foldl_cons]
    apply ha.trans (ih _)

/-- A column is as it is given, and its default, note and reference are those of its settings. -/
theorem becomes_ofSettings (name dataType : String) (settings : Settings) :
  Becomes { name, dataType, settings } settings (ofSettings name dataType settings)
  := by
  have h := becomes_settings { name, dataType, settings } settings
  rw [ofSettings]
  split
  · exact ⟨h.name, h.dataType, h.settings, h.default, h.note, h.inlineRef⟩
  · exact h

/-! ## Flags -/

/-- Whether the flags of a column are those among the settings that were taken in so far. -/
structure Flagged (given : Settings) (column : Column) : Prop where
  isPrimaryKey : column.isPrimaryKey = given.isPrimaryKey
  isNullable : column.isNullable = decide (given.lastNullFlag? = some (.flag "null"))
  isNotNull : column.isNotNull = decide (given.lastNullFlag? = some (.flag "not null"))
  isUnique : column.isUnique = given.hasFlag "unique"
  isIncrement : column.isIncrement = given.hasFlag "increment"

section

variable {given : Settings} {column : Column}

theorem Flagged.withPair (h : Flagged given column) (key : String) (value : Value) :
  Flagged (given ++ [.pair key value]) (column.withPair key value)
  := by
  rw [withPair_eq]
  constructor
  · rw [Settings.isPrimaryKey_append, h.isPrimaryKey]
    exact (Bool.or_false _).symm
  · rw [Settings.lastNullFlag?_append]
    exact h.isNullable
  · rw [Settings.lastNullFlag?_append]
    exact h.isNotNull
  · rw [Settings.hasFlag_append, h.isUnique]
    exact (Bool.or_false _).symm
  · rw [Settings.hasFlag_append, h.isIncrement]
    exact (Bool.or_false _).symm

theorem Flagged.withFlag (h : Flagged given column) (flag : String) :
  Flagged (given ++ [.flag flag]) (column.withFlag flag)
  := by
  have hlast : Settings.lastNullFlag? [.flag flag]
      = if flag = "null" ∨ flag = "not null" then some (.flag flag) else none := by
    rw [Settings.lastNullFlag?, List.filter_cons]
    simp only [Attribute.flag.injEq, Bool.or_eq_true, decide_eq_true_eq]
    split <;> rfl
  have hhas (name : String) : Settings.hasFlag [.flag flag] name = decide (flag = name) := by
    simp [Settings.hasFlag]
  rw [withFlag_eq]
  constructor
  · rw [Settings.isPrimaryKey_append, ← h.isPrimaryKey, Settings.isPrimaryKey, hhas, hhas,
      Bool.or_assoc]
  · rw [Settings.lastNullFlag?_append, hlast, h.isNullable]
    by_cases hn : flag = "null"
    · subst hn
      rfl
    · by_cases hnn : flag = "not null"
      · subst hnn
        rfl
      · simp [hn, hnn]
  · rw [Settings.lastNullFlag?_append, hlast, h.isNotNull]
    by_cases hn : flag = "null"
    · subst hn
      rfl
    · by_cases hnn : flag = "not null"
      · subst hnn
        rfl
      · simp [hn, hnn]
  · rw [Settings.hasFlag_append, ← h.isUnique, hhas]
  · rw [Settings.hasFlag_append, ← h.isIncrement, hhas]

/-- The settings are taken in one after another. -/
theorem Flagged.foldl_withAttribute (h : Flagged given column) (settings : Settings) :
  Flagged (given ++ settings) (settings.foldl withAttribute column)
  := by
  induction settings generalizing given column with
  | nil =>
    rw [List.append_nil]
    exact h
  | cons a settings ih =>
    rw [List.foldl_cons, ← List.singleton_append, ← List.append_assoc]
    apply ih
    cases a with
    | flag name => apply h.withFlag
    | pair key value => apply h.withPair

end

/-- Whether the fields of a column say what its settings say.  A primary key is not null whatever
the flags `null` and `not null`, and of these the last one counts for any other column. -/
structure ShowsSettings (column : Column) : Prop where
  not_both : ¬(column.isNullable ∧ column.isNotNull)
  isPrimaryKey : column.isPrimaryKey
    ↔ column.settings.hasFlag "pk" ∨ column.settings.hasFlag "primary key"
  of_isPrimaryKey : column.isPrimaryKey → column.isNotNull ∧ column.isNullable = false
  isNullable : column.isPrimaryKey = false →
    (column.isNullable ↔ column.settings.lastNullFlag? = some (.flag "null"))
  isNotNull : column.isPrimaryKey = false →
    (column.isNotNull ↔ column.settings.lastNullFlag? = some (.flag "not null"))
  isUnique : column.isUnique ↔ column.settings.hasFlag "unique"
  isIncrement : column.isIncrement ↔ column.settings.hasFlag "increment"
  default : column.default = column.settings.get? "default"
  note : column.note = (column.settings.get? "note").map Value.content
  inlineRef : column.inlineRef = column.settings.inlineRef?

/-- Only the flags about null are changed after the settings are taken in, and only for a primary
key. -/
theorem flags_ofSettings (name dataType : String) (settings : Settings) :
  (ofSettings name dataType settings).isPrimaryKey = settings.isPrimaryKey
    ∧ (ofSettings name dataType settings).isNullable
      = (!settings.isPrimaryKey && settings.lastNullFlag? = some (.flag "null"))
    ∧ (ofSettings name dataType settings).isNotNull
      = (settings.isPrimaryKey || settings.lastNullFlag? = some (.flag "not null"))
    ∧ (ofSettings name dataType settings).isUnique = settings.hasFlag "unique"
    ∧ (ofSettings name dataType settings).isIncrement = settings.hasFlag "increment"
  := by
  have h := @Flagged.foldl_withAttribute [] { name, dataType, settings }
    ⟨rfl, rfl, rfl, rfl, rfl⟩ settings
  rw [List.nil_append] at h
  rw [ofSettings, h.isPrimaryKey]
  split
  · rename_i hk
    rw [hk]
    exact ⟨rfl, rfl, rfl, h.isUnique, h.isIncrement⟩
  · rename_i hk
    rw [Bool.eq_false_iff.mpr hk]
    exact ⟨h.isPrimaryKey.trans (Bool.eq_false_iff.mpr hk), h.isNullable, h.isNotNull, h.isUnique,
      h.isIncrement⟩

/-- A column shows the settings that it is made from. -/
theorem showsSettings_ofSettings (name dataType : String) (settings : Settings) :
  (ofSettings name dataType settings).ShowsSettings
  := by
  obtain ⟨hkey, hnullable, hnotNull, hunique, hincrement⟩ := flags_ofSettings name dataType settings
  have h := becomes_ofSettings name dataType settings
  have hs : (ofSettings name dataType settings).settings = settings := h.settings
  constructor
  · rw [hnullable, hnotNull]
    rintro ⟨hn, hnn⟩
    rw [Bool.and_eq_true, Bool.not_eq_true'] at hn
    rw [hn.1, Bool.false_or, of_decide_eq_true hn.2] at hnn
    exact absurd hnn (by decide)
  · rw [hkey, hs]
    exact Bool.or_eq_true_iff
  · rw [hkey, hnullable, hnotNull]
    intro hk
    rw [hk]
    exact ⟨rfl, rfl⟩
  · rw [hkey, hnullable, hs]
    intro hk
    rw [hk, Bool.not_false, Bool.true_and, decide_eq_true_iff]
  · rw [hkey, hnotNull, hs]
    intro hk
    rw [hk, Bool.false_or, decide_eq_true_iff]
  · rw [hunique, hs]
  · rw [hincrement, hs]
  · rw [hs, h.default, Option.or_none]
  · rw [hs, h.note, Option.or_none, Settings.getText?]
  · rw [hs, h.inlineRef, Option.or_none]

end Column

end DatabaseMarkup
