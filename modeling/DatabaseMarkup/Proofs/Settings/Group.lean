import DatabaseMarkup.Proofs.Checked.Settings
import DatabaseMarkup.Proofs.Settings.Print

/-!
# Written bracket groups

Settings may be written in many ways: as one bracket group or as several, with blanks around every
item and around the colons.  A `WrittenItem` is an attribute with the blanks that it is written
with, and a `WrittenGroup` a bracket group of such items with the blanks before it.
`written_groups_are_read_back` states that all of them are read back from whatever stands before
some text that does not go on with a group.
-/

namespace DatabaseMarkup

open Unicode Text

/-! ## Items -/

/-- An attribute together with the blanks that it is written with.  The blanks around the colon are
those of a pair. -/
structure WrittenItem where
  content : Attribute
  before : Text
  beforeColon : Text
  afterColon : Text
  after : Text
  isPrintable : content.IsPrintable
  isBlank_before : ∀ c ∈ before, isBlank c
  isBlank_beforeColon : ∀ c ∈ beforeColon, isBlank c
  isBlank_afterColon : ∀ c ∈ afterColon, isBlank c
  isBlank_after : ∀ c ∈ after, isBlank c

namespace WrittenItem

/-- An item as it is written. -/
def text (item : WrittenItem) : Text :=
  match item.content with
  | .flag name => item.before ++ (name.toList ++ item.after)
  | .pair key value =>
    item.before ++ (key.toList ++ (item.beforeColon
      ++ ':' :: (item.afterColon ++ (value.print ++ item.after))))

/-- The lexemes of a written item. -/
def lexemes (item : WrittenItem) : List Lexeme :=
  match item.content with
  | .flag name => (item.before ++ (name.toList ++ item.after)).map .plain
  | .pair key value =>
    (item.before ++ (key.toList ++ (item.beforeColon ++ ':' :: item.afterColon))).map .plain
      ++ (value.lexemes ++ item.after.map .plain)

variable (item : WrittenItem)

/-- An item is read as its attribute, whatever the blanks. -/
theorem readItem?_text :
  Settings.readItem? item.text = some item.content
  := by
  obtain ⟨content, before, p, q, u, h, hbefore, hp, hq, hu⟩ := item
  rw [text]
  cases content with
  | flag name =>
    dsimp only
    rw [Attribute.readItem?_append_left hbefore, Attribute.readItem?_flag h.1 h.2.1 h.2.2 hu,
      String.ofList_toList]
  | pair key value =>
    dsimp only
    rw [Attribute.readItem?_append_left hbefore,
      Attribute.readItem?_pair h.1 h.2.1 h.2.2.1 h.2.2.2 hp hq hu, String.ofList_toList]

theorem lexes_text :
  Lexes item.text item.lexemes
  := by
  obtain ⟨content, before, p, q, u, h, hbefore, hp, hq, hu⟩ := item
  rw [text, lexemes]
  cases content with
  | flag name =>
    apply lexes_map_plain
    simp only [List.forall_mem_append]
    exact ⟨isQuote_of_isBlank hbefore, fun c hc => (h.2.2 c hc).2.1, isQuote_of_isBlank hu⟩
  | pair key value =>
    have hhead : ∀ c ∈ before ++ (key.toList ++ (p ++ ':' :: q)), isQuote c = false := by
      simp only [List.forall_mem_append, List.forall_mem_cons]
      exact ⟨isQuote_of_isBlank hbefore,
        fun c hc => (Attribute.isItemChar_key (h.2.2.1 c hc)).2.1, isQuote_of_isBlank hp, rfl,
        isQuote_of_isBlank hq⟩
    have hl := ((Value.lexes_print h.2.2.2).padded (List.forall_mem_nil _) hu).plains hhead
    simpa only [List.append_assoc, List.cons_append, List.map_nil, List.nil_append] using hl

theorem plains_lexemes :
  Lexeme.Plains (fun c => c ∉ itemEnds) item.lexemes
  := by
  obtain ⟨content, before, p, q, u, h, hbefore, hp, hq, hu⟩ := item
  have hends {s : Text} (hs : ∀ c ∈ s, isBlank c) : ∀ c ∈ s, c ∉ itemEnds :=
    fun c hc => (isItemChar_of_isBlank (hs c hc)).2.2
  rw [lexemes]
  cases content with
  | flag name =>
    simp only [Lexeme.plains_map, List.forall_mem_append]
    exact ⟨hends hbefore, fun c hc => (h.2.2 c hc).2.2, hends hu⟩
  | pair key value =>
    simp only [Lexeme.plains_append, Lexeme.plains_map, List.forall_mem_append,
      List.forall_mem_cons]
    exact ⟨⟨hends hbefore, fun c hc => (Attribute.isItemChar_key (h.2.2.1 c hc)).2.2, hends hp,
      by decide, hends hq⟩, Value.plains_lexemes h.2.2.2, hends hu⟩

end WrittenItem

/-! ## Groups -/

/-- A bracket group of items, of which there may be none, together with the blanks before it. -/
structure WrittenGroup where
  before : Text
  items : List WrittenItem
  isAsciiBlank_before : ∀ c ∈ before, isAsciiBlank c

namespace WrittenGroup

/-- What stands between the brackets of a group. -/
def inner (group : WrittenGroup) : Text :=
  [','].intercalate (group.items.map WrittenItem.text)

/-- A group as it is written. -/
def text (group : WrittenGroup) : Text :=
  group.before ++ '[' :: (group.inner ++ [']'])

/-- The attributes of a group. -/
def settings (group : WrittenGroup) : Settings :=
  group.items.map WrittenItem.content

variable (group : WrittenGroup)

/-- The inside of a written group is read back as its settings. -/
theorem readList_inner :
  Settings.readList group.inner = group.settings
  := Settings.readList_intercalate (List.forall_mem_nil _) (fun item _ => item.lexes_text)
    (fun item _ => item.plains_lexemes) fun item _ => item.readItem?_text

/-- A written group is read back, and the groups behind it are read further. -/
theorem readGroups_text (rest : Text) :
  Settings.readGroups (group.text ++ rest)
    = (group.settings ++ (Settings.readGroups rest).1, (Settings.readGroups rest).2)
  := by
  have hl : Lexes group.inner ([.plain ','].intercalate (group.items.map WrittenItem.lexemes)) :=
    lexes_intercalate rfl (List.forall_mem_nil _) fun item _ => item.lexes_text
  have hp : Lexeme.Plains (fun c => c ≠ '[' ∧ c ≠ ']')
      ([.plain ','].intercalate (group.items.map WrittenItem.lexemes)) := by
    refine plains_intercalate (by decide) (List.forall_mem_nil _) fun item _ => ?_
    exact item.plains_lexemes.mono fun c => not_isBracket_of_notMem
  have hread := Settings.readGroups_brackets hl hp group.isAsciiBlank_before rest
  rw [readList_inner] at hread
  rw [← hread, text]
  simp only [List.append_assoc, List.cons_append, List.nil_append]

end WrittenGroup

/-! ## All groups -/

/-- Written groups in a row are read back as their settings, and reading ends behind them. -/
theorem Settings.readGroups_texts (groups : List WrittenGroup) {rest : Text}
    (h : (skipBlanks rest).head? ≠ some '[') :
  readGroups (groups.flatMap WrittenGroup.text ++ rest)
    = (groups.flatMap WrittenGroup.settings, rest)
  := by
  induction groups with
  | nil => exact readGroups_eq_nil h
  | cons group groups ih =>
    rw [List.flatMap_cons, List.flatMap_cons, List.append_assoc, group.readGroups_text, ih]

/-- Settings that are written as bracket groups are read back in order, whatever text follows that
does not go on with a group.  Reading ends with the last bracket, also where it counts bytes. -/
theorem written_groups_are_read_back (groups : List WrittenGroup) (rest : Text)
    (h : (skipBlanks rest).head? ≠ some '[') :
  let written := groups.flatMap WrittenGroup.text
  let settings := groups.flatMap WrittenGroup.settings
  Settings.readGroups (written ++ rest) = (settings, rest)
    ∧ Checked.readGroups (written ++ rest) = .ok (settings, size written)
  := by
  intro written settings
  have hread := Settings.readGroups_texts groups h
  obtain ⟨finish, hat, hchecked⟩ := Checked.readGroups_eq (written ++ rest)
  rw [hread] at hat hchecked
  have hfinish : finish = size written := hat.unique ⟨written, rfl, rfl⟩
  rw [hfinish] at hchecked
  exact ⟨hread, hchecked⟩

/-- Brackets, commas and quotes inside of values are read back. -/
theorem two_groups_are_read_back :
  let written := "[pk , note: \x27a]\\\x27, \\n\x27]\n[default:`x], y`]".toList
  let rest := "; [".toList
  let settings : Settings :=
    [.flag "pk", .pair "note" (.text "a]\x27, \n"), .pair "default" (.expression "x], y")]
  (skipBlanks rest).head? ≠ some '['
    ∧ Settings.readGroups (written ++ rest) = (settings, rest)
    ∧ Checked.readGroups (written ++ rest) = .ok (settings, size written)
  := by
  intro written rest settings
  have hnil : ∀ c ∈ ([] : Text), isBlank c := List.forall_mem_nil _
  have hspace : ∀ c ∈ [' '], isBlank c := List.forall_mem_singleton.mpr rfl
  have hpk : Attribute.IsPrintable (.flag "pk") :=
    ⟨by decide, by decide +kernel, forall_mem_of_all (by decide +kernel)⟩
  have hnote : Attribute.IsPrintable (.pair "note" (.text "a]\x27, \n")) :=
    ⟨by decide, by decide +kernel, forall_mem_of_all (by decide +kernel), trivial⟩
  have hdefault : Attribute.IsPrintable (.pair "default" (.expression "x], y")) :=
    ⟨by decide, by decide +kernel, forall_mem_of_all (by decide +kernel), by decide, by decide⟩
  let groups : List WrittenGroup :=
    [⟨[], [⟨_, [], [], [], [' '], hpk, hnil, hnil, hnil, hspace⟩,
        ⟨_, [' '], [], [' '], [], hnote, hspace, hnil, hspace, hnil⟩], List.forall_mem_nil _⟩,
      ⟨['\n'], [⟨_, [], [], [], [], hdefault, hnil, hnil, hnil, hnil⟩],
        List.forall_mem_singleton.mpr rfl⟩]
  have hrest : (skipBlanks rest).head? ≠ some '[' := by decide
  have hwritten : groups.flatMap WrittenGroup.text = written := rfl
  have h := written_groups_are_read_back groups rest hrest
  rw [hwritten] at h
  exact ⟨hrest, h⟩

end DatabaseMarkup
