import Mathlib.Data.List.Forall2
import DatabaseMarkup.Json
import DatabaseMarkup.Proofs.Text.Literal

/-!
# The grammar of JSON

`Json.SpelledBy` says which texts spell a value.  It is the grammar of JSON without numbers: between
the parts of a list or an object there may be blanks, and a character of a string may be spelled in
several ways.  The two written forms of a value are two of the texts that spell it, and the compact
one stays on its line.
-/

namespace DatabaseMarkup.Json

/-! ## The grammar -/

/-- Whether a text has only characters that may stand between the parts of a value. -/
def IsBlank (t : Text) : Prop :=
  ∀ c ∈ t, c = ' ' ∨ c = '\t' ∨ c = '\n' ∨ c = '\r'

/-- Whether a character is the hexadecimal digit of a number, in lower or in upper case. -/
def IsDigitOf (digit : Char) (n : Nat) : Prop :=
  n < 10 ∧ digit.toNat = '0'.toNat + n
    ∨ 10 ≤ n ∧ n < 16 ∧ (digit.toNat + 10 = 'a'.toNat + n ∨ digit.toNat + 10 = 'A'.toNat + n)

/-- The characters that have an escape of one letter, after that letter. -/
def shortEscapes : List (Char × Char) :=
  [('\x22', '\x22'), ('\\', '\\'), ('/', '/'), ('b', '\x08'), ('f', '\x0C'), ('n', '\n'),
    ('r', '\r'), ('t', '\t')]

/-- Whether a text spells a character of a string: as itself, by the escape of one letter, or by the
four digits of its number. -/
inductive CharSpelledBy : Char → Text → Prop
  | plain {c : Char} (hquote : c ≠ '\x22') (hbackslash : c ≠ '\\') (hcontrol : 0x20 ≤ c.toNat) :
      CharSpelledBy c [c]
  | short {letter c : Char} (h : (letter, c) ∈ shortEscapes) : CharSpelledBy c ['\\', letter]
  | code {c d₃ d₂ d₁ d₀ : Char} {n₃ n₂ n₁ n₀ : Nat}
      (h₃ : IsDigitOf d₃ n₃) (h₂ : IsDigitOf d₂ n₂) (h₁ : IsDigitOf d₁ n₁) (h₀ : IsDigitOf d₀ n₀)
      (hc : c.toNat = 0x1000 * n₃ + 0x100 * n₂ + 0x10 * n₁ + n₀) :
      CharSpelledBy c ['\\', 'u', d₃, d₂, d₁, d₀]

/-- Whether a text spells a string: its characters one after the other, between quotes. -/
def StringSpelledBy (s : String) (t : Text) : Prop :=
  ∃ parts, List.Forall₂ CharSpelledBy s.toList parts ∧ t = '\x22' :: parts.flatten ++ ['\x22']

/-- Whether a text consists of the given parts, with commas between them and blanks around them. -/
inductive Separated : List Text → Text → Prop
  | none {blank : Text} (h : IsBlank blank) : Separated [] blank
  | one {before after part : Text} (hbefore : IsBlank before) (hafter : IsBlank after) :
      Separated [part] (before ++ part ++ after)
  | more {before after part rest : Text} {parts : List Text} (hbefore : IsBlank before)
      (hafter : IsBlank after) (hparts : parts ≠ []) (h : Separated parts rest) :
      Separated (part :: parts) (before ++ part ++ after ++ ',' :: rest)

mutual

/-- Whether a text spells a value. -/
inductive SpelledBy : Json → Text → Prop
  | null : SpelledBy null ['n', 'u', 'l', 'l']
  | true : SpelledBy (bool Bool.true) ['t', 'r', 'u', 'e']
  | false : SpelledBy (bool Bool.false) ['f', 'a', 'l', 's', 'e']
  | string {s : String} {t : Text} (h : StringSpelledBy s t) : SpelledBy (string s) t
  | list {items : List Json} {parts : List Text} {t : Text}
      (h : List.Forall₂ SpelledBy items parts) (ht : Separated parts t) :
      SpelledBy (list items) ('[' :: t ++ [']'])
  | object {members : List (String × Json)} {parts : List Text} {t : Text}
      (h : List.Forall₂ MemberSpelledBy members parts) (ht : Separated parts t) :
      SpelledBy (object members) ('\x7b' :: t ++ ['\x7d'])

/-- Whether a text spells a member of an object: its key, a colon and its value. -/
inductive MemberSpelledBy : String × Json → Text → Prop
  | intro {key : String} {value : Json} {spelledKey before after spelled : Text}
      (hkey : StringSpelledBy key spelledKey) (hbefore : IsBlank before) (hafter : IsBlank after)
      (h : SpelledBy value spelled) :
      MemberSpelledBy (key, value) (spelledKey ++ before ++ ':' :: (after ++ spelled))

end

/-! ## Strings -/

/-- The digits of the model are those of the grammar in lower case. -/
theorem isDigitOf_hexDigit {n : Nat} (h : n < 16) :
  IsDigitOf (hexDigit n) n
  := by
  have hall : ∀ k : Fin 16, IsDigitOf (hexDigit k) k := by
    unfold IsDigitOf
    decide
  exact hall ⟨n, h⟩

/-- A character is written as itself, or else as one of its escapes. -/
theorem charSpelledBy_escapeChar (c : Char) :
  CharSpelledBy c (escapeChar c)
  := by
  have heq {k : Nat} (d : Char) (hd : d.toNat = k) (h : c.toNat = k) : c = d :=
    Char.toNat_inj.mp (h.trans hd.symm)
  unfold escapeChar
  dsimp only
  split_ifs with hquote hbackslash hb ht hn hf hr hcontrol
  · obtain rfl := heq '\x22' rfl hquote
    exact .short (by decide)
  · obtain rfl := heq '\\' rfl hbackslash
    exact .short (by decide)
  · obtain rfl := heq '\x08' rfl hb
    exact .short (by decide)
  · obtain rfl := heq '\t' rfl ht
    exact .short (by decide)
  · obtain rfl := heq '\n' rfl hn
    exact .short (by decide)
  · obtain rfl := heq '\x0C' rfl hf
    exact .short (by decide)
  · obtain rfl := heq '\r' rfl hr
    exact .short (by decide)
  · have hzero : IsDigitOf '0' 0 := .inl ⟨by decide, rfl⟩
    have hdiv : c.toNat / 16 < 16 := by omega
    exact .code hzero hzero (isDigitOf_hexDigit hdiv)
      (isDigitOf_hexDigit (Nat.mod_lt _ (by decide))) (by omega)
  · refine .plain ?_ ?_ (by omega)
    · rintro rfl
      exact hquote rfl
    · rintro rfl
      exact hbackslash rfl

/-- The written form of a string spells it. -/
theorem stringSpelledBy_quoted (s : String) :
  StringSpelledBy s (quoted s).toList
  := by
  refine ⟨s.toList.map escapeChar, ?_, ?_⟩
  · rw [List.forall₂_map_right_iff, List.forall₂_same]
    exact fun c _ => charSpelledBy_escapeChar c
  · rw [quoted, String.toList_ofList, List.flatMap_def]

/-! ## Lines -/

/-- Whether a text has no control characters, which is so of a part of a line. -/
def IsLine (t : Text) : Prop :=
  ∀ c ∈ t, 0x20 ≤ c.toNat

@[simp]
theorem isLine_nil :
  IsLine []
  := List.forall_mem_nil _

@[simp]
theorem isLine_cons {c : Char} {t : Text} :
  IsLine (c :: t) ↔ 0x20 ≤ c.toNat ∧ IsLine t
  := List.forall_mem_cons

@[simp]
theorem isLine_append {s t : Text} :
  IsLine (s ++ t) ↔ IsLine s ∧ IsLine t
  := List.forall_mem_append

theorem IsDigitOf.le_toNat {digit : Char} {n : Nat} (h : IsDigitOf digit n) :
  0x20 ≤ digit.toNat
  := by
  have hzero : '0'.toNat = 48 := rfl
  have ha : 'a'.toNat = 97 := rfl
  have hA : 'A'.toNat = 65 := rfl
  unfold IsDigitOf at h
  omega

/-- No spelling of a character has a newline or another control character in it. -/
theorem CharSpelledBy.isLine {c : Char} {t : Text} (h : CharSpelledBy c t) :
  IsLine t
  := by
  cases h with
  | plain _ _ hcontrol => simpa using hcontrol
  | @short letter _ h =>
    have hall : ∀ e ∈ shortEscapes, 0x20 ≤ e.1.toNat := by decide
    simpa using hall _ h
  | code h₃ h₂ h₁ h₀ _ => simp [h₃.le_toNat, h₂.le_toNat, h₁.le_toNat, h₀.le_toNat]

theorem isLine_quoted (s : String) :
  IsLine (quoted s).toList
  := by
  have hs : IsLine (s.toList.flatMap escapeChar) := by
    intro c hc
    obtain ⟨d, -, hd⟩ := List.mem_flatMap.mp hc
    exact (charSpelledBy_escapeChar d).isLine c hd
  rw [quoted, String.toList_ofList]
  simpa using hs

/-- Parts of a line that are joined by commas are a part of a line. -/
theorem isLine_joined {parts : List String} (h : ∀ s ∈ parts, IsLine s.toList) :
  IsLine (",".intercalate parts).toList
  := by
  rw [String.toList_intercalate]
  apply Text.forall_mem_intercalate
  · have hcomma : IsLine ",".toList := by simp
    exact hcomma
  · intro t ht
    obtain ⟨s, hs, rfl⟩ := List.mem_map.mp ht
    exact h s hs

/-! ## Parts -/

theorem isBlank_nil :
  IsBlank []
  := List.forall_mem_nil _

theorem isBlank_newline (level : Nat) :
  IsBlank (newline level).toList
  := by
  intro c hc
  rw [newline, String.toList_ofList, List.mem_cons] at hc
  rcases hc with rfl | hc
  · exact .inr (.inr (.inl rfl))
  · exact .inl (List.eq_of_mem_replicate hc)

/-- Parts that are joined by commas with the same blanks behind each of them. -/
theorem separated_intercalate {before blank after : Text} {parts : List Text}
    (hbefore : IsBlank before) (hblank : IsBlank blank) (hafter : IsBlank after)
    (hparts : parts ≠ []) :
  Separated parts (before ++ (',' :: blank).intercalate parts ++ after)
  := by
  induction parts generalizing before with
  | nil => exact absurd rfl hparts
  | cons part parts ih =>
    cases parts with
    | nil =>
      rw [List.intercalate_singleton]
      exact .one hbefore hafter
    | cons next parts =>
      have hne : next :: parts ≠ [] := List.cons_ne_nil _ _
      have h : Separated (part :: next :: parts) _ :=
        .more hbefore isBlank_nil hne (ih hblank hne)
      rw [List.intercalate_cons_cons]
      simpa using h

/-- Parts that are joined by commas alone. -/
theorem separated_joined (parts : List Text) :
  Separated parts ([','].intercalate parts)
  := by
  cases parts with
  | nil => exact .none isBlank_nil
  | cons part parts =>
    have h := separated_intercalate isBlank_nil isBlank_nil isBlank_nil
      (List.cons_ne_nil part parts)
    rwa [List.nil_append, List.append_nil] at h

/-- Members on lines of their own are separated, with the lines and their indentation as blanks. -/
theorem exists_toList_onLines (level : Nat) (opening : String) (members : List String)
    (closing : String) :
  ∃ t, Separated (members.map String.toList) t
    ∧ (onLines level opening members closing).toList = opening.toList ++ t ++ closing.toList
  := by
  rw [onLines]
  split_ifs with h
  · rw [List.isEmpty_iff.mp h]
    exact ⟨[], .none isBlank_nil, by rw [String.toList_append, List.append_nil]⟩
  · have hparts : members.map String.toList ≠ [] := by
      rwa [List.isEmpty_iff, ← List.map_eq_nil_iff (f := String.toList)] at h
    refine ⟨_, separated_intercalate (isBlank_newline (level + 1)) (isBlank_newline (level + 1))
      (isBlank_newline level) hparts, ?_⟩
    simp [String.toList_intercalate]

/-! ## Written forms -/

mutual

/-- The form on one line spells its value. -/
theorem spelledBy_compact : ∀ value : Json, value.SpelledBy value.compact.toList
  | null => .null
  | bool true => .true
  | bool false => .false
  | string s => .string (stringSpelledBy_quoted s)
  | list items => by
    have h := SpelledBy.list (spelledBy_compactItems items) (separated_joined _)
    simpa [compact, String.toList_intercalate] using h
  | object members => by
    have h := SpelledBy.object (spelledBy_compactMembers members) (separated_joined _)
    simpa [compact, openBrace, closeBrace, String.toList_intercalate] using h

/-- The forms of the items of a list on one line spell them. -/
theorem spelledBy_compactItems :
    ∀ items : List Json, List.Forall₂ SpelledBy items ((compactItems items).map String.toList)
  | [] => .nil
  | item :: items => .cons (spelledBy_compact item) (spelledBy_compactItems items)

/-- The forms of the members of an object on one line spell them. -/
theorem spelledBy_compactMembers : ∀ members : List (String × Json),
    List.Forall₂ MemberSpelledBy members ((compactMembers members).map String.toList)
  | [] => .nil
  | (key, value) :: members => by
    have h := MemberSpelledBy.intro (stringSpelledBy_quoted key) isBlank_nil isBlank_nil
      (spelledBy_compact value)
    refine .cons ?_ (spelledBy_compactMembers members)
    simpa using h

end

mutual

/-- The form on one line is on one line indeed. -/
theorem isLine_compact : ∀ value : Json, IsLine value.compact.toList
  | null => by simp [compact]
  | bool true => by simp [compact]
  | bool false => by simp [compact]
  | string s => isLine_quoted s
  | list items => by
    have h := isLine_joined (isLine_compactItems items)
    simpa [compact] using h
  | object members => by
    have h := isLine_joined (isLine_compactMembers members)
    simpa [compact, openBrace, closeBrace] using h

/-- The forms of the items of a list on one line are on one line. -/
theorem isLine_compactItems : ∀ items : List Json, ∀ s ∈ compactItems items, IsLine s.toList
  | [] => List.forall_mem_nil _
  | item :: items => List.forall_mem_cons.mpr ⟨isLine_compact item, isLine_compactItems items⟩

/-- The forms of the members of an object on one line are on one line. -/
theorem isLine_compactMembers :
    ∀ members : List (String × Json), ∀ s ∈ compactMembers members, IsLine s.toList
  | [] => List.forall_mem_nil _
  | (key, value) :: members => by
    have h := isLine_quoted key
    have hvalue := isLine_compact value
    refine List.forall_mem_cons.mpr ⟨?_, isLine_compactMembers members⟩
    simp [h, hvalue]

end

mutual

/-- The form at a level spells its value. -/
theorem spelledBy_prettyAt :
    ∀ (level : Nat) (value : Json), value.SpelledBy (value.prettyAt level).toList
  | _, null => by
    rw [prettyAt]
    exact .null
  | _, bool true => by
    rw [prettyAt]
    exact .true
  | _, bool false => by
    rw [prettyAt]
    exact .false
  | _, string s => by
    rw [prettyAt]
    exact .string (stringSpelledBy_quoted s)
  | level, list items => by
    obtain ⟨t, ht, heq⟩ := exists_toList_onLines level "[" (prettyItems (level + 1) items) "]"
    rw [prettyAt, heq]
    exact .list (spelledBy_prettyItems (level + 1) items) ht
  | level, object members => by
    obtain ⟨t, ht, heq⟩ := exists_toList_onLines level openBrace
      (prettyMembers (level + 1) members) closeBrace
    rw [prettyAt, heq]
    exact .object (spelledBy_prettyMembers (level + 1) members) ht

/-- The forms of the items of a list at a level spell them. -/
theorem spelledBy_prettyItems : ∀ (level : Nat) (items : List Json),
    List.Forall₂ SpelledBy items ((prettyItems level items).map String.toList)
  | _, [] => .nil
  | level, item :: items =>
    .cons (spelledBy_prettyAt level item) (spelledBy_prettyItems level items)

/-- The forms of the members of an object at a level spell them. -/
theorem spelledBy_prettyMembers : ∀ (level : Nat) (members : List (String × Json)),
    List.Forall₂ MemberSpelledBy members ((prettyMembers level members).map String.toList)
  | _, [] => .nil
  | level, (key, value) :: members => by
    have hblank : IsBlank [' '] := fun _ hc => .inl (List.mem_singleton.mp hc)
    have h := MemberSpelledBy.intro (stringSpelledBy_quoted key) isBlank_nil hblank
      (spelledBy_prettyAt level value)
    refine .cons ?_ (spelledBy_prettyMembers level members)
    simpa using h

end

/-- The indented form spells its value. -/
theorem spelledBy_pretty (value : Json) :
  value.SpelledBy value.pretty.toList
  := spelledBy_prettyAt 0 value

end DatabaseMarkup.Json
