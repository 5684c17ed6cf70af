import DatabaseMarkup.Block.Basic
import DatabaseMarkup.Text.Name

/-!
# Headers of blocks

`Header.read?` recognises the keyword and the names at the start of a block and returns the
text after them, where the settings or the opening brace of the block should stand.  The header
of a reference ends with a colon, which is taken off, or with a brace, which is not.

Every kind of block is a `HeaderForm`: a keyword and a reader of what follows it.  The forms are
tried in the order of `HeaderForm.all`, in which a keyword comes before those it begins with.
-/

namespace DatabaseMarkup

namespace Text

/-- The name after a run of blank characters. -/
def spacedName? (t : Text) : Option (Text × Text) :=
  (splitBlanks? t).bind splitName?

/-- A name that another one may qualify, as in `schema.table`: the qualifier, the name and the
text after them. -/
def qualifiedName? (t : Text) : Option (Option Text × Text × Text) :=
  match splitName? t with
  | some (first, rest) =>
    match (splitChar? '.' rest).bind splitName? with
    | some (second, rest) => some (some first, second, rest)
    | none => some (none, first, rest)
  | none => none

/-- The name that follows the keyword `as`. -/
def aliasClause? (t : Text) : Option (Text × Text) :=
  ((splitBlanks? t).bind (splitKeyword? ['a', 's'])).bind spacedName?

theorem length_spacedName {t name rest : Text} (h : spacedName? t = some (name, rest)) :
  rest.length ≤ t.length
  := by
  obtain ⟨u, hu, hn⟩ := Option.bind_eq_some_iff.mp h
  exact Nat.le_trans (length_splitName hn) (length_splitBlanks hu)

theorem length_qualifiedName {t name rest : Text} {qualifier : Option Text}
    (h : qualifiedName? t = some (qualifier, name, rest)) :
  rest.length ≤ t.length
  := by
  rw [qualifiedName?] at h
  split at h
  · rename_i hu
    have hu := length_splitName hu
    split at h
    · rename_i hv
      obtain ⟨w, hw, hv⟩ := Option.bind_eq_some_iff.mp hv
      simp only [Option.some.injEq, Prod.mk.injEq] at h
      obtain ⟨_, _, rfl⟩ := h
      exact Nat.le_trans (length_splitName hv) (Nat.le_trans (length_splitChar hw) hu)
    · simp only [Option.some.injEq, Prod.mk.injEq] at h
      obtain ⟨_, _, rfl⟩ := h
      exact hu
  · simp at h

theorem length_aliasClause {t name rest : Text} (h : aliasClause? t = some (name, rest)) :
  rest.length ≤ t.length
  := by
  obtain ⟨v, hv, h⟩ := Option.bind_eq_some_iff.mp h
  obtain ⟨u, hu, hv⟩ := Option.bind_eq_some_iff.mp hv
  have := length_splitKeyword hv
  have := length_splitBlanks hu
  have := length_spacedName h
  omega

end Text

/-- A kind of header: its keyword, in lower case, and the reader of what follows it. -/
structure HeaderForm where
  keyword : Text
  readNames : Text → Option (Header × Text)

namespace HeaderForm

open Text

/-- The end of the header of a reference. -/
def referenceEnd? (name : Option Text) (t : Text) : Option (Header × Text) :=
  match trimStart t with
  | [] => none
  | c :: rest =>
    if c = ':' then some ({ kind := .refShort, name }, rest)
    else if c = '{' then some ({ kind := .refBlock, name }, c :: rest)
    else none

/-- The header of a reference, whose name may be left out. -/
def reference : HeaderForm where
  keyword := ['r', 'e', 'f']
  readNames t :=
    if beginsWithWord t then
      none
    else
      match spacedName? t with
      | some (name, rest) => referenceEnd? (some name) rest
      | none => referenceEnd? none t

/-- The header of a block that must have a simple name. -/
def named (keyword : Text) (kind : BlockKind) : HeaderForm where
  keyword
  readNames t := (spacedName? t).map fun (name, rest) => ({ kind, name := some name }, rest)

/-- The header of a table, which may have a schema and an alias. -/
def table : HeaderForm where
  keyword := ['t', 'a', 'b', 'l', 'e']
  readNames t :=
    match (splitBlanks? t).bind qualifiedName? with
    | some (schema, name, rest) =>
      match aliasClause? rest with
      | some (aliasName, rest) =>
        some ({ kind := .table, schema, name := some name, aliasName := some aliasName }, rest)
      | none => some ({ kind := .table, schema, name := some name }, rest)
    | none => none

/-- The header of a project, whose name may be left out. -/
def project : HeaderForm where
  keyword := ['p', 'r', 'o', 'j', 'e', 'c', 't']
  readNames t :=
    if beginsWithWord t then
      none
    else
      match spacedName? t with
      | some (name, rest) => some ({ kind := .project, name := some name }, rest)
      | none => some ({ kind := .project }, t)

/-- The header of an enum, which may have a schema. -/
def enum : HeaderForm where
  keyword := ['e', 'n', 'u', 'm']
  readNames t :=
    ((splitBlanks? t).bind qualifiedName?).map fun (schema, name, rest) =>
      ({ kind := .enum, schema, name := some name }, rest)

/-- The forms in the order in which they are tried. -/
def all : List HeaderForm :=
  [ reference,
    named ['t', 'a', 'b', 'l', 'e', 'p', 'a', 'r', 't', 'i', 'a', 'l'] .tablePartial,
    named ['t', 'a', 'b', 'l', 'e', 'g', 'r', 'o', 'u', 'p'] .tableGroup,
    table,
    project,
    enum,
    named ['n', 'o', 't', 'e'] .stickyNote ]

/-- The header of the given form at the start of a text, and the text after it. -/
def read? (form : HeaderForm) (t : Text) : Option (Header × Text) :=
  (splitKeyword? form.keyword t).bind form.readNames

/-! ## Headers are not empty -/

theorem length_referenceEnd {name : Option Text} {t rest : Text} {header : Header}
    (h : referenceEnd? name t = some (header, rest)) :
  rest.length ≤ t.length
  := by
  have ht : (trimStart t).length ≤ t.length := length_dropWhile_le _ t
  rw [referenceEnd?] at h
  split at h
  · simp at h
  · rename_i hu
    rw [hu, List.length_cons] at ht
    split at h
    · simp only [Option.some.injEq, Prod.mk.injEq] at h
      rw [← h.2]
      omega
    · simp only [Option.ite_none_right_eq_some, Option.some.injEq, Prod.mk.injEq] at h
      rw [← h.2.2, List.length_cons]
      omega

theorem length_named {keyword t rest : Text} {kind : BlockKind} {header : Header}
    (h : (named keyword kind).readNames t = some (header, rest)) :
  rest.length ≤ t.length
  := by
  simp only [named, Option.map_eq_some_iff, Prod.exists, Prod.mk.injEq] at h
  obtain ⟨name, u, hu, _, rfl⟩ := h
  exact length_spacedName hu

theorem length_qualified {t name rest : Text} {qualifier : Option Text}
    (h : (splitBlanks? t).bind qualifiedName? = some (qualifier, name, rest)) :
  rest.length ≤ t.length
  := by
  obtain ⟨u, hu, h⟩ := Option.bind_eq_some_iff.mp h
  exact Nat.le_trans (length_qualifiedName h) (length_splitBlanks hu)

/-- Reading the names in a header leaves no more text than there was. -/
theorem length_readNames {form : HeaderForm} (hf : form ∈ all) {t rest : Text} {header : Header}
    (h : form.readNames t = some (header, rest)) :
  rest.length ≤ t.length
  := by
  simp only [all, List.mem_cons, List.not_mem_nil, or_false] at hf
  rcases hf with rfl | rfl | rfl | rfl | rfl | rfl | rfl
  · simp only [reference, Option.ite_none_left_eq_some] at h
    obtain ⟨_, h⟩ := h
    split at h
    · rename_i hn
      exact Nat.le_trans (length_referenceEnd h) (length_spacedName hn)
    · exact length_referenceEnd h
  · exact length_named h
  · exact length_named h
  · simp only [table] at h
    split at h
    · rename_i hq
      have hq := length_qualified hq
      split at h
      · rename_i ha
        simp only [Option.some.injEq, Prod.mk.injEq] at h
        rw [← h.2]
        exact Nat.le_trans (length_aliasClause ha) hq
      · simp only [Option.some.injEq, Prod.mk.injEq] at h
        rw [← h.2]
        exact hq
    · simp at h
  · simp only [project, Option.ite_none_left_eq_some] at h
    obtain ⟨_, h⟩ := h
    split at h
    · rename_i hn
      simp only [Option.some.injEq, Prod.mk.injEq] at h
      rw [← h.2]
      exact length_spacedName hn
    · simp only [Option.some.injEq, Prod.mk.injEq] at h
      exact h.2 ▸ Nat.le_refl _
  · simp only [enum, Option.map_eq_some_iff, Prod.exists, Prod.mk.injEq] at h
    obtain ⟨_, _, _, hq, _, rfl⟩ := h
    exact length_qualified hq
  · exact length_named h

end HeaderForm

namespace Header

/-- The header at the start of a text and the text after it. -/
def read? (t : Text) : Option (Header × Text) :=
  HeaderForm.all.findSome? fun form => form.read? t

/-- Reading a header leaves less text. -/
theorem length_read_lt {t rest : Text} {header : Header} (h : read? t = some (header, rest)) :
  rest.length < t.length
  := by
  obtain ⟨form, hf, h⟩ := List.exists_of_findSome?_eq_some h
  obtain ⟨u, hu, h⟩ := Option.bind_eq_some_iff.mp h
  have hk : 0 < form.keyword.length := by
    simp only [HeaderForm.all, List.mem_cons, List.not_mem_nil, or_false] at hf
    rcases hf with rfl | rfl | rfl | rfl | rfl | rfl | rfl <;> exact Nat.succ_pos _
  have := Text.length_splitKeyword hu
  have := HeaderForm.length_readNames hf h
  omega

end Header

end DatabaseMarkup
