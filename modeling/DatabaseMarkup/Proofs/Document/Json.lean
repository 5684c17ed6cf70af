import DatabaseMarkup.Document.Json

/-!
# Documents are told apart by their JSON

Each type of the document has a function `toJson`, and none of these functions loses anything: parts
of a document with the same JSON are the same.  The lemmas follow the types from the inside out.
-/

namespace DatabaseMarkup

namespace Json

/-- A text that may be missing is not lost. -/
@[simp]
theorem ofString?_inj {s t : Option String} :
  ofString? s = ofString? t ↔ s = t
  := by
  cases s <;> cases t <;> simp [ofString?]

@[simp]
theorem ofStrings_inj {s t : List String} :
  ofStrings s = ofStrings t ↔ s = t
  := by
  simp [ofStrings, List.map_inj_right]

/-- A part that may be missing is not lost, if the JSON of one that is there is never null. -/
theorem getD_null_inj {α : Type} {f : α → Json} (hn : ∀ a, f a ≠ null)
    (hf : ∀ a b, f a = f b ↔ a = b) {s t : Option α} :
  (s.map f).getD null = (t.map f).getD null ↔ s = t
  := by
  cases s with
  | none =>
    cases t with
    | none => simp
    | some b => simp [(hn b).symm]
  | some a =>
    cases t with
    | none => simp [hn a]
    | some b => simp [hf]

end Json

/-! ## Settings -/

/-- Different values are written as different JSON, since the kind of a value stands beside it. -/
@[simp]
theorem Value.toJson_inj {v w : Value} :
  v.toJson = w.toJson ↔ v = w
  := by
  cases v <;> cases w <;> simp [Value.toJson, form, content]

@[simp]
theorem Attribute.toJson_inj {a b : Attribute} :
  a.toJson = b.toJson ↔ a = b
  := by
  cases a <;> cases b <;> simp [Attribute.toJson]

/-- Different settings are written as different JSON. -/
@[simp]
theorem Settings.toJson_inj {s t : Settings} :
  s.toJson = t.toJson ↔ s = t
  := by
  simp [Settings.toJson, List.map_inj_right]

/-! ## Relationships -/

@[simp]
theorem RelationKind.toJson_inj {k l : RelationKind} :
  k.toJson = l.toJson ↔ k = l
  := by
  cases k <;> cases l <;> simp [RelationKind.toJson, label]

@[simp]
theorem InlineRef.toJson_inj {r s : InlineRef} :
  r.toJson = s.toJson ↔ r = s
  := by
  cases r
  cases s
  simp [InlineRef.toJson]

@[simp]
theorem Relationship.toJson_inj {r s : Relationship} :
  r.toJson = s.toJson ↔ r = s
  := by
  cases r
  cases s
  simp [Relationship.toJson]

/-! ## Tables -/

@[simp]
theorem Column.toJson_inj {c d : Column} :
  c.toJson = d.toJson ↔ c = d
  := by
  have hdefault {v w : Option Value} :
      (v.map Value.toJson).getD .null = (w.map Value.toJson).getD .null ↔ v = w :=
    Json.getD_null_inj (by rintro _ ⟨⟩) fun _ _ => Value.toJson_inj
  have hinline {r s : Option InlineRef} :
      (r.map InlineRef.toJson).getD .null = (s.map InlineRef.toJson).getD .null ↔ r = s :=
    Json.getD_null_inj (by rintro _ ⟨⟩) fun _ _ => InlineRef.toJson_inj
  cases c
  cases d
  simp [Column.toJson, hdefault, hinline]

@[simp]
theorem IndexColumn.toJson_inj {c d : IndexColumn} :
  c.toJson = d.toJson ↔ c = d
  := by
  cases c <;> cases d <;> simp [IndexColumn.toJson, isExpression, content]

@[simp]
theorem Index.toJson_inj {i j : Index} :
  i.toJson = j.toJson ↔ i = j
  := by
  cases i
  cases j
  simp [Index.toJson, List.map_inj_right]

/-- Different tables are written as different JSON. -/
@[simp]
theorem Table.toJson_inj {t u : Table} :
  t.toJson = u.toJson ↔ t = u
  := by
  cases t
  cases u
  simp [Table.toJson, List.map_inj_right]

@[simp]
theorem TablePartial.toJson_inj {p q : TablePartial} :
  p.toJson = q.toJson ↔ p = q
  := by
  cases p
  cases q
  simp [TablePartial.toJson, List.map_inj_right]

/-! ## Other declarations -/

@[simp]
theorem EnumValue.toJson_inj {v w : EnumValue} :
  v.toJson = w.toJson ↔ v = w
  := by
  cases v
  cases w
  simp [EnumValue.toJson]

@[simp]
theorem Enum.toJson_inj {e f : Enum} :
  e.toJson = f.toJson ↔ e = f
  := by
  cases e
  cases f
  simp [Enum.toJson, List.map_inj_right]

@[simp]
theorem Project.toJson_inj {p q : Project} :
  p.toJson = q.toJson ↔ p = q
  := by
  cases p
  cases q
  simp [Project.toJson]

@[simp]
theorem TableGroup.toJson_inj {g h : TableGroup} :
  g.toJson = h.toJson ↔ g = h
  := by
  cases g
  cases h
  simp [TableGroup.toJson]

@[simp]
theorem StickyNote.toJson_inj {n m : StickyNote} :
  n.toJson = m.toJson ↔ n = m
  := by
  cases n
  cases m
  simp [StickyNote.toJson]

/-! ## Documents -/

/-- The JSON of a document tells everything about it. -/
theorem Document.toJson_inj {d e : Document} :
  d.toJson = e.toJson ↔ d = e
  := by
  have hproject {p q : Option Project} :
      (p.map Project.toJson).getD .null = (q.map Project.toJson).getD .null ↔ p = q :=
    Json.getD_null_inj (by rintro _ ⟨⟩) fun _ _ => Project.toJson_inj
  cases d
  cases e
  simp [Document.toJson, hproject, List.map_inj_right]

end DatabaseMarkup
