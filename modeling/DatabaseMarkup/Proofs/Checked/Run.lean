import DatabaseMarkup.Proofs.Checked.Report

/-!
# Base offsets

The reader of a body gets the body as a text of its own and the offset at which it begins.  It adds
this base offset to the places of the problems that it reports and to the place behind the brace of
a group, which is the base offset of the reader of what is inside of the group.  `Checked.Runs` says
which readers are run on which texts with which base offsets, and `IsGroup.readPart_eq` that this is
what the reader of a body does at a group.

`offsets_point_at_text` states that every reader is run on the part of the document that begins at
its base offset, however deep it is nested, and that what it reports about a line, an item or a word
is reported where these stand in the document.
-/

namespace DatabaseMarkup

open Text

namespace Checked

/-! ## Readers -/

/-- The readers of bodies.  That of tables and partials has partials available, and those of
references are told the header of their block. -/
inductive BodyReader where
  | entries (partials : List TablePartial)
  | indexes
  | tableGroup
  | enumValues
  | settings
  | references (header : Header)
  | shortReference (header : Header)

namespace BodyReader

/-- The problems that a reader reports on a text with a base offset. -/
def findings (reader : BodyReader) (s : Text) (offset : Nat) : Checked (List Finding) :=
  match reader with
  | entries partials => do
    let entries ← readBody s offset
    return TableEntry.findings partials entries
  | indexes => do
    let results ← readIndexes s offset
    return Finding.failures results
  | tableGroup => do
    let results ← readTableGroupEntries s offset
    return Finding.failures results
  | enumValues => do
    let results ← readEnumValues s offset
    return Finding.failures results
  | settings => do
    let results ← readSettings s offset
    return Finding.failures results
  | references header => do
    let results ← readReferences ⟨header, [], s, offset⟩
    return Finding.failures results
  | shortReference header => do
    let result ← readShort ⟨header, [], s, offset⟩
    return Finding.failures [result]

/-- The reader of the body of a block, if the block is no sticky note. -/
def ofHeader? (partials : List TablePartial) (header : Header) : Option BodyReader :=
  match header.kind with
  | .project => some settings
  | .table => some (entries partials)
  | .tablePartial => some (entries partials)
  | .tableGroup => some tableGroup
  | .enum => some enumValues
  | .stickyNote => none
  | .refBlock => some (references header)
  | .refShort => some (shortReference header)

/-- The reader of the inside of a group that the given word begins. -/
def ofWord? (partials : List TablePartial) (word : Text) : Option BodyReader :=
  if splitKeyword? ['i', 'n', 'd', 'e', 'x', 'e', 's'] word = some [] then some indexes
  else if splitKeyword? ['c', 'o', 'l', 'u', 'm', 'n', 's'] word = some [] then
    some (entries partials)
  else none

end BodyReader

/-! ## Runs -/

/-- Whether a loop that reads one entry after another, with blanks between them, comes to an offset
of a text. -/
inductive Comes {α : Type} (t : Text) (read : Nat → Checked (List α × Nat)) : Nat → Prop
  | first {p : Nat} (h : skipBlanks t 0 = .ok p) (hp : p < size t) : Comes t read p
  | next {p q finish : Nat} {found : List α} (hc : Comes t read p)
      (hr : read p = .ok (found, finish)) (h : skipBlanks t finish = .ok q) (hq : q < size t) :
      Comes t read q

/-- Whether a closed group stands at an offset of a body: what it begins with, the offset of its
brace, and what is inside of it. -/
def IsGroup (s : Text) (p : Nat) (word : Text) (opener : Nat) (inner : Text) : Prop :=
  ∃ rest length close, sliceFrom s p = .ok rest ∧ noteHeader? rest = none
    ∧ groupHeader? rest = some (word, length) ∧ subtract (p + length) 1 = .ok opener
    ∧ matchingClose s opener = .ok (some close) ∧ slice s (opener + 1) close = .ok inner

/-- Whether a reader is run on a text with a base offset: the text is the body of a block, or it is
inside of a group to which the reader of a body comes. -/
inductive Runs (t : Text) : BodyReader → Text → Nat → Prop
  | block {block : Block} {partials : List TablePartial} {reader : BodyReader}
      (h : block ∈ (Segment.ofText t).filterMap Segment.block?)
      (hr : BodyReader.ofHeader? partials block.header = some reader) :
      Runs t reader block.body block.offset
  | group {partials : List TablePartial} {s word inner : Text} {offset p opener : Nat}
      {reader : BodyReader} (h : Runs t (.entries partials) s offset)
      (hc : Comes s (readPart readBody s offset) p) (hg : IsGroup s p word opener inner)
      (hr : BodyReader.ofWord? partials word = some reader) :
      Runs t reader inner (offset + opener + 1)

/-- The part at a closed group is what is read inside of the group, with the offset behind the brace
as the base offset. -/
theorem IsGroup.readPart_eq {columns : Text → Nat → Checked (List TableEntry)} {s word inner : Text}
    {offset p opener : Nat} (h : IsGroup s p word opener inner) {partials : List TablePartial}
    {reader : BodyReader} (hr : BodyReader.ofWord? partials word = some reader) :
  (reader = .indexes ∧ ∃ next, readPart columns s offset p
      = do let indexes ← readIndexes inner (offset + opener + 1)
           return (indexes.map TableEntry.ofIndex, next))
    ∨ reader = .entries partials ∧ ∃ next, readPart columns s offset p
      = do let entries ← columns inner (offset + opener + 1)
           return (entries, next)
  := by
  obtain ⟨rest, length, close, hs, hn, hw, ho, hc, hi⟩ := h
  rw [BodyReader.ofWord?] at hr
  rw [readPart, hs, ok_bind, hn]
  dsimp only
  rw [hw]
  dsimp only
  rw [readGroup, ho, ok_bind, hc, ok_bind]
  dsimp only
  rw [hi, ok_bind, readSection]
  split at hr
  · rename_i hindexes
    cases hr
    left
    refine ⟨rfl, min (close + 1) (size s), ?_⟩
    rw [if_pos hindexes, bind_assoc]
    rfl
  · rename_i hindexes
    split at hr
    · rename_i hcolumns
      cases hr
      right
      refine ⟨rfl, min (close + 1) (size s), ?_⟩
      rw [if_neg hindexes, if_pos hcolumns]
    · cases hr

/-! ## Where readers are run -/

/-- A reader that goes from boundary to boundary only comes to boundaries. -/
theorem Comes.exists_at {α : Type} {t : Text} {read : Nat → Checked (List α × Nat)}
    (hread : ∀ p u, At t p u → ∃ result, Reads t (read p) result) {p : Nat} (h : Comes t read p) :
  ∃ u, At t p u
  := by
  have hskip {p q : Nat} {u : Text} (hu : At t p u) (h : skipBlanks t p = .ok q) : ∃ v, At t q v := by
    obtain ⟨q', hq, hs⟩ := hu.skipBlanks
    rw [hs] at h
    cases h
    exact ⟨_, hq⟩
  induction h with
  | first h hp => exact hskip (at_zero t) h
  | next hc hr h hq ih =>
    obtain ⟨u, hu⟩ := ih
    obtain ⟨result, finish, hf, hresult⟩ := hread _ u hu
    rw [hresult] at hr
    cases hr
    exact hskip hf h

/-- Every part of a body that the reader comes to starts at a boundary. -/
theorem exists_at_of_comes {s : Text} {offset p : Nat} (h : Comes s (readPart readBody s offset) p) :
  ∃ u, At s p u
  := by
  refine h.exists_at fun p u hu => ⟨_, hu.readPart offset ?_⟩
  intro inner start _
  exact readBody_eq inner start

/-- What is inside of a group stands behind its brace. -/
theorem IsGroup.exists_at {s word inner u : Text} {p opener : Nat} (hu : At s p u)
    (h : IsGroup s p word opener inner) :
  ∃ after, At s (opener + 1) (inner ++ after)
  := by
  obtain ⟨rest, length, close, hs, _, hw, ho, hc, hi⟩ := h
  rw [hu.sliceFrom_eq] at hs
  cases hs
  cases hword : TablePart.groupWord? u with
  | none =>
    rw [groupHeader?_eq_none hword] at hw
    cases hw
  | some group =>
    obtain ⟨blanks, v, _, ht, _, hheader⟩ := exists_groupHeader hword
    have hbrace := hu
    rw [ht] at hbrace
    have hbrace := hbrace.append
    rw [hheader, Option.some.injEq, Prod.mk.injEq] at hw
    rw [← hw.2] at ho
    have hopener : p + size (group.1 ++ blanks) = opener :=
      Except.ok.inj ((subtract_succ _).symm.trans ho)
    rw [hopener] at hbrace
    cases hg : splitGroup? ('{' :: v) with
    | none =>
      rw [hbrace.not_group hg] at hc
      cases hc
    | some inside =>
      obtain ⟨inner', rest⟩ := inside
      obtain ⟨hclose, hinner, _⟩ := hbrace.group hg
      rw [hclose] at hc
      cases hc
      rw [hinner] at hi
      cases hi
      obtain ⟨_, closer, _, hv⟩ := exists_of_splitGroup? hg
      obtain ⟨-, rfl⟩ := List.cons.inj hv
      exact ⟨closer :: rest, hbrace.cons_ascii (by decide)⟩

/-- A closed brace behind the word and the blanks that begin a group makes it a group of the body. -/
theorem At.isGroup {s u v word inner after : Text} {p opener length : Nat} (hu : At s p u)
    (hn : noteHeader? u = none) (hw : groupHeader? u = some (word, length))
    (ho : subtract (p + length) 1 = .ok opener) (hv : At s opener v)
    (hg : splitGroup? v = some (inner, after)) :
  IsGroup s p word opener inner
  := by
  obtain ⟨hclose, hinner, _⟩ := hv.group hg
  exact ⟨u, length, opener + 1 + size inner, hu.sliceFrom_eq, hn, hw, ho, hclose, hinner⟩

/-- A reader is run on what stands in the text at its base offset. -/
theorem Runs.exists_at {t s : Text} {reader : BodyReader} {offset : Nat}
    (h : Runs t reader s offset) :
  ∃ after, At t offset (s ++ after)
  := by
  induction h with
  | block h _ =>
    obtain ⟨before, after, ht, ho, _⟩ := Block.exists_opener_of_mem h
    exact ⟨after, before, ht, ho⟩
  | group _ hc hg _ ih =>
    obtain ⟨after, ht⟩ := ih
    obtain ⟨u, hu⟩ := exists_at_of_comes hc
    obtain ⟨inside, before, hs, ho⟩ := hg.exists_at hu
    rw [hs, List.append_assoc] at ht
    have hi := ht.append
    rw [List.append_assoc, ← ho, ← Nat.add_assoc] at hi
    exact ⟨inside ++ after, hi⟩

end Checked

/-! ## What readers report -/

/-- The kinds of problems that readers of bodies report. -/
def ProblemKind.ofBodies : List ProblemKind :=
  [.malformedLine, .unknownSection, .unknownPartial]

namespace Finding

/-- Whether a finding is placed in a text with a base offset, in front of what it is about. -/
def PointsInto (s : Text) (offset : Nat) (f : Finding) : Prop :=
  ∃ before rest, s = before ++ rest ∧ f.offset = some (offset + size before)
    ∧ f.problem.BeginsAt rest

variable {s : Text} {offset : Nat} {f : Finding}

/-- A finding that stands in a text by its end also points into it by its start. -/
theorem StandsIn.pointsInto (h : f.StandsIn (offset + size s) s) :
  f.PointsInto s offset
  := by
  obtain ⟨before, c, rest, rfl, _, ho, hp⟩ := h
  refine ⟨before, c :: rest, rfl, ?_, hp⟩
  rw [ho, startOf, size_append, ← Nat.add_assoc, Nat.add_sub_cancel]

/-- The finding at a malformed line points at that line. -/
theorem pointsInto_of_mem_lines {o : Nat} {line : Text} (h : (o, line) ∈ lines offset s)
    (form : LineForm) :
  (placed o (.malformedLine form (trim line))).PointsInto s offset
  := by
  obtain ⟨before, rest, hs, ho, _⟩ := exists_of_mem_lines h
  refine ⟨before, line ++ rest, hs, congrArg some ho, ?_⟩
  exact prefix_trimStart_append (trim_prefix_trimStart line) rest

/-- What is placed in a text is placed where the text stands in another one. -/
theorem PointsInto.exists_rest (h : f.PointsInto s offset) {t after : Text}
    (ht : Checked.At t offset (s ++ after)) :
  ∃ p rest, p ≤ size s ∧ f.offset = some (offset + p) ∧ Checked.sliceFrom t (offset + p) = .ok rest
    ∧ f.problem.BeginsAt rest
  := by
  obtain ⟨before, rest, rfl, ho, hp⟩ := h
  rw [List.append_assoc] at ht
  refine ⟨size before, rest ++ after, ?_, ho, ht.append.sliceFrom_eq, hp.append after⟩
  rw [size_append]
  apply Nat.le_add_right

end Finding

/-- The problems in the body of a table are among those that bodies have. -/
theorem TableEntry.kind_of_mem_findings {finish : Nat} {t : Text} {partials : List TablePartial}
    {f : Finding} (h : f ∈ findings partials (readAll finish t)) :
  f.problem.kind ∈ ProblemKind.ofBodies
  := by
  obtain ⟨entry, he, hf⟩ := List.mem_filterMap.mp h
  cases entry with
  | problem g =>
    cases hf
    rcases kind_of_mem_readAll he with h | h <;> rw [h] <;> decide
  | injection name offset =>
    rw [finding?] at hf
    split at hf
    · cases hf
    · cases hf
      exact (by decide : ProblemKind.unknownPartial ∈ ProblemKind.ofBodies)
  | column c => cases hf
  | index i => cases hf
  | note text => cases hf

namespace Checked.BodyReader

variable (s : Text) (offset : Nat)

/-- The findings at the body of a table are those of its entries. -/
theorem entries_findings (partials : List TablePartial) :
  (entries partials).findings s offset
    = .ok (TableEntry.findings partials (TableEntry.readAll (offset + size s) s))
  := by
  rw [findings, readBody_eq]
  rfl

/-- The findings at the body of an `indexes` block are those of its indexes. -/
theorem indexes_findings :
  indexes.findings s offset = .ok (Finding.failures (Index.readAll (offset + size s) s))
  := by
  rw [findings, readIndexes_eq]
  rfl

/-- The findings at the body of a table group are those of its entries. -/
theorem tableGroup_findings :
  tableGroup.findings s offset
    = .ok (Finding.failures (TableGroupEntry.readAll (offset + size s) s))
  := by
  rw [findings, readTableGroupEntries, gather_readTableGroupEntry (at_zero s)]
  rfl

/-- The findings at the body of an enum are those of its lines. -/
theorem enumValues_findings :
  enumValues.findings s offset = .ok (Finding.failures (EnumValue.readAll offset s))
  := by
  rw [findings, readEnumValues_eq]
  rfl

/-- The findings at the body of a project are those of its settings. -/
theorem settings_findings :
  settings.findings s offset = .ok (Finding.failures (Project.readAll (offset + size s) s))
  := by
  rw [findings, readSettings, gather_readSetting (at_zero s)]
  rfl

/-- The findings at a block of relationships are those of its lines. -/
theorem references_findings (header : Header) :
  (references header).findings s offset
    = .ok (Finding.failures (Relationship.readBlock ⟨header, [], s, offset⟩))
  := by
  rw [findings, readReferences_eq]
  rfl

/-- The finding at a one-line relationship is that of its line. -/
theorem shortReference_findings (header : Header) :
  (shortReference header).findings s offset
    = .ok (Finding.failures [Relationship.readShort ⟨header, [], s, offset⟩])
  := by
  rw [findings, readShort_eq]
  rfl

/-- A reader comes to its findings, each of them a problem with a body, and places them in front of
what they are about. -/
theorem exists_findings (reader : BodyReader) :
  ∃ found, reader.findings s offset = .ok found
    ∧ ∀ f ∈ found, f.problem.kind ∈ ProblemKind.ofBodies ∧ f.PointsInto s offset
  := by
  have hmalformed {f : Finding} (h : f.problem.kind = .malformedLine) :
      f.problem.kind ∈ ProblemKind.ofBodies := by
    rw [h]
    decide
  cases reader with
  | entries partials =>
    refine ⟨_, entries_findings s offset partials, fun f hf => ?_⟩
    exact ⟨TableEntry.kind_of_mem_findings hf, (TableEntry.standsIn_of_mem_findings hf).pointsInto⟩
  | indexes =>
    refine ⟨_, indexes_findings s offset, fun f hf => ?_⟩
    have hf := Finding.mem_failures.mp hf
    exact ⟨hmalformed (Index.kind_of_mem_readAll hf), (Index.standsIn_of_mem_readAll hf).pointsInto⟩
  | tableGroup =>
    refine ⟨_, tableGroup_findings s offset, fun f hf => ?_⟩
    have hf := Finding.mem_failures.mp hf
    exact ⟨hmalformed (TableGroupEntry.kind_of_mem_readAll hf),
      (TableGroupEntry.standsIn_of_mem_readAll hf).pointsInto⟩
  | enumValues =>
    refine ⟨_, enumValues_findings s offset, fun f hf => ?_⟩
    obtain ⟨o, line, hl, rfl⟩ := EnumValue.exists_line (Finding.mem_failures.mp hf)
    exact ⟨hmalformed rfl, Finding.pointsInto_of_mem_lines hl .enumValue⟩
  | settings =>
    refine ⟨_, settings_findings s offset, fun f hf => ?_⟩
    have hf := Finding.mem_failures.mp hf
    exact ⟨hmalformed (Project.kind_of_mem_readAll hf),
      (Project.standsIn_of_mem_readAll hf).pointsInto⟩
  | references header =>
    refine ⟨_, references_findings s offset header, fun f hf => ?_⟩
    obtain ⟨o, line, hl, rfl⟩ := Relationship.exists_line (Finding.mem_failures.mp hf)
    exact ⟨hmalformed rfl, Finding.pointsInto_of_mem_lines hl .relationship⟩
  | shortReference header =>
    refine ⟨_, shortReference_findings s offset header, fun f hf => ?_⟩
    have hr := List.mem_singleton.mp (Finding.mem_failures.mp hf)
    rw [Relationship.eq_of_readLine hr.symm]
    exact ⟨hmalformed rfl, [], s, rfl, rfl, trim_prefix_trimStart s⟩

end Checked.BodyReader

/-! ## Documents -/

namespace Checked

/-- Whether a finding is reported by a reader that is run on a part of a text. -/
def Reported (t : Text) (f : Finding) : Prop :=
  ∃ reader s offset found, Runs t reader s offset ∧ reader.findings s offset = .ok found ∧ f ∈ found

section

variable {t : Text} {block : Block} {f : Finding}
  (h : block ∈ (Segment.ofText t).filterMap Segment.block?)

include h

/-- A finding in the body of a table or a partial is reported by one of the readers that run over
the text. -/
theorem reported_of_mem_findings {partials : List TablePartial}
    (hk : block.header.kind = .table ∨ block.header.kind = .tablePartial)
    (hf : f ∈ TableEntry.findings partials block.entries) :
  Reported t f
  := by
  have hr : BodyReader.ofHeader? partials block.header = some (.entries partials) := by
    rw [BodyReader.ofHeader?]
    rcases hk with hk | hk <;> rw [hk]
  exact ⟨_, _, _, _, .block h hr, BodyReader.entries_findings _ _ partials, hf⟩

/-- A finding in the body of any other block is reported by one of the readers that run over the
text. -/
theorem reported_of_mem_bodyFindings (hf : f ∈ block.bodyFindings) :
  Reported t f
  := by
  rw [Block.bodyFindings] at hf
  split at hf
  · rename_i hk
    have hr : BodyReader.ofHeader? [] block.header = some .enumValues := by
      rw [BodyReader.ofHeader?, hk]
    exact ⟨_, _, _, _, .block h hr, BodyReader.enumValues_findings _ _, hf⟩
  · rename_i hk
    have hr : BodyReader.ofHeader? [] block.header = some .tableGroup := by
      rw [BodyReader.ofHeader?, hk]
    exact ⟨_, _, _, _, .block h hr, BodyReader.tableGroup_findings _ _, hf⟩
  · rename_i hk
    have hr : BodyReader.ofHeader? [] block.header = some (.shortReference block.header) := by
      rw [BodyReader.ofHeader?, hk]
    rw [Block.relationships, hk] at hf
    exact ⟨_, _, _, _, .block h hr, BodyReader.shortReference_findings _ _ _, hf⟩
  · rename_i hk
    have hr : BodyReader.ofHeader? [] block.header = some (.references block.header) := by
      rw [BodyReader.ofHeader?, hk]
    rw [Block.relationships, hk] at hf
    exact ⟨_, _, _, _, .block h hr, BodyReader.references_findings _ _ _, hf⟩
  · cases hf

end

/-- Every finding in a body is reported by one of the readers that run over the text, whichever
blocks come before it. -/
theorem reported_of_mem_findingsAfter {t : Text} {f : Finding} {projectSeen : Bool}
    {blocks : List Block} (h : ∀ block ∈ blocks, block ∈ (Segment.ofText t).filterMap Segment.block?)
    (hk : f.problem.kind ∈ ProblemKind.ofBodies) (hf : f ∈ Block.findingsAfter projectSeen blocks) :
  Reported t f
  := by
  induction blocks generalizing projectSeen with
  | nil => cases hf
  | cons block blocks ih =>
    obtain ⟨hb, h⟩ := List.forall_mem_cons.mp h
    rw [Block.findingsAfter] at hf
    split at hf
    · rename_i hproject
      split at hf
      · rcases List.mem_cons.mp hf with rfl | hf
        · exact absurd hk (by decide : ProblemKind.duplicateDeclaration ∉ ProblemKind.ofBodies)
        · exact ih h hf
      · rcases List.mem_append.mp hf with hf | hf
        · have hr : BodyReader.ofHeader? [] block.header = some .settings := by
            rw [BodyReader.ofHeader?, hproject]
          exact ⟨_, _, _, _, .block hb hr, BodyReader.settings_findings _ _, hf⟩
        · exact ih h hf
    · rcases List.mem_append.mp hf with hf | hf
      · exact reported_of_mem_bodyFindings hb hf
      · exact ih h hf

/-- Every problem with a body is reported by a reader of a body. -/
theorem reported_of_mem_ofText {policy : MergePolicy} {t : Text} {f : Finding}
    (h : f ∈ (Document.ofText policy t).2) (hk : f.problem.kind ∈ ProblemKind.ofBodies) :
  Reported t f
  := by
  have hkind {block : Block} {kind : BlockKind}
      (hb : block ∈ Block.ofKind kind ((Segment.ofText t).filterMap Segment.block?)) :
      block.header.kind = kind := by
    simpa using (List.mem_filter.mp hb).2
  rcases List.mem_append.mp h with h | h
  · rcases List.mem_append.mp h with h | h
    · obtain ⟨s, hs, hf⟩ := List.mem_filterMap.mp h
      rcases Segment.kind_of_finding? hs hf with h | h <;> rw [h] at hk
      all_goals exact absurd hk (by decide)
    · rcases List.mem_append.mp h with h | h
      · rcases List.mem_append.mp h with h | h
        · obtain ⟨block, hb, earlier, hf⟩ := TablePartial.exists_of_mem_ofBlocksAfter h
          exact reported_of_mem_findings (List.mem_of_mem_filter hb) (.inr (hkind hb)) hf
        · obtain ⟨block, hb, hf⟩ := List.mem_flatMap.mp h
          exact reported_of_mem_findings (List.mem_of_mem_filter hb) (.inl (hkind hb)) hf
      · exact reported_of_mem_findingsAfter (fun _ hb => hb) hk h
  · obtain ⟨r, _, hf⟩ := List.mem_flatMap.mp h
    obtain ⟨name, _, rfl⟩ := List.mem_map.mp hf
    exact absurd hk (by decide : ProblemKind.unresolvedEndpoint ∉ ProblemKind.ofBodies)

end Checked

/-- Every reader of a body is run on the part of the document that begins at its base offset, at any
depth.  It comes to its findings, and each of them is placed in that part, in front of the line, the
item or the word of a group that it is about.  All such problems with a document are found by
readers of bodies. -/
theorem offsets_point_at_text (policy : MergePolicy) (source : String) :
  let t := stripComments source.toList
  (∀ reader s offset, Checked.Runs t reader s offset →
    Checked.slice t offset (offset + size s) = .ok s
      ∧ ∃ found, reader.findings s offset = .ok found
        ∧ ∀ f ∈ found, f.problem.kind ∈ ProblemKind.ofBodies
          ∧ ∃ p rest, p ≤ size s ∧ f.offset = some (offset + p)
            ∧ Checked.sliceFrom t (offset + p) = .ok rest ∧ f.problem.BeginsAt rest)
    ∧ ∀ f ∈ (Document.ofText policy t).2, f.problem.kind ∈ ProblemKind.ofBodies →
      Checked.Reported t f
  := by
  intro t
  constructor
  · intro reader s offset h
    obtain ⟨after, ht⟩ := h.exists_at
    obtain ⟨found, hfound, hf⟩ := reader.exists_findings s offset
    refine ⟨ht.slice_eq, found, hfound, fun f hm => ?_⟩
    obtain ⟨hk, hp⟩ := hf f hm
    exact ⟨hk, hp.exists_rest ht⟩
  · intro f hf hk
    exact Checked.reported_of_mem_ofText hf hk

/-- A mark that is no index, in a group of indexes in a group of columns, is reported at its own
offset. -/
theorem offset_in_nested_groups_points_at_mark :
  let t := stripComments "Table t \x7bcolumns \x7bindexes \x7b # \x7d\n~p\x7d\x7d".toList
  let mark : Finding := ⟨some 28, .malformedLine .index ['#']⟩
  Checked.Runs t .indexes [' ', '#', ' '] 27
    ∧ Checked.slice t 27 30 = .ok [' ', '#', ' ']
    ∧ Checked.BodyReader.indexes.findings [' ', '#', ' '] 27 = .ok [mark]
    ∧ (∃ rest, Checked.sliceFrom t 28 = .ok rest ∧ mark.problem.BeginsAt rest)
    ∧ Checked.Reported t mark
  := by
  intro t mark
  let body := "columns \x7bindexes \x7b # \x7d\n~p\x7d".toList
  let inside := "indexes \x7b # \x7d\n~p".toList
  have hblock : ⟨⟨.table, none, some ['t'], none⟩, [], body, 9⟩
      ∈ (Segment.ofText t).filterMap Segment.block? := by
    decide +kernel
  have hbody : Checked.Runs t (.entries []) body 9 := .block hblock rfl
  have hcolumns : Checked.Runs t (.entries []) inside (9 + 8 + 1) := by
    have hp : Checked.skipBlanks body 0 = .ok 0 := by decide +kernel
    have hw : Checked.groupHeader? body = some ("columns".toList, 9) := by decide +kernel
    have hv : Checked.At body 8 "\x7bindexes \x7b # \x7d\n~p\x7d".toList :=
      ⟨"columns ".toList, by decide +kernel, by decide +kernel⟩
    have hs : splitGroup? "\x7bindexes \x7b # \x7d\n~p\x7d".toList = some (inside, []) := by
      decide +kernel
    have hg := (Checked.at_zero body).isGroup (by decide +kernel) hw rfl hv hs
    exact .group hbody (.first hp (by decide +kernel)) hg rfl
  have hindexes : Checked.Runs t .indexes [' ', '#', ' '] (18 + 8 + 1) := by
    have hp : Checked.skipBlanks inside 0 = .ok 0 := by decide +kernel
    have hw : Checked.groupHeader? inside = some ("indexes".toList, 9) := by decide +kernel
    have hv : Checked.At inside 8 "\x7b # \x7d\n~p".toList :=
      ⟨"indexes ".toList, by decide +kernel, by decide +kernel⟩
    have hs : splitGroup? "\x7b # \x7d\n~p".toList = some ([' ', '#', ' '], "\n~p".toList) := by
      decide +kernel
    have hg := (Checked.at_zero inside).isGroup (by decide +kernel) hw rfl hv hs
    exact .group hcolumns (.first hp (by decide +kernel)) hg rfl
  obtain ⟨hruns, hreported⟩ := offsets_point_at_text .tableWins
    "Table t \x7bcolumns \x7bindexes \x7b # \x7d\n~p\x7d\x7d"
  obtain ⟨hslice, found, hfound, hf⟩ := hruns .indexes [' ', '#', ' '] 27 hindexes
  have hmark : Checked.BodyReader.indexes.findings [' ', '#', ' '] 27 = .ok [mark] := by
    decide +kernel
  obtain rfl : found = [mark] := Except.ok.inj (hfound.symm.trans hmark)
  obtain ⟨hkind, p, rest, -, hp, hrest, hbegins⟩ := hf mark (List.mem_singleton_self mark)
  obtain rfl : p = 1 := by
    have := Option.some.inj hp
    omega
  have hmem : mark ∈ (Document.ofText .tableWins t).2 := by decide +kernel
  exact ⟨hindexes, hslice, hmark, ⟨rest, hrest, hbegins⟩, hreported mark hmem hkind⟩

end DatabaseMarkup
