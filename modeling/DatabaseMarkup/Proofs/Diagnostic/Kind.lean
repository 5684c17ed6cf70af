import DatabaseMarkup.Document.Reader
import DatabaseMarkup.Proofs.Block.Segment

/-!
# The kinds of problems that are found

Every reader finds problems of its own kinds only.  What no line of a body can be read as is a
malformed line, and so is a group or a note that is never closed; the other kinds are found by
`Segment.ofText`, by the body of a table, by an injection, by a second project and by an endpoint
that names nothing.
-/

namespace DatabaseMarkup

open Text

namespace Finding

theorem mem_failures {α : Type} {results : List (Except Finding α)} {f : Finding} :
  f ∈ failures results ↔ .error f ∈ results
  := by
  rw [failures, List.mem_filterMap]
  constructor
  · rintro ⟨result, hm, h⟩
    cases result with
    | ok a => cases h
    | error g =>
      cases h
      exact hm
  · intro h
    exact ⟨_, h, rfl⟩

end Finding

/-! ## Bodies of tables -/

/-- A note that is not read is a malformed line. -/
theorem Note.kind_of_split? {finish : Nat} {t rest : Text} {f : Finding}
    (h : split? finish t = some (.error f, rest)) :
  f.problem.kind = .malformedLine
  := by
  rw [split?] at h
  split at h
  · cases h
  · split at h
    · cases h
    · split at h
      · cases h
      · split at h
        · split at h
          · cases h
          · cases h
            rfl
        · cases h

theorem Index.kind_of_splitFirst {finish : Nat} {c : Char} {t : Text} {f : Finding}
    (h : (splitFirst finish c t).1 = .error f) :
  f.problem.kind = .malformedLine
  := by
  rw [splitFirst] at h
  split at h
  · cases h
  · cases h
    rfl

/-- An index that is not read is a malformed line. -/
theorem Index.kind_of_mem_readAll {finish : Nat} {t : Text} {f : Finding}
    (h : .error f ∈ readAll finish t) :
  f.problem.kind = .malformedLine
  := by
  fun_induction readAll finish t with
  | case1 => cases h
  | case2 t c u _ first ih =>
    rcases List.mem_cons.mp h with hf | h
    · exact kind_of_splitFirst hf.symm
    · exact ih h

namespace TablePart

/-- A part of a body that is not read is a malformed line or an unknown section. -/
theorem kind_of_splitFirst {finish : Nat} {t rest : Text} {entries : List TableEntry} {f : Finding}
    (hs : splitFirst finish t = (.entries entries, rest)) (h : .problem f ∈ entries) :
  f.problem.kind = .malformedLine ∨ f.problem.kind = .unknownSection
  := by
  rw [splitFirst] at hs
  split at hs
  · rename_i note rest hn
    cases hs
    cases note with
    | ok text => simp [TableEntry.ofNote] at h
    | error g =>
      obtain rfl : f = g := by simpa [TableEntry.ofNote] using h
      exact .inl (Note.kind_of_split? hn)
  · split at hs
    · split at hs
      · rw [ofGroup] at hs
        split at hs
        · cases hs
          obtain ⟨index, hi, hf⟩ := List.mem_map.mp h
          cases index with
          | ok i => cases hf
          | error g =>
            cases hf
            exact .inl (Index.kind_of_mem_readAll hi)
        · split at hs
          · cases hs
          · cases hs
            simp only [List.mem_singleton, TableEntry.problem.injEq] at h
            rw [h]
            exact .inr rfl
      · cases hs
        simp only [List.mem_singleton, TableEntry.problem.injEq] at h
        rw [h]
        exact .inl rfl
    · cases hs
      rw [List.mem_singleton, TableEntry.ofFirstLine] at h
      split at h
      · cases h
      · split at h
        · cases h
        · cases h
          exact .inl rfl

end TablePart

/-- The problems among the entries of a body are malformed lines and unknown sections. -/
theorem TableEntry.kind_of_mem_readAll {finish : Nat} {t : Text} {f : Finding}
    (h : .problem f ∈ readAll finish t) :
  f.problem.kind = .malformedLine ∨ f.problem.kind = .unknownSection
  := by
  fun_induction readAll finish t with
  | case1 => cases h
  | case2 finish t c u ht entries rest hs ih =>
    rcases List.mem_append.mp h with h | h
    · exact TablePart.kind_of_splitFirst hs h
    · exact ih h
  | case3 finish t c u ht innerFinish inner rest hs ihInner ih =>
    rcases List.mem_append.mp h with h | h
    · exact ihInner h
    · exact ih h

/-! ## Other bodies -/

/-- A value of an enum that is not read is a malformed line. -/
theorem EnumValue.kind_of_mem_readAll {offset : Nat} {body : Text} {f : Finding}
    (h : .error f ∈ readAll offset body) :
  f.problem.kind = .malformedLine
  := by
  obtain ⟨⟨o, line⟩, _, hf⟩ := List.mem_map.mp h
  have hr : readLine o line = .error f := hf
  rw [readLine] at hr
  split at hr
  · cases hr
  · cases hr
    rfl

theorem Relationship.kind_of_readLine {name : Option Text} {offset : Nat} {line : Text}
    {f : Finding} (h : readLine name offset line = .error f) :
  f.problem.kind = .malformedLine
  := by
  rw [readLine] at h
  split at h
  · cases h
  · cases h
    rfl

/-- A relationship that is not read is a malformed line. -/
theorem Block.kind_of_mem_relationships {block : Block} {f : Finding}
    (h : .error f ∈ block.relationships) :
  f.problem.kind = .malformedLine
  := by
  rw [relationships] at h
  split at h
  · exact Relationship.kind_of_readLine (List.mem_singleton.mp h).symm
  · obtain ⟨⟨o, line⟩, _, hf⟩ := List.mem_map.mp h
    exact Relationship.kind_of_readLine hf
  · cases h

theorem TableGroupEntry.kind_of_splitFirst {finish : Nat} {t : Text} {f : Finding}
    (h : (splitFirst finish t).1 = .error f) :
  f.problem.kind = .malformedLine
  := by
  rw [splitFirst] at h
  split at h
  · rename_i text rest hn
    cases text with
    | ok text => cases h
    | error g =>
      cases h
      exact Note.kind_of_split? hn
  · rw [ofFirstLine] at h
    split at h
    · cases h
    · split at h
      · cases h
      · cases h
        rfl

/-- An entry of a table group that is not read is a malformed line. -/
theorem TableGroupEntry.kind_of_mem_readAll {finish : Nat} {t : Text} {f : Finding}
    (h : .error f ∈ readAll finish t) :
  f.problem.kind = .malformedLine
  := by
  fun_induction readAll finish t with
  | case1 => cases h
  | case2 t c u _ first ih =>
    rcases List.mem_cons.mp h with hf | h
    · exact kind_of_splitFirst hf.symm
    · exact ih h

theorem Project.kind_of_splitFirst {finish : Nat} {t : Text} {f : Finding}
    (h : (splitFirst finish t).1 = .error f) :
  f.problem.kind = .malformedLine
  := by
  rw [splitFirst] at h
  dsimp only at h
  split at h
  · cases h
  · split at h
    · cases h
    · split at h
      · split at h
        · cases h
        · cases h
          rfl
      · cases h

/-- A setting of a project that is not read is a malformed line. -/
theorem Project.kind_of_mem_readAll {finish : Nat} {t : Text} {f : Finding}
    (h : .error f ∈ readAll finish t) :
  f.problem.kind = .malformedLine
  := by
  fun_induction readAll finish t with
  | case1 => cases h
  | case2 t c u _ first ih =>
    rcases List.mem_cons.mp h with hf | h
    · exact kind_of_splitFirst hf.symm
    · exact ih h

namespace Block

/-- The findings in the bodies of blocks other than tables are malformed lines. -/
theorem kind_of_mem_bodyFindings {block : Block} {f : Finding} (h : f ∈ block.bodyFindings) :
  f.problem.kind = .malformedLine
  := by
  rw [bodyFindings] at h
  split at h
  · exact EnumValue.kind_of_mem_readAll (Finding.mem_failures.mp h)
  · exact TableGroupEntry.kind_of_mem_readAll (Finding.mem_failures.mp h)
  · exact kind_of_mem_relationships (Finding.mem_failures.mp h)
  · exact kind_of_mem_relationships (Finding.mem_failures.mp h)
  · cases h

/-- The problems with blocks that are no tables or partials are malformed lines and projects
after the first one. -/
theorem kind_of_mem_findingsAfter {projectSeen : Bool} {blocks : List Block} {f : Finding}
    (h : f ∈ findingsAfter projectSeen blocks) :
  f.problem.kind = .malformedLine ∨ f.problem.kind = .duplicateDeclaration
  := by
  induction blocks generalizing projectSeen with
  | nil => cases h
  | cons block blocks ih =>
    rw [findingsAfter] at h
    split at h
    · split at h
      · rcases List.mem_cons.mp h with rfl | h
        · exact .inr rfl
        · exact ih h
      · rcases List.mem_append.mp h with h | h
        · exact .inl (Project.kind_of_mem_readAll (Finding.mem_failures.mp h))
        · exact ih h
    · rcases List.mem_append.mp h with h | h
      · exact .inl (kind_of_mem_bodyFindings h)
      · exact ih h

end Block

/-! ## Segments and endpoints -/

/-- A segment that is skipped is an unterminated block or an unknown declaration. -/
theorem Segment.kind_of_finding? {t : Text} {s : Segment} {f : Finding} (hs : s ∈ ofText t)
    (h : s.finding? = some f) :
  f.problem.kind = .unterminatedBlock ∨ f.problem.kind = .unknownDeclaration
  := by
  obtain ⟨before, after, hl⟩ := List.append_of_mem hs
  have ht := tiles_ofText t
  rw [hl] at ht
  obtain ⟨_, _, hh⟩ := ht.holds
  generalize s.span = span at hh
  rw [finding?] at h
  split at h
  · rename_i problem hp
    cases h
    rw [hp] at hh
    cases hh with
    | unclosed _ _ => exact .inl rfl
    | unknownLine _ _ _ _ => exact .inr rfl
    | unknownGroup _ _ _ => exact .inr rfl
  · cases h

/-- The findings at an assembled relationship are endpoints that are not resolved. -/
theorem Relationship.kind_of_mem_findings {tables : List Table} {r : Relationship} {f : Finding}
    (h : f ∈ r.findings tables) :
  f.problem.kind = .unresolvedEndpoint
  := by
  obtain ⟨name, _, rfl⟩ := List.mem_map.mp h
  rfl

end DatabaseMarkup
