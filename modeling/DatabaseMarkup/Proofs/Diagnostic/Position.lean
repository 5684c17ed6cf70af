import DatabaseMarkup.Proofs.Diagnostic.Place

/-!
# Positions of diagnostics

A problem is located in the stripped text, whose bytes stand at the offsets that they have in the
source.  `diagnostics_stand_in_source` compares the position that is reported with the one in the
source: the line is the same, and so is the column unless a comment on that line holds characters
beyond ASCII.  Each of these leaves as many spaces behind as it has bytes, whatever its width, so
that the reported column counts bytes of comments and not the columns of the source.
-/

namespace DatabaseMarkup

open Text

/-- A diagnostic between two parts of a text has the position at the end of the first one. -/
theorem Diagnostic.position_ofFinding {before after : Text} {f : Finding}
    (hf : f.offset = some (size before)) :
  Position.mk (ofFinding (.ofText (before ++ after)) f).line
      (ofFinding (.ofText (before ++ after)) f).column
    = Position.after before
  := by
  rw [ofFinding, hf]
  dsimp only
  rw [placed, LineIndex.locate_size]

/-- The diagnostics of a report are the problems with the stripped text in some order, and the place
of each of them is a place of the source at the same offset.  The line that is reported is the line
of the source, and the column is that of the stripped text, which is the column of the source if no
character beyond ASCII was blanked in front of it on that line. -/
theorem diagnostics_stand_in_source (policy : MergePolicy) (source : String) :
  let t := stripComments source.toList
  let findings := (Document.ofText policy t).2
  (Report.ofSource policy source).diagnostics.Perm (findings.map (Diagnostic.ofFinding (.ofText t)))
    ∧ ∀ f ∈ findings, ∀ o, f.offset = some o →
        let d := Diagnostic.ofFinding (.ofText t) f
        let position := (LineIndex.ofText source.toList).locate o
        ∃ before after before' after',
          source.toList = before ++ after ∧ t = before' ++ after'
            ∧ o = size before ∧ o = size before' ∧ position = Position.after before
            ∧ Position.mk d.line d.column = Position.after before'
            ∧ d.line = position.line
            ∧ (beyondAscii (lastLine before) = beyondAscii (lastLine before') →
                d.column = position.column)
  := by
  intro t findings
  refine ⟨List.mergeSort_perm _ _, ?_⟩
  intro f hf o ho d position
  rcases Document.exists_place hf with h | ⟨before', after', ht, ho', ha, _⟩
  · rw [h] at ho
    cases ho
  · obtain ⟨before, after, hx, hb⟩ := exists_blanking ht ha
    rw [ho, Option.some.injEq] at ho'
    have hposition : position = Position.after before := by
      rw [← LineIndex.locate_size before after, hb.size_eq, ← ho', ← hx]
    have hd : Position.mk d.line d.column = Position.after before' := by
      have hf : f.offset = some (size before') := ho.trans (congrArg some ho')
      have h := @Diagnostic.position_ofFinding before' after' f hf
      rwa [← ht] at h
    have hline : d.line = position.line := by
      rw [hposition, Position.after, Position.afterBy, hb.count_newline_eq]
      exact congrArg Position.line hd
    refine ⟨before, after, before', after', hx, ht, ?_, ho', hposition, hd, hline, ?_⟩
    · rw [ho', hb.size_eq]
    · intro hascii
      rw [hposition, Position.after, Position.afterBy, hb.displayWidth_eq hascii]
      exact congrArg Position.column hd

/-- The two bytes of a letter in a comment move the column, in which the letter takes one. -/
theorem comment_beyond_ascii_moves_column :
  let source := "/* é */ ???"
  (Document.ofText .tableWins (stripComments source.toList)).2.map Finding.offset = [some 9]
    ∧ (Report.ofSource .tableWins source).diagnostics.map (fun d => (d.line, d.column)) = [(1, 10)]
    ∧ (LineIndex.ofText source.toList).locate 9 = ⟨1, 9⟩
  := by
  decide +kernel

end DatabaseMarkup
