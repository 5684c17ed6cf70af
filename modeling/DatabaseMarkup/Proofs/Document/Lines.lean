import DatabaseMarkup.Proofs.Diagnostic.Order
import DatabaseMarkup.Proofs.Diagnostic.Place
import DatabaseMarkup.Proofs.Document.Injection

/-!
# Bodies that are read line by line

The body of an enum has one value on every line, and that of a block of references one relationship.
`Accounts` goes through the lines of such a body and says what each of them comes to.
`lines_are_accounted_for` states that every line which is not blank is either read or reported under
its own number, whatever the other lines are, and that all of this is found in the report in the
order of the lines.
-/

namespace DatabaseMarkup

open Text

/-- Whether lines, of which the first one has the number `n`, come to the given things and
diagnostics: a blank line to nothing, and any other one to what it is read as or, if it is not read,
to a diagnostic with its number and its text. -/
inductive Accounts {α : Type} (read? : Text → Option α) (form : LineForm) :
    Nat → List Text → List α → List Diagnostic → Prop
  | nil (n : Nat) : Accounts read? form n [] [] []
  | blank {n : Nat} {line : Text} {lines : List Text} {as : List α} {ds : List Diagnostic}
      (hb : ∀ c ∈ line, Unicode.isBlank c) (h : Accounts read? form (n + 1) lines as ds) :
      Accounts read? form n (line :: lines) as ds
  | read {n : Nat} {line : Text} {lines : List Text} {a : α} {as : List α} {ds : List Diagnostic}
      (hb : ∃ c ∈ line, Unicode.isBlank c = false) (hr : read? line = some a)
      (h : Accounts read? form (n + 1) lines as ds) :
      Accounts read? form n (line :: lines) (a :: as) ds
  | malformed {n : Nat} {line : Text} {lines : List Text} {as : List α} {d : Diagnostic}
      {ds : List Diagnostic} (hb : ∃ c ∈ line, Unicode.isBlank c = false) (hr : read? line = none)
      (hk : d.kind = .malformedLine) (hl : d.line = n)
      (hm : d.message = (Problem.malformedLine form (trim line)).message)
      (h : Accounts read? form (n + 1) lines as ds) :
      Accounts read? form n (line :: lines) as (d :: ds)

namespace Accounts

section

variable {α : Type} {read? : Text → Option α} {form : LineForm} {n : Nat} {lines : List Text}
  {as : List α} {ds : List Diagnostic}

/-- No diagnostic of the lines is on a line before them. -/
theorem le_line (h : Accounts read? form n lines as ds) :
  ∀ d ∈ ds, n ≤ d.line
  := by
  induction h with
  | nil => exact List.forall_mem_nil _
  | blank _ _ ih => exact fun d hd => Nat.le_of_succ_le (ih d hd)
  | read _ _ _ ih => exact fun d hd => Nat.le_of_succ_le (ih d hd)
  | malformed _ _ _ hl _ _ ih =>
    rintro d (_ | ⟨_, hd⟩)
    · exact Nat.le_of_eq hl.symm
    · exact Nat.le_of_succ_le (ih d hd)

/-- The diagnostics stand in the order of their lines. -/
theorem pairwise_precedes (h : Accounts read? form n lines as ds) (hn : n ≠ 0) :
  ds.Pairwise fun d e => d.precedes e
  := by
  induction h with
  | nil => exact List.Pairwise.nil
  | blank _ _ ih => exact ih (Nat.succ_ne_zero _)
  | read _ _ _ ih => exact ih (Nat.succ_ne_zero _)
  | malformed _ _ _ hl _ h ih =>
    apply List.pairwise_cons.mpr
    refine ⟨?_, ih (Nat.succ_ne_zero _)⟩
    intro e he
    have := h.le_line e he
    rw [Diagnostic.precedes_iff]
    omega

end

end Accounts

/-! ## Reading the lines -/

theorem Text.exists_not_isBlank {line : Text} (h : allBlank line = false) :
  ∃ c ∈ line, Unicode.isBlank c = false
  := by
  simpa [allBlank] using h

/-- The lines of a text, with newlines between them, make up the text. -/
theorem Text.intercalate_splitWhere_newline (t : Text) :
  ['\n'].intercalate (splitWhere (fun c => c == '\n') t) = t
  := by
  rcases eq_firstLine_or t with ht | ⟨l, u, hl, rfl⟩
  · rw [splitWhere_eq_singleton (beq_newline_of_notMem ht), List.intercalate_singleton]
  · have ih := intercalate_splitWhere_newline u
    obtain ⟨m, ms, hm⟩ := List.exists_cons_of_ne_nil (splitWhere_ne_nil (fun c => c == '\n') u)
    rw [hm] at ih
    rw [splitWhere_append_cons (beq_newline_of_notMem hl) rfl, hm, List.intercalate_cons_cons, ih,
      List.append_assoc, List.singleton_append]
termination_by t.length
decreasing_by
  subst_vars
  rw [List.length_append, List.length_cons]
  omega

section

variable {α : Type} {read? : Text → Option α} {form : LineForm}
  {read : Nat → Text → Except Finding α}

/-- What the lines of a text that begins at an offset are read as. -/
def readVisible (read : Nat → Text → Except Finding α) (offset : Nat) (lines : List Text) :
    List (Except Finding α) :=
  ((linesFrom offset lines).filter fun (_, line) => !allBlank line).map fun (o, line) => read o line

/-- Blank lines are left out, and every line moves the offset past its newline. -/
theorem readVisible_cons (offset : Nat) (line : Text) (lines : List Text) :
  readVisible read offset (line :: lines)
    = if allBlank line then readVisible read (offset + size line + 1) lines
      else read offset line :: readVisible read (offset + size line + 1) lines
  := by
  rw [readVisible, linesFrom, filter_visible, List.map_append]
  split <;> rfl

variable (hread : ∀ o line, read o line = match read? line with
  | some a => .ok a
  | none => .error (.placed o (.malformedLine form (trim line))))

include hread

/-- A line comes to what is read of it, in front of what the lines behind it come to. -/
theorem accounts_cons {index : LineIndex} {offset n : Nat} {line : Text} {lines : List Text}
    (hn : (index.locate offset).line = n)
    (h : Accounts read? form (n + 1) lines
      (Finding.successes (readVisible read (offset + size line + 1) lines))
      ((Finding.failures (readVisible read (offset + size line + 1) lines)).map
        (Diagnostic.ofFinding index))) :
  Accounts read? form n (line :: lines)
    (Finding.successes (readVisible read offset (line :: lines)))
    ((Finding.failures (readVisible read offset (line :: lines))).map (Diagnostic.ofFinding index))
  := by
  rw [readVisible_cons]
  split
  · rename_i hb
    exact .blank (List.all_eq_true.mp hb) h
  · rename_i hb
    have hb := exists_not_isBlank (eq_false_of_ne_true hb)
    rw [hread]
    cases hr : read? line with
    | some a => exact .read hb hr h
    | none => exact .malformed hb hr rfl hn rfl h

/-- The lines of a part of a text are read one by one. -/
theorem accounts_readVisible (above body after : Text) :
  let lines := splitWhere (fun c => c == '\n') body
  Accounts read? form (1 + above.count '\n') lines
    (Finding.successes (readVisible read (size above) lines))
    ((Finding.failures (readVisible read (size above) lines)).map
      (Diagnostic.ofFinding (.ofText (above ++ (body ++ after)))))
  := by
  have hn (u : Text) : ((LineIndex.ofText (above ++ u)).locate (size above)).line
      = 1 + above.count '\n' := congrArg Position.line (LineIndex.locate_size above u)
  rcases eq_firstLine_or body with hb | ⟨l, u, hl, rfl⟩
  · dsimp only
    rw [splitWhere_eq_singleton (beq_newline_of_notMem hb)]
    exact accounts_cons hread (hn _) (.nil _)
  · have ih := accounts_readVisible (above ++ (l ++ ['\n'])) u after
    have h1 : ('\n' : Char).utf8Size = 1 := rfl
    have hs : size (above ++ (l ++ ['\n'])) = size above + size l + 1 := by
      rw [size_append, size_append, size_cons, h1, size_nil, Nat.add_assoc]
    have hc : 1 + (above ++ (l ++ ['\n'])).count '\n' = 1 + above.count '\n' + 1 := by
      rw [List.count_append, List.count_append, List.count_eq_zero_of_not_mem hl, Nat.zero_add]
      rfl
    have ht : above ++ (l ++ ['\n']) ++ (u ++ after) = above ++ (l ++ '\n' :: u ++ after) := by simp
    dsimp only at ih ⊢
    rw [hs, hc, ht] at ih
    rw [splitWhere_append_cons (beq_newline_of_notMem hl) rfl]
    exact accounts_cons hread (hn _) ih
termination_by body.length
decreasing_by
  subst_vars
  rw [List.length_append, List.length_cons]
  omega

end

/-! ## Blocks -/

namespace Block

variable {t : Text} {block : Block}

/-- The problems with a block that is no project are among those with all blocks. -/
theorem bodyFindings_sublist_findingsAfter {projectSeen : Bool} {blocks : List Block}
    (h : block ∈ blocks) (hk : block.header.kind ≠ .project) :
  block.bodyFindings.Sublist (findingsAfter projectSeen blocks)
  := by
  induction blocks generalizing projectSeen with
  | nil => cases h
  | cons b blocks ih =>
    rw [findingsAfter]
    rcases List.mem_cons.mp h with rfl | h
    · rw [if_neg hk]
      apply List.sublist_append_left
    · split
      · split
        · exact (ih h).cons _
        · exact (ih h).trans (List.sublist_append_right _ _)
      · exact (ih h).trans (List.sublist_append_right _ _)

end Block

/-- The problems with a block of a document are among those with the document. -/
theorem Document.bodyFindings_sublist (policy : MergePolicy) {t : Text} {block : Block}
    (h : block ∈ (Segment.ofText t).filterMap Segment.block?) (hk : block.header.kind ≠ .project) :
  block.bodyFindings.Sublist (ofText policy t).2
  := by
  have hb := @Block.bodyFindings_sublist_findingsAfter block false _ h hk
  exact ((hb.trans (List.sublist_append_right _ _)).trans (List.sublist_append_right _ _)).trans
    (List.sublist_append_left _ _)

/-- Whether the lines of the body of a block come one by one to the given things and to the problems
with the block, which the report of the source holds in this order. -/
def Block.LinesComeTo {α : Type} (policy : MergePolicy) (source : String) (block : Block)
    (read? : Text → Option α) (form : LineForm) (as : List α) : Prop :=
  let t := stripComments source.toList
  let ds := block.bodyFindings.map (Diagnostic.ofFinding (.ofText t))
  ∃ above lines after, t = above ++ (block.body ++ after) ∧ block.offset = size above
    ∧ block.body = ['\n'].intercalate lines ∧ (∀ line ∈ lines, '\n' ∉ line)
    ∧ Accounts read? form (1 + above.count '\n') lines as ds
    ∧ ds.Sublist (Report.ofSource policy source).diagnostics

/-- Every visible line of a block comes to one value or to one diagnostic at its place. -/
theorem Block.linesComeTo {α : Type} {policy : MergePolicy} {source : String} {block : Block}
    (h : block ∈ ofSource source) (hk : block.header.kind ≠ .project) {read? : Text → Option α}
    {form : LineForm} {read : Nat → Text → Except Finding α}
    (hread : ∀ o line, read o line = match read? line with
      | some a => .ok a
      | none => .error (.placed o (.malformedLine form (trim line))))
    (hf : block.bodyFindings = Finding.failures
      (readVisible read block.offset (splitWhere (fun c => c == '\n') block.body))) :
  block.LinesComeTo policy source read? form (Finding.successes
    (readVisible read block.offset (splitWhere (fun c => c == '\n') block.body)))
  := by
  obtain ⟨above, after, ht, ho, _⟩ := exists_opener_of_mem h
  have ha := accounts_readVisible hread above block.body after
  dsimp only at ha
  rw [← ho, ← ht, ← hf] at ha
  refine ⟨above, _, after, ht, ho, (intercalate_splitWhere_newline _).symm, ?_, ha, ?_⟩
  · intro line hl hn
    exact Bool.noConfusion (not_of_mem_splitWhere hl _ hn)
  · exact List.sublist_mergeSort Diagnostic.precedes_trans Diagnostic.precedes_total
      (ha.pairwise_precedes (by omega)) ((Document.bodyFindings_sublist policy h hk).map _)

/-- Every line of the body of an enum that is not blank becomes a value of the enum or else a
diagnostic with the number and the text of the line, and so does every line of a block of references
with relationships.  Blank lines become nothing.  Which of both a line becomes is up to the line
alone, and values, relationships and diagnostics are found in the report in the order of the
lines. -/
theorem lines_are_accounted_for (policy : MergePolicy) {source : String} {block : Block}
    (h : block ∈ Block.ofSource source) :
  let document := (Report.ofSource policy source).document
  (block.header.kind = .enum →
      Enum.ofBlock block ∈ document.enums
        ∧ block.LinesComeTo policy source EnumValue.readLine? .enumValue
          (Enum.ofBlock block).values)
    ∧ (block.header.kind = .refBlock →
        let declared := Finding.successes block.relationships
        (declared.map (Relationship.resolve document.tables)).Sublist document.relationships
          ∧ block.LinesComeTo policy source (Relationship.readLine? block.header.name)
            .relationship declared)
  := by
  intro document
  constructor
  · intro hk
    constructor
    · apply List.mem_map_of_mem
      exact List.mem_filter.mpr ⟨h, decide_eq_true hk⟩
    · refine @Block.linesComeTo _ _ _ _ h (by rw [hk]; decide) _ _ EnumValue.readLine ?_ ?_
      · intro o line
        rw [EnumValue.readLine]
        cases EnumValue.readLine? line <;> rfl
      · rw [Block.bodyFindings, hk]
        rfl
  · intro hk declared
    have hr : block.relationships = readVisible (Relationship.readLine block.header.name)
        block.offset (splitWhere (fun c => c == '\n') block.body) := by
      rw [Block.relationships, hk]
      rfl
    constructor
    · have hd : declared.Sublist ((Block.ofSource source).flatMap fun b =>
          Finding.successes b.relationships) := by
        obtain ⟨l, r, hl⟩ := List.append_of_mem h
        rw [hl, List.flatMap_append, List.flatMap_cons]
        exact (List.sublist_append_left _ _).trans (List.sublist_append_right _ _)
      exact (hd.map _).trans (List.sublist_append_left _ _)
    · have hl : block.LinesComeTo policy source (Relationship.readLine? block.header.name)
          .relationship (Finding.successes (readVisible (Relationship.readLine block.header.name)
            block.offset (splitWhere (fun c => c == '\n') block.body))) := by
        apply Block.linesComeTo h (by rw [hk]; decide)
        · intro o line
          rw [Relationship.readLine]
          cases Relationship.readLine? block.header.name line <;> rfl
        · rw [Block.bodyFindings, hk]
          exact congrArg Finding.failures hr
      rwa [← hr] at hl

/-- An enum and a block of references with a blank line, a line that is malformed between others, a
line whose settings are followed by other text, and a line whose list of columns is empty. -/
theorem lines_of_two_bodies_are_accounted_for :
  let source :=
    "enum e \x7b\n  a [note: x]\n\n  b [pk] c\n  d\x7d\nRef \x7b\n  x.y > z.()\n  x.y - z.w\n\x7d"
  (∃ e ∈ Block.ofSource source, e.header.kind = .enum
      ∧ (Enum.ofBlock e).values.map EnumValue.name = ["a", "d"]
      ∧ e.bodyFindings.map Finding.problem = [.malformedLine .enumValue "b [pk] c".toList]
      ∧ e.LinesComeTo .tableWins source EnumValue.readLine? .enumValue (Enum.ofBlock e).values)
    ∧ ∃ r ∈ Block.ofSource source, r.header.kind = .refBlock
        ∧ (Finding.successes r.relationships).map Relationship.kind = [.oneToOne]
        ∧ r.bodyFindings.map Finding.problem = [.malformedLine .relationship "x.y > z.()".toList]
        ∧ r.LinesComeTo .tableWins source (Relationship.readLine? r.header.name) .relationship
          (Finding.successes r.relationships)
  := by
  intro source
  have he : ∃ e ∈ Block.ofSource source, e.header.kind = .enum
      ∧ (Enum.ofBlock e).values.map EnumValue.name = ["a", "d"]
      ∧ e.bodyFindings.map Finding.problem = [.malformedLine .enumValue "b [pk] c".toList] := by
    decide +kernel
  have hr : ∃ r ∈ Block.ofSource source, r.header.kind = .refBlock
      ∧ (Finding.successes r.relationships).map Relationship.kind = [.oneToOne]
      ∧ r.bodyFindings.map Finding.problem
        = [.malformedLine .relationship "x.y > z.()".toList] := by
    decide +kernel
  obtain ⟨e, he, hk, hv, hf⟩ := he
  obtain ⟨r, hr, hkr, hs, hfr⟩ := hr
  refine ⟨⟨e, he, hk, hv, hf, ?_⟩, r, hr, hkr, hs, hfr, ?_⟩
  · exact ((lines_are_accounted_for .tableWins he).1 hk).2
  · exact ((lines_are_accounted_for .tableWins hr).2 hkr).2

end DatabaseMarkup
