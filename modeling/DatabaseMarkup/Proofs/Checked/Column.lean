import DatabaseMarkup.Proofs.Checked.Relationship
import DatabaseMarkup.Table.Column

/-!
# Checked columns

The reader of a column by offsets.  The search for the bracket that ends the type is taken up
again behind every array mark.
-/

namespace DatabaseMarkup.Checked

open Text Octets

/-! ## The end of the type -/

/-- A step of the search for the bracket that opens a group of settings. -/
def groupSearch (t : Text) (p : Nat) : Checked (Step Nat (Option Nat)) := do
  match ← findUnquoted t p (octet '[') with
  | some i =>
    if (bytes t)[i + 1]? = some (octet ']') then return .next (i + 2) else return .done (some i)
  | none => return .done none

/-- The type at the start of a text, and the text from the first group of settings on. -/
def splitType (t : Text) : Checked (Text × Text) := do
  match ← loop ((bytes t).length - ·) (groupSearch t) 0 with
  | some i => do
    let before ← slice t 0 i
    let groups ← sliceFrom t i
    return (before, groups)
  | none => return (t, [])

/-- The first lexeme of a text is a plain character exactly when the text starts with it. -/
theorem first_eq_plain_iff {d : Char} (hd : isQuote d = false) (c : Char) (t : Text) :
  (Lexeme.first c t).1 = .plain d ↔ c = d
  := by
  cases hc : isQuote c with
  | true =>
    obtain ⟨tail, ht⟩ := exists_quoted_first hc t
    rw [ht]
    constructor
    · nofun
    · rintro rfl
      rw [hc] at hd
      cases hd
  | false => rw [Lexeme.first_plain hc, Lexeme.plain.injEq]

/-- A bracket that an array mark begins with is passed over, and the first other one outside of
parentheses is where the type ends. -/
theorem cutAtGroup_eq (depth : Nat) (t : Text) :
  cutAtGroup depth (lexemes t)
    = match cutUnquoted '[' depth (lexemes t) with
      | none => (t, [])
      | some (before, after) =>
        if (after.drop 1).head? = some ']' then
          (before ++ '[' :: ']' :: (cutAtGroup 0 (lexemes (after.drop 2))).1,
            (cutAtGroup 0 (lexemes (after.drop 2))).2)
        else
          (before, after)
  := by
  fun_induction lexemes t generalizing depth with
  | case1 => rfl
  | case2 c t ih =>
    rw [cutAtGroup.eq_def, cutUnquoted, head_first]
    dsimp only
    rw [decide_eq_decide.mpr (first_eq_plain_iff rfl c t), Bool.and_comm]
    split
    · rename_i hc
      rw [Bool.and_eq_true, decide_eq_true_eq, decide_eq_true_eq] at hc
      obtain ⟨rfl, rfl⟩ := hc
      rw [Lexeme.first_plain rfl, ofLexemes_cons, ofLexemes_lexemes]
      dsimp only [Lexeme.text, List.singleton_append]
      cases t with
      | nil =>
        rw [lexemes]
        rfl
      | cons d u =>
        rw [lexemes]
        by_cases hd : d = ']'
        · subst hd
          rw [Lexeme.first_plain rfl]
          rfl
        · have hn : ¬(('[' :: d :: u).drop 1).head? = some ']' := mt Option.some.inj hd
          rw [if_neg hn]
          split
          · rename_i hp
            exact absurd ((first_eq_plain_iff rfl d u).mp (List.cons.inj hp).1) hd
          · rfl
    · rw [ih]
      cases cutUnquoted '[' (parenthesesAfter depth (Lexeme.first c t).1)
        (lexemes (Lexeme.first c t).2) with
      | none =>
        dsimp only [Option.map_none]
        rw [Lexeme.text_first_append]
      | some cut =>
        dsimp only [Option.map_some]
        split
        · rw [List.append_assoc]
        · rfl

/-- The search ends at the bracket that the type ends at. -/
theorem loop_groupSearch {text t : Text} {p : Nat} (h : At text p t) :
  loop ((bytes text).length - ·) (groupSearch text) p
    = .ok (if (cutAtGroup 0 (lexemes t)).2 = [] then none
        else some (p + size (cutAtGroup 0 (lexemes t)).1))
  := by
  have ha : IsAscii '[' := by decide
  have hf := h.findUnquoted_eq ha
  rw [cutAtGroup_eq]
  rw [cutAtUnquoted] at hf
  cases hc : cutUnquoted '[' 0 (lexemes t) with
  | none =>
    apply loop_done
    rw [groupSearch, hf, hc]
    rfl
  | some cut =>
    obtain ⟨before, after⟩ := cut
    obtain ⟨tail, rfl, ht⟩ := eq_append_of_cutAtUnquoted hc
    rw [ht] at h
    have hb := h.append
    have hn := hb.cons_ascii (by decide)
    rw [hc, Option.map_some] at hf
    dsimp only at hf
    dsimp only [List.drop_succ_cons, List.drop_zero]
    split
    · rename_i hm
      obtain ⟨v, rfl⟩ := List.head?_eq_some_iff.mp hm
      have hv := hn.cons_ascii (by decide)
      have hl : v.length < t.length := by
        rw [ht, List.length_append, List.length_cons, List.length_cons]
        omega
      have hs : groupSearch text p = .ok (.next (p + size before + 2)) := by
        rw [groupSearch, hf, ok_bind]
        exact if_pos ((hn.getElem?_eq_some_iff (by decide)).mpr hm)
      have h1 : ('[' : Char).utf8Size = 1 := rfl
      have h2 : (']' : Char).utf8Size = 1 := rfl
      have hd : ('[' :: ']' :: v).drop 2 = v := rfl
      rw [hd, loop_next hs, loop_groupSearch hv, size_append, size_cons, size_cons, h1, h2]
      · congr 3
        omega
      · rw [← ht] at h
        exact h.sub_lt_sub hv hl
    · rename_i hm
      apply loop_done
      rw [groupSearch, hf, ok_bind]
      exact if_neg (mt (hn.getElem?_eq_some_iff (by decide)).mp hm)
termination_by t.length

/-- The type of a column and what stands behind it make up the line. -/
theorem cutAtGroup_append (depth : Nat) (ls : List Lexeme) :
  (cutAtGroup depth ls).1 ++ (cutAtGroup depth ls).2 = ofLexemes ls
  := by
  fun_induction cutAtGroup depth ls with
  | case1 => rfl
  | case2 depth l hc ls before after hcut ih =>
    rw [hcut] at ih
    rw [Bool.and_eq_true, decide_eq_true_eq] at hc
    rw [hc.1, ofLexemes_cons, ofLexemes_cons, ← ih]
    rfl
  | case3 => rfl
  | case4 depth l ls hc before after hcut ih =>
    rw [hcut] at ih
    rw [ofLexemes_cons, ← ih, List.append_assoc]

/-- The type of a column is cut off by offsets before the first group at the top level. -/
theorem splitType_eq (t : Text) :
  splitType t = .ok (cutAtGroup 0 (lexemes t))
  := by
  have ht := cutAtGroup_append 0 (lexemes t)
  rw [ofLexemes_lexemes] at ht
  rw [splitType, loop_groupSearch (at_zero t), ok_bind]
  generalize cutAtGroup 0 (lexemes t) = cut at ht ⊢
  obtain ⟨before, groups⟩ := cut
  subst ht
  dsimp only
  split
  · rename_i hg
    split at hg
    · cases hg
    · cases hg
      have h := at_zero (before ++ groups)
      rw [h.slice_eq, ok_bind, h.append.sliceFrom_eq]
      rfl
  · rename_i hg
    split at hg
    · rename_i hn
      rw [hn, List.append_nil]
      rfl
    · cases hg

/-! ## Columns -/

/-- What an attribute means for a column. -/
def withAttribute (column : Column) : Attribute → Checked Column
  | .flag name => return column.withFlag name
  | .pair key value =>
    if key = "ref" then do
      match ← readInlineRef value.content.toList with
      | some target => return { column with inlineRef := some target }
      | none => return column
    else
      return column.withPair key value

/-- The name at the start of a line and what stands behind the blanks after it. -/
def splitColumn? (line : Text) : Option (Text × Text) := do
  let (name, rest) ← splitName? line
  let rest ← splitBlanks? rest
  return (name, rest)

/-- The column that a line describes. -/
def readColumn (line : Text) : Checked (Option Column) :=
  match splitColumn? line with
  | none => return none
  | some (name, rest) => do
    let (dataType, groups) ← splitType rest
    let dataType := trim dataType
    if isType dataType then
      let (settings, finish) ← readGroups groups
      let behind ← sliceFrom groups finish
      if allBlank behind then
        let name ← unquoteName name
        let dataType ← unquoteName dataType
        let column ← settings.foldlM withAttribute { name, dataType, settings }
        return some (if column.isPrimaryKey then
          { column with isNotNull := true, isNullable := false } else column)
      else
        return none
    else
      return none

/-- A setting is entered by offsets into a column as `Column.withAttribute` enters it. -/
theorem withAttribute_eq (column : Column) (a : Attribute) :
  withAttribute column a = .ok (column.withAttribute a)
  := by
  cases a with
  | flag name => rfl
  | pair key value =>
    rw [withAttribute, Column.withAttribute]
    split
    · rename_i hk
      subst hk
      rw [readInlineRef_eq, ok_bind, Column.withPair, if_neg (by decide), if_neg (by decide),
        if_pos rfl]
      cases InlineRef.read? value.content.toList <;> rfl
    · rfl

/-- The blanks around a quoted text do not matter to its content. -/
theorem unquote_trim (t : Text) :
  Text.unquote (trim t) = Text.unquote t
  := by
  rw [Text.unquote, trim_trim, Text.unquote]

/-- A line is read by offsets as the column that it declares. -/
theorem readColumn_eq (line : Text) :
  readColumn line = .ok (Column.read? line)
  := by
  rw [readColumn, splitColumn?, Column.read?]
  cases splitName? line with
  | none => rfl
  | some n =>
    obtain ⟨name, rest⟩ := n
    simp only [Option.bind_eq_bind, Option.bind_some]
    cases splitBlanks? rest with
    | none => rfl
    | some rest =>
      obtain ⟨q, hq, hg⟩ := readGroups_eq (cutAtGroup 0 (lexemes rest)).2
      simp only [Option.bind_some, Option.pure_def]
      rw [splitType_eq, ok_bind]
      split
      · rename_i ht
        rw [hg, ok_bind]
        dsimp only
        rw [hq.sliceFrom_eq, ok_bind, ht, Bool.true_and]
        split
        · rw [unquoteName_eq, ok_bind, unquoteName_eq, ok_bind,
            foldlM_eq fun column a => withAttribute_eq column a, unquote_trim]
          rfl
        · rfl
      · rename_i ht
        rw [eq_false_of_ne_true ht]
        rfl

end DatabaseMarkup.Checked
