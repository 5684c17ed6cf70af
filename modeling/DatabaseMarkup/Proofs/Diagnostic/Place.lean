import DatabaseMarkup.Proofs.Diagnostic.Kind
import DatabaseMarkup.Proofs.Text.Blanking
import DatabaseMarkup.Proofs.Text.Trim

/-!
# The places of findings

Readers find problems in a part of a document and count offsets from the end of the part.
`Finding.StandsIn` says that a finding is placed in a part of a text, in front of what it is about,
and does not depend on how deep the part is nested.  `Document.exists_place` says so of all findings
of a document: those that have a place stand between two parts of the text, where a line or a
visible character begins, or right behind the header of a block.
-/

namespace DatabaseMarkup

open Text

namespace Text

/-! ## What a trimmed line begins with -/

theorem prefix_trimStart_append {s t : Text} (h : s <+: trimStart t) (u : Text) :
  s <+: trimStart (t ++ u)
  := by
  by_cases ht : ∀ c ∈ t, Unicode.isBlank c
  · have hn : trimStart t = [] := List.dropWhile_eq_nil_iff.mpr ht
    rw [hn, List.prefix_nil] at h
    rw [h]
    apply List.nil_prefix
  · have ha : trimStart (t ++ u) = trimStart t ++ u := by
      rw [trimStart, trimStart, List.dropWhile_append, if_neg]
      rw [List.isEmpty_iff, List.dropWhile_eq_nil_iff]
      exact ht
    rw [ha]
    exact h.trans (List.prefix_append _ _)

theorem trim_prefix_trimStart (t : Text) :
  trim t <+: trimStart t
  := by
  rw [trim, trimEnd]
  have h := List.dropWhile_suffix (l := (trimStart t).reverse) Unicode.isBlank
  rw [← List.reverse_prefix, List.reverse_reverse] at h
  exact h

theorem prefix_trim_firstLine (t : Text) :
  trim (firstLine t) <+: trimStart t
  := by
  have h := prefix_trimStart_append (trim_prefix_trimStart (firstLine t)) (fromLineEnd t)
  rwa [firstLine_append_fromLineEnd] at h

/-! ## Ends of a text -/

theorem size_closer {opener closer : Char} (h : closerOf? opener = some closer) :
  closer.utf8Size = 1
  := by
  rw [closerOf?] at h
  split at h
  · cases h
    rfl
  · split at h
    · cases h
      rfl
    · split at h
      · cases h
        rfl
      · cases h

/-- Every line of a text stands in it, at the start of the text or behind a newline. -/
theorem exists_of_mem_lines {offset o : Nat} {t line : Text} (h : (o, line) ∈ lines offset t) :
  ∃ before after, t = before ++ (line ++ after) ∧ o = offset + size before
    ∧ (before = [] ∨ before.getLast? = some '\n')
  := by
  rcases eq_firstLine_or t with ht | ⟨l, u, hl, rfl⟩
  · rw [lines, splitWhere_eq_singleton (beq_newline_of_notMem ht)] at h
    rcases List.mem_cons.mp h with h | h
    · cases h
      exact ⟨[], [], (List.append_nil _).symm, rfl, .inl rfl⟩
    · cases h
  · rw [lines, splitWhere_append_cons (beq_newline_of_notMem hl) rfl] at h
    rcases List.mem_cons.mp h with h | h
    · cases h
      exact ⟨[], '\n' :: u, rfl, rfl, .inl rfl⟩
    · obtain ⟨before, after, rfl, ho, hb⟩ := exists_of_mem_lines (show (o, line) ∈ lines _ u from h)
      refine ⟨l ++ '\n' :: before, after, by simp, ?_, ?_⟩
      · have hn : ('\n' : Char).utf8Size = 1 := rfl
        rw [ho, size_append, size_cons, hn]
        omega
      · right
        rw [List.getLast?_append_of_ne_nil _ (List.cons_ne_nil _ _)]
        rcases hb with rfl | hb
        · rfl
        · rw [List.getLast?_cons, hb]
          rfl
termination_by t.length
decreasing_by
  subst_vars
  rw [List.length_append, List.length_cons]
  omega

end Text

/-! ## What a finding is about -/

/-- Whether a text begins with a word and the opening brace of its group, with nothing but blanks
between them. -/
def Text.OpensGroup (word t : Text) : Prop :=
  ∃ blanks, (∀ c ∈ blanks, Unicode.isBlank c) ∧ word ++ (blanks ++ ['{']) <+: t

/-- A group that a text opens is opened whatever follows. -/
theorem Text.OpensGroup.append {word t : Text} (h : OpensGroup word t) (u : Text) :
  OpensGroup word (t ++ u)
  := by
  obtain ⟨blanks, hb, hw⟩ := h
  exact ⟨blanks, hb, hw.trans (List.prefix_append t u)⟩

/-- Whether a problem is about what a text begins with, apart from blanks. -/
def Problem.BeginsAt (problem : Problem) (t : Text) : Prop :=
  match problem with
  | .malformedLine _ line => line <+: trimStart t
  | .unknownSection word => OpensGroup word t
  | .unclosedGroup => ∃ word, word ≠ [] ∧ OpensGroup word t
  | .unclosedNote =>
    ∃ word, splitKeyword? ['n', 'o', 't', 'e'] word = some [] ∧ OpensGroup word t
  | .unknownPartial name =>
    ∃ written, '~' :: written <+: trimStart t ∧ String.ofList (unquote written) = name
  | _ => True

/-- A problem that begins at a text begins there whatever follows. -/
theorem Problem.BeginsAt.append {problem : Problem} {t : Text} (h : problem.BeginsAt t) (u : Text) :
  problem.BeginsAt (t ++ u)
  := by
  cases problem with
  | malformedLine form line => exact prefix_trimStart_append h u
  | unknownSection word => exact OpensGroup.append h u
  | unclosedGroup =>
    obtain ⟨word, hn, hw⟩ := h
    exact ⟨word, hn, hw.append u⟩
  | unclosedNote =>
    obtain ⟨word, hk, hw⟩ := h
    exact ⟨word, hk, hw.append u⟩
  | unknownPartial name =>
    obtain ⟨written, hw, hn⟩ := h
    exact ⟨written, prefix_trimStart_append hw u, hn⟩
  | unterminatedBlock kind => trivial
  | unknownDeclaration line => trivial
  | duplicateProject => trivial
  | unresolvedEndpoint table => trivial

namespace Finding

/-- Whether a finding is placed in front of a visible character of a text that ends at `finish`,
where what it is about begins. -/
def StandsIn (finish : Nat) (t : Text) (f : Finding) : Prop :=
  ∃ before c after, t = before ++ c :: after ∧ Unicode.isAsciiBlank c = false
    ∧ f.offset = some (startOf finish (c :: after)) ∧ f.problem.BeginsAt (c :: after)

section

variable {finish : Nat} {t : Text} {f : Finding}

/-- A problem that begins at a text stands in it at its start. -/
theorem standsIn_placed {c : Char} (hc : Unicode.isAsciiBlank c = false) {t : Text}
    {problem : Problem} (h : problem.BeginsAt (c :: t)) :
  StandsIn finish (c :: t) (.placed (startOf finish (c :: t)) problem)
  := ⟨[], c, t, rfl, hc, rfl, h⟩

/-- A finding that stands in a suffix stands in the text. -/
theorem StandsIn.of_suffix (h : f.StandsIn finish t) {u : Text} (ht : t <:+ u) :
  f.StandsIn finish u
  := by
  obtain ⟨before, c, after, rfl, hc, ho, hp⟩ := h
  obtain ⟨s, rfl⟩ := ht
  exact ⟨s ++ before, c, after, (List.append_assoc _ _ _).symm, hc, ho, hp⟩

/-- What stands inside of a group stands in the text that holds the group. -/
theorem StandsIn.of_group {inner rest : Text} (h : f.StandsIn (startOf finish rest - 1) inner)
    (hg : splitGroup? t = some (inner, rest)) :
  f.StandsIn finish t
  := by
  obtain ⟨opener, closer, hc, rfl⟩ := exists_of_splitGroup? hg
  obtain ⟨before, c, after, rfl, hb, ho, hp⟩ := h
  refine ⟨opener :: before, c, after ++ closer :: rest, by simp, hb, ?_, hp.append _⟩
  rw [ho, startOf, startOf, startOf, size_cons, size_cons, size_append, size_cons, size_closer hc]
  congr 1
  omega

end

end Finding

/-! ## Settings and notes -/

theorem Value.suffix_read (t : Text) :
  (read t).2 <:+ t
  := by
  have hbare : (readBare t).2 <:+ t := fromLineEnd_suffix t
  have hcut {mark u inner rest : Text} (h : cutAtMark mark u = some (inner, rest)) : rest <:+ u :=
    ⟨inner ++ mark, (eq_append_of_cutAtMark h).symm⟩
  rw [read.eq_def]
  split
  · split
    · rename_i h
      exact (hcut h).trans (List.drop_suffix _ _)
    · apply List.nil_suffix
  · split
    · apply List.nil_suffix
    · rename_i quote u _
      split
      · split
        · rename_i h
          exact (hcut h).trans (List.suffix_cons _ _)
        · apply List.nil_suffix
      · split
        · split
          · rename_i inner rest h
            exact ⟨quote :: (inner ++ [quote]), by rw [closeLine_append h]; simp⟩
          · exact hbare
        · exact hbare

theorem Settings.suffix_readGroups (t : Text) :
  (readGroups t).2 <:+ t
  := by
  fun_induction readGroups t with
  | case1 t _ inner rest h settings rest' hr ih =>
    rw [hr] at ih
    exact ih.trans ((suffix_of_splitGroup? h).trans (skipBlanks_suffix t))
  | case2 => apply List.nil_suffix
  | case3 => apply List.suffix_rfl

namespace Note

variable {finish : Nat} {t rest : Text} {note : Except Finding String}

theorem suffix_of_split? (h : split? finish t = some (note, rest)) :
  rest <:+ t
  := by
  rw [split?] at h
  split at h
  · cases h
  · rename_i u hu
    have hu := suffix_of_splitKeyword hu
    split at h
    · cases h
    · rename_i c v hv
      have ht : trimStart u <:+ t := (List.dropWhile_suffix _).trans hu
      rw [hv] at ht
      have hv : v <:+ t := (List.suffix_cons _ _).trans ht
      split at h
      · cases h
        apply (dropLine_suffix _).trans
        exact (Value.suffix_read _).trans ((List.dropWhile_suffix _).trans hv)
      · split at h
        · split at h
          · rename_i hg
            cases h
            exact (suffix_of_splitGroup? hg).trans ht
          · cases h
            apply dropLine_suffix
        · cases h

/-- The finding at a note stands where the note does. -/
theorem standsIn_of_split? {c : Char} {f : Finding} (hc : Unicode.isAsciiBlank c = false)
    (h : split? finish (c :: t) = some (.error f, rest)) :
  f.StandsIn finish (c :: t)
  := by
  rw [split?] at h
  split at h
  · cases h
  · rename_i u hk
    split at h
    · cases h
    · rename_i d v hu
      split at h
      · cases h
      · split at h
        · rename_i hd
          split at h
          · cases h
          · cases h
            obtain ⟨word, ht, hword⟩ := exists_keyword hk
            refine Finding.standsIn_placed hc ⟨word, hword, u.takeWhile Unicode.isBlank, ?_, v, ?_⟩
            · exact fun e he => List.mem_takeWhile_imp he
            · have hb := List.takeWhile_append_dropWhile (p := Unicode.isBlank) (l := u)
              rw [← trimStart, hu, hd] at hb
              simp only [List.append_assoc, List.singleton_append]
              rw [hb, ht]
        · cases h

end Note

/-! ## Bodies of tables -/

namespace Index

theorem suffix_of_splitColumns? {c : Char} {t rest : Text} {columns : List IndexColumn}
    (h : splitColumns? c t = some (columns, rest)) :
  rest <:+ c :: t
  := by
  rw [splitColumns?] at h
  split at h
  · split at h
    · rename_i hg
      obtain ⟨_, h⟩ := Option.ite_none_left_eq_some.mp h
      cases h
      exact suffix_of_splitGroup? hg
    · cases h
  · split at h
    · obtain ⟨_, h⟩ := Option.ite_none_left_eq_some.mp h
      cases h
      exact ⟨_, Lexeme.text_first_append c t⟩
    · obtain ⟨_, h⟩ := Option.ite_none_right_eq_some.mp h
      cases h
      exact (List.dropWhile_suffix _).trans (List.suffix_cons _ _)

theorem suffix_splitFirst (finish : Nat) (c : Char) (t : Text) :
  (splitFirst finish c t).2 <:+ c :: t
  := by
  rw [splitFirst]
  split
  · rename_i h
    exact (Settings.suffix_readGroups _).trans (suffix_of_splitColumns? h)
  · apply fromLineEnd_suffix

/-- The finding at an index stands where the index does. -/
theorem standsIn_of_splitFirst {finish : Nat} {c : Char} {t : Text} {f : Finding}
    (hc : Unicode.isAsciiBlank c = false) (h : (splitFirst finish c t).1 = .error f) :
  f.StandsIn finish (c :: t)
  := by
  rw [splitFirst] at h
  split at h
  · cases h
  · cases h
    exact Finding.standsIn_placed hc (prefix_trim_firstLine _)

/-- Every finding at the indexes of a body stands in the body. -/
theorem standsIn_of_mem_readAll {finish : Nat} {t : Text} {f : Finding}
    (h : .error f ∈ readAll finish t) :
  f.StandsIn finish t
  := by
  fun_induction readAll finish t with
  | case1 => cases h
  | case2 t c u ht first ih =>
    have hs := skipBlanks_suffix t
    rw [ht] at hs
    rcases List.mem_cons.mp h with hf | h
    · exact (standsIn_of_splitFirst (isAsciiBlank_head_skipBlanks ht) hf.symm).of_suffix hs
    · exact (ih h).of_suffix ((suffix_splitFirst finish c u).trans hs)

end Index

/-- Whether the problem of an entry stands in a text that ends at `finish`, if the entry is one, and
so does an injection, which becomes a problem where there is no partial for it. -/
def TableEntry.StandsIn (finish : Nat) (t : Text) : TableEntry → Prop
  | problem f => f.StandsIn finish t
  | injection name offset => (Finding.placed offset (.unknownPartial name)).StandsIn finish t
  | _ => True

namespace TableEntry

variable {finish : Nat} {t : Text} {e : TableEntry}

theorem StandsIn.of_suffix (h : e.StandsIn finish t) {u : Text} (ht : t <:+ u) :
  e.StandsIn finish u
  := by
  cases e with
  | problem f => exact Finding.StandsIn.of_suffix h ht
  | injection name offset => exact Finding.StandsIn.of_suffix h ht
  | column c => trivial
  | index i => trivial
  | note text => trivial

/-- A finding that stands in a group stands in the text from which the group is cut. -/
theorem StandsIn.of_group {inner rest : Text} (h : e.StandsIn (startOf finish rest - 1) inner)
    (hg : splitGroup? t = some (inner, rest)) :
  e.StandsIn finish t
  := by
  cases e with
  | problem f => exact Finding.StandsIn.of_group h hg
  | injection name offset => exact Finding.StandsIn.of_group h hg
  | column c => trivial
  | index i => trivial
  | note text => trivial

/-- A line that injects a partial is a tilde and the name of the partial. -/
theorem eq_cons_of_injectedName? {line name : Text} (h : injectedName? line = some name) :
  ∃ written, line = '~' :: written ∧ unquote written = name
  := by
  cases line with
  | nil => cases h
  | cons c t =>
    rw [injectedName?] at h
    obtain ⟨rfl, hs⟩ := Option.ite_none_right_eq_some.mp h
    split at hs
    · rename_i written rest hn
      obtain ⟨hr, hw⟩ := Option.ite_none_right_eq_some.mp hs
      rw [List.isEmpty_iff] at hr
      rw [eq_append_of_splitName hn, hr, List.append_nil]
      exact ⟨written, rfl, Option.some.inj hw⟩
    · cases hs

/-- The finding at a line stands where the line does. -/
theorem standsIn_ofFirstLine {c : Char} (hc : Unicode.isAsciiBlank c = false) :
  (ofFirstLine finish (c :: t)).StandsIn finish (c :: t)
  := by
  have hline := prefix_trim_firstLine (c :: t)
  rw [ofFirstLine]
  split
  · rename_i name hn
    obtain ⟨written, hw, hu⟩ := eq_cons_of_injectedName? hn
    rw [hw] at hline
    exact Finding.standsIn_placed hc ⟨written, hline, by rw [hu]⟩
  · split
    · trivial
    · exact Finding.standsIn_placed hc hline

end TableEntry

namespace TablePart

variable {finish : Nat} {t rest : Text}

theorem eq_append_of_groupWord? {word tail : Text} (h : groupWord? t = some (word, tail)) :
  ∃ blanks, t = word ++ (blanks ++ tail)
  := by
  rw [groupWord?] at h
  obtain ⟨_, h⟩ := Option.ite_none_right_eq_some.mp h
  cases h
  refine ⟨(t.dropWhile Unicode.isWord).takeWhile Unicode.isBlank, ?_⟩
  rw [trimStart, List.takeWhile_append_dropWhile, List.takeWhile_append_dropWhile]

theorem suffix_of_groupWord? {word tail : Text} (h : groupWord? t = some (word, tail)) :
  tail <:+ t
  := by
  obtain ⟨blanks, rfl⟩ := eq_append_of_groupWord? h
  rw [← List.append_assoc]
  apply List.suffix_append

theorem suffix_splitFirst (finish : Nat) (t : Text) :
  (splitFirst finish t).2 <:+ t
  := by
  rw [splitFirst]
  split
  · rename_i h
    exact Note.suffix_of_split? h
  · split
    · rename_i hw
      split
      · rename_i hg
        exact (suffix_of_splitGroup? hg).trans (suffix_of_groupWord? hw)
      · apply dropLine_suffix
    · apply dropLine_suffix

/-- The word of a group is not empty and opens a group. -/
theorem opensGroup_of_groupWord? {word tail : Text} (h : groupWord? t = some (word, tail)) :
  word ≠ [] ∧ OpensGroup word t
  := by
  rw [groupWord?] at h
  obtain ⟨hc, hw⟩ := Option.ite_none_right_eq_some.mp h
  rw [Bool.and_eq_true, decide_eq_true_eq] at hc
  obtain ⟨u, hu⟩ := List.head?_eq_some_iff.mp hc.2
  obtain ⟨rfl, -⟩ := Prod.mk.inj (Option.some.inj hw)
  constructor
  · intro hn
    rw [hn] at hc
    cases hc.1
  · refine ⟨(t.dropWhile Unicode.isWord).takeWhile Unicode.isBlank, ?_, u, ?_⟩
    · exact fun c hc => List.mem_takeWhile_imp hc
    · simp only [List.append_assoc, List.singleton_append]
      rw [← hu, trimStart, List.takeWhile_append_dropWhile, List.takeWhile_append_dropWhile]

/-- The entries of a part of a body stand in the body. -/
theorem standsIn_of_splitFirst {c : Char} (hc : Unicode.isAsciiBlank c = false)
    {entries : List TableEntry} (hs : splitFirst finish (c :: t) = (.entries entries, rest)) :
  ∀ e ∈ entries, e.StandsIn finish (c :: t)
  := by
  rw [splitFirst] at hs
  split at hs
  · rename_i note rest hn
    cases hs
    rintro e (_ | ⟨_, ⟨⟩⟩)
    cases note with
    | ok text => trivial
    | error f => exact Note.standsIn_of_split? hc hn
  · split at hs
    · rename_i word tail hw
      split at hs
      · rename_i inner rest hg
        rw [ofGroup] at hs
        split at hs
        · cases hs
          intro e he
          obtain ⟨index, hi, rfl⟩ := List.mem_map.mp he
          cases index with
          | ok i => trivial
          | error f =>
            have hf := Index.standsIn_of_mem_readAll hi
            exact (hf.of_group hg).of_suffix (suffix_of_groupWord? hw)
        · split at hs
          · cases hs
          · cases hs
            rintro e (_ | ⟨_, ⟨⟩⟩)
            exact Finding.standsIn_placed hc (opensGroup_of_groupWord? hw).2
      · cases hs
        rintro e (_ | ⟨_, ⟨⟩⟩)
        exact Finding.standsIn_placed hc ⟨word, opensGroup_of_groupWord? hw⟩
    · cases hs
      rintro e (_ | ⟨_, ⟨⟩⟩)
      exact TableEntry.standsIn_ofFirstLine hc

/-- The inside of a group of columns is that of a group of the text. -/
theorem exists_group_of_columns {innerFinish : Nat} {inner : Text}
    (hs : splitFirst finish t = (.columns innerFinish inner, rest)) :
  ∃ tail, tail <:+ t ∧ splitGroup? tail = some (inner, rest)
    ∧ innerFinish = startOf finish rest - 1
  := by
  rw [splitFirst] at hs
  split at hs
  · cases hs
  · split at hs
    · rename_i word tail hw
      split at hs
      · rename_i i r hg
        rw [ofGroup] at hs
        split at hs
        · cases hs
        · split at hs
          · cases hs
            exact ⟨tail, suffix_of_groupWord? hw, hg, rfl⟩
          · cases hs
      · cases hs
    · cases hs

end TablePart

/-- The entries of a body stand in the body, however deep they are nested. -/
theorem TableEntry.standsIn_of_mem_readAll {finish : Nat} {t : Text} {e : TableEntry}
    (h : e ∈ readAll finish t) :
  e.StandsIn finish t
  := by
  fun_induction readAll finish t with
  | case1 => cases h
  | case2 finish t c u ht entries rest hs ih =>
    have hb := skipBlanks_suffix t
    have hr := TablePart.suffix_splitFirst finish (c :: u)
    rw [ht] at hb
    rw [hs] at hr
    rcases List.mem_append.mp h with h | h
    · have hc := isAsciiBlank_head_skipBlanks ht
      exact (TablePart.standsIn_of_splitFirst hc hs e h).of_suffix hb
    · exact (ih h).of_suffix (hr.trans hb)
  | case3 finish t c u ht innerFinish inner rest hs ihInner ih =>
    have hb := skipBlanks_suffix t
    have hr := TablePart.suffix_splitFirst finish (c :: u)
    rw [ht] at hb
    rw [hs] at hr
    rcases List.mem_append.mp h with h | h
    · obtain ⟨tail, htail, hg, rfl⟩ := TablePart.exists_group_of_columns hs
      exact ((ihInner h).of_group hg).of_suffix (htail.trans hb)
    · exact (ih h).of_suffix (hr.trans hb)

/-- The problems of entries stand where the entries do. -/
theorem TableEntry.standsIn_of_mem_findings {finish : Nat} {t : Text} {partials : List TablePartial}
    {f : Finding} (h : f ∈ findings partials (readAll finish t)) :
  f.StandsIn finish t
  := by
  obtain ⟨e, he, hf⟩ := List.mem_filterMap.mp h
  have hs := standsIn_of_mem_readAll he
  cases e with
  | problem g =>
    cases hf
    exact hs
  | injection name offset =>
    rw [finding?] at hf
    split at hf
    · cases hf
    · cases hf
      exact hs
  | column c => cases hf
  | index i => cases hf
  | note text => cases hf

/-! ## Groups of tables and projects -/

namespace TableGroupEntry

/-- The finding at an entry of a table group stands where the entry does. -/
theorem standsIn_of_splitFirst {finish : Nat} {c : Char} {t : Text} {f : Finding}
    (hc : Unicode.isAsciiBlank c = false) (h : (splitFirst finish (c :: t)).1 = .error f) :
  f.StandsIn finish (c :: t)
  := by
  rw [splitFirst] at h
  split at h
  · rename_i text rest hn
    cases text with
    | ok text => cases h
    | error g =>
      cases h
      exact Note.standsIn_of_split? hc hn
  · rw [ofFirstLine] at h
    split at h
    · cases h
    · split at h
      · cases h
      · cases h
        exact Finding.standsIn_placed hc (prefix_trim_firstLine _)

theorem suffix_splitFirst (finish : Nat) (t : Text) :
  (splitFirst finish t).2 <:+ t
  := by
  rw [splitFirst]
  split
  · rename_i h
    exact Note.suffix_of_split? h
  · apply dropLine_suffix

/-- Every finding in the body of a table group stands in the body. -/
theorem standsIn_of_mem_readAll {finish : Nat} {t : Text} {f : Finding}
    (h : .error f ∈ readAll finish t) :
  f.StandsIn finish t
  := by
  fun_induction readAll finish t with
  | case1 => cases h
  | case2 t c u ht first ih =>
    have hs := skipBlanks_suffix t
    rw [ht] at hs
    rcases List.mem_cons.mp h with hf | h
    · exact (standsIn_of_splitFirst (isAsciiBlank_head_skipBlanks ht) hf.symm).of_suffix hs
    · exact (ih h).of_suffix ((suffix_splitFirst finish (c :: u)).trans hs)

end TableGroupEntry

namespace Project

/-- A key with a brace behind it opens a group. -/
theorem opensGroup_of_key {t : Text} (h : (skipSpaces (t.dropWhile isKeyChar)).head? = some '{') :
  OpensGroup (t.takeWhile isKeyChar) t
  := by
  obtain ⟨u, hu⟩ := List.head?_eq_some_iff.mp h
  refine ⟨(t.dropWhile isKeyChar).takeWhile (fun c => c = ' ' || c = '\t'), ?_, u, ?_⟩
  · intro c hc
    have hs := List.mem_takeWhile_imp hc
    rw [Bool.or_eq_true, decide_eq_true_eq, decide_eq_true_eq] at hs
    rcases hs with rfl | rfl <;> rfl
  · simp only [List.append_assoc, List.singleton_append]
    rw [← hu, skipSpaces, List.takeWhile_append_dropWhile, List.takeWhile_append_dropWhile]

/-- The finding at a setting of a project stands where the setting does. -/
theorem standsIn_of_splitFirst {finish : Nat} {c : Char} {t : Text} {f : Finding}
    (hc : Unicode.isAsciiBlank c = false) (h : (splitFirst finish (c :: t)).1 = .error f) :
  f.StandsIn finish (c :: t)
  := by
  rw [splitFirst] at h
  dsimp only at h
  split at h
  · cases h
  · rename_i hkey
    split at h
    · cases h
    · split at h
      · rename_i hb
        split at h
        · cases h
        · cases h
          apply Finding.standsIn_placed hc
          refine ⟨_, fun hn => hkey (List.isEmpty_iff.mpr hn), ?_⟩
          exact opensGroup_of_key hb
      · cases h

theorem suffix_splitFirst (finish : Nat) (t : Text) :
  (splitFirst finish t).2 <:+ t
  := by
  have htail : skipSpaces (t.dropWhile isKeyChar) <:+ t :=
    (List.dropWhile_suffix _).trans (List.dropWhile_suffix _)
  rw [splitFirst]
  dsimp only
  split
  · apply dropLine_suffix
  · split
    · apply (dropLine_suffix _).trans
      apply (Value.suffix_read _).trans
      apply (List.dropWhile_suffix _).trans
      exact (List.drop_suffix _ _).trans htail
    · split
      · split
        · rename_i hg
          exact (suffix_of_splitGroup? hg).trans htail
        · apply dropLine_suffix
      · apply dropLine_suffix

/-- Every finding in the body of a project stands in the body. -/
theorem standsIn_of_mem_readAll {finish : Nat} {t : Text} {f : Finding}
    (h : .error f ∈ readAll finish t) :
  f.StandsIn finish t
  := by
  fun_induction readAll finish t with
  | case1 => cases h
  | case2 t c u ht first ih =>
    have hs := skipBlanks_suffix t
    rw [ht] at hs
    rcases List.mem_cons.mp h with hf | h
    · exact (standsIn_of_splitFirst (isAsciiBlank_head_skipBlanks ht) hf.symm).of_suffix hs
    · exact (ih h).of_suffix ((suffix_splitFirst finish (c :: u)).trans hs)

end Project

/-! ## Lines -/

/-- A value of an enum that is not read is reported at its line. -/
theorem EnumValue.exists_line {offset : Nat} {body : Text} {f : Finding}
    (h : .error f ∈ readAll offset body) :
  ∃ o line, (o, line) ∈ lines offset body
    ∧ f = .placed o (.malformedLine .enumValue (trim line))
  := by
  obtain ⟨⟨o, line⟩, hl, hr⟩ := List.mem_map.mp h
  have hr : readLine o line = .error f := hr
  rw [readLine] at hr
  split at hr
  · cases hr
  · cases hr
    exact ⟨o, line, List.mem_of_mem_filter hl, rfl⟩

theorem Relationship.eq_of_readLine {name : Option Text} {offset : Nat} {line : Text} {f : Finding}
    (h : readLine name offset line = .error f) :
  f = .placed offset (.malformedLine .relationship (trim line))
  := by
  rw [readLine] at h
  split at h
  · cases h
  · cases h
    rfl

/-- A relationship that is not read is reported at its line. -/
theorem Relationship.exists_line {block : Block} {f : Finding} (h : .error f ∈ readBlock block) :
  ∃ o line, (o, line) ∈ lines block.offset block.body
    ∧ f = .placed o (.malformedLine .relationship (trim line))
  := by
  obtain ⟨⟨o, line⟩, hl, hr⟩ := List.mem_map.mp h
  exact ⟨o, line, List.mem_of_mem_filter hl, eq_of_readLine hr⟩

/-! ## Blocks -/

namespace Finding

/-- Whether a finding is placed between two parts of a text, in front of what it is about, where a
line or a visible character begins or a block opens. -/
def IsAt (t : Text) (f : Finding) : Prop :=
  ∃ before after, t = before ++ after ∧ f.offset = some (size before) ∧ IsApparent before after
    ∧ f.problem.BeginsAt after

/-- A finding that stands in a part of a text is at its place in the text. -/
theorem StandsIn.isAt {before t after : Text} {f : Finding}
    (h : f.StandsIn (size before + size t) t) :
  f.IsAt (before ++ (t ++ after))
  := by
  obtain ⟨b, c, a, rfl, hc, ho, hp⟩ := h
  refine ⟨before ++ b, c :: (a ++ after), by simp, ?_, .inr ⟨c, rfl, hc⟩, hp.append after⟩
  rw [ho, startOf, size_append, size_append]
  congr 1
  omega

end Finding

/-- The body of a block follows a colon or a brace. -/
theorem Segment.Holds.exists_opener {pairs : DelimiterPairs} {start : Nat} {block : Block}
    {span after : Text} (h : Holds pairs start (.block block) span after) :
  ∃ head tail, span = head ++ (block.body ++ tail) ∧ block.offset = start + size head
    ∧ (head.getLast? = some ':' ∨ head.getLast? = some '{')
  := by
  cases h with
  | @shortReference names line _ header hr hk _ _ =>
    refine ⟨names, [], by rw [List.append_nil], rfl, ?_⟩
    obtain ⟨head, hn⟩ := Header.exists_colon hr hk
    rw [List.append_cons, List.append_assoc] at hn
    rw [List.append_cancel_right hn, List.getLast?_concat]
    exact .inl rfl
  | @braces header settings opening body _ _ _ =>
    refine ⟨opening ++ ['{'], ['}'], by simp, ?_, ?_⟩
    · rw [size_append]
      rfl
    · rw [List.getLast?_concat]
      exact .inr rfl

namespace Block

variable {t : Text} {block : Block}

/-- The body of a block stands in the text, where a line or a visible character begins or behind
what opens the block. -/
theorem exists_opener_of_mem (h : block ∈ (Segment.ofText t).filterMap Segment.block?) :
  ∃ before after, t = before ++ (block.body ++ after) ∧ block.offset = size before
    ∧ before.getLast? ≠ some ' '
  := by
  obtain ⟨u, _, v, ht, hh⟩ := exists_holds_of_mem_blocks h
  obtain ⟨head, tail, rfl, hoff, hlast⟩ := hh.exists_opener
  refine ⟨u ++ head, tail ++ v, ?_, ?_, ?_⟩
  · rw [ht]
    simp only [List.append_assoc]
  · rw [hoff, size_append]
  · have hne : head ≠ [] := by
      rintro rfl
      rcases hlast with h | h <;> cases h
    rw [List.getLast?_append_of_ne_nil _ hne]
    intro h
    rw [h] at hlast
    rcases hlast with h | h <;> cases h

variable {f : Finding}

/-- A finding that stands in the body of a block is at its place in the text. -/
theorem isAt_of_standsIn (h : block ∈ (Segment.ofText t).filterMap Segment.block?)
    (hf : f.StandsIn block.finish block.body) :
  f.IsAt t
  := by
  obtain ⟨before, after, ht, ho, _⟩ := exists_opener_of_mem h
  rw [finish, ho] at hf
  rw [ht]
  exact hf.isAt

/-- A line of a block that is malformed begins where it is said to be. -/
theorem isAt_of_mem_lines (h : block ∈ (Segment.ofText t).filterMap Segment.block?) {o : Nat}
    {line : Text} (hl : (o, line) ∈ lines block.offset block.body) (form : LineForm) :
  (Finding.placed o (.malformedLine form (trim line))).IsAt t
  := by
  obtain ⟨before, after, ht, ho, hb⟩ := exists_opener_of_mem h
  obtain ⟨u, v, hu, hou, hlast⟩ := exists_of_mem_lines hl
  refine ⟨before ++ u, line ++ (v ++ after), ?_, ?_, ?_, ?_⟩
  · rw [ht, hu]
    simp only [List.append_assoc]
  · rw [hou, ho, size_append]
    rfl
  · left
    rcases hlast with rfl | hlast
    · rwa [List.append_nil]
    · rw [List.getLast?_append, hlast]
      exact fun h => nomatch h
  · exact prefix_trimStart_append (trim_prefix_trimStart line) _

/-- A finding at a relationship is at its place in the text. -/
theorem isAt_of_mem_relationships (h : block ∈ (Segment.ofText t).filterMap Segment.block?)
    (hf : .error f ∈ block.relationships) :
  f.IsAt t
  := by
  rw [relationships] at hf
  split at hf
  · -- the body of a short reference is taken as one line, blank or not
    obtain ⟨before, after, ht, ho, hb⟩ := exists_opener_of_mem h
    rw [Relationship.eq_of_readLine (List.mem_singleton.mp hf).symm]
    refine ⟨before, block.body ++ after, ht, by rw [ho]; rfl, .inl hb, ?_⟩
    exact prefix_trimStart_append (trim_prefix_trimStart block.body) _
  · obtain ⟨o, line, hl, rfl⟩ := Relationship.exists_line hf
    exact isAt_of_mem_lines h hl .relationship
  · cases hf

/-- A finding in the body of a block is at its place in the text. -/
theorem isAt_of_mem_bodyFindings (h : block ∈ (Segment.ofText t).filterMap Segment.block?)
    (hf : f ∈ block.bodyFindings) :
  f.IsAt t
  := by
  rw [bodyFindings] at hf
  split at hf
  · obtain ⟨o, line, hl, rfl⟩ := EnumValue.exists_line (Finding.mem_failures.mp hf)
    exact isAt_of_mem_lines h hl .enumValue
  · exact isAt_of_standsIn h (TableGroupEntry.standsIn_of_mem_readAll (Finding.mem_failures.mp hf))
  · exact isAt_of_mem_relationships h (Finding.mem_failures.mp hf)
  · exact isAt_of_mem_relationships h (Finding.mem_failures.mp hf)
  · cases hf

/-- A problem with a block that is no table or partial is placed in the text. -/
theorem isAt_of_mem_findingsAfter {projectSeen : Bool} {blocks : List Block}
    (h : ∀ block ∈ blocks, block ∈ (Segment.ofText t).filterMap Segment.block?)
    (hf : f ∈ findingsAfter projectSeen blocks) :
  f.IsAt t
  := by
  induction blocks generalizing projectSeen with
  | nil => cases hf
  | cons block blocks ih =>
    obtain ⟨hb, h⟩ := List.forall_mem_cons.mp h
    rw [findingsAfter] at hf
    split at hf
    · split at hf
      · rcases List.mem_cons.mp hf with rfl | hf
        · obtain ⟨before, after, ht, ho, hlast⟩ := exists_opener_of_mem hb
          exact ⟨before, block.body ++ after, ht, by rw [ho]; rfl, .inl hlast, trivial⟩
        · exact ih h hf
      · rcases List.mem_append.mp hf with hf | hf
        · exact isAt_of_standsIn hb
            (Project.standsIn_of_mem_readAll (Finding.mem_failures.mp hf))
        · exact ih h hf
    · rcases List.mem_append.mp hf with hf | hf
      · exact isAt_of_mem_bodyFindings hb hf
      · exact ih h hf

end Block

/-! ## Documents -/

namespace Segment

/-- A segment that holds no blanks begins with another character than a blank. -/
theorem isAsciiBlank_head_span {pairs : DelimiterPairs} {start finish : Nat} {t : Text}
    {s : Segment} (h : s ∈ split pairs start finish t) (hb : s.content ≠ .blank) :
  ∀ c ∈ s.span.head?, Unicode.isAsciiBlank c = false
  := by
  fun_induction split pairs start finish t with
  | case1 => cases h
  | case2 start c t hc span ih =>
    rcases List.mem_cons.mp h with rfl | h
    · exact absurd rfl hb
    · exact ih h
  | case3 start c t hc first next span ih =>
    rcases List.mem_cons.mp h with rfl | h
    · intro d hd
      have hs : span <+: c :: t := ⟨_, splitAtByte_append _ _⟩
      obtain ⟨u, hu⟩ := List.head?_eq_some_iff.mp hd
      have hu : span = d :: u := hu
      rw [hu, List.cons_prefix_cons] at hs
      rw [hs.1]
      exact eq_false_of_ne_true hc
    · exact ih h

/-- A segment that is skipped is reported where it begins. -/
theorem isAt_of_finding? {t : Text} {s : Segment} {f : Finding} (hs : s ∈ ofText t)
    (h : s.finding? = some f) :
  f.IsAt t
  := by
  obtain ⟨l, r, hl⟩ := List.append_of_mem hs
  have ht := tiles_ofText t
  have hf := ht.flatMap_span
  have hhead := isAsciiBlank_head_span hs
  have hkind := kind_of_finding? hs h
  rw [hl] at ht hf
  obtain ⟨ho, hn, _⟩ := ht.holds
  rw [Nat.zero_add] at ho
  rw [List.flatMap_append, List.flatMap_cons] at hf
  rw [finding?] at h
  split at h
  · rename_i problem hp
    cases h
    refine ⟨l.flatMap span, s.span ++ r.flatMap span, hf.symm, by rw [ho]; rfl, ?_, ?_⟩
    · right
      obtain ⟨c, u, hu⟩ := List.exists_cons_of_ne_nil hn
      have hblank : s.content ≠ .blank := by
        rw [hp]
        intro h
        cases h
      rw [hu] at hhead ⊢
      exact ⟨c, rfl, hhead hblank c rfl⟩
    · cases problem with
      | malformedLine form line => rcases hkind with h | h <;> cases h
      | unknownSection word => rcases hkind with h | h <;> cases h
      | unknownPartial name => rcases hkind with h | h <;> cases h
      | unclosedGroup => rcases hkind with h | h <;> cases h
      | unclosedNote => rcases hkind with h | h <;> cases h
      | _ => trivial
  · cases h

end Segment

/-- A problem with partials is one with the body of one of them, where some partials are available. -/
theorem TablePartial.exists_of_mem_ofBlocksAfter {policy : MergePolicy}
    {partials : List TablePartial} {blocks : List Block} {f : Finding}
    (h : f ∈ (ofBlocksAfter policy partials blocks).2) :
  ∃ block ∈ blocks, ∃ earlier, f ∈ TableEntry.findings earlier block.entries
  := by
  induction blocks generalizing partials with
  | nil => cases h
  | cons block blocks ih =>
    rw [ofBlocksAfter] at h
    rcases List.mem_append.mp h with h | h
    · exact ⟨block, List.mem_cons_self, partials, h⟩
    · obtain ⟨b, hb, hf⟩ := ih h
      exact ⟨b, List.mem_cons_of_mem _ hb, hf⟩

/-- Every problem with a document that has a place is placed in front of what it is about. -/
theorem Document.exists_place {policy : MergePolicy} {t : Text} {f : Finding}
    (h : f ∈ (ofText policy t).2) :
  f.offset = none ∨ f.IsAt t
  := by
  -- tables and partials are read from bodies of blocks
  have hentries {block : Block} {kind : BlockKind}
      (hb : block ∈ Block.ofKind kind ((Segment.ofText t).filterMap Segment.block?))
      (hf : f.StandsIn block.finish block.body) : f.IsAt t :=
    Block.isAt_of_standsIn (List.mem_of_mem_filter hb) hf
  rcases List.mem_append.mp h with h | h
  · right
    rcases List.mem_append.mp h with h | h
    · obtain ⟨s, hs, hf⟩ := List.mem_filterMap.mp h
      exact Segment.isAt_of_finding? hs hf
    · rcases List.mem_append.mp h with h | h
      · rcases List.mem_append.mp h with h | h
        · obtain ⟨block, hb, _, hf⟩ := TablePartial.exists_of_mem_ofBlocksAfter h
          exact hentries hb (TableEntry.standsIn_of_mem_findings hf)
        · obtain ⟨block, hb, hf⟩ := List.mem_flatMap.mp h
          exact hentries hb (TableEntry.standsIn_of_mem_findings hf)
      · exact Block.isAt_of_mem_findingsAfter (fun _ hb => hb) h
  · left
    obtain ⟨r, _, hf⟩ := List.mem_flatMap.mp h
    obtain ⟨name, _, rfl⟩ := List.mem_map.mp hf
    rfl

end DatabaseMarkup
