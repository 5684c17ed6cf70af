import DatabaseMarkup.Proofs.Diagnostic.Place
import DatabaseMarkup.Proofs.Document.Content
import DatabaseMarkup.Proofs.Text.Newline
import DatabaseMarkup.Proofs.Text.Pairing

/-!
# Groups of columns

A group `columns { … }` stands for what is inside of it.  Three facts make this precise.  What is
read does not depend on where the text stands, apart from the offsets, which move along with it.
It does not depend on a newline at the end of the text either.  And the braces of a text that fits
between braces are balanced, so that the text still fits when it stands between braces itself.

`columns_groups_are_transparent` states that a body between the braces of such groups, however many,
declares what it declares without them and has the same problems, further on by what stands in front
of the body.
-/

namespace DatabaseMarkup

open Text

/-! ## Offsets move along with a text -/

/-- A finding of a text that stands `n` bytes further on. -/
def Finding.moved (n : Nat) (f : Finding) : Finding :=
  { f with offset := f.offset.map (n + ·) }

/-- An entry of a text that stands `n` bytes further on. -/
def TableEntry.moved (n : Nat) : TableEntry → TableEntry
  | problem f => problem (f.moved n)
  | injection name offset => injection name (n + offset)
  | entry => entry

/-- A part of a text that stands `n` bytes further on. -/
def TablePart.moved (n : Nat) : TablePart → TablePart
  | entries es => entries (es.map (TableEntry.moved n))
  | columns finish inner => columns (n + finish) inner

section

variable {finish : Nat} {t : Text} (n : Nat)

/-- Where a text ends further on, it starts further on by as much. -/
theorem Text.startOf_moved (h : size t ≤ finish) :
  startOf (n + finish) t = n + startOf finish t
  := Nat.add_sub_assoc h n

/-- A finding at the start of a text moves with the text. -/
theorem Finding.placed_moved (h : size t ≤ finish) (problem : Problem) :
  placed (startOf (n + finish) t) problem = (placed (startOf finish t) problem).moved n
  := congrArg (placed · problem) (startOf_moved n h)

theorem TableEntry.ofNote_moved (note : Except Finding String) :
  ofNote (note.mapError (Finding.moved n)) = (ofNote note).moved n
  := by
  cases note <;> rfl

theorem TableEntry.ofIndex_moved (index : Except Finding Index) :
  ofIndex (index.mapError (Finding.moved n)) = (ofIndex index).moved n
  := by
  cases index <;> rfl

/-- A note is read alike wherever it stands. -/
theorem Note.split?_moved (h : size t ≤ finish) :
  split? (n + finish) t
    = (split? finish t).map fun (note, rest) => (note.mapError (Finding.moved n), rest)
  := by
  rw [split?, split?, Finding.placed_moved n h]
  cases splitKeyword? ['n', 'o', 't', 'e'] t with
  | none => rfl
  | some rest =>
    dsimp only
    cases trimStart rest with
    | nil => rfl
    | cons c rest =>
      dsimp only
      split
      · rfl
      · split
        · cases splitGroup? (c :: rest) <;> rfl
        · rfl

/-- An index is read alike wherever it stands. -/
theorem Index.splitFirst_moved {c : Char} (h : size (c :: t) ≤ finish) :
  splitFirst (n + finish) c t
    = ((splitFirst finish c t).1.mapError (Finding.moved n), (splitFirst finish c t).2)
  := by
  rw [splitFirst, splitFirst]
  cases splitColumns? c t with
  | some columns => rfl
  | none =>
    dsimp only
    rw [Finding.placed_moved n h]
    rfl

/-- The body of an `indexes` block is read alike wherever it stands. -/
theorem Index.readAll_moved (h : size t ≤ finish) :
  readAll (n + finish) t = (readAll finish t).map (Except.mapError (Finding.moved n))
  := by
  fun_induction readAll finish t with
  | case1 t ht => rw [readAll_eq, ht, List.map_nil]
  | case2 t c u ht first ih =>
    have hcu := size_le_of_suffix (skipBlanks_suffix t)
    rw [ht] at hcu
    have hrest := size_le_of_suffix (suffix_splitFirst finish c u)
    rw [readAll_eq, ht]
    dsimp only
    rw [splitFirst_moved n (hcu.trans h), List.map_cons, ← ih (hrest.trans (hcu.trans h))]

/-- A line is read alike wherever it stands. -/
theorem TableEntry.ofFirstLine_moved (h : size t ≤ finish) :
  ofFirstLine (n + finish) t = (ofFirstLine finish t).moved n
  := by
  rw [ofFirstLine, ofFirstLine, Finding.placed_moved n h, startOf_moved n h]
  cases injectedName? (trim (firstLine t)) with
  | some name => rfl
  | none =>
    dsimp only
    cases Column.read? (trim (firstLine t)) <;> rfl

/-- A group in a body is read alike wherever it stands. -/
theorem TablePart.ofGroup_moved (h : size t ≤ finish) {inner rest : Text}
    (hg : size inner + 1 + size rest ≤ finish) (word : Text) :
  ofGroup (n + finish) t word inner rest = (ofGroup finish t word inner rest).moved n
  := by
  have hinner : startOf (n + finish) rest - 1 = n + (startOf finish rest - 1) := by
    rw [startOf, startOf]
    omega
  have hsize : size inner ≤ startOf finish rest - 1 := by
    rw [startOf]
    omega
  rw [ofGroup, ofGroup, hinner, Finding.placed_moved n h, Index.readAll_moved n hsize]
  split
  · rw [moved, List.map_map, List.map_map]
    congr 2
    funext index
    apply TableEntry.ofIndex_moved
  · split <;> rfl

/-- A group fits into the text that it is cut from. -/
theorem Text.size_of_splitGroup? {inner rest : Text} (h : splitGroup? t = some (inner, rest)) :
  size inner + 1 + size rest ≤ size t
  := by
  obtain ⟨opener, closer, hc, rfl⟩ := exists_of_splitGroup? h
  rw [size_cons, size_append, size_cons, size_closer hc]
  omega

/-- A part of a body is read alike wherever it stands. -/
theorem TablePart.splitFirst_moved (h : size t ≤ finish) :
  splitFirst (n + finish) t = ((splitFirst finish t).1.moved n, (splitFirst finish t).2)
  := by
  rw [splitFirst, splitFirst, Note.split?_moved n h, Finding.placed_moved n h,
    TableEntry.ofFirstLine_moved n h]
  cases Note.split? finish t with
  | some note =>
    rw [Option.map_some]
    dsimp only
    rw [TableEntry.ofNote_moved]
    rfl
  | none =>
    rw [Option.map_none]
    dsimp only
    cases hw : groupWord? t with
    | none => rfl
    | some group =>
      dsimp only
      cases hg : splitGroup? group.2 with
      | none => rfl
      | some inside =>
        have htail := size_le_of_suffix (suffix_of_groupWord? hw)
        dsimp only
        rw [ofGroup_moved n h ((size_of_splitGroup? hg).trans (htail.trans h))]

/-- The entries of a text move along with it. -/
theorem TableEntry.readAll_moved (h : size t ≤ finish) :
  readAll (n + finish) t = (readAll finish t).map (moved n)
  := by
  fun_induction readAll finish t with
  | case1 finish t ht => rw [readAll_blank ht, List.map_nil]
  | case2 finish t c u ht entries rest hs ih =>
    have hcu := size_le_of_suffix (skipBlanks_suffix t)
    have hrest := size_le_of_suffix (TablePart.suffix_splitFirst finish (c :: u))
    rw [ht] at hcu
    rw [hs] at hrest
    have hmoved := TablePart.splitFirst_moved n (hcu.trans h)
    rw [hs] at hmoved
    rw [readAll_entries ht hmoved, ih (hrest.trans (hcu.trans h)), List.map_append]
  | case3 finish t c u ht innerFinish inner rest hs ihInner ih =>
    have hcu := size_le_of_suffix (skipBlanks_suffix t)
    have hrest := size_le_of_suffix (TablePart.suffix_splitFirst finish (c :: u))
    rw [ht] at hcu
    rw [hs] at hrest
    have hmoved := TablePart.splitFirst_moved n (hcu.trans h)
    rw [hs] at hmoved
    obtain ⟨tail, htail, hg, rfl⟩ := TablePart.exists_group_of_columns hs
    have hsize := (size_of_splitGroup? hg).trans ((size_le_of_suffix htail).trans (hcu.trans h))
    have hinner : size inner ≤ startOf finish rest - 1 := by
      rw [startOf]
      omega
    rw [readAll_columns ht hmoved, ihInner hinner, ih (hrest.trans (hcu.trans h)), List.map_append]

end

/-! ## A newline at the end of a body -/

section

variable (finish : Nat) (t : Text)

theorem Text.startOf_concat_newline :
  startOf (finish + 1) (t ++ ['\n']) = startOf finish t
  := by
  rw [startOf, size_append]
  apply Nat.add_sub_add_right

/-- A newline behind a note does not change it. -/
theorem Note.rel_split?_concat_newline :
  Option.Rel ReadsAlike (split? finish t) (split? (finish + 1) (t ++ ['\n']))
  := by
  rw [split?, split?, splitKeyword?_concat_newline (Unicode.forall_mem_of_all (by decide)),
    startOf_concat_newline]
  cases splitKeyword? ['n', 'o', 't', 'e'] t with
  | none => exact .none
  | some rest =>
    have h := (WithNewline.newline rest).dropWhile Unicode.isBlank
    rw [← trimStart, ← trimStart] at h
    rw [Option.map_some]
    dsimp only
    generalize trimStart rest = v at h
    generalize trimStart (rest ++ ['\n']) = w at h
    cases h with
    | nil => exact .none
    | newline v =>
      cases v with
      | nil => exact .none
      | cons c v =>
        rw [List.cons_append]
        dsimp only
        split
        · obtain ⟨hv, hr⟩ := Value.readsAlike_read
            ((WithNewline.newline v).dropWhile fun c => c = ' ' || c = '\t')
          rw [← skipSpaces, ← skipSpaces] at hv hr
          exact .some ⟨congrArg (fun value => Except.ok value.content) hv, hr.dropLine⟩
        · split
          · rw [← List.cons_append, splitGroup?_concat_newline (List.cons_ne_nil c v)]
            cases splitGroup? (c :: v) with
            | none => exact .some ⟨rfl, (WithNewline.newline t).dropLine⟩
            | some group => exact .some ⟨rfl, .newline _⟩
          · exact .none

theorem TablePart.groupWord?_concat_newline :
  groupWord? (t ++ ['\n']) = (groupWord? t).map fun group => (group.1, group.2 ++ ['\n'])
  := by
  have h := ((WithNewline.newline t).dropWhile Unicode.isWord).dropWhile Unicode.isBlank
  rw [← trimStart, ← trimStart] at h
  rw [groupWord?, groupWord?, takeWhile_concat rfl]
  generalize trimStart (t.dropWhile Unicode.isWord) = v at h
  generalize trimStart ((t ++ ['\n']).dropWhile Unicode.isWord) = w at h
  cases h with
  | nil =>
    rw [List.head?_nil, decide_eq_false (by decide), Bool.and_false]
    rfl
  | newline v =>
    cases v with
    | nil =>
      rw [List.nil_append, List.head?_cons, List.head?_nil, decide_eq_false (by decide),
        decide_eq_false (by decide), Bool.and_false]
      rfl
    | cons c v =>
      rw [List.cons_append, List.head?_cons, List.head?_cons]
      split <;> rfl

/-- A newline at the end does not change what the first line holds. -/
theorem TableEntry.ofFirstLine_concat_newline :
  ofFirstLine (finish + 1) (t ++ ['\n']) = ofFirstLine finish t
  := by
  rw [ofFirstLine, ofFirstLine, firstLine_concat_newline, startOf_concat_newline]

/-- A newline at the end does not change what a group holds. -/
theorem TablePart.ofGroup_concat_newline (word inner rest : Text) :
  ofGroup (finish + 1) (t ++ ['\n']) word inner (rest ++ ['\n']) = ofGroup finish t word inner rest
  := by
  rw [ofGroup, ofGroup, startOf_concat_newline, startOf_concat_newline]

/-- A newline at the end does not change the first part of a body. -/
theorem TablePart.readsAlike_splitFirst :
  ReadsAlike (splitFirst finish t) (splitFirst (finish + 1) (t ++ ['\n']))
  := by
  have hn := Note.rel_split?_concat_newline finish t
  have hdrop := (WithNewline.newline t).dropLine
  rw [splitFirst, splitFirst, groupWord?_concat_newline, startOf_concat_newline,
    TableEntry.ofFirstLine_concat_newline]
  generalize Note.split? finish t = x at hn
  generalize Note.split? (finish + 1) (t ++ ['\n']) = y at hn
  cases hn with
  | some hn => exact ⟨congrArg (fun note => entries [.ofNote note]) hn.1, hn.2⟩
  | none =>
    dsimp only
    cases hw : groupWord? t with
    | none => exact ⟨rfl, hdrop⟩
    | some group =>
      obtain ⟨word, tail⟩ := group
      rw [Option.map_some]
      dsimp only
      cases tail with
      | nil =>
        rw [groupWord?] at hw
        obtain ⟨hc, hw⟩ := Option.ite_none_right_eq_some.mp hw
        rw [(Prod.mk.inj (Option.some.inj hw)).2, Bool.and_eq_true] at hc
        exact absurd hc.2 (by decide)
      | cons c tail =>
        rw [splitGroup?_concat_newline (List.cons_ne_nil c tail)]
        cases splitGroup? (c :: tail) with
        | none => exact ⟨rfl, hdrop⟩
        | some inside =>
          refine ⟨?_, .newline _⟩
          exact (ofGroup_concat_newline finish t word inside.1 inside.2).symm

/-- A newline at the end of a body does not change its entries. -/
theorem TableEntry.readAll_concat_newline :
  readAll (finish + 1) (t ++ ['\n']) = readAll finish t
  := by
  have hskip {t u : Text} {c : Char} (ht : skipBlanks t = c :: u) :
      skipBlanks (t ++ ['\n']) = c :: (u ++ ['\n']) := by
    rw [← List.cons_append, ← ht]
    apply dropWhile_concat
    rw [← skipBlanks, ht]
    apply List.cons_ne_nil
  have hpart {finish : Nat} {c : Char} {u rest : Text} {part : TablePart}
      (hs : TablePart.splitFirst finish (c :: u) = (part, rest)) :
      ∃ rest', TablePart.splitFirst (finish + 1) (c :: (u ++ ['\n'])) = (part, rest')
        ∧ WithNewline rest rest' := by
    obtain ⟨hp, hr⟩ := TablePart.readsAlike_splitFirst finish (c :: u)
    rw [hs] at hp hr
    refine ⟨(TablePart.splitFirst (finish + 1) (c :: u ++ ['\n'])).2, ?_, hr⟩
    exact Prod.ext hp.symm rfl
  have hrest {finish : Nat} {rest rest' : Text} (h : WithNewline rest rest')
      (ih : readAll (finish + 1) (rest ++ ['\n']) = readAll finish rest) :
      readAll (finish + 1) rest' = readAll finish rest := by
    cases h with
    | nil => rw [readAll_blank rfl, readAll_blank rfl]
    | newline rest => exact ih
  fun_induction readAll finish t with
  | case1 finish t ht =>
    have hn : skipBlanks (t ++ ['\n']) = [] := dropWhile_concat_of_eq_nil rfl ht
    rw [readAll_blank hn]
  | case2 finish t c u ht entries rest hs ih =>
    have hn := hskip ht
    obtain ⟨rest', hs', hr⟩ := hpart hs
    rw [readAll_entries hn hs', hrest hr ih]
  | case3 finish t c u ht innerFinish inner rest hs ihInner ih =>
    have hn := hskip ht
    obtain ⟨rest', hs', hr⟩ := hpart hs
    rw [readAll_columns hn hs', hrest hr ih]

end

/-! ## Balanced braces -/

namespace Text

/-- Whether some lexemes close the braces that they open and no other ones: they lie inside of any
group that they stand in. -/
def Balanced (ls : List Lexeme) : Prop :=
  ∀ depth ms, closeLexemes '{' '}' depth (ls ++ ms)
    = (closeLexemes '{' '}' depth ms).map fun (inner, rest) => (ls ++ inner, rest)

section

variable {ls ms : List Lexeme}

/-- Lexemes in front of a delimiter that closes the last of `depth + 1` groups close the other ones
and no further one. -/
theorem closeLexemes_append_of_closer {opener closer : Char} {depth : Nat}
    (h : closeLexemes opener closer depth (ls ++ [.plain closer]) = some (ls, [])) (n : Nat)
    (ms : List Lexeme) :
  closeLexemes opener closer (n + depth) (ls ++ ms)
    = (closeLexemes opener closer n ms).map fun (inner, rest) => (ls ++ inner, rest)
  := by
  induction ls generalizing depth with
  | nil =>
    cases depth with
    | zero => exact Option.map_id'.symm
    | succ depth =>
      rw [List.nil_append, closeLexemes_closer_succ] at h
      cases h
  | cons l ls ih =>
    rw [List.cons_append] at h ⊢
    by_cases hc : l = .plain closer
    · subst hc
      cases depth with
      | zero =>
        rw [closeLexemes_closer_zero] at h
        cases h
      | succ depth =>
        rw [closeLexemes_closer_succ] at h
        obtain ⟨⟨inner, rest⟩, hg, he⟩ := Option.map_eq_some_iff.mp h
        cases he
        rw [← Nat.add_assoc, closeLexemes_closer_succ, ih hg, Option.map_map]
        rfl
    · rw [closeLexemes_ne_closer hc] at h ⊢
      obtain ⟨⟨inner, rest⟩, hg, he⟩ := Option.map_eq_some_iff.mp h
      cases he
      have hd : (if l = .plain opener then n + depth + 1 else n + depth)
          = n + if l = .plain opener then depth + 1 else depth := by
        split <;> rfl
      rw [hd, ih hg, Option.map_map]
      rfl

/-- Lexemes are balanced if a brace right behind them closes one right in front of them. -/
theorem balanced_iff :
  Balanced ls ↔ closeLexemes '{' '}' 0 (ls ++ [.plain '}']) = some (ls, [])
  := by
  constructor
  · intro h
    rw [h, closeLexemes_closer_zero, Option.map_some]
    dsimp only
    rw [List.append_nil]
  · intro h depth ms
    exact closeLexemes_append_of_closer h depth ms

/-- Balanced lexemes in a row are balanced. -/
theorem Balanced.append (hl : Balanced ls) (hm : Balanced ms) :
  Balanced (ls ++ ms)
  := by
  intro depth ks
  rw [List.append_assoc, hl, hm, Option.map_map]
  congr 1
  funext group
  exact congrArg (·, group.2) (List.append_assoc ls ms group.1).symm

/-- Lexemes without braces are balanced. -/
theorem balanced_of_plains (h : Lexeme.Plains (fun c => c ≠ '{' ∧ c ≠ '}') ls) :
  Balanced ls
  := closeLexemes_append h

/-- Balanced lexemes between braces are balanced. -/
theorem Balanced.group (h : Balanced ls) :
  Balanced (.plain '{' :: (ls ++ [.plain '}']))
  := by
  intro depth ms
  rw [List.cons_append, closeLexemes_opener (by decide), List.append_assoc, h, List.singleton_append,
    closeLexemes_closer_succ, Option.map_map, Option.map_map]
  congr 1
  funext group
  exact congrArg (·, group.2) (by simp)

/-- A text with balanced braces is what stands between two braces around it. -/
theorem splitGroup?_of_balanced {t : Text} (h : Balanced (lexemes t)) :
  splitGroup? ('{' :: (t ++ ['}'])) = some (t, [])
  := by
  have hl := lexemes_append_of_notQuote (r := ['}']) (List.forall_mem_singleton.mpr rfl) t
  have hc : closerOf? '{' = some '}' := rfl
  rw [splitGroup?, hc]
  dsimp only
  rw [closeGroup_eq rfl rfl, hl, List.map_singleton, balanced_iff.mp h, Option.map_some]
  dsimp only
  rw [ofLexemes_lexemes, ofLexemes_nil]

/-- The braces of a text are balanced if a brace in front of it is closed by one behind it. -/
theorem balanced_of_splitGroup? {t : Text} (h : splitGroup? ('{' :: (t ++ ['}'])) = some (t, [])) :
  Balanced (lexemes t)
  := by
  have hl := lexemes_append_of_notQuote (r := ['}']) (List.forall_mem_singleton.mpr rfl) t
  have hc : closerOf? '{' = some '}' := rfl
  rw [splitGroup?, hc] at h
  dsimp only at h
  rw [closeGroup_eq rfl rfl, hl, List.map_singleton] at h
  obtain ⟨⟨inner, rest⟩, hg, he⟩ := Option.map_eq_some_iff.mp h
  obtain ⟨hinner, hrest⟩ := Prod.mk.inj he
  have hsize : size (ofLexemes (lexemes t)) = size (ofLexemes inner) := by
    rw [ofLexemes_lexemes, hinner]
  obtain ⟨rfl, hr⟩ := DelimiterPairs.before_inj (eq_append_of_closeLexemes hg) hsize
  rw [balanced_iff, hg, (List.cons.inj hr).2]

/-! ## Groups of columns -/

/-- What stands in front of the body of a group of columns. -/
def columnsOpening : Text :=
  ['c', 'o', 'l', 'u', 'm', 'n', 's', ' ', '{', '\n']

/-- A group of columns with the given body on lines of its own. -/
def inColumns (body : Text) : Text :=
  columnsOpening ++ (body ++ ['\n', '}'])

/-- Whether the brace that opens a group of columns around a body is closed by the last brace of the
group, and so no earlier. -/
def FitsInColumns (body : Text) : Prop :=
  (inColumns body).matchingClose? 8 = some (size (inColumns body) - 1)

instance : DecidablePred FitsInColumns :=
  fun body => inferInstanceAs
    (Decidable ((inColumns body).matchingClose? 8 = some (size (inColumns body) - 1)))

variable {body : Text}

theorem inColumns_eq (body : Text) :
  inColumns body
    = ['c', 'o', 'l', 'u', 'm', 'n', 's', ' '] ++ '{' :: ('\n' :: (body ++ ['\n']) ++ ['}'])
  := by
  rw [inColumns, columnsOpening]
  simp

/-- A `columns` group around a body adds its opening and two characters. -/
theorem size_inColumns (body : Text) :
  size (inColumns body) = size columnsOpening + (size body + 2)
  := by
  rw [inColumns, size_append, size_append]
  rfl

/-- The braces of a body that fits into a `columns` group close within it. -/
theorem balanced_of_fitsInColumns (h : FitsInColumns body) :
  Balanced (lexemes ('\n' :: (body ++ ['\n'])))
  := by
  have hsize := size_inColumns body
  have hopening : size columnsOpening = 10 := rfl
  have hbyte := fromByte?_size_append ['c', 'o', 'l', 'u', 'm', 'n', 's', ' ']
    ('{' :: ('\n' :: (body ++ ['\n']) ++ ['}']))
  have h8 : size ['c', 'o', 'l', 'u', 'm', 'n', 's', ' '] = 8 := rfl
  rw [h8, ← inColumns_eq] at hbyte
  rw [FitsInColumns, matchingClose?, hbyte] at h
  dsimp only [Option.bind_eq_bind, Option.bind_some] at h
  obtain ⟨⟨inner, rest⟩, hg, hs⟩ := Option.bind_eq_some_iff.mp h
  have hinner : size inner = size ('\n' :: (body ++ ['\n'])) := by
    have hs : 8 + 1 + size inner = size (inColumns body) - 1 := Option.some.inj hs
    have hn : ('\n' : Char).utf8Size = 1 := rfl
    rw [size_cons, size_append, size_cons, hn, size_nil]
    omega
  obtain ⟨opener, closer, _, ht⟩ := exists_of_splitGroup? hg
  obtain ⟨hi, hr⟩ := append_inj_of_size (List.cons.inj ht).2 hinner.symm
  rw [← hi, ← (List.cons.inj hr).2] at hg
  exact balanced_of_splitGroup? hg

/-- A body that fits into a group of columns also fits when it stands in one already. -/
theorem balanced_inColumns (h : Balanced (lexemes ('\n' :: (body ++ ['\n'])))) :
  Balanced (lexemes ('\n' :: (inColumns body ++ ['\n'])))
  := by
  have hplains {r : Text} (hr : ∀ c ∈ r, c ≠ '{' ∧ c ≠ '}') : Balanced (r.map .plain) :=
    balanced_of_plains ((Lexeme.plains_map r).mpr hr)
  have hgroup : lexemes ('{' :: ('\n' :: (body ++ ['\n']) ++ ['}']))
      = .plain '{' :: (lexemes ('\n' :: (body ++ ['\n'])) ++ ['}'].map .plain) := by
    rw [lexemes_cons, Lexeme.first_plain rfl]
    dsimp only
    rw [lexemes_append_of_notQuote (List.forall_mem_singleton.mpr rfl)]
  rw [← List.cons_append, lexemes_append_of_notQuote (List.forall_mem_singleton.mpr rfl),
    inColumns_eq, ← List.cons_append, lexemes_append (Unicode.forall_mem_of_all (by decide)), hgroup]
  exact ((hplains (Unicode.forall_mem_of_all (by decide))).append h.group).append
    (hplains (Unicode.forall_mem_of_all (by decide)))

end

end Text

namespace TableEntry

/-- A group of columns is a part of its own. -/
theorem splitFirst_inColumns {body : Text} (h : Balanced (lexemes ('\n' :: (body ++ ['\n']))))
    (finish : Nat) :
  TablePart.splitFirst finish (inColumns body) = (.columns (finish - 1) ('\n' :: (body ++ ['\n'])), [])
  := by
  have hn : Note.split? finish (inColumns body) = none := rfl
  have hw : TablePart.groupWord? (inColumns body)
      = some (['c', 'o', 'l', 'u', 'm', 'n', 's'], '{' :: ('\n' :: (body ++ ['\n']) ++ ['}'])) := by
    rw [inColumns_eq]
    rfl
  rw [TablePart.splitFirst, hn, hw]
  dsimp only
  rw [splitGroup?_of_balanced h]
  dsimp only
  rw [TablePart.ofGroup, if_neg (by decide), if_pos (by decide)]
  rfl

/-- The entries of a group of columns are those of its body, further on by what stands in front of
it. -/
theorem readAll_inColumns {body : Text} (h : Balanced (lexemes ('\n' :: (body ++ ['\n']))))
    (offset : Nat) :
  readAll (offset + size (inColumns body)) (inColumns body)
    = (readAll (offset + size body) body).map (moved (size columnsOpening))
  := by
  have hs : skipBlanks (inColumns body) = inColumns body := rfl
  have hfinish : offset + size (inColumns body) - 1
      = size columnsOpening + (offset + size body) + 1 := by
    rw [size_inColumns]
    omega
  have hrest {finish : Nat} : readAll finish [] = [] := readAll_blank rfl
  rw [readAll_columns hs (splitFirst_inColumns h _), hfinish, readAll_newline,
    readAll_concat_newline, readAll_moved _ (Nat.le_add_left _ _), hrest, List.append_nil]

/-! ## What moved entries say -/

section

variable (n : Nat) (partials : List TablePartial) (entries : List TableEntry)

/-- Entries declare the same wherever they stand. -/
theorem declaredBy_moved :
  declaredBy (entries.map (moved n)) = declaredBy entries
  := by
  rw [declaredBy, List.filterMap_map, declaredBy]
  congr 1
  funext entry
  cases entry <;> rfl

/-- The problems with entries move along with them. -/
theorem findings_moved :
  findings partials (entries.map (moved n)) = (findings partials entries).map (Finding.moved n)
  := by
  rw [findings, List.filterMap_map, findings, List.map_filterMap]
  congr 1
  funext entry
  cases entry with
  | injection name offset =>
    rw [Function.comp_apply, moved, finding?, finding?]
    cases TablePartial.find? partials name <;> rfl
  | column c => rfl
  | index i => rfl
  | note text => rfl
  | problem finding => rfl

end

end TableEntry

/-! ## Bodies in groups of columns -/

/-- A block whose body stands in a group of columns. -/
def Block.inColumns (block : Block) : Block :=
  { block with body := Text.inColumns block.body }

theorem Finding.moved_moved (n m : Nat) (f : Finding) :
  (f.moved m).moved n = f.moved (n + m)
  := by
  obtain ⟨offset, problem⟩ := f
  cases offset with
  | none => rfl
  | some offset => exact congrArg (placed · problem) (Nat.add_assoc n m offset).symm

theorem TableEntry.moved_moved (n m : Nat) (entry : TableEntry) :
  (entry.moved m).moved n = entry.moved (n + m)
  := by
  cases entry with
  | problem f => exact congrArg problem (f.moved_moved n m)
  | injection name offset => exact congrArg (injection name) (Nat.add_assoc n m offset).symm
  | column c => rfl
  | index i => rfl
  | note text => rfl

theorem TableEntry.moved_zero (entry : TableEntry) :
  entry.moved 0 = entry
  := by
  cases entry with
  | problem f =>
    obtain ⟨offset, problem⟩ := f
    cases offset with
    | none => rfl
    | some offset => simp [moved, Finding.moved]
  | injection name offset => exact congrArg (injection name) (Nat.zero_add offset)
  | column c => rfl
  | index i => rfl
  | note text => rfl

/-- Groups of columns around a body leave the rest of its block as it is. -/
theorem Block.iterate_inColumns (depth : Nat) (block : Block) :
  inColumns^[depth] block = { block with body := Text.inColumns^[depth] block.body }
  := by
  induction depth with
  | zero => rfl
  | succ depth ih => rw [Function.iterate_succ_apply', ih, Function.iterate_succ_apply', inColumns]

section

variable {block : Block} (h : FitsInColumns block.body) (depth : Nat)

include h

/-- The braces of a body close within it however many `columns` groups stand around it. -/
theorem Block.balanced_iterate_inColumns :
  Balanced (lexemes ('\n' :: ((inColumns^[depth] block).body ++ ['\n'])))
  := by
  induction depth with
  | zero => exact balanced_of_fitsInColumns h
  | succ depth ih =>
    rw [Function.iterate_succ_apply']
    exact balanced_inColumns ih

/-- The entries of a body in groups of columns are those of the body, further on. -/
theorem Block.entries_iterate_inColumns :
  (inColumns^[depth] block).entries
    = block.entries.map (TableEntry.moved (depth * size columnsOpening))
  := by
  induction depth with
  | zero =>
    rw [Nat.zero_mul, List.map_id'' TableEntry.moved_zero]
    rfl
  | succ depth ih =>
    have hstep : (inColumns^[depth] block).inColumns.entries
        = (inColumns^[depth] block).entries.map (TableEntry.moved (size columnsOpening)) :=
      TableEntry.readAll_inColumns (balanced_iterate_inColumns h depth) _
    rw [Function.iterate_succ_apply', hstep, ih, List.map_map, Nat.succ_mul, Nat.add_comm]
    congr 1
    funext entry
    apply TableEntry.moved_moved

end

/-- A body in groups of columns declares what it declares without them, whatever partials are
available, and has the same problems in the same order, further on by what the groups have put in
front of it. -/
theorem columns_groups_are_transparent (policy : MergePolicy) (partials : List TablePartial)
    (block : Block) (depth : Nat) (h : FitsInColumns block.body) :
  let nested := Block.inColumns^[depth] block
  TableEntry.columns partials nested.entries = TableEntry.columns partials block.entries
    ∧ TableEntry.indexes partials nested.entries = TableEntry.indexes partials block.entries
    ∧ TableEntry.noteOf? nested.entries = TableEntry.noteOf? block.entries
    ∧ TableEntry.injected partials nested.entries = TableEntry.injected partials block.entries
    ∧ Table.ofBlock policy partials nested = Table.ofBlock policy partials block
    ∧ TablePartial.ofBlock policy partials nested = TablePartial.ofBlock policy partials block
    ∧ TableEntry.findings partials nested.entries
      = (TableEntry.findings partials block.entries).map
        (Finding.moved (depth * size columnsOpening))
  := by
  intro nested
  have hn : nested = { block with body := Text.inColumns^[depth] block.body } :=
    block.iterate_inColumns depth
  have hentries : nested.entries = _ := Block.entries_iterate_inColumns h depth
  have hdeclared : TableEntry.declaredBy nested.entries = TableEntry.declaredBy block.entries := by
    rw [hentries, TableEntry.declaredBy_moved]
  have hheader : nested.header = block.header := by rw [hn]
  have hsettings : nested.settings = block.settings := by rw [hn]
  refine ⟨TableEntry.columns_congr partials hdeclared, TableEntry.indexes_congr partials hdeclared,
    TableEntry.noteOf?_congr hdeclared, TableEntry.injected_congr partials hdeclared,
    Table.ofBlock_congr hheader hsettings hdeclared policy partials,
    TablePartial.ofBlock_congr hheader hsettings hdeclared policy partials, ?_⟩
  rw [hentries]
  apply TableEntry.findings_moved

/-- A body with a note that spans lines, an injection, a line that is no column, an index in a group
of its own and a lone quote in the last line, in three groups of columns. -/
theorem three_groups_of_columns_are_transparent :
  let body : Text := "Note: '''a
b'''
~p
?
indexes { x [pk] }
id it's".toList
  let block : Block := ⟨⟨.table, none, some ['t'], none⟩, [], body, 9⟩
  FitsInColumns body
    ∧ (TableEntry.findings [] block.entries).map Finding.offset = [some 25, some 28]
    ∧ TableEntry.findings [] (Block.inColumns^[3] block).entries
      = (TableEntry.findings [] block.entries).map (Finding.moved 30)
    ∧ Table.ofBlock .tableWins [] (Block.inColumns^[3] block) = Table.ofBlock .tableWins [] block
  := by
  intro body block
  have hfits : FitsInColumns block.body := by decide +kernel
  obtain ⟨_, _, _, _, htable, _, hfindings⟩ :=
    columns_groups_are_transparent .tableWins [] block 3 hfits
  exact ⟨hfits, by decide +kernel, hfindings, htable⟩

end DatabaseMarkup
