import DatabaseMarkup.Proofs.Checked.Walk
import DatabaseMarkup.Proofs.Text.Delimiter

/-!
# Checked scans for delimiters

The scans of `DatabaseMarkup.Text.Delimiter` by offsets into the bytes of a text: the end of a
group, the pairs of a text, a character outside of groups, and the parts between separators.  They
are `Checked.walk` with different visits.
-/

namespace DatabaseMarkup.Checked

open Text Octets

/-! ## The end of a group -/

/-- The byte of the delimiter that closes a group. -/
def closerByte? (opener : UInt8) : Option UInt8 :=
  if opener = octet '{' then some (octet '}')
  else if opener = octet '[' then some (octet ']')
  else if opener = octet '(' then some (octet ')')
  else none

/-- The visit that counts the groups of a kind which are open and finds the end of the first
one. -/
def closeVisit (opener closer : UInt8) (i : Nat) (b : UInt8) (depth : Nat) :
    Checked (Visit Nat Nat) :=
  if Octets.isQuote b then
    return .literal
  else if b = opener then
    return .next (depth + 1)
  else if b = closer then do
    let depth ← subtract depth 1
    if depth = 0 then return .found i else return .next depth
  else
    return .next depth

/-- The offset of the delimiter that closes the one at an offset. -/
def matchingClose (t : Text) (start : Nat) : Checked (Option Nat) :=
  match (bytes t)[start]? with
  | none => return none
  | some opener =>
    match closerByte? opener with
    | none => return none
    | some closer => do
      let r ← walk (bytes t) (closeVisit opener closer) start 0
      return r.getLeft?

/-- A delimiter and the one that closes it are ASCII characters and no quotes. -/
theorem of_closerOf? {opener closer : Char} (h : closerOf? opener = some closer) :
  (IsAscii opener ∧ isQuote opener = false) ∧ (IsAscii closer ∧ isQuote closer = false)
    ∧ opener ≠ closer ∧ closerByte? (octet opener) = some (octet closer)
  := by
  rw [closerOf?] at h
  split at h
  · cases h
    subst_vars
    decide
  · split at h
    · cases h
      subst_vars
      decide
    · obtain ⟨rfl, h⟩ := Option.ite_none_right_eq_some.mp h
      cases h
      decide

/-- No byte of a character that opens nothing is the octet of an opening delimiter. -/
theorem closerByte?_eq_none {c : Char} (h : closerOf? c = none) {b : UInt8}
    (hb : b ∈ String.utf8EncodeChar c) :
  closerByte? b = none
  := by
  have hne {d e : Char} (hd : closerOf? d = some e) : ¬b = octet d := by
    rw [eq_octet_iff hb (of_closerOf? hd).1.1]
    rintro rfl
    rw [h] at hd
    cases hd
  rw [closerByte?, if_neg (hne rfl), if_neg (hne rfl), if_neg (hne rfl)]

section

variable {text : Text} {opener closer : Char}

/-- At a closing delimiter the outermost group ends, or one level of nesting does. -/
theorem closeVisit_closer (ho : closerOf? opener = some closer) (i depth : Nat) :
  closeVisit (octet opener) (octet closer) i (octet closer) (depth + 1)
    = .ok (if depth = 0 then .found i else .next depth)
  := by
  obtain ⟨⟨hoa, -⟩, ⟨hca, hcq⟩, hne, -⟩ := of_closerOf? ho
  rw [closeVisit, isQuote_byte (mem_octet hca), hcq, if_neg Bool.false_ne_true,
    if_neg fun h => hne ((octet_inj hca hoa).mp h).symm, if_pos rfl]
  cases depth <;> rfl

/-- The walk goes over a lexeme that does not close the group. -/
theorem walk_closeVisit_first (ho : closerOf? opener = some closer) {c : Char} {t : Text}
    {p : Nat} (h : At text p (c :: t)) (hc : c ≠ closer) (depth : Nat) :
  walk (bytes text) (closeVisit (octet opener) (octet closer)) p (depth + 1)
    = walk (bytes text) (closeVisit (octet opener) (octet closer))
        (p + size (Lexeme.first c t).1.text) ((if c = opener then depth + 1 else depth) + 1)
  := by
  obtain ⟨⟨hoa, hoq⟩, ⟨hca, -⟩, -, -⟩ := of_closerOf? ho
  rw [walk_first h (fun _ => (if c = opener then depth + 1 else depth) + 1)]
  · split
    · rename_i hq
      rw [if_neg]
      rintro rfl
      rw [hoq] at hq
      cases hq
    · rfl
  · intro hq
    rw [closeVisit, isQuote_byte (mem_octet (isAscii_of_isQuote hq)), hq]
    rfl
  · intro hq i b hb
    rw [closeVisit, isQuote_byte hb, hq, if_neg Bool.false_ne_true]
    simp only [eq_octet_iff hb hoa, eq_octet_iff hb hca, hc, if_false]
    split <;> rfl
  · intro ha _
    rw [if_neg]
    rintro rfl
    exact ha hoa

/-- The walk from inside a group finds the closing delimiter where `closeGroup` cuts the text. -/
theorem walk_closeVisit (ho : closerOf? opener = some closer) {t : Text} {p depth : Nat}
    (h : At text p t) :
  (do
    let r ← walk (bytes text) (closeVisit (octet opener) (octet closer)) p (depth + 1)
    return r.getLeft?)
    = .ok ((closeGroup opener closer depth t).map fun (inner, _) => p + size inner)
  := by
  have hca := (of_closerOf? ho).2.1.1
  fun_induction closeGroup opener closer depth t generalizing p with
  | case1 =>
    rw [walk_end h.not_lt_length]
    rfl
  | case2 t =>
    rw [walk_found h hca (closeVisit_closer ho p 0)]
    rfl
  | case3 t depth ih =>
    rw [walk_next h hca (closeVisit_closer ho p (depth + 1)), ih (h.cons_ascii hca),
      Option.map_map]
    congr 2
    funext r
    simp only [Function.comp_apply, size_cons, Char.utf8Size_eq_one_iff.mpr hca, Nat.add_assoc]
  | case4 depth c t hc l =>
    rename_i ih
    simp only [dite_eq_ite] at ih
    rw [walk_closeVisit_first ho h hc, ih h.first, Option.map_map]
    congr 2
    funext r
    simp only [Function.comp_apply, size_append, Nat.add_assoc, l]

/-- The closing delimiter of the group that begins at a place, if there is one. -/
theorem At.matchingClose_eq {t : Text} {p : Nat} (h : At text p t) :
  matchingClose text p = .ok ((splitGroup? t).map fun (inner, _) => p + 1 + size inner)
  := by
  rw [matchingClose, h.getElem?_eq]
  cases t with
  | nil => rfl
  | cons c t =>
    obtain ⟨b, hmem, bs, hb⟩ := exists_first_byte c t
    rw [hb, List.head?_cons, splitGroup?]
    dsimp only
    cases hc : closerOf? c with
    | none =>
      rw [closerByte?_eq_none hc hmem]
      rfl
    | some closer =>
      obtain ⟨⟨ha, hq⟩, -, -, hbyte⟩ := of_closerOf? hc
      rw [utf8EncodeChar_of_isAscii ha, List.mem_singleton] at hmem
      rw [hmem, hbyte]
      dsimp only
      rw [walk_next h ha (u := 0 + 1), walk_closeVisit hc (h.cons_ascii ha)]
      rw [closeVisit, isQuote_byte (mem_octet ha), hq]
      exact if_pos rfl

/-- A group is cut out of a text between its delimiters. -/
theorem At.group {t inner rest : Text} {p : Nat} (h : At text p t)
    (hg : splitGroup? t = some (inner, rest)) :
  matchingClose text p = .ok (some (p + 1 + size inner))
    ∧ slice text (p + 1) (p + 1 + size inner) = .ok inner
    ∧ At text (p + 1 + size inner + 1) rest
  := by
  obtain ⟨opener, closer, hc, rfl⟩ := exists_of_splitGroup? hg
  obtain ⟨⟨ho, -⟩, ⟨hc, -⟩, -, -⟩ := of_closerOf? hc
  have hi := h.cons_ascii ho
  refine ⟨?_, hi.slice_eq, hi.append.cons_ascii hc⟩
  rw [h.matchingClose_eq, hg]
  rfl

/-- Where no group stands there is no matching delimiter. -/
theorem At.not_group {t : Text} {p : Nat} (h : At text p t) (hg : splitGroup? t = none) :
  matchingClose text p = .ok none
  := by
  rw [h.matchingClose_eq, hg]
  rfl

end

/-! ## Pairs -/

/-- The pairs found so far and the braces and brackets that are open, innermost first. -/
structure PairState where
  closes : List (Nat × Nat)
  braces : List Nat
  brackets : List Nat

/-- The visit that pairs braces and brackets. -/
def pairVisit (i : Nat) (b : UInt8) (s : PairState) : Checked (Visit Empty PairState) :=
  if Octets.isQuote b then
    return .literal
  else if b = octet '{' then
    return .next { s with braces := i :: s.braces }
  else if b = octet '[' then
    return .next { s with brackets := i :: s.brackets }
  else if b = octet '}' then
    match s.braces with
    | [] => return .next s
    | opener :: braces => return .next { s with closes := s.closes ++ [(opener, i)], braces }
  else if b = octet ']' then
    match s.brackets with
    | [] => return .next s
    | opener :: brackets => return .next { s with closes := s.closes ++ [(opener, i)], brackets }
  else
    return .next s

/-- The pairs of a text. -/
def pairs (t : Text) : Checked DelimiterPairs := do
  match ← walk (bytes t) pairVisit 0 ⟨[], [], []⟩ with
  | .inl r => nomatch r
  | .inr s => return ⟨s.closes⟩

/-- The state after a plain character. -/
def PairState.after (s : PairState) (i : Nat) (c : Char) : PairState :=
  if c = '{' then
    { s with braces := i :: s.braces }
  else if c = '[' then
    { s with brackets := i :: s.brackets }
  else if c = '}' then
    match s.braces with
    | [] => s
    | opener :: braces => { s with closes := s.closes ++ [(opener, i)], braces }
  else if c = ']' then
    match s.brackets with
    | [] => s
    | opener :: brackets => { s with closes := s.closes ++ [(opener, i)], brackets }
  else
    s

/-- Every byte of a character outside literals changes the open delimiters as the character does.
-/
theorem pairVisit_plain {c : Char} (hc : isQuote c = false) {b : UInt8}
    (hb : b ∈ String.utf8EncodeChar c) (i : Nat) (s : PairState) :
  pairVisit i b s = .ok (.next (s.after i c))
  := by
  rw [pairVisit, isQuote_byte hb, hc, if_neg Bool.false_ne_true, PairState.after]
  simp (disch := decide) only [eq_octet_iff hb]
  split
  · rfl
  · split
    · rfl
    · split
      · cases s.braces <;> rfl
      · split
        · cases s.brackets <;> rfl
        · rfl

theorem exists_quoted_first {c : Char} (hc : isQuote c) (t : Text) :
  ∃ tail, (Lexeme.first c t).1 = .quoted c tail
  := by
  rw [Lexeme.first]
  split
  · split <;> exact ⟨_, rfl⟩
  · split <;> exact ⟨_, rfl⟩

theorem pairUp_quoted (p : Nat) (braces brackets : List Nat) (quote : Char) (tail : Text)
    (ls : List Lexeme) :
  DelimiterPairs.pairUp p braces brackets (.quoted quote tail :: ls)
    = DelimiterPairs.pairUp (p + size (Lexeme.quoted quote tail).text) braces brackets ls
  := by
  rw [DelimiterPairs.pairUp.eq_def]
  rfl

/-- A character outside literals closes a pair or changes what is open, and the rest is paired
from there. -/
theorem pairUp_plain (s : PairState) (p : Nat) (c : Char) (ls : List Lexeme) :
  s.closes ++ DelimiterPairs.pairUp p s.braces s.brackets (.plain c :: ls)
    = (s.after p c).closes ++ DelimiterPairs.pairUp (p + size (Lexeme.plain c).text)
        (s.after p c).braces (s.after p c).brackets ls
  := by
  obtain ⟨closes, braces, brackets⟩ := s
  rw [DelimiterPairs.pairUp.eq_def, PairState.after]
  simp only [Lexeme.plain.injEq]
  split
  · rfl
  · split
    · rfl
    · split
      · cases braces with
        | nil => rfl
        | cons opener braces => exact List.append_cons _ _ _
      · split
        · cases brackets with
          | nil => rfl
          | cons opener brackets => exact List.append_cons _ _ _
        · rfl

/-- The walk over a text records the pairs that `DelimiterPairs.pairUp` finds in its lexemes. -/
theorem walk_pairVisit {text t : Text} {p : Nat} (h : At text p t) (s : PairState) :
  ∃ s', walk (bytes text) pairVisit p s = .ok (.inr s')
    ∧ s'.closes = s.closes ++ DelimiterPairs.pairUp p s.braces s.brackets (lexemes t)
  := by
  fun_induction lexemes t generalizing p s with
  | case1 => exact ⟨s, walk_end h.not_lt_length, (List.append_nil _).symm⟩
  | case2 c t ih =>
    obtain ⟨s', hs, hc⟩ := ih h.first (if isQuote c then s else s.after p c)
    refine ⟨s', ?_, ?_⟩
    · rw [walk_first h fun i => s.after i c, hs]
      · intro hq
        rw [pairVisit, isQuote_byte (mem_octet (isAscii_of_isQuote hq)), hq]
        rfl
      · intro hq i b hb
        exact pairVisit_plain hq hb i s
      · intro ha i
        have hne {d : Char} (hd : IsAscii d) : c ≠ d := by
          rintro rfl
          exact ha hd
        simp (disch := decide) only [PairState.after, hne, if_false]
    · rw [hc]
      cases hq : isQuote c with
      | true =>
        obtain ⟨tail, hl⟩ := exists_quoted_first hq t
        rw [hl, if_pos rfl, pairUp_quoted]
      | false =>
        rw [Lexeme.first_plain hq, if_neg Bool.false_ne_true, pairUp_plain]

/-- The pairs of a text are found by offsets. -/
theorem pairs_eq (t : Text) :
  pairs t = .ok (DelimiterPairs.ofText t)
  := by
  obtain ⟨s, hs, hc⟩ := walk_pairVisit (at_zero t) ⟨[], [], []⟩
  rw [pairs, hs, ok_bind]
  dsimp only
  rw [hc]
  rfl

/-! ## Characters outside of groups -/

/-- The visit that counts open parentheses and finds a byte outside of them. -/
def unquotedVisit (target : UInt8) (i : Nat) (b : UInt8) (depth : Nat) : Checked (Visit Nat Nat) :=
  if b = target && depth = 0 then
    return .found i
  else if Octets.isQuote b then
    return .literal
  else if b = octet '(' then
    return .next (depth + 1)
  else if b = octet ')' then
    return .next (depth - 1)
  else
    return .next depth

/-- The offset of the first byte of the given value from an offset on that is outside of literals
and parentheses. -/
def findUnquoted (t : Text) (start : Nat) (target : UInt8) : Checked (Option Nat) := do
  let r ← walk (bytes t) (unquotedVisit target) start 0
  return r.getLeft?

theorem head_first (c : Char) (t : Text) :
  (Lexeme.first c t).1.head = c
  := by
  cases hc : isQuote c with
  | true =>
    obtain ⟨tail, hl⟩ := exists_quoted_first hc t
    rw [hl]
    rfl
  | false =>
    rw [Lexeme.first_plain hc]
    rfl

theorem parenthesesAfter_plain {c : Char} (hc : ¬IsAscii c) (depth : Nat) :
  parenthesesAfter depth (.plain c) = depth
  := by
  have hne {d : Char} (hd : IsAscii d) : Lexeme.plain c ≠ .plain d := by
    rintro ⟨⟩
    exact hc hd
  simp (disch := decide) only [parenthesesAfter, hne, if_false]

section

variable {text : Text} {target : Char}

/-- The walk goes over a lexeme that does not begin with what is looked for. -/
theorem walk_unquotedVisit_first (ht : IsAscii target) {c : Char} {t : Text} {p depth : Nat}
    (h : At text p (c :: t)) (hc : ¬(depth = 0 && c = target) = true) :
  walk (bytes text) (unquotedVisit (octet target)) p depth
    = walk (bytes text) (unquotedVisit (octet target)) (p + size (Lexeme.first c t).1.text)
        (parenthesesAfter depth (Lexeme.first c t).1)
  := by
  rw [Bool.and_comm] at hc
  have hne {b : UInt8} (hb : b ∈ String.utf8EncodeChar c) :
      ¬(b = octet target && depth = 0) = true := by
    rwa [decide_eq_octet hb ht]
  rw [walk_first h fun _ => parenthesesAfter depth (.plain c)]
  · split
    · rename_i hq
      obtain ⟨tail, hl⟩ := exists_quoted_first hq t
      rw [hl]
      rfl
    · rename_i hq
      rw [Lexeme.first_plain (eq_false_of_ne_true hq)]
  · intro hq
    have hb := mem_octet (isAscii_of_isQuote hq)
    rw [unquotedVisit, if_neg (hne hb), isQuote_byte hb, hq]
    rfl
  · intro hq i b hb
    rw [unquotedVisit, if_neg (hne hb), isQuote_byte hb, hq, if_neg Bool.false_ne_true,
      parenthesesAfter]
    simp (disch := decide) only [eq_octet_iff hb, Lexeme.plain.injEq]
    split
    · rfl
    · split <;> rfl
  · intro ha _
    apply parenthesesAfter_plain ha

/-- The walk finds its target where `cutUnquoted` cuts the lexemes. -/
theorem walk_unquotedVisit (ht : IsAscii target) {t : Text} {p depth : Nat} (h : At text p t) :
  (do
    let r ← walk (bytes text) (unquotedVisit (octet target)) p depth
    return r.getLeft?)
    = .ok ((cutUnquoted target depth (lexemes t)).map fun (before, _) => p + size before)
  := by
  fun_induction lexemes t generalizing p depth with
  | case1 =>
    rw [walk_end h.not_lt_length]
    rfl
  | case2 c t ih =>
    rw [cutUnquoted, head_first]
    split
    · rename_i hc
      rw [Bool.and_eq_true, decide_eq_true_eq, decide_eq_true_eq] at hc
      obtain ⟨rfl, rfl⟩ := hc
      rw [walk_found h ht (r := p)]
      · rfl
      · rw [unquotedVisit, decide_eq_true rfl]
        rfl
    · rename_i hc
      rw [walk_unquotedVisit_first ht h hc, ih h.first, Option.map_map]
      congr 2
      funext r
      simp only [Function.comp_apply, size_append, Nat.add_assoc]

/-- The place of a character outside of literals and parentheses, if there is one. -/
theorem At.findUnquoted_eq (ht : IsAscii target) {t : Text} {p : Nat} (h : At text p t) :
  findUnquoted text p (octet target)
    = .ok ((cutAtUnquoted target t).map fun (before, _) => p + size before)
  := walk_unquotedVisit ht h

end

/-! ## Parts -/

/-- The parts found so far, the number of open groups, and where the current part begins. -/
structure SplitState where
  parts : List Text
  depth : Nat
  start : Nat

/-- The visit that cuts a text at a separator outside of groups. -/
def splitVisit (t : Text) (separator : UInt8) (i : Nat) (b : UInt8) (s : SplitState) :
    Checked (Visit Empty SplitState) :=
  if Octets.isQuote b then
    return .literal
  else if b = octet '(' || b = octet '[' || b = octet '{' then
    return .next { s with depth := s.depth + 1 }
  else if b = octet ')' || b = octet ']' || b = octet '}' then
    return .next { s with depth := s.depth - 1 }
  else if b = separator && s.depth = 0 then do
    let part ← slice t s.start i
    return .next { s with parts := s.parts ++ [part], start := i + 1 }
  else
    return .next s

/-- The parts of a text between the separators outside of literals and groups. -/
def splitTopLevel (separator : UInt8) (t : Text) : Checked (List Text) := do
  match ← walk (bytes t) (splitVisit t separator) 0 ⟨[], 0, 0⟩ with
  | .inl r => nomatch r
  | .inr s => do
    let part ← sliceFrom t s.start
    return s.parts ++ [part]

theorem groupsAfter_plain {c : Char} (hc : ¬IsAscii c) (depth : Nat) :
  groupsAfter depth (.plain c) = depth
  := by
  have hne {d : Char} (hd : IsAscii d) : Lexeme.plain c ≠ .plain d := by
    rintro ⟨⟩
    exact hc hd
  simp (disch := decide) only [groupsAfter, hne, decide_false, Bool.or_false, Bool.false_eq_true,
    if_false]

section

variable {text : Text} {separator : Char}

/-- The walk goes over a lexeme at which the text is not cut. -/
theorem walk_splitVisit_first (ha : IsAscii separator) {c : Char} {t : Text} {p : Nat}
    {s : SplitState} (h : At text p (c :: t))
    (hc : ¬((Lexeme.first c t).1 = .plain separator && s.depth = 0
      && !isDelimiter (Lexeme.first c t).1) = true) :
  walk (bytes text) (splitVisit text (octet separator)) p s
    = walk (bytes text) (splitVisit text (octet separator)) (p + size (Lexeme.first c t).1.text)
        { s with depth := groupsAfter s.depth (Lexeme.first c t).1 }
  := by
  rw [walk_first h fun _ => { s with depth := groupsAfter s.depth (.plain c) }]
  · split
    · rename_i hq
      obtain ⟨tail, hl⟩ := exists_quoted_first hq t
      rw [hl]
      rfl
    · rename_i hq
      rw [Lexeme.first_plain (eq_false_of_ne_true hq)]
  · intro hq
    rw [splitVisit, isQuote_byte (mem_octet (isAscii_of_isQuote hq)), hq]
    rfl
  · intro hq i b hb
    rw [Lexeme.first_plain hq] at hc
    rw [splitVisit, isQuote_byte hb, hq, if_neg Bool.false_ne_true, groupsAfter]
    simp (disch := decide) only [eq_octet_iff hb, eq_octet_iff hb ha, Lexeme.plain.injEq]
    split
    · rfl
    · rename_i ho
      split
      · rfl
      · rename_i hd
        have hd : isDelimiter (.plain c) = false := by
          simp only [Bool.or_eq_true, decide_eq_true_eq, not_or] at ho hd
          simp only [isDelimiter, Lexeme.plain.injEq, ho, hd, decide_false, Bool.or_false]
        rw [hd, Bool.not_false, Bool.and_true] at hc
        simp only [Lexeme.plain.injEq] at hc
        rw [if_neg hc]
        rfl
  · intro ha _
    rw [groupsAfter_plain ha]

/-- The walk cuts the text at a separator. -/
theorem walk_splitVisit_separator (hs : isQuote separator = false)
    (hd : isDelimiter (.plain separator) = false) (ha : IsAscii separator) {cur t : Text}
    {start : Nat} (h : At text start (cur ++ separator :: t)) (parts : List Text) :
  walk (bytes text) (splitVisit text (octet separator)) (start + size cur) ⟨parts, 0, start⟩
    = walk (bytes text) (splitVisit text (octet separator)) (start + size cur + 1)
        ⟨parts ++ [cur], 0, start + size cur + 1⟩
  := by
  apply walk_next h.append ha
  have hb := mem_octet ha
  rw [splitVisit, isQuote_byte hb, hs, if_neg Bool.false_ne_true]
  simp only [isDelimiter, Lexeme.plain.injEq, Bool.or_eq_false_iff, decide_eq_false_iff_not] at hd
  simp (disch := decide) only [eq_octet_iff hb, hd, decide_false, Bool.or_false,
    Bool.false_eq_true, if_false, decide_true, Bool.and_true, if_true, h.slice_eq, ok_bind,
    pure_eq]

/-- The walk finds the parts of the text, of which `cur` is the beginning of the current one. -/
theorem walk_splitVisit (hs : isQuote separator = false) (ha : IsAscii separator) {cur t : Text}
    {start : Nat} (h : At text start (cur ++ t)) (parts : List Text) (depth : Nat) :
  ∃ s part,
    walk (bytes text) (splitVisit text (octet separator)) (start + size cur) ⟨parts, depth, start⟩
      = .ok (.inr s)
    ∧ sliceFrom text s.start = .ok part
    ∧ s.parts ++ [part]
      = parts ++ (splitLexemes separator depth (lexemes t)).modifyHead (cur ++ ·)
  := by
  fun_induction lexemes t generalizing cur start parts depth with
  | case1 =>
    refine ⟨⟨parts, depth, start⟩, _, walk_end h.append.not_lt_length, h.sliceFrom_eq, rfl⟩
  | case2 c t ih =>
    by_cases hc : ((Lexeme.first c t).1 = .plain separator && depth = 0
      && !isDelimiter (Lexeme.first c t).1) = true
    · rw [splitLexemes, if_pos hc]
      simp only [Bool.and_eq_true, decide_eq_true_eq, Bool.not_eq_true'] at hc
      obtain ⟨⟨hl, rfl⟩, hd⟩ := hc
      have hcs := head_first c t
      rw [hl] at hcs hd
      obtain rfl : separator = c := hcs
      rw [Lexeme.first_plain hs] at ih ⊢
      have hnext : At text (start + size cur + 1) ([] ++ t) := h.append.cons_ascii ha
      obtain ⟨s, part, hw, hp, he⟩ := ih hnext (parts ++ [cur]) 0
      refine ⟨s, part, ?_, hp, ?_⟩
      · rw [walk_splitVisit_separator hs hd ha h]
        exact hw
      · rw [he, List.append_assoc, List.modifyHead_cons, List.append_nil]
        cases splitLexemes separator 0 (lexemes t) <;> rfl
    · have hw := walk_splitVisit_first ha (s := ⟨parts, depth, start⟩) h.append hc
      have hcur : At text start ((cur ++ (Lexeme.first c t).1.text) ++ (Lexeme.first c t).2) := by
        rwa [List.append_assoc, Lexeme.text_first_append]
      obtain ⟨s, part, hws, hp, he⟩ :=
        ih hcur parts (groupsAfter depth (Lexeme.first c t).1)
      refine ⟨s, part, ?_, hp, ?_⟩
      · rw [hw, Nat.add_assoc, ← size_append]
        exact hws
      · rw [he, splitLexemes_of_ne hc, List.modifyHead_modifyHead]
        congr 2
        funext u
        exact List.append_assoc _ _ _

/-- A text is split by offsets into the parts between its separators at the top level. -/
theorem splitTopLevel_eq (hs : isQuote separator = false) (ha : IsAscii separator) (t : Text) :
  splitTopLevel (octet separator) t = .ok (Text.splitTopLevel separator t)
  := by
  obtain ⟨s, part, hw, hp, he⟩ :=
    walk_splitVisit hs ha (at_zero ([] ++ t)) [] 0
  rw [size_nil, Nat.add_zero, List.nil_append] at hw
  rw [List.nil_append] at hp
  rw [splitTopLevel, hw, ok_bind]
  dsimp only
  rw [hp, ok_bind, he, List.nil_append, Text.splitTopLevel]
  cases splitLexemes separator 0 (lexemes t) <;> rfl

end

end DatabaseMarkup.Checked
