import DatabaseMarkup.Proofs.Text.Lexeme
import DatabaseMarkup.Settings.Value

/-!
# Literals as values

A complete literal is read as one value, whatever follows it.  `Text.IsLiteral` says what a complete
literal is, there is one lemma for each kind of them, and `Value.read_first` states that a value that
begins with a complete literal ends where the lexeme does.
-/

namespace DatabaseMarkup

namespace Text

/-! ## Complete literals -/

/-- Whether a text is a quoted literal that is closed where the text ends. -/
inductive IsLiteral : Text → Prop
  | line {quote : Char} {inner : Text} (hq : isQuote quote)
      (hi : closeLine quote (inner ++ [quote]) = some (inner, [])) :
      IsLiteral (quote :: (inner ++ [quote]))
  | block {inner : Text} (hi : ¬tripleQuote <:+: inner ++ [apostrophe, apostrophe]) :
      IsLiteral (tripleQuote ++ (inner ++ tripleQuote))

/-- No backtick stands inside of a literal between backticks. -/
theorem backtick_notMem_of_closeLine {t inner rest : Text}
    (h : closeLine backtick t = some (inner, rest)) :
  backtick ∉ inner
  := by
  induction t generalizing inner with
  | nil => cases h
  | cons c t ih =>
    by_cases hn : c = '\n'
    · rw [hn, closeLine_newline] at h
      cases h
    · by_cases hc : c = backtick
      · subst hc
        rw [closeLine_quote rfl] at h
        cases h
        exact List.not_mem_nil
      · rw [closeLine_of_ne hn (by simp) hc] at h
        obtain ⟨⟨i, r⟩, hi, hr⟩ := Option.map_eq_some_iff.mp h
        cases hr
        rw [List.mem_cons, not_or]
        exact ⟨Ne.symm hc, ih hi⟩

theorem IsLiteral.two_le_length {q : Text} (hq : IsLiteral q) :
  2 ≤ q.length
  := by
  cases hq with
  | line _ _ =>
    rw [List.length_cons, List.length_append, List.length_singleton]
    omega
  | block _ =>
    rw [List.length_append, List.length_cons]
    simp only [List.length_cons, List.length_append, List.length_nil]
    omega

/-- Three apostrophes alone open a literal that is not closed. -/
theorem not_isLiteral_tripleQuote :
  ¬IsLiteral tripleQuote
  := by
  intro h
  generalize hq : tripleQuote = q at h
  cases h with
  | @line quote inner _ hi =>
    obtain ⟨rfl, hinner⟩ := List.cons.inj hq
    have hinner : [apostrophe] ++ [apostrophe] = inner ++ [apostrophe] := hinner
    obtain rfl := List.append_cancel_right hinner
    rw [List.singleton_append, closeLine_quote rfl] at hi
    cases hi
  | block _ =>
    have hl := congrArg List.length hq
    simp at hl

end Text

/-! ## Values -/

namespace Value

open Text

/-- A literal between backticks is an expression. -/
theorem read_expression {inner : Text} (h : backtick ∉ inner) (u : Text) :
  read (backtick :: (inner ++ backtick :: u)) = (.expression (String.ofList inner), u)
  := by
  rw [read.eq_def, if_neg (by rw [List.isPrefixOf_cons_cons]; exact Bool.false_ne_true)]
  dsimp only
  rw [if_pos rfl, cutAtMark_append h]

/-- A literal on one line is read with its escapes.  An empty one may not be followed by another
apostrophe. -/
theorem read_line {quote : Char} (hq : isQuote quote) (hb : quote ≠ backtick) {inner : Text}
    (hi : closeLine quote (inner ++ [quote]) = some (inner, [])) {u : Text}
    (hu : inner = [] → u.head? ≠ some apostrophe) :
  read (quote :: (inner ++ quote :: u)) = (.text (String.ofList (unescape quote inner)), u)
  := by
  have hp : ¬tripleQuote.isPrefixOf (quote :: (inner ++ quote :: u)) = true := by
    intro h
    rw [List.isPrefixOf_cons_cons, Bool.and_eq_true, beq_iff_eq] at h
    obtain ⟨rfl, h⟩ := h
    exact Lexeme.not_isPrefixOf_literal hi hu h
  rw [read.eq_def, if_neg hp]
  dsimp only
  rw [if_neg hb, if_pos hq, closeLine_reread hq hi]

/-- A literal between three apostrophes on either side loses the blanks at its ends. -/
theorem read_block {inner : Text} (hi : ¬tripleQuote <:+: inner ++ [apostrophe, apostrophe])
    (u : Text) :
  read (tripleQuote ++ (inner ++ tripleQuote) ++ u) = (.text (String.ofList (trim inner)), u)
  := by
  have hp : tripleQuote.isPrefixOf (tripleQuote ++ (inner ++ tripleQuote) ++ u) := by
    rw [List.isPrefixOf_iff_prefix, List.append_assoc]
    apply List.prefix_append
  have hd : (tripleQuote ++ (inner ++ tripleQuote) ++ u).drop 3 = inner ++ tripleQuote ++ u := rfl
  have hc : cutAtMark tripleQuote (inner ++ tripleQuote ++ u) = some (inner, u) :=
    (cutAtMark_eq_some_iff (List.cons_ne_nil _ _)).mpr ⟨rfl, hi⟩
  rw [read.eq_def, if_pos hp, hd, hc]

/-- A literal is read as one value, whatever follows it. -/
theorem exists_read_literal {q : Text} (hq : IsLiteral q) :
  ∃ v, ∀ u : Text, u.head? ≠ some apostrophe → read (q ++ u) = (v, u)
  := by
  cases hq with
  | @line quote inner hq hi =>
    have ht (u : Text) : quote :: (inner ++ [quote]) ++ u = quote :: (inner ++ quote :: u) := by
      simp
    by_cases hb : quote = backtick
    · subst hb
      exact ⟨_, fun u _ => (congrArg read (ht u)).trans
        (read_expression (backtick_notMem_of_closeLine hi) u)⟩
    · exact ⟨_, fun u hu => (congrArg read (ht u)).trans (read_line hq hb hi fun _ => hu)⟩
  | block hi => exact ⟨_, fun u _ => read_block hi u⟩

/-- What is read of a literal that something follows is what is read of it alone. -/
theorem read_literal {q : Text} (hq : IsLiteral q) {u : Text} (hu : u.head? ≠ some apostrophe) :
  read (q ++ u) = ((read q).1, u)
  := by
  obtain ⟨v, hv⟩ := exists_read_literal hq
  have h := hv [] (fun h => nomatch h)
  rw [List.append_nil] at h
  rw [hv u hu, h]

/-- A value that begins with a complete literal ends where the lexeme does. -/
theorem read_first {c : Char} (hc : isQuote c) {t : Text}
    (hl : IsLiteral (Lexeme.first c t).1.text) :
  (read (c :: t)).2 = (Lexeme.first c t).2
  := by
  have hprefix : tripleQuote.isPrefixOf (c :: t)
      = (c = apostrophe && [apostrophe, apostrophe].isPrefixOf t) := by
    rw [List.isPrefixOf_cons_cons, Bool.beq_eq_decide_eq]
    exact congrArg (· && _) (decide_eq_decide.mpr eq_comm)
  rw [read.eq_def, hprefix]
  rw [Lexeme.first] at hl ⊢
  by_cases hp : (c = apostrophe && [apostrophe, apostrophe].isPrefixOf t) = true
  · rw [if_pos hp] at hl ⊢
    rw [if_pos hp, List.drop_succ_cons]
    rw [Bool.and_eq_true, decide_eq_true_eq] at hp
    cases hcut : cutAtMark tripleQuote (t.drop 2) with
    | none =>
      rw [hcut, hp.1] at hl
      exact absurd hl not_isLiteral_tripleQuote
    | some p => rfl
  · rw [if_neg hp, if_pos hc] at hl ⊢
    rw [if_neg hp]
    dsimp only
    cases hclose : closeLine c t with
    | none =>
      rw [hclose] at hl
      exact absurd hl.two_le_length (Nat.lt_irrefl 1)
    | some p =>
      obtain ⟨inner, rest⟩ := p
      by_cases hb : c = backtick
      · subst hb
        have hcut : cutAtMark [backtick] t = some (inner, rest) := by
          rw [closeLine_append hclose, cutAtMark_append (backtick_notMem_of_closeLine hclose)]
        rw [if_pos rfl, hcut]
      · rw [if_neg hb, if_pos hc]

end Value

end DatabaseMarkup
