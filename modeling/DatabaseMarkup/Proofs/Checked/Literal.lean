import DatabaseMarkup.Proofs.Checked.Value
import DatabaseMarkup.Proofs.Settings.Literal

/-!
# Where literals end

The scanners of delimiters step over a literal up to `Checked.quotedEnd`, and the reader of values
finds the end of one by itself.  `literals_end_where_they_are_read` states that both find the same
end of a literal that is closed.  A literal on one line does not hold a newline, except for one that
a backslash protects.
-/

namespace DatabaseMarkup

open Text Octets

/-! ## Newlines in literals -/

namespace Octets

/-- Whether every newline of a list of bytes stands behind a backslash. -/
def EscapesNewlines (bs : List UInt8) : Prop :=
  ∀ before after, bs = before ++ octet '\n' :: after → [octet '\\'] <:+ before

theorem escapesNewlines_nil :
  EscapesNewlines []
  := by
  intro before after h
  exact absurd h.symm (List.append_ne_nil_of_right_ne_nil _ (List.cons_ne_nil _ _))

/-- A byte in front that is no newline changes nothing. -/
theorem EscapesNewlines.cons {b : UInt8} {bs : List UInt8} (hb : b ≠ octet '\n')
    (h : EscapesNewlines bs) :
  EscapesNewlines (b :: bs)
  := by
  intro before after hn
  cases before with
  | nil => exact absurd (List.cons.inj hn).1 hb
  | cons d before =>
    obtain ⟨_, htail⟩ := List.cons.inj hn
    exact (h before after htail).trans (List.suffix_cons _ _)

/-- A backslash protects any byte behind it. -/
theorem EscapesNewlines.escape (d : UInt8) {bs : List UInt8} (h : EscapesNewlines bs) :
  EscapesNewlines (octet '\\' :: d :: bs)
  := by
  rintro (_ | ⟨b, _ | ⟨e, before⟩⟩) after hn
  · cases hn
  · obtain rfl := (List.cons.inj hn).1
    apply List.suffix_refl
  · have hbefore : bs = before ++ octet '\n' :: after := (List.cons.inj (List.cons.inj hn).2).2
    exact ((h before after hbefore).trans (List.suffix_cons _ _)).trans (List.suffix_cons _ _)

/-- Up to the quote that closes a literal, newlines stand behind backslashes only, and between
backticks there is none. -/
theorem escapesNewlines_closeLine? {quote : UInt8} (hq : quote ≠ octet '\n') {bs : List UInt8}
    {n : Nat} (h : closeLine? quote bs = some n) :
  n ≤ bs.length ∧ EscapesNewlines (bs.take n)
    ∧ (quote = octet backtick → octet '\n' ∉ bs.take n)
  := by
  fun_induction closeLine? quote bs generalizing n with
  | case1 => cases h
  | case2 => cases h
  | case3 => cases h
  | case4 b hb he d ds ih =>
    obtain ⟨m, hm, rfl⟩ := Option.map_eq_some_iff.mp h
    obtain ⟨hle, hescapes, _⟩ := ih hm
    rw [Bool.and_eq_true, decide_eq_true_eq, bne_iff_ne] at he
    obtain ⟨rfl, hquote⟩ := he
    exact ⟨Nat.add_le_add_right hle 2, hescapes.escape d, fun h => absurd h hquote⟩
  | case5 ds hb he =>
    cases h
    refine ⟨Nat.succ_le_succ (Nat.zero_le _), escapesNewlines_nil.cons hq, fun _ hn => ?_⟩
    exact hq (List.mem_singleton.mp hn).symm
  | case6 b ds hb he hc ih =>
    obtain ⟨m, hm, rfl⟩ := Option.map_eq_some_iff.mp h
    obtain ⟨hle, hescapes, hnone⟩ := ih hm
    refine ⟨Nat.add_le_add_right hle 1, hescapes.cons hb, fun h hn => ?_⟩
    rcases List.mem_cons.mp hn with rfl | hn
    · exact hb rfl
    · exact hnone h hn

end Octets

namespace Checked

/-- The search for the end of a literal on one line goes from byte to byte. -/
theorem quotedEnd_line {bs opened : List UInt8} {start : Nat} {quote : UInt8}
    (hs : bs.drop start = quote :: opened)
    (ht : ¬tripleQuote.map octet <+: quote :: opened) :
  quotedEnd bs start = .ok (((closeLine? quote opened).map (start + 1 + ·)).getD (start + 1))
  := by
  have hl := lt_length_of_drop hs
  have hp : ¬(quote = octet apostrophe && (tripleQuote.map octet).isPrefixOf (quote :: opened))
      = true := by
    rw [Bool.and_eq_true, List.isPrefixOf_iff_prefix]
    exact fun h => ht h.2
  rw [quotedEnd, byteAt_eq hs, ok_bind, bytesFrom_eq (Nat.le_of_lt hl), ok_bind, hs, if_neg hp,
    loop_quotedStep start (drop_succ hs)]

/-- A literal that begins with a quote and not with three apostrophes has an end, before which
newlines stand behind backslashes only. -/
theorem quotedEnd_newline {bs : List UInt8} {start : Nat} {quote : UInt8}
    (hs : bs[start]? = some quote) (hq : Octets.isQuote quote)
    (ht : ¬tripleQuote.map octet <+: bs.drop start) :
  ∃ finish, quotedEnd bs start = .ok finish ∧ start < finish ∧ finish ≤ bs.length
    ∧ EscapesNewlines ((bs.drop start).take (finish - start))
    ∧ (quote = octet backtick → octet '\n' ∉ (bs.drop start).take (finish - start))
  := by
  have hnewline : quote ≠ octet '\n' := by
    rintro rfl
    cases hq
  obtain ⟨hlt, hget⟩ := List.getElem?_eq_some_iff.mp hs
  have hopened : bs.drop start = quote :: bs.drop (start + 1) := by
    rw [List.drop_eq_getElem_cons hlt, hget]
  have hl := congrArg List.length hopened
  rw [List.length_drop, List.length_cons] at hl
  rw [hopened] at ht ⊢
  rw [quotedEnd_line hopened ht]
  cases hc : closeLine? quote (bs.drop (start + 1)) with
  | none =>
    refine ⟨_, rfl, Nat.lt_succ_self start, hlt, ?_⟩
    rw [Option.map_none, Option.getD_none, Nat.add_sub_cancel_left]
    refine ⟨escapesNewlines_nil.cons hnewline, fun _ hn => ?_⟩
    exact hnewline (List.mem_singleton.mp hn).symm
  | some n =>
    obtain ⟨hle, hescapes, hnone⟩ := escapesNewlines_closeLine? hnewline hc
    have hn : start + 1 + n - start = n + 1 := by omega
    refine ⟨_, rfl, ?_⟩
    rw [Option.map_some, Option.getD_some, hn, List.take_succ_cons]
    refine ⟨by omega, by omega, hescapes.cons hnewline, fun h hm => ?_⟩
    rcases List.mem_cons.mp hm with hm | hm
    · exact hnewline hm.symm
    · exact hnone h hm

/-! ## The reader of values -/

/-- A value that begins with a closed literal takes the bytes that the scanners step over. -/
theorem readValue_closed {c : Char} (hc : isQuote c) {t : Text}
    (hl : IsLiteral (Lexeme.first c t).1.text) :
  ∃ value finish, readValue (c :: t) = .ok (value, finish)
    ∧ quotedEnd (bytes (c :: t)) 0 = .ok finish
  := by
  obtain ⟨finish, hat, hread⟩ := readValue_eq (c :: t)
  rw [Value.read_first hc hl] at hat
  have hfinish := hat.unique (at_zero (c :: t)).first
  refine ⟨_, finish, hread, ?_⟩
  rw [hfinish, quotedEnd_eq (at_zero (c :: t)) hc]

/-- An expression with a newline in it is not closed on its line. -/
theorem closeLine_backtick_eq_none {inner : Text} (hb : backtick ∉ inner) (hn : '\n' ∈ inner)
    (rest : Text) :
  closeLine backtick (inner ++ rest) = none
  := by
  induction inner with
  | nil => cases hn
  | cons c inner ih =>
    rw [List.mem_cons, not_or] at hb
    rw [List.cons_append]
    rcases List.mem_cons.mp hn with rfl | hn
    · exact closeLine_newline backtick _
    · by_cases hc : c = '\n'
      · rw [hc, closeLine_newline]
      · rw [closeLine_of_ne hc (by simp) (Ne.symm hb.1), ih hb.2 hn, Option.map_none]

/-- The reader of values looks for the second backtick on later lines, too, where the scanners take
the first one for itself. -/
theorem readValue_backtick {inner : Text} (hb : backtick ∉ inner) (hn : '\n' ∈ inner)
    (rest : Text) :
  readValue (backtick :: (inner ++ backtick :: rest))
      = .ok (.expression (String.ofList inner), size inner + 2)
    ∧ quotedEnd (bytes (backtick :: (inner ++ backtick :: rest))) 0 = .ok 1
  := by
  constructor
  · obtain ⟨finish, hat, hread⟩ := readValue_eq (backtick :: (inner ++ backtick :: rest))
    rw [Value.read_expression hb] at hat hread
    have hend : At (backtick :: (inner ++ backtick :: rest)) (0 + 1 + size inner + 1) rest :=
      ((at_zero _).cons_ascii (by decide)).append.cons_ascii (by decide)
    have hfinish : finish = size inner + 2 := by
      rw [hat.unique hend]
      omega
    rw [hread, hfinish]
  · have hp : ¬(backtick = apostrophe
        && [apostrophe, apostrophe].isPrefixOf (inner ++ backtick :: rest)) = true :=
      Bool.false_ne_true
    have hnone := closeLine_backtick_eq_none hb hn (backtick :: rest)
    rw [quotedEnd_eq (at_zero _) rfl, Lexeme.first_lone rfl hp hnone]
    rfl

end Checked

open Checked in
/-- Where a literal on one line is stepped over, no newline stands in it that is not behind a
backslash.  A value that begins with a closed literal takes just its bytes.  Only for a backtick
whose partner stands on another line does the reader of values look further than the scanners. -/
theorem literals_end_where_they_are_read {bs : List UInt8} {start : Nat} {quote : UInt8}
    (hs : bs[start]? = some quote) (hq : Octets.isQuote quote)
    (ht : ¬tripleQuote.map octet <+: bs.drop start) :
  (∃ finish, quotedEnd bs start = .ok finish ∧ start < finish ∧ finish ≤ bs.length
      ∧ EscapesNewlines ((bs.drop start).take (finish - start))
      ∧ (quote = octet backtick → octet '\n' ∉ (bs.drop start).take (finish - start)))
    ∧ (∀ (c : Char) (t : Text), isQuote c → IsLiteral (Lexeme.first c t).1.text →
        ∃ value finish, readValue (c :: t) = .ok (value, finish)
          ∧ quotedEnd (bytes (c :: t)) 0 = .ok finish)
    ∧ (∀ inner rest : Text, backtick ∉ inner → '\n' ∈ inner →
        readValue (backtick :: (inner ++ backtick :: rest))
            = .ok (.expression (String.ofList inner), size inner + 2)
          ∧ quotedEnd (bytes (backtick :: (inner ++ backtick :: rest))) 0 = .ok 1)
  := by
  refine ⟨?_, ?_, ?_⟩
  · exact quotedEnd_newline hs hq ht
  · intro c t hc hl
    exact readValue_closed hc hl
  · intro inner rest hb hn
    exact readValue_backtick hb hn rest

open Checked in
/-- A literal in a group with an escaped quote in it ends behind its last quote, where the reader
of values ends it too. An expression over two lines is read to its end, while a walk steps over
its first octet only. -/
theorem quoted_texts_end_where_they_are_read :
  let group := "[a: \x27it\\\x27s\x27]".toList
  let literal := "\x27it\\\x27s\x27]".toList
  let lines := "\x60a\nb\x60".toList
  (bytes group)[4]? = some (octet apostrophe)
    ∧ (∃ finish, quotedEnd (bytes group) 4 = .ok finish ∧ 4 < finish
      ∧ finish ≤ (bytes group).length ∧ EscapesNewlines (((bytes group).drop 4).take (finish - 4))
      ∧ (octet apostrophe = octet backtick →
        octet '\n' ∉ ((bytes group).drop 4).take (finish - 4)))
    ∧ (∃ value finish, readValue literal = .ok (value, finish)
      ∧ quotedEnd (bytes literal) 0 = .ok finish)
    ∧ readValue lines = .ok (.expression "a\nb", 5)
    ∧ quotedEnd (bytes lines) 0 = .ok 1
  := by
  intro group literal lines
  have hquote : (bytes group)[4]? = some (octet apostrophe) := by decide
  obtain ⟨hends, hread, hbackticks⟩ :=
    literals_end_where_they_are_read hquote rfl (by decide)
  have hl : IsLiteral (Lexeme.first apostrophe (literal.drop 1)).1.text := by
    have hfirst : (Lexeme.first apostrophe (literal.drop 1)).1.text
        = apostrophe :: ("it\\\x27s".toList ++ [apostrophe]) := by decide +kernel
    rw [hfirst]
    exact .line rfl (by decide +kernel)
  refine ⟨hquote, hends, hread apostrophe _ rfl hl, ?_⟩
  exact hbackticks "a\nb".toList [] (by decide) (by decide)

/-- A backslash in front of a line end makes a literal reach over it, and a list is not split at a
comma on the next line. -/
theorem literal_reaches_over_line_end :
  let t := "\x27a\\\n,b\x27".toList
  Checked.quotedEnd (bytes t) 0 = .ok 7
    ∧ octet '\n' ∈ ((bytes t).drop 0).take (7 - 0)
    ∧ Checked.splitTopLevel (octet ',') t = .ok [t]
  := by
  intro t
  have hfirst : 0 + size (Lexeme.first apostrophe (t.drop 1)).1.text = 7 := by decide +kernel
  have hparts : splitTopLevel ',' t = [t] := by decide +kernel
  refine ⟨?_, ?_, ?_⟩
  · rw [← hfirst]
    exact Checked.quotedEnd_eq (Checked.at_zero t) rfl
  · decide
  · rw [Checked.splitTopLevel_eq (by decide) (by decide), hparts]

end DatabaseMarkup
