import DatabaseMarkup.Proofs.Checked.Walk

/-!
# Checked blanking of comments

`Checked.stripComments` blanks the comments in the bytes of a text one after another and reads the
result as a text again, which must be valid UTF-8.
-/

namespace DatabaseMarkup.Checked

open Text Octets

/-- The text that is written in the given bytes. -/
def decode (bs : List UInt8) : Checked Text :=
  match String.fromUTF8? bs.toByteArray with
  | some s => .ok s.toList
  | none => .error .encoding

/-- The end of the comment that begins with the slash at an offset, if there is one. -/
def commentEnd? (bs : List UInt8) (i : Nat) : Checked (Option Nat) :=
  if bs[i + 1]? = some (octet '/') then do
    let j ← skipWhile (fun b => b != octet '\n') bs i
    return some j
  else if bs[i + 1]? = some (octet '*') then do
    let inner ← bytesFrom bs (i + 2)
    match find? [octet '*', octet '/'] inner with
    | some n => return some (i + 2 + n + 2)
    | none => return some bs.length
  else
    return none

/-- A step of the blanking of comments, where `out` has been written so far. -/
def stripStep (bs : List UInt8) : Nat × List UInt8 → Checked (Step (Nat × List UInt8) (List UInt8))
  | (i, out) =>
    if i < bs.length then do
      let b ← byteAt bs i
      if Octets.isQuote b then
        let j ← quotedEnd bs i
        let literal ← bytesBetween bs i j
        return .next (j, out ++ literal)
      else if b = octet '/' then
        match ← commentEnd? bs i with
        | some j => do
          let comment ← bytesBetween bs i j
          return .next (j, out ++ comment.map Octets.blankOut)
        | none => return .next (i + 1, out ++ [b])
      else
        return .next (i + 1, out ++ [b])
    else
      return .done out

/-- A text with blanks in place of its comments. -/
def stripComments (t : Text) : Checked Text := do
  let out ← loop (fun (i, _) => (bytes t).length - i) (stripStep (bytes t)) (0, [])
  decode out

/-- The bytes of a text decode to the text. -/
theorem decode_bytes (t : Text) :
  decode (bytes t) = .ok t
  := by
  have hb : (bytes t).toByteArray = (String.ofList t).toByteArray :=
    String.toByteArray_ofList.symm
  have hs : String.fromUTF8? (String.ofList t).toByteArray = some (String.ofList t) :=
    dif_pos (String.ofList t).isValidUTF8
  rw [decode, hb, hs]
  dsimp only
  rw [String.toList_ofList]

/-- A comment that starts at a slash ends where the bytes behind the slash say. -/
theorem commentEnd?_eq {bs rest : List UInt8} {i : Nat} (h : bs.drop i = octet '/' :: rest) :
  commentEnd? bs i = .ok ((commentLength? rest).map (i + 1 + ·))
  := by
  have hrest := drop_succ h
  have hl := congrArg List.length hrest
  rw [List.length_drop] at hl
  have hn : bs[i + 1]? = rest.head? := by rw [← hrest, List.head?_drop]
  rw [commentEnd?, commentLength?, hn]
  cases rest with
  | nil => rfl
  | cons b rest =>
    have hp (d : UInt8) : [d].isPrefixOf (b :: rest) = true ↔ some b = some d := by
      rw [List.isPrefixOf_cons_cons, List.isPrefixOf_nil_left, Bool.and_true, beq_iff_eq,
        Option.some.injEq]
      exact eq_comm
    rw [List.length_cons] at hl
    rw [List.head?_cons]
    by_cases hs : some b = some (octet '/')
    · rw [if_pos hs, if_pos ((hp _).mpr hs), skipWhile_eq, h, List.takeWhile_cons,
        if_pos (by decide), List.length_cons]
      apply congrArg Except.ok
      rw [Option.map_some, Nat.add_assoc, Nat.add_comm 1]
    · rw [if_neg hs, if_neg (mt (hp _).mp hs)]
      by_cases hm : some b = some (octet '*')
      · have hd : bs.drop (i + 2) = (b :: rest).drop 1 := by rw [← List.drop_drop, h]; rfl
        rw [if_pos hm, if_pos ((hp _).mpr hm), bytesFrom_eq (by omega), ok_bind, hd]
        cases find? [octet '*', octet '/'] ((b :: rest).drop 1) with
        | none =>
          apply congrArg Except.ok
          rw [Option.map_some, List.length_cons]
          congr 1
          omega
        | some n =>
          apply congrArg Except.ok
          rw [Option.map_some]
          congr 1
          omega
      · rw [if_neg hm, if_neg (mt (hp _).mp hm)]
        rfl

section

variable {text : Text} {out : List UInt8}

/-- The blanking goes over bytes that it copies one by one. -/
theorem loop_stripStep_append {bs us rest : List UInt8} {i : Nat} (h : bs.drop i = us ++ rest)
    (hu : ∀ b ∈ us, Octets.isQuote b = false ∧ b ≠ octet '/') (out : List UInt8) :
  loop (fun (i, _) => bs.length - i) (stripStep bs) (i, out)
    = loop (fun (i, _) => bs.length - i) (stripStep bs) (i + us.length, out ++ us)
  := by
  induction us generalizing i out with
  | nil => rw [List.append_nil]; rfl
  | cons b us ih =>
    obtain ⟨⟨hq, hs⟩, hu⟩ := List.forall_mem_cons.mp hu
    have hi := lt_length_of_drop h
    rw [loop_next (r := (i + 1, out ++ [b])), ih (drop_succ h) hu, List.length_cons,
      List.append_assoc, List.singleton_append]
    · congr 2
      omega
    · rw [stripStep, if_pos hi, byteAt_eq h, ok_bind, hq, if_neg Bool.false_ne_true, if_neg hs]
      rfl
    · dsimp only
      omega

/-- A literal is copied. -/
theorem stripStep_literal {c : Char} {t : Text} {i : Nat} (h : At text i (c :: t)) (hq : isQuote c)
    (out : List UInt8) :
  stripStep (bytes text) (i, out)
    = .ok (.next (i + size (Lexeme.first c t).1.text, out ++ bytes (Lexeme.first c t).1.text))
  := by
  have ha := isAscii_of_isQuote hq
  have hl := h
  rw [← Lexeme.text_first_append] at hl
  rw [stripStep, if_pos h.lt_length, h.byteAt_eq ha, ok_bind, isQuote_byte (mem_octet ha),
    if_pos hq, quotedEnd_eq h hq, ok_bind, hl.bytesBetween_eq]
  rfl

/-- The end of the comment that begins at a place. -/
theorem At.commentEnd?_eq {t : Text} {i : Nat} (h : At text i ('/' :: t)) :
  commentEnd? (bytes text) i
    = .ok ((splitComment? ('/' :: t)).map fun (comment, _) => i + size comment)
  := by
  rw [Checked.commentEnd?_eq (h.drop_bytes_ascii (by decide)), commentLength?_bytes]
  cases hc : splitComment? ('/' :: t) with
  | none => rfl
  | some parts =>
    obtain ⟨comment, rest⟩ := parts
    obtain ⟨more, hm, -⟩ := eq_append_of_splitComment hc
    have hn : i + 1 + (size comment - 1) = i + size comment := by
      have := Char.utf8Size_pos '/'
      rw [hm, size_cons]
      omega
    rw [Option.map_some, Option.map_some, Option.map_some, hn]

/-- A comment is blanked. -/
theorem stripStep_comment {t comment rest : Text} {i : Nat} (h : At text i ('/' :: t))
    (hc : splitComment? ('/' :: t) = some (comment, rest)) (out : List UInt8) :
  stripStep (bytes text) (i, out)
    = .ok (.next (i + size comment, out ++ (bytes comment).map Octets.blankOut))
  := by
  obtain ⟨_, -, ht⟩ := eq_append_of_splitComment hc
  have hl := h
  rw [ht] at hl
  rw [stripStep, if_pos h.lt_length, h.byteAt_eq (by decide), ok_bind, if_neg (by decide),
    if_pos rfl, h.commentEnd?_eq, hc, ok_bind, Option.map_some]
  dsimp only
  rw [hl.bytesBetween_eq]
  rfl

/-- A slash at which no comment begins is copied. -/
theorem stripStep_slash {t : Text} {i : Nat} (h : At text i ('/' :: t))
    (hc : splitComment? ('/' :: t) = none) (out : List UInt8) :
  stripStep (bytes text) (i, out) = .ok (.next (i + 1, out ++ [octet '/']))
  := by
  rw [stripStep, if_pos h.lt_length, h.byteAt_eq (by decide), ok_bind, if_neg (by decide),
    if_pos rfl, h.commentEnd?_eq, hc]
  rfl

/-- The blanking goes over a text from one literal, comment or character to the next. -/
theorem loop_stripStep {t : Text} {i : Nat} (h : At text i t) (out : List UInt8) :
  loop (fun (i, _) => (bytes text).length - i) (stripStep (bytes text)) (i, out)
    = .ok (out ++ bytes (Text.stripComments t))
  := by
  fun_induction Text.stripComments t generalizing i out with
  | case1 =>
    apply loop_done
    rw [stripStep, if_neg h.not_lt_length, bytes_nil, List.append_nil]
    rfl
  | case2 c t hq ih =>
    rw [loop_next (stripStep_literal h hq out), ih h.first, bytes_append, List.append_assoc]
    exact h.sub_lt_sub h.first (Nat.lt_succ_of_le (Lexeme.length_first_le c t))
  | case3 c t hq comment rest hc ih =>
    obtain ⟨more, hm, ht⟩ := eq_append_of_splitComment hc
    obtain rfl : '/' = c := by
      rw [hm, List.cons_append] at ht
      exact (List.cons.inj ht).1.symm
    have hl := h
    rw [ht] at hl
    rw [loop_next (stripStep_comment h hc out), ih hl.append, bytes_append, bytes_blanked,
      List.append_assoc]
    exact h.sub_lt_sub hl.append (length_splitComment hc)
  | case4 c t hq hc ih =>
    by_cases hs : c = '/'
    · subst hs
      have hn := h.cons_ascii (by decide)
      rw [loop_next (stripStep_slash h hc out), ih hn, bytes_cons_ascii (by decide),
        List.append_assoc]
      · rfl
      · exact h.sub_lt_sub hn (Nat.lt_succ_self _)
    · rw [loop_stripStep_append (h.drop_bytes.trans (bytes_cons c t)), String.length_utf8EncodeChar,
        ih h.cons, bytes_cons, List.append_assoc]
      intro b hb
      exact ⟨(isQuote_byte hb).trans (eq_false_of_ne_true hq),
        mt (eq_octet_iff hb (by decide)).mp hs⟩

end

/-- Comments are blanked by offsets as `Text.stripComments` blanks them. -/
theorem stripComments_eq (t : Text) :
  stripComments t = .ok (Text.stripComments t)
  := by
  rw [stripComments, loop_stripStep (at_zero t), ok_bind, List.nil_append, decode_bytes]

end DatabaseMarkup.Checked
