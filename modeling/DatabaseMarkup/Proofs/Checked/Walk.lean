import DatabaseMarkup.Proofs.Checked.Basic

/-!
# Checked walks over the bytes of a text

`Checked.quotedEnd` finds the end of a quoted literal.  `Checked.walk` steps over literals and goes
on byte by byte otherwise, where a visit says what is to be done at a byte.  A visit takes notice of
ASCII characters only, so that it may be made at a byte inside of a character: `walk_first` takes a
walk from one lexeme of a text to the next.
-/

namespace DatabaseMarkup.Checked

open Text Octets

/-! ## Literals -/

/-- A step of the search for the quote that closes a literal on its line. -/
def quotedStep (bs : List UInt8) (quote : UInt8) (start i : Nat) : Checked (Step Nat Nat) :=
  if i < bs.length then do
    let b ← byteAt bs i
    if b = octet '\n' then return .done (start + 1)
    else if b = octet '\\' && quote != octet backtick then return .next (i + 2)
    else if b = quote then return .done (i + 1)
    else return .next (i + 1)
  else
    return .done (start + 1)

/-- The offset of the end of the literal that begins at an offset. -/
def quotedEnd (bs : List UInt8) (start : Nat) : Checked Nat := do
  let quote ← byteAt bs start
  let opened ← bytesFrom bs start
  if quote = octet apostrophe && (tripleQuote.map octet).isPrefixOf opened then
    let inner ← bytesFrom bs (start + 3)
    match find? (tripleQuote.map octet) inner with
    | some n => return start + 3 + n + 3
    | none => return start + 3
  else
    loop (bs.length - ·) (quotedStep bs quote start) (start + 1)

/-- One step inside a literal: it ends at a newline or at its quote, and a backslash takes the
next byte along outside expressions. -/
theorem quotedStep_eq {bs rest : List UInt8} {i : Nat} {b : UInt8} (h : bs.drop i = b :: rest)
    (quote : UInt8) (start : Nat) :
  quotedStep bs quote start i
    = if b = octet '\n' then .ok (.done (start + 1))
      else if b = octet '\\' && quote != octet backtick then .ok (.next (i + 2))
      else if b = quote then .ok (.done (i + 1))
      else .ok (.next (i + 1))
  := by
  rw [quotedStep, if_pos (lt_length_of_drop h), byteAt_eq h]
  rfl

/-- A literal that is not closed before the end of the text is its first quote only. -/
theorem loop_quotedStep_end {bs : List UInt8} {i : Nat} (h : bs.length ≤ i) (quote : UInt8)
    (start : Nat) :
  loop (bs.length - ·) (quotedStep bs quote start) i = .ok (start + 1)
  := loop_done (if_neg (Nat.not_lt.mpr h))

theorem map_add_add (o : Option Nat) (i k : Nat) :
  (o.map (· + k)).map (i + ·) = o.map (i + k + ·)
  := by
  rw [Option.map_map]
  congr 1
  funext n
  rw [Function.comp_apply, Nat.add_assoc, Nat.add_comm n]

/-- The search finds the quote that closes a literal in the bytes from an offset on. -/
theorem loop_quotedStep {bs tail : List UInt8} {quote : UInt8} {i : Nat} (start : Nat)
    (h : bs.drop i = tail) :
  loop (bs.length - ·) (quotedStep bs quote start) i
    = .ok (((closeLine? quote tail).map (i + ·)).getD (start + 1))
  := by
  fun_induction closeLine? quote tail generalizing i with
  | case1 => exact loop_quotedStep_end (List.drop_eq_nil_iff.mp h) quote start
  | case2 rest =>
    apply loop_done
    rw [quotedStep_eq h, if_pos rfl]
    rfl
  | case3 b hb he =>
    have hl := congrArg List.length h
    rw [List.length_drop, List.length_singleton] at hl
    rw [loop_next (r := i + 2), loop_quotedStep_end (by omega)]
    · rfl
    · rw [quotedStep_eq h, if_neg hb, if_pos he]
    · omega
  | case4 b hb he d ds ih =>
    have hl := lt_length_of_drop h
    rw [loop_next (r := i + 2), ih, map_add_add]
    · rw [← List.drop_drop, h]
      rfl
    · rw [quotedStep_eq h, if_neg hb, if_pos he]
    · omega
  | case5 rest hb he =>
    apply loop_done
    rw [quotedStep_eq h, if_neg hb, if_neg he, if_pos rfl]
    rfl
  | case6 b rest hb he hq ih =>
    have hl := lt_length_of_drop h
    rw [loop_next (r := i + 1), ih (drop_succ h), map_add_add]
    · rw [quotedStep_eq h, if_neg hb, if_neg he, if_neg hq]
    · omega

/-- A literal ends by offsets where the first lexeme of the text ends. -/
theorem quotedEnd_eq {text t : Text} {p : Nat} {c : Char} (h : At text p (c :: t))
    (hc : isQuote c) :
  quotedEnd (bytes text) p = .ok (p + size (Lexeme.first c t).1.text)
  := by
  have ha := isAscii_of_isQuote hc
  have hd := h.drop_bytes_ascii ha
  have hn := (h.cons_ascii ha).drop_bytes
  have htriple :
      (octet c = octet apostrophe && (tripleQuote.map octet).isPrefixOf (octet c :: bytes t))
        = (octet c = octet apostrophe
          && [octet apostrophe, octet apostrophe].isPrefixOf (bytes t)) := by
    cases hq : decide (octet c = octet apostrophe) with
    | false => rfl
    | true =>
      rw [of_decide_eq_true hq, List.map_cons, List.isPrefixOf_cons_cons, beq_self_eq_true]
      rfl
  rw [quotedEnd, h.byteAt_eq ha, ok_bind, bytesFrom_eq h.le_length, ok_bind, hd, htriple,
    literalLength_bytes hc, literalLength]
  split
  · rename_i hp
    rw [Bool.and_eq_true] at hp
    obtain ⟨us, hu⟩ := List.isPrefixOf_iff_prefix.mp hp.2
    have hl : p + 3 ≤ (bytes text).length := by
      have := congrArg List.length hn
      rw [← hu, List.length_drop] at this
      simp only [List.length_append, List.length_cons, List.length_nil] at this
      omega
    rw [bytesFrom_eq hl, ok_bind, ← List.drop_drop, hd, List.drop_succ_cons]
    cases find? (tripleQuote.map octet) ((bytes t).drop 2) with
    | none => rfl
    | some n =>
      apply congrArg Except.ok
      dsimp only
      omega
  · rw [loop_quotedStep p hn]
    apply congrArg Except.ok
    cases closeLine? (octet c) (bytes t) with
    | none => rfl
    | some n => exact Nat.add_assoc _ _ _

/-- Behind the first lexeme stands the rest of the text. -/
theorem At.first {text t : Text} {p : Nat} {c : Char} (h : At text p (c :: t)) :
  At text (p + size (Lexeme.first c t).1.text) (Lexeme.first c t).2
  := by
  apply At.append
  rwa [Lexeme.text_first_append]

/-- Every byte of a character is tested as a quote exactly when the character is one. -/
theorem isQuote_byte {c : Char} {b : UInt8} (hb : b ∈ String.utf8EncodeChar c) :
  Octets.isQuote b = DatabaseMarkup.isQuote c
  := by
  rw [Octets.isQuote, DatabaseMarkup.isQuote, decide_eq_octet hb (by decide),
    decide_eq_octet hb (by decide), decide_eq_octet hb (by decide)]

theorem mem_octet {c : Char} (hc : IsAscii c) :
  octet c ∈ String.utf8EncodeChar c
  := by
  rw [utf8EncodeChar_of_isAscii hc]
  exact List.mem_singleton_self _

/-! ## Walks -/

/-- What is to be done about a byte: the walk has found what it looks for, a literal is to be
stepped over, or the next byte is to be looked at. -/
inductive Visit (ρ σ : Type) where
  | found (r : ρ)
  | literal
  | next (s : σ)

section

variable {ρ σ : Type}

/-- A step of a walk. -/
def walkStep (bs : List UInt8) (visit : Nat → UInt8 → σ → Checked (Visit ρ σ)) :
    Nat × σ → Checked (Step (Nat × σ) (ρ ⊕ σ))
  | (i, s) =>
    if i < bs.length then do
      let b ← byteAt bs i
      match ← visit i b s with
      | .found r => return .done (.inl r)
      | .literal => do
        let j ← quotedEnd bs i
        return .next (j, s)
      | .next s => return .next (i + 1, s)
    else
      return .done (.inr s)

/-- A walk over the bytes of a text from an offset on, which ends with what it has found or else
with the state at the end of the text. -/
def walk (bs : List UInt8) (visit : Nat → UInt8 → σ → Checked (Visit ρ σ)) (i : Nat) (s : σ) :
    Checked (ρ ⊕ σ) :=
  loop (fun (i, _) => bs.length - i) (walkStep bs visit) (i, s)

variable {visit : Nat → UInt8 → σ → Checked (Visit ρ σ)} {s u : σ} {r : ρ}

theorem walk_end {bs : List UInt8} {i : Nat} (h : ¬i < bs.length) :
  walk bs visit i s = .ok (.inr s)
  := loop_done (if_neg h)

/-- One step of a walk: the visit finds something, skips a literal, or goes on to the next byte.
-/
theorem walkStep_eq {bs rest : List UInt8} {i : Nat} {b : UInt8} (h : bs.drop i = b :: rest) :
  walkStep bs visit (i, s) = do
    match ← visit i b s with
    | .found r => return .done (.inl r)
    | .literal => do
      let j ← quotedEnd bs i
      return .next (j, s)
    | .next s => return .next (i + 1, s)
  := by
  rw [walkStep, if_pos (lt_length_of_drop h), byteAt_eq h, ok_bind]

theorem walk_byte {bs rest : List UInt8} {i : Nat} {b : UInt8} (h : bs.drop i = b :: rest)
    (hv : visit i b s = .ok (.next u)) :
  walk bs visit i s = walk bs visit (i + 1) u
  := by
  have hi := lt_length_of_drop h
  apply loop_next
  · rw [walkStep_eq h, hv]
    rfl
  · dsimp only
    omega

/-- A walk takes no notice of bytes at which it only goes on. -/
theorem walk_append {bs us rest : List UInt8} {i : Nat} (h : bs.drop i = us ++ rest)
    (hv : ∀ i, ∀ b ∈ us, visit i b s = .ok (.next s)) :
  walk bs visit i s = walk bs visit (i + us.length) s
  := by
  induction us generalizing i with
  | nil => rfl
  | cons b us ih =>
    obtain ⟨hb, hu⟩ := List.forall_mem_cons.mp fun b hb i => hv i b hb
    rw [walk_byte h (hb i), ih (drop_succ h) fun i b hb => hu b hb i, List.length_cons]
    congr 1
    omega

variable {text t : Text} {p : Nat} {c : Char}

/-- A walk ends where its visit finds something. -/
theorem walk_found (h : At text p (c :: t)) (hc : IsAscii c)
    (hv : visit p (octet c) s = .ok (.found r)) :
  walk (bytes text) visit p s = .ok (.inl r)
  := by
  apply loop_done
  rw [walkStep_eq (h.drop_bytes_ascii hc), hv]
  rfl

/-- A walk steps over a whole literal. -/
theorem walk_literal (h : At text p (c :: t)) (hc : isQuote c)
    (hv : visit p (octet c) s = .ok .literal) :
  walk (bytes text) visit p s = walk (bytes text) visit (p + size (Lexeme.first c t).1.text) s
  := by
  have ha := isAscii_of_isQuote hc
  apply loop_next
  · rw [walkStep_eq (h.drop_bytes_ascii ha), hv, ok_bind, quotedEnd_eq h hc]
    rfl
  · have := h.lt_length
    obtain ⟨tail, ht⟩ := Lexeme.exists_text_first c t
    have := Char.utf8Size_pos c
    rw [ht, size_cons]
    dsimp only
    omega

/-- A walk goes on behind an ASCII character with what its visit made of it. -/
theorem walk_next (h : At text p (c :: t)) (hc : IsAscii c)
    (hv : visit p (octet c) s = .ok (.next u)) :
  walk (bytes text) visit p s = walk (bytes text) visit (p + 1) u
  := walk_byte (h.drop_bytes_ascii hc) hv

/-- A walk goes over the first lexeme of what is left of a text.  The bytes of a plain character
all change the state to the same one, which is a new one for an ASCII character only. -/
theorem walk_first (h : At text p (c :: t)) (after : Nat → σ)
    (hq : isQuote c → visit p (octet c) s = .ok .literal)
    (hp : isQuote c = false →
      ∀ i, ∀ b ∈ String.utf8EncodeChar c, visit i b s = .ok (.next (after i)))
    (ha : ¬IsAscii c → ∀ i, after i = s) :
  walk (bytes text) visit p s
    = walk (bytes text) visit (p + size (Lexeme.first c t).1.text)
        (if isQuote c then s else after p)
  := by
  cases hc : isQuote c with
  | true => rw [walk_literal h hc (hq hc), if_pos rfl]
  | false =>
    have hp := hp hc
    rw [Lexeme.first_plain hc, Lexeme.text, size_cons, size_nil, Nat.add_zero,
      if_neg Bool.false_ne_true]
    by_cases hasc : IsAscii c
    · rw [walk_next h hasc (hp p _ (mem_octet hasc)), Char.utf8Size_eq_one_iff.mpr hasc]
    · rw [walk_append (h.drop_bytes.trans (bytes_cons c t)), String.length_utf8EncodeChar,
        ha hasc]
      intro i b hb
      rw [hp i b hb, ha hasc]

end

end DatabaseMarkup.Checked
