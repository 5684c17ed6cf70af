import DatabaseMarkup.Text.Comment
import DatabaseMarkup.Proofs.Text.Lexeme

/-!
# Comments and literals as bytes

The delimiters of a text are ASCII characters, so that a scanner may look at the bytes of the
UTF-8 form one by one and need not know where a character begins.  `Octets.literalLength` finds
the end of a quoted literal in this way and `Octets.stripComments` blanks the comments of a list
of bytes.  A backslash protects a single byte here, which may be the first one of several.

`Octets.stripComments_bytes` states that bytes and characters agree: what is written for the
bytes of a text are the bytes of a text, the one that `Text.stripComments` makes of it.
-/

namespace DatabaseMarkup

open Text

/-! ## Bytes of characters -/

namespace Octets

/-- The last byte of the code point of a character, which is all of it for an ASCII character. -/
def octet (c : Char) : UInt8 := c.val.toUInt8

/-- Whether a character is an ASCII character. -/
def IsAscii (c : Char) : Prop := c.val ≤ 127

instance (c : Char) : Decidable (IsAscii c) := inferInstanceAs (Decidable (c.val ≤ 127))

/-- Bytes that occur in characters beyond ASCII only. -/
def High (bs : List UInt8) : Prop := ∀ b ∈ bs, 128 ≤ b

/-- ASCII characters have different octets. -/
theorem octet_inj {c d : Char} (hc : IsAscii c) (hd : IsAscii d) :
  octet c = octet d ↔ c = d
  := by
  constructor
  · intro h
    apply Char.ext
    apply UInt32.toNat_inj.mp
    have h := congrArg UInt8.toNat h
    have hc : c.val.toNat ≤ 127 := hc
    have hd : d.val.toNat ≤ 127 := hd
    simp only [octet, UInt32.toNat_toUInt8] at h
    omega
  · rintro rfl
    rfl

theorem forall_isAscii {mark : Text} (h : mark.all fun c => decide (IsAscii c)) :
  ∀ c ∈ mark, IsAscii c
  := by
  intro c hc
  apply of_decide_eq_true
  apply List.all_eq_true.mp h c hc

theorem decide_octet_eq {c d : Char} (hc : IsAscii c) (hd : IsAscii d) :
  decide (octet c = octet d) = decide (c = d)
  := decide_eq_decide.mpr (octet_inj hc hd)

theorem bne_octet {c d : Char} (hc : IsAscii c) (hd : IsAscii d) :
  (octet c != octet d) = (c != d)
  := by
  rw [Bool.eq_iff_iff, bne_iff_ne, bne_iff_ne]
  exact not_congr (octet_inj hc hd)

theorem toNat_octet {c : Char} (hc : IsAscii c) :
  (octet c).toNat = c.toNat
  := by
  have hc : c.val.toNat ≤ 127 := hc
  rw [octet, UInt32.toNat_toUInt8, Nat.mod_eq_of_lt (by omega)]
  rfl

/-- An octet has its highest bit clear. -/
theorem octet_lt {c : Char} (hc : IsAscii c) :
  octet c < 128
  := by
  apply UInt8.lt_iff_toNat_lt.mpr
  rw [toNat_octet hc]
  exact Nat.lt_succ_of_le hc

/-- The encoding of an ASCII character is its octet. -/
theorem utf8EncodeChar_of_isAscii {c : Char} (hc : IsAscii c) :
  String.utf8EncodeChar c = [octet c]
  := String.utf8EncodeChar_eq_singleton (Char.utf8Size_eq_one_iff.mpr hc)

theorem le_or (m b : UInt8) (h : 128 ≤ m) :
  128 ≤ b ||| m
  := by
  apply UInt8.le_iff_toNat_le.mpr
  rw [UInt8.toNat_or]
  exact Nat.le_trans (UInt8.le_iff_toNat_le.mp h) Nat.right_le_or

/-- Every byte of a character beyond ASCII is a high one. -/
theorem high_utf8EncodeChar {c : Char} (hc : ¬IsAscii c) :
  High (String.utf8EncodeChar c)
  := by
  intro b hb
  rcases Char.utf8Size_eq c with h | h | h | h
  · exact absurd (Char.utf8Size_eq_one_iff.mp h) hc
  · rw [String.utf8EncodeChar_eq_cons_cons h] at hb
    simp only [List.mem_cons, List.not_mem_nil, or_false] at hb
    rcases hb with rfl | rfl <;> exact le_or _ _ (by decide)
  · rw [String.utf8EncodeChar_eq_cons_cons_cons h] at hb
    simp only [List.mem_cons, List.not_mem_nil, or_false] at hb
    rcases hb with rfl | rfl | rfl <;> exact le_or _ _ (by decide)
  · rw [String.utf8EncodeChar_eq_cons_cons_cons_cons h] at hb
    simp only [List.mem_cons, List.not_mem_nil, or_false] at hb
    rcases hb with rfl | rfl | rfl | rfl <;> exact le_or _ _ (by decide)

/-- A high byte is no octet of an ASCII character. -/
theorem High.ne {bs : List UInt8} (h : High bs) {b : UInt8} (hb : b ∈ bs) {c : Char}
    (hc : IsAscii c) :
  b ≠ octet c
  := by
  rintro rfl
  exact absurd (octet_lt hc) (UInt8.not_lt.mpr (h _ hb))

theorem High.tail {b : UInt8} {bs : List UInt8} (h : High (b :: bs)) :
  High bs
  := fun d hd => h d (List.mem_cons_of_mem b hd)

end Octets

namespace Text

theorem bytes_cons (c : Char) (t : Text) :
  bytes (c :: t) = String.utf8EncodeChar c ++ bytes t
  := List.flatMap_cons

@[simp]
theorem bytes_append (s t : Text) :
  bytes (s ++ t) = bytes s ++ bytes t
  := List.flatMap_append

theorem bytes_cons_ascii {c : Char} (hc : Octets.IsAscii c) (t : Text) :
  bytes (c :: t) = Octets.octet c :: bytes t
  := by
  rw [bytes_cons, Octets.utf8EncodeChar_of_isAscii hc]
  rfl

/-- A text has as many bytes as its size says. -/
@[simp]
theorem length_bytes (t : Text) :
  (bytes t).length = size t
  := by
  induction t with
  | nil => rfl
  | cons c t ih => rw [bytes_cons, List.length_append, String.length_utf8EncodeChar, ih, size_cons]

end Text

/-! ## Scanning bytes -/

namespace Octets

/-- The number of bytes before the first place where `mark` stands. -/
def find? (mark : List UInt8) : List UInt8 → Option Nat
  | [] => none
  | b :: bs =>
    if mark.isPrefixOf (b :: bs) then
      some 0
    else
      (find? mark bs).map (· + 1)

/-- The number of bytes up to and with the quote that closes a literal on its line. -/
def closeLine? (quote : UInt8) : List UInt8 → Option Nat
  | [] => none
  | b :: bs =>
    if b = octet '\n' then
      none
    else if b = octet '\\' && quote != octet backtick then
      match bs with
      | [] => none
      | _ :: ds => (closeLine? quote ds).map (· + 2)
    else if b = quote then
      some 1
    else
      (closeLine? quote bs).map (· + 1)

/-- The number of bytes of a literal after its opening quote.  A quote without a partner stands
for itself, and so do three apostrophes without a partner. -/
def literalLength (quote : UInt8) (bs : List UInt8) : Nat :=
  if quote = octet apostrophe && [octet apostrophe, octet apostrophe].isPrefixOf bs then
    match find? (tripleQuote.map octet) (bs.drop 2) with
    | some n => n + 5
    | none => 2
  else
    (closeLine? quote bs).getD 0

/-- Whether a byte is that of a quote. -/
def isQuote (b : UInt8) : Bool :=
  b = octet apostrophe || b = octet quotationMark || b = octet backtick

/-- The number of bytes after the first slash of a comment, if a slash before the given bytes
begins one. -/
def commentLength? (bs : List UInt8) : Option Nat :=
  if [octet '/'].isPrefixOf bs then
    some (bs.takeWhile fun b => b != octet '\n').length
  else if [octet '*'].isPrefixOf bs then
    match find? [octet '*', octet '/'] (bs.drop 1) with
    | some n => some (n + 3)
    | none => some bs.length
  else
    none

/-- What a byte of a comment leaves behind. -/
def blankOut (b : UInt8) : UInt8 :=
  if b = octet '\n' then b else octet ' '

/-- The bytes without comments, where `copied` bytes of a literal or `blanked` bytes of a comment
are still to come. -/
def stripFrom : Nat → Nat → List UInt8 → List UInt8
  | _, _, [] => []
  | copied + 1, blanked, b :: bs => b :: stripFrom copied blanked bs
  | 0, blanked + 1, b :: bs => blankOut b :: stripFrom 0 blanked bs
  | 0, 0, b :: bs =>
    if isQuote b then
      b :: stripFrom (literalLength b bs) 0 bs
    else if b = octet '/' then
      match commentLength? bs with
      | some n => blankOut b :: stripFrom 0 n bs
      | none => b :: stripFrom 0 0 bs
    else
      b :: stripFrom 0 0 bs

/-- Bytes with blanks in place of their comments. -/
def stripComments (bs : List UInt8) : List UInt8 :=
  stripFrom 0 0 bs

/-! ## Bytes beyond ASCII are stepped over -/

/-- A mark of ASCII characters does not start with a high byte. -/
theorem not_isPrefixOf_high {mark us : List UInt8} {d : Char} (hd : IsAscii d) (h : High us)
    (hu : us ≠ []) (bs : List UInt8) :
  (octet d :: mark).isPrefixOf (us ++ bs) = false
  := by
  obtain ⟨u, us, rfl⟩ := List.exists_cons_of_ne_nil hu
  have hne : octet d ≠ u := (h.ne List.mem_cons_self hd).symm
  rw [List.cons_append, List.isPrefixOf_cons_cons, beq_false_of_ne hne, Bool.false_and]

/-- The search for a mark steps over high bytes. -/
theorem find?_high_append {mark us : List UInt8} {d : Char} (hd : IsAscii d) (h : High us)
    (bs : List UInt8) :
  find? (octet d :: mark) (us ++ bs) = (find? (octet d :: mark) bs).map (· + us.length)
  := by
  induction us with
  | nil => simp
  | cons u us ih =>
    have hp : (octet d :: mark).isPrefixOf (u :: us ++ bs) = false :=
      not_isPrefixOf_high hd h (List.cons_ne_nil u us) bs
    rw [List.cons_append] at hp ⊢
    rw [find?, hp, if_neg Bool.false_ne_true, ih h.tail, Option.map_map]
    rfl

/-- The search for a closing quote steps over high bytes. -/
theorem closeLine?_high_append {q : Char} (hq : IsAscii q) {us : List UInt8} (h : High us)
    (bs : List UInt8) :
  closeLine? (octet q) (us ++ bs) = (closeLine? (octet q) bs).map (· + us.length)
  := by
  induction us with
  | nil => simp
  | cons u us ih =>
    have hn : u ≠ octet '\n' := h.ne List.mem_cons_self (by decide)
    have hb : u ≠ octet '\\' := h.ne List.mem_cons_self (by decide)
    have hu : u ≠ octet q := h.ne List.mem_cons_self hq
    rw [List.cons_append, closeLine?.eq_def]
    simp only [hn, hb, hu, decide_false, Bool.false_and, if_false, ih h.tail, Option.map_map,
      Bool.false_eq_true]
    rfl

/-- High bytes outside of comments are kept. -/
theorem stripFrom_high_append {us : List UInt8} (h : High us) (bs : List UInt8) :
  stripFrom 0 0 (us ++ bs) = us ++ stripFrom 0 0 bs
  := by
  induction us with
  | nil => rfl
  | cons u us ih =>
    have ha : u ≠ octet apostrophe := h.ne List.mem_cons_self (by decide)
    have hm : u ≠ octet quotationMark := h.ne List.mem_cons_self (by decide)
    have hb : u ≠ octet backtick := h.ne List.mem_cons_self (by decide)
    have hs : u ≠ octet '/' := h.ne List.mem_cons_self (by decide)
    have hq : isQuote u = false := by simp [isQuote, ha, hm, hb]
    rw [List.cons_append, stripFrom, hq, if_neg Bool.false_ne_true, if_neg hs, ih h.tail]
    rfl

/-! ## Bytes and characters agree -/

/-- A mark of ASCII characters stands at the start of the bytes exactly when it stands at the
start of the text. -/
theorem isPrefixOf_bytes (mark : Text) (hm : ∀ c ∈ mark, IsAscii c) (t : Text) :
  (mark.map octet).isPrefixOf (bytes t) = mark.isPrefixOf t
  := by
  induction mark generalizing t with
  | nil => simp
  | cons d mark ih =>
    have hd : IsAscii d := hm d List.mem_cons_self
    cases t with
    | nil => rfl
    | cons c t =>
      rw [List.isPrefixOf_cons_cons]
      by_cases hc : IsAscii c
      · rw [bytes_cons_ascii hc, List.map_cons, List.isPrefixOf_cons_cons,
          ih fun e he => hm e (List.mem_cons_of_mem d he)]
        congr 1
        rw [Bool.eq_iff_iff, beq_iff_eq, beq_iff_eq]
        exact octet_inj hd hc
      · have hne : d ≠ c := by
          rintro rfl
          exact hc hd
        have hl : String.utf8EncodeChar c ≠ [] := String.utf8EncodeChar_ne_nil
        rw [bytes_cons, List.map_cons, not_isPrefixOf_high hd (high_utf8EncodeChar hc) hl,
          beq_false_of_ne hne, Bool.false_and]

theorem find?_bytes_cons {d : Char} (hd : IsAscii d) {mark : List UInt8} {c : Char} {t : Text}
    (h : (octet d :: mark).isPrefixOf (bytes (c :: t)) = false) :
  find? (octet d :: mark) (bytes (c :: t))
    = (find? (octet d :: mark) (bytes t)).map (· + c.utf8Size)
  := by
  by_cases hc : IsAscii c
  · rw [bytes_cons_ascii hc] at h ⊢
    rw [find?, h, if_neg Bool.false_ne_true, Char.utf8Size_eq_one_iff.mpr hc]
  · rw [bytes_cons, find?_high_append hd (high_utf8EncodeChar hc), String.length_utf8EncodeChar]

/-- A mark of ASCII characters is found among the bytes where `cutAtMark` cuts the text. -/
theorem find?_bytes (mark : Text) (hm : ∀ c ∈ mark, IsAscii c) (hne : mark ≠ []) (t : Text) :
  find? (mark.map octet) (bytes t) = (cutAtMark mark t).map fun p => size p.1
  := by
  induction t with
  | nil => rfl
  | cons c t ih =>
    have hp := isPrefixOf_bytes mark hm (c :: t)
    obtain ⟨d, mark, rfl⟩ := List.exists_cons_of_ne_nil hne
    rw [cutAtMark]
    cases h : (d :: mark).isPrefixOf (c :: t) with
    | true =>
      obtain ⟨b, bs, hb⟩ := List.exists_cons_of_ne_nil (l := bytes (c :: t)) (by
        intro hnil
        rw [h, hnil] at hp
        cases hp)
      rw [hb, h] at hp
      rw [hb, find?, hp]
      rfl
    | false =>
      rw [List.map_cons] at hp ih ⊢
      rw [find?_bytes_cons (hm d List.mem_cons_self) (hp.trans h), ih, if_neg Bool.false_ne_true,
        Option.map_map, Option.map_map]
      congr 1
      funext p
      exact Nat.add_comm _ _

theorem closeLine?_bytes_cons {q : Char} (hq : IsAscii q) {c : Char} (hn : c ≠ '\n')
    (hb : ¬(c = '\\' && q != backtick) = true) (hc : c ≠ q) (t : Text) :
  closeLine? (octet q) (bytes (c :: t)) = (closeLine? (octet q) (bytes t)).map (· + c.utf8Size)
  := by
  by_cases ha : IsAscii c
  · have hn : octet c ≠ octet '\n' := fun h => hn ((octet_inj ha (by decide)).mp h)
    have hb : ¬(octet c = octet '\\' && octet q != octet backtick) = true := by
      rwa [bne_octet hq (by decide), decide_octet_eq ha (by decide)]
    have hc : octet c ≠ octet q := fun h => hc ((octet_inj ha hq).mp h)
    rw [bytes_cons_ascii ha, closeLine?.eq_def]
    simp only [if_neg hn, if_neg hb, if_neg hc, Char.utf8Size_eq_one_iff.mpr ha]
  · rw [bytes_cons, closeLine?_high_append hq (high_utf8EncodeChar ha),
      String.length_utf8EncodeChar]

/-- A backslash takes the next byte along. -/
theorem closeLine?_backslash {q : Char} (hq : IsAscii q) (hb : q ≠ backtick) (bs : List UInt8) :
  closeLine? (octet q) (octet '\\' :: bs) =
    match bs with
    | [] => none
    | _ :: ds => (closeLine? (octet q) ds).map (· + 2)
  := by
  have hb : (decide (octet '\\' = octet '\\') && octet q != octet backtick) = true := by
    rw [bne_octet hq (by decide), decide_eq_true rfl, Bool.true_and]
    exact bne_iff_ne.mpr hb
  rw [closeLine?.eq_def]
  dsimp only
  rw [if_neg (by decide), if_pos hb]

/-- The character after a backslash takes all of its bytes with it. -/
theorem closeLine?_bytes_escape {q : Char} (hq : IsAscii q) (hb : q ≠ backtick) (d : Char)
    (t : Text) :
  closeLine? (octet q) (bytes ('\\' :: d :: t))
    = (closeLine? (octet q) (bytes t)).map (· + (1 + d.utf8Size))
  := by
  obtain ⟨e, es, he⟩ := List.exists_cons_of_ne_nil (String.utf8EncodeChar_ne_nil (c := d))
  have hl := congrArg List.length he
  rw [String.length_utf8EncodeChar, List.length_cons] at hl
  have hh : High es := by
    by_cases ha : IsAscii d
    · rw [utf8EncodeChar_of_isAscii ha] at he
      obtain rfl := (List.cons.inj he).2
      intro b hb
      cases hb
    · have := high_utf8EncodeChar ha
      rw [he] at this
      exact this.tail
  rw [bytes_cons_ascii (by decide), closeLine?_backslash hq hb, bytes_cons, he, List.cons_append]
  dsimp only
  rw [closeLine?_high_append hq hh, Option.map_map, hl]
  congr 1
  funext n
  simp only [Function.comp_apply]
  omega

/-- A literal ends among the bytes where `closeLine` ends it in the text. -/
theorem closeLine?_bytes {q : Char} (hq : IsAscii q) (t : Text) :
  closeLine? (octet q) (bytes t) = (closeLine q t).map fun p => size p.1 + 1
  := by
  fun_induction closeLine q t with
  | case1 => rfl
  | case2 t =>
    rw [bytes_cons_ascii (by decide), closeLine?.eq_def]
    rfl
  | case3 c _ hb =>
    simp only [Bool.and_eq_true, decide_eq_true_eq, bne_iff_ne] at hb
    obtain ⟨rfl, hb⟩ := hb
    rw [bytes_cons_ascii (by decide), closeLine?_backslash hq hb]
    rfl
  | case4 c _ hb d u ih =>
    simp only [Bool.and_eq_true, decide_eq_true_eq, bne_iff_ne] at hb
    obtain ⟨rfl, hb⟩ := hb
    rw [closeLine?_bytes_escape hq hb, ih, Option.map_map, Option.map_map]
    congr 1
    funext p
    have : ('\\' : Char).utf8Size = 1 := by decide
    simp only [Function.comp_apply, size_cons]
    omega
  | case5 t hn hb =>
    have hb : ¬(decide (octet q = octet '\\') && octet q != octet backtick) = true := by
      rwa [bne_octet hq (by decide), decide_octet_eq hq (by decide)]
    have hn : octet q ≠ octet '\n' := fun h => hn ((octet_inj hq (by decide)).mp h)
    rw [bytes_cons_ascii hq, closeLine?.eq_def]
    simp only [if_neg hn, if_neg hb, if_true]
    rfl
  | case6 c t hn hb hc ih =>
    rw [closeLine?_bytes_cons hq hn hb hc, ih, Option.map_map, Option.map_map]
    congr 1
    funext p
    simp only [Function.comp_apply, size_cons]
    omega

/-! ## Literals and comments -/

theorem isAscii_of_isQuote {c : Char} (h : DatabaseMarkup.isQuote c) :
  IsAscii c
  := by
  simp only [DatabaseMarkup.isQuote, Bool.or_eq_true, decide_eq_true_eq] at h
  rcases h with (rfl | rfl) | rfl <;> decide

/-- The octet of a character is tested as a quote as the character is. -/
theorem isQuote_octet {c : Char} (hc : IsAscii c) :
  isQuote (octet c) = DatabaseMarkup.isQuote c
  := by
  simp only [isQuote, DatabaseMarkup.isQuote]
  rw [decide_octet_eq hc (by decide), decide_octet_eq hc (by decide),
    decide_octet_eq hc (by decide)]

theorem isAscii_of_mem_tripleQuote :
  ∀ c ∈ tripleQuote, IsAscii c
  := forall_isAscii (by decide)

/-- The bytes of a literal are as many as the scanner of bytes finds. -/
theorem literalLength_bytes {c : Char} (hc : DatabaseMarkup.isQuote c) (t : Text) :
  size (Lexeme.first c t).1.text = 1 + literalLength (octet c) (bytes t)
  := by
  have ha := isAscii_of_isQuote hc
  have hp : [octet apostrophe, octet apostrophe].isPrefixOf (bytes t)
      = [apostrophe, apostrophe].isPrefixOf t :=
    isPrefixOf_bytes [apostrophe, apostrophe] (forall_isAscii (by decide)) t
  rw [Lexeme.first, literalLength, hp, decide_octet_eq ha (by decide)]
  split
  · rename_i h
    rw [Bool.and_eq_true, decide_eq_true_eq] at h
    obtain ⟨rfl, h⟩ := h
    obtain ⟨u, rfl⟩ := List.isPrefixOf_iff_prefix.mp h
    have hd : (bytes ([apostrophe, apostrophe] ++ u)).drop 2 = bytes u := by
      rw [bytes_append]
      rfl
    have hf : find? (tripleQuote.map octet) (bytes u) = _ :=
      find?_bytes tripleQuote isAscii_of_mem_tripleQuote (by decide) u
    rw [hd, hf]
    simp only [List.cons_append, List.nil_append, List.drop_succ_cons, List.drop_zero]
    cases cutAtMark tripleQuote u with
    | none => rfl
    | some p =>
      have : apostrophe.utf8Size = 1 := by decide
      simp only [Option.map_some, Lexeme.text, size_cons, size_append, size_nil]
      omega
  · rw [closeLine?_bytes ha]
    have hs : c.utf8Size = 1 := Char.utf8Size_eq_one_iff.mpr ha
    cases closeLine c t with
    | none =>
      simp only [Option.map_none, Option.getD_none, Lexeme.text, size_cons, size_nil]
      omega
    | some p =>
      simp only [Option.map_some, Option.getD_some, Lexeme.text, size_cons, size_append, size_nil]
      omega

theorem takeWhile_high_append {us : List UInt8} (h : High us) (bs : List UInt8) :
  (us ++ bs).takeWhile (fun b => b != octet '\n')
    = us ++ bs.takeWhile fun b => b != octet '\n'
  := by
  apply List.takeWhile_append_of_pos
  intro b hb
  exact bne_iff_ne.mpr (h.ne hb (by decide))

/-- The bytes before the first newline are those of the first line. -/
theorem takeWhile_bytes (t : Text) :
  (bytes t).takeWhile (fun b => b != octet '\n') = bytes (firstLine t)
  := by
  induction t with
  | nil => rfl
  | cons c t ih =>
    by_cases hc : IsAscii c
    · rw [bytes_cons_ascii hc, List.takeWhile_cons, ih, bne_octet hc (by decide), firstLine,
        firstLine, List.takeWhile_cons]
      split
      · rw [bytes_cons_ascii hc]
      · rfl
    · have hn : (c != '\n') = true := by
        apply bne_iff_ne.mpr
        rintro rfl
        exact hc (by decide)
      rw [bytes_cons, takeWhile_high_append (high_utf8EncodeChar hc), ih, firstLine, firstLine,
        List.takeWhile_cons, if_pos hn, bytes_cons]

/-- The bytes of a comment are as many as the scanner of bytes finds. -/
theorem commentLength?_bytes (t : Text) :
  commentLength? (bytes t) = (splitComment? ('/' :: t)).map fun p => size p.1 - 1
  := by
  have hs : ('/' : Char).utf8Size = 1 := by decide
  have hl : [octet '/'].isPrefixOf (bytes t) = ['/'].isPrefixOf t :=
    isPrefixOf_bytes ['/'] (forall_isAscii (by decide)) t
  have hb : [octet '*'].isPrefixOf (bytes t) = ['*'].isPrefixOf t :=
    isPrefixOf_bytes ['*'] (forall_isAscii (by decide)) t
  rw [commentLength?, splitComment?, hl, hb, List.isPrefixOf_cons_cons, List.isPrefixOf_cons_cons]
  simp only [beq_self_eq_true, Bool.true_and]
  split
  · rw [takeWhile_bytes, length_bytes]
    simp only [Option.map_some, Option.some.injEq]
    have : firstLine ('/' :: t) = '/' :: firstLine t := rfl
    rw [this, size_cons, hs]
    omega
  · split
    · rename_i h
      obtain ⟨u, rfl⟩ := List.isPrefixOf_iff_prefix.mp h
      have hd : (bytes (['*'] ++ u)).drop 1 = bytes u := by
        rw [bytes_append]
        rfl
      have hf : find? [octet '*', octet '/'] (bytes u) = _ :=
        find?_bytes ['*', '/'] (forall_isAscii (by decide)) (by decide) u
      rw [hd, hf]
      simp only [List.cons_append, List.nil_append, List.drop_succ_cons, List.drop_zero]
      have hstar : ('*' : Char).utf8Size = 1 := by decide
      cases cutAtMark ['*', '/'] u with
      | none =>
        simp only [Option.map_none, Option.map_some, length_bytes, size_cons, Option.some.injEq]
        omega
      | some p =>
        simp only [Option.map_some, size_cons, size_append, size_nil, Option.some.injEq]
        omega
    · rfl

/-! ## Blanking -/

/-- What is left to copy is copied. -/
theorem stripFrom_copied (us : List UInt8) (blanked : Nat) (bs : List UInt8) :
  stripFrom us.length blanked (us ++ bs) = us ++ stripFrom 0 blanked bs
  := by
  induction us with
  | nil => rfl
  | cons u us ih => rw [List.length_cons, List.cons_append, stripFrom, ih, List.cons_append]

/-- What is left to blank is blanked. -/
theorem stripFrom_blanked (us bs : List UInt8) :
  stripFrom 0 us.length (us ++ bs) = us.map blankOut ++ stripFrom 0 0 bs
  := by
  induction us with
  | nil => rfl
  | cons u us ih =>
    rw [List.length_cons, List.cons_append, stripFrom, ih, List.map_cons, List.cons_append]

theorem bytes_replicate_space (n : Nat) :
  bytes (List.replicate n ' ') = List.replicate n (octet ' ')
  := by
  induction n with
  | zero => rfl
  | succ n ih => rw [List.replicate_succ, bytes_cons_ascii (by decide), ih, List.replicate_succ]

/-- Bytes without newlines become as many spaces. -/
theorem map_blankOut_of_ne {us : List UInt8} (h : ∀ b ∈ us, b ≠ octet '\n') :
  us.map blankOut = List.replicate us.length (octet ' ')
  := by
  apply List.eq_replicate_iff.mpr
  constructor
  · exact List.length_map _
  · intro b hb
    obtain ⟨u, hu, rfl⟩ := List.mem_map.mp hb
    exact if_neg (h u hu)

/-- No byte of another character is a newline. -/
theorem ne_newline_of_mem_utf8EncodeChar {c : Char} (hc : c ≠ '\n') {b : UInt8}
    (hb : b ∈ String.utf8EncodeChar c) :
  b ≠ octet '\n'
  := by
  by_cases ha : IsAscii c
  · rw [utf8EncodeChar_of_isAscii ha, List.mem_singleton] at hb
    rw [hb]
    exact fun h => hc ((octet_inj ha (by decide)).mp h)
  · exact (high_utf8EncodeChar ha).ne hb (by decide)

/-- A blanked character has as many blanked bytes. -/
theorem bytes_blankOut (c : Char) :
  bytes (Text.blankOut c) = (String.utf8EncodeChar c).map blankOut
  := by
  rw [Text.blankOut]
  split
  · rename_i hc
    subst hc
    rfl
  · rename_i hc
    rw [bytes_replicate_space, map_blankOut_of_ne fun _ => ne_newline_of_mem_utf8EncodeChar hc,
      String.length_utf8EncodeChar]

/-- The bytes of a blanked text are the blanked bytes of the text. -/
theorem bytes_blanked (t : Text) :
  bytes (Text.blanked t) = (bytes t).map blankOut
  := by
  induction t with
  | nil => rfl
  | cons c t ih =>
    rw [Text.blanked, List.flatMap_cons, bytes_append, bytes_blankOut, bytes_cons, List.map_append,
      ← ih]
    rfl

/-- Nothing is lost between a comment and what follows it, and a slash begins it. -/
theorem eq_append_of_splitComment {t comment rest : Text}
    (h : splitComment? t = some (comment, rest)) :
  ∃ more, comment = '/' :: more ∧ t = comment ++ rest
  := by
  rw [splitComment?] at h
  split at h
  · rename_i hp
    obtain ⟨u, rfl⟩ := List.isPrefixOf_iff_prefix.mp hp
    simp only [Option.some.injEq, Prod.mk.injEq] at h
    obtain ⟨rfl, rfl⟩ := h
    exact ⟨_, rfl, (List.takeWhile_append_dropWhile).symm⟩
  · split at h
    · rename_i hp
      obtain ⟨u, rfl⟩ := List.isPrefixOf_iff_prefix.mp hp
      split at h
      · rename_i hm
        simp only [Option.some.injEq, Prod.mk.injEq] at h
        obtain ⟨rfl, rfl⟩ := h
        have hm : u = _ := eq_append_of_cutAtMark hm
        refine ⟨_, rfl, ?_⟩
        rw [hm]
        simp
      · simp only [Option.some.injEq, Prod.mk.injEq] at h
        obtain ⟨rfl, rfl⟩ := h
        exact ⟨_, rfl, (List.append_nil _).symm⟩
    · cases h

/-- The scanner of bytes writes the bytes of the text without comments. -/
theorem stripComments_bytes (t : Text) :
  stripComments (bytes t) = bytes (Text.stripComments t)
  := by
  rw [stripComments]
  fun_induction Text.stripComments t with
  | case1 => rfl
  | case2 c t hq ih =>
    have ha := isAscii_of_isQuote hq
    have hl := literalLength_bytes hq t
    have ht := Lexeme.text_first_append c t
    obtain ⟨tail, hc⟩ := Lexeme.exists_text_first c t
    rw [hc, size_cons, Char.utf8Size_eq_one_iff.mpr ha, Nat.add_left_cancel_iff,
      ← length_bytes] at hl
    rw [hc, List.cons_append, List.cons.injEq] at ht
    have hb : bytes t = bytes tail ++ bytes (Lexeme.first c t).2 := by
      rw [← bytes_append, ht.2]
    rw [bytes_cons_ascii ha, stripFrom, isQuote_octet ha, if_pos hq, ← hl, hb, stripFrom_copied,
      ih, hc, List.cons_append, bytes_cons_ascii ha, bytes_append]
  | case3 c t hq comment rest h ih =>
    obtain ⟨more, rfl, ht⟩ := eq_append_of_splitComment h
    rw [List.cons_append, List.cons.injEq] at ht
    obtain ⟨rfl, rfl⟩ := ht
    have hn := commentLength?_bytes (more ++ rest)
    have hs : ('/' : Char).utf8Size = 1 := by decide
    rw [h, Option.map_some, size_cons, hs, Nat.add_sub_cancel_left, ← length_bytes] at hn
    rw [bytes_cons_ascii (by decide), stripFrom, if_neg (by decide), if_pos rfl, hn, bytes_append]
    dsimp only
    rw [stripFrom_blanked, ih, bytes_append, bytes_blanked, bytes_cons_ascii (by decide),
      List.map_cons, List.cons_append]
  | case4 c t hq h ih =>
    by_cases ha : IsAscii c
    · have hq : isQuote (octet c) = false := by
        rw [isQuote_octet ha]
        exact eq_false_of_ne_true hq
      rw [bytes_cons_ascii ha, bytes_cons_ascii ha, stripFrom, hq, if_neg Bool.false_ne_true]
      split
      · rename_i hs
        obtain rfl := (octet_inj ha (by decide)).mp hs
        rw [commentLength?_bytes, h, Option.map_none]
        dsimp only
        rw [ih]
      · rw [ih]
    · rw [bytes_cons, stripFrom_high_append (high_utf8EncodeChar ha), ih, bytes_cons]

end Octets

end DatabaseMarkup
