import DatabaseMarkup.Unicode.Emoji
import DatabaseMarkup.Unicode.Ligature

/-!
# The neighbour of a character

The width that a character adds to a text depends on the sign that follows it: the two may be
displayed as one.  `Neighbor` is what there is to know about the sign that follows,
`Neighbor.alone` says how wide a character is that forms no sign with its neighbour,
`Neighbor.combine?` how much is added by one that does, and `Neighbor.step` is the two together.

A sign can take less than a part of it does, so that a character may add a negative width.
`Neighbor.owed` is the most that the character before a neighbour can take back.  The main
statement, `Neighbor.owed_step_le`, says that no more is taken back than has been counted.

A pair of regional indicators is a flag, and a joiner makes the flag before it one sign with the
emoji after it.  Which indicators form pairs depends on how many of them there are: one that
completes a pair takes back what the one after it had as a sign of its own.
-/

namespace DatabaseMarkup

open Unicode

/-- The sign that follows a character, as far as it matters to the width of the character. -/
inductive Neighbor where
  | other
  | newline
  | modifier
  | emoji
  | joinedEmoji
  | joinedKeycap
  | regionalIndicator
  | regionalIndicators
  | joinedIndicator
  | joinedFlags
  | joinedFlagsAndIndicator
  | tagLetters (count : Nat)
  | tagDigits (count : Nat)
  | alef
  | lamed (joined : Bool)
  | ya (joined : Bool)
  | vowelYa
  | tifinagh (joined : Bool)
  | tifinaghJoiner
  | lisuTone
  | orkhonI (joined : Bool)
  | khmerSubscript
  | kiratE
  | kiratAi
  deriving DecidableEq, Repr

namespace Neighbor

/-- The width of a character that is displayed on its own. -/
def ownWidth (c : Char) : Nat :=
  if c.toNat ≤ 0xA0 then 1
  else if isZeroWidth c then 0
  else if isDoubleWidth c then 2
  else if c.toNat = 0x17D8 then 3
  else 1

/-- What a character on its own is to the character before it. -/
def ofChar (c : Char) : Neighbor :=
  let n := c.toNat
  if n = 0x0A then newline
  else if n ≤ 0xA0 then other
  else if isRegionalIndicator c then regionalIndicator
  else if isModifier c then modifier
  else if isEmoji c then emoji
  else if isAlef c then alef
  else if n = 0x05DC then lamed false
  else if n = 0x1A10 then ya false
  else if isTifinagh c then tifinagh false
  else if isLisuSecondTone c then lisuTone
  else if n = 0x10C03 then orkhonI false
  else if isKhmerSubscript c then khmerSubscript
  else if n = 0x16D67 then kiratE
  else if n = 0x16D68 then kiratAi
  else other

/-- The width and the sign of a character that forms no sign with its neighbour. -/
def alone (c : Char) : Int × Neighbor :=
  (ownWidth c, ofChar c)

/-- Whether the neighbour is a letter that variation selectors before it do not separate from the
letter that they follow. -/
def isLigature : Neighbor → Bool
  | alef | lamed _ | ya _ | vowelYa | tifinagh _ | tifinaghJoiner | lisuTone | orkhonI _
  | khmerSubscript => true
  | _ => false

/-- Whether the neighbour is a letter that the ignorable characters before it do not separate from
the letter that they follow.  Only alef is not, which has transparent characters instead. -/
def seesThroughIgnorable (neighbor : Neighbor) : Bool :=
  neighbor.isLigature && neighbor != alef

/-- Whether the neighbour follows a zero width joiner that continues an emoji. -/
def isJoinedEmoji : Neighbor → Bool
  | joinedEmoji | joinedKeycap => true
  | _ => false

/-- The neighbour with a zero width joiner before it. -/
def join : Neighbor → Neighbor
  | lamed _ => lamed true
  | ya _ => ya true
  | tifinagh _ => tifinagh true
  | orkhonI _ => orkhonI true
  | neighbor => neighbor

/-- The width that a character adds that forms a sign with its neighbour, and the sign. -/
def combine? (neighbor : Neighbor) (c : Char) : Option (Int × Neighbor) :=
  let n := c.toNat
  match neighbor with
  | modifier =>
    if isJoiner c then some (0, joinedEmoji)
    else if isModifierBase c then some (0, emoji)
    else none
  | emoji => if isJoiner c then some (0, joinedEmoji) else none
  | joinedEmoji =>
    if isKeycap c then some (0, joinedKeycap)
    else if isRegionalIndicator c then some (1, joinedIndicator)
    else if isModifier c then some (0, modifier)
    else if isTagEnd c then some (0, tagLetters 0)
    else if isEmoji c then some (0, emoji)
    else none
  | regionalIndicator => if isRegionalIndicator c then some (1, regionalIndicators) else none
  | regionalIndicators =>
    if isRegionalIndicator c then some (1, regionalIndicators)
    else if isJoiner c then some (0, joinedEmoji)
    else none
  | joinedIndicator => if isRegionalIndicator c then some (-1, joinedFlags) else none
  | joinedFlags =>
    if isRegionalIndicator c then some (3, joinedFlagsAndIndicator)
    else if isJoiner c then some (0, joinedEmoji)
    else none
  | joinedFlagsAndIndicator =>
    if isRegionalIndicator c then some (-1, joinedFlags)
    else if isJoiner c then some (0, joinedEmoji)
    else none
  | tagLetters count =>
    if isTagLetter c && count < 6 then some (0, tagLetters (count + 1))
    else if isTagDigit c && count ≤ 4 then some (0, tagDigits 1)
    else if isTaggedFlag c && 3 ≤ count then some (0, emoji)
    else none
  | tagDigits count =>
    if isTagDigit c && count < 3 then some (0, tagDigits (count + 1))
    else if isTaggedFlag c && count = 3 then some (0, emoji)
    else none
  | alef =>
    if isLam c then some (0, other)
    else if isTransparent c then some (0, alef)
    else none
  | lamed true => if n = 0x05D0 then some (0, other) else none
  | ya true => if n = 0x1A17 then some (0, vowelYa) else none
  | vowelYa => if n = 0x1A15 then some (0, other) else none
  | tifinagh joined =>
    if n = 0x2D7F then some (1, tifinaghJoiner)
    else if joined && isTifinagh c then some (0, other)
    else none
  | tifinaghJoiner => if isTifinagh c then some (-1, other) else none
  | lisuTone => if isLisuFirstTone c then some (0, other) else none
  | orkhonI true => if n = 0x10C32 then some (0, other) else none
  | khmerSubscript => if n = 0x17D2 then some (-1, other) else none
  | kiratE =>
    if n = 0x16D63 || n = 0x16D69 then some (0, other)
    else if n = 0x16D67 then some (0, kiratAi)
    else if n = 0x16D68 then some (1, kiratE)
    else none
  | kiratAi => if n = 0x16D63 then some (0, other) else none
  | other | newline | joinedKeycap | lamed false | ya false | orkhonI false => none

/-- The width that a character adds and the sign that it and its neighbour begin with. -/
def step (neighbor : Neighbor) (c : Char) : Int × Neighbor :=
  if neighbor.seesThroughIgnorable && isLigatureIgnorable c then
    (0, if isJoiner c then neighbor.join else neighbor)
  else
    (neighbor.combine? c).getD (alone c)

/-- The width that the character before a neighbour can take back. -/
def owed : Neighbor → Int
  | joinedIndicator | joinedFlagsAndIndicator | tifinaghJoiner | khmerSubscript => 1
  | _ => 0

/-- A neighbor never owes a negative width. -/
theorem owed_nonneg (neighbor : Neighbor) :
  0 ≤ neighbor.owed
  := by
  cases neighbor <;> simp [owed]

@[simp]
theorem owed_join (neighbor : Neighbor) :
  neighbor.join.owed = neighbor.owed
  := by
  cases neighbor <;> rfl

/-- A Khmer letter with a subscript form takes a column. -/
theorem one_le_ownWidth_of_isKhmerSubscript {c : Char} (h : isKhmerSubscript c) :
  1 ≤ ownWidth c
  := by
  have hz := not_isZeroWidth_of_isKhmerSubscript h
  grind [ownWidth]

/-- A character on its own takes the columns that the one before it may take back. -/
theorem owed_le_alone (c : Char) :
  (alone c).2.owed ≤ (alone c).1
  := by
  change (ofChar c).owed ≤ ownWidth c
  fun_cases ofChar c <;> grind [owed, one_le_ownWidth_of_isKhmerSubscript]

/-- A character that forms a sign with its neighbour takes back no more than the neighbour owes. -/
theorem owed_le_combine? {neighbor next : Neighbor} {c : Char} {added : Int}
    (h : neighbor.combine? c = some (added, next)) :
  next.owed ≤ neighbor.owed + added
  := by
  revert h
  fun_cases combine? neighbor c <;> grind [owed]

/-- A character takes back no more than its neighbour owes. -/
theorem owed_step_le (neighbor : Neighbor) (c : Char) :
  (neighbor.step c).2.owed ≤ neighbor.owed + (neighbor.step c).1
  := by
  unfold step
  split
  · split <;> simp
  · cases hc : neighbor.combine? c with
    | none => exact Int.le_trans (owed_le_alone c) (Int.le_add_of_nonneg_left neighbor.owed_nonneg)
    | some combined => exact owed_le_combine? hc

end Neighbor

end DatabaseMarkup
