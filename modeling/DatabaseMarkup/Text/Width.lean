import DatabaseMarkup.Text.Basic
import DatabaseMarkup.Text.Neighbor

/-!
# Display width

`Text.displayWidth` is the number of columns that a text takes when it is displayed.  Most
characters take one column, wide ones and emoji two, combining and ignorable ones none.  Some
sequences take less than their characters do: a carriage return with a newline, the characters
that make up one emoji, and the ligatures of several scripts.

The sum is taken from the end of the text, and `Trail` is what a character has to know about
the text after it: the sign that follows it and the variation selectors that it may obey.  A
character can take back some of what the sign after it was counted for.  By `owed_le_width` the
sum covers this, so that it is a number of columns.
-/

namespace DatabaseMarkup

open Unicode

/-- What a variation selector asks of the character before it: to be displayed as an emoji, as
text, or as a fullwidth quotation mark. -/
inductive Selector where
  | emoji
  | text
  | fullwidth
  deriving DecidableEq, Repr

namespace Selector

/-- The variation selector that a character is. -/
def ofChar? (c : Char) : Option Selector :=
  let n := c.toNat
  if n = 0xFE0F then some emoji
  else if n = 0xFE0E then some text
  else if n = 0xFE01 then some fullwidth
  else none

end Selector

/-- What a text begins with, as far as it matters to the width of the character before it. -/
structure Trail where
  neighbor : Neighbor
  selectors : List Selector
  deriving DecidableEq, Repr

namespace Trail

/-- The trail of a sign that no variation selector precedes. -/
def plain (neighbor : Neighbor) : Trail :=
  ⟨neighbor, []⟩

/-- The trail with a variation selector before it.  It remembers a letter that forms ligatures, and
a joined emoji where the selector asks for one. -/
def select (trail : Trail) (s : Selector) : Trail :=
  if trail.neighbor.isLigature then
    ⟨trail.neighbor, trail.selectors.insert s⟩
  else if s = .emoji ∧ trail.neighbor.isJoinedEmoji then
    ⟨trail.neighbor, [s]⟩
  else
    ⟨.other, [s]⟩

/-- The trail after a character that does not obey a variation selector.  The selector has then come
between the character and its neighbour, unless that is a letter that forms ligatures. -/
def ignore (trail : Trail) (s : Selector) : Trail :=
  if s ∉ trail.selectors then
    trail
  else if trail.neighbor.isLigature then
    ⟨trail.neighbor, trail.selectors.erase s⟩
  else
    plain .other

/-- The neighbour of a character that obeys none of the variation selectors. -/
def visible (trail : Trail) : Neighbor :=
  if trail.selectors.isEmpty || trail.neighbor.isLigature then trail.neighbor else .other

/-- Whether a character is a quotation mark that has a fullwidth form. -/
def isQuotationMark (c : Char) : Bool :=
  let n := c.toNat
  n = 0x2018 || n = 0x2019 || n = 0x201C || n = 0x201D

/-- The width that a control, an ASCII character or a no-break space adds where it is not asked to
be an emoji.  A carriage return and a newline take one column together. -/
def stepBasic (c : Char) (trail : Trail) : Int × Trail :=
  ( if c = '\r' ∧ trail = plain .newline then 0 else 1,
    plain (if c = '\n' then .newline else .other) )

/-- The width that any other character adds where it is not asked to be an emoji.  Of two requests
that a character can obey, that for text comes first. -/
def stepText (c : Char) (trail : Trail) : Int × Trail :=
  match Selector.ofChar? c with
  | some s => (0, (trail.ignore .emoji).select s)
  | none =>
    if .text ∈ trail.selectors ∧ isNarrowAsText c then
      (1, plain .other)
    else if .fullwidth ∈ trail.selectors ∧ isQuotationMark c then
      (2, plain .other)
    else
      let (added, neighbor) := trail.visible.step c
      (added, plain neighbor)

/-- The width that a character adds to the text after it and what the two begin with. -/
def step (c : Char) (trail : Trail) : Int × Trail :=
  if .emoji ∈ trail.selectors ∧ isEmojiBase c then
    (if trail.neighbor.isJoinedEmoji then 0 else 2, plain .emoji)
  else if c.toNat ≤ 0xA0 then
    trail.stepBasic c
  else
    trail.stepText c

theorem owed_select_le (trail : Trail) (s : Selector) :
  (trail.select s).neighbor.owed ≤ trail.neighbor.owed
  := by
  have h := trail.neighbor.owed_nonneg
  unfold select
  repeat' split
  · exact Int.le_refl _
  · exact Int.le_refl _
  · exact h

theorem owed_ignore_le (trail : Trail) (s : Selector) :
  (trail.ignore s).neighbor.owed ≤ trail.neighbor.owed
  := by
  have h := trail.neighbor.owed_nonneg
  unfold ignore
  repeat' split
  · exact Int.le_refl _
  · exact Int.le_refl _
  · exact h

/-- Showing a trail owes no more than its neighbor does. -/
theorem owed_visible_le (trail : Trail) :
  trail.visible.owed ≤ trail.neighbor.owed
  := by
  have h := trail.neighbor.owed_nonneg
  unfold visible
  split
  · exact Int.le_refl _
  · exact h

/-- A character adds at least what is owed behind it. -/
theorem owed_stepBasic_le (c : Char) (trail : Trail) :
  (trail.stepBasic c).2.neighbor.owed ≤ (trail.stepBasic c).1
  := by
  have next : (trail.stepBasic c).2.neighbor.owed = 0 := by
    unfold stepBasic
    split <;> split <;> rfl
  rw [next]
  unfold stepBasic
  split
  · exact Int.le_refl 0
  · exact Int.zero_le_ofNat 1

theorem owed_stepText_le (c : Char) (trail : Trail) :
  (trail.stepText c).2.neighbor.owed ≤ trail.neighbor.owed + (trail.stepText c).1
  := by
  have hn := trail.neighbor.owed_nonneg
  unfold stepText
  split
  · rw [Int.add_zero]
    exact Int.le_trans (owed_select_le _ _) (owed_ignore_le _ _)
  · split
    · exact Int.add_nonneg hn (by decide)
    · split
      · exact Int.add_nonneg hn (by decide)
      · exact Int.le_trans (Neighbor.owed_step_le _ c)
          (Int.add_le_add_right trail.owed_visible_le _)

/-- A character takes back no more than the sign after it owes. -/
theorem owed_step_le (c : Char) (trail : Trail) :
  (trail.step c).2.neighbor.owed ≤ trail.neighbor.owed + (trail.step c).1
  := by
  have hn := trail.neighbor.owed_nonneg
  unfold step
  split
  · split <;> exact Int.add_nonneg hn (by decide)
  · split
    · exact Int.le_trans (owed_stepBasic_le c _) (Int.le_add_of_nonneg_left hn)
    · exact owed_stepText_le c _

end Trail

namespace Text

/-- The width of a text and what the text begins with. -/
def widthAndTrail (t : Text) : Int × Trail :=
  t.foldr
    (fun c (width, trail) =>
      let (added, trail) := trail.step c
      (width + added, trail))
    (0, .plain .other)

/-- What is owed at the start of a text is part of its width, so the width is never negative. -/
theorem owed_le_width (t : Text) :
  (widthAndTrail t).2.neighbor.owed ≤ (widthAndTrail t).1
  := by
  induction t with
  | nil => exact Int.le_refl 0
  | cons c t ih =>
    have := Trail.owed_step_le c (widthAndTrail t).2
    change ((widthAndTrail t).2.step c).2.neighbor.owed
      ≤ (widthAndTrail t).1 + ((widthAndTrail t).2.step c).1
    omega

/-- The number of columns that a text takes. -/
def displayWidth (t : Text) : Nat :=
  (widthAndTrail t).1.toNat

/-- The sum of the widths is never negative. -/
theorem coe_displayWidth (t : Text) :
  (displayWidth t : Int) = (widthAndTrail t).1
  := by
  have := owed_le_width t
  have := Neighbor.owed_nonneg (widthAndTrail t).2.neighbor
  simp only [displayWidth]
  omega

end Text

end DatabaseMarkup
