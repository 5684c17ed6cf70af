import DatabaseMarkup.Unicode.Width

/-!
# Letters that form ligatures

In some scripts a letter and the one after it are displayed as one sign.  The classes here are
those of the letters that do so: lam and alef in Arabic, the letters of Khmer that have a
subscript form, the letters of Tifinagh, and the tone letters of Lisu.  `isTransparent` holds of
the combining characters that may stand between lam and alef, and `isLigatureIgnorable` of the
invisible ones that may stand inside any other ligature.
-/

namespace DatabaseMarkup.Unicode

/-- Whether a character has the joining group of lam. -/
def isLam (c : Char) : Bool :=
  let n := c.toNat
  n = 0x0644 || (0x06B5 ≤ n && n ≤ 0x06B8) || n = 0x076A || n = 0x08A6 || n = 0x08C7

/-- Whether a character has the joining group of alef. -/
def isAlef (c : Char) : Bool :=
  let n := c.toNat
  n = 0x0622 || n = 0x0623 || n = 0x0625 || n = 0x0627 || (0x0671 ≤ n && n ≤ 0x0673)
    || n = 0x0675 || n = 0x0773 || n = 0x0774 || (0x0870 ≤ n && n ≤ 0x0882)

/-- The ranges of the code points of zero width that keep letters around them apart, in ascending
order. -/
def nonTransparent : List CodeRange := [
  (0x605, 0x605), (0x890, 0x891), (0x8E2, 0x8E2), (0x9BE, 0x9BE), (0x9D7, 0x9D7), (0xB3E, 0xB3E),
  (0xB57, 0xB57), (0xBBE, 0xBBE), (0xBD7, 0xBD7), (0xCC0, 0xCC0), (0xCC2, 0xCC2), (0xCC7, 0xCC8),
  (0xCCA, 0xCCB), (0xCD5, 0xCD6), (0xD3E, 0xD3E), (0xD4E, 0xD4E), (0xD57, 0xD57), (0xDCF, 0xDCF),
  (0xDDF, 0xDDF), (0x1160, 0x11FF), (0x1715, 0x1715), (0x1734, 0x1734), (0x180E, 0x180E),
  (0x1B35, 0x1B35), (0x1B3B, 0x1B3B), (0x1B3D, 0x1B3D), (0x1B43, 0x1B44), (0x1BAA, 0x1BAA),
  (0x1BF2, 0x1BF3), (0x200C, 0x200D), (0x2065, 0x2069), (0x302E, 0x302F), (0x3164, 0x3164),
  (0xA8FA, 0xA8FA), (0xA953, 0xA953), (0xA9C0, 0xA9C0), (0xD7B0, 0xD7C6), (0xD7CB, 0xD7FB),
  (0xFFA0, 0xFFA0), (0xFFF0, 0xFFF8), (0x111C0, 0x111C0), (0x111C2, 0x111C3), (0x11235, 0x11235),
  (0x1133E, 0x1133E), (0x1134D, 0x1134D), (0x11357, 0x11357), (0x113B8, 0x113B8),
  (0x113C2, 0x113C2), (0x113C5, 0x113C5), (0x113C7, 0x113C9), (0x113CF, 0x113CF),
  (0x113D1, 0x113D1), (0x114B0, 0x114B0), (0x114BD, 0x114BD), (0x115AF, 0x115AF),
  (0x116B6, 0x116B6), (0x11930, 0x11930), (0x1193D, 0x1193D), (0x1193F, 0x1193F),
  (0x11941, 0x11941), (0x11A84, 0x11A89), (0x11D46, 0x11D46), (0x11F02, 0x11F02),
  (0x11F41, 0x11F41), (0x16FF0, 0x16FF1), (0x1D165, 0x1D166), (0x1D16D, 0x1D172),
  (0x1D250, 0x1D252), (0x1D25F, 0x1D25F), (0x1D280, 0x1D281), (0xE0000, 0xE0000),
  (0xE0002, 0xE001F), (0xE0080, 0xE00FF), (0xE01F0, 0xE0FFF)]

/-- Whether a character of zero width lets the letters around it join. -/
def isTransparent (c : Char) : Bool :=
  isZeroWidth c && !CodeRange.covers nonTransparent c.toNat

/-- The ranges of the Khmer letters that have a subscript form, in ascending order. -/
def khmerSubscript : List CodeRange := [
  (0x1780, 0x1782), (0x1784, 0x1787), (0x1789, 0x178C), (0x178E, 0x1793), (0x1795, 0x1798),
  (0x179B, 0x179D), (0x17A0, 0x17A0), (0x17A2, 0x17A2), (0x17A7, 0x17A7), (0x17AB, 0x17AC),
  (0x17AF, 0x17AF)]

/-- Whether a character is a Khmer letter that has a subscript form. -/
def isKhmerSubscript (c : Char) : Bool :=
  CodeRange.covers khmerSubscript c.toNat

theorem not_isZeroWidth_of_isKhmerSubscript {c : Char} (h : isKhmerSubscript c) :
  isZeroWidth c = false
  := by
  have letters : ∀ i < 0x30, CodeRange.covers khmerSubscript (0x1780 + i) →
      CodeRange.covers zeroWidth (0x1780 + i) = false := by
    decide +kernel
  have bounds : ∀ r ∈ khmerSubscript, 0x1780 ≤ r.1 ∧ r.2 < 0x17B0 := by
    decide
  obtain ⟨r, hr, hl, hu⟩ := CodeRange.exists_mem_of_covers h
  have hc := letters (c.toNat - 0x1780) (by have := bounds r hr; omega)
  rw [Nat.add_sub_cancel' (Nat.le_trans (bounds r hr).1 hl)] at hc
  exact hc h

/-- Whether a character is a letter of Tifinagh. -/
def isTifinagh (c : Char) : Bool :=
  let n := c.toNat
  (0x2D31 ≤ n && n ≤ 0x2D65) || n = 0x2D6F

/-- Whether a character is a tone letter of Lisu that can begin a pair of tones. -/
def isLisuFirstTone (c : Char) : Bool :=
  let n := c.toNat
  0xA4F8 ≤ n && n ≤ 0xA4FB

/-- Whether a character is a tone letter of Lisu that can end a pair of tones. -/
def isLisuSecondTone (c : Char) : Bool :=
  let n := c.toNat
  n = 0xA4FC || n = 0xA4FD

/-- Whether a character is invisible inside a ligature: the joiners that do not separate letters,
the inherent vowels of Khmer and the variation selectors. -/
def isLigatureIgnorable (c : Char) : Bool :=
  let n := c.toNat
  n = 0x034F || n = 0x17B4 || n = 0x17B5 || (0x180B ≤ n && n ≤ 0x180D) || n = 0x180F
    || n = 0x200D || (0xFE00 ≤ n && n ≤ 0xFE0F) || (0xE0100 ≤ n && n ≤ 0xE01EF)

end DatabaseMarkup.Unicode
