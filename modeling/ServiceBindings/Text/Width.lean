import ServiceBindings.Text.Mark

/-!
# Widths

The number of columns that a character takes on a terminal: two for the wide characters of East
Asian scripts and for pictographs, none for marks and what else joins a neighbour, and four for a
tab.
-/

namespace ServiceBindings.Text

/-- The wide characters; marks may lie among them. -/
def wideRanges : List (Nat × Nat) := [
  (0x1100, 96), (0x231a, 2), (0x2329, 2), (0x23e9, 4), (0x23f0, 1), (0x23f3, 1), (0x25fd, 2),
  (0x2614, 2), (0x2630, 8), (0x2648, 12), (0x267f, 1), (0x268a, 6), (0x2693, 1), (0x26a1, 1),
  (0x26aa, 2), (0x26bd, 2), (0x26c4, 2), (0x26ce, 1), (0x26d4, 1), (0x26ea, 1), (0x26f2, 2),
  (0x26f5, 1), (0x26fa, 1), (0x26fd, 1), (0x2705, 1), (0x270a, 2), (0x2728, 1), (0x274c, 1),
  (0x274e, 1), (0x2753, 3), (0x2757, 1), (0x2795, 3), (0x27b0, 1), (0x27bf, 1), (0x2b1b, 2),
  (0x2b50, 1), (0x2b55, 1), (0x2e80, 26), (0x2e9b, 89), (0x2f00, 214), (0x2ff0, 79), (0x3041, 86),
  (0x309b, 101), (0x3105, 43), (0x3131, 94), (0x3190, 86), (0x31ef, 48), (0x3220, 40),
  (0x3250, 29245), (0xa490, 55), (0xa960, 29), (0xac00, 11172), (0xf900, 512), (0xfe10, 10),
  (0xfe30, 35), (0xfe54, 19), (0xfe68, 4), (0xff01, 96), (0xffe0, 7), (0x16fe0, 4), (0x16ff2, 5),
  (0x17000, 7382), (0x18cff, 32), (0x18d80, 115), (0x1aff0, 4), (0x1aff5, 7), (0x1affd, 2),
  (0x1b000, 291), (0x1b132, 1), (0x1b150, 3), (0x1b155, 1), (0x1b164, 4), (0x1b170, 396),
  (0x1d300, 87), (0x1d360, 23), (0x1f004, 1), (0x1f0cf, 1), (0x1f18e, 1), (0x1f191, 10),
  (0x1f200, 3), (0x1f210, 44), (0x1f240, 9), (0x1f250, 2), (0x1f260, 6), (0x1f300, 33),
  (0x1f32d, 9), (0x1f337, 70), (0x1f37e, 22), (0x1f3a0, 43), (0x1f3cf, 5), (0x1f3e0, 17),
  (0x1f3f4, 1), (0x1f3f8, 71), (0x1f440, 1), (0x1f442, 187), (0x1f4ff, 63), (0x1f54b, 4),
  (0x1f550, 24), (0x1f57a, 1), (0x1f595, 2), (0x1f5a4, 1), (0x1f5fb, 85), (0x1f680, 70),
  (0x1f6cc, 1), (0x1f6d0, 3), (0x1f6d5, 4), (0x1f6dc, 4), (0x1f6eb, 2), (0x1f6f4, 9), (0x1f7e0, 12),
  (0x1f7f0, 1), (0x1f90c, 47), (0x1f93c, 10), (0x1f947, 185), (0x1fa70, 13), (0x1fa80, 11),
  (0x1fa8e, 57), (0x1fac8, 1), (0x1facd, 16), (0x1fadf, 12), (0x1faef, 10), (0x20000, 65534),
  (0x30000, 65534)]

/-- The characters, other than marks, that are drawn onto a neighbour: vowels and final consonants
of a Hangul syllable, signs that the next characters carry, and the narrow voicing signs. -/
def attachedRanges : List (Nat × Nat) := [
  (0x605, 1), (0x70f, 1), (0x890, 2), (0x8e2, 1), (0xd4e, 1), (0x1160, 160), (0xa8fa, 1),
  (0xd7b0, 23), (0xd7cb, 49), (0xff9e, 2), (0x111c2, 2), (0x113d1, 1), (0x1193f, 1), (0x11941, 1),
  (0x11a84, 6), (0x11d46, 1), (0x11f02, 1)]

/-- The characters that no class gives the columns of: a filler, two long Khmer letters and a joiner
that is seen. -/
def singularColumns : List (Nat × Nat) := [(0x115f, 2), (0x17a4, 2), (0x17d8, 3), (0x2d7f, 1)]

/-- The columns of a character. -/
def columns (c : Char) : Nat :=
  if c = '\t' then 4
  else if c.toNat < 128 then 1
  else match singularColumns.lookup c.toNat with
    | some count => count
    | none =>
      if isMark c || isIgnorable c || inRanges attachedRanges c.toNat then 0
      else if inRanges wideRanges c.toNat then 2
      else 1

/-- The columns of a text. -/
def width : List Char → Nat
  | [] => 0
  | c :: cs => columns c + width cs

end ServiceBindings.Text
