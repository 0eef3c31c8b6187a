/-!
# Blank characters

The characters that may stand around a numeral: the separators of lines and words, but not the
control characters that separate fields and records.
-/

namespace NamedSlots.Text

/-- The first and last code points of the ranges of blank characters. -/
def blankRanges : List (Nat × Nat) :=
  [(0x9, 0xd), (0x20, 0x20), (0x85, 0x85), (0xa0, 0xa0), (0x1680, 0x1680), (0x2000, 0x200a),
   (0x2028, 0x2029), (0x202f, 0x202f), (0x205f, 0x205f), (0x3000, 0x3000)]

def isBlank (c : Char) : Bool :=
  blankRanges.any fun (first, last) => first ≤ c.toNat && c.toNat ≤ last

def trimBlanks (cs : List Char) : List Char :=
  ((cs.dropWhile isBlank).reverse.dropWhile isBlank).reverse

end NamedSlots.Text
