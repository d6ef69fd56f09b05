import Portfolio.Text.CharRange

/-! # Blanks

The Unicode property `White_Space`, and texts without the blanks at their ends. -/

namespace Portfolio.Text

/-- The ranges of the property `White_Space`, ascending. -/
def blankRanges : List (Nat × Nat) :=
  [(0x9, 0xd), (0x20, 0x20), (0x85, 0x85), (0xa0, 0xa0), (0x1680, 0x1680), (0x2000, 0x200a),
   (0x2028, 0x2029), (0x202f, 0x202f), (0x205f, 0x205f), (0x3000, 0x3000)]

def isBlank (c : Char) : Bool :=
  inRanges blankRanges c.toNat

def trimLeft (cs : List Char) : List Char :=
  cs.dropWhile isBlank

def trimRight (cs : List Char) : List Char :=
  (trimLeft cs.reverse).reverse

def trim (cs : List Char) : List Char :=
  trimRight (trimLeft cs)

/-! Every blank of the core library is one here. -/

example : ∀ n ∈ List.range 128, (Char.ofNat n).isWhitespace → isBlank (Char.ofNat n) := by
  decide +kernel

end Portfolio.Text
