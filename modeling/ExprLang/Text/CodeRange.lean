/-!
# Ranges of code points

A property of characters is kept as a table of closed ranges of code points,
and a character has the property when one of the ranges contains it.
-/

namespace ExprLang.Text

/-- The first and the last code point of a range. -/
abbrev CodeRange := Nat × Nat

def CodeRange.contains (range : CodeRange) (c : Char) : Bool :=
  range.1 ≤ c.toNat && c.toNat ≤ range.2

def CodeRange.anyContains (ranges : List CodeRange) (c : Char) : Bool :=
  ranges.any fun range => range.contains c

end ExprLang.Text
