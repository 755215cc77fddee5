import ExprLang.Text.CodeRange

/-!
# White space

A blank is a character with the Unicode property `White_Space`. Blanks
separate tokens, and they are trimmed from the source lines shown in
diagnostics.
-/

namespace ExprLang.Text

/-- The code points with the property `White_Space`. -/
def blanks : List CodeRange :=
  [(0x9, 0xd), (0x20, 0x20), (0x85, 0x85), (0xa0, 0xa0), (0x1680, 0x1680), (0x2000, 0x200a),
  (0x2028, 0x2029), (0x202f, 0x202f), (0x205f, 0x205f), (0x3000, 0x3000)]

def isBlank (c : Char) : Bool :=
  CodeRange.anyContains blanks c

/-- The text without the blanks at either end. -/
def trimBlanks (text : List Char) : List Char :=
  ((text.dropWhile isBlank).reverse.dropWhile isBlank).reverse

end ExprLang.Text
