import ExprLang.Text.Extending
import ExprLang.Text.Ignorable
import ExprLang.Text.Unprintable

/-!
# Quoted text

Messages show a token between double quotes on one line. A quote, a backslash
and the common controls have escapes of two characters. A character that would
not show, or that would attach to its neighbour, is written by its code point,
and all other characters stand for themselves.
-/

namespace ExprLang.Text

/-- The written form of a character by its code point in lower-case hexadecimal digits. -/
def codePointEscape (c : Char) : List Char :=
  '\\' :: 'u' :: '\x7b' :: Nat.toDigits 16 c.toNat ++ ['\x7d']

/-- Whether a character shows, and apart from its neighbours. -/
def isLegible (c : Char) : Bool :=
  isPrintable c && !isExtendingMark c && !isIgnorable c

/-- The written form of one character between double quotes. -/
def escaped (c : Char) : List Char :=
  match c with
  | '"' => ['\\', '"']
  | '\\' => ['\\', '\\']
  | '\n' => ['\\', 'n']
  | '\t' => ['\\', 't']
  | '\r' => ['\\', 'r']
  | '\x00' => ['\\', '0']
  | c => if isLegible c then [c] else codePointEscape c

/-- The text between double quotes, each character in its written form. -/
def quoted (text : String) : String :=
  String.ofList ('"' :: text.toList.flatMap escaped ++ ['"'])

end ExprLang.Text
