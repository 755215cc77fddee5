import ExprLang.Number.Decimal

/-!
# Written numbers

A numeral is an optional sign followed by a decimal or by a word for a value
that no decimal has. A decimal has at least one digit before or after its
point, and it may be scaled by a power of ten. Letters may have either case.
-/

namespace ExprLang

/-- What a written number stands for, before it is rounded to any format. -/
inductive Numeral where
  | notANumber
  | infinity (negative : Bool)
  | decimal (negative : Bool) (magnitude : Decimal)
  deriving DecidableEq, Repr

namespace Numeral

/-- Whether the text starts with a minus sign, and the text after its sign. -/
def splitSign : List Char → Bool × List Char
  | '-' :: rest => (true, rest)
  | '+' :: rest => (false, rest)
  | rest => (false, rest)

/-- The power of ten after the digits, which is zero when nothing is written. -/
def exponent? : List Char → Option Int
  | [] => some 0
  | mark :: rest =>
      let (negative, digits) := splitSign rest
      if (mark == 'e' || mark == 'E') && !digits.isEmpty && digits.all Char.isDigit then
        let size : Int := Decimal.ofDigits digits
        some (if negative then -size else size)
      else none

/-- The digits after a point, when there is one, and the text after them. -/
def splitFraction : List Char → List Char × List Char
  | '.' :: rest => (rest.takeWhile Char.isDigit, rest.dropWhile Char.isDigit)
  | rest => ([], rest)

def unsigned? (text : List Char) : Option Decimal :=
  let whole := text.takeWhile Char.isDigit
  let (fraction, rest) := splitFraction (text.dropWhile Char.isDigit)
  if whole.isEmpty && fraction.isEmpty then none
  else
    match exponent? rest with
    | none => none
    | some exponent => some ⟨Decimal.ofDigits (whole ++ fraction), exponent - fraction.length⟩

/-- The number that the whole text denotes. -/
def parse? (text : List Char) : Option Numeral :=
  let (negative, body) := splitSign text
  let word := String.ofList (body.map Char.toLower)
  if word = "nan" then some .notANumber
  else if word = "inf" || word = "infinity" then some (.infinity negative)
  else
    match unsigned? body with
    | none => none
    | some magnitude => some (.decimal negative magnitude)

end Numeral

end ExprLang
