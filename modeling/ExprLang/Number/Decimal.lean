/-!
# Decimal numbers

A decimal is a natural coefficient times a power of ten. It is written in
positional form only: zeros fill the places that the coefficient leaves open,
and the fraction ends with a digit other than zero or is left out.
-/

namespace ExprLang

/-- The number `coefficient * 10 ^ exponent`. -/
structure Decimal where
  coefficient : Nat
  exponent : Int
  deriving DecidableEq, Repr

namespace Decimal

def digitValue (c : Char) : Nat :=
  c.toNat - '0'.toNat

/-- The number that a list of digits denotes in base ten. -/
def ofDigits (digits : List Char) : Nat :=
  digits.foldl (fun value digit => 10 * value + digitValue digit) 0

/-- The digits of a number in base ten, without leading zeros. -/
def digitsOf (value : Nat) : List Char :=
  Nat.toDigits 10 value

def dropTrailingZeros (digits : List Char) : List Char :=
  (digits.reverse.dropWhile (· == '0')).reverse

/-- The digits with a point before the last `places` of them. -/
def withPoint (digits : List Char) (places : Nat) : List Char :=
  let padded := List.replicate (places + 1 - digits.length) '0' ++ digits
  let whole := padded.take (padded.length - places)
  match dropTrailingZeros (padded.drop (padded.length - places)) with
  | [] => whole
  | fraction => whole ++ '.' :: fraction

/-- The positional form of a decimal. -/
def text (decimal : Decimal) : List Char :=
  let digits := digitsOf decimal.coefficient
  if 0 ≤ decimal.exponent then digits ++ List.replicate decimal.exponent.toNat '0'
  else withPoint digits (-decimal.exponent).toNat

end Decimal

end ExprLang
