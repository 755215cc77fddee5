import ExprLang.Number.Binary64

/-!
# Shortest decimal form

A finite number is printed with the fewest digits that read back as the same
number. Since `2 ^ -1074` is `5 ^ 1074 * 10 ^ -1074`, every magnitude is a whole
multiple of `10 ^ -1074`, and the candidates of each length are the two cuts of
that expansion around it.
-/

namespace ExprLang

namespace Magnitude

/-- The magnitude as a multiple of `10 ^ -1074`. -/
def expansion (magnitude : Magnitude) : Nat :=
  magnitude.units * Nat.pow 5 1074

/-- Whether the decimal is read as this magnitude. -/
def isReadFrom (magnitude : Magnitude) (decimal : Decimal) : Bool :=
  Magnitude.ofDecimal? decimal == some magnitude

/--
The two decimals around the magnitude that keep all but the last `dropped`
digits of its expansion, the nearer one first. The upper one counts as nearer
when both are equally far.
-/
def neighbours (magnitude : Magnitude) (dropped : Nat) : List Decimal :=
  let unit := Nat.pow 10 dropped
  let exponent : Int := dropped - 1074
  let lower : Decimal := ⟨magnitude.expansion / unit, exponent⟩
  let upper : Decimal := ⟨magnitude.expansion / unit + 1, exponent⟩
  if 2 * (magnitude.expansion % unit) < unit then [lower, upper] else [upper, lower]

/-- The nearest decimal of a given number of dropped digits that reads back. -/
def roundedAt? (magnitude : Magnitude) (dropped : Nat) : Option Decimal :=
  (magnitude.neighbours dropped).find? magnitude.isReadFrom

/-- A bound on the number of digits of the expansion, which is at most two too large. -/
def lengthBound (magnitude : Magnitude) : Nat :=
  magnitude.expansion.log2 * 30103 / 100000 + 2

/-- The first decimal that reads back when digits are added one by one. -/
def firstReadBack? (magnitude : Magnitude) : Option Decimal :=
  (List.range 19).findSome? fun kept => magnitude.roundedAt? (magnitude.lengthBound - kept)

/--
The decimal with the fewest digits that reads back. Seventeen digits always
suffice, and the full expansion stands behind them.
-/
def shortest (magnitude : Magnitude) : Decimal :=
  magnitude.firstReadBack?.getD ⟨magnitude.expansion, -1074⟩

theorem isReadFrom_of_roundedAt? {magnitude : Magnitude} {dropped : Nat} {decimal : Decimal}
    (found : magnitude.roundedAt? dropped = some decimal) :
    magnitude.isReadFrom decimal = true :=
  List.find?_some found

end Magnitude

namespace Binary64

/-- The shortest text that reads back, with a minus sign for negative numbers and zeros. -/
def text : Binary64 → String
  | .notANumber => "NaN"
  | .infinity negative => if negative then "-inf" else "inf"
  | .finite negative magnitude =>
      let digits := magnitude.shortest.text
      String.ofList (if negative then '-' :: digits else digits)

end Binary64

end ExprLang
