import ExprLang.Number.Numeral

/-!
# Double-precision numbers

A finite number of the 64-bit binary format is a whole multiple of `2 ^ -1074`
with at most 53 significant binary digits, so its magnitude is kept as that
multiple. Reading a numeral rounds it to the nearest such number, and of two
equally near ones to the one with the even last digit.
-/

namespace ExprLang

/-- The distance between neighbouring magnitudes near `units`, itself in units. -/
def unitSpacing (units : Nat) : Nat :=
  Nat.pow 2 (units.log2 - 52)

/-- The magnitudes of the format are the spaced ones below `2 ^ 1024`. -/
def IsMagnitude (units : Nat) : Prop :=
  units < Nat.pow 2 2098 ∧ units % unitSpacing units = 0

instance (units : Nat) : Decidable (IsMagnitude units) :=
  inferInstanceAs (Decidable (_ ∧ _))

theorem isMagnitude_zero : IsMagnitude 0 := by
  decide +kernel

/-- The size of a finite number as a multiple of `2 ^ -1074`. -/
structure Magnitude where
  units : Nat
  isMagnitude : IsMagnitude units
  deriving DecidableEq

/-- A number of the 64-bit binary format, with a single value that is no number. -/
inductive Binary64 where
  | notANumber
  | infinity (negative : Bool)
  | finite (negative : Bool) (magnitude : Magnitude)
  deriving DecidableEq

/-- The quotient rounded to the nearest whole number, and from a half to the even one. -/
def roundHalfEven (numerator denominator : Nat) : Nat :=
  let quotient := numerator / denominator
  let twice := 2 * (numerator % denominator)
  if twice < denominator then quotient
  else if denominator < twice then quotient + 1
  else quotient + quotient % 2

namespace Magnitude

def zero : Magnitude :=
  ⟨0, isMagnitude_zero⟩

/-- The multiple of `2 ^ -1074` nearest to a quotient among those with 53 binary digits. -/
def nearestUnits (numerator denominator : Nat) : Nat :=
  let scaled := numerator * Nat.pow 2 1074
  let spacing := unitSpacing (scaled / denominator)
  roundHalfEven scaled (denominator * spacing) * spacing

/-- The magnitude nearest to a quotient, unless it lies past the largest one. -/
def nearest? (numerator denominator : Nat) : Option Magnitude :=
  let units := nearestUnits numerator denominator
  if fits : IsMagnitude units then some ⟨units, fits⟩ else none

/--
The magnitude nearest to a decimal. The decimals from `10 ^ 310` on are past
the largest magnitude and those below `10 ^ -330` round to zero, so neither
kind is scaled.
-/
def ofDecimal? (decimal : Decimal) : Option Magnitude :=
  if decimal.coefficient = 0 then some zero
  else
    let places : Int := (Decimal.digitsOf decimal.coefficient).length + decimal.exponent
    if 310 < places then none
    else if places < -330 then some zero
    else
      nearest? (decimal.coefficient * Nat.pow 10 decimal.exponent.toNat)
        (Nat.pow 10 (-decimal.exponent).toNat)

end Magnitude

namespace Binary64

def ofNumeral : Numeral → Binary64
  | .notANumber => .notANumber
  | .infinity negative => .infinity negative
  | .decimal negative decimal =>
      match Magnitude.ofDecimal? decimal with
      | none => .infinity negative
      | some magnitude => .finite negative magnitude

/-- The number that a text denotes, rounded to the format. -/
def read? (text : String) : Option Binary64 :=
  (Numeral.parse? text.toList).map ofNumeral

/-- Numerical equality: the two zeros are equal, and what is no number equals nothing. -/
def equal : Binary64 → Binary64 → Bool
  | .infinity first, .infinity second => first == second
  | .finite firstNegative first, .finite secondNegative second =>
      first.units == second.units && (firstNegative == secondNegative || first.units == 0)
  | _, _ => false

end Binary64

end ExprLang
