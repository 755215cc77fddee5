import ExprLang.Fault

/-!
# Binary operators

The sums bind less tightly than the products. The comparison is read as an
operator, but it has no place in the order of precedence yet.
-/

namespace ExprLang

inductive Operator where
  | addition
  | subtraction
  | multiplication
  | division
  | lessThan
  deriving DecidableEq, Repr

namespace Operator

def symbol : Operator → String
  | .addition => "+"
  | .subtraction => "-"
  | .multiplication => "*"
  | .division => "/"
  | .lessThan => "<"

def ofSymbol? (symbol : String) : Option Operator :=
  match symbol with
  | "+" => some .addition
  | "-" => some .subtraction
  | "*" => some .multiplication
  | "/" => some .division
  | "<" => some .lessThan
  | _ => none

/-- How tightly an operator binds; the larger number binds tighter. -/
def precedence? : Operator → Option Int
  | .addition => some 20
  | .subtraction => some 20
  | .multiplication => some 40
  | .division => some 40
  | .lessThan => none

/-- The precedence of an operator that stands at a position. -/
def precedence (operator : Operator) (position : Position) : Except Fault Int :=
  match operator.precedence? with
  | some precedence => .ok precedence
  | none => .error ⟨.notImplemented s!"binary operator `{operator.symbol}`", position⟩

theorem ofSymbol?_symbol (operator : Operator) : ofSymbol? operator.symbol = some operator := by
  cases operator <;> rfl

end Operator

end ExprLang
