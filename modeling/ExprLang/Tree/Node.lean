import ExprLang.Number.Binary64
import ExprLang.Tree.Operator

/-!
# Nodes

A node is a whole expression: a literal, a name, a call with labelled
arguments, an operation on two operands, a function definition, or a return.
Two nodes are equal when they have the same shape and their numbers are equal
as numbers.
-/

namespace ExprLang

/-- What a function definition says that it returns. -/
inductive ReturnType where
  | int
  | double
  | void
  deriving DecidableEq, Repr

namespace ReturnType

def name : ReturnType → String
  | .int => "Int"
  | .double => "Double"
  | .void => "Void"

/-- The return type that a name stands for; an unknown name stands for `void`. -/
def ofName (name : String) : ReturnType :=
  match name with
  | "Int" => .int
  | "Double" => .double
  | _ => .void

theorem ofName_name (type : ReturnType) : ofName type.name = type := by
  cases type <;> rfl

end ReturnType

/-- A parameter of a function: the label that callers write, the name in the body, and the type. -/
structure Parameter where
  label : String
  variableName : String
  typeName : String
  deriving DecidableEq, Repr

inductive Node where
  | number (value : Binary64)
  | variable (name : String)
  | call (callee : String) (arguments : List (String × Node))
  | binary (operator : Operator) (lhs rhs : Node)
  | function (name : String) (parameters : List Parameter) (returnType : ReturnType) (body : Node)
  | bareReturn
  | returning (value : Node)

namespace Node

/-- The word for the form of a node. -/
def formName : Node → String
  | .number _ => "Number"
  | .variable _ => "Variable"
  | .call _ _ => "Call"
  | .binary _ _ _ => "Binary"
  | .function _ _ _ _ => "Function"
  | .bareReturn => "Return"
  | .returning _ => "Return"

/-- The name of the function that a node defines. -/
def functionName? : Node → Option String
  | .function name _ _ _ => some name
  | _ => none

/-- The function that an expression outside of all definitions becomes the body of. -/
def entryPoint (body : Node) : Node :=
  .function "main" [] .int body

mutual

/-- Equality of nodes, in which numbers are compared as numbers. -/
def equal : Node → Node → Bool
  | .number first, .number second => first.equal second
  | .variable first, .variable second => first == second
  | .call first arguments, .call second others =>
      first == second && argumentsEqual arguments others
  | .binary first firstLhs firstRhs, .binary second secondLhs secondRhs =>
      first == second && equal firstLhs secondLhs && equal firstRhs secondRhs
  | .function first parameters firstType firstBody,
      .function second others secondType secondBody =>
      first == second && parameters == others && firstType == secondType &&
        equal firstBody secondBody
  | .bareReturn, .bareReturn => true
  | .returning first, .returning second => equal first second
  | _, _ => false

/-- Equality of lists of labelled arguments. -/
def argumentsEqual : List (String × Node) → List (String × Node) → Bool
  | [], [] => true
  | (firstLabel, first) :: rest, (secondLabel, second) :: others =>
      firstLabel == secondLabel && equal first second && argumentsEqual rest others
  | _, _ => false

end

end Node

end ExprLang
