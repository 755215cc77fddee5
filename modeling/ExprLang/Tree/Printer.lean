import ExprLang.Number.Shortest
import ExprLang.Tree.Node

/-!
# Printed nodes

A node is printed in parentheses with its operator or its keyword in front, so
the printed text shows how operands were grouped.
-/

namespace ExprLang

/-- A parameter as it stands in the header of a printed function. -/
def Parameter.text (parameter : Parameter) : String :=
  s!"{parameter.label}: {parameter.typeName}"

namespace Node

mutual

/-- The printed form of a node. -/
def text : Node → String
  | .number value => value.text
  | .variable name => name
  | .call callee arguments => "(call " ++ callee ++ argumentsText arguments ++ ")"
  | .binary operator lhs rhs =>
      "(" ++ operator.symbol ++ " " ++ text lhs ++ " " ++ text rhs ++ ")"
  | .function name parameters returnType body =>
      "(func " ++ name ++ " (" ++ " ".intercalate (parameters.map Parameter.text) ++ ") -> " ++
        returnType.name ++ " " ++ text body ++ ")"
  | .bareReturn => "(return)"
  | .returning value => "(return " ++ text value ++ ")"

/-- The labelled arguments of a call, each after a blank. -/
def argumentsText : List (String × Node) → String
  | [] => ""
  | (label, value) :: rest => " " ++ label ++ ": " ++ text value ++ argumentsText rest

end

end Node

end ExprLang
