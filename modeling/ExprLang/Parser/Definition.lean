import ExprLang.Parser.Basic

/-!
# Function definitions

A definition is `func`, a name, parameters in parentheses, `->` with a return
type, and one expression in braces. How the expression of the body is read is
left open here.
-/

namespace ExprLang.Parser.Rule

/-- The name of a return type; a name that is unknown is noted and stands for `Void`. -/
def returnType : Parser ReturnType := do
  let token ← expectOr .identifier (Token.unexpectedWith "expected a return type name")
  let type := ReturnType.ofName token.value
  if type = .void && token.value != "Void" then
    note (.unknownReturnType token)
    return type
  else return type

/-- A parameter `label: Type`, and the comma after it if there is one. -/
def parameter : Parser Parameter := do
  let label ← expectOr .identifier (Token.unexpectedWith "expected an argument name")
  let _ ← expectOr .colon (Token.unexpectedWith "expected `:` after the argument name")
  let type ← expectOr .identifier (Token.unexpectedWith "expected an argument type")
  skipComma
  return ⟨label.value, label.value, type.value⟩

/-- The parameters from here to a closing parenthesis, after those already read. -/
def parametersStep (again : List Parameter → Parser (List Parameter))
    (done : List Parameter) : Parser (List Parameter) := do
  let token ← current
  if token.kind = .rightParen then return done.reverse
  else
    let next ← parameter
    again (next :: done)

def parameters : Parser (List Parameter) :=
  recurse parametersStep []

/-- The body of a definition, which holds exactly one expression. -/
def body (expression : Parser (Option Node)) : Parser Node := do
  let _ ← expect .leftBrace
  match ← expression with
  | none => unexpected "expected a function body"
  | some value =>
      let _ ← expectOr .rightBrace
        (Token.unexpectedWith "function bodies hold a single expression")
      return value

/-- A definition `func name(parameters) -> Type { expression }`. -/
def definition (expression : Parser (Option Node)) : Parser Node := do
  let _ ← expect .funcWord
  let name ← expectOr .identifier (Token.unexpectedWith "expected a function name")
  let _ ← expect .leftParen
  let parameters ← parameters
  let _ ← expect .rightParen
  let _ ← expectOr .arrow (Token.unexpectedWith "expected `->` and a return type")
  let type ← returnType
  let value ← body expression
  note (.definedFunction name.value parameters.length)
  return .function name.value parameters type value

end ExprLang.Parser.Rule
