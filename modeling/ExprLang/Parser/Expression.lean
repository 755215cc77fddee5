import ExprLang.Parser.Definition

/-!
# Expressions

An expression is a chain of operands joined by operators. Operands are read by
a rule for each of their forms, and the chain is grouped by climbing from
looser to tighter operators. An expression that cannot start at the end of the
input is no fault here; it is reported as missing.

The rules take the parser for nested expressions as an argument, and the
recursion is closed at the end.
-/

namespace ExprLang.Parser

namespace Rule

/-! ## Operands -/

def number : Parser Node := do
  let token ← current
  if token.isNumber then
    match Binary64.read? token.value with
    | none => fail ⟨.unreadableNumber token.value, token.span.start⟩
    | some value =>
        let _ ← advance
        return .number value
  else unexpected "expected a number literal"

/-- A labelled argument `label: value`. -/
def argument (expression : Parser (Option Node)) : Parser (String × Node) := do
  let label ← expectOr .identifier (Token.unexpectedWith "expected an argument label")
  let _ ← expect .colon
  match ← expression with
  | none => unexpected "expected an argument value"
  | some value => return (label.value, value)

/-- The arguments from here to a closing parenthesis, after those already read. -/
def argumentsStep (expression : Parser (Option Node))
    (again : List (String × Node) → Parser (List (String × Node)))
    (done : List (String × Node)) : Parser (List (String × Node)) := do
  let token ← current
  if token.kind = .rightParen then return done.reverse
  else
    skipComma
    let next ← argument expression
    again (next :: done)

def arguments (expression : Parser (Option Node)) : Parser (List (String × Node)) :=
  recurse (argumentsStep expression) []

/-- A name, which is called when a parenthesis follows it. -/
def identifier (expression : Parser (Option Node)) : Parser Node := do
  let token ← current
  if token.kind = .identifier then
    let next ← peek 0
    let name ← expect .identifier
    if next.kind = .leftParen then
      let _ ← expect .leftParen
      let arguments ← arguments expression
      let _ ← expect .rightParen
      return .call name.value arguments
    else return .variable name.value
  else unexpected "expected an identifier"

/-- An expression in parentheses, which leave no trace in the node. -/
def parenthesised (expression : Parser (Option Node)) : Parser (Option Node) := do
  let _ ← expect .leftParen
  match ← expression with
  | none => return none
  | some value =>
      let _ ← expectOr .rightParen (Token.unexpectedWith "expected `)`")
      return some value

/-- The kinds of tokens that an expression can start with. -/
def startsExpression : TokenKind → Bool
  | .identifier => true
  | .integerLiteral => true
  | .floatingLiteral => true
  | .leftParen => true
  | .funcWord => true
  | .returnWord => true
  | .ifWord => true
  | _ => false

/-- A `return`, with a value when one can start at the next token. -/
def returned (expression : Parser (Option Node)) : Parser Node := do
  let _ ← expect .returnWord
  let token ← current
  if startsExpression token.kind then
    match ← expression with
    | none => return .bareReturn
    | some value => return .returning value
  else return .bareReturn

/-- Conditionals are recognised by their first word only. -/
def conditional : Parser Node := do
  let token ← current
  fail ⟨.notImplemented "if/else", token.span.start⟩

/-- One operand, whose form is told by the current token. -/
def primary (expression : Parser (Option Node)) : Parser (Option Node) := do
  let token ← current
  match token.kind with
  | .identifier => return some (← identifier expression)
  | .integerLiteral => return some (← number)
  | .floatingLiteral => return some (← number)
  | .leftParen => parenthesised expression
  | .funcWord => return some (← definition expression)
  | .returnWord => return some (← returned expression)
  | .ifWord => return some (← conditional)
  | .endOfInput => return none
  | _ => fail token.unexpected

/-! ## Operators -/

/--
One round of climbing. An operator that binds at least as tightly as `least`
takes the next operand on its right, unless a tighter operator follows, which
takes that operand first. Operators of one precedence group to the left.
-/
def climbStep (operand : Parser (Option Node)) (again : Int × Node → Parser (Option Node)) :
    Int × Node → Parser (Option Node)
  | (least, lhs) => do
      let token ← current
      let precedence ← ofExcept token.precedence
      if precedence < least then return some lhs
      else
        match token.operator? with
        | none => return some lhs
        | some operator =>
            let _ ← advance
            match ← operand with
            | none => return none
            | some rhs =>
                let follower ← current
                let tighter ← ofExcept follower.precedence
                if precedence < tighter then
                  note (.yielded operator precedence tighter)
                  match ← again (precedence + 1, rhs) with
                  | none => return none
                  | some rhs => again (least, .binary operator lhs rhs)
                else again (least, .binary operator lhs rhs)

/-- The chain of operators after an operand, as far as they bind at least as tightly as `least`. -/
def climb (operand : Parser (Option Node)) (least : Int) (lhs : Node) : Parser (Option Node) :=
  recurse (climbStep operand) (least, lhs)

/-- One level of expressions, of which the nested ones are read by the given parser. -/
def expressionStep (again : Unit → Parser (Option Node)) (_ : Unit) : Parser (Option Node) :=
  nested do
    match ← primary (again ()) with
    | none => return none
    | some lhs => climb (primary (again ())) 0 lhs

end Rule

/-! ## Closed rules -/

/-- An expression, which is missing at the end of the input. -/
def expression : Parser (Option Node) :=
  recurse Rule.expressionStep ()

def primary : Parser (Option Node) :=
  Rule.primary expression

def climb (least : Int) (lhs : Node) : Parser (Option Node) :=
  Rule.climb primary least lhs

def number : Parser Node :=
  Rule.number

def identifier : Parser Node :=
  Rule.identifier expression

def parenthesised : Parser (Option Node) :=
  Rule.parenthesised expression

def returned : Parser Node :=
  Rule.returned expression

def conditional : Parser Node :=
  Rule.conditional

def definition : Parser Node :=
  Rule.definition expression

def parameter : Parser Parameter :=
  Rule.parameter

def returnType : Parser ReturnType :=
  Rule.returnType

end ExprLang.Parser
