import ExprLang.Source.Position
import ExprLang.Tree.Operator

/-!
# Tokens

A token is a word, a literal or a mark of the source together with its span.
Every stream of tokens closes with a token for the end of the input.
-/

namespace ExprLang

inductive TokenKind where
  | endOfInput
  | integerLiteral
  | floatingLiteral
  | identifier
  | leftParen
  | rightParen
  | leftBrace
  | rightBrace
  | comma
  | colon
  | arrow
  | binaryOperator
  | funcWord
  | returnWord
  | ifWord
  | elseWord
  deriving DecidableEq, Repr

namespace TokenKind

/-- The name of a kind, as records and token listings show it. -/
def name : TokenKind → String
  | .endOfInput => "EOF"
  | .integerLiteral => "IntegerLiteral"
  | .floatingLiteral => "FloatingLiteral"
  | .identifier => "Identifier"
  | .leftParen => "LeftParen"
  | .rightParen => "RightParen"
  | .leftBrace => "LeftBrace"
  | .rightBrace => "RightBrace"
  | .comma => "Comma"
  | .colon => "Colon"
  | .arrow => "Arrow"
  | .binaryOperator => "SpacedBinaryOperator"
  | .funcWord => "Func"
  | .returnWord => "Return"
  | .ifWord => "If"
  | .elseWord => "Else"

def all : List TokenKind :=
  [.endOfInput, .integerLiteral, .floatingLiteral, .identifier, .leftParen, .rightParen,
    .leftBrace, .rightBrace, .comma, .colon, .arrow, .binaryOperator, .funcWord, .returnWord,
    .ifWord, .elseWord]

def ofName? (name : String) : Option TokenKind :=
  all.find? fun kind => kind.name == name

/-- The kind of a word that no identifier may take. -/
def ofReservedWord? (word : String) : Option TokenKind :=
  match word with
  | "func" => some .funcWord
  | "return" => some .returnWord
  | "if" => some .ifWord
  | "else" => some .elseWord
  | _ => none

/-- The kind of a word, which is an identifier unless it is reserved. -/
def ofWord (word : String) : TokenKind :=
  (ofReservedWord? word).getD .identifier

theorem mem_all (kind : TokenKind) : kind ∈ all := by
  cases kind <;> decide

theorem ofName?_name (kind : TokenKind) : ofName? kind.name = some kind := by
  cases kind <;> decide

end TokenKind

/-- A piece of a source with its kind, its text and its place. -/
structure Token where
  kind : TokenKind
  value : String
  span : Span
  deriving DecidableEq

namespace Token

def isNumber (token : Token) : Bool :=
  token.kind = .integerLiteral || token.kind = .floatingLiteral

/-- The operator that a token denotes, if its kind and its text denote one. -/
def operator? (token : Token) : Option Operator :=
  if token.kind = .binaryOperator then Operator.ofSymbol? token.value else none

/-- The precedence of the operator that a token denotes, and below all of them otherwise. -/
def precedence (token : Token) : Except Fault Int :=
  match token.operator? with
  | some operator => operator.precedence token.span.start
  | none => .ok (-1)

/-- The fault of a token that should not stand where it does. -/
def unexpected (token : Token) : Fault :=
  ⟨.unexpectedToken token.value, token.span.start⟩

/-- The fault of a token that stands in place of something named by the message. -/
def unexpectedWith (message : String) (token : Token) : Fault :=
  ⟨.unexpectedTokenDetailed token.value message, token.span.start⟩

/-- The listing of a token, one field on a line. -/
def text (token : Token) : String :=
  s!"Token \x7b\nkind: {token.kind.name},\nvalue: {token.value}\x7d"

/-- The token that closes a stream, past the last byte of the source. -/
def endOfInput (span : Span) : Token :=
  ⟨.endOfInput, "EOF", span⟩

end Token

end ExprLang
