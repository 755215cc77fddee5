import ExprLang.Token.Basic
import ExprLang.Tree.Printer

/-!
# Traces

Splitting and parsing a source leaves a record of each step worth following.
A record is kept as an event, and its wording is produced on demand.
-/

namespace ExprLang

/-- How much an event matters. -/
inductive Level where
  | trace
  | debug
  | info
  | warn
  deriving DecidableEq, Repr

def Level.name : Level → String
  | .trace => "TRACE"
  | .debug => "DEBUG"
  | .info => "INFO"
  | .warn => "WARN"

/-- A step of splitting or parsing a source. -/
inductive Event where
  | scanned (token : Token)
  | tokenized (file : String) (count : Nat)
  | read (token : Token)
  | yielded (operator : Operator) (precedence tighter : Int)
  | unknownReturnType (token : Token)
  | definedFunction (name : String) (parameterCount : Nat)
  | parsedItem (node : Node)
  | skipped (token : Token) (file : String)
  | parsed (file : String) (itemCount skippedCount : Nat)

namespace Event

open Text

def level : Event → Level
  | .scanned _ => .debug
  | .tokenized _ _ => .info
  | .read _ => .debug
  | .yielded _ _ _ => .trace
  | .unknownReturnType _ => .debug
  | .definedFunction _ _ => .debug
  | .parsedItem _ => .debug
  | .skipped _ _ => .warn
  | .parsed _ _ _ => .info

/-- The wording of an event. -/
def text : Event → String
  | .scanned token => s!"Scanned token {token.kind.name} ({quoted token.value})"
  | .tokenized file count => s!"Tokenized {file} into {count} tokens"
  | .read token => s!"Read token {token.kind.name} ({quoted token.value})"
  | .yielded operator precedence tighter =>
      s!"`{operator.symbol}` ({precedence}) yields its right operand to a tighter operator " ++
        s!"({tighter})"
  | .unknownReturnType token =>
      s!"Unknown return type `{token.value}` at {token.span.start.text} treated as Void"
  | .definedFunction name parameterCount =>
      s!"Parsed function `{name}` with {parameterCount} arguments"
  | .parsedItem node => s!"Parsed top-level node {node.text}"
  | .skipped token file =>
      s!"Skipping unparseable token {quoted token.value} at {file}:" ++
        toString token.span.start.offset.toNat
  | .parsed file itemCount skippedCount =>
      s!"Parsed {file} into {itemCount} top-level nodes ({skippedCount} tokens skipped)"

end Event

/-- The outcome of a computation and the events of its run, in order. -/
structure Traced (α : Type) where
  outcome : Except Fault α
  events : List Event

end ExprLang
