import ExprLang.Source.Position
import ExprLang.Text.Quoted

/-!
# Faults

A fault ends the reading of a source. It says what went wrong and where, and
it carries the text of the token that is to blame.
-/

namespace ExprLang

/-- What can go wrong while a source is split into tokens and parsed. -/
inductive Cause where
  | unrecognisedToken (token : String)
  | unexpectedToken (token : String)
  | unexpectedTokenDetailed (token message : String)
  | unreadableNumber (token : String)
  | unexpectedEnd
  | missingEnd
  | nestedTooDeeply (limit : Nat)
  | notImplemented (construct : String)
  deriving DecidableEq, Repr

namespace Cause

open Text

/-- The headline of a cause. -/
def name : Cause → String
  | .unrecognisedToken _ => "UnrecognisedToken"
  | .unexpectedToken _ => "UnexpectedToken"
  | .unexpectedTokenDetailed _ _ => "UnexpectedTokenDetailed"
  | .unreadableNumber _ => "NumberParseError"
  | .unexpectedEnd => "UnexpectedEndOfInput"
  | .missingEnd => "MissingEofToken"
  | .nestedTooDeeply _ => "RecursionLimitExceeded"
  | .notImplemented _ => "NotImplementedError"

/-- The one-line description of a cause. -/
def message : Cause → String
  | .unrecognisedToken token => s!"unrecognised token: {quoted token}"
  | .unexpectedToken token => s!"unexpected token: {quoted token}"
  | .unexpectedTokenDetailed token message => s!"unexpected token ({message}): {quoted token}"
  | .unreadableNumber token => s!"error parsing number: {quoted token}"
  | .unexpectedEnd => "unexpected end of input"
  | .missingEnd => "token stream is not terminated by EOF"
  | .nestedTooDeeply limit => s!"expression nesting exceeds {limit} levels"
  | .notImplemented construct => s!"not implemented: {construct}"

/-- The hint beside the headline, where there is one to give. -/
def tip? : Cause → Option String
  | .unrecognisedToken _ => none
  | .unexpectedToken token => some s!"Unexpected token: `{token}`"
  | .unexpectedTokenDetailed token message => some s!"Unexpected token: `{token}`, {message}"
  | .unreadableNumber token =>
      some s!"Invalid number: `{token}`, numbers are read as 64-bit floats"
  | .unexpectedEnd => some "The token stream ended before the construct was complete"
  | .missingEnd => some "Token streams must end with a single EOF token"
  | .nestedTooDeeply limit => some s!"Expressions may nest at most {limit} levels deep"
  | .notImplemented construct =>
      some s!"`{construct}` is recognised, but has not yet been implemented"

end Cause

/-- A cause together with the position it is blamed on. -/
structure Fault where
  cause : Cause
  position : Position
  deriving DecidableEq

/-- The description of a fault, followed by its position. -/
def Fault.message (fault : Fault) : String :=
  s!"{fault.cause.message} ({fault.position.text})"

end ExprLang
