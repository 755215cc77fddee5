import ExprLang.Trace

/-!
# Cursors

A cursor stands on a token of a stream and knows the tokens after it. Before
the first token is read, the cursor stands on it and still counts it among the
tokens to come. The cursor also carries how deeply the parser is nested and
what it has done so far.
-/

namespace ExprLang

/-- What stays the same during a parse. -/
structure Settings where
  file : String
  maxDepth : Nat := 256
  deriving DecidableEq

/-- A place in a stream of tokens; the newest event is first in the trace. -/
structure Cursor where
  current : Token
  unread : List Token
  depth : Nat
  trace : List Event

namespace Cursor

/-- A cursor before the first token of a stream, which must close with the end of the input. -/
def ofTokens (file : String) (tokens : List Token) : Except Fault Cursor :=
  match tokens with
  | [] => .error ⟨.missingEnd, ⟨0, file⟩⟩
  | first :: rest =>
      let last := rest.getLastD first
      if last.kind = .endOfInput then .ok ⟨first, first :: rest, 0, []⟩
      else .error ⟨.missingEnd, last.span.stop⟩

/-- The events so far, in order. -/
def events (cursor : Cursor) : List Event :=
  cursor.trace.reverse

def note (cursor : Cursor) (event : Event) : Cursor :=
  { cursor with trace := event :: cursor.trace }

/-- The cursor after reading the next token. -/
def step (cursor : Cursor) (token : Token) (rest : List Token) : Cursor :=
  { cursor with current := token, unread := rest, trace := .read token :: cursor.trace }

/-- The fault of reading on after the last token. -/
def pastEnd (cursor : Cursor) : Fault :=
  ⟨.unexpectedEnd, cursor.current.span.stop⟩

/-- Whether the cursor stands on a token other than the end of the input. -/
def hasTokens (cursor : Cursor) : Bool :=
  cursor.current.kind != .endOfInput

/--
The token that is read after `offset` others. Its place in the stream is `offset` places
past those already read; it is counted by a machine word, and an offset that leads out of
the range of words is not meant here.
-/
def peek (cursor : Cursor) (offset : Nat) : Except Fault Token :=
  match cursor.unread[offset]? with
  | some token => .ok token
  | none => .error cursor.pastEnd

end Cursor

end ExprLang
