import ExprLang.Text.ByteLength
import ExprLang.Token.Lexeme

/-!
# Readers

A reader stands at a byte of a source and collects the tokens found so far. It
gives every lexeme it accepts the span from its place on, and moves past it.
-/

namespace ExprLang

open Text

/-- A place in a source, and the tokens before it in reverse order. -/
structure Reader where
  source : String
  file : String
  offset : Nat
  scanned : List Token

namespace Reader

/-- The file name for a source that was given none. -/
def defaultFile : String :=
  "shell"

def ofSource (source : String) (file? : Option String) : Reader :=
  ⟨source, file?.getD defaultFile, 0, []⟩

/-- The tokens found so far, in order. -/
def tokens (reader : Reader) : List Token :=
  reader.scanned.reverse

def skip (reader : Reader) (bytes : Nat) : Reader :=
  { reader with offset := reader.offset + bytes }

def push (reader : Reader) (token : Token) : Reader :=
  { reader with scanned := token :: reader.scanned }

/-- The text from the place of the reader on, when it stands between two characters. -/
def rest? (reader : Reader) : Option (List Char) :=
  dropBytes? reader.offset reader.source.toList

def isAtEnd (reader : Reader) : Bool :=
  reader.source.utf8ByteSize ≤ reader.offset

def position (reader : Reader) : Position :=
  .ofByte reader.file reader.offset

/-- The span of the next bytes of the source. -/
def spanOf (reader : Reader) (bytes : Nat) : Span :=
  .ofBytes reader.file reader.offset bytes

/-- A lexeme with a kind becomes a token, and the reader moves past any lexeme. -/
def accept (reader : Reader) (lexeme : Lexeme) : Reader :=
  let bytes := lexeme.text.utf8ByteSize
  match lexeme.kind? with
  | none => reader.skip bytes
  | some kind => (reader.push ⟨kind, lexeme.text, reader.spanOf bytes⟩).skip bytes

theorem tokens_push (reader : Reader) (token : Token) :
    (reader.push token).tokens = reader.tokens ++ [token] := by
  simp [tokens, push]

theorem offset_accept (reader : Reader) (lexeme : Lexeme) :
    (reader.accept lexeme).offset = reader.offset + lexeme.text.utf8ByteSize := by
  unfold accept
  cases lexeme.kind? <;> rfl

end Reader

end ExprLang
