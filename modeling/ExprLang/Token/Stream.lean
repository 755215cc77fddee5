import ExprLang.Token.Reader
import ExprLang.Trace

/-!
# Token streams

A source becomes a stream of tokens when all of it can be cut into lexemes. The
stream then closes with a token for the end of the input, and otherwise the
first character that starts no lexeme is to blame.
-/

namespace ExprLang

/-- The token that closes the stream of a reader at the end of its source. -/
def Reader.close (reader : Reader) : Reader :=
  reader.push (.endOfInput (reader.spanOf 0))

/-- The tokens of a source, and the events of splitting it. -/
def tokenize (source : String) (file? : Option String) : Traced (List Token) :=
  let cut := Cut.ofText source.toList
  let reader := cut.lexemes.foldl Reader.accept (.ofSource source file?)
  match cut.leftover with
  | [] =>
      let tokens := reader.close.tokens
      ⟨.ok tokens, tokens.map .scanned ++ [.tokenized reader.file tokens.length]⟩
  | c :: _ =>
      ⟨.error ⟨.unrecognisedToken (String.singleton c), reader.position⟩,
        reader.tokens.map .scanned⟩

end ExprLang
