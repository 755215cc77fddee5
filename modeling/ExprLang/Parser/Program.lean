import ExprLang.Parser.Expression

/-!
# Programs

A program is a sequence of items up to the end of the input. An item is a
function definition or an expression, and an expression becomes the body of
the function that running the program starts with.
-/

namespace ExprLang

namespace Parser

/-- An expression outside of all definitions. -/
def topLevelExpression : Parser (Option Node) := do
  match ← expression with
  | none => return none
  | some body => return some (.entryPoint body)

/-- The items read so far in reverse order, and how many tokens were passed over. -/
structure Progress where
  items : List Node
  skipped : Nat

def Progress.add (progress : Progress) (item : Node) : Progress :=
  { progress with items := item :: progress.items }

/-- One item after those already read. A token at which no item starts is passed over. -/
def itemsStep (again : Progress → Parser Progress) (progress : Progress) : Parser Progress := do
  let token ← current
  match token.kind with
  | .endOfInput => return progress
  | .funcWord =>
      let item ← definition
      note (.parsedItem item)
      again (progress.add item)
  | _ =>
      match ← topLevelExpression with
      | some item =>
          note (.parsedItem item)
          again (progress.add item)
      | none =>
          if ← hasTokens then
            let settings ← settings
            let token ← current
            note (.skipped token settings.file)
            let _ ← advance
            again { progress with skipped := progress.skipped + 1 }
          else return progress

/-- The items of a whole stream. -/
def program : Parser (List Node) := do
  let _ ← advance
  let progress ← recurse itemsStep ⟨[], 0⟩
  let settings ← settings
  note (.parsed settings.file progress.items.length progress.skipped)
  return progress.items.reverse

end Parser

/-- The items of a stream of tokens, and the events of parsing it. -/
def parse (settings : Settings) (tokens : List Token) : Traced (List Node) :=
  match Cursor.ofTokens settings.file tokens with
  | .error fault => ⟨.error fault, []⟩
  | .ok cursor =>
      let (result, final) := Parser.program.run settings cursor
      ⟨result, final.events⟩

end ExprLang
