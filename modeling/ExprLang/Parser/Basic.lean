import ExprLang.Parser.Cursor

/-!
# Parsers

A parser moves a cursor and gives a result or a fault. The cursor outlives a
fault, so that what was read and noted before it is not lost. The steps below
are all that the rules of the language are built from, and each of them comes
with the equation for its run.
-/

namespace ExprLang

/-- A computation on a cursor that ends with a result or with a fault. -/
structure Parser (α : Type) where
  run : Settings → Cursor → Except Fault α × Cursor

namespace Parser

variable {α β : Type}

instance : Monad Parser where
  pure value := ⟨fun _ cursor => (.ok value, cursor)⟩
  bind parser next := ⟨fun settings cursor =>
    match parser.run settings cursor with
    | (.ok value, later) => (next value).run settings later
    | (.error fault, later) => (.error fault, later)⟩

@[simp]
theorem run_pure (value : α) (settings : Settings) (cursor : Cursor) :
    (pure value : Parser α).run settings cursor = (.ok value, cursor) :=
  rfl

theorem run_bind (parser : Parser α) (next : α → Parser β) (settings : Settings)
    (cursor : Cursor) :
    (parser >>= next).run settings cursor =
      match parser.run settings cursor with
      | (.ok value, later) => (next value).run settings later
      | (.error fault, later) => (.error fault, later) :=
  rfl

theorem run_bind_of_ok {parser : Parser α} {next : α → Parser β} {settings : Settings}
    {cursor later : Cursor} {value : α} (ran : parser.run settings cursor = (.ok value, later)) :
    (parser >>= next).run settings cursor = (next value).run settings later := by
  rw [run_bind, ran]

theorem run_bind_of_error {parser : Parser α} {next : α → Parser β} {settings : Settings}
    {cursor later : Cursor} {fault : Fault}
    (ran : parser.run settings cursor = (.error fault, later)) :
    (parser >>= next).run settings cursor = (.error fault, later) := by
  rw [run_bind, ran]

@[ext]
theorem ext {first second : Parser α}
    (same : ∀ settings cursor, first.run settings cursor = second.run settings cursor) :
    first = second := by
  cases first
  cases second
  congr
  funext settings cursor
  exact same settings cursor

instance : LawfulMonad Parser :=
  LawfulMonad.mk' Parser
    (fun parser => ext fun settings cursor => by
      change (parser >>= pure).run settings cursor = _
      rw [run_bind]
      split <;> simp_all)
    (fun _ _ => rfl)
    (fun parser _ _ => ext fun settings cursor => by
      simp only [run_bind]
      cases parser.run settings cursor with
      | mk result later => cases result <;> rfl)

/-! ## Results and settings -/

def fail (fault : Fault) : Parser α :=
  ⟨fun _ cursor => (.error fault, cursor)⟩

def ofExcept (result : Except Fault α) : Parser α :=
  ⟨fun _ cursor => (result, cursor)⟩

def settings : Parser Settings :=
  ⟨fun settings cursor => (.ok settings, cursor)⟩

def note (event : Event) : Parser Unit :=
  ⟨fun _ cursor => (.ok (), cursor.note event)⟩

@[simp]
theorem run_fail (fault : Fault) (settings : Settings) (cursor : Cursor) :
    (fail fault : Parser α).run settings cursor = (.error fault, cursor) :=
  rfl

@[simp]
theorem run_ofExcept (result : Except Fault α) (settings : Settings) (cursor : Cursor) :
    (ofExcept result).run settings cursor = (result, cursor) :=
  rfl

@[simp]
theorem run_settings (given : Settings) (cursor : Cursor) :
    settings.run given cursor = (.ok given, cursor) :=
  rfl

@[simp]
theorem run_note (event : Event) (settings : Settings) (cursor : Cursor) :
    (note event).run settings cursor = (.ok (), cursor.note event) :=
  rfl

/-! ## Tokens -/

def current : Parser Token :=
  ⟨fun _ cursor => (.ok cursor.current, cursor)⟩

def hasTokens : Parser Bool :=
  ⟨fun _ cursor => (.ok cursor.hasTokens, cursor)⟩

def peek (offset : Nat) : Parser Token :=
  ⟨fun _ cursor => (cursor.peek offset, cursor)⟩

/-- Reads the next token, which becomes the current one. -/
def advance : Parser Token :=
  ⟨fun _ cursor =>
    match cursor.unread with
    | [] => (.error cursor.pastEnd, cursor)
    | token :: rest => (.ok token, cursor.step token rest)⟩

/-- Reads past the current token if it has the expected kind, and blames it otherwise. -/
def expectOr (kind : TokenKind) (blame : Token → Fault) : Parser Token := do
  let token ← current
  if token.kind = kind then
    let _ ← advance
    return token
  else fail (blame token)

def expect (kind : TokenKind) : Parser Token :=
  expectOr kind Token.unexpected

/-- Blames the current token with a message. -/
def unexpected (message : String) : Parser α := do
  let token ← current
  fail (token.unexpectedWith message)

/-- Reads past the current token if it is a comma. -/
def skipComma : Parser Unit := do
  let token ← current
  if token.kind = .comma then
    let _ ← advance
    return ()
  else return ()

@[simp]
theorem run_current (settings : Settings) (cursor : Cursor) :
    current.run settings cursor = (.ok cursor.current, cursor) :=
  rfl

@[simp]
theorem run_hasTokens (settings : Settings) (cursor : Cursor) :
    hasTokens.run settings cursor = (.ok cursor.hasTokens, cursor) :=
  rfl

@[simp]
theorem run_peek (offset : Nat) (settings : Settings) (cursor : Cursor) :
    (peek offset).run settings cursor = (cursor.peek offset, cursor) :=
  rfl

theorem run_advance_of_nil {settings : Settings} {cursor : Cursor} (ended : cursor.unread = []) :
    advance.run settings cursor = (.error cursor.pastEnd, cursor) := by
  simp only [advance, ended]

theorem run_advance_of_cons {settings : Settings} {cursor : Cursor} {token : Token}
    {rest : List Token} (more : cursor.unread = token :: rest) :
    advance.run settings cursor = (.ok token, cursor.step token rest) := by
  simp only [advance, more]

/-! ## Nesting -/

/-- Goes one level deeper, unless the limit is reached. -/
def enter : Parser Unit :=
  ⟨fun settings cursor =>
    if settings.maxDepth ≤ cursor.depth then
      (.error ⟨.nestedTooDeeply settings.maxDepth, cursor.current.span.start⟩, cursor)
    else (.ok (), { cursor with depth := cursor.depth + 1 })⟩

/-- Goes one level up; the outermost level is never left. -/
def leave : Parser Unit :=
  ⟨fun _ cursor => (.ok (), { cursor with depth := cursor.depth - 1 })⟩

/-- Runs the second parser after the first one, also when the first one fails. -/
def andAlways (parser : Parser α) (closing : Parser Unit) : Parser α :=
  ⟨fun settings cursor =>
    match parser.run settings cursor with
    | (result, later) => (result, (closing.run settings later).2)⟩

/-- Runs a parser one level deeper and comes back up whatever its result is. -/
def nested (parser : Parser α) : Parser α := do
  enter
  andAlways parser leave

theorem run_nested (parser : Parser α) (settings : Settings) (cursor : Cursor) :
    (nested parser).run settings cursor =
      if settings.maxDepth ≤ cursor.depth then
        (.error ⟨.nestedTooDeeply settings.maxDepth, cursor.current.span.start⟩, cursor)
      else
        let inner := parser.run settings { cursor with depth := cursor.depth + 1 }
        (inner.1, { inner.2 with depth := inner.2.depth - 1 }) := by
  rw [nested, run_bind, enter]
  by_cases full : settings.maxDepth ≤ cursor.depth <;> simp [full, andAlways, leave]

/-! ## Recursion -/

/--
A recursive parser, given by one step of it, that calls itself a bounded number
of times. A round is built only when it is run.
-/
def unroll (step : (α → Parser β) → α → Parser β) : Nat → α → Parser β
  | 0, _ => ⟨fun _ cursor => (.error cursor.pastEnd, cursor)⟩
  | rounds + 1, argument =>
      ⟨fun settings cursor => (step (unroll step rounds) argument).run settings cursor⟩

theorem unroll_succ (step : (α → Parser β) → α → Parser β) (rounds : Nat) (argument : α) :
    unroll step (rounds + 1) argument = step (unroll step rounds) argument :=
  rfl

/--
A recursive parser, given by one step of it. A step reads a token before it
calls the parser again, so one round more than there are tokens left is never
used up.
-/
def recurse (step : (α → Parser β) → α → Parser β) (argument : α) : Parser β :=
  ⟨fun settings cursor =>
    (unroll step (cursor.unread.length + 1) argument).run settings cursor⟩

end Parser

end ExprLang
