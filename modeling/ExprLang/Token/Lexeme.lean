import ExprLang.Text.Blank
import ExprLang.Token.Basic

/-!
# Lexemes

A source is cut into lexemes from left to right. Thirteen patterns are tried in
a fixed order on the text that is left, and the first one that takes at least
one character decides. Blanks and comments are cut off as lexemes without a
kind. Cutting stops at a character that no pattern takes.
-/

namespace ExprLang

open Text

/-- A piece of a source; the ones without a kind yield no token. -/
structure Lexeme where
  kind? : Option TokenKind
  text : String
  deriving DecidableEq

/-- How many characters at the start of a text belong to a lexeme, and the kind it has. -/
structure Pattern where
  length : List Char → Nat
  kind? : String → Option TokenKind

namespace Pattern

/-! ## Shapes of lexemes -/

def isWordStart (c : Char) : Bool :=
  c.isAlpha || c == '_'

def isWordPart (c : Char) : Bool :=
  c.isAlphanum || c == '_'

def blankLength (text : List Char) : Nat :=
  (text.takeWhile isBlank).length

/-- A comment runs up to the end of its line. -/
def commentLength : List Char → Nat
  | '/' :: '/' :: rest => 2 + (rest.takeWhile (· != '\n')).length
  | _ => 0

def wordLength : List Char → Nat
  | [] => 0
  | c :: rest => if isWordStart c then 1 + (rest.takeWhile isWordPart).length else 0

def digitsLength (text : List Char) : Nat :=
  (text.takeWhile Char.isDigit).length

/-- Digits, a point and digits again; a point without a digit on either side is left alone. -/
def fractionalLength (text : List Char) : Nat :=
  match text.dropWhile Char.isDigit with
  | '.' :: rest =>
      if digitsLength text = 0 || digitsLength rest = 0 then 0
      else digitsLength text + 1 + digitsLength rest
  | _ => 0

def markLength (mark : List Char) (text : List Char) : Nat :=
  if mark.isPrefixOf text then mark.length else 0

def operatorLength : List Char → Nat
  | [] => 0
  | c :: _ => if ['-', '+', '*', '/', '<'].contains c then 1 else 0

/-! ## The table of patterns -/

/-- A pattern for a mark whose text never varies. -/
def mark (text : String) (kind : TokenKind) : Pattern :=
  ⟨markLength text.toList, fun _ => some kind⟩

/-- The patterns in the order in which they are tried. -/
def all : List Pattern :=
  [⟨blankLength, fun _ => none⟩,
    ⟨commentLength, fun _ => none⟩,
    ⟨wordLength, fun word => some (TokenKind.ofWord word)⟩,
    ⟨fractionalLength, fun _ => some .floatingLiteral⟩,
    ⟨digitsLength, fun _ => some .integerLiteral⟩,
    mark "->" .arrow,
    mark "(" .leftParen,
    mark ")" .rightParen,
    mark "\x7b" .leftBrace,
    mark "\x7d" .rightBrace,
    mark "," .comma,
    mark ":" .colon,
    ⟨operatorLength, fun _ => some .binaryOperator⟩]

/-- The lexeme that a pattern takes from the start of a text, and the text after it. -/
def take? (pattern : Pattern) (text : List Char) : Option (Lexeme × List Char) :=
  let length := pattern.length text
  if length = 0 then none
  else
    let taken := String.ofList (text.take length)
    some (⟨pattern.kind? taken, taken⟩, text.drop length)

end Pattern

namespace Lexeme

/-- The first lexeme of a text and the text after it, unless no pattern applies. -/
def first? (text : List Char) : Option (Lexeme × List Char) :=
  Pattern.all.findSome? fun pattern => pattern.take? text

theorem exists_take_drop_of_first? {text rest : List Char} {lexeme : Lexeme}
    (found : first? text = some (lexeme, rest)) :
    ∃ length, 0 < length ∧ lexeme.text = String.ofList (text.take length) ∧
      rest = text.drop length := by
  obtain ⟨pattern, _, taken⟩ := List.exists_of_findSome?_eq_some found
  unfold Pattern.take? at taken
  dsimp only at taken
  split at taken
  · cases taken
  · next nonzero =>
      cases taken
      exact ⟨pattern.length text, Nat.pos_of_ne_zero nonzero, rfl, rfl⟩

theorem length_rest_lt_of_first? {c : Char} {text rest : List Char} {lexeme : Lexeme}
    (found : first? (c :: text) = some (lexeme, rest)) : rest.length < (c :: text).length := by
  obtain ⟨length, positive, _, same⟩ := exists_take_drop_of_first? found
  rw [same, List.length_drop, List.length_cons]
  omega

end Lexeme

/-- The lexemes at the start of a text, and the text that starts with no lexeme. -/
structure Cut where
  lexemes : List Lexeme
  leftover : List Char
  deriving DecidableEq

namespace Cut

/-- The cut of a text that follows the lexemes in `done`, which are in reverse order. -/
def onto (done : List Lexeme) (text : List Char) : Cut :=
  match text with
  | [] => ⟨done.reverse, []⟩
  | c :: rest =>
      match _ : Lexeme.first? (c :: rest) with
      | none => ⟨done.reverse, c :: rest⟩
      | some (lexeme, later) => onto (lexeme :: done) later
termination_by text.length
decreasing_by exact Lexeme.length_rest_lt_of_first? ‹_›

def ofText (text : List Char) : Cut :=
  onto [] text

theorem onto_eq (done : List Lexeme) (text : List Char) :
    onto done text = ⟨done.reverse ++ (ofText text).lexemes, (ofText text).leftover⟩ := by
  match text with
  | [] => simp [ofText, onto]
  | c :: rest =>
      unfold ofText
      rw [onto, onto]
      split
      · simp
      · next lexeme later found =>
          rw [onto_eq (lexeme :: done) later, onto_eq [lexeme] later]
          simp
termination_by text.length
decreasing_by all_goals exact Lexeme.length_rest_lt_of_first? ‹_›

@[simp]
theorem ofText_nil : ofText [] = ⟨[], []⟩ := by
  simp [ofText, onto]

theorem ofText_of_first?_eq_none {text : List Char} (stuck : Lexeme.first? text = none) :
    ofText text = ⟨[], text⟩ := by
  cases text with
  | nil => exact ofText_nil
  | cons c rest =>
      rw [ofText, onto]
      split
      · rfl
      · next found => rw [stuck] at found; cases found

theorem ofText_cons_of_first? {c : Char} {text rest : List Char} {lexeme : Lexeme}
    (found : Lexeme.first? (c :: text) = some (lexeme, rest)) :
    ofText (c :: text) = ⟨lexeme :: (ofText rest).lexemes, (ofText rest).leftover⟩ := by
  rw [ofText, onto]
  split
  · next stuck => rw [stuck] at found; cases found
  · next other later same =>
      rw [same] at found
      cases found
      rw [onto_eq]
      rfl

end Cut

end ExprLang
