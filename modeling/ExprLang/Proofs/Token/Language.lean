import ExprLang.Proofs.Token.Spelling
import Mathlib.Computability.Language

/-!
# Languages of lexemes

The lexemes of a shape are the texts of a regular language, and its pattern takes the
longest of them that a text starts with. There are only three pairs of shapes of which
one text can start with lexemes of both, and then the shape that is tried first takes
more of it. So the first pattern that applies takes the longest lexeme of any shape,
which has no other shape.
-/

namespace ExprLang

open Text
open scoped Computability

/-- The shapes of lexemes. -/
inductive Shape where
  | blanks
  | comment
  | word
  | fractional
  | digits
  | arrow
  | leftParen
  | rightParen
  | leftBrace
  | rightBrace
  | comma
  | colon
  | operator
  deriving DecidableEq

/-- The texts of one character out of a class. -/
def oneOf (among : Char → Bool) : Language Char :=
  {text | ∃ c, text = [c] ∧ among c = true}

namespace Shape

/-- The shapes in the order in which their patterns are tried. -/
def all : List Shape :=
  [.blanks, .comment, .word, .fractional, .digits, .arrow, .leftParen, .rightParen, .leftBrace,
    .rightBrace, .comma, .colon, .operator]

theorem mem_all (shape : Shape) : shape ∈ all := by
  cases shape <;> decide

/-- The texts that a shape matches. -/
def language : Shape → Language Char
  | blanks => oneOf isBlank * (oneOf isBlank)∗
  | comment => {['/', '/']} * (oneOf (· != '\n'))∗
  | word => oneOf Pattern.isWordStart * (oneOf Pattern.isWordPart)∗
  | fractional =>
      oneOf Char.isDigit * (oneOf Char.isDigit)∗ *
        ({['.']} * (oneOf Char.isDigit * (oneOf Char.isDigit)∗))
  | digits => oneOf Char.isDigit * (oneOf Char.isDigit)∗
  | arrow => {['-', '>']}
  | leftParen => {['(']}
  | rightParen => {[')']}
  | leftBrace => {['\x7b']}
  | rightBrace => {['\x7d']}
  | comma => {[',']}
  | colon => {[':']}
  | operator => oneOf ['-', '+', '*', '/', '<'].contains

/-- The kind of a text that a shape matches, if such texts are tokens. -/
def kind? : Shape → String → Option TokenKind
  | blanks, _ => none
  | comment, _ => none
  | word, text => some (.ofWord text)
  | fractional, _ => some .floatingLiteral
  | digits, _ => some .integerLiteral
  | arrow, _ => some .arrow
  | leftParen, _ => some .leftParen
  | rightParen, _ => some .rightParen
  | leftBrace, _ => some .leftBrace
  | rightBrace, _ => some .rightBrace
  | comma, _ => some .comma
  | colon, _ => some .colon
  | operator, _ => some .binaryOperator

end Shape

/-! ## Members of the languages -/

section Members

variable {p q : Char → Bool} {text : List Char}

theorem mem_oneOf_kstar : text ∈ (oneOf p)∗ ↔ ∀ c ∈ text, p c = true := by
  rw [Language.mem_kstar]
  constructor
  · rintro ⟨parts, rfl, each⟩ c member
    obtain ⟨part, inside, within⟩ := List.mem_flatten.mp member
    obtain ⟨d, rfl, one⟩ := each part inside
    rwa [List.mem_singleton.mp within]
  · intro each
    refine ⟨text.map ([·]), (List.flatMap_singleton' text).symm, fun part inside => ?_⟩
    obtain ⟨c, member, rfl⟩ := List.mem_map.mp inside
    exact ⟨c, rfl, each c member⟩

theorem mem_oneOf_mul_kstar :
    text ∈ oneOf p * (oneOf q)∗ ↔
      ∃ c rest, text = c :: rest ∧ p c = true ∧ ∀ d ∈ rest, q d = true := by
  rw [Language.mem_mul]
  constructor
  · rintro ⟨_, ⟨c, rfl, first⟩, rest, others, rfl⟩
    exact ⟨c, rest, rfl, first, mem_oneOf_kstar.mp others⟩
  · rintro ⟨c, rest, rfl, first, others⟩
    exact ⟨[c], ⟨c, rfl, first⟩, rest, mem_oneOf_kstar.mpr others, rfl⟩

/-- One character of a class or more. -/
theorem mem_run : text ∈ oneOf p * (oneOf p)∗ ↔ text ≠ [] ∧ ∀ c ∈ text, p c = true := by
  rw [mem_oneOf_mul_kstar]
  constructor
  · rintro ⟨c, rest, rfl, first, others⟩
    exact ⟨List.cons_ne_nil c rest, List.forall_mem_cons.mpr ⟨first, others⟩⟩
  · rintro ⟨nonempty, each⟩
    obtain ⟨c, rest, rfl⟩ := List.exists_cons_of_ne_nil nonempty
    obtain ⟨first, others⟩ := List.forall_mem_cons.mp each
    exact ⟨c, rest, rfl, first, others⟩

namespace Shape

theorem mem_comment :
    text ∈ comment.language ↔
      ∃ line, text = '/' :: '/' :: line ∧ ∀ c ∈ line, (c != '\n') = true := by
  rw [language, Language.mem_mul]
  constructor
  · rintro ⟨_, rfl, line, others, rfl⟩
    exact ⟨line, rfl, mem_oneOf_kstar.mp others⟩
  · rintro ⟨line, rfl, others⟩
    exact ⟨['/', '/'], rfl, line, mem_oneOf_kstar.mpr others, rfl⟩

theorem mem_fractional :
    text ∈ fractional.language ↔ ∃ whole fraction, text = whole ++ '.' :: fraction ∧
      whole ∈ digits.language ∧ fraction ∈ digits.language := by
  rw [language, Language.mem_mul]
  constructor
  · rintro ⟨whole, first, _, ⟨_, rfl, fraction, second, rfl⟩, rfl⟩
    exact ⟨whole, fraction, rfl, first, second⟩
  · rintro ⟨whole, fraction, rfl, first, second⟩
    exact ⟨whole, first, _, ⟨['.'], rfl, fraction, second, rfl⟩, rfl⟩

end Shape

end Members

/-! ## Patterns -/

/-- A pattern that takes the longest text of a shape, and gives it the kind of the shape. -/
structure Pattern.Recognises (pattern : Pattern) (shape : Shape) : Prop where
  kind : pattern.kind? = shape.kind?
  mem : ∀ text, pattern.length text ≠ 0 → text.take (pattern.length text) ∈ shape.language
  le_length : ∀ {text front}, front <+: text → front ∈ shape.language →
    front.length ≤ pattern.length text

namespace Pattern

/-- A run at the start of a text is a part of the longest one. -/
theorem length_le_takeWhile {p : Char → Bool} {text front : List Char} (starts : front <+: text)
    (each : ∀ c ∈ front, p c = true) : front.length ≤ (text.takeWhile p).length := by
  obtain ⟨rest, rfl⟩ := starts
  rw [List.takeWhile_append_of_pos each, List.length_append]
  exact Nat.le_add_right _ _

theorem take_takeWhile (p : Char → Bool) (text : List Char) :
    text.take (text.takeWhile p).length = text.takeWhile p :=
  (List.prefix_iff_eq_take.mp (List.takeWhile_prefix p)).symm

/-- A pattern for a run of characters of one class. -/
theorem recognises_run {p : Char → Bool} {shape : Shape} {kind? : String → Option TokenKind}
    (language : shape.language = oneOf p * (oneOf p)∗) (kind : kind? = shape.kind?) :
    Recognises ⟨fun text => (text.takeWhile p).length, kind?⟩ shape where
  kind := kind
  mem := by
    intro text taken
    dsimp only at taken ⊢
    rw [language, take_takeWhile, mem_run]
    exact ⟨List.length_eq_zero_iff.not.mp taken, List.all_eq_true.mp List.all_takeWhile⟩
  le_length := by
    intro text front starts member
    rw [language, mem_run] at member
    exact length_le_takeWhile starts member.2

theorem recognises_comment : Recognises ⟨commentLength, fun _ => none⟩ .comment where
  kind := rfl
  mem := by
    intro text taken
    dsimp only at taken ⊢
    unfold commentLength at taken ⊢
    split at taken
    · rw [Nat.add_comm, List.take_succ_cons, List.take_succ_cons, take_takeWhile]
      exact Shape.mem_comment.mpr ⟨_, rfl, List.all_eq_true.mp List.all_takeWhile⟩
    · exact absurd rfl taken
  le_length := by
    rintro text front ⟨rest, rfl⟩ member
    obtain ⟨line, rfl, each⟩ := Shape.mem_comment.mp member
    have longer := length_le_takeWhile (List.prefix_append line rest) each
    change line.length + 2 ≤ 2 + ((line ++ rest).takeWhile (· != '\n')).length
    omega

theorem recognises_word :
    Recognises ⟨wordLength, fun word => some (TokenKind.ofWord word)⟩ .word where
  kind := rfl
  mem := by
    intro text taken
    cases text with
    | nil => exact absurd rfl taken
    | cons c rest =>
        dsimp only [wordLength] at taken ⊢
        split at taken
        · next starts =>
            rw [if_pos starts, Nat.add_comm, List.take_succ_cons, take_takeWhile]
            exact mem_oneOf_mul_kstar.mpr
              ⟨c, _, rfl, starts, List.all_eq_true.mp List.all_takeWhile⟩
        · exact absurd rfl taken
  le_length := by
    rintro text front ⟨rest, rfl⟩ member
    obtain ⟨c, parts, rfl, starts, each⟩ := mem_oneOf_mul_kstar.mp member
    have longer := length_le_takeWhile (List.prefix_append parts rest) each
    dsimp only [List.cons_append, wordLength]
    rw [if_pos starts, List.length_cons]
    omega

theorem recognises_fractional :
    Recognises ⟨fractionalLength, fun _ => some .floatingLiteral⟩ .fractional where
  kind := rfl
  mem := by
    intro text taken
    dsimp only at taken ⊢
    obtain ⟨fraction, point, some, some', length⟩ := exists_point_of_fractionalLength taken
    have split : text.take (fractionalLength text) =
        text.takeWhile Char.isDigit ++ '.' :: fraction.takeWhile Char.isDigit := by
      have whole := List.takeWhile_append_dropWhile (p := Char.isDigit) (l := text)
      rw [point] at whole
      rw [length, Nat.add_assoc, Nat.add_comm 1, digitsLength, digitsLength]
      conv_lhs => arg 2; rw [← whole]
      rw [List.take_length_add_append, List.take_succ_cons, take_takeWhile]
    rw [split]
    refine Shape.mem_fractional.mpr ⟨_, _, rfl, mem_run.mpr ⟨?_, ?_⟩, mem_run.mpr ⟨?_, ?_⟩⟩
    · exact fun empty => some (congrArg List.length empty)
    · exact List.all_eq_true.mp List.all_takeWhile
    · exact fun empty => some' (congrArg List.length empty)
    · exact List.all_eq_true.mp List.all_takeWhile
  le_length := by
    rintro text front ⟨rest, rfl⟩ member
    obtain ⟨whole, fraction, rfl, first, second⟩ := Shape.mem_fractional.mp member
    obtain ⟨some, each⟩ := mem_run.mp first
    obtain ⟨some', each'⟩ := mem_run.mp second
    have stop : ∀ c ∈ ('.' :: (fraction ++ rest)).head?, c.isDigit = false := by
      rintro c ⟨⟩
      rfl
    have point := dropWhile_append_of_stop each stop
    have before : digitsLength (whole ++ '.' :: (fraction ++ rest)) = whole.length :=
      congrArg List.length (takeWhile_append_of_stop each stop)
    have behind : fraction.length ≤ digitsLength (fraction ++ rest) :=
      length_le_takeWhile (List.prefix_append fraction rest) each'
    have positive := List.length_pos_iff.mpr some
    have positive' := List.length_pos_iff.mpr some'
    dsimp only
    rw [List.append_assoc, List.cons_append, fractionalLength_of_point point, before, if_neg,
      List.length_append, List.length_cons]
    · omega
    · simp only [Bool.or_eq_true, decide_eq_true_eq]
      omega

theorem recognises_mark {text : String} {shape : Shape} {kind : TokenKind}
    (language : shape.language = {text.toList}) (same : shape.kind? = fun _ => some kind) :
    Recognises (mark text kind) shape where
  kind := same.symm
  mem := by
    intro whole taken
    dsimp only [mark, markLength] at taken ⊢
    split at taken
    · next starts =>
        rw [if_pos starts, language]
        exact (List.prefix_iff_eq_take.mp (List.isPrefixOf_iff_prefix.mp starts)).symm
    · exact absurd rfl taken
  le_length := by
    intro whole front starts member
    rw [language] at member
    cases Set.mem_singleton_iff.mp member
    dsimp only [mark, markLength]
    rw [if_pos (List.isPrefixOf_iff_prefix.mpr starts)]

theorem recognises_operator :
    Recognises ⟨operatorLength, fun _ => some .binaryOperator⟩ .operator where
  kind := rfl
  mem := by
    intro text taken
    cases text with
    | nil => exact absurd rfl taken
    | cons c rest =>
        dsimp only [operatorLength] at taken ⊢
        split at taken
        · next listed =>
            rw [if_pos listed]
            exact ⟨c, rfl, listed⟩
        · exact absurd rfl taken
  le_length := by
    rintro text front ⟨rest, rfl⟩ ⟨c, rfl, listed⟩
    dsimp only [List.cons_append, operatorLength]
    rw [if_pos listed]
    exact Nat.le_refl 1

/-- The table has one pattern for each shape. -/
theorem recognises_all : List.Forall₂ Recognises all Shape.all :=
  .cons (recognises_run rfl rfl) <|
  .cons recognises_comment <|
  .cons recognises_word <|
  .cons recognises_fractional <|
  .cons (recognises_run rfl rfl) <|
  .cons (recognises_mark rfl rfl) <|
  .cons (recognises_mark rfl rfl) <|
  .cons (recognises_mark rfl rfl) <|
  .cons (recognises_mark rfl rfl) <|
  .cons (recognises_mark rfl rfl) <|
  .cons (recognises_mark rfl rfl) <|
  .cons (recognises_mark rfl rfl) <|
  .cons recognises_operator .nil

end Pattern

/-! ## Shapes that start alike -/

namespace Shape

variable {a b : Shape} {text front front' : List Char}

/-- The classes of characters that texts can start with, and the shapes of these texts. -/
def heads : List ((Char → Bool) × List Shape) :=
  [(isBlank, [.blanks]),
    (Pattern.isWordStart, [.word]),
    (Char.isDigit, [.fractional, .digits]),
    ((· == '/'), [.comment, .operator]),
    ((· == '-'), [.arrow, .operator]),
    (['+', '*', '<'].contains, [.operator]),
    ((· == '('), [.leftParen]),
    ((· == ')'), [.rightParen]),
    ((· == '\x7b'), [.leftBrace]),
    ((· == '\x7d'), [.rightBrace]),
    ((· == ','), [.comma]),
    ((· == ':'), [.colon])]

/-- The shapes whose texts can start with a character. -/
def ofHead (c : Char) : List Shape :=
  ((heads.find? fun row => row.1 c).map Prod.snd).getD []

theorem ofHead_of_isBlank {c : Char} (blank : isBlank c = true) : ofHead c = [.blanks] := by
  rw [ofHead, heads, List.find?_cons]
  dsimp only
  rw [blank]
  rfl

theorem ofHead_of_isWordStart {c : Char} (starts : Pattern.isWordStart c = true) :
    ofHead c = [.word] := by
  have dark := Pattern.isBlank_of_isWordPart (Pattern.isWordPart_of_isWordStart starts)
  rw [ofHead, heads, List.find?_cons, List.find?_cons]
  dsimp only
  rw [dark, starts]
  rfl

theorem ofHead_of_isDigit {c : Char} (digit : c.isDigit = true) :
    ofHead c = [.fractional, .digits] := by
  have dark := Pattern.isBlank_of_isWordPart (Pattern.isWordPart_of_isDigit digit)
  rw [ofHead, heads, List.find?_cons, List.find?_cons, List.find?_cons]
  dsimp only
  rw [dark, Pattern.isWordStart_of_isDigit digit, digit]
  rfl

theorem exists_head (member : text ∈ a.language) : ∃ c rest, text = c :: rest ∧ a ∈ ofHead c := by
  cases a with
  | blanks =>
      obtain ⟨c, rest, rfl, blank, -⟩ := mem_oneOf_mul_kstar.mp member
      exact ⟨c, rest, rfl, by rw [ofHead_of_isBlank blank]; decide⟩
  | comment =>
      obtain ⟨line, rfl, -⟩ := mem_comment.mp member
      exact ⟨'/', _, rfl, by decide⟩
  | word =>
      obtain ⟨c, rest, rfl, starts, -⟩ := mem_oneOf_mul_kstar.mp member
      exact ⟨c, rest, rfl, by rw [ofHead_of_isWordStart starts]; decide⟩
  | fractional =>
      obtain ⟨whole, fraction, rfl, first, -⟩ := mem_fractional.mp member
      obtain ⟨c, rest, rfl, digit, -⟩ := mem_oneOf_mul_kstar.mp first
      exact ⟨c, _, rfl, by rw [ofHead_of_isDigit digit]; decide⟩
  | digits =>
      obtain ⟨c, rest, rfl, digit, -⟩ := mem_oneOf_mul_kstar.mp member
      exact ⟨c, rest, rfl, by rw [ofHead_of_isDigit digit]; decide⟩
  | operator =>
      obtain ⟨c, rfl, listed⟩ := member
      refine ⟨c, [], rfl, ?_⟩
      simp only [List.contains_iff_mem, List.mem_cons, List.not_mem_nil, or_false] at listed
      rcases listed with rfl | rfl | rfl | rfl | rfl <;> decide
  | _ =>
      cases Set.mem_singleton_iff.mp member
      exact ⟨_, _, rfl, by decide⟩

theorem ne_nil (member : text ∈ a.language) : text ≠ [] := by
  obtain ⟨c, rest, rfl, -⟩ := exists_head member
  exact List.cons_ne_nil c rest

/-- The pairs of shapes that can start alike; the first one takes more of a text. -/
def rivals : List (Shape × Shape) :=
  [(.comment, .operator), (.fractional, .digits), (.arrow, .operator)]

theorem eq_or_rivals_of_mem_ofHead {c : Char} (first : a ∈ ofHead c) (second : b ∈ ofHead c) :
    a = b ∨ (a, b) ∈ rivals ∨ (b, a) ∈ rivals := by
  have alike : ∀ row ∈ heads, ∀ a ∈ row.2, ∀ b ∈ row.2,
      a = b ∨ (a, b) ∈ rivals ∨ (b, a) ∈ rivals := by
    decide
  rw [ofHead] at first second
  cases found : heads.find? fun row => row.1 c with
  | none =>
      rw [found] at first
      cases first
  | some row =>
      rw [found] at first second
      exact alike row (List.mem_of_find?_eq_some found) a first b second

/-- Two texts with which one text starts have one shape, or the shapes are rivals. -/
theorem eq_or_rivals (starts : front <+: text) (starts' : front' <+: text)
    (member : front ∈ a.language) (member' : front' ∈ b.language) :
    a = b ∨ (a, b) ∈ rivals ∨ (b, a) ∈ rivals := by
  obtain ⟨c, rest, rfl, first⟩ := exists_head member
  obtain ⟨d, rest', rfl, second⟩ := exists_head member'
  obtain ⟨more, rfl⟩ := starts
  have same : d = c := (List.cons_prefix_cons.mp starts').1
  rw [same] at second
  exact eq_or_rivals_of_mem_ofHead first second

theorem length_lt_of_rivals (rival : (a, b) ∈ rivals) (starts : front <+: text)
    (starts' : front' <+: text) (member : front ∈ a.language) (member' : front' ∈ b.language) :
    front'.length < front.length := by
  simp only [rivals, List.mem_cons, Prod.mk.injEq, List.not_mem_nil, or_false] at rival
  rcases rival with ⟨rfl, rfl⟩ | ⟨rfl, rfl⟩ | ⟨rfl, rfl⟩
  · obtain ⟨line, rfl, -⟩ := mem_comment.mp member
    obtain ⟨c, rfl, -⟩ := member'
    exact Nat.le_add_left 2 line.length
  · -- a whole number in front of a point ends at the point
    obtain ⟨whole, fraction, rfl, first, -⟩ := mem_fractional.mp member
    obtain ⟨rest, rfl⟩ := starts
    have stop : ∀ c ∈ ('.' :: (fraction ++ rest)).head?, c.isDigit = false := by
      rintro c ⟨⟩
      rfl
    have shorter := Pattern.length_le_takeWhile starts' (mem_run.mp member').2
    rw [List.append_assoc, List.cons_append,
      takeWhile_append_of_stop (mem_run.mp first).2 stop] at shorter
    rw [List.length_append, List.length_cons]
    omega
  · cases Set.mem_singleton_iff.mp member
    obtain ⟨c, rfl, -⟩ := member'
    exact Nat.lt_succ_self 1

/-- No text has two shapes. -/
theorem eq_of_mem (member : text ∈ a.language) (member' : text ∈ b.language) : a = b := by
  have starts := List.prefix_refl text
  rcases eq_or_rivals starts starts member member' with same | rival | rival
  · exact same
  · exact absurd (length_lt_of_rivals rival starts starts member member') (Nat.lt_irrefl _)
  · exact absurd (length_lt_of_rivals rival starts starts member' member) (Nat.lt_irrefl _)

end Shape

/-! ## The first lexeme is the longest -/

/-- A text with a shape that matches it. -/
structure Portion where
  shape : Shape
  text : List Char
  deriving DecidableEq

namespace Portion

def lexeme (portion : Portion) : Lexeme :=
  ⟨portion.shape.kind? (String.ofList portion.text), String.ofList portion.text⟩

/-- The longest text of any shape that a text starts with, and the only shape that it has. -/
structure IsLongestOf (portion : Portion) (text : List Char) : Prop where
  starts : portion.text <+: text
  nonempty : portion.text ≠ []
  mem : portion.text ∈ portion.shape.language
  longest : ∀ {shape : Shape} {front : List Char}, front <+: text → front ∈ shape.language →
    front.length ≤ portion.text.length
  unique : ∀ shape : Shape, portion.text ∈ shape.language → shape = portion.shape

theorem IsLongestOf.eq {portion other : Portion} {text : List Char}
    (longest : portion.IsLongestOf text) (longest' : other.IsLongestOf text) : other = portion := by
  have length := Nat.le_antisymm (longest.longest longest'.starts longest'.mem)
    (longest'.longest longest.starts longest.mem)
  have begins : other.text <+: portion.text :=
    List.prefix_of_prefix_length_le longest'.starts longest.starts (Nat.le_of_eq length)
  have same := begins.eq_of_length length
  have shape := longest.unique other.shape (same ▸ longest'.mem)
  cases portion
  cases other
  cases same
  cases shape
  rfl

end Portion

namespace Pattern.Recognises

variable {pattern : Pattern} {shape : Shape} {text : List Char}

theorem not_mem_of_take?_eq_none (recognises : pattern.Recognises shape)
    (missed : pattern.take? text = none) {front : List Char} (starts : front <+: text) :
    front ∉ shape.language := by
  intro member
  have shorter := recognises.le_length starts member
  have positive := List.length_pos_iff.mpr (Shape.ne_nil member)
  unfold take? at missed
  dsimp only at missed
  rw [if_neg (by omega)] at missed
  cases missed

theorem exists_of_take?_eq_some (recognises : pattern.Recognises shape) {lexeme : Lexeme}
    {rest : List Char} (taken : pattern.take? text = some (lexeme, rest)) :
    ∃ front, text = front ++ rest ∧ front ∈ shape.language ∧
      lexeme = Portion.lexeme ⟨shape, front⟩ ∧
      ∀ other, other <+: text → other ∈ shape.language → other.length ≤ front.length := by
  unfold take? at taken
  dsimp only at taken
  split at taken
  · cases taken
  · next nonzero =>
      cases taken
      refine ⟨text.take (pattern.length text), (List.take_append_drop ..).symm,
        recognises.mem text nonzero, by rw [Portion.lexeme, recognises.kind], ?_⟩
      intro other starts member
      rw [List.length_take]
      exact Nat.le_min.mpr ⟨recognises.le_length starts member, starts.length_le⟩

end Pattern.Recognises

namespace Lexeme

/-- The pattern that decides, and the shapes before its own that match no start of the text. -/
theorem exists_of_findSome? {patterns : List Pattern} {shapes : List Shape}
    (rows : List.Forall₂ Pattern.Recognises patterns shapes) {text : List Char}
    {taken : Lexeme × List Char}
    (found : patterns.findSome? (fun pattern : Pattern => pattern.take? text) = some taken) :
    ∃ (earlier : List Shape) (pattern : Pattern) (shape : Shape) (later : List Shape),
      shapes = earlier ++ shape :: later ∧
      pattern.Recognises shape ∧ pattern.take? text = some taken ∧
      ∀ other ∈ earlier, ∀ front, front <+: text → front ∉ other.language := by
  induction rows with
  | nil => cases found
  | @cons pattern shape _ shapes recognises _ ih =>
      rw [List.findSome?_cons] at found
      cases takes : pattern.take? text with
      | some other =>
          rw [takes] at found
          exact ⟨[], pattern, shape, shapes, rfl, recognises, takes.trans found, nofun⟩
      | none =>
          rw [takes] at found
          obtain ⟨earlier, last, decides, later, rfl, recognises', takes', missed⟩ := ih found
          refine ⟨shape :: earlier, last, decides, later, rfl, recognises', takes', ?_⟩
          exact List.forall_mem_cons.mpr
            ⟨fun front => recognises.not_mem_of_take?_eq_none takes, missed⟩

/-- A rival that takes more of a text stands earlier in the table. -/
theorem pairwise_all : Shape.all.Pairwise fun first second => (second, first) ∉ Shape.rivals := by
  decide

/-- The first lexeme of a text is the longest text of any shape. -/
theorem isLongestOf_of_first? {text rest : List Char} {lexeme : Lexeme}
    (found : first? text = some (lexeme, rest)) :
    ∃ portion : Portion, text = portion.text ++ rest ∧ lexeme = portion.lexeme ∧
      portion.IsLongestOf text := by
  obtain ⟨earlier, pattern, shape, later, table, recognises, taken, missed⟩ :=
    exists_of_findSome? Pattern.recognises_all found
  obtain ⟨front, split, member, same, greedy⟩ := recognises.exists_of_take?_eq_some taken
  have starts : front <+: text := ⟨rest, split.symm⟩
  refine ⟨⟨shape, front⟩, split, same, starts, Shape.ne_nil member, member,
    fun {other longer} starts' member' => ?_, fun other member' => Shape.eq_of_mem member' member⟩
  rcases Shape.eq_or_rivals starts starts' member member' with alike | rival | rival
  · exact greedy longer starts' (alike ▸ member')
  · exact Nat.le_of_lt (Shape.length_lt_of_rivals rival starts starts' member member')
  · -- the rival would have been tried before the shape that decided
    have tried := other.mem_all
    have order := pairwise_all
    rw [table] at tried order
    rcases List.mem_append.mp tried with before | behind
    · exact absurd member' (missed other before longer starts')
    · rcases List.mem_cons.mp behind with rfl | behind
      · exact greedy longer starts' member'
      · have inOrder := (List.pairwise_cons.mp (List.pairwise_append.mp order).2.1).1
        exact absurd rival (inOrder other behind)

theorem exists_recognises {patterns : List Pattern} {shapes : List Shape}
    (rows : List.Forall₂ Pattern.Recognises patterns shapes) :
    ∀ shape ∈ shapes, ∃ pattern ∈ patterns, pattern.Recognises shape := by
  induction rows with
  | nil => nofun
  | @cons pattern _ _ _ recognises _ ih =>
      refine List.forall_mem_cons.mpr ⟨⟨pattern, List.mem_cons_self .., recognises⟩, ?_⟩
      intro shape member
      obtain ⟨other, inside, recognises'⟩ := ih shape member
      exact ⟨other, List.mem_cons_of_mem _ inside, recognises'⟩

/-- Without a first lexeme, no start of a text has any shape. -/
theorem not_mem_of_first?_eq_none {text front : List Char} (stuck : first? text = none)
    (shape : Shape) (starts : front <+: text) : front ∉ shape.language := by
  obtain ⟨pattern, inside, recognises⟩ :=
    exists_recognises Pattern.recognises_all shape shape.mem_all
  exact recognises.not_mem_of_take?_eq_none (List.findSome?_eq_none_iff.mp stuck pattern inside)
    starts

/-- The longest text of any shape is what the first lexeme of a text is. -/
theorem first?_of_isLongestOf {portion : Portion} {rest : List Char}
    (longest : portion.IsLongestOf (portion.text ++ rest)) :
    first? (portion.text ++ rest) = some (portion.lexeme, rest) := by
  cases found : first? (portion.text ++ rest) with
  | none => exact absurd longest.mem (not_mem_of_first?_eq_none found portion.shape longest.starts)
  | some pair =>
      obtain ⟨lexeme, later⟩ := pair
      obtain ⟨other, split, same, longest'⟩ := isLongestOf_of_first? found
      cases longest.eq longest'
      rw [same, List.append_cancel_left split]

end Lexeme

end ExprLang
