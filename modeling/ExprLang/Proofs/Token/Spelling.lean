import ExprLang.Proofs.Number.Positional
import ExprLang.Token.Stream

/-!
# Spellings

The texts that tokens are written with. Such a text is taken as one lexeme of
its kind wherever the rest of the source does not go on with it, as a blank and
the end of the source never do, so a source in which blanks separate such texts is
split into these very tokens.
-/

namespace ExprLang

open Text

/-! ## Characters -/

theorem code_of_isBlank {c : Char} (blank : isBlank c = true) : c.toNat ≤ 32 ∨ 128 ≤ c.toNat := by
  simp only [isBlank, CodeRange.anyContains, blanks, List.any_cons, List.any_nil,
    CodeRange.contains, Bool.or_eq_true, Bool.and_eq_true, decide_eq_true_eq, Bool.false_eq_true,
    or_false] at blank
  omega

theorem code_of_isDigit {c : Char} (digit : c.isDigit = true) : 48 ≤ c.toNat ∧ c.toNat ≤ 57 :=
  Char.isDigit_iff_toNat.mp digit

namespace Pattern

theorem code_of_isWordStart {c : Char} (starts : isWordStart c = true) :
    65 ≤ c.toNat ∧ c.toNat ≤ 122 := by
  have split : ((decide (65 ≤ c.toNat ∧ c.toNat ≤ 90) ||
      decide (97 ≤ c.toNat) && decide (c.toNat ≤ 122)) || c == '_') = true := starts
  simp only [Bool.or_eq_true, Bool.and_eq_true, decide_eq_true_eq, beq_iff_eq] at split
  rcases split with (upper | lower) | rfl
  · omega
  · omega
  · decide

theorem isWordPart_eq (c : Char) : isWordPart c = (isWordStart c || c.isDigit) := by
  rw [isWordPart, isWordStart, Char.isAlphanum, Bool.or_right_comm]

theorem isWordPart_of_isWordStart {c : Char} (starts : isWordStart c = true) :
    isWordPart c = true := by
  rw [isWordPart_eq, starts, Bool.true_or]

theorem isWordPart_of_isDigit {c : Char} (digit : c.isDigit = true) : isWordPart c = true := by
  rw [isWordPart_eq, digit, Bool.or_true]

theorem code_of_isWordPart {c : Char} (part : isWordPart c = true) :
    48 ≤ c.toNat ∧ c.toNat ≤ 122 := by
  rw [isWordPart_eq, Bool.or_eq_true] at part
  rcases part with starts | digit
  · have within := code_of_isWordStart starts
    omega
  · have within := code_of_isDigit digit
    omega

theorem isWordPart_of_isBlank {c : Char} (blank : isBlank c = true) : isWordPart c = false := by
  refine Bool.eq_false_iff.mpr fun part => ?_
  have outside := code_of_isBlank blank
  have within := code_of_isWordPart part
  omega

theorem isBlank_of_isWordPart {c : Char} (part : isWordPart c = true) : isBlank c = false := by
  refine Bool.eq_false_iff.mpr fun blank => ?_
  rw [isWordPart_of_isBlank blank] at part
  cases part

theorem isDigit_of_isBlank {c : Char} (blank : isBlank c = true) : c.isDigit = false := by
  have part := isWordPart_of_isBlank blank
  rw [isWordPart_eq, Bool.or_eq_false_iff] at part
  exact part.2

theorem isWordStart_of_isDigit {c : Char} (digit : c.isDigit = true) : isWordStart c = false := by
  refine Bool.eq_false_iff.mpr fun starts => ?_
  have first := code_of_isDigit digit
  have second := code_of_isWordStart starts
  omega

/-- Whether the text starts with a point that a digit follows. -/
def startsFraction : List Char → Bool
  | '.' :: digit :: _ => digit.isDigit
  | _ => false

/-! ## Patterns that do not apply -/

section Lengths

variable {c : Char} {text : List Char}

theorem blankLength_cons (dark : isBlank c = false) : blankLength (c :: text) = 0 := by
  rw [blankLength, List.takeWhile_cons_of_neg (by rw [dark]; decide), List.length_nil]

theorem commentLength_cons (single : c = '/' → ∀ d ∈ text.head?, d ≠ '/') :
    commentLength (c :: text) = 0 := by
  unfold commentLength
  split
  · next same =>
      obtain ⟨slash, again⟩ := List.cons.inj same
      exact absurd rfl (single slash '/' (by rw [again]; rfl))
  · rfl

theorem wordLength_cons (other : isWordStart c = false) : wordLength (c :: text) = 0 := by
  rw [wordLength, if_neg (by rw [other]; decide)]

theorem fractionalLength_of_point {fraction : List Char}
    (point : text.dropWhile Char.isDigit = '.' :: fraction) :
    fractionalLength text =
      if digitsLength text = 0 || digitsLength fraction = 0 then 0
      else digitsLength text + 1 + digitsLength fraction := by
  unfold fractionalLength
  rw [point]
  rfl

/-- A fraction that is taken has digits on both sides of its point. -/
theorem exists_point_of_fractionalLength (taken : fractionalLength text ≠ 0) :
    ∃ fraction, text.dropWhile Char.isDigit = '.' :: fraction ∧ digitsLength text ≠ 0 ∧
      digitsLength fraction ≠ 0 ∧
      fractionalLength text = digitsLength text + 1 + digitsLength fraction := by
  obtain ⟨fraction, point⟩ : ∃ fraction, text.dropWhile Char.isDigit = '.' :: fraction := by
    unfold fractionalLength at taken
    split at taken
    · next fraction point => exact ⟨fraction, point⟩
    · exact absurd rfl taken
  rw [fractionalLength_of_point point] at taken ⊢
  split at taken
  · exact absurd rfl taken
  · next both =>
      rw [if_neg both]
      simp only [Bool.or_eq_true, decide_eq_true_eq, not_or] at both
      exact ⟨fraction, point, both.1, both.2, rfl⟩

theorem digitsLength_eq_zero (stop : ∀ d ∈ text.head?, d.isDigit = false) :
    digitsLength text = 0 := by
  cases text with
  | nil => rfl
  | cons d text =>
      rw [digitsLength, List.takeWhile_cons_of_neg (by rw [stop d rfl]; decide), List.length_nil]

/-- Without a point and a digit after the digits, there is no fraction. -/
theorem fractionalLength_eq_zero (pointless : startsFraction (text.dropWhile Char.isDigit) = false) :
    fractionalLength text = 0 := by
  unfold fractionalLength
  split
  · next fraction point =>
      have stop : ∀ d ∈ fraction.head?, d.isDigit = false := by
        cases fraction with
        | nil => nofun
        | cons d fraction =>
            rw [point] at pointless
            rintro c ⟨⟩
            exact pointless
      simp [digitsLength_eq_zero stop]
  · rfl

/-- A minus sign before anything but the point of an arrow is no arrow. -/
theorem arrowLength_cons (blunt : ∀ d ∈ text.head?, d ≠ '>') :
    markLength ['-', '>'] ('-' :: text) = 0 := by
  cases text with
  | nil => rfl
  | cons d text =>
      have other : ¬ '>' = d := fun same => blunt d rfl same.symm
      simp [markLength, other]

end Lengths

end Pattern

/-! ## The first lexeme -/

/-- A pattern that takes a text decides when no pattern before it in the table applies. -/
theorem Lexeme.first?_append {index : Nat} {pattern : Pattern} {text rest : List Char}
    (found : Pattern.all[index]? = some pattern)
    (others : ∀ other ∈ Pattern.all.take index, other.length (text ++ rest) = 0)
    (length : pattern.length (text ++ rest) = text.length) (nonempty : text ≠ []) :
    Lexeme.first? (text ++ rest) =
      some (⟨pattern.kind? (String.ofList text), String.ofList text⟩, rest) := by
  have none : (Pattern.all.take index).findSome? (fun other => other.take? (text ++ rest)) =
      none := by
    refine List.findSome?_eq_none_iff.mpr fun other member => ?_
    unfold Pattern.take?
    dsimp only
    rw [if_pos (others other member)]
  have positive : text.length ≠ 0 := fun empty => nonempty (List.length_eq_zero_iff.mp empty)
  have taken : pattern.take? (text ++ rest) =
      some (⟨pattern.kind? (String.ofList text), String.ofList text⟩, rest) := by
    unfold Pattern.take?
    dsimp only
    rw [length, if_neg positive, List.take_left, List.drop_left]
  have table : Pattern.all = Pattern.all.take index ++ pattern :: Pattern.all.drop (index + 1) := by
    obtain ⟨bound, same⟩ := List.getElem?_eq_some_iff.mp found
    rw [← same, ← List.drop_eq_getElem_cons bound, List.take_append_drop]
  rw [Lexeme.first?, table, List.findSome?_append, none, Option.none_or, List.findSome?_cons, taken]

/-! ## Spellings of tokens -/

/-- The text of a kind whose tokens are all written the same. -/
def TokenKind.fixedText? : TokenKind → Option (List Char)
  | .leftParen => some ['(']
  | .rightParen => some [')']
  | .leftBrace => some ['\x7b']
  | .rightBrace => some ['\x7d']
  | .comma => some [',']
  | .colon => some [':']
  | .arrow => some ['-', '>']
  | .funcWord => some ['f', 'u', 'n', 'c']
  | .returnWord => some ['r', 'e', 't', 'u', 'r', 'n']
  | .ifWord => some ['i', 'f']
  | .elseWord => some ['e', 'l', 's', 'e']
  | _ => none

/-- The texts that tokens of a kind are written with. -/
inductive Spelling : TokenKind → List Char → Prop where
  | name {c : Char} {rest : List Char} (starts : Pattern.isWordStart c = true)
      (parts : ∀ d ∈ rest, Pattern.isWordPart d = true)
      (free : TokenKind.ofReservedWord? (String.ofList (c :: rest)) = none) :
      Spelling .identifier (c :: rest)
  | integer {digits : List Char} (nonempty : digits ≠ [])
      (all : ∀ digit ∈ digits, digit.isDigit = true) : Spelling .integerLiteral digits
  | fractional {digits fraction : List Char} (nonempty : digits ≠ [])
      (all : ∀ digit ∈ digits, digit.isDigit = true) (nonempty' : fraction ≠ [])
      (all' : ∀ digit ∈ fraction, digit.isDigit = true) :
      Spelling .floatingLiteral (digits ++ '.' :: fraction)
  | operator {sign : Char} (listed : sign ∈ ['-', '+', '*', '/', '<']) :
      Spelling .binaryOperator [sign]
  | fixed {kind : TokenKind} {text : List Char} (same : kind.fixedText? = some text) :
      Spelling kind text

/-- Whether a token with the kind and the text is over where the rest of a source begins. -/
def TokenKind.EndsBefore (kind : TokenKind) (text rest : List Char) : Prop :=
  match kind with
  | .identifier | .funcWord | .returnWord | .ifWord | .elseWord =>
      ∀ c ∈ rest.head?, Pattern.isWordPart c = false
  | .integerLiteral =>
      (∀ c ∈ rest.head?, c.isDigit = false) ∧ Pattern.startsFraction rest = false
  | .floatingLiteral => ∀ c ∈ rest.head?, c.isDigit = false
  | .binaryOperator => ∀ c ∈ rest.head?, text ++ [c] ≠ ['-', '>'] ∧ text ++ [c] ≠ ['/', '/']
  | _ => True

namespace TokenKind.EndsBefore

variable {kind : TokenKind} {text rest rest' : List Char}

theorem nil : kind.EndsBefore text [] := by
  cases kind with
  | integerLiteral => exact ⟨nofun, rfl⟩
  | _ => first | trivial | nofun

/--
A token is still over before another rest that starts with the same character or
with a blank, unless it is a whole number which a fraction goes on with.
-/
theorem of_head? (ends : kind.EndsBefore text rest)
    (head : ∀ c ∈ rest'.head?, c ∈ rest.head? ∨ isBlank c = true)
    (fraction : kind = .integerLiteral → Pattern.startsFraction rest' = true →
      Pattern.startsFraction rest = true) : kind.EndsBefore text rest' := by
  have word (stop : ∀ c ∈ rest.head?, Pattern.isWordPart c = false) :
      ∀ c ∈ rest'.head?, Pattern.isWordPart c = false :=
    fun c member => (head c member).elim (stop c) Pattern.isWordPart_of_isBlank
  have digit (stop : ∀ c ∈ rest.head?, c.isDigit = false) : ∀ c ∈ rest'.head?, c.isDigit = false :=
    fun c member => (head c member).elim (stop c) Pattern.isDigit_of_isBlank
  cases kind with
  | identifier => exact word ends
  | funcWord => exact word ends
  | returnWord => exact word ends
  | ifWord => exact word ends
  | elseWord => exact word ends
  | integerLiteral =>
      refine ⟨digit ends.1, Bool.eq_false_iff.mpr fun starts => ?_⟩
      have earlier := fraction rfl starts
      rw [ends.2] at earlier
      cases earlier
  | floatingLiteral => exact digit ends
  | binaryOperator =>
      intro c member
      rcases head c member with same | blank
      · exact ends c same
      · have other (front : List Char) (d : Char) (dark : isBlank d = false) :
            text ++ [c] ≠ front ++ [d] := by
          intro same
          cases (List.append_inj' same rfl).2
          rw [dark] at blank
          cases blank
        exact ⟨other ['-'] '>' rfl, other ['/'] '/' rfl⟩
  | _ => trivial

theorem of_isBlank (blank : ∀ c ∈ rest.head?, isBlank c = true) : kind.EndsBefore text rest := by
  refine nil.of_head? (fun c member => .inr (blank c member)) fun _ starts => ?_
  unfold Pattern.startsFraction at starts
  split at starts
  · exact absurd (blank '.' rfl) (by decide)
  · cases starts

end TokenKind.EndsBefore

namespace Spelling

variable {kind : TokenKind} {text rest : List Char}

theorem first?_word {c : Char} (starts : Pattern.isWordStart c = true)
    (parts : ∀ d ∈ text, Pattern.isWordPart d = true)
    (stop : ∀ d ∈ rest.head?, Pattern.isWordPart d = false) :
    Lexeme.first? (c :: text ++ rest) =
      some (⟨some (.ofWord (String.ofList (c :: text))), String.ofList (c :: text)⟩, rest) := by
  have part := Pattern.isWordPart_of_isWordStart starts
  have slash : c ≠ '/' := by
    rintro rfl
    cases starts
  refine Lexeme.first?_append (show Pattern.all[2]? = some ⟨_, _⟩ from rfl) ?_ ?_
    (List.cons_ne_nil c text)
  · refine List.forall_mem_cons.mpr ⟨?_, List.forall_mem_singleton.mpr ?_⟩
    · exact Pattern.blankLength_cons (Pattern.isBlank_of_isWordPart part)
    · exact Pattern.commentLength_cons fun same => absurd same slash
  · change Pattern.wordLength (c :: (text ++ rest)) = _
    rw [Pattern.wordLength, if_pos starts, takeWhile_append_of_stop parts stop, List.length_cons,
      Nat.add_comm]

/-- Digits are left to the patterns for numbers. -/
theorem length_of_isDigit {c : Char} (digit : c.isDigit = true) :
    ∀ other ∈ Pattern.all.take 3, other.length (c :: text) = 0 := by
  have slash : c ≠ '/' := by
    rintro rfl
    cases digit
  have part := Pattern.isWordPart_of_isDigit digit
  refine List.forall_mem_cons.mpr ⟨?_, List.forall_mem_cons.mpr ⟨?_,
    List.forall_mem_singleton.mpr ?_⟩⟩
  · exact Pattern.blankLength_cons (Pattern.isBlank_of_isWordPart part)
  · exact Pattern.commentLength_cons fun same => absurd same slash
  · exact Pattern.wordLength_cons (Pattern.isWordStart_of_isDigit digit)

theorem first?_integer (nonempty : text ≠ []) (all : ∀ digit ∈ text, digit.isDigit = true)
    (ends : TokenKind.integerLiteral.EndsBefore text rest) :
    Lexeme.first? (text ++ rest) = some (⟨some .integerLiteral, String.ofList text⟩, rest) := by
  obtain ⟨stop, whole⟩ := ends
  have pointless : Pattern.fractionalLength (text ++ rest) = 0 := by
    apply Pattern.fractionalLength_eq_zero
    rwa [dropWhile_append_of_stop all stop]
  obtain ⟨c, more, rfl⟩ := List.exists_cons_of_ne_nil nonempty
  refine Lexeme.first?_append (show Pattern.all[4]? = some ⟨_, _⟩ from rfl) ?_ ?_ nonempty
  · intro other member
    rcases List.mem_append.mp (show other ∈ Pattern.all.take 3 ++ [Pattern.all[3]] from member)
      with plain | fractional
    · exact length_of_isDigit (all c (List.mem_cons_self ..)) other plain
    · rw [List.mem_singleton.mp fractional]
      exact pointless
  · change (List.takeWhile Char.isDigit (c :: more ++ rest)).length = _
    rw [takeWhile_append_of_stop all stop]

theorem first?_fractional {digits fraction : List Char} (nonempty : digits ≠ [])
    (all : ∀ digit ∈ digits, digit.isDigit = true) (nonempty' : fraction ≠ [])
    (all' : ∀ digit ∈ fraction, digit.isDigit = true)
    (stop : ∀ d ∈ rest.head?, d.isDigit = false) :
    Lexeme.first? (digits ++ '.' :: fraction ++ rest) =
      some (⟨some .floatingLiteral, String.ofList (digits ++ '.' :: fraction)⟩, rest) := by
  have point : ∀ d ∈ ('.' :: (fraction ++ rest)).head?, d.isDigit = false := by
    rintro d ⟨⟩
    rfl
  refine Lexeme.first?_append (show Pattern.all[3]? = some ⟨_, _⟩ from rfl) ?_ ?_ (by simp)
  · obtain ⟨c, more, rfl⟩ := List.exists_cons_of_ne_nil nonempty
    exact length_of_isDigit (all c (List.mem_cons_self ..))
  · change Pattern.fractionalLength (digits ++ '.' :: fraction ++ rest) = _
    rw [List.append_assoc, List.cons_append,
      Pattern.fractionalLength_of_point (dropWhile_append_of_stop all point)]
    unfold Pattern.digitsLength
    rw [takeWhile_append_of_stop all point, takeWhile_append_of_stop all' stop]
    simp [nonempty, nonempty']
    omega

theorem first?_operator {sign : Char} (listed : sign ∈ ['-', '+', '*', '/', '<'])
    (ends : TokenKind.binaryOperator.EndsBefore [sign] rest) :
    Lexeme.first? ([sign] ++ rest) =
      some (⟨some .binaryOperator, String.ofList [sign]⟩, rest) := by
  have arrow (minus : sign = '-') : Pattern.markLength ['-', '>'] ('-' :: rest) = 0 := by
    refine Pattern.arrowLength_cons fun d member => ?_
    rintro rfl
    exact (ends '>' member).1 (by rw [minus]; rfl)
  have comment (slash : sign = '/') : Pattern.commentLength ('/' :: rest) = 0 := by
    refine Pattern.commentLength_cons fun _ d member => ?_
    rintro rfl
    exact (ends '/' member).2 (by rw [slash]; rfl)
  have found : Pattern.all[12]? = some ⟨Pattern.operatorLength, fun _ => some .binaryOperator⟩ := rfl
  simp only [List.mem_cons, List.not_mem_nil, or_false] at listed
  rcases listed with rfl | rfl | rfl | rfl | rfl
  · refine Lexeme.first?_append found (fun other member => ?_) rfl (List.cons_ne_nil _ _)
    simp only [Pattern.all, List.take, List.mem_cons, List.not_mem_nil, or_false] at member
    rcases member with rfl | rfl | rfl | rfl | rfl | rfl | rfl | rfl | rfl | rfl | rfl | rfl
    all_goals first | rfl | exact arrow rfl
  · rfl
  · rfl
  · refine Lexeme.first?_append found (fun other member => ?_) rfl (List.cons_ne_nil _ _)
    simp only [Pattern.all, List.take, List.mem_cons, List.not_mem_nil, or_false] at member
    rcases member with rfl | rfl | rfl | rfl | rfl | rfl | rfl | rfl | rfl | rfl | rfl | rfl
    all_goals first | rfl | exact comment rfl
  · rfl

theorem first?_fixed (same : kind.fixedText? = some text) (ends : kind.EndsBefore text rest) :
    Lexeme.first? (text ++ rest) = some (⟨some kind, String.ofList text⟩, rest) := by
  cases kind <;> cases same
  case funcWord => exact first?_word rfl (List.all_eq_true.mp rfl) ends
  case returnWord => exact first?_word rfl (List.all_eq_true.mp rfl) ends
  case ifWord => exact first?_word rfl (List.all_eq_true.mp rfl) ends
  case elseWord => exact first?_word rfl (List.all_eq_true.mp rfl) ends
  all_goals rfl

theorem ne_nil (spelling : Spelling kind text) : text ≠ [] := by
  cases spelling with
  | name _ _ _ => exact List.cons_ne_nil _ _
  | integer nonempty _ => exact nonempty
  | fractional _ _ _ _ => exact List.append_ne_nil_of_right_ne_nil _ (List.cons_ne_nil _ _)
  | operator _ => exact List.cons_ne_nil _ _
  | fixed same =>
      cases kind <;> cases same
      all_goals exact List.cons_ne_nil _ _

/-- A text that tokens are written with is taken whole, as a lexeme of their kind. -/
theorem first?_append (spelling : Spelling kind text) (ends : kind.EndsBefore text rest) :
    Lexeme.first? (text ++ rest) = some (⟨some kind, String.ofList text⟩, rest) := by
  cases spelling with
  | name starts parts free =>
      rw [first?_word starts parts ends, TokenKind.ofWord, free]
      rfl
  | integer nonempty all => exact first?_integer nonempty all ends
  | fractional nonempty all nonempty' all' =>
      exact first?_fractional nonempty all nonempty' all' ends
  | operator listed => exact first?_operator listed ends
  | fixed same => exact first?_fixed same ends

end Spelling

/-! ## Pieces -/

/-- The kind and the text of a token, wherever it stands. -/
structure Piece where
  kind : TokenKind
  text : String
  deriving DecidableEq

def Token.piece (token : Token) : Piece :=
  ⟨token.kind, token.value⟩

def Lexeme.piece? (lexeme : Lexeme) : Option Piece :=
  lexeme.kind?.map fun kind => ⟨kind, lexeme.text⟩

/-- A text of lexemes, of which those with a kind are the given pieces. -/
structure IsCutInto (text : List Char) (pieces : List Piece) : Prop where
  leftover : (Cut.ofText text).leftover = []
  pieces : (Cut.ofText text).lexemes.filterMap Lexeme.piece? = pieces

namespace IsCutInto

variable {text rest : List Char} {pieces : List Piece}

theorem nil : IsCutInto [] [] := by
  constructor <;> rw [Cut.ofText_nil]
  rfl

theorem cons_of_first? {c : Char} {lexeme : Lexeme}
    (found : Lexeme.first? (c :: text) = some (lexeme, rest)) (cut : IsCutInto rest pieces) :
    IsCutInto (c :: text) (lexeme.piece?.toList ++ pieces) := by
  constructor <;> rw [Cut.ofText_cons_of_first? found]
  · exact cut.leftover
  · dsimp only
    rw [List.filterMap_cons, cut.pieces]
    cases lexeme.piece? <;> rfl

theorem spelling_append {kind : TokenKind} (spelling : Spelling kind text)
    (ends : ∀ d ∈ rest.head?, isBlank d = true) (cut : IsCutInto rest pieces) :
    IsCutInto (text ++ rest) (⟨kind, String.ofList text⟩ :: pieces) := by
  have found := spelling.first?_append (.of_isBlank ends)
  obtain ⟨c, more, rfl⟩ := List.exists_cons_of_ne_nil spelling.ne_nil
  exact cons_of_first? found cut

theorem first?_blank {c : Char} (blank : isBlank c = true) :
    Lexeme.first? (c :: text) =
      some (⟨none, String.ofList (c :: text.takeWhile isBlank)⟩, text.dropWhile isBlank) := by
  have all : ∀ d ∈ c :: text.takeWhile isBlank, isBlank d = true := by
    rintro d (_ | ⟨_, member⟩)
    · exact blank
    · exact List.all_eq_true.mp List.all_takeWhile d member
  have stop := stop_of_dropWhile (p := isBlank) text
  have split : c :: text = c :: text.takeWhile isBlank ++ text.dropWhile isBlank := by
    rw [List.cons_append, List.takeWhile_append_dropWhile]
  rw [split]
  refine Lexeme.first?_append (show Pattern.all[0]? = some ⟨_, _⟩ from rfl) nofun ?_
    (List.cons_ne_nil _ _)
  change (List.takeWhile isBlank _).length = _
  rw [takeWhile_append_of_stop all stop]

theorem dropWhile_isBlank (cut : IsCutInto text pieces) :
    IsCutInto (text.dropWhile isBlank) pieces := by
  cases text with
  | nil => exact cut
  | cons c text =>
      cases blank : isBlank c with
      | false => rwa [List.dropWhile_cons_of_neg (by rw [blank]; decide)]
      | true =>
          rw [List.dropWhile_cons_of_pos blank]
          have leftover := cut.leftover
          have pieces := cut.pieces
          rw [Cut.ofText_cons_of_first? (first?_blank blank)] at leftover pieces
          exact ⟨leftover, pieces⟩

/-- A blank in front of a text changes none of its pieces. -/
theorem blank_cons {c : Char} (blank : isBlank c = true) (cut : IsCutInto text pieces) :
    IsCutInto (c :: text) pieces :=
  cons_of_first? (first?_blank blank) cut.dropWhile_isBlank

theorem tokens_foldl_accept (lexemes : List Lexeme) (reader : Reader) :
    (lexemes.foldl Reader.accept reader).tokens.map Token.piece =
      reader.tokens.map Token.piece ++ lexemes.filterMap Lexeme.piece? := by
  induction lexemes generalizing reader with
  | nil => rw [List.foldl_nil, List.filterMap_nil, List.append_nil]
  | cons lexeme lexemes ih =>
      rw [List.foldl_cons, ih, List.filterMap_cons]
      unfold Reader.accept Lexeme.piece?
      cases lexeme.kind? with
      | none => rfl
      | some kind =>
          simp [Reader.skip, Reader.push, Reader.tokens, Token.piece]

/-- A source that is cut into pieces is split into tokens for them and for the end. -/
theorem exists_outcome_tokenize {source : String} (cut : IsCutInto source.toList pieces)
    (file? : Option String) :
    ∃ tokens closing, (tokenize source file?).outcome = .ok (tokens ++ [closing]) ∧
      tokens.map Token.piece = pieces ∧ closing.kind = .endOfInput := by
  obtain ⟨reader, final⟩ : ∃ reader, (Cut.ofText source.toList).lexemes.foldl Reader.accept
      (.ofSource source file?) = reader := ⟨_, rfl⟩
  have found := tokens_foldl_accept (Cut.ofText source.toList).lexemes (.ofSource source file?)
  rw [final, cut.pieces] at found
  refine ⟨reader.tokens, .endOfInput (reader.spanOf 0), ?_, found, rfl⟩
  unfold tokenize
  dsimp only
  rw [cut.leftover, final, Reader.close, Reader.tokens_push]

end IsCutInto

/-! ## Spaced pieces -/

namespace Piece

def IsSpelled (piece : Piece) : Prop :=
  Spelling piece.kind piece.text.toList

/-- The texts of pieces with single spaces in between. -/
def spaced (pieces : List Piece) : String :=
  " ".intercalate (pieces.map Piece.text)

theorem isCutInto_spaced {pieces : List Piece} (spelled : ∀ piece ∈ pieces, piece.IsSpelled) :
    IsCutInto (spaced pieces).toList pieces := by
  rw [spaced, String.toList_intercalate, List.map_map]
  induction pieces with
  | nil => exact .nil
  | cons piece pieces ih =>
      obtain ⟨first, others⟩ := List.forall_mem_cons.mp spelled
      cases pieces with
      | nil =>
          have ends : ∀ d ∈ ([] : List Char).head?, isBlank d = true := nofun
          have cut := IsCutInto.spelling_append first ends .nil
          rw [String.ofList_toList, List.append_nil] at cut
          simpa using cut
      | cons next pieces =>
          have ends : ∀ later : List Char, ∀ d ∈ (' ' :: later).head?, isBlank d = true := by
            rintro later d ⟨⟩
            rfl
          have cut := IsCutInto.spelling_append first (ends _) (.blank_cons rfl (ih others))
          rw [String.ofList_toList] at cut
          simpa using cut

end Piece

end ExprLang
