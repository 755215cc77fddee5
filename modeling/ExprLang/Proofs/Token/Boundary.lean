import ExprLang.Proofs.Token.Shapes

/-!
# Boundaries of tokens

A token that is taken from a source is over where it ends: nothing of the rest of
the source could be part of it. So a text is taken as one token in front of a rest
exactly if it is written as such tokens are and the rest does not go on with it.
-/

namespace ExprLang

open Text

/-! ## Characters that tokens start with -/

/-- Whether a token can start with the character. -/
def startsToken (c : Char) : Bool :=
  Pattern.isWordPart c ||
    ['(', ')', '\x7b', '\x7d', ',', ':', '+', '*', '/', '<', '-'].contains c

theorem startsToken_of_isWordPart {c : Char} (part : Pattern.isWordPart c = true) :
    startsToken c = true := by
  rw [startsToken, part, Bool.true_or]

theorem Spelling.startsToken_of_head? {kind : TokenKind} {text : List Char}
    (spelling : Spelling kind text) : ∀ c ∈ text.head?, startsToken c = true := by
  have digit {c : Char} (digit : c.isDigit = true) : startsToken c = true :=
    startsToken_of_isWordPart (Pattern.isWordPart_of_isDigit digit)
  cases spelling with
  | name starts _ _ =>
      rintro c ⟨⟩
      exact startsToken_of_isWordPart (Pattern.isWordPart_of_isWordStart starts)
  | integer _ all =>
      intro c member
      exact digit (all c (List.mem_of_mem_head? member))
  | @fractional digits fraction nonempty all _ _ =>
      intro c member
      rw [List.head?_append_of_ne_nil digits nonempty] at member
      exact digit (all c (List.mem_of_mem_head? member))
  | operator listed =>
      rintro c ⟨⟩
      simp only [List.mem_cons, List.not_mem_nil, or_false] at listed
      rcases listed with rfl | rfl | rfl | rfl | rfl <;> rfl
  | fixed same =>
      rintro c member
      cases kind <;> cases same
      all_goals
        cases member
        rfl

/-! ## Ends of lexemes -/

/-- A comment is taken up to the end of its line. -/
theorem Lexeme.first?_comment {line rest : List Char} (unbroken : '\n' ∉ line)
    (ended : ∀ c ∈ rest.head?, c = '\n') :
    first? ('/' :: '/' :: line ++ rest) =
      some (⟨none, String.ofList ('/' :: '/' :: line)⟩, rest) := by
  have inside : ∀ c ∈ line, (c != '\n') = true := by
    intro c member
    rw [bne_iff_ne]
    rintro rfl
    exact unbroken member
  have stop : ∀ c ∈ rest.head?, (c != '\n') = false := by
    intro c member
    rw [ended c member]
    rfl
  refine first?_append (show Pattern.all[1]? = some ⟨_, _⟩ from rfl) ?_ ?_ (List.cons_ne_nil _ _)
  · exact List.forall_mem_singleton.mpr (Pattern.blankLength_cons rfl)
  · change 2 + ((line ++ rest).takeWhile (· != '\n')).length = _
    rw [takeWhile_append_of_stop inside stop, List.length_cons, List.length_cons, Nat.add_comm]

namespace Pattern

theorem startsFraction_eq_true_iff {text : List Char} :
    startsFraction text = true ↔ ∃ d more, text = '.' :: d :: more ∧ d.isDigit = true := by
  constructor
  · intro starts
    unfold startsFraction at starts
    split at starts
    · exact ⟨_, _, rfl, starts⟩
    · cases starts
  · rintro ⟨d, more, rfl, digit⟩
    exact digit

/-- When what is left after a run is all of the rest, the rest does not go on with the run. -/
theorem stop_of_dropWhile_eq {p : Char → Bool} {rest : List Char} (same : rest = rest.dropWhile p) :
    ∀ c ∈ rest.head?, p c = false := by
  rw [same]
  exact stop_of_dropWhile rest

end Pattern

namespace Spelling

variable {kind : TokenKind} {text rest : List Char} {lexeme : Lexeme}

theorem rest_unique {later : List Char} {other : Lexeme}
    (found : Lexeme.first? text = some (lexeme, rest))
    (again : Lexeme.first? text = some (other, later)) : rest = later := by
  rw [found] at again
  exact (Prod.mk.inj (Option.some.inj again)).2

theorem not_first?_of_shorter {later : List Char} {other : Lexeme}
    (found : Lexeme.first? text = some (lexeme, rest)) (shorter : later.length < rest.length) :
    Lexeme.first? text ≠ some (other, later) := by
  intro again
  rw [rest_unique found again] at shorter
  exact Nat.lt_irrefl _ shorter

/-- A word takes all parts of words that follow. -/
theorem word_stop {c : Char} (starts : Pattern.isWordStart c = true)
    (parts : ∀ d ∈ text, Pattern.isWordPart d = true)
    (found : Lexeme.first? (c :: text ++ rest) = some (lexeme, rest)) :
    ∀ d ∈ rest.head?, Pattern.isWordPart d = false := by
  have all : ∀ d ∈ text ++ rest.takeWhile Pattern.isWordPart, Pattern.isWordPart d = true :=
    List.forall_mem_append.mpr ⟨parts, List.all_eq_true.mp List.all_takeWhile⟩
  have longer := first?_word starts all (stop_of_dropWhile rest)
  rw [← List.cons_append, List.append_assoc, List.takeWhile_append_dropWhile] at longer
  exact Pattern.stop_of_dropWhile_eq (rest_unique found longer)

theorem integer_endsBefore (nonempty : text ≠ []) (all : ∀ digit ∈ text, digit.isDigit = true)
    (found : Lexeme.first? (text ++ rest) = some (lexeme, rest)) :
    TokenKind.integerLiteral.EndsBefore text rest := by
  have all' : ∀ digit ∈ text ++ rest.takeWhile Char.isDigit, digit.isDigit = true :=
    List.forall_mem_append.mpr ⟨all, List.all_eq_true.mp List.all_takeWhile⟩
  have nonempty' : text ++ rest.takeWhile Char.isDigit ≠ [] :=
    List.append_ne_nil_of_left_ne_nil nonempty _
  have split := List.takeWhile_append_dropWhile (p := Char.isDigit) (l := rest)
  cases fraction : Pattern.startsFraction (rest.dropWhile Char.isDigit) with
  | false =>
      have longer := first?_integer nonempty' all' ⟨stop_of_dropWhile rest, fraction⟩
      rw [List.append_assoc, split] at longer
      have same := rest_unique found longer
      rw [← same] at fraction
      exact ⟨Pattern.stop_of_dropWhile_eq same, fraction⟩
  | true =>
      -- a fraction would have been taken together with the digits before its point
      obtain ⟨d, more, point, digit⟩ := Pattern.startsFraction_eq_true_iff.mp fraction
      have all'' : ∀ digit ∈ d :: more.takeWhile Char.isDigit, digit.isDigit = true :=
        List.forall_mem_cons.mpr ⟨digit, List.all_eq_true.mp List.all_takeWhile⟩
      have longer := first?_fractional nonempty' all' (List.cons_ne_nil _ _) all''
        (stop_of_dropWhile more)
      simp only [List.append_assoc, List.cons_append, List.takeWhile_append_dropWhile] at longer
      rw [← point, split] at longer
      refine absurd longer (not_first?_of_shorter found ?_)
      have lengths := congrArg List.length split
      have fewer := (List.dropWhile_suffix (l := more) Char.isDigit).length_le
      rw [point, List.length_append, List.length_cons, List.length_cons] at lengths
      omega

theorem fractional_stop {digits fraction : List Char} (nonempty : digits ≠ [])
    (all : ∀ digit ∈ digits, digit.isDigit = true) (nonempty' : fraction ≠ [])
    (all' : ∀ digit ∈ fraction, digit.isDigit = true)
    (found : Lexeme.first? (digits ++ '.' :: fraction ++ rest) = some (lexeme, rest)) :
    ∀ c ∈ rest.head?, c.isDigit = false := by
  have all'' : ∀ digit ∈ fraction ++ rest.takeWhile Char.isDigit, digit.isDigit = true :=
    List.forall_mem_append.mpr ⟨all', List.all_eq_true.mp List.all_takeWhile⟩
  have longer := first?_fractional nonempty all
    (List.append_ne_nil_of_left_ne_nil nonempty' _) all'' (stop_of_dropWhile rest)
  rw [← List.cons_append, ← List.append_assoc, List.append_assoc (digits ++ _),
    List.takeWhile_append_dropWhile] at longer
  exact Pattern.stop_of_dropWhile_eq (rest_unique found longer)

theorem operator_endsBefore {sign : Char}
    (found : Lexeme.first? ([sign] ++ rest) = some (lexeme, rest)) :
    TokenKind.binaryOperator.EndsBefore [sign] rest := by
  intro c first
  obtain ⟨more, rfl⟩ := List.head?_eq_some_iff.mp first
  constructor
  · rintro ⟨⟩
    have arrow : Lexeme.first? ('-' :: '>' :: more) = some (⟨some .arrow, "->"⟩, more) := rfl
    exact not_first?_of_shorter found (Nat.lt_succ_self _) arrow
  · rintro ⟨⟩
    have unbroken : '\n' ∉ more.takeWhile (· != '\n') := fun member => by
      simpa using List.all_eq_true.mp List.all_takeWhile _ member
    have ended : ∀ c ∈ (more.dropWhile (· != '\n')).head?, c = '\n' := fun c first => by
      simpa using stop_of_dropWhile (p := (· != '\n')) more c first
    have comment := Lexeme.first?_comment unbroken ended
    rw [List.cons_append, List.cons_append, List.takeWhile_append_dropWhile] at comment
    have fewer := (List.dropWhile_suffix (l := more) (· != '\n')).length_le
    exact not_first?_of_shorter found (Nat.lt_succ_of_le fewer) comment

/-- A token that is taken from a source is over where it ends. -/
theorem endsBefore_of_first? (spelling : Spelling kind text)
    (found : Lexeme.first? (text ++ rest) = some (lexeme, rest)) : kind.EndsBefore text rest := by
  cases spelling with
  | name starts parts _ => exact word_stop starts parts found
  | integer nonempty all => exact integer_endsBefore nonempty all found
  | fractional nonempty all nonempty' all' => exact fractional_stop nonempty all nonempty' all' found
  | operator _ => exact operator_endsBefore found
  | fixed same =>
      cases kind <;> cases same
      case fixed.funcWord.refl => exact word_stop rfl (List.all_eq_true.mp rfl) found
      case fixed.returnWord.refl => exact word_stop rfl (List.all_eq_true.mp rfl) found
      case fixed.ifWord.refl => exact word_stop rfl (List.all_eq_true.mp rfl) found
      case fixed.elseWord.refl => exact word_stop rfl (List.all_eq_true.mp rfl) found
      all_goals trivial

end Spelling

/-! ## Characters that start no lexeme -/

theorem Pattern.length_eq_zero {text : List Char} (stuck : Lexeme.first? text = none) :
    ∀ pattern ∈ all, pattern.length text = 0 := by
  intro pattern member
  have missed := List.findSome?_eq_none_iff.mp stuck pattern member
  by_contra taken
  rw [take?, if_neg taken] at missed
  cases missed

namespace Lexeme

variable {c : Char} {rest : List Char}

theorem isBlank_of_first?_eq_none (stuck : first? (c :: rest) = none) : isBlank c = false := by
  refine Bool.eq_false_iff.mpr fun blank => ?_
  rw [IsCutInto.first?_blank blank] at stuck
  cases stuck

theorem startsToken_of_first?_eq_none (stuck : first? (c :: rest) = none) : startsToken c = false := by
  have missed := Pattern.length_eq_zero stuck
  refine Bool.eq_false_iff.mpr fun starts => ?_
  rw [startsToken, Pattern.isWordPart_eq, Bool.or_eq_true, Bool.or_eq_true] at starts
  rcases starts with (starts | digit) | mark
  · have none := missed Pattern.all[2] (by simp [Pattern.all])
    change Pattern.wordLength (c :: rest) = 0 at none
    rw [Pattern.wordLength, if_pos starts] at none
    omega
  · have none := missed Pattern.all[4] (by simp [Pattern.all])
    change (List.takeWhile Char.isDigit (c :: rest)).length = 0 at none
    rw [List.takeWhile_cons_of_pos digit] at none
    cases none
  · have sign : ¬ (Pattern.operatorLength (c :: rest) = 1) := by
      intro one
      have none := missed Pattern.all[12] (by simp [Pattern.all])
      rw [show Pattern.all[12].length = Pattern.operatorLength from rfl, one] at none
      cases none
    simp only [List.contains_iff_mem, List.mem_cons, List.not_mem_nil, or_false] at mark
    rcases mark with rfl | rfl | rfl | rfl | rfl | rfl | rfl | rfl | rfl | rfl | rfl
    all_goals first | exact sign rfl | cases stuck

/-- No lexeme starts with a character exactly if it is no blank and no token starts with it. -/
theorem first?_eq_none_iff :
    first? (c :: rest) = none ↔ isBlank c = false ∧ startsToken c = false := by
  constructor
  · exact fun stuck => ⟨isBlank_of_first?_eq_none stuck, startsToken_of_first?_eq_none stuck⟩
  · rintro ⟨dark, foreign⟩
    by_contra taken
    obtain ⟨⟨lexeme, later⟩, found⟩ := Option.ne_none_iff_exists'.mp taken
    obtain ⟨shape, fits⟩ := fits_of_first? found
    have first (text : List Char) (nonempty : text ≠ [])
        (shape : c :: rest = (String.ofList text).toList ++ later) : c ∈ text.head? := by
      rw [String.toList_ofList] at shape
      rw [← List.head?_append_of_ne_nil text nonempty, ← shape]
      rfl
    cases fits with
    | @token _ text _ spelled =>
        have starts := spelled.startsToken_of_head? c (first text spelled.ne_nil shape)
        rw [foreign] at starts
        cases starts
    | @gap text _ separates =>
        cases separates with
        | blanks nonempty all =>
            have blank := all c (List.mem_of_mem_head? (first text nonempty shape))
            rw [dark] at blank
            cases blank
        | comment _ _ =>
            cases first _ (List.cons_ne_nil _ _) shape
            cases foreign

/-- Whether any lexeme starts with a character does not depend on what comes after it. -/
theorem first?_cons_eq_none (stuck : first? (c :: rest) = none) (rest' : List Char) :
    first? (c :: rest') = none :=
  first?_eq_none_iff.mpr (first?_eq_none_iff.mp stuck)

end Lexeme

end ExprLang
