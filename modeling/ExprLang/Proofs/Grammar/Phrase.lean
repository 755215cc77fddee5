import ExprLang.Parser.Program
import Mathlib.Data.List.Basic

/-!
# Phrases

The grammar of the language, over lists of tokens. A phrase of a form is a list
of tokens together with its value and the token that comes next, on which three
rules depend: a name that is called is no variable, a `return` takes a value if
one can start there, and that value extends as far as operators follow. The
levels of a phrase bound how deeply its expressions are nested.
-/

namespace ExprLang

/-! ## Tokens -/

namespace Operator

def IsAdditive (operator : Operator) : Prop :=
  operator = .addition ∨ operator = .subtraction

def IsMultiplicative (operator : Operator) : Prop :=
  operator = .multiplication ∨ operator = .division

end Operator

namespace Token

/-- Whether a token asks for an operand after it, as an operator of the grammar or a parenthesis. -/
def AsksForOperand (token : Token) : Prop :=
  token.kind = .leftParen ∨
    ∃ operator, token.operator? = some operator ∧
      (operator.IsAdditive ∨ operator.IsMultiplicative)

/-- Whether a token can begin an expression. -/
def Starts (token : Token) : Prop :=
  Parser.Rule.startsExpression token.kind = true

/-- Whether a phrase that ends with the first token is also one before the second. -/
structure Precedes (last next : Token) : Prop where
  noOperator : next.operator? = none
  uncalled : last.kind = .identifier → next.kind ≠ .leftParen
  valueless : last.kind = .returnWord → ¬ next.Starts

/-- The tokens that end whatever comes before them. -/
def Closes (token : Token) : Prop :=
  token.kind = .rightParen ∨ token.kind = .rightBrace ∨ token.kind = .endOfInput

theorem operator?_of_kind_ne {token : Token} (kind : token.kind ≠ .binaryOperator) :
    token.operator? = none :=
  if_neg kind

theorem kind_of_operator? {token : Token} {operator : Operator}
    (denoted : token.operator? = some operator) : token.kind = .binaryOperator := by
  by_cases kind : token.kind = .binaryOperator
  · exact kind
  · rw [operator?_of_kind_ne kind] at denoted
    cases denoted

/-- Whether a token denotes no operator or one that binds less tightly than the bound. -/
def BindsBelow (token : Token) (bound : Int) : Prop :=
  ∃ precedence, token.precedence = .ok precedence ∧ precedence < bound

theorem precedence_of_none {token : Token} (other : token.operator? = none) :
    token.precedence = .ok (-1) := by
  rw [precedence, other]

theorem bindsBelow_of_none {token : Token} {bound : Int} (other : token.operator? = none)
    (least : 0 ≤ bound) : token.BindsBelow bound :=
  ⟨-1, precedence_of_none other, by omega⟩

theorem precedence_of_additive {token : Token} {operator : Operator}
    (denoted : token.operator? = some operator) (additive : operator.IsAdditive) :
    token.precedence = .ok 20 := by
  rw [precedence, denoted]
  rcases additive with rfl | rfl <;> rfl

theorem precedence_of_multiplicative {token : Token} {operator : Operator}
    (denoted : token.operator? = some operator) (multiplicative : operator.IsMultiplicative) :
    token.precedence = .ok 40 := by
  rw [precedence, denoted]
  rcases multiplicative with rfl | rfl <;> rfl

/-- No factor follows before a token that binds less tightly than the products. -/
theorem BindsBelow.not_isMultiplicative {token : Token} {operator : Operator}
    (loose : token.BindsBelow 21) (denoted : token.operator? = some operator) :
    ¬ operator.IsMultiplicative := by
  intro multiplicative
  obtain ⟨precedence, found, lower⟩ := loose
  rw [precedence_of_multiplicative denoted multiplicative] at found
  cases found
  exact absurd lower (by decide)

theorem Starts.operator? {token : Token} (starts : token.Starts) : token.operator? = none := by
  refine operator?_of_kind_ne fun kind => ?_
  rw [Starts, kind] at starts
  cases starts

theorem Closes.noOperator {token : Token} (closes : token.Closes) : token.operator? = none := by
  apply operator?_of_kind_ne
  obtain kind | kind | kind := closes <;> rw [kind] <;> decide

theorem Closes.noStart {token : Token} (closes : token.Closes) : ¬ token.Starts := by
  intro starts
  obtain kind | kind | kind := closes <;> rw [Starts, kind] at starts <;> cases starts

theorem Starts.of_leftParen {token : Token} (opened : token.kind = .leftParen) : token.Starts := by
  rw [Starts, opened]
  rfl

theorem Closes.precedes {next : Token} (closes : next.Closes) (last : Token) :
    last.Precedes next := by
  constructor
  · exact closes.noOperator
  · exact fun _ opened => closes.noStart (.of_leftParen opened)
  · exact fun _ => closes.noStart

end Token

/-! ## The grammar -/

/-- The forms of phrases. -/
inductive Form where
  | primary
  | product
  | sum
  | expression
  | definition
  | arguments

/-- What a phrase of a form stands for. -/
@[reducible]
def Form.Value : Form → Type
  | .arguments => List (String × Node)
  | _ => Node

/-- A comma that may be left out. -/
inductive OptionalComma : List Token → Prop where
  | absent : OptionalComma []
  | present (token : Token) (comma : token.kind = .comma) : OptionalComma [token]

/-- The parameters in the parentheses of a definition. -/
inductive Parameters : List Token → List Parameter → Prop where
  | nil : Parameters [] []
  | cons {label colon type : Token} {comma rest : List Token} {parameters : List Parameter}
      (labelled : label.kind = .identifier) (separated : colon.kind = .colon)
      (typed : type.kind = .identifier) (ended : OptionalComma comma)
      (others : Parameters rest parameters) :
      Parameters (label :: colon :: type :: (comma ++ rest))
        (⟨label.value, label.value, type.value⟩ :: parameters)

theorem OptionalComma.kind_ne_endOfInput {comma : List Token} (optional : OptionalComma comma) :
    ∀ token ∈ comma, token.kind ≠ .endOfInput := by
  cases optional with
  | absent => simp
  | present token kind => simp [kind]

theorem Parameters.kind_ne_endOfInput {tokens : List Token} {parameters : List Parameter}
    (taken : Parameters tokens parameters) : ∀ token ∈ tokens, token.kind ≠ .endOfInput := by
  induction taken with
  | nil => simp
  | cons labelled separated typed ended _ ih =>
      simpa [or_imp, forall_and, labelled, separated, typed]
        using ⟨ended.kind_ne_endOfInput, ih⟩

/-- The phrases of each form with at most so many levels of expressions before a next token. -/
inductive Phrase : Nat → (form : Form) → List Token → Token → form.Value → Prop where
  | number {levels : Nat} {token next : Token} {value : Binary64} (number : token.isNumber = true)
      (reads : Binary64.read? token.value = some value) :
      Phrase levels .primary [token] next (.number value)
  | name {levels : Nat} {token next : Token} (named : token.kind = .identifier)
      (uncalled : next.kind ≠ .leftParen) :
      Phrase levels .primary [token] next (.variable token.value)
  | call {levels : Nat} {name opening closing next : Token} {inside : List Token}
      {arguments : List (String × Node)} (named : name.kind = .identifier)
      (opened : opening.kind = .leftParen) (closed : closing.kind = .rightParen)
      (given : Phrase levels .arguments inside closing arguments) :
      Phrase levels .primary (name :: opening :: (inside ++ [closing])) next
        (.call name.value arguments)
  | parenthesised {levels : Nat} {opening closing next : Token} {inside : List Token} {node : Node}
      (opened : opening.kind = .leftParen) (closed : closing.kind = .rightParen)
      (inner : Phrase levels .expression inside closing node) :
      Phrase levels .primary (opening :: (inside ++ [closing])) next node
  | defined {levels : Nat} {tokens : List Token} {next : Token} {node : Node}
      (definition : Phrase levels .definition tokens next node) :
      Phrase levels .primary tokens next node
  | returning {levels : Nat} {word next : Token} {inside : List Token} {value : Node}
      (returned : word.kind = .returnWord) (inner : Phrase levels .expression inside next value)
      (complete : next.operator? = none) :
      Phrase levels .primary (word :: inside) next (.returning value)
  | bareReturn {levels : Nat} {word next : Token} (returned : word.kind = .returnWord)
      (valueless : ¬ next.Starts) :
      Phrase levels .primary [word] next .bareReturn
  | factor {levels : Nat} {tokens : List Token} {next : Token} {node : Node}
      (primary : Phrase levels .primary tokens next node) :
      Phrase levels .product tokens next node
  | multiplied {levels : Nat} {left right : List Token} {sign next : Token} {operator : Operator}
      {lhs rhs : Node} (product : Phrase levels .product left sign lhs)
      (denoted : sign.operator? = some operator) (binds : operator.IsMultiplicative)
      (primary : Phrase levels .primary right next rhs) :
      Phrase levels .product (left ++ sign :: right) next (.binary operator lhs rhs)
  | term {levels : Nat} {tokens : List Token} {next : Token} {node : Node}
      (product : Phrase levels .product tokens next node) :
      Phrase levels .sum tokens next node
  | added {levels : Nat} {left right : List Token} {sign next : Token} {operator : Operator}
      {lhs rhs : Node} (sum : Phrase levels .sum left sign lhs)
      (denoted : sign.operator? = some operator) (binds : operator.IsAdditive)
      (product : Phrase levels .product right next rhs) :
      Phrase levels .sum (left ++ sign :: right) next (.binary operator lhs rhs)
  | nested {levels : Nat} {tokens : List Token} {next : Token} {node : Node}
      (sum : Phrase levels .sum tokens next node) :
      Phrase (levels + 1) .expression tokens next node
  | function {levels : Nat} {word name opening closing arrow type left right next : Token}
      {header inside : List Token} {parameters : List Parameter} {body : Node}
      (defines : word.kind = .funcWord) (named : name.kind = .identifier)
      (opened : opening.kind = .leftParen) (taken : Parameters header parameters)
      (closed : closing.kind = .rightParen) (pointed : arrow.kind = .arrow)
      (typed : type.kind = .identifier) (entered : left.kind = .leftBrace)
      (inner : Phrase levels .expression inside right body) (exited : right.kind = .rightBrace) :
      Phrase levels .definition
        (word :: name :: opening ::
          (header ++ closing :: arrow :: type :: left :: (inside ++ [right]))) next
        (.function name.value parameters (.ofName type.value) body)
  | noArguments {levels : Nat} {next : Token} : Phrase levels .arguments [] next []
  | argument {levels : Nat} {label colon next : Token} {comma inside rest : List Token}
      {value : Node} {arguments : List (String × Node)} (separated : OptionalComma comma)
      (labelled : label.kind = .identifier) (followed : colon.kind = .colon)
      (given : Phrase levels .expression inside (rest.headD next) value)
      (others : Phrase levels .arguments rest next arguments) :
      Phrase levels .arguments (comma ++ label :: colon :: (inside ++ rest)) next
        ((label.value, value) :: arguments)

/--
A program is a sequence of definitions and of other expressions, each of which
becomes the body of an entry point. The next token ends the program.
-/
inductive Items (levels : Nat) : List Token → Token → List Node → Prop where
  | nil {next : Token} : Items levels [] next []
  | definition {tokens rest : List Token} {next : Token} {node : Node} {nodes : List Node}
      (first : Phrase levels .definition tokens (rest.headD next) node)
      (others : Items levels rest next nodes) : Items levels (tokens ++ rest) next (node :: nodes)
  | expression {tokens rest : List Token} {next : Token} {body : Node} {nodes : List Node}
      (first : Phrase levels .expression tokens (rest.headD next) body)
      (plain : ∀ word ∈ tokens.head?, word.kind ≠ .funcWord)
      (others : Items levels rest next nodes) :
      Items levels (tokens ++ rest) next (.entryPoint body :: nodes)

/-- The tokens are a program with the given items. -/
def IsProgram (tokens : List Token) (closing : Token) (nodes : List Node) : Prop :=
  ∃ levels, Items levels tokens closing nodes

/-! ## Shape of phrases -/

namespace Phrase

variable {levels : Nat} {form : Form} {tokens : List Token} {next : Token} {value : form.Value}

/-- Every phrase but an empty list of arguments has a first token, and it can begin an expression. -/
theorem exists_first (phrase : Phrase levels form tokens next value) (form_ne : form ≠ .arguments) :
    ∃ first rest, tokens = first :: rest ∧ first.Starts := by
  induction phrase with
  | number number _ =>
      refine ⟨_, _, rfl, ?_⟩
      simp only [Token.isNumber, Bool.or_eq_true, decide_eq_true_eq] at number
      rcases number with kind | kind <;> rw [Token.Starts, kind] <;> rfl
  | name named _ => exact ⟨_, _, rfl, by rw [Token.Starts, named]; rfl⟩
  | call named _ _ _ _ => exact ⟨_, _, rfl, by rw [Token.Starts, named]; rfl⟩
  | parenthesised opened _ _ _ => exact ⟨_, _, rfl, by rw [Token.Starts, opened]; rfl⟩
  | defined _ ih => exact ih nofun
  | returning returned _ _ _ => exact ⟨_, _, rfl, by rw [Token.Starts, returned]; rfl⟩
  | bareReturn returned _ => exact ⟨_, _, rfl, by rw [Token.Starts, returned]; rfl⟩
  | factor _ ih => exact ih nofun
  | multiplied _ _ _ _ ih _ =>
      obtain ⟨first, rest, rfl, starts⟩ := ih nofun
      exact ⟨first, _, rfl, starts⟩
  | term _ ih => exact ih nofun
  | added _ _ _ _ ih _ =>
      obtain ⟨first, rest, rfl, starts⟩ := ih nofun
      exact ⟨first, _, rfl, starts⟩
  | nested _ ih => exact ih nofun
  | function defines _ _ _ _ _ _ _ _ _ _ => exact ⟨_, _, rfl, by rw [Token.Starts, defines]; rfl⟩
  | noArguments => exact absurd rfl form_ne
  | argument _ _ _ _ _ _ _ => exact absurd rfl form_ne

theorem ne_nil (phrase : Phrase levels form tokens next value) (form_ne : form ≠ .arguments) :
    tokens ≠ [] := by
  obtain ⟨first, rest, rfl, _⟩ := phrase.exists_first form_ne
  exact List.cons_ne_nil first rest

/-- A phrase stays one when more levels are allowed. -/
theorem deepen {levels' : Nat} (phrase : Phrase levels form tokens next value)
    (deeper : levels ≤ levels') : Phrase levels' form tokens next value := by
  induction phrase generalizing levels' with
  | number number reads => exact .number number reads
  | name named uncalled => exact .name named uncalled
  | call named opened closed _ ih => exact .call named opened closed (ih deeper)
  | parenthesised opened closed _ ih => exact .parenthesised opened closed (ih deeper)
  | defined _ ih => exact .defined (ih deeper)
  | returning returned _ complete ih => exact .returning returned (ih deeper) complete
  | bareReturn returned valueless => exact .bareReturn returned valueless
  | factor _ ih => exact .factor (ih deeper)
  | multiplied _ denoted binds _ left right =>
      exact .multiplied (left deeper) denoted binds (right deeper)
  | term _ ih => exact .term (ih deeper)
  | added _ denoted binds _ left right => exact .added (left deeper) denoted binds (right deeper)
  | nested _ ih =>
      obtain ⟨levels', rfl⟩ := Nat.exists_eq_add_of_le' deeper
      exact .nested (ih (Nat.le_add_left _ _))
  | function defines named opened taken closed pointed typed entered _ exited ih =>
      exact .function defines named opened taken closed pointed typed entered (ih deeper) exited
  | noArguments => exact .noArguments
  | argument separated labelled followed _ _ given others =>
      exact .argument separated labelled followed (given deeper) (others deeper)

/--
A phrase needs no more levels than it has tokens, and one level less unless it
is an expression.
-/
theorem levels_of_length (phrase : Phrase levels form tokens next value) :
    Phrase (match form with | .expression => tokens.length | _ => tokens.length - 1)
      form tokens next value := by
  induction phrase with
  | number number reads => exact .number number reads
  | name named uncalled => exact .name named uncalled
  | call named opened closed _ ih =>
      exact .call named opened closed (ih.deepen (by simp; omega))
  | parenthesised opened closed _ ih =>
      exact .parenthesised opened closed (ih.deepen (by simp))
  | defined _ ih => exact .defined ih
  | returning returned _ complete ih => exact .returning returned ih complete
  | bareReturn returned valueless => exact .bareReturn returned valueless
  | factor _ ih => exact .factor ih
  | multiplied _ denoted binds _ left right =>
      exact .multiplied (left.deepen (by simp; omega)) denoted binds (right.deepen (by simp; omega))
  | term _ ih => exact .term ih
  | added _ denoted binds _ left right =>
      exact .added (left.deepen (by simp; omega)) denoted binds (right.deepen (by simp; omega))
  | nested sum ih =>
      have positive := List.length_pos_of_ne_nil (sum.ne_nil nofun)
      have whole := Phrase.nested ih
      rwa [Nat.sub_add_cancel positive] at whole
  | function defines named opened taken closed pointed typed entered _ exited ih =>
      exact .function defines named opened taken closed pointed typed entered
        (ih.deepen (by simp; omega)) exited
  | noArguments => exact .noArguments
  | argument separated labelled followed _ _ given others =>
      exact .argument separated labelled followed (given.deepen (by simp; omega))
        (others.deepen (by simp; omega))

/-- The end of the input belongs to no phrase. -/
theorem kind_ne_endOfInput (phrase : Phrase levels form tokens next value) :
    ∀ token ∈ tokens, token.kind ≠ .endOfInput := by
  induction phrase with
  | number number _ =>
      simp only [Token.isNumber, Bool.or_eq_true, decide_eq_true_eq] at number
      rcases number with kind | kind <;> simp [kind]
  | name named _ => simp [named]
  | call named opened closed _ ih =>
      simpa [or_imp, forall_and, named, opened, closed] using ih
  | parenthesised opened closed _ ih => simpa [or_imp, forall_and, opened, closed] using ih
  | defined _ ih => exact ih
  | returning returned _ _ ih => simpa [returned] using ih
  | bareReturn returned _ => simp [returned]
  | factor _ ih => exact ih
  | multiplied _ denoted _ _ left right =>
      simpa [or_imp, forall_and, Token.kind_of_operator? denoted] using ⟨left, right⟩
  | term _ ih => exact ih
  | added _ denoted _ _ left right =>
      simpa [or_imp, forall_and, Token.kind_of_operator? denoted] using ⟨left, right⟩
  | nested _ ih => exact ih
  | function defines named opened taken closed pointed typed entered _ exited ih =>
      simpa [or_imp, forall_and, defines, named, opened, closed, pointed, typed, entered, exited]
        using ⟨taken.kind_ne_endOfInput, ih⟩
  | noArguments => simp
  | argument separated labelled followed _ _ given others =>
      simpa [or_imp, forall_and, labelled, followed]
        using ⟨separated.kind_ne_endOfInput, given, others⟩

/-- No phrase ends with a token that asks for an operand. -/
theorem not_asksForOperand (phrase : Phrase levels form tokens next value) :
    ∀ last ∈ tokens.getLast?, ¬ last.AsksForOperand := by
  induction phrase with
  | number number _ =>
      simp only [Token.isNumber, Bool.or_eq_true, decide_eq_true_eq] at number
      rcases number with kind | kind <;>
        simp [Token.AsksForOperand, Token.operator?_of_kind_ne, kind]
  | name named _ => simp [Token.AsksForOperand, Token.operator?_of_kind_ne, named]
  | call _ _ closed _ _ =>
      simp [Token.AsksForOperand, Token.operator?_of_kind_ne, closed, List.getLast?_cons]
  | parenthesised _ closed _ _ =>
      simp [Token.AsksForOperand, Token.operator?_of_kind_ne, closed, List.getLast?_cons]
  | defined _ ih => exact ih
  | returning _ inner _ ih => rwa [List.getLast?_cons_of_ne_nil (inner.ne_nil nofun)]
  | bareReturn returned _ => simp [Token.AsksForOperand, Token.operator?_of_kind_ne, returned]
  | factor _ ih => exact ih
  | multiplied _ _ _ primary _ ih =>
      rwa [List.getLast?_append_cons, List.getLast?_cons_of_ne_nil (primary.ne_nil nofun)]
  | term _ ih => exact ih
  | added _ _ _ product _ ih =>
      rwa [List.getLast?_append_cons, List.getLast?_cons_of_ne_nil (product.ne_nil nofun)]
  | nested _ ih => exact ih
  | function _ _ _ _ _ _ _ _ _ exited _ =>
      simp [Token.AsksForOperand, Token.operator?_of_kind_ne, exited, List.getLast?_cons]
  | noArguments => simp
  | @argument _ _ _ _ _ inside rest _ _ _ _ _ inner _ given others =>
      rw [List.getLast?_append_cons, List.getLast?_cons_cons,
        List.getLast?_cons_of_ne_nil (List.append_ne_nil_of_left_ne_nil (inner.ne_nil nofun) _)]
      cases rest with
      | nil => rwa [List.append_nil]
      | cons first rest => rwa [List.getLast?_append_cons]

/-- The next token may be replaced by any other one that the last token may precede. -/
theorem before {next' : Token} (phrase : Phrase levels form tokens next value)
    (precedes : ∀ last ∈ tokens.getLast?, last.Precedes next') :
    Phrase levels form tokens next' value := by
  induction phrase with
  | number number reads => exact .number number reads
  | name named _ => exact .name named ((precedes _ rfl).uncalled named)
  | call named opened closed given _ => exact .call named opened closed given
  | parenthesised opened closed inner _ => exact .parenthesised opened closed inner
  | defined _ ih => exact .defined (ih precedes)
  | returning returned inner _ ih =>
      have nonempty := inner.ne_nil nofun
      rw [List.getLast?_cons_of_ne_nil nonempty] at precedes
      have last := List.getLast?_eq_some_getLast nonempty
      exact .returning returned (ih precedes) (precedes _ last).noOperator
  | bareReturn returned _ => exact .bareReturn returned ((precedes _ rfl).valueless returned)
  | factor _ ih => exact .factor (ih precedes)
  | multiplied product denoted binds primary _ ih =>
      rw [List.getLast?_append_cons, List.getLast?_cons_of_ne_nil (primary.ne_nil nofun)] at precedes
      exact .multiplied product denoted binds (ih precedes)
  | term _ ih => exact .term (ih precedes)
  | added sum denoted binds product _ ih =>
      rw [List.getLast?_append_cons, List.getLast?_cons_of_ne_nil (product.ne_nil nofun)] at precedes
      exact .added sum denoted binds (ih precedes)
  | nested _ ih => exact .nested (ih precedes)
  | function defines named opened taken closed pointed typed entered inner exited _ =>
      exact .function defines named opened taken closed pointed typed entered inner exited
  | noArguments => exact .noArguments
  | @argument _ _ _ _ _ inside rest _ _ separated labelled followed inner others given ih =>
      rw [List.getLast?_append_cons, List.getLast?_cons_cons,
        List.getLast?_cons_of_ne_nil (List.append_ne_nil_of_left_ne_nil (inner.ne_nil nofun) _)] at precedes
      cases rest with
      | nil =>
          rw [List.append_nil] at precedes
          exact .argument separated labelled followed (given precedes) (ih nofun)
      | cons first rest =>
          rw [List.getLast?_append_cons] at precedes
          exact .argument separated labelled followed inner (ih precedes)

theorem before_closing {closing : Token} (phrase : Phrase levels form tokens next value)
    (closes : closing.Closes) : Phrase levels form tokens closing value :=
  phrase.before fun last _ => closes.precedes last

end Phrase

/-! ## Shape of programs -/

namespace Items

variable {levels : Nat} {tokens : List Token} {next : Token} {nodes : List Node}

theorem deepen {levels' : Nat} (items : Items levels tokens next nodes)
    (deeper : levels ≤ levels') : Items levels' tokens next nodes := by
  induction items with
  | nil => exact .nil
  | definition first _ ih => exact .definition (first.deepen deeper) ih
  | expression first plain _ ih => exact .expression (first.deepen deeper) plain ih

theorem levels_of_length (items : Items levels tokens next nodes) :
    Items tokens.length tokens next nodes := by
  induction items with
  | nil => exact .nil
  | definition first _ ih =>
      exact .definition (first.levels_of_length.deepen (by simp; omega)) (ih.deepen (by simp))
  | expression first plain _ ih =>
      exact .expression (first.levels_of_length.deepen (by simp)) plain (ih.deepen (by simp))

/-- No item starts with an operator. -/
theorem operator?_headD (items : Items levels tokens next nodes) (other : next.operator? = none) :
    (tokens.headD next).operator? = none := by
  cases items with
  | nil => exact other
  | definition first _ =>
      obtain ⟨word, more, rfl, starts⟩ := first.exists_first nofun
      exact starts.operator?
  | expression first _ _ =>
      obtain ⟨word, more, rfl, starts⟩ := first.exists_first nofun
      exact starts.operator?

theorem kind_ne_endOfInput (items : Items levels tokens next nodes) :
    ∀ token ∈ tokens, token.kind ≠ .endOfInput := by
  induction items with
  | nil => simp
  | definition first _ ih =>
      simpa [or_imp, forall_and] using ⟨first.kind_ne_endOfInput, ih⟩
  | expression first _ _ ih =>
      simpa [or_imp, forall_and] using ⟨first.kind_ne_endOfInput, ih⟩

/-- No program ends with a token that asks for an operand. -/
theorem not_asksForOperand (items : Items levels tokens next nodes) :
    ∀ last ∈ tokens.getLast?, ¬ last.AsksForOperand := by
  induction items with
  | nil => simp
  | @definition tokens rest _ _ _ first _ ih =>
      cases rest with
      | nil =>
          rw [List.append_nil]
          exact first.not_asksForOperand
      | cons head rest => rwa [List.getLast?_append_cons]
  | @expression tokens rest _ _ _ first _ _ ih =>
      cases rest with
      | nil =>
          rw [List.append_nil]
          exact first.not_asksForOperand
      | cons head rest => rwa [List.getLast?_append_cons]

end Items

end ExprLang
