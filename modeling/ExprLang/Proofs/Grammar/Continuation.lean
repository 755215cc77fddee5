import ExprLang.Proofs.Grammar.Phrase

/-!
# Beginnings of phrases

Tokens begin a phrase if some tokens after them complete it before any closing
token. Whatever is read of a phrase begins it, and so does every shorter piece,
so it is enough to give the longest beginning of each form and to fill in sample
tokens for what has not been read.
-/

namespace ExprLang

/-- A token of a kind, which is a number if the kind is one of numbers. -/
def Token.sample (kind : TokenKind) : Token :=
  ⟨kind, "1", .nowhere⟩

/-- The tokens are the beginning of the parameters of some definition. -/
def BeginsParameters (tokens : List Token) : Prop :=
  ∃ more parameters, Parameters (tokens ++ more) parameters

/-- The tokens can be completed to a phrase of the form before any closing token. -/
def Begins (form : Form) (tokens : List Token) : Prop :=
  ∃ more levels, ∀ closing : Token, closing.Closes →
    ∃ value, Phrase levels form (tokens ++ more) closing value

namespace BeginsParameters

theorem of_append {tokens : List Token} (more : List Token)
    (begins : BeginsParameters (tokens ++ more)) : BeginsParameters tokens := by
  obtain ⟨rest, parameters, taken⟩ := begins
  rw [List.append_assoc] at taken
  exact ⟨more ++ rest, parameters, taken⟩

theorem of_parameters {tokens : List Token} {parameters : List Parameter}
    (taken : Parameters tokens parameters) : BeginsParameters tokens :=
  ⟨[], parameters, by rwa [List.append_nil]⟩

theorem nil : BeginsParameters [] :=
  of_parameters .nil

theorem cons {label colon type : Token} {comma rest : List Token}
    (labelled : label.kind = .identifier) (separated : colon.kind = .colon)
    (typed : type.kind = .identifier) (ended : OptionalComma comma)
    (begins : BeginsParameters rest) :
    BeginsParameters (label :: colon :: type :: (comma ++ rest)) := by
  obtain ⟨more, parameters, taken⟩ := begins
  have whole := Parameters.cons labelled separated typed ended taken
  rw [← List.append_assoc] at whole
  exact ⟨more, _, whole⟩

theorem label {label : Token} (labelled : label.kind = .identifier) : BeginsParameters [label] :=
  of_append [.sample .colon, .sample .identifier] (cons labelled rfl rfl .absent nil)

theorem colon {label colon : Token} (labelled : label.kind = .identifier)
    (separated : colon.kind = .colon) : BeginsParameters [label, colon] :=
  of_append [.sample .identifier] (cons labelled separated rfl .absent nil)

end BeginsParameters

namespace Begins

variable {form : Form} {levels : Nat} {tokens inside : List Token} {next : Token}

theorem of_append (more : List Token) (begins : Begins form (tokens ++ more)) :
    Begins form tokens := by
  obtain ⟨rest, levels, complete⟩ := begins
  refine ⟨more ++ rest, levels, fun closing closes => ?_⟩
  obtain ⟨value, phrase⟩ := complete closing closes
  rw [List.append_assoc] at phrase
  exact ⟨value, phrase⟩

theorem of_phrase {value : form.Value} (phrase : Phrase levels form tokens next value) :
    Begins form tokens :=
  ⟨[], levels, fun _ closes => ⟨value, by
    rw [List.append_nil]
    exact phrase.before_closing closes⟩⟩

/-! ## Chains -/

theorem primary_nil : Begins .primary [] := by
  obtain ⟨value, reads⟩ : ∃ value, Binary64.read? "1" = some value := ⟨_, rfl⟩
  have whole : Phrase 0 .primary [.sample .integerLiteral] (.sample .endOfInput) (.number value) :=
    .number rfl reads
  exact of_append [.sample .integerLiteral] (of_phrase whole)

theorem factor (begins : Begins .primary tokens) : Begins .product tokens := by
  obtain ⟨more, levels, complete⟩ := begins
  refine ⟨more, levels, fun closing closes => ?_⟩
  obtain ⟨value, phrase⟩ := complete closing closes
  exact ⟨value, .factor phrase⟩

theorem term (begins : Begins .product tokens) : Begins .sum tokens := by
  obtain ⟨more, levels, complete⟩ := begins
  refine ⟨more, levels, fun closing closes => ?_⟩
  obtain ⟨value, phrase⟩ := complete closing closes
  exact ⟨value, .term phrase⟩

theorem nested (begins : Begins .sum tokens) : Begins .expression tokens := by
  obtain ⟨more, levels, complete⟩ := begins
  refine ⟨more, levels + 1, fun closing closes => ?_⟩
  obtain ⟨value, phrase⟩ := complete closing closes
  exact ⟨value, .nested phrase⟩

theorem expression_nil : Begins .expression [] :=
  primary_nil.factor.term.nested

theorem multiplied {left right : List Token} {sign : Token} {operator : Operator} {lhs : Node}
    (product : Phrase levels .product left sign lhs) (denoted : sign.operator? = some operator)
    (binds : operator.IsMultiplicative) (begins : Begins .primary right) :
    Begins .product (left ++ sign :: right) := by
  obtain ⟨more, deeper, complete⟩ := begins
  refine ⟨more, max levels deeper, fun closing closes => ?_⟩
  obtain ⟨rhs, phrase⟩ := complete closing closes
  have whole := Phrase.multiplied (product.deepen (Nat.le_max_left levels deeper)) denoted binds
    (phrase.deepen (Nat.le_max_right levels deeper))
  rw [← List.cons_append, ← List.append_assoc] at whole
  exact ⟨_, whole⟩

theorem added {left right : List Token} {sign : Token} {operator : Operator} {lhs : Node}
    (sum : Phrase levels .sum left sign lhs) (denoted : sign.operator? = some operator)
    (binds : operator.IsAdditive) (begins : Begins .product right) :
    Begins .sum (left ++ sign :: right) := by
  obtain ⟨more, deeper, complete⟩ := begins
  refine ⟨more, max levels deeper, fun closing closes => ?_⟩
  obtain ⟨rhs, phrase⟩ := complete closing closes
  have whole := Phrase.added (sum.deepen (Nat.le_max_left levels deeper)) denoted binds
    (phrase.deepen (Nat.le_max_right levels deeper))
  rw [← List.cons_append, ← List.append_assoc] at whole
  exact ⟨_, whole⟩

/-! ## Operands -/

theorem parenthesised {opening : Token} (opened : opening.kind = .leftParen)
    (begins : Begins .expression inside) : Begins .primary (opening :: inside) := by
  obtain ⟨more, levels, complete⟩ := begins
  obtain ⟨node, inner⟩ := complete (.sample .rightParen) (.inl rfl)
  have whole : Phrase levels .primary (opening :: ((inside ++ more) ++ [.sample .rightParen]))
      (.sample .endOfInput) node := .parenthesised opened rfl inner
  rw [List.append_assoc, ← List.cons_append] at whole
  exact of_append _ (of_phrase whole)

theorem call {name opening : Token} (named : name.kind = .identifier)
    (opened : opening.kind = .leftParen) (begins : Begins .arguments inside) :
    Begins .primary (name :: opening :: inside) := by
  obtain ⟨more, levels, complete⟩ := begins
  obtain ⟨arguments, given⟩ := complete (.sample .rightParen) (.inl rfl)
  have whole : Phrase levels .primary
      (name :: opening :: ((inside ++ more) ++ [.sample .rightParen])) (.sample .endOfInput)
      (.call name.value arguments) := .call named opened rfl given
  rw [List.append_assoc, ← List.cons_append, ← List.cons_append] at whole
  exact of_append _ (of_phrase whole)

theorem returning {word : Token} (returned : word.kind = .returnWord)
    (begins : Begins .expression inside) : Begins .primary (word :: inside) := by
  obtain ⟨more, levels, complete⟩ := begins
  refine ⟨more, levels, fun closing closes => ?_⟩
  obtain ⟨value, inner⟩ := complete closing closes
  exact ⟨_, .returning returned inner (closes.precedes word).noOperator⟩

theorem defined (begins : Begins .definition tokens) : Begins .primary tokens := by
  obtain ⟨more, levels, complete⟩ := begins
  refine ⟨more, levels, fun closing closes => ?_⟩
  obtain ⟨value, phrase⟩ := complete closing closes
  exact ⟨value, .defined phrase⟩

/-! ## Arguments -/

/-- If the value is the last that is given, the call may end after it. -/
theorem argument {label colon : Token} {comma rest : List Token} {value : Node}
    (separated : OptionalComma comma) (labelled : label.kind = .identifier)
    (followed : colon.kind = .colon)
    (given : Phrase levels .expression inside (rest.headD next) value)
    (begins : Begins .arguments rest) :
    Begins .arguments (comma ++ label :: colon :: (inside ++ rest)) := by
  cases rest with
  | nil =>
      have ends : (Token.sample .rightParen).Closes := .inl rfl
      exact of_phrase (.argument separated labelled followed (given.before_closing ends)
        .noArguments)
  | cons first rest =>
      obtain ⟨more, deeper, complete⟩ := begins
      refine ⟨more, max levels deeper, fun closing closes => ?_⟩
      obtain ⟨arguments, others⟩ := complete closing closes
      refine ⟨(label.value, value) :: arguments, ?_⟩
      rw [List.append_assoc, List.cons_append, List.cons_append, List.append_assoc]
      exact .argument separated labelled followed (given.deepen (Nat.le_max_left levels deeper))
        (others.deepen (Nat.le_max_right levels deeper))

theorem noArguments : Begins .arguments [] := by
  have whole : Phrase 0 .arguments [] (.sample .endOfInput) [] := .noArguments
  exact of_phrase whole

theorem argument_value {label colon : Token} {comma : List Token}
    (separated : OptionalComma comma) (labelled : label.kind = .identifier)
    (followed : colon.kind = .colon) (begins : Begins .expression inside) :
    Begins .arguments (comma ++ label :: colon :: inside) := by
  obtain ⟨more, levels, complete⟩ := begins
  obtain ⟨value, given⟩ := complete (.sample .rightParen) (.inl rfl)
  have whole := argument separated labelled followed
    (show Phrase levels .expression (inside ++ more) (List.headD [] (.sample .rightParen)) value
      from given) noArguments
  rw [List.append_nil, ← List.cons_append, ← List.cons_append, ← List.append_assoc] at whole
  exact of_append more whole

theorem argument_label {label : Token} {comma : List Token} (separated : OptionalComma comma)
    (labelled : label.kind = .identifier) : Begins .arguments (comma ++ [label]) := by
  have followed : (Token.sample .colon).kind = .colon := rfl
  have whole := argument_value separated labelled followed expression_nil
  rw [List.append_cons] at whole
  exact of_append [.sample .colon] whole

theorem argument_comma {comma : List Token} (separated : OptionalComma comma) :
    Begins .arguments comma :=
  of_append [.sample .identifier] (argument_label separated rfl)

/-! ## Definitions -/

section Definition

variable {word name opening closing arrow type left : Token} {header : List Token}
  (defines : word.kind = .funcWord)

include defines

theorem function_body (named : name.kind = .identifier) (opened : opening.kind = .leftParen)
    {parameters : List Parameter} (taken : Parameters header parameters)
    (closed : closing.kind = .rightParen) (pointed : arrow.kind = .arrow)
    (typed : type.kind = .identifier) (entered : left.kind = .leftBrace)
    (begins : Begins .expression inside) :
    Begins .definition
      (word :: name :: opening :: (header ++ closing :: arrow :: type :: left :: inside)) := by
  obtain ⟨more, levels, complete⟩ := begins
  obtain ⟨body, inner⟩ := complete (.sample .rightBrace) (.inr (.inl rfl))
  have whole : Phrase levels .definition _ (.sample .endOfInput) _ :=
    .function defines named opened taken closed pointed typed entered inner rfl
  have begun := of_phrase whole
  refine of_append (more ++ [.sample .rightBrace]) ?_
  simpa using begun

theorem function_type (named : name.kind = .identifier) (opened : opening.kind = .leftParen)
    {parameters : List Parameter} (taken : Parameters header parameters)
    (closed : closing.kind = .rightParen) (pointed : arrow.kind = .arrow)
    (typed : type.kind = .identifier) :
    Begins .definition (word :: name :: opening :: (header ++ [closing, arrow, type])) := by
  have entered : (Token.sample .leftBrace).kind = .leftBrace := rfl
  have whole := function_body defines named opened taken closed pointed typed entered expression_nil
  refine of_append [.sample .leftBrace] ?_
  simpa using whole

theorem function_arrow (named : name.kind = .identifier) (opened : opening.kind = .leftParen)
    {parameters : List Parameter} (taken : Parameters header parameters)
    (closed : closing.kind = .rightParen) (pointed : arrow.kind = .arrow) :
    Begins .definition (word :: name :: opening :: (header ++ [closing, arrow])) := by
  have typed : (Token.sample .identifier).kind = .identifier := rfl
  refine of_append [.sample .identifier] ?_
  simpa using function_type defines named opened taken closed pointed typed

theorem function_closing (named : name.kind = .identifier) (opened : opening.kind = .leftParen)
    {parameters : List Parameter} (taken : Parameters header parameters)
    (closed : closing.kind = .rightParen) :
    Begins .definition (word :: name :: opening :: (header ++ [closing])) := by
  have pointed : (Token.sample .arrow).kind = .arrow := rfl
  refine of_append [.sample .arrow] ?_
  simpa using function_arrow defines named opened taken closed pointed

theorem function_header (named : name.kind = .identifier) (opened : opening.kind = .leftParen)
    (begins : BeginsParameters header) :
    Begins .definition (word :: name :: opening :: header) := by
  obtain ⟨more, parameters, taken⟩ := begins
  have closed : (Token.sample .rightParen).kind = .rightParen := rfl
  refine of_append (more ++ [.sample .rightParen]) ?_
  simpa using function_closing defines named opened taken closed

theorem function_name (named : name.kind = .identifier) : Begins .definition [word, name] := by
  have opened : (Token.sample .leftParen).kind = .leftParen := rfl
  exact of_append [.sample .leftParen] (function_header defines named opened .nil)

theorem function_word : Begins .definition [word] := by
  have named : (Token.sample .identifier).kind = .identifier := rfl
  exact of_append [.sample .identifier] (function_name defines named)

end Definition

theorem definition_nil : Begins .definition [] := by
  have defines : (Token.sample .funcWord).kind = .funcWord := rfl
  exact of_append [.sample .funcWord] (function_word defines)

end Begins

/-! ## Programs -/

/-- The tokens can be completed to a program. -/
def BeginsProgram (tokens : List Token) : Prop :=
  ∃ more levels, ∀ closing : Token, closing.kind = .endOfInput →
    ∃ nodes, Items levels (tokens ++ more) closing nodes

namespace BeginsProgram

variable {levels : Nat} {tokens rest : List Token} {next : Token}

theorem nil : BeginsProgram [] :=
  ⟨[], 0, fun _ _ => ⟨[], .nil⟩⟩

theorem definition (begins : Begins .definition tokens) : BeginsProgram tokens := by
  obtain ⟨more, levels, complete⟩ := begins
  refine ⟨more, levels, fun closing ends => ?_⟩
  obtain ⟨node, phrase⟩ := complete closing (.inr (.inr ends))
  refine ⟨[node], ?_⟩
  rw [← List.append_nil (tokens ++ more)]
  exact .definition phrase .nil

theorem expression (begins : Begins .expression tokens)
    (plain : ∀ word ∈ tokens.head?, word.kind ≠ .funcWord) : BeginsProgram tokens := by
  cases tokens with
  | nil => exact nil
  | cons word rest =>
      obtain ⟨more, levels, complete⟩ := begins
      refine ⟨more, levels, fun closing ends => ?_⟩
      obtain ⟨body, phrase⟩ := complete closing (.inr (.inr ends))
      refine ⟨[.entryPoint body], ?_⟩
      rw [← List.append_nil (word :: rest ++ more)]
      exact .expression phrase plain .nil

/-- If no item has been begun after the first one, the program may end there. -/
theorem definition_append {node : Node}
    (first : Phrase levels .definition tokens (rest.headD next) node)
    (begins : BeginsProgram rest) : BeginsProgram (tokens ++ rest) := by
  cases rest with
  | nil =>
      rw [List.append_nil]
      exact definition (.of_phrase first)
  | cons head rest =>
      obtain ⟨more, deeper, complete⟩ := begins
      refine ⟨more, max levels deeper, fun closing ends => ?_⟩
      obtain ⟨nodes, others⟩ := complete closing ends
      refine ⟨node :: nodes, ?_⟩
      rw [List.append_assoc]
      exact .definition (first.deepen (Nat.le_max_left levels deeper))
        (others.deepen (Nat.le_max_right levels deeper))

theorem expression_append {body : Node}
    (first : Phrase levels .expression tokens (rest.headD next) body)
    (plain : ∀ word ∈ tokens.head?, word.kind ≠ .funcWord)
    (begins : BeginsProgram rest) : BeginsProgram (tokens ++ rest) := by
  cases rest with
  | nil =>
      rw [List.append_nil]
      exact expression (.of_phrase first) plain
  | cons head rest =>
      obtain ⟨more, deeper, complete⟩ := begins
      refine ⟨more, max levels deeper, fun closing ends => ?_⟩
      obtain ⟨nodes, others⟩ := complete closing ends
      refine ⟨.entryPoint body :: nodes, ?_⟩
      rw [List.append_assoc]
      exact .expression (first.deepen (Nat.le_max_left levels deeper)) plain
        (others.deepen (Nat.le_max_right levels deeper))

end BeginsProgram

end ExprLang
