import ExprLang.Proofs.Grammar.Recognition

/-!
# Contents

The content of a stream are its names, numbers, operators and words, in order,
without the marks that only group them. The parser keeps it: the contents of
the items that it gives are those of the stream, up to the place where the end
of the input has truncated an expression.
-/

namespace ExprLang

/-- What a token contributes to a node. -/
inductive Content where
  | number (value : Binary64)
  | name (text : String)
  | operator (operator : Operator)
  | returnType (type : ReturnType)
  | funcWord
  | returnWord
  | other (token : Token)

/-- The content of a token, which names a return type if it stands after an arrow. -/
def Token.contents (pointed : Bool) (token : Token) : List Content :=
  match token.kind with
  | .leftParen | .rightParen | .leftBrace | .rightBrace | .comma | .colon | .arrow => []
  | .identifier =>
      if pointed then [.returnType (.ofName token.value)] else [.name token.value]
  | .integerLiteral | .floatingLiteral =>
      match Binary64.read? token.value with
      | some value => [.number value]
      | none => [.other token]
  | .binaryOperator =>
      match Operator.ofSymbol? token.value with
      | some operator => [.operator operator]
      | none => [.other token]
  | .funcWord => [.funcWord]
  | .returnWord => [.returnWord]
  | .endOfInput | .ifWord | .elseWord => [.other token]

def contentsAfter : Bool → List Token → List Content
  | _, [] => []
  | pointed, token :: rest =>
      token.contents pointed ++ contentsAfter (token.kind = .arrow) rest

/-- The contents of tokens in order. -/
def contents (tokens : List Token) : List Content :=
  contentsAfter false tokens

def Parameter.contents (parameter : Parameter) : List Content :=
  [.name parameter.label, .name parameter.typeName]

mutual

/-- The contents of a node in order. -/
def Node.contents : Node → List Content
  | .number value => [.number value]
  | .variable name => [.name name]
  | .call callee arguments => .name callee :: argumentContents arguments
  | .binary operator lhs rhs => lhs.contents ++ .operator operator :: rhs.contents
  | .function name parameters type body =>
      .funcWord :: .name name ::
        (parameters.flatMap Parameter.contents ++ .returnType type :: body.contents)
  | .bareReturn => [.returnWord]
  | .returning value => .returnWord :: value.contents

def argumentContents : List (String × Node) → List Content
  | [] => []
  | (label, value) :: rest => .name label :: (value.contents ++ argumentContents rest)

end

/-- An item of a program, which is a definition or an expression to be wrapped. -/
inductive Item where
  | definition (node : Node)
  | expression (body : Node)

namespace Item

/-- The node of an item, which is the entry point in the case of an expression. -/
def node : Item → Node
  | .definition node => node
  | .expression body => .entryPoint body

/-- The contents of an item; the entry point around an expression has none of its own. -/
def contents : Item → List Content
  | .definition node => node.contents
  | .expression body => body.contents

end Item

/-- The contents of what a phrase stands for. -/
def Form.contents : (form : Form) → form.Value → List Content
  | .arguments, given => argumentContents given
  | .primary, node => node.contents
  | .product, node => node.contents
  | .sum, node => node.contents
  | .expression, node => node.contents
  | .definition, node => node.contents

/-! ## Contents of tokens -/

section Tokens

variable {token : Token} (rest : List Token)

theorem contents_cons_of_mark
    (mark : token.kind = .leftParen ∨ token.kind = .rightParen ∨ token.kind = .leftBrace ∨
      token.kind = .rightBrace ∨ token.kind = .comma ∨ token.kind = .colon) :
    contents (token :: rest) = contents rest := by
  obtain ⟨kind, value, span⟩ := token
  rcases mark with rfl | rfl | rfl | rfl | rfl | rfl <;> rfl

theorem contents_cons_of_name (named : token.kind = .identifier) :
    contents (token :: rest) = .name token.value :: contents rest := by
  obtain ⟨kind, value, span⟩ := token
  obtain rfl : kind = .identifier := named
  rfl

theorem contents_cons_of_number {value : Binary64} (number : token.isNumber = true)
    (reads : Binary64.read? token.value = some value) :
    contents (token :: rest) = .number value :: contents rest := by
  obtain ⟨kind, text, span⟩ := token
  have found : Binary64.read? text = some value := reads
  rcases (Parser.Rule.isNumber_iff _).mp number with rfl | rfl
  · change (match Binary64.read? text with
      | some value => [.number value]
      | none => [.other _]) ++ contents rest = _
    rw [found]
    rfl
  · change (match Binary64.read? text with
      | some value => [.number value]
      | none => [.other _]) ++ contents rest = _
    rw [found]
    rfl

theorem contents_cons_of_operator {operator : Operator}
    (denoted : token.operator? = some operator) :
    contents (token :: rest) = .operator operator :: contents rest := by
  have signed := Token.kind_of_operator? denoted
  rw [Token.operator?, if_pos signed] at denoted
  obtain ⟨kind, text, span⟩ := token
  obtain rfl : kind = .binaryOperator := signed
  have found : Operator.ofSymbol? text = some operator := denoted
  change (match Operator.ofSymbol? text with
    | some operator => [.operator operator]
    | none => [.other _]) ++ contents rest = _
  rw [found]
  rfl

theorem contents_cons_of_funcWord (defines : token.kind = .funcWord) :
    contents (token :: rest) = .funcWord :: contents rest := by
  obtain ⟨kind, value, span⟩ := token
  obtain rfl : kind = .funcWord := defines
  rfl

theorem contents_cons_of_returnWord (returned : token.kind = .returnWord) :
    contents (token :: rest) = .returnWord :: contents rest := by
  obtain ⟨kind, value, span⟩ := token
  obtain rfl : kind = .returnWord := returned
  rfl

theorem contents_cons_of_arrow {type : Token} (pointed : token.kind = .arrow)
    (typed : type.kind = .identifier) :
    contents (token :: type :: rest) = .returnType (.ofName type.value) :: contents rest := by
  obtain ⟨kind, value, span⟩ := token
  obtain ⟨kind', value', span'⟩ := type
  obtain rfl : kind = .arrow := pointed
  obtain rfl : kind' = .identifier := typed
  rfl

theorem contents_append_of_comma {comma : List Token} (optional : OptionalComma comma) :
    contents (comma ++ rest) = contents rest := by
  cases optional with
  | absent => rfl
  | present token kind => exact contents_cons_of_mark rest (by simp [kind])

end Tokens

/-! ## Contents of phrases -/

theorem Parameters.contents_append {tokens : List Token} {parameters : List Parameter}
    (taken : Parameters tokens parameters) (rest : List Token) :
    contents (tokens ++ rest) = parameters.flatMap Parameter.contents ++ contents rest := by
  induction taken with
  | nil => rfl
  | cons labelled separated typed ended _ ih =>
      simp [contents_cons_of_name, contents_cons_of_mark, labelled, separated, typed,
        contents_append_of_comma, ended, Parameter.contents, ih]

/-- The content of a phrase is that of its tokens, whatever follows them. -/
theorem Phrase.contents_append {levels : Nat} {form : Form} {tokens : List Token} {next : Token}
    {value : form.Value} (phrase : Phrase levels form tokens next value) (rest : List Token) :
    contents (tokens ++ rest) = form.contents value ++ contents rest := by
  induction phrase generalizing rest with
  | number number reads => exact contents_cons_of_number rest number reads
  | name named _ => exact contents_cons_of_name rest named
  | call named opened closed _ ih =>
      simp [contents_cons_of_name, contents_cons_of_mark, named, opened, closed, ih, Form.contents,
        Node.contents]
  | parenthesised opened closed _ ih =>
      simp [contents_cons_of_mark, opened, closed, ih, Form.contents]
  | defined _ ih => exact ih rest
  | returning returned _ _ ih =>
      simp [contents_cons_of_returnWord, returned, ih, Form.contents, Node.contents]
  | bareReturn returned _ => exact contents_cons_of_returnWord rest returned
  | factor _ ih => exact ih rest
  | multiplied _ denoted _ _ left right =>
      simp [contents_cons_of_operator _ denoted, left, right, Form.contents, Node.contents]
  | term _ ih => exact ih rest
  | added _ denoted _ _ left right =>
      simp [contents_cons_of_operator _ denoted, left, right, Form.contents, Node.contents]
  | nested _ ih => exact ih rest
  | function defines named opened taken closed pointed typed entered _ exited ih =>
      simp [contents_cons_of_funcWord, contents_cons_of_name, contents_cons_of_mark,
        contents_cons_of_arrow, defines, named, opened, taken.contents_append, closed, pointed,
        typed, entered, exited, ih, Form.contents, Node.contents]
  | noArguments => rfl
  | argument separated labelled followed _ _ given others =>
      simp [contents_append_of_comma, separated, contents_cons_of_name, contents_cons_of_mark,
        labelled, followed, given, others, Form.contents, argumentContents]

/-- What remains of a truncated phrase comes first in its tokens. -/
theorem Truncated.contents_prefix {levels : Nat} {form : Form} {tokens : List Token}
    {value? : Option form.Value} (truncated : Truncated levels form tokens value?) :
    ∀ value ∈ value?, form.contents value <+: contents tokens := by
  induction truncated with
  | missing => exact nofun
  | parenthesised _ _ _ => exact nofun
  | bareReturn returned _ _ _ =>
      rintro _ ⟨⟩
      rw [contents_cons_of_returnWord _ returned]
      exact ⟨_, rfl⟩
  | returning returned _ ih =>
      rintro _ ⟨⟩
      rw [contents_cons_of_returnWord _ returned]
      exact List.cons_prefix_cons.mpr ⟨rfl, ih _ rfl⟩
  | factor _ ih => exact ih
  | multiplied product denoted _ _ ih =>
      intro value same
      obtain ⟨rhs, remains, rfl⟩ := Option.map_eq_some_iff.mp same
      rw [product.contents_append, contents_cons_of_operator _ denoted]
      exact (List.prefix_append_right_inj _).mpr (List.cons_prefix_cons.mpr ⟨rfl, ih rhs remains⟩)
  | term _ ih => exact ih
  | added sum denoted _ _ ih =>
      intro value same
      obtain ⟨rhs, remains, rfl⟩ := Option.map_eq_some_iff.mp same
      rw [sum.contents_append, contents_cons_of_operator _ denoted]
      exact (List.prefix_append_right_inj _).mpr (List.cons_prefix_cons.mpr ⟨rfl, ih rhs remains⟩)
  | nested _ ih => exact ih

/-! ## Contents of programs -/

/-- The items of a program have its content. -/
theorem Items.exists_contents {levels : Nat} {tokens : List Token} {next : Token}
    {nodes : List Node} (program : Items levels tokens next nodes) :
    ∃ items : List Item, items.map Item.node = nodes ∧
      items.flatMap Item.contents = contents tokens := by
  induction program with
  | nil => exact ⟨[], rfl, rfl⟩
  | definition first _ ih =>
      obtain ⟨items, rfl, same⟩ := ih
      refine ⟨.definition _ :: items, rfl, ?_⟩
      rw [first.contents_append, List.flatMap_cons, same]
      rfl
  | expression first _ _ ih =>
      obtain ⟨items, rfl, same⟩ := ih
      refine ⟨.expression _ :: items, rfl, ?_⟩
      rw [first.contents_append, List.flatMap_cons, same]
      rfl

/-- What is left of a program comes first in its content. -/
theorem Salvaged.exists_contents_prefix {levels : Nat} {tokens : List Token} {next : Token}
    {nodes : List Node} (salvaged : Salvaged levels tokens next nodes) :
    ∃ items : List Item, items.map Item.node = nodes ∧
      items.flatMap Item.contents <+: contents tokens := by
  induction salvaged with
  | nil => exact ⟨[], rfl, List.prefix_rfl⟩
  | definition first _ ih =>
      obtain ⟨items, rfl, before⟩ := ih
      refine ⟨.definition _ :: items, rfl, ?_⟩
      rw [first.contents_append, List.flatMap_cons]
      exact (List.prefix_append_right_inj _).mpr before
  | expression first _ _ ih =>
      obtain ⟨items, rfl, before⟩ := ih
      refine ⟨.expression _ :: items, rfl, ?_⟩
      rw [first.contents_append, List.flatMap_cons]
      exact (List.prefix_append_right_inj _).mpr before
  | @truncated _ _ body? _ last =>
      cases body? with
      | none => exact ⟨[], rfl, List.nil_prefix⟩
      | some body =>
          refine ⟨[.expression body], rfl, ?_⟩
          rw [List.flatMap_cons, List.flatMap_nil, List.append_nil]
          exact last.contents_prefix body rfl

/--
The parser loses, repeats and reorders nothing: the contents of the items that
it gives are those of the stream up to the first end of the input, without what
an operator or a parenthesis right before that end has cut off.
-/
theorem contents_of_outcome_parse {settings : Settings} {tokens : List Token} {nodes : List Node}
    (accepted : (parse settings tokens).outcome = .ok nodes) :
    ∃ items : List Item, items.map Item.node = nodes ∧
      items.flatMap Item.contents <+: contents (beforeEnd tokens) ∧
      ((∀ last ∈ (beforeEnd tokens).getLast?, ¬ last.AsksForOperand) →
        items.flatMap Item.contents = contents (beforeEnd tokens)) := by
  obtain ⟨closing, _, _, _, salvaged⟩ := salvaged_of_outcome_parse accepted
  by_cases complete : ∀ last ∈ (beforeEnd tokens).getLast?, ¬ last.AsksForOperand
  · obtain ⟨items, same, whole⟩ := (salvaged.items complete).exists_contents
    exact ⟨items, same, whole ▸ List.prefix_rfl, fun _ => whole⟩
  · obtain ⟨items, same, before⟩ := salvaged.exists_contents_prefix
    exact ⟨items, same, before, fun impossible => absurd impossible complete⟩

/-- A `return` that is cut off after an operator keeps only its own word. -/
theorem contents_of_truncated_return :
    ∃ items : List Item, items.map Item.node = [.entryPoint .bareReturn] ∧
      items.flatMap Item.contents <+: [.returnWord, .name "x", .operator .addition] := by
  obtain ⟨items, nodes, before, _⟩ := contents_of_outcome_parse
    (show (parse ⟨"", 4⟩ [⟨.returnWord, "return", .nowhere⟩, ⟨.identifier, "x", .nowhere⟩,
      ⟨.binaryOperator, "+", .nowhere⟩, .sample .endOfInput]).outcome =
        .ok [.entryPoint .bareReturn] from rfl)
  exact ⟨items, nodes, before⟩

end ExprLang
