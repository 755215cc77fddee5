import ExprLang.Proofs.Grammar.Completeness
import ExprLang.Proofs.Grammar.Writing

/-!
# Round trip

The tokens with the pieces of a node are a phrase for this very node. Since an
operand is read up to an operator that binds looser, each node is a phrase of
the form that its operator calls for, and parentheses make it one of any form.
-/

namespace ExprLang

/-! ## Phrases of some number of levels -/

def IsPhrase (form : Form) (tokens : List Token) (next : Token) (value : form.Value) : Prop :=
  ∃ levels, Phrase levels form tokens next value

/-- Phrases whose operators outside of parentheses bind at least as tightly as the bound. -/
def IsTerm (bound : Int) (tokens : List Token) (next : Token) (node : Node) : Prop :=
  if bound ≤ 20 then IsPhrase .sum tokens next node
  else if bound ≤ 40 then IsPhrase .product tokens next node
  else IsPhrase .primary tokens next node

theorem IsPhrase.isProduct {tokens : List Token} {next : Token} {node : Node}
    (primary : IsPhrase .primary tokens next node) : IsPhrase .product tokens next node := by
  obtain ⟨levels, primary⟩ := primary
  exact ⟨levels, .factor primary⟩

theorem IsPhrase.isSum {tokens : List Token} {next : Token} {node : Node}
    (product : IsPhrase .product tokens next node) : IsPhrase .sum tokens next node := by
  obtain ⟨levels, product⟩ := product
  exact ⟨levels, .term product⟩

namespace IsTerm

variable {bound : Int} {tokens : List Token} {next : Token} {node : Node}

theorem of_sum (low : bound ≤ 20) (sum : IsPhrase .sum tokens next node) :
    IsTerm bound tokens next node := by
  rwa [IsTerm, if_pos low]

theorem of_product (low : bound ≤ 40) (product : IsPhrase .product tokens next node) :
    IsTerm bound tokens next node := by
  unfold IsTerm
  split
  · exact product.isSum
  · exact product

theorem of_primary (primary : IsPhrase .primary tokens next node) :
    IsTerm bound tokens next node := by
  by_cases low : bound ≤ 40
  · exact of_product low primary.isProduct
  · rwa [IsTerm, if_neg (by omega), if_neg low]

theorem isSum (term : IsTerm bound tokens next node) : IsPhrase .sum tokens next node := by
  unfold IsTerm at term
  split at term
  · exact term
  · split at term
    · exact term.isSum
    · exact term.isProduct.isSum

theorem isProduct (high : 20 < bound) (term : IsTerm bound tokens next node) :
    IsPhrase .product tokens next node := by
  rw [IsTerm, if_neg (by omega)] at term
  split at term
  · exact term
  · exact term.isProduct

theorem isPrimary (high : 40 < bound) (term : IsTerm bound tokens next node) :
    IsPhrase .primary tokens next node := by
  rwa [IsTerm, if_neg (by omega), if_neg (by omega)] at term

theorem isExpression (term : IsTerm bound tokens next node) :
    IsPhrase .expression tokens next node := by
  obtain ⟨levels, sum⟩ := term.isSum
  exact ⟨levels + 1, .nested sum⟩

/-- An operator takes an operand that binds as tightly on its left, and a tighter one on its right. -/
theorem binary {operator : Operator} {left right : List Token} {sign : Token} {lhs rhs : Node}
    (ranked : operator.precedence?.isSome = true) (denoted : sign.operator? = some operator)
    (low : bound ≤ operator.rank) (first : IsTerm operator.rank left sign lhs)
    (second : IsTerm (operator.rank + 1) right next rhs) :
    IsTerm bound (left ++ sign :: right) next (.binary operator lhs rhs) := by
  have additive (binds : operator.IsAdditive) (rank : operator.rank = 20) :
      IsTerm bound (left ++ sign :: right) next (.binary operator lhs rhs) := by
    obtain ⟨levels, sum⟩ := first.isSum
    obtain ⟨levels', product⟩ := second.isProduct (by omega)
    exact of_sum (by omega) ⟨max levels levels', .added (sum.deepen (Nat.le_max_left ..)) denoted
      binds (product.deepen (Nat.le_max_right ..))⟩
  have multiplicative (binds : operator.IsMultiplicative) (rank : operator.rank = 40) :
      IsTerm bound (left ++ sign :: right) next (.binary operator lhs rhs) := by
    obtain ⟨levels, product⟩ := first.isProduct (by omega)
    obtain ⟨levels', primary⟩ := second.isPrimary (by omega)
    exact of_product (by omega) ⟨max levels levels',
      .multiplied (product.deepen (Nat.le_max_left ..)) denoted binds
        (primary.deepen (Nat.le_max_right ..))⟩
  cases operator with
  | addition => exact additive (.inl rfl) rfl
  | subtraction => exact additive (.inr rfl) rfl
  | multiplication => exact multiplicative (.inl rfl) rfl
  | division => exact multiplicative (.inr rfl) rfl
  | lessThan => cases ranked

end IsTerm

/-! ## Tokens with given pieces -/

namespace Token

/-- The tokens before which every expression ends. -/
structure Stops (token : Token) : Prop where
  noOperator : token.operator? = none
  noStart : ¬ token.Starts

theorem Closes.stops {token : Token} (closes : token.Closes) : token.Stops :=
  ⟨closes.noOperator, closes.noStart⟩

theorem stops_of_comma {token : Token} (comma : token.kind = .comma) : token.Stops := by
  constructor
  · apply operator?_of_kind_ne
    rw [comma]
    decide
  · intro starts
    rw [Starts, comma] at starts
    cases starts

theorem Stops.kind_ne_leftParen {token : Token} (stops : token.Stops) :
    token.kind ≠ .leftParen :=
  fun opened => stops.noStart (.of_leftParen opened)

end Token

theorem Operator.neg_one_le_rank (operator : Operator) : -1 ≤ operator.rank := by
  cases operator <;> decide

namespace Node

/-- Whether a node can be written in front of a token without being read on. -/
structure MayPrecede (node : Node) (next : Token) : Prop where
  uncalled : next.kind ≠ .leftParen
  ended : node.isReturn = true → next.Stops

/-- Whether no operator of a node outside of parentheses binds looser than the bound. -/
def BindsAtLeast (bound : Int) : Node → Prop
  | .binary operator _ _ => bound ≤ operator.rank
  | _ => True

/-- All tokens with the pieces of the node are a phrase for it. -/
def IsReadBack (node : Node) : Prop :=
  ∀ (tokens : List Token) (next : Token) (bound : Int), tokens.map Token.piece = node.pieces →
    node.MayPrecede next → node.BindsAtLeast bound → IsTerm bound tokens next node

theorem bindsAtLeast_neg_one (node : Node) : node.BindsAtLeast (-1) := by
  cases node with
  | binary operator _ _ => exact operator.neg_one_le_rank
  | _ => trivial

theorem IsReadBack.isExpression {node : Node} (readBack : node.IsReadBack) {tokens : List Token}
    {next : Token} (written : tokens.map Token.piece = node.pieces) (stops : next.Stops) :
    IsPhrase .expression tokens next node := by
  have precedes : node.MayPrecede next := ⟨stops.kind_ne_leftParen, fun _ => stops⟩
  exact (readBack tokens next (-1) written precedes node.bindsAtLeast_neg_one).isExpression

/-! ## Operands -/

theorem isReadBack_number (magnitude : Magnitude) :
    IsReadBack (.number (.finite false magnitude)) := by
  intro tokens next bound written _ _
  obtain ⟨token, rfl, piece⟩ := List.map_eq_singleton_iff.mp written
  have kind : token.kind = _ := congrArg Piece.kind piece
  have value : token.value = _ := congrArg Piece.text piece
  refine .of_primary ⟨0, .number ?_ ?_⟩
  · rw [Token.isNumber, kind]
    unfold Piece.numeral
    dsimp only
    split <;> rfl
  · rw [value]
    exact Binary64.read?_text magnitude

theorem isReadBack_variable (name : String) : IsReadBack (.variable name) := by
  intro tokens next bound written precedes _
  obtain ⟨token, rfl, piece⟩ := List.map_eq_singleton_iff.mp written
  have kind : token.kind = .identifier := congrArg Piece.kind piece
  have value : token.value = name := congrArg Piece.text piece
  rw [← value]
  exact .of_primary ⟨0, .name kind precedes.uncalled⟩

theorem isReadBack_bareReturn : IsReadBack .bareReturn := by
  intro tokens next bound written precedes _
  obtain ⟨word, rfl, piece⟩ := List.map_eq_singleton_iff.mp written
  have kind : word.kind = .returnWord := congrArg Piece.kind piece
  exact .of_primary ⟨0, .bareReturn kind (precedes.ended rfl).noStart⟩

theorem isReadBack_returning {value : Node} (readBack : value.IsReadBack) :
    IsReadBack (.returning value) := by
  intro tokens next bound written precedes _
  obtain ⟨word, inside, rfl, piece, written⟩ := List.map_eq_cons_iff.mp written
  have kind : word.kind = .returnWord := congrArg Piece.kind piece
  have stops := precedes.ended rfl
  obtain ⟨levels, inner⟩ := readBack.isExpression written stops
  exact .of_primary ⟨levels, .returning kind inner stops.noOperator⟩

/-! ## Operations -/

/-- An operand, in parentheses where it needs them, binds as tightly as its operator demands. -/
theorem IsReadBack.isTerm_operand {operand : Node} (readBack : operand.IsReadBack)
    {parent : Operator} {onRight : Bool} {tokens : List Token} {next : Token}
    (written : tokens.map Token.piece =
      Piece.enclosed (operand.isEnclosed parent onRight) operand.pieces)
    (uncalled : next.kind ≠ .leftParen) :
    IsTerm (parent.rank + if onRight then 1 else 0) tokens next operand := by
  cases enclosed : operand.isEnclosed parent onRight with
  | true =>
      rw [enclosed] at written
      obtain ⟨opening, rest, rfl, piece, written⟩ := List.map_eq_cons_iff.mp written
      obtain ⟨inside, last, rfl, inner, ended⟩ := List.map_eq_append_iff.mp written
      obtain ⟨closing, rfl, piece'⟩ := List.map_eq_singleton_iff.mp ended
      have opened : opening.kind = .leftParen := congrArg Piece.kind piece
      have closed : closing.kind = .rightParen := congrArg Piece.kind piece'
      obtain ⟨levels, inner⟩ := readBack.isExpression inner (Token.Closes.stops (.inl closed))
      exact .of_primary ⟨levels, .parenthesised opened closed inner⟩
  | false =>
      rw [enclosed] at written
      refine readBack tokens next _ written ⟨uncalled, ?_⟩ ?_
      · intro isReturn
        cases operand <;> cases isReturn <;> cases enclosed
      · cases operand with
        | binary operator _ _ =>
            simp only [isEnclosed, Bool.or_eq_false_iff, decide_eq_false_iff_not,
              Bool.and_eq_false_iff, beq_eq_false_iff_ne] at enclosed
            unfold BindsAtLeast
            cases onRight <;> simp at enclosed ⊢ <;> omega
        | _ => trivial

theorem isReadBack_binary {operator : Operator} {lhs rhs : Node}
    (ranked : operator.precedence?.isSome = true) (left : lhs.IsReadBack)
    (right : rhs.IsReadBack) : IsReadBack (.binary operator lhs rhs) := by
  intro tokens next bound written precedes low
  obtain ⟨before, rest, rfl, first, written⟩ := List.map_eq_append_iff.mp written
  obtain ⟨sign, after, rfl, piece, second⟩ := List.map_eq_cons_iff.mp written
  have kind : sign.kind = .binaryOperator := congrArg Piece.kind piece
  have value : sign.value = operator.symbol := congrArg Piece.text piece
  have denoted : sign.operator? = some operator := by
    rw [Token.operator?, if_pos kind, value, operator.ofSymbol?_symbol]
  have uncalled : sign.kind ≠ .leftParen := by
    rw [kind]
    decide
  have leftTerm := left.isTerm_operand first uncalled
  have rightTerm := right.isTerm_operand second precedes.uncalled
  exact .binary ranked denoted low (by simpa using leftTerm) (by simpa using rightTerm)

/-! ## Calls -/

/-- All tokens with the pieces of arguments, after a comma or not, are a phrase for them. -/
def AreReadBack (arguments : List (String × Node)) : Prop :=
  ∀ (separator : List Piece) (tokens : List Token) (next : Token),
    separator = [] ∨ separator = [.fixed .comma] →
    tokens.map Token.piece = argumentPieces separator arguments → next.Stops →
    IsPhrase .arguments tokens next arguments

theorem areReadBack_nil : AreReadBack [] := by
  intro separator tokens next _ written _
  cases List.map_eq_nil_iff.mp written
  exact ⟨0, .noArguments⟩

theorem optionalComma_of_pieces {separator : List Piece} {tokens : List Token}
    (optional : separator = [] ∨ separator = [.fixed .comma])
    (written : tokens.map Token.piece = separator) : OptionalComma tokens := by
  rcases optional with rfl | rfl
  · cases List.map_eq_nil_iff.mp written
    exact .absent
  · obtain ⟨comma, rfl, piece⟩ := List.map_eq_singleton_iff.mp written
    exact .present comma (congrArg Piece.kind piece)

/-- After an argument, either a comma stops its value or whatever follows all of them. -/
theorem stops_headD_of_argumentPieces {arguments : List (String × Node)} {tokens : List Token}
    {next : Token} (written : tokens.map Token.piece = argumentPieces [.fixed .comma] arguments)
    (stops : next.Stops) : (tokens.headD next).Stops := by
  cases arguments with
  | nil =>
      cases List.map_eq_nil_iff.mp written
      exact stops
  | cons argument rest =>
      obtain ⟨comma, others, rfl, piece, _⟩ := List.map_eq_cons_iff.mp written
      have kind : comma.kind = .comma := congrArg Piece.kind piece
      exact Token.stops_of_comma kind

theorem areReadBack_cons {label : String} {value : Node} {rest : List (String × Node)}
    (given : value.IsReadBack) (others : AreReadBack rest) :
    AreReadBack ((label, value) :: rest) := by
  intro separator tokens next optional written stops
  obtain ⟨comma, rest, rfl, first, written⟩ := List.map_eq_append_iff.mp written
  obtain ⟨name, rest, rfl, second, written⟩ := List.map_eq_cons_iff.mp written
  obtain ⟨colon, rest, rfl, third, written⟩ := List.map_eq_cons_iff.mp written
  obtain ⟨inside, rest, rfl, inner, written⟩ := List.map_eq_append_iff.mp written
  have separated := optionalComma_of_pieces optional first
  have followed := stops_headD_of_argumentPieces written stops
  obtain ⟨levels, argument⟩ := given.isExpression inner followed
  obtain ⟨levels', later⟩ := others _ rest next (.inr rfl) written stops
  have value : name.value = label := congrArg Piece.text second
  rw [← value]
  exact ⟨max levels levels', .argument separated (congrArg Piece.kind second)
    (congrArg Piece.kind third) (argument.deepen (Nat.le_max_left ..))
    (later.deepen (Nat.le_max_right ..))⟩

theorem isReadBack_call {arguments : List (String × Node)} (readBack : AreReadBack arguments)
    (callee : String) : IsReadBack (.call callee arguments) := by
  intro tokens next bound written _ _
  obtain ⟨name, rest, rfl, first, written⟩ := List.map_eq_cons_iff.mp written
  obtain ⟨opening, rest, rfl, second, written⟩ := List.map_eq_cons_iff.mp written
  obtain ⟨inside, last, rfl, inner, ended⟩ := List.map_eq_append_iff.mp written
  obtain ⟨closing, rfl, third⟩ := List.map_eq_singleton_iff.mp ended
  have named : name.kind = .identifier := congrArg Piece.kind first
  have value : name.value = callee := congrArg Piece.text first
  have opened : opening.kind = .leftParen := congrArg Piece.kind second
  have closed : closing.kind = .rightParen := congrArg Piece.kind third
  obtain ⟨levels, given⟩ :=
    readBack [] inside closing (.inl rfl) inner (Token.Closes.stops (.inl closed))
  rw [← value]
  exact .of_primary ⟨levels, .call named opened closed given⟩

/-! ## Definitions -/

theorem parameters_of_pieces {parameters : List Parameter} {tokens : List Token}
    (writable : parameters.all Parameter.isWritable = true)
    (written : tokens.map Token.piece = Parameter.pieces parameters) :
    Parameters tokens parameters := by
  induction parameters generalizing tokens with
  | nil =>
      cases List.map_eq_nil_iff.mp written
      exact .nil
  | cons parameter rest ih =>
      simp only [List.all_cons, Bool.and_eq_true] at writable
      obtain ⟨first, others⟩ := writable
      obtain ⟨label, variableName, typeName⟩ := parameter
      simp only [Parameter.isWritable, Bool.and_eq_true, beq_iff_eq] at first
      obtain ⟨⟨_, rfl⟩, _⟩ := first
      obtain ⟨name, tokens, rfl, first, written⟩ := List.map_eq_cons_iff.mp written
      obtain ⟨colon, tokens, rfl, second, written⟩ := List.map_eq_cons_iff.mp written
      obtain ⟨type, tokens, rfl, third, written⟩ := List.map_eq_cons_iff.mp written
      obtain ⟨comma, tokens, rfl, fourth, written⟩ := List.map_eq_append_iff.mp written
      have optional : OptionalComma comma := by
        refine optionalComma_of_pieces ?_ fourth
        split
        · exact .inl rfl
        · exact .inr rfl
      have labelled : name.value = variableName := congrArg Piece.text first
      have typed : type.value = typeName := congrArg Piece.text third
      rw [← labelled, ← typed]
      exact .cons (congrArg Piece.kind first) (congrArg Piece.kind second)
        (congrArg Piece.kind third) optional (ih others written)

theorem IsReadBack.isDefinition {body : Node} (readBack : body.IsReadBack) {name : String}
    {parameters : List Parameter} {returnType : ReturnType} {tokens : List Token}
    (writable : parameters.all Parameter.isWritable = true)
    (written : tokens.map Token.piece = (function name parameters returnType body).pieces)
    (next : Token) :
    IsPhrase .definition tokens next (.function name parameters returnType body) := by
  obtain ⟨word, rest, rfl, first, written⟩ := List.map_eq_cons_iff.mp written
  obtain ⟨named, rest, rfl, second, written⟩ := List.map_eq_cons_iff.mp written
  obtain ⟨opening, rest, rfl, third, written⟩ := List.map_eq_cons_iff.mp written
  obtain ⟨header, rest, rfl, taken, written⟩ := List.map_eq_append_iff.mp written
  obtain ⟨closing, rest, rfl, fourth, written⟩ := List.map_eq_cons_iff.mp written
  obtain ⟨arrow, rest, rfl, fifth, written⟩ := List.map_eq_cons_iff.mp written
  obtain ⟨type, rest, rfl, sixth, written⟩ := List.map_eq_cons_iff.mp written
  obtain ⟨left, rest, rfl, seventh, written⟩ := List.map_eq_cons_iff.mp written
  obtain ⟨inside, last, rfl, inner, ended⟩ := List.map_eq_append_iff.mp written
  obtain ⟨right, rfl, eighth⟩ := List.map_eq_singleton_iff.mp ended
  have exited : right.kind = .rightBrace := congrArg Piece.kind eighth
  have stops : right.Stops := Token.Closes.stops (.inr (.inl exited))
  obtain ⟨levels, inner⟩ := readBack.isExpression inner stops
  have value : named.value = name := congrArg Piece.text second
  have returned : ReturnType.ofName type.value = returnType := by
    rw [show type.value = returnType.name from congrArg Piece.text sixth, ReturnType.ofName_name]
  rw [← value, ← returned]
  exact ⟨levels, .function (congrArg Piece.kind first) (congrArg Piece.kind second)
    (congrArg Piece.kind third) (parameters_of_pieces writable taken) (congrArg Piece.kind fourth)
    (congrArg Piece.kind fifth) (congrArg Piece.kind sixth) (congrArg Piece.kind seventh) inner
    exited⟩

theorem isReadBack_function {name : String} {parameters : List Parameter}
    {returnType : ReturnType} {body : Node}
    (writable : parameters.all Parameter.isWritable = true) (readBack : body.IsReadBack) :
    IsReadBack (.function name parameters returnType body) := by
  intro tokens next bound written _ _
  obtain ⟨levels, definition⟩ := readBack.isDefinition writable written next
  exact .of_primary ⟨levels, .defined definition⟩

/-! ## Nodes -/

mutual

/-- All nodes that can be written are read back. -/
theorem isReadBack : ∀ node : Node, node.isWritable = true → node.IsReadBack
  | .number value, writable => by
      obtain ⟨magnitude, rfl⟩ := exists_magnitude_of_isWritable writable
      exact isReadBack_number magnitude
  | .variable name, _ => isReadBack_variable name
  | .call callee arguments, writable => by
      simp only [isWritable, Bool.and_eq_true] at writable
      exact isReadBack_call (areReadBack arguments writable.2) callee
  | .binary operator lhs rhs, writable => by
      simp only [isWritable, Bool.and_eq_true] at writable
      obtain ⟨⟨ranked, left⟩, right⟩ := writable
      exact isReadBack_binary ranked (isReadBack lhs left) (isReadBack rhs right)
  | .function name parameters returnType body, writable => by
      simp only [isWritable, Bool.and_eq_true] at writable
      obtain ⟨⟨_, taken⟩, inner⟩ := writable
      exact isReadBack_function taken (isReadBack body inner)
  | .bareReturn, _ => isReadBack_bareReturn
  | .returning value, writable => isReadBack_returning (isReadBack value writable)

theorem areReadBack : ∀ arguments : List (String × Node), areWritable arguments = true →
    AreReadBack arguments
  | [], _ => areReadBack_nil
  | (label, value) :: rest, writable => by
      simp only [areWritable, Bool.and_eq_true] at writable
      obtain ⟨⟨_, given⟩, others⟩ := writable
      exact areReadBack_cons (isReadBack value given) (areReadBack rest others)

end

/-! ## Programs -/

def isDefinition (node : Node) : Bool :=
  node.functionName?.isSome

/-- The tokens with the pieces of definitions are a program of these. -/
theorem isProgram_of_pieces {nodes : List Node} {tokens : List Token}
    (writable : ∀ node ∈ nodes, node.isDefinition = true ∧ node.isWritable = true)
    (written : tokens.map Token.piece = nodes.flatMap pieces) (closing : Token) :
    IsProgram tokens closing nodes := by
  induction nodes generalizing tokens with
  | nil =>
      cases List.map_eq_nil_iff.mp written
      exact ⟨0, .nil⟩
  | cons node nodes ih =>
      obtain ⟨⟨definition, first⟩, others⟩ := List.forall_mem_cons.mp writable
      rw [List.flatMap_cons] at written
      obtain ⟨before, after, rfl, inner, written⟩ := List.map_eq_append_iff.mp written
      obtain ⟨levels, items⟩ := ih others written
      cases node with
      | function name parameters returnType body =>
          simp only [isWritable, Bool.and_eq_true] at first
          obtain ⟨⟨_, taken⟩, body⟩ := first
          obtain ⟨levels', phrase⟩ :=
            (isReadBack _ body).isDefinition taken inner (after.headD closing)
          exact ⟨max levels levels', .definition (phrase.deepen (Nat.le_max_right ..))
            (items.deepen (Nat.le_max_left ..))⟩
      | _ => cases definition

end Node

/--
Splitting the source text of definitions and parsing the tokens gives the very
same definitions, whenever the limit on the nesting admits as many levels as
there are tokens before the last one.
-/
theorem outcome_parse_source {nodes : List Node}
    (writable : ∀ node ∈ nodes, node.isDefinition = true ∧ node.isWritable = true)
    (file? : Option String) :
    ∃ tokens, (tokenize (Node.source nodes) file?).outcome = .ok tokens ∧
      ∀ settings : Settings, tokens.length ≤ settings.maxDepth + 1 →
        (parse settings tokens).outcome = .ok nodes := by
  have cut := Node.isCutInto_source fun node member => (writable node member).2
  obtain ⟨tokens, closing, split, written, ends⟩ := cut.exists_outcome_tokenize file?
  obtain ⟨levels, items⟩ := Node.isProgram_of_pieces writable written closing
  refine ⟨tokens ++ [closing], split, fun settings room => ?_⟩
  rw [List.length_append, List.length_singleton] at room
  exact outcome_parse_of_items items.levels_of_length ends (Nat.le_of_succ_le_succ room)

/-- A definition with every kind of operand, and the text that it is read back from. -/
theorem outcome_parse_recursive_definition :
    ∃ tokens,
      (tokenize "func f ( n : Int ) -> Double \x7b return ( n + 0 ) * f ( n : return ) \x7d"
        none).outcome = .ok tokens ∧
      (parse ⟨"shell", tokens.length⟩ tokens).outcome =
        .ok [.function "f" [⟨"n", "n", "Int"⟩] .double (.returning (.binary .multiplication
          (.binary .addition (.variable "n") (.number (.finite false .zero)))
          (.call "f" [("n", .bareReturn)])))] := by
  have writable : ∀ node ∈ [Node.function "f" [⟨"n", "n", "Int"⟩] .double
      (.returning (.binary .multiplication
        (.binary .addition (.variable "n") (.number (.finite false .zero)))
        (.call "f" [("n", .bareReturn)])))], node.isDefinition = true ∧ node.isWritable = true := by
    decide
  obtain ⟨tokens, split, parsed⟩ := outcome_parse_source writable none
  refine ⟨tokens, ?_, parsed ⟨"shell", tokens.length⟩ (Nat.le_succ _)⟩
  refine (congrArg (fun text => (tokenize text none).outcome) ?_).trans split
  decide +kernel

end ExprLang
