import ExprLang.Proofs.Grammar.Phrase
import ExprLang.Proofs.Parser.Rules

/-!
# Phrases are read

A parser reads a list of tokens before a next token if it gives a fixed value
wherever these tokens are ahead and the levels of nesting suffice. Every phrase
is read by the parser of its form. The operands of a chain are grouped by the
climb while the grammar groups them from the left, so a chain is described by
its first operand and by what climbing on from it comes to.
-/

namespace ExprLang

namespace Parser

variable {α β : Type} {levels : Nat} {tokens rest : List Token} {token next : Token}

theorem exists_cons_eq_append (tokens : List Token) (next : Token) (rest : List Token) :
    ∃ unread, tokens ++ next :: rest = tokens.headD next :: unread := by
  cases tokens with
  | nil => exact ⟨rest, rfl⟩
  | cons head tail => exact ⟨tail ++ next :: rest, rfl⟩

/-- The parser gives the value and stops at the next token wherever the tokens are ahead of it. -/
def Reads (levels : Nat) (parser : Parser α) (tokens : List Token) (next : Token) (value : α) :
    Prop :=
  ∀ settings cursor rest, cursor.remaining = tokens ++ next :: rest →
    cursor.depth + levels ≤ settings.maxDepth →
    ∃ trace, parser.run settings cursor = (.ok value, ⟨next, rest, cursor.depth, trace⟩)

namespace Reads

theorem pure (value : α) : Reads levels (Pure.pure value) [] next value := by
  rintro settings ⟨current, unread, depth, trace⟩ rest ahead _
  cases ahead
  exact ⟨trace, rfl⟩

theorem bind {first : Parser α} {second : α → Parser β} {value : α} {result : β}
    (reads : Reads levels first tokens (rest.headD next) value)
    (later : Reads levels (second value) rest next result) :
    Reads levels (first >>= second) (tokens ++ rest) next result := by
  intro settings cursor after ahead room
  obtain ⟨unread, shape⟩ := exists_cons_eq_append rest next after
  rw [List.append_assoc, shape] at ahead
  obtain ⟨trace, ran⟩ := reads settings cursor unread ahead room
  rw [run_bind_of_ok ran]
  exact later settings _ after shape.symm room

/-- Steps that do not read on may come last. -/
theorem bind_nil {first : Parser α} {second : α → Parser β} {value : α} {result : β}
    (reads : Reads levels first tokens next value)
    (later : Reads levels (second value) [] next result) :
    Reads levels (first >>= second) tokens next result := by
  have whole : Reads levels (first >>= second) (tokens ++ []) next result := reads.bind later
  rwa [List.append_nil] at whole

theorem current {second : Token → Parser α} {result : α}
    (later : Reads levels (second (tokens.headD next)) tokens next result) :
    Reads levels (Parser.current >>= second) tokens next result := by
  intro settings cursor after ahead room
  have same : cursor.current = tokens.headD next := by
    cases tokens with
    | nil => exact (List.cons.inj ahead).1
    | cons head rest => exact (List.cons.inj ahead).1
  rw [run_bind_of_ok (run_current settings cursor), same]
  exact later settings cursor after ahead room

theorem ofExcept {given : Except Fault α} {second : α → Parser β} {value : α} {result : β}
    (found : given = .ok value) (later : Reads levels (second value) tokens next result) :
    Reads levels (Parser.ofExcept given >>= second) tokens next result := by
  rw [found]
  exact later

theorem note {event : Event} {second : Unit → Parser α} {result : α}
    (later : Reads levels (second ()) tokens next result) :
    Reads levels (Parser.note event >>= second) tokens next result :=
  fun settings cursor after ahead room => later settings (cursor.note event) after ahead room

theorem advance {second : Token → Parser α} {result : α}
    (later : Reads levels (second (tokens.headD next)) tokens next result) :
    Reads levels (Parser.advance >>= second) (token :: tokens) next result := by
  rintro settings ⟨current, unread, depth, trace⟩ after ahead room
  simp only [Cursor.remaining, List.cons_append, List.cons.injEq] at ahead
  obtain ⟨rfl, rfl⟩ := ahead
  cases tokens with
  | nil => exact later settings _ after rfl room
  | cons head rest => exact later settings _ after rfl room

theorem expectOr {kind : TokenKind} {blame : Token → Fault} {second : Token → Parser α}
    {result : α} (same : token.kind = kind)
    (later : Reads levels (second token) tokens next result) :
    Reads levels (Parser.expectOr kind blame >>= second) (token :: tokens) next result := by
  rw [Parser.expectOr, bind_assoc]
  refine .current ?_
  rw [List.headD_cons, if_pos same, bind_assoc]
  exact .advance later

theorem skipComma {comma : List Token} {second : Unit → Parser α} {result : α}
    (optional : OptionalComma comma) (other : (tokens.headD next).kind ≠ .comma)
    (later : Reads levels (second ()) tokens next result) :
    Reads levels (Parser.skipComma >>= second) (comma ++ tokens) next result := by
  rw [Parser.skipComma, bind_assoc]
  refine .current ?_
  cases optional with
  | absent =>
      rw [List.nil_append, if_neg other]
      exact later
  | present token kind =>
      rw [List.cons_append, List.headD_cons, if_pos kind, bind_assoc]
      exact .advance later

theorem nested {parser : Parser α} {value : α} (reads : Reads levels parser tokens next value) :
    Reads (levels + 1) (Parser.nested parser) tokens next value := by
  intro settings cursor after ahead room
  have open' : ¬ settings.maxDepth ≤ cursor.depth := by omega
  obtain ⟨trace, ran⟩ := reads settings { cursor with depth := cursor.depth + 1 } after ahead
    (by dsimp only; omega)
  rw [run_nested, if_neg open', ran]
  exact ⟨trace, rfl⟩

theorem map {parser : Parser α} {value : α} (reads : Reads levels parser tokens next value)
    (change : α → β) : Reads levels (do return change (← parser)) tokens next (change value) :=
  reads.bind_nil (.pure _)

/-- A parser that also gives a result on the spot reads no token. -/
theorem unique {parser : Parser α} {value other : α} (reads : Reads levels parser tokens next value)
    (here : Reads levels parser [] (tokens.headD next) other) : tokens = [] ∧ value = other := by
  cases tokens with
  | nil =>
      obtain ⟨_, ran⟩ := reads ⟨"", levels⟩ ⟨next, [], 0, []⟩ [] rfl (Nat.le_of_eq (Nat.zero_add _))
      obtain ⟨_, also⟩ := here ⟨"", levels⟩ ⟨next, [], 0, []⟩ [] rfl (Nat.le_of_eq (Nat.zero_add _))
      rw [ran] at also
      cases also
      exact ⟨rfl, rfl⟩
  | cons head rest =>
      obtain ⟨_, ran⟩ := reads ⟨"", levels⟩ ⟨head, rest ++ [next], 0, []⟩ [] rfl
        (Nat.le_of_eq (Nat.zero_add _))
      obtain ⟨_, also⟩ := here ⟨"", levels⟩ ⟨head, rest ++ [next], 0, []⟩ (rest ++ [next]) rfl
        (Nat.le_of_eq (Nat.zero_add _))
      rw [ran] at also
      simp at also

end Reads

/-! ## Parameters -/

theorem reads_parameters {parameters : List Parameter} (taken : Parameters tokens parameters)
    (closed : next.kind = .rightParen) (done : List Parameter) :
    Reads levels (recurse Rule.parametersStep done) tokens next (done.reverse ++ parameters) := by
  induction taken generalizing done with
  | nil =>
      rw [parameters_eq, Rule.parametersStep, List.append_nil]
      refine .current ?_
      rw [List.headD_nil, if_pos closed]
      exact .pure _
  | @cons label colon type comma rest parameters labelled separated typed ended others ih =>
      have open' : label.kind ≠ .rightParen := by rw [labelled]; decide
      have other : (rest.headD next).kind ≠ .comma := by
        cases others with
        | nil => rw [List.headD_nil, closed]; decide
        | cons labelled => rw [List.headD_cons, labelled]; decide
      have more := ih (⟨label.value, label.value, type.value⟩ :: done)
      rw [List.reverse_cons, List.append_assoc] at more
      rw [parameters_eq, Rule.parametersStep]
      refine .current ?_
      rw [List.headD_cons, if_neg open', Rule.parameter]
      simp only [bind_assoc, pure_bind]
      exact .expectOr labelled (.expectOr separated (.expectOr typed (.skipComma ended other more)))

/-! ## Chains of operators -/

/--
A chain starts with an operand, and climbing on from it over the rest of the
chain comes to the same as climbing on from the value of the whole chain.
-/
def Climbs (levels : Nat) (least : Int) (tokens : List Token) (next : Token) (node : Node) : Prop :=
  ∃ operand chain first, tokens = operand ++ chain ∧
    Reads levels primary operand (chain.headD next) (some first) ∧
    ∀ tail last result, tail.headD last = next →
      Reads levels (climb least node) tail last result →
      Reads levels (climb least first) (chain ++ tail) last result

theorem headD_append (first second : List Token) (next : Token) :
    (first ++ second).headD next = first.headD (second.headD next) := by
  cases first <;> rfl

/-- Climbing stops before a token that binds too loosely. -/
theorem reads_climb_of_bindsBelow {least : Int} (loose : next.BindsBelow least) (lhs : Node) :
    Reads levels (climb least lhs) [] next (some lhs) := by
  obtain ⟨precedence, found, lower⟩ := loose
  rw [climb_eq, Rule.climbStep]
  refine .current (.ofExcept found ?_)
  rw [if_pos lower]
  exact .pure _

/-- Climbing fails before an operator without a precedence. -/
theorem Reads.precedence_eq_ok {least : Int} {lhs : Node} {result : Option Node}
    (reads : Reads levels (climb least lhs) tokens next result) :
    ∃ precedence, (tokens.headD next).precedence = .ok precedence := by
  obtain ⟨unread, shape⟩ := exists_cons_eq_append tokens next []
  obtain ⟨_, ran⟩ := reads ⟨"", levels⟩ ⟨tokens.headD next, unread, 0, []⟩ [] shape.symm
    (Nat.le_of_eq (Nat.zero_add _))
  rw [climb_eq, Rule.climbStep, run_bind_of_ok (run_current _ _)] at ran
  cases found : (tokens.headD next).precedence with
  | ok precedence => exact ⟨precedence, rfl⟩
  | error fault =>
      rw [run_bind_of_error (by rw [run_ofExcept, found])] at ran
      cases ran

theorem reads_climb_of_multiplicative {least : Int} {sign last : Token} {operator : Operator}
    {right tail : List Token} {lhs rhs : Node} {result : Option Node}
    (denoted : sign.operator? = some operator) (binds : operator.IsMultiplicative)
    (low : least ≤ 40) (operand : Reads levels primary right (tail.headD last) (some rhs))
    (follows : (tail.headD last).BindsBelow 41)
    (later : Reads levels (climb least (.binary operator lhs rhs)) tail last result) :
    Reads levels (climb least lhs) (sign :: (right ++ tail)) last result := by
  obtain ⟨tighter, found, lower⟩ := follows
  rw [climb_eq, Rule.climbStep]
  refine .current (.ofExcept (Token.precedence_of_multiplicative denoted binds) ?_)
  rw [if_neg (by omega), List.headD_cons, denoted]
  refine .advance (.bind operand (.current (.ofExcept found ?_)))
  rw [if_neg (by omega)]
  exact later

theorem reads_climb_of_additive {sign last : Token} {operator : Operator}
    {right tail : List Token} {lhs rhs : Node} {result : Option Node}
    (denoted : sign.operator? = some operator) (binds : operator.IsAdditive)
    (operand : Climbs levels 21 right (tail.headD last) rhs)
    (follows : (tail.headD last).BindsBelow 21)
    (later : Reads levels (climb 0 (.binary operator lhs rhs)) tail last result) :
    Reads levels (climb 0 lhs) (sign :: (right ++ tail)) last result := by
  obtain ⟨first, chain, node, rfl, reads, climbs⟩ := operand
  have product : Reads levels (climb 21 node) chain (tail.headD last) (some rhs) := by
    have whole := climbs [] (tail.headD last) (some rhs) rfl (reads_climb_of_bindsBelow follows rhs)
    rwa [List.append_nil] at whole
  rw [climb_eq, Rule.climbStep]
  refine .current (.ofExcept (Token.precedence_of_additive denoted binds) ?_)
  rw [if_neg (by decide), List.headD_cons, denoted, List.append_assoc]
  rw [← headD_append] at reads
  refine .advance (.bind reads (.current ?_))
  -- the follower is tighter exactly if the chain goes on
  obtain ⟨tighter, found⟩ := product.precedence_eq_ok
  rw [headD_append]
  refine .ofExcept found ?_
  split
  · exact .note (.bind product later)
  · next loose =>
      have below : (chain.headD (tail.headD last)).BindsBelow 21 := ⟨tighter, found, by omega⟩
      obtain ⟨rfl, same⟩ := product.unique (reads_climb_of_bindsBelow below node)
      cases same
      exact later

/-! ## Operands -/

theorem reads_number {value : Binary64} (number : token.isNumber = true)
    (reads : Binary64.read? token.value = some value) :
    Reads levels primary [token] next (some (.number value)) := by
  have read : Reads levels Rule.number [token] next (.number value) := by
    refine .current ?_
    rw [List.headD_cons, if_pos number, reads]
    exact .advance (.pure _)
  refine .current ?_
  rcases (Rule.isNumber_iff token).mp number with kind | kind
  · simp only [List.headD_cons, kind]
    exact read.map some
  · simp only [List.headD_cons, kind]
    exact read.map some

theorem reads_name (named : token.kind = .identifier) (uncalled : next.kind ≠ .leftParen) :
    Reads levels primary [token] next (some (.variable token.value)) := by
  refine .current ?_
  simp only [List.headD_cons, named]
  refine .map ?_ some
  rw [Rule.identifier_eq]
  refine .current ?_
  rw [List.headD_cons, if_pos named]
  refine .expectOr named (.current ?_)
  rw [List.headD_nil, if_neg uncalled]
  exact .pure _

theorem reads_call {name opening closing : Token} {inside : List Token}
    {arguments : List (String × Node)} (named : name.kind = .identifier)
    (opened : opening.kind = .leftParen) (closed : closing.kind = .rightParen)
    (given : Reads levels (Rule.arguments expression) inside closing arguments) :
    Reads levels primary (name :: opening :: (inside ++ [closing])) next
      (some (.call name.value arguments)) := by
  refine .current ?_
  simp only [List.headD_cons, named]
  refine .map ?_ some
  rw [Rule.identifier_eq]
  refine .current ?_
  rw [List.headD_cons, if_pos named]
  refine .expectOr named (.current ?_)
  rw [List.headD_cons, if_pos opened]
  exact .expectOr opened (.bind given (.expectOr closed (.pure _)))

theorem reads_parenthesised {opening closing : Token} {inside : List Token} {node : Node}
    (opened : opening.kind = .leftParen) (closed : closing.kind = .rightParen)
    (inner : Reads levels expression inside closing (some node)) :
    Reads levels primary (opening :: (inside ++ [closing])) next (some node) := by
  refine .current ?_
  simp only [List.headD_cons, opened]
  exact .expectOr opened (.bind inner (.expectOr closed (.pure _)))

theorem reads_returning {word : Token} {value : Node} (returned : word.kind = .returnWord)
    (starts : (tokens.headD next).Starts) (inner : Reads levels expression tokens next (some value)) :
    Reads levels primary (word :: tokens) next (some (.returning value)) := by
  refine .current ?_
  simp only [List.headD_cons, returned]
  refine .map ?_ some
  refine .expectOr returned (.current ?_)
  rw [if_pos (show Rule.startsExpression _ = true from starts)]
  exact inner.bind_nil (.pure _)

theorem reads_bareReturn {word : Token} (returned : word.kind = .returnWord)
    (valueless : ¬ next.Starts) : Reads levels primary [word] next (some .bareReturn) := by
  refine .current ?_
  simp only [List.headD_cons, returned]
  refine .map ?_ some
  refine .expectOr returned (.current ?_)
  rw [List.headD_nil, if_neg (show ¬ Rule.startsExpression _ = true from valueless)]
  exact .pure _

theorem reads_returnType (typed : token.kind = .identifier) :
    Reads levels Rule.returnType [token] next (.ofName token.value) := by
  refine .expectOr typed ?_
  dsimp only
  split
  · exact .note (.pure _)
  · exact .pure _

theorem reads_body {left right : Token} {inside : List Token} {value : Node}
    (entered : left.kind = .leftBrace)
    (inner : Reads levels expression inside right (some value))
    (exited : right.kind = .rightBrace) :
    Reads levels (Rule.body expression) (left :: (inside ++ [right])) next value :=
  .expectOr entered (.bind inner (.expectOr exited (.pure _)))

theorem reads_definition {word name opening closing arrow type left right : Token}
    {header inside : List Token} {parameters : List Parameter} {value : Node}
    (defines : word.kind = .funcWord) (named : name.kind = .identifier)
    (opened : opening.kind = .leftParen) (taken : Parameters header parameters)
    (closed : closing.kind = .rightParen) (pointed : arrow.kind = .arrow)
    (typed : type.kind = .identifier) (entered : left.kind = .leftBrace)
    (inner : Reads levels expression inside right (some value))
    (exited : right.kind = .rightBrace) :
    Reads levels definition
      (word :: name :: opening ::
        (header ++ closing :: arrow :: type :: left :: (inside ++ [right]))) next
      (.function name.value parameters (.ofName type.value) value) := by
  have signed : Reads levels Rule.parameters header closing parameters :=
    reads_parameters taken closed []
  have result : Reads levels Rule.returnType [type] left (.ofName type.value) :=
    reads_returnType typed
  have content : Reads levels (Rule.body expression) (left :: (inside ++ [right])) next value :=
    reads_body entered inner exited
  refine .expectOr defines (.expectOr named (.expectOr opened (signed.bind ?_)))
  refine .expectOr closed (.expectOr pointed ?_)
  change Reads levels _ ([type] ++ (left :: (inside ++ [right]))) next _
  exact result.bind (content.bind_nil (.note (.pure _)))

/-! ## Arguments -/

theorem reads_arguments_nil (closed : next.kind = .rightParen) (done : List (String × Node)) :
    Reads levels (recurse (Rule.argumentsStep expression) done) [] next done.reverse := by
  rw [arguments_eq, Rule.argumentsStep]
  refine .current ?_
  rw [List.headD_nil, if_pos closed]
  exact .pure _

theorem reads_arguments_cons {label colon : Token} {comma inside : List Token} {value : Node}
    {arguments done : List (String × Node)} (separated : OptionalComma comma)
    (labelled : label.kind = .identifier) (followed : colon.kind = .colon)
    (given : Reads levels expression inside (rest.headD next) (some value))
    (others : Reads levels (recurse (Rule.argumentsStep expression)
      ((label.value, value) :: done)) rest next arguments) :
    Reads levels (recurse (Rule.argumentsStep expression) done)
      (comma ++ label :: colon :: (inside ++ rest)) next arguments := by
  have open' : ((comma ++ label :: colon :: (inside ++ rest)).headD next).kind ≠ .rightParen := by
    cases separated with
    | absent => simp [labelled]
    | present token kind => simp [kind]
  rw [arguments_eq, Rule.argumentsStep]
  refine .current ?_
  rw [if_neg open', Rule.argument]
  refine .skipComma separated (by rw [List.headD_cons, labelled]; decide) ?_
  simp only [bind_assoc]
  exact .expectOr labelled (.expectOr followed (given.bind others))

/-! ## All forms -/

/-- How the phrases of a form are read. -/
def ReadsForm (levels : Nat) (form : Form) (tokens : List Token) (next : Token)
    (value : form.Value) : Prop :=
  match form with
  | .primary => Reads levels primary tokens next (some value)
  | .product => ∀ least ≤ 40, next.BindsBelow 41 → Climbs levels least tokens next value
  | .sum => next.BindsBelow 21 → Climbs levels 0 tokens next value
  | .expression => next.operator? = none → Reads levels expression tokens next (some value)
  | .definition => Reads levels definition tokens next value
  | .arguments => next.kind = .rightParen → ∀ done,
      Reads levels (recurse (Rule.argumentsStep expression) done) tokens next
        (done.reverse ++ value)

theorem climbs_of_primary {least : Int} {node : Node}
    (reads : Reads levels primary tokens next (some node)) :
    Climbs levels least tokens next node :=
  ⟨tokens, [], node, (List.append_nil _).symm, reads, fun _ _ _ _ later => later⟩

/-- A chain goes on with tokens over which climbing takes its value to a larger one. -/
theorem Climbs.extend {least : Int} {left more : List Token} {lhs node : Node}
    (climbs : Climbs levels least left (more.headD next) lhs)
    (further : ∀ tail last result, tail.headD last = next →
      Reads levels (climb least node) tail last result →
      Reads levels (climb least lhs) (more ++ tail) last result) :
    Climbs levels least (left ++ more) next node := by
  obtain ⟨operand, chain, first, rfl, reads, along⟩ := climbs
  refine ⟨operand, chain ++ more, first, List.append_assoc _ _ _, ?_, ?_⟩
  · rwa [headD_append]
  · intro tail last result follows later
    have joins : (more ++ tail).headD last = more.headD next := by rw [headD_append, follows]
    rw [List.append_assoc]
    exact along (more ++ tail) last result joins (further tail last result follows later)

theorem climbs_of_multiplied {least : Int} {left right : List Token} {sign : Token}
    {operator : Operator} {lhs rhs : Node} (product : Climbs levels least left sign lhs)
    (low : least ≤ 40) (denoted : sign.operator? = some operator)
    (binds : operator.IsMultiplicative) (operand : Reads levels primary right next (some rhs))
    (follows : next.BindsBelow 41) :
    Climbs levels least (left ++ sign :: right) next (.binary operator lhs rhs) := by
  refine product.extend ?_
  rintro tail last result rfl later
  exact reads_climb_of_multiplicative denoted binds low operand follows later

theorem climbs_of_added {left right : List Token} {sign : Token} {operator : Operator}
    {lhs rhs : Node} (sum : Climbs levels 0 left sign lhs)
    (denoted : sign.operator? = some operator) (binds : operator.IsAdditive)
    (operand : Climbs levels 21 right next rhs) (follows : next.BindsBelow 21) :
    Climbs levels 0 (left ++ sign :: right) next (.binary operator lhs rhs) := by
  refine sum.extend ?_
  rintro tail last result rfl later
  exact reads_climb_of_additive denoted binds operand follows later

theorem reads_expression_of_climbs {node : Node} (sum : Climbs levels 0 tokens next node)
    (complete : next.operator? = none) :
    Reads (levels + 1) expression tokens next (some node) := by
  obtain ⟨first, chain, lhs, rfl, reads, climbs⟩ := sum
  have stops : next.BindsBelow 0 := Token.bindsBelow_of_none complete (Int.le_refl 0)
  have climbed := climbs [] next (some node) rfl (reads_climb_of_bindsBelow stops node)
  rw [List.append_nil] at climbed
  rw [expression_eq]
  exact .nested (.bind reads climbed)

/-- Before a closing parenthesis, no argument is followed by an operator. -/
theorem operator?_of_arguments {arguments : List (String × Node)}
    (phrase : Phrase levels .arguments tokens next arguments) (closed : next.kind = .rightParen) :
    (tokens.headD next).operator? = none := by
  refine Token.operator?_of_kind_ne ?_
  cases phrase with
  | noArguments => rw [List.headD_nil, closed]; decide
  | argument separated labelled _ _ _ =>
      cases separated with
      | absent => rw [List.nil_append, List.headD_cons, labelled]; decide
      | present token comma => rw [List.cons_append, List.headD_cons, comma]; decide

/-- Every phrase is read by the parser of its form. -/
theorem reads_of_phrase {form : Form} {value : form.Value}
    (phrase : Phrase levels form tokens next value) : ReadsForm levels form tokens next value := by
  induction phrase with
  | number number reads => exact reads_number number reads
  | name named uncalled => exact reads_name named uncalled
  | call named opened closed _ ih => exact reads_call named opened closed (ih closed [])
  | parenthesised opened closed _ ih =>
      exact reads_parenthesised opened closed
        (ih (Token.Closes.noOperator (.inl closed)))
  | defined definition ih =>
      refine .current ?_
      cases definition with
      | function defines _ _ _ _ _ _ _ _ _ =>
          simp only [List.headD_cons, defines]
          exact ih.map some
  | returning returned inner complete ih =>
      obtain ⟨first, rest, rfl, starts⟩ := inner.exists_first nofun
      exact reads_returning returned starts (ih complete)
  | bareReturn returned valueless => exact reads_bareReturn returned valueless
  | factor _ ih => exact fun _ _ _ => climbs_of_primary ih
  | multiplied _ denoted binds _ left right =>
      intro least low follows
      have tight := Token.precedence_of_multiplicative denoted binds
      exact climbs_of_multiplied (left least low ⟨40, tight, by decide⟩) low denoted binds right
        follows
  | term _ ih =>
      rintro ⟨precedence, found, lower⟩
      exact ih 0 (by decide) ⟨precedence, found, by omega⟩
  | added _ denoted binds _ left right =>
      intro follows
      have loose := Token.precedence_of_additive denoted binds
      obtain ⟨precedence, found, lower⟩ := follows
      exact climbs_of_added (left ⟨20, loose, by decide⟩) denoted binds
        (right 21 (by decide) ⟨precedence, found, by omega⟩) ⟨precedence, found, lower⟩
  | nested _ ih =>
      intro complete
      exact reads_expression_of_climbs
        (ih (Token.bindsBelow_of_none complete (by omega))) complete
  | function defines named opened taken closed pointed typed entered _ exited ih =>
      exact reads_definition defines named opened taken closed pointed typed entered
        (ih (Token.Closes.noOperator (.inr (.inl exited)))) exited
  | noArguments =>
      intro closed done
      rw [List.append_nil]
      exact reads_arguments_nil closed done
  | @argument _ label _ _ _ _ _ value _ separated labelled followed _ others given ih =>
      intro closed done
      have more := ih closed ((label.value, value) :: done)
      rw [List.reverse_cons, List.append_assoc] at more
      exact reads_arguments_cons separated labelled followed
        (given (operator?_of_arguments others closed)) more

/-! ## Items -/

/-- The items of a program are added one by one, and the parser goes on at the next token. -/
theorem run_items_of_items {nodes : List Node} (items : Items levels tokens next nodes)
    (other : next.operator? = none) {settings : Settings} {cursor : Cursor} {rest : List Token}
    (ahead : cursor.remaining = tokens ++ next :: rest)
    (room : cursor.depth + levels ≤ settings.maxDepth) (progress : Progress) :
    ∃ trace, (recurse itemsStep progress).run settings cursor =
      (recurse itemsStep { progress with items := nodes.reverse ++ progress.items }).run settings
        ⟨next, rest, cursor.depth, trace⟩ := by
  induction items generalizing cursor progress with
  | nil =>
      obtain ⟨current, unread, depth, trace⟩ := cursor
      cases ahead
      exact ⟨trace, rfl⟩
  | @definition tokens after next node nodes first others ih =>
      obtain ⟨unread, shape⟩ := exists_cons_eq_append after next rest
      rw [List.append_assoc, shape] at ahead
      obtain ⟨trace, ran⟩ := reads_of_phrase first settings cursor unread ahead room
      have defines : cursor.current.kind = .funcWord := by
        cases first with
        | function defines _ _ _ _ _ _ _ _ _ => rw [(List.cons.inj ahead).1, defines]
      rw [run_items_of_definition defines ran, List.reverse_cons, List.append_assoc]
      have later : (Cursor.note ⟨after.headD next, unread, cursor.depth, trace⟩
          (.parsedItem node)).remaining = after ++ next :: rest := shape.symm
      exact ih other later room (progress.add node)
  | @expression tokens after next body nodes first plain others ih =>
      obtain ⟨unread, shape⟩ := exists_cons_eq_append after next rest
      rw [List.append_assoc, shape] at ahead
      have complete := others.operator?_headD other
      obtain ⟨trace, ran⟩ := reads_of_phrase first complete settings cursor unread ahead room
      obtain ⟨word, more, rfl, starts⟩ := first.exists_first nofun
      have current : cursor.current = word := (List.cons.inj ahead).1
      have unfinished : cursor.current.kind ≠ .endOfInput := by
        rw [current]
        exact first.kind_ne_endOfInput word (List.mem_cons_self ..)
      have plain' : cursor.current.kind ≠ .funcWord := by
        rw [current]
        exact plain word rfl
      rw [run_items_of_expression unfinished plain' ran, List.reverse_cons, List.append_assoc]
      have later : (Cursor.note ⟨after.headD next, unread, cursor.depth, trace⟩
          (.parsedItem (.entryPoint body))).remaining = after ++ next :: rest := shape.symm
      exact ih other later room (progress.add (.entryPoint body))

end Parser

/-! ## Programs -/

/-- The items of a program are what parsing it gives, if its levels suffice. -/
theorem outcome_parse_of_items {settings : Settings} {levels : Nat} {tokens : List Token}
    {closing : Token} {nodes : List Node} (items : Items levels tokens closing nodes)
    (ends : closing.kind = .endOfInput) (room : levels ≤ settings.maxDepth) :
    (parse settings (tokens ++ [closing])).outcome = .ok nodes := by
  obtain ⟨first, rest, shape, start⟩ := Cursor.ofTokens_append_singleton settings.file ends
  have other := Token.Closes.noOperator (.inr (.inr ends))
  have ahead : (Cursor.start first rest).remaining = tokens ++ closing :: [] := shape.symm
  obtain ⟨trace, ran⟩ := Parser.run_items_of_items items other ahead (by simpa [Cursor.start])
    ⟨[], 0⟩
  rw [outcome_parse start, ran, Parser.run_items_of_endOfInput ends]
  simp [Except.map]

end ExprLang
